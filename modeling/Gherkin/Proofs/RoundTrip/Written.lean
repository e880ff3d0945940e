/-
  Gherkin/Proofs/RoundTrip/Written.lean
  =====================================
  **What attested nodes look like when they are written.**

  A node that was read from lines is written in such a way that its lines are
  recognised again: a header by its keyword, a step by its alias, a line of a
  description by being nothing else.  What a node remembers of its line is
  trimmed and holds no line feed, and this is all that is needed.
-/
import Gherkin.Proofs.RoundTrip.Arguments
import Gherkin.Proofs.Session.Faithfulness
import Gherkin.Proofs.Tree.WellFormed

namespace Gherkin

open Text

/-! ## 1. Blanks and case -/

namespace Text

theorem lower_eq_space {c : Char} (h : lower c = [' ']) : c = ' ' := by
  unfold lower at h
  split at h
  · simp at h
  · split at h
    · rename_i run hrun
      have hlarge : ∀ run ∈ capitalRuns, 32 < run.small := by decide +kernel
      have hsmall := hlarge run (List.mem_of_find?_eq_some hrun)
      have hcode : (Char.ofNat (run.small + (c.toNat - run.first))).toNat = 32 :=
        congrArg Char.toNat (List.cons.inj h).1
      by_cases hvalid : (run.small + (c.toNat - run.first)).isValidChar
      · rw [Char.ofNat, dif_pos hvalid] at hcode
        have hsum : run.small + (c.toNat - run.first) = 32 := hcode
        omega
      · rw [Char.ofNat, dif_neg hvalid] at hcode
        exact absurd hcode (by decide)
    · simpa using h

/-- No character but the space is a space in another case. -/
theorem eq_space_of_sameLetter {c : Char} (h : sameLetter c ' ' = true) : c = ' ' := by
  apply lower_eq_space
  have hspace : lower ' ' = [' '] := by decide
  rw [← hspace]
  simpa [sameLetter] using h

theorem suffix_of_afterAnyCase? {lead t rest : Text} (h : afterAnyCase? lead t = some rest) :
    rest <:+ t := by
  induction lead generalizing t with
  | nil =>
    rw [afterAnyCase?, Option.some.injEq] at h
    exact h ▸ List.suffix_refl _
  | cons c lead ih =>
    cases t with
    | nil => simp [afterAnyCase?] at h
    | cons d t =>
      rw [afterAnyCase?] at h
      split at h
      · exact (ih h).trans (List.suffix_cons d t)
      · simp at h

/-- Where an alias spells a whole line, their last characters agree up to case. -/
theorem getLast?_of_afterAnyCase? {lead t : Text} (h : afterAnyCase? lead t = some []) :
    ∀ c ∈ lead.getLast?, ∃ d ∈ t.getLast?, sameLetter d c = true := by
  induction lead generalizing t with
  | nil => simp
  | cons c lead ih =>
    cases t with
    | nil => simp [afterAnyCase?] at h
    | cons d t =>
      rw [afterAnyCase?] at h
      split at h
      · rename_i hletter
        intro e he
        by_cases hlead : lead = []
        · have ht : t = [] := by simpa [hlead, afterAnyCase?] using h
          rw [hlead, List.getLast?_singleton, Option.mem_def, Option.some.injEq] at he
          exact ⟨d, by simp [ht], he ▸ hletter⟩
        · rw [List.getLast?_cons_of_ne_nil hlead] at he
          obtain ⟨last, hlast, hsame⟩ := ih h e he
          have ht : t ≠ [] := by
            rintro rfl
            simp at hlast
          exact ⟨last, by rwa [List.getLast?_cons_of_ne_nil ht], hsame⟩
      · simp at h

end Text

/-! ## 2. Tags, headers and descriptions -/

section Nodes

variable {src : Source} {keywords : Keywords}

/-- A written header is its keyword, a colon and a tail that holds the title. -/
theorem Header.written_eq {header : Header} (htitle : Trimmed header.title) :
    ∃ tail : Text, Printer.header header = header.keyword ++ ':' :: tail ∧
      trim tail = header.title ∧ SolidEnd (':' :: tail) := by
  unfold Printer.header
  by_cases hempty : header.title = []
  · exact ⟨[], by simp [hempty], by rw [hempty]; rfl, by decide⟩
  · refine ⟨' ' :: header.title, by simp [hempty], ?_, ?_⟩
    · have hspace : ∀ c ∈ [' '], isBlank c = true := isBlank_of_mem_replicate (n := 1)
      exact (trim_append_of_blank hspace header.title).trans (trim_eq_self htitle)
    · exact htitle.2.append (s := [':', ' ']) hempty

/-- A written header is a header of its category and nothing else. -/
theorem Header.Attested.headerLine {header : Header} {category : Category}
    (h : header.Attested src keywords category) (hclear : keywords.Clear)
    (hcategory : category ∈ headings) (depth : Nat) :
    HeaderLine keywords category header (Printer.indent depth (Printer.header header)) := by
  obtain ⟨raw, -, hfits⟩ := h
  obtain ⟨hmem, rest, -, htitle⟩ := Keywords.header?_eq_some hfits
  have hplain := (hclear.header_plain category hcategory _ hmem).1
  obtain ⟨tail, htail, htrim, hend⟩ := Header.written_eq (htitle ▸ trimmed_trim rest)
  have hne := ne_nil_of_beginsPlainly hplain
  have hline : trim (Printer.indent depth (Printer.header header)) =
      header.keyword ++ ':' :: tail := by
    rw [trim_indent, htail, trim_eq_self]
    exact ⟨(solidStart_of_beginsPlainly hplain).append hne, hend.append (by simp)⟩
  refine ⟨?_, ?_, ?_, ?_⟩
  · rw [hline, hclear.header?_append hcategory hmem, htrim]
  · intro other hother hdiffer
    rw [hline]
    exact hclear.header?_other hcategory hother hdiffer hmem tail
  · rw [hline]
    exact hclear.step?_header hcategory hmem tail
  · rw [hline]
    exact beginsPlainly_append hplain _

theorem Header.Attested.singleLine {header : Header} {category : Category}
    (hsrc : ∀ n raw, src n raw → SingleLine raw) (h : header.Attested src keywords category) :
    SingleLine (Printer.header header) := by
  obtain ⟨raw, hraw, hfits⟩ := h
  obtain ⟨-, rest, hline, htitle⟩ := Keywords.header?_eq_some hfits
  have hsingle : SingleLine (header.keyword ++ ':' :: rest) := by
    rw [← hline]
    exact (hsrc _ _ hraw).of_subset fun c => mem_of_mem_trim
  have hkeyword : SingleLine header.keyword :=
    hsingle.of_subset fun c hc => List.mem_append_left _ hc
  have htitled : SingleLine header.title := by
    refine hsingle.of_subset fun c hc => List.mem_append_right _ (List.mem_cons_of_mem _ ?_)
    rw [← htitle] at hc
    exact mem_of_mem_trim hc
  unfold Printer.header
  split
  · exact hkeyword.append (by decide)
  · exact (hkeyword.append (by decide)).append htitled

theorem singleLine_tagLine {tags : List Tag} (h : ∀ tag ∈ tags, tag.FromWord) :
    SingleLine (join ' ' (tags.map (·.written))) := by
  intro hmem
  rcases mem_join hmem with hspace | ⟨word, hword, hmem⟩
  · exact absurd hspace (by decide)
  · obtain ⟨tag, htag, rfl⟩ := List.mem_map.mp hword
    exact absurd ((h tag htag).written_solid _ hmem) (by decide)

theorem trimmed_tagLine {tags : List Tag} (h : ∀ tag ∈ tags, tag.FromWord) :
    Trimmed (join ' ' (tags.map (·.written))) := by
  have hword : ∀ tag : Tag, tag.FromWord → tag.written ≠ [] ∧ SolidEnd tag.written := by
    intro tag htag
    refine ⟨by simp [Tag.written_eq], ?_⟩
    intro c hc
    exact htag.written_solid c (List.mem_of_getLast? hc)
  constructor
  · by_cases hne : tags = []
    · simpa [hne, join] using solidStart_nil
    · obtain ⟨rest, hrest⟩ := Session.leads_join_written hne
      rw [hrest]
      exact solidStart_cons.mpr (by decide)
  · refine solidEnd_join ?_
    intro word hmem
    obtain ⟨tag, htag, rfl⟩ := List.mem_map.mp hmem
    exact hword tag (h tag htag)

/-- A written line of tags, or no line when there are none. -/
theorem Reads.tagLine {P Q : Session → Prop} {tags : List Tag}
    (htags : ∀ tag ∈ tags, tag.FromWord) (hnone : tags = [] → ∀ s, P s → Q s)
    (hfeed : tags ≠ [] → ∀ s raw, P s → trim raw = join ' ' (tags.map (·.written)) →
      ∃ t, s.feed raw = .ok t ∧ Q t) (depth : Nat) :
    Reads P (Printer.block depth (Printer.tagLine tags)) Q := by
  unfold Printer.tagLine
  by_cases hne : tags = []
  · rw [if_pos (by simpa using hne)]
    exact Reads.nil (hnone hne)
  · rw [if_neg (by simpa using hne)]
    refine Reads.line (singleLine_indent (singleLine_tagLine htags)) ?_
    intro s hs
    refine hfeed hne s _ hs ?_
    rw [trim_indent, trim_eq_self (trimmed_tagLine htags)]

/-- The written line of a header. -/
theorem Reads.header {P Q : Session → Prop} {header : Header} {category : Category}
    (hsrc : ∀ n raw, src n raw → SingleLine raw) (hclear : keywords.Clear)
    (h : header.Attested src keywords category) (hcategory : category ∈ headings) (depth : Nat)
    (hfeed : ∀ s raw, P s → HeaderLine keywords category header raw →
      ∃ t, s.feed raw = .ok t ∧ Q t) :
    Reads P [Printer.indent depth (Printer.header header)] Q := by
  refine Reads.line (singleLine_indent (h.singleLine hsrc)) ?_
  intro s hs
  exact hfeed s _ hs (h.headerLine hclear hcategory depth)

/-- A line of a description is trimmed, and so it is written as it is. -/
theorem Described.trim_indent {categories : List Category} {line : Text}
    (h : Described src keywords categories line) (depth : Nat) :
    trim (Printer.indent depth line) = line := by
  obtain ⟨n, raw, -, rfl⟩ := h.source
  rw [Gherkin.trim_indent, trim_trim]

theorem Described.singleLine {categories : List Category} {line : Text}
    (hsrc : ∀ n raw, src n raw → SingleLine raw) (h : Described src keywords categories line) :
    SingleLine line := by
  obtain ⟨n, raw, hraw, rfl⟩ := h.source
  exact (hsrc _ _ hraw).of_subset fun c => mem_of_mem_trim

/-! ## 3. Arguments -/

theorem Cells.writable_read {raw : Text} (h : SingleLine raw) :
    Cells.Writable (Cells.read (trim raw)) := by
  refine ⟨Cells.read_ne_nil _, ?_⟩
  intro cell hcell
  refine ⟨Cells.trimmed_of_mem_read hcell, h.of_subset fun c hc => ?_⟩
  exact mem_of_mem_trim (Cells.mem_of_mem_read hcell hc)

theorem Table.Attested.writable {table : Table} (hsrc : ∀ n raw, src n raw → SingleLine raw)
    (h : table.Attested src) : table.Writable := by
  constructor
  · obtain ⟨raw, hraw, heq⟩ := h.headings
    exact heq ▸ Cells.writable_read (hsrc _ _ hraw)
  · intro row hrow
    obtain ⟨hwidth, raw, hraw, heq⟩ := h.rows row hrow
    exact ⟨heq ▸ Cells.writable_read (hsrc _ _ hraw), hwidth⟩

/-- The one kind of docstring that cannot be written: it holds double quotes
    that could be taken for a fence, and a line of it would close the other
    fence. -/
def Docstring.Unrepresentable (docstring : Docstring) : Prop :=
  occurs Fence.double.mark docstring.value = true ∧
    ∃ line ∈ lines docstring.value, begins Fence.single.mark (trim line) = true

/-- No line of a docstring closes the fence that is chosen for it. -/
theorem Docstring.begins_fence {docstring : Docstring} (h : ¬docstring.Unrepresentable)
    {line : Text} (hline : line ∈ lines docstring.value) :
    begins (Printer.fence docstring.value).mark (trim line) = false := by
  unfold Printer.fence
  by_cases hdouble : occurs Fence.double.mark docstring.value = true
  · rw [if_pos hdouble]
    by_contra hbegins
    exact h ⟨hdouble, line, hline, by simpa using hbegins⟩
  · rw [if_neg hdouble]
    by_contra hbegins
    obtain ⟨rest, htrim⟩ := begins_eq_true_iff.mp (Bool.not_eq_false _ ▸ hbegins)
    obtain ⟨before, after, hparts, -⟩ := exists_blanks_trim line
    obtain ⟨above, below, hvalue⟩ : ∃ above below,
        join '\n' (lines docstring.value) = above ++ (line ++ below) := exists_join_of_mem hline
    have hjoin : join '\n' (lines docstring.value) = docstring.value := join_split _ _
    have hpart : docstring.value =
        (above ++ before) ++ (Fence.double.mark ++ (rest ++ after ++ below)) := by
      rw [← hjoin, hvalue, hparts, htrim]
      simp
    apply hdouble
    rw [hpart]
    exact occurs_append_append _ _ _

theorem Docstring.Attested.writable {docstring : Docstring}
    (hsrc : ∀ n raw, src n raw → SingleLine raw) (h : docstring.Attested src)
    (hfence : ¬docstring.Unrepresentable) : docstring.Writable := by
  constructor
  · obtain ⟨block, hblock, rfl⟩ := h
    obtain ⟨raw, contentType, hraw, hopen, htype⟩ := hblock.fence
    obtain ⟨rest, hrest, htrim⟩ := Fence.eq_of_open? hopen
    show block.contentType ≠ [] ∧ Trimmed block.contentType ∧ SingleLine block.contentType
    rw [htype]
    split
    · exact ⟨by decide, by decide, by decide⟩
    · rename_i hne
      refine ⟨by simpa using hne, htrim ▸ trimmed_trim rest, ?_⟩
      rw [← htrim]
      apply (hsrc _ _ hraw).of_subset
      intro c hc
      have hstart : c ∈ trimStart raw := by
        rw [hrest]
        exact List.mem_append_right _ (mem_of_mem_trim hc)
      exact (List.dropWhile_suffix isBlank).subset hstart
  · intro line hline
    exact ⟨h.solidEnd_of_mem_lines hsrc line hline, Docstring.begins_fence hfence hline⟩

/-! ## 4. Steps -/

/-- Only an alias without a blank behind it is a whole step. -/
theorem Keywords.solidEnd_spelling {line : Text} {found : StepMatch} (hline : Trimmed line)
    (hfound : keywords.step? line = some found)
    (hseparator : found.keyword ++ Printer.separator found.keyword = found.spelling)
    (htext : found.text = []) : SolidEnd found.spelling := by
  obtain ⟨-, rest, hafter, htrim⟩ := Keywords.exists_of_step? hfound
  have hsolid := hline.2
  -- The line is trimmed, so where only blanks follow the alias nothing follows it.
  have hrest : rest = [] := by
    by_contra hne
    have hend : SolidEnd rest := hsolid.of_final (suffix_of_afterAnyCase? hafter)
    have hlast := List.getLast?_eq_some_getLast hne
    exact trim_ne_nil (List.getLast_mem hne) (hend _ hlast) (htrim.symm.trans htext)
  subst hrest
  intro c hc
  by_cases hempty : Printer.separator found.keyword = []
  · rw [hempty, List.append_nil] at hseparator
    rw [← hseparator] at hc
    exact solidEnd_trimEnd _ c hc
  · have hspace : Printer.separator found.keyword = [' '] := by
      unfold Printer.separator at hempty ⊢
      split at hempty
      · exact absurd rfl hempty
      · rw [if_neg ‹_›]
    obtain ⟨last, hlast, hsame⟩ := getLast?_of_afterAnyCase? hafter c hc
    obtain rfl : c = ' ' := by
      rw [← hseparator, hspace, List.getLast?_concat, Option.mem_def, Option.some.injEq] at hc
      exact hc.symm
    exact hsolid _ (eq_space_of_sameLetter hsame ▸ hlast)

/-- What is written behind the keyword of a step. -/
def Step.written (step : Step) : Text := step.text ++ if step.hasArgument then [':'] else []

theorem Step.stepLine_eq (step : Step) :
    Printer.stepLine step = step.keyword ++ Printer.separator step.keyword ++ step.written := by
  simp [Printer.stepLine, Step.written]

/-- The written line of a step is that step, with the colon in front of its
    argument. -/
theorem Step.Attested.stepLine {last : Option StepType} {step : Step}
    (h : step.Attested src keywords last) (hclear : keywords.Clear) (depth : Nat) :
    beginsPlainly (trim (Printer.indent depth (Printer.stepLine step))) = true ∧
      ∃ found, keywords.step? (trim (Printer.indent depth (Printer.stepLine step))) = some found ∧
        found.keyword = step.keyword ∧ found.resolve last = some step.type ∧
        found.text = step.written := by
  obtain ⟨raw, found, -, hfound, hkeyword, htype, htext⟩ := h.line
  obtain ⟨hmem, hagain⟩ := hclear.step?_append hfound step.written
  have hplain := (hclear.step_plain _ hmem).1
  have hline : Printer.stepLine step = found.spelling ++ step.written := by
    rw [Step.stepLine_eq, hkeyword]
    exact congrArg (· ++ step.written) (hclear.step_separator _ hmem)
  have hfoundTrimmed : Trimmed found.text := by
    obtain ⟨-, rest, -, hrest⟩ := Keywords.exists_of_step? hfound
    exact hrest ▸ trimmed_trim rest
  have hwritten : Trimmed step.written := by
    unfold Step.written
    by_cases harg : step.hasArgument
    · rw [if_pos harg] at htext ⊢
      refine ⟨?_, solidEnd_concat.mpr (by decide)⟩
      have hstart := hfoundTrimmed.1.of_initial (dropFinal_initial ':' found.text)
      rw [← htext] at hstart
      by_cases hempty : step.text = []
      · simp only [hempty, List.nil_append]
        decide
      · exact hstart.append hempty
    · rw [if_neg harg] at htext ⊢
      rwa [List.append_nil, htext]
  -- Trimming must not take the blank of an alias that has no text behind it.
  have hwhole : Trimmed (found.spelling ++ step.written) := by
    refine ⟨(solidStart_of_beginsPlainly hplain).append (ne_nil_of_beginsPlainly hplain), ?_⟩
    by_cases hempty : step.written = []
    · rw [hempty, List.append_nil]
      have hboth := List.append_eq_nil_iff.mp hempty
      have harg : ¬step.hasArgument = true := by
        intro harg
        simp [harg] at hboth
      rw [if_neg harg] at htext
      exact Keywords.solidEnd_spelling (trimmed_trim raw) hfound (hclear.step_separator _ hmem)
        (htext.symm.trans hboth.1)
    · exact hwritten.2.append hempty
  rw [trim_indent, hline, trim_eq_self hwhole]
  refine ⟨beginsPlainly_append hplain _, _, hagain, hkeyword.symm, htype, trim_eq_self hwritten⟩

theorem Step.Attested.singleLine {last : Option StepType} {step : Step}
    (hsrc : ∀ n raw, src n raw → SingleLine raw) (h : step.Attested src keywords last)
    (hclear : keywords.Clear) : SingleLine (Printer.stepLine step) := by
  obtain ⟨raw, found, hraw, hfound, hkeyword, -, htext⟩ := h.line
  have hspelling : SingleLine found.spelling :=
    hclear.step_line _ (hclear.step?_append hfound []).1
  have hfoundText : SingleLine found.text := by
    obtain ⟨-, rest, hafter, hrest⟩ := Keywords.exists_of_step? hfound
    refine (hsrc _ _ hraw).of_subset fun c hc => mem_of_mem_trim ?_
    rw [hrest] at hc
    exact (suffix_of_afterAnyCase? hafter).subset (mem_of_mem_trim hc)
  have htextLine : SingleLine step.text := by
    rw [htext]
    split
    · exact hfoundText.of_subset (dropFinal_initial ':' _).subset
    · exact hfoundText
  have hseparator : SingleLine (Printer.separator step.keyword) := by
    unfold Printer.separator
    split <;> decide
  have hkeywordLine : SingleLine step.keyword := by
    rw [hkeyword]
    exact hspelling.of_subset fun c => mem_of_mem_trimEnd
  have hwritten : SingleLine step.written := by
    refine htextLine.append ?_
    split <;> decide
  rw [Step.stepLine_eq]
  exact (hkeywordLine.append hseparator).append hwritten

end Nodes

end Gherkin
