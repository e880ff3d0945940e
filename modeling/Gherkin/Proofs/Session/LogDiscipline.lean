/-
  Gherkin/Proofs/Session/LogDiscipline.lean
  =========================================
  **What the log of a reading can hold.**

  The notes of a reading come from many lines, and each line only knows the
  session in front of it.  Still they fit together.  The standard language is
  noted once at most, and then no directive is heeded any more: the line that
  needed keywords was a header, and directives count above it only.  Whether the
  caller has fixed the language does not change, so directives are either all
  heeded or all ignored.

  What is noted at the end of the text is noted at the end of a reading that
  succeeds, and nowhere else (`Session.filter_log`).  A docstring is open there
  exactly when no line behind its fence begins with the fence again
  (`Session.mode_docstring_iff`), and no tags wait while it is.
-/
import Gherkin.Proofs.Session.DocstringCapture
import Gherkin.Proofs.Session.Faithfulness
import Gherkin.Proofs.Session.LanguageChoice
import Gherkin.Proofs.Session.RuleFragment

namespace Gherkin

open Text

namespace Record

def isStandardLanguage : Record → Bool
  | .standardLanguage _ => true
  | _ => false

/-- The notes that are made at the end of a text. -/
def isEndNote : Record → Bool
  | .openDocstring .. | .danglingTags .. => true
  | _ => false

end Record

namespace Session

variable {s t : Session} {raw : Text} {raws : List Text}

/-! ## 1. The notes of one line -/

/-- Why a line adds a record to the log. -/
inductive Noted (s : Session) (raw : Text) : Record → Prop
  | standardLanguage (consults : s.consults raw = true) (free : s.chosen = none) :
      Noted s raw (.standardLanguage s.standard.code)
  | directiveSelects {code : Text} (named : s.directive? raw = some code)
      (free : s.fixed = false) : Noted s raw (.directiveSelects code)
  | directiveIgnored {code : Text} (named : s.directive? raw = some code)
      (fixed : s.fixed = true) : Noted s raw (.directiveIgnored code)
  | openRow (line : Nat) : Noted s raw (.openRow s.source line)

theorem noted_of_mem {record : Record} (h : record ∈ s.notes raw) : Noted s raw record := by
  rw [notes, List.mem_append, List.mem_append] at h
  rcases h with (h | h) | h
  · unfold languageNote at h
    split at h
    · rename_i hneeded
      rw [List.mem_singleton.mp h]
      simp only [Bool.and_eq_true, Option.isNone_iff_eq_none] at hneeded
      exact .standardLanguage hneeded.1 hneeded.2
    · simp at h
  · unfold directiveNote at h
    cases hnamed : s.directive? raw with
    | none => simp [hnamed] at h
    | some code =>
      rw [hnamed] at h
      cases hfixed : s.fixed with
      | true =>
        simp only [hfixed, if_true, List.mem_singleton] at h
        rw [h]
        exact .directiveIgnored hnamed hfixed
      | false =>
        simp only [hfixed, Bool.false_eq_true, if_false] at h
        split at h
        · rw [List.mem_singleton.mp h]
          exact .directiveSelects hnamed hfixed
        · simp at h
  · unfold rowNote at h
    split at h
    · rw [List.mem_singleton.mp h]
      exact .openRow _
    · simp at h

/-- The standard language is noted once at most by one line. -/
theorem length_filter_notes (s : Session) (raw : Text) :
    ((s.notes raw).filter (·.isStandardLanguage)).length ≤ 1 := by
  have hdirective : (s.directiveNote raw).filter (·.isStandardLanguage) = [] := by
    rw [List.filter_eq_nil_iff]
    unfold directiveNote
    intro record hrecord
    split at hrecord
    · simp at hrecord
    · split at hrecord
      · simp [List.mem_singleton.mp hrecord, Record.isStandardLanguage]
      · split at hrecord
        · simp [List.mem_singleton.mp hrecord, Record.isStandardLanguage]
        · simp at hrecord
  have hrow : ((s.enter raw).rowNote raw).filter (·.isStandardLanguage) = [] := by
    unfold rowNote
    split <;> rfl
  rw [notes, List.filter_append, List.filter_append, hdirective, hrow]
  unfold languageNote
  split <;> simp [Record.isStandardLanguage]

/-! ## 2. What a line settles -/

theorem isSome_chosen_takes {kind : LineKind} (h : Takes (s.facing raw) raw kind t)
    (hchosen : (s.enter raw).chosen.isSome = true) : t.chosen.isSome = true := by
  rw [takes_chosen h]
  apply facing_cases (P := fun u => u.chosen.isSome = true)
  · exact hchosen
  · rw [closeTable_eq]
    exact hchosen

/-- A language that has been settled on stays settled on. -/
theorem isSome_chosen_feed (hchosen : s.chosen.isSome = true) (h : s.feed raw = .ok t) :
    t.chosen.isSome = true := by
  rcases feed_cases h with ⟨-, chosen, rfl, rfl | ⟨-, -, language, rfl, -⟩⟩ | ⟨-, -, kind, -, htakes⟩
  · exact hchosen
  · rfl
  · apply isSome_chosen_takes htakes
    unfold Session.enter
    split
    · rfl
    · exact hchosen

/-- A line that is tested against keywords settles the language, and directives do
    not count behind it. -/
theorem settled_of_consults (hconsults : s.consults raw = true) (h : s.feed raw = .ok t) :
    t.chosen.isSome = true ∧ t.Begun := by
  have hneeded := hconsults
  simp only [consults, Bool.and_eq_true, Bool.not_eq_true'] at hneeded
  rcases feed_cases h with ⟨hidle, -⟩ | ⟨-, -, kind, -, htakes⟩
  · rw [hneeded.1.1, hneeded.1.2] at hidle
    exact absurd hidle (by decide)
  · refine ⟨isSome_chosen_takes htakes ?_, begun_of_takes htakes⟩
    simp [Session.enter, hconsults]

/-- A directive is a comment, and a comment is not tested against keywords. -/
theorem not_consults_of_directive {code : Text} (h : s.directive? raw = some code) :
    s.skips raw = false ∧ s.isComment raw = true ∧ s.consults raw = false := by
  unfold Session.directive? at h
  split at h
  · rename_i hplace
    have hcomment : s.isComment raw = true := by
      simp only [Bool.and_eq_true] at hplace
      exact hplace.1.1.1
    have hskips : s.skips raw = false := by
      have hlead : leads '#' (trim raw) = true := by
        simp only [isComment, Bool.and_eq_true] at hcomment
        exact hcomment.2
      cases htrim : trim raw with
      | nil => simp [htrim, leads] at hlead
      | cons c rest => simp [skips, htrim]
    exact ⟨hskips, hcomment, by simp [consults, hcomment]⟩
  · simp at h

/-- A directive that counts chooses a language unless the caller has. -/
theorem isSome_chosen_directive {code : Text} (hnamed : s.directive? raw = some code)
    (hfree : s.fixed = false) (h : s.feed raw = .ok t) : t.chosen.isSome = true := by
  obtain ⟨hskips, hcomment, -⟩ := not_consults_of_directive hnamed
  have hnamed' : (s.enter raw).directive? raw = some code := hnamed
  have hfree' : (s.enter raw).fixed = false := hfree
  rw [feed_eq, if_neg (by simp [hskips]), if_pos hcomment, comment, hnamed', hfree'] at h
  simp only [Bool.false_eq_true, if_false] at h
  split at h
  · rw [Except.ok.injEq] at h
    rw [← h]
    rfl
  · simp at h

/-! ## 3. The whole log -/

/-- What holds along a reading and excludes a record from the notes of every line
    and from those at the end excludes it from the log. -/
theorem not_mem_log {P : Session → Prop} {record : Record}
    (hnotes : ∀ u raw, P u → ¬Noted u raw record) (hend : ∀ u : Session, record ∉ u.endNotes)
    (hstep : ∀ {u raw next}, P u → u.feed raw = .ok next → P next) (h : P s) :
    record ∉ s.log raws := by
  induction raws generalizing s with
  | nil => exact hend s
  | cons raw rest ih =>
    rw [log, List.mem_append, not_or]
    refine ⟨fun hmem => hnotes s raw h (noted_of_mem hmem), ?_⟩
    cases hnext : s.feed raw with
    | error failure => simp
    | ok next => exact ih (hstep h hnext)

theorem isEndNote_of_mem_endNotes {record : Record} (h : record ∈ s.endNotes) :
    record.isEndNote = true := by
  unfold endNotes at h
  rcases List.mem_append.mp h with h | h
  · split at h
    · rw [List.mem_singleton.mp h]
      rfl
    · simp at h
  · split at h
    · rw [List.mem_singleton.mp h]
      rfl
    · simp at h

theorem not_mem_endNotes {record : Record} (hrecord : record.isEndNote = false) (u : Session) :
    record ∉ u.endNotes := by
  intro hmem
  rw [isEndNote_of_mem_endNotes hmem] at hrecord
  exact Bool.noConfusion hrecord

theorem standardLanguage_not_mem_log (h : s.chosen.isSome = true) (code : Text) :
    .standardLanguage code ∉ s.log raws := by
  apply not_mem_log (P := fun u => u.chosen.isSome = true) _ (not_mem_endNotes rfl)
    isSome_chosen_feed h
  intro u raw hu hnoted
  cases hnoted with
  | standardLanguage hconsults hfree => simp [hfree] at hu

theorem directiveSelects_not_mem_log (h : s.Begun) (code : Text) :
    .directiveSelects code ∉ s.log raws := by
  apply not_mem_log (P := Begun) _ (not_mem_endNotes rfl) Begun.feed h
  intro u raw hu hnoted
  cases hnoted with
  | directiveSelects hnamed hfree => simp [hu.directive?_eq_none] at hnamed

theorem fixed_feed {fixed : Bool} (h : s.fixed = fixed) (hfeed : s.feed raw = .ok t) :
    t.fixed = fixed := (feed_setup hfeed).1.fixed.trans h

theorem directiveSelects_not_mem_log_of_fixed (h : s.fixed = true) (code : Text) :
    .directiveSelects code ∉ s.log raws := by
  apply not_mem_log (P := fun u => u.fixed = true) _ (not_mem_endNotes rfl) fixed_feed h
  intro u raw hu hnoted
  cases hnoted with
  | directiveSelects hnamed hfree => simp [hu] at hfree

theorem directiveIgnored_not_mem_log_of_free (h : s.fixed = false) (code : Text) :
    .directiveIgnored code ∉ s.log raws := by
  apply not_mem_log (P := fun u => u.fixed = false) _ (not_mem_endNotes rfl) fixed_feed h
  intro u raw hu hnoted
  cases hnoted with
  | directiveIgnored hnamed hfixed => simp [hu] at hfixed

/-- The line that makes the standard language needed settles the language, so no
    other line needs it. -/
theorem length_filter_log (s : Session) (raws : List Text) :
    ((s.log raws).filter (·.isStandardLanguage)).length ≤ 1 := by
  induction raws generalizing s with
  | nil =>
    have hnone : (s.endNotes).filter (·.isStandardLanguage) = [] := by
      rw [List.filter_eq_nil_iff]
      intro record hrecord hstandard
      cases record with
      | standardLanguage code => exact not_mem_endNotes rfl s hrecord
      | _ => exact Bool.noConfusion hstandard
    rw [log, hnone]
    exact Nat.zero_le 1
  | cons raw rest ih =>
    rw [log, List.filter_append, List.length_append]
    have hline := length_filter_notes s raw
    cases hnext : s.feed raw with
    | error failure => simpa using hline
    | ok next =>
      by_cases hnone : (s.notes raw).filter (·.isStandardLanguage) = []
      · rw [hnone]
        simpa using ih next
      · obtain ⟨record, hrecord⟩ := List.exists_mem_of_ne_nil _ hnone
        obtain ⟨hmem, hstandard⟩ := List.mem_filter.mp hrecord
        have hrest : (next.log rest).filter (·.isStandardLanguage) = [] := by
          rw [List.filter_eq_nil_iff]
          intro other hother hagain
          cases noted_of_mem hmem with
          | standardLanguage hconsults hfree =>
            have hchosen := (settled_of_consults hconsults hnext).1
            cases other with
            | standardLanguage code => exact standardLanguage_not_mem_log hchosen code hother
            | _ => exact Bool.noConfusion hagain
          | _ => exact Bool.noConfusion hstandard
        simpa [hrest] using hline

/-- Where the standard language is used no directive has been heeded, and none will
    be. -/
theorem directiveSelects_not_mem_log_of_standardLanguage {code : Text}
    (h : .standardLanguage code ∈ s.log raws) (other : Text) :
    .directiveSelects other ∉ s.log raws := by
  induction raws generalizing s with
  | nil => exact not_mem_endNotes rfl s
  | cons raw rest ih =>
    rw [log, List.mem_append] at h ⊢
    rintro (hline | hrest)
    · obtain ⟨hnamed, hfree⟩ : s.directive? raw = some other ∧ s.fixed = false := by
        cases noted_of_mem hline with
        | directiveSelects hnamed hfree => exact ⟨hnamed, hfree⟩
      rcases h with h | h
      · cases noted_of_mem h with
        | standardLanguage hconsults hunset =>
          rw [(not_consults_of_directive hnamed).2.2] at hconsults
          exact Bool.noConfusion hconsults
      · cases hnext : s.feed raw with
        | error failure => simp [hnext] at h
        | ok next =>
          rw [hnext] at h
          exact standardLanguage_not_mem_log (isSome_chosen_directive hnamed hfree hnext) code h
    · cases hnext : s.feed raw with
      | error failure => simp [hnext] at hrest
      | ok next =>
        rw [hnext] at h hrest
        rcases h with h | h
        · cases noted_of_mem h with
          | standardLanguage hconsults hunset =>
            have hbegun := (settled_of_consults hconsults hnext).2
            exact directiveSelects_not_mem_log hbegun other hrest
        · exact ih h hrest

/-- The notes that are made at the end of a text are made at the end of a reading
    that succeeds. -/
theorem filter_log (s : Session) (raws : List Text) :
    (s.log raws).filter (·.isEndNote) =
      match s.feedAll raws with
      | .ok t => t.endNotes
      | .error _ => [] := by
  induction raws generalizing s with
  | nil =>
    rw [log, feedAll_nil, List.filter_eq_self]
    exact fun record hrecord => isEndNote_of_mem_endNotes hrecord
  | cons raw rest ih =>
    have hline : (s.notes raw).filter (·.isEndNote) = [] := by
      rw [List.filter_eq_nil_iff]
      intro record hrecord
      cases noted_of_mem hrecord <;> exact Bool.false_ne_true
    rw [log, List.filter_append, hline, List.nil_append]
    cases hnext : s.feed raw with
    | error failure => rw [feedAll_cons_of_error hnext, List.filter_nil]
    | ok next => rw [feedAll_cons_of_ok hnext, ih]

/-! ## 4. The end of the text -/

/-- While a docstring is open no tags wait. -/
theorem Sound.tags_of_docstring {block : Block} (h : s.Sound)
    (hmode : s.mode = .docstring block) : s.tags = [] := by
  have hfits := h.mode
  rw [ModeFits, hmode] at hfits
  exact hfits.1

theorem Sound.length_endNotes (h : s.Sound) : s.endNotes.length ≤ 1 := by
  unfold endNotes
  cases hmode : s.mode with
  | docstring block => simp [h.tags_of_docstring hmode]
  | _ => cases s.tags <;> simp

theorem openDocstring_mem_endNotes {place : Option Text} {line : Nat} :
    .openDocstring place line ∈ s.endNotes ↔
      place = s.source ∧ ∃ block, s.mode = .docstring block ∧ block.line = line := by
  unfold endNotes
  cases hmode : s.mode with
  | docstring block => cases s.tags <;> simp [eq_comm]
  | _ => cases s.tags <;> simp

theorem danglingTags_mem_endNotes {place : Option Text} {line : Nat} :
    .danglingTags place line ∈ s.endNotes ↔
      place = s.source ∧ ∃ tag rest, s.tags = tag :: rest ∧ tag.line = line := by
  unfold endNotes
  cases htags : s.tags with
  | nil => cases s.mode <;> simp
  | cons tag rest => cases s.mode <;> simp [eq_comm]

/-! ## 5. Docstrings that stay open -/

/-- The line with the given number is the fence of a docstring, and no line behind it
    begins with that fence. -/
def Unclosed (s : Session) (raws : List Text) (n : Nat) : Prop :=
  ∃ before raw after u fence contentType,
    raws = before ++ raw :: after ∧ n = before.length + 1 ∧ s.feedAll before = .ok u ∧
      (u.facing raw).kind? raw = some .fence ∧
      Fence.open? (trimStart raw) = some (fence, contentType) ∧
      ∀ later ∈ after, begins fence.mark (trim later) = false

variable {block : Block}

theorem mode_of_facing_docstring (h : (s.facing raw).mode = .docstring block) :
    s.mode = .docstring block := by
  revert h
  apply facing_cases (P := fun u => u.mode = .docstring block → s.mode = .docstring block)
  · exact id
  · rw [closeTable_eq]
    intro h
    have hleft : s.mode.left = .docstring block := h
    cases hmode : s.mode <;> simp_all [Mode.left]

/-- A line that is taken as a fence opens a docstring with that fence. -/
theorem mode_of_feed_fence {fence : Fence} {contentType : Text}
    (hkind : (s.facing raw).kind? raw = some .fence)
    (hopen : Fence.open? (trimStart raw) = some (fence, contentType)) (h : s.feed raw = .ok t) :
    t.mode = .docstring (.start (s.line + 1) raw fence contentType) := by
  have hblanks : ∀ c ∈ raw.takeWhile isBlank, isBlank c = true := fun c hc =>
    List.mem_takeWhile_imp hc
  obtain ⟨rest, hrest, -⟩ := Fence.eq_of_open? hopen
  have htrim : trim raw = fence.mark ++ trimEnd rest := by
    rw [← trim_of_fence hblanks, List.append_assoc, ← hrest, takeWhile_append_trimStart]
  rcases feed_cases h with ⟨hidle, -⟩ | ⟨-, -, kind, hkind', htakes⟩
  · simp only [skips, isComment, htrim] at hidle
    cases fence <;> simp [Fence.mark, leads] at hidle
  · rw [hkind, Option.some.injEq] at hkind'
    subst hkind'
    cases htakes with
    | fence hs hfits hsteps =>
      rw [hopen, Option.some.injEq, Prod.mk.injEq] at hfits
      obtain ⟨rfl, rfl⟩ := hfits
      rw [facing_line]

/-- A docstring keeps its fence and its line while lines go into it. -/
theorem mode_of_feedAll_inside (hmode : s.mode = .docstring block)
    (hinside : ∀ raw ∈ raws, block.closes raw = false) (h : s.feedAll raws = .ok t) :
    ∃ content, t.mode = .docstring { block with lines := content } := by
  induction raws generalizing s block with
  | nil =>
    obtain rfl : s = t := by simpa using h
    exact ⟨block.lines, hmode⟩
  | cons raw rest ih =>
    obtain ⟨next, hnext, hrest⟩ := ok_of_feedAll_cons h
    have hraw := hinside raw List.mem_cons_self
    by_cases hindented : Indented block.margin raw
    · rw [feed_content hmode hraw hindented, Except.ok.injEq] at hnext
      have hnextmode : next.mode = .docstring
          { block with lines := block.lines ++ [trimEnd (raw.drop block.margin)] } := by
        rw [← hnext]
      -- The fence of the block decides what closes it, and it is the same.
      obtain ⟨content, hend⟩ :=
        ih hnextmode (fun other hother => hinside other (List.mem_cons_of_mem _ hother)) hrest
      exact ⟨content, hend⟩
    · rw [feed_overhang hmode hraw hindented] at hnext
      simp at hnext

/-- An open docstring goes back to a fence, and no line since then has closed it. -/
theorem exists_fence_of_mode (hs : s.inDocstring = false) (h : s.feedAll raws = .ok t)
    (hmode : t.mode = .docstring block) :
    ∃ before raw after u contentType,
      raws = before ++ raw :: after ∧ block.line = s.line + before.length + 1 ∧
        s.feedAll before = .ok u ∧ (u.facing raw).kind? raw = some .fence ∧
        Fence.open? (trimStart raw) = some (block.fence, contentType) ∧
        ∀ later ∈ after, block.closes later = false := by
  induction raws using List.reverseRecOn generalizing t block with
  | nil =>
    obtain rfl : s = t := by simpa using h
    simp [inDocstring, hmode] at hs
  | append_singleton init last ih =>
    obtain ⟨u, hinit, hlast⟩ := ok_of_feedAll_append h
    obtain ⟨next, hnext, hnil⟩ := ok_of_feedAll_cons hlast
    obtain rfl : next = t := by simpa using hnil
    rcases feed_cases hnext with ⟨hidle, chosen, rfl, -⟩ | ⟨-, -, kind, hkind, htakes⟩
    · have hopen : u.inDocstring = true := by simp [inDocstring, show u.mode = _ from hmode]
      simp [skips, isComment, hopen] at hidle
    · cases htakes with
      | @fence fence contentType hs hfits hsteps =>
        obtain rfl := Mode.docstring.inj hmode
        refine ⟨init, last, [], u, contentType, rfl, ?_, hinit, hkind, hfits, by simp⟩
        show (u.facing last).line = _
        rw [facing_line, feedAll_line hinit]
      | @docstring old next hs hinside hpush =>
        obtain rfl := Mode.docstring.inj hmode
        obtain ⟨-, rfl⟩ := Block.push_eq_ok hpush
        obtain ⟨before, raw, after, v, contentType, rfl, hline, hbefore, hfence, hopen, hafter⟩ :=
          ih hinit (mode_of_facing_docstring hs)
        refine ⟨before, raw, after ++ [last], v, contentType, by simp, hline, hbefore, hfence,
          hopen, ?_⟩
        intro later hlater
        rcases List.mem_append.mp hlater with hlater | hlater
        · exact hafter later hlater
        · rw [List.mem_singleton.mp hlater]
          exact hinside
      | groupDescription hs htagless hplain =>
        rw [mapGroup_eq] at hmode
        rcases hs with hs | hs <;> simp [hs] at hmode
      | statementDescription hs htagless hstepless hplain =>
        rcases hs with hs | hs <;> simp [mapStatement, hs] at hmode
      | tags hs hlead hrow =>
        split at hmode <;> simp at hmode
      | _ => simp [startStatement] at hmode

/-- At the end of a text a docstring is open exactly when its fence is never
    repeated. -/
theorem mode_docstring_iff {n : Nat} (hline : s.line = 0) (hs : s.inDocstring = false)
    (h : s.feedAll raws = .ok t) :
    (∃ block, t.mode = .docstring block ∧ block.line = n) ↔ s.Unclosed raws n := by
  constructor
  · rintro ⟨block, hmode, rfl⟩
    obtain ⟨before, raw, after, u, contentType, hraws, hnumber, hbefore, hkind, hopen, hafter⟩ :=
      exists_fence_of_mode hs h hmode
    refine ⟨before, raw, after, u, block.fence, contentType, hraws, ?_, hbefore, hkind, hopen,
      hafter⟩
    rw [hnumber, hline, Nat.zero_add]
  · rintro ⟨before, raw, after, u, fence, contentType, rfl, rfl, hbefore, hkind, hopen, hafter⟩
    rw [feedAll_append_of_ok hbefore] at h
    obtain ⟨next, hnext, hrest⟩ := ok_of_feedAll_cons h
    have hmode := mode_of_feed_fence hkind hopen hnext
    obtain ⟨content, hend⟩ := mode_of_feedAll_inside hmode hafter hrest
    refine ⟨_, hend, ?_⟩
    show u.line + 1 = before.length + 1
    rw [feedAll_line hbefore, hline, Nat.zero_add]

end Session

namespace Parser

variable {parser : Parser} {entry : Entry} {text : Text} {source : Option Text}

/-! ## 6. Parsers -/

structure LanguageNotesFit (parser : Parser) (log : List Record) : Prop where
  once : (log.filter (·.isStandardLanguage)).length ≤ 1
  standard : ∀ code, .standardLanguage code ∈ log →
    parser.language = none ∧ ∀ other, .directiveSelects other ∉ log
  directives : ∀ code other, .directiveIgnored code ∈ log → .directiveSelects other ∉ log

/-- What a log says about the end of a text that was read to its end. -/
structure EndNotesFit (s t : Session) (raws : List Text) (log : List Record) : Prop where
  once : (log.filter (·.isEndNote)).length ≤ 1
  openDocstring : ∀ place line,
    .openDocstring place line ∈ log ↔ place = s.source ∧ s.Unclosed raws line
  danglingTags : ∀ place line,
    .danglingTags place line ∈ log ↔
      place = s.source ∧ ∃ tag rest, t.tags = tag :: rest ∧ tag.line = line

theorem isSome_chosen_of_session {s : Session} (h : parser.session entry source = .ok s)
    {code : Text} (hcode : parser.language = some code) : s.chosen.isSome = true := by
  obtain ⟨standard, -, hchosen, rfl⟩ := Session.session_eq_ok_iff.mp h
  rw [hcode] at hchosen ⊢
  exact hchosen

theorem languageNotesFit_log (parser : Parser) (entry : Entry) (text : Text)
    (source : Option Text) : LanguageNotesFit parser (parser.log entry text source) := by
  unfold Parser.log
  cases hsession : parser.session entry source with
  | error failure => constructor <;> simp
  | ok s =>
    refine ⟨s.length_filter_log (lines text), ?_, ?_⟩
    · intro code hmem
      refine ⟨?_, Session.directiveSelects_not_mem_log_of_standardLanguage hmem⟩
      cases hlanguage : parser.language with
      | none => rfl
      | some fixed =>
        have hchosen := isSome_chosen_of_session hsession hlanguage
        exact absurd hmem (Session.standardLanguage_not_mem_log hchosen code)
    · intro code other hmem
      cases hfixed : s.fixed with
      | true => exact Session.directiveSelects_not_mem_log_of_fixed hfixed other
      | false => exact absurd hmem (Session.directiveIgnored_not_mem_log_of_free hfixed code)

theorem endNotesFit_log {s t : Session} (hsession : parser.session entry source = .ok s)
    (hfeed : s.feedAll (lines text) = .ok t) :
    EndNotesFit s t (lines text) (s.log (lines text)) := by
  have hfilter := s.filter_log (lines text)
  rw [hfeed] at hfilter
  have hend : ∀ record : Record, record.isEndNote = true →
      (record ∈ s.log (lines text) ↔ record ∈ t.endNotes) := by
    intro record hrecord
    have hmem : record ∈ (s.log (lines text)).filter (·.isEndNote) ↔ record ∈ t.endNotes := by
      rw [hfilter]
    rw [← hmem, List.mem_filter, and_iff_left hrecord]
  have hsource := (Session.feedAll_setup hfeed).source
  obtain ⟨hline, hopen⟩ : s.line = 0 ∧ s.inDocstring = false := by
    obtain ⟨standard, -, -, rfl⟩ := Session.session_eq_ok_iff.mp hsession
    cases entry <;> exact ⟨rfl, rfl⟩
  constructor
  · rw [hfilter]
    exact ((Session.Sound.of_session hsession).feedAll hfeed).length_endNotes
  · intro place line
    rw [hend _ rfl, Session.openDocstring_mem_endNotes, hsource,
      Session.mode_docstring_iff hline hopen hfeed]
  · intro place line
    rw [hend _ rfl, Session.danglingTags_mem_endNotes, hsource]

/-- The log of a reading, whatever is read and however: its notes on the language fit
    together, a reading that fails says nothing about the end of the text, and one that
    succeeds names the docstring that is open there or the first tag that waits there,
    if there is one. -/
theorem log_disciplined (parser : Parser) (entry : Entry) (text : Text) (source : Option Text) :
    LanguageNotesFit parser (parser.log entry text source) ∧
    (∀ failure, parser.read entry text source = .error failure →
      ∀ record ∈ parser.log entry text source, record.isEndNote = false) ∧
    (∀ t, parser.read entry text source = .ok t →
      ∃ s, parser.session entry source = .ok s ∧ s.source = source ∧
        EndNotesFit s t (lines text) (parser.log entry text source)) := by
  refine ⟨languageNotesFit_log parser entry text source, ?_, ?_⟩
  · intro failure hread record hrecord
    unfold Parser.log at hrecord
    cases hsession : parser.session entry source with
    | error other => simp [hsession] at hrecord
    | ok s =>
      rw [hsession] at hrecord
      have hfeed : s.feedAll (lines text) = .error failure := by
        rw [Parser.read, hsession] at hread
        exact hread
      have hfilter := s.filter_log (lines text)
      rw [hfeed, List.filter_eq_nil_iff] at hfilter
      simpa using hfilter record hrecord
  · intro t hread
    obtain ⟨s, hsession, hfeed⟩ := read_eq_ok hread
    have hlog : parser.log entry text source = s.log (lines text) := by
      unfold Parser.log
      rw [hsession]
    have hsource : s.source = source := by
      obtain ⟨standard, -, -, rfl⟩ := Session.session_eq_ok_iff.mp hsession
      rfl
    rw [hlog]
    exact ⟨s, hsession, hsource, endNotesFit_log hsession hfeed⟩

/-- For instance with an open docstring that holds a line of tags, with tags that wait
    behind a directive, and with tags in front of a line that fails. -/
theorem log_disciplined_tags :
    ∃ (s t u : Session) (failure : Failure),
      standard.read .steps "* a:\n'''\n@t".toList none = .ok t ∧
      standard.log .steps "* a:\n'''\n@t".toList none =
        [.standardLanguage "en".toList, .openDocstring none 2] ∧
      EndNotesFit s t (lines "* a:\n'''\n@t".toList)
        (standard.log .steps "* a:\n'''\n@t".toList none) ∧
      standard.read .feature "# language: nl\n@t @u".toList none = .ok u ∧
      standard.log .feature "# language: nl\n@t @u".toList none =
        [.directiveSelects "nl".toList, .danglingTags none 2] ∧
      LanguageNotesFit standard (standard.log .feature "# language: nl\n@t @u".toList none) ∧
      standard.read .feature "@t\nx".toList none = .error failure ∧
      ∀ record ∈ standard.log .feature "@t\nx".toList none, record.isEndNote = false := by
  have hread : ∃ (t u : Session) (failure : Failure),
      standard.read .steps "* a:\n'''\n@t".toList none = .ok t ∧
      standard.log .steps "* a:\n'''\n@t".toList none =
        [.standardLanguage "en".toList, .openDocstring none 2] ∧
      standard.read .feature "# language: nl\n@t @u".toList none = .ok u ∧
      standard.log .feature "# language: nl\n@t @u".toList none =
        [.directiveSelects "nl".toList, .danglingTags none 2] ∧
      standard.read .feature "@t\nx".toList none = .error failure :=
    ⟨_, _, _, rfl, rfl, rfl, rfl, rfl⟩
  obtain ⟨t, u, failure, ht, htlog, hu, hulog, hfails⟩ := hread
  obtain ⟨s, -, -, hend⟩ := (log_disciplined _ _ _ _).2.2 t ht
  have hlanguage := (log_disciplined standard .feature "# language: nl\n@t @u".toList none).1
  have hquiet := (log_disciplined _ _ _ _).2.1 failure hfails
  exact ⟨s, t, u, failure, ht, htlog, hend, hu, hulog, hlanguage, hfails, hquiet⟩

end Parser

end Gherkin
