/-
  Gherkin/Proofs/Keyword/Clarity.lean
  ===================================
  **Keywords that cannot be mistaken for one another.**

  The keywords of a language are clear when the beginning of a line settles what
  the line is: no alias heads two kinds of statement, no step alias continues
  another one or the alias of a header, and none of them begins like a row, a
  fence, a comment or a line of tags.  All of this can be checked by looking at
  the aliases, and it holds of five bundled languages (`Builtin.clear`).  It does
  not hold of French, where some step aliases continue others.

  With clear keywords a line that is written with an alias is recognised by that
  alias, whatever follows it.  Where aliases continue others it is enough that the
  longer ones are tested first and that none of them captures what follows.
-/
import Gherkin.Keyword.Recognition
import Gherkin.Printer
import Gherkin.Proofs.Text.Trimming

namespace Gherkin

open Text

/-! ## 1. What can be checked -/

namespace Text

/-- The signs with which a line begins that needs no keyword. -/
def signs : List Char := ['@', '#', '|', '"', '\x27']

/-- Whether a text begins with something that is neither blank nor a sign. -/
def beginsPlainly (t : Text) : Bool := t.head?.any fun c => !isBlank c && !signs.contains c

/-- Whether two texts differ, up to case, before either of them ends. -/
def diverge : Text → Text → Bool
  | c :: s, d :: t => !sameLetter c d || diverge s t
  | _, _ => false

theorem afterAnyCase?_of_diverge {line lead : Text} (h : diverge line lead = true) (rest : Text) :
    afterAnyCase? lead (line ++ rest) = none := by
  induction line generalizing lead with
  | nil => simp [diverge] at h
  | cons c line ih =>
    cases lead with
    | nil => simp [diverge] at h
    | cons d lead =>
      rw [List.cons_append, afterAnyCase?]
      rw [diverge, Bool.or_eq_true] at h
      rcases h with h | h
      · rw [if_neg (by simpa using h)]
      · split
        · exact ih h
        · rfl

/-- Two beginnings of one line do not differ before either of them ends. -/
theorem diverge_eq_false_of_fits {line s t : Text} (hs : (afterAnyCase? s line).isSome = true)
    (ht : (afterAnyCase? t line).isSome = true) : diverge s t = false := by
  induction line generalizing s t with
  | nil =>
    cases s with
    | nil => cases t <;> rfl
    | cons c s => simp [afterAnyCase?] at hs
  | cons e line ih =>
    cases s with
    | nil => cases t <;> rfl
    | cons c s =>
      cases t with
      | nil => rfl
      | cons d t =>
        rw [afterAnyCase?] at hs ht
        split at hs
        · rename_i hc
          split at ht
          · rename_i hd
            have hsame : sameLetter c d = true := by
              unfold sameLetter at hc hd ⊢
              rw [← eq_of_beq hc, hd]
            rw [diverge, hsame, ih hs ht]
            rfl
          · simp at ht
        · simp at hs

theorem diverge_append_self (s t : Text) : diverge (s ++ t) s = false := by
  induction s with
  | nil => cases t <;> rfl
  | cons c s ih => rw [List.cons_append, diverge, sameLetter_refl, ih]; rfl

theorem afterAnyCase?_append_append (s lead t : Text) :
    afterAnyCase? (s ++ lead) (s ++ t) = afterAnyCase? lead t := by
  induction s with
  | nil => rfl
  | cons c s ih =>
    rw [List.cons_append, List.cons_append, afterAnyCase?, if_pos (sameLetter_refl c), ih]

theorem afterAnyCase?_append_self (s t : Text) : afterAnyCase? s (s ++ t) = some t :=
  afterAnyCase?_of_after? (after?_eq_some_iff.mpr rfl)

end Text

/-- The categories that head statements. -/
def headings : List Category := [.feature, .rule, .background, .scenario, .outline, .examples]

namespace Keywords

/-- The step aliases, in the order in which a line is tested for them. -/
def stepAliases (keywords : Keywords) : List (StepType × Text) :=
  StepType.all.flatMap fun type => (keywords.aliases (.step type)).map fun spelling =>
    (type, spelling)

/-- The beginning of a line settles what the line is. -/
structure Clear (keywords : Keywords) : Prop where
  header_plain : ∀ category ∈ headings, ∀ spelling ∈ keywords.aliases category,
    beginsPlainly spelling = true ∧ ':' ∉ spelling
  header_unique : ∀ category ∈ headings, ∀ other ∈ headings, category ≠ other →
    ∀ spelling ∈ keywords.aliases category, spelling ∉ keywords.aliases other
  step_plain : ∀ step ∈ keywords.stepAliases,
    beginsPlainly step.2 = true ∧ diverge ['@'] step.2 = true ∧ diverge ['|'] step.2 = true
  step_line : ∀ step ∈ keywords.stepAliases, SingleLine step.2
  /-- The separator that is written behind a keyword makes it the alias again. -/
  step_separator : ∀ step ∈ keywords.stepAliases,
    trimEnd step.2 ++ Printer.separator (trimEnd step.2) = step.2
  step_unique : ∀ step ∈ keywords.stepAliases, ∀ other ∈ keywords.stepAliases,
    step.2 ≠ other.2 → diverge step.2 other.2 = true
  step_header : ∀ category ∈ headings, ∀ spelling ∈ keywords.aliases category,
    ∀ step ∈ keywords.stepAliases, diverge (spelling ++ [':']) step.2 = true

end Keywords

namespace Builtin

theorem english_clear : english.Clear := by
  constructor <;> decide +kernel

theorem german_clear : german.Clear := by
  constructor <;> decide +kernel

theorem spanish_clear : spanish.Clear := by
  constructor <;> decide +kernel

theorem dutch_clear : dutch.Clear := by
  constructor <;> decide +kernel

theorem japanese_clear : japanese.Clear := by
  constructor <;> decide +kernel

def clearCodes : List Text := texts ["en", "de", "es", "nl", "ja"]

theorem clear {code : Text} {keywords : Keywords} (hcode : code ∈ clearCodes)
    (hlookup : catalogue.lookup code = some keywords) : keywords.Clear := by
  simp only [clearCodes, texts, List.map_cons, List.map_nil, List.mem_cons, List.not_mem_nil,
    or_false] at hcode
  rcases hcode with rfl | rfl | rfl | rfl | rfl
  · exact Option.some.inj (hlookup.symm.trans rfl) ▸ english_clear
  · exact Option.some.inj (hlookup.symm.trans rfl) ▸ german_clear
  · exact Option.some.inj (hlookup.symm.trans rfl) ▸ spanish_clear
  · exact Option.some.inj (hlookup.symm.trans rfl) ▸ dutch_clear
  · exact Option.some.inj (hlookup.symm.trans rfl) ▸ japanese_clear

/-- Only French has aliases that continue others. -/
theorem clear_or_french :
    ∀ language ∈ languages, language.keywords.Clear ∨ language = ⟨"fr".toList, french⟩ := by
  intro language hlanguage
  simp only [languages, List.mem_cons, List.not_mem_nil, or_false] at hlanguage
  rcases hlanguage with rfl | rfl | rfl | rfl | rfl | rfl
  · exact .inl english_clear
  · exact .inl german_clear
  · exact .inr rfl
  · exact .inl spanish_clear
  · exact .inl dutch_clear
  · exact .inl japanese_clear

end Builtin

namespace Keywords

variable {keywords : Keywords}

/-! ## 2. Headers -/

/-- Two aliases before the first colon of a line are the same alias. -/
theorem eq_of_append_colon {spelling other rest tail : Text} (h : ':' ∉ spelling)
    (hother : ':' ∉ other) (heq : spelling ++ ':' :: rest = other ++ ':' :: tail) :
    spelling = other ∧ rest = tail := by
  induction spelling generalizing other with
  | nil =>
    cases other with
    | nil => exact ⟨rfl, (List.cons.inj heq).2⟩
    | cons d other => simp [← (List.cons.inj heq).1] at hother
  | cons c spelling ih =>
    cases other with
    | nil => simp [(List.cons.inj heq).1] at h
    | cons d other =>
      obtain ⟨rfl, htail⟩ := List.cons.inj heq
      rw [List.mem_cons, not_or] at h hother
      obtain ⟨rfl, hrest⟩ := ih h.2 hother.2 htail
      exact ⟨rfl, hrest⟩

/-- An alias and a colon are a header, whatever stands behind them. -/
theorem isHeader_append {category : Category} {spelling : Text}
    (hspelling : spelling ∈ keywords.aliases category) (rest : Text) :
    keywords.isHeader category (spelling ++ ':' :: rest) = true := by
  refine List.findSome?_isSome_iff.mpr ⟨spelling, hspelling, ?_⟩
  have hafter : after? (spelling ++ [':']) (spelling ++ ':' :: rest) = some rest :=
    after?_eq_some_iff.mpr (by simp)
  simp [hafter]

/-- A header line is an alias of the category, a colon and the title. -/
theorem header?_eq_some {category : Category} {line keyword title : Text}
    (h : keywords.header? category line = some (keyword, title)) :
    keyword ∈ keywords.aliases category ∧
      ∃ rest, line = keyword ++ ':' :: rest ∧ trim rest = title := by
  obtain ⟨spelling, hspelling, hfound⟩ := List.exists_of_findSome?_eq_some h
  obtain ⟨rest, hrest, heq⟩ := Option.map_eq_some_iff.mp hfound
  obtain ⟨rfl, rfl⟩ := Prod.mk.injEq .. ▸ heq
  rw [after?_eq_some_iff] at hrest
  exact ⟨hspelling, rest, by simpa using hrest, rfl⟩

theorem Clear.header?_append (h : keywords.Clear) {category : Category} (hcategory : category ∈ headings)
    {spelling : Text} (hspelling : spelling ∈ keywords.aliases category) (rest : Text) :
    keywords.header? category (spelling ++ ':' :: rest) = some (spelling, trim rest) := by
  have hcolon := (h.header_plain category hcategory spelling hspelling).2
  obtain ⟨⟨other, title⟩, hfound⟩ := Option.isSome_iff_exists.mp (isHeader_append hspelling rest)
  obtain ⟨hother, tail, hline, rfl⟩ := header?_eq_some hfound
  obtain ⟨rfl, rfl⟩ := eq_of_append_colon hcolon (h.header_plain category hcategory other hother).2 hline
  exact hfound

/-- A header of one category is not a header of another. -/
theorem Clear.header?_other (h : keywords.Clear) {category other : Category}
    (hcategory : category ∈ headings) (hother : other ∈ headings) (hne : category ≠ other)
    {spelling : Text} (hspelling : spelling ∈ keywords.aliases category) (rest : Text) :
    keywords.header? other (spelling ++ ':' :: rest) = none := by
  cases hheader : keywords.header? other (spelling ++ ':' :: rest) with
  | none => rfl
  | some header =>
    obtain ⟨hfound, tail, hline, -⟩ := header?_eq_some hheader
    obtain ⟨rfl, -⟩ := eq_of_append_colon (h.header_plain category hcategory spelling hspelling).2
      (h.header_plain other hother header.1 hfound).2 hline
    exact absurd hfound (h.header_unique category hcategory other hother hne _ hspelling)

/-- What begins with a sign is no header. -/
theorem header?_sign {category : Category}
    (hplain : ∀ spelling ∈ keywords.aliases category, beginsPlainly spelling = true) {c : Char}
    (hc : c ∈ signs) (t : Text) : keywords.header? category (c :: t) = none := by
  refine List.findSome?_eq_none_iff.mpr ?_
  intro spelling hspelling
  rw [Option.map_eq_none_iff]
  cases hafter : after? (spelling ++ [':']) (c :: t) with
  | none => rfl
  | some tail =>
    have hline := after?_eq_some_iff.mp hafter
    have hbegins := hplain spelling hspelling
    cases spelling with
    | nil => simp [beginsPlainly] at hbegins
    | cons d spelling =>
      rw [List.cons_append, List.cons_append, List.cons.injEq] at hline
      simp [beginsPlainly, ← hline.1, hc] at hbegins

theorem Clear.header?_sign (h : keywords.Clear) {category : Category}
    (hcategory : category ∈ headings) {c : Char} (hc : c ∈ signs) (t : Text) :
    keywords.header? category (c :: t) = none :=
  Keywords.header?_sign (fun spelling hspelling =>
    (h.header_plain category hcategory spelling hspelling).1) hc t

/-! ## 3. Steps -/

theorem findSome?_flatMap {α β γ : Type} (f : β → Option γ) (g : α → List β) (list : List α) :
    (list.flatMap g).findSome? f = list.findSome? fun a => (g a).findSome? f := by
  induction list with
  | nil => rfl
  | cons a list ih =>
    rw [List.flatMap_cons, List.findSome?_append, ih, List.findSome?_cons]
    cases (g a).findSome? f <;> rfl

theorem step?_eq_findSome? (line : Text) :
    keywords.step? line = keywords.stepAliases.findSome? fun step =>
      (afterAnyCase? step.2 line).map fun rest => ⟨step.2, step.1, trim rest⟩ := by
  unfold Keywords.step? stepAliases
  rw [findSome?_flatMap]
  simp only [List.findSome?_map]
  rfl

/-- A step was recognised by an alias of its type. -/
theorem exists_of_step? {line : Text} {found : StepMatch} (h : keywords.step? line = some found) :
    (found.type, found.spelling) ∈ keywords.stepAliases ∧
      ∃ rest, afterAnyCase? found.spelling line = some rest ∧ found.text = trim rest := by
  rw [step?_eq_findSome?] at h
  obtain ⟨step, hstep, hmatch⟩ := List.exists_of_findSome?_eq_some h
  obtain ⟨rest, hrest, rfl⟩ := Option.map_eq_some_iff.mp hmatch
  exact ⟨hstep, rest, hrest, rfl⟩

theorem step?_eq_none {line : Text}
    (h : ∀ step ∈ keywords.stepAliases, afterAnyCase? step.2 line = none) :
    keywords.step? line = none := by
  rw [step?_eq_findSome?]
  refine List.findSome?_eq_none_iff.mpr ?_
  intro step hstep
  rw [h step hstep]
  rfl

/-- A header from which all step aliases differ is no step. -/
theorem step?_header_of_diverge {spelling : Text}
    (h : ∀ step ∈ keywords.stepAliases, diverge (spelling ++ [':']) step.2 = true) (rest : Text) :
    keywords.step? (spelling ++ ':' :: rest) = none := by
  refine step?_eq_none ?_
  intro step hstep
  simpa using afterAnyCase?_of_diverge (h step hstep) rest

theorem Clear.step?_header (h : keywords.Clear) {category : Category}
    (hcategory : category ∈ headings) {spelling : Text}
    (hspelling : spelling ∈ keywords.aliases category) (rest : Text) :
    keywords.step? (spelling ++ ':' :: rest) = none :=
  step?_header_of_diverge (h.step_header category hcategory spelling hspelling) rest

/-- What begins with a sign is no step. -/
theorem step?_sign {c : Char} (h : ∀ step ∈ keywords.stepAliases, diverge [c] step.2 = true)
    (t : Text) : keywords.step? (c :: t) = none := by
  refine step?_eq_none ?_
  intro step hstep
  exact afterAnyCase?_of_diverge (h step hstep) t

theorem Clear.step?_at (h : keywords.Clear) (t : Text) : keywords.step? ('@' :: t) = none :=
  step?_sign (fun step hstep => (h.step_plain step hstep).2.1) t

theorem Clear.step?_pipe (h : keywords.Clear) (t : Text) : keywords.step? ('|' :: t) = none :=
  step?_sign (fun step hstep => (h.step_plain step hstep).2.2) t

/-! ## 4. Aliases that continue others -/

/-- Of two step aliases of which one continues the other, the longer one is
    tested first. -/
def LongestFirst (keywords : Keywords) : Prop :=
  keywords.stepAliases.Pairwise fun step later =>
    later.2 <+: step.2 ∨ diverge later.2 step.2 = true

instance : Decidable keywords.LongestFirst := inferInstanceAs (Decidable (List.Pairwise _ _))

/-- Some alias continues the given one, and the text that stands behind it begins
    with what that alias adds. -/
def Captures (keywords : Keywords) (spelling text : Text) : Prop :=
  ∃ step ∈ keywords.stepAliases, ∃ tail, tail ≠ [] ∧ step.2 = spelling ++ tail ∧
    (afterAnyCase? tail text).isSome = true

/-- The step that a line was recognised as is recognised again by its alias,
    unless what stands behind the alias is captured by another one. -/
theorem LongestFirst.step?_append (h : keywords.LongestFirst) {line : Text} {found : StepMatch}
    (hfound : keywords.step? line = some found) {rest : Text}
    (hfree : ¬keywords.Captures found.spelling rest) :
    keywords.step? (found.spelling ++ rest) = some ⟨found.spelling, found.type, trim rest⟩ := by
  rw [step?_eq_findSome?] at hfound
  obtain ⟨before, step, after, hlist, hmatch, hbefore⟩ := List.findSome?_eq_some_iff.mp hfound
  obtain ⟨tail, htail, rfl⟩ := Option.map_eq_some_iff.mp hmatch
  rw [LongestFirst, hlist] at h
  rw [step?_eq_findSome?]
  refine List.findSome?_eq_some_iff.mpr ⟨before, step, after, hlist, ?_, ?_⟩
  · rw [afterAnyCase?_append_self]
    rfl
  · intro other hother
    rw [Option.map_eq_none_iff]
    rcases (List.pairwise_append.mp h).2.2 other hother step List.mem_cons_self with
      ⟨added, hadded⟩ | hdiverge
    · -- An earlier alias with the same spelling would have been found in the first place.
      have hne : added ≠ [] := by
        rintro rfl
        have hnone := Option.map_eq_none_iff.mp (hbefore other hother)
        rw [← hadded, List.append_nil, htail] at hnone
        exact absurd hnone (by simp)
      by_contra hsome
      apply hfree
      refine ⟨other, by simp [hlist, hother], added, hne, hadded.symm, ?_⟩
      rw [← hadded, afterAnyCase?_append_append] at hsome
      exact Option.isSome_iff_ne_none.mpr hsome
    · exact afterAnyCase?_of_diverge hdiverge rest

/-- Behind an alias whose text is captured, a line is not recognised by that alias. -/
theorem LongestFirst.spelling_ne_of_captures (h : keywords.LongestFirst) {spelling rest : Text}
    (hcaptures : keywords.Captures spelling rest) {again : StepMatch}
    (hagain : keywords.step? (spelling ++ rest) = some again) : again.spelling ≠ spelling := by
  obtain ⟨long, hlong, added, hne, hadded, hmatches⟩ := hcaptures
  rw [step?_eq_findSome?] at hagain
  obtain ⟨before, step, after, hlist, hmatch, hbefore⟩ := List.findSome?_eq_some_iff.mp hagain
  obtain ⟨tail, -, rfl⟩ := Option.map_eq_some_iff.mp hmatch
  intro hspelling
  have hspelling : step.2 = spelling := hspelling
  rw [LongestFirst, hlist] at h
  rw [hlist, List.mem_append, List.mem_cons] at hlong
  rcases hlong with hlong | rfl | hlong
  · -- The longer alias is tested before, and it fits.
    have hnone := Option.map_eq_none_iff.mp (hbefore long hlong)
    rw [hadded, afterAnyCase?_append_append] at hnone
    rw [hnone] at hmatches
    exact absurd hmatches (by decide)
  · exact hne (List.append_right_eq_self.mp (hadded.symm.trans hspelling))
  · have hlater := List.rel_of_pairwise_cons (List.pairwise_append.mp h).2.1 hlong
    rw [hadded, hspelling] at hlater
    rcases hlater with hprefix | hdiverge
    · have hlength := hprefix.length_le
      rw [List.length_append] at hlength
      exact hne (List.length_eq_zero_iff.mp (by omega))
    · rw [diverge_append_self] at hdiverge
      exact absurd hdiverge (by decide)

/-- The alias by which a step was recognised is the longest of all that fit the
    line. -/
theorem LongestFirst.eq_or_length_lt (h : keywords.LongestFirst) {line : Text} {found : StepMatch}
    (hfound : keywords.step? line = some found) {step : StepType × Text}
    (hstep : step ∈ keywords.stepAliases) (hfits : (afterAnyCase? step.2 line).isSome = true) :
    step.2 = found.spelling ∨ step.2.length < found.spelling.length := by
  rw [step?_eq_findSome?] at hfound
  obtain ⟨before, first, after, hlist, hmatch, hbefore⟩ := List.findSome?_eq_some_iff.mp hfound
  obtain ⟨tail, htail, rfl⟩ := Option.map_eq_some_iff.mp hmatch
  have hfirst : (afterAnyCase? first.2 line).isSome = true := by simp [htail]
  rw [LongestFirst, hlist] at h
  rw [hlist, List.mem_append, List.mem_cons] at hstep
  rcases hstep with hstep | rfl | hstep
  · -- What is tested before does not fit.
    rw [Option.map_eq_none_iff.mp (hbefore step hstep)] at hfits
    exact absurd hfits (by decide)
  · exact .inl rfl
  · rcases List.rel_of_pairwise_cons (List.pairwise_append.mp h).2.1 hstep with hinitial | hdiverge
    · rcases hinitial.length_le.lt_or_eq with hlt | heq
      · exact .inr hlt
      · exact .inl (hinitial.eq_of_length heq)
    · rw [diverge_eq_false_of_fits hfits hfirst] at hdiverge
      exact absurd hdiverge (by decide)

theorem Clear.longestFirst (h : keywords.Clear) : keywords.LongestFirst := by
  refine List.pairwise_iff_forall_sublist.mpr ?_
  intro step later hsublist
  have hstep : step ∈ keywords.stepAliases := hsublist.subset (by simp)
  have hlater : later ∈ keywords.stepAliases := hsublist.subset (by simp)
  by_cases hsame : later.2 = step.2
  · exact .inl (hsame ▸ List.prefix_refl _)
  · exact .inr (h.step_unique later hlater step hstep hsame)

/-- With clear keywords no alias captures the text of another one. -/
theorem Clear.not_captures (h : keywords.Clear) {step : StepType × Text}
    (hstep : step ∈ keywords.stepAliases) (text : Text) : ¬keywords.Captures step.2 text := by
  rintro ⟨long, hlong, added, hne, hadded, -⟩
  have hdiffer : long.2 ≠ step.2 := by
    intro hsame
    exact hne (List.append_right_eq_self.mp (hadded.symm.trans hsame))
  have hdiverge := h.step_unique long hlong step hstep hdiffer
  rw [hadded, diverge_append_self] at hdiverge
  exact absurd hdiverge (by decide)

theorem Clear.step?_append (h : keywords.Clear) {line : Text} {found : StepMatch}
    (hfound : keywords.step? line = some found) (rest : Text) :
    (found.type, found.spelling) ∈ keywords.stepAliases ∧
      keywords.step? (found.spelling ++ rest) =
        some ⟨found.spelling, found.type, trim rest⟩ := by
  have hmem := (exists_of_step? hfound).1
  exact ⟨hmem, h.longestFirst.step?_append hfound (h.not_captures hmem rest)⟩

end Keywords

/-- Aliases that continue others stand in front of them in French too. -/
theorem Builtin.french_longestFirst : Builtin.french.LongestFirst := by
  decide +kernel

end Gherkin
