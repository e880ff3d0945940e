/-
  Gherkin/Proofs/Text/Trimming.lean
  =================================
  **Texts without blank ends, and their words.**

  A text is trimmed when no blank stands at either end of it.  Trimming gives a
  trimmed text and leaves a trimmed text alone, blanks around a text do not
  change what trimming gives, and none of this changes the words.
-/
import Gherkin.Proofs.Text.Cutting
import Gherkin.Tag
import Mathlib.Data.List.DropRight

namespace Gherkin.Text

/-! ## 1. Ends -/

/-- The text does not start with a blank. -/
def SolidStart (t : Text) : Prop := ∀ c ∈ t.head?, isBlank c = false

/-- The text does not end with a blank. -/
def SolidEnd (t : Text) : Prop := ∀ c ∈ t.getLast?, isBlank c = false

/-- The text has no blank at either end. -/
def Trimmed (t : Text) : Prop := SolidStart t ∧ SolidEnd t

-- The instances test the characters in question and not every character there is.
instance (P : Char → Prop) [DecidablePred P] (t : Text) : Decidable (∀ c ∈ t, P c) :=
  List.decidableBAll P t

instance : DecidablePred SolidStart := fun t =>
  decidable_of_iff (t.head?.all (!isBlank ·) = true) (by simp [SolidStart, Option.all_eq_true])

instance : DecidablePred SolidEnd := fun t =>
  decidable_of_iff (t.getLast?.all (!isBlank ·) = true) (by simp [SolidEnd, Option.all_eq_true])

instance : DecidablePred Trimmed := fun t =>
  inferInstanceAs (Decidable (SolidStart t ∧ SolidEnd t))

theorem trimEnd_eq_rdropWhile (t : Text) : trimEnd t = t.rdropWhile isBlank := rfl

theorem solidStart_nil : SolidStart [] := by simp [SolidStart]

theorem solidEnd_nil : SolidEnd [] := by simp [SolidEnd]

theorem solidStart_cons {c : Char} {t : Text} : SolidStart (c :: t) ↔ isBlank c = false := by
  simp [SolidStart]

theorem solidEnd_concat {c : Char} {t : Text} : SolidEnd (t ++ [c]) ↔ isBlank c = false := by
  simp [SolidEnd]

theorem SolidStart.append {s t : Text} (h : SolidStart s) (hs : s ≠ []) : SolidStart (s ++ t) := by
  cases s with
  | nil => exact absurd rfl hs
  | cons c s => exact h

theorem SolidEnd.append {s t : Text} (h : SolidEnd t) (ht : t ≠ []) : SolidEnd (s ++ t) := by
  intro c hc
  rw [List.getLast?_append_of_ne_nil s ht] at hc
  exact h c hc

theorem SolidStart.of_initial {s t : Text} (h : SolidStart t) (hs : s <+: t) : SolidStart s := by
  obtain ⟨rest, rfl⟩ := hs
  intro c hc
  refine h c ?_
  rw [Option.mem_def, List.head?_append, Option.mem_def.mp hc, Option.some_or]

theorem SolidEnd.of_final {s t : Text} (h : SolidEnd t) (hs : s <:+ t) : SolidEnd s := by
  obtain ⟨rest, rfl⟩ := hs
  intro c hc
  refine h c ?_
  rw [Option.mem_def, List.getLast?_append, Option.mem_def.mp hc, Option.some_or]

theorem solidEnd_join {sep : Char} {list : List Text}
    (h : ∀ piece ∈ list, piece ≠ [] ∧ SolidEnd piece) : SolidEnd (join sep list) := by
  induction list using join.induct with
  | case1 => exact solidEnd_nil
  | case2 piece => exact (h piece List.mem_cons_self).2
  | case3 piece rest hrest ih =>
    have htail := ih fun other hother => h other (List.mem_cons_of_mem _ hother)
    have hne : join sep rest ≠ [] := by
      obtain ⟨first, hfirst⟩ := List.exists_mem_of_ne_nil rest hrest
      obtain ⟨before, after, heq⟩ : ∃ before after, join sep rest = before ++ (first ++ after) :=
        exists_join_of_mem hfirst
      simp [heq, (h first (List.mem_cons_of_mem _ hfirst)).1]
    rw [join_cons _ _ hrest, List.append_cons]
    exact htail.append hne

theorem trimStart_eq_self {t : Text} (h : SolidStart t) : trimStart t = t := by
  cases t with
  | nil => rfl
  | cons c t => exact List.dropWhile_cons_of_neg (by simpa using solidStart_cons.mp h)

theorem trimEnd_eq_self {t : Text} (h : SolidEnd t) : trimEnd t = t := by
  rcases List.eq_nil_or_concat t with rfl | ⟨s, c, rfl⟩
  · rfl
  · rw [List.concat_eq_append] at h ⊢
    exact List.rdropWhile_concat_neg isBlank s c (by simpa using solidEnd_concat.mp h)

theorem trim_eq_self {t : Text} (h : Trimmed t) : trim t = t := by
  unfold trim
  rw [trimStart_eq_self h.1, trimEnd_eq_self h.2]

theorem solidStart_trimStart (t : Text) : SolidStart (trimStart t) := by
  intro c hc
  have h := List.head?_dropWhile_not isBlank t
  unfold trimStart at hc
  rw [Option.mem_def] at hc
  simpa [hc] using h

theorem solidEnd_trimEnd (t : Text) : SolidEnd (trimEnd t) := by
  intro c hc
  have hne : t.rdropWhile isBlank ≠ [] := by
    intro hnil
    simp [trimEnd_eq_rdropWhile, hnil] at hc
  have h := List.rdropWhile_last_not isBlank t hne
  rw [trimEnd_eq_rdropWhile, Option.mem_def, List.getLast?_eq_getLast_of_ne_nil hne,
    Option.some.injEq] at hc
  simpa [hc] using h

theorem SolidStart.trimEnd {t : Text} (h : SolidStart t) : SolidStart (trimEnd t) :=
  h.of_initial (List.rdropWhile_prefix isBlank (l := t))

theorem trimmed_of_solid {t : Text} (h : ∀ c ∈ t, isBlank c = false) : Trimmed t :=
  ⟨fun c hc => h c (List.mem_of_mem_head? hc), fun c hc => h c (List.mem_of_mem_getLast? hc)⟩

theorem trimmed_trim (t : Text) : Trimmed (trim t) :=
  ⟨(solidStart_trimStart t).trimEnd, solidEnd_trimEnd _⟩

@[simp] theorem trim_trim (t : Text) : trim (trim t) = trim t := trim_eq_self (trimmed_trim t)

/-! ## 2. Blanks around a text -/

theorem trimStart_append_of_blank {blanks : Text} (h : ∀ c ∈ blanks, isBlank c = true)
    (t : Text) : trimStart (blanks ++ t) = trimStart t :=
  List.dropWhile_append_of_pos h

theorem trim_append_of_blank {blanks : Text} (h : ∀ c ∈ blanks, isBlank c = true) (t : Text) :
    trim (blanks ++ t) = trim t := by
  unfold trim
  rw [trimStart_append_of_blank h]

theorem trimEnd_append_of_blank {blanks : Text} (h : ∀ c ∈ blanks, isBlank c = true)
    (t : Text) : trimEnd (t ++ blanks) = trimEnd t := by
  unfold trimEnd
  rw [List.reverse_append, List.dropWhile_append_of_pos (by simpa using h)]

theorem trim_append_blanks {blanks : Text} (h : ∀ c ∈ blanks, isBlank c = true) (t : Text) :
    trim (t ++ blanks) = trim t := by
  unfold trim trimStart
  rw [List.dropWhile_append]
  split
  · rename_i hnil
    have hblanks : blanks.dropWhile isBlank = [] := by simpa using h
    rw [hblanks, List.isEmpty_iff.mp hnil]
  · exact trimEnd_append_of_blank h _

theorem exists_blanks_trimEnd (t : Text) :
    ∃ blanks : Text, t = trimEnd t ++ blanks ∧ ∀ c ∈ blanks, isBlank c = true := by
  refine ⟨t.rtakeWhile isBlank, ?_, ?_⟩
  · exact List.rdropWhile_append_rtakeWhile.symm
  · intro c hc
    exact List.mem_rtakeWhile_imp hc

theorem trim_trimEnd (t : Text) : trim (trimEnd t) = trim t := by
  obtain ⟨blanks, heq, hblanks⟩ := exists_blanks_trimEnd t
  conv_rhs => rw [heq]
  exact (trim_append_blanks hblanks (trimEnd t)).symm

theorem trimStart_trimEnd (t : Text) : trimStart (trimEnd t) = trim t := by
  have hend : SolidEnd (trimStart (trimEnd t)) :=
    (solidEnd_trimEnd t).of_final (List.dropWhile_suffix isBlank)
  rw [← trim_trimEnd t, trim, trimEnd_eq_self hend]

theorem trimStart_concat {c : Char} (h : isBlank c = false) (t : Text) :
    trimStart (t ++ [c]) = trimStart t ++ [c] := by
  unfold trimStart
  rw [List.dropWhile_append]
  split
  · rename_i hnil
    rw [List.isEmpty_iff.mp hnil, List.dropWhile_cons_of_neg (by simp [h])]
    rfl
  · rfl

/-- Trimming leaves something solid at the end where it is. -/
theorem trim_concat {c : Char} (h : isBlank c = false) (t : Text) :
    trim (t ++ [c]) = trimStart t ++ [c] := by
  rw [trim, trimStart_concat h, trimEnd_eq_self (solidEnd_concat.mpr h)]

/-- Behind something solid the blanks at the end of a text are those at the end
    of its rest. -/
theorem trimEnd_append {lead : Text} (h : SolidEnd lead) (rest : Text) :
    trimEnd (lead ++ rest) = lead ++ trimEnd rest := by
  obtain ⟨blanks, heq, hblanks⟩ := exists_blanks_trimEnd rest
  conv_lhs => rw [heq, ← List.append_assoc, trimEnd_append_of_blank hblanks]
  apply trimEnd_eq_self
  by_cases hrest : trimEnd rest = []
  · rw [hrest, List.append_nil]
    exact h
  · exact (solidEnd_trimEnd rest).append hrest

/-- Whether a text begins with something solid does not depend on the blanks at
    its end. -/
theorem after?_trimEnd {lead : Text} (h : SolidEnd lead) (t : Text) :
    after? lead (trimEnd t) = (after? lead t).map trimEnd := by
  cases hafter : after? lead t with
  | some rest =>
    rw [after?_eq_some_iff] at hafter
    rw [hafter, trimEnd_append h, Option.map_some, after?_eq_some_iff]
  | none =>
    rw [Option.map_none, ← Option.not_isSome_iff_eq_none, Option.isSome_iff_exists]
    rintro ⟨rest, hrest⟩
    obtain ⟨blanks, heq, -⟩ := exists_blanks_trimEnd t
    rw [after?_eq_some_iff] at hrest
    rw [hrest, List.append_assoc] at heq
    simp [after?_eq_some_iff.mpr heq] at hafter

/-- A text is its trimmed form between blanks. -/
theorem exists_blanks_trim (t : Text) :
    ∃ before after : Text, t = before ++ trim t ++ after ∧
      (∀ c ∈ before, isBlank c = true) ∧ ∀ c ∈ after, isBlank c = true := by
  refine ⟨t.takeWhile isBlank, (trimStart t).rtakeWhile isBlank, ?_, ?_, ?_⟩
  · have h := List.rdropWhile_append_rtakeWhile (p := isBlank) (l := trimStart t)
    unfold trim
    rw [trimEnd_eq_rdropWhile, List.append_assoc, h, takeWhile_append_trimStart]
  · intro c hc
    exact List.mem_takeWhile_imp hc
  · intro c hc
    exact List.mem_rtakeWhile_imp hc

theorem exists_blanks_dropFinal {c : Char} (hc : isBlank c = true) (t : Text) :
    ∃ blanks : Text, t = dropFinal c t ++ blanks ∧ ∀ d ∈ blanks, isBlank d = true := by
  unfold dropFinal beforeLast?
  split
  · rename_i hlast
    refine ⟨[c], ?_, by simpa using hc⟩
    rw [Option.getD_some, List.dropLast_append_getLast? c hlast]
  · exact ⟨[], by simp, by simp⟩

theorem mem_of_mem_trim {c : Char} {t : Text} (h : c ∈ trim t) : c ∈ t := by
  obtain ⟨before, after, heq, -⟩ := exists_blanks_trim t
  rw [heq]
  simp [h]

theorem mem_of_mem_trimEnd {c : Char} {t : Text} (h : c ∈ trimEnd t) : c ∈ t :=
  (List.rdropWhile_prefix isBlank (l := t)).subset h

/-- Spaces are blank. -/
theorem isBlank_of_mem_replicate {n : Nat} : ∀ c ∈ List.replicate n ' ', isBlank c = true := by
  intro c hc
  rw [List.eq_of_mem_replicate hc]
  decide

/-- Trimming does not lose all of a text that has something to show. -/
theorem trim_ne_nil {t : Text} {c : Char} (hc : c ∈ t) (h : isBlank c = false) : trim t ≠ [] := by
  intro hnil
  obtain ⟨before, after, heq, hbefore, hafter⟩ := exists_blanks_trim t
  rw [hnil, List.append_nil] at heq
  rw [heq] at hc
  have hblank : isBlank c = true := (List.mem_append.mp hc).elim (hbefore c) (hafter c)
  rw [h] at hblank
  exact Bool.noConfusion hblank

/-! ## 3. Words -/

/-- A blank separates words and belongs to none. -/
theorem words_cons_of_blank {c : Char} (h : isBlank c = true) (t : Text) :
    words (c :: t) = words t := by
  simp [words, splitWhen_cons, h]

/-- A text that starts with no blank starts with a word. -/
theorem words_cons_of_solid {c : Char} (h : isBlank c = false) (t : Text) :
    ∃ word rest, words (c :: t) = (c :: word) :: rest := by
  unfold words
  rw [splitWhen_cons]
  cases hsplit : splitWhen isBlank t with
  | nil => exact absurd hsplit (splitWhen_ne_nil _ _)
  | cons piece pieces => exact ⟨piece, _, by simp [h, onHead]; rfl⟩

theorem words_append_of_blank {blanks : Text} (h : ∀ c ∈ blanks, isBlank c = true) (t : Text) :
    words (blanks ++ t) = words t := by
  induction blanks with
  | nil => rfl
  | cons c blanks ih =>
    rw [List.cons_append, words_cons_of_blank (h c List.mem_cons_self)]
    exact ih fun d hd => h d (List.mem_cons_of_mem _ hd)

/-- Between a word and what follows it stands a blank. -/
theorem words_append_blank (word : Text) (t : Text) {c : Char}
    (hword : ∀ d ∈ word, isBlank d = false) (hne : word ≠ []) (hc : isBlank c = true) :
    words (word ++ c :: t) = word :: words t := by
  unfold words
  rw [splitWhen_append_sep hword hc]
  simp [hne]

theorem words_eq_singleton {word : Text} (hword : ∀ d ∈ word, isBlank d = false)
    (hne : word ≠ []) : words word = [word] := by
  unfold words
  rw [splitWhen_eq_singleton hword]
  simp [hne]

theorem splitWhen_append_of_blank {blanks : Text} (h : ∀ c ∈ blanks, isBlank c = true)
    (t : Text) :
    splitWhen isBlank (t ++ blanks) =
      splitWhen isBlank t ++ List.replicate blanks.length [] := by
  induction t with
  | nil =>
    rw [List.nil_append]
    induction blanks with
    | nil => rfl
    | cons c blanks ih =>
      rw [splitWhen_cons, if_pos (h c List.mem_cons_self),
        ih fun d hd => h d (List.mem_cons_of_mem _ hd)]
      rfl
  | cons c t ih =>
    rw [List.cons_append, splitWhen_cons, splitWhen_cons, ih]
    split
    · rfl
    · cases hsplit : splitWhen isBlank t with
      | nil => exact absurd hsplit (splitWhen_ne_nil _ _)
      | cons piece pieces => rfl

theorem words_append_blanks {blanks : Text} (h : ∀ c ∈ blanks, isBlank c = true) (t : Text) :
    words (t ++ blanks) = words t := by
  unfold words
  rw [splitWhen_append_of_blank h, List.filter_append]
  simp

@[simp] theorem words_trim (t : Text) : words (trim t) = words t := by
  obtain ⟨before, after, heq, hbefore, hafter⟩ := exists_blanks_trim t
  calc words (trim t) = words (trim t ++ after) := (words_append_blanks hafter _).symm
    _ = words (before ++ (trim t ++ after)) := (words_append_of_blank hbefore _).symm
    _ = words t := by rw [← List.append_assoc, ← heq]

/-- A word is not empty, and its characters are characters of the text, none of
    them blank. -/
theorem mem_words {t word : Text} (h : word ∈ words t) :
    word ≠ [] ∧ ∀ c ∈ word, c ∈ t ∧ isBlank c = false := by
  obtain ⟨hpiece, hne⟩ := List.mem_filter.mp h
  exact ⟨by simpa using hne, fun c hc => mem_splitWhen hpiece hc⟩

end Gherkin.Text

namespace Gherkin

open Text

/-! ## 4. Rows of tags -/

/-- The tags of a row are read off its words. -/
theorem Tag.mem_of_ofWords {line : Nat} {row : List Text} {tags : List Tag} {tag : Tag}
    (h : Tag.ofWords line row = .ok tags) (htag : tag ∈ tags) :
    ∃ name, '@' :: name ∈ row ∧ tag = Tag.ofWord name line := by
  induction row generalizing tags with
  | nil =>
    rw [Tag.ofWords, Except.ok.injEq] at h
    simp [← h] at htag
  | cons word rest ih =>
    unfold Tag.ofWords at h
    split at h
    · rename_i name
      cases hrest : Tag.ofWords line rest with
      | error offender => simp [hrest, Except.map] at h
      | ok others =>
        simp only [hrest, Except.map, Except.ok.injEq] at h
        rw [← h, List.mem_cons] at htag
        rcases htag with rfl | htag
        · exact ⟨name, List.mem_cons_self, rfl⟩
        · obtain ⟨other, hother, htag⟩ := ih hrest htag
          exact ⟨other, List.mem_cons_of_mem _ hother, htag⟩
    · rw [Except.ok.injEq] at h
      simp [← h] at htag
    · simp at h

/-- A line that starts with the sign of a tag holds a tag. -/
theorem Tag.ne_nil_of_ofLine {line : Nat} {raw : Text} {tags : List Tag}
    (hlead : leads '@' (trim raw) = true) (h : Tag.ofLine line (trim raw) = .ok tags) :
    tags ≠ [] := by
  cases ht : trim raw with
  | nil => simp [ht, leads] at hlead
  | cons c t =>
    have hc : c = '@' := by simpa [ht, leads] using hlead
    subst hc
    obtain ⟨word, rest, hwords⟩ := words_cons_of_solid (c := '@') (by decide) t
    rw [ht, Tag.ofLine, hwords, Tag.ofWords] at h
    cases hrest : Tag.ofWords line rest with
    | error offender => simp [hrest, Except.map] at h
    | ok others =>
      simp only [hrest, Except.map, Except.ok.injEq] at h
      simp [← h]

end Gherkin
