/-
  Gherkin/Proofs/Text/Cutting.lean
  ================================
  **Cutting what has been glued.**

  Pieces without separators come back unchanged when the text that they were
  glued to is cut again; `join_split` is the other direction.  For lines this
  says that a text which is written line by line is read line by line.
-/
import Gherkin.Text.Basic
import Mathlib.Data.List.Basic

namespace Gherkin.Text

/-! ## 1. Pieces -/

theorem splitWhen_append_sep {sep : Char → Bool} {piece : Text} {c : Char}
    (hpiece : ∀ d ∈ piece, sep d = false) (hc : sep c = true) (t : Text) :
    splitWhen sep (piece ++ c :: t) = piece :: splitWhen sep t := by
  induction piece with
  | nil => simp [splitWhen_cons, hc]
  | cons d piece ih =>
    rw [List.cons_append, splitWhen_cons, ih fun e he => hpiece e (List.mem_cons_of_mem _ he)]
    simp [hpiece d List.mem_cons_self, onHead]

theorem splitWhen_eq_singleton {sep : Char → Bool} {piece : Text}
    (hpiece : ∀ d ∈ piece, sep d = false) : splitWhen sep piece = [piece] := by
  induction piece with
  | nil => rfl
  | cons d piece ih =>
    rw [splitWhen_cons, ih fun e he => hpiece e (List.mem_cons_of_mem _ he)]
    simp [hpiece d List.mem_cons_self, onHead]

theorem mem_splitWhen {sep : Char → Bool} {t piece : Text} {c : Char}
    (hpiece : piece ∈ splitWhen sep t) (hc : c ∈ piece) : c ∈ t ∧ sep c = false := by
  induction t generalizing piece with
  | nil =>
    rw [splitWhen_nil, List.mem_singleton] at hpiece
    simp [hpiece] at hc
  | cons d t ih =>
    rw [splitWhen_cons] at hpiece
    split at hpiece
    · rcases List.mem_cons.mp hpiece with rfl | hpiece
      · simp at hc
      · exact ⟨List.mem_cons_of_mem _ (ih hpiece hc).1, (ih hpiece hc).2⟩
    · rename_i hd
      cases hsplit : splitWhen sep t with
      | nil => exact absurd hsplit (splitWhen_ne_nil _ _)
      | cons first rest =>
        rw [hsplit, onHead, List.mem_cons] at hpiece
        rcases hpiece with rfl | hpiece
        · rcases List.mem_cons.mp hc with rfl | hc
          · exact ⟨List.mem_cons_self, by simpa using hd⟩
          · have h := ih (hsplit ▸ List.mem_cons_self) hc
            exact ⟨List.mem_cons_of_mem _ h.1, h.2⟩
        · have h := ih (hsplit ▸ List.mem_cons_of_mem _ hpiece) hc
          exact ⟨List.mem_cons_of_mem _ h.1, h.2⟩

theorem join_cons (sep : Char) (piece : Text) {rest : List Text} (h : rest ≠ []) :
    join sep (piece :: rest) = piece ++ sep :: join sep rest := by
  rw [join]
  exact h

/-- Pieces without the separator are cut again where they were glued. -/
theorem split_join {sep : Char} {list : List Text} (h : ∀ piece ∈ list, sep ∉ piece)
    (hne : list ≠ []) : split sep (join sep list) = list := by
  have hsep : ∀ piece ∈ list, ∀ c ∈ piece, (c == sep) = false := by
    intro piece hpiece c hc
    have hc : c ≠ sep := fun heq => h piece hpiece (heq ▸ hc)
    simpa using hc
  unfold split
  induction list using join.induct with
  | case1 => exact absurd rfl hne
  | case2 piece => exact splitWhen_eq_singleton (hsep piece List.mem_cons_self)
  | case3 piece rest hrest ih =>
    have hpiece := hsep piece List.mem_cons_self
    rw [join_cons _ _ hrest, splitWhen_append_sep hpiece (by simp),
      ih (fun other hother => h other (List.mem_cons_of_mem _ hother)) hrest
        fun other hother => hsep other (List.mem_cons_of_mem _ hother)]

/-! ## 2. Lines -/

/-- The text has no line feed. -/
def SingleLine (t : Text) : Prop := '\n' ∉ t

instance : DecidablePred SingleLine := fun t => inferInstanceAs (Decidable ('\n' ∉ t))

theorem SingleLine.isSep {t : Text} (h : SingleLine t) : ∀ c ∈ t, (c == '\n') = false := by
  intro c hc
  have hne : c ≠ '\n' := fun heq => h (heq ▸ hc)
  simpa using hne

theorem SingleLine.append {s t : Text} (hs : SingleLine s) (ht : SingleLine t) :
    SingleLine (s ++ t) := by
  intro hmem
  exact (List.mem_append.mp hmem).elim hs ht

theorem singleLine_nil : SingleLine [] := List.not_mem_nil

theorem SingleLine.of_subset {s t : Text} (h : SingleLine t) (hs : ∀ c ∈ s, c ∈ t) :
    SingleLine s := fun hmem => h (hs _ hmem)

theorem singleLine_of_mem_lines {t line : Text} (h : line ∈ lines t) : SingleLine line := by
  intro hmem
  have := (mem_splitWhen h hmem).2
  simp at this

theorem lines_append_cons {line : Text} (h : SingleLine line) (t : Text) :
    lines (line ++ '\n' :: t) = line :: lines t :=
  splitWhen_append_sep h.isSep rfl t

/-- A line feed between two texts ends the last line of the first. -/
theorem lines_append_newline (s t : Text) : lines (s ++ '\n' :: t) = lines s ++ lines t := by
  induction s with
  | nil => rfl
  | cons c s ih =>
    unfold lines split at ih ⊢
    rw [List.cons_append, splitWhen_cons, splitWhen_cons, ih]
    split
    · rfl
    · obtain ⟨first, rest, hsplit⟩ := List.exists_cons_of_ne_nil (splitWhen_ne_nil (· == '\n') s)
      rw [hsplit]
      rfl

/-- Lines that are joined are the lines of what they are joined to. -/
theorem lines_join {list : List Text} (h : ∀ line ∈ list, SingleLine line) (hne : list ≠ []) :
    lines (join '\n' list) = list := split_join h hne

theorem lines_flatMap_newline_append {list : List Text} (h : ∀ line ∈ list, SingleLine line)
    (t : Text) : lines (list.flatMap (· ++ ['\n']) ++ t) = list ++ lines t := by
  induction list with
  | nil => rfl
  | cons line rest ih =>
    have hrest := ih fun other hother => h other (List.mem_cons_of_mem _ hother)
    rw [List.flatMap_cons, List.append_assoc, List.append_assoc, List.singleton_append,
      lines_append_cons (h line List.mem_cons_self), hrest]
    rfl

/-- Behind the line feed of the last line there is an empty one. -/
theorem lines_flatMap_newline {list : List Text} (h : ∀ line ∈ list, SingleLine line) :
    lines (list.flatMap (· ++ ['\n'])) = list ++ [[]] := by
  have hempty := lines_flatMap_newline_append h []
  rwa [List.append_nil] at hempty

theorem lines_ne_nil (t : Text) : lines t ≠ [] := splitWhen_ne_nil _ t

/-- The beginning of a text, up to the given number of lines. -/
def firstLines (count : Nat) (t : Text) : Text := join '\n' ((lines t).take count)

theorem lines_firstLines {count : Nat} (h : 0 < count) (t : Text) :
    lines (firstLines count t) = (lines t).take count := by
  apply lines_join
  · intro line hline
    exact singleLine_of_mem_lines (List.mem_of_mem_take hline)
  · intro hnil
    rcases List.take_eq_nil_iff.mp hnil with hzero | hlines
    · omega
    · exact lines_ne_nil t hlines

/-! ## 3. Parts -/

theorem begins_eq_true_iff {lead t : Text} : begins lead t = true ↔ ∃ rest, t = lead ++ rest := by
  unfold begins
  rw [Option.isSome_iff_exists]
  simp only [after?_eq_some_iff]

theorem leads_eq_false_of_leads {c d : Char} {t : Text} (h : leads c t = true)
    (hne : d ≠ c) : leads d t = false := by
  unfold leads at h ⊢
  cases t with
  | nil => rfl
  | cons first rest =>
    have hfirst : first = c := by simpa using h
    simpa [hfirst] using hne.symm

theorem occurs_append_left {part t : Text} (s : Text) (h : occurs part t = true) :
    occurs part (s ++ t) = true := by
  induction s with
  | nil => exact h
  | cons c s ih => simp [occurs, ih]

theorem occurs_of_begins {part t : Text} (h : begins part t = true) : occurs part t = true := by
  cases t with
  | nil => exact h
  | cons c t => simp [occurs, h]

/-- A part of a text may stand anywhere in it. -/
theorem occurs_append_append (part s t : Text) : occurs part (s ++ (part ++ t)) = true :=
  occurs_append_left s (occurs_of_begins (begins_eq_true_iff.mpr ⟨t, rfl⟩))

theorem exists_join_of_mem {sep : Char} {list : List Text} {piece : Text} (h : piece ∈ list) :
    ∃ before after, join sep list = before ++ (piece ++ after) := by
  induction list using join.induct with
  | case1 => simp at h
  | case2 line =>
    rw [List.mem_singleton] at h
    exact ⟨[], [], by simp [join, h]⟩
  | case3 line rest hrest ih =>
    rw [join_cons _ _ hrest]
    rcases List.mem_cons.mp h with rfl | h
    · exact ⟨[], sep :: join sep rest, by simp⟩
    · obtain ⟨before, after, heq⟩ := ih h
      exact ⟨line ++ sep :: before, after, by simp [heq]⟩

theorem mem_join {sep : Char} {list : List Text} {c : Char} (h : c ∈ join sep list) :
    c = sep ∨ ∃ piece ∈ list, c ∈ piece := by
  induction list using join.induct with
  | case1 => simp [join] at h
  | case2 line => exact .inr ⟨line, List.mem_cons_self, by simpa [join] using h⟩
  | case3 line rest hrest ih =>
    rw [join_cons _ _ hrest, List.mem_append, List.mem_cons] at h
    rcases h with h | h | h
    · exact .inr ⟨line, List.mem_cons_self, h⟩
    · exact .inl h
    · rcases ih h with h | ⟨piece, hpiece, h⟩
      · exact .inl h
      · exact .inr ⟨piece, List.mem_cons_of_mem _ hpiece, h⟩

/-! ## 4. Final characters -/

theorem dropFinal_concat (c : Char) (t : Text) : dropFinal c (t ++ [c]) = t := by
  simp [dropFinal, beforeLast?]

theorem dropFinal_of_ends_eq_false {c : Char} {t : Text} (h : ends c t = false) :
    dropFinal c t = t := by
  have hlast : t.getLast? ≠ some c := by simpa [ends] using h
  simp [dropFinal, beforeLast?, hlast]

theorem dropFinal_initial (c : Char) (t : Text) : dropFinal c t <+: t := by
  unfold dropFinal beforeLast?
  split
  · exact List.dropLast_prefix t
  · exact List.prefix_refl t

end Gherkin.Text
