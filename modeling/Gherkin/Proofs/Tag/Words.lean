/-
  Gherkin/Proofs/Tag/Words.lean
  =============================
  **Tags are read back as they were written.**

  A limit may be written with a plus sign or leading zeros, but it is read as a
  number and written in one way only.  So the word of a tag need not be the word
  that it came from, and yet it stands for the same tag.
-/
import Gherkin.Proofs.Text.Trimming

namespace Gherkin

open Text

/-! ## 1. Numbers -/

namespace Text

theorem isDigit_of_mem_decimal {n : Nat} {c : Char} (h : c ∈ decimal n) : c.isDigit = true :=
  Nat.isDigit_of_mem_toDigits (by decide) (by decide) h

theorem foldl_decimal (n : Nat) : (decimal n).foldl appendDigit 0 = n := by
  exact Nat.ofDigitChars_ten_toDigits

theorem readDigits?_decimal (n : Nat) : readDigits? (decimal n) = some n := by
  have hne : decimal n ≠ [] := Nat.toDigits_ne_nil
  have hall : (decimal n).all Char.isDigit = true := by
    rw [List.all_eq_true]
    intro c hc
    exact isDigit_of_mem_decimal hc
  unfold readDigits?
  rw [foldl_decimal, hall]
  simp [hne]

theorem readLimit?_decimal {n : Nat} (h : n < limitBound) : readLimit? (decimal n) = some n := by
  have hlead : dropLead '+' (decimal n) = decimal n := by
    unfold dropLead
    cases hafter : after? ['+'] (decimal n) with
    | none => rfl
    | some rest =>
      have hplus : '+' ∈ decimal n := by
        rw [after?_eq_some_iff.mp hafter]
        simp
      have := isDigit_of_mem_decimal hplus
      simp at this
  unfold readLimit?
  rw [hlead, readDigits?_decimal]
  simp [h]

theorem lt_of_readLimit? {t : Text} {n : Nat} (h : readLimit? t = some n) : n < limitBound := by
  have := (Option.filter_eq_some_iff.mp h).2
  simpa using this

/-! ## 2. The last colon -/

theorem cutLast?_eq_none_iff {c : Char} {t : Text} : cutLast? c t = none ↔ c ∉ t := by
  induction t with
  | nil => simp [cutLast?]
  | cons d t ih =>
    rw [cutLast?, List.mem_cons, not_or, ← ih]
    cases hrest : cutLast? c t with
    | some parts => simp
    | none => simp [eq_comm]

theorem cutLast?_append (c : Char) {before after : Text} (h : c ∉ after) :
    cutLast? c (before ++ c :: after) = some (before, after) := by
  induction before with
  | nil => rw [List.nil_append, cutLast?, cutLast?_eq_none_iff.mpr h, if_pos rfl]
  | cons d before ih => rw [List.cons_append, cutLast?, ih]

/-- The cut is at the last occurrence: there is none behind it. -/
theorem cutLast?_eq_some_iff {c : Char} {t before after : Text} :
    cutLast? c t = some (before, after) ↔ t = before ++ c :: after ∧ c ∉ after := by
  refine ⟨fun h => ?_, fun ⟨heq, hafter⟩ => heq ▸ cutLast?_append c hafter⟩
  induction t generalizing before after with
  | nil => simp [cutLast?] at h
  | cons d t ih =>
    rw [cutLast?] at h
    cases hrest : cutLast? c t with
    | some parts =>
      rw [hrest] at h
      simp only [Option.some.injEq, Prod.mk.injEq] at h
      obtain ⟨rfl, rfl⟩ := h
      obtain ⟨rfl, hafter⟩ := ih hrest
      exact ⟨rfl, hafter⟩
    | none =>
      rw [hrest] at h
      simp only at h
      split at h
      · rename_i hd
        simp only [Option.some.injEq, Prod.mk.injEq] at h
        obtain ⟨rfl, rfl⟩ := h
        exact ⟨by rw [hd]; rfl, cutLast?_eq_none_iff.mp hrest⟩
      · simp at h

end Text

namespace Tag

/-! ## 3. Words -/

/-- The word behind the sign of a tag. -/
def word (tag : Tag) : Text := tag.name ++ limitSuffix tag.limit

theorem written_eq (tag : Tag) : tag.written = '@' :: tag.word := rfl

/-- A limit is split off when a name stands in front of the last colon and a
    limit behind it. -/
theorem splitLimit?_eq_some_iff {source name : Text} {limit : Nat} :
    splitLimit? source = some (name, limit) ↔
      name ≠ [] ∧
        ∃ suffix, source = name ++ ':' :: suffix ∧ ':' ∉ suffix ∧ readLimit? suffix = some limit := by
  constructor
  · intro h
    unfold splitLimit? at h
    obtain ⟨⟨before, suffix⟩, hcut, h⟩ := Option.bind_eq_some_iff.mp h
    obtain ⟨number, hnumber, h⟩ := Option.bind_eq_some_iff.mp h
    obtain ⟨hsource, hcolon⟩ := cutLast?_eq_some_iff.mp hcut
    split at h
    · simp at h
    · rename_i hne
      simp only [Option.some.injEq, Prod.mk.injEq] at h
      obtain ⟨rfl, rfl⟩ := h
      exact ⟨by simpa using hne, suffix, hsource, hcolon, hnumber⟩
  · rintro ⟨hne, suffix, rfl, hcolon, hlimit⟩
    unfold splitLimit?
    rw [cutLast?_append ':' hcolon]
    simp [hlimit, hne]

/-- The word that is written for a tag stands for the same tag. -/
theorem ofWord_word (source : Text) (line other : Nat) :
    ofWord (ofWord source line).word other = { ofWord source line with line := other } := by
  cases hsplit : splitLimit? source with
  | none =>
    have htag : ofWord source line = ⟨source, line, none⟩ := by rw [ofWord, hsplit]
    rw [htag, word, limitSuffix, List.append_nil, ofWord, hsplit]
  | some parts =>
    obtain ⟨name, limit⟩ := parts
    have htag : ofWord source line = ⟨name, line, some limit⟩ := by rw [ofWord, hsplit]
    obtain ⟨hname, suffix, -, -, hlimit⟩ := splitLimit?_eq_some_iff.mp hsplit
    have hcolon : ':' ∉ decimal limit := by
      intro hmem
      have := isDigit_of_mem_decimal hmem
      simp at this
    have hword : splitLimit? (name ++ ':' :: decimal limit) = some (name, limit) :=
      splitLimit?_eq_some_iff.mpr
        ⟨hname, _, rfl, hcolon, readLimit?_decimal (lt_of_readLimit? hlimit)⟩
    rw [htag, word, limitSuffix, ofWord, hword]

theorem mem_word {source : Text} {line : Nat} {c : Char} (h : c ∈ (ofWord source line).word) :
    c ∈ source ∨ c = ':' ∨ c.isDigit = true := by
  cases hsplit : splitLimit? source with
  | none =>
    have htag : ofWord source line = ⟨source, line, none⟩ := by rw [ofWord, hsplit]
    rw [htag, word, limitSuffix, List.append_nil] at h
    exact .inl h
  | some parts =>
    obtain ⟨name, limit⟩ := parts
    have htag : ofWord source line = ⟨name, line, some limit⟩ := by rw [ofWord, hsplit]
    obtain ⟨-, suffix, rfl, -⟩ := splitLimit?_eq_some_iff.mp hsplit
    rw [htag, word, limitSuffix, List.mem_append, List.mem_cons] at h
    rcases h with h | h | h
    · exact .inl (List.mem_append_left _ h)
    · exact .inr (.inl h)
    · exact .inr (.inr (isDigit_of_mem_decimal h))

/-! ## 4. Rows -/

/-- The tag was read from a word, which holds no blank. -/
def FromWord (tag : Tag) : Prop :=
  ∃ source, tag = ofWord source tag.line ∧ ∀ c ∈ source, isBlank c = false

theorem FromWord.ofWord_word {tag : Tag} (h : tag.FromWord) (line : Nat) :
    ofWord tag.word line = { tag with line := line } := by
  obtain ⟨source, heq, -⟩ := h
  rw [heq]
  exact Tag.ofWord_word source tag.line line

theorem not_isBlank_of_isDigit {c : Char} (h : c.isDigit = true) : isBlank c = false := by
  have hlow : 48 ≤ c.toNat := by
    have := (Bool.and_eq_true_iff.mp h).1
    simpa [UInt32.le_iff_toNat_le] using this
  have hhigh : c.toNat ≤ 57 := by
    have := (Bool.and_eq_true_iff.mp h).2
    simpa [UInt32.le_iff_toNat_le] using this
  by_contra hblank
  rw [Bool.not_eq_false, isBlank, inRanges_eq_true_iff] at hblank
  simp only [blankRanges, List.mem_cons, List.not_mem_nil, or_false] at hblank
  obtain ⟨range, hrange, hfrom, hto⟩ := hblank
  rcases hrange with rfl | rfl | rfl | rfl | rfl | rfl | rfl | rfl | rfl | rfl <;>
    simp only at hfrom hto <;> omega

theorem FromWord.written_solid {tag : Tag} (h : tag.FromWord) :
    ∀ c ∈ tag.written, isBlank c = false := by
  obtain ⟨source, heq, hsource⟩ := h
  intro c hc
  rw [written_eq, List.mem_cons] at hc
  rcases hc with rfl | hc
  · decide
  · rw [heq] at hc
    rcases mem_word hc with hc | rfl | hc
    · exact hsource c hc
    · decide
    · exact not_isBlank_of_isDigit hc

theorem FromWord.name_solid {tag : Tag} (h : tag.FromWord) :
    ∀ c ∈ tag.name, isBlank c = false := by
  intro c hc
  apply h.written_solid
  rw [written_eq, word]
  exact List.mem_cons_of_mem _ (List.mem_append_left _ hc)

theorem words_join {list : List Text}
    (h : ∀ word ∈ list, word ≠ [] ∧ ∀ c ∈ word, isBlank c = false) :
    words (join ' ' list) = list := by
  induction list with
  | nil => rfl
  | cons word rest ih =>
    obtain ⟨hne, hword⟩ := h word List.mem_cons_self
    by_cases hrest : rest = []
    · rw [hrest]
      exact words_eq_singleton hword hne
    · rw [join_cons _ _ hrest, words_append_blank word _ hword hne (by decide),
        ih fun other hother => h other (List.mem_cons_of_mem _ hother)]

theorem ofWords_written {tags : List Tag} (h : ∀ tag ∈ tags, tag.FromWord) (line : Nat) :
    ofWords line (tags.map (·.written)) = .ok (tags.map fun tag => { tag with line := line }) := by
  induction tags with
  | nil => rfl
  | cons tag rest ih =>
    have hrest := ih fun other hother => h other (List.mem_cons_of_mem _ hother)
    rw [List.map_cons, written_eq, ofWords, hrest, (h tag List.mem_cons_self).ofWord_word line]
    rfl

/-- A row of tags is read back as it was written, under the number of its new
    line. -/
theorem ofLine_join {tags : List Tag} (h : ∀ tag ∈ tags, tag.FromWord) (line : Nat) :
    ofLine line (join ' ' (tags.map (·.written))) =
      .ok (tags.map fun tag => { tag with line := line }) := by
  have hwords : words (join ' ' (tags.map (·.written))) = tags.map (·.written) := by
    apply words_join
    intro word hword
    obtain ⟨tag, htag, rfl⟩ := List.mem_map.mp hword
    exact ⟨by simp [written_eq], (h tag htag).written_solid⟩
  rw [ofLine, hwords, ofWords_written h]

end Tag

end Gherkin
