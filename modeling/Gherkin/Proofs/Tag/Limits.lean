/-
  Gherkin/Proofs/Tag/Limits.lean
  ==============================
  **Which words have a limit.**

  A numeral is read by its places, with ones last, so leading zeros do not
  change it however many there are, and whether it is a limit depends on the
  number alone (`Text.readLimit?_eq_some_iff`).

  A word has a limit exactly when a numeral stands behind its last colon and
  something in front of it; every other word is a name, whatever colons and
  digits it has (`Tag.ofWord_normalises`).  The name may itself end like a word
  with a limit.  It is not cut a second time, because the limit is written
  behind it again.
-/
import Gherkin.Proofs.Tag.Words
import Mathlib.Data.Nat.Digits.Defs

namespace Gherkin

open Text

namespace Text

/-! ## 1. Numerals -/

/-- The number that a row of digits denotes, each in its place. -/
def placeValue (digits : Text) : Nat :=
  Nat.ofDigits 10 (digits.map fun c => c.toNat - '0'.toNat).reverse

/-- The text is a row of ASCII digits, and the number is what it denotes. -/
structure Denotes (digits : Text) (n : Nat) : Prop where
  ne_nil : digits ≠ []
  isDigit : ∀ c ∈ digits, c.isDigit = true
  value : placeValue digits = n

/-- The text is a numeral for a limit: a row of digits with or without a plus
    sign, for a number of at most thirty-two bits. -/
def DenotesLimit (t : Text) (n : Nat) : Prop :=
  n < 2 ^ 32 ∧ ∃ digits, (t = digits ∨ t = '+' :: digits) ∧ Denotes digits n

/-- A digit behind a row takes the ones, and the row moves up by one place. -/
theorem placeValue_concat (digits : Text) (c : Char) :
    placeValue (digits ++ [c]) = appendDigit (placeValue digits) c := by
  unfold placeValue appendDigit
  rw [List.map_append, List.map_singleton, List.reverse_append, List.reverse_singleton,
    List.singleton_append, Nat.ofDigits_cons, Nat.add_comm]

theorem foldl_appendDigit (digits : Text) : digits.foldl appendDigit 0 = placeValue digits := by
  induction digits using List.reverseRecOn with
  | nil => rfl
  | append_singleton digits c ih => rw [List.foldl_concat, ih, placeValue_concat]

theorem readDigits?_eq_some_iff {t : Text} {n : Nat} : readDigits? t = some n ↔ Denotes t n := by
  unfold readDigits?
  rw [foldl_appendDigit]
  constructor
  · intro h
    split at h
    · rename_i hdigits
      obtain ⟨hne, hall⟩ := Bool.and_eq_true_iff.mp hdigits
      exact ⟨by simpa using hne, List.all_eq_true.mp hall, Option.some.inj h⟩
    · simp at h
  · intro h
    have hdigits : (!t.isEmpty && t.all Char.isDigit) = true := by
      simpa [h.ne_nil] using h.isDigit
    rw [if_pos hdigits, h.value]

theorem Denotes.not_mem {t : Text} {n : Nat} (h : Denotes t n) {c : Char}
    (hc : c.isDigit = false) : c ∉ t := by
  intro hmem
  rw [h.isDigit c hmem] at hc
  exact Bool.noConfusion hc

/-- A plus sign is no digit, so a row of digits has none to take off. -/
theorem denotes_dropLead_iff {t : Text} {n : Nat} :
    Denotes (dropLead '+' t) n ↔ ∃ digits, (t = digits ∨ t = '+' :: digits) ∧ Denotes digits n := by
  unfold dropLead
  cases hafter : after? ['+'] t with
  | none =>
    rw [Option.getD_none]
    constructor
    · exact fun h => ⟨t, .inl rfl, h⟩
    · rintro ⟨digits, rfl | rfl, h⟩
      · exact h
      · simp [after?] at hafter
  | some rest =>
    rw [after?_eq_some_iff, List.singleton_append] at hafter
    rw [Option.getD_some, hafter]
    constructor
    · exact fun h => ⟨rest, .inr rfl, h⟩
    · rintro ⟨digits, rfl | heq, h⟩
      · exact absurd List.mem_cons_self (h.not_mem (c := '+') rfl)
      · rwa [(List.cons.inj heq).2]

/-- Exactly the numerals for limits are read, as the numbers that they denote. -/
theorem readLimit?_eq_some_iff {t : Text} {n : Nat} :
    readLimit? t = some n ↔ DenotesLimit t n := by
  have hbound : limitBound = 2 ^ 32 := rfl
  unfold readLimit? DenotesLimit
  rw [Option.filter_eq_some_iff, readDigits?_eq_some_iff, denotes_dropLead_iff, decide_eq_true_iff,
    hbound, and_comm]

/-- The sign of a limit and its digits do not include a colon. -/
theorem colon_not_mem_of_readLimit? {t : Text} {n : Nat} (h : readLimit? t = some n) :
    ':' ∉ t := by
  obtain ⟨-, digits, rfl | rfl, hdigits⟩ := readLimit?_eq_some_iff.mp h
  · exact hdigits.not_mem rfl
  · rw [List.mem_cons, not_or]
    exact ⟨by decide, hdigits.not_mem rfl⟩

end Text

namespace Tag

/-! ## 2. Words with a limit -/

/-- The word is a name, its last colon and a numeral for the limit. -/
structure EndsInLimit (word name : Text) (limit : Nat) : Prop where
  ne_nil : name ≠ []
  exists_suffix : ∃ suffix, word = name ++ ':' :: suffix ∧ ':' ∉ suffix ∧ DenotesLimit suffix limit

theorem endsInLimit_iff {word name : Text} {limit : Nat} :
    EndsInLimit word name limit ↔ splitLimit? word = some (name, limit) := by
  rw [splitLimit?_eq_some_iff]
  simp only [readLimit?_eq_some_iff]
  exact ⟨fun h => ⟨h.ne_nil, h.exists_suffix⟩, fun ⟨hne, hsuffix⟩ => ⟨hne, hsuffix⟩⟩

@[simp] theorem ofWord_line (word : Text) (line : Nat) : (ofWord word line).line = line := by
  unfold ofWord
  split <;> rfl

theorem ofWord_eq_iff {word name : Text} {line limit : Nat} :
    ofWord word line = ⟨name, line, some limit⟩ ↔ EndsInLimit word name limit := by
  rw [endsInLimit_iff, ofWord]
  cases splitLimit? word with
  | none => simp
  | some parts => simp [Prod.ext_iff]

/-- A word without a limit is a name as a whole. -/
theorem ofWord_eq_self_iff {word : Text} {line : Nat} :
    ofWord word line = ⟨word, line, none⟩ ↔ ¬∃ name limit, EndsInLimit word name limit := by
  simp only [endsInLimit_iff, ofWord]
  cases splitLimit? word with
  | none => simp
  | some parts =>
    obtain ⟨name, limit⟩ := parts
    simp

theorem exists_limit_ofWord_iff {word : Text} {line : Nat} :
    (∃ limit, (ofWord word line).limit = some limit) ↔ ∃ name limit, EndsInLimit word name limit := by
  simp only [endsInLimit_iff, ofWord]
  cases splitLimit? word with
  | none => simp
  | some parts => exact ⟨fun _ => ⟨parts.1, parts.2, rfl⟩, fun _ => ⟨parts.2, rfl⟩⟩

/-! ## 3. Reading, writing and reading again -/

/-- On the line of the tag, its written word is read as the tag itself. -/
theorem ofWord_word_self (word : Text) (line : Nat) :
    ofWord (ofWord word line).word line = ofWord word line := by
  have hline := ofWord_line word line
  rw [ofWord_word]
  generalize ofWord word line = tag at hline
  cases hline
  rfl

/-- What is written behind the `@` sign stands for the same tag.  The tag has a
    limit exactly when a numeral for one stands behind the last colon of the word
    and a name in front of it, and then these are its name and its limit;
    otherwise its name is the word. -/
theorem ofWord_normalises (word : Text) (line : Nat) :
    (∃ bare, (ofWord word line).written = '@' :: bare ∧
        ofWord bare line = ofWord word line) ∧
      ((∃ limit, (ofWord word line).limit = some limit) ↔
        ∃ name limit, EndsInLimit word name limit) ∧
      (∀ name limit,
        ofWord word line = ⟨name, line, some limit⟩ ↔ EndsInLimit word name limit) ∧
      (ofWord word line = ⟨word, line, none⟩ ↔ ¬∃ name limit, EndsInLimit word name limit) := by
  refine ⟨⟨(ofWord word line).word, written_eq _, ofWord_word_self word line⟩, ?_, ?_, ?_⟩
  · exact exists_limit_ofWord_iff
  · intro name limit
    exact ofWord_eq_iff
  · exact ofWord_eq_self_iff

/-- For instance the largest limit, with a sign and zeros in front of it, behind
    a name that ends like a word with a limit; and a number that is too large by
    one. -/
theorem ofWord_normalises_largest :
    EndsInLimit "a:1:+004294967295".toList "a:1".toList 4294967295 ∧
      ofWord "a:1:4294967295".toList 4 = ofWord "a:1:+004294967295".toList 4 ∧
      ¬∃ name limit, EndsInLimit "a:1:4294967296".toList name limit := by
  obtain ⟨⟨bare, hwritten, hagain⟩, -, hlimit, -⟩ :=
    ofWord_normalises "a:1:+004294967295".toList 4
  obtain ⟨-, -, -, hplain⟩ := ofWord_normalises "a:1:4294967296".toList 4
  refine ⟨(hlimit _ _).mp (by decide), ?_, hplain.mp (by decide)⟩
  have hbare : (ofWord "a:1:+004294967295".toList 4).written = '@' :: "a:1:4294967295".toList := by
    decide
  rw [← List.tail_eq_of_cons_eq (hwritten.symm.trans hbare), hagain]

end Tag

end Gherkin
