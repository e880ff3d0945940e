/-
  Gherkin/Proofs/Json/Layout.lean
  ===============================
  **A document determines its value.**

  A layout is read from left to right.  Its first character tells the kind of the
  value (`kindOf`), a quoted text ends at the first quote that is not escaped, and a
  number at the first character that is no digit, so values that are laid out alike
  are alike, and what stands behind them is alike too (`layout_split`).
-/
import Gherkin.Json
import Gherkin.Proofs.Tag.Words

namespace Gherkin.Json

open Text

/-! ## 1. Numbers -/

/-- No digit follows, which might belong to a number in front. -/
def Bounded (rest : Text) : Prop := ∀ c, rest.head? = some c → c.isDigit = false

theorem bounded_nil : Bounded [] := by simp [Bounded]

theorem bounded_cons {c : Char} (h : c.isDigit = false) (rest : Text) : Bounded (c :: rest) := by
  simpa [Bounded] using h

theorem takeWhile_decimal_append (n : Nat) {rest : Text} (h : Bounded rest) :
    (decimal n ++ rest).takeWhile Char.isDigit = decimal n := by
  have hstop : rest.takeWhile Char.isDigit = [] := by
    cases rest with
    | nil => rfl
    | cons c rest => exact List.takeWhile_cons_of_neg (by simp [h c rfl])
  rw [List.takeWhile_append_of_pos (fun _ => isDigit_of_mem_decimal), hstop, List.append_nil]

theorem decimal_split {m n : Nat} {rest other : Text} (hrest : Bounded rest)
    (hother : Bounded other) (h : decimal m ++ rest = decimal n ++ other) :
    m = n ∧ rest = other := by
  have hdigits : decimal m = decimal n := by
    rw [← takeWhile_decimal_append m hrest, h, takeWhile_decimal_append n hother]
  refine ⟨?_, List.append_cancel_left (hdigits ▸ h)⟩
  rw [← foldl_decimal m, hdigits, foldl_decimal]

/-! ## 2. Quoted texts -/

def digitValue (c : Char) : Nat := (List.range 16).findIdx (Nat.digitChar · == c)

theorem digitValue_digitChar {d : Nat} (h : d < 16) : digitValue (Nat.digitChar d) = d := by
  have hall : ∀ d < 16, digitValue (Nat.digitChar d) = d := by decide
  exact hall d h

/-- The character in front of a quoted text that has been begun, its escape undone. -/
def unescape? : Text → Option (Char × Text)
  | [] => none
  | '\\' :: 'u' :: _ :: _ :: high :: low :: rest =>
    some (Char.ofNat (16 * digitValue high + digitValue low), rest)
  | '\\' :: mark :: rest =>
    some (((shortEscapes.find? (·.2 == mark)).map (·.1)).getD mark, rest)
  | c :: rest => some (c, rest)

theorem unescape?_of_ne {c : Char} (h : c ≠ '\\') (rest : Text) :
    unescape? (c :: rest) = some (c, rest) := by
  rw [unescape?.eq_def]
  split <;> simp_all

theorem unescape?_escape (c : Char) (rest : Text) :
    unescape? (escape c ++ rest) = some (c, rest) := by
  unfold escape
  split
  · rename_i hquote
    rw [hquote]
    rfl
  split
  · rename_i hslash
    rw [hslash]
    rfl
  rename_i hslash
  split
  · rename_i entry hentry
    have hmem := List.mem_of_find?_eq_some hentry
    have hchar : entry.1 = c := by simpa using List.find?_some hentry
    rw [← hchar]
    simp only [shortEscapes, List.mem_cons, List.not_mem_nil, or_false] at hmem
    rcases hmem with rfl | rfl | rfl | rfl | rfl <;> rfl
  split
  · rename_i hcontrol
    show some (Char.ofNat (16 * digitValue (Nat.digitChar (c.toNat / 16)) +
      digitValue (Nat.digitChar (c.toNat % 16))), rest) = _
    rw [digitValue_digitChar (by omega), digitValue_digitChar (by omega), Nat.div_add_mod,
      Char.ofNat_toNat]
  · exact unescape?_of_ne hslash rest

/-- No escape begins with the quote, which would end the text. -/
theorem escape_append_ne (c : Char) (rest other : Text) : escape c ++ rest ≠ '"' :: other := by
  unfold escape
  split
  · simp
  rename_i hquote
  split
  · simp
  split
  · simp
  split
  · simp
  · simp [hquote]

theorem flatMap_escape_split {t u rest other : Text}
    (h : t.flatMap escape ++ '"' :: rest = u.flatMap escape ++ '"' :: other) :
    t = u ∧ rest = other := by
  induction t generalizing u with
  | nil =>
    cases u with
    | nil => exact ⟨rfl, (List.cons.inj h).2⟩
    | cons d u =>
      rw [List.flatMap_cons, List.append_assoc] at h
      exact absurd h.symm (escape_append_ne d _ _)
  | cons c t ih =>
    rw [List.flatMap_cons, List.append_assoc] at h
    cases u with
    | nil => exact absurd h (escape_append_ne c _ _)
    | cons d u =>
      rw [List.flatMap_cons, List.append_assoc] at h
      have hread := congrArg unescape? h
      rw [unescape?_escape, unescape?_escape, Option.some.injEq, Prod.mk.injEq] at hread
      obtain ⟨rfl, hrest⟩ := hread
      obtain ⟨rfl, hbehind⟩ := ih hrest
      exact ⟨rfl, hbehind⟩

theorem quote_split {t u rest other : Text} (h : quote t ++ rest = quote u ++ other) :
    t = u ∧ rest = other := by
  apply flatMap_escape_split
  simpa [quote] using h

/-! ## 3. Values -/

def kind : Json → Nat
  | .null => 0
  | .num _ => 1
  | .str _ => 2
  | .arr _ => 3
  | .obj _ => 4

/-- The kind of the values whose layout begins with a character. -/
def kindOf (c : Char) : Nat :=
  if c.isDigit then 1 else if c = '"' then 2 else if c = '[' then 3 else if c = '\x7b' then 4 else 0

theorem exists_layout_eq_cons (value : Json) (depth : Nat) :
    ∃ c rest, value.layout depth = c :: rest ∧ kindOf c = value.kind := by
  cases value with
  | null => exact ⟨_, _, rfl, rfl⟩
  | num n =>
    have hne : decimal n ≠ [] := Nat.toDigits_ne_nil
    obtain ⟨c, rest, hdigits⟩ := List.exists_cons_of_ne_nil hne
    have hdigit : c.isDigit = true := isDigit_of_mem_decimal (hdigits ▸ List.mem_cons_self)
    exact ⟨c, rest, hdigits, if_pos hdigit⟩
  | str t => exact ⟨_, _, rfl, rfl⟩
  | arr items => cases items <;> exact ⟨_, _, rfl, rfl⟩
  | obj fields =>
    rcases fields with _ | ⟨⟨key, value⟩, fields⟩ <;> exact ⟨_, _, rfl, rfl⟩

/-- Values that are laid out alike are of one kind. -/
theorem kind_eq_of_layout {v w : Json} {depth : Nat} {rest other : Text}
    (h : v.layout depth ++ rest = w.layout depth ++ other) : v.kind = w.kind := by
  obtain ⟨c, behind, hv, hkind⟩ := v.exists_layout_eq_cons depth
  obtain ⟨d, following, hw, hother⟩ := w.exists_layout_eq_cons depth
  rw [hv, hw, List.cons_append, List.cons_append, List.cons.injEq] at h
  rw [← hkind, ← hother, h.1]

/-- The last entry of an array or object is followed by a fresh line. -/
theorem bounded_layoutItems (depth : Nat) (items : List Json) (rest : Text) :
    Bounded (layoutItems depth items ++ '\n' :: rest) := by
  cases items <;> exact bounded_cons (by decide) _

theorem bounded_layoutFields (depth : Nat) (fields : List (Text × Json)) (rest : Text) :
    Bounded (layoutFields depth fields ++ '\n' :: rest) := by
  rcases fields with _ | ⟨⟨key, value⟩, fields⟩ <;> exact bounded_cons (by decide) _

mutual

/-- A value and what stands behind it can be told from their text. -/
theorem layout_split : ∀ (v w : Json) {depth : Nat} {rest other : Text}, Bounded rest →
    Bounded other → v.layout depth ++ rest = w.layout depth ++ other → v = w ∧ rest = other
  | .null, w, depth, rest, other, _, _, h => by
    have hkind := kind_eq_of_layout h
    cases w with
    | null => exact ⟨rfl, List.append_cancel_left h⟩
    | _ => exact Nat.noConfusion hkind
  | .num m, w, depth, rest, other, hrest, hother, h => by
    have hkind := kind_eq_of_layout h
    cases w with
    | num n =>
      obtain ⟨rfl, hbehind⟩ := decimal_split hrest hother h
      exact ⟨rfl, hbehind⟩
    | _ => simp [kind] at hkind
  | .str t, w, depth, rest, other, _, _, h => by
    have hkind := kind_eq_of_layout h
    cases w with
    | str u =>
      obtain ⟨rfl, hbehind⟩ := quote_split h
      exact ⟨rfl, hbehind⟩
    | _ => simp [kind] at hkind
  | .arr [], w, depth, rest, other, _, _, h => by
    have hkind := kind_eq_of_layout h
    cases w with
    | arr items =>
      cases items with
      | nil => exact ⟨rfl, List.append_cancel_left h⟩
      | cons item items => simp [layout, freshLine] at h
    | _ => simp [kind] at hkind
  | .arr (item :: items), w, depth, rest, other, hrest, hother, h => by
    have hkind := kind_eq_of_layout h
    cases w with
    | arr others =>
      cases others with
      | nil => simp [layout, freshLine] at h
      | cons first others =>
        simp only [layout, List.append_assoc, List.cons_append, List.nil_append,
          List.cons.injEq, true_and, List.append_cancel_left_eq, freshLine] at h
        obtain ⟨rfl, hitems⟩ := layout_split item first (bounded_layoutItems _ _ _)
          (bounded_layoutItems _ _ _) h
        obtain ⟨rfl, hbehind⟩ := layoutItems_split items others hitems
        exact ⟨rfl, by simpa using hbehind⟩
    | _ => simp [kind] at hkind
  | .obj [], w, depth, rest, other, _, _, h => by
    have hkind := kind_eq_of_layout h
    cases w with
    | obj fields =>
      cases fields with
      | nil => exact ⟨rfl, List.append_cancel_left h⟩
      | cons field fields => simp [layout, freshLine] at h
    | _ => simp [kind] at hkind
  | .obj ((key, value) :: fields), w, depth, rest, other, hrest, hother, h => by
    have hkind := kind_eq_of_layout h
    cases w with
    | obj others =>
      cases others with
      | nil => simp [layout, freshLine] at h
      | cons first others =>
        simp only [layout, List.append_assoc, List.cons_append, List.nil_append,
          List.cons.injEq, true_and, List.append_cancel_left_eq, freshLine] at h
        obtain ⟨hkey, hvalue⟩ := quote_split h
        simp only [List.cons.injEq, true_and] at hvalue
        obtain ⟨hfirst, hfields⟩ := layout_split value first.2 (bounded_layoutFields _ _ _)
          (bounded_layoutFields _ _ _) hvalue
        obtain ⟨rfl, hbehind⟩ := layoutFields_split fields others hfields
        exact ⟨by rw [hkey, hfirst], by simpa using hbehind⟩
    | _ => simp [kind] at hkind

theorem layoutItems_split : ∀ (items others : List Json) {depth : Nat} {rest other : Text},
    layoutItems depth items ++ '\n' :: rest = layoutItems depth others ++ '\n' :: other →
      items = others ∧ rest = other
  | [], [], depth, rest, other, h => ⟨rfl, by simpa [layoutItems] using h⟩
  | [], _ :: _, depth, rest, other, h => by simp [layoutItems] at h
  | _ :: _, [], depth, rest, other, h => by simp [layoutItems] at h
  | item :: items, first :: others, depth, rest, other, h => by
    simp only [layoutItems, List.append_assoc, List.cons_append, List.cons.injEq, true_and,
      List.append_cancel_left_eq] at h
    obtain ⟨rfl, hitems⟩ := layout_split item first (bounded_layoutItems _ _ _)
      (bounded_layoutItems _ _ _) h
    obtain ⟨rfl, hbehind⟩ := layoutItems_split items others hitems
    exact ⟨rfl, hbehind⟩

theorem layoutFields_split : ∀ (fields others : List (Text × Json)) {depth : Nat}
    {rest other : Text},
    layoutFields depth fields ++ '\n' :: rest = layoutFields depth others ++ '\n' :: other →
      fields = others ∧ rest = other
  | [], [], depth, rest, other, h => ⟨rfl, by simpa [layoutFields] using h⟩
  | [], _ :: _, depth, rest, other, h => by simp [layoutFields] at h
  | _ :: _, [], depth, rest, other, h => by simp [layoutFields] at h
  | (key, value) :: fields, first :: others, depth, rest, other, h => by
    simp only [layoutFields, List.append_assoc, List.cons_append, List.nil_append,
      List.cons.injEq, true_and, List.append_cancel_left_eq] at h
    obtain ⟨hkey, hvalue⟩ := quote_split h
    simp only [List.cons.injEq, true_and] at hvalue
    obtain ⟨hfirst, hfields⟩ := layout_split value first.2 (bounded_layoutFields _ _ _)
      (bounded_layoutFields _ _ _) hvalue
    obtain ⟨rfl, hbehind⟩ := layoutFields_split fields others hfields
    exact ⟨by rw [hkey, hfirst], hbehind⟩

end

/-- A document determines its value. -/
theorem document_injective : Function.Injective document := by
  intro v w h
  have hends : v.layout 0 ++ [] = w.layout 0 ++ [] := by
    rw [List.append_nil, List.append_nil]
    exact h
  exact (layout_split v w bounded_nil bounded_nil hends).1

end Gherkin.Json
