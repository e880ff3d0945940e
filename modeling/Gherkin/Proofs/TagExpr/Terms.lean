/-
  Gherkin/Proofs/TagExpr/Terms.lean
  =================================
  **What a term is read as.**

  Reading takes the sign off, cuts what is left at its first colon and trims the
  name.  `Term.read_eq_ok_iff` says when that succeeds; neither the answer nor
  its existence depends on the clause, which only words the failure.

  A term is written canonically, so a name may begin like a sign when it is read
  again.  `Proper.signless_iff` says exactly which terms come back from their written
  form.
-/
import Gherkin.Proofs.Tag.Limits
import Gherkin.TagExpr.Term

namespace Gherkin

open Text

namespace Text

/-! ## 1. The first colon -/

theorem cutFirst?_eq_none_iff {c : Char} {t : Text} : cutFirst? c t = none ↔ c ∉ t := by
  induction t with
  | nil => simp [cutFirst?]
  | cons d t ih =>
    rw [cutFirst?]
    by_cases h : d = c
    · simp [h]
    · simp [h, ih, Ne.symm h]

theorem cutFirst?_append {c : Char} {before : Text} (h : c ∉ before) (after : Text) :
    cutFirst? c (before ++ c :: after) = some (before, after) := by
  induction before with
  | nil => simp [cutFirst?]
  | cons d before ih =>
    rw [List.mem_cons, not_or] at h
    rw [List.cons_append, cutFirst?, if_neg (Ne.symm h.1), ih h.2]
    rfl

theorem eq_of_cutFirst? {c : Char} {t before after : Text}
    (h : cutFirst? c t = some (before, after)) : t = before ++ c :: after ∧ c ∉ before := by
  induction t generalizing before with
  | nil => simp [cutFirst?] at h
  | cons d t ih =>
    rw [cutFirst?] at h
    split at h
    · rename_i hd
      simp only [Option.some.injEq, Prod.mk.injEq] at h
      obtain ⟨rfl, rfl⟩ := h
      exact ⟨by rw [hd]; rfl, List.not_mem_nil⟩
    · rename_i hd
      obtain ⟨⟨front, back⟩, hcut, heq⟩ := Option.map_eq_some_iff.mp h
      simp only [Prod.mk.injEq] at heq
      obtain ⟨rfl, rfl⟩ := heq
      obtain ⟨rfl, hfront⟩ := ih hcut
      exact ⟨rfl, by simp [hfront, Ne.symm hd]⟩

end Text

namespace TagExpr.Term

/-! ## 2. Signs -/

/-- What stands in front of a name decides the sign. -/
theorem sign_eq (t : Text) :
    sign t =
      match t with
      | '@' :: rest => (false, rest)
      | '-' :: '@' :: rest => (true, rest)
      | '~' :: '@' :: rest => (true, rest)
      | '-' :: rest => (true, rest)
      | '~' :: rest => (true, rest)
      | _ => (false, t) := by
  split
  · rfl
  · rfl
  · rfl
  · rename_i rest hat
    cases rest with
    | nil => rfl
    | cons c rest =>
      have hc : '@' ≠ c := fun h => hat rest (by rw [h])
      simp [sign, negations, after?, hc]
  · rename_i rest hat
    cases rest with
    | nil => rfl
    | cons c rest =>
      have hc : '@' ≠ c := fun h => hat rest (by rw [h])
      simp [sign, negations, after?, hc]
  · rename_i hat hminusAt htildeAt hminus htilde
    cases t with
    | nil => rfl
    | cons c rest =>
      have hc : '@' ≠ c ∧ '-' ≠ c ∧ '~' ≠ c :=
        ⟨fun h => hat rest (by rw [h]), fun h => hminus rest (by rw [h]),
          fun h => htilde rest (by rw [h])⟩
      simp [sign, negations, after?, hc.1, hc.2.1, hc.2.2]

theorem mem_of_mem_sign {c : Char} {t : Text} (h : c ∈ (sign t).2) : c ∈ t := by
  rw [sign_eq] at h
  split at h <;> simp_all

/-! ## 3. Names and limits -/

theorem solid_limitSuffix {limit : Option Nat} {c : Char} (h : c ∈ Tag.limitSuffix limit) :
    isBlank c = false ∧ c ≠ ',' := by
  cases limit with
  | none => simp [Tag.limitSuffix] at h
  | some n =>
    rw [Tag.limitSuffix, List.mem_cons] at h
    rcases h with rfl | h
    · decide
    · have hdigit := isDigit_of_mem_decimal h
      refine ⟨Tag.not_isBlank_of_isDigit hdigit, ?_⟩
      rintro rfl
      simp at hdigit

theorem trim_decimal (n : Nat) : trim (decimal n) = decimal n :=
  trim_eq_self (trimmed_of_solid fun _ hc => Tag.not_isBlank_of_isDigit (isDigit_of_mem_decimal hc))

/-- A name without a colon is cut off again from the limit that is written
    behind it. -/
theorem splitLimit_append {name : Text} {limit : Option Nat} (hname : ':' ∉ name)
    (hlimit : ∀ n, limit = some n → n < limitBound) :
    splitLimit (name ++ Tag.limitSuffix limit) = .ok (name, limit) := by
  cases limit with
  | none =>
    rw [Tag.limitSuffix, List.append_nil, splitLimit, cutFirst?_eq_none_iff.mpr hname]
  | some n =>
    rw [Tag.limitSuffix, splitLimit, cutFirst?_append hname]
    simp only [trim_decimal, readLimit?_decimal (hlimit n rfl)]

/-- What is cut off is a name without a colon and a limit of at most thirty-two
    bits. -/
theorem eq_of_splitLimit {body name : Text} {limit : Option Nat}
    (h : splitLimit body = .ok (name, limit)) :
    ':' ∉ name ∧ (∀ n, limit = some n → n < limitBound) ∧ ∀ c ∈ name, c ∈ body := by
  unfold splitLimit at h
  split at h
  · rename_i hcut
    simp only [Except.ok.injEq, Prod.mk.injEq] at h
    obtain ⟨rfl, rfl⟩ := h
    exact ⟨cutFirst?_eq_none_iff.mp hcut, by simp, fun _ hc => hc⟩
  · rename_i before value hcut
    obtain ⟨rfl, hcolon⟩ := eq_of_cutFirst? hcut
    split at h
    · rename_i n hn
      simp only [Except.ok.injEq, Prod.mk.injEq] at h
      obtain ⟨rfl, rfl⟩ := h
      refine ⟨hcolon, ?_, fun _ hc => List.mem_append_left _ hc⟩
      rintro _ ⟨⟩
      exact lt_of_readLimit? hn
    · simp at h

/-! ## 4. Reading -/

/-- A term is read when its limit can be read and a name is left. -/
theorem read_eq_ok_iff {raw clause : Text} {term : Term} :
    read raw clause = .ok term ↔
      (sign (trim raw)).1 = term.negated ∧
        ∃ name, splitLimit (sign (trim raw)).2 = .ok (name, term.limit) ∧
          trim name = term.name ∧ term.name ≠ [] := by
  obtain ⟨name, negated, limit⟩ := term
  unfold read
  simp only
  cases hsplit : splitLimit (sign (trim raw)).2 with
  | error value => simp
  | ok parts =>
    obtain ⟨before, after⟩ := parts
    simp only [Except.ok.injEq, Prod.mk.injEq]
    split
    · rename_i hempty
      rw [List.isEmpty_iff] at hempty
      constructor
      · simp
      · rintro ⟨-, found, ⟨rfl, -⟩, rfl, hne⟩
        exact absurd hempty hne
    · rename_i hne
      rw [List.isEmpty_iff] at hne
      constructor
      · intro h
        simp only [Except.ok.injEq, Term.mk.injEq] at h
        obtain ⟨rfl, hsign, rfl⟩ := h
        exact ⟨hsign, before, ⟨rfl, rfl⟩, rfl, hne⟩
      · rintro ⟨hsign, found, ⟨rfl, rfl⟩, rfl, -⟩
        rw [hsign]

/-- What is true of every term of a compiled clause. -/
structure Proper (term : Term) : Prop where
  name_ne_nil : term.name ≠ []
  comma : ',' ∉ term.name
  colon : ':' ∉ term.name
  limit : ∀ n, term.limit = some n → n < limitBound

theorem mem_of_mem_name {raw clause : Text} {term : Term} (h : read raw clause = .ok term)
    {c : Char} (hc : c ∈ term.name) : c ∈ raw := by
  obtain ⟨-, name, hsplit, hname, -⟩ := read_eq_ok_iff.mp h
  rw [← hname] at hc
  exact mem_of_mem_trim (mem_of_mem_sign ((eq_of_splitLimit hsplit).2.2 c (mem_of_mem_trim hc)))

theorem proper_of_read {raw clause : Text} {term : Term} (hraw : ',' ∉ raw)
    (h : read raw clause = .ok term) : term.Proper := by
  obtain ⟨-, name, hsplit, hname, hne⟩ := read_eq_ok_iff.mp h
  obtain ⟨hcolon, hlimit, -⟩ := eq_of_splitLimit hsplit
  refine ⟨hne, fun hcomma => hraw (mem_of_mem_name h hcomma), fun hmem => hcolon ?_, hlimit⟩
  rw [← hname] at hmem
  exact mem_of_mem_trim hmem

/-! ## 5. The written form -/

theorem written_eq (term : Term) :
    term.written =
      (if term.negated then ['-'] else []) ++ (term.name ++ Tag.limitSuffix term.limit) := by
  rw [← List.append_assoc]
  obtain ⟨name, negated, _ | limit⟩ := term <;> rfl

/-- The name of the term does not begin like something else: not with the sign
    of a tag, and not with the sign of a negation that the term does not have. -/
structure Signless (term : Term) : Prop where
  at_sign : leads '@' term.name = false
  negation : term.negated = false → leads '-' term.name = false ∧ leads '~' term.name = false

theorem written_solid {term : Term} (h : ∀ c ∈ term.name, isBlank c = false) :
    ∀ c ∈ term.written, isBlank c = false := by
  intro c hc
  rw [written_eq, List.mem_append, List.mem_append] at hc
  rcases hc with hc | hc | hc
  · split at hc
    · rw [List.mem_singleton.mp hc]
      decide
    · simp at hc
  · exact h c hc
  · exact (solid_limitSuffix hc).1

theorem Proper.written_comma {term : Term} (h : term.Proper) : ',' ∉ term.written := by
  intro hc
  rw [written_eq, List.mem_append, List.mem_append] at hc
  rcases hc with hc | hc | hc
  · split at hc <;> simp at hc
  · exact h.comma hc
  · exact (solid_limitSuffix hc).2 rfl

theorem Proper.written_ne_nil {term : Term} (h : term.Proper) : term.written ≠ [] := by
  rw [written_eq]
  simp [h.name_ne_nil]

/-- A sign is taken off as a whole, so what is left of a name without a sign is
    the name. -/
theorem Signless.sign_written {term : Term} (h : term.Signless) (hne : term.name ≠ []) :
    sign term.written = (term.negated, term.name ++ Tag.limitSuffix term.limit) := by
  rw [written_eq]
  obtain ⟨name, negated, limit⟩ := term
  obtain ⟨hat, hnegation⟩ := h
  cases name with
  | nil => exact absurd rfl hne
  | cons c rest =>
    have hc : c ≠ '@' := by simpa [leads] using hat
    cases negated with
    | true =>
      rw [sign_eq]
      simp [hc]
    | false =>
      have hminus : c ≠ '-' := by simpa [leads] using (hnegation rfl).1
      have htilde : c ≠ '~' := by simpa [leads] using (hnegation rfl).2
      rw [sign_eq]
      simp [hc, hminus, htilde]

/-- An `@` sign in front of a name is taken for the optional one. -/
theorem sign_written_of_at {term : Term} {rest : Text} (h : term.name = '@' :: rest) :
    sign term.written = (term.negated, rest ++ Tag.limitSuffix term.limit) := by
  rw [written_eq, h, sign_eq]
  cases term.negated <;> rfl

/-- A sign of negation in front of a name turns the term around. -/
theorem sign_written_of_negation {term : Term} (hnegated : term.negated = false)
    (h : leads '-' term.name = true ∨ leads '~' term.name = true) :
    (sign term.written).1 = true := by
  have hsign : ∀ c t, c = '-' ∨ c = '~' → (sign (c :: t)).1 = true := by
    intro c t hc
    rw [sign_eq]
    rcases hc with rfl | rfl
    · cases t with
      | nil => rfl
      | cons d t => by_cases hd : d = '@' <;> simp [hd]
    · cases t with
      | nil => rfl
      | cons d t => by_cases hd : d = '@' <;> simp [hd]
  rw [written_eq, hnegated]
  cases hname : term.name with
  | nil => simp [hname, leads] at h
  | cons c rest => exact hsign c _ (by simpa [hname, leads] using h)

/-- A term without blanks in its name comes back from its written form exactly
    when the name does not begin like something else. -/
theorem Proper.signless_iff {term : Term} (h : term.Proper)
    (hsolid : ∀ c ∈ term.name, isBlank c = false) (clause : Text) :
    read term.written clause = .ok term ↔ term.Signless := by
  have hwritten : trim term.written = term.written :=
    trim_eq_self (trimmed_of_solid (written_solid hsolid))
  rw [read_eq_ok_iff, hwritten]
  constructor
  · rintro ⟨hsign, found, hsplit, hfound, -⟩
    constructor
    · rw [← Bool.not_eq_true]
      intro hat
      obtain ⟨rest, hname⟩ : ∃ rest, term.name = '@' :: rest := by
        cases hname : term.name with
        | nil => exact absurd hname h.name_ne_nil
        | cons c rest => exact ⟨rest, by simpa [hname, leads] using hat⟩
      have hcolon : ':' ∉ rest := fun hmem => h.colon (hname ▸ List.mem_cons_of_mem _ hmem)
      have hrest : trim rest = rest :=
        trim_eq_self (trimmed_of_solid fun c hc => hsolid c (hname ▸ List.mem_cons_of_mem _ hc))
      rw [sign_written_of_at hname, splitLimit_append hcolon h.limit] at hsplit
      simp only [Except.ok.injEq, Prod.mk.injEq] at hsplit
      rw [← hsplit.1, hrest, hname] at hfound
      exact absurd hfound.symm (List.cons_ne_self _ _)
    · intro hnegated
      rw [← Bool.not_eq_true, ← Bool.not_eq_true, ← not_or]
      intro hlead
      rw [sign_written_of_negation hnegated hlead, hnegated] at hsign
      exact Bool.noConfusion hsign
  · intro hsignless
    rw [hsignless.sign_written h.name_ne_nil, splitLimit_append h.colon h.limit]
    exact ⟨rfl, term.name, rfl, trim_eq_self (trimmed_of_solid hsolid), h.name_ne_nil⟩

end TagExpr.Term

end Gherkin
