/-
  Gherkin/Proofs/TagExpr/Spacing.lean
  ===================================
  **Where the clauses of a written expression end.**

  The written form is cut into words, and a word goes to the last clause when a
  comma stands on either side of the blanks in front of it.  Read from the front,
  this is a rule for single characters: a clause ends behind a character other
  than a comma when blanks follow, and behind them something other than a comma
  (`splitClauses_cons_of_solid`).

  So the clauses are the text without its blanks, and they end at the blanks that
  stand between two characters that are no commas (`seam_iff_gap`).  All other
  blanks may come and go, and these may be as many and of whatever kind.  Nothing
  else may change: two texts have the same clauses exactly when one becomes the
  other by such steps (`splitClauses_eq_iff`).
-/
import Gherkin.Proofs.TagExpr.WrittenForm
import Mathlib.Logic.Relation

namespace Gherkin

open Text

namespace Text

/-! ## 1. The first word -/

theorem isBlank_of_mem_takeWhile (t : Text) : ∀ c ∈ t.takeWhile isBlank, isBlank c = true :=
  fun _ hc => List.mem_takeWhile_imp hc

theorem words_trimStart (t : Text) : words (trimStart t) = words t := by
  conv_rhs => rw [← takeWhile_append_trimStart t]
  exact (words_append_of_blank (isBlank_of_mem_takeWhile t) _).symm

/-- A character in front is a word of its own when a blank follows. -/
theorem words_cons_eq {c : Char} (h : isBlank c = false) (t : Text) :
    words (c :: t) = if t.head?.all isBlank then [c] :: words t else onHead c (words t) := by
  have hsingle : ∀ d ∈ [c], isBlank d = false := List.forall_mem_singleton.mpr h
  cases t with
  | nil => exact words_eq_singleton hsingle (List.cons_ne_nil c [])
  | cons d t =>
    by_cases hd : isBlank d = true
    · have hwords := words_append_blank [c] t hsingle (List.cons_ne_nil c []) hd
      rw [words_cons_of_blank hd]
      simpa [hd] using hwords
    · rw [Bool.not_eq_true] at hd
      obtain ⟨piece, pieces, hsplit⟩ := List.exists_cons_of_ne_nil (splitWhen_ne_nil isBlank t)
      simp [words, splitWhen_cons, h, hd, hsplit, onHead]

theorem head?_of_words_eq_cons {t word : Text} {row : List Text} (h : words t = word :: row) :
    word.head? = (trimStart t).head? := by
  rw [← words_trimStart] at h
  cases htrim : trimStart t with
  | nil => simp [htrim, words] at h
  | cons c u =>
    have hc : isBlank c = false := solidStart_cons.mp (htrim ▸ solidStart_trimStart t)
    obtain ⟨rest, others, hwords⟩ := words_cons_of_solid hc u
    rw [htrim, hwords] at h
    rw [← (List.cons.inj h).1]
    rfl

end Text

namespace TagExpr

/-! ## 2. Clauses from the front -/

theorem attach_cons {clauses : List Text} (hne : clauses ≠ []) (clause word : Text) :
    attach (clause :: clauses) word = clause :: attach clauses word := by
  obtain ⟨next, rest, rfl⟩ := List.exists_cons_of_ne_nil hne
  unfold attach
  rw [List.getLast?_cons_cons]
  cases hlast : (next :: rest).getLast? with
  | none => simp at hlast
  | some last =>
    simp only
    split
    · rfl
    · rfl

theorem attach_singleton (clause word : Text) :
    attach [clause] word =
      if ends ',' clause || leads ',' word then [clause ++ word] else [clause, word] := rfl

theorem attach_onHead {clause : Text} (hne : clause ≠ []) (c : Char) (clauses : List Text)
    (word : Text) :
    attach (onHead c (clause :: clauses)) word = onHead c (attach (clause :: clauses) word) := by
  cases clauses with
  | nil =>
    have hends : ends ',' (c :: clause) = ends ',' clause := by
      obtain ⟨d, rest, rfl⟩ := List.exists_cons_of_ne_nil hne
      rw [ends, ends, List.getLast?_cons_cons]
    show attach [c :: clause] word = onHead c (attach [clause] word)
    rw [attach_singleton, attach_singleton, hends]
    split
    · rfl
    · rfl
  | cons next rest =>
    show attach ((c :: clause) :: next :: rest) word = onHead c (attach (clause :: next :: rest) word)
    rw [attach_cons (List.cons_ne_nil _ _), attach_cons (List.cons_ne_nil _ _)]
    rfl

/-- The first clause can only grow. -/
theorem exists_attach_eq_cons {clause : Text} (hne : clause ≠ []) (clauses : List Text)
    (word : Text) : ∃ next rest, next ≠ [] ∧ attach (clause :: clauses) word = next :: rest := by
  cases clauses with
  | nil =>
    rw [attach_singleton]
    split
    · exact ⟨_, _, List.append_ne_nil_of_left_ne_nil hne _, rfl⟩
    · exact ⟨_, _, hne, rfl⟩
  | cons other rest => exact ⟨_, _, hne, attach_cons (List.cons_ne_nil _ _) _ _⟩

theorem foldl_attach_cons {clause : Text} (hne : clause ≠ []) (clauses row : List Text)
    (first : Text) :
    row.foldl attach (first :: clause :: clauses) =
      first :: row.foldl attach (clause :: clauses) := by
  induction row generalizing clause clauses with
  | nil => rfl
  | cons word row ih =>
    obtain ⟨next, rest, hnext, hattach⟩ := exists_attach_eq_cons hne clauses word
    rw [List.foldl_cons, List.foldl_cons, attach_cons (List.cons_ne_nil _ _), hattach]
    exact ih hnext rest

theorem foldl_attach_onHead {clause : Text} (hne : clause ≠ []) (clauses row : List Text)
    (c : Char) :
    row.foldl attach (onHead c (clause :: clauses)) =
      onHead c (row.foldl attach (clause :: clauses)) := by
  induction row generalizing clause clauses with
  | nil => rfl
  | cons word row ih =>
    obtain ⟨next, rest, hnext, hattach⟩ := exists_attach_eq_cons hne clauses word
    rw [List.foldl_cons, List.foldl_cons, attach_onHead hne, hattach]
    exact ih hnext rest

/-- Whether a clause that does not end in a comma ends in front of the text: there are
    blanks, and no comma behind them. -/
def apart (t : Text) : Bool := t.head?.any isBlank && (trimStart t).head?.any (· != ',')

theorem apart_cons_of_solid {c : Char} (h : isBlank c = false) (t : Text) :
    apart (c :: t) = false := by
  simp [apart, h]

theorem apart_append_of_blank {blanks : Text} (hne : blanks ≠ [])
    (h : ∀ b ∈ blanks, isBlank b = true) (t : Text) :
    apart (blanks ++ t) = (trimStart t).head?.any (· != ',') := by
  obtain ⟨b, rest, rfl⟩ := List.exists_cons_of_ne_nil hne
  have hb : isBlank b = true := h b List.mem_cons_self
  rw [apart, trimStart_append_of_blank h]
  simp [hb]

theorem apart_eq_true_iff {t : Text} :
    apart t = true ↔
      ∃ blanks d rest, t = blanks ++ d :: rest ∧ blanks ≠ [] ∧ (∀ b ∈ blanks, isBlank b = true) ∧
        isBlank d = false ∧ d ≠ ',' := by
  constructor
  · intro h
    obtain ⟨hhead, hfirst⟩ := Bool.and_eq_true_iff.mp h
    obtain ⟨d, rest, htrim⟩ : ∃ d rest, trimStart t = d :: rest := by
      cases htrim : trimStart t with
      | nil => simp [htrim] at hfirst
      | cons d rest => exact ⟨d, rest, rfl⟩
    refine ⟨t.takeWhile isBlank, d, rest, ?_, ?_, isBlank_of_mem_takeWhile t, ?_, ?_⟩
    · rw [← htrim, takeWhile_append_trimStart]
    · cases t with
      | nil => simp at hhead
      | cons b t =>
        have hb : isBlank b = true := by simpa using hhead
        simp [hb]
    · exact solidStart_cons.mp (htrim ▸ solidStart_trimStart t)
    · simpa [htrim] using hfirst
  · rintro ⟨blanks, d, rest, rfl, hne, hblanks, hd, hcomma⟩
    rw [apart_append_of_blank hne hblanks, trimStart_eq_self (solidStart_cons.mpr hd)]
    simpa using hcomma

theorem splitClauses_cons_of_blank {c : Char} (h : isBlank c = true) (t : Text) :
    splitClauses (c :: t) = splitClauses t := by
  unfold splitClauses
  rw [words_cons_of_blank h]

theorem splitClauses_append_of_blank {blanks : Text} (h : ∀ b ∈ blanks, isBlank b = true)
    (t : Text) : splitClauses (blanks ++ t) = splitClauses t := by
  unfold splitClauses
  rw [words_append_of_blank h]

/-- A word of one character is a clause of its own unless there is a comma on either
    side of the blanks behind it. -/
theorem foldl_attach_singleton {word : Text} (hne : word ≠ []) (c : Char) (row : List Text) :
    ([c] :: word :: row).foldl attach [] =
      if c ≠ ',' ∧ leads ',' word = false then [c] :: (word :: row).foldl attach []
      else onHead c ((word :: row).foldl attach []) := by
  have hfirst : (word :: row).foldl attach [] = row.foldl attach [word] := rfl
  have hboth : ([c] :: word :: row).foldl attach [] = row.foldl attach (attach [[c]] word) := rfl
  have hends : ends ',' [c] = (c == ',') := by simp [ends]
  rw [hfirst, hboth, attach_singleton, hends]
  by_cases hparted : c ≠ ',' ∧ leads ',' word = false
  · have hneither : ¬(c == ',' || leads ',' word) = true := by simp [hparted]
    rw [if_pos hparted, if_neg hneither]
    exact foldl_attach_cons hne [] row [c]
  · have heither : (c == ',' || leads ',' word) = true := by
      rw [Bool.or_eq_true, beq_iff_eq]
      by_contra hneither
      rw [not_or, Bool.not_eq_true] at hneither
      exact hparted hneither
    rw [if_neg hparted, if_pos heither]
    exact foldl_attach_onHead hne [] row c

theorem apart_of_words_eq_cons {t word : Text} {row : List Text} (hwords : words t = word :: row)
    (hblank : t.head?.any isBlank = true) : apart t = true ↔ leads ',' word = false := by
  have hne : word ≠ [] := (mem_words (hwords ▸ List.mem_cons_self)).1
  have hfirst := head?_of_words_eq_cons hwords
  obtain ⟨d, rest, rfl⟩ := List.exists_cons_of_ne_nil hne
  rw [apart, hblank, ← hfirst, Bool.true_and]
  simp [leads]

/-- A clause ends behind its first character, or that is put in front of the clause
    that follows. -/
theorem splitClauses_cons_of_solid {c : Char} (h : isBlank c = false) (t : Text) :
    splitClauses (c :: t) =
      if c ≠ ',' ∧ apart t = true then [c] :: splitClauses t else onHead c (splitClauses t) := by
  rw [splitClauses, splitClauses, words_cons_eq h]
  cases hwords : words t with
  | nil =>
    -- Without a further word both answers are the same.
    have hone : (if t.head?.all isBlank then [c] :: [] else onHead c []) = [[c]] := by
      split
      · rfl
      · rfl
    rw [hone]
    split
    · rfl
    · rfl
  | cons word row =>
    have hne : word ≠ [] := (mem_words (hwords ▸ List.mem_cons_self)).1
    cases t with
    | nil => simp [words] at hwords
    | cons d t =>
      by_cases hd : isBlank d = true
      · have hall : (d :: t).head?.all isBlank = true := by simpa using hd
        have hany : (d :: t).head?.any isBlank = true := by simpa using hd
        rw [if_pos hall, foldl_attach_singleton hne]
        simp only [apart_of_words_eq_cons hwords hany]
      · rw [Bool.not_eq_true] at hd
        have hall : ¬(d :: t).head?.all isBlank = true := by simpa using hd
        have hnot : ¬(c ≠ ',' ∧ apart (d :: t) = true) := by
          rw [apart_cons_of_solid hd]
          simp
        rw [if_neg hall, if_neg hnot]
        exact foldl_attach_onHead hne [] row c

/-! ## 3. Seams and gaps -/

/-- The text without its blanks. -/
def unspaced (t : Text) : Text := t.filter (!isBlank ·)

/-- A place between two clauses, with everything to the left and to the right of it. -/
def Seam (clauses : List Text) (left right : Text) : Prop :=
  ∃ front back, clauses = front ++ back ∧ front ≠ [] ∧ back ≠ [] ∧
    front.flatten = left ∧ back.flatten = right

/-- A run of blanks between two characters neither of which is blank or a comma, with
    everything but the blanks to the left and to the right of it. -/
def Gap (t left right : Text) : Prop :=
  ∃ before c blanks d after, t = before ++ c :: (blanks ++ d :: after) ∧
    blanks ≠ [] ∧ (∀ b ∈ blanks, isBlank b = true) ∧
    (isBlank c = false ∧ c ≠ ',') ∧ (isBlank d = false ∧ d ≠ ',') ∧
    unspaced (before ++ [c]) = left ∧ unspaced (d :: after) = right

theorem unspaced_cons_of_blank {c : Char} (h : isBlank c = true) (t : Text) :
    unspaced (c :: t) = unspaced t := by
  simp [unspaced, h]

theorem unspaced_cons_of_solid {c : Char} (h : isBlank c = false) (t : Text) :
    unspaced (c :: t) = c :: unspaced t := by
  simp [unspaced, h]

theorem unspaced_append_of_blank {blanks : Text} (h : ∀ b ∈ blanks, isBlank b = true) (t : Text) :
    unspaced (blanks ++ t) = unspaced t := by
  have hnone : blanks.filter (!isBlank ·) = [] := by
    rw [List.filter_eq_nil_iff]
    intro b hb
    simp [h b hb]
  rw [unspaced, List.filter_append, hnone]
  rfl

theorem flatten_onHead (c : Char) (clauses : List Text) :
    (onHead c clauses).flatten = c :: clauses.flatten := by
  cases clauses <;> rfl

/-- Nothing but blanks is lost. -/
theorem flatten_splitClauses (t : Text) : (splitClauses t).flatten = unspaced t := by
  induction t with
  | nil => rfl
  | cons c t ih =>
    by_cases hc : isBlank c = true
    · rw [splitClauses_cons_of_blank hc, unspaced_cons_of_blank hc, ih]
    · rw [Bool.not_eq_true] at hc
      rw [splitClauses_cons_of_solid hc, unspaced_cons_of_solid hc, ← ih]
      split
      · rfl
      · exact flatten_onHead c _

theorem splitClauses_ne_nil {t : Text} (h : apart t = true) : splitClauses t ≠ [] := by
  obtain ⟨blanks, d, rest, rfl, -, hblanks, hd, -⟩ := apart_eq_true_iff.mp h
  intro hnil
  have hflatten := flatten_splitClauses (blanks ++ d :: rest)
  rw [hnil, unspaced_append_of_blank hblanks, unspaced_cons_of_solid hd] at hflatten
  simp at hflatten

theorem ne_nil_of_mem_splitClauses {t clause : Text} (h : clause ∈ splitClauses t) :
    clause ≠ [] := by
  induction t generalizing clause with
  | nil => simp [splitClauses, words] at h
  | cons c t ih =>
    by_cases hc : isBlank c = true
    · rw [splitClauses_cons_of_blank hc] at h
      exact ih h
    · rw [Bool.not_eq_true] at hc
      rw [splitClauses_cons_of_solid hc] at h
      split at h
      · rcases List.mem_cons.mp h with rfl | h
        · exact List.cons_ne_nil _ _
        · exact ih h
      · cases hclauses : splitClauses t with
        | nil =>
          rw [hclauses, onHead, List.mem_singleton] at h
          simp [h]
        | cons first rest =>
          rw [hclauses, onHead, List.mem_cons] at h
          rcases h with rfl | h
          · exact List.cons_ne_nil _ _
          · exact ih (hclauses ▸ List.mem_cons_of_mem _ h)

theorem not_seam_nil {left right : Text} : ¬Seam [] left right := by
  rintro ⟨front, back, hparts, hfront, -⟩
  exact hfront (List.append_eq_nil_iff.mp hparts.symm).1

theorem seam_cons {clause : Text} {clauses : List Text} {left right : Text} :
    Seam (clause :: clauses) left right ↔
      (clauses ≠ [] ∧ left = clause ∧ right = clauses.flatten) ∨
        ∃ rest, left = clause ++ rest ∧ Seam clauses rest right := by
  constructor
  · rintro ⟨front, back, hparts, hfront, hback, rfl, rfl⟩
    obtain ⟨first, front, rfl⟩ := List.exists_cons_of_ne_nil hfront
    obtain ⟨rfl, rfl⟩ := List.cons.inj hparts
    cases front with
    | nil => exact .inl ⟨hback, by simp, rfl⟩
    | cons next front =>
      exact .inr ⟨_, List.flatten_cons, next :: front, back, rfl, by simp, hback, rfl, rfl⟩
  · rintro (⟨hne, rfl, rfl⟩ | ⟨rest, rfl, front, back, rfl, -, hback, rfl, rfl⟩)
    · exact ⟨[left], clauses, rfl, by simp, hne, by simp, rfl⟩
    · exact ⟨clause :: front, back, rfl, by simp, hback, List.flatten_cons, rfl⟩

theorem seam_onHead {c : Char} {clauses : List Text} {left right : Text} :
    Seam (onHead c clauses) left right ↔ ∃ rest, left = c :: rest ∧ Seam clauses rest right := by
  cases clauses with
  | nil =>
    show Seam [[c]] left right ↔ _
    rw [seam_cons]
    simp [not_seam_nil]
  | cons clause clauses =>
    show Seam ((c :: clause) :: clauses) left right ↔ _
    simp only [seam_cons]
    constructor
    · rintro (⟨hne, rfl, rfl⟩ | ⟨rest, rfl, hrest⟩)
      · exact ⟨clause, rfl, .inl ⟨hne, rfl, rfl⟩⟩
      · exact ⟨clause ++ rest, rfl, .inr ⟨rest, rfl, hrest⟩⟩
    · rintro ⟨_, rfl, ⟨hne, rfl, rfl⟩ | ⟨rest, rfl, hrest⟩⟩
      · exact .inl ⟨hne, rfl, rfl⟩
      · exact .inr ⟨rest, rfl, hrest⟩

theorem not_gap_nil {left right : Text} : ¬Gap [] left right := by
  rintro ⟨before, c, blanks, d, after, ht, -⟩
  simp at ht

theorem gap_cons_of_blank {c : Char} (h : isBlank c = true) {t left right : Text} :
    Gap (c :: t) left right ↔ Gap t left right := by
  constructor
  · rintro ⟨before, b, blanks, d, after, ht, hne, hblanks, hb, hd, rfl, rfl⟩
    cases before with
    | nil =>
      obtain ⟨rfl, -⟩ := List.cons.inj ht
      rw [h] at hb
      exact absurd hb.1 (by decide)
    | cons first before =>
      obtain ⟨rfl, rfl⟩ := List.cons.inj ht
      refine ⟨before, b, blanks, d, after, rfl, hne, hblanks, hb, hd, ?_, rfl⟩
      exact (unspaced_cons_of_blank h _).symm
  · rintro ⟨before, b, blanks, d, after, rfl, hne, hblanks, hb, hd, rfl, rfl⟩
    refine ⟨c :: before, b, blanks, d, after, rfl, hne, hblanks, hb, hd, ?_, rfl⟩
    exact unspaced_cons_of_blank h _

theorem gap_cons_of_solid {c : Char} (h : isBlank c = false) {t left right : Text} :
    Gap (c :: t) left right ↔
      ((c ≠ ',' ∧ apart t = true) ∧ left = [c] ∧ right = unspaced t) ∨
        ∃ rest, left = c :: rest ∧ Gap t rest right := by
  constructor
  · rintro ⟨before, b, blanks, d, after, ht, hne, hblanks, hb, hd, rfl, rfl⟩
    cases before with
    | nil =>
      obtain ⟨rfl, rfl⟩ := List.cons.inj ht
      refine .inl ⟨⟨hb.2, apart_eq_true_iff.mpr ?_⟩, ?_, ?_⟩
      · exact ⟨blanks, d, after, rfl, hne, hblanks, hd⟩
      · exact unspaced_cons_of_solid h []
      · exact (unspaced_append_of_blank hblanks _).symm
    | cons first before =>
      obtain ⟨rfl, rfl⟩ := List.cons.inj ht
      refine .inr ⟨unspaced (before ++ [b]), ?_, ?_⟩
      · exact unspaced_cons_of_solid h _
      · exact ⟨before, b, blanks, d, after, rfl, hne, hblanks, hb, hd, rfl, rfl⟩
  · rintro (⟨⟨hc, happart⟩, rfl, rfl⟩ | ⟨rest, rfl, before, b, blanks, d, after, rfl, hgap⟩)
    · obtain ⟨blanks, d, after, rfl, hne, hblanks, hd⟩ := apart_eq_true_iff.mp happart
      refine ⟨[], c, blanks, d, after, rfl, hne, hblanks, ⟨h, hc⟩, hd, ?_, ?_⟩
      · exact unspaced_cons_of_solid h []
      · exact (unspaced_append_of_blank hblanks _).symm
    · obtain ⟨hne, hblanks, hb, hd, rfl, rfl⟩ := hgap
      refine ⟨c :: before, b, blanks, d, after, rfl, hne, hblanks, hb, hd, ?_, rfl⟩
      exact unspaced_cons_of_solid h _

/-- The clauses end at the gaps and nowhere else. -/
theorem seam_iff_gap {t left right : Text} :
    Seam (splitClauses t) left right ↔ Gap t left right := by
  induction t generalizing left right with
  | nil => exact iff_of_false not_seam_nil not_gap_nil
  | cons c t ih =>
    by_cases hc : isBlank c = true
    · rw [splitClauses_cons_of_blank hc, gap_cons_of_blank hc, ih]
    · rw [Bool.not_eq_true] at hc
      rw [splitClauses_cons_of_solid hc, gap_cons_of_solid hc]
      by_cases hends : c ≠ ',' ∧ apart t = true
      · have hne := splitClauses_ne_nil hends.2
        rw [if_pos hends, seam_cons, flatten_splitClauses]
        simp only [ih, hends, hne, List.singleton_append, ne_eq, not_false_eq_true, true_and]
      · rw [if_neg hends, seam_onHead]
        simp only [ih, hends, false_and, false_or]

/-! ## 4. Blanks that do not matter -/

/-- One change to the blanks of a text. -/
inductive Respacing : Text → Text → Prop
  | leading {blanks : Text} (h : ∀ b ∈ blanks, isBlank b = true) (t : Text) :
      Respacing t (blanks ++ t)
  | trailing {blanks : Text} (h : ∀ b ∈ blanks, isBlank b = true) (t : Text) :
      Respacing t (t ++ blanks)
  | run {blanks others : Text} (h : ∀ b ∈ blanks, isBlank b = true)
      (hothers : ∀ b ∈ others, isBlank b = true) (hne : blanks ≠ []) (hnone : others ≠ [])
      (before after : Text) : Respacing (before ++ (blanks ++ after)) (before ++ (others ++ after))
  | beforeComma {blanks : Text} (h : ∀ b ∈ blanks, isBlank b = true) (before after : Text) :
      Respacing (before ++ ',' :: after) (before ++ (blanks ++ ',' :: after))
  | behindComma {blanks : Text} (h : ∀ b ∈ blanks, isBlank b = true) (before after : Text) :
      Respacing (before ++ ',' :: after) (before ++ ',' :: (blanks ++ after))

/-- Two texts that give the same clauses whatever stands in front of them. -/
structure Interchangeable (t u : Text) : Prop where
  clauses : splitClauses t = splitClauses u
  apart : apart t = apart u
  first : (trimStart t).head? = (trimStart u).head?

theorem Interchangeable.refl (t : Text) : Interchangeable t t := ⟨rfl, rfl, rfl⟩

theorem Interchangeable.cons {t u : Text} (h : Interchangeable t u) (c : Char) :
    Interchangeable (c :: t) (c :: u) := by
  by_cases hc : isBlank c = true
  · have hblank : ∀ b ∈ [c], isBlank b = true := List.forall_mem_singleton.mpr hc
    have hfirst : ∀ v, (trimStart (c :: v)).head? = (trimStart v).head? := fun v =>
      congrArg List.head? (trimStart_append_of_blank hblank v)
    have happart : ∀ v, TagExpr.apart (c :: v) = (trimStart v).head?.any (· != ',') :=
      apart_append_of_blank (List.cons_ne_nil c []) hblank
    constructor
    · rw [splitClauses_cons_of_blank hc, splitClauses_cons_of_blank hc, h.clauses]
    · rw [happart, happart, h.first]
    · rw [hfirst, hfirst, h.first]
  · rw [Bool.not_eq_true] at hc
    constructor
    · rw [splitClauses_cons_of_solid hc, splitClauses_cons_of_solid hc, h.clauses, h.apart]
    · rw [apart_cons_of_solid hc, apart_cons_of_solid hc]
    · rw [trimStart_eq_self (solidStart_cons.mpr hc), trimStart_eq_self (solidStart_cons.mpr hc)]
      rfl

theorem Interchangeable.append {t u : Text} (h : Interchangeable t u) (before : Text) :
    Interchangeable (before ++ t) (before ++ u) := by
  induction before with
  | nil => exact h
  | cons c before ih => exact ih.cons c

theorem interchangeable_blanks {blanks : Text} (h : ∀ b ∈ blanks, isBlank b = true) :
    Interchangeable [] blanks := by
  have htrim : trimStart blanks = [] := List.dropWhile_eq_nil_iff.mpr h
  constructor
  · have hclauses := splitClauses_append_of_blank h []
    rw [List.append_nil] at hclauses
    exact hclauses.symm
  · simp [apart, htrim]
  · rw [htrim]
    rfl

theorem interchangeable_runs {blanks others : Text} (h : ∀ b ∈ blanks, isBlank b = true)
    (hothers : ∀ b ∈ others, isBlank b = true) (hne : blanks ≠ []) (hnone : others ≠ [])
    (after : Text) : Interchangeable (blanks ++ after) (others ++ after) := by
  constructor
  · rw [splitClauses_append_of_blank h, splitClauses_append_of_blank hothers]
  · rw [apart_append_of_blank hne h, apart_append_of_blank hnone hothers]
  · rw [trimStart_append_of_blank h, trimStart_append_of_blank hothers]

theorem trimStart_comma (after : Text) : trimStart (',' :: after) = ',' :: after :=
  trimStart_eq_self (solidStart_cons.mpr (by decide))

theorem interchangeable_beforeComma {blanks : Text} (h : ∀ b ∈ blanks, isBlank b = true)
    (after : Text) : Interchangeable (',' :: after) (blanks ++ ',' :: after) := by
  by_cases hne : blanks = []
  · rw [hne]
    exact .refl _
  constructor
  · rw [splitClauses_append_of_blank h]
  · rw [apart_append_of_blank hne h, apart_cons_of_solid (by decide), trimStart_comma]
    rfl
  · rw [trimStart_append_of_blank h]

theorem interchangeable_behindComma {blanks : Text} (h : ∀ b ∈ blanks, isBlank b = true)
    (after : Text) : Interchangeable (',' :: after) (',' :: (blanks ++ after)) := by
  have hclauses : ∀ t, splitClauses (',' :: t) = onHead ',' (splitClauses t) := by
    intro t
    rw [splitClauses_cons_of_solid (by decide)]
    exact if_neg fun hends => hends.1 rfl
  constructor
  · rw [hclauses, hclauses, splitClauses_append_of_blank h]
  · rw [apart_cons_of_solid (by decide), apart_cons_of_solid (by decide)]
  · rw [trimStart_comma, trimStart_comma]
    rfl

theorem Respacing.splitClauses_eq {t u : Text} (h : Respacing t u) :
    splitClauses t = splitClauses u := by
  cases h with
  | leading hblanks t => exact (splitClauses_append_of_blank hblanks t).symm
  | trailing hblanks t =>
    have hsame := ((interchangeable_blanks hblanks).append t).clauses
    rwa [List.append_nil] at hsame
  | run hblanks hothers hne hnone before after =>
    exact ((interchangeable_runs hblanks hothers hne hnone after).append before).clauses
  | beforeComma hblanks before after =>
    exact ((interchangeable_beforeComma hblanks after).append before).clauses
  | behindComma hblanks before after =>
    exact ((interchangeable_behindComma hblanks after).append before).clauses

theorem splitClauses_eq_of_eqvGen {t u : Text} (h : Relation.EqvGen Respacing t u) :
    splitClauses t = splitClauses u := by
  induction h with
  | rel t u h => exact h.splitClauses_eq
  | refl t => rfl
  | symm t u _ ih => exact ih.symm
  | trans t u v _ _ ih ih' => exact ih.trans ih'

/-- Blanks behind which a clause ends can be made one space. -/
theorem respacing_space {t : Text} (h : apart t = true) (before : Text) :
    Respacing (before ++ t) (before ++ ' ' :: trimStart t) := by
  obtain ⟨blanks, d, after, rfl, hne, hblanks, hd, -⟩ := apart_eq_true_iff.mp h
  rw [trimStart_append_of_blank hblanks, trimStart_eq_self (solidStart_cons.mpr hd)]
  have hspace : ∀ b ∈ [' '], isBlank b = true := by decide
  exact .run hblanks hspace hne (List.cons_ne_nil _ _) before (d :: after)

/-- All other blanks can be left out: they stand next to a comma, or at the end. -/
theorem eqvGen_trimStart {c : Char} {t : Text} (h : ¬(c ≠ ',' ∧ apart t = true))
    (before : Text) :
    Relation.EqvGen Respacing (before ++ c :: t) (before ++ c :: trimStart t) := by
  have hblanks := isBlank_of_mem_takeWhile t
  have ht := takeWhile_append_trimStart t
  by_cases hne : t.takeWhile isBlank = []
  · rw [hne, List.nil_append] at ht
    rw [ht]
    exact .refl _
  apply Relation.EqvGen.symm
  cases htrim : trimStart t with
  | nil =>
    rw [htrim, List.append_nil] at ht
    have hstep := Respacing.trailing hblanks (before ++ [c])
    rw [ht, List.append_assoc] at hstep
    exact .rel _ _ hstep
  | cons d after =>
    rw [htrim] at ht
    by_cases hc : c = ','
    · have hstep := Respacing.behindComma hblanks before (d :: after)
      rw [ht] at hstep
      rw [hc]
      exact .rel _ _ hstep
    · have hd : d = ',' := by
        by_contra hd
        refine h ⟨hc, apart_eq_true_iff.mpr ⟨_, d, after, ht.symm, hne, hblanks, ?_, hd⟩⟩
        exact solidStart_cons.mp (htrim ▸ solidStart_trimStart t)
      rw [hd] at ht ⊢
      have hstep := Respacing.beforeComma hblanks (before ++ [c]) after
      rw [ht, List.append_assoc, List.append_assoc] at hstep
      exact .rel _ _ hstep

theorem splitClauses_trimStart (t : Text) : splitClauses (trimStart t) = splitClauses t := by
  unfold splitClauses
  rw [words_trimStart]

/-- Any text can be brought into the form with one space between its clauses.  The
    induction is on the part that is not yet in order, and does not start with a
    blank. -/
theorem eqvGen_append_join {t : Text} (h : SolidStart t) (before : Text) :
    Relation.EqvGen Respacing (before ++ t) (before ++ join ' ' (splitClauses t)) := by
  induction hlength : t.length using Nat.strong_induction_on generalizing t before with
  | _ length ih =>
  subst hlength
  cases t with
  | nil => exact .refl _
  | cons c t =>
    have hshort : (trimStart t).length < (c :: t).length := by
      have hle := List.length_dropWhile_le isBlank t
      simp only [List.length_cons, trimStart]
      omega
    have hrest : ∀ before, Relation.EqvGen Respacing (before ++ trimStart t)
        (before ++ join ' ' (splitClauses t)) := by
      intro before
      rw [← splitClauses_trimStart]
      exact ih _ hshort (solidStart_trimStart t) before rfl
    rw [splitClauses_cons_of_solid (solidStart_cons.mp h)]
    by_cases hends : c ≠ ',' ∧ apart t = true
    · rw [if_pos hends, join_cons _ _ (splitClauses_ne_nil hends.2)]
      have hstep := respacing_space hends.2 (before ++ [c])
      have hjoin := hrest (before ++ [c, ' '])
      simp only [List.append_assoc, List.cons_append, List.nil_append] at hstep hjoin ⊢
      exact .trans _ _ _ (.rel _ _ hstep) hjoin
    · have hhead : join ' ' (onHead c (splitClauses t)) = c :: join ' ' (splitClauses t) := by
        cases hclauses : splitClauses t with
        | nil => rfl
        | cons first rest => exact join_onHead _ _ (List.cons_ne_nil _ _)
      have hjoin := hrest (before ++ [c])
      rw [List.append_assoc, List.append_assoc] at hjoin
      rw [if_neg hends, hhead]
      exact .trans _ _ _ (eqvGen_trimStart hends before) hjoin

theorem eqvGen_join (t : Text) : Relation.EqvGen Respacing t (join ' ' (splitClauses t)) := by
  have hjoin := eqvGen_append_join (solidStart_trimStart t) []
  rw [splitClauses_trimStart] at hjoin
  refine .trans _ _ _ ?_ hjoin
  have hleading := Respacing.leading (isBlank_of_mem_takeWhile t) (trimStart t)
  rw [takeWhile_append_trimStart] at hleading
  exact .symm _ _ (.rel _ _ hleading)

/-- Two texts have the same clauses exactly when they differ in blanks that do not
    matter. -/
theorem splitClauses_eq_iff {t u : Text} :
    splitClauses t = splitClauses u ↔ Relation.EqvGen Respacing t u := by
  constructor
  · intro h
    have hjoin := eqvGen_join u
    rw [← h] at hjoin
    exact .trans _ _ _ (eqvGen_join t) (.symm _ _ hjoin)
  · exact splitClauses_eq_of_eqvGen

/-- The clauses of a text are what it holds besides blanks, cut at the blanks between
    two characters that are no commas.  Blanks can be changed in any way that leaves
    these where they are, and in no other, without a change to what is read. -/
theorem splitClauses_by_gaps (t : Text) :
    (∀ clause ∈ splitClauses t, clause ≠ [] ∧ ∀ c ∈ clause, isBlank c = false) ∧
      (splitClauses t).flatten = unspaced t ∧
      (∀ left right, Seam (splitClauses t) left right ↔ Gap t left right) ∧
      ∀ u, (splitClauses t = splitClauses u ↔ Relation.EqvGen Respacing t u) ∧
        (Relation.EqvGen Respacing t u → read t = read u) := by
  refine ⟨?_, flatten_splitClauses t, fun _ _ => seam_iff_gap, ?_⟩
  · intro clause hclause
    exact ⟨ne_nil_of_mem_splitClauses hclause, solid_splitClauses hclause⟩
  · intro u
    refine ⟨splitClauses_eq_iff, fun h => ?_⟩
    unfold read
    rw [splitClauses_eq_of_eqvGen h]

/-- For instance blanks next to a comma, at the ends and of another kind, in a text
    that is read and in one that is not. -/
theorem splitClauses_by_gaps_commas :
    read "@a, @b ~@c:2".toList = read " @a ,@b\t\u3000~@c:2 ".toList ∧
      read "@a,,@b".toList = read "@a, ,@b\n".toList ∧
      read "@a,,@b".toList = .error (.emptyTerm "@a,,@b".toList) := by
  have hsame : ∀ t u, splitClauses t = splitClauses u → read t = read u := by
    intro t u h
    obtain ⟨-, -, -, hrespaced⟩ := splitClauses_by_gaps t
    exact (hrespaced u).2 ((hrespaced u).1.mp h)
  exact ⟨hsame _ _ (by decide), hsame _ _ (by decide), rfl⟩

end TagExpr

end Gherkin
