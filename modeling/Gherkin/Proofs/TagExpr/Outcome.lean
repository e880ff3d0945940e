/-
  Gherkin/Proofs/TagExpr/Outcome.lean
  ===================================
  **Which clauses compile, and what is wrong with the others.**

  Compiling takes the clauses in order, with a table of limits in hand, and goes
  through each clause twice: all of its terms are read before the first of their
  limits is entered.  Still the outcome is decided by what the clauses say
  together.  They compile exactly when every term can be read and no name has two
  limits (`exists_compile_iff`), and then neither the table nor what the
  expression matches depends on the order of the clauses or on how often one is
  given (`compile_alike_of_mem_iff`).

  The table holds for each name the earliest limit that was given to it
  (`get?_of_foldlM_addLimit`).  So the flaw of a clause can be said without the
  table (`ClauseFlaw`), and compiling fails with the flaw of the first clause that
  cannot be added (`compile_eq_error_iff`).
-/
import Gherkin.Proofs.TagExpr.Compiling
import Mathlib.Data.List.Sort

namespace Gherkin

open Text

namespace TagExpr

variable {clauses : List Text} {expr : TagExpr} {limits table : Limits}

/-! ## 1. What the clauses say -/

/-- One of the clauses has a part that is read as the term. -/
def Mentions (clauses : List Text) (term : Term) : Prop :=
  ∃ clause ∈ solidClauses clauses, ∃ raw ∈ split ',' clause, Term.read raw clause = .ok term

/-- Every part of every clause that is not blank can be read. -/
def Readable (clauses : List Text) : Prop :=
  ∀ clause ∈ solidClauses clauses, ∀ raw ∈ split ',' clause, ∃ term, Term.read raw clause = .ok term

/-- No name is given two limits. -/
def Consistent (clauses : List Text) : Prop :=
  ∀ a b, Mentions clauses a → Mentions clauses b → a.name = b.name →
    ∀ m n, a.limit = some m → b.limit = some n → m = n

/-- The parts of a clause, each read as a term. -/
def ReadAs (clause : Text) (terms : List Term) : Prop :=
  List.Forall₂ (fun raw term => Term.read raw clause = .ok term) (split ',' clause) terms

theorem mem_solidClauses {clause : Text} :
    clause ∈ solidClauses clauses ↔ clause ≠ [] ∧ ∃ raw ∈ clauses, trim raw = clause := by
  simp [solidClauses, and_comm]

theorem readClause_eq_ok_iff {clause : Text} {terms : List Term} :
    readClause clause = .ok terms ↔ ReadAs clause terms := mapM_eq_ok_iff

theorem mapM_readClause_eq_ok_iff {solid : List Text} {read : List (List Term)} :
    solid.mapM readClause = .ok read ↔ List.Forall₂ ReadAs solid read := by
  rw [mapM_eq_ok_iff]
  simp only [readClause_eq_ok_iff]

theorem exists_readAs_iff :
    (∃ read, List.Forall₂ ReadAs (solidClauses clauses) read) ↔ Readable clauses := by
  rw [exists_forall₂_iff]
  apply forall₂_congr
  intro clause _
  exact exists_forall₂_iff

theorem mentions_iff {read : List (List Term)}
    (h : List.Forall₂ ReadAs (solidClauses clauses) read) {term : Term} :
    Mentions clauses term ↔ term ∈ read.flatten := by
  rw [List.mem_flatten]
  constructor
  · rintro ⟨clause, hclause, raw, hraw, hterm⟩
    obtain ⟨terms, hterms, hread⟩ := exists_right_of_forall₂ h hclause
    obtain ⟨other, hother, hsame⟩ := exists_right_of_forall₂ hread hraw
    rw [hterm, Except.ok.injEq] at hsame
    exact ⟨terms, hterms, hsame ▸ hother⟩
  · rintro ⟨terms, hterms, hterm⟩
    obtain ⟨clause, hclause, hread⟩ := exists_of_forall₂ h hterms
    obtain ⟨raw, hraw, hsame⟩ := exists_of_forall₂ hread hterm
    exact ⟨clause, hclause, raw, hraw, hsame⟩

/-! ## 2. The table by name -/

theorem Limits.get?_cons (entry : Text × Nat) (limits : Limits) (name : Text) :
    Limits.get? (entry :: limits) name =
      if entry.1 = name then some entry.2 else limits.get? name := by
  unfold Limits.get?
  rw [List.find?_cons]
  by_cases h : entry.1 = name
  · simp [h]
  · have hfalse : (entry.1 == name) = false := by simpa using h
    rw [hfalse, if_neg h]

theorem Limits.get?_insert {tag : Text} (h : limits.get? tag = none) (limit : Nat) (name : Text) :
    (limits.insert tag limit).get? name =
      if tag = name then some limit else limits.get? name := by
  induction limits with
  | nil => exact Limits.get?_cons _ _ _
  | cons first rest ih =>
    rw [Limits.get?_cons] at h
    have hfirst : first.1 ≠ tag := by
      intro heq
      simp [heq] at h
    rw [if_neg hfirst] at h
    rw [Limits.insert]
    split
    · rw [Limits.get?_cons]
    · rw [Limits.get?_cons, Limits.get?_cons, ih h]
      by_cases hname : first.1 = name
      · have htag : tag ≠ name := fun heq => hfirst (hname.trans heq.symm)
        simp [hname, htag]
      · simp [hname]

theorem Limits.Ascending.get?_eq_some_iff (h : limits.Ascending) {tag : Text} {limit : Nat} :
    limits.get? tag = some limit ↔ (tag, limit) ∈ limits := by
  constructor
  · exact Limits.mem_of_get?
  intro hmem
  induction limits with
  | nil => simp at hmem
  | cons first rest ih =>
    obtain ⟨hfirst, hrest⟩ := List.pairwise_cons.mp h
    rw [Limits.get?_cons]
    rcases List.mem_cons.mp hmem with rfl | hmem
    · exact if_pos rfl
    · have hless : first.1 < tag := hfirst _ hmem
      have hne : first.1 ≠ tag := by
        rintro rfl
        exact List.lt_irrefl _ hless
      rw [if_neg hne]
      exact ih hrest hmem

/-- Two tables with the same entries are the same. -/
theorem Limits.Ascending.eq_of_mem_iff (h : limits.Ascending) (htable : table.Ascending)
    (hmem : ∀ entry, entry ∈ limits ↔ entry ∈ table) : limits = table := by
  have : Std.Antisymm (fun a b : Text × Nat => a.1 < b.1) :=
    ⟨fun _ _ hless hgreater => absurd (List.lt_trans hless hgreater) (List.lt_irrefl _)⟩
  have : Std.Irrefl (fun a b : Text × Nat => a.1 < b.1) := ⟨fun _ => List.lt_irrefl _⟩
  exact List.Pairwise.eq_of_mem_iff h htable hmem

def earliest? (terms : List Term) (name : Text) : Option Nat :=
  terms.findSome? fun term => if term.name = name then term.limit else none

theorem earliest?_cons (term : Term) (terms : List Term) (name : Text) :
    earliest? (term :: terms) name =
      (if term.name = name then term.limit else none).or (earliest? terms name) := by
  unfold earliest?
  rw [List.findSome?_cons]
  cases (if term.name = name then term.limit else none) <;> rfl

theorem earliest?_append (terms more : List Term) (name : Text) :
    earliest? (terms ++ more) name = (earliest? terms name).or (earliest? more name) :=
  List.findSome?_append

theorem get?_of_addLimit {term : Term} (h : addLimit limits term = .ok table) (name : Text) :
    table.get? name = (limits.get? name).or (if term.name = name then term.limit else none) := by
  rcases addLimit_eq_ok_iff.mp h with
    ⟨hnone, rfl⟩ | ⟨limit, hlimit, ⟨hnew, rfl⟩ | ⟨hget, rfl⟩⟩
  · simp [hnone]
  · rw [Limits.get?_insert hnew]
    by_cases hname : term.name = name
    · rw [if_pos hname, if_pos hname, ← hname, hnew, hlimit, Option.none_or]
    · rw [if_neg hname, if_neg hname, Option.or_none]
  · by_cases hname : term.name = name
    · rw [← hname, hget, Option.some_or]
    · rw [if_neg hname, Option.or_none]

/-- The table holds the earliest limits. -/
theorem get?_of_foldlM_addLimit {terms : List Term} (h : terms.foldlM addLimit limits = .ok table)
    (name : Text) : table.get? name = (limits.get? name).or (earliest? terms name) := by
  induction terms generalizing limits with
  | nil =>
    have hsame : limits = table := by simpa [pure, Except.pure] using h
    rw [hsame]
    exact Option.or_none.symm
  | cons term terms ih =>
    rw [List.foldlM_cons, bind_eq_ok_iff] at h
    obtain ⟨next, hnext, hrest⟩ := h
    rw [ih hrest, get?_of_addLimit hnext, earliest?_cons, Option.or_assoc]

/-! ## 3. Clauses that compile -/

theorem earliest?_of_foldlM_addLimit {terms : List Term}
    (h : terms.foldlM addLimit [] = .ok table) {term : Term} (hterm : term ∈ terms) {limit : Nat}
    (hlimit : term.limit = some limit) : earliest? terms term.name = some limit := by
  have hentry : (term.name, limit) ∈ table :=
    (mem_of_foldlM_addLimit h _).mpr (.inr ⟨term, hterm, rfl, hlimit⟩)
  have hascending : table.Ascending := Limits.Ascending.foldlM_addLimit List.Pairwise.nil h
  have hget := hascending.get?_eq_some_iff.mpr hentry
  rw [get?_of_foldlM_addLimit h] at hget
  exact hget

theorem agree_iff {terms : List Term} :
    Agree terms ↔ ∀ a ∈ terms, ∀ b ∈ terms, a.name = b.name →
      ∀ m n, a.limit = some m → b.limit = some n → m = n := by
  constructor
  · intro h a ha b hb hname m n hm hn
    have hsame := h a ha b hb hname (by simp [hm]) (by simp [hn])
    rw [hm, hn] at hsame
    exact Option.some.inj hsame
  · intro h a ha b hb hname hsome hother
    obtain ⟨m, hm⟩ := Option.isSome_iff_exists.mp hsome
    obtain ⟨n, hn⟩ := Option.isSome_iff_exists.mp hother
    rw [hm, hn, h a ha b hb hname m n hm hn]

theorem Agree.of_forall {terms : List Term} {f : Text → Option Nat}
    (h : ∀ term ∈ terms, ∀ limit, term.limit = some limit → f term.name = some limit) :
    Agree terms := by
  rw [agree_iff]
  intro a ha b hb hname m n hm hn
  have hfirst := h a ha m hm
  rw [hname, h b hb n hn] at hfirst
  exact (Option.some.inj hfirst).symm

/-- Terms fit into one table exactly when they agree. -/
theorem exists_foldlM_addLimit_nil_iff {terms : List Term} :
    (∃ table, terms.foldlM addLimit [] = .ok table) ↔ Agree terms := by
  constructor
  · rintro ⟨table, h⟩
    exact Agree.of_forall fun _ hterm _ hlimit => earliest?_of_foldlM_addLimit h hterm hlimit
  · exact Agree.exists_foldlM_addLimit

theorem mem_limits_of_compile (h : compile clauses = .ok expr) (name : Text) (limit : Nat) :
    (name, limit) ∈ expr.limits ↔
      ∃ term, Mentions clauses term ∧ term.name = name ∧ term.limit = some limit := by
  obtain ⟨hread, hlimits⟩ := compile_eq_ok_iff.mp h
  rw [mem_of_foldlM_addLimit hlimits]
  simp only [List.not_mem_nil, false_or, mentions_iff (mapM_readClause_eq_ok_iff.mp hread)]
  apply exists_congr
  intro term
  rw [eq_comm (a := name)]

theorem consistent_iff {read : List (List Term)}
    (h : List.Forall₂ ReadAs (solidClauses clauses) read) :
    Consistent clauses ↔ Agree read.flatten := by
  rw [agree_iff]
  simp only [Consistent, mentions_iff h]
  constructor
  · intro hconsistent a ha b hb
    exact hconsistent a b ha hb
  · intro hagree a b ha hb
    exact hagree a ha b hb

/-- Clauses compile when each of them can be read and they agree on the limits. -/
theorem exists_compile_iff :
    (∃ expr, compile clauses = .ok expr) ↔ Readable clauses ∧ Consistent clauses := by
  constructor
  · rintro ⟨expr, h⟩
    obtain ⟨hread, hlimits⟩ := compile_eq_ok_iff.mp h
    rw [mapM_readClause_eq_ok_iff] at hread
    refine ⟨exists_readAs_iff.mp ⟨_, hread⟩, (consistent_iff hread).mpr ?_⟩
    exact exists_foldlM_addLimit_nil_iff.mp ⟨_, hlimits⟩
  · rintro ⟨hreadable, hconsistent⟩
    obtain ⟨read, hread⟩ := exists_readAs_iff.mpr hreadable
    obtain ⟨table, htable⟩ := ((consistent_iff hread).mp hconsistent).exists_foldlM_addLimit
    refine ⟨⟨read, table⟩, compile_eq_ok_iff.mpr ⟨?_, htable⟩⟩
    exact mapM_readClause_eq_ok_iff.mpr hread

/-! ## 4. The first flaw -/

/-- Terms behind others fit into the table of these when none of their limits
    differs from the earliest one.  What stands behind the terms does not matter. -/
theorem exists_foldlM_addLimit_iff {done terms : List Term}
    (h : done.foldlM addLimit [] = .ok limits) (more : List Term) :
    (∃ table, terms.foldlM addLimit limits = .ok table) ↔
      ∀ term ∈ terms, ∀ limit, term.limit = some limit →
        earliest? (done ++ (terms ++ more)) term.name = some limit := by
  have hwhole : ∀ terms : List Term,
      (∃ table, terms.foldlM addLimit limits = .ok table) ↔
        ∃ table, (done ++ terms).foldlM addLimit [] = .ok table := by
    intro terms
    simp [List.foldlM_append, bind_eq_ok_iff, h]
  rw [hwhole]
  constructor
  · rintro ⟨table, htable⟩ term hterm limit hlimit
    have hearliest := earliest?_of_foldlM_addLimit htable (List.mem_append_right _ hterm) hlimit
    rw [← List.append_assoc, earliest?_append, hearliest, Option.some_or]
  · intro hfits
    apply Agree.exists_foldlM_addLimit
    apply Agree.of_forall (f := earliest? (done ++ (terms ++ more)))
    intro term hterm limit hlimit
    rcases List.mem_append.mp hterm with hterm | hterm
    · rw [earliest?_append, earliest?_of_foldlM_addLimit h hterm hlimit, Option.some_or]
    · exact hfits term hterm limit hlimit

/-- What is wrong with a clause, given the terms of the clauses before it. -/
inductive ClauseFlaw (done : List Term) (clause : Text) : Flaw → Prop
  /-- Its first part that cannot be read. -/
  | unreadable {before after : List Text} {raw : Text} {flaw : Flaw}
      (parts : split ',' clause = before ++ raw :: after)
      (readable : ∀ other ∈ before, ∃ term, Term.read other clause = .ok term)
      (blamed : Term.read raw clause = .error flaw) : ClauseFlaw done clause flaw
  /-- All of it can be read, and this is its first term whose limit is not the
      earliest one given to its name. -/
  | conflict {before after : List Term} {term : Term} {existing requested : Nat}
      (terms : ReadAs clause (before ++ term :: after))
      (fits : ∀ other ∈ before, ∀ limit, other.limit = some limit →
        earliest? (done ++ (before ++ term :: after)) other.name = some limit)
      (earliest : earliest? (done ++ (before ++ term :: after)) term.name = some existing)
      (limit : term.limit = some requested) (differs : existing ≠ requested) :
      ClauseFlaw done clause (.conflictingLimit term.name existing requested)

theorem readClause_eq_error_iff {clause : Text} {flaw : Flaw} :
    readClause clause = .error flaw ↔
      ∃ before raw after, split ',' clause = before ++ raw :: after ∧
        (∀ other ∈ before, ∃ term, Term.read other clause = .ok term) ∧
        Term.read raw clause = .error flaw :=
  mapM_eq_error_iff

/-- The first term that does not fit is the first one whose limit differs from the
    earliest limit of its name. -/
theorem foldlM_addLimit_eq_error_iff {done terms : List Term} {flaw : Flaw}
    (h : done.foldlM addLimit [] = .ok limits) :
    terms.foldlM addLimit limits = .error flaw ↔
      ∃ before term after existing requested, terms = before ++ term :: after ∧
        (∀ other ∈ before, ∀ limit, other.limit = some limit →
          earliest? (done ++ terms) other.name = some limit) ∧
        earliest? (done ++ terms) term.name = some existing ∧ term.limit = some requested ∧
        existing ≠ requested ∧ flaw = .conflictingLimit term.name existing requested := by
  have htable : ∀ {before : List Term} {table : Limits} (term : Term) (after : List Term),
      before.foldlM addLimit limits = .ok table →
      earliest? (done ++ (before ++ term :: after)) term.name =
        (table.get? term.name).or (earliest? (term :: after) term.name) := by
    intro before table term after hbefore
    rw [get?_of_foldlM_addLimit hbefore, get?_of_foldlM_addLimit h, earliest?_append,
      earliest?_append, Option.or_assoc]
    rfl
  rw [foldlM_eq_error_iff]
  constructor
  · rintro ⟨before, term, after, table, rfl, hbefore, hterm⟩
    obtain ⟨existing, requested, hget, hlimit, hne, rfl⟩ := addLimit_eq_error_iff.mp hterm
    refine ⟨before, term, after, existing, requested, rfl, ?_, ?_, hlimit, hne, rfl⟩
    · exact (exists_foldlM_addLimit_iff h _).mp ⟨table, hbefore⟩
    · rw [htable term after hbefore, hget, Option.some_or]
  · rintro ⟨before, term, after, existing, requested, rfl, hfits, hearliest, hlimit, hne, rfl⟩
    obtain ⟨table, hbefore⟩ := (exists_foldlM_addLimit_iff h _).mpr hfits
    refine ⟨before, term, after, table, rfl, hbefore, ?_⟩
    rw [htable term after hbefore, earliest?_cons, if_pos rfl, hlimit, Option.some_or] at hearliest
    refine addLimit_eq_error_iff.mpr ⟨existing, requested, ?_, hlimit, hne, rfl⟩
    cases hget : table.get? term.name with
    | none =>
      -- Then the limit of the term itself would be the earliest.
      rw [hget, Option.none_or, Option.some.injEq] at hearliest
      exact absurd hearliest.symm hne
    | some found => rwa [hget, Option.some_or] at hearliest

theorem addClause_eq_error_iff {done : List Term} {clause : Text} {flaw : Flaw}
    (h : done.foldlM addLimit [] = .ok expr.limits) :
    expr.addClause clause = .error flaw ↔ trim clause ≠ [] ∧ ClauseFlaw done (trim clause) flaw := by
  by_cases hblank : trim clause = []
  · rw [addClause_of_blank (by simp [hblank])]
    simp [hblank]
  have hparts : expr.addClause clause = .error flaw ↔ readClause (trim clause) = .error flaw ∨
      ∃ terms, readClause (trim clause) = .ok terms ∧
        terms.foldlM addLimit expr.limits = .error flaw := by
    unfold addClause
    rw [if_neg (by simpa using hblank)]
    simp only [bind_eq_error_iff, pure, Except.pure, reduceCtorEq, and_false, exists_false, or_false]
  rw [hparts, readClause_eq_error_iff, and_iff_right hblank]
  constructor
  · rintro (⟨before, raw, after, hsplit, hreadable, hblamed⟩ | ⟨terms, hread, hfails⟩)
    · exact .unreadable hsplit hreadable hblamed
    · obtain ⟨before, term, after, existing, requested, rfl, hfits, hearliest, hlimit, hne, rfl⟩ :=
        (foldlM_addLimit_eq_error_iff h).mp hfails
      exact .conflict (readClause_eq_ok_iff.mp hread) hfits hearliest hlimit hne
  · rintro (⟨hsplit, hreadable, hblamed⟩ | ⟨hread, hfits, hearliest, hlimit, hne⟩)
    · exact .inl ⟨_, _, _, hsplit, hreadable, hblamed⟩
    · refine .inr ⟨_, readClause_eq_ok_iff.mpr hread, (foldlM_addLimit_eq_error_iff h).mpr ?_⟩
      exact ⟨_, _, _, _, _, rfl, hfits, hearliest, hlimit, hne, rfl⟩

/-- Compiling fails with the flaw of the first clause that cannot be added. -/
theorem compile_eq_error_iff {flaw : Flaw} :
    compile clauses = .error flaw ↔
      ∃ before clause after expr, clauses = before ++ clause :: after ∧
        compile before = .ok expr ∧ trim clause ≠ [] ∧
        ClauseFlaw expr.clauses.flatten (trim clause) flaw := by
  unfold compile
  rw [foldlM_eq_error_iff]
  constructor
  · rintro ⟨before, clause, after, expr, hclauses, hbefore, hclause⟩
    have hlimits := (compile_eq_ok_iff.mp hbefore).2
    exact ⟨before, clause, after, expr, hclauses, hbefore, (addClause_eq_error_iff hlimits).mp hclause⟩
  · rintro ⟨before, clause, after, expr, hclauses, hbefore, hclause⟩
    have hlimits := (compile_eq_ok_iff.mp hbefore).2
    exact ⟨before, clause, after, expr, hclauses, hbefore, (addClause_eq_error_iff hlimits).mpr hclause⟩

/-! ## 5. The outcome -/

/-- Clauses compile exactly when all of their terms can be read and no name has two
    limits.  What they compile to is one entry for each clause that is not blank,
    and a table of the limits that the terms have.  If they do not compile, the
    first clause that cannot be added says what is wrong. -/
theorem compile_outcome (clauses : List Text) :
    ((∃ expr, compile clauses = .ok expr) ↔ Readable clauses ∧ Consistent clauses) ∧
    (∀ expr, compile clauses = .ok expr →
      expr.limits.Ascending ∧
      (∀ name limit, (name, limit) ∈ expr.limits ↔
        ∃ term, Mentions clauses term ∧ term.name = name ∧ term.limit = some limit) ∧
      List.Forall₂ ReadAs (solidClauses clauses) expr.clauses) ∧
    ∀ flaw, compile clauses = .error flaw ↔
      ∃ before clause after expr, clauses = before ++ clause :: after ∧
        compile before = .ok expr ∧ trim clause ≠ [] ∧
        ClauseFlaw expr.clauses.flatten (trim clause) flaw := by
  refine ⟨exists_compile_iff, ?_, fun flaw => compile_eq_error_iff⟩
  intro expr h
  refine ⟨ascending_of_compile h, mem_limits_of_compile h, ?_⟩
  exact mapM_readClause_eq_ok_iff.mp (compile_eq_ok_iff.mp h).1

/-- For instance a part that cannot be read behind a limit that does not fit, and
    two limits that do not fit, the first of which is blamed. -/
theorem compile_outcome_flaws :
    compile ["@a:1".toList, " ".toList, "@a:2,@b:x".toList] =
        .error (.invalidLimit "@b:x".toList "x".toList) ∧
      compile ["@a:1,@b".toList, "-@b:3, a:01 ,~b:4,@a:5".toList] =
        .error (.conflictingLimit "b".toList 3 4) := by
  constructor
  · refine ((compile_outcome _).2.2 _).mpr
      ⟨["@a:1".toList, " ".toList], _, [], _, rfl, rfl, by decide, ?_⟩
    have hparts : split ',' (trim "@a:2,@b:x".toList) = ["@a:2".toList] ++ "@b:x".toList :: [] :=
      rfl
    exact .unreadable hparts (List.forall_mem_singleton.mpr ⟨_, rfl⟩) rfl
  · refine ((compile_outcome _).2.2 _).mpr ⟨["@a:1,@b".toList], _, [], _, rfl, rfl, by decide, ?_⟩
    have hterms : ReadAs (trim "-@b:3, a:01 ,~b:4,@a:5".toList)
        ([⟨"b".toList, true, some 3⟩, ⟨"a".toList, false, some 1⟩] ++
          ⟨"b".toList, true, some 4⟩ :: [⟨"a".toList, false, some 5⟩]) :=
      readClause_eq_ok_iff.mp rfl
    refine .conflict hterms ?_ rfl rfl (by decide)
    intro other hother limit hlimit
    rcases List.mem_pair.mp hother with rfl | rfl
    · cases hlimit
      rfl
    · cases hlimit
      rfl

/-! ## 6. Order and repetition -/

section Alike

variable {others : List Text} {tags more : List Text}

theorem mem_solidClauses_congr (h : ∀ clause, clause ∈ clauses ↔ clause ∈ others) (clause : Text) :
    clause ∈ solidClauses clauses ↔ clause ∈ solidClauses others := by
  simp only [mem_solidClauses, h]

theorem mentions_congr (h : ∀ clause, clause ∈ clauses ↔ clause ∈ others) (term : Term) :
    Mentions clauses term ↔ Mentions others term := by
  simp only [Mentions, mem_solidClauses_congr h]

theorem exists_compile_congr (h : ∀ clause, clause ∈ clauses ↔ clause ∈ others) :
    (∃ expr, compile clauses = .ok expr) ↔ ∃ expr, compile others = .ok expr := by
  rw [exists_compile_iff, exists_compile_iff]
  simp only [Readable, Consistent, mem_solidClauses_congr h, mentions_congr h]

theorem Term.holds_congr (h : ∀ tag, tag ∈ tags ↔ tag ∈ more) (term : Term) :
    term.holds tags = term.holds more := by
  have hname : tags.contains term.name = more.contains term.name := by
    rw [Bool.eq_iff_iff, List.contains_iff_mem, List.contains_iff_mem]
    exact h term.name
  rw [Term.holds, Term.holds, hname]

/-- Tags satisfy a compiled expression when they satisfy a term of every clause. -/
theorem holds_iff_of_compile (h : compile clauses = .ok expr) (tags : List Text) :
    expr.holds tags = true ↔
      ∀ clause ∈ solidClauses clauses, ∃ raw ∈ split ',' clause, ∃ term,
        Term.read raw clause = .ok term ∧ term.holds tags = true := by
  have hread := mapM_readClause_eq_ok_iff.mp (compile_eq_ok_iff.mp h).1
  unfold holds
  rw [List.all_eq_true]
  simp only [List.any_eq_true]
  constructor
  · intro hall clause hclause
    obtain ⟨terms, hterms, hclauseRead⟩ := exists_right_of_forall₂ hread hclause
    obtain ⟨term, hterm, hholds⟩ := hall terms hterms
    obtain ⟨raw, hraw, hsame⟩ := exists_of_forall₂ hclauseRead hterm
    exact ⟨raw, hraw, term, hsame, hholds⟩
  · intro hall terms hterms
    obtain ⟨clause, hclause, hclauseRead⟩ := exists_of_forall₂ hread hterms
    obtain ⟨raw, hraw, term, hterm, hholds⟩ := hall clause hclause
    obtain ⟨other, hother, hsame⟩ := exists_right_of_forall₂ hclauseRead hraw
    rw [hterm, Except.ok.injEq] at hsame
    exact ⟨other, hother, hsame ▸ hholds⟩

/-- Neither the order of clauses or tags nor repetition among them changes whether
    clauses compile, the limits that they set, or the answer. -/
theorem compile_alike_of_mem_iff (hclauses : ∀ clause, clause ∈ clauses ↔ clause ∈ others)
    (htags : ∀ tag, tag ∈ tags ↔ tag ∈ more) :
    ((∃ expr, compile clauses = .ok expr) ↔ ∃ other, compile others = .ok other) ∧
      ∀ expr other, compile clauses = .ok expr → compile others = .ok other →
        expr.limits = other.limits ∧ expr.holds tags = other.holds more := by
  refine ⟨exists_compile_congr hclauses, ?_⟩
  intro expr other hexpr hother
  constructor
  · apply (ascending_of_compile hexpr).eq_of_mem_iff (ascending_of_compile hother)
    rintro ⟨name, limit⟩
    rw [mem_limits_of_compile hexpr, mem_limits_of_compile hother]
    simp only [mentions_congr hclauses]
  · rw [Bool.eq_iff_iff, holds_iff_of_compile hexpr, holds_iff_of_compile hother]
    simp only [mem_solidClauses_congr hclauses, Term.holds_congr htags]

/-- For instance two expressions that differ. -/
theorem compile_alike_of_mem_iff_rotated :
    ∃ expr other, compile ["@b:2,@a:1".toList, "-@c".toList] = .ok expr ∧
      compile ["-@c".toList, "@b:2,@a:1".toList, "-@c".toList] = .ok other ∧ expr ≠ other ∧
      expr.limits = other.limits ∧
      expr.holds ["d".toList, "a".toList] = other.holds ["a".toList, "d".toList, "a".toList] := by
  obtain ⟨expr, other, hexpr, hother, hne⟩ : ∃ expr other,
      compile ["@b:2,@a:1".toList, "-@c".toList] = .ok expr ∧
        compile ["-@c".toList, "@b:2,@a:1".toList, "-@c".toList] = .ok other ∧ expr ≠ other :=
    ⟨_, _, rfl, rfl, by decide⟩
  have hclauses : ∀ clause, clause ∈ ["@b:2,@a:1".toList, "-@c".toList] ↔
      clause ∈ ["-@c".toList, "@b:2,@a:1".toList, "-@c".toList] := by
    intro clause
    simp only [List.mem_cons, List.not_mem_nil, or_false]
    tauto
  have htags : ∀ tag, tag ∈ ["d".toList, "a".toList] ↔
      tag ∈ ["a".toList, "d".toList, "a".toList] := by
    intro tag
    simp only [List.mem_cons, List.not_mem_nil, or_false]
    tauto
  obtain ⟨-, hsame⟩ := compile_alike_of_mem_iff hclauses htags
  exact ⟨expr, other, hexpr, hother, hne, hsame expr other hexpr hother⟩

end Alike

/-! ## 7. More clauses -/

section More

variable {others : List Text} {first second : TagExpr}

theorem mem_solidClauses_of_subset (h : clauses ⊆ others) {clause : Text}
    (hclause : clause ∈ solidClauses clauses) : clause ∈ solidClauses others := by
  obtain ⟨hne, raw, hraw, htrim⟩ := mem_solidClauses.mp hclause
  exact mem_solidClauses.mpr ⟨hne, raw, h hraw, htrim⟩

/-- Clauses taken from others that compile do compile. -/
theorem exists_compile_of_subset (hsubset : clauses ⊆ others) (h : compile others = .ok expr) :
    ∃ first, compile clauses = .ok first := by
  obtain ⟨hreadable, hconsistent⟩ := exists_compile_iff.mp ⟨expr, h⟩
  have hmentions : ∀ {term : Term}, Mentions clauses term → Mentions others term := by
    rintro term ⟨clause, hclause, hread⟩
    exact ⟨clause, mem_solidClauses_of_subset hsubset hclause, hread⟩
  refine exists_compile_iff.mpr ⟨?_, ?_⟩
  · intro clause hclause
    exact hreadable clause (mem_solidClauses_of_subset hsubset hclause)
  · intro a b ha hb
    exact hconsistent a b (hmentions ha) (hmentions hb)

/-- Tags satisfy clauses and others when they satisfy the ones and the others. -/
theorem holds_append (h : compile (clauses ++ others) = .ok expr)
    (hfirst : compile clauses = .ok first) (hsecond : compile others = .ok second)
    (tags : List Text) : expr.holds tags = (first.holds tags && second.holds tags) := by
  have hsolid : solidClauses (clauses ++ others) =
      solidClauses clauses ++ solidClauses others := by simp [solidClauses]
  rw [Bool.eq_iff_iff, Bool.and_eq_true, holds_iff_of_compile h, holds_iff_of_compile hfirst,
    holds_iff_of_compile hsecond, hsolid, List.forall_mem_append]

end More

end TagExpr

end Gherkin
