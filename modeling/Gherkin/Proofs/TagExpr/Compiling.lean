/-
  Gherkin/Proofs/TagExpr/Compiling.lean
  =====================================
  **Compiling is reading and then adding up.**

  Compiling takes one clause after the other: it reads the terms of a clause and
  enters their limits into the table before it looks at the next clause.  When
  nothing fails the two activities can be told apart.  First all clauses that
  are not blank are read, and then the limits of all their terms are entered
  (`compile_eq_ok_iff`).

  The table then holds the limits of the terms and nothing else
  (`mem_of_foldlM_addLimit`), in ascending order of their tags
  (`ascending_of_compile`), and it can be filled whenever the terms agree on their
  limits (`Agree.exists_foldlM_addLimit`).
-/
import Gherkin.Proofs.Answers
import Gherkin.TagExpr.Basic

namespace Gherkin

open Text

namespace TagExpr

/-! ## 1. Reading clauses -/

/-- The clauses that count: trimmed, and not blank. -/
def solidClauses (clauses : List Text) : List Text :=
  (clauses.map trim).filter (!·.isEmpty)

theorem solidClauses_cons (clause : Text) (clauses : List Text) :
    solidClauses (clause :: clauses) =
      if (trim clause).isEmpty then solidClauses clauses
      else trim clause :: solidClauses clauses := by
  unfold solidClauses
  rw [List.map_cons, List.filter_cons]
  cases (trim clause).isEmpty <;> rfl

theorem addClause_of_blank {clause : Text} (h : (trim clause).isEmpty = true) (expr : TagExpr) :
    expr.addClause clause = .ok expr := by
  unfold addClause
  rw [if_pos h]

theorem addClause_eq_ok_iff {expr next : TagExpr} {clause : Text}
    (h : (trim clause).isEmpty = false) :
    expr.addClause clause = .ok next ↔
      ∃ terms, readClause (trim clause) = .ok terms ∧
        terms.foldlM addLimit expr.limits = .ok next.limits ∧
        next.clauses = expr.clauses ++ [terms] := by
  unfold addClause
  rw [if_neg (Bool.eq_false_iff.mp h)]
  simp only [bind_eq_ok_iff, pure, Except.pure, Except.ok.injEq]
  constructor
  · rintro ⟨terms, hread, limits, hlimits, rfl⟩
    exact ⟨terms, hread, hlimits, rfl⟩
  · rintro ⟨terms, hread, hlimits, hclauses⟩
    exact ⟨terms, hread, next.limits, hlimits, by rw [← hclauses]⟩

/-- Clause after clause, or all clauses and then all limits. -/
theorem foldlM_addClause_eq_ok_iff {clauses : List Text} {expr result : TagExpr} :
    clauses.foldlM addClause expr = .ok result ↔
      ∃ read, (solidClauses clauses).mapM readClause = .ok read ∧
        read.flatten.foldlM addLimit expr.limits = .ok result.limits ∧
        result.clauses = expr.clauses ++ read := by
  induction clauses generalizing expr with
  | nil =>
    obtain ⟨clauses, limits⟩ := expr
    obtain ⟨clauses', limits'⟩ := result
    simp [solidClauses, pure, Except.pure, eq_comm, and_comm]
  | cons clause clauses ih =>
    rw [List.foldlM_cons, solidClauses_cons]
    by_cases hblank : (trim clause).isEmpty = true
    · rw [addClause_of_blank hblank, if_pos hblank]
      exact ih
    rw [Bool.not_eq_true] at hblank
    rw [hblank, bind_eq_ok_iff]
    simp only [addClause_eq_ok_iff hblank, mapM_eq_ok_iff, ih]
    constructor
    · rintro ⟨next, ⟨terms, hterms, hlimits, hnext⟩, read, hread, htable, hresult⟩
      refine ⟨terms :: read, .cons hterms hread, ?_, ?_⟩
      · rw [List.flatten_cons, List.foldlM_append, bind_eq_ok_iff]
        exact ⟨next.limits, hlimits, htable⟩
      · rw [hresult, hnext, List.append_assoc, List.singleton_append]
    · rintro ⟨_, (_ | ⟨hterms, hread⟩), htable, hresult⟩
      rename_i terms read
      rw [List.flatten_cons, List.foldlM_append, bind_eq_ok_iff] at htable
      obtain ⟨limits, hlimits, htable⟩ := htable
      refine ⟨⟨expr.clauses ++ [terms], limits⟩, ⟨terms, hterms, hlimits, rfl⟩, read, hread,
        htable, ?_⟩
      rw [hresult, List.append_assoc, List.singleton_append]

/-- What compiles is read clause by clause, and all its limits fit into one
    table. -/
theorem compile_eq_ok_iff {clauses : List Text} {expr : TagExpr} :
    compile clauses = .ok expr ↔
      (solidClauses clauses).mapM readClause = .ok expr.clauses ∧
        expr.clauses.flatten.foldlM addLimit [] = .ok expr.limits := by
  unfold compile
  rw [foldlM_addClause_eq_ok_iff]
  constructor
  · rintro ⟨read, hread, hlimits, hclauses⟩
    have hclauses : expr.clauses = read := hclauses
    rw [hclauses]
    exact ⟨hread, hlimits⟩
  · rintro ⟨hread, hlimits⟩
    exact ⟨expr.clauses, hread, hlimits, rfl⟩

/-- Every clause of a compiled expression has been read from one of the clauses
    that count. -/
theorem exists_of_compile {clauses : List Text} {expr : TagExpr} (h : compile clauses = .ok expr)
    {terms : List Term} (hterms : terms ∈ expr.clauses) :
    ∃ clause ∈ clauses, List.Forall₂ (fun raw term => Term.read raw (trim clause) = .ok term)
      (split ',' (trim clause)) terms := by
  have hread := mapM_eq_ok_iff.mp (compile_eq_ok_iff.mp h).1
  obtain ⟨solid, hsolid, hclause⟩ := exists_of_forall₂ hread hterms
  obtain ⟨clause, hmem, rfl⟩ := List.mem_map.mp (List.mem_of_mem_filter hsolid)
  exact ⟨clause, hmem, mapM_eq_ok_iff.mp hclause⟩

/-! ## 2. The table of limits -/

theorem Limits.mem_insert {limits : Limits} {tag : Text} {limit : Nat} {entry : Text × Nat} :
    entry ∈ limits.insert tag limit ↔ entry = (tag, limit) ∨ entry ∈ limits := by
  induction limits with
  | nil => simp [Limits.insert]
  | cons first rest ih =>
    unfold Limits.insert
    split
    · exact List.mem_cons
    · rw [List.mem_cons, List.mem_cons, ih]
      exact or_left_comm

theorem Limits.mem_of_get? {limits : Limits} {tag : Text} {limit : Nat}
    (h : limits.get? tag = some limit) : (tag, limit) ∈ limits := by
  obtain ⟨entry, hfind, rfl⟩ := Option.map_eq_some_iff.mp h
  have htag : entry.1 = tag := by simpa using List.find?_some hfind
  rw [← htag]
  exact List.mem_of_find?_eq_some hfind

theorem Limits.ne_of_get?_eq_none {limits : Limits} {tag : Text} (h : limits.get? tag = none)
    {entry : Text × Nat} (hentry : entry ∈ limits) : entry.1 ≠ tag := by
  have hfind := Option.map_eq_none_iff.mp h
  simpa using List.find?_eq_none.mp hfind entry hentry

/-- The entries are in ascending order of their tags, and so no tag has two. -/
def Limits.Ascending (limits : Limits) : Prop := limits.Pairwise fun a b => a.1 < b.1

theorem Limits.Ascending.insert {limits : Limits} {tag : Text} (h : limits.Ascending)
    (hnew : ∀ entry ∈ limits, entry.1 ≠ tag) (limit : Nat) :
    (limits.insert tag limit).Ascending := by
  induction limits with
  | nil => exact List.pairwise_singleton _ _
  | cons first rest ih =>
    obtain ⟨hfirst, hrest⟩ := List.pairwise_cons.mp h
    unfold Limits.insert
    split
    · rename_i hbefore
      refine List.pairwise_cons.mpr ⟨?_, h⟩
      intro entry hentry
      rcases List.mem_cons.mp hentry with rfl | hentry
      · exact hbefore
      · exact List.lt_trans hbefore (hfirst entry hentry)
    · rename_i hbehind
      have hless : first.1 < tag := by
        by_contra hother
        have hsame := List.le_antisymm (List.not_lt.mp hbehind) (List.not_lt.mp hother)
        exact hnew first List.mem_cons_self hsame
      refine List.pairwise_cons.mpr
        ⟨?_, ih hrest fun entry hentry => hnew entry (List.mem_cons_of_mem _ hentry)⟩
      intro entry hentry
      rcases Limits.mem_insert.mp hentry with rfl | hentry
      · exact hless
      · exact hfirst entry hentry

/-- A term adds its limit, unless it has none or the limit is there already. -/
theorem addLimit_eq_ok_iff {limits next : Limits} {term : Term} :
    addLimit limits term = .ok next ↔
      (term.limit = none ∧ next = limits) ∨
        ∃ limit, term.limit = some limit ∧
          (limits.get? term.name = none ∧ next = limits.insert term.name limit ∨
            limits.get? term.name = some limit ∧ next = limits) := by
  unfold addLimit
  cases hlimit : term.limit with
  | none => simp [eq_comm]
  | some limit =>
    cases hget : limits.get? term.name with
    | none => simp [eq_comm]
    | some existing =>
      by_cases hsame : existing = limit
      · simp [hsame, eq_comm]
      · simp [hsame]

theorem addLimit_eq_error_iff {limits : Limits} {term : Term} {flaw : Flaw} :
    addLimit limits term = .error flaw ↔
      ∃ existing requested, limits.get? term.name = some existing ∧
        term.limit = some requested ∧ existing ≠ requested ∧
        flaw = .conflictingLimit term.name existing requested := by
  unfold addLimit
  cases hlimit : term.limit with
  | none => simp
  | some requested =>
    cases hget : limits.get? term.name with
    | none => simp
    | some existing =>
      by_cases hsame : existing = requested
      · simp [hsame]
      · simp only [if_neg hsame, Except.error.injEq]
        constructor
        · rintro rfl
          exact ⟨existing, requested, rfl, rfl, hsame, rfl⟩
        · rintro ⟨_, _, ⟨⟩, ⟨⟩, -, rfl⟩
          rfl

theorem Limits.Ascending.addLimit {limits next : Limits} {term : Term} (h : limits.Ascending)
    (hnext : addLimit limits term = .ok next) : next.Ascending := by
  rcases addLimit_eq_ok_iff.mp hnext with ⟨-, rfl⟩ | ⟨limit, -, ⟨hnone, rfl⟩ | ⟨-, rfl⟩⟩
  · exact h
  · exact h.insert (fun entry => Limits.ne_of_get?_eq_none hnone) limit
  · exact h

theorem Limits.Ascending.foldlM_addLimit {terms : List Term} {limits table : Limits}
    (h : limits.Ascending) (htable : terms.foldlM TagExpr.addLimit limits = .ok table) :
    table.Ascending := by
  induction terms generalizing limits with
  | nil =>
    have hsame : limits = table := by simpa [pure, Except.pure] using htable
    exact hsame ▸ h
  | cons term terms ih =>
    rw [List.foldlM_cons, bind_eq_ok_iff] at htable
    obtain ⟨next, hnext, hrest⟩ := htable
    exact ih (h.addLimit hnext) hrest

/-- The limits of a compiled expression are in ascending order. -/
theorem ascending_of_compile {clauses : List Text} {expr : TagExpr}
    (h : compile clauses = .ok expr) : expr.limits.Ascending :=
  Limits.Ascending.foldlM_addLimit List.Pairwise.nil (compile_eq_ok_iff.mp h).2

/-- A term enters its own limit. -/
theorem mem_of_addLimit {limits next : Limits} {term : Term} (h : addLimit limits term = .ok next)
    (entry : Text × Nat) :
    entry ∈ next ↔ entry ∈ limits ∨ entry.1 = term.name ∧ term.limit = some entry.2 := by
  obtain ⟨tag, number⟩ := entry
  rcases addLimit_eq_ok_iff.mp h with
    ⟨hnone, rfl⟩ | ⟨limit, hlimit, ⟨-, rfl⟩ | ⟨hget, rfl⟩⟩
  · simp [hnone]
  · rw [Limits.mem_insert, hlimit, Option.some.injEq, Prod.mk.injEq, or_comm, eq_comm (a := limit)]
  · -- The entry is there already.
    constructor
    · exact Or.inl
    · rintro (hmem | ⟨rfl, hnumber⟩)
      · exact hmem
      · rw [hlimit] at hnumber
        cases hnumber
        exact Limits.mem_of_get? hget

theorem mem_of_foldlM_addLimit {terms : List Term} {limits table : Limits}
    (h : terms.foldlM addLimit limits = .ok table) (entry : Text × Nat) :
    entry ∈ table ↔
      entry ∈ limits ∨ ∃ term ∈ terms, entry.1 = term.name ∧ term.limit = some entry.2 := by
  induction terms generalizing limits with
  | nil =>
    have hsame : limits = table := by simpa [pure, Except.pure] using h
    simp [hsame]
  | cons term terms ih =>
    rw [List.foldlM_cons, bind_eq_ok_iff] at h
    obtain ⟨next, hnext, hrest⟩ := h
    rw [ih hrest, mem_of_addLimit hnext, List.exists_mem_cons_iff, or_assoc]

/-- No name has two limits. -/
def Agree (terms : List Term) : Prop :=
  ∀ a ∈ terms, ∀ b ∈ terms, a.name = b.name →
    a.limit.isSome = true → b.limit.isSome = true → a.limit = b.limit

/-- Terms that agree fit into one table.  The table so far holds the limits of
    the terms that went before, so an entry for the next one is its own. -/
theorem Agree.exists_foldlM_addLimit {terms : List Term} (h : Agree terms) :
    ∃ table, terms.foldlM addLimit [] = .ok table := by
  have hfrom : ∀ (rest done : List Term) (limits : Limits), Agree (done ++ rest) →
      done.foldlM addLimit [] = .ok limits → ∃ table, rest.foldlM addLimit limits = .ok table := by
    intro rest
    induction rest with
    | nil => exact fun _ limits _ _ => ⟨limits, rfl⟩
    | cons term rest ih =>
      intro done limits hagree hdone
      have hnext : ∃ next, addLimit limits term = .ok next := by
        simp only [addLimit_eq_ok_iff]
        cases hlimit : term.limit with
        | none => exact ⟨_, .inl ⟨rfl, rfl⟩⟩
        | some limit =>
          cases hget : limits.get? term.name with
          | none => exact ⟨_, .inr ⟨limit, rfl, .inl ⟨rfl, rfl⟩⟩⟩
          | some existing =>
            have hentry := (mem_of_foldlM_addLimit hdone _).mp (Limits.mem_of_get? hget)
            obtain ⟨other, hother, hname, hothers⟩ := hentry.resolve_left List.not_mem_nil
            have hsame : other.limit = term.limit := hagree other (List.mem_append_left _ hother)
              term (List.mem_append_right _ List.mem_cons_self) hname.symm
              (by simp [hothers]) (by simp [hlimit])
            rw [hothers, hlimit] at hsame
            exact ⟨_, .inr ⟨limit, rfl, .inr ⟨hsame, rfl⟩⟩⟩
      obtain ⟨next, hnext⟩ := hnext
      rw [List.append_cons] at hagree
      obtain ⟨table, htable⟩ := ih (done ++ [term]) next hagree (by
        rw [List.foldlM_append, bind_eq_ok_iff]
        exact ⟨limits, hdone, by simpa using hnext⟩)
      exact ⟨table, by rw [List.foldlM_cons, bind_eq_ok_iff]; exact ⟨next, hnext, htable⟩⟩
  exact hfrom terms [] [] h rfl

end TagExpr

end Gherkin
