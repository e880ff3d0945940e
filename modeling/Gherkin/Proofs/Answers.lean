/-
  Gherkin/Proofs/Answers.lean
  ===========================
  **Lists of questions that may fail.**

  Clauses are compiled and lines are read one after the other, and the first one
  that fails ends the matter.  A list of questions is answered when each of them
  is (`mapM_eq_ok_iff`), and fails with the first one that does
  (`mapM_eq_error_iff`).  Where each step goes on from what the steps before it
  have reached, those steps must succeed first (`foldlM_eq_error_iff`).
-/
import Mathlib.Data.List.Forall2

namespace Gherkin

variable {α β σ ε : Type}

/-! ## 1. All of them -/

theorem bind_eq_ok_iff {answer : Except ε α} {f : α → Except ε β} {b : β} :
    answer >>= f = .ok b ↔ ∃ a, answer = .ok a ∧ f a = .ok b := by
  cases answer <;> simp [bind, Except.bind]

theorem bind_eq_error_iff {answer : Except ε α} {f : α → Except ε β} {e : ε} :
    answer >>= f = .error e ↔ answer = .error e ∨ ∃ a, answer = .ok a ∧ f a = .error e := by
  cases answer <;> simp [bind, Except.bind]

theorem map_eq_error_iff {f : α → β} {answer : Except ε α} {e : ε} :
    answer.map f = .error e ↔ answer = .error e := by
  cases answer <;> simp [Except.map]

theorem mapError_eq_ok_iff {f : ε → σ} {answer : Except ε α} {a : α} :
    answer.mapError f = .ok a ↔ answer = .ok a := by
  cases answer <;> simp [Except.mapError]

theorem mapError_eq_error_iff {f : ε → σ} {answer : Except ε α} {e : σ} :
    answer.mapError f = .error e ↔ ∃ d, answer = .error d ∧ f d = e := by
  cases answer <;> simp [Except.mapError]

theorem mapM_eq_ok_iff {f : α → Except ε β} {list : List α} {answers : List β} :
    list.mapM f = .ok answers ↔ List.Forall₂ (fun a b => f a = .ok b) list answers := by
  induction list generalizing answers with
  | nil => cases answers <;> simp [pure, Except.pure]
  | cons a list ih =>
    rw [List.mapM_cons]
    simp only [bind_eq_ok_iff, ih, pure, Except.pure, Except.ok.injEq]
    constructor
    · rintro ⟨b, hb, rest, hrest, rfl⟩
      exact .cons hb hrest
    · rintro (_ | ⟨hb, hrest⟩)
      exact ⟨_, hb, _, hrest, rfl⟩

theorem exists_of_forall₂ {R : α → β → Prop} {list : List α} {answers : List β}
    (h : List.Forall₂ R list answers) {b : β} (hb : b ∈ answers) : ∃ a ∈ list, R a b := by
  induction h with
  | nil => simp at hb
  | cons hab _ ih =>
    rcases List.mem_cons.mp hb with rfl | hb
    · exact ⟨_, List.mem_cons_self, hab⟩
    · obtain ⟨a, ha, hR⟩ := ih hb
      exact ⟨a, List.mem_cons_of_mem _ ha, hR⟩

theorem exists_right_of_forall₂ {R : α → β → Prop} {list : List α} {answers : List β}
    (h : List.Forall₂ R list answers) {a : α} (ha : a ∈ list) : ∃ b ∈ answers, R a b :=
  exists_of_forall₂ h.flip ha

/-- A relation that allows at most one answer is a condition and a function. -/
theorem forall₂_iff_eq_map {R : α → β → Prop} {P : α → Prop} {g : α → β}
    {list : List α} {answers : List β} (h : ∀ a ∈ list, ∀ b, R a b ↔ P a ∧ b = g a) :
    List.Forall₂ R list answers ↔ (∀ a ∈ list, P a) ∧ answers = list.map g := by
  induction list generalizing answers with
  | nil => simp
  | cons a list ih =>
    have hrest := fun b hb => h b (List.mem_cons_of_mem _ hb)
    cases answers with
    | nil => simp
    | cons b answers =>
      rw [List.forall₂_cons, h a List.mem_cons_self, ih hrest, List.forall_mem_cons,
        List.map_cons, List.cons.injEq]
      tauto

/-- What can be answered one by one can be answered as a list. -/
theorem exists_forall₂_iff {R : α → β → Prop} {list : List α} :
    (∃ answers, List.Forall₂ R list answers) ↔ ∀ a ∈ list, ∃ b, R a b := by
  constructor
  · rintro ⟨answers, h⟩ a ha
    obtain ⟨b, -, hR⟩ := exists_right_of_forall₂ h ha
    exact ⟨b, hR⟩
  · intro h
    induction list with
    | nil => exact ⟨[], .nil⟩
    | cons a list ih =>
      obtain ⟨b, hb⟩ := h a List.mem_cons_self
      obtain ⟨answers, hanswers⟩ := ih fun other hother => h other (List.mem_cons_of_mem _ hother)
      exact ⟨b :: answers, .cons hb hanswers⟩

/-! ## 2. The first failure -/

theorem mapM_eq_error_iff {f : α → Except ε β} {list : List α} {e : ε} :
    list.mapM f = .error e ↔
      ∃ before a after, list = before ++ a :: after ∧
        (∀ other ∈ before, ∃ b, f other = .ok b) ∧ f a = .error e := by
  constructor
  · intro h
    induction list with
    | nil => simp [pure, Except.pure] at h
    | cons first rest ih =>
      rw [List.mapM_cons, bind_eq_error_iff] at h
      rcases h with hfirst | ⟨b, hfirst, h⟩
      · exact ⟨[], first, rest, rfl, by simp, hfirst⟩
      · have hrest : rest.mapM f = .error e := by
          rcases bind_eq_error_iff.mp h with hrest | ⟨answers, -, hpure⟩
          · exact hrest
          · simp [pure, Except.pure] at hpure
        obtain ⟨before, a, after, rfl, hbefore, ha⟩ := ih hrest
        refine ⟨first :: before, a, after, rfl, ?_, ha⟩
        exact List.forall_mem_cons.mpr ⟨⟨b, hfirst⟩, hbefore⟩
  · rintro ⟨before, a, after, rfl, hbefore, ha⟩
    induction before with
    | nil =>
      rw [List.nil_append, List.mapM_cons, ha]
      rfl
    | cons first rest ih =>
      obtain ⟨⟨b, hfirst⟩, hrest⟩ := List.forall_mem_cons.mp hbefore
      rw [List.cons_append, List.mapM_cons, hfirst]
      exact bind_eq_error_iff.mpr (.inr ⟨b, rfl, bind_eq_error_iff.mpr (.inl (ih hrest))⟩)

theorem foldlM_eq_error_iff {f : σ → α → Except ε σ} {list : List α} {s : σ} {e : ε} :
    list.foldlM f s = .error e ↔
      ∃ before a after t, list = before ++ a :: after ∧ before.foldlM f s = .ok t ∧
        f t a = .error e := by
  constructor
  · intro h
    induction list generalizing s with
    | nil => simp [pure, Except.pure] at h
    | cons first rest ih =>
      rw [List.foldlM_cons, bind_eq_error_iff] at h
      rcases h with hfirst | ⟨next, hfirst, hrest⟩
      · exact ⟨[], first, rest, s, rfl, rfl, hfirst⟩
      · obtain ⟨before, a, after, t, rfl, hbefore, ha⟩ := ih hrest
        refine ⟨first :: before, a, after, t, rfl, ?_, ha⟩
        rw [List.foldlM_cons, bind_eq_ok_iff]
        exact ⟨next, hfirst, hbefore⟩
  · rintro ⟨before, a, after, t, rfl, hbefore, ha⟩
    rw [List.foldlM_append, hbefore]
    show (a :: after).foldlM f t = .error e
    rw [List.foldlM_cons, ha]
    rfl

end Gherkin
