/-
  Gherkin/Proofs/Tree/Growth.lean
  ===============================
  **Trees that grow at their end.**

  A tree is read from left to right, and only what stands at its right edge is
  still open.  `Lengthens R xs ys` says this of a list: `ys` goes on where `xs`
  ends, and of `xs` itself at most the last entry has been changed, in a way
  that `R` allows.  `Scenario.Extends`, `Group.Extends` and `Feature.Extends`
  carry it through the levels of the tree.

  `Feature.ContinuedBy` is what that means for the flat list of scenarios in
  source order, whichever groups they stand in.
-/
import Gherkin.Proofs.Tree.Captions
import Mathlib.Data.List.Induction

namespace Gherkin

/-! ## 1. Lists that grow at their end -/

inductive Lengthens {α : Type} (R : α → α → Prop) : List α → List α → Prop
  | nil (more : List α) : Lengthens R [] more
  | last (init : List α) {a b : α} (more : List α) (h : R a b) :
      Lengthens R (init ++ [a]) (init ++ b :: more)

namespace Lengthens

variable {α β : Type} {R : α → α → Prop} {S : β → β → Prop} {xs ys zs : List α}

theorem append (hR : ∀ a, R a a) (xs more : List α) : Lengthens R xs (xs ++ more) := by
  induction xs using List.reverseRecOn with
  | nil => exact .nil more
  | append_singleton init a =>
    rw [List.append_assoc]
    exact .last init more (hR a)

theorem refl (hR : ∀ a, R a a) (xs : List α) : Lengthens R xs xs := by
  have h := append hR xs []
  rwa [List.append_nil] at h

theorem exists_of_ne_nil (h : Lengthens R xs ys) (hne : xs ≠ []) :
    ∃ init a b more, xs = init ++ [a] ∧ ys = init ++ b :: more ∧ R a b := by
  cases h with
  | nil more => exact absurd rfl hne
  | last init more hab => exact ⟨init, _, _, more, rfl, rfl, hab⟩

theorem trans (hR : ∀ {a b c}, R a b → R b c → R a c) (h : Lengthens R xs ys)
    (h' : Lengthens R ys zs) : Lengthens R xs zs := by
  cases h with
  | nil more => exact .nil zs
  | @last init a b more hab =>
    obtain ⟨init', b', c, more', hys, rfl, hbc⟩ := h'.exists_of_ne_nil (by simp)
    -- The entry that the second step changes is `b`, unless it stands behind it.
    induction more using List.reverseRecOn with
    | nil =>
      obtain ⟨rfl, hlast⟩ := List.append_inj' hys rfl
      obtain rfl : b = b' := by simpa using hlast
      exact .last init more' (hR hab hbc)
    | append_singleton more d =>
      rw [← List.cons_append, ← List.append_assoc] at hys
      obtain ⟨rfl, -⟩ := List.append_inj' hys rfl
      rw [List.append_assoc, List.cons_append]
      exact .last init _ hab

theorem map {f : α → β} (hf : ∀ {a b}, R a b → S (f a) (f b)) (h : Lengthens R xs ys) :
    Lengthens S (xs.map f) (ys.map f) := by
  cases h with
  | nil more => exact .nil _
  | last init more hab =>
    rw [List.map_append, List.map_append]
    exact .last (init.map f) (more.map f) (hf hab)

theorem append_right (h : Lengthens R xs ys) (more : List α) : Lengthens R xs (ys ++ more) := by
  cases h with
  | nil ys => exact .nil _
  | last init ys hab =>
    rw [List.append_assoc]
    exact .last init (ys ++ more) hab

theorem append_left (hR : ∀ a, R a a) (front : List α) (h : Lengthens R xs ys) :
    Lengthens R (front ++ xs) (front ++ ys) := by
  cases h with
  | nil more =>
    rw [List.append_nil]
    exact append hR front ys
  | last init more hab =>
    rw [← List.append_assoc, ← List.append_assoc]
    exact .last (front ++ init) more hab

/-- Two changes of the last entry of the same list. -/
theorem mapLast {f g : α → α} (h : ∀ a, R (f a) (g a)) (xs : List α) :
    Lengthens R (mapLast f xs) (Gherkin.mapLast g xs) := by
  induction xs using List.reverseRecOn with
  | nil => exact .nil []
  | append_singleton init a =>
    rw [mapLast_append_singleton, mapLast_append_singleton]
    exact .last init [] (h a)

theorem prefix_dropLast (h : Lengthens R xs ys) : xs.dropLast <+: ys := by
  cases h with
  | nil more => exact List.nil_prefix
  | last init more hab =>
    rw [List.dropLast_concat]
    exact List.prefix_append init _

theorem getElem?_length {init : List α} {a : α} (h : Lengthens R (init ++ [a]) ys) :
    ∃ b, ys[init.length]? = some b ∧ R a b := by
  obtain ⟨init', a', b, more, hxs, rfl, hab⟩ := h.exists_of_ne_nil (by simp)
  obtain ⟨rfl, hlast⟩ := List.append_inj' hxs rfl
  obtain rfl : a = a' := by simpa using hlast
  exact ⟨b, by simp, hab⟩

end Lengthens

/-! ## 2. Trees -/

/-- A scenario with more steps, of which at most the last one has been changed.
    Its description and its Examples blocks may have changed. -/
structure Scenario.Extends (a b : Scenario) : Prop where
  header : b.header = a.header
  tags : b.tags = a.tags
  outline : b.isOutline = a.isOutline
  steps : Lengthens (fun _ _ => True) a.steps b.steps

structure Group.Extends (a b : Group) : Prop where
  header : b.header = a.header
  tags : b.tags = a.tags
  scenarios : Lengthens Scenario.Extends a.scenarios b.scenarios

/-- A feature with more in its last group or behind it.  What stands before the
    first rule is closed when there is a rule. -/
structure Feature.Extends (f g : Feature) : Prop where
  source : g.source = f.source
  language : g.language = f.language
  top : f.top.Extends g.top
  rules : Lengthens Group.Extends f.rules g.rules
  closed : f.rules ≠ [] → g.top = f.top

theorem Scenario.Extends.refl (a : Scenario) : a.Extends a :=
  ⟨rfl, rfl, rfl, .refl (fun _ => trivial) a.steps⟩

theorem Scenario.Extends.trans {a b c : Scenario} (h : a.Extends b) (h' : b.Extends c) :
    a.Extends c :=
  ⟨h'.header.trans h.header, h'.tags.trans h.tags, h'.outline.trans h.outline,
    h.steps.trans (fun _ _ => trivial) h'.steps⟩

theorem Group.Extends.refl (a : Group) : a.Extends a := ⟨rfl, rfl, .refl .refl a.scenarios⟩

theorem Group.Extends.trans {a b c : Group} (h : a.Extends b) (h' : b.Extends c) : a.Extends c :=
  ⟨h'.header.trans h.header, h'.tags.trans h.tags, h.scenarios.trans .trans h'.scenarios⟩

theorem Feature.Extends.refl (f : Feature) : f.Extends f :=
  ⟨rfl, rfl, .refl f.top, .refl .refl f.rules, fun _ => rfl⟩

theorem Feature.Extends.trans {f g k : Feature} (h : f.Extends g) (h' : g.Extends k) :
    f.Extends k := by
  refine ⟨h'.source.trans h.source, h'.language.trans h.language, h.top.trans h'.top,
    h.rules.trans .trans h'.rules, ?_⟩
  intro hrules
  have hmore : g.rules ≠ [] := by
    obtain ⟨init, a, b, more, -, hg, -⟩ := h.rules.exists_of_ne_nil hrules
    simp [hg]
  rw [h'.closed hmore, h.closed hrules]

/-! ## 3. The scenarios in source order -/

/-- Every scenario in source order, with the caption of the rule that contains
    it. -/
def Feature.placedScenarios (f : Feature) : List (Option Caption × Scenario) :=
  f.scenarios.map fun (rule, node) => (rule.map (·.caption), node)

/-- The feature `g` goes on where `f` ends: all but the last rule and the last
    scenario of `f` are what they were, and the last scenario of `f` has kept its
    place, its header and all but the last one of its steps. -/
structure Feature.ContinuedBy (f g : Feature) : Prop where
  source : g.source = f.source
  language : g.language = f.language
  header : g.top.header = f.top.header
  tags : g.top.tags = f.top.tags
  rules : f.rules.dropLast <+: g.rules
  scenarios : f.placedScenarios.dropLast <+: g.placedScenarios
  last : ∀ init place node, f.placedScenarios = init ++ [(place, node)] →
    ∃ node', g.placedScenarios[init.length]? = some (place, node') ∧
      node'.header = node.header ∧ node'.tags = node.tags ∧ node'.isOutline = node.isOutline ∧
      node.steps.dropLast <+: node'.steps

/-- A scenario in its place that has been extended there. -/
def PlacedExtends (a b : Option Caption × Scenario) : Prop :=
  b.1 = a.1 ∧ a.2.Extends b.2

theorem Feature.placedScenarios_eq (f : Feature) :
    f.placedScenarios =
      f.top.scenarios.map (Prod.mk none) ++
        f.rules.flatMap fun rule => rule.scenarios.map (Prod.mk (some rule.caption)) := by
  simp [placedScenarios, Feature.scenarios, List.map_flatMap, Function.comp_def]

theorem Feature.Extends.placedScenarios {f g : Feature} (h : f.Extends g) :
    Lengthens PlacedExtends f.placedScenarios g.placedScenarios := by
  have hrefl : ∀ a, PlacedExtends a a := fun a => ⟨rfl, .refl a.2⟩
  rw [f.placedScenarios_eq, g.placedScenarios_eq]
  by_cases hrules : f.rules = []
  · have htop : Lengthens PlacedExtends (f.top.scenarios.map (Prod.mk none))
        (g.top.scenarios.map (Prod.mk none)) := h.top.scenarios.map fun hab => ⟨rfl, hab⟩
    rw [hrules, List.flatMap_nil, List.append_nil]
    exact htop.append_right _
  · rw [h.closed hrules]
    apply Lengthens.append_left hrefl
    obtain ⟨init, a, b, more, hf, hg, hab⟩ := h.rules.exists_of_ne_nil hrules
    have hlast : Lengthens PlacedExtends (a.scenarios.map (Prod.mk (some a.caption)))
        (b.scenarios.map (Prod.mk (some b.caption))) := by
      have hcaption : b.caption = a.caption := by
        unfold Group.caption
        rw [hab.header, hab.tags]
      rw [hcaption]
      exact hab.scenarios.map fun hab => ⟨rfl, hab⟩
    rw [hf, hg, List.flatMap_append, List.flatMap_append, List.flatMap_singleton,
      List.flatMap_cons]
    exact (hlast.append_right _).append_left hrefl _

theorem Feature.Extends.continuedBy {f g : Feature} (h : f.Extends g) : f.ContinuedBy g := by
  refine ⟨h.source, h.language, h.top.header, h.top.tags, h.rules.prefix_dropLast,
    h.placedScenarios.prefix_dropLast, ?_⟩
  intro init place node hlast
  have hplaced := h.placedScenarios
  rw [hlast] at hplaced
  obtain ⟨⟨place', node'⟩, hget, hsame, hextends⟩ := hplaced.getElem?_length
  obtain rfl : place' = place := hsame
  exact ⟨node', hget, hextends.header, hextends.tags, hextends.outline,
    hextends.steps.prefix_dropLast⟩

end Gherkin
