/-
  Gherkin/Proofs/Selection.lean
  =============================
  **Which scenarios an expression selects.**

  A scenario is judged by the tags that it has with those it inherits, and an
  outline once for each of its blocks (`variants`).  What is selected is listed in
  source order (`select_eq`).

  Merging keeps the first mention of every name, so the tags of a scenario whose
  names are bare are the first mentions among the names of its feature, of its rule
  and its own (`merging_keepsFirst`).

  Each further clause can only leave scenarios out (`select_append`).  A scenario
  that is judged once is selected by clauses and others when it is selected by the
  ones and by the others; of an outline with several blocks one may satisfy the
  ones, and another the others.
-/
import Gherkin.Parser
import Gherkin.Proofs.Tag.Sets
import Gherkin.Proofs.TagExpr.Outcome
import Gherkin.Selection

namespace Gherkin.Selection

open Text

variable {expr first second : TagExpr} {feature : Feature} {rule : Option Group}
  {scenario : Scenario} {tags : List Text}

/-! ## 1. Entries -/

/-- The entry of a scenario that is selected. -/
def entry (feature : Feature) (rule : Option Group) (scenario : Scenario) : Selected where
  source := feature.source
  rule := rule.map (·.header.title)
  title := scenario.header.title
  line := scenario.header.line
  tags := effectiveTags feature rule scenario

/-- Whether a scenario is selected, given with the rule that contains it. -/
def chooses (expr : TagExpr) (feature : Feature) (place : Option Group × Scenario) : Bool :=
  isSelected expr place.2 (effectiveTags feature place.1 place.2)

theorem select_eq (feature : Feature) (expr : TagExpr) :
    select feature expr =
      (feature.scenarios.filter (chooses expr feature)).map fun place =>
        entry feature place.1 place.2 := by
  rw [← List.filterMap_eq_filter, List.map_filterMap]
  apply List.filterMap_congr
  rintro ⟨rule, scenario⟩ -
  by_cases h : isSelected expr scenario (effectiveTags feature rule scenario) = true
  · simp only [Option.guard, chooses, h, if_true]
    rfl
  · simp only [Option.guard, chooses, h]
    rfl

/-! ## 2. Effective tags -/

/-- The names of the tags that a scenario has or inherits, as they are declared. -/
def declaredNames (feature : Feature) (rule : Option Group) (scenario : Scenario) : List Text :=
  names feature.top.tags ++ rule.elim [] (names ·.tags) ++ names scenario.tags

theorem effectiveTags_of_bare
    (h : ∀ name ∈ declaredNames feature rule scenario, TagSet.BareName name) :
    effectiveTags feature rule scenario =
      (declaredNames feature rule scenario).eraseDups := by
  unfold declaredNames at h ⊢
  rw [List.forall_mem_append, List.forall_mem_append] at h
  obtain ⟨⟨hfeature, hrule⟩, hown⟩ := h
  have hinherited : ∀ name ∈ (names feature.top.tags ++ rule.elim [] (names ·.tags)).eraseDups,
      TagSet.BareName name := by
    intro name hname
    exact (List.mem_append.mp (List.mem_eraseDups.mp hname)).elim (hfeature name) (hrule name)
  unfold effectiveTags
  rw [TagSet.merge_of_bare hfeature hrule, TagSet.merge_of_bare hinherited hown,
    TagSet.eraseDups_eraseDups_append]

/-- Extending a tag set keeps the first mentions among the old names, bared of one
    sign, and the new ones, trimmed, bared, and not empty.  So the tags of a scenario
    are the first mentions among the names of its feature, of its rule and its own,
    as they are declared, if there is nothing to take off these names. -/
theorem merging_keepsFirst :
    (∀ target additions : List Text,
      TagSet.extend target additions =
          (target.map (dropLead '@') ++
            ((additions.map trim).map (dropLead '@')).filter (!·.isEmpty)).eraseDups ∧
        (TagSet.extend target additions).Nodup) ∧
      ∀ (feature : Feature) (rule : Option Group) (scenario : Scenario),
        (∀ name ∈ declaredNames feature rule scenario, TagSet.BareName name) →
          effectiveTags feature rule scenario =
            (declaredNames feature rule scenario).eraseDups := by
  refine ⟨?_, fun _ _ _ => effectiveTags_of_bare⟩
  intro target additions
  refine ⟨?_, TagSet.nodup_extend target additions⟩
  rw [TagSet.extend_eq_eraseDups, TagSet.filterMap_bareName?]

/-- For instance with names that are declared again at each level. -/
theorem merging_keepsFirst_rule :
    ∃ feature rule scenario,
      Parser.standard.feature
          "@web @b:2\nFeature: F\n@c @web\nRule: R\n@d @b @c\nScenario: S".toList none =
        .ok (some feature) ∧
        (some rule, scenario) ∈ feature.scenarios ∧
        effectiveTags feature (some rule) scenario = Builtin.texts ["web", "b", "c", "d"] := by
  have hread : ∃ feature rule scenario,
      Parser.standard.feature
          "@web @b:2\nFeature: F\n@c @web\nRule: R\n@d @b @c\nScenario: S".toList none =
        .ok (some feature) ∧
        (some rule, scenario) ∈ feature.scenarios ∧
        declaredNames feature (some rule) scenario =
          Builtin.texts ["web", "b", "c", "web", "d", "b", "c"] :=
    ⟨_, _, _, rfl, List.mem_singleton.mpr rfl, rfl⟩
  obtain ⟨feature, rule, scenario, hfeature, hscenario, hnames⟩ := hread
  have hbare : ∀ name ∈ declaredNames feature (some rule) scenario, TagSet.BareName name := by
    rw [hnames]
    decide
  refine ⟨feature, rule, scenario, hfeature, hscenario, ?_⟩
  rw [merging_keepsFirst.2 feature (some rule) scenario hbare, hnames]
  decide

-- Names that differ can be the same once they are bare.
example : TagSet.extend (Builtin.texts ["@a", "a", "@@c"]) (Builtin.texts [" @c ", "@@c", "@", "a"]) =
    Builtin.texts ["a", "@c", "c"] := by
  decide

/-! ## 3. More clauses -/

/-- The tag sets by which a scenario is judged: its own, or one for each block. -/
def variants (scenario : Scenario) (tags : List Text) : List (List Text) :=
  match scenario.blocks with
  | none | some [] => [tags]
  | some blocks => blocks.map fun block => TagSet.merge tags (names block.tags)

theorem isSelected_eq_any (expr : TagExpr) (scenario : Scenario) (tags : List Text) :
    isSelected expr scenario tags = (variants scenario tags).any expr.holds := by
  unfold isSelected variants
  rcases scenario.blocks with _ | _ | ⟨block, blocks⟩
  · exact (Bool.or_false _).symm
  · exact (Bool.or_false _).symm
  · simp only [List.any_map]
    rfl

/-- A scenario is judged once, unless it is an outline with several blocks. -/
theorem exists_variants_eq_singleton
    (h : ∀ blocks, scenario.blocks = some blocks → blocks.length < 2) (tags : List Text) :
    ∃ variant, variants scenario tags = [variant] := by
  unfold variants
  rcases hblocks : scenario.blocks with _ | _ | ⟨block, _ | ⟨other, blocks⟩⟩
  · exact ⟨_, rfl⟩
  · exact ⟨_, rfl⟩
  · exact ⟨_, rfl⟩
  · have hfew := h _ hblocks
    simp only [List.length_cons] at hfew
    omega

section Clauses

variable (hholds : ∀ tags, expr.holds tags = (first.holds tags && second.holds tags))
include hholds

theorem isSelected_of_and (h : isSelected expr scenario tags = true) :
    isSelected first scenario tags = true ∧ isSelected second scenario tags = true := by
  simp only [isSelected_eq_any, List.any_eq_true] at h ⊢
  obtain ⟨variant, hvariant, hboth⟩ := h
  rw [hholds, Bool.and_eq_true] at hboth
  exact ⟨⟨variant, hvariant, hboth.1⟩, ⟨variant, hvariant, hboth.2⟩⟩

theorem isSelected_iff_and
    (h : ∀ blocks, scenario.blocks = some blocks → blocks.length < 2) :
    isSelected expr scenario tags = true ↔
      isSelected first scenario tags = true ∧ isSelected second scenario tags = true := by
  obtain ⟨variant, hvariant⟩ := exists_variants_eq_singleton h tags
  simp only [isSelected_eq_any, hvariant, List.any_cons, List.any_nil, Bool.or_false, hholds,
    Bool.and_eq_true]

end Clauses

/-- What chooses fewer scenarios selects a sublist. -/
theorem select_sublist {other : TagExpr}
    (h : ∀ place, chooses expr feature place = true → chooses other feature place = true) :
    (select feature expr).Sublist (select feature other) := by
  rw [select_eq, select_eq]
  exact (List.monotone_filter_right _ h).map _

/-- Clauses that compile together with others compile by themselves, and select all
    that they select together, in the same order.  The entries of a selection are those
    of the scenarios that are chosen, and a scenario other than an outline with several
    blocks is chosen by all clauses together exactly when it is by either part. -/
theorem select_append {clauses others : List Text}
    (h : TagExpr.compile (clauses ++ others) = .ok expr) (feature : Feature) :
    ∃ first second, TagExpr.compile clauses = .ok first ∧ TagExpr.compile others = .ok second ∧
      (select feature expr).Sublist (select feature first) ∧
      (select feature expr).Sublist (select feature second) ∧
      (∀ other : TagExpr, select feature other =
        (feature.scenarios.filter (chooses other feature)).map fun place =>
          entry feature place.1 place.2) ∧
      ∀ rule scenario, (∀ blocks, scenario.blocks = some blocks → blocks.length < 2) →
        (chooses expr feature (rule, scenario) = true ↔
          chooses first feature (rule, scenario) = true ∧
            chooses second feature (rule, scenario) = true) := by
  obtain ⟨first, hfirst⟩ :=
    TagExpr.exists_compile_of_subset (List.subset_append_left clauses others) h
  obtain ⟨second, hsecond⟩ :=
    TagExpr.exists_compile_of_subset (List.subset_append_right clauses others) h
  have hholds := TagExpr.holds_append h hfirst hsecond
  refine ⟨first, second, hfirst, hsecond, ?_, ?_, select_eq feature, ?_⟩
  · exact select_sublist fun _ hchosen => (isSelected_of_and hholds hchosen).1
  · exact select_sublist fun _ hchosen => (isSelected_of_and hholds hchosen).2
  · intro rule scenario hfew
    exact isSelected_iff_and hholds hfew

/-- For instance a negated clause behind another one. -/
theorem select_append_negated :
    ∃ feature expr first second,
      Parser.standard.feature
          "@web\nFeature: F\nScenario: S\n@wip\nScenario: T\n@wip\nScenario: U".toList none =
        .ok (some feature) ∧
      TagExpr.compile (["@web".toList] ++ ["-@wip".toList]) = .ok expr ∧
      TagExpr.compile ["@web".toList] = .ok first ∧
      TagExpr.compile ["-@wip".toList] = .ok second ∧
      (select feature first).length = 3 ∧ (select feature expr).length = 1 ∧
      (select feature expr).Sublist (select feature first) ∧
      (select feature expr).Sublist (select feature second) ∧
      ∀ place ∈ feature.scenarios,
        (chooses expr feature place = true ↔
          chooses first feature place = true ∧ chooses second feature place = true) := by
  obtain ⟨feature, expr, hfeature, hexpr, hwhole, hpart, hblocks⟩ : ∃ feature expr,
      Parser.standard.feature
          "@web\nFeature: F\nScenario: S\n@wip\nScenario: T\n@wip\nScenario: U".toList none =
        .ok (some feature) ∧
      TagExpr.compile (["@web".toList] ++ ["-@wip".toList]) = .ok expr ∧
      (select feature expr).length = 1 ∧
      (∀ first, TagExpr.compile ["@web".toList] = .ok first →
        (select feature first).length = 3) ∧
      ∀ place ∈ feature.scenarios, place.2.blocks = none :=
    ⟨_, _, rfl, rfl, rfl, fun first hfirst => Except.ok.inj hfirst ▸ rfl, by decide⟩
  obtain ⟨first, second, hfirst, hsecond, hleft, hright, -, hboth⟩ := select_append hexpr feature
  refine ⟨feature, expr, first, second, hfeature, hexpr, hfirst, hsecond, hpart first hfirst, hwhole,
    hleft, hright, ?_⟩
  rintro ⟨rule, scenario⟩ hplace
  refine hboth rule scenario ?_
  rw [hblocks _ hplace]
  exact fun _ habsurd => absurd habsurd (Option.some_ne_none _).symm

-- One block satisfies the first clause, and another block the second one.
example :
    (Parser.standard.feature
        "Feature: F\nScenario Outline: S\n@a\nExamples:\n@b\nExamples:".toList none).map
      (·.map fun feature =>
        [["@a"], ["@b"], ["@a", "@b"]].map fun clauses =>
          (TagExpr.compile (Builtin.texts clauses)).map fun expr =>
            (select feature expr).length) =
      .ok (some [.ok 1, .ok 1, .ok 0]) := by
  rfl

end Gherkin.Selection
