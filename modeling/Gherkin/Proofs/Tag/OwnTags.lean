/-
  Gherkin/Proofs/Tag/OwnTags.lean
  ===============================
  **A scenario and the expression of its own tags.**

  Tags in a feature and terms in an expression have two grammars.  A tag is cut
  at its last colon and keeps a suffix that is no limit, while a term is cut at
  its first colon, must have a limit behind it, and ends at a comma.  The two
  agree on a written tag whose name has no comma exactly when the name is not
  empty and has no colon (`FromWord.readClause_written_iff`).

  So the tags of a scenario, written as clauses, compile to one term each.
  Merging tag sets keeps every bare name, and the expression selects the
  scenario (`Parser.feature_selects_by_own_tags`).  For other names that can
  fail (`Parser.feature_own_tags_mismatch`).
-/
import Gherkin.Proofs.RoundTrip.Written
import Gherkin.Proofs.Selection
import Gherkin.Proofs.TagExpr.Terms

namespace Gherkin

open Text

namespace Tag

/-! ## 1. One tag -/

def term (tag : Tag) : TagExpr.Term := ⟨tag.name, false, tag.limit⟩

theorem FromWord.limit_lt {tag : Tag} (h : tag.FromWord) :
    ∀ n, tag.limit = some n → n < limitBound := by
  obtain ⟨source, heq, -⟩ := h
  intro n hn
  rw [heq, ofWord] at hn
  split at hn
  · rename_i name limit hsplit
    simp only [Option.some.injEq] at hn
    obtain ⟨-, suffix, -, -, hlimit⟩ := splitLimit?_eq_some_iff.mp hsplit
    exact hn ▸ lt_of_readLimit? hlimit
  · simp at hn

/-- A name with a colon leaves nothing in front of a limit: if it did, what
    stands in front of the first colon would be the name, because the limit has
    no other colon. -/
theorem FromWord.eq_nil_of_splitLimit {tag : Tag} (h : tag.FromWord) (hcolon : ':' ∈ tag.name)
    {name : Text} {limit : Option Nat}
    (hsplit : TagExpr.Term.splitLimit tag.word = .ok (name, limit)) : name = [] := by
  unfold TagExpr.Term.splitLimit at hsplit
  split at hsplit
  · rename_i hnone
    refine absurd ?_ (cutFirst?_eq_none_iff.mp hnone)
    rw [word]
    exact List.mem_append_left _ hcolon
  · rename_i before value hcut
    split at hsplit
    · rename_i n hn
      simp only [Except.ok.injEq, Prod.mk.injEq] at hsplit
      obtain ⟨rfl, -⟩ := hsplit
      obtain ⟨hword, hbefore⟩ := eq_of_cutFirst? hcut
      have hsolid : ∀ c ∈ value, isBlank c = false := by
        intro c hc
        apply h.written_solid
        rw [written_eq, hword]
        simp [hc]
      rw [trim_eq_self (trimmed_of_solid hsolid)] at hn
      by_contra hne
      have hends : EndsInLimit tag.word before n :=
        ⟨hne, value, hword, colon_not_mem_of_readLimit? hn, readLimit?_eq_some_iff.mp hn⟩
      have htag : tag = ⟨before, tag.line, some n⟩ :=
        (h.ofWord_word tag.line).symm.trans (ofWord_eq_iff.mpr hends)
      rw [htag] at hcolon
      exact hbefore hcolon
    · simp at hsplit

/-- A written tag is read as a term exactly when its name is not empty and has
    no colon, and then it is the term that asks for the tag. -/
theorem FromWord.read_written_eq_ok {tag : Tag} (h : tag.FromWord) (clause : Text)
    (term : TagExpr.Term) :
    TagExpr.Term.read tag.written clause = .ok term ↔
      (tag.name ≠ [] ∧ ':' ∉ tag.name) ∧ term = tag.term := by
  have hname : trim tag.name = tag.name := trim_eq_self (trimmed_of_solid h.name_solid)
  have hsign : TagExpr.Term.sign (trim tag.written) = (false, tag.word) := by
    rw [trim_eq_self (trimmed_of_solid h.written_solid), written_eq]
    rfl
  rw [TagExpr.Term.read_eq_ok_iff, hsign]
  constructor
  · rintro ⟨hnegated, name, hsplit, hfound, hne⟩
    by_cases hcolon : ':' ∈ tag.name
    · rw [h.eq_nil_of_splitLimit hcolon hsplit] at hfound
      exact absurd hfound.symm hne
    · rw [word, TagExpr.Term.splitLimit_append hcolon h.limit_lt] at hsplit
      simp only [Except.ok.injEq, Prod.mk.injEq] at hsplit
      obtain ⟨rfl, hlimit⟩ := hsplit
      rw [hname] at hfound
      refine ⟨⟨hfound ▸ hne, hcolon⟩, ?_⟩
      obtain ⟨name, negated, limit⟩ := term
      simp only at hnegated hfound hlimit
      rw [Tag.term, hfound, hlimit, hnegated]
  · rintro ⟨⟨hne, hcolon⟩, rfl⟩
    exact ⟨rfl, tag.name, TagExpr.Term.splitLimit_append hcolon h.limit_lt, hname, hne⟩

theorem written_comma {tag : Tag} (h : ',' ∉ tag.name) : ',' ∉ tag.written := by
  intro hmem
  rw [written_eq, word, List.mem_cons, List.mem_append] at hmem
  rcases hmem with hmem | hmem | hmem
  · simp at hmem
  · exact h hmem
  · exact (TagExpr.Term.solid_limitSuffix hmem).2 rfl

theorem FromWord.readClause_written_iff {tag : Tag} (h : tag.FromWord) (hcomma : ',' ∉ tag.name)
    (terms : List TagExpr.Term) :
    TagExpr.readClause tag.written = .ok terms ↔
      (tag.name ≠ [] ∧ ':' ∉ tag.name) ∧ terms = [tag.term] := by
  have hsplit : split ',' tag.written = [tag.written] := by
    apply splitWhen_eq_singleton
    intro c hc
    have hne : c ≠ ',' := fun heq => written_comma hcomma (heq ▸ hc)
    simpa using hne
  unfold TagExpr.readClause
  rw [hsplit, mapM_eq_ok_iff]
  constructor
  · rintro (_ | ⟨hterm, _ | _⟩)
    obtain ⟨hplain, rfl⟩ := (h.read_written_eq_ok _ _).mp hterm
    exact ⟨hplain, rfl⟩
  · rintro ⟨hplain, rfl⟩
    exact .cons ((h.read_written_eq_ok _ _).mpr ⟨hplain, rfl⟩) .nil

/-! ## 2. The tags of a scenario -/

section Tags

variable {tags : List Tag}

/-- No name has two limits. -/
def LimitsAgree (tags : List Tag) : Prop :=
  ∀ a ∈ tags, ∀ b ∈ tags, a.name = b.name →
    a.limit.isSome = true → b.limit.isSome = true → a.limit = b.limit

instance : DecidablePred LimitsAgree := fun tags =>
  inferInstanceAs (Decidable (∀ a ∈ tags, ∀ b ∈ tags, a.name = b.name →
    a.limit.isSome = true → b.limit.isSome = true → a.limit = b.limit))

theorem solidClauses_written (h : ∀ tag ∈ tags, tag.FromWord) :
    TagExpr.solidClauses (tags.map (·.written)) = tags.map (·.written) := by
  have htrim : (tags.map (·.written)).map trim = tags.map (·.written) := by
    rw [List.map_map]
    exact List.map_congr_left fun tag htag =>
      trim_eq_self (trimmed_of_solid (h tag htag).written_solid)
  unfold TagExpr.solidClauses
  rw [htrim, List.filter_eq_self]
  intro clause hclause
  obtain ⟨tag, -, rfl⟩ := List.mem_map.mp hclause
  rfl

/-- The clauses of tags without commas are single terms. -/
theorem compile_written_eq_ok_iff (h : ∀ tag ∈ tags, tag.FromWord)
    (hcomma : ∀ tag ∈ tags, ',' ∉ tag.name) {expr : TagExpr} :
    TagExpr.compile (tags.map (·.written)) = .ok expr ↔
      (∀ tag ∈ tags, tag.name ≠ [] ∧ ':' ∉ tag.name) ∧
        expr.clauses = tags.map (fun tag => [tag.term]) ∧
        (tags.map term).foldlM TagExpr.addLimit [] = .ok expr.limits := by
  rw [TagExpr.compile_eq_ok_iff, solidClauses_written h, mapM_eq_ok_iff,
    List.forall₂_map_left_iff, forall₂_iff_eq_map fun tag htag terms =>
      (h tag htag).readClause_written_iff (hcomma tag htag) terms, and_assoc]
  refine and_congr_right fun _ => and_congr_right fun hclauses => ?_
  have hflat : expr.clauses.flatten = tags.map term := by
    rw [hclauses, ← List.flatMap_def, ← List.map_eq_flatMap]
  rw [hflat]

/-- The terms of tags agree when the tags do. -/
theorem LimitsAgree.agree (h : LimitsAgree tags) : TagExpr.Agree (tags.map term) := by
  intro a ha b hb
  obtain ⟨tag, htag, rfl⟩ := List.mem_map.mp ha
  obtain ⟨other, hother, rfl⟩ := List.mem_map.mp hb
  exact h tag htag other hother

/-- Tags without commas compile exactly when no name is empty or has a colon,
    provided that no name has two limits. -/
theorem exists_compile_written_iff (h : ∀ tag ∈ tags, tag.FromWord)
    (hcomma : ∀ tag ∈ tags, ',' ∉ tag.name) (hagree : LimitsAgree tags) :
    (∃ expr, TagExpr.compile (tags.map (·.written)) = .ok expr) ↔
      ∀ tag ∈ tags, tag.name ≠ [] ∧ ':' ∉ tag.name := by
  constructor
  · rintro ⟨expr, hcompile⟩
    exact ((compile_written_eq_ok_iff h hcomma).mp hcompile).1
  · intro hplain
    obtain ⟨limits, hlimits⟩ := hagree.agree.exists_foldlM_addLimit
    exact ⟨⟨tags.map fun tag => [tag.term], limits⟩,
      (compile_written_eq_ok_iff h hcomma).mpr ⟨hplain, rfl, hlimits⟩⟩

/-- The table of the expression holds the limits of the tags. -/
theorem mem_limits_iff (h : ∀ tag ∈ tags, tag.FromWord)
    (hcomma : ∀ tag ∈ tags, ',' ∉ tag.name) {expr : TagExpr}
    (hcompile : TagExpr.compile (tags.map (·.written)) = .ok expr) (name : Text) (limit : Nat) :
    (name, limit) ∈ expr.limits ↔ ∃ tag ∈ tags, tag.name = name ∧ tag.limit = some limit := by
  obtain ⟨-, -, hlimits⟩ := (compile_written_eq_ok_iff h hcomma).mp hcompile
  rw [TagExpr.mem_of_foldlM_addLimit hlimits]
  simp [term, eq_comm]

/-- The expression asks for every tag by its name. -/
theorem holds_iff (h : ∀ tag ∈ tags, tag.FromWord) (hcomma : ∀ tag ∈ tags, ',' ∉ tag.name)
    {expr : TagExpr} (hcompile : TagExpr.compile (tags.map (·.written)) = .ok expr)
    (names : List Text) : expr.holds names = true ↔ ∀ tag ∈ tags, tag.name ∈ names := by
  obtain ⟨-, hclauses, -⟩ := (compile_written_eq_ok_iff h hcomma).mp hcompile
  unfold TagExpr.holds
  rw [hclauses]
  simp [TagExpr.Term.holds, term]

end Tags

end Tag

/-! ## 3. Selecting the scenario -/

open Tag

theorem Feature.exists_group_of_mem_scenarios {feature : Feature} {rule : Option Group}
    {scenario : Scenario} (h : (rule, scenario) ∈ feature.scenarios) :
    ∃ group ∈ feature.groups, scenario ∈ group.scenarios := by
  rcases List.mem_append.mp h with h | h
  · obtain ⟨node, hnode, heq⟩ := List.mem_map.mp h
    rw [Prod.mk.injEq] at heq
    exact ⟨feature.top, List.mem_cons_self, heq.2 ▸ hnode⟩
  · obtain ⟨group, hgroup, h⟩ := List.mem_flatMap.mp h
    obtain ⟨node, hnode, heq⟩ := List.mem_map.mp h
    rw [Prod.mk.injEq] at heq
    exact ⟨group, List.mem_cons_of_mem _ hgroup, heq.2 ▸ hnode⟩

namespace Selection

variable {expr : TagExpr} {feature : Feature} {rule : Option Group} {scenario : Scenario}

theorem entry_mem_select (h : (rule, scenario) ∈ feature.scenarios)
    (hselected : isSelected expr scenario (effectiveTags feature rule scenario) = true) :
    entry feature rule scenario ∈ select feature expr := by
  rw [select_eq]
  exact List.mem_map_of_mem (List.mem_filter.mpr ⟨h, hselected⟩)

/-- What holds of the effective tags, and of them with further tags merged in,
    selects an outline whatever blocks it has. -/
theorem isSelected_of_holds {tags : List Text} (h : expr.holds tags = true)
    (hmore : ∀ more, expr.holds (TagSet.merge tags more) = true) :
    isSelected expr scenario tags = true := by
  rw [isSelected_eq_any, List.any_eq_true]
  unfold variants
  rcases scenario.blocks with _ | _ | ⟨block, blocks⟩
  · exact ⟨tags, List.mem_cons_self, h⟩
  · exact ⟨tags, List.mem_cons_self, h⟩
  · exact ⟨_, List.mem_cons_self, hmore _⟩

end Selection

namespace Parser

open Selection

/-- The written tags of a scenario, as clauses, compile exactly when no name is
    empty or has a colon; they record the limits of the tags and, where no name
    begins with an `@` sign, select the scenario.  A comma in a name would make
    two terms of it. -/
theorem feature_selects_by_own_tags {parser : Parser} {text : Text} {source : Option Text}
    {feature : Feature} {rule : Option Group} {scenario : Scenario}
    (h : parser.feature text source = .ok (some feature))
    (hscenario : (rule, scenario) ∈ feature.scenarios)
    (hagree : LimitsAgree scenario.tags) (hcomma : ∀ tag ∈ scenario.tags, ',' ∉ tag.name) :
    ((∃ expr, TagExpr.compile (scenario.tags.map (·.written)) = .ok expr) ↔
        ∀ tag ∈ scenario.tags, tag.name ≠ [] ∧ ':' ∉ tag.name) ∧
      ∀ expr, TagExpr.compile (scenario.tags.map (·.written)) = .ok expr →
        (∀ name limit, (name, limit) ∈ expr.limits ↔
          ∃ tag ∈ scenario.tags, tag.name = name ∧ tag.limit = some limit) ∧
        ((∀ tag ∈ scenario.tags, leads '@' tag.name = false) →
          entry feature rule scenario ∈ select feature expr) := by
  have hword : ∀ tag ∈ scenario.tags, tag.FromWord := by
    intro tag htag
    obtain ⟨keywords, -, hattested, -⟩ := attested_of_feature h
    obtain ⟨group, hgroup, hmem⟩ := Feature.exists_group_of_mem_scenarios hscenario
    exact (((hattested.group hgroup).scenarios scenario hmem).2.tags tag htag).fromWord
  refine ⟨exists_compile_written_iff hword hcomma hagree, ?_⟩
  intro expr hcompile
  refine ⟨mem_limits_iff hword hcomma hcompile, ?_⟩
  intro hat
  have hplain := ((compile_written_eq_ok_iff hword hcomma).mp hcompile).1
  have hbare : ∀ tag ∈ scenario.tags, TagSet.BareName tag.name := fun tag htag =>
    ⟨(hplain tag htag).1, trimmed_of_solid (hword tag htag).name_solid, hat tag htag⟩
  have hown : ∀ tag ∈ scenario.tags, tag.name ∈ effectiveTags feature rule scenario :=
    fun tag htag => (hbare tag htag).mem_merge (.inr (List.mem_map_of_mem htag))
  apply entry_mem_select hscenario
  apply isSelected_of_holds
  · exact (holds_iff hword hcomma hcompile _).mpr hown
  · intro more
    refine (holds_iff hword hcomma hcompile _).mpr fun tag htag => ?_
    exact (hbare tag htag).mem_merge (.inl (hown tag htag))

/-- For instance an outline with a block, in a rule with tags of its own. -/
theorem feature_selects_by_own_tags_outline :
    ∃ feature rule scenario expr,
      standard.feature
          "@a\nFeature: F\n@b\nRule: R\n@smoke @wip:+02 @wip\nScenario Outline: S\n@c\nExamples:".toList
          none = .ok (some feature) ∧
        (rule, scenario) ∈ feature.scenarios ∧
        TagExpr.compile (scenario.tags.map (·.written)) = .ok expr ∧
        ("wip".toList, 2) ∈ expr.limits ∧ entry feature rule scenario ∈ select feature expr := by
  have hread : ∃ feature rule scenario,
      standard.feature
          "@a\nFeature: F\n@b\nRule: R\n@smoke @wip:+02 @wip\nScenario Outline: S\n@c\nExamples:".toList
          none = .ok (some feature) ∧
        (rule, scenario) ∈ feature.scenarios ∧
        scenario.tags = [⟨"smoke".toList, 5, none⟩, ⟨"wip".toList, 5, some 2⟩,
          ⟨"wip".toList, 5, none⟩] := ⟨_, _, _, rfl, List.mem_singleton.mpr rfl, rfl⟩
  obtain ⟨feature, rule, scenario, hfeature, hscenario, htags⟩ := hread
  obtain ⟨hcompiles, hexpr⟩ := feature_selects_by_own_tags hfeature hscenario
    (by rw [htags]; decide) (by rw [htags]; decide)
  obtain ⟨expr, hcompile⟩ := hcompiles.mpr (by rw [htags]; decide)
  obtain ⟨hlimits, hselects⟩ := hexpr expr hcompile
  refine ⟨feature, rule, scenario, expr, hfeature, hscenario, hcompile, ?_, ?_⟩
  · exact (hlimits _ _).mpr ⟨⟨"wip".toList, 5, some 2⟩, by rw [htags]; decide, rfl, rfl⟩
  · exact hselects (by rw [htags]; decide)

/-- A name with a colon and an empty name are no terms, a name with a comma is
    two of them, and a second `@` sign is lost when tag sets are merged. -/
theorem feature_own_tags_mismatch :
    (∃ feature scenario,
      standard.feature "Feature: F\n@team:core\nScenario: S".toList none = .ok (some feature) ∧
        (none, scenario) ∈ feature.scenarios ∧ LimitsAgree scenario.tags ∧
        TagExpr.compile (scenario.tags.map (·.written)) =
          .error (.invalidLimit "@team:core".toList "core".toList)) ∧
    (∃ feature scenario,
      standard.feature "Feature: F\n@\nScenario: S".toList none = .ok (some feature) ∧
        (none, scenario) ∈ feature.scenarios ∧ LimitsAgree scenario.tags ∧
        TagExpr.compile (scenario.tags.map (·.written)) = .error (.emptyTerm "@".toList)) ∧
    (∃ feature scenario expr,
      standard.feature "Feature: F\n@a,b\nScenario: S".toList none = .ok (some feature) ∧
        (none, scenario) ∈ feature.scenarios ∧ LimitsAgree scenario.tags ∧
        TagExpr.compile (scenario.tags.map (·.written)) = .ok expr ∧ select feature expr = []) ∧
    (∃ feature scenario expr,
      standard.feature "Feature: F\n@@a\nScenario: S".toList none = .ok (some feature) ∧
        (none, scenario) ∈ feature.scenarios ∧ LimitsAgree scenario.tags ∧
        TagExpr.compile (scenario.tags.map (·.written)) = .ok expr ∧ select feature expr = []) := by
  refine ⟨⟨_, _, rfl, List.mem_singleton.mpr rfl, by decide, rfl⟩,
    ⟨_, _, rfl, List.mem_singleton.mpr rfl, by decide, rfl⟩,
    ⟨_, _, _, rfl, List.mem_singleton.mpr rfl, by decide, rfl, rfl⟩,
    ⟨_, _, _, rfl, List.mem_singleton.mpr rfl, by decide, rfl, rfl⟩⟩

end Parser

end Gherkin
