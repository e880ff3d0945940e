/-
  Gherkin/Proofs/Json/Tree.lean
  =============================
  **Trees and reports as JSON lose nothing.**

  Every node has a field for each of its parts, and each part is determined by its
  field: a missing part is null, which no part that is there becomes
  (`part_injective`).  So the writer of JSON documents is faithful
  (`Writer.faithful_json`).
-/
import Gherkin.Command.Program
import Gherkin.Proofs.Json.Layout

namespace Gherkin

open Text

namespace Json

/-! ## 1. Parts -/

theorem optional_injective : Function.Injective optional := by
  intro t u h
  cases t <;> cases u <;> simp_all [optional]

/-- A part that becomes an object can be told from a missing one. -/
theorem part_injective {α : Type} {toJson : α → Json} (h : Function.Injective toJson)
    (hnull : ∀ a, toJson a ≠ .null) : Function.Injective (part toJson) := by
  intro a b hab
  cases a with
  | none =>
    cases b with
    | none => rfl
    | some b => exact absurd hab.symm (hnull b)
  | some a =>
    cases b with
    | none => exact absurd hab (hnull a)
    | some b => exact congrArg some (h hab)

theorem num_injective : Function.Injective num := fun _ _ => num.inj

theorem texts_injective : Function.Injective texts := fun _ _ h =>
  List.map_injective_iff.mpr (fun _ _ => str.inj) (arr.inj h)

theorem record_injective : Function.Injective record := fun _ _ h => by
  refine List.map_injective_iff.mpr ?_ (obj.inj h)
  rintro ⟨key, value⟩ ⟨key', value'⟩ hfield
  simpa [String.toList_inj] using hfield

/-- Entries that can be told apart make lists that can be told apart. -/
theorem arr_map_inj {α : Type} {toJson : α → Json} (h : Function.Injective toJson)
    {list others : List α} : list.map toJson = others.map toJson ↔ list = others :=
  (List.map_injective_iff.mpr h).eq_iff

end Json

open Json

/-! ## 2. Arguments and steps -/

theorem Tag.toJson_injective : Function.Injective Tag.toJson := by
  rintro ⟨name, line, limit⟩ ⟨name', line', limit'⟩ h
  have hlimit := part_injective num_injective fun _ => Json.noConfusion
  simpa [Tag.toJson, record, hlimit.eq_iff] using h

theorem Row.toJson_injective : Function.Injective Row.toJson := by
  rintro ⟨cells, line⟩ ⟨cells', line'⟩ h
  simpa [Row.toJson, record, texts_injective.eq_iff] using h

theorem Table.toJson_injective : Function.Injective Table.toJson := by
  rintro ⟨headings, rows, line⟩ ⟨headings', rows', line'⟩ h
  simpa [Table.toJson, record, texts_injective.eq_iff, arr_map_inj Row.toJson_injective] using h

theorem Docstring.toJson_injective : Function.Injective Docstring.toJson := by
  rintro ⟨value, contentType, line⟩ ⟨value', contentType', line'⟩ h
  simpa [Docstring.toJson, record] using h

theorem StepType.name_injective : Function.Injective StepType.name := by
  intro type other h
  have hread := congrArg ofName? h
  rwa [ofName?_name, ofName?_name, Option.some.injEq] at hread

theorem Step.toJson_injective : Function.Injective Step.toJson := by
  rintro ⟨keyword, type, text, table, docstring, line⟩
    ⟨keyword', type', text', table', docstring', line'⟩ h
  have htable := part_injective Table.toJson_injective fun _ => Json.noConfusion
  have hdocstring := part_injective Docstring.toJson_injective fun _ => Json.noConfusion
  simpa [Step.toJson, record, StepType.name_injective.eq_iff, htable.eq_iff,
    hdocstring.eq_iff] using h

/-! ## 3. Statements -/

theorem Json.tags_injective : Function.Injective Json.tags := fun _ _ h =>
  (arr_map_inj Tag.toJson_injective).mp (arr.inj h)

theorem Json.steps_injective : Function.Injective Json.steps := fun _ _ h =>
  (arr_map_inj Step.toJson_injective).mp (arr.inj h)

theorem Background.toJson_injective : Function.Injective Background.toJson := by
  rintro ⟨⟨keyword, title, line⟩, description, steps⟩
    ⟨⟨keyword', title', line'⟩, description', steps'⟩ h
  obtain ⟨rfl, rfl, rfl, rfl, rfl⟩ : keyword = keyword' ∧ title = title' ∧
      description = description' ∧ steps = steps' ∧ line = line' := by
    simpa [Background.toJson, record, texts_injective.eq_iff, steps_injective.eq_iff] using h
  rfl

theorem Examples.toJson_injective : Function.Injective Examples.toJson := by
  rintro ⟨⟨keyword, title, line⟩, tags, table⟩ ⟨⟨keyword', title', line'⟩, tags', table'⟩ h
  have htable := part_injective Table.toJson_injective fun _ => Json.noConfusion
  obtain ⟨rfl, rfl, rfl, rfl, rfl⟩ : keyword = keyword' ∧ title = title' ∧ tags = tags' ∧
      table = table' ∧ line = line' := by
    simpa [Examples.toJson, record, tags_injective.eq_iff, htable.eq_iff] using h
  rfl

theorem Scenario.toJson_injective : Function.Injective Scenario.toJson := by
  rintro ⟨⟨keyword, title, line⟩, tags, description, steps, blocks⟩
    ⟨⟨keyword', title', line'⟩, tags', description', steps', blocks'⟩ h
  obtain ⟨rfl, rfl, rfl, rfl, rfl, rfl, rfl⟩ : keyword = keyword' ∧ title = title' ∧
      description = description' ∧ tags = tags' ∧ steps = steps' ∧ blocks = blocks' ∧
      line = line' := by
    -- The field that says which kind the scenario is of tells the two shapes apart.
    cases blocks <;> cases blocks'
    case none.some | some.none => simp [Scenario.toJson, record] at h
    case none.none | some.some =>
      simpa [Scenario.toJson, record, texts_injective.eq_iff, tags_injective.eq_iff,
        steps_injective.eq_iff, arr_map_inj Examples.toJson_injective] using h
  rfl

/-! ## 4. Groups and features -/

theorem Group.eq_of_fields {group other : Group} (h : group.fields = other.fields)
    (hline : group.header.line = other.header.line) : group = other := by
  obtain ⟨⟨keyword, title, line⟩, tags, description, background, scenarios⟩ := group
  obtain ⟨⟨keyword', title', line'⟩, tags', description', background', scenarios'⟩ := other
  have hbackground := part_injective Background.toJson_injective fun _ => Json.noConfusion
  obtain ⟨rfl, rfl, rfl, rfl, rfl, rfl⟩ : keyword = keyword' ∧ title = title' ∧
      description = description' ∧ tags = tags' ∧ background = background' ∧
      scenarios = scenarios' := by
    simpa [Group.fields, texts_injective.eq_iff, tags_injective.eq_iff, hbackground.eq_iff,
      arr_map_inj Scenario.toJson_injective] using h
  obtain rfl : line = line' := hline
  rfl

theorem Group.toJson_injective : Function.Injective Group.toJson := by
  intro group other h
  obtain ⟨hfields, hline⟩ := List.append_inj (record_injective h) rfl
  exact Group.eq_of_fields hfields (by simpa using hline)

theorem Feature.toJson_injective : Function.Injective Feature.toJson := by
  rintro ⟨source, language, top, rules⟩ ⟨source', language', top', rules'⟩ h
  obtain ⟨hfront, hback⟩ := List.append_inj (record_injective h) rfl
  obtain ⟨rfl, rfl, hfields⟩ : source = source' ∧ language = language' ∧
      top.fields = top'.fields := by
    simpa [optional_injective.eq_iff] using hfront
  obtain ⟨rfl, hline⟩ : rules = rules' ∧ top.header.line = top'.header.line := by
    simpa [arr_map_inj Group.toJson_injective] using hback
  rw [Group.eq_of_fields hfields hline]

/-! ## 5. Reports -/

/-- The title comes first or second, depending on whether there is a rule. -/
theorem Selected.toJson_injective : Function.Injective Selected.toJson := by
  rintro ⟨source, rule, title, line, tags⟩ ⟨source', rule', title', line', tags'⟩ h
  obtain ⟨rfl, rfl, rfl, rfl, rfl⟩ : source = source' ∧ rule = rule' ∧ title = title' ∧
      line = line' ∧ tags = tags' := by
    cases rule <;> cases rule'
    case none.some | some.none => simp [Selected.toJson, record] at h
    case none.none | some.some =>
      simpa [Selected.toJson, record, optional_injective.eq_iff, texts_injective.eq_iff] using h
  rfl

theorem TagExpr.Limits.toJson_injective : Function.Injective TagExpr.Limits.toJson := by
  intro limits others h
  refine List.map_injective_iff.mpr ?_ (obj.inj h)
  rintro ⟨tag, limit⟩ ⟨tag', limit'⟩ hentry
  simpa using hentry

namespace Command

theorem Report.toJson_injective : Function.Injective Report.toJson := by
  rintro ⟨scenarios, limits⟩ ⟨scenarios', limits'⟩ h
  simpa [Report.toJson, record, arr_map_inj Selected.toJson_injective,
    TagExpr.Limits.toJson_injective.eq_iff] using h

/-- Documents in JSON lose nothing. -/
theorem Writer.faithful_json : Writer.json.Faithful where
  tree := document_injective.comp
    (part_injective Feature.toJson_injective fun _ => Json.noConfusion)
  report := document_injective.comp Report.toJson_injective

end Command

end Gherkin
