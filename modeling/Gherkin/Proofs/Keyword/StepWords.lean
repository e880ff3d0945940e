/-
  Gherkin/Proofs/Keyword/StepWords.lean
  =====================================
  **What the keyword of a step says about its type.**

  A step keeps its alias without the blank behind it, and one keyword can stand
  for several aliases.  In every bundled language it does not matter: the
  neutral alias is the first of all and the only one with an asterisk, and no
  other keyword belongs to two types (`Builtin.settled`).  No step alias begins
  like a comment, a row or a fence, so a step line is none of these.
-/
import Gherkin.Keyword.Builtin
import Gherkin.Proofs.Keyword.Clarity

namespace Gherkin

open Text

/-- The keyword of every type. -/
def neutralWord : Text := ['*']

namespace Keywords

variable {keywords : Keywords} {line : Text} {found : StepMatch}

/-- The keywords that the steps of a type keep. -/
def stepWords (keywords : Keywords) (type : StepType) : List Text :=
  (keywords.aliases (.step type)).map trimEnd

/-- The keyword of a step settles its type, unless it is the neutral one. -/
structure Settled (keywords : Keywords) : Prop where
  first : keywords.stepAliases.head? = some (.context, neutralWord ++ [' '])
  neutral : ∀ step ∈ keywords.stepAliases,
    leads '*' step.2 = true ∨ trimEnd step.2 = neutralWord → step.2 = neutralWord ++ [' ']
  distinct : ∀ step ∈ keywords.stepAliases, ∀ other ∈ keywords.stepAliases,
    trimEnd step.2 = trimEnd other.2 → step.2 = neutralWord ++ [' '] ∨ step.1 = other.1
  unsigned : ∀ step ∈ keywords.stepAliases, ∀ sign ∈ signs, diverge [sign] step.2 = true

theorem mem_stepAliases {step : StepType × Text} :
    step ∈ keywords.stepAliases ↔ step.2 ∈ keywords.aliases (.step step.1) := by
  obtain ⟨type, spelling⟩ := step
  simp [stepAliases, StepType.mem_all]

theorem mem_stepWords_of_step? (h : keywords.step? line = some found) :
    found.keyword ∈ keywords.stepWords found.type :=
  List.mem_map_of_mem (mem_stepAliases.mp (exists_of_step? h).1)

/-- A step has the neutral keyword exactly if its alias has an asterisk. -/
theorem Settled.leads_iff (h : keywords.Settled) (hfound : keywords.step? line = some found) :
    leads '*' found.spelling = true ↔ found.keyword = neutralWord := by
  have hneutral : leads '*' found.spelling = true ∨ found.keyword = neutralWord →
      found.spelling = neutralWord ++ [' '] := h.neutral _ (exists_of_step? hfound).1
  constructor
  · intro hlead
    rw [StepMatch.keyword, hneutral (.inl hlead)]
    rfl
  · intro hkeyword
    rw [hneutral (.inr hkeyword)]
    rfl

/-- A step with the neutral keyword was recognised as a context. -/
theorem Settled.type_of_neutral (h : keywords.Settled)
    (hfound : keywords.step? line = some found) (hkeyword : found.keyword = neutralWord) :
    found.type = .context := by
  obtain ⟨hmem, rest, hafter, -⟩ := exists_of_step? hfound
  have hspelling : found.spelling = neutralWord ++ [' '] := h.neutral _ hmem (.inr hkeyword)
  -- The first alias of all has the same spelling, so it was found in the first place.
  obtain ⟨tail, htail⟩ := List.head?_eq_some_iff.mp h.first
  rw [step?_eq_findSome?, htail, List.findSome?_cons, ← hspelling, hafter] at hfound
  simp only [Option.map_some, Option.some.injEq] at hfound
  rw [← hfound]

/-- A keyword that is not neutral belongs to the type as which the step was
    recognised, and to no other. -/
theorem Settled.type_eq (h : keywords.Settled) (hfound : keywords.step? line = some found)
    (hne : found.keyword ≠ neutralWord) {type : StepType}
    (htype : found.keyword ∈ keywords.stepWords type) : found.type = type := by
  obtain ⟨spelling, hspelling, hsame⟩ := List.mem_map.mp htype
  have hmem := (exists_of_step? hfound).1
  have hother : (type, spelling) ∈ keywords.stepAliases := mem_stepAliases.mpr hspelling
  rcases h.distinct _ hmem _ hother hsame.symm with hneutral | htypes
  · have hspelling : found.spelling = neutralWord ++ [' '] := hneutral
    refine absurd ?_ hne
    rw [StepMatch.keyword, hspelling]
    rfl
  · exact htypes

/-- A step line begins with none of the signs. -/
theorem Settled.head_not_mem_signs (h : keywords.Settled)
    (hfound : keywords.step? line = some found) : ∃ c ∈ line.head?, c ∉ signs := by
  obtain ⟨hmem, rest, hafter, -⟩ := exists_of_step? hfound
  cases line with
  | nil =>
    have hempty : found.spelling = [] := by
      cases hspelling : found.spelling with
      | nil => rfl
      | cons c spelling => simp [hspelling, afterAnyCase?] at hafter
    have := h.unsigned _ hmem '@' (by decide)
    simp [hempty, diverge] at this
  | cons c line =>
    refine ⟨c, rfl, ?_⟩
    intro hsign
    have hnone := afterAnyCase?_of_diverge (h.unsigned _ hmem c hsign) line
    rw [List.singleton_append, hafter] at hnone
    simp at hnone

end Keywords

namespace Builtin

theorem settled_of_mem : ∀ language ∈ languages, language.keywords.Settled := by
  intro language hlanguage
  simp only [languages, List.mem_cons, List.not_mem_nil, or_false] at hlanguage
  rcases hlanguage with rfl | rfl | rfl | rfl | rfl | rfl <;> constructor <;> decide +kernel

theorem settled {code : Text} {keywords : Keywords}
    (hlookup : catalogue.lookup code = some keywords) : keywords.Settled := by
  obtain ⟨language, hfind, rfl⟩ := Option.map_eq_some_iff.mp hlookup
  exact settled_of_mem language (List.mem_of_find?_eq_some hfind)

end Builtin

end Gherkin
