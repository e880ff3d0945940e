/-
  Gherkin/Proofs/RoundTrip/StepLines.lean
  =======================================
  **Which written step lines are read back as the same step.**

  A step keeps its alias without the blank behind it, and a trimmed text.  The
  written line puts one separator between the two, which makes the keyword the
  alias again, but where several blanks stood behind the alias the text now
  follows directly.  So an alias that continues the first one can capture the
  beginning of the text.  Nothing else can go wrong (`step?_stepLine_iff`), and
  of the bundled languages it happens in French alone, where `que` or `qu'` may
  follow an alias.
-/
import Gherkin.Proofs.RoundTrip.Written

namespace Gherkin

open Text

/-! ## 1. Aliases that are tested in order -/

namespace Keywords

variable {keywords : Keywords} {line : Text} {found : StepMatch} {step : Step}

/-- The step aliases are made of their keywords, and longer ones are tested
    first. -/
structure Orderly (keywords : Keywords) : Prop where
  plain : ∀ step ∈ keywords.stepAliases, beginsPlainly step.2 = true
  separator : ∀ step ∈ keywords.stepAliases,
    trimEnd step.2 ++ Printer.separator (trimEnd step.2) = step.2
  longestFirst : keywords.LongestFirst

theorem Clear.orderly (h : keywords.Clear) : keywords.Orderly where
  plain step hstep := (h.step_plain step hstep).1
  separator := h.step_separator
  longestFirst := h.longestFirst

/-- The trimmed line of a step without arguments is the alias and the text. -/
theorem Orderly.trim_stepLine (h : keywords.Orderly) (hline : Trimmed line)
    (hfound : keywords.step? line = some found) (hkeyword : step.keyword = found.keyword)
    (htext : step.text = found.text) (hbare : step.hasArgument = false) (depth : Nat) :
    trim (Printer.indent depth (Printer.stepLine step)) = found.spelling ++ found.text := by
  obtain ⟨hmem, rest, -, hrest⟩ := exists_of_step? hfound
  have hseparator : found.keyword ++ Printer.separator found.keyword = found.spelling :=
    h.separator _ hmem
  have hwritten : Printer.stepLine step = found.spelling ++ found.text := by
    rw [Step.stepLine_eq, hkeyword, hseparator, Step.written, htext, hbare]
    simp
  have htrimmed : Trimmed found.text := hrest ▸ trimmed_trim rest
  have hplain := h.plain _ hmem
  rw [trim_indent, hwritten]
  apply trim_eq_self
  constructor
  · exact (solidStart_of_beginsPlainly hplain).append (ne_nil_of_beginsPlainly hplain)
  · by_cases hempty : found.text = []
    · rw [hempty, List.append_nil]
      exact solidEnd_spelling hline hfound hseparator hempty
    · exact htrimmed.2.append hempty

/-- Two aliases with the same keyword are the same alias. -/
theorem Orderly.spelling_eq (h : keywords.Orderly) {other : Text} {again : StepMatch}
    (hfound : keywords.step? line = some found) (hagain : keywords.step? other = some again)
    (hkeyword : again.keyword = found.keyword) : again.spelling = found.spelling := by
  have hseparator : found.keyword ++ Printer.separator found.keyword = found.spelling :=
    h.separator _ (exists_of_step? hfound).1
  have hother : again.keyword ++ Printer.separator again.keyword = again.spelling :=
    h.separator _ (exists_of_step? hagain).1
  rw [← hseparator, ← hother, hkeyword]

/-- The written line of a step is the same step again exactly if no alias
    captures its text. -/
theorem Orderly.reread_iff (h : keywords.Orderly) (hline : Trimmed line)
    (hfound : keywords.step? line = some found) (hkeyword : step.keyword = found.keyword)
    (htext : step.text = found.text) (hbare : step.hasArgument = false) (depth : Nat) :
    (∃ again, keywords.step? (trim (Printer.indent depth (Printer.stepLine step))) = some again ∧
      again.type = found.type ∧ again.keyword = found.keyword ∧ again.text = found.text) ↔
      ¬keywords.Captures found.spelling found.text := by
  rw [h.trim_stepLine hline hfound hkeyword htext hbare]
  constructor
  · rintro ⟨again, hagain, -, hsame, -⟩ hcaptures
    exact h.longestFirst.spelling_ne_of_captures hcaptures hagain (h.spelling_eq hfound hagain hsame)
  · intro hfree
    obtain ⟨-, rest, -, hrest⟩ := exists_of_step? hfound
    refine ⟨_, h.longestFirst.step?_append hfound hfree, rfl, rfl, ?_⟩
    exact trim_eq_self (hrest ▸ trimmed_trim rest)

end Keywords

/-! ## 2. The bundled languages -/

namespace Builtin

theorem french_orderly : french.Orderly where
  plain := by decide +kernel
  separator := by decide +kernel
  longestFirst := french_longestFirst

theorem orderly_of_mem {language : Language} (hlanguage : language ∈ languages) :
    language.keywords.Orderly := by
  rcases clear_or_french language hlanguage with hclear | rfl
  · exact hclear.orderly
  · exact french_orderly

def conjunctions : List Text := texts ["que ", "qu'"]

theorem french_added :
    ∀ step ∈ french.stepAliases, ∀ other ∈ french.stepAliases, other.2 <+: step.2 →
      step.2 = other.2 ∨ step.2.drop other.2.length ∈ conjunctions := by
  decide +kernel

/-- Only in French a text is captured, and it begins with a conjunction. -/
theorem conjunction_of_captures {language : Language} (hlanguage : language ∈ languages)
    {step : StepType × Text} (hstep : step ∈ language.keywords.stepAliases) {text : Text}
    (hcaptures : language.keywords.Captures step.2 text) :
    language.code = "fr".toList ∧
      ∃ word ∈ conjunctions, (afterAnyCase? word text).isSome = true := by
  rcases clear_or_french language hlanguage with hclear | rfl
  · exact absurd hcaptures (hclear.not_captures hstep text)
  · obtain ⟨long, hlong, added, hne, hadded, hmatches⟩ := hcaptures
    refine ⟨rfl, added, ?_, hmatches⟩
    rcases french_added long hlong step hstep ⟨added, hadded.symm⟩ with hsame | hword
    · exact absurd (List.append_right_eq_self.mp (hadded.symm.trans hsame)) hne
    · rwa [hadded, List.drop_left] at hword

/-- In every bundled language a trimmed line that is a step gives, when the step
    is written without an argument, a line that is read as the same step exactly
    if no alias captures the text.  That happens in French alone, and only to a
    text that begins with `que` or `qu'`. -/
theorem step?_stepLine_iff {language : Language} (hlanguage : language ∈ languages) {line : Text}
    {found : StepMatch} (hline : Trimmed line)
    (hfound : language.keywords.step? line = some found) {step : Step}
    (hkeyword : step.keyword = found.keyword) (htext : step.text = found.text)
    (hbare : step.hasArgument = false) (depth : Nat) :
    ((∃ again,
        language.keywords.step? (trim (Printer.indent depth (Printer.stepLine step))) =
          some again ∧
        again.type = found.type ∧ again.keyword = found.keyword ∧ again.text = found.text) ↔
      ¬language.keywords.Captures found.spelling found.text) ∧
    (language.keywords.Captures found.spelling found.text →
      language.code = "fr".toList ∧
        ∃ word ∈ conjunctions, (afterAnyCase? word found.text).isSome = true) := by
  constructor
  · exact (orderly_of_mem hlanguage).reread_iff hline hfound hkeyword htext hbare depth
  · intro hcaptures
    exact conjunction_of_captures hlanguage (Keywords.exists_of_step? hfound).1 hcaptures

/-- A Japanese step has nothing between its keyword and its text. -/
theorem step?_stepLine_japanese :
    ∃ again,
      japanese.step? (trim (Printer.indent 2
        (Printer.stepLine ⟨"もし".toList, .action, "押す".toList, none, none, 1⟩))) = some again ∧
      again.type = .action ∧ again.keyword = "もし".toList ∧ again.text = "押す".toList := by
  have hfound : japanese.step? "もし 押す".toList =
      some ⟨"もし".toList, .action, "押す".toList⟩ := by decide +kernel
  have hmem : (⟨"ja".toList, japanese⟩ : Language) ∈ languages := by simp [languages]
  have hkeyword : Step.keyword ⟨"もし".toList, .action, "押す".toList, none, none, 1⟩ =
      StepMatch.keyword ⟨"もし".toList, .action, "押す".toList⟩ := by decide
  obtain ⟨hiff, honly⟩ := step?_stepLine_iff hmem (by decide) hfound hkeyword rfl rfl 2
  apply hiff.mpr
  intro hcaptures
  exact absurd (honly hcaptures).1 (by decide)

/-- Behind two blanks `que` belongs to the text, and behind one to the keyword. -/
theorem step?_stepLine_french :
    ∃ found again, Trimmed "Sachant  que b".toList ∧
      french.step? "Sachant  que b".toList = some found ∧
      found.keyword = "Sachant".toList ∧ found.text = "que b".toList ∧
      french.step? (trim (Printer.indent 2
        (Printer.stepLine ⟨found.keyword, found.type, found.text, none, none, 1⟩))) = some again ∧
      again.keyword = "Sachant que".toList ∧ again.text = "b".toList := by
  refine ⟨⟨"Sachant ".toList, .context, "que b".toList⟩, ⟨"Sachant que ".toList, .context, "b".toList⟩,
    ?_⟩
  decide +kernel

end Builtin

end Gherkin
