/-
  Gherkin/Proofs/Session/Slots.lean
  =================================
  **Where open nodes go.**

  Closing a table, a statement or a rule moves what is open into its place and
  leaves the rest of the session alone.  Each of these moves is one equation
  that names the slots it changes (`closeTable_eq`, `closeStatement_eq`,
  `closeRule_eq`, `mapGroup_eq`), so that the other slots can be read off without
  looking at the move.  A line that is no row faces the session with its table
  closed (`facing_eq_closeTable`).
-/
import Gherkin.Proofs.Session.Transition

namespace Gherkin

open Text

/-! ## 1. Changing the last entry -/

@[simp] theorem length_mapLast {α : Type} (f : α → α) (list : List α) :
    (mapLast f list).length = list.length := by
  induction list using mapLast.induct with
  | case1 => rfl
  | case2 a => rfl
  | case3 a b rest ih => simpa [mapLast] using ih

@[simp] theorem mapLast_eq_nil_iff {α : Type} (f : α → α) (list : List α) :
    mapLast f list = [] ↔ list = [] := by
  rw [← List.length_eq_zero_iff, length_mapLast, List.length_eq_zero_iff]

/-- What a change of the last entry keeps of every entry, it keeps of the list. -/
theorem map_mapLast {α β : Type} {f : α → α} {g : α → β} (h : ∀ a, g (f a) = g a)
    (list : List α) : (mapLast f list).map g = list.map g := by
  induction list using mapLast.induct with
  | case1 => rfl
  | case2 a => simp [mapLast, h]
  | case3 a b rest ih => simpa [mapLast] using ih

/-- A property of every entry survives a change of the last one that keeps it. -/
theorem forall_mem_mapLast {α : Type} {P : α → Prop} {f : α → α} (hf : ∀ a, P a → P (f a))
    {list : List α} (h : ∀ a ∈ list, P a) : ∀ a ∈ mapLast f list, P a := by
  induction list using mapLast.induct with
  | case1 => exact h
  | case2 a => simpa [mapLast] using hf a (h a List.mem_cons_self)
  | case3 a b rest ih =>
    intro c hc
    rw [mapLast, List.mem_cons] at hc
    rcases hc with rfl | hc
    · exact h c List.mem_cons_self
    · exact ih (fun d hd => h d (List.mem_cons_of_mem _ hd)) c hc

/-! ## 2. Statements -/

namespace Statement

@[simp] theorem steps_mapSteps (f : List Step → List Step) (statement : Statement) :
    (statement.mapSteps f).steps = f statement.steps := by
  cases statement <;> rfl

@[simp] theorem steps_addStep (statement : Statement) (step : Step) :
    (statement.addStep step).steps = statement.steps ++ [step] := steps_mapSteps _ _

@[simp] theorem steps_mapLastStep (f : Step → Step) (statement : Statement) :
    (statement.mapLastStep f).steps = mapLast f statement.steps := steps_mapSteps _ _

@[simp] theorem steps_describe (line : Text) (statement : Statement) :
    (statement.describe line).steps = statement.steps := by
  cases statement <;> rfl

@[simp] theorem steps_mapBlocks (f : List Examples → List Examples) (statement : Statement) :
    (statement.mapBlocks f).steps = statement.steps := by
  cases statement <;> rfl

@[simp] theorem blocks?_mapSteps (f : List Step → List Step) (statement : Statement) :
    (statement.mapSteps f).blocks? = statement.blocks? := by
  cases statement <;> rfl

@[simp] theorem blocks?_addStep (statement : Statement) (step : Step) :
    (statement.addStep step).blocks? = statement.blocks? := blocks?_mapSteps _ _

@[simp] theorem blocks?_mapLastStep (f : Step → Step) (statement : Statement) :
    (statement.mapLastStep f).blocks? = statement.blocks? := blocks?_mapSteps _ _

@[simp] theorem blocks?_describe (line : Text) (statement : Statement) :
    (statement.describe line).blocks? = statement.blocks? := by
  cases statement <;> rfl

@[simp] theorem blocks?_mapBlocks (f : List Examples → List Examples) (statement : Statement) :
    (statement.mapBlocks f).blocks? = statement.blocks?.map f := by
  cases statement <;> rfl

@[simp] theorem isScenario_mapSteps (f : List Step → List Step) (statement : Statement) :
    (statement.mapSteps f).isScenario = statement.isScenario := by
  cases statement <;> rfl

@[simp] theorem isScenario_addStep (statement : Statement) (step : Step) :
    (statement.addStep step).isScenario = statement.isScenario := isScenario_mapSteps _ _

@[simp] theorem isScenario_mapLastStep (f : Step → Step) (statement : Statement) :
    (statement.mapLastStep f).isScenario = statement.isScenario := isScenario_mapSteps _ _

@[simp] theorem isScenario_describe (line : Text) (statement : Statement) :
    (statement.describe line).isScenario = statement.isScenario := by
  cases statement <;> rfl

@[simp] theorem isScenario_mapBlocks (f : List Examples → List Examples)
    (statement : Statement) : (statement.mapBlocks f).isScenario = statement.isScenario := by
  cases statement <;> rfl

def lastType (statement : Statement) : Option StepType :=
  statement.steps.getLast?.map (·.type)

end Statement

/-- Attaching an argument does not change what kind of step it is. -/
@[simp] theorem Step.type_withTable (step : Step) (table : Table) :
    (step.withTable table).type = step.type := by
  unfold Step.withTable Step.announced
  split <;> rfl

@[simp] theorem Step.type_withDocstring (step : Step) (docstring : Docstring) :
    (step.withDocstring docstring).type = step.type := by
  unfold Step.withDocstring Step.announced
  split <;> rfl

/-- A change of the last step that keeps its type keeps the last type. -/
theorem Statement.lastType_mapLastStep {f : Step → Step} (h : ∀ step, (f step).type = step.type)
    (statement : Statement) : (statement.mapLastStep f).lastType = statement.lastType := by
  unfold Statement.lastType
  rw [← List.getLast?_map, ← List.getLast?_map, steps_mapLastStep, map_mapLast h]

/-! ## 3. Moves -/

/-- What a mode that is left adds to the open statement: the table that has
    been read in it. -/
def Mode.attach : Mode → Statement → Statement
  | .examples table =>
    (·.mapBlocks (mapLast fun block => { block with table := table }))
  | .stepTable table => (·.mapLastStep (·.withTable table))
  | _ => id

def Mode.left : Mode → Mode
  | .examples _ | .stepTable _ => .steps
  | mode => mode

/-- The group with what is open below it in its place. -/
def Group.closeAll (group : Group) (statement : Option Statement) : Group :=
  statement.elim group group.close

@[simp] theorem Group.header_closeAll (group : Group) (statement : Option Statement) :
    (group.closeAll statement).header = group.header := by
  rcases statement with _ | statement
  · rfl
  · cases statement <;> rfl

namespace Session

theorem closeTable_eq (s : Session) :
    s.closeTable =
      { s with mode := s.mode.left, statement := s.statement.map s.mode.attach } := by
  obtain ⟨_, _, _, _, _, _, _, mode, _, _, _, _, _ | statement⟩ := s <;> cases mode <;> rfl

theorem mapGroup_eq (s : Session) (f : Group → Group) :
    s.mapGroup f =
      { s with
        rule := s.rule.map f
        feature :=
          if s.rule.isSome then s.feature
          else s.feature.map fun feature => { feature with top := f feature.top } } := by
  obtain ⟨_, _, _, _, _, _, _, _, _, _, _ | feature, _ | rule, _⟩ := s <;> rfl

theorem closeStatement_eq (s : Session) :
    s.closeStatement =
      { s with
        statement := none
        rule := s.rule.map (·.closeAll s.statement)
        feature :=
          if s.rule.isSome then s.feature
          else s.feature.map fun feature =>
            { feature with top := feature.top.closeAll s.statement } } := by
  obtain ⟨_, _, _, _, _, _, _, _, _, _, _ | feature, _ | rule, _ | statement⟩ := s <;> rfl

theorem closeRule_eq (s : Session) :
    s.closeRule =
      { s with
        rule := none
        feature := s.feature.map fun feature =>
          { feature with rules := feature.rules ++ s.rule.toList } } := by
  obtain ⟨_, _, _, _, _, _, _, _, _, _, _ | feature, _ | rule, _⟩ := s <;> simp [closeRule]

theorem startStatement_eq (s : Session) (statement : Statement) (mode : Mode) :
    s.startStatement statement mode =
      { s.closeStatement with statement := some statement, lastType := none, mode := mode } := rfl

theorem closeTable_of_left {s : Session} (h : s.mode.left = s.mode) : s.closeTable = s := by
  rw [closeTable_eq, h]
  have hattach : s.statement.map s.mode.attach = s.statement := by
    cases hs : s.mode <;> simp_all [Mode.left, Mode.attach]
  rw [hattach]

theorem inTable_eq_false_iff {s : Session} : s.inTable = false ↔ s.mode.left = s.mode := by
  unfold inTable
  cases hs : s.mode <;> simp [Mode.left]

theorem facing_eq_closeTable {s : Session} {raw : Text}
    (h : s.inTable = true → leads '|' (trim raw) = false) :
    s.facing raw = (s.enter raw).closeTable := by
  unfold Session.facing leaveTable
  have hin : (s.enter raw).inTable = s.inTable := rfl
  cases htable : s.inTable with
  | true => simp [hin, htable, h htable]
  | false => simp [hin, htable, closeTable_of_left (inTable_eq_false_iff.mp (hin.trans htable))]

/-! ## 4. What no line changes -/

/-- Two sessions that read the same thing in the same way. -/
structure SameSetup (s t : Session) : Prop where
  entry : t.entry = s.entry
  catalogue : t.catalogue = s.catalogue
  standard : t.standard = s.standard
  fixed : t.fixed = s.fixed
  source : t.source = s.source
  language : s.fixed = true → t.language = s.language

theorem SameSetup.trans {s t u : Session} (h : s.SameSetup t) (h' : t.SameSetup u) :
    s.SameSetup u :=
  ⟨h'.entry.trans h.entry, h'.catalogue.trans h.catalogue, h'.standard.trans h.standard,
    h'.fixed.trans h.fixed, h'.source.trans h.source,
    fun hs => (h'.language (h.fixed.trans hs)).trans (h.language hs)⟩

theorem closeTable_setup (s : Session) : s.SameSetup s.closeTable := by
  rw [closeTable_eq]
  exact ⟨rfl, rfl, rfl, rfl, rfl, fun _ => rfl⟩

theorem closeStatement_setup (s : Session) : s.SameSetup s.closeStatement := by
  rw [closeStatement_eq]
  exact ⟨rfl, rfl, rfl, rfl, rfl, fun _ => rfl⟩

theorem closeRule_setup (s : Session) : s.SameSetup s.closeRule := by
  rw [closeRule_eq]
  exact ⟨rfl, rfl, rfl, rfl, rfl, fun _ => rfl⟩

/-- Settling on a language does not change it. -/
theorem enter_language (s : Session) (raw : Text) : (s.enter raw).language = s.language := by
  unfold Session.enter Session.language
  split <;> rfl

theorem facing_setup (s : Session) (raw : Text) : s.SameSetup (s.facing raw) := by
  have henter : s.SameSetup (s.enter raw) :=
    ⟨rfl, rfl, rfl, rfl, rfl, fun _ => s.enter_language raw⟩
  exact facing_cases s raw henter (henter.trans (closeTable_setup (s.enter raw)))

@[simp] theorem facing_line (s : Session) (raw : Text) : (s.facing raw).line = s.line + 1 := by
  refine facing_cases s raw rfl ?_
  rw [closeTable_eq]
  rfl

@[simp] theorem facing_inDocstring (s : Session) (raw : Text) :
    (s.facing raw).inDocstring = s.inDocstring := by
  refine facing_cases s raw rfl ?_
  rw [closeTable_eq]
  unfold inDocstring Session.enter
  cases s.mode <;> rfl

theorem takes_setup {s t : Session} {raw : Text} {kind : LineKind} (h : Takes s raw kind t) :
    s.SameSetup t ∧ t.line = s.line := by
  cases h with
  | rule hs hfits hfeature =>
    rw [closeStatement_eq, closeRule_eq]
    exact ⟨⟨rfl, rfl, rfl, rfl, rfl, fun _ => rfl⟩, rfl⟩
  | scenario hs hknown hfits hgroup =>
    rw [startStatement_eq, closeStatement_eq]
    exact ⟨⟨rfl, rfl, rfl, rfl, rfl, fun _ => rfl⟩, rfl⟩
  | background hs hfits htags hfresh =>
    rw [startStatement_eq, closeStatement_eq]
    exact ⟨⟨rfl, rfl, rfl, rfl, rfl, fun _ => rfl⟩, rfl⟩
  | groupDescription hs htagless hplain =>
    rw [mapGroup_eq]
    exact ⟨⟨rfl, rfl, rfl, rfl, rfl, fun _ => rfl⟩, rfl⟩
  | _ => exact ⟨⟨rfl, rfl, rfl, rfl, rfl, fun _ => rfl⟩, rfl⟩

/-- A line changes neither what is read nor how, and it counts as one. -/
theorem feed_setup {s t : Session} {raw : Text} (h : s.feed raw = .ok t) :
    s.SameSetup t ∧ t.line = s.line + 1 := by
  rcases feed_cases h with ⟨-, chosen, rfl, hchosen⟩ | ⟨-, -, kind, -, htakes⟩
  · refine ⟨⟨rfl, rfl, rfl, rfl, rfl, fun hfixed => ?_⟩, rfl⟩
    rcases hchosen with rfl | ⟨-, hfree, -⟩
    · rfl
    · simp [hfixed] at hfree
  · obtain ⟨hsetup, hline⟩ := takes_setup htakes
    exact ⟨(facing_setup s raw).trans hsetup, by rw [hline, facing_line]⟩

theorem ok_of_feedAll_cons {s t : Session} {raw : Text} {rest : List Text}
    (h : s.feedAll (raw :: rest) = .ok t) :
    ∃ next, s.feed raw = .ok next ∧ next.feedAll rest = .ok t := by
  rw [feedAll_cons] at h
  cases hnext : s.feed raw with
  | error failure => simp [hnext, Except.bind] at h
  | ok next =>
    rw [hnext] at h
    exact ⟨next, rfl, h⟩

theorem feedAll_cons_of_ok {s t : Session} {raw : Text} (h : s.feed raw = .ok t)
    (rest : List Text) : s.feedAll (raw :: rest) = t.feedAll rest := by
  rw [feedAll_cons, h]
  rfl

theorem feedAll_append_of_ok {s t : Session} {raws : List Text} (h : s.feedAll raws = .ok t)
    (more : List Text) : s.feedAll (raws ++ more) = t.feedAll more := by
  rw [feedAll_append, h]
  rfl

theorem ok_of_feedAll_append {s t : Session} {raws more : List Text}
    (h : s.feedAll (raws ++ more) = .ok t) :
    ∃ u, s.feedAll raws = .ok u ∧ u.feedAll more = .ok t := by
  rw [feedAll_append] at h
  cases hraws : s.feedAll raws with
  | error failure => simp [hraws, Except.bind] at h
  | ok u =>
    rw [hraws] at h
    exact ⟨u, rfl, h⟩

theorem feedAll_cons_of_error {s : Session} {raw : Text} {failure : Failure}
    (h : s.feed raw = .error failure) (rest : List Text) :
    s.feedAll (raw :: rest) = .error failure := by
  rw [feedAll_cons, h]
  rfl

/-- An invariant of reading: what holds before a reading and is kept by every
    line holds behind it. -/
theorem feedAll_induction {P : Session → List Text → Prop} {s t : Session} {raws : List Text}
    (hfeed : s.feedAll raws = .ok t) (h : P s raws)
    (hstep : ∀ {s raw rest next}, P s (raw :: rest) → s.feed raw = .ok next → P next rest) :
    P t [] := by
  induction raws generalizing s with
  | nil =>
    rw [feedAll_nil, Except.ok.injEq] at hfeed
    exact hfeed ▸ h
  | cons raw raws ih =>
    obtain ⟨next, hnext, hrest⟩ := ok_of_feedAll_cons hfeed
    exact ih hrest (hstep h hnext)

theorem feedAll_setup {s t : Session} {raws : List Text} (h : s.feedAll raws = .ok t) :
    s.SameSetup t :=
  feedAll_induction (P := fun u _ => s.SameSetup u) h ⟨rfl, rfl, rfl, rfl, rfl, fun _ => rfl⟩
    fun hsetup hfeed => hsetup.trans (feed_setup hfeed).1

end Session

end Gherkin
