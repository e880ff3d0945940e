/-
  Gherkin/Proofs/RoundTrip/Nodes.lean
  ===================================
  **Reading written nodes.**

  The lines of an attested node lead from a draft to the draft with that node in
  it.  The statements follow the tree from its leaves to its groups; each of
  them strings together what is known of the parts of a node, in the order in
  which the parts are written.
-/
import Gherkin.Proofs.RoundTrip.Written

namespace Gherkin

open Text

/-! ## 1. Statements that grow -/

namespace Statement

theorem mapLastStep_addStep (statement : Statement) (step : Step) (f : Step → Step) :
    (statement.addStep step).mapLastStep f = statement.addStep (f step) := by
  cases statement <;> simp [addStep, mapLastStep, mapSteps, mapLast_append_singleton]

theorem mapSteps_append_nil (statement : Statement) :
    statement.mapSteps (· ++ []) = statement := by
  cases statement <;> simp [mapSteps]

theorem addStep_mapSteps (statement : Statement) (steps : List Step) (step : Step) :
    (statement.mapSteps (· ++ steps)).addStep step = statement.mapSteps (· ++ (steps ++ [step])) := by
  cases statement <;> simp [addStep, mapSteps]

def describeAll (lines : List Text) : Statement → Statement
  | .background node => .background { node with description := node.description ++ lines }
  | .scenario node => .scenario { node with description := node.description ++ lines }

theorem describeAll_nil (statement : Statement) : statement.describeAll [] = statement := by
  cases statement <;> simp [describeAll]

theorem describe_describeAll (statement : Statement) (lines : List Text) (line : Text) :
    (statement.describeAll lines).describe line = statement.describeAll (lines ++ [line]) := by
  cases statement <;> simp [describeAll, describe]

theorem mapBlocks_append_nil (statement : Statement) :
    statement.mapBlocks (· ++ []) = statement := by
  cases statement <;> simp [mapBlocks]

theorem mapBlocks_mapBlocks (statement : Statement) (f g : List Examples → List Examples) :
    (statement.mapBlocks f).mapBlocks g = statement.mapBlocks (g ∘ f) := by
  cases statement <;> simp [mapBlocks]

theorem lastType_mapSteps_append (statement : Statement) (steps : List Step) :
    (statement.mapSteps (· ++ steps)).lastType =
      (steps.getLast?.map (·.type)).or statement.lastType := by
  unfold lastType
  rw [steps_mapSteps, List.getLast?_append]
  cases steps.getLast? <;> rfl

end Statement

/-! ## 2. Steps -/

/-- A step of a list is attested behind the step before it. -/
theorem StepsAttested.of_append {src : Source} {keywords : Keywords} {last : Option StepType}
    {done rest : List Step} {step : Step}
    (h : StepsAttested src keywords last (done ++ step :: rest)) :
    step.Attested src keywords ((done.getLast?.map (·.type)).or last) := by
  induction done generalizing last with
  | nil => exact h.1
  | cons first done ih =>
    have hstep := ih h.2
    cases hdone : done.getLast? with
    | none => simpa [List.getLast?_cons, hdone] using hstep
    | some final => simpa [List.getLast?_cons, hdone] using hstep

namespace Step

/-- The docstring of the step can be written. -/
def Quotable (step : Step) : Prop :=
  ∀ docstring, step.docstring = some docstring → ¬docstring.Unrepresentable

/-- The step of a written line, before its arguments are read. -/
def bare (step : Step) : Step := ⟨step.keyword, step.type, step.written, none, none, 0⟩

/-- The step of a written line with its table. -/
def tabled (step : Step) : Step :=
  step.table.elim step.bare fun table => step.bare.withTable (table.renumber unnumbered)

theorem bare_announced {step : Step} (h : step.hasArgument = true) :
    step.bare.announced = { step.bare with text := step.text } := by
  have hbare : step.bare.hasArgument = false := rfl
  have htext : dropFinal ':' step.written = step.text := by
    simp [written, h, dropFinal_concat]
  rw [announced, hbare, if_neg Bool.false_ne_true]
  exact congrArg (fun text => { step.bare with text := text }) htext

/-- With its arguments a written step is what it was. -/
theorem renumber_eq_tabled (step : Step) :
    step.renumber unnumbered = step.docstring.elim step.tabled fun docstring =>
      step.tabled.withDocstring (docstring.renumber unnumbered) := by
  obtain ⟨keyword, type, text, table, docstring, line⟩ := step
  cases table with
  | none =>
    cases docstring with
    | none => simp [renumber, tabled, bare, written, hasArgument, unnumbered]
    | some docstring =>
      simp only [tabled, Option.elim_none, Option.elim_some, withDocstring]
      rw [bare_announced rfl]
      rfl
  | some table =>
    cases docstring with
    | none =>
      simp only [tabled, Option.elim_none, Option.elim_some, withTable]
      rw [bare_announced rfl]
      rfl
    | some docstring =>
      simp only [tabled, Option.elim_some, withTable]
      rw [bare_announced rfl]
      rfl

end Step

/-- A scenario of which only the header has been read. -/
def Scenario.bare (node : Scenario) : Scenario :=
  ⟨node.header.renumber unnumbered, node.tags.map (·.renumber unnumbered), [], [],
    node.blocks.map fun _ => []⟩

theorem Scenario.category_bare (node : Scenario) :
    node.category = .scenario ∧ node.bare.blocks = none ∨
      node.category = .outline ∧ node.bare.blocks = some [] := by
  unfold Scenario.category Scenario.bare
  cases node.blocks with
  | none => exact .inl ⟨rfl, rfl⟩
  | some blocks => exact .inr ⟨rfl, rfl⟩

/-- An Examples block before its table is read. -/
def Examples.bare (block : Examples) : Examples :=
  { block.renumber unnumbered with table := none }

theorem group_eq_append (depth inner : Nat) (node : Group) :
    Printer.group depth inner node = Printer.block depth (Printer.tagLine node.tags) ++
      [Printer.indent depth (Printer.header node.header)] ++
      (Printer.block inner node.description ++
        node.background.elim [] (Printer.background inner) ++
        node.scenarios.flatMap (Printer.scenario inner)) := by
  simp [Printer.group]

namespace Session

variable {src : Source} {language : Language} {place : Place} {group : Group}
  {statement : Statement} (hsrc : ∀ n raw, src n raw → SingleLine raw)
  (hclear : language.keywords.Clear)

include hsrc hclear

/-- The written line of a step.  A row starts a table only right behind it, so
    what is known there is the mode itself and not only the mode behind an open
    table. -/
theorem reads_stepLine {step : Step}
    (h : step.Attested src language.keywords statement.lastType) (depth : Nat) :
    Reads (Holds language Mode.hasStepLines ⟨place, group, some statement, []⟩)
      [Printer.indent depth (Printer.stepLine step)]
      (fun s => s.Sound ∧ s.Shows language Mode.isSteps
        ⟨place, group, some (statement.addStep step.bare), []⟩) := by
  obtain ⟨hplain, found, hfound, hkeyword, htype, htext⟩ := h.stepLine hclear depth
  refine Reads.line (singleLine_indent (h.singleLine hsrc hclear)) ?_
  intro s hs
  have hfed := hs.stepLine rfl hplain hfound htype
  rwa [hkeyword, htext] at hfed

theorem reads_tabled {last : Option StepType} {step : Step}
    (h : step.Attested src language.keywords last) (depth : Nat) :
    Reads
      (fun s => s.Sound ∧ s.Shows language Mode.isSteps
        ⟨place, group, some (statement.addStep step.bare), []⟩)
      (step.table.elim [] (Printer.table depth))
      (Holds language Mode.isSteps
        ⟨place, group, some (statement.addStep step.tabled), []⟩) := by
  unfold Step.tabled
  cases htable : step.table with
  | none =>
    refine Reads.nil ?_
    rintro s ⟨hsound, hs⟩
    refine hs.holds hsound ?_
    have hmode := hs.mode
    cases hm : s.mode <;> simp_all [Mode.isSteps, Mode.left]
  | some table =>
    have hattach := statement.mapLastStep_addStep step.bare
      (·.withTable (table.renumber unnumbered))
    simp only [Option.elim_some, ← hattach]
    exact reads_stepTable (d := ⟨place, group, some (statement.addStep step.bare), []⟩)
      ((h.table table htable).writable hsrc) depth hclear rfl (by simp)

omit hclear in
theorem reads_quoted {last : Option StepType} {step : Step}
    (h : step.Attested src language.keywords last) (hquotable : step.Quotable) (depth : Nat) :
    Reads
      (Holds language Mode.isSteps ⟨place, group, some (statement.addStep step.tabled), []⟩)
      (step.docstring.elim [] (Printer.docstring depth))
      (Holds language Mode.isSteps
        ⟨place, group, some (statement.addStep (step.renumber unnumbered)), []⟩) := by
  rw [Step.renumber_eq_tabled]
  cases hdocstring : step.docstring with
  | none => exact Reads.nil fun s hs => hs
  | some docstring =>
    have hwritable := (h.docstring docstring hdocstring).writable hsrc (hquotable _ hdocstring)
    have hattach := statement.mapLastStep_addStep step.tabled
      (·.withDocstring (docstring.renumber unnumbered))
    simp only [Option.elim_some, ← hattach]
    exact reads_docstring (d := ⟨place, group, some (statement.addStep step.tabled), []⟩)
      hwritable depth rfl (by simp)

/-- A written step comes back behind the steps before it. -/
theorem reads_step {step : Step} (h : step.Attested src language.keywords statement.lastType)
    (hquotable : step.Quotable) (depth : Nat) :
    Reads (Holds language Mode.hasStepLines ⟨place, group, some statement, []⟩)
      (Printer.step depth step)
      (Holds language Mode.hasStepLines
        ⟨place, group, some (statement.addStep (step.renumber unnumbered)), []⟩) := by
  exact (((reads_stepLine hsrc hclear h depth).append
    (reads_tabled hsrc hclear h (depth + 1))).append
    (reads_quoted hsrc h hquotable (depth + 1))).mono fun s hs =>
      hs.mono Mode.hasStepLines_of_isSteps

/-- Written steps come back in their order. -/
theorem reads_steps {steps : List Step} (h : StepsAttested src language.keywords none steps)
    (hquotable : ∀ step ∈ steps, step.Quotable)
    (hnone : statement.steps = []) (depth : Nat) :
    Reads (Holds language Mode.hasStepLines ⟨place, group, some statement, []⟩)
      (steps.flatMap (Printer.step depth))
      (Holds language Mode.hasStepLines
        ⟨place, group, some (statement.mapSteps (· ++ steps.map (·.renumber unnumbered))), []⟩) := by
  refine Reads.anti (Reads.flatMap (I := fun done : List Step => Holds language
    Mode.hasStepLines ⟨place, group, some (statement.mapSteps (· ++ done.map (·.renumber unnumbered))), []⟩) ?_) ?_
  swap
  · intro s hs
    rwa [List.map_nil, Statement.mapSteps_append_nil]
  intro done step rest hlist
  -- A conjunction takes its type from the step that is written before it.
  have hlast : (statement.mapSteps (· ++ done.map (·.renumber unnumbered))).lastType =
      (done.getLast?.map (·.type)).or none := by
    rw [Statement.lastType_mapSteps_append, List.getLast?_map, Option.map_map]
    simp [Statement.lastType, hnone, Function.comp_def, Step.renumber]
  have hattested : step.Attested src language.keywords
      (statement.mapSteps (· ++ done.map (·.renumber unnumbered))).lastType := by
    rw [hlast]
    exact StepsAttested.of_append (hlist ▸ h)
  simp only [List.map_append, List.map_singleton, ← Statement.addStep_mapSteps]
  exact reads_step hsrc hclear hattested (hquotable step (by simp [hlist])) depth

/-! ## 3. Statements -/

omit hsrc in
/-- A written line of tags leaves them waiting. -/
theorem reads_tagLine {open? : Option Statement} {tags : List Tag}
    (h : ∀ tag ∈ tags, tag.Attested src) (depth : Nat) :
    Reads (Holds language Mode.isOpen ⟨place, group, open?, []⟩)
      (Printer.block depth (Printer.tagLine tags))
      (Holds language Mode.isOpen
        ⟨place, group, open?, tags.map (·.renumber unnumbered)⟩) := by
  have hwords : ∀ tag ∈ tags, tag.FromWord := fun tag htag => (h tag htag).fromWord
  refine Reads.tagLine hwords ?_ ?_ depth
  · rintro rfl s hs
    exact hs
  · intro hne s raw hs hraw
    exact hs.tagLine hclear hwords hne hraw

omit hclear in
/-- The written description of a statement comes back line by line. -/
theorem reads_statementDescription {description : List Text}
    (h : StatementDescribed src language.keywords description) (depth : Nat) :
    Reads (Holds language Mode.isBody ⟨place, group, some statement, []⟩)
      (Printer.block depth description)
      (Holds language Mode.isBody
        ⟨place, group, some (statement.describeAll description), []⟩) := by
  rw [block_eq_flatMap]
  refine Reads.anti (Reads.flatMap (I := fun done => Holds language Mode.isBody
    ⟨place, group, some (statement.describeAll done), []⟩) ?_) ?_
  · intro done line rest hlist
    obtain ⟨hline, hstepless⟩ := h line (by simp [hlist])
    refine Reads.line (singleLine_indent (hline.singleLine hsrc)) ?_
    intro s hs
    rw [← Statement.describe_describeAll]
    exact hs.statementDescription rfl (hline.trim_indent depth) hline.visible hstepless hline.plain
  · intro s hs
    rwa [Statement.describeAll_nil]

/-- What is written below the header of a statement: a description and steps. -/
theorem reads_body {description : List Text} {steps : List Step}
    (hdescription : StatementDescribed src language.keywords description)
    (hsteps : StepsAttested src language.keywords none steps)
    (hquotable : ∀ step ∈ steps, step.Quotable) (hnone : statement.steps = []) (depth : Nat) :
    Reads (Holds language Mode.isBody ⟨place, group, some statement, []⟩)
      (Printer.block depth description ++ steps.flatMap (Printer.step depth))
      (Holds language Mode.hasStepLines ⟨place, group, some ((statement.describeAll
        description).mapSteps (· ++ steps.map (·.renumber unnumbered))), []⟩) := by
  have hfresh : (statement.describeAll description).steps = [] := by
    cases statement <;> exact hnone
  exact (reads_statementDescription hsrc hdescription depth).append
    ((reads_steps hsrc hclear hsteps hquotable hfresh depth).anti fun s hs =>
      hs.mono Mode.hasStepLines_of_isBody)

/-- A written Examples block comes back behind the blocks of its outline. -/
theorem reads_examples {block : Examples} {blocks : List Examples}
    (h : block.Attested src language.keywords) (hblocks : statement.blocks? = some blocks)
    (depth : Nat) :
    Reads (Holds language Mode.isOpen ⟨place, group, some statement, []⟩)
      (Printer.examples depth block)
      (Holds language Mode.isOpen
        ⟨place, group, some (statement.mapBlocks (· ++ [block.renumber unnumbered])), []⟩) := by
  have hheader : Reads
      (Holds language Mode.isOpen
        ⟨place, group, some statement, block.tags.map (·.renumber unnumbered)⟩)
      [Printer.indent depth (Printer.header block.header)]
      (fun s => s.Sound ∧ s.mode = .examples none ∧ s.Shows language (fun _ => true)
        ⟨place, group, some (statement.mapBlocks (· ++ [block.bare])), []⟩) := by
    refine Reads.header hsrc hclear h.header (by decide) depth ?_
    intro s raw hs hline
    exact hs.examplesHeader rfl hblocks hline
  have hattach : statement.mapBlocks (· ++ [block.renumber unnumbered]) =
      (statement.mapBlocks (· ++ [block.bare])).mapBlocks
        (mapLast fun last => { last with table := block.table.map (·.renumber unnumbered) }) := by
    rw [Statement.mapBlocks_mapBlocks]
    congr 1
    funext blocks
    rw [Function.comp_apply, mapLast_append_singleton]
    rfl
  have htable : Reads
      (fun s => s.Sound ∧ s.mode = .examples none ∧ s.Shows language (fun _ => true)
        ⟨place, group, some (statement.mapBlocks (· ++ [block.bare])), []⟩)
      (block.table.elim [] (Printer.table (depth + 1)))
      (Holds language Mode.isOpen
        ⟨place, group, some (statement.mapBlocks (· ++ [block.renumber unnumbered])), []⟩) := by
    rw [hattach]
    cases htable : block.table with
    | none =>
      refine Reads.nil ?_
      rintro s ⟨hsound, hmode, hs⟩
      exact hs.examplesNone hsound hmode
    | some table =>
      exact reads_examplesTable
        (d := ⟨place, group, some (statement.mapBlocks (· ++ [block.bare])), []⟩)
        ((h.table table htable).writable hsrc) (depth + 1)
  have hwritten : Printer.examples depth block = Printer.block depth (Printer.tagLine block.tags) ++
      [Printer.indent depth (Printer.header block.header)] ++
      block.table.elim [] (Printer.table (depth + 1)) := by
    simp [Printer.examples]
  rw [hwritten]
  exact ((reads_tagLine hclear h.tags depth).append hheader).append htable

/-- The Examples blocks of an outline come back in their order. -/
theorem reads_blocks {blocks : List Examples}
    (h : ∀ block ∈ blocks, block.Attested src language.keywords)
    (houtline : blocks ≠ [] → statement.blocks? = some []) (depth : Nat) :
    Reads (Holds language Mode.isOpen ⟨place, group, some statement, []⟩)
      (blocks.flatMap (Printer.examples depth))
      (Holds language Mode.isOpen
        ⟨place, group, some (statement.mapBlocks (· ++ blocks.map (·.renumber unnumbered))), []⟩) := by
  refine Reads.anti (Reads.flatMap (I := fun done : List Examples => Holds language Mode.isOpen
    ⟨place, group, some (statement.mapBlocks (· ++ done.map (·.renumber unnumbered))), []⟩) ?_) ?_
  · intro done block rest hlist
    have hnext : statement.mapBlocks (· ++ (done ++ [block]).map (·.renumber unnumbered)) =
        (statement.mapBlocks (· ++ done.map (·.renumber unnumbered))).mapBlocks
          (· ++ [block.renumber unnumbered]) := by
      rw [Statement.mapBlocks_mapBlocks]
      simp [Function.comp_def]
    have hblocks := houtline (by simp [hlist])
    rw [hnext]
    exact reads_examples hsrc hclear (h block (by simp [hlist]))
      (by rw [Statement.blocks?_mapBlocks, hblocks]; rfl) depth
  · intro s hs
    rwa [List.map_nil, Statement.mapBlocks_append_nil]

/-- The blocks below the steps of a scenario make it whole. -/
theorem reads_scenarioBlocks {node : Scenario}
    (hbody : node.BodyAttested src language.keywords) (depth : Nat) :
    Reads
      (Holds language Mode.hasStepLines ⟨place, group,
        some (.scenario { node.renumber unnumbered with blocks := node.bare.blocks }), []⟩)
      ((node.blocks.getD []).flatMap (Printer.examples depth))
      (Holds language Mode.isOpen
        ⟨place, group, some (.scenario (node.renumber unnumbered)), []⟩) := by
  have hattested : ∀ block ∈ node.blocks.getD [], block.Attested src language.keywords := by
    intro block hblock
    cases hblocks : node.blocks with
    | none => simp [hblocks] at hblock
    | some blocks => exact hbody.blocks blocks hblocks block (by simpa [hblocks] using hblock)
  have houtline : node.blocks.getD [] ≠ [] → Statement.blocks? (.scenario
      { node.renumber unnumbered with blocks := node.bare.blocks }) = some [] := by
    intro hne
    cases hblocks : node.blocks with
    | none => simp [hblocks] at hne
    | some blocks => simp [Statement.blocks?, Scenario.bare, hblocks]
  have hall : node.renumber unnumbered = { node.renumber unnumbered with
      blocks := node.bare.blocks.map
        (· ++ (node.blocks.getD []).map (·.renumber unnumbered)) } := by
    cases hblocks : node.blocks <;> simp [Scenario.renumber, Scenario.bare, hblocks]
  rw [hall]
  exact (reads_blocks hsrc hclear hattested houtline depth).anti fun s hs =>
    hs.mono Mode.isOpen_of_hasStepLines

/-- A written scenario comes back behind what is closed before it. -/
theorem reads_scenario {node : Scenario} {open? : Option Statement}
    (hheader : node.header.Attested src language.keywords node.category)
    (hbody : node.BodyAttested src language.keywords)
    (hquotable : ∀ step ∈ node.steps, step.Quotable) (depth : Nat) :
    Reads (Holds language Mode.isOpen ⟨place, group, open?, []⟩) (Printer.scenario depth node)
      (Holds language Mode.isOpen
        ⟨place, group.closeAll open?, some (.scenario (node.renumber unnumbered)), []⟩) := by
  have hcategory : node.category ∈ headings := by
    rcases node.category_bare with ⟨heq, -⟩ | ⟨heq, -⟩ <;> rw [heq] <;> decide
  have hstart : Reads
      (Holds language Mode.isOpen ⟨place, group, open?, node.tags.map (·.renumber unnumbered)⟩)
      [Printer.indent depth (Printer.header node.header)]
      (Holds language Mode.isBody
        ⟨place, group.closeAll open?, some (.scenario node.bare), []⟩) := by
    refine Reads.header hsrc hclear hheader hcategory depth ?_
    intro s raw hs hline
    exact hs.scenarioHeader hline node.category_bare
  -- All steps are written in front of the blocks, also those that stood behind one.
  have hinner : Reads
      (Holds language Mode.isBody ⟨place, group.closeAll open?, some (.scenario node.bare), []⟩)
      (Printer.block (depth + 1) node.description ++ node.steps.flatMap (Printer.step (depth + 1)))
      (Holds language Mode.hasStepLines ⟨place, group.closeAll open?,
        some (.scenario { node.renumber unnumbered with blocks := node.bare.blocks }), []⟩) :=
    reads_body hsrc hclear hbody.description hbody.steps hquotable rfl (depth + 1)
  have hwritten : Printer.scenario depth node =
      Printer.block depth (Printer.tagLine node.tags) ++
        [Printer.indent depth (Printer.header node.header)] ++
        (Printer.block (depth + 1) node.description ++
          node.steps.flatMap (Printer.step (depth + 1))) ++
        (node.blocks.getD []).flatMap (Printer.examples (depth + 1)) := by
    simp [Printer.scenario]
  rw [hwritten]
  exact (((reads_tagLine hclear hbody.tags depth).append hstart).append hinner).append
    (reads_scenarioBlocks hsrc hclear hbody (depth + 1))

/-- A written background comes back at the head of its group. -/
theorem reads_background {node : Background} {open? : Option Statement}
    (hheader : node.header.Attested src language.keywords .background)
    (hbody : node.BodyAttested src language.keywords)
    (hquotable : ∀ step ∈ node.steps, step.Quotable) (depth : Nat) :
    Reads (Holds language Mode.isHead ⟨place, group, open?, []⟩) (Printer.background depth node)
      (Holds language Mode.isOpen
        ⟨place, group, some (.background (node.renumber unnumbered)), []⟩) := by
  have hstart : Reads (Holds language Mode.isHead ⟨place, group, open?, []⟩)
      [Printer.indent depth (Printer.header node.header)]
      (Holds language Mode.isBody ⟨place, group,
        some (.background ⟨node.header.renumber unnumbered, [], []⟩), []⟩) := by
    refine Reads.header hsrc hclear hheader (by decide) depth ?_
    intro s raw hs hline
    exact hs.backgroundHeader hline
  have hinner : Reads
      (Holds language Mode.isBody ⟨place, group,
        some (.background ⟨node.header.renumber unnumbered, [], []⟩), []⟩)
      (Printer.block (depth + 1) node.description ++ node.steps.flatMap (Printer.step (depth + 1)))
      (Holds language Mode.hasStepLines
        ⟨place, group, some (.background (node.renumber unnumbered)), []⟩) :=
    reads_body hsrc hclear hbody.description hbody.steps hquotable rfl (depth + 1)
  have hwritten : Printer.background depth node =
      [Printer.indent depth (Printer.header node.header)] ++
        (Printer.block (depth + 1) node.description ++
          node.steps.flatMap (Printer.step (depth + 1))) := by
    simp [Printer.background]
  rw [hwritten]
  exact (hstart.append hinner).mono fun s hs => hs.mono Mode.isOpen_of_hasStepLines

/-! ## 4. Groups -/

omit hclear in
/-- The written description of a group comes back line by line. -/
theorem reads_groupDescription {open? : Option Statement} {description : List Text}
    (h : GroupDescribed src language.keywords description) (depth : Nat) :
    Reads (Holds language Mode.isHead ⟨place, group, open?, []⟩)
      (Printer.block depth description)
      (Holds language Mode.isHead
        ⟨place, { group with description := group.description ++ description }, open?, []⟩) := by
  rw [block_eq_flatMap]
  refine Reads.anti (Reads.flatMap (I := fun done => Holds language Mode.isHead
    ⟨place, { group with description := group.description ++ done }, open?, []⟩) ?_) ?_
  · intro done line rest hlist
    have hline := h line (by simp [hlist])
    refine Reads.line (singleLine_indent (hline.singleLine hsrc)) ?_
    intro s hs
    rw [← List.append_assoc]
    exact hs.groupDescription (hline.trim_indent depth) hline.visible hline.plain
  · intro s hs
    rwa [List.append_nil]

/-- What is written below the header of a group makes it whole. -/
theorem reads_groupBody {node : Group} (h : node.BodyAttested src language.keywords)
    (hquotable : ∀ step ∈ node.steps, step.Quotable) (depth : Nat) :
    Reads
      (Holds language Mode.isHead ⟨place, .start (node.header.renumber unnumbered)
        (node.tags.map (·.renumber unnumbered)), none, []⟩)
      (Printer.block depth node.description ++
        node.background.elim [] (Printer.background depth) ++
        node.scenarios.flatMap (Printer.scenario depth))
      (HoldsGroup language place (node.renumber unnumbered)) := by
  have hbackground : Reads
      (Holds language Mode.isHead
        ⟨place, { node.renumber unnumbered with background := none, scenarios := [] }, none, []⟩)
      (node.background.elim [] (Printer.background depth))
      (HoldsGroup language place { node.renumber unnumbered with scenarios := [] }) := by
    cases hnode : node.background with
    | none =>
      refine Reads.nil fun s hs => ⟨_, none, hs.mono Mode.isOpen_of_isHead, ?_⟩
      simp [Group.closeAll, Group.renumber, hnode]
    | some background =>
      obtain ⟨hheader, hbody⟩ := h.background background hnode
      have hsteps : ∀ step ∈ background.steps, step.Quotable := by
        intro step hstep
        exact hquotable step (by simp [Group.steps, hnode, hstep])
      refine (reads_background hsrc hclear hheader hbody hsteps depth).mono fun s hs =>
        ⟨_, _, hs, ?_⟩
      simp [Group.closeAll, Group.close, Group.renumber, hnode]
  have hscenarios : Reads
      (HoldsGroup language place { node.renumber unnumbered with scenarios := [] })
      (node.scenarios.flatMap (Printer.scenario depth))
      (HoldsGroup language place (node.renumber unnumbered)) := by
    refine Reads.flatMap (I := fun done : List Scenario => HoldsGroup language place
      { node.renumber unnumbered with scenarios := done.map (·.renumber unnumbered) }) ?_
    intro done scenario rest hlist
    have hmem : scenario ∈ node.scenarios := by simp [hlist]
    obtain ⟨hheader, hbody⟩ := h.scenarios scenario hmem
    have hsteps : ∀ step ∈ scenario.steps, step.Quotable := by
      intro step hstep
      exact hquotable step (List.mem_append_right _ (List.mem_flatMap.mpr ⟨scenario, hmem, hstep⟩))
    have hread : ∀ opened open?,
        Reads (Holds language Mode.isOpen ⟨place, opened, open?, []⟩)
          (Printer.scenario depth scenario)
          (Holds language Mode.isOpen ⟨place, opened.closeAll open?,
            some (.scenario (scenario.renumber unnumbered)), []⟩) :=
      fun _ _ => reads_scenario hsrc hclear hheader hbody hsteps depth
    refine ⟨(hread node none).single, ?_⟩
    rintro s ⟨opened, open?, hs, hclosed⟩
    obtain ⟨t, hrun, ht⟩ := (hread opened open?).run s hs
    refine ⟨t, hrun, _, _, ht, ?_⟩
    rw [hclosed, List.map_append]
    rfl
  exact ((reads_groupDescription hsrc h.description depth).append hbackground).append hscenarios

/-- Written rules come back behind the rest of their feature. -/
theorem reads_rules {feature : Feature} {rules : List Group}
    (h : ∀ rule ∈ rules, rule.header.Attested src language.keywords .rule ∧
      rule.BodyAttested src language.keywords)
    (hquotable : ∀ rule ∈ rules, ∀ step ∈ rule.steps, step.Quotable) (depth inner : Nat) :
    Reads (HoldsFeature language { feature with rules := [] })
      (rules.flatMap (Printer.group depth inner))
      (HoldsFeature language
        { feature with rules := rules.map (·.renumber unnumbered) }) := by
  refine Reads.flatMap (I := fun done : List Group => HoldsFeature language
    { feature with rules := done.map (·.renumber unnumbered) }) ?_
  intro done rule rest hlist
  have hmem : rule ∈ rules := by simp [hlist]
  obtain ⟨hheader, hbody⟩ := h rule hmem
  have hstart : ∀ place opened open?,
      Reads
        (Holds language Mode.isOpen
          ⟨place, opened, open?, rule.tags.map (·.renumber unnumbered)⟩)
        [Printer.indent depth (Printer.header rule.header)]
        (Holds language Mode.isHead ⟨.rules (place.finish (opened.closeAll open?)),
          .start (rule.header.renumber unnumbered) (rule.tags.map (·.renumber unnumbered)),
          none, []⟩) := by
    intro place opened open?
    refine Reads.header hsrc hclear hheader (by decide) depth ?_
    intro s raw hs hline
    exact hs.ruleHeader hline
  have hread : ∀ place opened open?,
      Reads (Holds language Mode.isOpen ⟨place, opened, open?, []⟩)
        (Printer.group depth inner rule)
        (HoldsGroup language (.rules (place.finish (opened.closeAll open?)))
          (rule.renumber unnumbered)) := by
    intro place opened open?
    rw [group_eq_append]
    exact ((reads_tagLine hclear hbody.tags depth).append (hstart place opened open?)).append
      (reads_groupBody hsrc hclear hbody (hquotable rule hmem) inner)
  refine ⟨(hread (.top feature) rule none).single, ?_⟩
  rintro s ⟨place, group, ⟨opened, open?, hs, hclosed⟩, hfinish⟩
  obtain ⟨t, hrun, ht⟩ := (hread place opened open?).run s hs
  refine ⟨t, hrun, _, _, ht, ?_⟩
  rw [hclosed, hfinish, List.map_append]
  rfl

end Session

end Gherkin
