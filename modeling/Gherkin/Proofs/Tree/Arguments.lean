/-
  Gherkin/Proofs/Tree/Arguments.lean
  ==================================
  **The arguments that a tree holds.**

  The pieces of arguments are the rows of tables, the headings among them, and
  whole docstrings; each is known by its line.  A step has one slot for a table and
  one for a docstring, so an argument that arrives below a step takes the place of
  the one of the same kind that arrived before.

  `Ledger` is the account of this without the tree: what is kept for good, and what
  is in the slots of the last step.  At the end of a list of arrivals it holds the
  pieces that have not been displaced (`Ledger.mem_foldl_record`).
-/
import Gherkin.Proofs.Tree.Walk

namespace Gherkin

/-! ## 1. Pieces of arguments -/

inductive Piece where
  | row (line : Nat)
  /-- A docstring, by the line of its opening fence. -/
  | docstring (line : Nat)
deriving DecidableEq

/-- The places for arguments that a step has. -/
inductive Slot where
  | table
  | docstring
deriving DecidableEq

theorem Slot.exists_iff {P : Slot → Prop} : (∃ slot, P slot) ↔ P .table ∨ P .docstring := by
  constructor
  · rintro ⟨slot, h⟩
    cases slot with
    | table => exact .inl h
    | docstring => exact .inr h
  · rintro (h | h)
    · exact ⟨_, h⟩
    · exact ⟨_, h⟩

def Table.pieces (table : Table) : List Piece :=
  .row table.line :: table.rows.map fun row => .row row.line

def Examples.pieces (block : Examples) : List Piece := block.table.elim [] (·.pieces)

namespace Step

def slot (step : Step) : Slot → List Piece
  | .table => step.table.elim [] (·.pieces)
  | .docstring => step.docstring.elim [] fun docstring => [.docstring docstring.line]

def pieces (step : Step) : List Piece := step.slot .table ++ step.slot .docstring

theorem slot_withTable (step : Step) (table : Table) (slot : Slot) :
    (step.withTable table).slot slot = if slot = .table then table.pieces else step.slot slot := by
  unfold withTable announced
  cases slot <;> split <;> rfl

theorem slot_withDocstring (step : Step) (docstring : Docstring) (slot : Slot) :
    (step.withDocstring docstring).slot slot =
      if slot = .docstring then [.docstring docstring.line] else step.slot slot := by
  unfold withDocstring announced
  cases slot <;> split <;> rfl

end Step

def Statement.blockPieces (statement : Statement) : List Piece :=
  (statement.blocks?.getD []).flatMap (·.pieces)

def Statement.pieces (statement : Statement) : List Piece :=
  statement.steps.flatMap (·.pieces) ++ statement.blockPieces

def Group.pieces (group : Group) : List Piece := group.statements.flatMap (·.pieces)

def Feature.pieces (feature : Feature) : List Piece := feature.groups.flatMap (·.pieces)

theorem Group.mem_pieces_close {group : Group} {statement : Statement} {piece : Piece}
    (hfresh : statement.isScenario = false → group.background = none) :
    piece ∈ (group.close statement).pieces ↔ piece ∈ group.pieces ∨ piece ∈ statement.pieces := by
  cases statement with
  | background node =>
    simp [Group.close, Group.pieces, Group.statements, hfresh rfl, or_comm]
  | scenario node => simp [Group.close, Group.pieces, Group.statements, or_assoc]

theorem Group.mem_pieces {group : Group} {piece : Piece} :
    piece ∈ group.pieces ↔
      (∃ step ∈ group.steps, piece ∈ step.pieces) ∨ ∃ block ∈ group.blocks, piece ∈ block.pieces := by
  have hbackground : ∀ node : Background, piece ∈ (Statement.background node).pieces ↔
      ∃ step ∈ node.steps, piece ∈ step.pieces := by
    simp [Statement.pieces, Statement.blockPieces, Statement.blocks?, Statement.steps]
  have hscenario : ∀ node : Scenario, piece ∈ (Statement.scenario node).pieces ↔
      (∃ step ∈ node.steps, piece ∈ step.pieces) ∨
        ∃ block ∈ node.blocks.getD [], piece ∈ block.pieces := by
    simp [Statement.pieces, Statement.blockPieces, Statement.blocks?, Statement.steps]
  unfold Group.pieces Group.statements Group.steps Group.blocks
  simp only [List.mem_flatMap, List.mem_append, List.mem_map, Option.mem_toList]
  grind

theorem Table.pieces_push? {table next : Table} {row : Row} (h : table.push? row = some next) :
    next.pieces = table.pieces ++ [.row row.line] := by
  unfold Table.push? at h
  split at h
  · cases h
    simp [Table.pieces]
  · cases h

theorem Table.row_mem_pieces {table : Table} {line : Nat} :
    .row line ∈ table.pieces ↔ table.line = line ∨ ∃ row ∈ table.rows, row.line = line := by
  simp [Table.pieces, eq_comm]

theorem Table.docstring_not_mem_pieces {table : Table} {line : Nat} :
    .docstring line ∉ table.pieces := by
  simp [Table.pieces]

theorem Feature.mem_pieces {feature : Feature} {piece : Piece} :
    piece ∈ feature.pieces ↔
      (∃ table ∈ feature.tables, piece ∈ table.pieces) ∨
        ∃ docstring ∈ feature.docstrings, piece = .docstring docstring.line := by
  have hstep : ∀ step : Step, piece ∈ step.pieces ↔
      (∃ table, step.table = some table ∧ piece ∈ table.pieces) ∨
        ∃ docstring, step.docstring = some docstring ∧ piece = .docstring docstring.line := by
    intro step
    unfold Step.pieces Step.slot
    cases step.table <;> cases step.docstring <;> simp
  have hblock : ∀ block : Examples, piece ∈ block.pieces ↔
      ∃ table, block.table = some table ∧ piece ∈ table.pieces := by
    intro block
    unfold Examples.pieces
    cases block.table <;> simp
  unfold Feature.pieces Feature.tables Feature.docstrings Feature.steps
  simp only [List.mem_flatMap, Group.mem_pieces, List.mem_append, List.mem_filterMap, hstep, hblock]
  grind

/-! ## 2. Arrivals -/

/-- What a line brings for the steps above it. -/
inductive Arrival where
  /-- A step or a header: arguments below it are those of another step. -/
  | boundary
  /-- The first row of a table below a step. -/
  | heading (line : Nat)
  /-- A further row of such a table. -/
  | row (line : Nat)
  /-- A row of the table of an Examples block. -/
  | examplesRow (line : Nat)
  /-- A docstring with both its fences, by the line of the first one. -/
  | docstring (line : Nat)
deriving DecidableEq

namespace Arrival

def piece? : Arrival → Option Piece
  | .boundary => none
  | .heading line | .row line | .examplesRow line => some (.row line)
  | .docstring line => some (.docstring line)

/-- The slot that a piece goes to.  The rows of Examples blocks go to none. -/
def slot? : Arrival → Option Slot
  | .heading _ | .row _ => some .table
  | .docstring _ => some .docstring
  | .boundary | .examplesRow _ => none

/-- The slot that is emptied for what arrives. -/
def clears : Arrival → Option Slot
  | .heading _ => some .table
  | .docstring _ => some .docstring
  | .boundary | .row _ | .examplesRow _ => none

end Arrival

/-- Before the next boundary something arrives for which a slot is emptied. -/
def Cleared (slot : Slot) (later : List Arrival) : Prop :=
  ∃ arrival ∈ later.takeWhile (· ≠ .boundary), arrival.clears = some slot

/-- A later argument of the same kind and below the same step takes the place. -/
def Arrival.Displaced (arrival : Arrival) (later : List Arrival) : Prop :=
  ∃ slot, arrival.slot? = some slot ∧ Cleared slot later

/-- A piece arrives and is not displaced. -/
def Remains (piece : Piece) (arrivals : List Arrival) : Prop :=
  ∃ before arrival after, arrivals = before ++ arrival :: after ∧
    arrival.piece? = some piece ∧ ¬arrival.Displaced after

theorem not_cleared_nil (slot : Slot) : ¬Cleared slot [] := by simp [Cleared]

theorem cleared_cons {slot : Slot} {arrival : Arrival} {later : List Arrival} :
    Cleared slot (arrival :: later) ↔
      arrival ≠ .boundary ∧ (arrival.clears = some slot ∨ Cleared slot later) := by
  unfold Cleared
  by_cases h : arrival = .boundary
  · simp [h]
  · simp [h]

theorem not_remains_nil (piece : Piece) : ¬Remains piece [] := by simp [Remains]

theorem remains_cons {piece : Piece} {arrival : Arrival} {later : List Arrival} :
    Remains piece (arrival :: later) ↔
      arrival.piece? = some piece ∧ ¬arrival.Displaced later ∨ Remains piece later := by
  constructor
  · rintro ⟨before, found, after, heq, hpiece, hstays⟩
    cases before with
    | nil =>
      obtain ⟨rfl, rfl⟩ := List.cons.inj heq
      exact .inl ⟨hpiece, hstays⟩
    | cons first before =>
      obtain ⟨-, rfl⟩ := List.cons.inj heq
      exact .inr ⟨before, found, after, rfl, hpiece, hstays⟩
  · rintro (⟨hpiece, hstays⟩ | ⟨before, found, after, rfl, hpiece, hstays⟩)
    · exact ⟨[], arrival, later, rfl, hpiece, hstays⟩
    · exact ⟨arrival :: before, found, after, rfl, hpiece, hstays⟩

/-! ## 3. Ledgers -/

/-- The account of the pieces that have arrived. -/
structure Ledger where
  /-- What nothing can displace any more. -/
  kept : List Piece
  /-- What is in the slots of the last step. -/
  slots : Slot → List Piece

namespace Ledger

def empty : Ledger := ⟨[], fun _ => []⟩

def pieces (ledger : Ledger) : List Piece :=
  ledger.kept ++ ledger.slots .table ++ ledger.slots .docstring

def fill (ledger : Ledger) (slot : Slot) (pieces : List Piece) : Ledger :=
  { ledger with slots := fun other => if other = slot then pieces else ledger.slots other }

def record (ledger : Ledger) : Arrival → Ledger
  | .boundary => ⟨ledger.pieces, fun _ => []⟩
  | .heading line => ledger.fill .table [.row line]
  | .row line => ledger.fill .table (ledger.slots .table ++ [.row line])
  | .examplesRow line => { ledger with kept := ledger.kept ++ [.row line] }
  | .docstring line => ledger.fill .docstring [.docstring line]

/-- The account with more pieces that are kept. -/
def above (ledger : Ledger) (pieces : List Piece) : Ledger :=
  { ledger with kept := pieces ++ ledger.kept }

/-- Two accounts of the same pieces. -/
structure Alike (a b : Ledger) : Prop where
  kept : ∀ piece, piece ∈ a.kept ↔ piece ∈ b.kept
  slots : a.slots = b.slots

variable {a b c ledger : Ledger} {piece : Piece}

theorem Alike.refl (ledger : Ledger) : ledger.Alike ledger := ⟨fun _ => Iff.rfl, rfl⟩

theorem Alike.trans (h : a.Alike b) (h' : b.Alike c) : a.Alike c :=
  ⟨fun piece => (h.kept piece).trans (h'.kept piece), h.slots.trans h'.slots⟩

theorem mem_pieces :
    piece ∈ ledger.pieces ↔ piece ∈ ledger.kept ∨ ∃ slot, piece ∈ ledger.slots slot := by
  rw [Slot.exists_iff, pieces, List.mem_append, List.mem_append, or_assoc]

theorem Alike.mem_pieces (h : a.Alike b) : piece ∈ a.pieces ↔ piece ∈ b.pieces := by
  rw [Ledger.mem_pieces, Ledger.mem_pieces, h.kept, h.slots]

theorem Alike.record (h : a.Alike b) (arrival : Arrival) :
    (a.record arrival).Alike (b.record arrival) := by
  cases arrival with
  | boundary => exact ⟨fun piece => h.mem_pieces, rfl⟩
  | examplesRow line => exact ⟨by simp [Ledger.record, h.kept], h.slots⟩
  | _ => exact ⟨h.kept, by simp [Ledger.record, Ledger.fill, h.slots]⟩

theorem Alike.foldl_record (h : a.Alike b) (arrivals : List Arrival) :
    (arrivals.foldl Ledger.record a).Alike (arrivals.foldl Ledger.record b) := by
  induction arrivals generalizing a b with
  | nil => exact h
  | cons arrival arrivals ih => exact ih (h.record arrival)

theorem Alike.above (h : a.Alike b) (pieces : List Piece) : (a.above pieces).Alike (b.above pieces) :=
  ⟨fun piece => by simp [Ledger.above, h.kept], h.slots⟩

theorem record_above (ledger : Ledger) (pieces : List Piece) (arrival : Arrival) :
    (ledger.above pieces).record arrival = (ledger.record arrival).above pieces := by
  cases arrival with
  | boundary => simp [above, record, Ledger.pieces]
  | examplesRow line => simp [above, record]
  | _ => rfl

theorem foldl_record_above (arrivals : List Arrival) (ledger : Ledger) (pieces : List Piece) :
    arrivals.foldl record (ledger.above pieces) = (arrivals.foldl record ledger).above pieces := by
  induction arrivals generalizing ledger with
  | nil => rfl
  | cons arrival arrivals ih => rw [List.foldl_cons, List.foldl_cons, record_above, ih]

@[simp] theorem fill_fill (ledger : Ledger) (slot : Slot) (first second : List Piece) :
    (ledger.fill slot first).fill slot second = ledger.fill slot second := by
  simp only [fill, mk.injEq, true_and]
  funext other
  split <;> rfl

@[simp] theorem slots_fill (ledger : Ledger) (slot : Slot) (pieces : List Piece) :
    (ledger.fill slot pieces).slots slot = pieces := if_pos rfl

/-- What is on the account after some arrivals: what was kept before, what was in
    a slot that has not been emptied, and what arrived and has not been displaced. -/
theorem mem_foldl_record (arrivals : List Arrival) (ledger : Ledger) :
    piece ∈ (arrivals.foldl record ledger).pieces ↔
      piece ∈ ledger.kept ∨ (∃ slot, piece ∈ ledger.slots slot ∧ ¬Cleared slot arrivals) ∨
        Remains piece arrivals := by
  induction arrivals generalizing ledger with
  | nil => simp [mem_pieces, not_cleared_nil, not_remains_nil]
  | cons arrival arrivals ih =>
    rw [List.foldl_cons, ih, remains_cons]
    simp only [cleared_cons]
    cases arrival with
    | boundary => simp [record, mem_pieces, Arrival.piece?, or_assoc]
    | _ =>
      -- The other arrivals fill or empty one slot at most and leave the other one alone.
      simp only [record, fill, Slot.exists_iff, Arrival.piece?, Arrival.Displaced, Arrival.slot?,
        Arrival.clears]
      grind

end Ledger

/-! ## 4. Statements -/

namespace Statement

/-- The account of a statement whose last step may still get arguments. -/
def ledger (statement : Statement) : Ledger where
  kept := statement.steps.dropLast.flatMap (·.pieces) ++ statement.blockPieces
  slots slot := statement.steps.getLast?.elim [] (·.slot slot)

theorem mem_ledger {statement : Statement} {piece : Piece} :
    piece ∈ statement.ledger.pieces ↔ piece ∈ statement.pieces := by
  unfold ledger Statement.pieces Ledger.pieces
  rcases List.eq_nil_or_concat statement.steps with hnil | ⟨steps, last, hsteps⟩
  · simp [hnil]
  · simp only [hsteps, List.concat_eq_append, List.dropLast_concat, List.getLast?_concat,
      Option.elim_some, List.flatMap_append, List.flatMap_singleton, Step.pieces, List.mem_append]
    grind

theorem ledger_describe (line : Text) (statement : Statement) :
    (statement.describe line).ledger = statement.ledger := by
  unfold ledger blockPieces
  rw [steps_describe, blocks?_describe]

theorem ledger_addStep (statement : Statement) {step : Step} (htable : step.table = none)
    (hdocstring : step.docstring = none) :
    (statement.addStep step).ledger = ⟨statement.pieces, fun _ => []⟩ := by
  have hslot : ∀ slot, step.slot slot = [] := by
    intro slot
    cases slot <;> simp [Step.slot, htable, hdocstring]
  simp [ledger, Statement.pieces, blockPieces, hslot]

theorem ledger_mapLastStep {f : Step → Step} {statement : Statement} {slot : Slot}
    {pieces : List Piece} (hsteps : statement.steps ≠ [])
    (hf : ∀ step other, (f step).slot other = if other = slot then pieces else step.slot other) :
    (statement.mapLastStep f).ledger = statement.ledger.fill slot pieces := by
  obtain ⟨steps, last, hsplit⟩ := (List.eq_nil_or_concat statement.steps).resolve_left hsteps
  rw [List.concat_eq_append] at hsplit
  unfold ledger blockPieces Ledger.fill
  simp [hsplit, mapLast_append_singleton, hf]

theorem ledger_withTable {statement : Statement} (hsteps : statement.steps ≠ []) (table : Table) :
    (statement.mapLastStep (·.withTable table)).ledger =
      statement.ledger.fill .table table.pieces :=
  ledger_mapLastStep hsteps fun step => step.slot_withTable table

theorem ledger_withDocstring {statement : Statement} (hsteps : statement.steps ≠ [])
    (docstring : Docstring) :
    (statement.mapLastStep (·.withDocstring docstring)).ledger =
      statement.ledger.fill .docstring [.docstring docstring.line] :=
  ledger_mapLastStep hsteps fun step => step.slot_withDocstring docstring

/-- A block without a table changes nothing. -/
theorem ledger_addBlock {statement : Statement} {blocks : List Examples} {block : Examples}
    (hblocks : statement.blocks? = some blocks) (htable : block.table = none) :
    (statement.mapBlocks (· ++ [block])).ledger = statement.ledger := by
  simp [ledger, blockPieces, hblocks, Examples.pieces, htable]

/-- More rows in the table of the last block are more pieces that are kept. -/
theorem ledger_attach {statement : Statement} {blocks : List Examples} (old new : Option Table)
    {more : List Piece} (hblocks : statement.blocks? = some blocks) (hne : blocks ≠ [])
    (hmore : new.elim [] (·.pieces) = old.elim [] (·.pieces) ++ more) :
    ((Mode.examples new).attach statement).ledger =
      { ((Mode.examples old).attach statement).ledger with
        kept := ((Mode.examples old).attach statement).ledger.kept ++ more } := by
  obtain ⟨others, last, rfl⟩ := (List.eq_nil_or_concat blocks).resolve_left hne
  rw [List.concat_eq_append] at hblocks
  simp [ledger, blockPieces, Mode.attach, hblocks, mapLast_append_singleton, Examples.pieces, hmore]

end Statement

end Gherkin
