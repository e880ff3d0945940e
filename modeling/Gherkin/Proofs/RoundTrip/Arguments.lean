/-
  Gherkin/Proofs/RoundTrip/Arguments.lean
  =======================================
  **Reading written tables and docstrings.**

  A table is written row by row and a docstring line by line, below the line
  that they belong to.  Both come back as they were: the rows because cells are
  read back as they were written, the lines because the fence was chosen such
  that none of them closes the docstring.
-/
import Gherkin.Proofs.RoundTrip.Lines
import Gherkin.Proofs.Session.DocstringCapture
import Gherkin.Proofs.Table.Rows

namespace Gherkin

open Text

/-! ## 1. Indentation -/

theorem trim_indent (depth : Nat) (line : Text) : trim (Printer.indent depth line) = trim line := by
  unfold Printer.indent
  split
  · rename_i hempty
    rw [List.isEmpty_iff.mp hempty]
  · exact trim_append_of_blank isBlank_of_mem_replicate line

theorem singleLine_indent {depth : Nat} {line : Text} (h : SingleLine line) :
    SingleLine (Printer.indent depth line) := by
  unfold Printer.indent
  split
  · exact singleLine_nil
  · refine SingleLine.append ?_ h
    intro hmem
    exact absurd (List.eq_of_mem_replicate hmem) (by decide)

theorem indent_eq_append {line : Text} (hne : line ≠ []) (depth : Nat) :
    Printer.indent depth line = List.replicate (2 * depth) ' ' ++ line := by
  simp [Printer.indent, hne]

/-- The margin of a written line is blank, and the line stands behind it. -/
theorem indented_indent (depth : Nat) (line : Text) :
    Indented (2 * depth) (Printer.indent depth line) ∧
      (Printer.indent depth line).drop (2 * depth) = line := by
  by_cases hne : line = []
  · simp [hne, Printer.indent, Indented]
  · rw [indent_eq_append hne, Indented, List.take_left' (by simp), List.drop_left' (by simp)]
    exact ⟨isBlank_of_mem_replicate, rfl⟩

theorem takeWhile_indent {line : Text} (hne : line ≠ []) (hstart : SolidStart line)
    (depth : Nat) : ((Printer.indent depth line).takeWhile isBlank).length = 2 * depth := by
  rw [indent_eq_append hne, List.takeWhile_append_of_pos isBlank_of_mem_replicate]
  cases line with
  | nil => exact absurd rfl hne
  | cons c line => simp [solidStart_cons.mp hstart]

/-- A list of lines is written line by line. -/
theorem block_eq_flatMap (depth : Nat) (list : List Text) :
    Printer.block depth list = list.flatMap fun line => [Printer.indent depth line] :=
  List.map_eq_flatMap

/-! ## 2. Tables -/

/-- Cells that can be written and read back. -/
def Cells.Writable (cells : List Text) : Prop :=
  cells ≠ [] ∧ ∀ cell ∈ cells, Trimmed cell ∧ SingleLine cell

/-- A table of such cells in which all rows are equally wide. -/
def Table.Writable (table : Table) : Prop :=
  Cells.Writable table.headings ∧
    ∀ row ∈ table.rows, Cells.Writable row.cells ∧ row.cells.length = table.headings.length

theorem Cells.trimmed_write {cells : List Text} (h : Cells.Writable cells) :
    Trimmed (Cells.write cells) := by
  rw [Cells.write_eq_join h.1]
  exact ⟨solidStart_cons.mpr (by decide), solidEnd_concat.mpr (by decide)⟩

/-- The line of a row is a row, and its cells are what was written. -/
theorem Cells.read_indent {cells : List Text} (h : Cells.Writable cells) (depth : Nat) :
    (∃ rest, trim (Printer.indent depth (Cells.write cells)) = '|' :: rest) ∧
      Cells.read (trim (Printer.indent depth (Cells.write cells))) = cells := by
  rw [trim_indent, trim_eq_self (Cells.trimmed_write h)]
  exact ⟨⟨_, rfl⟩, Cells.read_write h.1 fun cell hcell => (h.2 cell hcell).1⟩

/-- Only a row without a closing pipe is noted as open. -/
theorem Session.ends_of_openRow_mem_notes {s : Session} {raw : Text} {source : Option Text}
    {line : Nat} (h : .openRow source line ∈ s.notes raw) : ends '|' (trim raw) = false := by
  rw [notes, List.mem_append, List.mem_append] at h
  rcases h with (h | h) | h
  · rw [languageNote] at h
    split at h
    · simp at h
    · simp at h
  · rw [directiveNote] at h
    split at h
    · simp at h
    · split at h
      · simp at h
      · split at h
        · simp at h
        · simp at h
  · rw [rowNote] at h
    split at h
    · rename_i hopen
      simpa using (Bool.and_eq_true_iff.mp hopen).2
    · simp at h

/-- A row of trimmed cells is one line of the written table and is read back as it
    was, whatever backslashes and pipes the cells hold.  The line is closed by a pipe,
    so that no reader notes it as open. -/
theorem Table.row_reread {table : Table} {i : Nat} {cells : List Text}
    (hrow : table.grid[i]? = some cells) (hne : cells ≠ [])
    (htrim : ∀ cell ∈ cells, trim cell = cell) (hsingle : ∀ cell ∈ cells, SingleLine cell)
    (depth : Nat) :
    ∃ raw, (Printer.table depth table)[i]? = some raw ∧ SingleLine raw ∧
      Cells.read (trim raw) = cells ∧ leads '|' (trim raw) = true ∧ ends '|' (trim raw) = true ∧
      ∀ (s : Session) (source : Option Text) (line : Nat), .openRow source line ∉ s.notes raw := by
  have hwritable : Cells.Writable cells := by
    refine ⟨hne, fun cell hcell => ⟨?_, hsingle cell hcell⟩⟩
    rw [← htrim cell hcell]
    exact trimmed_trim cell
  have hraw : trim (Printer.indent depth (Cells.write cells)) = Cells.write cells := by
    rw [trim_indent, trim_eq_self (Cells.trimmed_write hwritable)]
  have hends : ends '|' (Cells.write cells) = true := by
    rw [Cells.write_eq_join hne, ends, List.getLast?_concat]
    rfl
  refine ⟨Printer.indent depth (Cells.write cells), ?_, ?_, ?_, ?_, ?_, ?_⟩
  · simp [Printer.table, Printer.block, hrow]
  · exact singleLine_indent (Cells.singleLine_write hsingle)
  · exact (Cells.read_indent hwritable depth).2
  · rw [hraw]
    rfl
  · rw [hraw]
    exact hends
  · intro s source line hmem
    have hopen := Session.ends_of_openRow_mem_notes hmem
    rw [hraw, hends] at hopen
    exact Bool.noConfusion hopen

/-- For instance cells that end in a backslash, hold pipes, or hold nothing. -/
theorem Table.row_reread_backslashes :
    ∃ raw, (Printer.table 1 ⟨["a".toList, "b".toList, "c".toList],
          [⟨["x\\".toList, "\\|y|".toList, []], 7⟩], 6⟩)[1]? = some raw ∧
      raw = "  | x\\ | \\\\|y\\| |  |".toList ∧
      Cells.read (trim raw) = ["x\\".toList, "\\|y|".toList, []] := by
  have hrow : (⟨["a".toList, "b".toList, "c".toList],
      [⟨["x\\".toList, "\\|y|".toList, []], 7⟩], 6⟩ : Table).grid[1]? =
        some ["x\\".toList, "\\|y|".toList, []] := rfl
  obtain ⟨raw, hraw, -, hread, -⟩ :=
    Table.row_reread hrow (by decide) (by decide) (by decide) 1
  refine ⟨raw, hraw, ?_, hread⟩
  exact (Option.some.inj hraw).symm

namespace Session

variable {language : Language} {d : Draft} {s : Session} {raw : Text} {table : Table}
  {cells : List Text} {wrap : Table → Mode}

/-- A session is inside a table and has read the given part of it. -/
structure Tabulates (language : Language) (d : Draft) (wrap : Table → Mode) (table : Table)
    (s : Session) : Prop where
  sound : s.Sound
  mode : ∃ t, s.mode = wrap t ∧ t.renumber unnumbered = table
  shows : s.Shows language (fun _ => true) d

/-- Outside docstrings a row goes to the readers of the mode as it is. -/
theorem feed_row {rest : Text} (hrow : trim raw = '|' :: rest) :
    s.feed raw = (s.enter raw).read raw := by
  have hskips : s.skips raw = false := by simp [skips, hrow]
  have hcomment : s.isComment raw = false := by simp [isComment, hrow, leads]
  have hleave : s.facing raw = s.enter raw := by
    simp [Session.facing, leaveTable, hrow, leads]
  rw [feed_eq, hskips, hcomment, hleave]
  rfl

/-- A further row goes behind the rows of the table. -/
theorem Tabulates.row (hwrap : ∀ t, (wrap t).readers = [Reader.nextRow t wrap])
    (h : s.Tabulates language d wrap table) {rest : Text} (hrow : trim raw = '|' :: rest)
    (hcells : Cells.read (trim raw) = cells) (hwidth : cells.length = table.headings.length) :
    ∃ t, s.feed raw = .ok t ∧
      t.Tabulates language d wrap { table with rows := table.rows ++ [⟨cells, 0⟩] } := by
  obtain ⟨old, hmode, hold⟩ := h.mode
  have hwide : cells.length = old.headings.length := by
    rw [hwidth, ← hold]
    rfl
  have hread : (s.enter raw).read raw = .ok { s.enter raw with
      mode := wrap { old with rows := old.rows ++ [⟨cells, s.line + 1⟩] } } := by
    have hreaders : (s.enter raw).mode.readers = [Reader.nextRow old wrap] := by
      rw [← hwrap, ← hmode]
      rfl
    simp [Session.read, recognise, hreaders, Reader.nextRow, hcells, Table.push?, hwide]
    rfl
  have hfeed := (feed_row hrow).trans hread
  have henter := h.shows.enter raw
  refine ⟨_, hfeed, h.sound.feed hfeed, ⟨_, rfl, ?_⟩, ?_⟩
  · rw [← hold]
    simp [Table.renumber, Row.renumber, unnumbered]
  · exact ⟨henter.entry, henter.chosen, rfl, henter.tags, henter.feature, henter.rule,
      henter.statement⟩

/-- The rows of a written table come back one after the other. -/
theorem reads_rows (hwrap : ∀ t, (wrap t).readers = [Reader.nextRow t wrap])
    (h : table.Writable) (depth : Nat) :
    Reads (Tabulates language d wrap ⟨table.headings, [], 0⟩)
      (Printer.block depth (table.rows.map fun row => Cells.write row.cells))
      (Tabulates language d wrap (table.renumber unnumbered)) := by
  have hlist : Printer.block depth (table.rows.map fun row => Cells.write row.cells) =
      table.rows.flatMap fun row => [Printer.indent depth (Cells.write row.cells)] := by
    simp [Printer.block, List.map_eq_flatMap, List.flatMap_assoc]
  rw [hlist]
  refine Reads.flatMap (I := fun done : List Row => Tabulates language d wrap
    ⟨table.headings, done.map (·.renumber unnumbered), 0⟩) ?_
  intro done row rest hrows
  obtain ⟨hcells, hwidth⟩ := h.2 row (by simp [hrows])
  obtain ⟨⟨tail, hrow⟩, hread⟩ := Cells.read_indent hcells depth
  refine Reads.line (singleLine_indent (Cells.singleLine_write fun cell hcell =>
    (hcells.2 cell hcell).2)) ?_
  intro s hs
  obtain ⟨t, hfeed, ht⟩ := hs.row hwrap hrow hread hwidth
  refine ⟨t, hfeed, ?_⟩
  rw [List.map_append]
  exact ht

theorem hasSteps_of_renumber {r : Nat → Nat} {old statement : Statement}
    (hold : s.statement = some old) (hrenumber : old.renumber r = statement)
    (hsteps : statement.steps ≠ []) : s.hasSteps = true := by
  refine hasSteps_eq_true_iff.mpr ⟨old, hold, ?_⟩
  intro hnil
  apply hsteps
  rw [← hrenumber]
  cases old <;>
    simp_all [Statement.steps, Statement.renumber, Background.renumber, Scenario.renumber]

/-- The first row below a step starts a table. -/
theorem Shows.firstRow {statement : Statement} (h : s.Shows language Mode.isSteps d)
    (hsound : s.Sound) (hclear : language.keywords.Clear)
    (hstatement : d.statement = some statement) (hsteps : statement.steps ≠ []) {rest : Text}
    (hrow : trim raw = '|' :: rest) (hcells : Cells.read (trim raw) = cells) :
    ∃ t, s.feed raw = .ok t ∧ t.Tabulates language d .stepTable ⟨cells, [], 0⟩ := by
  have henter := h.enter raw
  obtain ⟨old, hold, hrenumber⟩ := Option.map_eq_some_iff.mp (henter.statement.trans hstatement)
  have hmode : (s.enter raw).mode = .steps := by
    have := henter.mode
    cases hm : (s.enter raw).mode <;> simp_all [Mode.isSteps]
  have hany : (s.enter raw).hasSteps = true := hasSteps_of_renumber hold hrenumber hsteps
  have hheader : ∀ category ∈ headings, (s.enter raw).header? category raw = none := by
    intro category hcategory
    rw [header?_eq_none_iff, henter.keywords, hrow]
    exact hclear.header?_sign hcategory (by decide) rest
  have hreader : LineKind.firstRow.reader (s.enter raw) raw = some (.ok { s.enter raw with
      mode := .stepTable ⟨cells, [], s.line + 1⟩ }) := by
    simp [LineKind.reader, Reader.firstRow, hrow, leads, hany, ← hcells, Table.start]
    rfl
  have hkind : (s.enter raw).kind? raw = some .firstRow := by
    have hfence : LineKind.fence.reader (s.enter raw) raw = none := by
      have hnone : Fence.open? (trimStart raw) = none := by
        apply Fence.open?_eq_none <;> rw [leads_trimStart, hrow] <;> rfl
      simp [LineKind.reader, Reader.fenceLine, hnone]
    have hstep : LineKind.step.reader (s.enter raw) raw = none := by
      have hnone : (s.enter raw).keywords.step? (trim raw) = none := by
        rw [henter.keywords, hrow]
        exact hclear.step?_pipe rest
      simp [LineKind.reader, Reader.stepLine, hnone]
    have hrepeated : LineKind.repeatedBackground.reader (s.enter raw) raw = none := by
      simp [LineKind.reader, Reader.repeatedBackground, hheader .background (by decide)]
    have htaggable : ∀ category ∈ taggableCategories, category ∈ headings := by decide
    have hnone : ∀ kind ∈ taggableKinds, kind.reader (s.enter raw) raw = none := by
      refine taggable_reader_eq_none (by simp [hrow, leads]) fun category hmem => ?_
      exact header?_eq_none_iff.mp (hheader category (htaggable category hmem))
    have hfind : (LineKind.fence :: .step :: taggableKinds).find?
        (fun kind => (kind.reader (s.enter raw) raw).isSome) = none := by
      rw [List.find?_eq_none]
      intro kind hmem
      rcases List.mem_cons.mp hmem with rfl | hmem
      · simp [hfence]
      rcases List.mem_cons.mp hmem with rfl | hmem
      · simp [hstep]
      · simp [hnone kind hmem]
    have hkinds : (s.enter raw).mode.kinds =
        (LineKind.fence :: .step :: taggableKinds) ++ [.repeatedBackground, .firstRow] := by
      rw [hmode]
      rfl
    unfold Session.kind?
    rw [hkinds, List.find?_append, hfind]
    simp [hrepeated, hreader]
  have hfeed := (feed_row hrow).trans (read_eq_ok_iff.mpr ⟨.firstRow, hkind, hreader⟩)
  exact ⟨_, hfeed, hsound.feed hfeed, ⟨_, rfl, rfl⟩, henter.entry, henter.chosen, rfl,
    henter.tags, henter.feature, henter.rule, henter.statement⟩

/-- The first row below the header of an Examples block starts its table. -/
theorem Shows.examplesHeadings (h : s.Shows language (fun _ => true) d) (hsound : s.Sound)
    (hmode : s.mode = .examples none) {rest : Text} (hrow : trim raw = '|' :: rest)
    (hcells : Cells.read (trim raw) = cells) :
    ∃ t, s.feed raw = .ok t ∧
      t.Tabulates language d (fun table => .examples (some table)) ⟨cells, [], 0⟩ := by
  have henter := h.enter raw
  have hread : (s.enter raw).read raw = .ok { s.enter raw with
      mode := .examples (some ⟨cells, [], s.line + 1⟩) } := by
    have hreaders : (s.enter raw).mode.readers = [Reader.examplesRow none] := by
      show s.mode.readers = _
      rw [hmode]
      rfl
    simp [Session.read, recognise, hreaders, Reader.examplesRow, hcells, Table.start]
    rfl
  have hfeed := (feed_row hrow).trans hread
  exact ⟨_, hfeed, hsound.feed hfeed, ⟨_, rfl, rfl⟩, henter.entry, henter.chosen, rfl,
    henter.tags, henter.feature, henter.rule, henter.statement⟩

/-! ### Leaving a table -/

/-- Leaving a mode attaches what has been read in it. -/
theorem Shows.leave {modes : Mode → Bool} (h : s.Shows language (fun _ => true) d)
    (hmodes : modes s.mode.left = true) {g : Statement → Statement}
    (hattach : ∀ statement : Statement,
      (s.mode.attach statement).renumber unnumbered = g (statement.renumber unnumbered)) :
    s.closeTable.Shows language modes { d with statement := d.statement.map g } := by
  rw [closeTable_eq]
  refine ⟨h.entry, h.chosen, hmodes, h.tags, h.feature, h.rule, ?_⟩
  rw [← h.statement, Option.map_map, Option.map_map]
  exact congrArg (Option.map · s.statement) (funext hattach)

theorem Tabulates.step (h : s.Tabulates language d .stepTable table) :
    s.Holds language Mode.isSteps
      { d with statement := d.statement.map (·.mapLastStep (·.withTable table)) } := by
  obtain ⟨old, hmode, hold⟩ := h.mode
  refine ⟨h.sound, h.shows.leave (by rw [hmode]; rfl) ?_⟩
  intro statement
  rw [hmode, ← hold]
  exact Statement.renumber_mapLastStep (fun step => step.renumber_withTable old) statement

theorem renumber_attach_examples (table : Option Table) (statement : Statement) :
    ((Mode.examples table).attach statement).renumber unnumbered =
      (statement.renumber unnumbered).mapBlocks
        (mapLast fun block => { block with table := table.map (·.renumber unnumbered) }) := by
  have hblock : ∀ block : Examples, ({ block with table := table } : Examples).renumber unnumbered =
      { block.renumber unnumbered with table := table.map (·.renumber unnumbered) } :=
    fun _ => rfl
  exact Statement.renumber_mapBlocks (f := mapLast fun block => { block with table := table })
    (fun blocks => map_mapLast_comm hblock blocks) statement

theorem Tabulates.examples (h : s.Tabulates language d (fun table => .examples (some table)) table) :
    s.Holds language Mode.isOpen { d with
      statement := d.statement.map
        (·.mapBlocks (mapLast fun block => { block with table := some table })) } := by
  obtain ⟨old, hmode, hold⟩ := h.mode
  refine ⟨h.sound, h.shows.leave (by rw [hmode]; rfl) ?_⟩
  intro statement
  rw [hmode, renumber_attach_examples, Option.map_some, hold]

theorem Shows.examplesNone (h : s.Shows language (fun _ => true) d) (hsound : s.Sound)
    (hmode : s.mode = .examples none) :
    s.Holds language Mode.isOpen { d with
      statement := d.statement.map
        (·.mapBlocks (mapLast fun block => { block with table := none })) } := by
  refine ⟨hsound, h.leave (by rw [hmode]; rfl) ?_⟩
  intro statement
  rw [hmode, renumber_attach_examples]
  rfl

/-! ## 3. Docstrings -/

/-- A session is inside a docstring, which has the given fence, margin and
    content type, and has read the given lines of it. -/
structure Quotes (language : Language) (d : Draft) (fence : Fence) (margin : Nat)
    (contentType : Text) (lines : List Text) (s : Session) : Prop where
  sound : s.Sound
  mode : ∃ n, s.mode = .docstring ⟨n, fence, margin, contentType, lines⟩
  shows : s.Shows language (fun _ => true) d

variable {fence : Fence} {margin : Nat} {contentType : Text} {lines : List Text}

/-- A line of the docstring goes behind the others. -/
theorem Quotes.line {line : Text} (h : s.Quotes language d fence margin contentType lines)
    (hinside : begins fence.mark (trim raw) = false) (hmargin : Indented margin raw)
    (hline : trimEnd (raw.drop margin) = line) :
    ∃ t, s.feed raw = .ok t ∧
      t.Quotes language d fence margin contentType (lines ++ [line]) := by
  obtain ⟨n, hmode⟩ := h.mode
  have hread := feed_content hmode hinside hmargin
  refine ⟨_, hread, h.sound.feed hread, ⟨n, ?_⟩, h.shows.entry, h.shows.chosen, rfl,
    h.shows.tags, h.shows.feature, h.shows.rule, h.shows.statement⟩
  rw [← hline]

/-- The closing fence attaches the docstring to the last step. -/
theorem Quotes.close (h : s.Quotes language d fence margin contentType lines)
    (hcloses : begins fence.mark (trim raw) = true) :
    ∃ t, s.feed raw = .ok t ∧ t.Holds language Mode.isSteps { d with
      statement := d.statement.map
        (·.mapLastStep (·.withDocstring ⟨join '\n' lines, contentType, 0⟩)) } := by
  obtain ⟨n, hmode⟩ := h.mode
  have hread := feed_closing hmode hcloses
  have hstatement := h.shows.mapStatement
    (f := (·.mapLastStep (·.withDocstring ⟨join '\n' lines, contentType, n⟩)))
    (g := (·.mapLastStep (·.withDocstring ⟨join '\n' lines, contentType, 0⟩)))
    fun statement => Statement.renumber_mapLastStep
      (fun step => step.renumber_withDocstring _) statement
  refine ⟨_, hread, h.sound.feed hread, ?_⟩
  rw [closeTable_of_left rfl]
  exact ⟨hstatement.entry, hstatement.chosen, rfl, hstatement.tags, hstatement.feature,
    hstatement.rule, hstatement.statement⟩

/-- A fence below a step opens a docstring. -/
theorem Holds.fenceLine {statement : Statement} {rest : Text}
    (h : s.Holds language Mode.isSteps d) (hstatement : d.statement = some statement)
    (hsteps : statement.steps ≠ []) (hlead : leads '"' (trim raw) = true ∨ leads '\x27' (trim raw) = true)
    (hopen : Fence.open? (trimStart raw) = some (fence, rest))
    (htype : (if rest.isEmpty then plainText else rest) = contentType) :
    ∃ t, s.feed raw = .ok t ∧
      t.Quotes language d fence (raw.takeWhile isBlank).length contentType [] := by
  have hhead : trim raw ≠ [] ∧ leads '#' (trim raw) = false ∧ leads '|' (trim raw) = false := by
    cases htrim : trim raw with
    | nil => simp [htrim, leads] at hlead
    | cons c t =>
      simp only [htrim, leads, List.head?_cons, beq_iff_eq, Option.some.injEq] at hlead
      rcases hlead with rfl | rfl <;> simp [leads]
  suffices hfed : ∃ t, s.feed raw = .ok t ∧ t.Sound ∧
      ((∃ n, t.mode = .docstring ⟨n, fence, (raw.takeWhile isBlank).length, contentType, []⟩) ∧
        t.Shows language (fun _ => true) d) by
    obtain ⟨t, hfeed, hsound, hmode, hshows⟩ := hfed
    exact ⟨t, hfeed, hsound, hmode, hshows⟩
  refine h.feed_of_read ⟨hhead.1, hhead.2.1⟩ (.inl hhead.2.2) ?_
  intro u _ hu
  obtain ⟨old, hold, hrenumber⟩ := Option.map_eq_some_iff.mp (hu.statement.trans hstatement)
  have hmode : u.mode = .steps := by
    have := hu.mode
    cases hm : u.mode <;> simp_all [Mode.isSteps]
  have hany : u.hasSteps = true := hasSteps_of_renumber hold hrenumber hsteps
  have hreader : LineKind.fence.reader u raw = some (.ok { u with
      mode := .docstring (.start u.line raw fence rest) }) := by
    simp [LineKind.reader, Reader.fenceLine, hopen, hany]
  have hkind : u.kind? raw = some .fence := by
    unfold Session.kind?
    rw [hmode]
    simp [Mode.kinds, hreader]
  refine ⟨_, read_eq_ok_iff.mpr ⟨.fence, hkind, hreader⟩, ⟨u.line, ?_⟩, ?_⟩
  · simp only [Block.start, htype]
  · exact ⟨hu.entry, hu.chosen, rfl, hu.tags, hu.feature, hu.rule, hu.statement⟩

end Session

/-! ## 4. Whole arguments -/

/-- A docstring that can be written and read back: no line of it closes it. -/
structure Docstring.Writable (docstring : Docstring) : Prop where
  contentType : docstring.contentType ≠ [] ∧ Trimmed docstring.contentType ∧
    SingleLine docstring.contentType
  lines : ∀ line ∈ lines docstring.value,
    SolidEnd line ∧ begins (Printer.fence docstring.value).mark (trim line) = false

theorem Fence.singleLine_mark (fence : Fence) : SingleLine fence.mark := by
  cases fence <;> decide

theorem Fence.leads_mark_append (fence : Fence) (rest : Text) :
    leads '"' (fence.mark ++ rest) = true ∨ leads '\x27' (fence.mark ++ rest) = true := by
  cases fence
  · exact .inl rfl
  · exact .inr rfl

/-- The opening fence names the content type unless it is the usual one. -/
theorem Docstring.openingFence_eq {docstring : Docstring}
    (h : docstring.contentType ≠ [] ∧ Trimmed docstring.contentType ∧
      SingleLine docstring.contentType) :
    ∃ rest, Printer.openingFence docstring = (Printer.fence docstring.value).mark ++ rest ∧
      Trimmed rest ∧ SingleLine rest ∧
      (if rest.isEmpty then plainText else rest) = docstring.contentType := by
  unfold Printer.openingFence
  by_cases hplain : docstring.contentType = plainText
  · exact ⟨[], by simp [hplain], ⟨solidStart_nil, solidEnd_nil⟩, singleLine_nil, hplain.symm⟩
  · refine ⟨docstring.contentType, by simp [hplain], h.2.1, h.2.2, ?_⟩
    simp [h.1]

namespace Session

variable {language : Language} {d : Draft} {statement : Statement}

/-- The opening fence starts a docstring at its own depth. -/
theorem reads_openingFence {docstring : Docstring} (h : docstring.Writable) (depth : Nat)
    (hstatement : d.statement = some statement) (hsteps : statement.steps ≠ []) :
    Reads (Holds language Mode.isSteps d)
      [Printer.indent depth (Printer.openingFence docstring)]
      (Quotes language d (Printer.fence docstring.value) (2 * depth) docstring.contentType []) := by
  have hmark := (Printer.fence docstring.value).trimmed_mark
  have hmarkNe := (Printer.fence docstring.value).mark_ne_nil
  obtain ⟨rest, hopening, htrimmed, hsingle, htype⟩ := Docstring.openingFence_eq h.contentType
  have hwhole : Trimmed ((Printer.fence docstring.value).mark ++ rest) := by
    refine ⟨hmark.1.append hmarkNe, ?_⟩
    by_cases hrest : rest = []
    · simpa [hrest] using hmark.2
    · exact htrimmed.2.append hrest
  have hne : (Printer.fence docstring.value).mark ++ rest ≠ [] := by simp [hmarkNe]
  have htrim : trim (Printer.indent depth ((Printer.fence docstring.value).mark ++ rest)) =
      (Printer.fence docstring.value).mark ++ rest := by
    rw [trim_indent, trim_eq_self hwhole]
  have hstart : trimStart (Printer.indent depth ((Printer.fence docstring.value).mark ++ rest)) =
      (Printer.fence docstring.value).mark ++ rest := by
    rw [indent_eq_append hne, trimStart_append_of_blank isBlank_of_mem_replicate,
      trimStart_eq_self hwhole.1]
  rw [hopening]
  refine Reads.line (singleLine_indent ((Fence.singleLine_mark _).append hsingle)) ?_
  intro s hs
  have hfed := hs.fenceLine hstatement hsteps (by rw [htrim]; exact Fence.leads_mark_append _ _)
    (by rw [hstart, Fence.open?_append, trim_eq_self htrimmed]) htype
  rwa [takeWhile_indent hne hwhole.1] at hfed

/-- The lines of a docstring come back without the margin. -/
theorem reads_quotedLines {docstring : Docstring} (h : docstring.Writable) (depth : Nat) :
    Reads
      (Quotes language d (Printer.fence docstring.value) (2 * depth) docstring.contentType [])
      (Printer.block depth (lines docstring.value))
      (Quotes language d (Printer.fence docstring.value) (2 * depth) docstring.contentType
        (lines docstring.value)) := by
  rw [block_eq_flatMap]
  refine Reads.flatMap ?_
  intro done line rest hlist
  have hmem : line ∈ lines docstring.value := by simp [hlist]
  obtain ⟨hsolid, hinside⟩ := h.lines line hmem
  obtain ⟨hindented, hdrop⟩ := indented_indent depth line
  refine Reads.line (singleLine_indent (singleLine_of_mem_lines hmem)) ?_
  intro s hs
  exact hs.line (by rwa [trim_indent]) hindented (by rw [hdrop, trimEnd_eq_self hsolid])

/-- The closing fence attaches the docstring to its step. -/
theorem reads_closingFence (docstring : Docstring) (depth : Nat) :
    Reads
      (Quotes language d (Printer.fence docstring.value) (2 * depth) docstring.contentType
        (lines docstring.value))
      [Printer.indent depth (Printer.fence docstring.value).mark]
      (Holds language Mode.isSteps { d with
        statement := d.statement.map
          (·.mapLastStep (·.withDocstring (docstring.renumber unnumbered))) }) := by
  refine Reads.line (singleLine_indent (Fence.singleLine_mark _)) ?_
  intro s hs
  have hclosing : begins (Printer.fence docstring.value).mark
      (trim (Printer.indent depth (Printer.fence docstring.value).mark)) = true := by
    rw [trim_indent, trim_eq_self (Fence.trimmed_mark _)]
    exact begins_eq_true_iff.mpr ⟨[], by simp⟩
  have hvalue : join '\n' (lines docstring.value) = docstring.value := join_split _ _
  have hclosed := hs.close hclosing
  rwa [hvalue] at hclosed

/-- A written docstring below a step comes back attached to it. -/
theorem reads_docstring {docstring : Docstring} (h : docstring.Writable) (depth : Nat)
    (hstatement : d.statement = some statement) (hsteps : statement.steps ≠ []) :
    Reads (Holds language Mode.isSteps d) (Printer.docstring depth docstring)
      (Holds language Mode.isSteps { d with
        statement := d.statement.map
          (·.mapLastStep (·.withDocstring (docstring.renumber unnumbered))) }) := by
  have hwritten : Printer.docstring depth docstring =
      [Printer.indent depth (Printer.openingFence docstring)] ++
        Printer.block depth (lines docstring.value) ++
        [Printer.indent depth (Printer.fence docstring.value).mark] := by
    simp [Printer.docstring, Printer.block]
  rw [hwritten]
  exact ((reads_openingFence h depth hstatement hsteps).append (reads_quotedLines h depth)).append
    (reads_closingFence docstring depth)

theorem table_eq_append (depth : Nat) (table : Table) :
    Printer.table depth table = [Printer.indent depth (Cells.write table.headings)] ++
      Printer.block depth (table.rows.map fun row => Cells.write row.cells) := by
  simp [Printer.table, Printer.block, Table.grid]

/-- A written table below a step comes back attached to it. -/
theorem reads_stepTable {table : Table} (h : table.Writable) (depth : Nat)
    (hclear : language.keywords.Clear) (hstatement : d.statement = some statement)
    (hsteps : statement.steps ≠ []) :
    Reads (fun s => s.Sound ∧ s.Shows language Mode.isSteps d) (Printer.table depth table)
      (Holds language Mode.isSteps { d with
        statement := d.statement.map
          (·.mapLastStep (·.withTable (table.renumber unnumbered))) }) := by
  obtain ⟨⟨rest, hrow⟩, hread⟩ := Cells.read_indent h.1 depth
  have hheadings : Reads (fun s => s.Sound ∧ s.Shows language Mode.isSteps d)
      [Printer.indent depth (Cells.write table.headings)]
      (Tabulates language d .stepTable ⟨table.headings, [], 0⟩) := by
    refine Reads.line (singleLine_indent (Cells.singleLine_write fun cell hcell =>
      (h.1.2 cell hcell).2)) ?_
    rintro s ⟨hsound, hs⟩
    exact hs.firstRow hsound hclear hstatement hsteps hrow hread
  rw [table_eq_append]
  exact (hheadings.append (reads_rows (fun _ => rfl) h depth)).mono fun _ ht => ht.step

/-- A written table below the header of an Examples block comes back in the
    block. -/
theorem reads_examplesTable {table : Table} (h : table.Writable) (depth : Nat) :
    Reads (fun s => s.Sound ∧ s.mode = .examples none ∧ s.Shows language (fun _ => true) d)
      (Printer.table depth table)
      (Holds language Mode.isOpen { d with
        statement := d.statement.map (·.mapBlocks
          (mapLast fun block => { block with table := some (table.renumber unnumbered) })) }) := by
  obtain ⟨⟨rest, hrow⟩, hread⟩ := Cells.read_indent h.1 depth
  have hheadings : Reads
      (fun s => s.Sound ∧ s.mode = .examples none ∧ s.Shows language (fun _ => true) d)
      [Printer.indent depth (Cells.write table.headings)]
      (Tabulates language d (fun table => .examples (some table)) ⟨table.headings, [], 0⟩) := by
    refine Reads.line (singleLine_indent (Cells.singleLine_write fun cell hcell =>
      (h.1.2 cell hcell).2)) ?_
    rintro s ⟨hsound, hmode, hs⟩
    exact hs.examplesHeadings hsound hmode hrow hread
  rw [table_eq_append]
  exact (hheadings.append (reads_rows (fun _ => rfl) h depth)).mono fun _ ht => ht.examples

end Session

end Gherkin
