/-
  Gherkin/Proofs/RoundTrip/Fences.lean
  ====================================
  **Which written docstrings are read back.**

  The fence of a written docstring is chosen by what stands anywhere in its
  value, and read by how a line begins.  A value without double quotes three in a
  row has no line that begins with them, so only the other fence can go wrong: it
  is chosen for a value that has such quotes somewhere, and closes at the first
  line that begins with it (`Docstring.Unrepresentable`).

  `Session.feedAll_written` is one written block, as far as its first closing
  line, and `Parser.read_docstring` puts it behind what a parser has read.
-/
import Gherkin.Proofs.RoundTrip.Written

namespace Gherkin

open Text

/-! ## 1. One written block -/

namespace Printer

variable {docstring : Docstring}

/-- The written opening fence is blanks, the fence and the content type. -/
theorem indent_openingFence
    (htype : docstring.contentType ≠ [] ∧ Trimmed docstring.contentType ∧
      SingleLine docstring.contentType) (depth : Nat) :
    ∃ rest, indent depth (openingFence docstring) =
        List.replicate (2 * depth) ' ' ++ (fence docstring.value).mark ++ rest ∧
      (if (trim rest).isEmpty then plainText else trim rest) = docstring.contentType := by
  obtain ⟨rest, hopening, htrimmed, -, hnamed⟩ := Docstring.openingFence_eq htype
  refine ⟨rest, ?_, ?_⟩
  · have hne : (fence docstring.value).mark ++ rest ≠ [] := by
      simp [(fence docstring.value).mark_ne_nil]
    rw [hopening, indent_eq_append hne, List.append_assoc]
  · rwa [trim_eq_self htrimmed]

/-- Lines without blank ends come back from behind their margin. -/
theorem map_block {content : List Text} (h : ∀ line ∈ content, SolidEnd line) (depth : Nat) :
    (block depth content).map (fun raw => trimEnd (raw.drop (2 * depth))) = content := by
  rw [block, List.map_map]
  conv_rhs => rw [← List.map_id content]
  apply List.map_congr_left
  intro line hline
  rw [Function.comp, (indented_indent depth line).2, trimEnd_eq_self (h line hline)]
  rfl

end Printer

namespace Session

variable {s : Session} {statement : Statement} {earlier : List Step} {step : Step}
  {docstring : Docstring} {content : List Text} {closing : Text}

/-- A written opening fence, lines that do not begin with it, and a line that
    does: the last step has the lines as its docstring. -/
theorem feedAll_written (hmode : s.closeTable.mode = .steps)
    (hstatement : s.closeTable.statement = some statement)
    (hsteps : statement.steps = earlier ++ [step])
    (htype : docstring.contentType ≠ [] ∧ Trimmed docstring.contentType ∧
      SingleLine docstring.contentType)
    (hsolid : ∀ line ∈ content, SolidEnd line)
    (hinside : ∀ line ∈ content, begins (Printer.fence docstring.value).mark (trim line) = false)
    (hcloses : begins (Printer.fence docstring.value).mark (trim closing) = true) (depth : Nat) :
    s.feedAll (Printer.block depth (Printer.openingFence docstring :: content ++ [closing])) =
      .ok { s.closeTable with
        line := s.line + content.length + 2
        statement := some (statement.mapSteps fun _ => earlier ++ [{ step with
          text := if step.hasArgument then step.text else dropFinal ':' step.text
          docstring := some ⟨join '\n' content, docstring.contentType, s.line + 1⟩ }]) } := by
  obtain ⟨rest, hopening, hnamed⟩ := Printer.indent_openingFence htype depth
  have hblock : Printer.block depth (Printer.openingFence docstring :: content ++ [closing]) =
      (List.replicate (2 * depth) ' ' ++ (Printer.fence docstring.value).mark ++ rest) ::
        Printer.block depth content ++ [Printer.indent depth closing] := by
    rw [← hopening]
    simp [Printer.block]
  have hmargin : (List.replicate (2 * depth) ' ').length = 2 * depth := List.length_replicate
  have hlines : ∀ raw ∈ Printer.block depth content,
      begins (Printer.fence docstring.value).mark (trim raw) = false ∧
        Indented (List.replicate (2 * depth) ' ').length raw := by
    intro raw hraw
    obtain ⟨line, hline, rfl⟩ := List.mem_map.mp hraw
    rw [trim_indent, hmargin]
    exact ⟨hinside line hline, (indented_indent depth line).1⟩
  have hend : begins (Printer.fence docstring.value).mark
      (trim (Printer.indent depth closing)) = true := by
    rw [trim_indent]
    exact hcloses
  rw [hblock, feedAll_closed hmode hstatement hsteps isBlank_of_mem_replicate
    (fun raw hraw => (hlines raw hraw).1) (fun raw hraw => (hlines raw hraw).2) hend, hmargin,
    hnamed, Printer.map_block hsolid]
  simp [Printer.block]

end Session

/-! ## 2. Behind what a parser has read -/

namespace Parser

/-- What follows a text is read by the session that has read the text. -/
theorem read_append {parser : Parser} {entry : Entry} {before : Text} {source : Option Text}
    {s : Session} (h : parser.read entry before source = .ok s) (after : Text) :
    parser.read entry (before ++ '\n' :: after) source = s.feedAll (lines after) := by
  obtain ⟨u, hsession, hfeed⟩ := read_eq_ok h
  rw [Parser.read, hsession, lines_append_newline]
  exact Session.feedAll_append_of_ok hfeed _

section Docstring

variable {parser : Parser} {entry : Entry} {before : Text} {source : Option Text} {s : Session}
  {statement : Statement} {earlier : List Step} {step : Step} {docstring : Docstring}

/-- The same at the end of a text that was read so far. -/
theorem read_written (hread : parser.read entry before source = .ok s)
    (hmode : s.closeTable.mode = .steps) (hstatement : s.closeTable.statement = some statement)
    (hsteps : statement.steps = earlier ++ [step])
    (htype : docstring.contentType ≠ [] ∧ Trimmed docstring.contentType ∧
      SingleLine docstring.contentType) {content : List Text} {closing : Text}
    (hlines : ∀ line ∈ closing :: content, SingleLine line)
    (hsolid : ∀ line ∈ content, SolidEnd line)
    (hinside : ∀ line ∈ content, begins (Printer.fence docstring.value).mark (trim line) = false)
    (hcloses : begins (Printer.fence docstring.value).mark (trim closing) = true) (depth : Nat) :
    parser.read entry (before ++ '\n' :: join '\n'
        (Printer.block depth (Printer.openingFence docstring :: content ++ [closing]))) source =
      .ok { s.closeTable with
        line := s.line + content.length + 2
        statement := some (statement.mapSteps fun _ => earlier ++ [{ step with
          text := if step.hasArgument then step.text else dropFinal ':' step.text
          docstring := some ⟨join '\n' content, docstring.contentType, s.line + 1⟩ }]) } := by
  have hsingle : ∀ raw ∈ Printer.block depth
      (Printer.openingFence docstring :: content ++ [closing]), SingleLine raw := by
    intro raw hraw
    obtain ⟨line, hline, rfl⟩ := List.mem_map.mp hraw
    apply singleLine_indent
    rcases List.mem_append.mp hline with hline | hline
    · rcases List.mem_cons.mp hline with rfl | hline
      · obtain ⟨rest, hopening, -, hrest, -⟩ := Docstring.openingFence_eq htype
        rw [hopening]
        exact (Fence.singleLine_mark _).append hrest
      · exact hlines line (List.mem_cons_of_mem _ hline)
    · rw [List.mem_singleton.mp hline]
      exact hlines closing List.mem_cons_self
  rw [read_append hread, lines_join hsingle (by simp [Printer.block])]
  exact Session.feedAll_written hmode hstatement hsteps htype hsolid hinside hcloses depth

/-- A docstring whose lines have no blanks at their ends, written behind a step,
    is read back with its value and its content type unless it is
    unrepresentable.  If it is, the docstring ends in front of the first line
    that begins with single quotes three in a row. -/
theorem read_docstring (hread : parser.read entry before source = .ok s)
    (hmode : s.closeTable.mode = .steps) (hstatement : s.closeTable.statement = some statement)
    (hsteps : statement.steps = earlier ++ [step])
    (hsolid : ∀ line ∈ lines docstring.value, SolidEnd line)
    (htype : docstring.contentType ≠ [] ∧ Trimmed docstring.contentType ∧
      SingleLine docstring.contentType) (depth : Nat) :
    (¬docstring.Unrepresentable →
      parser.read entry (before ++ '\n' :: join '\n' (Printer.docstring depth docstring)) source =
        .ok { s.closeTable with
          line := s.line + (lines docstring.value).length + 2
          statement := some (statement.mapSteps fun _ => earlier ++ [{ step with
            text := if step.hasArgument then step.text else dropFinal ':' step.text
            docstring := some { docstring with line := s.line + 1 } }]) }) ∧
    (occurs Fence.double.mark docstring.value = true →
      ∀ above line below, lines docstring.value = above ++ line :: below →
      (∀ other ∈ above, begins Fence.single.mark (trim other) = false) →
      begins Fence.single.mark (trim line) = true →
      parser.read entry (before ++ '\n' :: join '\n'
          (Printer.block depth (Printer.openingFence docstring :: above ++ [line]))) source =
        .ok { s.closeTable with
          line := s.line + above.length + 2
          statement := some (statement.mapSteps fun _ => earlier ++ [{ step with
            text := if step.hasArgument then step.text else dropFinal ':' step.text
            docstring := some ⟨join '\n' above, docstring.contentType, s.line + 1⟩ }]) }) := by
  constructor
  · intro hfence
    have hmark := (Printer.fence docstring.value).trimmed_mark
    have hvalue : join '\n' (lines docstring.value) = docstring.value := join_split _ _
    have hsingle : ∀ line ∈ (Printer.fence docstring.value).mark :: lines docstring.value,
        SingleLine line := by
      intro line hline
      rcases List.mem_cons.mp hline with rfl | hline
      · exact Fence.singleLine_mark _
      · exact singleLine_of_mem_lines hline
    have hcloses : begins (Printer.fence docstring.value).mark
        (trim (Printer.fence docstring.value).mark) = true := by
      rw [trim_eq_self hmark]
      exact begins_eq_true_iff.mpr ⟨[], (List.append_nil _).symm⟩
    have hwritten := read_written hread hmode hstatement hsteps htype hsingle hsolid
      (fun line hline => Docstring.begins_fence hfence hline) hcloses depth
    rw [hvalue] at hwritten
    exact hwritten
  · intro hdouble above line below hparts habove hline
    have hsingle : Printer.fence docstring.value = .single := if_pos hdouble
    have hmem : ∀ other ∈ line :: above, other ∈ lines docstring.value := by
      intro other hother
      rw [hparts]
      rcases List.mem_cons.mp hother with rfl | hother
      · simp
      · exact List.mem_append_left _ hother
    apply read_written hread hmode hstatement hsteps htype
    · intro other hother
      exact singleLine_of_mem_lines (hmem other hother)
    · intro other hother
      exact hsolid other (hmem other (List.mem_cons_of_mem _ hother))
    · rwa [hsingle]
    · rwa [hsingle]

end Docstring

/-- For instance between single quotes, which do not stand at the beginning of a
    line of the value. -/
theorem read_docstring_json :
    ∃ t after, standard.read .steps
        "Given a:\n  '''json\n  x \"\"\"\n\n  y '''\n  '''".toList none = .ok t ∧
      t.statement = some after ∧ after.steps.map (·.docstring) =
        [some ⟨"x \"\"\"\n\ny '''".toList, "json".toList, 2⟩] := by
  obtain ⟨s, statement, step, hread, hmode, hstatement, hsteps, hline⟩ :
      ∃ (s : Session) (statement : Statement) (step : Step),
        standard.read .steps "Given a:".toList none = .ok s ∧ s.closeTable.mode = .steps ∧
        s.closeTable.statement = some statement ∧ statement.steps = [] ++ [step] ∧ s.line = 1 :=
    ⟨_, _, _, rfl, rfl, rfl, rfl, rfl⟩
  obtain ⟨docstring, hdocstring⟩ : ∃ docstring : Docstring,
      docstring = ⟨"x \"\"\"\n\ny '''".toList, "json".toList, 0⟩ := ⟨_, rfl⟩
  obtain ⟨hsolid, htype, hfence⟩ : (∀ line ∈ lines docstring.value, SolidEnd line) ∧
      (docstring.contentType ≠ [] ∧ Trimmed docstring.contentType ∧
        SingleLine docstring.contentType) ∧ ¬docstring.Unrepresentable := by
    rw [hdocstring]
    unfold Docstring.Unrepresentable
    decide +kernel
  have hwritten := (read_docstring hread hmode hstatement hsteps hsolid htype 1).1 hfence
  subst hdocstring
  refine ⟨_, _, hwritten, rfl, ?_⟩
  rw [Statement.steps_mapSteps, hline]
  rfl

/-- Double quotes inside one line and single quotes at the beginning of another:
    the docstring ends in front of the latter. -/
theorem read_docstring_early :
    ∃ docstring : Docstring, docstring.value = "x \"\"\"\n'''".toList ∧
      docstring.contentType = plainText ∧
      (∀ line ∈ lines docstring.value,
        SolidEnd line ∧ begins Fence.double.mark (trim line) = false) ∧
      (standard.steps ("Given a:\n".toList ++ join '\n' (Printer.docstring 1 docstring)) none).map
        (·.map fun step => step.docstring.map (·.value)) = .ok [some "x \"\"\"".toList] := by
  refine ⟨⟨"x \"\"\"\n'''".toList, plainText, 0⟩, rfl, rfl, by decide +kernel, ?_⟩
  rfl

end Parser

end Gherkin
