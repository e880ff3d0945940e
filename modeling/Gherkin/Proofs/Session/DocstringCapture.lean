/-
  Gherkin/Proofs/Session/DocstringCapture.lean
  ============================================
  **What a docstring holds.**

  Behind an opening fence every line belongs to the docstring until a line begins
  with the same fence, whatever else the line could be: a blank line, a comment, a
  row of tags or of a table, a step, or the other fence.  A line gives up as many
  characters as stand in front of the opening fence, and the first line that has
  something else than blanks there is a failure.

  `feed_opening`, `feed_content`, `feed_overhang` and `feed_closing` are the four
  things that one line can do, `feedAll_content` is a run of lines inside, and
  `feedAll_docstring` puts a whole docstring together.  The fence may also stand
  behind an open table, which is closed first.
-/
import Gherkin.Proofs.Session.Coherence
import Gherkin.Proofs.Session.Refusal

namespace Gherkin

open Text

/-! ## 1. Fences and margins -/

namespace Fence

theorem trimmed_mark (fence : Fence) : Trimmed fence.mark := by
  cases fence <;> decide

theorem mark_ne_nil (fence : Fence) : fence.mark ≠ [] := by
  cases fence <;> decide

theorem open?_append (fence : Fence) (rest : Text) :
    Fence.open? (fence.mark ++ rest) = some (fence, trim rest) := by
  cases fence <;> simp [Fence.open?, Fence.mark, after?]

theorem eq_of_open? {t contentType : Text} {fence : Fence}
    (h : Fence.open? t = some (fence, contentType)) :
    ∃ rest, t = fence.mark ++ rest ∧ trim rest = contentType := by
  obtain ⟨other, -, hmatch⟩ := List.exists_of_findSome?_eq_some h
  obtain ⟨rest, hafter, heq⟩ := Option.map_eq_some_iff.mp hmatch
  obtain ⟨rfl, rfl⟩ := Prod.mk.injEq .. ▸ heq
  exact ⟨rest, after?_eq_some_iff.mp hafter, rfl⟩

end Fence

/-- The line has nothing but blanks in front of the margin. -/
def Indented (margin : Nat) (raw : Text) : Prop := ∀ c ∈ raw.take margin, isBlank c = true

instance (margin : Nat) (raw : Text) : Decidable (Indented margin raw) :=
  inferInstanceAs (Decidable (∀ c ∈ raw.take margin, isBlank c = true))

theorem Block.push_of_indented {block : Block} {raw : Text} (h : Indented block.margin raw) :
    block.push raw =
      .ok { block with lines := block.lines ++ [trimEnd (raw.drop block.margin)] } := by
  have hblank : (raw.take block.margin).all isBlank = true := List.all_eq_true.mpr h
  simp [Block.push, hblank]

theorem Block.push_of_overhang {block : Block} {raw : Text} (h : ¬Indented block.margin raw) :
    block.push raw = .error (raw.take block.margin) := by
  have hsolid : ¬(raw.take block.margin).all isBlank = true := by
    intro hall
    exact h (List.all_eq_true.mp hall)
  simp only [Block.push, if_neg hsolid]

/-- The block that a fence on the given line opens, with the lines behind it.  What
    follows the fence names the content type. -/
def Block.below (line : Nat) (fence : Fence) (margin : Nat) (rest : Text) (content : List Text) :
    Block where
  line := line
  fence := fence
  margin := margin
  contentType := if (trim rest).isEmpty then plainText else trim rest
  lines := content.map fun raw => trimEnd (raw.drop margin)

/-- A fence behind blanks opens a block with the blanks as its margin. -/
theorem Block.start_of_blanks {blanks : Text} (hblanks : ∀ c ∈ blanks, isBlank c = true)
    (line : Nat) (fence : Fence) (rest : Text) :
    Block.start line (blanks ++ fence.mark ++ rest) fence (trim rest) =
      .below line fence blanks.length rest [] := by
  have hsolid : (fence.mark ++ rest).takeWhile isBlank = [] := by
    cases fence <;> rfl
  have hmargin : (blanks ++ fence.mark ++ rest).takeWhile isBlank = blanks := by
    rw [List.append_assoc, List.takeWhile_append_of_pos hblanks, hsolid, List.append_nil]
  simp only [Block.start, Block.below, hmargin, List.map_nil]

namespace Session

variable {s : Session} {block : Block} {raw : Text}

/-! ## 2. One line -/

/-- A line that begins with a fence is no row, no comment and not blank. -/
theorem trim_of_fence {blanks : Text} (hblanks : ∀ c ∈ blanks, isBlank c = true) (fence : Fence)
    (rest : Text) :
    trim (blanks ++ fence.mark ++ rest) = fence.mark ++ trimEnd rest := by
  have hsolid : SolidStart (fence.mark ++ rest) := fence.trimmed_mark.1.append fence.mark_ne_nil
  rw [List.append_assoc, trim_append_of_blank hblanks, trim, trimStart_eq_self hsolid,
    trimEnd_append fence.trimmed_mark.2]

/-- A fence below a step opens a docstring.  A table that is still open is closed
    first, and the language in force stays as it is. -/
theorem feed_opening (hmode : s.closeTable.mode = .steps) (hsteps : s.closeTable.hasSteps = true)
    {blanks : Text} (hblanks : ∀ c ∈ blanks, isBlank c = true) (fence : Fence) (rest : Text) :
    s.feed (blanks ++ fence.mark ++ rest) =
      .ok { s.closeTable with
        line := s.line + 1
        mode := .docstring (.below (s.line + 1) fence blanks.length rest []) } := by
  have htrim := trim_of_fence hblanks fence rest
  have hopen : Fence.open? (trimStart (blanks ++ fence.mark ++ rest)) = some (fence, trim rest) := by
    have hsolid : SolidStart (fence.mark ++ rest) := fence.trimmed_mark.1.append fence.mark_ne_nil
    rw [List.append_assoc, trimStart_append_of_blank hblanks, trimStart_eq_self hsolid,
      Fence.open?_append]
  generalize hraw : blanks ++ fence.mark ++ rest = raw at htrim hopen ⊢
  obtain ⟨hvisible, hcomment, hrow⟩ :
      (trim raw).isEmpty = false ∧ leads '#' (trim raw) = false ∧ leads '|' (trim raw) = false := by
    rw [htrim]
    cases fence <;> exact ⟨rfl, rfl, rfl⟩
  have henter : s.enter raw = { s with line := s.line + 1 } := by
    have hquiet : s.consults raw = false := by
      rw [closeTable_eq] at hmode
      cases hs : s.mode <;> simp_all [Mode.left, consults]
    simp [Session.enter, hquiet]
  have hfacing : s.facing raw = { s.closeTable with line := s.line + 1 } := by
    rw [facing_eq_closeTable fun _ => hrow, henter, closeTable_eq, closeTable_eq]
  have hkind : (s.facing raw).kind? raw = some .fence := by
    rw [kind?_eq, hfacing, hmode]
    simp [Mode.kinds, LineKind.fits, hopen]
  have htakes : Takes (s.facing raw) raw .fence { s.facing raw with
      mode := .docstring (.start (s.facing raw).line raw fence (trim rest)) } := by
    apply Takes.fence
    · rw [hfacing]
      exact hmode
    · exact hopen
    · rw [hfacing]
      exact hsteps
  have hread := read_of_takes hkind htakes
  rw [feed_eq, if_neg (by simp [skips, hvisible]), if_neg (by simp [isComment, hcomment]), hread,
    hfacing, ← hraw, Block.start_of_blanks hblanks]

/-- Inside a docstring a line is neither skipped nor tested against keywords. -/
theorem feed_of_docstring (hmode : s.mode = .docstring block) (raw : Text) :
    s.feed raw = (Reader.docstringLine block { s with line := s.line + 1 } raw).getD
      (.error ((s.enter raw).unexpected raw)) := by
  have hdoc : s.inDocstring = true := by simp [inDocstring, hmode]
  have hskips : s.skips raw = false := by simp [skips, hdoc]
  have hcomment : s.isComment raw = false := by simp [isComment, hdoc]
  have hquiet : s.consults raw = false := by simp [consults, hskips, hcomment, hmode]
  have henter : s.enter raw = { s with line := s.line + 1 } := by simp [Session.enter, hquiet]
  have htable : (s.enter raw).inTable = false := by simp [henter, inTable, hmode]
  have hfacing : s.facing raw = s.enter raw := by simp [Session.facing, leaveTable, htable]
  rw [feed_eq, if_neg (by simp [hskips]), if_neg (by simp [hcomment]), hfacing, Session.read, henter]
  simp [hmode, Mode.readers, recognise]

theorem feed_content (hmode : s.mode = .docstring block) (hinside : block.closes raw = false)
    (hindented : Indented block.margin raw) :
    s.feed raw =
      .ok { s with
        line := s.line + 1
        mode := .docstring
          { block with lines := block.lines ++ [trimEnd (raw.drop block.margin)] } } := by
  rw [feed_of_docstring hmode]
  simp [Reader.docstringLine, hinside, Block.push_of_indented hindented]

theorem feed_overhang (hmode : s.mode = .docstring block) (hinside : block.closes raw = false)
    (hoverhang : ¬Indented block.margin raw) :
    s.feed raw =
      .error ⟨.badIndent (raw.take block.margin), s.line + 1, some (trim raw), s.source⟩ := by
  rw [feed_of_docstring hmode]
  simp [Reader.docstringLine, hinside, Block.push_of_overhang hoverhang, Session.failure]

theorem feed_closing (hmode : s.mode = .docstring block) (hcloses : block.closes raw = true) :
    s.feed raw =
      .ok { s with
        line := s.line + 1
        statement := s.statement.map (·.mapLastStep (·.withDocstring block.docstring))
        mode := .steps } := by
  rw [feed_of_docstring hmode]
  simp [Reader.docstringLine, hcloses, mapStatement]

/-! ## 3. Whole docstrings -/

/-- Lines inside a docstring go behind those it has, without their margin. -/
theorem feedAll_content {content : List Text} (hmode : s.mode = .docstring block)
    (hinside : ∀ raw ∈ content, block.closes raw = false)
    (hindented : ∀ raw ∈ content, Indented block.margin raw) :
    s.feedAll content =
      .ok { s with
        line := s.line + content.length
        mode := .docstring { block with
          lines := block.lines ++ content.map fun raw => trimEnd (raw.drop block.margin) } } := by
  induction content generalizing s block with
  | nil =>
    rw [feedAll_nil, Except.ok.injEq]
    simp [← hmode]
  | cons raw rest ih =>
    have hfirst := feed_content hmode (hinside raw List.mem_cons_self)
      (hindented raw List.mem_cons_self)
    rw [feedAll_cons_of_ok hfirst]
    -- The block grows by one line and keeps the fence and the margin, which is all
    -- that the rest of the lines is tested for.
    have hrest := ih (s := { s with
        line := s.line + 1
        mode := .docstring
          { block with lines := block.lines ++ [trimEnd (raw.drop block.margin)] } }) rfl
      (fun other hother => hinside other (List.mem_cons_of_mem _ hother))
      (fun other hother => hindented other (List.mem_cons_of_mem _ hother))
    rw [hrest]
    simp [Nat.add_assoc, Nat.add_comm 1]

/-- The last step takes over a docstring and, if it is its first argument, gives up
    the colon in front of it. -/
theorem mapLastStep_withDocstring {statement : Statement} {earlier : List Step} {step : Step}
    (hsteps : statement.steps = earlier ++ [step]) (docstring : Docstring) :
    statement.mapLastStep (·.withDocstring docstring) =
      statement.mapSteps fun _ => earlier ++ [{ step with
        text := if step.hasArgument then step.text else dropFinal ':' step.text
        docstring := some docstring }] := by
  have hstep : step.withDocstring docstring = { step with
      text := if step.hasArgument then step.text else dropFinal ':' step.text
      docstring := some docstring } := by
    unfold Step.withDocstring Step.announced
    split <;> rfl
  have hlast : mapLast (·.withDocstring docstring) statement.steps =
      earlier ++ [step.withDocstring docstring] := by
    rw [hsteps, mapLast_append_singleton]
  rw [← hstep, ← hlast]
  cases statement <;> rfl

section Capture

variable {statement : Statement} {earlier : List Step} {step : Step} {fence : Fence}
  {blanks rest : Text} {content : List Text}

/-- A fence below a step and the lines behind it that belong to the docstring. -/
theorem feedAll_open (hmode : s.closeTable.mode = .steps)
    (hstatement : s.closeTable.statement = some statement)
    (hsteps : statement.steps = earlier ++ [step]) (hblanks : ∀ c ∈ blanks, isBlank c = true)
    (hinside : ∀ raw ∈ content, begins fence.mark (trim raw) = false)
    (hindented : ∀ raw ∈ content, Indented blanks.length raw) (rest : Text) :
    s.feedAll ((blanks ++ fence.mark ++ rest) :: content) =
      .ok { s.closeTable with
        line := s.line + content.length + 1
        mode := .docstring (.below (s.line + 1) fence blanks.length rest content) } := by
  have hany : s.closeTable.hasSteps = true :=
    hasSteps_eq_true_iff.mpr ⟨statement, hstatement, by simp [hsteps]⟩
  have hclosed : ∀ raw ∈ content,
      (Block.below (s.line + 1) fence blanks.length rest []).closes raw = false := hinside
  rw [feedAll_cons_of_ok (feed_opening hmode hany hblanks fence rest),
    feedAll_content rfl hclosed hindented]
  simp [Block.below, Nat.add_right_comm]

/-- A docstring fails at its first line with text in front of the margin, and what
    it reports is that line as far as the margin. -/
theorem feedAll_overhang (hmode : s.closeTable.mode = .steps)
    (hstatement : s.closeTable.statement = some statement)
    (hsteps : statement.steps = earlier ++ [step]) (hblanks : ∀ c ∈ blanks, isBlank c = true)
    (hinside : ∀ raw ∈ content, begins fence.mark (trim raw) = false)
    (hindented : ∀ raw ∈ content, Indented blanks.length raw)
    (hraw : begins fence.mark (trim raw) = false) (hoverhang : ¬Indented blanks.length raw)
    (after : List Text) :
    s.feedAll ((blanks ++ fence.mark ++ rest) :: (content ++ raw :: after)) =
      .error ⟨.badIndent (raw.take blanks.length), s.line + content.length + 2, some (trim raw),
        s.source⟩ := by
  have hopen := feedAll_open hmode hstatement hsteps hblanks hinside hindented rest
  have hinside' : (Block.below (s.line + 1) fence blanks.length rest content).closes raw = false :=
    hraw
  have hsource : s.closeTable.source = s.source := by rw [closeTable_eq]
  rw [← List.cons_append, feedAll_append_of_ok hopen,
    feedAll_cons_of_error (feed_overhang rfl hinside' hoverhang), ← hsource]
  rfl

/-- The closing fence hands the docstring to the last step. -/
theorem feedAll_closed (hmode : s.closeTable.mode = .steps)
    (hstatement : s.closeTable.statement = some statement)
    (hsteps : statement.steps = earlier ++ [step]) (hblanks : ∀ c ∈ blanks, isBlank c = true)
    (hinside : ∀ raw ∈ content, begins fence.mark (trim raw) = false)
    (hindented : ∀ raw ∈ content, Indented blanks.length raw) {closing : Text}
    (hcloses : begins fence.mark (trim closing) = true) :
    s.feedAll ((blanks ++ fence.mark ++ rest) :: content ++ [closing]) =
      .ok { s.closeTable with
        line := s.line + content.length + 2
        statement := some (statement.mapSteps fun _ => earlier ++ [{ step with
          text := if step.hasArgument then step.text else dropFinal ':' step.text
          docstring := some {
            value := join '\n' (content.map fun raw => trimEnd (raw.drop blanks.length))
            contentType := if (trim rest).isEmpty then plainText else trim rest
            line := s.line + 1 } }]) } := by
  have hopen := feedAll_open hmode hstatement hsteps hblanks hinside hindented rest
  have hcloses' : (Block.below (s.line + 1) fence blanks.length rest content).closes closing = true :=
    hcloses
  rw [feedAll_append_of_ok hopen, feedAll_cons_of_ok (feed_closing rfl hcloses'), feedAll_nil,
    hstatement, Option.map_some, mapLastStep_withDocstring hsteps, ← hmode]
  rfl

/-- A fence below a step, lines that do not begin with the fence, and a line that
    does.  If all lines between them leave the margin blank, the last step has them
    as its docstring, and nothing else in the tree has changed but the colon of
    that step.  Otherwise the first line that does not is the failure. -/
theorem feedAll_docstring (hmode : s.closeTable.mode = .steps)
    (hstatement : s.closeTable.statement = some statement)
    (hsteps : statement.steps = earlier ++ [step]) (hblanks : ∀ c ∈ blanks, isBlank c = true)
    (hinside : ∀ raw ∈ content, begins fence.mark (trim raw) = false) :
    (∀ before raw after, content = before ++ raw :: after →
      (∀ other ∈ before, Indented blanks.length other) → ¬Indented blanks.length raw →
      s.feedAll ((blanks ++ fence.mark ++ rest) :: content) =
        .error ⟨.badIndent (raw.take blanks.length), s.line + before.length + 2, some (trim raw),
          s.source⟩) ∧
    ((∀ raw ∈ content, Indented blanks.length raw) →
      ∀ closing, begins fence.mark (trim closing) = true →
      s.feedAll ((blanks ++ fence.mark ++ rest) :: content ++ [closing]) =
        .ok { s.closeTable with
          line := s.line + content.length + 2
          statement := some (statement.mapSteps fun _ => earlier ++ [{ step with
            text := if step.hasArgument then step.text else dropFinal ':' step.text
            docstring := some {
              value := join '\n' (content.map fun raw => trimEnd (raw.drop blanks.length))
              contentType := if (trim rest).isEmpty then plainText else trim rest
              line := s.line + 1 } }]) }) := by
  constructor
  · rintro before raw after rfl hindented hoverhang
    apply feedAll_overhang hmode hstatement hsteps hblanks _ hindented _ hoverhang after
    · intro other hother
      exact hinside other (List.mem_append_left _ hother)
    · exact hinside raw (by simp)
  · intro hindented closing hcloses
    exact feedAll_closed hmode hstatement hsteps hblanks hinside hindented hcloses

/-- For instance straight behind a table: a blank line, a comment, tags, a row, a step
    and the other fence are content, and a line that stands too far left is a failure. -/
theorem feedAll_docstring_table :
    ∃ (u s : Session) (statement : Statement) (step : Step),
      Parser.standard.session .feature none = .ok u ∧
      u.feedAll (Builtin.texts ["Feature: F", "Scenario: S", "Given a:", "| x |"]) = .ok s ∧
      s.closeTable.statement = some statement ∧ statement.steps = [step] ∧
      step.text = "a".toList ∧
      s.feedAll (Builtin.texts ["  '''json", " ", "  # b ", "   @t", "  | y |", "  Then c",
          "  \"\"\"", "'''"]) =
        .ok { s.closeTable with
          line := 12
          statement := some (statement.mapSteps fun _ => [{ step with
            docstring :=
              some ⟨"\n# b\n @t\n| y |\nThen c\n\"\"\"".toList, "json".toList, 5⟩ }]) } ∧
      s.feedAll (Builtin.texts ["  '''json", " ", " b", "c"]) =
        .error ⟨.badIndent " b".toList, 7, some "b".toList, none⟩ := by
  have hread : ∃ (u s : Session) (statement : Statement) (step : Step),
      Parser.standard.session .feature none = .ok u ∧
      u.feedAll (Builtin.texts ["Feature: F", "Scenario: S", "Given a:", "| x |"]) = .ok s ∧
      s.closeTable.mode = .steps ∧ s.line = 4 ∧ s.source = none ∧
      s.closeTable.statement = some statement ∧ statement.steps = [] ++ [step] ∧
      step.text = "a".toList ∧ step.hasArgument = true :=
    ⟨_, _, _, _, rfl, rfl, rfl, rfl, rfl, rfl, rfl, rfl, rfl⟩
  obtain ⟨u, s, statement, step, hu, hs, hmode, hline, hsource, hstatement, hsteps, htext, harg⟩ :=
    hread
  have hfilled := (@feedAll_docstring s statement [] step .single "  ".toList "json".toList
    (Builtin.texts [" ", "  # b ", "   @t", "  | y |", "  Then c", "  \"\"\""])
    hmode hstatement hsteps (by decide) (by decide)).2 (by decide) "'''".toList (by decide)
  have hfailed := (@feedAll_docstring s statement [] step .single "  ".toList "json".toList
    (Builtin.texts [" ", " b", "c"]) hmode hstatement hsteps (by decide) (by decide)).1
    [" ".toList] " b".toList ["c".toList] rfl (by decide) (by decide)
  refine ⟨u, s, statement, step, hu, hs, hstatement, hsteps, htext, ?_, ?_⟩
  · rw [hline, harg, if_pos rfl] at hfilled
    exact hfilled
  · rw [hline, hsource] at hfailed
    exact hfailed

end Capture

end Session

end Gherkin
