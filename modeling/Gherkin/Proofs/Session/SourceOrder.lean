/-
  Gherkin/Proofs/Session/SourceOrder.lean
  =======================================
  **No node is lost, and all stand where their lines stand.**

  A reading starts nodes on some of its lines; `Session.trace` lists them.  Open
  nodes wait in slots of their own until they are moved into the tree, so it is
  not clear from the slots alone that each of them arrives, once, and behind the
  nodes that were started before.  The invariant that shows it is that the walk
  through the tree as it would be if everything open were closed is the trace so
  far (`Session.Traced`).

  The lines of a trace increase, so both walks through a feature that has been
  read run through the lines of its text from the top to the bottom.
-/
import Gherkin.Proofs.Session.Faithfulness
import Gherkin.Proofs.Tree.Walk

namespace Gherkin

open Text

/-! ## 1. The trace of a reading -/

def LineKind.starts : LineKind → Option NodeKind
  | .feature => some .feature
  | .rule => some .rule
  | .scenario _ none => some .scenario
  | .scenario _ (some _) => some .outline
  | .examples => some .examples
  | .background => some .background
  | .step => some .step
  | _ => none

def LineKind.marks (kind : LineKind) (line : Nat) : List Mark :=
  kind.starts.toList.map fun node => ⟨node, line⟩

namespace Session

/-- The node that the next line starts, if it starts one. -/
def marks (s : Session) (raw : Text) : List Mark :=
  if s.skips raw || s.isComment raw then []
  else ((s.facing raw).kind? raw).elim [] (·.marks (s.line + 1))

/-- The nodes that are started by reading the given lines up to the first
    failure. -/
def trace (s : Session) : List Text → List Mark
  | [] => []
  | raw :: rest =>
    s.marks raw ++
      match s.feed raw with
      | .ok next => next.trace rest
      | .error _ => []

theorem line_of_mem_marks {s : Session} {raw : Text} {mark : Mark} (h : mark ∈ s.marks raw) :
    mark.line = s.line + 1 := by
  unfold marks at h
  split at h
  · simp at h
  · cases hkind : (s.facing raw).kind? raw with
    | none => simp [hkind] at h
    | some kind =>
      simp only [hkind, Option.elim_some, LineKind.marks, List.mem_map] at h
      obtain ⟨node, -, rfl⟩ := h
      rfl

theorem pairwise_marks (s : Session) (raw : Text) :
    (s.marks raw).Pairwise fun a b => a.line < b.line := by
  unfold marks
  split
  · exact .nil
  · cases (s.facing raw).kind? raw with
    | none => exact .nil
    | some kind =>
      cases hstarts : kind.starts <;> simp [LineKind.marks, hstarts]

theorem trace_bounds {s : Session} {raws : List Text} {mark : Mark} (h : mark ∈ s.trace raws) :
    s.line < mark.line ∧ mark.line ≤ s.line + raws.length := by
  induction raws generalizing s with
  | nil => simp [trace] at h
  | cons raw rest ih =>
    rw [trace, List.mem_append] at h
    rcases h with h | h
    · have hline := line_of_mem_marks h
      simp only [List.length_cons]
      omega
    · cases hnext : s.feed raw with
      | error failure => simp [hnext] at h
      | ok next =>
        have hline := (feed_setup hnext).2
        rw [hnext] at h
        have := ih h
        simp only [List.length_cons]
        omega

/-- Later lines have greater numbers. -/
theorem pairwise_trace (s : Session) (raws : List Text) :
    (s.trace raws).Pairwise fun a b => a.line < b.line := by
  induction raws generalizing s with
  | nil => exact .nil
  | cons raw rest ih =>
    rw [trace, List.pairwise_append]
    cases hnext : s.feed raw with
    | error failure => exact ⟨s.pairwise_marks raw, .nil, by simp⟩
    | ok next =>
      refine ⟨s.pairwise_marks raw, ih next, ?_⟩
      intro a ha b hb
      have hline := (feed_setup hnext).2
      have hfirst := line_of_mem_marks ha
      have hlater := (trace_bounds hb).1
      omega

/-! ## 2. The walk through what has been read -/

/-- The walk through the tree and everything that is still open. -/
def walk (s : Session) (view : View) : List Mark :=
  s.feature.elim [] (·.walk view) ++ s.rule.elim [] (·.walk .rule view) ++
    s.statement.elim [] (·.walk view)

/-- Nothing is open above which there is no feature. -/
theorem Sound.root {s : Session} (h : s.Sound) (hentry : s.entry = .feature)
    (hfeature : s.feature = none) : s.rule = none ∧ s.statement = none := by
  have hmode := h.mode
  have hfits := h.entry
  simp only [EntryFits, hentry] at hfits
  by_cases hstart : s.mode = .start
  · rw [ModeFits, hstart] at hmode
    exact hmode.2.2
  · have := hfits hstart
    simp [hfeature] at this

/-- The group of a background is empty. -/
theorem Sound.group_fresh {s : Session} (h : s.Sound) {statement : Statement} {group : Group}
    (hstatement : s.statement = some statement) (hgroup : s.group? = some group)
    (hbackground : statement.isScenario = false) :
    group.background = none ∧ group.scenarios = [] := by
  obtain ⟨other, hother, hempty⟩ := h.background statement hstatement hbackground
  rw [hgroup, Option.some.injEq] at hother
  exact hother ▸ hempty

/-- An open statement stands in the open rule, and without one at the top of the
    feature. -/
theorem Sound.group_cases {s : Session} (h : s.Sound) (hentry : s.entry = .feature)
    {statement : Statement} (hstatement : s.statement = some statement) :
    (∃ rule, s.rule = some rule ∧ s.group? = some rule) ∨
      ∃ feature, s.rule = none ∧ s.feature = some feature ∧ s.group? = some feature.top := by
  cases hrule : s.rule with
  | some rule => exact .inl ⟨rule, rfl, by simp [group?, hrule]⟩
  | none =>
    cases hfeature : s.feature with
    | none => simp [(h.root hentry hfeature).2] at hstatement
    | some feature => exact .inr ⟨feature, rfl, rfl, by simp [group?, hrule, hfeature]⟩

theorem Sound.root_closeStatement {s : Session} (h : s.Sound) (hentry : s.entry = .feature) :
    s.closeStatement.feature = none → s.closeStatement.rule = none := by
  rw [closeStatement_eq]
  intro hfeature
  have hnone : s.feature = none := by
    by_cases hrule : s.rule.isSome = true
    · simpa [hrule] using hfeature
    · simpa [hrule] using hfeature
  simp [(h.root hentry hnone).1]

theorem walk_closeTable (s : Session) (view : View) : s.closeTable.walk view = s.walk view := by
  rw [closeTable_eq]
  unfold walk
  cases s.statement with
  | none => rfl
  | some statement => simp [Mode.walk_attach]

/-- From the first rule on there is an open one. -/
def RulesOpen (s : Session) : Prop :=
  s.rule = none → ∀ feature, s.feature = some feature → feature.rules = []

theorem walk_closeStatement {s : Session} (h : s.Sound) (hentry : s.entry = .feature)
    (hrules : s.RulesOpen) (view : View) : s.closeStatement.walk view = s.walk view := by
  rw [closeStatement_eq]
  unfold walk
  cases hstatement : s.statement with
  | none =>
    cases hrule : s.rule <;> cases hfeature : s.feature <;> simp [Group.closeAll]
  | some statement =>
    rcases h.group_cases hentry hstatement with
      ⟨rule, hrule, hgroup⟩ | ⟨feature, hrule, hfeature, hgroup⟩
    · have hclose := Group.walk_close .rule (h.group_fresh hstatement hgroup) view
      simp [hrule, Group.closeAll, hclose]
    · have hclose := Group.walk_close .feature (h.group_fresh hstatement hgroup) view
      have hnone := hrules hrule feature hfeature
      simp [hrule, hfeature, Group.closeAll, Feature.walk, hclose, hnone]

theorem walk_closeRule {s : Session} (hstatement : s.statement = none)
    (hroot : s.feature = none → s.rule = none) (view : View) :
    s.closeRule.walk view = s.walk view := by
  rw [closeRule_eq]
  unfold walk
  cases hfeature : s.feature with
  | none => simp [hstatement, hroot hfeature]
  | some feature => cases s.rule <;> simp [hstatement, Feature.walk]

/-! ## 3. One line -/

/-- The walk through what has been read is the trace of the reading. -/
structure Traced (s : Session) (trace : List Mark) : Prop where
  rules : s.RulesOpen
  walk : ∀ view, s.walk view = trace.filter fun mark => view.shows mark.kind

theorem Traced.extend {s t : Session} {trace marks : List Mark} (h : s.Traced trace)
    (hrules : t.RulesOpen)
    (hwalk : ∀ view, t.walk view = s.walk view ++ marks.filter fun mark => view.shows mark.kind) :
    t.Traced (trace ++ marks) := by
  refine ⟨hrules, ?_⟩
  intro view
  rw [hwalk, h.walk, List.filter_append]

/-- A change of the open statement adds to the walk what it adds to the walk
    through the statement. -/
theorem walk_mapStatement {s : Session} {f : Statement → Statement} {marks : List Mark}
    {view : View} {statement : Statement} (hstatement : s.statement = some statement)
    (hf : (f statement).walk view = statement.walk view ++ marks) :
    (s.mapStatement f).walk view = s.walk view ++ marks := by
  simp [mapStatement, walk, hstatement, hf]

/-- Both walks visit every node but steps and Examples blocks. -/
theorem filter_shows (kind : NodeKind) (hstep : kind ≠ .step) (hexamples : kind ≠ .examples)
    (line : Nat) (view : View) :
    [Mark.mk kind line].filter (fun mark => view.shows mark.kind) = [Mark.mk kind line] := by
  have hshows : view.shows kind = true := by
    cases view <;> cases kind <;> simp_all [View.shows]
  simp [hshows]

/-- A new statement stands behind everything else. -/
theorem walk_startStatement {s : Session} (h : s.Sound) (hentry : s.entry = .feature)
    (hrules : s.RulesOpen) {statement : Statement} (mode : Mode) {view : View}
    (hinner : statement.inner view = []) :
    (s.startStatement statement mode).walk view =
      s.walk view ++ [statement.mark].filter fun mark => view.shows mark.kind := by
  have hmark : [statement.mark].filter (fun mark => view.shows mark.kind) = [statement.mark] := by
    cases statement with
    | background node => exact filter_shows .background (by simp) (by simp) _ view
    | scenario node =>
      refine filter_shows node.nodeKind ?_ ?_ _ view <;> unfold Scenario.nodeKind <;> split <;> simp
  have hnone : s.closeStatement.statement = none := by rw [closeStatement_eq]
  rw [hmark, ← walk_closeStatement h hentry hrules view, startStatement_eq]
  simp [walk, hnone, Statement.walk, hinner]

/-- Behind the last line of a rule its header and that of the next one meet. -/
theorem walk_closeAll {s : Session} (h : s.Sound) (hentry : s.entry = .feature)
    (hrules : s.RulesOpen) (view : View) :
    s.closeStatement.closeRule.walk view = s.walk view := by
  rw [walk_closeRule _ (h.root_closeStatement hentry), walk_closeStatement h hentry hrules]
  rw [closeStatement_eq]

theorem RulesOpen.mapGroup {s : Session} (h : s.RulesOpen) {f : Group → Group} :
    (s.mapGroup f).RulesOpen := by
  rw [mapGroup_eq]
  intro hrule feature hfeature
  have hnone : s.rule = none := by simpa using hrule
  simp only [hnone, Option.isSome_none, Bool.false_eq_true, if_false,
    Option.map_eq_some_iff] at hfeature
  obtain ⟨old, hold, rfl⟩ := hfeature
  exact h hnone old hold

theorem RulesOpen.closeStatement {s : Session} (h : s.RulesOpen) :
    s.closeStatement.RulesOpen := by
  unfold Session.closeStatement
  split
  · exact h.mapGroup
  · exact h

theorem walk_mapStatement_eq {s : Session} {f : Statement → Statement}
    (hf : ∀ statement view, (f statement).walk view = statement.walk view) (view : View) :
    (s.mapStatement f).walk view = s.walk view := by
  cases hstatement : s.statement with
  | none => simp [mapStatement, walk, hstatement]
  | some statement => simp [mapStatement, walk, hstatement, hf]

theorem walk_mapGroup {s : Session} {f : Group → Group}
    (hf : ∀ kind group view, (f group).walk kind view = group.walk kind view) (view : View) :
    (s.mapGroup f).walk view = s.walk view := by
  rw [mapGroup_eq]
  cases hrule : s.rule with
  | some rule => simp [walk, hrule, hf]
  | none => cases hfeature : s.feature <;> simp [walk, hrule, hfeature, Feature.walk, hf]

/-- What a line of a kind that starts no node may change. -/
theorem Traced.quiet {s t : Session} {trace : List Mark} {kind : LineKind} (h : s.Traced trace)
    (hstarts : kind.starts = none) (hrules : t.RulesOpen)
    (hwalk : ∀ view, t.walk view = s.walk view) : t.Traced (trace ++ kind.marks s.line) := by
  have hmarks : kind.marks s.line = [] := by simp [LineKind.marks, hstarts]
  rw [hmarks, List.append_nil]
  exact ⟨hrules, fun view => (hwalk view).trans (h.walk view)⟩

theorem Traced.takes {s t : Session} {raw : Text} {kind : LineKind} {trace : List Mark}
    (h : s.Traced trace) (hsound : s.Sound) (hentry : s.entry = .feature)
    (htakes : Takes s raw kind t) : t.Traced (trace ++ kind.marks s.line) := by
  cases htakes with
  | tags hs hlead hrow => exact h.quiet rfl h.rules fun _ => rfl
  | @feature header hs hfits =>
    have hmode := hsound.mode
    rw [ModeFits, hs] at hmode
    obtain ⟨-, hfeature, hrule, hstatement⟩ := hmode
    have hline := (keywords_header?_of_header? hfits).2
    refine h.extend ?_ ?_
    · rintro - _ ⟨⟩
      rfl
    · intro view
      have hmark := filter_shows .feature (by simp) (by simp) s.line view
      simp [Session.walk, hfeature, hrule, hstatement, LineKind.marks, LineKind.starts,
        Feature.walk, Group.walk, Group.statements, Group.start, hline, hmark]
  | @rule header hs hfits hfeature =>
    have hline := (keywords_header?_of_header? hfits).2
    have hnone : s.closeStatement.closeRule.rule = none := by rw [closeRule_eq]
    have hopen : s.closeStatement.closeRule.statement = none := by
      rw [closeRule_eq, closeStatement_eq]
    refine h.extend ?_ ?_
    · rintro ⟨⟩
    · intro view
      have hmark := filter_shows .rule (by simp) (by simp) s.line view
      rw [← walk_closeAll hsound hentry h.rules view]
      simp [Session.walk, hnone, hopen, LineKind.marks, LineKind.starts, Group.walk,
        Group.statements, Group.start, hline, hmark]
  | @scenario header category blocks hs hknown hfits hgroup =>
    have hline := (keywords_header?_of_header? hfits).2
    have hmarks : (LineKind.scenario category blocks).marks s.line =
        [(Statement.scenario ⟨header, s.tags, [], [], blocks⟩).mark] := by
      rw [← hline]
      rcases hknown with ⟨-, rfl⟩ | ⟨-, rfl⟩ <;> rfl
    refine h.extend h.rules.closeStatement ?_
    intro view
    rw [hmarks]
    refine walk_startStatement hsound hentry h.rules .scenario ?_
    rcases hknown with ⟨-, rfl⟩ | ⟨-, rfl⟩ <;> cases view <;> rfl
  | @examples header blocks hs hfits houtline =>
    obtain ⟨statement, hstatement, hblocks⟩ := Option.bind_eq_some_iff.mp houtline
    have hline := (keywords_header?_of_header? hfits).2
    refine h.extend h.rules ?_
    intro view
    have hwalk := Statement.walk_addBlock hblocks ⟨header, s.tags, none⟩ view
    rw [hline] at hwalk
    exact walk_mapStatement hstatement hwalk
  | @background header hs hfits htags hfresh =>
    have hline := (keywords_header?_of_header? hfits).2
    have hmarks : LineKind.background.marks s.line =
        [(Statement.background ⟨header, [], []⟩).mark] := by rw [← hline]; rfl
    refine h.extend h.rules.closeStatement ?_
    intro view
    rw [hmarks]
    refine walk_startStatement hsound hentry h.rules .background ?_
    cases view <;> rfl
  | groupDescription hs htagless hplain =>
    refine h.quiet rfl h.rules.mapGroup ?_
    exact walk_mapGroup fun _ _ _ => rfl
  | statementDescription hs htagless hstepless hplain =>
    refine h.quiet rfl h.rules ?_
    exact walk_mapStatement_eq (Statement.walk_describe (trim raw))
  | @step found type hs hfits hresolved =>
    obtain ⟨-, statement, hstatement⟩ := hsound.mode.stepLines hs
    refine h.extend h.rules ?_
    intro view
    exact walk_mapStatement hstatement (Statement.walk_addStep statement _ view)
  | @closingFence block hs hcloses =>
    refine h.quiet rfl h.rules ?_
    have hwalk := Statement.walk_mapLastStep fun step =>
      Step.line_withDocstring step block.docstring
    exact walk_mapStatement_eq (s := s) hwalk
  | _ => exact h.quiet rfl h.rules fun _ => rfl

theorem Traced.facing {s : Session} {trace : List Mark} (h : s.Traced trace) (raw : Text) :
    (s.facing raw).Traced trace := by
  have henter : (s.enter raw).Traced trace := ⟨h.rules, h.walk⟩
  refine facing_cases s raw henter ⟨?_, ?_⟩
  · rw [closeTable_eq]
    exact henter.rules
  · intro view
    exact (walk_closeTable _ view).trans (henter.walk view)

theorem Traced.feed {s t : Session} {raw : Text} {trace : List Mark} (h : s.Traced trace)
    (hsound : s.Sound) (hentry : s.entry = .feature) (hfeed : s.feed raw = .ok t) :
    t.Traced (trace ++ s.marks raw) := by
  unfold marks
  rcases feed_cases hfeed with ⟨hidle, chosen, rfl, -⟩ | ⟨hskips, hcomment, kind, hkind, htakes⟩
  · rw [if_pos hidle, List.append_nil]
    exact ⟨h.rules, h.walk⟩
  · have hfacing := (facing_setup s raw).entry.trans hentry
    have hnext := (h.facing raw).takes (hsound.facing raw) hfacing htakes
    rw [facing_line] at hnext
    simpa [hskips, hcomment, hkind] using hnext

/-! ## 4. Every reading -/

theorem Traced.feedAll {s t : Session} {raws : List Text} {trace : List Mark}
    (h : s.Traced trace) (hsound : s.Sound) (hentry : s.entry = .feature)
    (hfeed : s.feedAll raws = .ok t) : t.Traced (trace ++ s.trace raws) := by
  -- What has been traced so far and what is still to come make up the whole trace.
  let P (u : Session) (rest : List Text) : Prop :=
    u.Sound ∧ u.entry = .feature ∧
      ∃ past, u.Traced past ∧ past ++ u.trace rest = trace ++ s.trace raws
  have hP : P t [] := by
    refine feedAll_induction (P := P) hfeed ⟨hsound, hentry, trace, h, rfl⟩ ?_
    rintro u raw rest next ⟨hsound, hentry, past, htraced, hwhole⟩ hnext
    refine ⟨hsound.feed hnext, (feed_setup hnext).1.entry.trans hentry, past ++ u.marks raw,
      htraced.feed hsound hentry hnext, ?_⟩
    rw [← hwhole, Session.trace, hnext, List.append_assoc]
  obtain ⟨-, -, past, htraced, hwhole⟩ := hP
  rw [Session.trace, List.append_nil] at hwhole
  exact hwhole ▸ htraced

theorem walk_finishFeature {s : Session} (h : s.Sound) (hentry : s.entry = .feature)
    {trace : List Mark} (htraced : s.Traced trace) {feature : Feature}
    (hfinish : s.finishFeature = some feature) (view : View) :
    feature.walk view = trace.filter fun mark => view.shows mark.kind := by
  have hclosed : s.closeTable.RulesOpen := by
    rw [closeTable_eq]
    exact htraced.rules
  have hwalk := walk_closeAll h.closeTable ((closeTable_setup s).entry.trans hentry) hclosed view
  rw [walk_closeTable, htraced.walk] at hwalk
  rw [← hwalk]
  have hrule : s.closeTable.closeStatement.closeRule.rule = none := by rw [closeRule_eq]
  have hstatement : s.closeTable.closeStatement.closeRule.statement = none := by
    rw [closeRule_eq, closeStatement_eq]
  unfold finishFeature at hfinish
  simp [walk, hfinish, hrule, hstatement]

end Session

def Parser.trace (parser : Parser) (text : Text) (source : Option Text) : List Mark :=
  match parser.session .feature source with
  | .ok s => s.trace (lines text)
  | .error _ => []

/-- A feature holds the nodes of a trace over so many lines, and holds them in
    the order of their lines. -/
structure Feature.InSourceOrder (count : Nat) (trace : List Mark) (feature : Feature) : Prop where
  /-- Each node that was started is in the tree, once, and no other is. -/
  nodes : ∀ kind, feature.linesOf kind = (trace.filter (·.kind = kind)).map (·.line)
  increasing : trace.Pairwise fun a b => a.line < b.line
  lines : ∀ mark ∈ trace, 1 ≤ mark.line ∧ mark.line ≤ count
  /-- Feature, background, scenarios, then rule by rule in the same way. -/
  heads : feature.heads.Pairwise (· < ·)
  /-- Steps and Examples blocks stand between the header of their statement and
      the next header. -/
  inner : ∀ group ∈ feature.groups, ∀ statement ∈ group.statements, ∀ view,
    ((statement.inner view).map (·.line)).Pairwise (· < ·) ∧
      ∀ mark ∈ statement.inner view, statement.mark.line < mark.line ∧
        ∀ head ∈ feature.heads, statement.mark.line < head → mark.line < head
  scenarios : (feature.scenarios.map (·.2.header.line)).Pairwise (· < ·)

/-- A feature whose walks are a trace is in the order of the source. -/
theorem Feature.InSourceOrder.of_walk {count : Nat} {trace : List Mark} {feature : Feature}
    (hwalk : ∀ view, feature.walk view = trace.filter fun mark => view.shows mark.kind)
    (hincreasing : trace.Pairwise fun a b => a.line < b.line)
    (hlines : ∀ mark ∈ trace, 1 ≤ mark.line ∧ mark.line ≤ count) :
    feature.InSourceOrder count trace := by
  have hsections : ∀ view, ((feature.sections view).flatMap fun part => part.1 :: part.2).Pairwise
      fun a b => a.line < b.line := by
    intro view
    rw [← feature.walk_eq_sections, hwalk]
    exact hincreasing.filter _
  have hheads : feature.heads.Pairwise (· < ·) := by
    rw [feature.heads_eq_sections .steps]
    exact pairwise_heads (hsections .steps)
  refine ⟨?_, hincreasing, hlines, hheads, ?_, hheads.sublist feature.sublist_heads⟩
  · intro kind
    obtain ⟨view, hshows⟩ : ∃ view : View, view.shows kind = true := by
      cases kind with
      | examples => exact ⟨.examples, rfl⟩
      | _ => exact ⟨.steps, rfl⟩
    rw [← feature.lines_walk hshows, hwalk, List.filter_filter]
    congr 1
    refine List.filter_congr fun mark _ => ?_
    by_cases hkind : mark.kind = kind
    · simp [hkind, hshows]
    · simp [hkind]
  · intro group hgroup statement hstatement view
    have hmem := Feature.mem_sections hgroup hstatement view
    refine ⟨pairwise_part (hsections view) hmem, ?_⟩
    intro mark hmark
    rw [feature.heads_eq_sections view]
    exact between_heads (hsections view) hmem hmark

namespace Parser

/-- The walks of a feature that has been read are the trace of its reading. -/
theorem walk_of_feedAll {parser : Parser} {source : Option Text} {s t : Session}
    {raws : List Text} {feature : Feature} (hsession : parser.session .feature source = .ok s)
    (hfeed : s.feedAll raws = .ok t) (hfinish : t.finishFeature = some feature) (view : View) :
    feature.walk view = (s.trace raws).filter fun mark => view.shows mark.kind := by
  have hsound := Session.Sound.of_session hsession
  obtain ⟨standard, -, -, hs⟩ := Session.session_eq_ok_iff.mp hsession
  have hentry : s.entry = .feature := by rw [hs]; rfl
  have hempty : s.Traced [] := by
    rw [hs]
    exact ⟨fun _ _ hfeature => by simp [Session.opening] at hfeature, fun _ => rfl⟩
  exact Session.walk_finishFeature (hsound.feedAll hfeed)
    ((Session.feedAll_setup hfeed).entry.trans hentry) (hempty.feedAll hsound hentry hfeed) hfinish
    view

/-- A feature that has been read holds exactly the nodes that its lines started,
    each at its place. -/
theorem feature_inSourceOrder {parser : Parser} {text : Text} {source : Option Text}
    {feature : Feature} (h : parser.feature text source = .ok (some feature)) :
    feature.InSourceOrder (lines text).length (parser.trace text source) := by
  obtain ⟨s, t, hsession, hfeed, hfinish⟩ := feature_eq_ok h
  obtain ⟨standard, -, -, hs⟩ := Session.session_eq_ok_iff.mp hsession
  have hline : s.line = 0 := by rw [hs]; rfl
  have htrace : parser.trace text source = s.trace (lines text) := by
    rw [Parser.trace, hsession]
  rw [htrace]
  refine .of_walk ?_ (Session.pairwise_trace s _) ?_
  · exact walk_of_feedAll hsession hfeed hfinish
  · intro mark hmark
    have hbounds := Session.trace_bounds hmark
    omega

/-- For instance where a step stands between two Examples blocks, below a rule
    that follows a background. -/
theorem feature_inSourceOrder_rules :
    ∃ feature trace,
      standard.feature
          ("Feature: F\nBackground:\nGiven a\nRule: R\nScenario Outline: S\nExamples:\n| x |\n" ++
            "Given b\nExamples:\nScenario: T").toList none = .ok (some feature) ∧
        feature.linesOf .step = [3, 8] ∧ feature.linesOf .examples = [6, 9] ∧
        feature.heads = [1, 2, 4, 5, 10] ∧ feature.InSourceOrder 10 trace := by
  have hread : ∃ feature,
      standard.feature
          ("Feature: F\nBackground:\nGiven a\nRule: R\nScenario Outline: S\nExamples:\n| x |\n" ++
            "Given b\nExamples:\nScenario: T").toList none = .ok (some feature) ∧
        feature.linesOf .step = [3, 8] ∧ feature.linesOf .examples = [6, 9] ∧
        feature.heads = [1, 2, 4, 5, 10] := ⟨_, rfl, rfl, rfl, rfl⟩
  obtain ⟨feature, hfeature, hsteps, hexamples, hheads⟩ := hread
  exact ⟨feature, _, hfeature, hsteps, hexamples, hheads, feature_inSourceOrder hfeature⟩

end Parser

end Gherkin
