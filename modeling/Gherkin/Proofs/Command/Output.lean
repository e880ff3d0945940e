/-
  Gherkin/Proofs/Command/Output.lean
  ==================================
  **What a command has written when it ends.**

  A stream without limit takes every piece of a plan, so the output of a command is
  the pieces of its plan, one after the other (`execute_none`).  Reports are no
  output: a command that has only loaded files has written nothing.

  The commands treat a file that does not load in three ways.  Printing a tree and
  selecting end with the failure of the first such file and have written nothing by
  then (`Prints`, `Selects`); a selection looks at its clauses before it looks at any
  file.  Checking goes on and has one line for each file, good or bad (`Checks`).

  What a document looks like is up to the writer.  As long as the writer loses
  nothing, a document is that of one tree or report only, and this is what is said
  about the documents that are printed.
-/
import Gherkin.Proofs.Json.Tree
import Gherkin.Proofs.Selection
import Gherkin.Proofs.Session.SourceOrder

namespace Gherkin.Command

open Text

/-! ## 1. Delivery -/

def Effect.piece : Effect → Text
  | .report _ => []
  | .write piece _ => piece

/-- What effects write to a stream that takes everything. -/
def written (effects : List Effect) : Text := effects.flatMap (·.piece)

@[simp] theorem written_nil : written [] = [] := rfl

@[simp] theorem written_cons (effect : Effect) (rest : List Effect) :
    written (effect :: rest) = effect.piece ++ written rest := rfl

@[simp] theorem written_append (effects more : List Effect) :
    written (effects ++ more) = written effects ++ written more := List.flatMap_append

theorem written_flatMap {α : Type} (f : α → List Effect) (list : List α) :
    written (list.flatMap f) = list.flatMap fun a => written (f a) := List.flatMap_assoc

theorem deliver_none (effects : List Effect) :
    (deliver none effects).output = written effects ∧
      (deliver none effects).complaint = none := by
  induction effects with
  | nil => exact ⟨rfl, rfl⟩
  | cons effect rest ih =>
    obtain ⟨houtput, hcomplaint⟩ := ih
    cases effect with
    | report event => exact ⟨houtput, hcomplaint⟩
    | write piece complaint =>
      constructor
      · rw [written_cons, ← houtput]
        rfl
      · exact hcomplaint

/-- Where nothing goes wrong with the stream, a command writes all its plan and ends as
    its plan says. -/
theorem execute_none (writer : Writer) (files : Files) (config : Config) (request : Request) :
    (writer.execute files config request none).output =
        written (plan writer files config request).effects ∧
      (writer.execute files config request none).outcome =
        (plan writer files config request).verdict := by
  obtain ⟨houtput, hcomplaint⟩ := deliver_none (plan writer files config request).effects
  refine ⟨houtput, ?_⟩
  show (plan writer files config request).outcome _ = _
  rw [Plan.outcome, hcomplaint]

@[simp] theorem written_outputLine (line complaint : Text) :
    written [outputLine line complaint] = line ++ ['\n'] := List.append_nil _

@[simp] theorem written_outputDocument (document : Text) :
    written (outputDocument document) = document ++ ['\n'] := rfl

@[simp] theorem written_reports (records : List Record) : written (reports records) = [] := by
  induction records with
  | nil => rfl
  | cons record rest ih => exact ih

/-! ## 2. Loading -/

section Loading

variable {parser : Parser} {files : Files} {path : Text} {paths before : List Text}
  {loaded : List (Option Feature)} {failure : Failure}

@[simp] theorem written_loadReports (parser : Parser) (files : Files) (path : Text) :
    written (loadReports parser files path) = [] := written_reports _

/-- Loading files writes nothing, however far it comes. -/
theorem written_loadAll (parser : Parser) (files : Files) (paths : List Text) :
    written (loadAll parser files paths).1 = [] := by
  induction paths with
  | nil => rfl
  | cons path rest ih =>
    rw [loadAll]
    cases parser.file files path with
    | error failure => exact written_loadReports parser files path
    | ok feature =>
      rw [written_append, written_loadReports, ih]
      rfl

/-- Every file loads, and these are the features in them, if there are any. -/
def Loads (parser : Parser) (files : Files) (paths : List Text)
    (loaded : List (Option Feature)) : Prop :=
  List.Forall₂ (fun path feature => parser.file files path = .ok feature) paths loaded

/-- The first file that does not load stands behind the given ones. -/
structure FailsAt (parser : Parser) (files : Files) (before : List Text) (path : Text)
    (failure : Failure) : Prop where
  before : ∀ other ∈ before, ∃ feature, parser.file files other = .ok feature
  fails : parser.file files path = .error failure

theorem loadAll_of_loads (h : Loads parser files paths loaded) :
    (loadAll parser files paths).2 = .ok (loaded.flatMap (·.toList)) := by
  induction h with
  | nil => rfl
  | cons hfile hrest ih =>
    rw [loadAll, hfile]
    dsimp only
    rw [ih]
    rfl

theorem loadAll_of_failsAt (h : FailsAt parser files before path failure) (after : List Text) :
    (loadAll parser files (before ++ path :: after)).2 = .error failure := by
  obtain ⟨hbefore, hfails⟩ := h
  induction before with
  | nil => rw [List.nil_append, loadAll, hfails]
  | cons first rest ih =>
    obtain ⟨feature, hfeature⟩ := hbefore first List.mem_cons_self
    have hrest := ih fun other hother => hbefore other (List.mem_cons_of_mem _ hother)
    rw [List.cons_append, loadAll, hfeature]
    dsimp only
    rw [hrest]
    rfl

/-- Either all files load or one of them is the first that does not. -/
theorem loads_or_failsAt (parser : Parser) (files : Files) (paths : List Text) :
    (∃ loaded, Loads parser files paths loaded) ∨
      ∃ before path after failure, paths = before ++ path :: after ∧
        FailsAt parser files before path failure := by
  induction paths with
  | nil => exact .inl ⟨[], .nil⟩
  | cons path rest ih =>
    cases hfile : parser.file files path with
    | error failure => exact .inr ⟨[], path, rest, failure, rfl, by simp, hfile⟩
    | ok feature =>
      rcases ih with ⟨loaded, hloads⟩ | ⟨before, bad, after, failure, rfl, hbefore, hfails⟩
      · exact .inl ⟨feature :: loaded, .cons hfile hloads⟩
      · refine .inr ⟨path :: before, bad, after, failure, rfl, ?_, hfails⟩
        intro other hother
        rcases List.mem_cons.mp hother with rfl | hother
        · exact ⟨feature, hfile⟩
        · exact hbefore other hother

theorem isBad_eq_true_iff :
    isBad parser files path = true ↔ ∃ failure, parser.file files path = .error failure := by
  unfold isBad
  cases parser.file files path <;> simp

/-! ## 3. What is listed -/

/-- The entries of a feature: one for each scenario that is chosen, in the order of
    the lines. -/
structure EntriesOf (expr : TagExpr) (feature : Feature) (entries : List Selected) : Prop where
  mem_iff : ∀ entry, entry ∈ entries ↔ ∃ place ∈ feature.scenarios,
    Selection.chooses expr feature place = true ∧
      entry = Selection.entry feature place.1 place.2
  ordered : (entries.map (·.line)).Pairwise (· < ·)

/-- The entries of files, one after the other; a file without a feature has none. -/
inductive Lists (expr : TagExpr) : List (Option Feature) → List Selected → Prop
  | done : Lists expr [] []
  | empty {rest : List (Option Feature)} {entries : List Selected} (later : Lists expr rest entries) :
      Lists expr (none :: rest) entries
  | feature {feature : Feature} {rest : List (Option Feature)} {own entries : List Selected}
      (here : EntriesOf expr feature own) (later : Lists expr rest entries) :
      Lists expr (some feature :: rest) (own ++ entries)

/-- How a report is printed: in lines, the scenarios and then the limits, or as a
    document that is written for this report and no other. -/
inductive Shows (writer : Writer) (report : Report) : Bool → Text → Prop
  | lines : Shows writer report false
      ((report.scenarios.flatMap fun scenario => selectedLine scenario ++ ['\n']) ++
        report.limits.flatMap fun entry => limitLine entry.1 entry.2 ++ ['\n'])
  | document {document : Text}
      (holds : ∀ other, writer.report other = document ↔ other = report) :
      Shows writer report true (document ++ ['\n'])

theorem written_map_outputLine {α : Type} (line complaint : α → Text) (list : List α) :
    written (list.map fun a => outputLine (line a) (complaint a)) =
      list.flatMap fun a => line a ++ ['\n'] := List.flatMap_map _ _ list

theorem shows_selectionOutput {writer : Writer} (faithful : writer.Faithful) (report : Report)
    (json : Bool) : Shows writer report json (written (selectionOutput writer report json)) := by
  cases json with
  | true => exact .document fun other => faithful.report.eq_iff
  | false =>
    have hlines : written (selectionOutput writer report false) =
        (report.scenarios.flatMap fun scenario => selectedLine scenario ++ ['\n']) ++
          report.limits.flatMap fun entry => limitLine entry.1 entry.2 ++ ['\n'] := by
      show written (_ ++ _) = _
      rw [written_append, written_map_outputLine,
        written_map_outputLine (fun entry : Text × Nat => limitLine entry.1 entry.2)]
    rw [hlines]
    exact .lines

/-- Selecting keeps the order of the scenarios. -/
theorem sublist_select (feature : Feature) (expr : TagExpr) :
    ((Selection.select feature expr).map (·.line)).Sublist
      (feature.scenarios.map (·.2.header.line)) := by
  rw [Selection.select_eq, List.map_map]
  exact List.filter_sublist.map _

/-- The scenarios of a file are in the order of its lines. -/
theorem pairwise_scenarios {feature : Feature}
    (h : parser.file files path = .ok (some feature)) :
    (feature.scenarios.map (·.2.header.line)).Pairwise (· < ·) := by
  unfold Parser.file at h
  cases hfile : files path with
  | error complaint => simp [hfile] at h
  | ok text =>
    rw [hfile] at h
    obtain ⟨s, t, hsession, hfeed, hfinish⟩ := Parser.feature_eq_ok h
    apply List.Pairwise.sublist feature.sublist_heads
    rw [feature.heads_eq_sections .steps]
    apply pairwise_heads
    rw [← feature.walk_eq_sections, Parser.walk_of_feedAll hsession hfeed hfinish]
    exact (Session.pairwise_trace s _).filter _

theorem entriesOf_select {feature : Feature} (h : parser.file files path = .ok (some feature))
    (expr : TagExpr) : EntriesOf expr feature (Selection.select feature expr) where
  mem_iff entry := by
    rw [Selection.select_eq, List.mem_map]
    constructor
    · rintro ⟨place, hplace, rfl⟩
      obtain ⟨hmem, hchosen⟩ := List.mem_filter.mp hplace
      exact ⟨place, hmem, hchosen, rfl⟩
    · rintro ⟨place, hmem, hchosen, rfl⟩
      exact ⟨place, List.mem_filter.mpr ⟨hmem, hchosen⟩, rfl⟩
  ordered := (pairwise_scenarios h).sublist (sublist_select feature expr)

/-- What is selected from files that load is listed file by file. -/
theorem lists_select (h : Loads parser files paths loaded) (expr : TagExpr) :
    Lists expr loaded ((loaded.flatMap (·.toList)).flatMap (Selection.select · expr)) := by
  induction h with
  | nil => exact .done
  | @cons path feature paths loaded hfile hrest ih =>
    cases feature with
    | none => exact .empty ih
    | some feature =>
      rw [List.flatMap_cons, List.flatMap_append]
      exact .feature (by simpa using entriesOf_select hfile expr) ih

/-! ## 4. How commands end -/

/-- How printing the tree of a file ends, and what has been written then: nothing, or
    the document of its tree and of no other. -/
inductive Prints (writer : Writer) (parser : Parser) (files : Files) (path : Text) :
    Except Fault Verdict → Text → Prop
  | fails {failure : Failure} (file : parser.file files path = .error failure) :
      Prints writer parser files path (.error (.parse failure)) []
  | prints {feature : Option Feature} {document : Text}
      (file : parser.file files path = .ok feature)
      (holds : ∀ other, writer.tree other = document ↔ other = feature) :
      Prints writer parser files path (.ok .success) (document ++ ['\n'])

/-- How a selection ends, and what has been written then. -/
inductive Selects (writer : Writer) (parser : Parser) (files : Files) (clauses : List Text)
    (json : Bool) (paths : List Text) : Except Fault Verdict → Text → Prop
  | flawed {flaw : TagExpr.Flaw} (compile : TagExpr.compile clauses = .error flaw) :
      Selects writer parser files clauses json paths (.error (.tagExpression flaw)) []
  | fails {expr : TagExpr} {before : List Text} {path : Text} {after : List Text}
      {failure : Failure} (compile : TagExpr.compile clauses = .ok expr)
      (split : paths = before ++ path :: after)
      (first : FailsAt parser files before path failure) :
      Selects writer parser files clauses json paths (.error (.parse failure)) []
  | lists {expr : TagExpr} {loaded : List (Option Feature)} {entries : List Selected}
      {output : Text} (compile : TagExpr.compile clauses = .ok expr)
      (loads : Loads parser files paths loaded) (scenarios : Lists expr loaded entries)
      (limits : expr.limits.Ascending)
      (shows : Shows writer ⟨entries, expr.limits⟩ json output) :
      Selects writer parser files clauses json paths (.ok .success) output

/-- How checking files ends, and what has been written then. -/
structure Checks (parser : Parser) (files : Files) (paths : List Text)
    (outcome : Except Fault Verdict) (output : Text) : Prop where
  lines : output = paths.flatMap fun path => checkLine path (parser.file files path) ++ ['\n']
  ends : ∃ verdict, outcome = .ok verdict
  failed : outcome = .ok .failed ↔
    ∃ path ∈ paths, ∃ failure, parser.file files path = .error failure

section Faithful

variable {writer : Writer} (faithful : writer.Faithful)
include faithful

theorem prints_parsePlan (parser : Parser) (files : Files) (path : Text) :
    Prints writer parser files path (parsePlan writer parser files path).verdict
      (written (parsePlan writer parser files path).effects) := by
  unfold parsePlan
  cases hfile : parser.file files path with
  | error failure =>
    rw [written_loadReports]
    exact .fails hfile
  | ok feature =>
    rw [written_append, written_loadReports, written_outputDocument]
    exact .prints hfile fun other => faithful.tree.eq_iff

theorem selects_selectPlan (parser : Parser) (files : Files) (clauses : List Text) (json : Bool)
    (paths : List Text) :
    Selects writer parser files clauses json paths
      (selectPlan writer parser files clauses json paths).verdict
      (written (selectPlan writer parser files clauses json paths).effects) := by
  unfold selectPlan
  cases hcompile : TagExpr.compile clauses with
  | error flaw => exact .flawed hcompile
  | ok expr =>
    have hsilent := written_loadAll parser files paths
    rcases loads_or_failsAt parser files paths with
      ⟨loaded, hloads⟩ | ⟨before, path, after, failure, hsplit, hfirst⟩
    · have hload : loadAll parser files paths =
          ((loadAll parser files paths).1, .ok (loaded.flatMap (·.toList))) :=
        Prod.ext rfl (loadAll_of_loads hloads)
      rw [hload]
      simp only [written_append, written_cons, written_nil, Effect.piece, hsilent,
        List.nil_append]
      exact .lists hcompile hloads (lists_select hloads expr)
        (TagExpr.ascending_of_compile hcompile) (shows_selectionOutput faithful _ json)
    · have hload : loadAll parser files paths =
          ((loadAll parser files paths).1, .error failure) := by
        rw [hsplit]
        exact Prod.ext rfl (loadAll_of_failsAt hfirst after)
      rw [hload]
      simp only [written_append, written_cons, written_nil, Effect.piece, hsilent,
        List.nil_append]
      exact .fails hcompile hsplit hfirst

end Faithful

theorem checks_checkPlan (parser : Parser) (files : Files) (paths : List Text) :
    Checks parser files paths (checkPlan parser files paths).verdict
      (written (checkPlan parser files paths).effects) := by
  have hbad : paths.countP (isBad parser files) = 0 ↔
      ¬∃ path ∈ paths, ∃ failure, parser.file files path = .error failure := by
    rw [List.countP_eq_zero]
    simp only [isBad_eq_true_iff, not_exists, not_and]
  constructor
  · have hfile : ∀ path, written (checkFile parser files path) =
        checkLine path (parser.file files path) ++ ['\n'] := by
      intro path
      rw [checkFile, written_append, written_reports, written_outputLine, List.nil_append]
    rw [checkPlan, written_append, written_flatMap]
    simp only [hfile]
    exact List.append_nil _
  · exact ⟨_, rfl⟩
  · show Except.ok _ = Except.ok Verdict.failed ↔ _
    rw [Except.ok.injEq]
    split
    · rename_i hnone
      simp only [reduceCtorEq, false_iff]
      exact hbad.mp hnone
    · rename_i hsome
      simp only [true_iff]
      exact not_not.mp (mt hbad.mpr hsome)

/-- A selection with a flawed clause ends at once, before any file is loaded. -/
theorem execute_of_compile_eq_error {clauses : List Text} {flaw : TagExpr.Flaw}
    (h : TagExpr.compile clauses = .error flaw) (writer : Writer) (files : Files)
    (config : Config) (json : Bool) (paths : List Text) :
    writer.execute files config (.select clauses json paths) none =
      ⟨[], [], .error (.tagExpression flaw)⟩ := by
  have hplan : plan writer files config (.select clauses json paths) =
      ⟨[], .error (.tagExpression flaw)⟩ := by
    show selectPlan _ _ files clauses json paths = _
    rw [selectPlan, h]
  rw [Writer.execute, hplan]
  rfl

end Loading

/-- On a stream that takes everything, and with a writer that loses nothing, a command
    that fails on a file before its output has written nothing, and a command that goes
    on has written a line for every file.  A selection whose clauses are flawed has not
    begun to load any file, so it does not depend on what the files hold. -/
theorem execute_allOrNothing {writer : Writer} (faithful : writer.Faithful) (files : Files)
    (config : Config) :
    (∀ path, Prints writer (parserFor config.language) files path
      (writer.execute files config (.parse path) none).outcome
      (writer.execute files config (.parse path) none).output) ∧
    (∀ clauses json paths,
      Selects writer (parserFor config.language) files clauses json paths
        (writer.execute files config (.select clauses json paths) none).outcome
        (writer.execute files config (.select clauses json paths) none).output ∧
      ∀ flaw, TagExpr.compile clauses = .error flaw →
        (∀ path, .loading path ∉
          (writer.execute files config (.select clauses json paths) none).events) ∧
        ∀ other : Files, writer.execute other config (.select clauses json paths) none =
          writer.execute files config (.select clauses json paths) none) ∧
    (∀ paths, Checks (parserFor config.language) files paths
      (writer.execute files config (.check paths) none).outcome
      (writer.execute files config (.check paths) none).output) := by
  refine ⟨?_, ?_, ?_⟩
  · intro path
    rw [(execute_none writer files config _).1, (execute_none writer files config _).2]
    exact prints_parsePlan faithful _ files path
  · intro clauses json paths
    constructor
    · rw [(execute_none writer files config _).1, (execute_none writer files config _).2]
      exact selects_selectPlan faithful _ files clauses json paths
    · intro flaw hflaw
      have hends := fun files : Files =>
        execute_of_compile_eq_error hflaw writer files config json paths
      refine ⟨fun path => ?_, fun other => (hends other).trans (hends files).symm⟩
      rw [hends]
      exact List.not_mem_nil
  · intro paths
    rw [(execute_none writer files config _).1, (execute_none writer files config _).2]
    exact checks_checkPlan _ files paths

/-- For instance with JSON, a file of one scenario, an empty file and one that does not
    load: a selection of all three writes nothing, that of the first two is complete, in
    lines and as a document, checking has a line for each, and a flawed clause is refused
    whatever the files hold. -/
theorem execute_allOrNothing_mixed :
    Writer.json.Faithful ∧ ∃ (files : Files) (failure : Failure),
      Selects .json Parser.standard files ["@x:3".toList] false
        ["a".toList, "n".toList, "b".toList] (.error (.parse failure)) [] ∧
      Selects .json Parser.standard files ["@x:3".toList] false
        ["a".toList, "n".toList] (.ok .success) "a:3 :: b [tags: x]\nlimit @x=3\n".toList ∧
      Selects .json Parser.standard files ["@x:3".toList] true
        ["n".toList, "a".toList] (.ok .success)
        ("\x7b\n  \"scenarios\": [\n    \x7b\n      \"source\": \"a\",\n".toList ++
          "      \"title\": \"b\",\n      \"line\": 3,\n".toList ++
          "      \"tags\": [\n        \"x\"\n      ]\n    \x7d\n  ],\n".toList ++
          "  \"limits\": \x7b\n    \"x\": 3\n  \x7d\n\x7d\n".toList) ∧
      Prints .json Parser.standard files "n".toList (.ok .success) "null\n".toList ∧
      Checks Parser.standard files ["a".toList, "n".toList, "b".toList] (.ok .failed)
        ("ok a (1 scenarios)\nempty n\n".toList ++
          "error Failed to parse \"b\": Unable to read feature file\n".toList) ∧
      TagExpr.compile ["@".toList] = .error (.emptyTerm "@".toList) ∧
      ∀ other : Files, execute other Config.standard (.select ["@".toList] true []) none =
        execute files Config.standard (.select ["@".toList] true []) none := by
  let files : Files := fun path =>
    if path = "a".toList then .ok "Feature: f\n@x\nScenario: b".toList
    else if path = "n".toList then .ok []
    else .error "unknown".toList
  have h := execute_allOrNothing Writer.faithful_json files Config.standard
  have hall := (h.2.1 ["@x:3".toList] false ["a".toList, "n".toList, "b".toList]).1
  have hgood := (h.2.1 ["@x:3".toList] false ["a".toList, "n".toList]).1
  have hdocument := (h.2.1 ["@x:3".toList] true ["n".toList, "a".toList]).1
  have htree := h.1 "n".toList
  have hcheck := h.2.2 ["a".toList, "n".toList, "b".toList]
  have hflawed := (h.2.1 ["@".toList] true []).2 _ rfl
  exact ⟨Writer.faithful_json, files, _, hall, hgood, hdocument, htree, hcheck, rfl, hflawed.2⟩

end Gherkin.Command
