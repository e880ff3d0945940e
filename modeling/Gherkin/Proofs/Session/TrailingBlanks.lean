/-
  Gherkin/Proofs/Session/TrailingBlanks.lean
  ==========================================
  **Blanks at the end of a line never matter.**

  Almost every reader looks at the trimmed line.  The two that do not are those of
  docstrings: a fence is found behind the blanks at the start of the raw line, and
  a line of a docstring is cut at a column.  A fence is solid, so what stands
  behind it can be trimmed later (`Fence.open?_trimEnd`); and a cut may fall into
  the blanks at the end of a line, but what it takes away is then blank exactly if
  it is blank without them (`Block.push_trimEnd`).

  So a line and the same line without its trailing blanks give the same session
  (`feed_trimEnd`) and the same records (`notes_trimEnd`).  The one trace that
  these blanks can leave is in the text that a badly indented line would lose.
-/
import Gherkin.Proofs.RoundTrip.Arguments
import Gherkin.Proofs.Session.Refusal

namespace Gherkin

open Text

/-! ## 1. Failures up to trailing blanks -/

/-- The cause without the blanks at the end of the text that an indentation would
    cut off. -/
def Cause.trimIndent : Cause → Cause
  | .badIndent removed => .badIndent (trimEnd removed)
  | cause => cause

def Failure.trimIndent (failure : Failure) : Failure :=
  { failure with cause := failure.cause.trimIndent }

/-- An answer in which failures are told apart up to these blanks only. -/
def trimIndents {α : Type} (answer : Except Failure α) : Except Failure α :=
  answer.mapError (·.trimIndent)

/-! ## 2. Fences and blocks -/

theorem Fence.open?_trimEnd (t : Text) : Fence.open? (trimEnd t) = Fence.open? t := by
  unfold Fence.open?
  congr 1
  funext fence
  rw [after?_trimEnd fence.trimmed_mark.2, Option.map_map]
  congr 1
  funext rest
  simp [trim_trimEnd]

/-- The fence of a line is found in the trimmed line. -/
theorem Fence.open?_trimStart_trimEnd (raw : Text) :
    Fence.open? (trimStart (trimEnd raw)) = Fence.open? (trimStart raw) := by
  rw [trimStart_trimEnd, trim, Fence.open?_trimEnd]

/-- The blanks in front of a visible text end before those behind it begin. -/
theorem takeWhile_trimEnd {raw : Text} (h : trim raw ≠ []) :
    (trimEnd raw).takeWhile isBlank = raw.takeWhile isBlank := by
  obtain ⟨blanks, heq, -⟩ := exists_blanks_trimEnd raw
  conv_rhs => rw [heq]
  rw [List.takeWhile_append]
  split
  · rename_i hall
    have hnil : trimStart (trimEnd raw) = [] := by
      apply List.dropWhile_eq_nil_iff.mpr
      exact List.takeWhile_eq_self_iff.mp (List.IsPrefix.eq_of_length
        (List.takeWhile_prefix isBlank) hall)
    rw [trimStart_trimEnd] at hnil
    exact absurd hnil h
  · rfl

theorem Block.start_trimEnd {raw contentType : Text} {fence : Fence}
    (h : Fence.open? (trimStart raw) = some (fence, contentType)) (line : Nat) :
    Block.start line (trimEnd raw) fence contentType = Block.start line raw fence contentType := by
  have hvisible : trim raw ≠ [] := by
    intro hnil
    have hnone : Fence.open? [] = none := rfl
    rw [← Fence.open?_trimStart_trimEnd, trimStart_trimEnd, hnil, hnone] at h
    exact absurd h (Option.some_ne_none _).symm
  unfold Block.start
  rw [takeWhile_trimEnd hvisible]

theorem Block.closes_trimEnd (block : Block) (raw : Text) :
    block.closes (trimEnd raw) = block.closes raw := by
  unfold Block.closes
  rw [trim_trimEnd]

/-- A block takes a line with or without its trailing blanks, and if it refuses
    the line they make no difference but at the end of the refused text. -/
theorem Block.push_trimEnd (block : Block) (raw : Text) :
    (block.push (trimEnd raw)).mapError trimEnd = (block.push raw).mapError trimEnd := by
  obtain ⟨blanks, heq, hblanks⟩ := exists_blanks_trimEnd raw
  generalize trimEnd raw = visible at heq
  subst heq
  have htake : ∀ c ∈ blanks.take (block.margin - visible.length), isBlank c = true :=
    fun c hc => hblanks c (List.mem_of_mem_take hc)
  have hdrop : ∀ c ∈ blanks.drop (block.margin - visible.length), isBlank c = true :=
    fun c hc => hblanks c (List.mem_of_mem_drop hc)
  have hall : ((visible ++ blanks).take block.margin).all isBlank =
      (visible.take block.margin).all isBlank := by
    rw [List.take_append, List.all_append, List.all_eq_true.mpr htake, Bool.and_true]
  have hcontent : trimEnd ((visible ++ blanks).drop block.margin) =
      trimEnd (visible.drop block.margin) := by
    rw [List.drop_append, trimEnd_append_of_blank hdrop]
  have hremoved : trimEnd ((visible ++ blanks).take block.margin) =
      trimEnd (visible.take block.margin) := by
    rw [List.take_append, trimEnd_append_of_blank htake]
  unfold Block.push
  simp only [hall, hcontent]
  split
  · rfl
  · simp [Except.mapError, hremoved]

/-! ## 3. Readers -/

theorem Session.failure_trimEnd (s : Session) (cause : Cause) (raw : Text) :
    s.failure cause (trimEnd raw) = s.failure cause raw := by
  unfold Session.failure
  rw [trim_trimEnd]

theorem Session.unexpected_trimEnd (s : Session) (raw : Text) :
    s.unexpected (trimEnd raw) = s.unexpected raw := by
  unfold Session.unexpected Session.diagnose
  rw [s.failure_trimEnd, trim_trimEnd]

theorem Session.header?_trimEnd (s : Session) (category : Category) (raw : Text) :
    s.header? category (trimEnd raw) = s.header? category raw := by
  unfold Session.header?
  rw [trim_trimEnd]

theorem Reader.fenceLine_trimEnd (s : Session) (raw : Text) :
    fenceLine s (trimEnd raw) = fenceLine s raw := by
  unfold fenceLine
  rw [Fence.open?_trimStart_trimEnd, s.failure_trimEnd]
  cases hfence : Fence.open? (trimStart raw) with
  | none => rfl
  | some found =>
    obtain ⟨fence, contentType⟩ := found
    simp only [Option.map_some]
    rw [Block.start_trimEnd hfence]

/-- A reader that does not read the lines of a docstring cannot see the blanks at
    the end of a line. -/
theorem LineKind.reader_trimEnd {kind : LineKind} (hkind : ∀ block, kind ≠ .docstring block)
    (s : Session) (raw : Text) : kind.reader s (trimEnd raw) = kind.reader s raw := by
  cases kind with
  | docstring block => exact absurd rfl (hkind block)
  | fence => exact Reader.fenceLine_trimEnd s raw
  | examplesRow table =>
    cases table with
    | none => simp only [reader, Reader.examplesRow, trim_trimEnd]
    | some table =>
      simp only [reader, Reader.examplesRow, Reader.nextRow, trim_trimEnd, s.failure_trimEnd]
  | _ =>
    simp only [reader, Reader.tagLine, Reader.featureHeader, Reader.ruleHeader,
      Reader.scenarioHeader, Reader.examplesHeader, Reader.backgroundHeader,
      Reader.repeatedBackground, Reader.groupDescription, Reader.statementDescription,
      Reader.stepLine, Reader.firstRow, Reader.nextRow, trim_trimEnd, s.header?_trimEnd,
      s.failure_trimEnd, s.unexpected_trimEnd]

theorem recognise_trimEnd {kinds : List LineKind} (h : ∀ block, .docstring block ∉ kinds)
    (s : Session) (raw : Text) :
    recognise (kinds.map LineKind.reader) s (trimEnd raw) =
      recognise (kinds.map LineKind.reader) s raw := by
  induction kinds with
  | nil => rfl
  | cons kind kinds ih =>
    have hrest := ih fun block hmem => h block (List.mem_cons_of_mem kind hmem)
    have hkind : ∀ block, kind ≠ .docstring block := by
      rintro block rfl
      exact h block List.mem_cons_self
    unfold recognise at hrest ⊢
    rw [List.map_cons, List.findSome?_cons, List.findSome?_cons, hrest,
      LineKind.reader_trimEnd hkind]

theorem Reader.docstringLine_trimEnd (block : Block) (s : Session) (raw : Text) :
    (docstringLine block s (trimEnd raw)).map trimIndents =
      (docstringLine block s raw).map trimIndents := by
  have hpush := block.push_trimEnd raw
  unfold docstringLine
  rw [block.closes_trimEnd]
  split
  · rfl
  · cases hshort : block.push (trimEnd raw) <;> cases hlong : block.push raw <;>
      simp_all [Except.mapError, trimIndents, Session.failure, Failure.trimIndent,
        Cause.trimIndent, trim_trimEnd]

/-! ## 4. Lines -/

namespace Session

section Line

variable (s : Session) (raw : Text)

theorem read_trimEnd : trimIndents (s.read (trimEnd raw)) = trimIndents (s.read raw) := by
  unfold Session.read
  rw [s.unexpected_trimEnd]
  by_cases hdoc : ∃ block, s.mode = .docstring block
  · obtain ⟨block, hmode⟩ := hdoc
    have hline := Reader.docstringLine_trimEnd block s raw
    rw [hmode, Mode.readers]
    unfold recognise
    simpa [Reader.docstringLine] using hline
  · rw [Mode.readers_eq_map_kinds, recognise_trimEnd]
    intro block hmem
    exact hdoc ⟨block, LineKind.mode_of_mem_kinds hmem⟩

theorem skips_trimEnd : s.skips (trimEnd raw) = s.skips raw := by
  unfold skips
  rw [trim_trimEnd]

theorem isComment_trimEnd : s.isComment (trimEnd raw) = s.isComment raw := by
  unfold isComment
  rw [trim_trimEnd]

theorem consults_trimEnd : s.consults (trimEnd raw) = s.consults raw := by
  unfold consults
  rw [skips_trimEnd, isComment_trimEnd, trim_trimEnd, Fence.open?_trimStart_trimEnd]

theorem enter_trimEnd : s.enter (trimEnd raw) = s.enter raw := by
  unfold Session.enter
  rw [consults_trimEnd]

theorem facing_trimEnd : s.facing (trimEnd raw) = s.facing raw := by
  unfold Session.facing leaveTable
  rw [enter_trimEnd, trim_trimEnd]

theorem directive?_trimEnd : s.directive? (trimEnd raw) = s.directive? raw := by
  unfold Session.directive?
  rw [isComment_trimEnd, trim_trimEnd]

theorem comment_trimEnd : s.comment (trimEnd raw) = s.comment raw := by
  unfold comment
  simp only [directive?_trimEnd, failure_trimEnd]

/-- Reading a line without its trailing blanks gives the same session or the same
    failure. -/
theorem feed_trimEnd : trimIndents (s.feed (trimEnd raw)) = trimIndents (s.feed raw) := by
  rw [feed_eq, feed_eq, skips_trimEnd, isComment_trimEnd, enter_trimEnd, facing_trimEnd,
    comment_trimEnd]
  split
  · rfl
  · split
    · rfl
    · exact (s.facing raw).read_trimEnd raw

theorem feed_trimEnd_cases :
    (∃ next, s.feed (trimEnd raw) = .ok next ∧ s.feed raw = .ok next) ∨
      ∃ short long, s.feed (trimEnd raw) = .error short ∧ s.feed raw = .error long ∧
        short.trimIndent = long.trimIndent := by
  have hfeed := s.feed_trimEnd raw
  cases hshort : s.feed (trimEnd raw) <;> cases hlong : s.feed raw <;>
    simp_all [trimIndents, Except.mapError]

theorem readsRow_trimEnd : s.readsRow (trimEnd raw) = s.readsRow raw := by
  have hkinds : stepReaders =
      (LineKind.fence :: .step :: taggableKinds ++ [LineKind.repeatedBackground]).map
        LineKind.reader := rfl
  unfold readsRow
  rw [trim_trimEnd, hkinds, recognise_trimEnd]
  simp [taggableKinds]

/-- It also leaves the same records. -/
theorem notes_trimEnd : s.notes (trimEnd raw) = s.notes raw := by
  unfold notes languageNote directiveNote rowNote
  rw [consults_trimEnd, directive?_trimEnd, enter_trimEnd, readsRow_trimEnd, trim_trimEnd]

end Line

theorem feedAll_trimEnd (s : Session) (raws : List Text) :
    trimIndents (s.feedAll (raws.map trimEnd)) = trimIndents (s.feedAll raws) := by
  induction raws generalizing s with
  | nil => rfl
  | cons raw rest ih =>
    rw [List.map_cons, feedAll_cons, feedAll_cons]
    rcases s.feed_trimEnd_cases raw with ⟨next, hshort, hlong⟩ | ⟨short, long, hshort, hlong, hsame⟩
    · rw [hshort, hlong]
      exact ih next
    · rw [hshort, hlong]
      exact congrArg Except.error hsame

theorem log_trimEnd (s : Session) (raws : List Text) :
    s.log (raws.map trimEnd) = s.log raws := by
  induction raws generalizing s with
  | nil => rfl
  | cons raw rest ih =>
    rw [List.map_cons, log, log, notes_trimEnd]
    rcases s.feed_trimEnd_cases raw with ⟨next, hshort, hlong⟩ | ⟨short, long, hshort, hlong, -⟩
    · rw [hshort, hlong]
      simp only [ih next]
    · rw [hshort, hlong]

end Session

/-! ## 5. Parsers -/

namespace Parser

variable {parser : Parser} {text other : Text} {source : Option Text}

theorem log_eq_of_trimEnd (h : (lines text).map trimEnd = (lines other).map trimEnd)
    (entry : Entry) : parser.log entry text source = parser.log entry other source := by
  unfold Parser.log
  cases parser.session entry source with
  | error failure => rfl
  | ok s =>
    simp only
    rw [← s.log_trimEnd, h, s.log_trimEnd]

theorem read_eq_of_trimEnd (h : (lines text).map trimEnd = (lines other).map trimEnd)
    (entry : Entry) :
    trimIndents (parser.read entry text source) = trimIndents (parser.read entry other source) := by
  unfold Parser.read
  cases parser.session entry source with
  | error failure => rfl
  | ok s =>
    change trimIndents (s.feedAll (lines text)) = trimIndents (s.feedAll (lines other))
    rw [← s.feedAll_trimEnd, h, s.feedAll_trimEnd]

theorem trimIndents_map {α β : Type} (f : α → β) (answer : Except Failure α) :
    trimIndents (answer.map f) = (trimIndents answer).map f := by
  cases answer <;> rfl

/-- Two texts whose lines differ in trailing blanks only are read alike, as a
    feature, as the body of a rule and as steps. -/
theorem read_alike_of_trimEnd (parser : Parser) (source : Option Text)
    (h : (lines text).map trimEnd = (lines other).map trimEnd) :
    (∀ entry, parser.log entry text source = parser.log entry other source) ∧
    trimIndents (parser.feature text source) = trimIndents (parser.feature other source) ∧
    trimIndents (parser.rule text source) = trimIndents (parser.rule other source) ∧
    trimIndents (parser.steps text source) = trimIndents (parser.steps other source) := by
  refine ⟨log_eq_of_trimEnd h, ?_, ?_, ?_⟩
  · unfold Parser.feature
    rw [trimIndents_map, trimIndents_map, read_eq_of_trimEnd h]
  · unfold Parser.rule
    rw [trimIndents_map, trimIndents_map, read_eq_of_trimEnd h]
  · unfold Parser.steps
    rw [trimIndents_map, trimIndents_map, read_eq_of_trimEnd h]

/-- For instance where a carriage return ends every line of one text, and the
    margin of a docstring reaches behind the end of a line. -/
theorem read_alike_of_trimEnd_docstring :
    ∃ text other failure failure',
      (lines text).map trimEnd = (lines other).map trimEnd ∧
      standard.feature text none = .error failure ∧
      standard.feature other none = .error failure' ∧
      failure.cause = .badIndent " x".toList ∧ failure'.cause = .badIndent " x\r".toList ∧
      failure.trimIndent = failure'.trimIndent ∧
      standard.log .feature text none = standard.log .feature other none := by
  have hread : ∃ failure failure',
      standard.feature "Feature: F\nScenario: S\nGiven a\n    \"\"\"\n x".toList none =
        .error failure ∧
      standard.feature
        "Feature: F\r\nScenario: S\r\nGiven a\r\n    \"\"\"\r\n x\r".toList none =
        .error failure' ∧
      failure.cause = .badIndent " x".toList ∧ failure'.cause = .badIndent " x\r".toList :=
    ⟨_, _, rfl, rfl, rfl, rfl⟩
  obtain ⟨failure, failure', hfails, hfails', hcause, hcause'⟩ := hread
  have hlines :
      (lines "Feature: F\nScenario: S\nGiven a\n    \"\"\"\n x".toList).map trimEnd =
        (lines "Feature: F\r\nScenario: S\r\nGiven a\r\n    \"\"\"\r\n x\r".toList).map
          trimEnd := by decide
  obtain ⟨hlog, hfeature, -⟩ := read_alike_of_trimEnd standard none hlines
  rw [hfails, hfails'] at hfeature
  refine ⟨_, _, failure, failure', hlines, hfails, hfails', hcause, hcause', ?_, hlog .feature⟩
  simpa [trimIndents, Except.mapError] using hfeature

end Parser

end Gherkin
