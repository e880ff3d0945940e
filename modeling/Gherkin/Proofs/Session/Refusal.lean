/-
  Gherkin/Proofs/Session/Refusal.lean
  ===================================
  **When a line fails.**

  `Takes` says what becomes of a session that takes a line.  Here is the other
  half of the step.  A reader recognises a line under a condition that does not
  involve its answer (`LineKind.fits`), so the kind of a line can be found
  without running the readers (`kind?_eq`).  `Refuses` says, kind by kind, under
  which conditions a recognised line fails and with which cause.  Both relations
  are exact (`reader_of_takes`, `reader_of_refuses`), and `read_cases` says that
  there is no third outcome for a recognised line.

  A failure always blames the line that is being read, and never a blank one
  (`feed_error`).
-/
import Gherkin.Proofs.Session.Slots
import Gherkin.Proofs.Text.Trimming

namespace Gherkin

open Text

/-! ## 1. The kind of a line -/

def LineKind.fits (s : Session) (raw : Text) : LineKind → Bool
  | .tags => leads '@' (trim raw)
  | .feature => s.keywords.isHeader .feature (trim raw)
  | .rule => s.keywords.isHeader .rule (trim raw)
  | .scenario category _ => s.keywords.isHeader category (trim raw)
  | .examples => s.keywords.isHeader .examples (trim raw)
  | .background => s.keywords.isHeader .background (trim raw)
  | .repeatedBackground =>
    s.statement.any (·.isBackground) && s.hasSteps && s.keywords.isHeader .background (trim raw)
  | .groupDescription => s.group?.isSome
  | .statementDescription => s.statement.isSome
  | .step => (s.keywords.step? (trim raw)).isSome
  | .fence => (Fence.open? (trimStart raw)).isSome
  | .firstRow => leads '|' (trim raw)
  | .docstring _ | .examplesRow _ | .nextRow _ => true

theorem Session.isSome_header? (s : Session) (category : Category) (raw : Text) :
    (s.header? category raw).isSome = s.keywords.isHeader category (trim raw) := by
  simp [Session.header?, Keywords.isHeader]

theorem LineKind.isSome_reader (kind : LineKind) (s : Session) (raw : Text) :
    (kind.reader s raw).isSome = kind.fits s raw := by
  cases kind with
  | tags => by_cases h : leads '@' (trim raw) = true <;> simp [reader, Reader.tagLine, fits, h]
  | repeatedBackground =>
    rw [fits, ← s.isSome_header? .background raw]
    simp only [reader, Reader.repeatedBackground]
    split
    · rename_i h
      exact h.symm
    · rename_i h
      exact ((Bool.not_eq_true _).mp h).symm
  | firstRow => by_cases h : leads '|' (trim raw) = true <;> simp [reader, Reader.firstRow, fits, h]
  | examplesRow table => cases table <;> rfl
  | docstring block => rfl
  | nextRow table => rfl
  | _ =>
    simp [reader, fits, Reader.featureHeader, Reader.ruleHeader, Reader.scenarioHeader,
      Reader.examplesHeader, Reader.backgroundHeader, Reader.groupDescription,
      Reader.statementDescription, Reader.stepLine, Reader.fenceLine, Session.isSome_header?]

theorem Session.kind?_eq (s : Session) (raw : Text) :
    s.kind? raw = s.mode.kinds.find? (LineKind.fits s raw) := by
  unfold Session.kind?
  congr 1
  funext kind
  exact kind.isSome_reader s raw

/-! ## 2. Refusing a line -/

/-- `Refuses s raw kind cause`: the session `s`, which has already counted the
    line `raw`, recognises it as one of the given kind and fails. -/
inductive Refuses (s : Session) (raw : Text) : LineKind → Cause → Prop
  | tags {word : Text}
      (lead : leads '@' (trim raw) = true)
      (row : Tag.ofLine s.line (trim raw) = .error word) :
      Refuses s raw .tags (.badTag word)
  | rule {header : Header}
      (fits : s.header? .rule raw = some header)
      (feature : s.feature = none) :
      Refuses s raw .rule (s.unexpected raw).cause
  | scenario {header : Header} {category : Category} {blocks : Option (List Examples)}
      (fits : s.header? category raw = some header)
      (group : s.group? = none) :
      Refuses s raw (.scenario category blocks) (s.unexpected raw).cause
  | examples {header : Header}
      (fits : s.header? .examples raw = some header)
      (outline : s.statement.bind (·.blocks?) = none) :
      Refuses s raw .examples .examplesOutsideOutline
  | taggedBackground {header : Header}
      (fits : s.header? .background raw = some header)
      (tags : s.tags ≠ []) :
      Refuses s raw .background (.taggedBackground (s.tags.map (·.name)))
  | secondBackground {header : Header}
      (fits : s.header? .background raw = some header)
      (tags : s.tags = [])
      (steps : (s.group?.bind (·.background)).any (!·.steps.isEmpty) = true) :
      Refuses s raw .background .secondBackground
  | repeatedBackground {header : Header}
      (background : s.statement.any (·.isBackground) = true)
      (steps : s.hasSteps = true)
      (fits : s.header? .background raw = some header) :
      Refuses s raw .repeatedBackground .secondBackground
  | step {found : StepMatch}
      (fits : s.keywords.step? (trim raw) = some found)
      (unresolved : found.resolve s.lastType = none) :
      Refuses s raw .step .noPreviousStep
  | fence {fence : Fence} {contentType : Text}
      (fits : Fence.open? (trimStart raw) = some (fence, contentType))
      (steps : s.hasSteps = false) :
      Refuses s raw .fence .docstringBeforeStep
  | docstring {block : Block} {removed : Text}
      (inside : block.closes raw = false)
      (push : block.push raw = .error removed) :
      Refuses s raw (.docstring block) (.badIndent removed)
  | firstRow
      (lead : leads '|' (trim raw) = true)
      (steps : s.hasSteps = false) :
      Refuses s raw .firstRow .tableBeforeStep
  | examplesRow {table : Table}
      (push : table.push? ⟨Cells.read (trim raw), s.line⟩ = none) :
      Refuses s raw (.examplesRow (some table))
        (.raggedTable table.headings.length (Cells.read (trim raw)).length)
  | nextRow {table : Table}
      (push : table.push? ⟨Cells.read (trim raw), s.line⟩ = none) :
      Refuses s raw (.nextRow table)
        (.raggedTable table.headings.length (Cells.read (trim raw)).length)

section Readers

variable {s t : Session} {raw : Text} {kind : LineKind}

theorem refuses_of_reader {failure : Failure} (h : kind.reader s raw = some (.error failure)) :
    ∃ cause, Refuses s raw kind cause ∧ failure = s.failure cause raw := by
  cases kind with
  | tags =>
    simp only [LineKind.reader, Reader.tagLine] at h
    split at h
    · rename_i hlead
      split at h
      · simp at h
      · rename_i word hrow
        simp only [Option.some.injEq, Except.error.injEq] at h
        exact ⟨_, .tags hlead hrow, h.symm⟩
    · simp at h
  | feature =>
    obtain ⟨header, hfits, h⟩ := Option.map_eq_some_iff.mp h
    simp at h
  | rule =>
    obtain ⟨header, hfits, h⟩ := Option.map_eq_some_iff.mp h
    split at h
    · rename_i hfeature
      simp only [Except.error.injEq] at h
      exact ⟨_, .rule hfits (Option.isNone_iff_eq_none.mp hfeature), h.symm⟩
    · simp at h
  | scenario category blocks =>
    obtain ⟨header, hfits, h⟩ := Option.map_eq_some_iff.mp h
    split at h
    · rename_i hgroup
      simp only [Except.error.injEq] at h
      exact ⟨_, .scenario hfits (Option.isNone_iff_eq_none.mp hgroup), h.symm⟩
    · simp at h
  | examples =>
    obtain ⟨header, hfits, h⟩ := Option.map_eq_some_iff.mp h
    split at h
    · rename_i houtline
      simp only [Except.error.injEq] at h
      exact ⟨_, .examples hfits (Option.isNone_iff_eq_none.mp houtline), h.symm⟩
    · simp at h
  | background =>
    obtain ⟨header, hfits, h⟩ := Option.map_eq_some_iff.mp h
    split at h
    · rename_i htags
      simp only [Except.error.injEq] at h
      exact ⟨_, .taggedBackground hfits (by simpa using htags), h.symm⟩
    · rename_i htags
      split at h
      · rename_i hsteps
        simp only [Except.error.injEq] at h
        exact ⟨_, .secondBackground hfits (by simpa using htags) hsteps, h.symm⟩
      · simp at h
  | repeatedBackground =>
    simp only [LineKind.reader, Reader.repeatedBackground] at h
    split at h
    · rename_i hconditions
      simp only [Bool.and_eq_true] at hconditions
      obtain ⟨⟨hbackground, hsteps⟩, hfits⟩ := hconditions
      obtain ⟨header, hfits⟩ := Option.isSome_iff_exists.mp hfits
      simp only [Option.some.injEq, Except.error.injEq] at h
      exact ⟨_, .repeatedBackground hbackground hsteps hfits, h.symm⟩
    · simp at h
  | groupDescription =>
    obtain ⟨group, hgroup, h⟩ := Option.map_eq_some_iff.mp h
    simp at h
  | statementDescription =>
    obtain ⟨statement, hstatement, h⟩ := Option.map_eq_some_iff.mp h
    simp at h
  | step =>
    obtain ⟨found, hfits, h⟩ := Option.map_eq_some_iff.mp h
    split at h
    · simp at h
    · rename_i hunresolved
      simp only [Except.error.injEq] at h
      exact ⟨_, .step hfits hunresolved, h.symm⟩
  | fence =>
    obtain ⟨⟨fence, contentType⟩, hfits, h⟩ := Option.map_eq_some_iff.mp h
    simp only at h
    split at h
    · simp at h
    · rename_i hsteps
      simp only [Except.error.injEq] at h
      exact ⟨_, .fence hfits (by simpa using hsteps), h.symm⟩
  | docstring block =>
    simp only [LineKind.reader, Reader.docstringLine, Option.some.injEq] at h
    split at h
    · simp at h
    · rename_i hinside
      split at h
      · simp at h
      · rename_i removed hpush
        simp only [Except.error.injEq] at h
        exact ⟨_, .docstring (by simpa using hinside) hpush, h.symm⟩
  | firstRow =>
    simp only [LineKind.reader, Reader.firstRow] at h
    split at h
    · rename_i hlead
      split at h
      · simp at h
      · rename_i hsteps
        simp only [Option.some.injEq, Except.error.injEq] at h
        exact ⟨_, .firstRow hlead (by simpa using hsteps), h.symm⟩
    · simp at h
  | examplesRow table =>
    cases table with
    | none => simp [LineKind.reader, Reader.examplesRow] at h
    | some table =>
      simp only [LineKind.reader, Reader.examplesRow, Reader.nextRow, Option.some.injEq] at h
      split at h
      · simp at h
      · rename_i hpush
        simp only [Except.error.injEq] at h
        exact ⟨_, .examplesRow hpush, h.symm⟩
  | nextRow table =>
    simp only [LineKind.reader, Reader.nextRow, Option.some.injEq] at h
    split at h
    · simp at h
    · rename_i hpush
      simp only [Except.error.injEq] at h
      exact ⟨_, .nextRow hpush, h.symm⟩

theorem reader_of_refuses {cause : Cause} (h : Refuses s raw kind cause) :
    kind.reader s raw = some (.error (s.failure cause raw)) := by
  cases h with
  | tags hlead hrow => simp [LineKind.reader, Reader.tagLine, hlead, hrow]
  | rule hfits hfeature =>
    simp [LineKind.reader, Reader.ruleHeader, hfits, hfeature, Session.unexpected,
      Session.failure]
  | scenario hfits hgroup =>
    simp [LineKind.reader, Reader.scenarioHeader, hfits, hgroup, Session.unexpected,
      Session.failure]
  | examples hfits houtline =>
    simp only [LineKind.reader, Reader.examplesHeader, hfits, houtline, Option.map_some]
    rfl
  | taggedBackground hfits htags =>
    simp [LineKind.reader, Reader.backgroundHeader, hfits, htags]
  | secondBackground hfits htags hsteps =>
    simp only [LineKind.reader, Reader.backgroundHeader, hfits, htags, hsteps, Option.map_some]
    rfl
  | repeatedBackground hbackground hsteps hfits =>
    simp [LineKind.reader, Reader.repeatedBackground, hbackground, hsteps, hfits]
  | step hfits hunresolved => simp [LineKind.reader, Reader.stepLine, hfits, hunresolved]
  | fence hfits hsteps => simp [LineKind.reader, Reader.fenceLine, hfits, hsteps]
  | docstring hinside hpush =>
    simp [LineKind.reader, Reader.docstringLine, hinside, hpush]
  | firstRow hlead hsteps => simp [LineKind.reader, Reader.firstRow, hlead, hsteps]
  | examplesRow hpush =>
    simp [LineKind.reader, Reader.examplesRow, Reader.nextRow, hpush]
  | nextRow hpush => simp [LineKind.reader, Reader.nextRow, hpush]

/-- A line that can be taken is taken by the reader of its kind, provided that
    descriptions have a node to go to. -/
theorem reader_of_takes (h : Takes s raw kind t) (hrecognised : kind.fits s raw = true) :
    kind.reader s raw = some (.ok t) := by
  cases h with
  | tags hs hlead hrow => simp [LineKind.reader, Reader.tagLine, hlead, hrow]
  | feature hs hfits => simp [LineKind.reader, Reader.featureHeader, hfits]
  | rule hs hfits hfeature =>
    simp [LineKind.reader, Reader.ruleHeader, hfits, Option.isSome_iff_ne_none.mp hfeature]
  | scenario hs hknown hfits hgroup =>
    simp [LineKind.reader, Reader.scenarioHeader, hfits, Option.isSome_iff_ne_none.mp hgroup]
  | examples hs hfits houtline =>
    simp only [LineKind.reader, Reader.examplesHeader, hfits, houtline, Option.map_some]
    rfl
  | background hs hfits htags hfresh =>
    simp only [LineKind.reader, Reader.backgroundHeader, hfits, htags, hfresh, Option.map_some]
    rfl
  | groupDescription hs htagless hplain =>
    obtain ⟨group, hgroup⟩ := Option.isSome_iff_exists.mp hrecognised
    simp [LineKind.reader, Reader.groupDescription, hgroup]
  | statementDescription hs htagless hstepless hplain =>
    obtain ⟨statement, hstatement⟩ := Option.isSome_iff_exists.mp hrecognised
    simp [LineKind.reader, Reader.statementDescription, hstatement]
  | step hs hfits hresolved => simp [LineKind.reader, Reader.stepLine, hfits, hresolved]
  | fence hs hfits hsteps => simp [LineKind.reader, Reader.fenceLine, hfits, hsteps]
  | closingFence hs hcloses => simp [LineKind.reader, Reader.docstringLine, hcloses]
  | docstring hs hinside hpush => simp [LineKind.reader, Reader.docstringLine, hinside, hpush]
  | firstRow hs hlead hsteps => simp [LineKind.reader, Reader.firstRow, hlead, hsteps]
  | examplesHeadings hs => rfl
  | examplesRow hs hpush => simp [LineKind.reader, Reader.examplesRow, Reader.nextRow, hpush]
  | nextRow hs hpush => simp [LineKind.reader, Reader.nextRow, hpush]

end Readers

/-! ## 3. One line -/

namespace Session

variable {s t : Session} {raw : Text} {kind : LineKind}

theorem facing_language (s : Session) (raw : Text) : (s.facing raw).language = s.language := by
  refine facing_cases s raw (enter_language s raw) ?_
  rw [closeTable_eq]
  exact enter_language s raw

theorem facing_keywords (s : Session) (raw : Text) : (s.facing raw).keywords = s.keywords := by
  unfold Session.keywords
  rw [facing_language]

theorem read_eq_of_kind? {answer : Except Failure Session} (hkind : s.kind? raw = some kind)
    (h : kind.reader s raw = some answer) : s.read raw = answer := by
  unfold Session.kind? at hkind
  unfold Session.read
  rw [Mode.readers_eq_map_kinds, recognise_map_reader, hkind, Option.bind_some, h]
  rfl

theorem fits_of_kind? (hkind : s.kind? raw = some kind) : kind.fits s raw = true := by
  rw [kind?_eq] at hkind
  exact List.find?_some hkind

theorem read_of_takes (hkind : s.kind? raw = some kind) (h : Takes s raw kind t) :
    s.read raw = .ok t :=
  read_eq_of_kind? hkind (reader_of_takes h (fits_of_kind? hkind))

theorem read_of_refuses {cause : Cause} (hkind : s.kind? raw = some kind)
    (h : Refuses s raw kind cause) : s.read raw = .error (s.failure cause raw) :=
  read_eq_of_kind? hkind (reader_of_refuses h)

theorem read_of_unrecognised (hkind : s.kind? raw = none) :
    s.read raw = .error (s.unexpected raw) := by
  unfold Session.kind? at hkind
  unfold Session.read
  rw [Mode.readers_eq_map_kinds, recognise_map_reader, hkind]
  rfl

/-- What the readers of a mode can do with a line. -/
theorem read_cases (s : Session) (raw : Text) :
    s.kind? raw = none ∧ s.read raw = .error (s.unexpected raw) ∨
      ∃ kind, s.kind? raw = some kind ∧
        ((∃ t, Takes s raw kind t ∧ s.read raw = .ok t) ∨
          ∃ cause, Refuses s raw kind cause ∧ s.read raw = .error (s.failure cause raw)) := by
  cases hkind : s.kind? raw with
  | none => exact .inl ⟨rfl, read_of_unrecognised hkind⟩
  | some kind =>
    refine .inr ⟨kind, rfl, ?_⟩
    have hsome : (kind.reader s raw).isSome = true := by
      rw [kind.isSome_reader]
      exact fits_of_kind? hkind
    obtain ⟨answer, hanswer⟩ := Option.isSome_iff_exists.mp hsome
    have hread := read_eq_of_kind? hkind hanswer
    cases answer with
    | ok t =>
      obtain ⟨other, hother, htakes⟩ := takes_of_read hread
      rw [hkind, Option.some.injEq] at hother
      exact .inl ⟨t, hother ▸ htakes, hread⟩
    | error failure =>
      obtain ⟨cause, hrefuses, rfl⟩ := refuses_of_reader hanswer
      exact .inr ⟨cause, hrefuses, hread⟩

/-- A docstring refuses only lines with text in front of its margin. -/
theorem trim_ne_nil_of_push {block : Block} {removed : Text} (h : block.push raw = .error removed) :
    trim raw ≠ [] := by
  unfold Block.push at h
  simp only at h
  split at h
  · simp at h
  · rename_i hblank
    obtain ⟨c, hc, hsolid⟩ : ∃ c ∈ raw.take block.margin, isBlank c = false := by
      simpa using hblank
    exact trim_ne_nil (List.mem_of_mem_take hc) hsolid

/-- What makes a line fail: a directive for a language that the catalogue does
    not have, or a line that its readers do not recognise or refuse. -/
theorem feed_error_cases {failure : Failure} (h : s.feed raw = .error failure) :
    (s.isComment raw = true ∧
      ∃ code, failure = (s.enter raw).failure (.unknownLanguage code) raw) ∨
    s.skips raw = false ∧ s.isComment raw = false ∧
      ((s.facing raw).kind? raw = none ∧ failure = (s.facing raw).unexpected raw ∨
        ∃ kind cause, (s.facing raw).kind? raw = some kind ∧
          Refuses (s.facing raw) raw kind cause ∧
          failure = (s.facing raw).failure cause raw) := by
  rw [feed_eq] at h
  split at h
  · simp at h
  · rename_i hskips
    split at h
    · rename_i hcomment
      refine .inl ⟨hcomment, ?_⟩
      unfold comment at h
      split at h
      · simp at h
      · rename_i code hdirective
        split at h
        · simp at h
        · split at h
          · simp at h
          · rw [Except.error.injEq] at h
            exact ⟨code, h.symm⟩
    · rename_i hcomment
      refine .inr ⟨by simpa using hskips, by simpa using hcomment, ?_⟩
      rcases read_cases (s.facing raw) raw with
        ⟨hkind, hread⟩ | ⟨kind, hkind, ⟨t, -, hread⟩ | ⟨cause, hrefuses, hread⟩⟩
      · rw [hread, Except.error.injEq] at h
        exact .inl ⟨hkind, h.symm⟩
      · rw [hread] at h
        simp at h
      · rw [hread, Except.error.injEq] at h
        exact .inr ⟨kind, cause, hkind, hrefuses, h.symm⟩

/-- A line that is neither blank nor a comment fails when it is refused. -/
theorem feed_of_refuses {cause : Cause} (hskips : s.skips raw = false)
    (hcomment : s.isComment raw = false) (hkind : (s.facing raw).kind? raw = some kind)
    (h : Refuses (s.facing raw) raw kind cause) :
    s.feed raw = .error ((s.facing raw).failure cause raw) := by
  rw [feed_eq, if_neg (by simp [hskips]), if_neg (by simp [hcomment])]
  exact read_of_refuses hkind h

/-- A failure blames the line that is being read, and that line is not blank. -/
theorem feed_error {failure : Failure} (h : s.feed raw = .error failure) :
    failure.position = ⟨s.line + 1, some (trim raw), s.source⟩ ∧ trim raw ≠ [] := by
  have hposition : ∀ cause, ((s.facing raw).failure cause raw).position =
      ⟨s.line + 1, some (trim raw), s.source⟩ := by
    intro cause
    simp [Session.failure, (facing_setup s raw).source]
  rcases feed_error_cases h with ⟨hcomment, code, rfl⟩ |
    ⟨hskips, -, ⟨hkind, rfl⟩ | ⟨kind, cause, hkind, hrefuses, rfl⟩⟩
  · refine ⟨rfl, ?_⟩
    intro hnil
    simp [isComment, hnil, leads] at hcomment
  all_goals
    refine ⟨hposition _, ?_⟩
    by_cases hdoc : s.inDocstring = true
    case neg => simpa [skips, hdoc] using hskips
    rw [← facing_inDocstring s raw] at hdoc
    unfold inDocstring at hdoc
  · -- A docstring recognises every line.
    rw [kind?_eq] at hkind
    cases hmode : (s.facing raw).mode <;> simp_all [Mode.kinds, LineKind.fits]
  · have hmem := List.mem_of_find?_eq_some hkind
    cases hmode : (s.facing raw).mode with
    | docstring block =>
      rw [hmode, Mode.kinds, List.mem_singleton] at hmem
      subst hmem
      cases hrefuses with
      | docstring hinside hpush => exact trim_ne_nil_of_push hpush
    | _ => simp [hmode] at hdoc

end Session

end Gherkin
