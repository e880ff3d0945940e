/-
  Gherkin/Proofs/Session/Transition.lean
  ======================================
  **What one line can do to a session.**

  The readers of a mode are the readers of its kinds of line
  (`Mode.readers_eq_map_kinds`), so the reader that takes a line has a name:
  `Session.kind?`.  `Takes` says, kind by kind, under which conditions a line
  is taken and what becomes of the session; `takes_of_read` shows that nothing
  else happens.  `feed_cases` adds what surrounds the readers: blank lines,
  comments, and the table that ends at a line which is no row.

  Every invariant of a reading is proved by cases on `feed_cases` and `Takes`;
  no later module opens a reader.
-/
import Gherkin.Session.Feed

namespace Gherkin

open Text

/-! ## 1. Kinds of line -/

/-- The kinds of line that a session tells apart. -/
inductive LineKind where
  | tags
  | feature
  | rule
  /-- The header of a scenario of the given category, with its first blocks. -/
  | scenario (category : Category) (blocks : Option (List Examples))
  | examples
  | background
  /-- A background header behind the steps of a background. -/
  | repeatedBackground
  | groupDescription
  | statementDescription
  | step
  | fence
  /-- A line of the given docstring. -/
  | docstring (block : Block)
  /-- The first row of a table below a step. -/
  | firstRow
  /-- A row of the table of an Examples block. -/
  | examplesRow (table : Option Table)
  /-- A further row of the table of a step. -/
  | nextRow (table : Table)
deriving DecidableEq

def LineKind.reader : LineKind → Reader
  | .tags => Reader.tagLine
  | .feature => Reader.featureHeader
  | .rule => Reader.ruleHeader
  | .scenario category blocks => Reader.scenarioHeader category blocks
  | .examples => Reader.examplesHeader
  | .background => Reader.backgroundHeader
  | .repeatedBackground => Reader.repeatedBackground
  | .groupDescription => Reader.groupDescription
  | .statementDescription => Reader.statementDescription
  | .step => Reader.stepLine
  | .fence => Reader.fenceLine
  | .docstring block => Reader.docstringLine block
  | .firstRow => Reader.firstRow
  | .examplesRow table => Reader.examplesRow table
  | .nextRow table => Reader.nextRow table .stepTable

/-- Tag lines and the headers of statements that may have tags. -/
def taggableKinds : List LineKind :=
  [.tags, .rule, .scenario .scenario none, .scenario .outline (some []), .examples]

def Mode.kinds : Mode → List LineKind
  | .start => [.tags, .feature]
  | .feature | .rule => taggableKinds ++ [.background, .groupDescription]
  | .tagged => taggableKinds
  | .background | .scenario => .step :: taggableKinds ++ [.statementDescription]
  | .steps => .fence :: .step :: taggableKinds ++ [.repeatedBackground, .firstRow]
  | .docstring block => [.docstring block]
  | .examples table => [.examplesRow table]
  | .stepTable table => [.nextRow table]

theorem Mode.readers_eq_map_kinds (mode : Mode) :
    mode.readers = mode.kinds.map LineKind.reader := by
  cases mode <;> rfl

/-- The kind as which a session takes a line: the first one of its mode whose
    reader recognises the line. -/
def Session.kind? (s : Session) (raw : Text) : Option LineKind :=
  s.mode.kinds.find? fun kind => (kind.reader s raw).isSome

/-- What a list of readers answers is what the reader of the first kind that
    recognises the line answers. -/
theorem recognise_map_reader (kinds : List LineKind) (s : Session) (raw : Text) :
    recognise (kinds.map LineKind.reader) s raw =
      (kinds.find? fun kind => (kind.reader s raw).isSome).bind (·.reader s raw) := by
  induction kinds with
  | nil => rfl
  | cons kind kinds ih =>
    unfold recognise at ih ⊢
    rw [List.map_cons, List.findSome?_cons, List.find?_cons]
    cases h : kind.reader s raw with
    | none => simpa using ih
    | some answer => simp [h]

/-- A line is read exactly when the reader of its kind gives a session. -/
theorem Session.read_eq_ok_iff {s t : Session} {raw : Text} :
    s.read raw = .ok t ↔ ∃ kind, s.kind? raw = some kind ∧ kind.reader s raw = some (.ok t) := by
  unfold Session.read Session.kind?
  rw [Mode.readers_eq_map_kinds, recognise_map_reader]
  cases s.mode.kinds.find? fun kind => (kind.reader s raw).isSome with
  | none => simp
  | some kind =>
    cases h : kind.reader s raw with
    | none => simp [h]
    | some answer => simp [h]

/-! ## 2. Taking a line -/

/-- The modes in which a statement that may have tags can begin. -/
def Mode.isOpen : Mode → Bool
  | .feature | .rule | .tagged | .background | .scenario | .steps => true
  | .start | .docstring _ | .examples _ | .stepTable _ => false

/-- The modes in which a step can stand. -/
def Mode.hasStepLines : Mode → Bool
  | .background | .scenario | .steps => true
  | _ => false

/-- The headers of statements that may have tags. -/
def taggableCategories : List Category := [.rule, .scenario, .outline, .examples]

/-- `Takes s raw kind t`: the session `s`, which has already counted the line
    `raw` and left a table that the line ends, takes it as a line of the given
    kind and becomes `t`. -/
inductive Takes (s : Session) (raw : Text) : LineKind → Session → Prop
  | tags {tags : List Tag}
      (mode : s.mode = .start ∨ s.mode.isOpen = true)
      (lead : leads '@' (trim raw) = true)
      (row : Tag.ofLine s.line (trim raw) = .ok tags) :
      Takes s raw .tags
        { s with
          tags := s.tags ++ tags
          mode := if s.mode = .start then .start else .tagged }
  | feature {header : Header}
      (mode : s.mode = .start)
      (fits : s.header? .feature raw = some header) :
      Takes s raw .feature
        { s with
          feature := some ⟨s.source, s.language.code, .start header s.tags, []⟩
          tags := []
          mode := .feature }
  | rule {header : Header}
      (mode : s.mode.isOpen = true)
      (fits : s.header? .rule raw = some header)
      (feature : s.feature.isSome = true) :
      Takes s raw .rule
        { s.closeStatement.closeRule with
          rule := some (.start header s.tags)
          tags := []
          lastType := none
          mode := .rule }
  | scenario {header : Header} {category : Category} {blocks : Option (List Examples)}
      (mode : s.mode.isOpen = true)
      (known : category = .scenario ∧ blocks = none ∨ category = .outline ∧ blocks = some [])
      (fits : s.header? category raw = some header)
      (group : s.group?.isSome = true) :
      Takes s raw (.scenario category blocks)
        { s.startStatement (.scenario ⟨header, s.tags, [], [], blocks⟩) .scenario with tags := [] }
  | examples {header : Header} {blocks : List Examples}
      (mode : s.mode.isOpen = true)
      (fits : s.header? .examples raw = some header)
      (outline : s.statement.bind (·.blocks?) = some blocks) :
      Takes s raw .examples
        { s.mapStatement (·.mapBlocks (· ++ [⟨header, s.tags, none⟩])) with
          tags := []
          mode := .examples none }
  | background {header : Header}
      (mode : s.mode = .feature ∨ s.mode = .rule)
      (fits : s.header? .background raw = some header)
      (tags : s.tags = [])
      (fresh : (s.group?.bind (·.background)).any (!·.steps.isEmpty) = false) :
      Takes s raw .background (s.startStatement (.background ⟨header, [], []⟩) .background)
  | groupDescription
      (mode : s.mode = .feature ∨ s.mode = .rule)
      (tagless : leads '@' (trim raw) = false)
      (plain : ∀ category ∈ .background :: taggableCategories,
        s.keywords.header? category (trim raw) = none) :
      Takes s raw .groupDescription (s.mapGroup (·.describe (trim raw)))
  | statementDescription
      (mode : s.mode = .background ∨ s.mode = .scenario)
      (tagless : leads '@' (trim raw) = false)
      (stepless : s.keywords.step? (trim raw) = none)
      (plain : ∀ category ∈ taggableCategories,
        s.keywords.header? category (trim raw) = none) :
      Takes s raw .statementDescription (s.mapStatement (·.describe (trim raw)))
  | step {found : StepMatch} {type : StepType}
      (mode : s.mode.hasStepLines = true)
      (fits : s.keywords.step? (trim raw) = some found)
      (resolved : found.resolve s.lastType = some type) :
      Takes s raw .step
        { s.mapStatement (·.addStep ⟨found.keyword, type, found.text, none, none, s.line⟩) with
          lastType := some type
          mode := .steps }
  | fence {fence : Fence} {contentType : Text}
      (mode : s.mode = .steps)
      (fits : Fence.open? (trimStart raw) = some (fence, contentType))
      (steps : s.hasSteps = true) :
      Takes s raw .fence { s with mode := .docstring (.start s.line raw fence contentType) }
  | closingFence {block : Block}
      (mode : s.mode = .docstring block)
      (closes : block.closes raw = true) :
      Takes s raw (.docstring block)
        { s.mapStatement (·.mapLastStep (·.withDocstring block.docstring)) with mode := .steps }
  | docstring {block next : Block}
      (mode : s.mode = .docstring block)
      (inside : block.closes raw = false)
      (push : block.push raw = .ok next) :
      Takes s raw (.docstring block) { s with mode := .docstring next }
  | firstRow
      (mode : s.mode = .steps)
      (lead : leads '|' (trim raw) = true)
      (steps : s.hasSteps = true) :
      Takes s raw .firstRow
        { s with mode := .stepTable (.start (Cells.read (trim raw)) s.line) }
  | examplesHeadings
      (mode : s.mode = .examples none) :
      Takes s raw (.examplesRow none)
        { s with mode := .examples (some (.start (Cells.read (trim raw)) s.line)) }
  | examplesRow {table next : Table}
      (mode : s.mode = .examples (some table))
      (push : table.push? ⟨Cells.read (trim raw), s.line⟩ = some next) :
      Takes s raw (.examplesRow (some table)) { s with mode := .examples (some next) }
  | nextRow {table next : Table}
      (mode : s.mode = .stepTable table)
      (push : table.push? ⟨Cells.read (trim raw), s.line⟩ = some next) :
      Takes s raw (.nextRow table) { s with mode := .stepTable next }

/-! ## 3. Nothing else happens -/

/-- If the last kind of a list is the first one that recognises a line, then no
    other kind of the list recognises it. -/
theorem reader_eq_none_of_find?_concat {kinds : List LineKind} {last : LineKind}
    {s : Session} {raw : Text} (hlast : last ∉ kinds)
    (h : (kinds ++ [last]).find? (fun kind => (kind.reader s raw).isSome) = some last) :
    ∀ kind ∈ kinds, kind.reader s raw = none := by
  intro kind hkind
  rw [List.find?_append] at h
  cases hfind : kinds.find? (fun kind => (kind.reader s raw).isSome) with
  | none =>
    have := List.find?_eq_none.mp hfind kind hkind
    simpa using this
  | some first =>
    rw [hfind] at h
    have heq : first = last := by simpa using h
    exact absurd (heq ▸ List.mem_of_find?_eq_some hfind) hlast

theorem Session.keywords_header?_of_header? {s : Session} {category : Category} {raw : Text}
    {header : Header} (h : s.header? category raw = some header) :
    s.keywords.header? category (trim raw) = some (header.keyword, header.title) ∧
      header.line = s.line := by
  obtain ⟨found, hfound, rfl⟩ := Option.map_eq_some_iff.mp h
  exact ⟨hfound, rfl⟩

theorem Session.header?_eq_none_iff {s : Session} {category : Category} {raw : Text} :
    s.header? category raw = none ↔ s.keywords.header? category (trim raw) = none := by
  unfold Session.header?
  exact Option.map_eq_none_iff

/-- The modes in which a kind of line is tried. -/
theorem LineKind.mode_of_mem_kinds {kind : LineKind} {mode : Mode} (h : kind ∈ mode.kinds) :
    match kind with
    | .tags => mode = .start ∨ mode.isOpen = true
    | .feature => mode = .start
    | .rule | .examples => mode.isOpen = true
    | .scenario category blocks =>
      mode.isOpen = true ∧
        (category = .scenario ∧ blocks = none ∨ category = .outline ∧ blocks = some [])
    | .background | .groupDescription => mode = .feature ∨ mode = .rule
    | .statementDescription => mode = .background ∨ mode = .scenario
    | .step => mode.hasStepLines = true
    | .repeatedBackground | .fence | .firstRow => mode = .steps
    | .docstring block => mode = .docstring block
    | .examplesRow table => mode = .examples table
    | .nextRow table => mode = .stepTable table := by
  cases mode <;> cases kind <;>
    simp [Mode.kinds, taggableKinds] at h <;>
    simp_all [Mode.isOpen, Mode.hasStepLines]

/-- A description line of a group is no line of tags and no header. -/
theorem groupDescription_plain {s : Session} {raw : Text}
    (h : s.kind? raw = some .groupDescription) :
    leads '@' (trim raw) = false ∧
      ∀ category ∈ .background :: taggableCategories,
        s.keywords.header? category (trim raw) = none := by
  have hkinds : s.mode.kinds = (taggableKinds ++ [.background]) ++ [.groupDescription] := by
    have hmode := LineKind.mode_of_mem_kinds (List.mem_of_find?_eq_some h)
    rcases hmode with hmode | hmode <;> rw [hmode] <;> rfl
  unfold Session.kind? at h
  rw [hkinds] at h
  have hnone := reader_eq_none_of_find?_concat (by decide) h
  refine ⟨?_, ?_⟩
  · have htags := hnone .tags (by decide)
    simpa [LineKind.reader, Reader.tagLine] using htags
  · intro category hcategory
    rw [← Session.header?_eq_none_iff]
    simp only [taggableCategories, List.mem_cons, List.not_mem_nil, or_false] at hcategory
    rcases hcategory with rfl | rfl | rfl | rfl | rfl
    · exact Option.map_eq_none_iff.mp (hnone .background (by decide))
    · exact Option.map_eq_none_iff.mp (hnone .rule (by decide))
    · exact Option.map_eq_none_iff.mp (hnone (.scenario .scenario none) (by decide))
    · exact Option.map_eq_none_iff.mp (hnone (.scenario .outline (some [])) (by decide))
    · exact Option.map_eq_none_iff.mp (hnone .examples (by decide))

/-- A description line of a statement is no step, no line of tags and no header
    of a statement that may have tags. -/
theorem statementDescription_plain {s : Session} {raw : Text}
    (h : s.kind? raw = some .statementDescription) :
    leads '@' (trim raw) = false ∧ s.keywords.step? (trim raw) = none ∧
      ∀ category ∈ taggableCategories, s.keywords.header? category (trim raw) = none := by
  have hkinds : s.mode.kinds = (.step :: taggableKinds) ++ [.statementDescription] := by
    have hmode := LineKind.mode_of_mem_kinds (List.mem_of_find?_eq_some h)
    rcases hmode with hmode | hmode <;> rw [hmode] <;> rfl
  unfold Session.kind? at h
  rw [hkinds] at h
  have hnone := reader_eq_none_of_find?_concat (by decide) h
  refine ⟨?_, ?_, ?_⟩
  · have htags := hnone .tags (by decide)
    simpa [LineKind.reader, Reader.tagLine] using htags
  · exact Option.map_eq_none_iff.mp (hnone .step (by decide))
  · intro category hcategory
    rw [← Session.header?_eq_none_iff]
    simp only [taggableCategories, List.mem_cons, List.not_mem_nil, or_false] at hcategory
    rcases hcategory with rfl | rfl | rfl | rfl
    · exact Option.map_eq_none_iff.mp (hnone .rule (by decide))
    · exact Option.map_eq_none_iff.mp (hnone (.scenario .scenario none) (by decide))
    · exact Option.map_eq_none_iff.mp (hnone (.scenario .outline (some [])) (by decide))
    · exact Option.map_eq_none_iff.mp (hnone .examples (by decide))

/-- A line that is read is taken as a line of its kind. -/
theorem takes_of_read {s t : Session} {raw : Text} (h : s.read raw = .ok t) :
    ∃ kind, s.kind? raw = some kind ∧ Takes s raw kind t := by
  obtain ⟨kind, hkind, hread⟩ := Session.read_eq_ok_iff.mp h
  refine ⟨kind, hkind, ?_⟩
  have hmode := LineKind.mode_of_mem_kinds (List.mem_of_find?_eq_some hkind)
  cases kind with
  | tags =>
    simp only [LineKind.reader, Reader.tagLine] at hread
    split at hread
    · rename_i hlead
      split at hread
      · rename_i tags hrow
        simp only [Option.some.injEq, Except.ok.injEq] at hread
        exact hread ▸ .tags hmode hlead hrow
      · simp at hread
    · simp at hread
  | feature =>
    obtain ⟨header, hfits, hread⟩ := Option.map_eq_some_iff.mp hread
    simp only [Except.ok.injEq] at hread
    exact hread ▸ .feature hmode hfits
  | rule =>
    obtain ⟨header, hfits, hread⟩ := Option.map_eq_some_iff.mp hread
    split at hread
    · simp at hread
    · rename_i hfeature
      simp only [Except.ok.injEq] at hread
      exact hread ▸ .rule hmode hfits (by simpa [Option.isSome_iff_ne_none] using hfeature)
  | scenario category blocks =>
    obtain ⟨header, hfits, hread⟩ := Option.map_eq_some_iff.mp hread
    split at hread
    · simp at hread
    · rename_i hgroup
      simp only [Except.ok.injEq] at hread
      exact hread ▸ .scenario hmode.1 hmode.2 hfits
        (by simpa [Option.isSome_iff_ne_none] using hgroup)
  | examples =>
    obtain ⟨header, hfits, hread⟩ := Option.map_eq_some_iff.mp hread
    split at hread
    · simp at hread
    · rename_i houtline
      simp only [Except.ok.injEq] at hread
      obtain ⟨blocks, hblocks⟩ := Option.ne_none_iff_exists'.mp
        (fun hnone => houtline (Option.isNone_iff_eq_none.mpr hnone))
      exact hread ▸ .examples hmode hfits hblocks
  | background =>
    obtain ⟨header, hfits, hread⟩ := Option.map_eq_some_iff.mp hread
    split at hread
    · simp at hread
    · rename_i htags
      split at hread
      · simp at hread
      · rename_i hfresh
        simp only [Except.ok.injEq] at hread
        exact hread ▸ .background hmode hfits (by simpa using htags)
          (Bool.not_eq_true _ ▸ hfresh)
  | repeatedBackground =>
    simp only [LineKind.reader, Reader.repeatedBackground] at hread
    split at hread <;> simp at hread
  | groupDescription =>
    obtain ⟨htagless, hplain⟩ := groupDescription_plain hkind
    obtain ⟨group, hgroup, hread⟩ := Option.map_eq_some_iff.mp hread
    simp only [Except.ok.injEq] at hread
    exact hread ▸ .groupDescription hmode htagless hplain
  | statementDescription =>
    obtain ⟨htagless, hstepless, hplain⟩ := statementDescription_plain hkind
    obtain ⟨statement, hstatement, hread⟩ := Option.map_eq_some_iff.mp hread
    simp only [Except.ok.injEq] at hread
    exact hread ▸ .statementDescription hmode htagless hstepless hplain
  | step =>
    obtain ⟨found, hfits, hread⟩ := Option.map_eq_some_iff.mp hread
    split at hread
    · rename_i type hresolved
      simp only [Except.ok.injEq] at hread
      exact hread ▸ .step hmode hfits hresolved
    · simp at hread
  | fence =>
    obtain ⟨⟨fence, contentType⟩, hfits, hread⟩ := Option.map_eq_some_iff.mp hread
    simp only at hread
    split at hread
    · rename_i hsteps
      simp only [Except.ok.injEq] at hread
      exact hread ▸ .fence hmode hfits hsteps
    · simp at hread
  | docstring block =>
    simp only [LineKind.reader, Reader.docstringLine, Option.some.injEq] at hread
    split at hread
    · rename_i hcloses
      simp only [Except.ok.injEq] at hread
      exact hread ▸ .closingFence hmode hcloses
    · rename_i hinside
      split at hread
      · rename_i next hpush
        simp only [Except.ok.injEq] at hread
        exact hread ▸ .docstring hmode (by simpa using hinside) hpush
      · simp at hread
  | firstRow =>
    simp only [LineKind.reader, Reader.firstRow] at hread
    split at hread
    · rename_i hlead
      split at hread
      · rename_i hsteps
        simp only [Option.some.injEq, Except.ok.injEq] at hread
        exact hread ▸ .firstRow hmode hlead hsteps
      · simp at hread
    · simp at hread
  | examplesRow table =>
    cases table with
    | none =>
      simp only [LineKind.reader, Reader.examplesRow, Option.some.injEq, Except.ok.injEq] at hread
      exact hread ▸ .examplesHeadings hmode
    | some table =>
      simp only [LineKind.reader, Reader.examplesRow, Reader.nextRow, Option.some.injEq] at hread
      split at hread
      · rename_i next hpush
        simp only [Except.ok.injEq] at hread
        exact hread ▸ .examplesRow hmode hpush
      · simp at hread
  | nextRow table =>
    simp only [LineKind.reader, Reader.nextRow, Option.some.injEq] at hread
    split at hread
    · rename_i next hpush
      simp only [Except.ok.injEq] at hread
      exact hread ▸ .nextRow hmode hpush
    · simp at hread

namespace Session

/-! ## 4. Around the readers -/

/-- A directive or an idle line changes at most the chosen language, and only a
    directive before the feature header does, unless the language is fixed. -/
def Rests (s t : Session) : Prop :=
  ∃ chosen, t = { s with line := s.line + 1, chosen := chosen } ∧
    (chosen = s.chosen ∨
      s.mode = .start ∧ s.fixed = false ∧ ∃ language, chosen = some language ∧
        s.catalogue.find? language.code = some language)

/-- The session that gives a line to its readers: the line is counted, the
    language is settled, and a table that the line ends is closed. -/
def facing (s : Session) (raw : Text) : Session := (s.enter raw).leaveTable raw

/-- A session faces a line as it is once the line is counted, or with its table
    closed besides. -/
@[elab_as_elim]
theorem facing_cases {P : Session → Prop} (s : Session) (raw : Text) (henter : P (s.enter raw))
    (hclose : P (s.enter raw).closeTable) : P (s.facing raw) := by
  unfold facing leaveTable
  split
  · exact hclose
  · exact henter

theorem feed_eq (s : Session) (raw : Text) :
    s.feed raw =
      if s.skips raw then .ok (s.enter raw)
      else if s.isComment raw then (s.enter raw).comment raw
      else (s.facing raw).read raw := rfl

theorem find?_code {catalogue : Catalogue} {code : Text} {language : Language}
    (h : catalogue.find? code = some language) :
    language.code = code ∧ catalogue.lookup code = some language.keywords := by
  obtain ⟨keywords, hlookup, rfl⟩ := Option.map_eq_some_iff.mp h
  exact ⟨rfl, hlookup⟩

theorem rests_of_comment {s t : Session} {raw : Text} (hcomment : s.isComment raw = true)
    (h : (s.enter raw).comment raw = .ok t) : s.Rests t := by
  have henter : s.enter raw = { s with line := s.line + 1, chosen := s.chosen } := by
    simp [enter, consults, hcomment]
  rw [henter] at h
  unfold comment at h
  split at h
  · simp only [Except.ok.injEq] at h
    exact ⟨s.chosen, h.symm, .inl rfl⟩
  · rename_i code hdirective
    have hstart : s.mode = .start := by
      unfold directive? at hdirective
      split at hdirective
      · rename_i hplace
        simp only [Bool.and_eq_true, decide_eq_true_eq] at hplace
        exact hplace.1.1.2
      · simp at hdirective
    split at h
    · simp only [Except.ok.injEq] at h
      exact ⟨s.chosen, h.symm, .inl rfl⟩
    · rename_i hfree
      split at h
      · rename_i language hfind
        simp only [Except.ok.injEq] at h
        refine ⟨some language, h.symm, .inr ⟨hstart, by simpa using hfree, language, rfl, ?_⟩⟩
        rw [(find?_code hfind).1]
        exact hfind
      · simp at h

/-- Reading a line either leaves everything but the language as it is, or the
    line is taken as a line of some kind. -/
theorem feed_cases {s t : Session} {raw : Text} (h : s.feed raw = .ok t) :
    (s.skips raw || s.isComment raw) = true ∧ s.Rests t ∨
      s.skips raw = false ∧ s.isComment raw = false ∧
        ∃ kind, (s.facing raw).kind? raw = some kind ∧ Takes (s.facing raw) raw kind t := by
  rw [feed_eq] at h
  split at h
  · rename_i hskips
    simp only [Except.ok.injEq] at h
    refine .inl ⟨by simp [hskips], s.chosen, ?_, .inl rfl⟩
    rw [← h]
    simp [enter, consults, hskips]
  · rename_i hskips
    split at h
    · rename_i hcomment
      exact .inl ⟨by simp [hcomment], rests_of_comment hcomment h⟩
    · rename_i hcomment
      exact .inr ⟨by simpa using hskips, by simpa using hcomment, takes_of_read h⟩

end Session

end Gherkin
