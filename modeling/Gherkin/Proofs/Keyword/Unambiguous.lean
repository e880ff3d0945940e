/-
  Gherkin/Proofs/Keyword/Unambiguous.lean
  =======================================
  **The order of the tests of a line does not matter.**

  A line is put to seven tests for keywords, one for the header of each category
  and one for steps, and to three tests for signs.  In every bundled language a
  line passes at most one of them: two aliases in front of the first colon are one
  alias, no alias heads two kinds of statement, no step alias fits where an alias
  and a colon do, and none begins with a sign (`Keywords.Unambiguous`).

  So a line is read alike whichever of its tests is made first, provided that the
  readers that take any line come last (`Unambiguous.read_perm`), and it is
  explained alike (`Unambiguous.diagnose_perm`).

  Among the step aliases several can fit one line, since some continue others in
  French.  Longer ones are tested first, so it is the longest that is found.
-/
import Gherkin.Proofs.Keyword.Clarity
import Gherkin.Proofs.Session.TrailingBlanks
import Mathlib.Data.List.Find
import Mathlib.Data.List.Nodup

namespace Gherkin

open Text

/-! ## 1. Ten tests -/

/-- A test of the beginning of a line. -/
inductive Probe where
  /-- An alias of the category and a colon. -/
  | header (category : Category)
  /-- An alias of any step type. -/
  | step
  /-- The sign of a tag. -/
  | tag
  /-- A fence. -/
  | fence
  /-- The first delimiter of a row. -/
  | row
deriving DecidableEq

namespace Probe

def keywordTests : List Probe := headings.map .header ++ [.step]

/-- All tests that a line is put to. -/
def all : List Probe := keywordTests ++ [.tag, .fence, .row]

/-- The signs that a test looks for. -/
def signs : Probe → List Char
  | .header _ | .step => []
  | .tag => ['@']
  | .fence => ['"', '\x27']
  | .row => ['|']

theorem eq_of_mem_signs {c : Char} {probe other : Probe} (hc : c ∈ probe.signs)
    (hc' : c ∈ other.signs) : probe = other := by
  cases probe <;> cases other <;> simp_all [signs]

theorem signs_subset (probe : Probe) : probe.signs ⊆ Text.signs := by
  cases probe <;> simp [signs, Text.signs]

end Probe

namespace Keywords

variable {keywords : Keywords} {line : Text} {probe other : Probe}

def passes (keywords : Keywords) (line : Text) : Probe → Bool
  | .header category => keywords.isHeader category line
  | .step => (keywords.step? line).isSome
  | .tag => leads '@' line
  | .fence => (Fence.open? line).isSome
  | .row => leads '|' line

/-- What passes a test for a sign begins with the sign. -/
theorem mem_keywordTests_or_sign (hprobe : probe ∈ Probe.all)
    (hpasses : keywords.passes line probe = true) :
    probe ∈ Probe.keywordTests ∨ ∃ c ∈ probe.signs, ∃ rest, line = c :: rest := by
  have hleads : ∀ c, leads c line = true → ∃ rest, line = c :: rest := by
    intro c hlead
    cases line with
    | nil => simp [leads] at hlead
    | cons d rest =>
      have hd : d = c := by simpa [leads] using hlead
      exact ⟨rest, by rw [hd]⟩
  cases probe with
  | header category =>
    rcases List.mem_append.mp hprobe with hmem | hmem
    · exact .inl hmem
    · simp at hmem
  | step => exact .inl (by decide)
  | tag => exact .inr ⟨'@', by decide, hleads _ hpasses⟩
  | row => exact .inr ⟨'|', by decide, hleads _ hpasses⟩
  | fence =>
    right
    obtain ⟨⟨fence, contentType⟩, hopen⟩ := Option.isSome_iff_exists.mp hpasses
    obtain ⟨rest, hline, -⟩ := Fence.eq_of_open? hopen
    cases fence with
    | double => exact ⟨'"', by decide, _, hline⟩
    | single => exact ⟨'\x27', by decide, _, hline⟩

/-- A line passes at most one test, and what continues a step alias is tested
    before it. -/
structure Unambiguous (keywords : Keywords) : Prop where
  header_plain : ∀ category ∈ headings, ∀ spelling ∈ keywords.aliases category,
    beginsPlainly spelling = true ∧ ':' ∉ spelling
  header_unique : ∀ category ∈ headings, ∀ other ∈ headings, category ≠ other →
    ∀ spelling ∈ keywords.aliases category, spelling ∉ keywords.aliases other
  step_header : ∀ category ∈ headings, ∀ spelling ∈ keywords.aliases category,
    ∀ step ∈ keywords.stepAliases, diverge (spelling ++ [':']) step.2 = true
  step_sign : ∀ c ∈ signs, ∀ step ∈ keywords.stepAliases, diverge [c] step.2 = true
  longestFirst : keywords.LongestFirst

theorem Clear.unambiguous (h : keywords.Clear)
    (hsigns : ∀ c ∈ signs, ∀ step ∈ keywords.stepAliases, diverge [c] step.2 = true) :
    keywords.Unambiguous where
  header_plain := h.header_plain
  header_unique := h.header_unique
  step_header := h.step_header
  step_sign := hsigns
  longestFirst := h.longestFirst

namespace Unambiguous

variable (h : keywords.Unambiguous)
include h

/-- A line is a header of one category at most. -/
theorem category_eq {category category' : Category} (hcategory : category ∈ headings)
    (hcategory' : category' ∈ headings) (hpasses : keywords.isHeader category line = true)
    (hpasses' : keywords.isHeader category' line = true) : category = category' := by
  obtain ⟨⟨spelling, title⟩, hfound⟩ := Option.isSome_iff_exists.mp hpasses
  obtain ⟨⟨spelling', title'⟩, hfound'⟩ := Option.isSome_iff_exists.mp hpasses'
  obtain ⟨hspelling, rest, hline, -⟩ := header?_eq_some hfound
  obtain ⟨hspelling', rest', hline', -⟩ := header?_eq_some hfound'
  obtain ⟨rfl, -⟩ := eq_of_append_colon (h.header_plain category hcategory spelling hspelling).2
    (h.header_plain category' hcategory' spelling' hspelling').2 (hline.symm.trans hline')
  by_contra hne
  exact h.header_unique category hcategory category' hcategory' hne spelling hspelling hspelling'

/-- A header is no step. -/
theorem step?_eq_none_of_isHeader {category : Category} (hcategory : category ∈ headings)
    (hpasses : keywords.isHeader category line = true) : keywords.step? line = none := by
  obtain ⟨⟨spelling, title⟩, hfound⟩ := Option.isSome_iff_exists.mp hpasses
  obtain ⟨hspelling, rest, rfl, -⟩ := header?_eq_some hfound
  exact step?_header_of_diverge (h.step_header category hcategory spelling hspelling) rest

/-- A line that begins with a sign passes no test for keywords. -/
theorem passes_sign {c : Char} (hc : c ∈ signs) (hprobe : probe ∈ Probe.keywordTests)
    (rest : Text) : keywords.passes (c :: rest) probe = false := by
  rcases List.mem_append.mp hprobe with hmem | hmem
  · obtain ⟨category, hcategory, rfl⟩ := List.mem_map.mp hmem
    have hnone : keywords.header? category (c :: rest) = none :=
      Keywords.header?_sign (fun spelling hspelling =>
        (h.header_plain category hcategory spelling hspelling).1) hc rest
    rw [passes, isHeader, hnone]
    rfl
  · rw [List.mem_singleton.mp hmem, passes, Keywords.step?_sign (h.step_sign c hc)]
    rfl

theorem probe_eq_of_keyword (hprobe : probe ∈ Probe.keywordTests)
    (hother : other ∈ Probe.keywordTests) (hpasses : keywords.passes line probe = true)
    (hpasses' : keywords.passes line other = true) : probe = other := by
  rcases List.mem_append.mp hprobe with hmem | hmem <;>
    rcases List.mem_append.mp hother with hmem' | hmem'
  · obtain ⟨category, hcategory, rfl⟩ := List.mem_map.mp hmem
    obtain ⟨category', hcategory', rfl⟩ := List.mem_map.mp hmem'
    rw [h.category_eq hcategory hcategory' hpasses hpasses']
  · obtain ⟨category, hcategory, rfl⟩ := List.mem_map.mp hmem
    rw [List.mem_singleton.mp hmem', passes, h.step?_eq_none_of_isHeader hcategory hpasses]
      at hpasses'
    exact absurd hpasses' (by decide)
  · obtain ⟨category, hcategory, rfl⟩ := List.mem_map.mp hmem'
    rw [List.mem_singleton.mp hmem, passes, h.step?_eq_none_of_isHeader hcategory hpasses']
      at hpasses
    exact absurd hpasses (by decide)
  · rw [List.mem_singleton.mp hmem, List.mem_singleton.mp hmem']

/-- A line passes at most one test. -/
theorem probe_eq (hprobe : probe ∈ Probe.all) (hother : other ∈ Probe.all)
    (hpasses : keywords.passes line probe = true) (hpasses' : keywords.passes line other = true) :
    probe = other := by
  -- Keywords and signs begin differently, so both tests are of one sort.
  rcases mem_keywordTests_or_sign hprobe hpasses with hword | ⟨c, hc, rest, rfl⟩ <;>
    rcases mem_keywordTests_or_sign hother hpasses' with hword' | ⟨c', hc', rest', hline⟩
  · exact h.probe_eq_of_keyword hword hword' hpasses hpasses'
  · rw [hline, h.passes_sign (other.signs_subset hc') hword] at hpasses
    exact absurd hpasses (by decide)
  · rw [h.passes_sign (probe.signs_subset hc) hword'] at hpasses'
    exact absurd hpasses' (by decide)
  · obtain ⟨rfl, -⟩ := List.cons.inj hline
    exact Probe.eq_of_mem_signs hc hc'

end Unambiguous

end Keywords

/-! ## 2. Readers -/

/-- The test by which a reader recognises a line, if it makes one. -/
def LineKind.probe? : LineKind → Option Probe
  | .tags => some .tag
  | .feature => some (.header .feature)
  | .rule => some (.header .rule)
  | .scenario category _ => some (.header category)
  | .examples => some (.header .examples)
  | .background | .repeatedBackground => some (.header .background)
  | .step => some .step
  | .fence => some .fence
  | .firstRow => some .row
  | .groupDescription | .statementDescription | .docstring _ | .examplesRow _ | .nextRow _ => none

variable {s : Session} {raw : Text} {kind other : LineKind} {probe : Probe}

/-- A line that is recognised passes the test. -/
theorem LineKind.passes_of_fits (hprobe : kind.probe? = some probe)
    (hfits : kind.fits s raw = true) : s.keywords.passes (trim raw) probe = true := by
  cases kind with
  | fence =>
    obtain rfl := Option.some.inj hprobe
    rw [Keywords.passes, trim, Fence.open?_trimEnd]
    exact hfits
  | repeatedBackground =>
    obtain rfl := Option.some.inj hprobe
    simp only [fits, Bool.and_eq_true] at hfits
    exact hfits.2
  | groupDescription | statementDescription | docstring | examplesRow | nextRow =>
    simp [probe?] at hprobe
  | _ =>
    obtain rfl := Option.some.inj hprobe
    exact hfits

namespace Mode

/-- The readers that make no test come last. -/
theorem kinds_eq (mode : Mode) :
    mode.kinds = mode.kinds.filter (·.probe?.isSome) ++ mode.kinds.filter (·.probe?.isNone) := by
  cases mode <;> rfl

/-- The readers of a mode make different tests. -/
theorem nodup_probe? (mode : Mode) :
    ((mode.kinds.filter (·.probe?.isSome)).map (·.probe?)).Nodup := by
  cases mode with
  | docstring | examples | stepTable => exact List.nodup_nil
  | _ => decide

theorem probe_mem_all (mode : Mode) :
    ∀ kind ∈ mode.kinds, kind.probe?.all (· ∈ Probe.all) = true := by
  cases mode with
  | docstring | examples | stepTable =>
    intro kind hkind
    rw [List.mem_singleton.mp hkind]
    rfl
  | _ => decide

end Mode

namespace Keywords.Unambiguous

variable (h : s.keywords.Unambiguous)
include h

/-- Of the readers of a mode that make a test at most one recognises a line. -/
theorem kind_eq (hkind : kind ∈ s.mode.kinds.filter (·.probe?.isSome))
    (hother : other ∈ s.mode.kinds.filter (·.probe?.isSome)) (hfits : kind.fits s raw = true)
    (hfits' : other.fits s raw = true) : kind = other := by
  obtain ⟨hmem, hsome⟩ := List.mem_filter.mp hkind
  obtain ⟨hmem', hsome'⟩ := List.mem_filter.mp hother
  obtain ⟨probe, hprobe⟩ := Option.isSome_iff_exists.mp hsome
  obtain ⟨probe', hprobe'⟩ := Option.isSome_iff_exists.mp hsome'
  have hknown : probe ∈ Probe.all := by
    simpa [hprobe] using s.mode.probe_mem_all kind hmem
  have hknown' : probe' ∈ Probe.all := by
    simpa [hprobe'] using s.mode.probe_mem_all other hmem'
  have hsame := h.probe_eq hknown hknown' (LineKind.passes_of_fits hprobe hfits)
    (LineKind.passes_of_fits hprobe' hfits')
  exact List.inj_on_of_nodup_map s.mode.nodup_probe? hkind hother (by rw [hprobe, hprobe', hsame])

/-- The readers of a mode that make a test can make them in any order. -/
theorem read_perm {order : List LineKind}
    (hperm : order.Perm (s.mode.kinds.filter (·.probe?.isSome))) (raw : Text) :
    (recognise ((order ++ s.mode.kinds.filter (·.probe?.isNone)).map LineKind.reader) s raw).getD
        (.error (s.unexpected raw)) = s.read raw := by
  have htested : order.find? (fun kind => (kind.reader s raw).isSome) =
      (s.mode.kinds.filter (·.probe?.isSome)).find? fun kind => (kind.reader s raw).isSome := by
    apply List.find?_eq_find?_of_perm hperm
    rintro kind ⟨hkind, hsome⟩ other ⟨hother, hsome'⟩
    rw [LineKind.isSome_reader] at hsome hsome'
    exact h.kind_eq (hperm.subset hkind) (hperm.subset hother) hsome hsome'
  have hfound : (order ++ s.mode.kinds.filter (·.probe?.isNone)).find?
      (fun kind => (kind.reader s raw).isSome) =
        s.mode.kinds.find? fun kind => (kind.reader s raw).isSome := by
    conv_rhs => rw [s.mode.kinds_eq]
    rw [List.find?_append, List.find?_append, htested]
  unfold Session.read
  rw [Mode.readers_eq_map_kinds, recognise_map_reader, recognise_map_reader, hfound]

end Keywords.Unambiguous

/-! ## 3. Diagnosis -/

/-- The headers that a diagnosis looks for. -/
def diagnosedCategories : List Category := [.feature, .rule, .background, .scenario, .outline]

/-- What is said about a header that does not fit. -/
def Session.headerReason (s : Session) : Category → Reason
  | .feature => if s.feature.isSome then .secondFeature else .misplaced .feature
  | .background => s.backgroundReason
  | .scenario => s.scenarioReason .scenario
  | .outline => s.scenarioReason .outline
  | category => .misplaced category

/-- What is said about a line that is no header. -/
def Session.plainReason (s : Session) : Option Reason :=
  if s.entry = .feature ∧ s.feature.isNone then some .noFeature else none

theorem find?_cons_map_or {α β : Type} (p : α → Bool) (f : α → β) (a : α) (list : List α)
    (fallback : Option β) :
    (((a :: list).find? p).map f).or fallback =
      if p a then some (f a) else ((list.find? p).map f).or fallback := by
  rw [List.find?_cons]
  cases p a <;> rfl

/-- A diagnosis goes through the headers in order. -/
theorem Session.diagnose_eq (s : Session) (raw : Text) :
    s.diagnose raw =
      ((diagnosedCategories.find? fun category => s.keywords.isHeader category (trim raw)).map
        s.headerReason).or s.plainReason := by
  unfold diagnosedCategories
  simp only [find?_cons_map_or, List.find?_nil, Option.map_none, Option.none_or]
  rfl

/-- Going through them in another order gives the same diagnosis. -/
theorem Keywords.Unambiguous.diagnose_perm {s : Session} (h : s.keywords.Unambiguous)
    {order : List Category} (hperm : order.Perm diagnosedCategories) (raw : Text) :
    s.diagnose raw =
      ((order.find? fun category => s.keywords.isHeader category (trim raw)).map
        s.headerReason).or s.plainReason := by
  have hheadings : order ⊆ headings := by
    intro category hcategory
    have hknown : diagnosedCategories ⊆ headings := by decide
    exact hknown (hperm.subset hcategory)
  rw [s.diagnose_eq, List.find?_eq_find?_of_perm hperm]
  rintro category ⟨hcategory, hpasses⟩ other ⟨hother, hpasses'⟩
  exact h.category_eq (hheadings hcategory) (hheadings hother) hpasses hpasses'

/-! ## 4. The bundled languages -/

namespace Builtin

theorem step_sign : ∀ language ∈ languages, ∀ c ∈ signs,
    ∀ step ∈ language.keywords.stepAliases, diverge [c] step.2 = true := by
  decide +kernel

theorem french_unambiguous : french.Unambiguous where
  header_plain := by decide +kernel
  header_unique := by decide +kernel
  step_header := by decide +kernel
  step_sign := step_sign ⟨"fr".toList, french⟩ (by simp [languages])
  longestFirst := french_longestFirst

theorem unambiguous_of_mem {language : Language} (hlanguage : language ∈ languages) :
    language.keywords.Unambiguous := by
  rcases clear_or_french language hlanguage with hclear | rfl
  · exact hclear.unambiguous (step_sign language hlanguage)
  · exact french_unambiguous

/-- In every bundled language a line passes at most one test, so it does not matter
    in which order the readers make their tests, nor in which order a diagnosis goes
    through the headers.  The alias by which a step is recognised is the longest one
    of those that fit the line. -/
theorem keywords_unambiguous {language : Language} (hlanguage : language ∈ languages) :
    (∀ line, ∀ probe ∈ Probe.all, ∀ other ∈ Probe.all,
      language.keywords.passes line probe = true →
        language.keywords.passes line other = true → probe = other) ∧
    (∀ (s : Session) (raw : Text), s.keywords = language.keywords →
      (∀ order : List LineKind, order.Perm (s.mode.kinds.filter (·.probe?.isSome)) →
        (recognise ((order ++ s.mode.kinds.filter (·.probe?.isNone)).map LineKind.reader) s
          raw).getD (.error (s.unexpected raw)) = s.read raw) ∧
      ∀ order : List Category, order.Perm diagnosedCategories →
        s.diagnose raw =
          ((order.find? fun category => s.keywords.isHeader category (trim raw)).map
            s.headerReason).or s.plainReason) ∧
    ∀ line found, language.keywords.step? line = some found →
      ((found.type, found.spelling) ∈ language.keywords.stepAliases ∧
        (afterAnyCase? found.spelling line).isSome = true) ∧
      ∀ step ∈ language.keywords.stepAliases, (afterAnyCase? step.2 line).isSome = true →
        step.2 = found.spelling ∨ step.2.length < found.spelling.length := by
  have h := unambiguous_of_mem hlanguage
  refine ⟨?_, ?_, ?_⟩
  · intro line probe hprobe other hother hpasses hpasses'
    exact h.probe_eq hprobe hother hpasses hpasses'
  · intro s raw hkeywords
    rw [← hkeywords] at h
    exact ⟨fun _ hperm => h.read_perm hperm raw, fun _ hperm => h.diagnose_perm hperm raw⟩
  · intro line found hfound
    obtain ⟨hmem, rest, hrest, -⟩ := Keywords.exists_of_step? hfound
    refine ⟨⟨hmem, by simp [hrest]⟩, ?_⟩
    intro step hstep hfits
    exact h.longestFirst.eq_or_length_lt hfound hstep hfits

/-- In French one keyword can continue another, for a header as well as for a step. -/
theorem keywords_unambiguous_french :
    (french.passes "Exemples: a".toList (.header .examples) = true ∧
      ∀ probe ∈ Probe.all, french.passes "Exemples: a".toList probe = true →
        probe = .header .examples) ∧
    ∃ found, french.step? "ET QUE b".toList = some found ∧ found.spelling = "Et que ".toList ∧
      (afterAnyCase? "Et ".toList "ET QUE b".toList).isSome = true ∧
      ∀ step ∈ french.stepAliases, (afterAnyCase? step.2 "ET QUE b".toList).isSome = true →
        step.2 = found.spelling ∨ step.2.length < found.spelling.length := by
  have hmem : (⟨"fr".toList, french⟩ : Language) ∈ languages := by simp [languages]
  obtain ⟨hone, -, hlongest⟩ := keywords_unambiguous hmem
  have hexamples : french.passes "Exemples: a".toList (.header .examples) = true := by
    decide +kernel
  have hfound : french.step? "ET QUE b".toList =
      some ⟨"Et que ".toList, .and, "b".toList⟩ := by
    decide +kernel
  refine ⟨⟨hexamples, ?_⟩, _, hfound, rfl, by decide +kernel, (hlongest _ _ hfound).2⟩
  intro probe hprobe hpasses
  exact hone _ probe hprobe _ (by decide) hpasses hexamples

end Builtin

end Gherkin
