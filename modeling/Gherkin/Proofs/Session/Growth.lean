/-
  Gherkin/Proofs/Session/Growth.lean
  ==================================
  **Reading on never changes what is closed.**

  Suppose a text is cut after some of its lines, and the part parses.  Then the
  tree of the part is the beginning of the tree of every longer part.  Each line
  extends the tree that would have come out before it (`Draft.Next.extends`), so
  a stretch of lines does, too (`Drafts.feedAll_extends`).

  The shorter text ends early: its open table is attached, its open docstring is
  dropped and its open statement is closed.  A draft counts an open table as read
  and leaves an open docstring out, so both trees are finished drafts of the same
  reading.
-/
import Gherkin.Proofs.Session.Drafting
import Gherkin.Proofs.Session.Faithfulness
import Gherkin.Proofs.Session.Locality

namespace Gherkin

open Text

/-! ## 1. One line -/

/-- A statement with more steps or more Examples blocks. -/
structure Statement.Extends (a b : Statement) : Prop where
  kind : b.isScenario = a.isScenario
  caption : b.caption = a.caption
  outline : b.blocks?.isSome = a.blocks?.isSome
  steps : Lengthens (fun _ _ => True) a.steps b.steps

theorem Statement.Revised.extends {a b : Statement} (h : a.Revised b) : a.Extends b := by
  refine ⟨h.kind, h.caption, ?_, h.steps⟩
  have hblocks := congrArg Option.isSome h.blockCaptions
  simpa [Statement.blockCaptions] using hblocks

theorem Statement.Extends.mapBlocks (f : List Examples → List Examples) (statement : Statement) :
    statement.Extends (statement.mapBlocks f) := by
  constructor
  · exact isScenario_mapBlocks f statement
  · cases statement <;> rfl
  · rw [blocks?_mapBlocks, Option.isSome_map]
  · rw [steps_mapBlocks]
    exact .refl (fun _ => trivial) statement.steps

namespace Group.Extends

theorem close (group : Group) {a b : Statement} (h : a.Extends b) :
    (group.close a).Extends (group.close b) := by
  have hkind := h.kind
  cases a with
  | background old =>
    cases b with
    | background new => exact ⟨rfl, rfl, .refl .refl group.scenarios⟩
    | scenario new => simp [Statement.isScenario] at hkind
  | scenario old =>
    cases b with
    | background new => simp [Statement.isScenario] at hkind
    | scenario new =>
      have hcaption := h.caption
      simp only [Statement.caption, Caption.mk.injEq] at hcaption
      exact ⟨rfl, rfl, .last group.scenarios [] ⟨hcaption.1, hcaption.2, h.outline, h.steps⟩⟩

theorem start (group : Group) (statement : Statement) : group.Extends (group.close statement) := by
  cases statement with
  | background node => exact ⟨rfl, rfl, .refl .refl group.scenarios⟩
  | scenario node => exact ⟨rfl, rfl, .append .refl group.scenarios [node]⟩

end Group.Extends

theorem Place.extends {place : Place} (hfits : place.Fits) {a b : Group} (h : a.Extends b) :
    (place.finish a).Extends (place.finish b) := by
  cases place with
  | top feature => exact ⟨rfl, rfl, h, .refl .refl feature.rules, absurd hfits⟩
  | rules feature => exact ⟨rfl, rfl, .refl feature.top, .last feature.rules [] h, fun _ => rfl⟩

theorem Draft.Next.extends {line : Nat} {new : List Tag} {d e : Draft} (hfits : d.place.Fits)
    (h : Draft.Next line new d e) : d.finish.Extends e.finish := by
  cases h with
  | idle => exact .refl d.finish
  | tags new => exact .refl d.finish
  | @rule _ header hline =>
    exact ⟨rfl, rfl, .refl d.finish.top, .append .refl d.finish.rules [.start header d.tags],
      fun _ => rfl⟩
  | @scenario _ header blocks hline hblocks =>
    exact Place.extends hfits
      (.start d.closed (.scenario ⟨header, d.tags, [], [], blocks⟩))
  | examples hline hstatement hblocks =>
    apply Place.extends hfits
    unfold Draft.closed
    rw [hstatement]
    exact .close d.group (.mapBlocks _ _)
  | @background _ header hline htags hstatement =>
    apply Place.extends hfits
    unfold Draft.closed
    rw [hstatement]
    exact .start d.group (.background ⟨header, [], []⟩)
  | description text hstatement =>
    apply Place.extends hfits
    unfold Draft.closed
    rw [hstatement]
    exact ⟨rfl, rfl, .refl .refl d.group.scenarios⟩
  | revision hstatement hrevised =>
    apply Place.extends hfits
    unfold Draft.closed
    rw [hstatement]
    exact .close d.group hrevised.extends

/-! ## 2. Many lines -/

theorem Session.Drafts.feedAll_extends {s t : Session} {d : Draft} {raws : List Text}
    (h : s.Drafts d) (hsound : s.Sound) (hfeed : s.feedAll raws = .ok t) :
    ∃ e, t.Drafts e ∧ d.finish.Extends e.finish := by
  have hrun := feedAll_induction
    (P := fun u _ => u.Sound ∧ ∃ e, u.Drafts e ∧ d.finish.Extends e.finish)
    hfeed ⟨hsound, d, h, .refl d.finish⟩ (by
      rintro u raw rest next ⟨hu, e, he, hextends⟩ hnext
      obtain ⟨e', hstep, he'⟩ := he.feed hu hnext
      exact ⟨hu.feed hnext, e', he', hextends.trans (hstep.extends he.place)⟩)
  exact hrun.2

/-- Behind two readings of which one goes on where the other ends. -/
theorem Session.finishFeature_continuedBy {t u : Session} {raws : List Text} {f g : Feature}
    (hsound : t.Sound) (ht : t.mode = .start ∨ ∃ d, t.Drafts d) (hf : t.finishFeature = some f)
    (hfeed : t.feedAll raws = .ok u) (hg : u.finishFeature = some g) : f.ContinuedBy g := by
  rcases ht with hstart | ⟨d, hd⟩
  · simp [finishFeature_of_start hsound hstart] at hf
  · obtain ⟨e, he, hextends⟩ := hd.feedAll_extends hsound hfeed
    rw [hd.finishFeature, Option.some.injEq] at hf
    rw [he.finishFeature, Option.some.injEq] at hg
    subst hf hg
    exact hextends.continuedBy

/-! ## 3. Parsers -/

namespace Parser

variable {parser : Parser} {text : Text} {source : Option Text}

/-- A text without lines has nothing in it. -/
theorem feature_firstLines_zero (f : Feature) :
    parser.feature (firstLines 0 text) source ≠ .ok (some f) := by
  intro h
  obtain ⟨s, t, hsession, hfeed, hfinish⟩ := feature_eq_ok h
  have hstart := start_of_session hsession
  have hsound := Session.Sound.of_session hsession
  have hskips : s.skips [] = true := by
    simp [Session.skips, Session.inDocstring, hstart]
    rfl
  have hlines : lines (firstLines 0 text) = [[]] := rfl
  rw [hlines, Session.feedAll_cons, Session.feed_eq, hskips] at hfeed
  obtain rfl : s.enter [] = t := by simpa [Except.bind] using hfeed
  have hnone := Session.finishFeature_of_start (hsound.enter []) hstart
  rw [hnone] at hfinish
  simp at hfinish

/-- The tree of the first lines of a text is the beginning of the tree of more
    of its lines. -/
theorem feature_firstLines_continuedBy {count count' : Nat} (hcount : count ≤ count')
    {f g : Feature} (hf : parser.feature (firstLines count text) source = .ok (some f))
    (hg : parser.feature (firstLines count' text) source = .ok (some g)) : f.ContinuedBy g := by
  have hpos : 0 < count := by
    rcases Nat.eq_zero_or_pos count with rfl | hpos
    · exact absurd hf (feature_firstLines_zero f)
    · exact hpos
  obtain ⟨s, t, hsession, hshort, hf⟩ := feature_eq_ok hf
  obtain ⟨s', u, hsession', hlong, hg⟩ := feature_eq_ok hg
  obtain rfl : s = s' := by simpa [hsession] using hsession'
  rw [lines_firstLines hpos] at hshort
  rw [lines_firstLines (by omega)] at hlong
  -- The longer reading goes through the state behind the shorter one.
  have hsplit : (lines text).take count' =
      (lines text).take count ++ ((lines text).take count').drop count := by
    have htake := List.take_append_drop count ((lines text).take count')
    rw [List.take_take, Nat.min_eq_left hcount] at htake
    exact htake.symm
  rw [hsplit, Session.feedAll_append, hshort] at hlong
  obtain ⟨hsound, ht⟩ := Session.drafts_of_feedAll (Session.Sound.of_session hsession)
    (start_of_session hsession) hshort
  exact Session.finishFeature_continuedBy hsound ht hf hlong hg

/-- For instance where the shorter text ends inside the table of a step. -/
theorem feature_firstLines_continuedBy_table :
    ∃ text f g, standard.feature (firstLines 6 text) none = .ok (some f) ∧
      standard.feature (firstLines 11 text) none = .ok (some g) ∧
      f.scenarios.map (·.2.steps.map (·.line)) = [[4, 5]] ∧
      g.scenarios.map (·.2.steps.map (·.line)) = [[4, 5, 8], [], []] ∧ f.ContinuedBy g := by
  have hread : ∃ f g,
      standard.feature (firstLines 6
          ("Feature: F\nRule: R\nScenario: S\nGiven a\nWhen b:\n| x |\n| y |\n" ++
            "Then c\nScenario: T\nRule: Q\nScenario: U").toList) none = .ok (some f) ∧
        standard.feature (firstLines 11
          ("Feature: F\nRule: R\nScenario: S\nGiven a\nWhen b:\n| x |\n| y |\n" ++
            "Then c\nScenario: T\nRule: Q\nScenario: U").toList) none = .ok (some g) ∧
        f.scenarios.map (·.2.steps.map (·.line)) = [[4, 5]] ∧
        g.scenarios.map (·.2.steps.map (·.line)) = [[4, 5, 8], [], []] :=
    ⟨_, _, rfl, rfl, rfl, rfl⟩
  obtain ⟨f, g, hf, hg, hshort, hlong⟩ := hread
  exact ⟨_, f, g, hf, hg, hshort, hlong, feature_firstLines_continuedBy (by omega) hf hg⟩

end Parser

end Gherkin
