/-
  Gherkin/Proofs/RoundTrip/Draft.lean
  ===================================
  **What a session has read so far, lines forgotten.**

  A draft is a tree under construction without the numbers of its lines: the
  group that is being read, where it will stand, and what is open below it.
  `Session.Holds` says that a session has read a given draft; a table that is
  still open counts as read.

  `Reads P raws Q` says that a stretch of lines leads from sessions with `P` to
  sessions with `Q`.  Stretches are put together in the order in which they
  stand, and `Holds.feed` reduces the reading of one line to what its readers
  do.
-/
import Gherkin.Proofs.Session.Coherence
import Gherkin.Proofs.Tree.Renumbering

namespace Gherkin

open Text

/-! ## 1. Stretches of lines -/

/-- The lines hold no line feeds, and reading them leads from `P` to `Q`. -/
structure Reads (P : Session → Prop) (raws : List Text) (Q : Session → Prop) : Prop where
  single : ∀ raw ∈ raws, SingleLine raw
  run : ∀ s, P s → ∃ t, s.feedAll raws = .ok t ∧ Q t

namespace Reads

variable {P Q R : Session → Prop} {raws more : List Text}

theorem nil (h : ∀ s, P s → Q s) : Reads P [] Q :=
  ⟨by simp, fun s hs => ⟨s, rfl, h s hs⟩⟩

theorem line {raw : Text} (hraw : SingleLine raw)
    (h : ∀ s, P s → ∃ t, s.feed raw = .ok t ∧ Q t) : Reads P [raw] Q := by
  refine ⟨by simpa using hraw, ?_⟩
  intro s hs
  obtain ⟨t, hfeed, ht⟩ := h s hs
  refine ⟨t, ?_, ht⟩
  rw [Session.feedAll_cons, hfeed]
  rfl

theorem append (h : Reads P raws Q) (h' : Reads Q more R) : Reads P (raws ++ more) R := by
  constructor
  · intro raw hraw
    exact (List.mem_append.mp hraw).elim (h.single raw) (h'.single raw)
  · intro s hs
    obtain ⟨t, hrun, ht⟩ := h.run s hs
    obtain ⟨u, hmore, hu⟩ := h'.run t ht
    refine ⟨u, ?_, hu⟩
    rw [Session.feedAll_append, hrun]
    exact hmore

theorem mono (h : Reads P raws Q) (hQ : ∀ s, Q s → R s) : Reads P raws R := by
  refine ⟨h.single, ?_⟩
  intro s hs
  obtain ⟨t, hrun, ht⟩ := h.run s hs
  exact ⟨t, hrun, hQ t ht⟩

theorem anti (h : Reads P raws Q) (hP : ∀ s, R s → P s) : Reads R raws Q :=
  ⟨h.single, fun s hs => h.run s (hP s hs)⟩

/-- The lines of the entries of a list, when `I` says what holds behind the
    first entries. -/
theorem flatMap {α : Type} {list : List α} {f : α → List Text} {I : List α → Session → Prop}
    (h : ∀ done a rest, list = done ++ a :: rest → Reads (I done) (f a) (I (done ++ [a]))) :
    Reads (I []) (list.flatMap f) (I list) := by
  -- The induction is on what is still to come, behind any part that is done.
  have hrest : ∀ done rest, list = done ++ rest →
      Reads (I done) (rest.flatMap f) (I (done ++ rest)) := by
    intro done rest hlist
    induction rest generalizing done with
    | nil => exact nil fun s hs => by simpa using hs
    | cons a rest ih =>
      have htail := ih (done ++ [a]) (by simpa using hlist)
      rw [List.append_assoc] at htail
      exact (h done a rest hlist).append htail
  exact hrest [] list rfl

end Reads

/-! ## 2. Drafts -/

/-- Where the group that is being read will stand in its feature. -/
inductive Place where
  /-- Before the first rule. -/
  | top (feature : Feature)
  /-- Behind the rules that the feature already has. -/
  | rules (feature : Feature)

namespace Place

def feature : Place → Group → Feature
  | .top feature, group => { feature with top := group }
  | .rules feature, _ => feature

def rule : Place → Group → Option Group
  | .top _, _ => none
  | .rules _, group => some group

/-- The feature with the group in its place. -/
def finish : Place → Group → Feature
  | .top feature, group => { feature with top := group }
  | .rules feature, group => { feature with rules := feature.rules ++ [group] }

end Place

/-- A tree under construction: the group that is being read, the statement that
    is open below it, and the tags that wait for the next one. -/
structure Draft where
  place : Place
  group : Group
  statement : Option Statement
  tags : List Tag

/-- The group with what is open below it. -/
def Draft.closed (d : Draft) : Group := d.group.closeAll d.statement

namespace Session

/-- The slots of a session are those of a draft. -/
structure Shows (language : Language) (modes : Mode → Bool) (d : Draft) (s : Session) : Prop where
  entry : s.entry = .feature
  chosen : s.chosen = some language
  mode : modes s.mode = true
  tags : s.tags.map (·.renumber unnumbered) = d.tags
  feature : s.feature.map (·.renumber unnumbered) = some (d.place.feature d.group)
  rule : s.rule.map (·.renumber unnumbered) = d.place.rule d.group
  statement : s.statement.map (·.renumber unnumbered) = d.statement

/-- A session has read a draft and goes on in one of the given modes. -/
structure Holds (language : Language) (modes : Mode → Bool) (d : Draft) (s : Session) : Prop where
  sound : s.Sound
  shows : s.closeTable.Shows language modes d

/-- The session has read the group and can go on with the next one. -/
def HoldsGroup (language : Language) (place : Place) (group : Group) (s : Session) : Prop :=
  ∃ opened open?, s.Holds language Mode.isOpen ⟨place, opened, open?, []⟩ ∧
    opened.closeAll open? = group

/-- The session has read the feature, if the text ends here. -/
def HoldsFeature (language : Language) (feature : Feature) (s : Session) : Prop :=
  ∃ place group, s.HoldsGroup language place group ∧ place.finish group = feature

variable {language : Language} {modes next : Mode → Bool} {d : Draft} {s : Session}

theorem Shows.mono (h : s.Shows language modes d) (hmodes : ∀ mode, modes mode = true → next mode = true) :
    s.Shows language next d :=
  { h with mode := hmodes _ h.mode }

theorem Holds.mono (h : s.Holds language modes d)
    (hmodes : ∀ mode, modes mode = true → next mode = true) : s.Holds language next d :=
  ⟨h.sound, h.shows.mono hmodes⟩

theorem Shows.keywords (h : s.Shows language modes d) : s.keywords = language.keywords := by
  simp [Session.keywords, Session.language, h.chosen]

/-! ## 3. One line -/

/-- Counting a line does not change what has been read. -/
theorem Shows.enter (h : s.Shows language modes d) (raw : Text) :
    (s.enter raw).Shows language modes d := by
  refine ⟨h.entry, ?_, h.mode, h.tags, h.feature, h.rule, h.statement⟩
  simp [Session.enter, Session.language, h.chosen]

theorem Shows.closeTable_enter (h : s.closeTable.Shows language modes d) (raw : Text) :
    (s.enter raw).closeTable.Shows language modes d := by
  rw [closeTable_eq] at h ⊢
  refine ⟨h.entry, ?_, h.mode, h.tags, h.feature, h.rule, h.statement⟩
  have hchosen : s.chosen = some language := h.chosen
  simp [Session.enter, Session.language, hchosen]

/-- Outside a table a session holds what it shows. -/
theorem Shows.holds (h : s.Shows language modes d) (hsound : s.Sound)
    (hleft : s.mode.left = s.mode) : s.Holds language modes d :=
  ⟨hsound, (closeTable_of_left hleft).symm ▸ h⟩

/-- A line that is no row goes to the readers of the mode behind the table. -/
theorem Holds.feed_of_read {raw : Text} {Q : Session → Prop} (h : s.Holds language modes d)
    (hvisible : trim raw ≠ [] ∧ leads '#' (trim raw) = false)
    (hrow : leads '|' (trim raw) = false ∨ modes .steps = false)
    (hread : ∀ u : Session, u.Sound → u.Shows language modes d → ∃ t, u.read raw = .ok t ∧ Q t) :
    ∃ t, s.feed raw = .ok t ∧ t.Sound ∧ Q t := by
  have hmode : modes s.mode.left = true := by
    have := h.shows.mode
    rwa [closeTable_eq] at this
  have hskips : s.skips raw = false := by
    simp [skips, hvisible.1]
  have hcomment : s.isComment raw = false := by
    simp [isComment, hvisible.2]
  have htable : s.inTable = true → leads '|' (trim raw) = false := by
    intro htable
    rcases hrow with hrow | hsteps
    · exact hrow
    · have hleft : s.mode.left = .steps := by
        unfold inTable at htable
        cases hs : s.mode <;> simp_all [Mode.left]
      rw [hleft, hsteps] at hmode
      exact Bool.noConfusion hmode
  have hfacing := facing_eq_closeTable htable
  have hfeed : s.feed raw = (s.facing raw).read raw := by
    rw [feed_eq, hskips, hcomment]
    rfl
  have hshows : (s.facing raw).Shows language modes d := by
    rw [hfacing]
    exact h.shows.closeTable_enter raw
  obtain ⟨t, hread, ht⟩ := hread _ (h.sound.facing raw) hshows
  have hfed : s.feed raw = .ok t := by rw [hfeed, hread]
  exact ⟨t, hfed, h.sound.feed hfed, ht⟩

theorem Holds.feed {raw : Text} {e : Draft} (h : s.Holds language modes d)
    (hvisible : trim raw ≠ [] ∧ leads '#' (trim raw) = false)
    (hrow : leads '|' (trim raw) = false ∨ modes .steps = false)
    (hread : ∀ u : Session, u.Sound → u.Shows language modes d →
      ∃ t, u.read raw = .ok t ∧ t.closeTable.Shows language next e) :
    ∃ t, s.feed raw = .ok t ∧ t.Holds language next e := by
  obtain ⟨t, hfeed, hsound, ht⟩ := h.feed_of_read hvisible hrow hread
  exact ⟨t, hfeed, hsound, ht⟩

end Session

end Gherkin
