/-
  Gherkin/Proofs/Tree/Captions.lean
  =================================
  **Headers with the tags above them.**

  The caption of a node is its header with its tags.  `Feature.captions` lists
  the captions of a feature from top to bottom; a background has a caption
  without tags.

  `TagsSettled` says how tags are shared out among captions: each tag goes to the
  next header below it, and what is declared behind the last header waits.  It is
  kept by one more row of tags (`TagsSettled.declare`) and by one more header,
  which takes all the tags that wait (`TagsSettled.attach`).
-/
import Gherkin.Proofs.Tree.Walk

namespace Gherkin

/-! ## 1. Captions -/

structure Caption where
  header : Header
  tags : List Tag
deriving DecidableEq

def Examples.caption (node : Examples) : Caption := ⟨node.header, node.tags⟩

def Group.caption (group : Group) : Caption := ⟨group.header, group.tags⟩

namespace Statement

def caption : Statement → Caption
  | .background node => ⟨node.header, []⟩
  | .scenario node => ⟨node.header, node.tags⟩

/-- The captions of the Examples blocks, if the statement is an outline. -/
def blockCaptions (statement : Statement) : Option (List Caption) :=
  statement.blocks?.map (·.map Examples.caption)

def captions (statement : Statement) : List Caption :=
  statement.caption :: statement.blockCaptions.getD []

end Statement

def Group.captions (group : Group) : List Caption :=
  group.caption :: group.statements.flatMap (·.captions)

def Feature.captions (feature : Feature) : List Caption := feature.groups.flatMap (·.captions)

/-- A finished statement comes behind those before it.  A background does so
    because it is the first one. -/
theorem Group.captions_close {group : Group} {statement : Statement}
    (hfresh : statement.isScenario = false → group.background = none ∧ group.scenarios = []) :
    (group.close statement).captions = group.captions ++ statement.captions := by
  cases statement with
  | background node =>
    obtain ⟨hbackground, hscenarios⟩ := hfresh rfl
    simp [Group.close, Group.captions, Group.caption, Group.statements, hbackground, hscenarios]
  | scenario node =>
    simp [Group.close, Group.captions, Group.caption, Group.statements, List.flatMap_map]

/-! ## 2. Sharing out tags -/

/-- The declared tags have been shared out among the captions, in the order of
    the text, and the pending ones are left over. -/
structure TagsSettled (declared : List Tag) (captions : List Caption) (pending : List Tag) :
    Prop where
  declared : declared = captions.flatMap (·.tags) ++ pending
  ordered : captions.Pairwise fun a b => a.header.line < b.header.line
  /-- A tag stands above its node, with no other header in between. -/
  attached : ∀ caption ∈ captions, ∀ tag ∈ caption.tags, tag.line < caption.header.line ∧
    ∀ other ∈ captions, ¬(tag.line < other.header.line ∧ other.header.line < caption.header.line)
  /-- A tag that is left over has no header below it. -/
  pending : ∀ tag ∈ pending, ∀ caption ∈ captions, caption.header.line < tag.line

namespace TagsSettled

variable {declared pending new : List Tag} {captions : List Caption}

theorem declare (h : TagsSettled declared captions pending)
    (hnew : ∀ tag ∈ new, ∀ caption ∈ captions, caption.header.line < tag.line) :
    TagsSettled (declared ++ new) captions (pending ++ new) := by
  refine ⟨?_, h.ordered, h.attached, ?_⟩
  · rw [h.declared, List.append_assoc]
  · intro tag htag
    rcases List.mem_append.mp htag with hold | hadded
    · exact h.pending tag hold
    · exact hnew tag hadded

theorem attach (h : TagsSettled declared captions pending) {header : Header}
    (hbelow : ∀ caption ∈ captions, caption.header.line < header.line)
    (htags : ∀ tag ∈ pending, tag.line < header.line) :
    TagsSettled declared (captions ++ [⟨header, pending⟩]) [] := by
  constructor
  · rw [h.declared, List.flatMap_append, List.flatMap_singleton, List.append_nil]
  · rw [List.pairwise_append]
    refine ⟨h.ordered, List.pairwise_singleton _ _, ?_⟩
    intro caption hcaption last hlast
    rw [List.mem_singleton.mp hlast]
    exact hbelow caption hcaption
  · intro caption hcaption tag htag
    rcases List.mem_append.mp hcaption with hold | hlast
    · obtain ⟨habove, hnone⟩ := h.attached caption hold tag htag
      refine ⟨habove, ?_⟩
      intro other hother
      rcases List.mem_append.mp hother with hother | hother
      · exact hnone other hother
      · -- The new header is below all others.
        have hnew := hbelow caption hold
        rw [List.mem_singleton.mp hother]
        simp only
        omega
    · rw [List.mem_singleton.mp hlast] at htag ⊢
      refine ⟨htags tag htag, ?_⟩
      intro other hother
      rcases List.mem_append.mp hother with hother | hother
      · have hpending := h.pending tag htag other hother
        simp only
        omega
      · rw [List.mem_singleton.mp hother]
        simp only
        omega
  · simp

end TagsSettled

end Gherkin
