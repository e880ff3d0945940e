/-
  Gherkin/Proofs/Tag/Sets.lean
  ============================
  **Which names a tag set has.**

  Extending a tag set takes one `@` sign off every name, old or new, and leaves
  out what is empty or has been seen.  A name that is bare to begin with is
  therefore kept as it stands (`BareName`), however often it is merged.

  Dropping what has been seen keeps the first mentions of the rest
  (`names_retain`), and what has been seen by then is what goes in
  (`mem_seen_retain`).  The additions go on from there (`names_foldl_push`), so a
  tag set is `List.eraseDups` of all the names that go into it, as if they had
  come at once (`extend_eq_eraseDups`).  Sets of bare names that are merged one
  after the other are merged at once (`merge_of_bare`,
  `eraseDups_eraseDups_append`).
-/
import Gherkin.Proofs.Text.Trimming
import Gherkin.TagSet

namespace Gherkin.TagSet

open Text

variable {name : Text} {seen names target additions : List Text}

/-! ## 1. The two phases -/

theorem removeAll_cons_right (names seen : List Text) (name : Text) :
    names.removeAll (name :: seen) = (names.removeAll seen).filter (!· == name) := by
  unfold List.removeAll
  rw [List.filter_filter]
  apply List.filter_congr
  intro other _
  simp [beq_eq_decide, Bool.not_or]

/-- What has been seen is left out, and of the rest the first mentions stay. -/
theorem names_retain (seen names : List Text) :
    (retain seen names).names = (names.removeAll seen).eraseDups := by
  induction names generalizing seen with
  | nil => rfl
  | cons name rest ih =>
    rw [retain, List.removeAll, List.filter_cons]
    by_cases hseen : seen.contains name = true
    · rw [if_pos hseen, if_neg (by simpa using hseen)]
      exact ih seen
    · rw [if_neg hseen, if_pos (by simpa using hseen), List.eraseDups_cons]
      show name :: (retain (name :: seen) rest).names = _
      rw [ih, removeAll_cons_right]
      rfl

theorem mem_seen_retain : name ∈ (retain seen names).seen ↔ name ∈ seen ∨ name ∈ names := by
  induction names generalizing seen with
  | nil => simp [retain]
  | cons first rest ih =>
    rw [retain]
    split
    · rename_i hseen
      have hfirst : first ∈ seen := by simpa using hseen
      rw [ih, List.mem_cons]
      constructor
      · exact Or.imp_right .inr
      · rintro (hold | rfl | hrest)
        exacts [.inl hold, .inl hfirst, .inr hrest]
    · show name ∈ (retain (first :: seen) rest).seen ↔ _
      rw [ih, List.mem_cons, List.mem_cons, or_assoc, or_left_comm]

/-- A name to be added: trimmed, bare, and not empty. -/
def bareName? (tag : Text) : Option Text :=
  let name := dropLead '@' (trim tag)
  if name.isEmpty then none else some name

theorem push_of_bareName?_eq_none {tag : Text} (h : bareName? tag = none) (progress : Progress) :
    progress.push tag = progress := by
  unfold bareName? at h
  simp only [ite_eq_left_iff, reduceCtorEq, imp_false, not_not] at h
  simp only [Progress.push, h, if_true]

theorem push_of_bareName?_eq_some {tag : Text} (h : bareName? tag = some name)
    (progress : Progress) :
    progress.push tag =
      if progress.seen.contains name then progress
      else ⟨progress.names ++ [name], name :: progress.seen⟩ := by
  unfold bareName? at h
  simp only [Option.ite_none_left_eq_some, Option.some.injEq] at h
  obtain ⟨hsome, rfl⟩ := h
  simp only [Progress.push, if_neg hsome]

/-- The additions that have not been seen go to the end, each at its first mention. -/
theorem names_foldl_push (additions : List Text) (progress : Progress) :
    (additions.foldl Progress.push progress).names =
      progress.names ++ ((additions.filterMap bareName?).removeAll progress.seen).eraseDups := by
  induction additions generalizing progress with
  | nil => exact (List.append_nil _).symm
  | cons tag rest ih =>
    rw [List.foldl_cons, ih]
    cases hname : bareName? tag with
    | none => rw [push_of_bareName?_eq_none hname, List.filterMap_cons_none hname]
    | some name =>
      rw [push_of_bareName?_eq_some hname, List.filterMap_cons_some hname]
      conv_rhs => rw [List.removeAll, List.filter_cons]
      by_cases hseen : progress.seen.contains name = true
      · rw [if_pos hseen, if_neg (by simpa using hseen)]
        rfl
      · rw [if_neg hseen, if_pos (by simpa using hseen), List.eraseDups_cons,
          removeAll_cons_right, List.append_assoc]
        rfl

/-- The two phases keep the first mentions of all names together. -/
theorem extend_eq_eraseDups (target additions : List Text) :
    extend target additions =
      (target.map (dropLead '@') ++ additions.filterMap bareName?).eraseDups := by
  have hseen : ∀ names : List Text,
      names.removeAll (retain [] (target.map (dropLead '@'))).seen =
        names.removeAll (target.map (dropLead '@')) := by
    intro names
    apply List.filter_congr
    intro name _
    simp [mem_seen_retain]
  have hall : (target.map (dropLead '@')).removeAll [] = target.map (dropLead '@') := by
    simp [List.removeAll]
  rw [extend, names_foldl_push, names_retain, hall, hseen, List.eraseDups_append]

theorem mem_extend :
    name ∈ extend target additions ↔
      (∃ other ∈ target, dropLead '@' other = name) ∨
        ∃ other ∈ additions, bareName? other = some name := by
  rw [extend_eq_eraseDups, List.mem_eraseDups, List.mem_append, List.mem_map, List.mem_filterMap]

/-! ## 2. Bare names -/

/-- There is nothing to take off the name. -/
structure BareName (name : Text) : Prop where
  ne_nil : name ≠ []
  trimmed : Trimmed name
  at_sign : leads '@' name = false

instance : DecidablePred BareName := fun name =>
  decidable_of_iff (name ≠ [] ∧ Trimmed name ∧ leads '@' name = false)
    ⟨fun h => ⟨h.1, h.2.1, h.2.2⟩, fun h => ⟨h.ne_nil, h.trimmed, h.at_sign⟩⟩

theorem BareName.dropLead {name : Text} (h : BareName name) : dropLead '@' name = name := by
  unfold Text.dropLead
  cases hafter : after? ['@'] name with
  | none => rfl
  | some rest =>
    have hat := h.at_sign
    rw [after?_eq_some_iff.mp hafter] at hat
    simp [leads] at hat

theorem BareName.bareName? {name : Text} (h : BareName name) : bareName? name = some name := by
  unfold TagSet.bareName?
  simp only [trim_eq_self h.trimmed, h.dropLead]
  rw [if_neg (by simpa using h.ne_nil)]

theorem BareName.mem_merge {base additions : List Text} {name : Text} (h : BareName name)
    (hmem : name ∈ base ∨ name ∈ additions) : name ∈ merge base additions := by
  unfold merge
  rw [mem_extend]
  rcases hmem with hmem | hmem
  · refine .inl ⟨name, ?_, h.dropLead⟩
    exact mem_extend.mpr (.inr ⟨name, hmem, h.bareName?⟩)
  · exact .inr ⟨name, hmem, h.bareName?⟩

/-! ## 3. First mentions -/

theorem filterMap_bareName? (additions : List Text) :
    additions.filterMap bareName? =
      ((additions.map trim).map (dropLead '@')).filter (!·.isEmpty) := by
  induction additions with
  | nil => rfl
  | cons tag rest ih =>
    rw [List.filterMap_cons, List.map_cons, List.map_cons, List.filter_cons, ← ih, bareName?]
    cases (dropLead '@' (trim tag)).isEmpty <;> rfl

theorem nodup_retain (seen names : List Text) : (retain seen names).names.Nodup := by
  induction names generalizing seen with
  | nil => exact List.nodup_nil
  | cons name rest ih =>
    rw [retain]
    split
    · exact ih seen
    · refine List.nodup_cons.mpr ⟨?_, ih _⟩
      rw [names_retain, List.mem_eraseDups, List.removeAll, List.mem_filter]
      simp

theorem nodup_eraseDups (names : List Text) : names.eraseDups.Nodup := by
  have hall : names.removeAll [] = names := by simp [List.removeAll]
  have hkept := nodup_retain [] names
  rwa [names_retain, hall] at hkept

theorem nodup_extend (target additions : List Text) : (extend target additions).Nodup := by
  rw [extend_eq_eraseDups]
  exact nodup_eraseDups _

/-! ## 4. Merging bare names -/

section Bare

variable {base : List Text}

theorem eraseDups_eq_self (h : names.Nodup) : names.eraseDups = names := by
  induction names with
  | nil => rfl
  | cons name rest ih =>
    obtain ⟨hnew, hrest⟩ := List.nodup_cons.mp h
    have hkept : rest.filter (!· == name) = rest := by
      apply List.filter_eq_self.mpr
      intro other hother
      have hne : other ≠ name := fun heq => hnew (heq ▸ hother)
      simpa using hne
    rw [List.eraseDups_cons, hkept, ih hrest]

/-- First mentions can be sought in the front part beforehand. -/
theorem eraseDups_eraseDups_append (names more : List Text) :
    (names.eraseDups ++ more).eraseDups = (names ++ more).eraseDups := by
  have hkept : more.removeAll names.eraseDups = more.removeAll names := by
    apply List.filter_congr
    intro name _
    simp [List.mem_eraseDups]
  rw [List.eraseDups_append, List.eraseDups_append, hkept,
    eraseDups_eq_self (nodup_eraseDups names)]

theorem map_dropLead_of_bare (h : ∀ name ∈ names, BareName name) :
    names.map (dropLead '@') = names := by
  conv_rhs => rw [← List.map_id names]
  exact List.map_congr_left fun name hname => (h name hname).dropLead

theorem filterMap_bareName?_of_bare (h : ∀ name ∈ names, BareName name) :
    names.filterMap bareName? = names := by
  conv_rhs => rw [← List.filterMap_some (l := names)]
  exact List.filterMap_congr fun name hname => (h name hname).bareName?

/-- Bare names are merged as they stand. -/
theorem merge_of_bare (hbase : ∀ name ∈ base, BareName name)
    (hadditions : ∀ name ∈ additions, BareName name) :
    merge base additions = (base ++ additions).eraseDups := by
  have hfirst : extend [] base = base.eraseDups := by
    rw [extend_eq_eraseDups, List.map_nil, List.nil_append, filterMap_bareName?_of_bare hbase]
  have hkept : ∀ name ∈ base.eraseDups, BareName name :=
    fun name hname => hbase name (List.mem_eraseDups.mp hname)
  rw [merge, hfirst, extend_eq_eraseDups, map_dropLead_of_bare hkept,
    filterMap_bareName?_of_bare hadditions, eraseDups_eraseDups_append]

end Bare

end Gherkin.TagSet
