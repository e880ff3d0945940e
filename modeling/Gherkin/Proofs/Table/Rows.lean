/-
  Gherkin/Proofs/Table/Rows.lean
  ==============================
  **Rows are read back as they were written.**

  Writing puts a backslash before each pipe of a cell, so that no pipe of a cell
  ends it, and a space behind the cell, so that a backslash at its end does not
  escape the pipe that does.  Reading undoes both.
-/
import Gherkin.Proofs.Text.Trimming
import Gherkin.Table.Cells

namespace Gherkin

open Text

namespace Cells

/-! ## 1. Escaping -/

theorem escape_cons (c : Char) (t : Text) :
    escape (c :: t) = (if c = '|' then ['\\', '|'] else [c]) ++ escape t := rfl

/-- An escaped text does not start with a pipe. -/
theorem leads_escape (t rest : Text) (hrest : leads '|' rest = false) :
    leads '|' (escape t ++ rest) = false := by
  cases t with
  | nil => exact hrest
  | cons c t =>
    rw [escape_cons]
    split
    · rfl
    · rename_i hc
      simpa [leads] using hc

theorem unescape_cons {c : Char} {t : Text} (h : leads '|' t = false) :
    unescape (c :: t) = c :: unescape t := by
  rw [unescape.eq_def]
  split
  · rename_i t' heq
    obtain ⟨-, rfl⟩ := List.cons.inj heq
    simp [leads] at h
  · rename_i d t' _ heq
    obtain ⟨rfl, rfl⟩ := List.cons.inj heq
    rfl
  · rename_i heq
    simp at heq

/-- Reading takes back what writing added to the pipes of a cell. -/
theorem unescape_escape_append (t : Text) {rest : Text} (hrest : leads '|' rest = false) :
    unescape (escape t ++ rest) = t ++ unescape rest := by
  induction t with
  | nil => rfl
  | cons c t ih =>
    rw [escape_cons, List.append_assoc]
    by_cases hc : c = '|'
    · rw [if_pos hc, hc]
      simp [unescape, ih]
    · rw [if_neg hc, List.singleton_append, unescape_cons (leads_escape t rest hrest), ih]
      rfl

/-! ## 2. Cutting -/

/-- Put a text in front of the first piece. -/
def glue (t : Text) : List Text → List Text
  | [] => [t]
  | piece :: pieces => (t ++ piece) :: pieces

theorem onHead_glue (c : Char) (t : Text) (pieces : List Text) :
    onHead c (glue t pieces) = glue (c :: t) pieces := by
  cases pieces <;> rfl

/-- No pipe of an escaped text ends a piece, and behind a space it does not
    matter what the text ends with. -/
theorem cut_escape_append (escaped : Bool) (t rest : Text) :
    cut escaped (escape t ++ ' ' :: rest) = glue (escape t ++ [' ']) (cut false rest) := by
  induction t generalizing escaped with
  | nil =>
    show cut escaped (' ' :: rest) = glue [' '] (cut false rest)
    cases h : cut false rest <;> simp [cut, h, onHead, glue]
  | cons c t ih =>
    rw [escape_cons]
    by_cases hc : c = '|'
    · rw [if_pos hc]
      simp [cut, ih, onHead_glue]
    · rw [if_neg hc]
      simp [cut, hc, ih, onHead_glue]

/-- A cell between its spaces. -/
def pad (cell : Text) : Text := ' ' :: escape cell ++ [' ']

theorem cut_pad_append (cell rest : Text) :
    cut false (pad cell ++ rest) = glue (pad cell) (cut false rest) := by
  have h := cut_escape_append false cell rest
  simp only [pad, List.cons_append, List.append_assoc]
  rw [cut]
  simp [h, onHead_glue]

/-- The pipes between padded cells are the ones at which a row is cut. -/
theorem cut_join_pad {cells : List Text} (hne : cells ≠ []) :
    cut false (join '|' (cells.map pad)) = cells.map pad := by
  induction cells with
  | nil => exact absurd rfl hne
  | cons cell rest ih =>
    cases rest with
    | nil =>
      have h := cut_pad_append cell []
      simpa [join, cut, glue] using h
    | cons next rest =>
      rw [List.map_cons, join_cons _ _ (by simp), cut_pad_append]
      have htail : cut false ('|' :: join '|' ((next :: rest).map pad)) =
          [] :: cut false (join '|' ((next :: rest).map pad)) := rfl
      rw [htail, ih (by simp)]
      simp [glue]

/-! ## 3. Rows -/

theorem write_eq_join {cells : List Text} (hne : cells ≠ []) :
    write cells = '|' :: join '|' (cells.map pad) ++ ['|'] := by
  unfold write
  rw [List.cons_append]
  congr 1
  induction cells with
  | nil => exact absurd rfl hne
  | cons cell rest ih =>
    cases rest with
    | nil => simp [join, pad]
    | cons next rest =>
      have hjoin : join '|' ((cell :: next :: rest).map pad) =
          pad cell ++ '|' :: join '|' ((next :: rest).map pad) := join_cons _ _ (by simp)
      rw [List.flatMap_cons, ih (by simp), hjoin]
      simp [pad]

theorem inner_write {cells : List Text} (hne : cells ≠ []) :
    inner (write cells) = join '|' (cells.map pad) := by
  rw [write_eq_join hne]
  unfold inner
  simp [dropLead, after?, dropFinal, beforeLast?]

/-- A row of trimmed cells is read back as it was written. -/
theorem read_write {cells : List Text} (hne : cells ≠ []) (h : ∀ cell ∈ cells, Trimmed cell) :
    read (write cells) = cells := by
  unfold read
  rw [inner_write hne, cut_join_pad hne, List.map_map]
  have hcell : ∀ cell ∈ cells, trim (unescape (pad cell)) = cell := by
    intro cell hmem
    have hescape : unescape (escape cell ++ [' ']) = cell ++ [' '] :=
      unescape_escape_append cell rfl
    have hpad : unescape (pad cell) = [' '] ++ (cell ++ [' ']) := by
      rw [pad, List.cons_append, unescape_cons (leads_escape cell _ rfl), hescape]
      rfl
    have hspace : ∀ c ∈ [' '], isBlank c = true := isBlank_of_mem_replicate (n := 1)
    rw [hpad, trim_append_of_blank hspace, trim_append_blanks hspace, trim_eq_self (h cell hmem)]
  exact (List.map_congr_left hcell).trans (List.map_id' cells)

theorem cut_ne_nil (escaped : Bool) (t : Text) : cut escaped t ≠ [] := by
  cases t with
  | nil => simp [cut]
  | cons c t =>
    rw [cut]
    split
    · simp
    · exact onHead_ne_nil _ _

theorem read_ne_nil (row : Text) : read row ≠ [] := by
  simpa [read] using cut_ne_nil false (inner row)

/-! ## 4. The characters of a row -/

theorem mem_of_mem_unescape {c : Char} {t : Text} (h : c ∈ unescape t) : c ∈ t := by
  induction t using unescape.induct with
  | case1 t ih =>
    rw [unescape, List.mem_cons] at h
    rcases h with rfl | h
    · simp
    · simp [ih h]
  | case2 d t hd ih =>
    rw [unescape.eq_2 d t hd, List.mem_cons] at h
    rcases h with rfl | h
    · simp
    · simp [ih h]
  | case3 => exact h

theorem mem_of_mem_cut {c : Char} {escaped : Bool} {t piece : Text}
    (hpiece : piece ∈ cut escaped t) (hc : c ∈ piece) : c ∈ t := by
  induction t generalizing escaped piece with
  | nil =>
    rw [cut, List.mem_singleton] at hpiece
    simp [hpiece] at hc
  | cons d t ih =>
    rw [cut] at hpiece
    split at hpiece
    · rcases List.mem_cons.mp hpiece with rfl | hpiece
      · simp at hc
      · exact List.mem_cons_of_mem _ (ih hpiece hc)
    · cases hcut : cut (d == '\\') t with
      | nil =>
        rw [hcut, onHead, List.mem_singleton] at hpiece
        rw [hpiece, List.mem_singleton] at hc
        simp [hc]
      | cons first rest =>
        rw [hcut, onHead, List.mem_cons] at hpiece
        rcases hpiece with rfl | hpiece
        · rcases List.mem_cons.mp hc with rfl | hc
          · exact List.mem_cons_self
          · exact List.mem_cons_of_mem _ (ih (hcut ▸ List.mem_cons_self) hc)
        · exact List.mem_cons_of_mem _ (ih (hcut ▸ List.mem_cons_of_mem _ hpiece) hc)

theorem mem_of_mem_inner {c : Char} {row : Text} (h : c ∈ inner row) : c ∈ row := by
  have hfinal : ∀ t : Text, c ∈ dropFinal '|' t → c ∈ t := by
    intro t ht
    unfold dropFinal beforeLast? at ht
    split at ht
    · exact List.dropLast_subset t ht
    · exact ht
  have hlead := hfinal _ h
  unfold dropLead at hlead
  cases hafter : after? ['|'] row with
  | none => simpa [hafter] using hlead
  | some rest =>
    rw [hafter, Option.getD_some] at hlead
    rw [after?_eq_some_iff.mp hafter]
    exact List.mem_append_right _ hlead

/-- A cell holds characters of its row only. -/
theorem mem_of_mem_read {c : Char} {row cell : Text} (hcell : cell ∈ read row) (hc : c ∈ cell) :
    c ∈ row := by
  obtain ⟨piece, hpiece, rfl⟩ := List.mem_map.mp hcell
  exact mem_of_mem_inner (mem_of_mem_cut hpiece (mem_of_mem_unescape (mem_of_mem_trim hc)))

theorem singleLine_write {cells : List Text} (h : ∀ cell ∈ cells, SingleLine cell) :
    SingleLine (write cells) := by
  have hescape : ∀ t : Text, SingleLine t → SingleLine (escape t) := by
    intro t ht hmem
    obtain ⟨c, hc, hmem⟩ := List.mem_flatMap.mp hmem
    split at hmem
    · simp at hmem
    · exact ht (List.mem_singleton.mp hmem ▸ hc)
  intro hmem
  rcases List.mem_cons.mp hmem with hmem | hmem
  · simp at hmem
  · obtain ⟨cell, hcell, hmem⟩ := List.mem_flatMap.mp hmem
    have := hescape cell (h cell hcell)
    simp [SingleLine] at this hmem
    exact this hmem

theorem trimmed_of_mem_read {row cell : Text} (h : cell ∈ read row) : Trimmed cell := by
  obtain ⟨piece, -, rfl⟩ := List.mem_map.mp h
  exact trimmed_trim _

end Cells

end Gherkin
