/-
  Gherkin/Proofs/Table/Delimiters.lean
  ====================================
  **Which pipes end a cell.**

  Behind the leading pipe of a row a pipe with a backslash right before it belongs
  to its cell, and every other pipe ends one.  `Cells.byPosition` says this of
  positions in the text, without reading it from left to right: it lists the
  positions of the pipes that end a cell, takes what stands between two of them,
  and leaves out what stands behind the last one when that is nothing.

  Reading cuts in the same places (`cut_eq`), but in front of that it takes off the
  last character of a row whenever it is a pipe, and it does not look for a
  backslash there.  So a row is read as its cells by position exactly if it does
  not end in an escaped pipe (`read_eq_byPosition_iff`).
-/
import Gherkin.Proofs.Table.Rows

namespace Gherkin

open Text

namespace Cells

/-! ## 1. Cells by position -/

/-- Whether a pipe stands at the position, with no backslash right before it. -/
def endsCell (t : Text) (position : Nat) : Bool :=
  t[position]? == some '|' && !(position != 0 && t[position - 1]? == some '\\')

/-- The positions of the pipes that end a cell. -/
def delimiters (t : Text) : List Nat := (List.range t.length).filter (endsCell t)

/-- The positions behind these pipes. -/
def behind (t : Text) : List Nat := (delimiters t).map (· + 1)

/-- The texts that a pipe ends. -/
def ended (t : Text) : List Text :=
  ((0 :: behind t).zip (delimiters t)).map fun (start, stop) => (t.take stop).drop start

/-- The text behind the last of these pipes, or the whole text when there is none. -/
def remainder (t : Text) : Text := t.drop ((behind t).getLastD 0)

/-- The cells of the text behind the leading pipe of a row. -/
def byPosition (t : Text) : List Text :=
  let last := if remainder t = [] ∧ delimiters t ≠ [] then [] else [remainder t]
  (ended t ++ last).map fun cell => trim (unescape cell)

/-! ## 2. One more character -/

theorem endsCell_append {t : Text} {position : Nat} (h : position < t.length) (rest : Text) :
    endsCell (t ++ rest) position = endsCell t position := by
  have hprevious : position - 1 < t.length := by omega
  simp only [endsCell, List.getElem?_append_left h, List.getElem?_append_left hprevious]

theorem endsCell_concat (t : Text) (c : Char) :
    endsCell (t ++ [c]) t.length = (c == '|' && !ends '\\' t) := by
  rcases List.eq_nil_or_concat t with rfl | ⟨s, d, rfl⟩
  · simp [endsCell, ends]
  · simp [endsCell, ends]

theorem delimiters_concat (t : Text) (c : Char) :
    delimiters (t ++ [c]) =
      delimiters t ++ if c == '|' && !ends '\\' t then [t.length] else [] := by
  have hkept : (List.range t.length).filter (endsCell (t ++ [c])) = delimiters t := by
    apply List.filter_congr
    intro position hposition
    exact endsCell_append (List.mem_range.mp hposition) [c]
  unfold delimiters at hkept ⊢
  rw [List.length_append, List.length_singleton, List.range_succ, List.filter_append, hkept,
    List.filter_singleton, endsCell_concat, cond_eq_ite]

theorem lt_of_mem_delimiters {t : Text} {position : Nat} (h : position ∈ delimiters t) :
    position < t.length := List.mem_range.mp (List.mem_of_mem_filter h)

theorem behind_le (t : Text) : (behind t).getLastD 0 ≤ t.length := by
  rcases List.eq_nil_or_concat (delimiters t) with hnone | ⟨before, last, hlast⟩
  · simp [behind, hnone]
  · have hmem : last ∈ delimiters t := by simp [hlast]
    have := lt_of_mem_delimiters hmem
    simp [behind, hlast]
    omega

/-- What is added to a text changes nothing between the positions in it. -/
theorem map_span_append (t rest : Text) :
    ((0 :: behind t).zip (delimiters t)).map
        (fun (start, stop) => ((t ++ rest).take stop).drop start) = ended t := by
  apply List.map_congr_left
  rintro ⟨start, stop⟩ hspan
  have hstop := lt_of_mem_delimiters (List.of_mem_zip hspan).2
  simp only
  rw [List.take_append_of_le_length (Nat.le_of_lt hstop)]

theorem zip_concat (first : Nat) (stops : List Nat) (stop : Nat) :
    (first :: (stops ++ [stop]).map (· + 1)).zip (stops ++ [stop]) =
      (first :: stops.map (· + 1)).zip stops ++
        [((stops.map (· + 1)).getLastD first, stop)] := by
  induction stops generalizing first with
  | nil => rfl
  | cons next stops ih =>
    have htail := ih (next + 1)
    simp only [List.cons_append, List.map_cons, List.zip_cons_cons, List.getLastD_cons] at htail ⊢
    rw [htail]

/-- A pipe with no backslash before it ends what has been left over. -/
theorem ended_concat_delimiter {t : Text} (h : ends '\\' t = false) :
    ended (t ++ ['|']) = ended t ++ [remainder t] ∧ remainder (t ++ ['|']) = [] := by
  have hstops : delimiters (t ++ ['|']) = delimiters t ++ [t.length] := by
    simp [delimiters_concat, h]
  constructor
  · have hspan := map_span_append t ['|']
    unfold ended behind at hspan ⊢
    rw [hstops, zip_concat, List.map_append, hspan]
    simp [remainder, behind]
  · simp [remainder, behind, hstops]

/-- Every other character goes to what is left over. -/
theorem ended_concat {t : Text} {c : Char} (h : (c == '|' && !ends '\\' t) = false) :
    ended (t ++ [c]) = ended t ∧ remainder (t ++ [c]) = remainder t ++ [c] := by
  have hstops : delimiters (t ++ [c]) = delimiters t := by simp [delimiters_concat, h]
  have hbehind : behind (t ++ [c]) = behind t := by rw [behind, hstops, behind]
  constructor
  · have hspan := map_span_append t [c]
    rw [ended, hbehind, hstops]
    exact hspan
  · rw [remainder, hbehind, List.drop_append_of_le_length (behind_le t)]
    rfl

/-! ## 3. Cutting from left to right -/

/-- Whether a backslash stands before what follows a text. -/
def escapes (escaped : Bool) (t : Text) : Bool := (t.getLast?.map (· == '\\')).getD escaped

theorem escapes_cons (escaped : Bool) (c : Char) (t : Text) :
    escapes escaped (c :: t) = escapes (c == '\\') t := by
  unfold escapes
  rw [List.getLast?_cons]
  cases t.getLast? <;> rfl

theorem escapes_false (t : Text) : escapes false t = ends '\\' t := by
  unfold escapes ends
  cases t.getLast? <;> simp

theorem exists_cut_eq_concat (escaped : Bool) (t : Text) :
    ∃ before last, cut escaped t = before ++ [last] := by
  rcases List.eq_nil_or_concat (cut escaped t) with hnil | ⟨before, last, hlast⟩
  · exact absurd hnil (cut_ne_nil escaped t)
  · exact ⟨before, last, by simpa using hlast⟩

/-- One more character starts a new piece or goes to the last one. -/
theorem cut_concat {escaped : Bool} {t : Text} {pieces : List Text} {last : Text}
    (h : cut escaped t = pieces ++ [last]) (c : Char) :
    cut escaped (t ++ [c]) =
      if c == '|' && !escapes escaped t then pieces ++ [last] ++ [[]]
      else pieces ++ [last ++ [c]] := by
  induction t generalizing escaped pieces last with
  | nil =>
    have hsame : ([] : List Text) ++ [[]] = pieces ++ [last] := h
    obtain ⟨rfl, hlast⟩ := List.append_inj' hsame rfl
    obtain rfl := List.singleton_inj.mp hlast
    simp [cut, escapes, onHead]
  | cons d t ih =>
    obtain ⟨before, piece, hpieces⟩ := exists_cut_eq_concat (d == '\\') t
    have htail := ih hpieces
    rw [List.cons_append, cut, escapes_cons]
    rw [cut] at h
    by_cases hdelimiter : (d == '|' && !escaped) = true
    · have hd : (d == '\\') = false := by
        simp only [Bool.and_eq_true, beq_iff_eq] at hdelimiter
        simp [hdelimiter.1]
      rw [hd] at hpieces htail ⊢
      rw [if_pos hdelimiter, hpieces] at h
      have hsame : ([] :: before) ++ [piece] = pieces ++ [last] := h
      obtain ⟨rfl, hlast⟩ := List.append_inj' hsame rfl
      rw [if_pos hdelimiter, htail, List.singleton_inj.mp hlast]
      split <;> rfl
    · rw [if_neg hdelimiter, hpieces] at h
      rw [if_neg hdelimiter, htail]
      -- The character in front goes to the first piece, which may be the last one.
      cases before with
      | nil =>
        have hsame : ([] : List Text) ++ [d :: piece] = pieces ++ [last] := h
        obtain ⟨rfl, hlast⟩ := List.append_inj' hsame rfl
        rw [← List.singleton_inj.mp hlast]
        split <;> rfl
      | cons first before =>
        have hsame : ((d :: first) :: before) ++ [piece] = pieces ++ [last] := h
        obtain ⟨rfl, hlast⟩ := List.append_inj' hsame rfl
        rw [List.singleton_inj.mp hlast]
        split <;> rfl

/-- The pieces are what stands between the positions. -/
theorem cut_eq (t : Text) : cut false t = ended t ++ [remainder t] := by
  induction t using List.reverseRecOn with
  | nil => rfl
  | append_singleton t c ih =>
    rw [cut_concat ih, escapes_false]
    by_cases hdelimiter : (c == '|' && !ends '\\' t) = true
    · obtain ⟨rfl, hplain⟩ : c = '|' ∧ ends '\\' t = false := by simpa using hdelimiter
      obtain ⟨hended, hremainder⟩ := ended_concat_delimiter hplain
      rw [if_pos hdelimiter, hended, hremainder]
    · obtain ⟨hended, hremainder⟩ := ended_concat (Bool.not_eq_true _ ▸ hdelimiter)
      rw [if_neg hdelimiter, hended, hremainder]

/-! ## 4. Rows -/

theorem unescape_append (t : Text) {rest : Text} (h : leads '|' rest = false) :
    unescape (t ++ rest) = unescape t ++ unescape rest := by
  induction t using unescape.induct with
  | case1 t ih =>
    rw [List.cons_append, List.cons_append, unescape, unescape, ih]
    rfl
  | case2 c t hplain ih =>
    have hplain' : ∀ more, c = '\\' → t ++ rest = '|' :: more → False := by
      intro more hc hmore
      cases t with
      | nil =>
        rw [List.nil_append] at hmore
        simp [hmore, leads] at h
      | cons d t =>
        obtain ⟨rfl, -⟩ := List.cons.inj hmore
        exact hplain t hc rfl
    rw [List.cons_append, unescape.eq_2 c (t ++ rest) hplain', unescape.eq_2 c t hplain, ih]
    rfl
  | case3 => rfl

theorem read_cons (t : Text) :
    read ('|' :: t) = (ended (dropFinal '|' t) ++ [remainder (dropFinal '|' t)]).map
      fun cell => trim (unescape cell) := by
  have hinner : inner ('|' :: t) = dropFinal '|' t := by simp [inner, dropLead, after?]
  rw [read, hinner, cut_eq]

/-- A row that does not end in an escaped pipe ends in a pipe that ends a cell, or in
    no pipe at all. -/
theorem read_eq_byPosition {t : Text} (h : ¬['\\', '|'] <:+ t) :
    read ('|' :: t) = byPosition t := by
  rw [read_cons, byPosition]
  rcases List.eq_nil_or_concat t with rfl | ⟨s, c, rfl⟩
  · rfl
  rw [List.concat_eq_append] at h ⊢
  by_cases hpipe : c = '|'
  · subst hpipe
    have hplain : ends '\\' s = false := by
      rw [Bool.eq_false_iff]
      intro hends
      obtain ⟨u, rfl⟩ := List.getLast?_eq_some_iff.mp (by simpa [ends] using hends)
      exact h ⟨u, by simp⟩
    obtain ⟨hended, hremainder⟩ := ended_concat_delimiter hplain
    have hstops : delimiters (s ++ ['|']) ≠ [] := by simp [delimiters_concat, hplain]
    rw [dropFinal_concat, hended, hremainder, if_pos ⟨rfl, hstops⟩, List.append_nil]
  · have hinner : (c == '|' && !ends '\\' s) = false := by simp [hpipe]
    have hlast : ends '|' (s ++ [c]) = false := by simpa [ends] using hpipe
    have hkept : remainder (s ++ [c]) ≠ [] := by simp [(ended_concat hinner).2]
    rw [dropFinal_of_ends_eq_false hlast, if_neg fun hnone => hkept hnone.1]

/-- An escaped pipe at the end of a row is lost, and its backslash stays. -/
theorem read_of_escaped_end (t : Text) :
    ∃ cells cell, byPosition (t ++ ['\\', '|']) = cells ++ [cell ++ ['|']] ∧
      read ('|' :: (t ++ ['\\', '|'])) = cells ++ [cell ++ ['\\']] := by
  have hparts : t ++ ['\\', '|'] = t ++ ['\\'] ++ ['|'] := by simp
  obtain ⟨hended, hremainder⟩ := ended_concat (t := t) (c := '\\') rfl
  obtain ⟨hended', hremainder'⟩ := ended_concat (t := t ++ ['\\']) (c := '|') (by simp [ends])
  have hplain : trim (unescape (remainder t ++ ['\\'])) =
      trimStart (unescape (remainder t)) ++ ['\\'] := by
    rw [unescape_append _ rfl, ← trim_concat (by decide)]
    rfl
  have hescaped : trim (unescape (remainder t ++ ['\\'] ++ ['|'])) =
      trimStart (unescape (remainder t)) ++ ['|'] := by
    rw [List.append_assoc, unescape_append _ rfl, ← trim_concat (by decide)]
    rfl
  refine ⟨(ended t).map fun cell => trim (unescape cell), trimStart (unescape (remainder t)),
    ?_, ?_⟩
  · rw [byPosition, hparts, hended', hremainder', hended, hremainder, if_neg (by simp),
      List.map_append, List.map_singleton, hescaped]
  · rw [read_cons, hparts, dropFinal_concat, hended, hremainder, List.map_append,
      List.map_singleton, hplain]

/-- A row is read as its cells by position exactly if it does not end in an escaped
    pipe.  If it does, the last cell has the backslash in place of the pipe. -/
theorem read_eq_byPosition_iff (t : Text) :
    (read ('|' :: t) = byPosition t ↔ ¬['\\', '|'] <:+ t) ∧
      (['\\', '|'] <:+ t →
        ∃ cells cell, byPosition t = cells ++ [cell ++ ['|']] ∧
          read ('|' :: t) = cells ++ [cell ++ ['\\']]) := by
  have hlost : ['\\', '|'] <:+ t →
      ∃ cells cell, byPosition t = cells ++ [cell ++ ['|']] ∧
        read ('|' :: t) = cells ++ [cell ++ ['\\']] := by
    rintro ⟨s, rfl⟩
    exact read_of_escaped_end s
  refine ⟨⟨?_, read_eq_byPosition⟩, hlost⟩
  intro hsame hescaped
  obtain ⟨cells, cell, hcells, hread⟩ := hlost hescaped
  rw [hread, hcells] at hsame
  simp at hsame

/-- For instance a row without a closing pipe whose last cell ends in an escaped one. -/
theorem read_ne_byPosition :
    Trimmed "| x \\|".toList ∧ byPosition " x \\|".toList = ["x |".toList] ∧
      read "| x \\|".toList = ["x \\".toList] := by
  decide

end Cells

end Gherkin
