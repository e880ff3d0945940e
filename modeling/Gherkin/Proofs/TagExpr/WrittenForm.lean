/-
  Gherkin/Proofs/TagExpr/WrittenForm.lean
  =======================================
  **Which expressions come back from their written form.**

  In written form blanks separate clauses and commas separate terms, and nothing
  is quoted.  A compiled name holds no comma and no colon, but it may hold
  blanks, and it may begin with a sign that compiling had left over.  A blank
  would be read as the end of a clause, and a sign would be taken off.  Those
  are the only ways in which the written form can go wrong
  (`read_written_iff`).

  Reading a text never gives a name with a blank (`solid_of_read`), which
  disposes of the first way.  Where no name has a blank, the words of the written
  form are its clauses (`splitClauses_written`), and each term stands for
  itself exactly when its name has no sign (`Term.Proper.signless_iff`).
-/
import Gherkin.Proofs.TagExpr.Compiling
import Gherkin.Proofs.TagExpr.Terms
import Gherkin.Proofs.Text.Cutting

namespace Gherkin

open Text

namespace Text

/-! ## 1. The ends of a joined text -/

theorem leads_join {sep : Char} {list : List Text} (h : ∀ piece ∈ list, piece ≠ [] ∧ sep ∉ piece) :
    leads sep (join sep list) = false := by
  have hpiece : ∀ piece : Text, piece ≠ [] → sep ∉ piece → ∀ t, leads sep (piece ++ t) = false := by
    intro piece hne hsep t
    cases piece with
    | nil => exact absurd rfl hne
    | cons c piece =>
      have hc : c ≠ sep := fun heq => hsep (heq ▸ List.mem_cons_self)
      simpa [leads] using hc
  induction list using join.induct with
  | case1 => rfl
  | case2 piece =>
    obtain ⟨hne, hsep⟩ := h piece List.mem_cons_self
    have := hpiece piece hne hsep []
    rwa [List.append_nil] at this
  | case3 piece rest hrest ih =>
    obtain ⟨hne, hsep⟩ := h piece List.mem_cons_self
    rw [join_cons _ _ hrest]
    exact hpiece piece hne hsep _

theorem join_ne_nil {sep : Char} {list : List Text} (hne : list ≠ [])
    (h : ∀ piece ∈ list, piece ≠ []) : join sep list ≠ [] := by
  induction list using join.induct with
  | case1 => exact absurd rfl hne
  | case2 piece => exact h piece List.mem_cons_self
  | case3 piece rest hrest ih =>
    rw [join_cons _ _ hrest]
    simp

theorem ends_join {sep : Char} {list : List Text} (h : ∀ piece ∈ list, piece ≠ [] ∧ sep ∉ piece) :
    ends sep (join sep list) = false := by
  induction list using join.induct with
  | case1 => rfl
  | case2 piece =>
    obtain ⟨-, hsep⟩ := h piece List.mem_cons_self
    have hlast : piece.getLast? ≠ some sep := fun heq => hsep (List.mem_of_getLast? heq)
    simpa [ends, join] using hlast
  | case3 piece rest hrest ih =>
    have hothers := fun other hother => h other (List.mem_cons_of_mem _ hother)
    have hne : join sep rest ≠ [] := join_ne_nil hrest fun other hother => (hothers other hother).1
    obtain ⟨c, t, ht⟩ := List.exists_cons_of_ne_nil hne
    rw [join_cons _ _ hrest]
    have hsame : (piece ++ sep :: join sep rest).getLast? = (join sep rest).getLast? := by
      rw [ht, List.getLast?_append, List.getLast?_cons_cons]
      cases hlast : (c :: t).getLast? with
      | none => simp at hlast
      | some d => rfl
    unfold ends
    rw [hsame]
    exact ih hothers

end Text

namespace TagExpr

/-! ## 2. Reading gives solid names -/

theorem solid_attach {clauses : List Text} {word : Text}
    (h : ∀ clause ∈ clauses, ∀ c ∈ clause, isBlank c = false)
    (hword : ∀ c ∈ word, isBlank c = false) :
    ∀ clause ∈ attach clauses word, ∀ c ∈ clause, isBlank c = false := by
  intro clause hclause c hc
  unfold attach at hclause
  split at hclause
  · rename_i last hlast
    split at hclause
    · rcases List.mem_append.mp hclause with hclause | hclause
      · exact h clause (List.dropLast_subset _ hclause) c hc
      · rw [List.mem_singleton.mp hclause, List.mem_append] at hc
        rcases hc with hc | hc
        · exact h last (List.mem_of_getLast? hlast) c hc
        · exact hword c hc
    · rcases List.mem_append.mp hclause with hclause | hclause
      · exact h clause hclause c hc
      · exact hword c (List.mem_singleton.mp hclause ▸ hc)
  · exact hword c (List.mem_singleton.mp hclause ▸ hc)

theorem solid_splitClauses {t clause : Text} (h : clause ∈ splitClauses t) :
    ∀ c ∈ clause, isBlank c = false := by
  have hfold : ∀ (row clauses : List Text), (∀ word ∈ row, ∀ c ∈ word, isBlank c = false) →
      (∀ clause ∈ clauses, ∀ c ∈ clause, isBlank c = false) →
      ∀ clause ∈ row.foldl attach clauses, ∀ c ∈ clause, isBlank c = false := by
    intro row
    induction row with
    | nil => exact fun _ _ hclauses => hclauses
    | cons word row ih =>
      intro clauses hrow hclauses
      exact ih _ (fun other hother => hrow other (List.mem_cons_of_mem _ hother))
        (solid_attach hclauses (hrow word List.mem_cons_self))
  exact hfold (words t) [] (fun word hword c hc => ((mem_words hword).2 c hc).2) (by simp) clause h

/-- No name that is read from a text has a blank. -/
theorem solid_of_read {t : Text} {expr : TagExpr} (h : read t = .ok expr) {terms : List Term}
    (hterms : terms ∈ expr.clauses) {term : Term} (hterm : term ∈ terms) :
    ∀ c ∈ term.name, isBlank c = false := by
  intro c hc
  obtain ⟨clause, hclause, hread⟩ := exists_of_compile h hterms
  obtain ⟨raw, hraw, hterm⟩ := exists_of_forall₂ hread hterm
  have hmem := (mem_splitWhen hraw (Term.mem_of_mem_name hterm hc)).1
  exact solid_splitClauses hclause c (mem_of_mem_trim hmem)

/-- A compiled clause has terms, and all of them are proper. -/
theorem proper_of_compile {clauses : List Text} {expr : TagExpr} (h : compile clauses = .ok expr)
    {terms : List Term} (hterms : terms ∈ expr.clauses) :
    terms ≠ [] ∧ ∀ term ∈ terms, term.Proper := by
  obtain ⟨clause, -, hread⟩ := exists_of_compile h hterms
  constructor
  · rintro rfl
    exact splitWhen_ne_nil _ _ (List.forall₂_nil_right_iff.mp hread)
  · intro term hterm
    obtain ⟨raw, hraw, hterm⟩ := exists_of_forall₂ hread hterm
    refine Term.proper_of_read (fun hcomma => ?_) hterm
    have := (mem_splitWhen hraw hcomma).2
    simp at this

/-! ## 3. The words of the written form -/

def clauseText (terms : List Term) : Text := join ',' (terms.map (·.written))

theorem written_eq (expr : TagExpr) : expr.written = join ' ' (expr.clauses.map clauseText) := rfl

/-- Words without a comma at their ends are clauses of their own. -/
theorem foldl_attach {row clauses : List Text}
    (hrow : ∀ word ∈ row, leads ',' word = false ∧ ends ',' word = false)
    (hclauses : ∀ clause ∈ clauses, ends ',' clause = false) :
    row.foldl attach clauses = clauses ++ row := by
  induction row generalizing clauses with
  | nil => simp
  | cons word row ih =>
    obtain ⟨hleads, hends⟩ := hrow word List.mem_cons_self
    have hattach : attach clauses word = clauses ++ [word] := by
      unfold attach
      split
      · rename_i last hlast
        have hlast := hclauses last (List.mem_of_getLast? hlast)
        simp [hlast, hleads]
      · rename_i hnone
        rw [List.getLast?_eq_none_iff.mp hnone]
        rfl
    rw [List.foldl_cons, hattach, ih, List.append_assoc, List.singleton_append]
    · exact fun other hother => hrow other (List.mem_cons_of_mem _ hother)
    · intro clause hclause
      rcases List.mem_append.mp hclause with hclause | hclause
      · exact hclauses clause hclause
      · exact List.mem_singleton.mp hclause ▸ hends

section Written

variable {expr : TagExpr} {terms : List Term}

theorem written_piece (hproper : ∀ term ∈ terms, term.Proper) :
    ∀ piece ∈ terms.map (·.written), piece ≠ [] ∧ ',' ∉ piece := by
  intro piece hpiece
  obtain ⟨term, hterm, rfl⟩ := List.mem_map.mp hpiece
  exact ⟨(hproper term hterm).written_ne_nil, (hproper term hterm).written_comma⟩

theorem solid_clauseText (hsolid : ∀ term ∈ terms, ∀ c ∈ term.name, isBlank c = false) :
    ∀ c ∈ clauseText terms, isBlank c = false := by
  intro c hc
  rcases mem_join hc with rfl | ⟨piece, hpiece, hc⟩
  · decide
  · obtain ⟨term, hterm, rfl⟩ := List.mem_map.mp hpiece
    exact Term.written_solid (hsolid term hterm) c hc

theorem clauseText_ne_nil (hne : terms ≠ []) (hproper : ∀ term ∈ terms, term.Proper) :
    clauseText terms ≠ [] :=
  join_ne_nil (by simpa using hne) fun piece hpiece => (written_piece hproper piece hpiece).1

/-- A clause whose names have no blanks comes back exactly when none of its
    names has a sign. -/
theorem readClause_clauseText_iff (hne : terms ≠ []) (hproper : ∀ term ∈ terms, term.Proper)
    (hsolid : ∀ term ∈ terms, ∀ c ∈ term.name, isBlank c = false) :
    readClause (clauseText terms) = .ok terms ↔ ∀ term ∈ terms, term.Signless := by
  have hsplit : split ',' (clauseText terms) = terms.map (·.written) :=
    split_join (fun piece hpiece => (written_piece hproper piece hpiece).2) (by simpa using hne)
  unfold readClause
  rw [hsplit, mapM_eq_ok_iff, List.forall₂_map_left_iff, List.forall₂_same]
  constructor
  · intro h term hterm
    exact ((hproper term hterm).signless_iff (hsolid term hterm) _).mp (h term hterm)
  · intro h term hterm
    exact ((hproper term hterm).signless_iff (hsolid term hterm) _).mpr (h term hterm)

/-- Where no name has a blank, the written form is cut into its clauses, none of
    which is blank. -/
theorem splitClauses_written (hproper : ∀ terms ∈ expr.clauses, terms ≠ [] ∧
      ∀ term ∈ terms, term.Proper)
    (hsolid : ∀ terms ∈ expr.clauses, ∀ term ∈ terms, ∀ c ∈ term.name, isBlank c = false) :
    solidClauses (splitClauses expr.written) = expr.clauses.map clauseText := by
  have htext : ∀ text ∈ expr.clauses.map clauseText,
      text ≠ [] ∧ (∀ c ∈ text, isBlank c = false) ∧ leads ',' text = false ∧
        ends ',' text = false := by
    intro text htext
    obtain ⟨terms, hterms, rfl⟩ := List.mem_map.mp htext
    obtain ⟨hne, hterm⟩ := hproper terms hterms
    exact ⟨clauseText_ne_nil hne hterm, solid_clauseText (hsolid terms hterms),
      leads_join (written_piece hterm), ends_join (written_piece hterm)⟩
  have hwords : words expr.written = expr.clauses.map clauseText := by
    rw [written_eq]
    exact Tag.words_join fun text hmem => ⟨(htext text hmem).1, (htext text hmem).2.1⟩
  have hsplit : splitClauses expr.written = expr.clauses.map clauseText := by
    unfold splitClauses
    rw [hwords, foldl_attach (fun text hmem => (htext text hmem).2.2) (by simp), List.nil_append]
  have htrim : (expr.clauses.map clauseText).map trim = expr.clauses.map clauseText := by
    conv_rhs => rw [← List.map_id (expr.clauses.map clauseText)]
    exact List.map_congr_left fun text hmem =>
      trim_eq_self (trimmed_of_solid (htext text hmem).2.1)
  unfold solidClauses
  rw [hsplit, htrim, List.filter_eq_self]
  intro text hmem
  simpa using (htext text hmem).1

/-! ## 4. Reading the written form -/

/-- An expression comes back from its written form exactly when no name has a
    blank and none begins with a sign that would be taken off. -/
theorem read_written_iff {clauses : List Text} (h : compile clauses = .ok expr) :
    read expr.written = .ok expr ↔
      ∀ terms ∈ expr.clauses, ∀ term ∈ terms,
        (∀ c ∈ term.name, isBlank c = false) ∧ leads '@' term.name = false ∧
          (term.negated = false → leads '-' term.name = false ∧ leads '~' term.name = false) := by
  have hproper : ∀ terms ∈ expr.clauses, terms ≠ [] ∧ ∀ term ∈ terms, term.Proper :=
    fun terms hterms => proper_of_compile h hterms
  have hsignless : (∀ terms ∈ expr.clauses, ∀ term ∈ terms, ∀ c ∈ term.name, isBlank c = false) →
      (read expr.written = .ok expr ↔
        ∀ terms ∈ expr.clauses, ∀ term ∈ terms, term.Signless) := by
    intro hsolid
    have hlimits := (compile_eq_ok_iff.mp h).2
    unfold read
    rw [compile_eq_ok_iff, splitClauses_written hproper hsolid, mapM_eq_ok_iff,
      List.forall₂_map_left_iff, List.forall₂_same, and_iff_left hlimits]
    refine forall₂_congr fun terms hterms => ?_
    obtain ⟨hne, hterm⟩ := hproper terms hterms
    exact readClause_clauseText_iff hne hterm (hsolid terms hterms)
  constructor
  · intro hread terms hterms term hterm
    have hsolid : ∀ terms ∈ expr.clauses, ∀ term ∈ terms, ∀ c ∈ term.name, isBlank c = false :=
      fun terms hterms term hterm => solid_of_read hread hterms hterm
    obtain ⟨hat, hnegation⟩ := (hsignless hsolid).mp hread terms hterms term hterm
    exact ⟨hsolid terms hterms term hterm, hat, hnegation⟩
  · intro hplain
    refine (hsignless fun terms hterms term hterm => (hplain terms hterms term hterm).1).mpr ?_
    intro terms hterms term hterm
    obtain ⟨-, hat, hnegation⟩ := hplain terms hterms term hterm
    exact ⟨hat, hnegation⟩

/-- For instance an expression whose names begin with signs that stay on, and
    one that is read as two clauses. -/
theorem read_written_iff_signs :
    (∃ expr, compile [" @a , -@-b".toList, "~~c:2".toList] = .ok expr ∧
        expr.written = "a,--b -~c:2".toList ∧ read expr.written = .ok expr) ∧
      ∃ expr, compile ["@a b".toList] = .ok expr ∧ expr.written = "a b".toList ∧
        ¬read expr.written = .ok expr := by
  have hsigns : ∃ expr, compile [" @a , -@-b".toList, "~~c:2".toList] = .ok expr ∧
      expr = ⟨[[⟨"a".toList, false, none⟩, ⟨"-b".toList, true, none⟩],
        [⟨"~c".toList, true, some 2⟩]], [("~c".toList, 2)]⟩ := ⟨_, rfl, rfl⟩
  have hblank : ∃ expr, compile ["@a b".toList] = .ok expr ∧
      expr = ⟨[[⟨"a b".toList, false, none⟩]], []⟩ := ⟨_, rfl, rfl⟩
  constructor
  · obtain ⟨expr, hcompile, heq⟩ := hsigns
    refine ⟨expr, hcompile, by rw [heq]; rfl, (read_written_iff hcompile).mpr ?_⟩
    rw [heq]
    decide
  · obtain ⟨expr, hcompile, heq⟩ := hblank
    refine ⟨expr, hcompile, by rw [heq]; rfl, fun hread => ?_⟩
    have hplain := (read_written_iff hcompile).mp hread
    rw [heq] at hplain
    revert hplain
    decide

end Written

end TagExpr

end Gherkin
