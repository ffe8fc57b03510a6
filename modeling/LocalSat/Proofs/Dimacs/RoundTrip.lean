import LocalSat.Dimacs.Write
import LocalSat.Proofs.Dimacs.Grammar

/-!
# Reading back what was written

The lines that `write` puts together are well-formed, whatever the comments hold, as long as no comment
ends a line. A comment line starts with `c`, so what follows is never taken for anything else; the
problem line and the clause lines are words joined by blanks, so they are split into the same words
again (`words_intercalate`), and each word is a printed integer (`integer?_toString`).

Numbers of more than `maxDigits` digits are printed here but not read. A literal is no longer than the
number of variables, so only the two counts of the problem line need a bound.

Main statement: `read_write`.
-/

namespace LocalSat.Dimacs

open LocalSat.Text

/-! ## Written lines -/

theorem strip_commentLine (t : String) :
    ∃ ds, strip (commentLine t).toList = 'c' :: ds ∧ strip ds = strip t.toList := by
  unfold commentLine
  split <;> rename_i h
  · obtain ⟨ds, hds, hs⟩ := strip_cons [] (show isBlank 'c' = false by decide)
    refine ⟨ds, hds, ?_⟩
    rw [hs, String.isEmpty_iff.1 h]
    rfl
  · obtain ⟨ds, hds, hs⟩ := strip_cons (' ' :: t.toList) (show isBlank 'c' = false by decide)
    refine ⟨ds, by simpa using hds, ?_⟩
    rw [hs, strip_blank_cons (by decide)]

/-- The words of the problem line. -/
def problemWords (f : Formula) : List (List Char) :=
  [['p'], ['c', 'n', 'f'], Nat.toDigits 10 f.numVariables, Nat.toDigits 10 f.size]

/-- The words of a clause line. -/
def clauseWords (c : Clause) : List (List Char) :=
  c.toSigned.map (fun v => (toString v).toList) ++ [['0']]

theorem isWord_of_mem_problemWords {f : Formula} : ∀ w ∈ problemWords f, IsWord w := by
  have hp : IsWord ['p'] := by simp [IsWord, isBlank]
  have hcnf : IsWord ['c', 'n', 'f'] := by simp [IsWord, isBlank]
  simp [problemWords, hp, hcnf, isWord_toDigits]

theorem isWord_of_mem_clauseWords {c : Clause} : ∀ w ∈ clauseWords c, IsWord w := by
  intro w hw
  rcases List.mem_append.1 hw with hw | hw
  · obtain ⟨v, -, rfl⟩ := List.mem_map.1 hw
    exact isWord_toString v
  · rw [List.mem_singleton.1 hw]
    simp [IsWord, isBlank]

theorem toList_problemLine (f : Formula) :
    (problemLine f).toList = [' '].intercalate (problemWords f) := by
  simp [problemLine, problemWords]

theorem toList_clauseLine (c : Clause) :
    (clauseLine c).toList = [' '].intercalate (clauseWords c) := by
  have hne : c.toSigned.map toString ≠ [] := by simpa [Clause.toSigned] using c.nonempty
  have hzero : clauseLine c = String.intercalate " " (c.toSigned.map toString ++ ["0"]) := by
    rw [String.intercalate_append_of_ne_nil hne (by simp), String.intercalate_singleton,
      String.append_assoc]
    rfl
  rw [hzero, String.toList_intercalate, List.map_append, List.map_map]
  rfl

theorem problemLine_eq_cons (f : Formula) : ∃ ds, (problemLine f).toList = 'p' :: ds :=
  ⟨_, by rw [toList_problemLine, problemWords, List.intercalate_cons_cons_left]⟩

theorem toString_eq_cons (n : Int) :
    ∃ d ds, (toString n).toList = d :: ds ∧ d ≠ 'c' ∧ d ≠ 'p' := by
  rw [toList_toString_int]
  split
  · exact ⟨_, _, rfl, by decide, by decide⟩
  · cases h : Nat.toDigits 10 n.natAbs with
    | nil => exact absurd h Nat.toDigits_ne_nil
    | cons d ds =>
      have hd : d.isDigit = true := isDigit_of_mem_toDigits (h ▸ List.mem_cons_self ..)
      refine ⟨d, ds, rfl, ?_, ?_⟩ <;> rintro rfl <;> exact absurd hd (by decide)

theorem clauseLine_eq_cons (c : Clause) :
    ∃ d ds, (clauseLine c).toList = d :: ds ∧ d ≠ 'c' ∧ d ≠ 'p' := by
  rw [toList_clauseLine, clauseWords]
  cases hv : c.toSigned with
  | nil => exact absurd (List.map_eq_nil_iff.1 hv) c.nonempty
  | cons v vs =>
    obtain ⟨d, ds, hd, hdc, hdp⟩ := toString_eq_cons v
    rw [List.map_cons, hd, List.cons_append, List.intercalate_cons_cons_left]
    exact ⟨d, _, rfl, hdc, hdp⟩

/-! ## Where they are sorted -/

/-- The characters of the written lines. -/
def writtenChars (f : Formula) (ts : List String) : List (List Char) :=
  ts.map (fun t => (commentLine t).toList) ++
    (problemLine f).toList :: f.clauses.map fun c => (clauseLine c).toList

theorem sorted_comments (ls : List (List Char)) : ∀ ts : List String,
    (marked 'c' (ts.map (fun t => (commentLine t).toList) ++ ls)).map remark =
        ts.map stripped ++ (marked 'c' ls).map remark ∧
      marked 'p' (ts.map (fun t => (commentLine t).toList) ++ ls) = marked 'p' ls ∧
      unmarked (ts.map (fun t => (commentLine t).toList) ++ ls) = unmarked ls
  | [] => ⟨rfl, rfl, rfl⟩
  | t :: ts => by
    obtain ⟨hc, hp, hu⟩ := sorted_comments ls ts
    obtain ⟨ds, hds, hs⟩ := strip_commentLine t
    obtain ⟨hc', hp', hu'⟩ :=
      sorted_comment (ts.map (fun t => (commentLine t).toList) ++ ls) hds
    rw [List.map_cons, List.cons_append, hc', hp', hu']
    refine ⟨?_, hp, hu⟩
    rw [List.map_cons, hc, remark, List.tail_cons, hs]
    rfl

theorem sorted_clauses : ∀ cs : List Clause,
    marked 'c' (cs.map fun c => (clauseLine c).toList) = [] ∧
      marked 'p' (cs.map fun c => (clauseLine c).toList) = [] ∧
      unmarked (cs.map fun c => (clauseLine c).toList) = cs.map fun c => (clauseLine c).toList
  | [] => ⟨rfl, rfl, rfl⟩
  | c :: cs => by
    obtain ⟨hc, hp, hu⟩ := sorted_clauses cs
    obtain ⟨d, ds, hd, hdc, hdp⟩ := clauseLine_eq_cons c
    have hs : strip (clauseLine c).toList = d :: ds := by
      rw [← hd, toList_clauseLine, strip_intercalate isWord_of_mem_clauseWords]
    obtain ⟨hc', hp', hu'⟩ := sorted_clause (cs.map fun c => (clauseLine c).toList) hs hdc hdp
    rw [List.map_cons, hc', hp', hu', hu, hd]
    exact ⟨hc, hp, rfl⟩

theorem sorted_writtenChars (f : Formula) (ts : List String) :
    (marked 'c' (writtenChars f ts)).map remark = ts.map stripped ∧
      marked 'p' (writtenChars f ts) = [(problemLine f).toList] ∧
      unmarked (writtenChars f ts) = f.clauses.map fun c => (clauseLine c).toList := by
  obtain ⟨hc, hp, hu⟩ := sorted_clauses f.clauses
  obtain ⟨ds, hds⟩ := problemLine_eq_cons f
  have hs : strip (problemLine f).toList = 'p' :: ds := by
    rw [← hds, toList_problemLine, strip_intercalate isWord_of_mem_problemWords]
  obtain ⟨hc', hp', hu'⟩ :=
    sorted_problem (f.clauses.map fun c => (clauseLine c).toList) hs
  obtain ⟨hc'', hp'', hu''⟩ := sorted_comments
    ((problemLine f).toList :: f.clauses.map fun c => (clauseLine c).toList) ts
  rw [writtenChars, hc'', hp'', hu'', hc', hp', hu', hc, hp, hu, hds]
  exact ⟨by simp, rfl, rfl⟩

/-! ## What they say -/

theorem spells_clauseWords {c : Clause} (h0 : 0 ∉ c.toSigned)
    (h : ∀ v ∈ c.toSigned, Printable v) :
    Spells (clauseWords c) c.toSigned := by
  refine ⟨_, _, rfl, ?_, h0, ?_⟩
  · rw [List.map_map]
    exact List.map_congr_left fun v hv => integer?_toString (h v hv)
  · rintro z ⟨⟩
    decide

theorem wellFormed_writtenChars {f : Formula} (ts : List String)
    (hn : Printable f.numVariables) (hm : Printable f.size) :
    WellFormed (writtenChars f ts) f.numVariables f.size f.toSigned := by
  obtain ⟨-, hp, hu⟩ := sorted_writtenChars f ts
  refine ⟨⟨_, _, _, hp, ?_, integer?_toDigits hn, integer?_toDigits hm⟩, ?_, ?_, ?_⟩
  · rw [toList_problemLine, words_intercalate isWord_of_mem_problemWords]
    rfl
  · rw [hu, Formula.toSigned, List.forall₂_map_left_iff, List.forall₂_map_right_iff,
      List.forall₂_same]
    intro c hc
    rw [toList_clauseLine, words_intercalate isWord_of_mem_clauseWords]
    have hcs : c.toSigned ∈ f.toSigned := List.mem_map_of_mem hc
    refine spells_clauseWords (f.zero_not_mem_of_mem_toSigned hcs) fun v hv => ?_
    exact hn.of_natAbs_le (f.natAbs_le_of_mem_toSigned hcs hv)
  · exact fun vs hvs v hv => f.natAbs_le_of_mem_toSigned hvs hv
  · rw [f.filter_toSigned, f.length_toSigned]

/-! ## The whole text -/

theorem isBlank_of_ends {e : LineEnds} {c : Char} (h : e.ends c = true) : isBlank c = true := by
  cases e
  · simp only [LineEnds.ends, Bool.or_eq_true, Bool.and_eq_true, decide_eq_true_eq,
      beq_iff_eq] at h
    simp only [isBlank, Bool.or_eq_true, Bool.and_eq_true, decide_eq_true_eq, beq_iff_eq]
    omega
  · simp only [LineEnds.ends, beq_iff_eq] at h
    subst h
    decide
  · simp only [LineEnds.ends, Bool.or_eq_true, beq_iff_eq] at h
    rcases h with rfl | rfl <;> decide

theorem not_ends_of_mem_intercalate {e : LineEnds} {ws : List (List Char)} (h : ∀ w ∈ ws, IsWord w) :
    ∀ c ∈ [' '].intercalate ws, e.ends c = false := by
  intro c hc
  rcases mem_of_mem_intercalate hc with rfl | ⟨w, hw, hcw⟩
  · cases e <;> decide
  · have hb := (h w hw).2 c hcw
    by_contra he
    rw [isBlank_of_ends (by simpa using he)] at hb
    cases hb

theorem not_ends_of_mem_commentLine {e : LineEnds} {t : String}
    (h : ∀ c ∈ t.toList, e.ends c = false) : ∀ c ∈ (commentLine t).toList, e.ends c = false := by
  have hmark : e.ends 'c' = false ∧ e.ends ' ' = false := by cases e <;> decide
  unfold commentLine
  split
  · simpa using hmark.1
  · simpa [hmark] using h

theorem not_ends_of_mem_writtenChars {e : LineEnds} {f : Formula} {ts : List String}
    (h : ∀ t ∈ ts, ∀ c ∈ t.toList, e.ends c = false) :
    ∀ l ∈ writtenChars f ts, ∀ c ∈ l, e.ends c = false := by
  intro l hl
  rw [writtenChars, List.mem_append, List.mem_cons] at hl
  rcases hl with hl | rfl | hl
  · obtain ⟨t, ht, rfl⟩ := List.mem_map.1 hl
    exact not_ends_of_mem_commentLine (h t ht)
  · rw [toList_problemLine]
    exact not_ends_of_mem_intercalate isWord_of_mem_problemWords
  · obtain ⟨c, -, rfl⟩ := List.mem_map.1 hl
    rw [toList_clauseLine]
    exact not_ends_of_mem_intercalate isWord_of_mem_clauseWords

theorem toList_write (f : Formula) (comments : Option (List String)) :
    (write f comments).toList =
      ['\n'].intercalate (writtenChars f (comments.getD f.comments)) ++ ['\n'] := by
  have hlines : (writtenLines f (comments.getD f.comments)).map String.toList =
      writtenChars f (comments.getD f.comments) := by
    simp only [writtenLines, writtenChars, List.map_append, List.map_cons, List.map_map]
    rfl
  rw [write, String.toList_append, String.toList_intercalate, hlines]
  rfl

theorem lines_write {e : LineEnds} {f : Formula} {comments : Option (List String)}
    (h : ∀ t ∈ comments.getD f.comments, ∀ c ∈ t.toList, e.ends c = false) :
    lines e (write f comments).toList = writtenChars f (comments.getD f.comments) := by
  rw [toList_write, lines_intercalate _ (not_ends_of_mem_writtenChars h)]
  simp [writtenChars]

theorem ofLines_write {e : LineEnds} {f : Formula} {comments : Option (List String)}
    (hn : (toString f.numVariables).length ≤ maxDigits) (hm : (toString f.size).length ≤ maxDigits)
    (h : ∀ t ∈ comments.getD f.comments, ∀ c ∈ t.toList, e.ends c = false) :
    ofLines (lines e (write f comments).toList) =
      .ok { f with comments := (comments.getD f.comments).map stripped } := by
  rw [lines_write h]
  refine ofLines_eq_ok_iff.2 ⟨f.toSigned, ?_, ?_, ?_⟩
  · exact wellFormed_writtenChars _ (printable_natCast_iff.2 hn) (printable_natCast_iff.2 hm)
  · exact f.filter_toSigned.symm
  · exact (sorted_writtenChars f _).1.symm

/-- **The round trip.** A written formula reads back as itself, and its comments as they were given but
stripped, provided that no comment ends a line and no number is too long to be read. -/
theorem read_write (f : Formula) (comments : Option (List String))
    (hn : (toString f.numVariables).length ≤ maxDigits) (hm : (toString f.size).length ≤ maxDigits)
    (h : ∀ t ∈ comments.getD f.comments, ∀ c ∈ t.toList, LineEnds.boundary.ends c = false) :
    read .boundary (write f comments) =
      .ok { f with comments := (comments.getD f.comments).map stripped } :=
  ofLines_write hn hm h

/-- A clause with a literal, its negation and the literal again. -/
def repetitive : Formula where
  numVariables := 2
  clauses := [⟨[⟨0, false⟩, ⟨0, true⟩, ⟨0, false⟩], by decide⟩]
  comments := ["own"]
  inRange := by decide

theorem read_write_repetitive :
    read .boundary (write repetitive (some ["", " ", "p cnf 1 1", "1 0 "])) =
      .ok { repetitive with comments := ["", "", "p cnf 1 1", "1 0"] } :=
  read_write repetitive (some ["", " ", "p cnf 1 1", "1 0 "]) (by decide) (by decide)
    (by simp [LineEnds.ends])

end LocalSat.Dimacs
