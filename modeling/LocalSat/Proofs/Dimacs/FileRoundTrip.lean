import LocalSat.Dimacs.File
import LocalSat.Proofs.Dimacs.RoundTrip
import LocalSat.Proofs.Files

/-!
# Files that are read, saved and read again

A formula that was read from a file is in a form that survives being saved: its comments are stripped
and end no line (`stripped_comment`, `not_ends_comment`), and its counts are not too long to be read
(`counts_short`), since they were read. So what `write` makes of it reads back as the same formula, its
comments included (`readOctets_saved`), whatever layout it was first read from. Main statement: for every
file that loads, saving and loading give the formula back, and saving again the same octets
(`load_save_load`).
-/

namespace LocalSat

open LocalSat.Text

namespace Dimacs

/-! ## Formulas that were read -/

section
variable {e : LineEnds} {cs : List Char} {ls : List (List Char)} {f : Formula} {s : String}

/-- What a comment line says stands in some line of the text. -/
theorem exists_line_of_remark (h : s ∈ (marked 'c' ls).map remark) :
    stripped s = s ∧ ∃ l ∈ ls, ∀ c ∈ s.toList, c ∈ l := by
  obtain ⟨k, hk, rfl⟩ := List.mem_map.1 h
  obtain ⟨l, hl, rfl⟩ := List.mem_map.1 (List.mem_filter.1 (List.mem_filter.1 hk).1).1
  refine ⟨by rw [remark, stripped, String.toList_ofList, strip_strip], l, hl, fun c hc => ?_⟩
  rw [remark, String.toList_ofList] at hc
  exact mem_of_mem_strip (List.mem_of_mem_tail (mem_of_mem_strip hc))

/-- The comments of a formula that was read are stripped. -/
theorem stripped_comment (h : ofLines (lines e cs) = .ok f) : f.comments.map stripped = f.comments := by
  obtain ⟨-, -, -, hc⟩ := ofLines_eq_ok_iff.1 h
  have hs : ∀ s ∈ f.comments, stripped s = id s := fun s hs => (exists_line_of_remark (hc ▸ hs)).1
  rw [List.map_congr_left hs, List.map_id]

/-- The comments of a formula that was read end no line. -/
theorem not_ends_comment (h : ofLines (lines e cs) = .ok f) :
    ∀ s ∈ f.comments, ∀ c ∈ s.toList, e.ends c = false := by
  obtain ⟨-, -, -, hcomments⟩ := ofLines_eq_ok_iff.1 h
  intro s hs c hc
  rw [hcomments] at hs
  obtain ⟨-, l, hl, hsub⟩ := exists_line_of_remark hs
  exact not_ends_of_mem_lines l hl c (hsub c hc)

/-- The counts of a formula that was read are short enough to be read. -/
theorem counts_short (h : ofLines ls = .ok f) :
    (toString f.numVariables).length ≤ maxDigits ∧ (toString f.size).length ≤ maxDigits := by
  obtain ⟨lists, hw, -, -⟩ := ofLines_eq_ok_iff.1 h
  obtain ⟨line, n', m', -, -, hn, hm⟩ := hw.problem
  exact ⟨printable_natCast_iff.1 (printable_of_integer? hn),
    printable_natCast_iff.1 (printable_of_integer? hm)⟩

end

/-! ## Octets -/

/-- What a file holds to which the formula is saved under its own comments. -/
def saved (f : Formula) : List UInt8 := Utf8.encode (write f none).toList

/-- **What was read from any octets** reads back from its own octets. -/
theorem readOctets_saved {path path' : String} {octets : List UInt8} {f : Formula}
    (h : readOctets path octets = .ok f) : readOctets path' (saved f) = .ok f := by
  unfold readOctets at h
  cases hd : Utf8.decode octets with
  | error fault => simp [hd] at h
  | ok cs =>
    simp only [hd] at h
    obtain ⟨hn, hm⟩ := counts_short h
    rw [readOctets, saved, Utf8.decode_encode]
    refine (ofLines_write hn hm ?_).trans ?_
    · exact not_ends_comment h
    · rw [Option.getD_none, stripped_comment h]

/-! ## Files -/

section
variable {t t' : FileTree} {path target : String} {f : Formula}

theorem load_eq_ok_iff : load t path = .ok f ↔
    ∃ octets, t.read path = .ok octets ∧ readOctets path octets = .ok f := by
  constructor
  · intro h
    unfold load at h
    split at h
    · cases h
    · cases hr : t.read path with
      | error e => simp [hr] at h
      | ok octets =>
        simp only [hr] at h
        cases ho : readOctets path octets with
        | error e =>
          rw [ho] at h
          cases h
        | ok g =>
          rw [ho] at h
          cases h
          exact ⟨octets, rfl, ho⟩
  · rintro ⟨octets, hr, ho⟩
    rw [load_of_read hr, ho]
    rfl

/-- Where a file can be written, a formula can be saved. -/
theorem exists_save (h : t.Writable target) (f : Formula) : ∃ t', save t target f none = .ok t' := by
  obtain ⟨t₁, ht⟩ := h
  exact ⟨_, by rw [save, FileTree.write, ht]; rfl⟩

theorem read_save (h : save t target f none = .ok t') : t'.read target = .ok (saved f) := by
  unfold save at h
  cases hw : t.write target (write f none) with
  | error e => rw [hw] at h; cases h
  | ok t₁ =>
    rw [hw] at h
    cases h
    exact FileTree.read_of_write hw

/-- The formula is saved at the path with the given octets and loads from there. -/
structure Kept (t : FileTree) (f : Formula) (octets : List UInt8) (target : String) (t' : FileTree) :
    Prop where
  saves : save t target f none = .ok t'
  holds : t'.read target = .ok octets
  loads : load t' target = .ok f
  /-- It can be saved there again. -/
  writable : t'.Writable target

theorem kept_of_load (h : load t path = .ok f) {t₁ : FileTree} (ht : t₁.Writable target) :
    ∃ t', Kept t₁ f (saved f) target t' := by
  obtain ⟨octets, -, ho⟩ := load_eq_ok_iff.1 h
  obtain ⟨t', hs⟩ := exists_save ht f
  have hr := read_save hs
  exact ⟨t', hs, hr, load_eq_ok_iff.2 ⟨_, hr, readOctets_saved ho⟩, FileTree.writable_of_read hr⟩

/-- **Files keep what is loaded from them.** A formula that loads from a file, whatever its octets are,
can be saved wherever a file can be written, that file included; from there it loads as the same formula,
with the same comments, and what has loaded is saved anywhere with the same octets. -/
theorem load_save_load (h : load t path = .ok f) : t.Writable path ∧ ∃ octets,
    ∀ target, t.Writable target → ∃ t₁, Kept t f octets target t₁ ∧
      ∀ g, load t₁ target = .ok g → g = f ∧
        ∀ again, t₁.Writable again → ∃ t₂, Kept t₁ g octets again t₂ := by
  obtain ⟨old, hr, -⟩ := load_eq_ok_iff.1 h
  refine ⟨FileTree.writable_of_read hr, saved f, fun target ht => ?_⟩
  obtain ⟨t₁, hk⟩ := kept_of_load h ht
  refine ⟨t₁, hk, fun g hg => ?_⟩
  rw [hk.loads] at hg
  cases hg
  exact ⟨rfl, fun again ha => kept_of_load hk.loads ha⟩

end

/-- A file with a late problem line, mixed line ends, and a page end inside a comment. -/
def looseTree : FileTree :=
  ⟨[(["f.cnf", "."], .file (Utf8.encode "+1 0 7\r\nc\ta\x0cb \rp  cnf 1 1".toList))]⟩

theorem load_save_load_loose : ∃ f octets t₁ t₂, f.comments = ["a\x0cb"] ∧
    Kept looseTree f octets "f.cnf" t₁ ∧ Kept t₁ f octets "f.cnf" t₂ := by
  have hl : load looseTree "f.cnf" = .ok ⟨1, [⟨[⟨0, false⟩], by simp⟩], ["a\x0cb"], by decide⟩ := by
    rfl
  obtain ⟨hw, octets, hsaved⟩ := load_save_load hl
  obtain ⟨t₁, h₁, hagain⟩ := hsaved "f.cnf" hw
  obtain ⟨t₂, h₂⟩ := (hagain _ h₁.loads).2 "f.cnf" h₁.writable
  exact ⟨_, octets, t₁, t₂, rfl, h₁, h₂⟩

end Dimacs

end LocalSat
