import LocalSat.Files

/-!
# Paths with a common beginning

Paths that differ only in the end of their last name lead to places that differ only in their first name
(`exists_ofPath`), so writing to one of them leaves the others and the directory above as they are.
Whether a file can be written depends on what stands at its place and above it alone (`openFile_isOk_iff`).
-/

namespace LocalSat

open LocalSat.Text

/-! ## The end of a path -/

/-- What follows the last separator grows with the text. -/
theorem exists_pieces (sep : Char → Bool) : ∀ cs : List Char, ∃ front last,
    ∀ w : List Char, (∀ c ∈ w, sep c = false) → pieces sep (cs ++ w) = front ++ [last ++ w]
  | [] => ⟨[], [], fun _ hw => pieces_of_not_sep hw⟩
  | c :: cs => by
    obtain ⟨front, last, h⟩ := exists_pieces sep cs
    by_cases hc : sep c = true
    · refine ⟨[] :: front, last, fun w hw => ?_⟩
      rw [List.cons_append, pieces, if_pos hc, h w hw]
      rfl
    · cases front with
      | nil =>
        refine ⟨[], c :: last, fun w hw => ?_⟩
        rw [List.cons_append, pieces, if_neg hc, h w hw]
        rfl
      | cons v vs =>
        refine ⟨(c :: v) :: vs, last, fun w hw => ?_⟩
        rw [List.cons_append, pieces, if_neg hc, h w hw]
        rfl

/-- The end of a file's name: it holds no slash, and not only dots. -/
structure NameEnd (s : String) : Prop where
  noSlash : '/' ∉ s.toList
  named : ∃ c ∈ s.toList, c ≠ '.'

theorem NameEnd.not_empty {s : String} (h : NameEnd s) : s.toList ≠ [] := by
  obtain ⟨c, hc, -⟩ := h.named
  exact List.ne_nil_of_mem hc

theorem NameEnd.step {s : String} (h : NameEnd s) (name : String) (p : Place) :
    p.step (name ++ s) = (name ++ s) :: p := by
  obtain ⟨c, hc, hdot⟩ := h.named
  have hmem : c ∈ (name ++ s).toList := by simp [hc]
  have hne : ∀ dots : String, (∀ d ∈ dots.toList, d = '.') → name ++ s ≠ dots := by
    intro dots hdots he
    exact hdot (hdots c (he ▸ hmem))
  have hempty : (name ++ s).isEmpty = false := by
    rw [Bool.eq_false_iff, ne_eq, String.isEmpty_iff]
    exact hne "" (by simp)
  have hone : (name ++ s == ".") = false := by simpa using hne "." (by simp)
  have htwo : (name ++ s == "..") = false := by simpa using hne ".." (by simp)
  unfold Place.step
  rw [hempty, hone, htwo]
  rfl

/-- Whether a path starts at the root is told by what stands before its end. -/
theorem NameEnd.head_append {s : String} (h : NameEnd s) (x : String) :
    ((x ++ s).toList.head? == some '/') = (x.toList.head? == some '/') := by
  rw [String.toList_append]
  cases x.toList with
  | cons c cs => rfl
  | nil =>
    cases hl : s.toList with
    | nil => exact absurd hl h.not_empty
    | cons d ds =>
      have hd : d ≠ '/' := by
        rintro rfl
        exact h.noSlash (hl ▸ List.mem_cons_self)
      simpa using hd

theorem Place.step_ne_nil {p : Place} (h : p ≠ []) (name : String) : p.step name ≠ [] := by
  unfold Place.step
  split
  · exact h
  · split
    · cases p with
      | nil => exact absurd rfl h
      | cons root up => cases up <;> simp
    · simp

theorem Place.foldl_step_ne_nil : ∀ (names : List String) {p : Place}, p ≠ [] →
    names.foldl Place.step p ≠ []
  | [], _, h => h
  | name :: names, _, h => foldl_step_ne_nil names (step_ne_nil h name)

/-- **Paths that differ in their end** lead to places next to each other. -/
theorem exists_ofPath (x : String) : ∃ name up, up ≠ [] ∧ ∀ s, NameEnd s →
    Place.ofPath (x ++ s) = (name ++ s) :: up := by
  obtain ⟨front, last, h⟩ := exists_pieces (· == '/') x.toList
  let root : String := if x.toList.head? == some '/' then "/" else "."
  refine ⟨String.ofList last, (front.map String.ofList).foldl Place.step [root],
    Place.foldl_step_ne_nil _ (List.cons_ne_nil _ _), fun s hs => ?_⟩
  have hsep : ∀ c ∈ s.toList, (c == '/') = false := by
    intro c hc
    rw [beq_eq_false_iff_ne]
    rintro rfl
    exact hs.noSlash hc
  unfold Place.ofPath
  rw [hs.head_append, fields, String.toList_append, h _ hsep, List.map_append, List.foldl_append]
  show Place.step _ (String.ofList (last ++ s.toList)) = _
  rw [String.ofList_append, String.ofList_toList, hs.step]

namespace FileTree

theorem endsInSlash_append {s : String} (hs : NameEnd s) (x : String) : endsInSlash (x ++ s) = false := by
  unfold endsInSlash
  rw [String.toList_append, List.getLast?_append, List.getLast?_eq_some_getLast hs.not_empty]
  have hne : s.toList.getLast hs.not_empty ≠ '/' := fun he => hs.noSlash (he ▸ List.getLast_mem _)
  simpa using hne

theorem names_append {s : String} (hs : NameEnd s) (x : String) : Names (x ++ s) := by
  obtain ⟨name, up, hup, h⟩ := exists_ofPath x
  refine ⟨?_, endsInSlash_append hs x, ?_⟩
  · rw [Bool.eq_false_iff, ne_eq, String.isEmpty_iff]
    intro he
    have hl := congrArg String.toList he
    rw [String.toList_append] at hl
    exact hs.not_empty (List.append_eq_nil_iff.1 hl).2
  · rw [h s hs, List.length_cons]
    have := List.length_pos_iff.2 hup
    omega

theorem Names.tail_ne {path : String} (h : Names path) :
    (Place.ofPath path).tail ≠ Place.ofPath path := by
  intro he
  have hl := congrArg List.length he
  have hdeep := h.deep
  rw [List.length_tail] at hl
  omega

/-- A path in a directory ends as the name does. -/
theorem exists_join (directory start : String) : ∃ x, ∀ s, NameEnd s →
    join directory (start ++ s) = x ++ s := by
  by_cases hroot : (start.toList.head? == some '/' || directory.isEmpty) = true
  · refine ⟨start, fun s hs => ?_⟩
    rw [join, hs.head_append, if_pos hroot]
  by_cases hslash : endsInSlash directory = true
  · refine ⟨directory ++ start, fun s hs => ?_⟩
    rw [join, hs.head_append, if_neg hroot, if_pos hslash, String.append_assoc]
  · refine ⟨directory ++ "/" ++ start, fun s hs => ?_⟩
    rw [join, hs.head_append, if_neg hroot, if_neg hslash]
    exact String.append_assoc.symm

/-! ## Writing -/

/-- A file can be written at the path. -/
def Writable (t : FileTree) (path : String) : Prop :=
  ∃ t', t.openFile true path = .ok t'

theorem writable_of_read {t : FileTree} {path : String} {octets : List UInt8}
    (h : t.read path = .ok octets) : t.Writable path := by
  obtain ⟨hn, ho⟩ := read_eq_ok_iff.1 h
  exact ⟨_, openFile_of_file true hn ho⟩

theorem writable_of_write {t t' : FileTree} {path text : String} (h : t.write path text = .ok t') :
    t.Writable path := by
  unfold write at h
  cases ho : t.openFile true path with
  | error err => rw [ho] at h; cases h
  | ok t₁ => exact ⟨t₁, ho⟩

/-- What stands at a file's place and above it tells whether it can be written, and nothing else does. -/
theorem openFile_isOk_iff {t : FileTree} {path : String} (hn : Names path) (fresh : Bool) :
    (∃ t', t.openFile fresh path = .ok t') ↔
      (∃ octets, t.at? (.ofPath path) = some (.file octets)) ∨
        (t.at? (.ofPath path) = none ∧ t.at? (Place.ofPath path).tail = some .directory) := by
  constructor
  · rintro ⟨t', h⟩
    obtain ⟨-, ⟨octets, ho, -⟩ | ⟨ho, hd, -⟩⟩ := openFile_eq h
    · exact .inl ⟨octets, ho⟩
    · exact .inr ⟨ho, hd⟩
  · rintro (⟨octets, ho⟩ | ⟨ho, hd⟩)
    · exact ⟨_, openFile_of_file fresh hn ho⟩
    · exact ⟨_, openFile_of_none fresh hn ho hd⟩

/-- Opening a file afresh leaves it empty. -/
theorem openFile_fresh {t t' : FileTree} {path : String} (h : t.openFile true path = .ok t') :
    t' = t.put (.ofPath path) (.file []) := by
  obtain ⟨-, ⟨octets, -, rfl⟩ | ⟨-, -, rfl⟩⟩ := openFile_eq h
  · rfl
  · rfl

theorem at?_append_of_ne {t : FileTree} {path : String} {q : Place} (h : q ≠ .ofPath path)
    (text : String) : (t.append path text).at? q = t.at? q := by
  unfold append
  simp only
  split
  · exact at?_put_of_ne h
  · rfl

theorem at?_append_self {t : FileTree} {path : String} {octets : List UInt8}
    (h : t.at? (.ofPath path) = some (.file octets)) (text : String) :
    (t.append path text).at? (.ofPath path) = some (.file (octets ++ Utf8.encode text.toList)) := by
  unfold append
  simp only [h]
  exact at?_put_self (length_of_at? (by rw [h]; simp))

/-- What is written to a file that was opened afresh is all that it holds. -/
theorem at?_append_fresh {t t' : FileTree} {path : String} (h : t.openFile true path = .ok t')
    (text : String) :
    (t'.append path text).at? (.ofPath path) = some (.file (Utf8.encode text.toList)) := by
  obtain ⟨hn, -⟩ := openFile_eq h
  rw [openFile_fresh h]
  exact at?_append_self (at?_put_self hn.deep) text

theorem at?_append_fresh_of_ne {t t' : FileTree} {path : String} {q : Place}
    (h : t.openFile true path = .ok t') (hq : q ≠ .ofPath path) (text : String) :
    (t'.append path text).at? q = t.at? q := by
  rw [at?_append_of_ne hq, openFile_fresh h, at?_put_of_ne hq]

theorem at?_write_of_ne {t t' : FileTree} {path text : String} {q : Place}
    (h : t.write path text = .ok t') (hq : q ≠ .ofPath path) : t'.at? q = t.at? q := by
  unfold write at h
  cases ho : t.openFile true path with
  | error err => rw [ho] at h; cases h
  | ok t₁ =>
    rw [ho] at h
    cases h
    exact at?_append_fresh_of_ne ho hq text

/-- A path can be written to as long as its place and the one above are as they were, or a file has come
to its place. -/
theorem writable_iff_of_at? {t t' : FileTree} {path : String} (hn : Names path)
    (habove : t'.at? (Place.ofPath path).tail = t.at? (Place.ofPath path).tail)
    (hplace : t'.at? (.ofPath path) = t.at? (.ofPath path) ∨
      (t.Writable path ∧ ∃ octets, t'.at? (.ofPath path) = some (.file octets))) :
    t'.Writable path ↔ t.Writable path := by
  have hiff := fun t : FileTree => openFile_isOk_iff (t := t) hn true
  rcases hplace with he | ⟨hw, octets, ho⟩
  · rw [Writable, Writable, hiff, hiff, he, habove]
  · exact iff_of_true ((hiff t').2 (.inl ⟨octets, ho⟩)) hw

end FileTree

end LocalSat
