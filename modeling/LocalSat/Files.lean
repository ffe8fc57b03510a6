import LocalSat.Text.Split
import LocalSat.Text.Utf8

/-!
# Files and directories

A file tree is a value: directories and files by their places. A path is resolved to its place by
dropping empty and dot components and going up for each pair of dots; a path that does not start at the
root starts at the working directory. Errors name the path as it was given. Main statements: an entry
stands where it was put and all else is as it was (`at?_put_self`, `at?_put_of_ne`), a file that was
written holds the text and nothing else (`read_of_write`), and what is appended comes after what was there
(`read_append`).
-/

namespace LocalSat

open LocalSat.Text

/-- Why a file or directory cannot be used. -/
inductive FileError where
  | notFound (path : String)
  | alreadyExists (path : String)
  | notDirectory (path : String)
  | isDirectory (path : String)
  /-- The file that was to hold a formula does not exist. -/
  | noFormula (path : String)
  /-- The directory that was to hold a table does not exist. -/
  | noTableDirectory (path : String)
deriving DecidableEq, Repr

/-- The place of a file or directory: where its path starts, and the names from there on, the last one
first. -/
abbrev Place := List String

/-- One step along a path. -/
def Place.step (p : Place) (name : String) : Place :=
  if name.isEmpty || name == "." then p
  else if name == ".." then (match p with | [] => [] | [root] => [root] | _ :: up => up)
  else name :: p

/-- The place that a path leads to. -/
def Place.ofPath (path : String) : Place :=
  let root := if path.toList.head? == some '/' then "/" else "."
  (fields '/' path).foldl Place.step [root]

/-- What stands at a place. -/
inductive Entry where
  | directory
  | file (octets : List UInt8)

/-- Files and directories by their places. The two places where paths start are directories. -/
structure FileTree where
  entries : List (Place × Entry)

namespace FileTree

/-- A tree without files. -/
def empty : FileTree := ⟨[]⟩

/-- What stands at a place. -/
def at? (t : FileTree) (p : Place) : Option Entry :=
  if p.length ≤ 1 then some .directory else t.entries.lookup p

/-- Puts an entry at a place. -/
def put (t : FileTree) (p : Place) (e : Entry) : FileTree :=
  if t.entries.any (·.1 == p) then ⟨t.entries.map fun (q, d) => if q == p then (q, e) else (q, d)⟩
  else ⟨t.entries ++ [(p, e)]⟩

/-- Whether a path asks for a directory by its last character. -/
def endsInSlash (path : String) : Bool := path.toList.getLast? == some '/'

/-- What a path leads to. -/
def entry? (t : FileTree) (path : String) : Option Entry :=
  if path.isEmpty then none
  else match t.at? (.ofPath path) with
    | some (.file octets) => if endsInSlash path then none else some (.file octets)
    | e => e

/-- Whether a path leads to anything. -/
def contains (t : FileTree) (path : String) : Bool := (t.entry? path).isSome

/-- Whether a path leads to a directory. -/
def isDirectory (t : FileTree) (path : String) : Bool :=
  match t.entry? path with
  | some .directory => true
  | _ => false

/-- The octets of a file. -/
def read (t : FileTree) (path : String) : Except FileError (List UInt8) :=
  match t.entry? path with
  | some (.file octets) => .ok octets
  | some .directory => .error (.isDirectory path)
  | none => .error (.notFound path)

/-- Whether some place on the way is a file. -/
def blocked (t : FileTree) : Place → Bool
  | [] => false
  | name :: up =>
    (match t.at? (name :: up) with | some (.file _) => true | _ => false) || blocked t up

/-- Opens a file for writing at its end; with `fresh` its old content goes. A missing file is created,
a missing directory is not. -/
def openFile (t : FileTree) (fresh : Bool) (path : String) : Except FileError FileTree :=
  let p := Place.ofPath path
  if path.isEmpty then .error (.notFound path)
  else match t.at? p with
    | some .directory => .error (.isDirectory path)
    | some (.file octets) =>
      if endsInSlash path then .error (.notDirectory path)
      else .ok (t.put p (.file (if fresh then [] else octets)))
    | none =>
      match t.at? p.tail with
      | some .directory =>
        if endsInSlash path then .error (.isDirectory path) else .ok (t.put p (.file []))
      | some (.file _) => .error (.notDirectory path)
      | none => if blocked t p.tail then .error (.notDirectory path) else .error (.notFound path)

/-- Writes text at the end of an open file. -/
def append (t : FileTree) (path text : String) : FileTree :=
  let p := Place.ofPath path
  match t.at? p with
  | some (.file octets) => t.put p (.file (octets ++ Utf8.encode text.toList))
  | _ => t

/-- Writes a whole file. -/
def write (t : FileTree) (path text : String) : Except FileError FileTree :=
  (t.openFile true path).map (·.append path text)

/-- The path of the directory that holds what a path names, empty for a bare name. -/
def parent (path : String) : String :=
  let cs := path.toList.reverse.dropWhile (· != '/')
  let up := (cs.dropWhile (· == '/')).reverse
  if up.isEmpty then String.ofList cs else String.ofList up

/-- The path without slashes at its end. -/
def trimmed (path : String) : String :=
  let cs := (path.toList.reverse.dropWhile (· == '/')).reverse
  if cs.isEmpty then path else String.ofList cs

/-- The paths of the directories above, nearest first, while they do not exist. -/
def missingAbove (t : FileTree) : Nat → String → List String
  | 0, _ => []
  | fuel + 1, path =>
    let up := parent (trimmed path)
    if up.isEmpty || up == path || t.contains up then [] else up :: missingAbove t fuel up

/-- Makes one directory; with `lenient` it may be there already. -/
def makeDirectory (lenient : Bool) (t : FileTree) (path : String) : Except FileError FileTree :=
  let p := Place.ofPath path
  if path.isEmpty then .error (.notFound path)
  else match t.at? p with
    | some .directory => if lenient then .ok t else .error (.alreadyExists path)
    | some (.file _) => .error (.alreadyExists path)
    | none =>
      match t.at? p.tail with
      | some .directory => .ok (t.put p .directory)
      | some (.file _) => .error (.notDirectory path)
      | none => if blocked t p.tail then .error (.notDirectory path) else .error (.notFound path)

/-- Makes a directory and those missing above it. -/
def makeDirectories (t : FileTree) (path : String) : Except FileError FileTree :=
  ((missingAbove t path.length path).reverse ++ [path]).foldlM (makeDirectory true) t

/-- A path of a directory and a name in it. -/
def join (directory name : String) : String :=
  if name.toList.head? == some '/' || directory.isEmpty then name
  else if endsInSlash directory then directory ++ name
  else directory ++ "/" ++ name

/-- The last component of a path. -/
def baseName (path : String) : String :=
  String.ofList (path.toList.reverse.takeWhile (· != '/')).reverse

/-- A name without its last dot and what follows; dots at its start do not count. -/
def stem (name : String) : String :=
  let cs := name.toList
  let lead := cs.takeWhile (· == '.')
  let body := cs.drop lead.length
  if body.contains '.' then
    String.ofList (lead ++ ((body.reverse.dropWhile (· != '.')).drop 1).reverse)
  else name

/-- The path in its shortest form, if it starts at the root. -/
def normal (path : String) : String :=
  if path.toList.head? == some '/' then
    "/" ++ String.intercalate "/" ((Place.ofPath path).dropLast.reverse)
  else path

/-- The path of the directory above, without empty and dot components; it never is the empty text. -/
def plainParent (path : String) : String :=
  let names := ((fields '/' path).filter fun n => !n.isEmpty && n != ".").dropLast
  let body := String.intercalate "/" names
  if path.toList.head? == some '/' then "/" ++ body
  else if names.isEmpty then "." else body

/-- The files below a directory, by their paths from there. -/
def below (t : FileTree) (directory : String) : List (String × List UInt8) :=
  let d := Place.ofPath directory
  t.entries.filterMap fun (p, e) =>
    match e with
    | .directory => none
    | .file octets =>
      if d.length < p.length && p.drop (p.length - d.length) == d then
        some (String.intercalate "/" (p.take (p.length - d.length)).reverse, octets)
      else none

/-! ## What stands where -/

variable {t t' : FileTree} {p q : Place} {e : Entry} {path text : String} {octets : List UInt8}

theorem lookup_map_of_ne (e : Entry) (h : q ≠ p) : ∀ es : List (Place × Entry),
    (es.map fun (r, d) => if r == p then (r, e) else (r, d)).lookup q = es.lookup q
  | [] => rfl
  | (r, d) :: es => by
    have ih := lookup_map_of_ne e h es
    show List.lookup q ((if r == p then (r, e) else (r, d)) :: List.map _ es) = _
    by_cases hr : r = p
    · have hq : (q == r) = false := by simpa [hr] using h
      rw [if_pos (beq_iff_eq.2 hr), List.lookup_cons, List.lookup_cons, hq]
      exact ih
    · rw [if_neg (by simpa using hr), List.lookup_cons, List.lookup_cons, ih]

theorem lookup_map_self : ∀ {es : List (Place × Entry)}, es.any (·.1 == p) = true →
    (es.map fun (r, d) => if r == p then (r, e) else (r, d)).lookup p = some e
  | [], h => by cases h
  | (r, d) :: es, h => by
    show List.lookup p ((if r == p then (r, e) else (r, d)) :: List.map _ es) = _
    by_cases hr : r = p
    · rw [if_pos (beq_iff_eq.2 hr), hr, List.lookup_cons_self]
    · have hpr : (p == r) = false := by simpa using Ne.symm hr
      have hes : es.any (·.1 == p) = true := by simpa [hr] using h
      rw [if_neg (by simpa using hr), List.lookup_cons, hpr]
      exact lookup_map_self hes

theorem lookup_eq_none : ∀ {es : List (Place × Entry)}, ¬ es.any (·.1 == p) = true → es.lookup p = none
  | [], _ => rfl
  | (r, d) :: es, h => by
    simp only [List.any_cons, Bool.or_eq_true, beq_iff_eq, not_or] at h
    have hpr : (p == r) = false := by simpa using Ne.symm h.1
    rw [List.lookup_cons, hpr]
    exact lookup_eq_none h.2

/-- An entry stands where it was put. -/
theorem at?_put_self (hp : 1 < p.length) : (t.put p e).at? p = some e := by
  rw [at?, if_neg (by omega), put]
  split
  · rename_i h
    exact lookup_map_self h
  · rename_i h
    rw [List.lookup_append, lookup_eq_none h, Option.none_or, List.lookup_cons_self]

/-- Elsewhere all is as it was. -/
theorem at?_put_of_ne (h : q ≠ p) : (t.put p e).at? q = t.at? q := by
  unfold at? put
  split
  · rfl
  · split
    · exact lookup_map_of_ne e h t.entries
    · have hq : (q == p) = false := by simpa using h
      rw [List.lookup_append, List.lookup_cons, hq, List.lookup_nil, Option.or_none]

theorem length_of_at? (h : t.at? p ≠ some .directory) : 1 < p.length := by
  refine Nat.lt_of_not_le fun hp => h ?_
  exact if_pos hp

/-! ## Opening and writing -/

/-- What a path must be like for a file to be opened at it. -/
structure Names (path : String) : Prop where
  nonempty : path.isEmpty = false
  noSlash : endsInSlash path = false
  deep : 1 < (Place.ofPath path).length

/-- Opening a file puts a file where its path leads: a new one in a directory, or the old one with its
content or without. -/
theorem openFile_eq {fresh : Bool} (h : t.openFile fresh path = .ok t') : Names path ∧
    ((∃ octets, t.at? (.ofPath path) = some (.file octets) ∧
        t' = t.put (.ofPath path) (.file (if fresh then [] else octets))) ∨
      (t.at? (.ofPath path) = none ∧ t.at? (Place.ofPath path).tail = some .directory ∧
        t' = t.put (.ofPath path) (.file []))) := by
  unfold openFile at h
  by_cases hne : path.isEmpty = true
  · simp only [hne, if_true] at h
    cases h
  simp only [hne, Bool.false_eq_true, if_false] at h
  rw [Bool.not_eq_true] at hne
  split at h
  · cases h
  · rename_i octets ho
    split at h
    · cases h
    · rename_i hs
      cases h
      exact ⟨⟨hne, by simpa using hs, length_of_at? (by rw [ho]; simp)⟩, .inl ⟨octets, ho, rfl⟩⟩
  · rename_i ho
    split at h
    · rename_i hd
      split at h
      · cases h
      · rename_i hs
        cases h
        exact ⟨⟨hne, by simpa using hs, length_of_at? (by rw [ho]; simp)⟩, .inr ⟨ho, hd, rfl⟩⟩
    · cases h
    · split at h <;> cases h

/-- A file that is there is opened. -/
theorem openFile_of_file (fresh : Bool) (hn : Names path)
    (h : t.at? (.ofPath path) = some (.file octets)) :
    t.openFile fresh path = .ok (t.put (.ofPath path) (.file (if fresh then [] else octets))) := by
  unfold openFile
  simp only [hn.nonempty, hn.noSlash, h, Bool.false_eq_true, if_false]

/-- A file that is not there is made in a directory. -/
theorem openFile_of_none (fresh : Bool) (hn : Names path) (h : t.at? (.ofPath path) = none)
    (hd : t.at? (Place.ofPath path).tail = some .directory) :
    t.openFile fresh path = .ok (t.put (.ofPath path) (.file [])) := by
  unfold openFile
  simp only [hn.nonempty, hn.noSlash, h, hd, Bool.false_eq_true, if_false]

/-- A file is read where it stands. -/
theorem read_eq_ok_iff : t.read path = .ok octets ↔
    Names path ∧ t.at? (.ofPath path) = some (.file octets) := by
  unfold read entry?
  constructor
  · intro h
    by_cases hne : path.isEmpty = true
    · simp only [hne, if_true] at h
      cases h
    rw [Bool.not_eq_true] at hne
    simp only [hne, Bool.false_eq_true, if_false] at h
    cases he : t.at? (.ofPath path) with
    | none => simp [he] at h
    | some entry =>
      cases entry with
      | directory => simp [he] at h
      | file os =>
        by_cases hs : endsInSlash path = true
        · simp [he, hs] at h
        · rw [Bool.not_eq_true] at hs
          simp only [he, hs, Bool.false_eq_true, if_false, Except.ok.injEq] at h
          exact ⟨⟨hne, hs, length_of_at? (by rw [he]; simp)⟩, by rw [h]⟩
  · rintro ⟨hn, he⟩
    simp only [hn.nonempty, hn.noSlash, he, Bool.false_eq_true, if_false]

/-- What is put as a file can be read. -/
theorem read_put (hn : Names path) : (t.put (.ofPath path) (.file octets)).read path = .ok octets :=
  read_eq_ok_iff.2 ⟨hn, at?_put_self hn.deep⟩

theorem read_append {old : List UInt8} (h : t.read path = .ok old) (text : String) :
    (t.append path text).read path = .ok (old ++ Utf8.encode text.toList) := by
  obtain ⟨hn, ho⟩ := read_eq_ok_iff.1 h
  unfold append
  simp only [ho]
  exact read_put hn

/-- A file that was opened afresh is empty. -/
theorem read_openFile (h : t.openFile true path = .ok t') : t'.read path = .ok [] := by
  obtain ⟨hn, ⟨octets, -, rfl⟩ | ⟨-, -, rfl⟩⟩ := openFile_eq h
  · exact read_put hn
  · exact read_put hn

/-- A file that was written holds the text and nothing else. -/
theorem read_of_write (h : t.write path text = .ok t') : t'.read path = .ok (Utf8.encode text.toList) := by
  unfold write at h
  cases ho : t.openFile true path with
  | error e => rw [ho] at h; cases h
  | ok t₁ =>
    rw [ho] at h
    cases h
    exact read_append (read_openFile ho) text

end FileTree

end LocalSat
