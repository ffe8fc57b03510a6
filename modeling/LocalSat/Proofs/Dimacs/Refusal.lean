import LocalSat.Dimacs.File
import LocalSat.Proofs.Dimacs.FirstFault

/-!
# Texts that are no formula

A text is refused with a complaint about the input, whatever is wrong with it (`told_of_readOctets`): the
faults that a text can have are those of `Refused`, and all that they name was read and can be printed. So
loading a file fails because of the file or with such a complaint, and ends the program in good order
either way (`Refusal.isExpected`).
-/

namespace LocalSat.Dimacs

open LocalSat.Text

/-- The failure is a complaint about the input. -/
def Told (e : ReadError) : Prop :=
  ∃ c, (Failure.input e).complaint? = some c ∧ Complaint.Kind.input.name ∈ c.kind.lineage

theorem told_of_complaint {e : ReadError} {c : Complaint} (h : (Failure.input e).complaint? = some c)
    (hk : c.kind = .input ∨ c.kind = .header ∨ c.kind = .clause ∨ c.kind = .countMismatch) : Told e := by
  refine ⟨c, h, ?_⟩
  rcases hk with hk | hk | hk | hk <;> rw [hk] <;> decide

theorem told_of_refused {ls : List (List Char)} {e : ReadError} (h : Refused ls e) : Told e := by
  cases h with
  | form first =>
    obtain ⟨before, line, after, -, -, fault⟩ := first
    cases fault with
    | repeated | misshapen => exact told_of_complaint rfl (.inr (.inl rfl))
    | badToken => exact told_of_complaint rfl (.inr (.inr (.inl rfl)))
  | headless => exact told_of_complaint rfl (.inr (.inl rfl))
  | excess formed declared first =>
    obtain ⟨before, line, after, -, -, fault⟩ := first
    cases fault
    exact told_of_complaint rfl (.inr (.inr (.inl rfl)))
  | count => exact told_of_complaint rfl (.inr (.inr (.inr rfl)))

/-- **Octets that are no formula** are refused with a complaint about the input. -/
theorem told_of_readOctets {path : String} {octets : List UInt8} {e : ReadError}
    (h : readOctets path octets = .error e) : Told e := by
  unfold readOctets at h
  split at h
  · cases h
    exact told_of_complaint rfl (.inl rfl)
  · exact told_of_refused (refused_of_ofLines h)

/-- Why there is no formula in a file: there is no such file, it is a directory, or what it holds is
refused. -/
inductive Refusal (tree : FileTree) (path : String) : Failure → Prop
  | missing (absent : tree.contains path = false) : Refusal tree path (.file (.noFormula path))
  | directory (there : tree.isDirectory path = true) : Refusal tree path (.file (.isDirectory path))
  | input {octets : List UInt8} {e : ReadError} (content : tree.read path = .ok octets)
      (refused : readOctets path octets = .error e) (told : Told e) : Refusal tree path (.input e)

section
variable {tree : FileTree} {path : String} {e : Failure}

theorem Refusal.isExpected (h : Refusal tree path e) : e.isExpected = true := by
  cases h with
  | missing | directory => rfl
  | input _ _ told =>
    obtain ⟨c, hc, -⟩ := told
    show (Failure.input _).complaint?.isSome = true
    rw [hc]
    rfl

/-- What is there and cannot be read is a directory. -/
theorem isDirectory_of_read {fe : FileError} (hc : tree.contains path = true)
    (hr : tree.read path = .error fe) : tree.isDirectory path = true ∧ fe = .isDirectory path := by
  unfold FileTree.contains at hc
  unfold FileTree.read at hr
  unfold FileTree.isDirectory
  cases he : tree.entry? path with
  | none => simp [he] at hc
  | some entry =>
    rw [he] at hr
    cases entry with
    | directory =>
      cases hr
      exact ⟨rfl, rfl⟩
    | file octets => cases hr

/-- **A file without a formula** is refused for one of these reasons. -/
theorem refusal_of_load (h : load tree path = .error e) : Refusal tree path e := by
  unfold load at h
  by_cases hc : tree.contains path = true
  · simp only [hc, Bool.not_true, Bool.false_eq_true, if_false] at h
    cases hr : tree.read path with
    | error fe =>
      obtain ⟨hd, rfl⟩ := isDirectory_of_read hc hr
      rw [hr] at h
      cases h
      exact .directory hd
    | ok octets =>
      rw [hr] at h
      simp only at h
      cases ho : readOctets path octets with
      | error re =>
        rw [ho] at h
        cases h
        exact .input hr ho (told_of_readOctets ho)
      | ok f =>
        rw [ho] at h
        cases h
  · rw [Bool.not_eq_true] at hc
    simp only [hc, Bool.not_false, if_true] at h
    cases h
    exact .missing hc

end

end LocalSat.Dimacs
