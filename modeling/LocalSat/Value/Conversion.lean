import LocalSat.Decimal.Numeral
import LocalSat.Decimal.Number
import LocalSat.Value.Display

/-!
# Settings that have to be numbers

A setting may be written as a number or as the text of one. `toInteger` and `toReal` read it either way;
a real number loses its places when an integer is wanted. Main statements: an integer is its own reading
(`toInteger_int`), and a rounded real number has few digits (`printable_of_roundReal`).
-/

namespace LocalSat

open LocalSat.Decimal LocalSat.Text

/-- Why a value is not the number that is wanted. -/
inductive ConversionError where
  /-- A value of this kind is never an integer. -/
  | integerKind (kind : String)
  /-- A value of this kind is never a real number. -/
  | realKind (kind : String)
  /-- The text, in quotes, is no integer. -/
  | integerText (shown : String)
  /-- The text, in quotes, is no real number. -/
  | realText (shown : String)
  | infinite
  | notANumber
  /-- The integer is beyond the range of real numbers. -/
  | tooLarge
deriving DecidableEq, Repr

namespace Value

/-- The name of a setting's kind, lists and mappings being parts of a configuration. -/
def settingKind : Value → String
  | list _ => "ListConfig"
  | mapping _ => "DictConfig"
  | v => v.kind

/-- The fraction that a double is. -/
def fraction (x : Float) : Except ConversionError (Int × Nat) :=
  match Binary.ofFloat? x with
  | some b => .ok b.fraction
  | none => if x.isNaN then .error .notANumber else .error .infinite

/-- The integer that a setting gives. -/
def toInteger (v : Value) : Except ConversionError Int :=
  match v with
  | bool b => .ok (if b then 1 else 0)
  | int n => .ok n
  | real x => (fraction x).map fun (p, q) => p.tdiv q
  | text s =>
    match readInteger? s with
    | some n => .ok n
    | none => .error (.integerText (quoted s))
  | v => .error (.integerKind v.settingKind)

/-- The double nearest to an integer, if there is one. -/
def realOfInteger (n : Int) : Except ConversionError Float :=
  let x := nearest (n < 0) n.natAbs 0
  if x.isFinite then .ok x else .error .tooLarge

/-- The real number that a setting gives. -/
def toReal (v : Value) : Except ConversionError Float :=
  match v with
  | bool b => .ok (if b then 1.0 else 0.0)
  | int n => realOfInteger n
  | real x => .ok x
  | text s =>
    match readReal? s with
    | some x => .ok x
    | none => .error (.realText (quoted s))
  | v => .error (.realKind v.settingKind)

/-- The integer nearest to a double, a half going to the even neighbour. -/
def roundReal (x : Float) : Except ConversionError Int :=
  (fraction x).map fun (p, q) =>
    if p < 0 then -(roundDiv p.natAbs q : Int) else (roundDiv p.natAbs q : Int)

theorem toInteger_int (n : Int) : (int n).toInteger = .ok n := rfl

/-- The numerator of a finite double can be printed, and its denominator is positive. -/
theorem fraction_bounds {x : Float} {f : Int × Nat} (h : fraction x = .ok f) :
    Printable f.1 ∧ 0 < f.2 := by
  unfold fraction at h
  split at h
  · rename_i b hb
    obtain ⟨hm, he⟩ := Binary.ofFloat?_bounds hb
    have hnum := b.natAbs_fraction ▸ mul_pow_lt hm (Nat.le_refl (53 + b.exponent.toNat))
    obtain rfl := Except.ok.inj h
    exact ⟨printable_of_lt_pow hnum (by rw [maxDigits]; omega), b.fraction_pos⟩
  · split at h <;> cases h

/-- No double rounds to an integer that is too long to be printed. -/
theorem printable_of_roundReal {x : Float} {n : Int} (h : roundReal x = .ok n) : Printable n := by
  unfold roundReal at h
  cases hf : fraction x with
  | error e =>
    rw [hf] at h
    cases h
  | ok f =>
    rw [hf] at h
    obtain ⟨hprint, hden⟩ := fraction_bounds hf
    obtain rfl := Except.ok.inj h
    refine hprint.of_natAbs_le ?_
    simp only
    split <;> simpa only [Int.natAbs_neg, Int.natAbs_natCast] using roundDiv_le _ hden

end Value

end LocalSat
