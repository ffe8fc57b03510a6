import LocalSat.Text.Blank
import LocalSat.Text.Digit

/-!
# Reading and printing integers

An integer is written with an optional sign and decimal digits of any script; a single underscore may
stand between two digits, leading zeros are allowed, and a numeral of more than `maxDigits` digits is
refused. Neither is an integer of more digits printed: what is said of the numbers that a formula, a random
instance, a run or a benchmark was given asks whether they are `Printable`. Numbers of things that were
counted one by one (clauses, iterations, runs, events) are printed without asking, since no count gets that
far, and so are the values of settings, and of complaints and events that are made by hand. Main
statements: a printable integer reads back from its text (`integer?_toString`), and what was read is
printable (`printable_of_integer?`).
-/

namespace LocalSat.Text

/-- Most digits of a numeral that is read, leading zeros counted, and of an integer that is printed; sign
and underscores do not count. -/
def maxDigits : Nat := 4300

/-- The least number that has more digits. It is never to be computed by unfolding. -/
@[irreducible]
def beyondDigits : Nat := Nat.pow 10 maxDigits

/-- The integer has no more digits than are printed. -/
def Printable (n : Int) : Prop := n.natAbs < beyondDigits

instance (n : Int) : Decidable (Printable n) := inferInstanceAs (Decidable (_ < _))

/-- The digits of a numeral, underscores between them dropped. -/
def digits? : List Char → Option (List Nat)
  | [] => none
  | [c] => (digitValue? c).map fun d => [d]
  | c :: '_' :: rest => do
    let d ← digitValue? c
    return d :: (← digits? rest)
  | c :: rest => do
    let d ← digitValue? c
    return d :: (← digits? rest)

/-- The number with the given decimal digits, the highest first. -/
def ofDigits (ds : List Nat) : Nat :=
  ds.foldl (fun n d => 10 * n + d) 0

/-- The value of an unsigned numeral. -/
def natural? (cs : List Char) : Option Nat := do
  let ds ← digits? cs
  if ds.length ≤ maxDigits then some (ofDigits ds) else none

/-- The value of a numeral with an optional sign. -/
def integer? : List Char → Option Int
  | '-' :: cs => (natural? cs).map fun n => -(n : Int)
  | '+' :: cs => (natural? cs).map Int.ofNat
  | cs => (natural? cs).map Int.ofNat

/-- Reads an integer, blanks around it allowed. -/
def readInteger? (text : String) : Option Int :=
  integer? (strip text.toList)

/-! ## Printed integers -/

theorem lt_pow_iff {n k : Nat} (hk : 0 < k) : n < Nat.pow 10 k ↔ (Nat.toDigits 10 n).length ≤ k :=
  (Nat.length_toDigits_le_iff (by decide) hk).symm

theorem printable_iff_lt {n : Int} : Printable n ↔ n.natAbs < Nat.pow 10 maxDigits := by
  unfold Printable beyondDigits
  exact Iff.rfl

theorem printable_iff {n : Int} : Printable n ↔ (Nat.toDigits 10 n.natAbs).length ≤ maxDigits := by
  rw [printable_iff_lt, lt_pow_iff (k := maxDigits) (by decide)]

theorem printable_natCast_iff {n : Nat} : Printable n ↔ (toString n).length ≤ maxDigits := by
  rw [printable_iff, Int.natAbs_natCast]
  simp [Nat.repr_eq_ofList_toDigits]

/-- No integer between printable ones is too long. -/
theorem Printable.of_natAbs_le {m n : Int} (h : Printable n) (hle : m.natAbs ≤ n.natAbs) : Printable m :=
  Nat.lt_of_le_of_lt hle h

theorem printable_neg_iff {n : Int} : Printable (-n) ↔ Printable n := by
  unfold Printable
  rw [Int.natAbs_neg]

theorem two_pow_le {k m : Nat} (h : k ≤ m) : Nat.pow 2 k ≤ Nat.pow 10 m :=
  calc Nat.pow 2 k ≤ Nat.pow 10 k := Nat.pow_le_pow_left (by decide) k
    _ ≤ Nat.pow 10 m := Nat.pow_le_pow_right (by decide) h

/-- An integer has no more decimal digits than binary ones. -/
theorem printable_of_lt_pow {n : Int} {k : Nat} (h : n.natAbs < Nat.pow 2 k) (hk : k ≤ maxDigits) :
    Printable n :=
  printable_iff_lt.2 (Nat.lt_of_lt_of_le h (two_pow_le hk))

theorem not_printable_beyondDigits : ¬ Printable beyondDigits := by
  unfold Printable
  rw [Int.natAbs_natCast]
  exact Nat.lt_irrefl beyondDigits

theorem not_printable_neg_beyondDigits : ¬ Printable (-beyondDigits) :=
  mt printable_neg_iff.1 not_printable_beyondDigits

theorem digits?_of_isDigit : ∀ {cs : List Char}, cs ≠ [] → (∀ c ∈ cs, c.isDigit = true) →
    digits? cs = some (cs.map fun c => c.toNat - '0'.toNat)
  | [], hne, _ => absurd rfl hne
  | [c], _, h => by simp [digits?, digitValue?_of_isDigit (h c (by simp))]
  | c :: d :: cs, _, h => by
    have ih : digits? (d :: cs) = some ((d :: cs).map fun c => c.toNat - '0'.toNat) :=
      digits?_of_isDigit (by simp) fun e he => h e (by simp [he])
    rw [digits?, digitValue?_of_isDigit (h c (by simp)), ih]
    · rfl
    · simp
    · intro rest hd
      cases hd
      exact absurd (h '_' (by simp)) (by decide)

theorem isDigit_of_mem_toDigits {n : Nat} {c : Char} (h : c ∈ Nat.toDigits 10 n) : c.isDigit = true :=
  Nat.isDigit_of_mem_toDigits (by decide) (by decide) h

theorem isBlank_of_isDigit {c : Char} (h : c.isDigit = true) : isBlank c = false := by
  simp only [Char.isDigit, Bool.and_eq_true, decide_eq_true_eq] at h
  have hlow : 48 ≤ c.toNat := h.1
  have hhigh : c.toNat ≤ 57 := h.2
  simp only [isBlank, Bool.or_eq_false_iff, Bool.and_eq_false_iff, decide_eq_false_iff_not,
    beq_eq_false_iff_ne]
  omega

theorem isWord_toDigits (n : Nat) : IsWord (Nat.toDigits 10 n) :=
  ⟨Nat.toDigits_ne_nil, fun _ hc => isBlank_of_isDigit (isDigit_of_mem_toDigits hc)⟩

theorem natural?_toDigits {n : Nat} (h : Printable n) : natural? (Nat.toDigits 10 n) = some n := by
  have hlen : (Nat.toDigits 10 n).length ≤ maxDigits := printable_iff.1 h
  have hds := digits?_of_isDigit (Nat.toDigits_ne_nil (n := n)) fun _ => isDigit_of_mem_toDigits
  have hn : ofDigits ((Nat.toDigits 10 n).map fun c => c.toNat - '0'.toNat) = n := by
    rw [ofDigits, List.foldl_map, ← Nat.ofDigitChars_eq_foldl, Nat.ofDigitChars_ten_toDigits]
  simp only [natural?, hds, Option.bind_eq_bind, Option.bind_some, List.length_map, if_pos hlen, hn]

theorem integer?_toDigits {n : Nat} (h : Printable n) :
    integer? (Nat.toDigits 10 n) = some (n : Int) := by
  have hn := natural?_toDigits h
  unfold integer?
  split
  · rename_i cs hcs
    exact absurd (isDigit_of_mem_toDigits (hcs ▸ List.mem_cons_self ..)) (by decide)
  · rename_i cs hcs
    exact absurd (isDigit_of_mem_toDigits (hcs ▸ List.mem_cons_self ..)) (by decide)
  · rw [hn]
    rfl

theorem toList_toString_int (n : Int) :
    (toString n).toList = if n < 0 then '-' :: Nat.toDigits 10 n.natAbs else Nat.toDigits 10 n.natAbs := by
  cases n <;> simp [Int.repr_eq_if]

theorem isWord_toString (n : Int) : IsWord (toString n).toList := by
  obtain ⟨hne, hb⟩ := isWord_toDigits n.natAbs
  rw [toList_toString_int]
  split
  · exact ⟨by simp, by simpa using ⟨by decide, hb⟩⟩
  · exact ⟨hne, hb⟩

theorem integer?_toString {n : Int} (h : Printable n) : integer? (toString n).toList = some n := by
  have habs : Printable n.natAbs := h.of_natAbs_le (Nat.le_of_eq (Int.natAbs_natCast _))
  rw [toList_toString_int]
  split
  · rw [integer?, natural?_toDigits habs]
    show some (-(n.natAbs : Int)) = some n
    congr 1
    omega
  · rw [integer?_toDigits habs]
    congr 1
    omega

/-! ## Sizes of numerals -/

theorem ofDigits_lt {ds : List Nat} (h : ∀ d ∈ ds, d < 10) : ofDigits ds < Nat.pow 10 ds.length := by
  suffices hs : ∀ n, ds.foldl (fun n d => 10 * n + d) n < (n + 1) * Nat.pow 10 ds.length by
    have h0 := hs 0
    rwa [Nat.zero_add, Nat.one_mul] at h0
  induction ds with
  | nil =>
    intro n
    exact Nat.lt_of_lt_of_eq (Nat.lt_succ_self n) (Nat.mul_one _).symm
  | cons d ds ih =>
    intro n
    have hd : d < 10 := h d (by simp)
    have hlt := ih (fun e he => h e (by simp [he])) (10 * n + d)
    have hle : (10 * n + d + 1) * Nat.pow 10 ds.length ≤ (n + 1) * 10 * Nat.pow 10 ds.length :=
      Nat.mul_le_mul_right _ (by omega)
    have hpow : Nat.pow 10 (d :: ds).length = 10 * Nat.pow 10 ds.length := Nat.mul_comm _ _
    rw [List.foldl_cons, hpow, ← Nat.mul_assoc]
    exact Nat.lt_of_lt_of_le hlt hle

theorem digits?_lt {cs : List Char} {ds : List Nat} (h : digits? cs = some ds) : ∀ d ∈ ds, d < 10 := by
  fun_induction digits? cs generalizing ds with
  | case1 => cases h
  | case2 c =>
    obtain ⟨d, hd, rfl⟩ := Option.map_eq_some_iff.1 h
    simpa using digitValue?_lt hd
  | case3 c rest ih | case4 c rest _ _ ih =>
    simp only [Option.bind_eq_bind, Option.bind_eq_some_iff] at h
    obtain ⟨d, hd, ds', hds, h⟩ := h
    cases h
    simpa using ⟨digitValue?_lt hd, ih hds⟩

theorem ofDigits_lt_of_le {ds : List Nat} {k : Nat} (h : ∀ d ∈ ds, d < 10) (hk : ds.length ≤ k) :
    ofDigits ds < Nat.pow 10 k :=
  Nat.lt_of_lt_of_le (ofDigits_lt h) (Nat.pow_le_pow_right (by decide) hk)

theorem natural?_lt {cs : List Char} {n : Nat} (h : natural? cs = some n) : n < Nat.pow 10 maxDigits := by
  simp only [natural?, Option.bind_eq_bind, Option.bind_eq_some_iff] at h
  obtain ⟨ds, hds, h⟩ := h
  split at h
  · rename_i hlen
    cases h
    exact ofDigits_lt_of_le (digits?_lt hds) hlen
  · cases h

/-- **What was read can be printed.** -/
theorem printable_of_integer? {cs : List Char} {n : Int} (h : integer? cs = some n) : Printable n := by
  unfold integer? at h
  split at h
  · obtain ⟨k, hk, rfl⟩ := Option.map_eq_some_iff.1 h
    obtain ⟨m, hm, hmk⟩ := Option.bind_eq_some_iff.1 hk
    obtain rfl : (m : Int) = k := Option.some.inj hmk
    rw [printable_iff_lt, Int.natAbs_neg]
    exact natural?_lt hm
  · obtain ⟨m, hm, rfl⟩ := Option.map_eq_some_iff.1 h
    exact printable_iff_lt.2 (natural?_lt hm)
  · obtain ⟨m, hm, rfl⟩ := Option.map_eq_some_iff.1 h
    exact printable_iff_lt.2 (natural?_lt hm)

end LocalSat.Text
