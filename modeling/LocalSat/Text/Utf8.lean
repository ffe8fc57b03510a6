/-!
# UTF-8

`decode` reads octets as text and names the first fault; `encode` writes text as octets. A faulty
octet inside a sequence counts as a wrong continuation, also where the sequence would spell a
surrogate, a code point beyond U+10FFFF, or one that a shorter sequence spells. Main statement: what was
written reads back (`decode_encode`).
-/

namespace LocalSat.Text.Utf8

/-- What is wrong with the first faulty sequence. -/
inductive Fault where
  | invalidStart
  | invalidContinuation
  | unexpectedEnd
deriving DecidableEq, Repr

/-- The reason in words. -/
def Fault.message : Fault → String
  | .invalidStart => "invalid start byte"
  | .invalidContinuation => "invalid continuation byte"
  | .unexpectedEnd => "unexpected end of data"

/-- How many further octets follow a first octet, and the range of the second one. -/
def lead? (b : UInt8) : Option (Nat × UInt8 × UInt8) :=
  if b < 0x80 then some (0, 0, 0)
  else if b < 0xc2 then none
  else if b < 0xe0 then some (1, 0x80, 0xbf)
  else if b == 0xe0 then some (2, 0xa0, 0xbf)
  else if b == 0xed then some (2, 0x80, 0x9f)
  else if b < 0xf0 then some (2, 0x80, 0xbf)
  else if b == 0xf0 then some (3, 0x90, 0xbf)
  else if b < 0xf4 then some (3, 0x80, 0xbf)
  else if b == 0xf4 then some (3, 0x80, 0x8f)
  else none

/-- The bits of the first octet of a sequence with `n` further octets. -/
def leadBits (n : Nat) (b : UInt8) : Nat :=
  match n with
  | 0 => b.toNat
  | 1 => b.toNat % 32
  | 2 => b.toNat % 16
  | _ => b.toNat % 8

/-- Where decoding stands inside a sequence. -/
structure Pending where
  /-- Octets still to come. -/
  missing : Nat
  /-- Least value of the next octet. -/
  low : UInt8
  /-- Greatest value of the next octet. -/
  high : UInt8
  /-- The code point's bits so far. -/
  bits : Nat

/-- Reads octets; `pending` tells what an open sequence still needs. -/
def decodeFrom : Option Pending → List UInt8 → Except Fault (List Char)
  | none, [] => .ok []
  | some _, [] => .error .unexpectedEnd
  | none, b :: bs =>
    match lead? b with
    | none => .error .invalidStart
    | some (0, _, _) => (decodeFrom none bs).map (Char.ofNat b.toNat :: ·)
    | some (n, low, high) => decodeFrom (some ⟨n, low, high, leadBits n b⟩) bs
  | some p, b :: bs =>
    if p.low ≤ b && b ≤ p.high then
      let bits := p.bits * 64 + b.toNat % 64
      if p.missing ≤ 1 then (decodeFrom none bs).map (Char.ofNat bits :: ·)
      else decodeFrom (some ⟨p.missing - 1, 0x80, 0xbf, bits⟩) bs
    else .error .invalidContinuation

/-- The text that the octets spell, or the first fault. -/
def decode (bs : List UInt8) : Except Fault (List Char) :=
  decodeFrom none bs

/-- The octets of one character. -/
def encodeChar (c : Char) : List UInt8 :=
  let n := c.toNat
  if n < 0x80 then [n.toUInt8]
  else if n < 0x800 then [(0xc0 + n / 64).toUInt8, (0x80 + n % 64).toUInt8]
  else if n < 0x10000 then
    [(0xe0 + n / 4096).toUInt8, (0x80 + n / 64 % 64).toUInt8, (0x80 + n % 64).toUInt8]
  else
    [(0xf0 + n / 262144).toUInt8, (0x80 + n / 4096 % 64).toUInt8, (0x80 + n / 64 % 64).toUInt8,
     (0x80 + n % 64).toUInt8]

/-- The octets that spell a text. -/
def encode (cs : List Char) : List UInt8 :=
  cs.flatMap encodeChar

/-! ## Reading back what was written -/

theorem toNat_toUInt8 {n : Nat} (h : n < 256) : n.toUInt8.toNat = n := by
  rw [Nat.toUInt8, UInt8.toNat_ofNat']
  exact Nat.mod_eq_of_lt h

/-- An octet that continues a sequence adds six bits. -/
theorem decodeFrom_tail {m bits x : Nat} {low high : UInt8} (hx : x < 64) (hlow : low.toNat ≤ 0x80 + x)
    (hhigh : 0x80 + x ≤ high.toNat) (bs : List UInt8) :
    decodeFrom (some ⟨m + 1, low, high, bits⟩) ((0x80 + x).toUInt8 :: bs) =
      if m = 0 then (decodeFrom none bs).map (Char.ofNat (bits * 64 + x) :: ·)
      else decodeFrom (some ⟨m, 0x80, 0xbf, bits * 64 + x⟩) bs := by
  have hn : (0x80 + x).toUInt8.toNat = 0x80 + x := toNat_toUInt8 (by omega)
  have hb : (low ≤ (0x80 + x).toUInt8 && (0x80 + x).toUInt8 ≤ high) = true := by
    simp only [Bool.and_eq_true, decide_eq_true_eq, UInt8.le_iff_toNat_le, hn]
    exact ⟨hlow, hhigh⟩
  have hm : (0x80 + x) % 64 = x := by omega
  rw [decodeFrom, if_pos hb, hn, hm]
  simp only [Nat.add_sub_cancel, show m + 1 ≤ 1 ↔ m = 0 by omega]

/-- What the first octet of a sequence announces. -/
theorem lead?_toUInt8 {a : Nat} (h : a < 256) : lead? a.toUInt8 =
    if a < 0x80 then some (0, 0, 0)
    else if a < 0xc2 then none
    else if a < 0xe0 then some (1, 0x80, 0xbf)
    else if a = 0xe0 then some (2, 0xa0, 0xbf)
    else if a = 0xed then some (2, 0x80, 0x9f)
    else if a < 0xf0 then some (2, 0x80, 0xbf)
    else if a = 0xf0 then some (3, 0x90, 0xbf)
    else if a < 0xf4 then some (3, 0x80, 0xbf)
    else if a = 0xf4 then some (3, 0x80, 0x8f)
    else none := by
  simp only [lead?, UInt8.lt_iff_toNat_lt, toNat_toUInt8 h, beq_iff_eq, ← UInt8.toNat_inj]
  rfl

/-- The first octet of a sequence announces `n` more, and the second is in the range that it tells. -/
def Opens (n first second : Nat) : Prop :=
  ∃ low high, lead? first.toUInt8 = some (n, low, high) ∧ low.toNat ≤ second ∧ second ≤ high.toNat

theorem opens_two {n : Nat} (h : 0x80 ≤ n) (h' : n < 0x800) :
    Opens 1 (0xc0 + n / 64) (0x80 + n % 64) := by
  refine ⟨0x80, 0xbf, ?_, by simp, by simp; omega⟩
  rw [lead?_toUInt8 (by omega), if_neg (by omega), if_neg (by omega), if_pos (by omega)]

theorem opens_three {n : Nat} (h : 0x800 ≤ n) (h' : n < 0x10000) (hs : n < 0xd800 ∨ 0xdfff < n) :
    Opens 2 (0xe0 + n / 4096) (0x80 + n / 64 % 64) := by
  unfold Opens
  rw [lead?_toUInt8 (by omega), if_neg (by omega), if_neg (by omega), if_neg (by omega)]
  by_cases hlow : n / 4096 = 0
  · exact ⟨0xa0, 0xbf, if_pos (by omega), by simp; omega, by simp; omega⟩
  by_cases hgap : n / 4096 = 0xd
  · exact ⟨0x80, 0x9f, by rw [if_neg (by omega), if_pos (by omega)], by simp, by simp; omega⟩
  · refine ⟨0x80, 0xbf, ?_, by simp, by simp; omega⟩
    rw [if_neg (by omega), if_neg (by omega), if_pos (by omega)]

theorem opens_four {n : Nat} (h : 0x10000 ≤ n) (h' : n < 0x110000) :
    Opens 3 (0xf0 + n / 262144) (0x80 + n / 4096 % 64) := by
  unfold Opens
  rw [lead?_toUInt8 (by omega), if_neg (by omega), if_neg (by omega), if_neg (by omega),
    if_neg (by omega), if_neg (by omega), if_neg (by omega)]
  by_cases hlow : n / 262144 = 0
  · exact ⟨0x90, 0xbf, if_pos (by omega), by simp; omega, by simp; omega⟩
  by_cases hhigh : n / 262144 = 4
  · refine ⟨0x80, 0x8f, ?_, by simp, by simp; omega⟩
    rw [if_neg (by omega), if_neg (by omega), if_pos (by omega)]
  · exact ⟨0x80, 0xbf, by rw [if_neg (by omega), if_pos (by omega)], by simp, by simp; omega⟩

/-- A sequence is read by its first two octets, and then goes on inside or is over. -/
theorem decodeFrom_opens {n first x : Nat} (h : Opens (n + 1) first (0x80 + x)) (hx : x < 64)
    (bs : List UInt8) :
    decodeFrom none (first.toUInt8 :: (0x80 + x).toUInt8 :: bs) =
      if n = 0 then
        (decodeFrom none bs).map (Char.ofNat (leadBits (n + 1) first.toUInt8 * 64 + x) :: ·)
      else decodeFrom (some ⟨n, 0x80, 0xbf, leadBits (n + 1) first.toUInt8 * 64 + x⟩) bs := by
  obtain ⟨low, high, hlead, hlow, hhigh⟩ := h
  rw [decodeFrom, hlead]
  exact decodeFrom_tail hx hlow hhigh bs

/-- The octets of a character, read before any others. -/
theorem decode_encodeChar (c : Char) (bs : List UInt8) :
    decode (encodeChar c ++ bs) = (decode bs).map (c :: ·) := by
  have hc : Char.ofNat c.toNat = c := Char.ofNat_toNat c
  have hvalid : c.toNat < 0xd800 ∨ 0xdfff < c.toNat ∧ c.toNat < 0x110000 := c.valid
  unfold encodeChar decode
  generalize c.toNat = n at hc hvalid
  by_cases h1 : n < 0x80
  · rw [if_pos h1, List.singleton_append, decodeFrom, lead?_toUInt8 (by omega), if_pos h1]
    simp only [toNat_toUInt8 (show n < 256 by omega), hc]
  by_cases h2 : n < 0x800
  · have hbits : leadBits 1 (0xc0 + n / 64).toUInt8 * 64 + n % 64 = n := by
      rw [leadBits, toNat_toUInt8 (by omega)]
      omega
    simp only [h1, h2, if_false, if_true, List.cons_append, List.nil_append]
    rw [decodeFrom_opens (opens_two (by omega) h2) (by omega), if_pos rfl, hbits, hc]
  by_cases h3 : n < 0x10000
  · have hbits : leadBits 2 (0xe0 + n / 4096).toUInt8 * 64 + n / 64 % 64 = n / 64 := by
      rw [leadBits, toNat_toUInt8 (by omega)]
      omega
    have hn : n / 64 * 64 + n % 64 = n := by omega
    simp only [h1, h2, h3, if_false, if_true, List.cons_append, List.nil_append]
    rw [decodeFrom_opens (opens_three (by omega) h3 (by omega)) (by omega), if_neg (by decide), hbits,
      decodeFrom_tail (by omega) (by simp) (by simp; omega), if_pos rfl, hn, hc]
  · have hbits : leadBits 3 (0xf0 + n / 262144).toUInt8 * 64 + n / 4096 % 64 = n / 4096 := by
      rw [leadBits, toNat_toUInt8 (by omega)]
      · omega
      · simp
      · simp
      · simp
    have hn : (n / 4096 * 64 + n / 64 % 64) * 64 + n % 64 = n := by omega
    simp only [h1, h2, h3, if_false, List.cons_append, List.nil_append]
    rw [decodeFrom_opens (opens_four (by omega) (by omega)) (by omega), if_neg (by decide), hbits,
      decodeFrom_tail (by omega) (by simp) (by simp; omega), if_neg (by decide),
      decodeFrom_tail (by omega) (by simp) (by simp; omega), if_pos rfl, hn, hc]

/-- **Written text reads back.** -/
theorem decode_encode : ∀ cs : List Char, decode (encode cs) = .ok cs
  | [] => rfl
  | c :: cs => by
    have ih := decode_encode cs
    rw [encode, List.flatMap_cons, decode_encodeChar, ← encode, ih]
    rfl

theorem encode_injective {cs ds : List Char} (h : encode cs = encode ds) : cs = ds := by
  have hd := congrArg decode h
  rw [decode_encode, decode_encode] at hd
  exact Except.ok.inj hd

end LocalSat.Text.Utf8
