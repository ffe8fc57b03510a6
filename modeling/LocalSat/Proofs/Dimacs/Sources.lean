import Mathlib.Data.List.Forall2
import LocalSat.Dimacs.File

/-!
# A text in memory, in a file and in a stream

The three ways to give a formula to the reader cut its text into lines by three conventions. Two of them
concur on a text if they agree on each of its characters, but for carriage returns that stand before line
feeds; then they cut it into lines that differ at most by blanks at their ends (`Concur.lines`). The
reader strips every line before it looks at it, so such blanks make no difference (`ofLines_congr`). Main
statement: `sources_agree`.
-/

namespace LocalSat

open LocalSat.Text

namespace Text

/-! ## Lines by two conventions -/

/-- The characters that end lines of a text in memory, but not of a file. -/
def separators : List Char := ['\x0b', '\x0c', '\x1c', '\x1d', '\x1e', '\x85', '\u2028', '\u2029']

theorem ends_boundary_iff {c : Char} : LineEnds.boundary.ends c = true ↔
    LineEnds.newline.ends c = true ∨ c ∈ separators := by
  simp only [LineEnds.ends, separators, Bool.or_eq_true, Bool.and_eq_true, decide_eq_true_eq, beq_iff_eq,
    List.mem_cons, List.not_mem_nil, or_false, ← Char.toNat_inj, Char.reduceToNat]
  omega

/-- Apart from the separators, the same characters end lines in memory and in files. -/
theorem ends_boundary_eq {c : Char} (h : c ∉ separators) :
    LineEnds.boundary.ends c = LineEnds.newline.ends c := by
  rw [Bool.eq_iff_iff, ends_boundary_iff, or_iff_left h]

/-- Streams differ from files in that carriage returns end no lines. -/
theorem ends_lineFeed_eq {c : Char} (h : c ≠ '\r') :
    LineEnds.lineFeed.ends c = LineEnds.newline.ends c := by
  simp [LineEnds.ends, h]

/-- The two lines differ at most by blanks at their ends. -/
def Trailing (l l' : List Char) : Prop :=
  ∃ k bs bs', l = k ++ bs ∧ l' = k ++ bs' ∧ (∀ b ∈ bs, isBlank b = true) ∧ ∀ b ∈ bs', isBlank b = true

section
variable {l l' : List Char} {ls ls' : List (List Char)}

theorem Trailing.strip_eq (h : Trailing l l') : strip l = strip l' := by
  obtain ⟨k, bs, bs', rfl, rfl, hb, hb'⟩ := h
  rw [strip_append_blank hb, strip_append_blank hb']

theorem Trailing.refl (l : List Char) : Trailing l l :=
  ⟨l, [], [], by simp, by simp, by simp, by simp⟩

theorem Trailing.cons (c : Char) (h : Trailing l l') : Trailing (c :: l) (c :: l') := by
  obtain ⟨k, bs, bs', rfl, rfl, hb, hb'⟩ := h
  exact ⟨c :: k, bs, bs', rfl, rfl, hb, hb'⟩

theorem not_lineFeed_of_not_cons {c : Char} {cs : List Char}
    (h : ∀ ds, c = '\r' → cs = '\n' :: ds → False) (hr : c = '\r') : cs.head? ≠ some '\n' := by
  intro hn
  obtain ⟨ds, hds⟩ := List.head?_eq_some_iff.1 hn
  exact h ds hr hds

/-- What a carriage return before a line feed leaves of its line. -/
theorem trailing_returned (e e' : LineEnds) :
    Trailing (if e.ends '\r' then [] else ['\r']) (if e'.ends '\r' then [] else ['\r']) := by
  have hblank : ∀ d : LineEnds, ∀ b ∈ if d.ends '\r' then [] else ['\r'], isBlank b = true := by
    intro d b hb
    split at hb
    · cases hb
    · rw [List.mem_singleton.1 hb]
      rfl
  exact ⟨[], _, _, rfl, rfl, hblank e, hblank e'⟩

theorem trailing_putFirst (c : Char) (h : List.Forall₂ Trailing ls ls') :
    List.Forall₂ Trailing (putFirst c ls) (putFirst c ls') := by
  cases h with
  | nil => exact .cons (.refl [c]) .nil
  | cons hl hls => exact .cons (hl.cons c) hls

end

/-- The conventions agree on the characters of a text, but for carriage returns before line feeds. -/
def Concur (e e' : LineEnds) (cs : List Char) : Prop :=
  ∀ (i : Nat) (c : Char), cs[i]? = some c → e.ends c ≠ e'.ends c → c = '\r' ∧ cs[i + 1]? = some '\n'

section
variable {e e' : LineEnds} {c : Char} {cs : List Char}

theorem Concur.tail (h : Concur e e' (c :: cs)) : Concur e e' cs :=
  fun i d hd hne => h (i + 1) d hd hne

/-- A character that is not read together with the next one ends a line by both conventions or by none. -/
theorem Concur.head_eq (h : Concur e e' (c :: cs)) (hn : c = '\r' → cs.head? ≠ some '\n') :
    e.ends c = e'.ends c := by
  by_contra hne
  obtain ⟨hr, hfeed⟩ := h 0 c rfl hne
  rw [List.getElem?_cons_succ, ← List.head?_eq_getElem?] at hfeed
  exact hn hr hfeed

/-- **Conventions that concur on a text** cut it into lines that differ at most by blanks at their ends. -/
theorem Concur.lines (h : Concur e e' cs) : List.Forall₂ Trailing (lines e cs) (lines e' cs) := by
  fun_induction Text.lines e cs with
  | case1 =>
    rw [Text.lines]
    exact .nil
  | case2 cs ih =>
    rw [Text.lines]
    exact .cons (trailing_returned e e') (ih h.tail.tail)
  | case3 c cs hcr hc ih =>
    have hn : c = '\r' → cs.head? ≠ some '\n' := not_lineFeed_of_not_cons hcr
    rw [lines_cons hn, ← h.head_eq hn, if_pos hc]
    exact .cons (.refl []) (ih h.tail)
  | case4 c cs hcr hc ih =>
    have hn : c = '\r' → cs.head? ≠ some '\n' := not_lineFeed_of_not_cons hcr
    rw [lines_cons hn, ← h.head_eq hn, if_neg hc]
    exact trailing_putFirst c (ih h.tail)

/-- In memory and in files, texts without separators fall into lines alike. -/
theorem concur_newline (h : ∀ c ∈ cs, c ∉ separators) : Concur .newline .boundary cs :=
  fun _ c hc hne => absurd (ends_boundary_eq (h c (List.mem_of_getElem? hc))).symm hne

end

/-- Every carriage return is directly followed by a line feed. -/
def Paired (cs : List Char) : Prop := ∀ i : Nat, cs[i]? = some '\r' → cs[i + 1]? = some '\n'

instance (cs : List Char) : Decidable (Paired cs) :=
  decidable_of_iff (∀ i < cs.length, cs[i]? = some '\r' → cs[i + 1]? = some '\n')
    ⟨fun h i hi => h i (List.getElem?_eq_some_iff.1 hi).1 hi, fun h i _ => h i⟩

/-- In streams they do so as well if their carriage returns are paired. -/
theorem concur_lineFeed {cs : List Char} (h : ∀ c ∈ cs, c ∉ separators) (hp : Paired cs) :
    Concur .lineFeed .boundary cs := by
  intro i c hc hne
  by_cases hr : c = '\r'
  · exact ⟨hr, hp i (hr ▸ hc)⟩
  · rw [ends_lineFeed_eq hr, ends_boundary_eq (h c (List.mem_of_getElem? hc))] at hne
    exact absurd rfl hne

end Text

namespace Dimacs

/-! ## The reader looks at stripped lines -/

theorem items_congr : ∀ {ls ls' : List (List Char)}, List.Forall₂ Trailing ls ls' →
    ∀ (seen : Bool) (n : Nat), items seen n ls = items seen n ls'
  | _, _, .nil, _, _ => rfl
  | _, _, .cons hl hls, seen, n => by
    have ih := fun seen => items_congr hls seen (n + 1)
    simp only [items, hl.strip_eq, ih]

theorem ofLines_congr {ls ls' : List (List Char)} (h : List.Forall₂ Trailing ls ls') :
    ofLines ls = ofLines ls' := by
  simp only [ofLines, items_congr h]

/-! ## The three sources -/

theorem load_encoded {t : FileTree} {path : String} {cs : List Char}
    (h : t.read path = .ok (Utf8.encode cs)) :
    load t path = (ofLines (lines .newline cs)).mapError .input := by
  rw [load_of_read h, readOctets, Utf8.decode_encode]

/-- **The sources agree.** A text without separators yields from memory and from a file in UTF-8 the same
formula with the same comments, or the same failure, whatever line feeds and carriage returns end its
lines; and from a stream too, if each carriage return stands before a line feed. -/
theorem sources_agree {text : String} (h : ∀ c ∈ text.toList, c ∉ separators) :
    (∀ t path, t.read path = .ok (Utf8.encode text.toList) →
      load t path = (read .boundary text).mapError .input) ∧
    (Paired text.toList → read .lineFeed text = read .boundary text) := by
  refine ⟨fun t path hr => ?_, fun hp => ofLines_congr (concur_lineFeed h hp).lines⟩
  rw [load_encoded hr, read, ofLines_congr (concur_newline h).lines]

/-- A text whose third line, after a blank one, has an undeclared variable. -/
def undeclaredText : String := "p cnf 1 1\r\n\r\n+2 0\r\nc a \r\n"

theorem sources_agree_undeclared :
    load ⟨[(["f.cnf", "."], .file (Utf8.encode undeclaredText.toList))]⟩ "f.cnf" =
        .error (.input (.undeclared 2 1 [2] 3)) ∧
      read .lineFeed undeclaredText = .error (.undeclared 2 1 [2] 3) := by
  have hfree : undeclaredText.toList.all (· ∉ separators) = true := by decide
  obtain ⟨hload, hread⟩ := @sources_agree undeclaredText
    fun c hc => of_decide_eq_true (List.all_eq_true.1 hfree c hc)
  have hb : read .boundary undeclaredText = .error (.undeclared 2 1 [2] 3) := by rfl
  exact ⟨by rw [hload _ _ (by rfl), hb]; rfl, by rw [hread (by decide), hb]⟩

end Dimacs

end LocalSat
