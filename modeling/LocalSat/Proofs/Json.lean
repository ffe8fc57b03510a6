import LocalSat.Text.Integer
import LocalSat.Text.Lines
import LocalSat.Value.Json

/-!
# JSON text is visible

Whatever a value holds, its JSON text consists of blanks and visible ASCII characters alone
(`visible_json`): all else inside its texts is escaped. So it stands on one line.
-/

namespace LocalSat

open LocalSat.Decimal LocalSat.Text

/-- Blanks and visible ASCII characters. -/
def VisibleChar (c : Char) : Prop := 0x20 ≤ c.toNat ∧ c.toNat < 0x7f

instance (c : Char) : Decidable (VisibleChar c) := inferInstanceAs (Decidable (_ ∧ _))

/-- The text consists of blanks and visible ASCII characters. -/
def Visible (s : String) : Prop := ∀ c ∈ s.toList, VisibleChar c

instance (s : String) : Decidable (Visible s) := List.decidableBAll VisibleChar s.toList

/-! ## Texts that are put together -/

section
variable {s s' : String} {ss : List String}

theorem visible_ofList {cs : List Char} (h : ∀ c ∈ cs, VisibleChar c) : Visible (String.ofList cs) := by
  rw [Visible, String.toList_ofList]
  exact h

theorem Visible.append (h : Visible s) (h' : Visible s') : Visible (s ++ s') := by
  intro c hc
  rw [String.toList_append] at hc
  rcases List.mem_append.1 hc with hc | hc
  · exact h c hc
  · exact h' c hc

theorem visible_join (h : ∀ s ∈ ss, Visible s) : Visible (String.join ss) := by
  intro c hc
  rw [String.toList_join] at hc
  obtain ⟨s, hs, hc⟩ := List.mem_flatMap.1 hc
  exact h s hs c hc

theorem visible_intercalate (hs : Visible s) : ∀ {ss : List String}, (∀ s ∈ ss, Visible s) →
    Visible (String.intercalate s ss)
  | [], _ => by
    intro c hc
    simp at hc
  | [s'], h => by
    rw [String.intercalate_singleton]
    exact h s' List.mem_cons_self
  | s' :: s'' :: ss, h => by
    have ih := visible_intercalate hs fun x hx => h x (List.mem_cons_of_mem s' hx)
    rw [String.intercalate_cons_cons]
    exact ((h s' List.mem_cons_self).append hs).append ih

end

/-! ## Numbers -/

theorem visible_toDigits {b : Nat} (hb : 1 < b) (hb' : b ≤ 16) (n : Nat) :
    ∀ c ∈ Nat.toDigits b n, VisibleChar c := by
  have hdigit : ∀ d < 16, VisibleChar (Nat.digitChar d) := by decide
  induction n using Nat.strongRecOn with
  | ind n ih =>
    intro c hc
    by_cases hn : n < b
    · rw [Nat.toDigits_of_lt_base hn, List.mem_singleton] at hc
      rw [hc]
      exact hdigit n (by omega)
    · have hdiv : n / b < n := Nat.div_lt_self (by omega) hb
      have hmod : n % b < b := Nat.mod_lt n (by omega)
      rw [Nat.toDigits_of_base_le hb (by omega), List.mem_append, List.mem_singleton] at hc
      rcases hc with hc | rfl
      · exact ih (n / b) hdiv c hc
      · exact hdigit (n % b) (by omega)

theorem visible_replicate {n : Nat} {c : Char} (h : VisibleChar c) :
    ∀ d ∈ List.replicate n c, VisibleChar d := by
  intro d hd
  rw [List.eq_of_mem_replicate hd]
  exact h

theorem visible_toString_nat (n : Nat) : Visible (toString n) := by
  rw [Nat.toString_eq_ofList_toDigits]
  exact visible_ofList (visible_toDigits (by decide) (by decide) n)

theorem visible_toString_int (n : Int) : Visible (toString n) := by
  intro c hc
  have hdigits := visible_toDigits (b := 10) (by decide) (by decide) n.natAbs
  rw [toList_toString_int] at hc
  split at hc
  · rcases List.mem_cons.1 hc with rfl | hc
    · decide
    · exact hdigits c hc
  · exact hdigits c hc

theorem visible_hex (width n : Nat) : Visible (hex width n) := by
  refine visible_ofList fun c hc => ?_
  rcases List.mem_append.1 hc with hc | hc
  · exact visible_replicate (by decide) c hc
  · exact visible_toDigits (by decide) (by decide) n c hc

theorem visible_powerText (e : Int) : Visible (powerText e) := by
  have hsign : Visible (if e < 0 then "e-" else "e+") := by
    split <;> decide
  exact hsign.append ((visible_ofList (visible_replicate (by decide))).append (visible_toString_nat _))

theorem visible_significant (s : Scaled) : ∀ c ∈ (significant s).1, VisibleChar c := by
  intro c hc
  rw [significant, List.mem_reverse] at hc
  have hmem := (List.dropWhile_suffix (· == '0')).subset hc
  exact visible_toDigits (by decide) (by decide) s.digits c (List.mem_reverse.1 hmem)

theorem visible_decimalText (s : Scaled) : Visible (decimalText Value.jsonReal s) := by
  have hds := visible_significant s
  unfold decimalText
  generalize significant s = p at hds
  obtain ⟨ds, e⟩ := p
  have htake : ∀ n, ∀ c ∈ ds.take n, VisibleChar c := fun n c hc => hds c (List.mem_of_mem_take hc)
  have hdrop : ∀ n, ∀ c ∈ ds.drop n, VisibleChar c := fun n c hc => hds c (List.mem_of_mem_drop hc)
  have hzeros : ∀ n, ∀ c ∈ List.replicate n '0', VisibleChar c := fun n => visible_replicate (by decide)
  have happend : ∀ {as bs : List Char}, (∀ c ∈ as, VisibleChar c) → (∀ c ∈ bs, VisibleChar c) →
      Visible (String.ofList (as ++ bs)) :=
    fun ha hb => visible_ofList fun c hc => (List.mem_append.1 hc).elim (ha c) (hb c)
  have hpoint : Visible "." := by decide
  simp only
  split
  · -- with a power of ten
    refine (Visible.append (visible_ofList (htake 1)) ?_).append (visible_powerText e)
    split
    · exact visible_ofList (by simp)
    · exact hpoint.append (visible_ofList (hdrop 1))
  · split
    · -- below one
      exact Visible.append (by decide) (happend (hzeros _) hds)
    · -- from one on
      refine ((happend (htake _) (hzeros _)).append hpoint).append ?_
      split
      · decide
      · exact visible_ofList (hdrop _)

theorem visible_shortText (x : Float) : Visible (shortText Value.jsonReal x) := by
  have hminus : Visible "-" := by decide
  have hinfinity : Visible Value.jsonReal.infinity := by decide
  unfold shortText
  split
  · split
    · decide
    · split
      · exact hminus.append hinfinity
      · exact hinfinity
  · rename_i b hb
    have hbody : Visible (if b.mantissa = 0 then "0.0"
        else decimalText Value.jsonReal (shortest b.mantissa b.exponent)) := by
      split
      · decide
      · exact visible_decimalText _
    simp only
    split
    · exact hminus.append hbody
    · exact hbody

/-! ## Texts -/

theorem visible_jsonEscape (c : Char) : Visible (Value.jsonEscape c) := by
  have hmark : Visible "\\u" := by decide
  unfold Value.jsonEscape
  simp only
  -- the characters that have an escape of their own
  split
  · decide
  split
  · decide
  split
  · decide
  split
  · decide
  split
  · decide
  split
  · decide
  split
  · decide
  split
  · rename_i h
    simp only [Bool.and_eq_true, decide_eq_true_eq] at h
    exact visible_ofList fun d hd => List.mem_singleton.1 hd ▸ h
  split
  · exact hmark.append (visible_hex 4 _)
  · exact ((hmark.append (visible_hex 4 _)).append hmark).append (visible_hex 4 _)

theorem visible_jsonText (s : String) : Visible (Value.jsonText s) := by
  have hquote : Visible "\"" := by decide
  refine (hquote.append (visible_join fun t ht => ?_)).append hquote
  obtain ⟨c, -, rfl⟩ := List.mem_map.1 ht
  exact visible_jsonEscape c

/-! ## Values -/

mutual

/-- **JSON text is visible.** -/
theorem visible_json : ∀ v : Value, Visible v.json
  | .null => by decide
  | .bool b => by cases b <;> decide
  | .int n => by
    rw [Value.json]
    exact visible_toString_int n
  | .real x => by
    rw [Value.json]
    exact visible_shortText x
  | .text s => by
    rw [Value.json]
    exact visible_jsonText s
  | .list items => by
    rw [Value.json]
    exact (Visible.append (by decide) (visible_intercalate (by decide) (visible_jsonItems items))).append
      (by decide)
  | .mapping entries => by
    rw [Value.json]
    exact (Visible.append (by decide)
      (visible_intercalate (by decide) (visible_jsonEntries entries))).append (by decide)

theorem visible_jsonItems : ∀ vs : List Value, ∀ s ∈ Value.jsonItems vs, Visible s
  | [], s, hs => by
    rw [Value.jsonItems] at hs
    cases hs
  | v :: vs, s, hs => by
    rw [Value.jsonItems] at hs
    rcases List.mem_cons.1 hs with rfl | hs
    · exact visible_json v
    · exact visible_jsonItems vs s hs

theorem visible_jsonEntries : ∀ es : List (String × Value), ∀ s ∈ Value.jsonEntries es, Visible s
  | [], s, hs => by
    rw [Value.jsonEntries] at hs
    cases hs
  | (k, v) :: es, s, hs => by
    rw [Value.jsonEntries] at hs
    rcases List.mem_cons.1 hs with rfl | hs
    · exact ((visible_jsonText k).append (by decide)).append (visible_json v)
    · exact visible_jsonEntries es s hs

end

theorem Visible.not_lineFeed {s : String} (h : Visible s) :
    ∀ c ∈ s.toList, LineEnds.lineFeed.ends c = false := by
  intro c hc
  have hlow := (h c hc).1
  rw [LineEnds.ends, beq_eq_false_iff_ne]
  rintro rfl
  exact absurd hlow (by decide)

end LocalSat
