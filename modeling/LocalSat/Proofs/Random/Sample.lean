import LocalSat.Random.Sample

/-!
# What a sample is

Both ways of drawing a sample keep what makes it one, whatever the generator yields. A shuffle only
swaps, so its outcome is a permutation of what it began with (`shuffleDown_perm`), and the end of a
shuffled range has distinct entries. Collecting numbers adds one from each of growing ranges, and
the largest of a range cannot have been taken from a smaller one (`Distinct.take`). Main statement:
`distinct_sample`.
-/

namespace LocalSat.Random

open Generator

/-- `k` distinct numbers below `n`. -/
structure Distinct (n k : Nat) (vs : List Nat) : Prop where
  nodup : vs.Nodup
  length : vs.length = k
  lt : ∀ v ∈ vs, v < n

/-! ## Shuffles -/

theorem swapIfInBounds_perm (xs : Array Nat) (i j : Nat) :
    (xs.swapIfInBounds i j).toList.Perm xs.toList := by
  unfold Array.swapIfInBounds
  split
  · split
    · exact (Array.swap_perm _ _).toList
    · exact .refl _
  · exact .refl _

theorem shuffleDown_perm (stop : Nat) : ∀ (i : Nat) (xs : Array Nat) (g : Generator),
    (shuffleDown stop i xs g).1.toList.Perm xs.toList
  | 0, _, _ => .refl _
  | i + 1, xs, g => by
    simp only [shuffleDown]
    split
    · exact .refl _
    · exact (shuffleDown_perm stop i _ _).trans (swapIfInBounds_perm xs _ _)

theorem Distinct.perm {n k : Nat} {vs ws : List Nat} (h : Distinct n k vs) (hp : ws.Perm vs) :
    Distinct n k ws :=
  ⟨hp.nodup_iff.2 h.nodup, hp.length_eq.trans h.length, fun v hv => h.lt v (hp.mem_iff.1 hv)⟩

theorem distinct_range (n : Nat) : Distinct n n (List.range n) :=
  ⟨List.nodup_range, List.length_range, fun _ hv => List.mem_range.1 hv⟩

/-- The end of distinct numbers is distinct. -/
theorem Distinct.drop {n k : Nat} {vs : List Nat} (h : Distinct n n vs) (hk : k ≤ n) :
    Distinct n k (vs.drop (n - k)) where
  nodup := h.nodup.sublist (List.drop_sublist _ _)
  length := by
    rw [List.length_drop, h.length]
    omega
  lt v hv := h.lt v (List.mem_of_mem_drop hv)

/-! ## Collecting -/

/-- Taking a number up to `j`, or `j` itself in place of one already taken. -/
theorem Distinct.take {j k v : Nat} {taken : List Nat} (h : Distinct j k taken) (hv : v < j + 1) :
    Distinct (j + 1) (k + 1) ((if taken.contains v then j else v) :: taken) := by
  have hj : j ∉ taken := fun hmem => Nat.lt_irrefl j (h.lt j hmem)
  refine ⟨?_, by simp [h.length], ?_⟩
  · by_cases hmem : v ∈ taken
    · simp [hmem, hj, h.nodup]
    · simp [hmem, h.nodup]
  · intro w hw
    rcases List.mem_cons.1 hw with rfl | hw
    · split
      · omega
      · exact hv
    · have := h.lt w hw
      omega

theorem distinct_collect : ∀ (count : Nat) {j k : Nat} {taken : List Nat} (g : Generator),
    Distinct j k taken → Distinct (j + count) (k + count) (collect count j taken g).1
  | 0, _, _, _, _, h => h
  | count + 1, j, k, taken, g, h => by
    have hlt := below_lt (Nat.succ_pos j) g
    have ih := distinct_collect count (g.below (j + 1)).2 (h.take hlt)
    rw [show j + (count + 1) = j + 1 + count by omega, show k + (count + 1) = k + 1 + count by omega]
    exact ih

/-- **A sample** of no more numbers than there are has distinct ones of them. -/
theorem distinct_sample {n k : Nat} (h : k ≤ n) (g : Generator) : Distinct n k (sample n k g).1 := by
  unfold sample
  split
  · have hp := shuffleDown_perm (max (n - k) 1) (n - 1) (Array.range n) g
    rw [Array.toList_range] at hp
    exact ((distinct_range n).perm hp).drop h
  · have hempty : Distinct (n - k) 0 [] := ⟨List.nodup_nil, rfl, by simp⟩
    have hc := distinct_collect k g hempty
    rw [show n - k + k = n by omega, Nat.zero_add] at hc
    have hp := shuffleDown_perm 1 (k - 1) (collect k (n - k) [] g).1.reverse.toArray
      (collect k (n - k) [] g).2
    exact hc.perm (hp.trans (by simp))

end LocalSat.Random
