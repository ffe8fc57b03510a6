import Mathlib.Algebra.BigOperators.Group.Finset.Basic
import Mathlib.Data.Rat.Lemmas
import LocalSat.Benchmark.Summary

/-!
# What a summary tells

The runs of a table fall into those of its algorithms, each run to exactly one, so the runs of a summary
add up to the whole table (`sum_runs`). The share and the mean of an algorithm are read off its own runs,
the mean off the solved ones alone. Main statement: a summary accounts for its table (`accountsFor_summarize`).
-/

namespace LocalSat.Benchmark

/-! ## The runs of an algorithm -/

/-- The runs of one algorithm. -/
def runsOf (scores : List Score) (a : String) : List Score := scores.filter (·.algorithm = a)

/-- The solved runs of one algorithm. -/
def solvedOf (scores : List Score) (a : String) : List Score := (runsOf scores a).filter (·.solved)

section
variable {scores scores' : List Score} {a : String} {s : Score} {y : Summary}

theorem mem_runsOf : s ∈ runsOf scores a ↔ s ∈ scores ∧ s.algorithm = a := by
  simp [runsOf]

theorem length_runsOf (scores : List Score) (a : String) :
    (runsOf scores a).length = (scores.map (·.algorithm)).count a := by
  rw [runsOf, ← List.countP_eq_length_filter, List.count, List.countP_map]
  rfl

theorem length_solvedOf_eq_iff :
    (solvedOf scores a).length = (runsOf scores a).length ↔ ∀ s ∈ runsOf scores a, s.solved = true :=
  List.length_filter_eq_length_iff

theorem solvedOf_eq_nil_iff : solvedOf scores a = [] ↔ ∀ s ∈ runsOf scores a, s.solved = false := by
  simp [solvedOf, List.filter_eq_nil_iff]

theorem mem_summarize : y ∈ summarize scores ↔
    ∃ a ∈ algorithms scores, .ofRuns a (runsOf scores a) = y :=
  List.mem_map

/-- An algorithm of a summary has made a run. -/
theorem runsOf_ne_nil (h : a ∈ algorithms scores) : runsOf scores a ≠ [] := by
  obtain ⟨s, hs, ha⟩ := mem_algorithms.1 h
  exact List.ne_nil_of_mem (mem_runsOf.2 ⟨hs, ha⟩)

/-! ## The whole table -/

theorem map_algorithm_summarize (scores : List Score) :
    (summarize scores).map (·.algorithm) = algorithms scores := by
  unfold summarize
  rw [List.map_map]
  exact List.map_id _

theorem nodup_algorithms (scores : List Score) : (algorithms scores).Nodup :=
  (pairwise_algorithms scores).imp fun h => String.ne_of_lt h

theorem toFinset_algorithms (scores : List Score) :
    (algorithms scores).toFinset = (scores.map (·.algorithm)).toFinset := by
  ext a
  rw [List.mem_toFinset, List.mem_toFinset, mem_algorithms, List.mem_map]

/-- **The runs add up** to the table, every run being counted for its own algorithm. -/
theorem sum_runs (scores : List Score) : ((summarize scores).map (·.runs)).sum = scores.length := by
  have hruns : (summarize scores).map (·.runs) =
      (algorithms scores).map fun a => (scores.map (·.algorithm)).count a := by
    unfold summarize
    rw [List.map_map]
    exact List.map_congr_left fun a _ => length_runsOf scores a
  calc ((summarize scores).map (·.runs)).sum
      = ((algorithms scores).map fun a => (scores.map (·.algorithm)).count a).sum := by rw [hruns]
    _ = ∑ a ∈ (scores.map (·.algorithm)).toFinset, (scores.map (·.algorithm)).count a := by
      rw [← List.sum_toFinset _ (nodup_algorithms scores), toFinset_algorithms]
    _ = scores.length := by rw [List.sum_toFinset_count_eq_length, List.length_map]

/-! ## Share and mean -/

/-- The share is the number of solved runs over the number of all. -/
theorem solveRate_mul (h : runsOf scores a ≠ []) :
    (Summary.ofRuns a (runsOf scores a)).solveRate * (runsOf scores a).length =
      (solvedOf scores a).length := by
  have hn : ((runsOf scores a).length : Rat) ≠ 0 := by simpa using h
  simp only [Summary.ofRuns, Rat.mkRat_eq_div, Int.cast_natCast]
  exact div_mul_cancel₀ _ hn

theorem solveRate_eq_one_iff (h : runsOf scores a ≠ []) :
    (Summary.ofRuns a (runsOf scores a)).solveRate = 1 ↔ ∀ s ∈ runsOf scores a, s.solved = true := by
  have hn : ((runsOf scores a).length : Rat) ≠ 0 := by simpa using h
  rw [← length_solvedOf_eq_iff, ← Nat.cast_inj (R := Rat), ← solveRate_mul h, mul_eq_right₀ hn]

theorem solveRate_eq_zero_iff (h : runsOf scores a ≠ []) :
    (Summary.ofRuns a (runsOf scores a)).solveRate = 0 ↔ ∀ s ∈ runsOf scores a, s.solved = false := by
  have hn : ((runsOf scores a).length : Rat) ≠ 0 := by simpa using h
  rw [← solvedOf_eq_nil_iff, ← List.length_eq_zero_iff, ← Nat.cast_eq_zero (R := Rat), ← solveRate_mul h,
    mul_eq_zero, or_iff_left hn]

theorem meanIterations_eq (scores : List Score) (a : String) :
    (Summary.ofRuns a (runsOf scores a)).meanIterations = if solvedOf scores a = [] then none
      else some (mkRat ((solvedOf scores a).map (·.iterations)).sum (solvedOf scores a).length) := by
  rw [List.sum_eq_foldl, List.foldl_map, Summary.ofRuns]
  simp only [List.isEmpty_iff]
  rfl

theorem meanIterations_eq_none_iff : (Summary.ofRuns a (runsOf scores a)).meanIterations = none ↔
    ∀ s ∈ runsOf scores a, s.solved = false := by
  rw [meanIterations_eq, ← solvedOf_eq_nil_iff]
  simp

theorem meanIterations_mul {m : Rat} (h : (Summary.ofRuns a (runsOf scores a)).meanIterations = some m) :
    m * (solvedOf scores a).length = ((solvedOf scores a).map (·.iterations)).sum := by
  rw [meanIterations_eq] at h
  split at h
  · cases h
  · rename_i hne
    have hn : ((solvedOf scores a).length : Rat) ≠ 0 := by simpa using hne
    cases h
    rw [Rat.mkRat_eq_div]
    exact div_mul_cancel₀ _ hn

/-- **Only the solved runs** of an algorithm have an effect on its mean. -/
theorem meanIterations_congr (h : solvedOf scores a = solvedOf scores' a) :
    (Summary.ofRuns a (runsOf scores a)).meanIterations =
      (Summary.ofRuns a (runsOf scores' a)).meanIterations := by
  rw [meanIterations_eq, meanIterations_eq, h]

end

/-! ## A summary against its table -/

/-- What a summary tells about the runs of its algorithm. -/
structure Summary.Describes (y : Summary) (scores : List Score) : Prop where
  runs : y.runs = (runsOf scores y.algorithm).length
  rate : y.solveRate * y.runs = (solvedOf scores y.algorithm).length
  allSolved : y.solveRate = 1 ↔ ∀ s ∈ runsOf scores y.algorithm, s.solved = true
  noneSolved : y.solveRate = 0 ↔ ∀ s ∈ runsOf scores y.algorithm, s.solved = false
  missing : y.meanIterations = none ↔ ∀ s ∈ runsOf scores y.algorithm, s.solved = false
  mean : ∀ m, y.meanIterations = some m → m * (solvedOf scores y.algorithm).length =
    ((solvedOf scores y.algorithm).map (·.iterations)).sum
  /-- A table with the same solved runs of the algorithm has the same mean for it. -/
  unaffected : ∀ scores', solvedOf scores' y.algorithm = solvedOf scores y.algorithm →
    ∀ y' ∈ summarize scores', y'.algorithm = y.algorithm → y'.meanIterations = y.meanIterations

/-- The summaries tell about each algorithm of the table once, in order, and about every run. -/
structure AccountsFor (summaries : List Summary) (scores : List Score) : Prop where
  sorted : (summaries.map (·.algorithm)).Pairwise (· < ·)
  mem_iff : ∀ a, a ∈ summaries.map (·.algorithm) ↔ ∃ s ∈ scores, s.algorithm = a
  total : (summaries.map (·.runs)).sum = scores.length
  each : ∀ y ∈ summaries, y.Describes scores

theorem describes_of_mem_summarize {scores : List Score} {y : Summary} (h : y ∈ summarize scores) :
    y.Describes scores := by
  obtain ⟨a, ha, rfl⟩ := mem_summarize.1 h
  have hne := runsOf_ne_nil ha
  exact
  { runs := rfl
    rate := solveRate_mul hne
    allSolved := solveRate_eq_one_iff hne
    noneSolved := solveRate_eq_zero_iff hne
    missing := meanIterations_eq_none_iff
    mean := fun m => meanIterations_mul
    unaffected := by
      intro scores' hsolved y' h' ha'
      obtain ⟨b, -, rfl⟩ := mem_summarize.1 h'
      obtain rfl : b = a := ha'
      exact meanIterations_congr hsolved }

/-- **A summary accounts for its table.** -/
theorem accountsFor_summarize (scores : List Score) : AccountsFor (summarize scores) scores where
  sorted := by
    rw [map_algorithm_summarize]
    exact pairwise_algorithms scores
  mem_iff a := by rw [map_algorithm_summarize, mem_algorithms]
  total := sum_runs scores
  each _ h := describes_of_mem_summarize h

end LocalSat.Benchmark
