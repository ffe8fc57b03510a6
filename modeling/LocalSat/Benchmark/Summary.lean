import LocalSat.Benchmark

/-!
# Summaries of benchmarks

A summary tells, for each algorithm of a table, how many runs it made, the share of solved runs, the mean
number of iterations of the solved ones, and the mean time. Shares and means of counts are exact
fractions, rounded only where they are shown. Main statement: the algorithms of a summary are those of
the table, in increasing order and without repetition (`mem_algorithms`, `pairwise_algorithms`).

| here | there |
| --- | --- |
| `summarize` | `summarize` |
-/

namespace LocalSat.Benchmark

open LocalSat.Decimal

/-- What a summary looks at in a run. -/
structure Score where
  algorithm : String
  solved : Bool
  iterations : Int
  runtime : Float

/-- The score of a row. -/
def Row.score (r : Row) : Score :=
  ⟨r.trial.algorithm, r.outcome.status == .satisfiable, r.outcome.iterations, r.outcome.runtime⟩

/-- What is known about one algorithm. -/
structure Summary where
  algorithm : String
  runs : Nat
  /-- Share of solved runs. -/
  solveRate : Rat
  /-- Mean number of iterations of the solved runs, if there are any. -/
  meanIterations : Option Rat
  meanRuntime : Float

/-- The texts in increasing order, each once. -/
def insertSorted (s : String) : List String → List String
  | [] => [s]
  | t :: ts => if s < t then s :: t :: ts else if s = t then t :: ts else t :: insertSorted s ts

/-- The algorithms of some runs in the order of their code points. -/
def algorithms (scores : List Score) : List String :=
  scores.foldr (fun s names => insertSorted s.algorithm names) []

/-- The summary of runs of one algorithm. -/
def Summary.ofRuns (algorithm : String) (scores : List Score) : Summary :=
  let solved := scores.filter (·.solved)
  { algorithm := algorithm
    runs := scores.length
    solveRate := mkRat solved.length scores.length
    meanIterations :=
      if solved.isEmpty then none
      else some (mkRat (solved.foldl (fun n s => n + s.iterations) 0) solved.length)
    meanRuntime :=
      scores.foldl (fun t s => t + s.runtime) 0.0 / Float.ofNat scores.length }

/-- One summary for each algorithm. -/
def summarize (scores : List Score) : List Summary :=
  (algorithms scores).map fun a => Summary.ofRuns a (scores.filter (·.algorithm = a))

/-! ## Laws -/

theorem mem_insertSorted {s x : String} : ∀ {ts : List String},
    x ∈ insertSorted s ts ↔ x = s ∨ x ∈ ts
  | [] => by simp [insertSorted]
  | t :: ts => by
    unfold insertSorted
    split
    · simp
    · split
      · rename_i h; subst h; simp
      · rw [List.mem_cons, mem_insertSorted]; grind

theorem mem_algorithms {a : String} : ∀ {scores : List Score},
    a ∈ algorithms scores ↔ ∃ s ∈ scores, s.algorithm = a
  | [] => by simp [algorithms]
  | s :: ss => by
    have ih : a ∈ algorithms ss ↔ ∃ s ∈ ss, s.algorithm = a := mem_algorithms
    simp only [algorithms, List.foldr_cons] at ih ⊢
    rw [mem_insertSorted, ih]
    simp [eq_comm]

theorem pairwise_insertSorted {s : String} : ∀ {ts : List String},
    ts.Pairwise (· < ·) → (insertSorted s ts).Pairwise (· < ·)
  | [], _ => by simp [insertSorted]
  | t :: ts, h => by
    obtain ⟨ht, hts⟩ := List.pairwise_cons.1 h
    unfold insertSorted
    split
    · rename_i hst
      refine List.pairwise_cons.2 ⟨fun x hx => ?_, h⟩
      rcases List.mem_cons.1 hx with rfl | hx
      · exact hst
      · exact String.lt_trans hst (ht x hx)
    · rename_i hst
      split
      · exact h
      · rename_i hne
        refine List.pairwise_cons.2 ⟨fun x hx => ?_, pairwise_insertSorted hts⟩
        rcases mem_insertSorted.1 hx with rfl | hx
        · have hle : t ≤ x := String.not_lt.1 hst
          exact String.not_le.1 fun h => hne (String.le_antisymm h hle)
        · exact ht x hx

theorem pairwise_algorithms : ∀ scores : List Score, (algorithms scores).Pairwise (· < ·)
  | [] => List.Pairwise.nil
  | _ :: ss => pairwise_insertSorted (pairwise_algorithms ss)

end LocalSat.Benchmark
