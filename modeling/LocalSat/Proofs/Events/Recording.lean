import LocalSat.Proofs.Events.Journal

/-!
# Recording the notices of a search

The notices of a search that are dated are logged one after the other, each as one call of the journal. So
if the files can be written, recording notices succeeds (`recordAll_after`), and what a file then holds is
what was logged since the journal was last closed, the new events of its type last (`filed`). Main
statement: the notices of a run come to the files as its progress and its results (`delivers`).
-/

namespace LocalSat.Events

open LocalSat.Search

/-- What is logged of a notice, if it is dated. -/
def recordOf? (clock : Nat → Float) : Notice → Option Record
  | .progress run i u total (some reading) => some (.progress run i u total (clock reading))
  | .finished run o (some reading) => some (.result run o.report.fields (clock reading))
  | _ => none

theorem map_event_recordOf? (clock : Nat → Float) (n : Notice) :
    (recordOf? clock n).map Record.event = ofNotice? clock n := by
  rcases n with ⟨run, i, u, total, _ | reading⟩ | _ | _ | ⟨run, o, _ | reading⟩ <;> rfl

/-- The records of notices, as calls, the latest first. -/
def logs (clock : Nat → Float) (ns : List Notice) : List Call :=
  (ns.filterMap (recordOf? clock)).reverse.map .log

section
variable {clock : Nat → Float} {n : Notice} {r : Record} {type : String} {calls : List Call}

theorem logs_cons_none (h : recordOf? clock n = none) (ns : List Notice) :
    logs clock (n :: ns) = logs clock ns := by
  rw [logs, List.filterMap_cons_none h, ← logs]

theorem logs_cons_some (h : recordOf? clock n = some r) (ns : List Notice) :
    logs clock (n :: ns) = logs clock ns ++ [.log r] := by
  rw [logs, List.filterMap_cons_some h, List.reverse_cons, List.map_append, ← logs]
  rfl

theorem event?_log (type : String) (r : Record) :
    (Call.log r).event? type = if r.event.type = type then some r.event else none := rfl

/-- The events of a type that notices are recorded as. -/
def eventsOf (clock : Nat → Float) (type : String) (ns : List Notice) : List Event :=
  (ns.filterMap (ofNotice? clock)).filter (·.type = type)

theorem eventsOf_cons_none (h : recordOf? clock n = none) (ns : List Notice) :
    eventsOf clock type (n :: ns) = eventsOf clock type ns := by
  have hn : ofNotice? clock n = none := by rw [← map_event_recordOf?, h, Option.map_none]
  rw [eventsOf, List.filterMap_cons_none hn, ← eventsOf]

theorem eventsOf_cons_some (h : recordOf? clock n = some r) (ns : List Notice) :
    eventsOf clock type (n :: ns) = ((Call.log r).event? type).toList ++ eventsOf clock type ns := by
  have hn : ofNotice? clock n = some r.event := by rw [← map_event_recordOf?, h, Option.map_some]
  rw [eventsOf, List.filterMap_cons_some hn, List.filter_cons, ← eventsOf, event?_log]
  by_cases ht : r.event.type = type <;> simp [ht]

/-- New records come after what was logged since the files were last closed. -/
theorem since_logs : ∀ (ns : List Notice) (calls : List Call),
    since type (logs clock ns ++ calls) = since type calls ++ eventsOf clock type ns
  | [], calls => (List.append_nil _).symm
  | n :: ns, calls => by
    cases h : recordOf? clock n with
    | none => rw [logs_cons_none h, eventsOf_cons_none h, since_logs ns calls]
    | some r =>
      rw [logs_cons_some h, eventsOf_cons_some h, List.append_assoc, List.singleton_append,
        since_logs ns (.log r :: calls), since, List.append_assoc]

/-- Records of other types leave alone what a file holds. -/
theorem held_logs : ∀ {ns : List Notice} {calls : List Call}, eventsOf clock type ns = [] →
    held type (logs clock ns ++ calls) = held type calls
  | [], _, _ => rfl
  | n :: ns, calls, h => by
    cases hn : recordOf? clock n with
    | none =>
      rw [eventsOf_cons_none hn] at h
      rw [logs_cons_none hn, held_logs h]
    | some r =>
      rw [eventsOf_cons_some hn, List.append_eq_nil_iff, Option.toList_eq_nil_iff] at h
      rw [logs_cons_some hn, List.append_assoc, List.singleton_append, held_logs h.2, held_other calls h.1]

/-! ## Recording -/

variable {j₀ j : Journal} {t₀ t : FileTree}

/-- Recording is logging. -/
theorem record_of_call (h : (j.call t (.log r)).2.2 = .ok ()) :
    j.record t r.event = ((j.call t (.log r)).1, .ok (j.call t (.log r)).2.1) := by
  unfold Journal.call at h ⊢
  simp only at h ⊢
  generalize j.record t r.event = x at h ⊢
  obtain ⟨j', err | t'⟩ := x
  · cases h
  · rfl

/-- **Recording notices** does what logging them one after the other does, and succeeds if the files can be
written. -/
theorem recordAll_after (clock : Nat → Float) (ho : j₀.opened = []) (hc : j₀.counts = []) :
    ∀ (ns : List Notice) (calls : List Call),
    (∀ e ∈ ns.filterMap (ofNotice? clock), t₀.Writable (j₀.path e.type)) →
    (j₀.after t₀ calls).1.recordAll clock (j₀.after t₀ calls).2 ns =
      ((j₀.after t₀ (logs clock ns ++ calls)).1, (j₀.after t₀ (logs clock ns ++ calls)).2, .ok ())
  | [], calls, _ => rfl
  | n :: ns, calls, hw => by
    have hevent := map_event_recordOf? clock n
    unfold Journal.recordAll
    cases hn : recordOf? clock n with
    | none =>
      rw [hn, Option.map_none] at hevent
      rw [List.filterMap_cons_none hevent.symm] at hw
      rw [← hevent, logs_cons_none hn]
      exact recordAll_after clock ho hc ns calls hw
    | some r =>
      rw [hn, Option.map_some] at hevent
      rw [List.filterMap_cons_some hevent.symm, List.forall_mem_cons] at hw
      have hl : Ledger j₀ t₀ r.event.type calls _ _ := ledger t₀ r.type_mem ho hc calls
      have hrec := record_of_call ((hl.succeeds r.type_mem).2 hw.1)
      rw [← hevent, logs_cons_some hn, List.append_assoc, List.singleton_append]
      simp only [hrec]
      exact recordAll_after clock ho hc ns (.log r :: calls) hw.2

/-- What the files hold when events have been added to what the calls left there. -/
structure Filed (j₀ : Journal) (t₀ : FileTree) (calls : List Call) (type : String) (added : List Event)
    (t : FileTree) : Prop where
  holds : added ≠ [] → t.read (j₀.path type) =
    .ok (Text.Utf8.encode (sheet j₀.format (since type calls ++ added)).toList)
  untouched : added = [] →
    t.at? (.ofPath (j₀.path type)) = (j₀.after t₀ calls).2.at? (.ofPath (j₀.path type))

/-- **What a file holds** after notices have been recorded: their events of its type come last. -/
theorem filed (clock : Nat → Float) (ho : j₀.opened = []) (hc : j₀.counts = []) (ht : type ∈ types)
    (hw : t₀.Writable (j₀.path type)) (ns : List Notice) (calls : List Call) :
    Filed j₀ t₀ calls type (eventsOf clock type ns) (j₀.after t₀ (logs clock ns ++ calls)).2 := by
  have hl := ledger t₀ ht ho hc (logs clock ns ++ calls)
  constructor
  case holds =>
    intro hne
    have hsince : since type (logs clock ns ++ calls) = since type calls ++ eventsOf clock type ns :=
      since_logs ns calls
    have hheld : held type (logs clock ns ++ calls) = since type calls ++ eventsOf clock type ns := by
      rw [held_of_since (by simp [hsince, hne]), hsince]
    refine FileTree.read_eq_ok_iff.2 ⟨names_path ht, ?_⟩
    rw [hl.holds hw (by simp [hheld, hne]), hheld]
  case untouched =>
    intro hnil
    have hl' := ledger t₀ ht ho hc calls
    have hheld : held type (logs clock ns ++ calls) = held type calls := held_logs hnil
    by_cases hne : held type calls = []
    · rw [hl.untouched (by simp [hheld, hne]), hl'.untouched (by simp [hne])]
    · rw [hl.holds hw (by rwa [hheld]), hl'.holds hw hne, hheld]

/-- The notices come to the files of any journal as these events of progress and these results, after
whatever calls were made before, if the files can be written. -/
def Delivers (clock : Nat → Float) (ns : List Notice) (progress results : List Event) : Prop :=
  ∀ ⦃tree t₀ : FileTree⦄ ⦃directory experiment : String⦄ ⦃format : Format⦄ ⦃described : Bool⦄
    ⦃j₀ : Journal⦄, Journal.create tree directory experiment format described = .ok (j₀, t₀) →
    t₀.Writable (j₀.path "progress") → t₀.Writable (j₀.path "result") → ∀ calls : List Call,
    ∃ j t, (j₀.after t₀ calls).1.recordAll clock (j₀.after t₀ calls).2 ns = (j, t, .ok ()) ∧
      Filed j₀ t₀ calls "progress" progress t ∧ Filed j₀ t₀ calls "result" results t

theorem delivers {ns : List Notice} {progress results : List Event}
    (h : ns.filterMap (ofNotice? clock) = progress ++ results)
    (hp : ∀ e ∈ progress, e.type = "progress") (hr : ∀ e ∈ results, e.type = "result") :
    Delivers clock ns progress results := by
  intro tree t₀ directory experiment format described j₀ hcreate hwp hwr calls
  obtain ⟨ho, hc⟩ : j₀.opened = [] ∧ j₀.counts = [] := by
    obtain ⟨_, -, he⟩ := map_eq_ok_iff.1 hcreate
    cases he
    exact ⟨rfl, rfl⟩
  have hprogress : eventsOf clock "progress" ns = progress := by
    rw [eventsOf, h, List.filter_append, List.filter_eq_self.2 fun e he => by simpa using hp e he,
      List.filter_eq_nil_iff.2 fun e he => by simp [hr e he], List.append_nil]
  have hresult : eventsOf clock "result" ns = results := by
    rw [eventsOf, h, List.filter_append, List.filter_eq_nil_iff.2 fun e he => by simp [hp e he],
      List.filter_eq_self.2 fun e he => by simpa using hr e he, List.nil_append]
  have hrecord := recordAll_after clock ho hc ns calls fun e he => by
    rw [h, List.mem_append] at he
    rcases he with he | he
    · rw [hp e he]
      exact hwp
    · rw [hr e he]
      exact hwr
  have hfp := filed clock ho hc (by decide) hwp ns calls
  have hfr := filed clock ho hc (by decide) hwr ns calls
  rw [hprogress] at hfp
  rw [hresult] at hfr
  exact ⟨_, _, hrecord, hfp, hfr⟩

end

end LocalSat.Events
