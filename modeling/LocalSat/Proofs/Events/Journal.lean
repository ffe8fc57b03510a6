import LocalSat.Proofs.Events.Calls
import LocalSat.Proofs.Files

/-!
# What a journal keeps

`Ledger` ties a journal and the files to the calls that were made: each file holds just the events of its
type that are held, in order, and the count of its type is their number. Each call keeps it
(`Ledger.call`), so any calls do (`ledger`). A file that is opened again is emptied first, which is why
not all that was logged need be held. Main statement: `journal_keeps`.
-/

namespace LocalSat.Events

/-! ## Where the files stand -/

/-- The types of events. -/
def types : List String := ["progress", "result", "exception"]

theorem Record.type_mem (r : Record) : r.event.type ∈ types := by
  cases r <;> simp [types, Record.event, progressEvent, resultEvent, exceptionEvent]

/-- The path of the description. -/
def Journal.metadataPath (j : Journal) : String :=
  FileTree.join j.directory (j.experiment ++ "_metadata.json")

/-- The two paths name different files of one directory. -/
structure Beside (p q : String) : Prop where
  ne : Place.ofPath p ≠ Place.ofPath q
  above : (Place.ofPath p).tail = (Place.ofPath q).tail

theorem Beside.tail_ne {p q : String} (h : Beside p q) (hq : FileTree.Names q) :
    (Place.ofPath p).tail ≠ Place.ofPath q := by
  rw [h.above]
  exact hq.tail_ne

section
variable {j : Journal} {type other : String}

theorem nameEnd_type (format : Format) (ht : type ∈ types) : NameEnd ("_" ++ type ++ format.ending) := by
  refine ⟨?_, '_', by simp, by decide⟩
  simp only [types, List.mem_cons, List.not_mem_nil, or_false] at ht
  rcases ht with rfl | rfl | rfl <;> cases format <;> decide

theorem nameEnd_metadata : NameEnd "_metadata.json" := by
  refine ⟨by decide, '_', by decide, by decide⟩

theorem path_eq (j : Journal) (type : String) :
    j.path type = FileTree.join j.directory (j.experiment ++ ("_" ++ type ++ j.format.ending)) := by
  simp only [Journal.path, String.append_assoc]

theorem names_join {s : String} (hs : NameEnd s) (directory start : String) :
    FileTree.Names (FileTree.join directory (start ++ s)) := by
  obtain ⟨x, hx⟩ := FileTree.exists_join directory start
  rw [hx s hs]
  exact FileTree.names_append hs x

theorem beside_join {s s' : String} (hs : NameEnd s) (hs' : NameEnd s') (hne : s ≠ s')
    (directory start : String) :
    Beside (FileTree.join directory (start ++ s)) (FileTree.join directory (start ++ s')) := by
  obtain ⟨x, hx⟩ := FileTree.exists_join directory start
  obtain ⟨name, up, -, hup⟩ := exists_ofPath x
  rw [hx s hs, hx s' hs']
  refine ⟨?_, ?_⟩
  · rw [hup s hs, hup s' hs']
    exact fun he => hne ((String.append_right_inj name).1 (List.cons.inj he).1)
  · rw [hup s hs, hup s' hs']
    rfl

theorem names_path (ht : type ∈ types) : FileTree.Names (j.path type) := by
  rw [path_eq]
  exact names_join (nameEnd_type j.format ht) _ _

theorem beside_path (ht : type ∈ types) (ho : other ∈ types) (hne : type ≠ other) :
    Beside (j.path type) (j.path other) := by
  rw [path_eq, path_eq]
  refine beside_join (nameEnd_type j.format ht) (nameEnd_type j.format ho) (fun he => hne ?_) _ _
  exact (String.append_right_inj "_").1 ((String.append_left_inj _).1 he)

theorem beside_metadata (ht : type ∈ types) : Beside (j.path type) j.metadataPath := by
  rw [path_eq, Journal.metadataPath]
  refine beside_join (nameEnd_type j.format ht) nameEnd_metadata ?_ _ _
  simp only [types, List.mem_cons, List.not_mem_nil, or_false] at ht
  rcases ht with rfl | rfl | rfl <;> cases j.format <;> decide

end

/-! ## What a call does -/

/-- What logging an event may come to. -/
inductive Logs (j : Journal) (t : FileTree) (e : Event) :
    Journal → FileTree → Except FileError Unit → Prop
  | added (isOpen : e.type ∈ j.opened) :
      Logs j t e { j with counts := Journal.countUp e.type j.counts }
        (t.append (j.path e.type) (Journal.eventText j.format false e.fields)) (.ok ())
  | started {t₁ : FileTree} (isClosed : e.type ∉ j.opened)
      (opens : t.openFile true (j.path e.type) = .ok t₁) :
      Logs j t e
        { j with
          paths := Value.insert e.type (.text (j.path e.type)) j.paths
          opened := e.type :: j.opened
          counts := Journal.countUp e.type (Value.insert e.type (.int 0) j.counts) }
        (t₁.append (j.path e.type) (Journal.eventText j.format true e.fields)) (.ok ())
  | failed {err : FileError} (isClosed : e.type ∉ j.opened)
      (fails : t.openFile true (j.path e.type) = .error err) :
      Logs j t e { j with paths := Value.insert e.type (.text (j.path e.type)) j.paths } t (.error err)

/-- What finalizing may come to. -/
inductive Finishes (j : Journal) (t : FileTree) : Journal → FileTree → Except FileError Unit → Prop
  | silent (plain : j.described = false) : Finishes j t j.close t (.ok ())
  | written {t' : FileTree} (described : j.described = true)
      (writes : t.write j.metadataPath j.description.jsonIndented = .ok t') :
      Finishes j t { j.close with ended := true } t' (.ok ())
  | failed {err : FileError} (described : j.described = true)
      (fails : t.write j.metadataPath j.description.jsonIndented = .error err) :
      Finishes j t { j.close with ended := true } t (.error err)

theorem log_cases (j : Journal) (t : FileTree) (r : Record) : Logs j t r.event
    (j.call t (.log r)).1 (j.call t (.log r)).2.1 (j.call t (.log r)).2.2 := by
  by_cases ho : r.event.type ∈ j.opened
  · have hr : j.record t r.event = ({ j with counts := Journal.countUp r.event.type j.counts },
        .ok (t.append (j.path r.event.type) (Journal.eventText j.format false r.event.fields))) := by
      rw [Journal.record, Journal.ensureOpen, if_pos (List.contains_iff_mem.2 ho)]
    simp only [Journal.call, hr]
    exact .added ho
  · have hc : ¬ j.opened.contains r.event.type = true := fun hc => ho (List.contains_iff_mem.1 hc)
    cases hf : t.openFile true (j.path r.event.type) with
    | error err =>
      have hr : j.record t r.event = ({ j with
          paths := Value.insert r.event.type (.text (j.path r.event.type)) j.paths }, .error err) := by
        rw [Journal.record, Journal.ensureOpen, if_neg hc]
        simp only [hf]
      simp only [Journal.call, hr]
      exact .failed ho hf
    | ok t₁ =>
      have hr : j.record t r.event = ({ j with
          paths := Value.insert r.event.type (.text (j.path r.event.type)) j.paths
          opened := r.event.type :: j.opened
          counts := Journal.countUp r.event.type (Value.insert r.event.type (.int 0) j.counts) },
          .ok (t₁.append (j.path r.event.type) (Journal.eventText j.format true r.event.fields))) := by
        rw [Journal.record, Journal.ensureOpen, if_neg hc]
        simp only [hf]
        rfl
      simp only [Journal.call, hr]
      exact .started ho hf

theorem finalize_cases (j : Journal) (t : FileTree) : Finishes j t
    (j.call t .finalize).1 (j.call t .finalize).2.1 (j.call t .finalize).2.2 := by
  cases hd : j.described with
  | false =>
    have hf : j.finalize t = (j.close, .ok (t, "")) := by
      unfold Journal.finalize
      rw [if_pos (by rw [show j.close.described = false from hd]; rfl)]
    simp only [Journal.call, hf]
    exact .silent hd
  | true =>
    have hf : j.finalize t = ({ j.close with ended := true },
        (t.write j.metadataPath j.description.jsonIndented).map fun t' => (t', j.metadataPath)) := by
      unfold Journal.finalize
      rw [if_neg (by rw [show j.close.described = true from hd]; decide)]
      rfl
    simp only [Journal.call, hf]
    cases hw : t.write j.metadataPath j.description.jsonIndented with
    | error err => exact .failed hd hw
    | ok t' => exact .written hd hw

/-! ## What the calls leave -/

/-- What no call changes: the directory, the experiment, the format, and whether the files are
described. -/
def Journal.settings (j : Journal) : String × String × Format × Bool :=
  (j.directory, j.experiment, j.format, j.described)

theorem Journal.path_of_settings {j j' : Journal} (h : j.settings = j'.settings) (type : String) :
    j.path type = j'.path type := by
  simp only [settings, Prod.mk.injEq] at h
  rw [path, path, h.1, h.2.1, h.2.2.1]

theorem Journal.metadataPath_of_settings {j j' : Journal} (h : j.settings = j'.settings) :
    j.metadataPath = j'.metadataPath := by
  simp only [settings, Prod.mk.injEq] at h
  rw [metadataPath, metadataPath, h.1, h.2.1]

theorem Journal.format_of_settings {j j' : Journal} (h : j.settings = j'.settings) :
    j.format = j'.format := by
  simp only [settings, Prod.mk.injEq] at h
  exact h.2.2.1

/-- The events of a type that have come to its file, when it can be written at all. -/
structure Ledger (j₀ : Journal) (t₀ : FileTree) (type : String) (calls : List Call) (j : Journal)
    (t : FileTree) : Prop where
  settings : j.settings = j₀.settings
  opened_iff : type ∈ j.opened ↔ t₀.Writable (j₀.path type) ∧ since type calls ≠ []
  counted : t₀.Writable (j₀.path type) → held type calls ≠ [] →
    Value.lookup? type j.counts = some (.int (held type calls).length)
  holds : t₀.Writable (j₀.path type) → held type calls ≠ [] →
    t.at? (.ofPath (j₀.path type)) =
      some (.file (Text.Utf8.encode (sheet j₀.format (held type calls)).toList))
  uncounted : ¬ (t₀.Writable (j₀.path type) ∧ held type calls ≠ []) →
    Value.lookup? type j.counts = none
  untouched : ¬ (t₀.Writable (j₀.path type) ∧ held type calls ≠ []) →
    t.at? (.ofPath (j₀.path type)) = t₀.at? (.ofPath (j₀.path type))
  above : t.at? (Place.ofPath (j₀.path type)).tail = t₀.at? (Place.ofPath (j₀.path type)).tail

section
variable {j₀ j j' : Journal} {t₀ t t' : FileTree} {type : String} {calls : List Call}

theorem Ledger.writable_iff (ht : type ∈ types) (h : Ledger j₀ t₀ type calls j t) :
    t.Writable (j.path type) ↔ t₀.Writable (j₀.path type) := by
  rw [Journal.path_of_settings h.settings]
  refine FileTree.writable_iff_of_at? (names_path ht) h.above ?_
  by_cases hw : t₀.Writable (j₀.path type) ∧ held type calls ≠ []
  · exact .inr ⟨hw.1, _, h.holds hw.1 hw.2⟩
  · exact .inl (h.untouched hw)

/-- A call that does not touch the file of the type, and logs nothing of it, keeps its ledger. -/
theorem Ledger.frame {c : Call} (h : Ledger j₀ t₀ type calls j t) (hc : c.event? type = none)
    (hsettings : j'.settings = j.settings) (hopened : type ∈ j'.opened ↔ type ∈ j.opened ∧ ¬ c.Closes)
    (hcounts : Value.lookup? type j'.counts = Value.lookup? type j.counts)
    (hplace : t'.at? (.ofPath (j₀.path type)) = t.at? (.ofPath (j₀.path type)))
    (habove : t'.at? (Place.ofPath (j₀.path type)).tail = t.at? (Place.ofPath (j₀.path type)).tail) :
    Ledger j₀ t₀ type (c :: calls) j' t' := by
  have hheld := held_other calls hc
  exact
  { settings := hsettings.trans h.settings
    opened_iff := by
      rw [hopened, h.opened_iff]
      by_cases hcl : c.Closes
      · simp [hcl, since_closes hcl]
      · cases c with
        | log r =>
          rw [since, hc]
          simp [Call.Closes]
        | close => exact absurd trivial hcl
        | finalize => exact absurd trivial hcl
    counted := by
      rw [hheld, hcounts]
      exact h.counted
    holds := by
      rw [hheld, hplace]
      exact h.holds
    uncounted := by
      rw [hheld, hcounts]
      exact h.uncounted
    untouched := by
      rw [hheld, hplace]
      exact h.untouched
    above := habove.trans h.above }

theorem lookup?_countUp_self {counts : List (String × Value)} {n : Int}
    (h : Value.lookup? type counts = some (.int n)) :
    Value.lookup? type (Journal.countUp type counts) = some (.int (n + 1)) := by
  rw [Journal.countUp, h]
  exact Value.lookup?_insert_self type _ counts

theorem lookup?_countUp_of_ne {other : String} (h : type ≠ other) (counts : List (String × Value)) :
    Value.lookup? type (Journal.countUp other counts) = Value.lookup? type counts := by
  unfold Journal.countUp
  split
  · exact Value.lookup?_insert_of_ne _ h counts
  · rfl

theorem encode_append (s s' : String) : Text.Utf8.encode (s ++ s').toList =
    Text.Utf8.encode s.toList ++ Text.Utf8.encode s'.toList := by
  rw [String.toList_append, Text.Utf8.encode, List.flatMap_append]
  rfl

/-- An event of the type that comes to an open file stands after all that the file holds. -/
theorem Ledger.added {r : Record} (ht : r.event.type ∈ types)
    (h : Ledger j₀ t₀ r.event.type calls j t) (ho : r.event.type ∈ j.opened) :
    Ledger j₀ t₀ r.event.type (.log r :: calls)
      { j with counts := Journal.countUp r.event.type j.counts }
      (t.append (j.path r.event.type) (Journal.eventText j.format false r.event.fields)) := by
  obtain ⟨hw, hs⟩ := h.opened_iff.1 ho
  have hc : (Call.log r).event? r.event.type = some r.event := if_pos rfl
  have hne : held r.event.type calls ≠ [] := held_of_since hs ▸ hs
  have hheld : held r.event.type (.log r :: calls) = held r.event.type calls ++ [r.event] := by
    rw [held_log hc, if_neg hs]
  have hsome : held r.event.type (.log r :: calls) ≠ [] := by simp [hheld]
  have hpath := Journal.path_of_settings h.settings r.event.type
  exact
  { settings := h.settings
    opened_iff := by
      rw [since, hc]
      simpa [hw] using ho
    counted := fun _ _ => by
      rw [hheld, List.length_append]
      exact lookup?_countUp_self (h.counted hw hne)
    holds := fun _ _ => by
      rw [hheld, sheet_append _ hne, encode_append, Journal.format_of_settings h.settings, hpath]
      exact FileTree.at?_append_self (h.holds hw hne) _
    uncounted := fun hn => absurd ⟨hw, hsome⟩ hn
    untouched := fun hn => absurd ⟨hw, hsome⟩ hn
    above := by rw [hpath, FileTree.at?_append_of_ne (names_path ht).tail_ne, h.above] }

/-- The first event of the type to come to a file that is not open is all that it holds. -/
theorem Ledger.started {r : Record} {t₁ : FileTree} (ht : r.event.type ∈ types)
    (h : Ledger j₀ t₀ r.event.type calls j t) (ho : r.event.type ∉ j.opened)
    (hopen : t.openFile true (j.path r.event.type) = .ok t₁) :
    Ledger j₀ t₀ r.event.type (.log r :: calls)
      { j with
        paths := Value.insert r.event.type (.text (j.path r.event.type)) j.paths
        opened := r.event.type :: j.opened
        counts := Journal.countUp r.event.type (Value.insert r.event.type (.int 0) j.counts) }
      (t₁.append (j.path r.event.type) (Journal.eventText j.format true r.event.fields)) := by
  have hw : t₀.Writable (j₀.path r.event.type) := (h.writable_iff ht).1 ⟨t₁, hopen⟩
  have hc : (Call.log r).event? r.event.type = some r.event := if_pos rfl
  have hs : since r.event.type calls = [] := by
    cases hs : since r.event.type calls with
    | nil => rfl
    | cons e es => exact absurd (h.opened_iff.2 ⟨hw, by simp [hs]⟩) ho
  have hheld : held r.event.type (.log r :: calls) = [r.event] := by rw [held_log hc, if_pos hs]
  have hsome : held r.event.type (.log r :: calls) ≠ [] := by simp [hheld]
  have hpath := Journal.path_of_settings h.settings r.event.type
  rw [hpath] at hopen
  exact
  { settings := h.settings
    opened_iff := by
      rw [since, hc]
      simp [hw]
    counted := fun _ _ => by
      rw [hheld]
      exact lookup?_countUp_self (Value.lookup?_insert_self _ _ _)
    holds := fun _ _ => by
      rw [hheld, sheet_singleton, Journal.format_of_settings h.settings, hpath]
      exact FileTree.at?_append_fresh hopen _
    uncounted := fun hn => absurd ⟨hw, hsome⟩ hn
    untouched := fun hn => absurd ⟨hw, hsome⟩ hn
    above := by rw [hpath, FileTree.at?_append_fresh_of_ne hopen (names_path ht).tail_ne, h.above] }

/-- An event that cannot be written changes no file. -/
theorem Ledger.failed {r : Record} {err : FileError} {paths : List (String × Value)}
    (ht : r.event.type ∈ types) (h : Ledger j₀ t₀ r.event.type calls j t)
    (hfail : t.openFile true (j.path r.event.type) = .error err) :
    Ledger j₀ t₀ r.event.type (.log r :: calls) { j with paths := paths } t := by
  have hw : ¬ t₀.Writable (j₀.path r.event.type) := by
    rw [← h.writable_iff ht]
    rintro ⟨t₁, ho⟩
    rw [hfail] at ho
    cases ho
  exact
  { settings := h.settings
    opened_iff := iff_of_false (fun ho => hw (h.opened_iff.1 ho).1) fun hn => hw hn.1
    counted := fun hw' => absurd hw' hw
    holds := fun hw' => absurd hw' hw
    uncounted := fun _ => h.uncounted fun hn => hw hn.1
    untouched := fun _ => h.untouched fun hn => hw hn.1
    above := h.above }

theorem Ledger.log_same {r : Record} {res : Except FileError Unit} (ht : r.event.type ∈ types)
    (h : Ledger j₀ t₀ r.event.type calls j t) (hx : Logs j t r.event j' t' res) :
    Ledger j₀ t₀ r.event.type (.log r :: calls) j' t' := by
  cases hx with
  | added ho => exact h.added ht ho
  | started ho hopen => exact h.started ht ho hopen
  | failed ho hfail => exact h.failed ht hfail

/-- What a call does to the file of a type that it does not log. -/
theorem Ledger.log_other {r : Record} {res : Except FileError Unit} (ht : type ∈ types)
    (h : Ledger j₀ t₀ type calls j t) (hne : type ≠ r.event.type) (hx : Logs j t r.event j' t' res) :
    Ledger j₀ t₀ type (.log r :: calls) j' t' := by
  have hc : (Call.log r).event? type = none := if_neg (Ne.symm hne)
  have hpath : j.path r.event.type = j₀.path r.event.type := Journal.path_of_settings h.settings _
  have hb : Beside (j₀.path type) (j.path r.event.type) := by
    rw [hpath]
    exact beside_path ht r.type_mem hne
  have hne' : (Place.ofPath (j₀.path type)).tail ≠ Place.ofPath (j.path r.event.type) :=
    hb.tail_ne (names_path r.type_mem)
  cases hx with
  | added ho =>
    refine h.frame hc rfl ?_ ?_ ?_ ?_
    · simp [Call.Closes]
    · exact lookup?_countUp_of_ne hne _
    · exact FileTree.at?_append_of_ne hb.ne _
    · exact FileTree.at?_append_of_ne hne' _
  | started ho hopen =>
    refine h.frame hc rfl ?_ ?_ ?_ ?_
    · simp [Call.Closes, hne]
    · rw [lookup?_countUp_of_ne hne, Value.lookup?_insert_of_ne _ hne]
    · exact FileTree.at?_append_fresh_of_ne hopen hb.ne _
    · exact FileTree.at?_append_fresh_of_ne hopen hne' _
  | failed ho hfail =>
    refine h.frame hc rfl ?_ rfl rfl rfl
    simp [Call.Closes]

/-- Closing the files, and writing beside them, keeps what they hold. -/
theorem Ledger.finish {res : Except FileError Unit} (ht : type ∈ types)
    (h : Ledger j₀ t₀ type calls j t) (hx : Finishes j t j' t' res) :
    Ledger j₀ t₀ type (.finalize :: calls) j' t' := by
  have hb : Beside (j₀.path type) j.metadataPath :=
    Journal.metadataPath_of_settings h.settings ▸ beside_metadata ht
  have hclosed : type ∈ ([] : List String) ↔ type ∈ j.opened ∧ ¬ Call.finalize.Closes := by
    simp [Call.Closes]
  cases hx with
  | silent hd => exact h.frame rfl rfl hclosed rfl rfl rfl
  | failed hd hfail => exact h.frame rfl rfl hclosed rfl rfl rfl
  | written hd hw =>
    have hm : FileTree.Names j.metadataPath := names_join nameEnd_metadata _ _
    refine h.frame rfl rfl hclosed rfl ?_ ?_
    · exact FileTree.at?_write_of_ne hw hb.ne
    · exact FileTree.at?_write_of_ne hw (hb.tail_ne hm)

/-- **A call keeps the ledger** of each type. -/
theorem Ledger.call (ht : type ∈ types) (h : Ledger j₀ t₀ type calls j t) (c : Call) :
    Ledger j₀ t₀ type (c :: calls) (j.call t c).1 (j.call t c).2.1 := by
  cases c with
  | log r =>
    have hx := log_cases j t r
    by_cases he : type = r.event.type
    · subst he
      exact h.log_same ht hx
    · exact h.log_other ht he hx
  | close =>
    refine h.frame rfl rfl ?_ rfl rfl rfl
    simp [Journal.call, Journal.close, Call.Closes]
  | finalize => exact h.finish ht (finalize_cases j t)

/-- What holds of a journal before any call. -/
theorem Ledger.start (ho : j₀.opened = []) (hc : j₀.counts = []) : Ledger j₀ t₀ type [] j₀ t₀ where
  settings := rfl
  opened_iff := by simp [ho, since]
  counted := fun _ hn => absurd rfl hn
  holds := fun _ hn => absurd rfl hn
  uncounted := fun _ => by
    rw [hc]
    rfl
  untouched := fun _ => rfl
  above := rfl

/-- **Any calls keep the ledger** of each type. -/
theorem ledger (t₀ : FileTree) (ht : type ∈ types) (ho : j₀.opened = []) (hc : j₀.counts = []) :
    ∀ calls, Ledger j₀ t₀ type calls (j₀.after t₀ calls).1 (j₀.after t₀ calls).2
  | [] => .start ho hc
  | c :: earlier => (ledger t₀ ht ho hc earlier).call ht c

/-! ## The description -/

/-- Logging leaves alone what stands beside the event files. -/
theorem Logs.frame {r : Record} {res : Except FileError Unit} (hx : Logs j t r.event j' t' res)
    {q : Place} (hq : q ≠ .ofPath (j.path r.event.type)) : t'.at? q = t.at? q := by
  cases hx with
  | added ho => exact FileTree.at?_append_of_ne hq _
  | started ho hopen => exact FileTree.at?_append_fresh_of_ne hopen hq _
  | failed ho hfail => rfl

/-- Whether the description can be written is not changed by any call. -/
theorem call_writable (j : Journal) (t : FileTree) (c : Call) :
    (j.call t c).2.1.Writable j.metadataPath ↔ t.Writable j.metadataPath := by
  have hm : FileTree.Names j.metadataPath := names_join nameEnd_metadata _ _
  cases c with
  | log r =>
    have hx := log_cases j t r
    have hb := beside_metadata (j := j) r.type_mem
    refine FileTree.writable_iff_of_at? hm (hx.frame ?_) (.inl (hx.frame hb.ne.symm))
    rw [← hb.above]
    exact (names_path r.type_mem).tail_ne
  | close => rfl
  | finalize =>
    have hx := finalize_cases j t
    generalize (j.call t .finalize).1 = j', (j.call t .finalize).2.1 = t',
      (j.call t .finalize).2.2 = res at hx ⊢
    cases hx with
    | silent hd => rfl
    | failed hd hfail => rfl
    | written hd hw =>
      refine FileTree.writable_iff_of_at? hm (FileTree.at?_write_of_ne hw hm.tail_ne) (.inr ⟨?_, ?_⟩)
      · exact FileTree.writable_of_write hw
      · exact ⟨_, (FileTree.read_eq_ok_iff.1 (FileTree.read_of_write hw)).2⟩

theorem after_writable (ht : type ∈ types) (ho : j₀.opened = []) (hc : j₀.counts = []) :
    ∀ calls, (j₀.after t₀ calls).2.Writable j₀.metadataPath ↔ t₀.Writable j₀.metadataPath
  | [] => Iff.rfl
  | c :: earlier => by
    have hs := (ledger t₀ ht ho hc earlier).settings
    have hcall := call_writable (j₀.after t₀ earlier).1 (j₀.after t₀ earlier).2 c
    rw [Journal.metadataPath_of_settings hs] at hcall
    exact hcall.trans (after_writable ht ho hc earlier)

/-! ## What the files hold -/

/-- What the file of a type, its count and the description tell about the calls that were made since the
journal was `j₀` and the files were `t₀`. -/
structure Keeps (j₀ : Journal) (t₀ : FileTree) (calls : List Call) (type : String) (j : Journal)
    (t : FileTree) : Prop where
  /-- Logging succeeds at any time just when the file could be written from the start. -/
  succeeds : ∀ r : Record, r.event.type = type →
    ((j.call t (.log r)).2.2 = .ok () ↔ t₀.Writable (j₀.path type))
  /-- The file holds the events from the latest one back to the closing before it. -/
  holds : t₀.Writable (j₀.path type) → logged type calls ≠ [] →
    t.read (j₀.path type) = .ok (Text.Utf8.encode (sheet j₀.format (held type calls)).toList) ∧
      Value.lookup? type j.counts = some (.int (held type calls).length)
  untouched : ¬ (t₀.Writable (j₀.path type) ∧ logged type calls ≠ []) →
    t.at? (.ofPath (j₀.path type)) = t₀.at? (.ofPath (j₀.path type)) ∧
      Value.lookup? type j.counts = none
  /-- These are all that were logged, unless the file was opened again. -/
  complete : held type calls = logged type calls ↔ ¬ Reopened type calls
  /-- As JSON each event stands on a line of its own. -/
  lines : Text.lines .lineFeed (sheet .json (held type calls)).toList =
    (held type calls).map fun e => (Value.mapping e.fields).json.toList
  /-- Finalizing describes the files as they are. -/
  described : j₀.described = true → t₀.Writable j₀.metadataPath →
    (j.call t .finalize).2.2 = .ok () ∧
      (j.call t .finalize).2.1.read j₀.metadataPath =
        .ok (Text.Utf8.encode j.description.jsonIndented.toList) ∧
      Value.field? j.description "record_counts" = some (.mapping j.counts) ∧
      (j.call t .finalize).2.1.at? (.ofPath (j₀.path type)) = t.at? (.ofPath (j₀.path type))

theorem Ledger.succeeds {r : Record} (ht : r.event.type ∈ types)
    (h : Ledger j₀ t₀ r.event.type calls j t) :
    (j.call t (.log r)).2.2 = .ok () ↔ t₀.Writable (j₀.path r.event.type) := by
  have hx := log_cases j t r
  generalize (j.call t (.log r)).1 = j', (j.call t (.log r)).2.1 = t',
    (j.call t (.log r)).2.2 = res at hx ⊢
  cases hx with
  | added ho => exact iff_of_true rfl (h.opened_iff.1 ho).1
  | started ho hopen => exact iff_of_true rfl ((h.writable_iff ht).1 ⟨_, hopen⟩)
  | failed ho hfail =>
    refine iff_of_false (fun he => by cases he) fun hw => ?_
    obtain ⟨t₁, hopen⟩ := (h.writable_iff ht).2 hw
    rw [hfail] at hopen
    cases hopen

/-- A description that is wanted, and that can be written, is. -/
theorem finalize_written (hd : j.described = true) (hw : t.Writable j.metadataPath) :
    ∃ t', (j.call t .finalize).2 = (t', .ok ()) ∧
      t.write j.metadataPath j.description.jsonIndented = .ok t' := by
  obtain ⟨t₁, ho⟩ := hw
  have hwrite : t.write j.metadataPath j.description.jsonIndented =
      .ok (t₁.append j.metadataPath j.description.jsonIndented) := by
    rw [FileTree.write, ho]
    rfl
  have hx := finalize_cases j t
  rcases hcall : j.call t .finalize with ⟨j', t', res⟩
  rw [hcall] at hx
  simp only at hx
  cases hx with
  | silent hplain => rw [hd] at hplain; cases hplain
  | written _ hw => exact ⟨_, rfl, hw⟩
  | failed _ hfail => rw [hwrite] at hfail; cases hfail

theorem Ledger.described (ht : type ∈ types) (h : Ledger j₀ t₀ type calls j t)
    (hd : j₀.described = true) (hw : t.Writable j₀.metadataPath) :
    (j.call t .finalize).2.2 = .ok () ∧
      (j.call t .finalize).2.1.read j₀.metadataPath =
        .ok (Text.Utf8.encode j.description.jsonIndented.toList) ∧
      Value.field? j.description "record_counts" = some (.mapping j.counts) ∧
      (j.call t .finalize).2.1.at? (.ofPath (j₀.path type)) = t.at? (.ofPath (j₀.path type)) := by
  have hdescribed : j.described = j₀.described := by
    have hs := h.settings
    simp only [Journal.settings, Prod.mk.injEq] at hs
    exact hs.2.2.2
  have hmeta := Journal.metadataPath_of_settings h.settings
  obtain ⟨t', hcall, hwrite⟩ := finalize_written (hdescribed.trans hd) (hmeta ▸ hw)
  rw [hcall]
  refine ⟨rfl, hmeta ▸ FileTree.read_of_write hwrite, ?_, ?_⟩
  · simp [Journal.description, Value.field?, Value.lookup?]
  · refine FileTree.at?_write_of_ne hwrite ?_
    rw [hmeta]
    exact (beside_metadata ht).ne

end

/-- **The files of a journal.** After any calls the file of each type holds, in the order of the calls
and each once, the events of the type from the latest one back to the closing before it; these are all of
them just when the file was never opened again. The counts that are described are those of the files. -/
theorem journal_keeps {tree t₀ : FileTree} {directory experiment : String} {format : Format}
    {described : Bool} {j₀ : Journal}
    (h : Journal.create tree directory experiment format described = .ok (j₀, t₀)) (calls : List Call)
    {type : String} (ht : type ∈ types) :
    Keeps j₀ t₀ calls type (j₀.after t₀ calls).1 (j₀.after t₀ calls).2 := by
  have hnew : j₀.opened = [] ∧ j₀.counts = [] := by
    obtain ⟨_, -, he⟩ := map_eq_ok_iff.1 h
    cases he
    exact ⟨rfl, rfl⟩
  have hl := ledger t₀ ht hnew.1 hnew.2 calls
  have hne : held type calls ≠ [] ↔ logged type calls ≠ [] := not_congr held_eq_nil_iff
  exact
  { succeeds := by
      rintro r rfl
      exact hl.succeeds ht
    holds := fun hw hlog => by
      have hheld := hne.2 hlog
      exact ⟨FileTree.read_eq_ok_iff.2 ⟨names_path ht, hl.holds hw hheld⟩, hl.counted hw hheld⟩
    untouched := fun hn => by
      rw [← hne] at hn
      exact ⟨hl.untouched hn, hl.uncounted hn⟩
    complete := held_eq_logged_iff
    lines := lines_sheet _
    described := fun hd hw => hl.described ht hd ((after_writable ht hnew.1 hnew.2 calls).2 hw) }

/-- A journal in a new directory. -/
def newJournal : Journal := ⟨"ev", "exp", .json, true, [], [], [], false⟩

/-- A file tree with nothing but this directory. -/
def newTree : FileTree := ⟨[(["ev", "."], .directory)]⟩

/-- Progress before the files are closed, and more of it after. -/
def reopening : List Call := [.log (.progress 1 9 1 8 2.0), .close, .log (.progress 1 4 2 8 1.0)]

theorem create_newJournal : Journal.create .empty "ev" "exp" .json true = .ok (newJournal, newTree) := by
  rfl

theorem writable_newTree : newTree.Writable (newJournal.path "progress") :=
  (FileTree.openFile_isOk_iff (names_path (by decide)) true).2 (.inr ⟨rfl, rfl⟩)

theorem journal_keeps_reopening :
    (newJournal.after newTree reopening).2.read (newJournal.path "progress") =
        .ok (Text.Utf8.encode (sheet .json [progressEvent (.int 1) (.int 9) (.int 1) (.int 8) 2.0]).toList) ∧
      Value.lookup? "progress" (newJournal.after newTree reopening).1.counts = some (.int 1) :=
  (journal_keeps create_newJournal reopening (by decide)).holds writable_newTree
    (List.cons_ne_nil _ _)

/-- Two events are logged, and the file does not hold both. -/
theorem reopening_loses_event : logged "progress" reopening =
      [progressEvent (.int 1) (.int 4) (.int 2) (.int 8) 1.0,
        progressEvent (.int 1) (.int 9) (.int 1) (.int 8) 2.0] ∧
    (newJournal.after newTree reopening).2.read (newJournal.path "progress") ≠
      .ok (Text.Utf8.encode (sheet .json (logged "progress" reopening)).toList) := by
  refine ⟨rfl, fun hread => ?_⟩
  have hl : Ledger newJournal newTree "progress" reopening _ _ := ledger newTree (by decide) rfl rfl reopening
  have hfile := (FileTree.read_eq_ok_iff.1 hread).2
  rw [hl.holds writable_newTree (List.cons_ne_nil _ _)] at hfile
  have htext := Text.Utf8.encode_injective (Entry.file.inj (Option.some.inj hfile))
  -- one event stands on one line, and two on two
  have hlines := congrArg (fun cs => (Text.lines .lineFeed cs).length) htext
  simp only [show newJournal.format = .json from rfl, lines_sheet, List.length_map] at hlines
  exact absurd hlines (by decide)

end LocalSat.Events
