import LocalSat.Events
import LocalSat.Proofs.Json

/-!
# Calls of a journal

A journal takes any sequence of calls: it logs an event, closes its files, or finalizes them. `logged`
are all events of a type, `held` only those from the latest one back to the closing before it. What was
logged is all held exactly as long as no event of the type follows a closing that follows another one
(`held_eq_logged_iff`). A `sheet` is the text of a file that holds events, as JSON a line for each
(`lines_sheet`).
-/

namespace LocalSat.Events

/-! ## Calls -/

/-- What is logged in one call. The numbers are those of runs, which are counted: an integer of more digits
than are printed, or a share beyond the range of doubles, makes the program fail, and here is written like
any other. -/
inductive Record where
  | progress (run iteration unsatisfied total : Int) (time : Float)
  | result (run : Int) (fields : List (String × Value)) (time : Float)
  | exception (run : Int) (kind message trace : String) (time : Float)

/-- The event that is written. -/
def Record.event : Record → Event
  | progress run iteration unsatisfied total time =>
    progressEvent (.int run) (.int iteration) (.int unsatisfied) (.int total) time
  | result run fields time => resultEvent (.int run) fields time
  | exception run kind message trace time =>
    exceptionEvent (.int run) (.text kind) (.text message) (.text trace) time

/-- A call of a journal. -/
inductive Call where
  | log (r : Record)
  | close
  | finalize

/-- The event of a type that a call logs. -/
def Call.event? (type : String) : Call → Option Event
  | log r => if r.event.type = type then some r.event else none
  | _ => none

/-- The call closes the files. -/
def Call.Closes : Call → Prop
  | log _ => False
  | _ => True

/-- A call, with the journal and the files that it leaves and whether it fails. -/
def Journal.call (j : Journal) (tree : FileTree) : Call → Journal × FileTree × Except FileError Unit
  | .log r =>
    match j.record tree r.event with
    | (j, .error err) => (j, tree, .error err)
    | (j, .ok tree) => (j, tree, .ok ())
  | .close => (j.close, tree, .ok ())
  | .finalize =>
    match j.finalize tree with
    | (j, .error err) => (j, tree, .error err)
    | (j, .ok (tree, _)) => (j, tree, .ok ())

/-- The journal and the files after calls, the latest first; a call that fails does not end them. -/
def Journal.after (j : Journal) (tree : FileTree) : List Call → Journal × FileTree
  | [] => (j, tree)
  | c :: earlier =>
    let (j, tree) := after j tree earlier
    ((j.call tree c).1, (j.call tree c).2.1)

/-! ## What was logged -/

/-- All events of a type that the calls logged, in the order of the calls; the calls are given the latest
first. -/
def logged (type : String) : List Call → List Event
  | [] => []
  | c :: earlier => logged type earlier ++ (c.event? type).toList

/-- The events of a type that were logged since the files were last closed. -/
def since (type : String) : List Call → List Event
  | [] => []
  | .log r :: earlier => since type earlier ++ ((Call.log r).event? type).toList
  | _ :: _ => []

/-- The events of a type from the latest one back to the closing before it. -/
def held (type : String) : List Call → List Event
  | [] => []
  | c :: earlier =>
    match c.event? type with
    | some e => since type earlier ++ [e]
    | none => held type earlier

/-- The files were closed after an event of the type had been logged. -/
def Cut (type : String) (calls : List Call) : Prop :=
  ∃ closing former : Call, [closing, former].Sublist calls ∧ closing.Closes ∧
    (former.event? type).isSome

/-- An event of the type was logged after the files had been closed on another one. -/
def Reopened (type : String) (calls : List Call) : Prop :=
  ∃ later closing former : Call, [later, closing, former].Sublist calls ∧
    (later.event? type).isSome ∧ closing.Closes ∧ (former.event? type).isSome

/-- The text of a file that holds the events. -/
def sheet : Format → List Event → String
  | .json, es => String.join (es.map fun e => (Value.mapping e.fields).json ++ "\n")
  | .csv, [] => ""
  | .csv, e :: es => csvRow "\r\n" (e.fields.map (·.1)) ++
      String.join ((e :: es).map fun e => csvRow "\r\n" (e.fields.map fun (_, v) => csvText v))

section
variable {type : String} {calls : List Call} {e : Event}

theorem held_of_since (h : since type calls ≠ []) : held type calls = since type calls := by
  induction calls with
  | nil => rfl
  | cons c earlier ih =>
    cases c with
    | log r =>
      rw [since] at h ⊢
      rw [held]
      cases he : (Call.log r).event? type with
      | some e => rfl
      | none =>
        rw [he, Option.toList_none, List.append_nil] at h
        simp only [Option.toList_none, List.append_nil]
        exact ih h
    | close => exact absurd rfl h
    | finalize => exact absurd rfl h

/-- The event that a call logs comes after those that the file holds, unless the file was closed. -/
theorem held_log {c : Call} (h : c.event? type = some e) :
    held type (c :: calls) = if since type calls = [] then [e] else held type calls ++ [e] := by
  rw [held, h]
  by_cases hs : since type calls = []
  · rw [if_pos hs, hs]
    rfl
  · rw [if_neg hs, held_of_since hs]

theorem held_other {c : Call} (calls : List Call) (h : c.event? type = none) :
    held type (c :: calls) = held type calls := by
  rw [held, h]

theorem logged_eq_nil_iff : logged type calls = [] ↔ ∀ c ∈ calls, c.event? type = none := by
  induction calls with
  | nil => simp [logged]
  | cons c earlier ih =>
    rw [logged, List.append_eq_nil_iff, ih, Option.toList_eq_nil_iff, List.forall_mem_cons, and_comm]

theorem cut_cons {c : Call} : Cut type (c :: calls) ↔
    Cut type calls ∨ (c.Closes ∧ logged type calls ≠ []) := by
  have hex : logged type calls ≠ [] ↔ ∃ former ∈ calls, (former.event? type).isSome := by
    simp [logged_eq_nil_iff, Option.isSome_iff_ne_none]
  rw [hex]
  constructor
  · rintro ⟨closing, former, hs, hc, hf⟩
    rcases List.sublist_cons_iff.1 hs with hs | ⟨r, hr, hs⟩
    · exact .inl ⟨closing, former, hs, hc, hf⟩
    · cases hr
      exact .inr ⟨hc, former, List.singleton_sublist.1 hs, hf⟩
  · rintro (⟨closing, former, hs, hc, hf⟩ | ⟨hc, former, hm, hf⟩)
    · exact ⟨closing, former, hs.cons c, hc, hf⟩
    · exact ⟨c, former, (List.singleton_sublist.2 hm).cons_cons c, hc, hf⟩

theorem reopened_cons {c : Call} : Reopened type (c :: calls) ↔
    Reopened type calls ∨ ((c.event? type).isSome ∧ Cut type calls) := by
  constructor
  · rintro ⟨later, closing, former, hs, hl, hc, hf⟩
    rcases List.sublist_cons_iff.1 hs with hs | ⟨r, hr, hs⟩
    · exact .inl ⟨later, closing, former, hs, hl, hc, hf⟩
    · cases hr
      exact .inr ⟨hl, closing, former, hs, hc, hf⟩
  · rintro (⟨later, closing, former, hs, hl, hc, hf⟩ | ⟨hl, closing, former, hs, hc, hf⟩)
    · exact ⟨later, closing, former, hs.cons c, hl, hc, hf⟩
    · exact ⟨c, closing, former, hs.cons_cons c, hl, hc, hf⟩

theorem Reopened.cut (h : Reopened type calls) : Cut type calls := by
  obtain ⟨later, closing, former, hs, -, hc, hf⟩ := h
  exact ⟨closing, former, (List.sublist_cons_self later _).trans hs, hc, hf⟩

theorem logged_closes {c : Call} (h : c.Closes) : logged type (c :: calls) = logged type calls := by
  cases c with
  | log r => cases h
  | close => exact List.append_nil _
  | finalize => exact List.append_nil _

theorem since_closes {c : Call} (h : c.Closes) : since type (c :: calls) = [] := by
  cases c with
  | log r => cases h
  | close => rfl
  | finalize => rfl

/-- Everything that was logged is in the open file, unless the files were closed on some of it. -/
theorem since_eq_logged_iff : since type calls = logged type calls ↔ ¬ Cut type calls := by
  induction calls with
  | nil => simp [since, logged, Cut]
  | cons c earlier ih =>
    by_cases hc : c.Closes
    · rw [cut_cons, since_closes hc, logged_closes hc]
      constructor
      · rintro hl (hcut | ⟨-, hne⟩)
        · obtain ⟨closing, former, hs, -, hf⟩ := hcut
          rw [logged_eq_nil_iff.1 hl.symm former (hs.subset (by simp))] at hf
          cases hf
        · exact hne hl.symm
      · intro h
        cases hl : logged type earlier with
        | nil => rfl
        | cons d ds => exact absurd (.inr ⟨hc, by rw [hl]; exact List.cons_ne_nil d ds⟩) h
    · rw [cut_cons]
      simp only [hc, false_and, or_false, ← ih]
      cases c with
      | log r => rw [since, logged, List.append_left_inj]
      | close => exact absurd trivial hc
      | finalize => exact absurd trivial hc

/-- **A file holds all that was logged** unless it was closed and opened again. -/
theorem held_eq_logged_iff : held type calls = logged type calls ↔ ¬ Reopened type calls := by
  induction calls with
  | nil => simp [held, logged, Reopened]
  | cons c earlier ih =>
    rw [held, logged, reopened_cons]
    cases he : c.event? type with
    | none => simpa using ih
    | some e =>
      simp only [Option.toList_some, List.append_left_inj, Option.isSome_some, true_and,
        since_eq_logged_iff]
      exact ⟨fun h hr => hr.elim (fun hr => h hr.cut) h, fun h hc => h (.inr hc)⟩

theorem held_eq_nil_iff : held type calls = [] ↔ logged type calls = [] := by
  induction calls with
  | nil => rfl
  | cons c earlier ih =>
    rw [held, logged]
    cases he : c.event? type with
    | none => simpa using ih
    | some e => simp

theorem sheet_singleton (format : Format) : sheet format [e] = Journal.eventText format true e.fields := by
  cases format with
  | json => simp [sheet, Journal.eventText, String.join]
  | csv => simp [sheet, Journal.eventText, String.join]

theorem sheet_append (format : Format) {es : List Event} (h : es ≠ []) :
    sheet format (es ++ [e]) = sheet format es ++ Journal.eventText format false e.fields := by
  cases format with
  | json => simp [sheet, Journal.eventText, String.join, List.foldl_append]
  | csv =>
    cases es with
    | nil => exact absurd rfl h
    | cons d es => simp [sheet, Journal.eventText, String.join, List.foldl_append, String.append_assoc]

/-- Each event stands on a line of its own. -/
theorem lines_sheet : ∀ es : List Event, Text.lines .lineFeed (sheet .json es).toList =
    es.map fun e => (Value.mapping e.fields).json.toList
  | [] => rfl
  | e :: es => by
    have ih := lines_sheet es
    have hs : (sheet .json (e :: es)).toList =
        (Value.mapping e.fields).json.toList ++ '\n' :: (sheet .json es).toList := by
      simp [sheet]
    rw [hs, Text.lines_append (visible_json _).not_lineFeed, ih, List.map_cons]

end

end LocalSat.Events
