import LocalSat.Complaint

/-!
# Complaints from arguments

A complaint can be made from a list of arguments, given by place or by name. Each kind has its
parameters, most of them with a default. Main statement: arguments given by place alone are bound as they
stand (`bind_self`).
-/

namespace LocalSat.Complaint

/-- A parameter: its name, and its value where none is given. -/
structure Parameter where
  name : String
  fallback : Option Value

/-- Why arguments do not fit parameters. -/
inductive BindingError where
  /-- There is no parameter of the name. -/
  | unexpected (name : String)
  /-- A parameter is given by place and by name. -/
  | repeated (name : String)
  /-- More are given by place than there are parameters; so many are needed, possible and given. -/
  | tooMany (least most given : Nat)
  /-- Parameters without default that are not given. -/
  | missing (names : List String)
deriving DecidableEq, Repr

/-- The parameters of a kind of complaint. -/
def Kind.parameters : Kind → List Parameter
  | .general => [⟨"message", some .null⟩]
  | .input => [⟨"message", some (.text "Invalid DIMACS input")⟩, ⟨"line_number", some .null⟩]
  | .header => [⟨"message", some (.text "Malformed problem line")⟩, ⟨"line_number", some .null⟩]
  | .countMismatch => [⟨"declared", none⟩, ⟨"parsed", none⟩]
  | .clause =>
    [⟨"message", some (.text "Invalid clause detected")⟩, ⟨"clause", some .null⟩,
     ⟨"line_number", some .null⟩]
  | .emptyHistory => [⟨"message", some (.text emptyHistoryText)⟩]
  | .config => [⟨"message", some (.text "Invalid configuration")⟩, ⟨"key", some .null⟩]

/-- The first fault among the arguments given by name, when so many are given by place. -/
def misnamed? (ps : List Parameter) (placed : Nat) : List (String × Value) → Option BindingError
  | [] => none
  | (name, _) :: named =>
    if !ps.any (·.name == name) then some (.unexpected name)
    else if (ps.take placed).any (·.name == name) then some (.repeated name)
    else misnamed? ps placed named

/-- The values of the parameters in order, none for a parameter that is not given. -/
def values (named : List (String × Value)) : List Parameter → List Value → List (Option Value)
  | [], _ => []
  | _ :: ps, v :: vs => some v :: values named ps vs
  | p :: ps, [] => (Value.lookup? p.name named).or p.fallback :: values named ps []

/-- The names of the parameters without a value. -/
def unfilled : List Parameter → List (Option Value) → List String
  | p :: ps, none :: vs => p.name :: unfilled ps vs
  | _ :: ps, some _ :: vs => unfilled ps vs
  | _, _ => []

/-- Binds arguments to parameters. -/
def bind (ps : List Parameter) (placed : List Value) (named : List (String × Value)) :
    Except BindingError (List Value) :=
  match misnamed? ps placed.length named with
  | some e => .error e
  | none =>
    if ps.length < placed.length then
      .error (.tooMany (ps.filter (·.fallback.isNone)).length ps.length placed.length)
    else
      let vs := values named ps placed
      match unfilled ps vs with
      | [] => .ok (vs.filterMap id)
      | names => .error (.missing names)

/-- The complaint of a kind with the given parts, if their number is right. -/
def ofParts? : Kind → List Value → Option Complaint
  | .general, [m] => some (.general m)
  | .input, [m, line] => some (.input m line)
  | .header, [m, line] => some (.header m line)
  | .countMismatch, [declared, parsed] => some (.countMismatch declared parsed)
  | .clause, [m, c, line] => some (.clause m c line)
  | .emptyHistory, [m] => some (.emptyHistory m)
  | .config, [m, key] => some (.config m key)
  | _, _ => none

/-- Names in quotes as a list in a sentence. -/
def enumerate (names : List String) : String :=
  match names.map (fun n => "'" ++ n ++ "'") with
  | [] => ""
  | [a] => a
  | [a, b] => a ++ " and " ++ b
  | items => String.intercalate ", " items.dropLast ++ ", and " ++ items.getLastD ""

/-- What is said of arguments that do not fit; the complaint itself counts as the first of them. -/
def BindingError.message (k : Kind) (e : BindingError) : String :=
  k.name ++ ".__init__() " ++
    match e with
    | .unexpected name => "got an unexpected keyword argument '" ++ name ++ "'"
    | .repeated name => "got multiple values for argument '" ++ name ++ "'"
    | .tooMany least most given =>
      (if least < most then
        "takes from " ++ toString (least + 1) ++ " to " ++ toString (most + 1)
      else "takes " ++ toString (most + 1))
        ++ " positional arguments but " ++ toString (given + 1) ++ " were given"
    | .missing names =>
      "missing " ++ toString names.length ++ " required positional argument"
        ++ (if names.length = 1 then "" else "s") ++ ": " ++ enumerate names

/-! ## Laws -/

theorem values_self (named : List (String × Value)) :
    ∀ (ps : List Parameter) (vs : List Value), ps.length = vs.length →
      values named ps vs = vs.map some
  | [], [], _ => rfl
  | _ :: ps, v :: vs, h => by
    simp [values, values_self named ps vs (by simpa using h)]

theorem unfilled_map_some : ∀ (ps : List Parameter) (vs : List Value),
    unfilled ps (vs.map some) = []
  | [], [] => rfl
  | [], _ :: _ => rfl
  | _ :: _, [] => rfl
  | _ :: ps, _ :: vs => by simp [unfilled, unfilled_map_some ps vs]

/-- Arguments for every parameter, given by place, are the values. -/
theorem bind_self {ps : List Parameter} {vs : List Value} (h : ps.length = vs.length) :
    bind ps vs [] = .ok vs := by
  simp [bind, misnamed?, h, values_self [] ps vs h, unfilled_map_some]

end LocalSat.Complaint
