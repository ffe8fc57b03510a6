import LocalSat.Cli

/-!
# The executable

The outer layer of the command line program: it reads the files that the program may look at into a file
tree, runs the program on it with the real clock, and writes back what has changed. All decisions are
taken elsewhere.
-/

namespace LocalSat.Main

open LocalSat.Search

/-! ## Files -/

/-- The path of a place. -/
def pathOf (p : Place) : String :=
  match p.reverse with
  | "/" :: names => "/" ++ String.intercalate "/" names
  | names => String.intercalate "/" names

/-- Reads what stands at a place. -/
def readPlace (p : Place) : IO (Option Entry) := do
  try
    let octets ← IO.FS.readBinFile (pathOf p)
    return some (.file octets.toList)
  catch
    | .inappropriateType .. => return some .directory
    | _ => return none

/-- The place and those above it, the topmost first. -/
def upwards (p : Place) : List Place :=
  ((List.range p.length).map fun (i : Nat) => p.drop i).reverse

/-- Adds what stands on the way to a path. -/
def readPath (t : FileTree) (path : String) : IO FileTree :=
  (upwards (Place.ofPath path)).foldlM (fun t p => do
    match ← readPlace p with
    | some e => return t.put p e
    | none => return t) t

/-- Adds all files and directories that the arguments and the configuration name. -/
def readFiles (args : List String) : IO FileTree := do
  match Cli.parse args with
  | .error _ => return .empty
  | .ok a =>
    let t ← readPath .empty (a.textFor .configFile)
    match Cli.configure a t with
    | .error _ => return t
    | .ok c =>
      let file := match a.command with
        | .solve file => file
        | _ => ""
      let settings := ["logging.file", "events.dir"].map fun key => (c.get key .null).display
      (file :: a.textFor .table :: settings).foldlM readPath t

/-- Whether a file already stood in a tree with the same content. -/
def unchanged (t : FileTree) (p : Place) (octets : List UInt8) : Bool :=
  match t.at? p with
  | some (.file old) => old == octets
  | _ => false

/-- Writes the files and makes the directories that a tree has and another had not. -/
def writeFiles (old new : FileTree) : IO Unit :=
  for (p, e) in new.entries do
    match e with
    | .directory => if (old.at? p).isNone then IO.FS.createDirAll (pathOf p)
    | .file octets =>
      if !unchanged old p octets then
        IO.FS.writeBinFile (pathOf p) ⟨octets.toArray⟩

/-! ## Time -/

/-- The time in seconds. -/
def now : IO Float := do
  return (← IO.monoMsNow).toFloat / 1000.0

/-- The present time for each part of a run; the time of each reading of the clock is kept. -/
def timer (times : IO.Ref (Array Float)) : Timer IO where
  within task r part := do
    let time ← now
    let (r', a) := part { task with clock := fun _ => time } r
    times.modify fun ts => ts ++ Array.replicate (r'.readings - r.readings) time
    return (r', a)

/-- The host of the real clock. -/
def host (times : IO.Ref (Array Float)) : Cli.Host IO where
  solve recorded s := do
    let task := s.task ⟨fun _ => 0, recorded⟩
    match ← task.solveBy (timer times) task.rounds s.run with
    | some done => return s.done done
    | none => throw (IO.userError "the search has no end")
  clock := do
    let ts ← times.get
    let time ← now
    return fun n => ts.getD n time

/-- Runs the program and returns its code. -/
def run (args : List String) : IO UInt32 := do
  let times ← IO.mkRef #[]
  let tree ← readFiles args
  let result ← Cli.run (host times) tree args
  writeFiles tree result.tree
  IO.print result.output
  IO.eprint result.errors
  match result.ending with
  | .exit n =>
    if n ≠ 0 then IO.eprint "\n"
    return n.toUInt32
  | .code n => return n.toUInt32
  | .failed e =>
    IO.eprintln (e.kind ++ ": " ++ e.text)
    return 1

end LocalSat.Main

/-- The command line program. -/
def main (args : List String) : IO UInt32 := LocalSat.Main.run args
