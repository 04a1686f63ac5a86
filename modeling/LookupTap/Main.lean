import LookupTap.Command

/-! The command on a machine.

Everything that the command may look at is read first: the variables, the mapped files, and
then, in the order in which one leads to the next, the settings, the artifact and the
library. Its kernel has none of the calls that an artifact needs, so a run goes as far as
the first of them. -/
namespace LookupTap.Machine

/-- A kernel without any of the calls. -/
def kernel : Kernel where
  refusals :=
    [Kernel.Call.createMap, .loadProgram, .probeType, .returnFormat, .openEvent, .createLink,
      .mapMemory, .openBuffer, .enableBuffer, .updateMap].map fun call =>
        { call, error := .notImplemented }
  watchable := false

/-- The pieces between zero bytes. -/
def pieces (data : Bytes) : List String :=
  (data.splitBy fun _ b => b ≠ 0).map fun piece =>
    String.ofList (Utf8.lossy (piece.filter (· ≠ 0)))

/-- The variables of an environment: names and texts with an equals sign between them. -/
def splitVars (data : Bytes) : Settings.Variables :=
  (pieces data).filterMap fun piece =>
    match piece.splitOn "=" with
    | name :: first :: rest => some (name, "=".intercalate (first :: rest))
    | _ => none

/-- The bytes of a file, if it can be read. -/
def bytes? (path : String) : IO (Option Bytes) := do
  try return some (← IO.FS.readBinFile path).toList
  catch _ => return none

/-- The files with the one at a path added, if it is there. -/
def withFile (files : Files) (path : String) : IO Files := do
  match ← bytes? path with
  | some data => return files.write path data
  | none => return files

/-- What a line of the list of mapped files shows behind its five numbers. -/
def shownPath (line : String) : String :=
  String.ofList (Text.trim ((List.range 5).foldl
    (fun cs _ => (Text.trimStart cs).dropWhile fun c => !Text.isBlank c) line.toList))

/-- The paths that may hold settings. -/
def settingsPaths (files : Files) (o : Command.Options) : List String :=
  let named :=
    match o.config with
    | none => []
    | some name =>
      let path := Settings.File.fullPath files name
      path :: (Settings.File.completions path).map Prod.fst
  Settings.envPaths files ++ named

/-- The world that a command line needs. -/
def world (args : List String) (vars : Settings.Variables) : IO Library.Surroundings := do
  let home ← IO.currentDir
  let maps := String.ofList (Utf8.lossy ((← bytes? "/proc/self/maps").getD []))
  let mapped := (maps.splitOn "\n").map shownPath
  let w : Library.Surroundings :=
    { files := { home := home.toString }, objects := mapped.filterMap Library.fileOf?, mapped }
  match Command.Options.read args vars with
  | .error _ => return w
  | .ok o =>
    let w := { w with files := ← (settingsPaths w.files o).foldlM withFile w.files }
    match Command.settings { args, vars, world := w } o with
    | .error _ => return w
    | .ok s =>
      let w := { w with files := ← withFile w.files s.artifactPath }
      let library :=
        match s.libraryPath, (s.locate w).answer with
        | some path, _ => path
        | none, .ok path => path
        | none, .error _ => ""
      return { w with files := ← withFile w.files library }

end LookupTap.Machine

def main (args : List String) : IO UInt32 := do
  let vars := LookupTap.Machine.splitVars
    ((← LookupTap.Machine.bytes? "/proc/self/environ").getD [])
  let world ← LookupTap.Machine.world args vars
  let outcome := LookupTap.Command.run
    { args, vars, world, kernel := LookupTap.Machine.kernel }
  for text in outcome.written do IO.eprintln text
  return UInt32.ofNat (outcome.exit.getD 0)
