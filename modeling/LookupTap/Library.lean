import LookupTap.Files
import LookupTap.Step
import LookupTap.Fault
import LookupTap.Text.Blank
import LookupTap.Text.Utf8

/-! Finding the runtime library.

The library is named by a path, or looked for by a marker: the first of the loaded objects,
or of the mapped files, whose path has the bytes of the marker in it somewhere. The list of
mapped files is text, a line each, with the path last; lines without a path, and paths that
name no file (in brackets, or of shared memory), are passed over. -/
namespace LookupTap.Library

/-- What a library is looked for in: the files, the loaded objects in order, and the paths of
the mapped files as the list shows them. -/
structure Surroundings where
  files : Files
  objects : List String := []
  mapped : List String := []

/-- Whether the marker stands anywhere in a path. The empty marker stands everywhere. -/
def marks (marker path : String) : Bool :=
  Bytes.contains (Utf8.encode marker.toList) (Utf8.encode path.toList)

/-- A path given beforehand; it has to lead somewhere. -/
def fixed (files : Files) (path : String) : Logged (Except Fault String) :=
  { answer := if files.exists? path then .ok path else .error (.libraryNotFound path) }

/-- The first path with the marker in it. `list` is what the line calls the list. -/
def search (list marker : String) (paths : List String) : Logged (Except Fault String) :=
  match paths.find? (marks marker) with
  | some path =>
    { answer := .ok path
      lines := [⟨.debug, .library, s!"Found runtime library in {list}: {path}"⟩] }
  | none => { answer := .error (.libraryNotFound marker) }

/-- The first loaded object with the marker in its name. -/
def inLinkMap (marker : String) (objects : List String) : Logged (Except Fault String) :=
  search "link map" marker objects

/-! ### Memory maps -/

/-- The text after a mapped file's path when the file is gone. -/
def deletedMark : String := " (deleted)"

/-- A mapping as the list shows it: the path of its file, if it is of a file, and whether
the file is gone. A line end inside a path is written by its number. -/
structure Mapping where
  path : String
  deleted : Bool := false
  deriving DecidableEq, Repr

/-- A character of a path as the list shows it. -/
def shownChar (c : Char) : List Char := if c = '\n' then "\\012".toList else [c]

def Mapping.shown (m : Mapping) : String :=
  String.ofList (m.path.toList.flatMap shownChar) ++ if m.deleted then deletedMark else ""

/-- The file that a shown path names, if it names one. -/
def fileOf? (shown : String) : Option String :=
  let path := String.ofList (Text.trim shown.toList)
  if path = "" ∨ path.startsWith "/SYSV" ∨ (path.startsWith "[" ∧ path.endsWith "]") then none
  else some path

/-- The first mapped file with the marker in its path. -/
def inMaps (marker : String) (shown : List String) : Logged (Except Fault String) :=
  search "memory maps" marker (shown.filterMap fileOf?)

/-- What is answered when the list of mappings cannot be opened. -/
def mapsUnreadable (marker : String) (e : OsError) : Logged (Except Fault String) :=
  { answer := .error (.libraryNotFound marker)
    lines := [⟨.debug, .library,
      s!"Failed to read /proc/self/maps: Unexpected IO error(/proc/self): {e.message}"⟩] }

end LookupTap.Library
