import LookupTap.Bytes
import LookupTap.Keyed
import LookupTap.OsError
import LookupTap.Path

/-! A tree of files, as one value.

A place is the list of names that lead to it from the root. `Files` says what is at each
place it knows: a file, a directory, or a link with the path it holds. The working
directory is a place, and `home` is its text; a path that starts with that text starts
there, as a relative path does. The places above the working directory are directories.

`place?` walks a path as the operating system does — names are looked up, links followed,
`..` taken upwards from wherever the walk is — with the system's error where it fails. -/
namespace LookupTap

inductive Node where
  | file (data : Bytes)
  | directory
  | link (target : String)
  deriving DecidableEq, Repr

structure Files where
  home : String
  nodes : List (List String × Node) := []

namespace Files

/-- The place of the working directory. -/
def homePlace (fs : Files) : List String := (Path.components fs.home).filter (· ≠ "")

/-- What is at a place. -/
def node? (fs : Files) (place : List String) : Option Node :=
  if place.isPrefixOf fs.homePlace then some .directory else Keyed.get? place fs.nodes

/-- Where a path starts that is taken from `base`, and the components to walk from there. -/
def origin (fs : Files) (base : List String) (path : String) : List String × List String :=
  match fs.home.toList.isPrefixOf? path.toList with
  | some [] => (fs.homePlace, [])
  | some ('/' :: rest) => (fs.homePlace, Path.components (String.ofList rest))
  | _ => (if Path.isRooted path then [] else base, Path.components path)

/-- The longest name that the system takes, in bytes. -/
def longestName : Nat := 255

/-- The longest path that the system takes, in bytes. -/
def longestPath : Nat := 4095

/-- How many links the system follows on one walk. -/
def mostLinks : Nat := 40

/-- Walks components from a place; `follow` goes on where a link leads. A component that is
empty or `.` asks only that the place be a directory. -/
def along (fs : Files) (follow : (place names : List String) → Except OsError (List String)) :
    (place names : List String) → Except OsError (List String)
  | place, [] => .ok place
  | place, name :: rest =>
    match fs.node? place with
    | some .directory =>
      if name = "" ∨ name = "." then fs.along follow place rest
      else if name = ".." then fs.along follow place.dropLast rest
      else if longestName < name.utf8ByteSize then .error .nameTooLong
      else
        match fs.node? (place ++ [name]) with
        | none => .error .noSuchFile
        | some (.link target) =>
          if target = "" then .error .noSuchFile
          else
            let (start, names) := fs.origin place target
            follow start (names ++ rest)
        | some _ => fs.along follow (place ++ [name]) rest
    | _ => .error .notADirectory

/-- Walks components from a place, through so many links at most. -/
def walk (fs : Files) : (links : Nat) → (place names : List String) →
    Except OsError (List String)
  | 0 => fs.along fun _ _ => .error .tooManyLinks
  | links + 1 => fs.along (walk fs links)

/-- The place that a path leads to. The empty path leads nowhere. -/
def place? (fs : Files) (path : String) : Except OsError (List String) :=
  if path = "" then .error .noSuchFile
  else if longestPath < path.utf8ByteSize then .error .nameTooLong
  else
    let (start, names) := fs.origin fs.homePlace path
    fs.walk mostLinks start names

/-- Why a file is not read: the system's error, or a path that the system is not asked
about. -/
inductive ReadFault where
  | os (e : OsError)
  | nulInPath

def ReadFault.message : ReadFault → String
  | os e => e.message
  | nulInPath => "file name contained an unexpected NUL byte"

def read (fs : Files) (path : String) : Except ReadFault Bytes :=
  if path.toList.contains (Char.ofNat 0) then .error .nulInPath
  else
    match fs.place? path with
    | .error e => .error (.os e)
    | .ok place =>
      match fs.node? place with
      | some (.file data) => .ok data
      | some .directory => .error (.os .isADirectory)
      | _ => .error (.os .noSuchFile)

/-- The path leads to a file or a directory. -/
def exists? (fs : Files) (path : String) : Bool :=
  !path.toList.contains (Char.ofNat 0) && (fs.place? path).isOk

/-- The path leads to a file. -/
def isFile (fs : Files) (path : String) : Bool := (fs.read path).isOk

/-! ### Changing the tree -/

/-- The place that a path names by its text alone, links left aside. -/
def textPlace (fs : Files) (path : String) : List String :=
  let (start, names) := fs.origin fs.homePlace path
  names.foldl (fun place name =>
    if name = "" ∨ name = "." then place
    else if name = ".." then place.dropLast
    else place ++ [name]) start

/-- Makes a directory of every place above this one that is nothing yet. -/
def withParents (fs : Files) (place : List String) : Files :=
  (List.range place.length).foldl (fun fs n =>
    let parent := place.take n
    match fs.node? parent with
    | none => { fs with nodes := Keyed.put parent .directory fs.nodes }
    | some _ => fs) fs

/-- The place to write at: the directory part is walked if it is there. -/
def targetPlace (fs : Files) (path : String) : List String :=
  match fs.place? path with
  | .ok place => place
  | .error _ =>
    let place := fs.textPlace path
    match fs.walk mostLinks [] place.dropLast with
    | .ok parent => parent ++ place.getLast?.toList
    | .error _ => place

/-- Puts a node at a path, after the directories that lead to it. -/
def add (fs : Files) (path : String) (node : Node) : Files :=
  let place := fs.targetPlace path
  let fs := fs.withParents place
  { fs with nodes := Keyed.put place node fs.nodes }

def write (fs : Files) (path : String) (data : Bytes) : Files := fs.add path (.file data)

def makeDirectory (fs : Files) (path : String) : Files :=
  let place := fs.targetPlace path
  match fs.node? place with
  | some _ => fs
  | none => fs.add path .directory

/-- Puts a link at the text's own place. -/
def makeLink (fs : Files) (path target : String) : Files :=
  let place := fs.textPlace path
  let fs := fs.withParents place
  { fs with nodes := Keyed.put place (.link target) fs.nodes }

/-- Takes away what is at the path's own place, with everything below it. -/
def remove (fs : Files) (path : String) : Files :=
  let place := fs.textPlace path
  { fs with nodes := fs.nodes.filter fun (p, _) => !place.isPrefixOf p }

end Files

end LookupTap
