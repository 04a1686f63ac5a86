import LookupTap.Files
import LookupTap.Settings.Fault
import LookupTap.Settings.Json
import LookupTap.Settings.Key
import LookupTap.Settings.Toml
import LookupTap.Settings.Yaml
import LookupTap.Text.Utf8

/-! Settings from a file.

A name that leads to a file has to tell its format by what follows the last dot. Any other
name is completed: the first known ending that makes it a file is taken. The file holds one
document, a table, whose entries remember the file by its path from the working directory. -/
namespace LookupTap.Settings

/-! ### Formats -/

/-- The formats of files. -/
inductive Format where
  | toml
  | json
  | yaml
  | ini
  | ron
  | json5
  deriving DecidableEq, Repr

/-- The endings of file names, each with its format. -/
def Format.endings : List (String × Format) :=
  [("toml", toml), ("json", json), ("yaml", yaml), ("yml", yaml), ("ini", ini), ("ron", ron),
    ("json5", json5)]

/-- Readers of the formats that are known by name only, which are the last three. -/
abbrev Readers := Format → List Char → Option Data

/-- The data of a text. A YAML text without documents is an empty table. -/
def Format.data (others : Readers) (format : Format) (file : String) (text : List Char) :
    Except Fault Data :=
  let read : Option Data → Except Fault Data
    | some d => .ok d
    | none => .error (.malformed file)
  match format with
  | toml => read ((Toml.read? text).map .table)
  | json => read (Json.read? text)
  | yaml =>
    match Yaml.read? text with
    | none => .error (.malformed file)
    | some [] => .ok (.table [])
    | some [node] => read node.data?
    | some nodes => .error (.documents nodes.length file)
  | _ => read (others format text)

namespace File

/-! ### Finding -/

/-- The name as a path from the root. -/
def fullPath (files : Files) (name : String) : String :=
  if Path.isRooted name ∨ name = files.home ∨ name.startsWith (files.home ++ "/") then name
  else files.home ++ "/" ++ name

/-- The path without separators and `.` at its end. -/
def withoutTail (path : String) : String :=
  let tailless := (Path.components path).reverse.dropWhile fun c => c = "" ∨ c = "."
  "/".intercalate tailless.reverse

/-- The paths that a name can be completed to. A name that leads upwards has no ending. -/
def completions (path : String) : List (String × Format) :=
  match Path.fileName? path with
  | none => []
  | some _ => Format.endings.map fun (ending, format) =>
      (withoutTail path ++ "." ++ ending, format)

/-- The file that a name leads to, and its format. -/
def find (files : Files) (name : String) : Except Fault (String × Format) :=
  let path := fullPath files name
  if files.isFile path then
    match (Path.extension? path).bind fun ending => Keyed.get? ending Format.endings with
    | some format => .ok (path, format)
    | none => .error (.unknownFormat path)
  else
    match (completions path).find? fun (path, _) => files.isFile path with
    | some found => .ok found
    | none => .error (.notFound name)

/-- A list without the start that it shares with another; what is left of both. -/
def apart : List String → List String → List String × List String
  | a :: as, b :: bs => if a = b then apart as bs else (a :: as, b :: bs)
  | as, bs => (as, bs)

/-- A path as it is seen from the working directory. -/
def fromHome (files : Files) (path : String) : String :=
  let (names, above) := apart (Path.parts path).names (Path.parts files.home).names
  "/".intercalate (above.map (fun _ => "..") ++ names)

/-! ### Reading -/

/-- What the file that a name leads to is called, and the entries of its document. -/
def document (others : Readers) (files : Files) (name : String) :
    Except Fault (String × List (String × Data)) :=
  match find files name with
  | .error e => .error e
  | .ok (path, format) =>
    let file := fromHome files path
    match (files.read path).toOption.bind Utf8.decode? with
    | none => .error .notText
    | some text =>
      match format.data others file text with
      | .error e => .error e
      | .ok (.table entries) => .ok (file, entries)
      | .ok d => .error (.noTable d.describe file)

/-- What the file that a name leads to says. -/
def read (others : Readers) (files : Files) (name : String) : Except Fault Table :=
  (document others files name).map fun (file, entries) =>
    Keyed.collect (entries.map fun (key, d) => (key, ⟨d, some file⟩))

end File

end LookupTap.Settings
