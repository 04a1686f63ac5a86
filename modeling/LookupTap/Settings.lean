import LookupTap.Library
import LookupTap.Settings.Dotenv
import LookupTap.Settings.Environment
import LookupTap.Settings.File
import LookupTap.Text.Quoted

/-! The settings of the program.

Each has a default, which the file overrides, which a variable overrides. Variables are
those of the process, and after them those of the `.env` file of the working directory or
the next directory above it that has one. Keys that are no settings are passed over.

The file and the variables are tables in memory, whose entries come in any order. Entries that
lead to one place, as `locator` and `locator.link_map` do, are so laid over each other in any
order; and of several settings that are refused any may be the one that the fault is about.

A text may be given as any scalar, and is then that scalar's text. The way of finding the
library is given by name, or as a table with that name for its only key; the case of letters
does not count. -/
namespace LookupTap

/-- How the library is looked for when its path is not given. -/
inductive Settings.Locator where
  | linkMap
  | procMaps
  deriving DecidableEq, Repr

structure Settings where
  artifactPath : String := "/etc/resolvtap/resolvtap-dns.o"
  eventsChannel : String := "events"
  libraryMarker : String := "libc.so"
  libraryPath : Option String := none
  locator : Settings.Locator := .linkMap
  deriving DecidableEq, Repr

namespace Settings

/-! ### Ways of finding the library -/

namespace Locator

def ofName? (name : String) : Option Locator :=
  match Text.lower name with
  | "link_map" => some linkMap
  | "proc_maps" => some procMaps
  | _ => none

/-- The way that is called by a name. -/
def ofName (name : String) : Except Fault Locator :=
  match ofName? name with
  | some l => .ok l
  | none => .error (.unknownLocator name)

def ofData : Data → Except Fault Locator
  | .text name => ofName name
  | .table [(name, _)] => ofName name
  | _ => .error .locatorForm

end Locator

/-! ### Single settings -/

/-- The settings by name. -/
inductive Setting where
  | artifactPath
  | eventsChannel
  | libraryMarker
  | libraryPath
  | locator
  deriving DecidableEq, Repr

namespace Setting

def key : Setting → String
  | artifactPath => "artifact_path"
  | eventsChannel => "events_channel"
  | libraryMarker => "library_marker"
  | libraryPath => "library_path"
  | locator => "locator"

def all : List Setting := [artifactPath, eventsChannel, libraryMarker, libraryPath, locator]

/-- The setting of a key, if it is one. -/
def ofKey? (key : String) : Option Setting := all.find? (·.key = key)

/-- Gives a setting a value. -/
def take (v : Value) (s : Settings) : Setting → Except Fault Settings
  | artifactPath => (v.text artifactPath.key).map fun text => { s with artifactPath := text }
  | eventsChannel => (v.text eventsChannel.key).map fun text => { s with eventsChannel := text }
  | libraryMarker => (v.text libraryMarker.key).map fun text => { s with libraryMarker := text }
  | libraryPath => (v.path? libraryPath.key).map fun text => { s with libraryPath := text }
  | locator => (Locator.ofData v.data).map fun way => { s with locator := way }

end Setting

/-! ### All settings -/

/-- Takes up an entry, if it is a setting. -/
def takeEntry (s : Settings) (entry : String × Value) : Except Fault Settings :=
  match Setting.ofKey? entry.1 with
  | some k => k.take entry.2 s
  | none => .ok s

/-- The settings that a table gives, its entries taken up one after the other. -/
def ofTable (t : Table) : Except Fault Settings := t.foldlM takeEntry {}

/-- A way of loading settings: how it goes through the table of the file, that of the variables, and
what both are laid into, and how it reads the formats that have no reader here. -/
structure Loader where
  inFile : Walk := .straight
  inVariables : Walk := .straight
  inAll : Walk := .straight
  others : Readers := fun _ _ => none

/-- Where a `.env` file may be: here, or in a directory above. -/
def envPaths (files : Files) : List String :=
  (List.range (files.homePlace.length + 1)).map fun n =>
    "".intercalate (List.replicate n "../") ++ ".env"

/-- The variables of the process, and after them those of the `.env` file. -/
def environment (files : Files) (vars : Variables) : Variables :=
  match (envPaths files).find? files.isFile with
  | none => vars
  | some path =>
    match files.read path with
    | .ok data => Dotenv.layUnder vars data
    | .error _ => vars

/-- The table of a file, if one is named. -/
def fileTable (others : Readers) (files : Files) : (name : Option String) → Except Fault Table
  | none => .ok []
  | some name => File.read others files name

/-- What the file says, with what the variables say laid over it. -/
def Loader.laid (l : Loader) (file : Table) (vars : Variables) : Table :=
  (Table.setAll [] (l.inFile.order file)).setAll (l.inVariables.order vars.table)

/-- The settings that the file and the variables give. -/
def load (files : Files) (vars : Variables) (file : Option String) (l : Loader := {}) :
    Except Fault Settings :=
  match fileTable l.others files file with
  | .error e => .error e
  | .ok t => ofTable (l.inAll.order (l.laid t (environment files vars)))

/-! ### The library -/

/-- Looks for the library in the way that the settings say. -/
def locate (s : Settings) (w : Library.Surroundings) : Logged (Except LookupTap.Fault String) :=
  match s.libraryPath with
  | some path => Library.fixed w.files path
  | none =>
    match s.locator with
    | .linkMap => Library.inLinkMap s.libraryMarker w.objects
    | .procMaps => Library.inMaps s.libraryMarker w.mapped

/-! ### As text -/

def Locator.shown : Locator → String
  | linkMap => "LinkMap"
  | procMaps => "ProcMaps"

/-- All settings on one line. -/
def shown (s : Settings) : String :=
  let artifact := Text.quoted true s.artifactPath
  let channel := Text.quoted false s.eventsChannel
  let marker := Text.quoted false s.libraryMarker
  let library :=
    match s.libraryPath with
    | none => "None"
    | some path => "Some(" ++ Text.quoted true path ++ ")"
  let fields := [("artifact_path", artifact), ("events_channel", channel),
    ("library_marker", marker), ("library_path", library), ("locator", s.locator.shown)]
  "Settings \x7b " ++ ", ".intercalate (fields.map fun (name, text) => name ++ ": " ++ text) ++
    " \x7d"

end Settings

end LookupTap
