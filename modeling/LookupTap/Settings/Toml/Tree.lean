import LookupTap.Settings.Value

/-! The tree that a TOML text builds.

A table is opened by a header, implied by the header of a table inside it, made by a dotted
key, or written inline. How it came about decides who may still add to it: a header opens a
table once, dotted keys reach only tables that no header opened, and nothing reaches into an
inline table from outside. Every entry is written once. -/
namespace LookupTap.Settings.Toml

/-- How a table came about. -/
inductive Form where
  | opened
  | implied
  | dotted
  | inlined
  deriving DecidableEq, Repr

/-- An entry: a value that is finished, a table, or the tables of a repeated header. -/
inductive Node where
  | value (d : Data)
  | table (form : Form) (entries : List (String × Node))
  | tables (rows : List (List (String × Node)))

abbrev Entries := List (String × Node)

/-! ### Reaching a table -/

/-- A way of walking: what a missing table on it becomes, and which tables it enters. -/
structure Way where
  fresh : Form
  enters : Form → Bool

/-- The way of a header. -/
def Way.header : Way := ⟨.implied, (· ≠ .inlined)⟩

/-- The way of a dotted key. -/
def Way.key : Way := ⟨.dotted, fun form => form = .implied ∨ form = .dotted⟩

/-- The way of a dotted key inside of an inline table. -/
def Way.inline : Way := ⟨.dotted, fun form => form = .inlined ∨ form = .dotted⟩

/-- Changes the table that a path leads to. Of repeated tables the path leads to the last. -/
def change (way : Way) (f : Form → Entries → Option Entries) :
    (path : List String) → (form : Form) → Entries → Option Entries
  | [], form, entries => f form entries
  | key :: rest, _, entries =>
    match Keyed.get? key entries with
    | none =>
      (change way f rest way.fresh []).map fun inner =>
        Keyed.put key (.table way.fresh inner) entries
    | some (.table form old) =>
      if way.enters form then
        (change way f rest form old).map fun inner => Keyed.put key (.table form inner) entries
      else none
    | some (.tables rows) =>
      match rows.getLast? with
      | none => none
      | some row =>
        (change way f rest .opened row).map fun inner =>
          Keyed.put key (.tables (rows.dropLast ++ [inner])) entries
    | some (.value _) => none

/-! ### What a line adds -/

/-- Opens a table in its parent. -/
def openTable (key : String) (_ : Form) (parent : Entries) : Option Entries :=
  match Keyed.get? key parent with
  | none => some (Keyed.put key (.table .opened []) parent)
  | some (.table .implied entries) => some (Keyed.put key (.table .opened entries) parent)
  | some _ => none

/-- Opens one more of the tables of a repeated header in their parent. -/
def openRow (key : String) (_ : Form) (parent : Entries) : Option Entries :=
  match Keyed.get? key parent with
  | none => some (Keyed.put key (.tables [[]]) parent)
  | some (.tables rows) => some (Keyed.put key (.tables (rows ++ [[]])) parent)
  | some _ => none

/-- Adds an entry to a table, which a dotted key must have made if one led there. -/
def addEntry (viaDots : Bool) (key : String) (node : Node) (form : Form) (entries : Entries) :
    Option Entries :=
  if (viaDots ∧ form ≠ .dotted) ∨ Keyed.has key entries then none
  else some (Keyed.put key node entries)

/-- Adds an entry by its key, of one segment or more. -/
def addAt (way : Way) (key : List String) (node : Node) (form : Form) (entries : Entries) :
    Option Entries :=
  match key.getLast? with
  | none => none
  | some last => change way (addEntry (1 < key.length) last node) key.dropLast form entries

/-! ### As data -/

mutual

def Node.data : Node → Data
  | .value d => d
  | .table _ entries => .table (dataOfEntries entries)
  | .tables rows => .list (dataOfRows rows)

def dataOfEntries : List (String × Node) → List (String × Data)
  | [] => []
  | (key, node) :: rest => (key, node.data) :: dataOfEntries rest

def dataOfRows : List (List (String × Node)) → List Data
  | [] => []
  | row :: rest => .table (dataOfEntries row) :: dataOfRows rest

end

end LookupTap.Settings.Toml
