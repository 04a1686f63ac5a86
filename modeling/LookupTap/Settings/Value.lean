import LookupTap.Keyed
import LookupTap.Number.Shortest
import LookupTap.Settings.Fault
import LookupTap.Text.Case
import LookupTap.Text.Quoted

/-! What configuration is made of.

`Data` is a tree of scalars, lists and tables. A `Value` adds where it came from, which a
message may name; a table that other tables were merged into came from nowhere. A `Table`
holds values by key, and `put` lays one over what is there: tables are merged key by key,
anything else replaces what was there. Keys are in small letters. -/
namespace LookupTap.Settings

inductive Data where
  | nil
  | bool (b : Bool)
  | int (i : Int)
  | float (x : Binary64)
  | text (s : String)
  | list (items : List Data)
  | table (entries : List (String × Data))

namespace Data

/-- The text of a scalar that has one. -/
def scalarText? : Data → Option String
  | bool b => some (if b then "true" else "false")
  | int i => some (toString i)
  | float x => some x.text
  | text s => some s
  | _ => none

/-- What messages call data. -/
def describe : Data → String
  | nil => "unit value"
  | bool b => s!"boolean `{b}`"
  | int i => s!"64-bit integer `{i}`"
  | float x => s!"floating point `{x.text}`"
  | text s => "string " ++ Text.quoted false s
  | list _ => "sequence"
  | table _ => "map"

mutual

/-- Lays data over what is there. -/
def lay (old : Option Data) : Data → Data
  | table [] =>
    match old with
    | none => table []
    | some d => d
  | table (entry :: rest) =>
    match old with
    | some (table entries) => table (layEntries entries (entry :: rest))
    | _ => table (layEntries [] (entry :: rest))
  | d => d

/-- Lays entries over those of a table. -/
def layEntries (old : List (String × Data)) : List (String × Data) → List (String × Data)
  | [] => old
  | (key, d) :: rest =>
    let key := Text.lower key
    layEntries (Keyed.put key (lay (Keyed.get? key old) d) old) rest

end

end Data

structure Value where
  data : Data
  origin : Option String := none

/-- The text of a value that stands under a key. -/
def Value.text (v : Value) (key : String) : Except Fault String :=
  match v.data.scalarText? with
  | some s => .ok s
  | none => .error (.noText v.data.describe key v.origin)

/-- The text of a value that may stand for nothing. -/
def Value.path? (v : Value) (key : String) : Except Fault (Option String) :=
  match v.data with
  | .nil => .ok none
  | _ => (v.text key).map some

abbrev Table := List (String × Value)

/-- A way through the entries of tables. Nothing but their keys is fixed about tables in memory, so
the entries come in any order. -/
structure Walk where
  order : Table → Table
  perm : ∀ t, (order t).Perm t

/-- The way from the first entry to the last. -/
def Walk.straight : Walk := ⟨id, List.Perm.refl⟩

/-- Lays a value over what a table has under a key. -/
def Table.put (t : Table) (key : String) (v : Value) : Table :=
  let key := Text.lower key
  match v.data with
  | .table entries =>
    match Keyed.get? key t with
    | some ⟨.table old, _⟩ => Keyed.put key ⟨.table (Data.layEntries old entries), none⟩ t
    | none => Keyed.put key ⟨.table (Data.layEntries [] entries), none⟩ t
    | some _ =>
      if entries.isEmpty then t
      else Keyed.put key ⟨.table (Data.layEntries [] entries), none⟩ t
  | _ => Keyed.put key v t

end LookupTap.Settings
