import LookupTap.Number.Digits
import LookupTap.Settings.Value
import LookupTap.Text.Scan

/-! Keys that lead into tables and lists.

A key such as `a.b` names the entry `b` of the table `a`, and `a[0]` the first item of the
list `a`. What stands on the way and is no table, or no list, is replaced by an empty one.
A key of any other form names just itself. -/
namespace LookupTap.Settings

/-- A step from a value to one of its parts. -/
inductive Segment where
  | entry (key : String)
  | item (index : Int)
  deriving DecidableEq, Repr

structure Key where
  root : String
  segments : List Segment := []
  deriving DecidableEq, Repr

namespace Key

open Text (Scan)

def isNameChar (c : Char) : Bool := c.isAlphanum || c = '_' || c = '-' || c = ' '

def name : Scan String := do
  let cs ← Scan.takeWhile isNameChar
  if cs.isEmpty then Scan.fail else return String.ofList cs

/-- A whole number of 64 bits, without a plus before it, and with blanks around it. -/
def index : Scan Int := do
  Scan.skipWhile fun c => c = ' ' ∨ c = '\t'
  let negative ← Scan.accept ['-']
  let ds ← Scan.takeWhile Char.isDigit
  Scan.skipWhile fun c => c = ' ' ∨ c = '\t'
  match Digits.int64? 10 (if negative then '-' :: ds else ds) with
  | some i => return i
  | none => Scan.fail

/-- The segments up to the end of the text; every one takes a character at least. -/
def tail : (fuel : Nat) → Scan (List Segment)
  | 0 => Scan.fail
  | fuel + 1 => do
    if ← Scan.atEnd then return []
    else if ← Scan.accept ['.'] then
      let key ← name
      let rest ← tail fuel
      return .entry key :: rest
    else
      Scan.expect ['[']
      let i ← index
      Scan.expect [']']
      let rest ← tail fuel
      return .item i :: rest

def path (length : Nat) : Scan Key := do
  let root ← name
  let segments ← tail (length + 1)
  return ⟨root, segments⟩

def ofText (text : String) : Key :=
  ((path text.length).whole text.toList).getD ⟨text, []⟩

end Key

/-! ### Setting by key -/

def Data.entries : Data → List (String × Data)
  | table entries => entries
  | _ => []

def Data.items : Data → List Data
  | list items => items
  | _ => []

/-- The place of an index in a list; a negative one counts from the end. -/
def position (length : Nat) (index : Int) : Nat :=
  if index < 0 then (length + index).toNat else index.toNat

/-- The list, made long enough for a place. -/
def Data.reaching (items : List Data) (place : Nat) : List Data :=
  items ++ List.replicate (place + 1 - items.length) .nil

/-- Lays data over the part of `old` that the segments lead to. -/
def Data.setAt (new : Data) : List Segment → (old : Data) → Data
  | [], _ => new
  | [.entry key], old => .table (Data.layEntries old.entries [(key, new)])
  | .entry key :: rest, old =>
    let part := (Keyed.get? key old.entries).getD .nil
    .table (Keyed.put key (setAt new rest part) old.entries)
  | .item index :: rest, old =>
    let place := position old.items.length index
    let items := Data.reaching old.items place
    .list (items.set place (setAt new rest (items[place]?.getD .nil)))

/-- Whether a step can go into data as it is. -/
def Segment.fits : Segment → Data → Bool
  | .entry _, .table _ => true
  | .item _, .list _ => true
  | _, _ => false

/-- Lays a value over what the table has under a key of any form. -/
def Table.set (t : Table) (key : Key) (v : Value) : Table :=
  match key.segments with
  | [] => t.put key.root v
  | first :: rest =>
    let old := (Keyed.get? key.root t).getD ⟨.nil, none⟩
    let origin := if first.fits old.data then old.origin else none
    Keyed.put key.root ⟨Data.setAt v.data (first :: rest) old.data, origin⟩ t

/-- Lays entries over a table by their keys, one after the other. -/
def Table.setAll (t entries : Table) : Table :=
  entries.foldl (fun t (key, v) => t.set (Key.ofText key) v) t

end LookupTap.Settings
