import LookupTap.Settings.Toml.Scalar
import LookupTap.Settings.Toml.Tree

/-! TOML texts.

A text is a sequence of lines: blank, a comment, a header, or an entry. Entries belong to
the table of the last header before them. Keys, and values in one another, go only so deep. -/
namespace LookupTap.Settings.Toml

open Text (Scan)

/-- A key has fewer segments, and values stand in fewer others. -/
def depthLimit : Nat := 80

/-! ### Between the words -/

/-- Takes a comment, up to the end of its line. -/
def comment : Scan Unit := do
  Scan.expect ['#']
  Scan.skipWhile isShown

/-- The end of a line behind a word. -/
def lineEnd : Scan Unit := do
  skipBlanks
  if ← Scan.looksAt ['#'] then comment
  if ← Scan.atEnd then return
  else if ← acceptLineEnd then return
  else Scan.fail

/-- Passes blanks, line ends and comments. -/
def passLines : (fuel : Nat) → Scan Unit
  | 0 => Scan.fail
  | fuel + 1 => do
    skipBlanks
    if ← acceptLineEnd then passLines fuel
    else if ← Scan.looksAt ['#'] then
      comment
      if ← acceptLineEnd then passLines fuel
      else if ← Scan.atEnd then return
      else Scan.fail
    else return

/-! ### Keys -/

def isKeyChar (c : Char) : Bool := c.isAlphanum || c = '-' || c = '_'

def segment (fuel : Nat) : Scan String := do
  let quoted := (← Scan.looksAt ['\"']) || (← Scan.looksAt ['\''])
  if quoted then line fuel
  else
    let cs ← Scan.takeWhile isKeyChar
    if cs.isEmpty then Scan.fail else return String.ofList cs

/-- Segments with dots between them, and blanks around each. -/
def segments : (fuel : Nat) → Scan (List String)
  | 0 => Scan.fail
  | fuel + 1 => do
    skipBlanks
    let first ← segment fuel
    skipBlanks
    if ← Scan.accept ['.'] then return first :: (← segments fuel)
    else return [first]

def key (fuel : Nat) : Scan (List String) := do
  let path ← segments fuel
  if path.length < depthLimit then return path else Scan.fail

/-! ### Values -/

mutual

/-- A value inside `depth` others. -/
def value (depth : Nat) : (fuel : Nat) → Scan Node
  | 0 => Scan.fail
  | fuel + 1 => do
    match ← Scan.peek? with
    | some '\"' => return .value (.text (← string fuel))
    | some '\'' => return .value (.text (← string fuel))
    | some '[' =>
      Scan.skip 1
      if depth + 1 < depthLimit then return .value (.list (← items (depth + 1) fuel))
      else Scan.fail
    | some '\x7b' =>
      Scan.skip 1
      skipBlanks
      if depth + 1 < depthLimit then
        if ← Scan.accept ['\x7d'] then return .table .inlined []
        else return .table .inlined (← entries (depth + 1) [] fuel)
      else Scan.fail
    | some 't' => Scan.expect "true".toList; return .value (.bool true)
    | some 'f' => Scan.expect "false".toList; return .value (.bool false)
    | _ => return .value (← number)
termination_by structural fuel => fuel

/-- The items that are left of a list, and the bracket. A comma may stand before it. -/
def items (depth : Nat) : (fuel : Nat) → Scan (List Data)
  | 0 => Scan.fail
  | fuel + 1 => do
    passLines fuel
    if ← Scan.accept [']'] then return []
    else
      let node ← value depth fuel
      passLines fuel
      if ← Scan.accept [','] then return node.data :: (← items depth fuel)
      else
        Scan.expect [']']
        return [node.data]
termination_by structural fuel => fuel

/-- The entries of an inline table, after those that are known, and the brace. -/
def entries (depth : Nat) (known : Entries) : (fuel : Nat) → Scan Entries
  | 0 => Scan.fail
  | fuel + 1 => do
    let path ← key fuel
    Scan.expect ['=']
    skipBlanks
    let node ← value depth fuel
    match addAt .inline path node .inlined known with
    | none => Scan.fail
    | some known =>
      skipBlanks
      if ← Scan.accept [','] then entries depth known fuel
      else
        Scan.expect ['\x7d']
        return known
termination_by structural fuel => fuel

end

/-! ### Lines -/

/-- A text as far as it is read: its entries, and the path of the last header. -/
structure Draft where
  root : Entries := []
  place : List String := []

/-- Opens what a header names, by `open?` in its parent. -/
def Draft.enter? (d : Draft) (path : List String)
    (open? : String → Form → Entries → Option Entries) : Option Draft :=
  match path.getLast? with
  | none => none
  | some last =>
    (change .header (open? last) path.dropLast .opened d.root).map fun root => ⟨root, path⟩

/-- Adds an entry to the table of the last header. -/
def Draft.add? (d : Draft) (path : List String) (node : Node) : Option Draft :=
  let node := Node.value node.data
  (change .header (addAt .key path node) d.place .opened d.root).map fun root => { d with root }

/-- What there is when a step worked. -/
def orFail (d : Option Draft) : Scan Draft :=
  match d with
  | some d => return d
  | none => Scan.fail

def header (d : Draft) (fuel : Nat) : Scan Draft := do
  let repeated ← Scan.accept ['[', '[']
  if !repeated then Scan.expect ['[']
  let path ← key fuel
  Scan.expect (if repeated then [']', ']'] else [']'])
  lineEnd
  orFail (d.enter? path (if repeated then openRow else openTable))

def entry (d : Draft) (fuel : Nat) : Scan Draft := do
  let path ← key fuel
  Scan.expect ['=']
  skipBlanks
  let node ← value 0 fuel
  lineEnd
  orFail (d.add? path node)

/-- The lines up to the end of the text. -/
def lines (d : Draft) : (fuel : Nat) → Scan Draft
  | 0 => Scan.fail
  | fuel + 1 => do
    passLines (fuel + 1)
    if ← Scan.atEnd then return d
    else if ← Scan.looksAt ['['] then lines (← header d fuel) fuel
    else lines (← entry d fuel) fuel

/-- The entries of a text. -/
def read? (text : List Char) : Option (List (String × Data)) :=
  let text := if text.head? = some '\uFEFF' then text.tail else text
  (Scan.whole (lines {} (3 * text.length + 8)) text).map fun d => dataOfEntries d.root

end LookupTap.Settings.Toml
