import LookupTap.Settings.Yaml.Scalar

/-! YAML documents.

A block collection is held together by its column: the entries of a table and the items of
a list start at one column, further in than what they belong to — except that the items of
a list that is the value of a key may start at the key's own column. Whether a line starts a
table is seen by looking ahead: its first node has to fit on the line and be followed by a
colon. Flow collections are held together by their brackets, and stay further in than the
block around them. -/
namespace LookupTap.Settings.Yaml

open Text (Cursor Scan)

inductive Node where
  | scalar (s : Scalar)
  | list (items : List Node)
  | table (entries : List (Node × Node))
  deriving BEq

namespace Node

mutual

/-- The node as data. Keys are texts and whole numbers. -/
def data? : Node → Option Data
  | scalar s => s.data?
  | list items => (listData? items).map .list
  | table entries => (tableData? [] entries).map .table

def listData? : List Node → Option (List Data)
  | [] => some []
  | node :: rest =>
    match data? node, listData? rest with
    | some d, some ds => some (d :: ds)
    | _, _ => none

/-- The entries as data, after those that are there. -/
def tableData? (known : List (String × Data)) : List (Node × Node) → Option (List (String × Data))
  | [] => some known
  | (key, node) :: rest =>
    match key, data? node with
    | .scalar (.text k), some d => tableData? (Keyed.put k d known) rest
    | .scalar (.int i), some d => tableData? (Keyed.put (toString i) d known) rest
    | _, _ => none

end

end Node

/-- A reader of nodes, which knows the nodes that have been named. -/
abbrev Reader := StateT (List (String × Node)) Scan

def fail {α : Type} : Reader α := (Scan.fail : Scan α)

/-! ### Between nodes -/

/-- Passes blanks, comments and line ends; answers whether there was a tab before the token
on its line. -/
def passSpace : (fuel : Nat) → Scan Bool
  | 0 => Scan.fail
  | fuel + 1 => do
    let start ← position
    let blanks ← Scan.takeWhile isBlank
    let c ← Scan.peek?
    let free := !blanks.isEmpty || start.before.all (fun b => b = '\n' || isBlank b)
    if c = some '#' ∧ free then Scan.skipWhile (· ≠ '\n')
    if ← Scan.accept ['\n'] then passSpace fuel
    else return blanks.contains '\t'

/-- The line has to end here, a comment aside. -/
def endLine : Scan Unit := do
  let blanks ← Scan.takeWhile isBlank
  if !blanks.isEmpty ∧ (← Scan.peek?) = some '#' then Scan.skipWhile (· ≠ '\n')
  if isBreakOrEnd (← Scan.peek?) then return () else Scan.fail

/-- Nothing more belongs to the document. -/
def atLimit : Scan Bool := do
  let ends ← Scan.atEnd
  let marked ← atDocumentMark
  return ends || marked

/-- The cursor is at a mark with white space behind it. -/
def atMark (c : Char) : Scan Bool := do
  let first ← Scan.peek?
  let second ← Scan.peekAt? 1
  return first = some c && isSpace second

/-! ### Properties -/

inductive Tag where
  | common (name : String)
  | other

structure Properties where
  anchor : Option String := none
  tag : Option Tag := none

def Properties.isEmpty (p : Properties) : Bool := p.anchor.isNone && p.tag.isNone

def isWordChar (c : Char) : Bool := !isSpace (some c) && !isFlowMark c

def tag : Scan Tag := do
  Scan.expect ['!']
  if ← Scan.accept ['<'] then
    Scan.skipWhile fun c => c ≠ '>' ∧ c ≠ '\n'
    Scan.expect ['>']
    return .other
  else if ← Scan.accept ['!'] then
    return .common (String.ofList (← Scan.takeWhile isWordChar))
  else
    let name ← Scan.takeWhile isWordChar
    if name.contains '!' then Scan.fail else return .other

/-- The properties before a node, on one line. -/
def properties : (fuel : Nat) → Scan Properties
  | 0 => Scan.fail
  | fuel + 1 => do
    match ← Scan.peek? with
    | some '&' =>
      Scan.skip 1
      let name ← Scan.takeWhile isWordChar
      if name.isEmpty ∨ !isSpace (← Scan.peek?) then Scan.fail
      else
        Scan.skipWhile isBlank
        let p ← properties fuel
        if p.anchor.isSome then Scan.fail else return { p with anchor := some (String.ofList name) }
    | some '!' =>
      let t ← tag
      let after ← Scan.peek?
      if isSpace after ∨ after.any isFlowMark then
        Scan.skipWhile isBlank
        let p ← properties fuel
        if p.tag.isSome then Scan.fail else return { p with tag := some t }
      else Scan.fail
    | _ => return {}

/-- Both properties, of which no two are of a kind. -/
def Properties.merge? (p q : Properties) : Option Properties :=
  if (p.anchor.isSome ∧ q.anchor.isSome) ∨ (p.tag.isSome ∧ q.tag.isSome) then none
  else some ⟨p.anchor <|> q.anchor, p.tag <|> q.tag⟩

/-- The scalar that a plain text is under a tag. -/
def Properties.plain (p : Properties) (s : String) : Scalar :=
  match p.tag with
  | none => .ofPlain s
  | some (.common name) => .ofTagged name s
  | some .other => .text s

/-- Names a node, if it has an anchor. -/
def named (p : Properties) (node : Node) : Reader Node := do
  match p.anchor with
  | some name => modify (Keyed.put name node)
  | none => pure ()
  return node

def emptyNode (p : Properties) : Reader Node :=
  named p (.scalar (if p.tag.isNone then .null else p.plain ""))

/-- The node that an alias stands for. -/
def reference : Reader Node := do
  Scan.expect ['*']
  let name ← Scan.takeWhile isWordChar
  match Keyed.get? (String.ofList name) (← get) with
  | some node => return node
  | none => fail

/-- Adds an entry, whose key must be new. -/
def addEntry (entries : List (Node × Node)) (key value : Node) : Reader (List (Node × Node)) :=
  if entries.any (·.1 == key) then fail else return entries ++ [(key, value)]

/-! ### Flow nodes -/

/-- Passes white space inside of brackets below a node at column `parent`. -/
def passFlowSpace (parent : Int) (fuel : Nat) : Scan Unit := do
  let first ← line
  let _ ← passSpace fuel
  let crossed := (← line) ≠ first
  let col ← column
  if ← atLimit then Scan.fail
  else if crossed ∧ (col : Int) ≤ parent then Scan.fail
  else return ()

/-- The cursor is at the colon behind a key; behind a quote or bracket it may stand close. -/
def atColon (close : Bool) : Scan Bool := do
  let first ← Scan.peek?
  let second ← Scan.peekAt? 1
  return first = some ':' && (close || isSpace second || second.any isFlowMark)

/-- The characters that may start a node of which it is seen where it ends. -/
def isClosing (c : Option Char) : Bool :=
  c.any fun c => c = '\"' || c = '\'' || c = '[' || c = '\x7b'

mutual

/-- A node inside of brackets, or one without block marks, on a line of its own unless
`multi`. -/
def flowNode (flow multi : Bool) (parent : Int) (p : Properties) : (fuel : Nat) → Reader Node
  | 0 => fail
  | fuel + 1 => do
    match ← Scan.peek? with
    | some '*' => if p.isEmpty then reference else fail
    | some '[' =>
      Scan.skip 1
      named p (.list (← flowItems parent fuel))
    | some '\x7b' =>
      Scan.skip 1
      named p (.table (← flowEntries parent [] fuel))
    | some '\"' => named p (.scalar (.text (← quoted '\"' (parent + 1) fuel)))
    | some '\'' => named p (.scalar (.text (← quoted '\'' (parent + 1) fuel)))
    | _ => named p (.scalar (p.plain (← plain flow multi (parent + 1) fuel)))

/-- A node inside of brackets, which may be empty; and whether it ends visibly. -/
def flowPart (parent : Int) : (fuel : Nat) → Reader (Node × Bool)
  | 0 => fail
  | fuel + 1 => do
    let p ← properties fuel
    passFlowSpace parent fuel
    let c ← Scan.peek?
    if c = some ',' ∨ c = some ']' ∨ c = some '\x7d' ∨ (← atColon false) then
      return (← emptyNode p, false)
    else return (← flowNode true true parent p fuel, isClosing c)

/-- What stands behind the colon. -/
def flowValue (parent : Int) : (fuel : Nat) → Reader Node
  | 0 => fail
  | fuel + 1 => do
    Scan.skip 1
    passFlowSpace parent fuel
    return (← flowPart parent fuel).1

/-- The items of a list, and the bracket at its end. -/
def flowItems (parent : Int) : (fuel : Nat) → Reader (List Node)
  | 0 => fail
  | fuel + 1 => do
    passFlowSpace parent fuel
    if ← Scan.accept [']'] then return []
    else if (← Scan.peek?) = some ',' then fail
    else
      let paired ← atMark '?'
      if paired then
        Scan.skip 1
        passFlowSpace parent fuel
      let (key, close) ← flowPart parent fuel
      passFlowSpace parent fuel
      let item ←
        if ← atColon close then pure (.table [(key, ← flowValue parent fuel)])
        else if paired then pure (.table [(key, .scalar .null)])
        else pure key
      passFlowSpace parent fuel
      if ← Scan.accept [','] then return item :: (← flowItems parent fuel)
      else
        Scan.expect [']']
        return [item]

/-- The entries of a table, after those that are known, and the bracket at its end. -/
def flowEntries (parent : Int) (entries : List (Node × Node)) :
    (fuel : Nat) → Reader (List (Node × Node))
  | 0 => fail
  | fuel + 1 => do
    passFlowSpace parent fuel
    if ← Scan.accept ['\x7d'] then return entries
    else if (← Scan.peek?) = some ',' then fail
    else
      if ← atMark '?' then
        Scan.skip 1
        passFlowSpace parent fuel
      let (key, close) ← flowPart parent fuel
      passFlowSpace parent fuel
      let value ← if ← atColon close then flowValue parent fuel else pure (.scalar .null)
      let entries ← addEntry entries key value
      passFlowSpace parent fuel
      if ← Scan.accept [','] then flowEntries parent entries fuel
      else
        Scan.expect ['\x7d']
        return entries

end

/-! ### Block nodes -/

/-- Whether a collection may start on the line of the mark before it. -/
inductive Place where
  | open
  | value
  deriving DecidableEq

/-- The first node of a line, if a colon follows it there. -/
def key? (parent : Int) (p : Properties) (fuel : Nat) : Reader (Option Node) := do
  let start ← position
  let known ← get
  let empty ← atMark ':'
  let node? : Option Node ← fun anchors cursor =>
    match flowNode false false parent p fuel anchors cursor with
    | some ((node, anchors), cursor) => some ((some node, anchors), cursor)
    | none => some ((none, known), start)
  let node? ← if empty then some <$> emptyNode p else pure node?
  Scan.skipWhile isBlank
  let sameLine := (← line) = start.line
  if node?.isSome ∧ sameLine ∧ (← atMark ':') then return node?
  else
    set known
    (set start : Scan Unit)
    return none

/-- The cursor is further in than the node it may belong to; the items of a list may start
where their key does. -/
def belongs (parent : Int) (place : Place) (crossed : Bool) : Scan Bool := do
  let col ← column
  let dash ← atMark '-'
  if ← atLimit then return false
  else return !crossed || parent < col || (place = .value && dash && (col : Int) = parent)

mutual

/-- The node behind a mark, below a node at column `parent`; it may be empty. -/
def blockNode (parent : Int) (place : Place) : (fuel : Nat) → Reader Node
  | 0 => fail
  | fuel + 1 => do
    let first ← line
    let tabbed ← passSpace fuel
    let crossed := (← line) ≠ first
    if ← belongs parent place crossed then
      blockBody parent place ((crossed || place = .open) && !tabbed) {} fuel
    else emptyNode {}
termination_by structural fuel => fuel

/-- The node at the cursor. `opens` says whether it may be a block collection, and `p` what
is known of its properties. -/
def blockBody (parent : Int) (place : Place) (opens : Bool) (p : Properties) :
    (fuel : Nat) → Reader Node
  | 0 => fail
  | fuel + 1 => do
    let col ← column
    let own ← properties fuel
    let c ← Scan.peek?
    if !own.isEmpty ∧ (isBreakOrEnd c ∨ c = some '#') then
      match p.merge? own with
      | none => fail
      | some p =>
        let tabbed ← passSpace fuel
        if ← belongs parent place true then blockBody parent place (!tabbed) p fuel
        else emptyNode p
    else if ← atMark '-' then
      if opens ∧ own.isEmpty then named p (.list (← blockItems col fuel)) else fail
    else if ← atMark '?' then
      if opens ∧ own.isEmpty then named p (.table (← blockEntries col [] fuel)) else fail
    else
      match p.merge? own with
      | none =>
        if opens then named p (.table (← firstEntry parent col own fuel)) else fail
      | some all =>
        if c = some '|' ∨ c = some '>' then named all (.scalar (.text (← block parent fuel)))
        else
          match ← key? parent own fuel with
          | some key =>
            if opens then named p (.table (← entryValue col [] key fuel)) else fail
          | none =>
            let node ← flowNode false true parent all fuel
            endLine
            return node
termination_by structural fuel => fuel

/-- The entries of a table whose first key has properties of its own. -/
def firstEntry (parent : Int) (col : Nat) (own : Properties) :
    (fuel : Nat) → Reader (List (Node × Node))
  | 0 => fail
  | fuel + 1 => do
    match ← key? parent own fuel with
    | some key => entryValue col [] key fuel
    | none => fail
termination_by structural fuel => fuel

/-- The items of a list at a column, the cursor being at one. -/
def blockItems (col : Nat) : (fuel : Nat) → Reader (List Node)
  | 0 => fail
  | fuel + 1 => do
    Scan.skip 1
    let item ← blockNode col .open fuel
    let tabbed ← passSpace fuel
    let here ← column
    let limit ← atLimit
    if limit ∨ here < col then return [item]
    else if col < here then fail
    else if ← atMark '-' then
      if tabbed then fail else return item :: (← blockItems col fuel)
    else return [item]
termination_by structural fuel => fuel

/-- The entries of a table at a column, the cursor being at a key. -/
def blockEntries (col : Nat) (entries : List (Node × Node)) :
    (fuel : Nat) → Reader (List (Node × Node))
  | 0 => fail
  | fuel + 1 => do
    if ← atMark '?' then
      Scan.skip 1
      let key ← blockNode col .open fuel
      let _ ← passSpace fuel
      let here ← column
      let limit ← atLimit
      if !limit ∧ here = col ∧ (← atMark ':') then
        Scan.skip 1
        let value ← blockNode col .open fuel
        moreEntries col (← addEntry entries key value) fuel
      else moreEntries col (← addEntry entries key (.scalar .null)) fuel
    else
      let own ← properties fuel
      match ← key? col own fuel with
      | some key => entryValue col entries key fuel
      | none => fail
termination_by structural fuel => fuel

/-- The value behind a key and its colon, and the entries after it. -/
def entryValue (col : Nat) (entries : List (Node × Node)) (key : Node) :
    (fuel : Nat) → Reader (List (Node × Node))
  | 0 => fail
  | fuel + 1 => do
    Scan.skip 1
    let value ← blockNode col .value fuel
    moreEntries col (← addEntry entries key value) fuel
termination_by structural fuel => fuel

/-- Further entries of a table, if there are any. -/
def moreEntries (col : Nat) (entries : List (Node × Node)) :
    (fuel : Nat) → Reader (List (Node × Node))
  | 0 => fail
  | fuel + 1 => do
    let tabbed ← passSpace fuel
    let here ← column
    let limit ← atLimit
    if limit ∨ here < col then return entries
    else if col < here ∨ tabbed ∨ (← atMark '-') then fail
    else blockEntries col entries fuel
termination_by structural fuel => fuel

end

/-! ### Documents -/

/-- Passes directives, each of which is a line. Answers whether there was any. -/
def passDirectives : (fuel : Nat) → Scan Bool
  | 0 => Scan.fail
  | fuel + 1 => do
    let _ ← passSpace fuel
    let start ← Scan.looksAt ['%']
    if start ∧ (← column) = 0 then
      Scan.skipWhile (· ≠ '\n')
      let _ ← passDirectives fuel
      return true
    else return false

mutual

/-- The documents of a stream. -/
def documents : (fuel : Nat) → Reader (List Node)
  | 0 => fail
  | fuel + 1 => do
    let directed ← passDirectives fuel
    set ([] : List (String × Node))
    if ← Scan.atEnd then
      if directed then fail else return []
    else if ← atDocumentMark then
      let ends ← Scan.looksAt ['.']
      Scan.skip 3
      if ends then
        if directed then fail
        else
          endLine
          documents fuel
      else documentsFrom .value fuel
    else if directed then fail
    else documentsFrom .open fuel

/-- A document whose mark, if it has one, is passed, and those after it. -/
def documentsFrom (place : Place) : (fuel : Nat) → Reader (List Node)
  | 0 => fail
  | fuel + 1 => do
    let node ← blockNode (-1) place fuel
    let _ ← passSpace fuel
    if ← atLimit then return node :: (← documents fuel)
    else fail

end

/-- The documents of a text, if it is a stream of documents. -/
def read? (text : List Char) : Option (List Node) :=
  let text := if text.head? = some '\uFEFF' then text.tail else text
  let text := Text.unixLines text
  match documents (4 * text.length + 16) [] { rest := text } with
  | some ((nodes, _), _) => some nodes
  | none => none

end LookupTap.Settings.Yaml
