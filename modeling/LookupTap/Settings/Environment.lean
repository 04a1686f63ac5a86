import LookupTap.Settings.Key

/-! Settings from variables.

A variable counts when its name, in small letters, starts with `resolvtap__`; the rest of
the name is the key, with every `__` in it a dot. Its text is a truth value, a whole number
or a number if it reads as one, and else itself. -/
namespace LookupTap.Settings

/-- The variables of a process, by name. -/
abbrev Variables := List (String × String)

namespace Variables

/-- What the names of variables that count start with. -/
def lead : String := "resolvtap__"

/-- The text with a dot for every `__`. -/
def dotted : List Char → List Char
  | '_' :: '_' :: rest => '.' :: dotted rest
  | c :: rest => c :: dotted rest
  | [] => []

/-- The key that a variable's name stands for. -/
def key? (name : String) : Option String :=
  (lead.toList.isPrefixOf? (Text.lower name).toList).map fun rest => String.ofList (dotted rest)

/-- What the text of a variable is read as. -/
def data (text : String) : Data :=
  match Text.lower text with
  | "true" => .bool true
  | "false" => .bool false
  | _ =>
    match Digits.int64? 10 text.toList with
    | some i => .int i
    | none =>
      match Binary64.read? text.toList with
      | some x => .float x
      | none => .text text

def value (text : String) : Value := ⟨data text, none⟩

/-- What a variable says, and under which key, if it counts. -/
def entry? (v : String × String) : Option (String × Value) :=
  (key? v.1).map fun key => (key, value v.2)

/-- What the variables that count say. Of those with one key it is the last one. -/
def table (vars : Variables) : Table := Keyed.collect (vars.filterMap entry?)

end Variables

end LookupTap.Settings
