/-! Paths as text, and when two of them are the same.

A path is its text. Its `Parts` are what is left when empty components, `.` in any place
but the first, and separators at the end are dropped; two paths with the same parts are one
path to whoever keeps things by path. This is neither equality of the texts nor of the
files: `a//b` and `a/b` are the same, `./a` and `a` are not, nor are `d/../a` and `a`. -/
namespace LookupTap.Path

/-- What a path consists of: whether it starts at the root, whether it starts with `.`,
and its components. -/
structure Parts where
  rooted : Bool
  dotted : Bool
  names : List String
  deriving DecidableEq, Repr

/-- The text between separators. -/
def components (path : String) : List String := (path.toList.splitOn '/').map String.ofList

def isRooted (path : String) : Bool := path.startsWith "/"

def parts (path : String) : Parts where
  rooted := isRooted path
  dotted := (components path).head? = some "."
  names := (components path).filter fun c => c ≠ "" ∧ c ≠ "."

/-- The last component, unless it leads upwards or there is none. -/
def fileName? (path : String) : Option String :=
  match (parts path).names.getLast? with
  | some ".." => none
  | last => last

/-- The text before the last dot of a file name, and the one after it. A dot at the start
separates nothing. -/
def stemAndExtension (name : String) : String × Option String :=
  match ((name.toList.splitOn '.').map String.ofList).reverse with
  | extension :: front =>
    let stem := ".".intercalate front.reverse
    if stem = "" then (name, none) else (stem, some extension)
  | [] => (name, none)

def extension? (path : String) : Option String :=
  (fileName? path).bind fun name => (stemAndExtension name).2

end LookupTap.Path
