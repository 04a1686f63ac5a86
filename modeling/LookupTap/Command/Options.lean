import LookupTap.Keyed
import LookupTap.Settings.Environment

/-! The options of the command line.

`-v` and `--verbose` take no value; `-c`, `--config` and `--artifact` take one, as the next
word or attached: `--config=x`, `-cx`, `-c=x`. Letters behind one dash may share it. Each is
given once. Nothing else may stand on the command line, and a value is not empty.

An option whose value is to come is pending; it is settled by whatever follows, and a fault
in it counts only then, so a word that means nothing at all is told first. -/
namespace LookupTap.Command

/-- What is wrong with a command line. -/
inductive UsageFault where
  | unexpectedArgument
  | invalidValue
  | repeated
  | unexpectedValue
  deriving DecidableEq, Repr

def UsageFault.message : UsageFault → String
  | unexpectedArgument => "unexpected argument found"
  | invalidValue => "one of the values isn't valid for an argument"
  | repeated =>
    "an argument cannot be used with one or more of the other specified arguments"
  | unexpectedValue => "unexpected value for an argument found"

structure Options where
  verbose : Bool := false
  config : Option String := none
  artifact : Option String := none
  deriving DecidableEq, Repr

/-- The options with a value. -/
inductive Valued where
  | config
  | artifact
  deriving DecidableEq, Repr

namespace Options

def get? (o : Options) : Valued → Option String
  | .config => o.config
  | .artifact => o.artifact

def set (o : Options) (v : Valued) (value : String) : Options :=
  match v with
  | .config => { o with config := some value }
  | .artifact => { o with artifact := some value }

/-- Gives an option its value. -/
def give (o : Options) (v : Valued) (value : String) : Except UsageFault Options :=
  if (o.get? v).isSome then .error .repeated
  else if value = "" then .error .invalidValue
  else .ok (o.set v value)

def giveVerbose (o : Options) : Except UsageFault Options :=
  if o.verbose then .error .repeated else .ok { o with verbose := true }

end Options

/-- The options so far, and one that may be waiting for its value, or for its end. -/
structure Draft where
  options : Options := {}
  pending : Option (Valued × Option String) := none
  deriving DecidableEq, Repr

namespace Draft

/-- The options with the pending one given. -/
def settle (d : Draft) : Except UsageFault Options :=
  match d.pending with
  | none => .ok d.options
  | some (_, none) => .error .invalidValue
  | some (v, some value) => d.options.give v value

/-- An option with its value attached, or to come. -/
def valued (d : Draft) (v : Valued) (attached : Option String) : Except UsageFault Draft := do
  let options ← d.settle
  match attached with
  | none => return { options, pending := some (v, none) }
  | some value => return { options := ← options.give v value }

def verbose (d : Draft) : Except UsageFault Draft := do
  let options ← d.settle
  return { options := ← options.giveVerbose }

/-- The value behind a letter, an equals sign before it left out. -/
def behindLetter : List Char → Option String
  | [] => none
  | '=' :: rest => some (String.ofList rest)
  | rest => some (String.ofList rest)

/-- The letters behind one dash. -/
def letters (d : Draft) : List Char → Except UsageFault Draft
  | [] => .ok d
  | 'v' :: rest => do letters (← d.verbose) rest
  | 'c' :: rest => d.valued .config (behindLetter rest)
  | _ => .error .unexpectedArgument

/-- A name behind two dashes, with what follows an equals sign. -/
def long (d : Draft) (name : String) (attached : Option String) : Except UsageFault Draft :=
  match name with
  | "verbose" => if attached.isSome then .error .unexpectedValue else d.verbose
  | "config" => d.valued .config attached
  | "artifact" => d.valued .artifact attached
  | _ => .error .unexpectedArgument

/-- A name and what follows the first equals sign, if there is one. -/
def nameAndValue (cs : List Char) : String × Option String :=
  let name := String.ofList (cs.takeWhile (· ≠ '='))
  match cs.dropWhile (· ≠ '=') with
  | [] => (name, none)
  | _ :: value => (name, some (String.ofList value))

/-- One word of the command line. -/
def word (d : Draft) (text : String) : Except UsageFault Draft :=
  match text.toList, d.pending with
  | '-' :: '-' :: cs, _ =>
    let (name, attached) := nameAndValue cs
    d.long name attached
  | '-' :: c :: cs, _ => d.letters (c :: cs)
  | _, some (v, none) => .ok { d with pending := some (v, some text) }
  | _, _ => .error .unexpectedArgument

/-- The words of a command line. Nothing may follow two dashes alone. -/
def words (d : Draft) : List String → Except UsageFault Options
  | [] => d.settle
  | "--" :: rest => if rest.isEmpty then d.settle else .error .unexpectedArgument
  | text :: rest => do words (← d.word text) rest

end Draft

namespace Options

/-- The variable that stands in for `--config`. -/
def configName : String := "RESOLVTAP_CONFIG"

/-- The options, with the variable taken for the one that it stands in for. -/
def complete (o : Options) (vars : Settings.Variables) : Except UsageFault Options :=
  match o.config, Keyed.get? configName vars with
  | none, some value => o.give .config value
  | _, _ => .ok o

/-- The options of a command line. -/
def read (args : List String) (vars : Settings.Variables) : Except UsageFault Options := do
  let o ← ({} : Draft).words args
  o.complete vars

end Options

end LookupTap.Command
