/-! Probes: which function to stop at, and on which side.

A raw name is the lead of a kind followed by the function's name. `Probe.parse` reads one;
`Probe.forProgram` makes the probe of a program from the name of the section it lies in,
or, where that says no function, from the program's own name. -/
namespace LookupTap

namespace Probe

/-- Whether a probe fires when a function is entered or when it is left. -/
inductive Kind where
  | entry
  | exit
  deriving DecidableEq, Repr

/-- What the raw names of a kind start with. -/
def Kind.lead : Kind → String
  | entry => "uprobe/"
  | exit => "uretprobe/"

end Probe

structure Probe where
  program : String
  rawName : String
  kind : Probe.Kind
  target : String
  deriving DecidableEq, Repr

namespace Probe

/-- The text after a lead. -/
def after? (lead text : String) : Option String :=
  (lead.toList.isPrefixOf? text.toList).map String.ofList

/-- The kind and the function that a raw name spells. -/
def named? (raw : String) : Option (Kind × String) :=
  match after? Kind.exit.lead raw with
  | some target => some (.exit, target)
  | none => (after? Kind.entry.lead raw).map fun target => (.entry, target)

/-- Reads a raw name, which is then the program's name as well. There has to be a
function. -/
def parse (raw : String) : Option Probe :=
  match named? raw with
  | none => none
  | some (kind, target) => if target.isEmpty then none else some ⟨raw, raw, kind, target⟩

/-- The probe of a program in the section `home`; `kind` is the loader's word for it. -/
def forProgram (program : String) (home : Option String) (kind : Kind) : Probe :=
  match home.bind parse with
  | some probe => { probe with program }
  | none => (parse program).getD ⟨program, kind.lead ++ program, kind, program⟩

end Probe

end LookupTap
