import LookupTap.Files
import LookupTap.Step
import LookupTap.SymbolTable

/-! Where the symbols of a binary are looked up.

A `Resolver` answers for a path and a name, and may keep a state. Two are given: one with a
table at hand, and one that reads binaries and keeps the table of each path it could parse
(`SymbolCache`). Paths with the same parts share a table; a binary that could not be read
or parsed leaves nothing behind, so it is tried again the next time. -/
namespace LookupTap

/-- How files are read at one moment. -/
abbrev Reading := String → Except Files.ReadFault Bytes

structure Resolver (ρ : Type) where
  resolve : ρ → (path symbol : String) → Step ρ (Except Fault Nat)

/-- The resolver with a table at hand, whatever the path. -/
def Resolver.ofTable (t : SymbolTable) : Resolver Unit where
  resolve s path symbol := { answer := t.resolve path symbol, state := s }

/-! ### Tables by path -/

structure SymbolCache where
  tables : List (Path.Parts × SymbolTable) := []

namespace SymbolCache

/-- The line about a table that has just been read. -/
def sizeLine (path : String) (t : SymbolTable) : Line :=
  if t.size = 0 then ⟨.warn, .symbols, s!"{path} has no defined symbols"⟩
  else ⟨.debug, .symbols, s!"Read {t.size} symbols from {path}"⟩

/-- Reads and parses a binary. -/
def load (read : Reading) (path : String) : Except Fault SymbolTable :=
  match read path with
  | .error e => .error (.badBinary path e.message)
  | .ok data => SymbolTable.parse path data

/-- The table of a path: the one that is kept, or a new one, which is then kept. -/
def table (read : Reading) (c : SymbolCache) (path : String) :
    Step SymbolCache (Except Fault SymbolTable) :=
  match Keyed.get? (Path.parts path) c.tables with
  | some t => { answer := .ok t, state := c }
  | none =>
    match load read path with
    | .error e => { answer := .error e, state := c }
    | .ok t =>
      { answer := .ok t
        state := ⟨Keyed.put (Path.parts path) t c.tables⟩
        lines := [sizeLine path t] }

def resolve (read : Reading) (c : SymbolCache) (path symbol : String) :
    Step SymbolCache (Except Fault Nat) :=
  let step := c.table read path
  { answer := step.answer.bind fun t => t.resolve path symbol
    state := step.state
    lines := step.lines }

end SymbolCache

/-- The resolver that keeps tables; call number `n` finds the files as `reads n` says. The
state is the number of the next call and the tables kept. -/
def Resolver.caching (reads : Nat → Reading) : Resolver (Nat × SymbolCache) where
  resolve s path symbol :=
    let step := s.2.resolve (reads s.1) path symbol
    { answer := step.answer, state := (s.1 + 1, step.state), lines := step.lines }

/-- The resolver that keeps tables, over files that stay as they are. -/
def Resolver.ofFiles (files : Files) : Resolver (Nat × SymbolCache) :=
  .caching fun _ => files.read

end LookupTap
