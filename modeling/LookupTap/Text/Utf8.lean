import LookupTap.Bytes

/-! UTF-8, written, read strictly, and read with replacements.

A character is written as one to four bytes: a lead byte that says how many follow and
which range the first of them may lie in, then bytes from `80` to `BF`. The ranges
(`Lead.after`) leave out every longer spelling of a shorter character, the surrogates,
and everything past `10FFFF`.

`lossy` reads any byte string. It walks the bytes once; whenever a character cannot be
completed, the bytes taken for it so far — a longest beginning that some character could
have — become one replacement character, and the byte at hand is looked at afresh.
`decode?` is strict: it accepts a string exactly when writing its reading gives the
string back. -/
namespace LookupTap.Utf8

/-- What stands for bytes that are no character. -/
def replacement : Char := '\uFFFD'

def encode (cs : List Char) : Bytes := cs.flatMap String.utf8EncodeChar

/-! ### Lead bytes -/

/-- A lead byte: the bits of the character it carries, and the range of each byte that
has to follow, in order. -/
structure Lead where
  bits : Nat
  after : List (Nat × Nat)

/-- What the byte starts; nothing when it is a continuation byte or in no character. -/
def lead? (b : UInt8) : Option Lead :=
  let n := b.toNat
  let tail := (0x80, 0xBF)
  if n < 0x80 then some ⟨n, []⟩
  else if n < 0xC2 then none
  else if n < 0xE0 then some ⟨n - 0xC0, [tail]⟩
  else if n = 0xE0 then some ⟨0, [(0xA0, 0xBF), tail]⟩
  else if n = 0xED then some ⟨0xD, [(0x80, 0x9F), tail]⟩
  else if n < 0xF0 then some ⟨n - 0xE0, [tail, tail]⟩
  else if n = 0xF0 then some ⟨0, [(0x90, 0xBF), tail, tail]⟩
  else if n < 0xF4 then some ⟨n - 0xF0, [tail, tail, tail]⟩
  else if n = 0xF4 then some ⟨4, [(0x80, 0x8F), tail, tail]⟩
  else none

/-! ### Reading with replacements -/

/-- Where the reader stands: between characters, or inside one with the bits so far, the
range of the next byte and those after it. -/
inductive State where
  | between
  | inside (bits : Nat) (next : Nat × Nat) (later : List (Nat × Nat))

/-- Takes a byte that has to start a character. -/
def start (b : UInt8) : List Char × State :=
  match lead? b with
  | none => ([replacement], .between)
  | some ⟨bits, []⟩ => ([Char.ofNat bits], .between)
  | some ⟨bits, next :: later⟩ => ([], .inside bits next later)

/-- Takes one byte; answers the characters that it settles. -/
def feed : State → UInt8 → List Char × State
  | .between, b => start b
  | .inside bits next later, b =>
    if next.1 ≤ b.toNat ∧ b.toNat ≤ next.2 then
      let bits := bits * 64 + (b.toNat - 0x80)
      match later with
      | [] => ([Char.ofNat bits], .between)
      | next :: later => ([], .inside bits next later)
    else
      let (cs, s) := start b
      (replacement :: cs, s)

/-- What is left to say when the bytes end. -/
def finish : State → List Char
  | .between => []
  | .inside .. => [replacement]

def lossyFrom (s : State) : Bytes → List Char
  | [] => finish s
  | b :: bs => (feed s b).1 ++ lossyFrom (feed s b).2 bs

def lossy (bs : Bytes) : List Char := lossyFrom .between bs

/-! ### Reading strictly -/

def decode? (bs : Bytes) : Option (List Char) :=
  if encode (lossy bs) = bs then some (lossy bs) else none

end LookupTap.Utf8
