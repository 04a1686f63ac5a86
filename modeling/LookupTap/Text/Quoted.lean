import LookupTap.Number.Digits

/-! Text in double quotes, as the program's own messages show it.

A quote, a backslash and the usual control characters are written with a backslash; every
other character that shows nothing, or only together with its neighbour, by its number in
hexadecimal. Paths are shown with the single quote escaped as well. -/
namespace LookupTap.Text

/-- Characters without a shape of their own: controls, spaces other than the common one,
marks on other characters, invisible signs, private use. -/
def hiddenBlocks : List (Nat × Nat) :=
  [(0x0, 0x1F), (0x7F, 0xA0), (0xAD, 0xAD), (0x300, 0x36F), (0x378, 0x379), (0x483, 0x489),
    (0x591, 0x5BD), (0x5BF, 0x5BF), (0x5C1, 0x5C2), (0x5C4, 0x5C5), (0x5C7, 0x5C7),
    (0x600, 0x605), (0x610, 0x61A), (0x61C, 0x61C), (0x64B, 0x65F), (0x670, 0x670),
    (0x6D6, 0x6DD), (0x6DF, 0x6E4), (0x93C, 0x93C), (0x94D, 0x94D), (0xE31, 0xE31),
    (0xE34, 0xE3A), (0xE47, 0xE4E), (0x1680, 0x1680), (0x180B, 0x180F), (0x1AB0, 0x1ACE),
    (0x1DC0, 0x1DFF), (0x2000, 0x200F), (0x2028, 0x202F), (0x205F, 0x206F), (0x20D0, 0x20F0),
    (0x3000, 0x3000), (0x302A, 0x302F), (0x3099, 0x309A), (0xD7FC, 0xF8FF), (0xFE00, 0xFE0F),
    (0xFE20, 0xFE2F), (0xFEFF, 0xFEFF), (0xFFF0, 0xFFFB), (0xFFFE, 0xFFFF),
    (0x1D165, 0x1D182), (0xE0000, 0x10FFFF)]

def isHidden (c : Char) : Bool :=
  hiddenBlocks.any fun (low, high) => low ≤ c.toNat && c.toNat ≤ high

def escaped (single : Bool) (c : Char) : List Char :=
  if c = '\"' then ['\\', c]
  else if c = '\\' then ['\\', c]
  else if c = '\'' ∧ single then ['\\', c]
  else if c = '\n' then ['\\', 'n']
  else if c = '\r' then ['\\', 'r']
  else if c = '\t' then ['\\', 't']
  else if c.toNat = 0 then ['\\', '0']
  else if isHidden c then
    '\\' :: 'u' :: '\x7b' :: Nat.toDigits 16 c.toNat ++ ['\x7d']
  else [c]

/-- The text in double quotes; `single` says whether single quotes are escaped too. -/
def quoted (single : Bool) (s : String) : String :=
  String.ofList ('\"' :: s.toList.flatMap (escaped single) ++ ['\"'])

end LookupTap.Text
