/-! White space, and text without it at its ends.

The set is the one that the character standard gives the property White_Space. The letters
and digits of other scripts are told apart from their signs by block: `isWordChar` is
exact up to `7F` and takes everything further as a letter but the blocks of punctuation,
symbols and private use. -/
namespace LookupTap.Text

def isBlank (c : Char) : Bool :=
  let n := c.toNat
  (9 ≤ n && n ≤ 13) || n == 0x20 || n == 0x85 || n == 0xA0 || n == 0x1680 ||
    (0x2000 ≤ n && n ≤ 0x200A) || n == 0x2028 || n == 0x2029 || n == 0x202F || n == 0x205F ||
    n == 0x3000

def trimStart (cs : List Char) : List Char := cs.dropWhile isBlank

def trimEnd (cs : List Char) : List Char := (trimStart cs.reverse).reverse

/-- The text without the white space at its ends. -/
def trim (cs : List Char) : List Char := trimEnd (trimStart cs)

/-- The blocks, past `7F`, whose characters are neither letters nor digits. -/
def signBlocks : List (Nat × Nat) :=
  [(0x80, 0xA9), (0xAB, 0xB1), (0xB4, 0xB4), (0xB6, 0xB8), (0xBB, 0xBB), (0xBF, 0xBF),
    (0xD7, 0xD7), (0xF7, 0xF7), (0x300, 0x344), (0x2000, 0x206F), (0x207A, 0x207E),
    (0x208A, 0x208E), (0x20A0, 0x20F0), (0x2190, 0x245F), (0x2500, 0x2775),
    (0x2794, 0x2BFF), (0x3000, 0x3004), (0x3008, 0x3020), (0xE000, 0xF8FF), (0xFE00, 0xFE6F),
    (0xFF01, 0xFF0F), (0xFF1A, 0xFF20), (0xFF3B, 0xFF40), (0xFF5B, 0xFF65), (0xFFE0, 0xFFFF),
    (0x1F000, 0x1F0FF), (0x1F10D, 0x1F12F), (0x1F18A, 0x1FAFF), (0xE0000, 0x10FFFF)]

def isWordChar (c : Char) : Bool :=
  c.isAlphanum || (0x80 ≤ c.toNat && signBlocks.all fun (low, high) =>
    c.toNat < low || high < c.toNat)

end LookupTap.Text
