import LookupTap.Proofs.Elf.Listing

/-! The search for a name among the entries of a binary.

The table of a binary holds the entries of its static section and then those of its dynamic one,
less the undefined and the nameless (`Searches`), and a name has the value of the first entry that
defines it. What the sections list is said of the bytes of the file (`parse_listed`). -/
namespace LookupTap

namespace Elf

end Elf

namespace SymbolTable
open Elf

section Search
variable {t : SymbolTable} {static dynamic : List Entry}

end Search

/-! ### From the bytes of a file -/

end SymbolTable

end LookupTap
