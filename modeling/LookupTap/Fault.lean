import LookupTap.Bytes
import LookupTap.OsError

/-! What can go wrong, by cause.

`Fault` is everything that ends a run. A fault has one message of its own and, for the two
that report on somebody else's error, the chain of causes behind it; `Fault.causes` lists
their texts from the nearest to the deepest. The faults of single parts — of an object
file, of the artifact in it, of an attachment — are types of their own. -/
namespace LookupTap

/-! ### Object files -/

/-- Why bytes are not a readable object file. -/
inductive ElfFault where
  | noMagic
  | unknownMagic
  | msDos
  | headerSize
  | unsupported
  | noSectionForSegmentCount
  | noSectionForNameIndex
  | sectionZero
  | sectionEntrySize
  | segmentEntrySize
  | segmentTable
  | sectionTable
  | noNameIndex
  | nameIndex
  | nameTableSize
  | symbolTable
  | sectionIndex
  | stringTableType
  | stringTableSize
  | extendedIndices
  | relocationTarget
  | relocatedRelocations
  deriving DecidableEq, Repr

def ElfFault.message : ElfFault → String
  | noMagic => "Could not read file magic"
  | unknownMagic => "Unknown file magic"
  | msDos => "Unknown MS-DOS file"
  | headerSize => "Invalid ELF header size or alignment"
  | unsupported => "Unsupported ELF header"
  | noSectionForSegmentCount => "Missing ELF section headers for e_phnum overflow"
  | noSectionForNameIndex => "Missing ELF section headers for e_shstrndx overflow"
  | sectionZero => "Invalid ELF section header offset or size"
  | sectionEntrySize => "Invalid ELF section header entry size"
  | segmentEntrySize => "Invalid ELF program header entry size"
  | segmentTable => "Invalid ELF program header size or alignment"
  | sectionTable => "Invalid ELF section header offset/size/alignment"
  | noNameIndex => "Missing ELF e_shstrndx"
  | nameIndex => "Invalid ELF e_shstrndx"
  | nameTableSize => "Invalid ELF shstrtab size"
  | symbolTable => "Invalid ELF symbol table data"
  | sectionIndex => "Invalid ELF section index"
  | stringTableType => "Invalid ELF string section type"
  | stringTableSize => "Invalid ELF string section offset or size"
  | extendedIndices => "Invalid ELF symtab_shndx data"
  | relocationTarget => "Invalid ELF sh_info for relocation section"
  | relocatedRelocations => "Unsupported ELF sh_info for relocation section"

/-! ### Artifacts -/

/-- Why an object file is no artifact. -/
inductive ObjectFault where
  | elf (fault : ElfFault)
  | unterminatedLicense (data : Bytes)
  | license (data : Bytes)
  | kernelVersion (data : Bytes)
  | symbolName
  | sectionData (index : Nat)
  | programSection (name : String)
  | noSymbols (name : String)
  | noMapSymbols
  | mapDefinition (name : String)
  | programCode
  | unknownSymbol (index address : Nat)
  | sharedAddress (index address : Nat)
  | emptySymbol (index : Nat) (name : String)
  deriving DecidableEq, Repr

/-- Bytes as decimal numbers in brackets. -/
def byteList (bs : Bytes) : String :=
  "[" ++ ", ".intercalate (bs.map fun b => toString b.toNat) ++ "]"

/-- An address in hexadecimal with capital letters. -/
def capitalHex (n : Nat) : String :=
  "0x" ++ String.ofList ((Nat.toDigits 16 n).map Char.toUpper)

def ObjectFault.message : ObjectFault → String
  | elf _ => "error parsing ELF data"
  | unterminatedLicense data => s!"invalid license `{byteList data}`: missing NULL terminator"
  | license data => s!"invalid license `{byteList data}`"
  | kernelVersion data => s!"invalid kernel version `{byteList data}`"
  | symbolName => "BTF error"
  | sectionData index => s!"error parsing section with index {index}"
  | programSection name => s!"invalid program section `{name}`"
  | noSymbols name => s!"no symbols found in the {name} section"
  | noMapSymbols => "no symbols found for the maps included in the maps section"
  | mapDefinition name => s!"error parsing map `{name}`"
  | programCode => "invalid program code"
  | unknownSymbol index address =>
    s!"unknown symbol in section `{index}` at address {capitalHex address}"
  | sharedAddress index address =>
    s!"two or more symbols in section `{index}` have the same address {capitalHex address}"
  | emptySymbol index name => s!"invalid symbol, index `{index}` name: {name}"

/-- Why an artifact cannot be loaded. -/
inductive LoadFault where
  | unreadable (path reason : String)
  | object (fault : ObjectFault)
  | mapRefused (map : String) (os : OsError)
  | noTypes
  deriving DecidableEq, Repr

/-- The texts of the fault and of what is behind it. -/
def LoadFault.causes : LoadFault → List String
  | unreadable path reason => [s!"error loading {path}", reason]
  | object fault => [s!"error parsing BPF object: {fault.message}", fault.message]
  | mapRefused map os =>
    let refusal := s!"failed to create map `{map}` with code -1"
    [s!"map error: {refusal}", refusal, os.message]
  | noTypes => ["no BTF parsed for object"]

/-! ### Attachments -/

/-- The steps of an attachment that the kernel can refuse. -/
inductive AttachStep where
  | load
  | probeType
  | returnFormat
  | perfEvent
  | link
  deriving DecidableEq, Repr

def AttachStep.refusal : AttachStep → String
  | load => "the BPF_PROG_LOAD syscall failed. Verifier output: "
  | probeType => "`/sys/bus/event_source/devices/uprobe/type`"
  | returnFormat => "`/sys/bus/event_source/devices/uprobe/format/retprobe`"
  | perfEvent => "`perf_event_open` failed"
  | link => "`bpf_link_create` failed"

/-- Why a probe is not attached. -/
inductive AttachFault where
  | notLoaded
  | alreadyLoaded
  | alreadyAttached
  | refused (step : AttachStep) (os : OsError)
  deriving DecidableEq, Repr

def AttachFault.causes : AttachFault → List String
  | notLoaded => ["the program is not loaded"]
  | alreadyLoaded => ["the program is already loaded"]
  | alreadyAttached => ["the program was already attached"]
  | refused step os => [step.refusal, os.message]

/-! ### Runs -/

/-- What ends a run. -/
inductive Fault where
  | artifactLoad (path : String) (cause : LoadFault)
  | libraryNotFound (marker : String)
  | badBinary (path reason : String)
  | symbolNotFound (symbol path : String)
  | programNotFound (program : String)
  | attachRejected (probe library : String) (offset : Nat) (cause : AttachFault)
  | noProbesAttached (declared : Nat)
  | channel (name reason : String)
  | io (os : OsError)
  deriving DecidableEq, Repr

/-- A number in hexadecimal with small letters. -/
def smallHex (n : Nat) : String := "0x" ++ String.ofList (Nat.toDigits 16 n)

namespace Fault

def message : Fault → String
  | artifactLoad path _ => s!"Failed to load instrumentation artifact {path}"
  | libraryNotFound marker => s!"Could not find a loaded library matching '{marker}'"
  | badBinary path reason => s!"Failed to read symbols from {path}: {reason}"
  | symbolNotFound symbol path => s!"Symbol '{symbol}' not found in {path}"
  | programNotFound program =>
    s!"Program {program} is not declared by the artifact or is not a uprobe"
  | attachRejected probe library offset _ =>
    s!"Kernel rejected probe {probe} at {library}+{smallHex offset}"
  | noProbesAttached declared => s!"No probes attached ({declared} declared)"
  | channel name reason => s!"Output channel '{name}' failed: {reason}"
  | io os => os.message

/-- The texts of what is behind the fault, the nearest first. -/
def causes : Fault → List String
  | artifactLoad _ cause => cause.causes
  | attachRejected _ _ _ cause => cause.causes
  | _ => []

end Fault

end LookupTap
