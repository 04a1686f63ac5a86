import LookupTap.Elf.Symbol

/-! An ELF file taken apart: segments, sections, their names, and the two symbol tables.

`Image.read` checks what it reads in a fixed order — header, segments, sections, section
names, the first static symbol table, the first dynamic one, relocation sections — and
answers with the first fault. -/
namespace LookupTap.Elf

structure Image where
  data : Bytes
  header : Header
  segments : List Segment
  sections : List Section
  names : Option Strings
  symbols : SymbolList
  dynamicSymbols : SymbolList

namespace Image

/-- The table that holds the names of sections. -/
def nameTable (h : Header) (data : Bytes) (sections : List Section) :
    Except ElfFault (Option Strings) :=
  if sections.isEmpty then .ok none
  else
    match h.namesAt data with
    | .error e => .error e
    | .ok index =>
      if index = 0 then .error .noNameIndex
      else
        match sections[index]? with
        | none => .error .nameIndex
        | some s =>
          match s.range? with
          | none => .ok none
          | some (first, last) =>
            if s.overflows then .error .nameTableSize else .ok (some ⟨first, last⟩)

/-- The strings of a linked section; section zero means none. -/
def linkedStrings (sections : List Section) (index : Nat) :
    Except ElfFault (Option Strings) :=
  if index = 0 then .ok none
  else
    match sections[index]? with
    | none => .error .sectionIndex
    | some s =>
      if s.kind ≠ stringSection then .error .stringTableType
      else if s.overflows then .error .stringTableSize
      else .ok (some ⟨s.offset, s.offset + s.size⟩)

/-- All of a section as structures of one size. -/
def structures? (data : Bytes) (align size : Nat) (s : Section) : Option (List Bytes) :=
  match s.bytes? data with
  | none => none
  | some bs =>
    if s.kind = emptySection then some []
    else if bs.length % size = 0 then table? align size data s.offset (bs.length / size)
    else none

/-- The extended section numbers for the table at `index`: those of the last section that
has them, all of which are checked. -/
def extendedFor (h : Header) (data : Bytes) (index : Nat) (found : List Nat) :
    List Section → Except ElfFault (List Nat)
  | [] => .ok found
  | s :: rest =>
    if s.kind = extendedIndexSection ∧ s.link = index then
      match structures? data 4 4 s with
      | none => .error .extendedIndices
      | some es => extendedFor h data index (es.map h.layout.order.read) rest
    else extendedFor h data index found rest

/-- The first symbol table of a kind. -/
def symbolList (h : Header) (data : Bytes) (sections : List Section) (kind : Nat) :
    Except ElfFault SymbolList :=
  match sections.findIdx? (·.kind = kind) with
  | none => .ok {}
  | some index =>
    match sections[index]? with
    | none => .ok {}
    | some s =>
      match structures? data h.layout.word h.layout.symbolSize s with
      | none => .error .symbolTable
      | some es =>
        match linkedStrings sections s.link with
        | .error e => .error e
        | .ok strings =>
          match extendedFor h data index [] sections with
          | .error e => .error e
          | .ok extended => .ok ⟨index, es.map h.layout.symbolOf, strings, extended⟩

def isRelocation (s : Section) : Bool :=
  s.kind = relocationSection ∨ s.kind = addendSection

/-- Relocation sections for the symbols at `index` have to apply to a section that is not
one itself. The list is checked from its end. -/
def checkRelocations (sections : List Section) (index : Nat) :
    List Section → Except ElfFault Unit
  | [] => .ok ()
  | s :: rest =>
    match checkRelocations sections index rest with
    | .error e => .error e
    | .ok () =>
      if isRelocation s ∧ s.link = index ∧ s.info ≠ 0 then
        match sections[s.info]? with
        | none => .error .relocationTarget
        | some target =>
          if isRelocation target then .error .relocatedRelocations else .ok ()
      else .ok ()

def read (data : Bytes) : Except ElfFault Image := do
  let header ← Header.read data
  let segments ← header.segments data
  let sections ← header.sections data
  let names ← nameTable header data sections
  let symbols ← symbolList header data sections symbolSection
  let dynamicSymbols ← symbolList header data sections dynamicSymbolSection
  checkRelocations sections symbols.index sections
  return { data, header, segments, sections, names, symbols, dynamicSymbols }

/-- The name of a section, where its bytes are text. -/
def sectionName? (i : Image) (s : Section) : Option String :=
  match nameIn? i.names i.data s.name with
  | some bs => (Utf8.decode? bs).map String.ofList
  | none => none

end Image

/-! ### Other containers -/

/-- What a file turns out to be. The two other formats are only recognised: they have no
symbols here. -/
inductive Container where
  | elf (image : Image)
  | machO
  | coff

namespace Container

/-- Recognises a file by its first bytes, of which there have to be sixteen. -/
def read (data : Bytes) : Except ElfFault Container :=
  if data.length < 16 then .error .noMagic
  else
    match data with
    | 0x7F :: 0x45 :: 0x4C :: 0x46 :: form :: _ =>
      if form = 1 ∨ form = 2 then (Image.read data).map .elf else .error .unknownMagic
    | 0xFE :: 0xED :: 0xFA :: 0xCE :: _ => .ok .machO
    | 0xCE :: 0xFA :: 0xED :: 0xFE :: _ => .ok .machO
    | 0xFE :: 0xED :: 0xFA :: 0xCF :: _ => .ok .machO
    | 0xCF :: 0xFA :: 0xED :: 0xFE :: _ => .ok .machO
    | 0x4D :: 0x5A :: _ => .error .msDos
    | 0x64 :: 0x86 :: _ => .ok .coff
    | _ => .error .unknownMagic

end Container

end LookupTap.Elf
