import LookupTap.Elf.Layout
import LookupTap.Fault

/-! The header of an ELF file, and the tables of segments and sections that it points to.

Counts that do not fit the header stand in section zero, which is therefore read on its
own before the table it belongs to. The faults come in a fixed order, which the functions
below follow line by line. -/
namespace LookupTap.Elf

structure Header where
  layout : Layout
  segmentOffset : Nat
  sectionOffset : Nat
  segmentEntry : Nat
  segmentCount : Nat
  sectionEntry : Nat
  sectionCount : Nat
  nameIndex : Nat
  deriving DecidableEq, Repr

structure Segment where
  kind : Nat
  offset : Nat
  address : Nat
  fileSize : Nat
  deriving DecidableEq, Repr

structure Section where
  name : Nat
  kind : Nat
  flags : Nat
  address : Nat
  offset : Nat
  size : Nat
  link : Nat
  info : Nat
  deriving DecidableEq, Repr

/-! ### Kinds and flags -/

/-- A segment that is mapped from the file. -/
def loadSegment : Nat := 1

def symbolSection : Nat := 2
def stringSection : Nat := 3
def addendSection : Nat := 4
def emptySection : Nat := 8
def relocationSection : Nat := 9
def dynamicSymbolSection : Nat := 11
def extendedIndexSection : Nat := 18

/-! ### Structures -/

namespace Layout

def headerSize (l : Layout) : Nat := l.pick 64 52
def segmentSize (l : Layout) : Nat := l.pick 56 32
def sectionSize (l : Layout) : Nat := l.pick 64 40

def segmentOf (l : Layout) (bs : Bytes) : Segment where
  kind := l.read (.same 0 4) bs
  offset := l.read ⟨(8, 8), (4, 4)⟩ bs
  address := l.read ⟨(16, 8), (8, 4)⟩ bs
  fileSize := l.read ⟨(32, 8), (16, 4)⟩ bs

def sectionOf (l : Layout) (bs : Bytes) : Section where
  name := l.read (.same 0 4) bs
  kind := l.read (.same 4 4) bs
  flags := l.read ⟨(8, 8), (8, 4)⟩ bs
  address := l.read ⟨(16, 8), (12, 4)⟩ bs
  offset := l.read ⟨(24, 8), (16, 4)⟩ bs
  size := l.read ⟨(32, 8), (20, 4)⟩ bs
  link := l.read ⟨(40, 4), (24, 4)⟩ bs
  info := l.read ⟨(44, 4), (28, 4)⟩ bs

end Layout

namespace Section

/-- The first byte of the section in the file and the one after its last; nothing when the
section has no bytes there. -/
def range? (s : Section) : Option (Nat × Nat) :=
  if s.kind = emptySection then none else some (s.offset, s.offset + s.size)

/-- The bytes of the section. -/
def bytes? (s : Section) (data : Bytes) : Option Bytes :=
  if s.kind = emptySection then some [] else Bytes.slice? data s.offset s.size

/-- Past this, the end of a range is no number of 64 bits any more. -/
def overflows (s : Section) : Bool := Bytes.span 8 ≤ s.offset + s.size

end Section

/-! ### Reading -/

namespace Header

/-- The layout that the first bytes announce: form, byte order and version one. -/
def layout? (data : Bytes) : Option Layout :=
  match data with
  | 0x7F :: 0x45 :: 0x4C :: 0x46 :: form :: order :: version :: _ =>
    if (form = 1 ∨ form = 2) ∧ (order = 1 ∨ order = 2) ∧ version = 1 then
      some ⟨form = 2, if order = 1 then .little else .big⟩
    else none
  | _ => none

/-- The size of the header in the form that the fifth byte names. -/
def sizeOf (data : Bytes) : Nat := if data[4]? = some 2 then 64 else 52

def read (data : Bytes) : Except ElfFault Header :=
  if data.length < sizeOf data then .error .headerSize
  else
    match layout? data with
    | none => .error .unsupported
    | some l => .ok {
        layout := l
        segmentOffset := l.read ⟨(32, 8), (28, 4)⟩ data
        sectionOffset := l.read ⟨(40, 8), (32, 4)⟩ data
        segmentEntry := l.read ⟨(54, 2), (42, 2)⟩ data
        segmentCount := l.read ⟨(56, 2), (44, 2)⟩ data
        sectionEntry := l.read ⟨(58, 2), (46, 2)⟩ data
        sectionCount := l.read ⟨(60, 2), (48, 2)⟩ data
        nameIndex := l.read ⟨(62, 2), (50, 2)⟩ data }

/-- Section zero, where there are sections at all. -/
def sectionZero (h : Header) (data : Bytes) : Except ElfFault (Option Section) :=
  if h.sectionOffset = 0 then .ok none
  else if h.sectionEntry ≠ h.layout.sectionSize then .error .sectionEntrySize
  else
    match table? h.layout.word h.layout.sectionSize data h.sectionOffset 1 with
    | some (bs :: _) => .ok (some (h.layout.sectionOf bs))
    | _ => .error .sectionZero

/-- A count from the header, or the one in section zero that it stands for. -/
def countOr (h : Header) (data : Bytes) (inHeader : Option Nat) (inZero : Section → Nat)
    (missing : Except ElfFault Nat) : Except ElfFault Nat :=
  match inHeader with
  | some n => .ok n
  | none =>
    match h.sectionZero data with
    | .error e => .error e
    | .ok none => missing
    | .ok (some zero) => .ok (inZero zero)

/-- How many segments there are; `FFFF` in the header means more than it can say. -/
def segmentTotal (h : Header) (data : Bytes) : Except ElfFault Nat :=
  h.countOr data (if h.segmentCount < 0xFFFF then some h.segmentCount else none)
    Section.info (.error .noSectionForSegmentCount)

/-- How many sections there are; zero in the header means that section zero says. -/
def sectionTotal (h : Header) (data : Bytes) : Except ElfFault Nat :=
  h.countOr data (if h.sectionCount = 0 then none else some h.sectionCount)
    Section.size (.ok 0)

/-- The section that holds the names of sections. -/
def namesAt (h : Header) (data : Bytes) : Except ElfFault Nat :=
  h.countOr data (if h.nameIndex = 0xFFFF then none else some h.nameIndex)
    Section.link (.error .noSectionForNameIndex)

/-- A table that the header points to; none without an offset or without entries. -/
def entries (h : Header) (data : Bytes) (off size entry : Nat)
    (total : Except ElfFault Nat) (badSize badTable : ElfFault) :
    Except ElfFault (List Bytes) :=
  if off = 0 then .ok []
  else
    match total with
    | .error e => .error e
    | .ok count =>
      if count = 0 then .ok []
      else if entry ≠ size then .error badSize
      else
        match table? h.layout.word size data off count with
        | some es => .ok es
        | none => .error badTable

def segments (h : Header) (data : Bytes) : Except ElfFault (List Segment) :=
  (h.entries data h.segmentOffset h.layout.segmentSize h.segmentEntry (h.segmentTotal data)
    .segmentEntrySize .segmentTable).map fun es => es.map h.layout.segmentOf

def sections (h : Header) (data : Bytes) : Except ElfFault (List Section) :=
  (h.entries data h.sectionOffset h.layout.sectionSize h.sectionEntry (h.sectionTotal data)
    .sectionEntrySize .sectionTable).map fun es => es.map h.layout.sectionOf

end Header

end LookupTap.Elf
