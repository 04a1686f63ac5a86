import LookupTap.Elf.Image
import LookupTap.Fault
import LookupTap.Keyed
import LookupTap.Probe

/-! The maps and programs of an object file.

A section's name decides what it is for. The license and the version are checked first and
symbols have to have names; after that the sections are taken in order. A section of maps
holds a definition for each object symbol in it; a section of common code has to be covered
by its functions; any other section with executable bytes holds programs of one kind, one
for each function, and a later program replaces an earlier one of its name. -/
namespace LookupTap.Artifact

/-! ### Maps -/

/-- What kind of buffer a map is, if it is one. -/
inductive MapKind where
  | ring
  | perf
  | other
  deriving DecidableEq, Repr

def MapKind.ofNumber (n : Nat) : MapKind :=
  if n = 27 then ring else if n = 4 then perf else other

/-- The bytes that a definition has at least. -/
def leastMapSize : Nat := 20

/-- The kind of the map that a symbol defines in its section. -/
def mapKind? (order : ByteOrder) (data : Bytes) (s : Elf.Symbol) : Option MapKind :=
  match Bytes.slice? data s.value s.size with
  | some bs =>
    if bs.length < leastMapSize then none else some (.ofNumber (order.read (bs.take 4)))
  | none => none

/-! ### Programs -/

/-- A program: its name, which probe it is if it is one, and the section it came from. -/
structure Program where
  name : String
  kind : Option Probe.Kind
  home : String
  deriving DecidableEq, Repr

/-- Whether the rest of a section's name, cut at its slashes, is one that a kind allows. -/
inductive Rest where
  | anything
  | nothingOr (names : List String)
  | oneOf (names : List String)

def Rest.allows : Rest → List String → Bool
  | anything, _ => true
  | nothingOr _, [] => true
  | nothingOr names, name :: _ => names.contains name
  | oneOf _, [] => false
  | oneOf names, name :: _ => names.contains name

/-- The kinds of programs by the first part of the section's name, with what may follow. -/
def sectionKinds : List (String × Rest × Option Probe.Kind) :=
  [("uprobe", .anything, some .entry), ("uprobe.s", .anything, some .entry),
    ("uretprobe", .anything, some .exit), ("uretprobe.s", .anything, some .exit),
    ("kprobe", .anything, none), ("kretprobe", .anything, none),
    ("xdp", .nothingOr ["cpumap", "devmap"], none),
    ("xdp.frags", .nothingOr ["cpumap", "devmap"], none),
    ("tp_btf", .anything, none), ("tracepoint", .anything, none), ("tp", .anything, none),
    ("socket", .anything, none), ("sk_msg", .anything, none),
    ("sk_skb", .oneOf ["stream_parser", "stream_verdict"], none), ("sockops", .anything, none),
    ("classifier", .anything, none), ("cgroup_skb", .oneOf ["ingress", "egress"], none),
    ("cgroup", .oneOf ["skb", "sysctl", "dev", "getsockopt", "setsockopt", "sock", "post_bind4",
      "post_bind6", "sock_create", "sock_release", "bind4", "bind6", "connect4", "connect6",
      "getpeername4", "getpeername6", "getsockname4", "getsockname6", "sendmsg4", "sendmsg6",
      "recvmsg4", "recvmsg6"], none),
    ("lirc_mode2", .anything, none), ("perf_event", .anything, none),
    ("raw_tp", .anything, none), ("raw_tracepoint", .anything, none),
    ("lsm", .anything, none), ("lsm.s", .anything, none), ("fentry", .anything, none),
    ("fentry.s", .anything, none), ("fexit", .anything, none), ("fexit.s", .anything, none),
    ("freplace", .anything, none), ("sk_lookup", .anything, none), ("iter", .anything, none),
    ("iter.s", .anything, none)]

/-- Which probe the programs of a section are; nothing when the name is of no kind. -/
def programKind? (home : String) : Option (Option Probe.Kind) :=
  match (home.toList.splitOn '/').map String.ofList with
  | [] => none
  | first :: rest =>
    match Keyed.get? first sectionKinds with
    | some (allowed, kind) => if allowed.allows rest then some kind else none
    | none => none

/-! ### The object -/

structure Object where
  maps : List (String × MapKind) := []
  programs : List (String × Program) := []
  deriving DecidableEq, Repr

namespace Object

/-- A section under its number, with its name and bytes. -/
structure Part where
  index : Nat
  name : String
  data : Bytes
  header : Elf.Section

def partAt (i : Elf.Image) (index : Nat) (s : Elf.Section) : Except ObjectFault Part :=
  match i.sectionName? s, s.bytes? i.data with
  | some name, some data => .ok ⟨index, name, data, s⟩
  | _, _ => .error (.sectionData index)

/-- The sections after the null section, with their numbers. -/
def numbered (i : Elf.Image) : List (Nat × Elf.Section) :=
  i.sections.tail.zipIdx 1 |>.map fun (s, n) => (n, s)

/-- The first section of a name. -/
def named (i : Elf.Image) (name : String) : Except ObjectFault (Option Bytes) :=
  match (numbered i).find? fun (_, s) => i.sectionName? s = some name with
  | none => .ok none
  | some (index, s) => (partAt i index s).map fun p => some p.data

/-- A license is text with a NUL at its end and nowhere else. -/
def checkLicense (data : Bytes) : Except ObjectFault Unit :=
  if data.length < 2 then .error (.license data)
  else if data.getLast? ≠ some 0 then .error (.unterminatedLicense data)
  else if data.dropLast.contains 0 then .error (.license data)
  else .ok ()

def checkVersion (data : Bytes) : Except ObjectFault Unit :=
  if data.length = 4 then .ok () else .error (.kernelVersion data)

/-- A symbol with its number and its name. -/
structure Label where
  number : Nat
  name : String
  symbol : Elf.Symbol
  home : Option Nat

/-- All symbols, each of which has to have a name. -/
def labels (i : Elf.Image) : Except ObjectFault (List Label) :=
  i.symbols.numbered.mapM fun (number, s) =>
    match i.symbols.name? i.data s with
    | some name => .ok ⟨number, name, s, i.symbols.sectionIndex? number s⟩
    | none => .error .symbolName

def inPart (p : Part) (ls : List Label) : List Label := ls.filter (·.home = some p.index)

/-! ### Sections by name -/

/-- Flags of bytes that are in memory and of bytes that are executed. -/
def executable (s : Elf.Section) : Bool :=
  s.kind = 1 ∧ s.flags / 2 % 2 = 1 ∧ s.flags / 4 % 2 = 1

/-- Adds the maps of a section. -/
def addMaps (order : ByteOrder) (p : Part) (o : Object) :
    List Label → Except ObjectFault Object
  | [] => .ok o
  | l :: rest =>
    if l.symbol.kind ≠ Elf.Symbol.objectKind then addMaps order p o rest
    else
      match mapKind? order p.data l.symbol with
      | none => .error (.mapDefinition l.name)
      | some kind => addMaps order p { o with maps := Keyed.put l.name kind o.maps } rest

/-- Adds the programs of a section. -/
def addPrograms (p : Part) (kind : Option Probe.Kind) (o : Object) :
    List Label → Except ObjectFault Object
  | [] => .ok o
  | l :: rest =>
    if l.symbol.isFunction ∧ l.name ≠ "" then
      if l.symbol.size % 8 ≠ 0 then .error .programCode
      else
        let programs := Keyed.put l.name ⟨l.name, kind, p.name⟩ o.programs
        addPrograms p kind { o with programs } rest
    else addPrograms p kind o rest

/-- The first of the functions at whose address another one is. -/
def shared? : List Label → Option Label
  | [] => none
  | l :: rest =>
    if rest.any (·.symbol.value = l.symbol.value) then some l else shared? rest

/-- Common code has to be functions end to end, from `offset` on. -/
def checkCode (p : Part) (functions : List Label) (fuel offset : Nat) :
    Except ObjectFault Unit :=
  match fuel with
  | 0 => .ok ()
  | fuel + 1 =>
    if p.data.length ≤ offset then .ok ()
    else
      let address := p.header.address + offset
      match functions.find? (·.symbol.value = address) with
      | none => .error (.unknownSymbol p.index address)
      | some l =>
        if l.symbol.size = 0 then .error (.emptySymbol l.number l.name)
        else if l.symbol.size % 8 ≠ 0 then .error .programCode
        else checkCode p functions fuel (offset + l.symbol.size)

/-- Takes in one section, by its name. -/
def addPart (order : ByteOrder) (ls : List Label) (o : Object) (p : Part) :
    Except ObjectFault Object :=
  let here := inPart p ls
  let starts (lead : String) : Bool := p.name.startsWith lead
  if starts "license" ∨ starts "version" then .ok o
  else if starts "maps" then
    if here.isEmpty then .error .noMapSymbols else addMaps order p o here
  else if starts ".maps" then .ok o
  else if starts ".text" then
    let functions := here.filter (·.symbol.kind = Elf.Symbol.functionKind)
    match shared? functions with
    | some l => .error (.sharedAddress p.index l.symbol.value)
    | none => (checkCode p functions (p.data.length + 1) 0).map fun () => o
  else if starts ".bss" ∨ starts ".data" ∨ starts ".rodata" then .ok o
  else if p.name = ".BTF" ∨ p.name = ".BTF.ext" then .ok o
  else if executable p.header ∧ 0 < p.header.size then
    match programKind? p.name with
    | none => .error (.programSection p.name)
    | some kind =>
      if here.isEmpty then .error (.noSymbols p.name) else addPrograms p kind o here
  else .ok o

/-- Takes in sections in order, up to the first fault. -/
def addParts (i : Elf.Image) (ls : List Label) (o : Object) :
    List (Nat × Elf.Section) → Except ObjectFault Object
  | [] => .ok o
  | (index, s) :: rest =>
    match partAt i index s with
    | .error e => .error e
    | .ok p =>
      match addPart i.header.layout.order ls o p with
      | .error e => .error e
      | .ok o => addParts i ls o rest

def ofImage (i : Elf.Image) : Except ObjectFault Object := do
  if let some data ← named i "license" then checkLicense data
  if let some data ← named i "version" then checkVersion data
  let ls ← labels i
  addParts i ls {} (numbered i)

/-- Reads an object file. The containers that are only recognised have nothing in them. -/
def read (data : Bytes) : Except ObjectFault Object :=
  match Elf.Container.read data with
  | .error e => .error (.elf e)
  | .ok (.elf image) => ofImage image
  | .ok _ => .ok {}

end Object

end LookupTap.Artifact
