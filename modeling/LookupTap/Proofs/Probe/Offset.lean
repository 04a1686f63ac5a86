import LookupTap.Artifact
import LookupTap.Proofs.Probe.Pass
import LookupTap.Proofs.Resolver.Snapshot

/-! Where the kernel puts the probes of a pass.

A pass hands the kernel the value of the symbol that the library defines under a probe's target,
as it stands in the symbol table (`offsets_are_values`). The kernel takes it for a position in the
file. A segment gives the byte at one address another position, unless it starts at the same
number in memory and in the file; so the probe is where its function is just when that is so. -/
namespace LookupTap

namespace Elf.Segment

/-- The segment puts bytes of the file at the address. -/
def Maps (s : Segment) (address : Nat) : Prop :=
  s.kind = loadSegment ∧ s.address ≤ address ∧ address < s.address + s.fileSize

/-- Where in the file the byte is that the segment puts at the address. -/
def position (s : Segment) (address : Nat) : Nat := address - s.address + s.offset

theorem eq_position_iff {s : Segment} {address : Nat} (h : s.Maps address) :
    address = s.position address ↔ s.address = s.offset := by
  obtain ⟨_, hstart, _⟩ := h
  unfold position
  omega

end Elf.Segment

/-! ### What the kernel is asked for -/

/-- Where the program of an attachment runs. -/
def Kernel.Attachment.place (x : Kernel.Attachment) : String × Nat := (x.library, x.offset)

namespace Artifact

theorem askSteps_attachments (k : Kernel) (calls : List (Kernel.Call × AttachStep)) :
    (askSteps k calls).2.attachments = k.attachments := by
  induction calls generalizing k with
  | nil => rfl
  | cons call rest ih =>
    obtain ⟨call, step⟩ := call
    have hask : (k.ask call).2.attachments = k.attachments := rfl
    unfold askSteps
    split
    · next e k' hrefused => rw [← hask, hrefused]
    · next k' hpassed => rw [ih, ← hask, hpassed]

theorem loadProgram_attachments (a : Artifact) (k : Kernel) (name : String) :
    (a.loadProgram k name).2.2.attachments = k.attachments := by
  have hask : (k.ask .loadProgram).2.attachments = k.attachments := rfl
  unfold loadProgram
  split
  · rfl
  · split
    · next e k' hrefused => rw [← hask, hrefused]
    · next k' hpassed => rw [← hask, hpassed]

/-- What an attempt leaves in the kernel: one attachment at the place that was asked for, or, if
it fails, what was there. -/
theorem attach_attachments (a : Artifact) (k : Kernel) (p : Probe) (library : String)
    (offset : Nat) :
    ((attach a k p library offset).answer = .ok () ∧ ∃ kind,
        (attach a k p library offset).state.2.attachments =
          k.attachments ++ [⟨kind, library, offset⟩]) ∨
      (∃ e, (attach a k p library offset).answer = .error e) ∧
        (attach a k p library offset).state.2.attachments = k.attachments := by
  unfold attach
  split
  · exact .inr ⟨⟨_, rfl⟩, rfl⟩
  · next kind hkind =>
    have hload := loadProgram_attachments a k p.program
    split
    · next cause a' k' hrefused =>
      rw [hrefused] at hload
      exact .inr ⟨⟨_, rfl⟩, hload⟩
    · next a' k' hloaded =>
      rw [hloaded] at hload
      have hsteps := askSteps_attachments k' (attachCalls kind)
      split
      · next cause k'' hrefused =>
        rw [hrefused] at hsteps
        exact .inr ⟨⟨_, rfl⟩, hsteps.trans hload⟩
      · next k'' hpassed =>
        rw [hpassed] at hsteps
        refine .inl ⟨rfl, kind, ?_⟩
        rw [hsteps, hload]

/-- Attachments that all work stand in the kernel in their order. -/
theorem attaches_places {library : String} {s s' : Artifact × Kernel}
    {attached : List Probe.Attachment} (h : Probe.Attaches host library s attached s') :
    s'.2.attachments.map (·.place) =
      s.2.attachments.map (·.place) ++ attached.map fun x => (library, x.offset) := by
  induction h with
  | none => exact (List.append_nil _).symm
  | @next s x rest s' hworks _ ih =>
    obtain ⟨_, kind, hadded⟩ | ⟨⟨e, hfails⟩, _⟩ :=
      attach_attachments s.1 s.2 x.probe library x.offset
    · have hplace : (host.attach s x.probe library x.offset).state.2.attachments.map (·.place) =
          s.2.attachments.map (·.place) ++ [(library, x.offset)] := by
        rw [host, hadded, List.map_append]
        rfl
      rw [ih, hplace, List.append_assoc, List.map_cons, List.singleton_append]
    · cases hworks.symm.trans hfails

end Artifact

namespace Probe

variable {ρ : Type}

/-- A walk that was stopped by a refusal has nothing of the refused probe in the kernel. -/
theorem stopped_places {library : String} {before : Artifact × Kernel}
    {w : Walk (Artifact × Kernel) ρ} (h : w.Stopped Artifact.host library before) :
    w.host.2.attachments = before.2.attachments := by
  unfold Walk.Stopped at h
  split at h
  · rw [h]
  · next x _ =>
    obtain ⟨e, _, hfails, hhost⟩ := h
    obtain ⟨hworks, _⟩ | ⟨_, hsame⟩ :=
      Artifact.attach_attachments before.1 before.2 x.probe library x.offset
    · cases hworks.symm.trans hfails
    · rw [hhost]
      exact hsame

end Probe

/-! ### What the resolver answers -/

/-- A cache that has, for the path, this table or none. -/
def SymbolCache.Agrees (path : String) (t : SymbolTable) (c : SymbolCache) : Prop :=
  Keyed.get? (Path.parts path) c.tables = none ∨ Keyed.get? (Path.parts path) c.tables = some t

/-- While a path reads the same, a cache answers as the table read there. -/
theorem SymbolCache.Agrees.resolve {read : Reading} {path : String} {data : Bytes}
    {t : SymbolTable} {c : SymbolCache} (h : c.Agrees path t) (hread : read path = .ok data)
    (hparse : SymbolTable.parse path data = .ok t) (symbol : String) :
    (c.resolve read path symbol).answer = t.resolve path symbol ∧
      (c.resolve read path symbol).state.Agrees path t := by
  have hload : SymbolCache.load read path = .ok t := by
    rw [SymbolCache.load, hread]
    exact hparse
  rcases h with hnone | hsome
  · rw [SymbolCache.resolve_loaded hnone hload]
    refine ⟨rfl, .inr ?_⟩
    rw [Keyed.get?_put, if_pos rfl]
  · rw [SymbolCache.resolve_kept hsome]
    exact ⟨rfl, .inr hsome⟩

namespace Probe

/-- **The kernel is handed the values of symbols.** Whatever the library's program headers say, a
probe is placed at the value of the first symbol that is defined under its target, and at that
number in the file. This is the position of the byte that a segment maps at the value just when
the segment starts at the same number in the file as in memory. -/
theorem offsets_are_values (reads : Nat → Reading) (library : String) (data : Bytes)
    (image : Elf.Image) (hread : ∀ n, reads n library = .ok data)
    (himage : Elf.Container.read data = .ok (.elf image))
    (a : Artifact) (k : Kernel) (declared : List Probe) :
    let resolver := Resolver.caching reads
    let w := (pass Artifact.host resolver library (a, k) (0, {}) declared).2
    (∀ name symbol, image.defined? name = some symbol →
      (resolver.resolve (0, {}) library name).answer = .ok symbol.value ∧
        ∀ s ∈ image.segments, s.Maps symbol.value →
          (symbol.value = s.position symbol.value ↔ s.address = s.offset)) ∧
    w.host.2.attachments.map (·.place) =
      k.attachments.map (·.place) ++ w.attached.map (fun x => (library, x.offset)) ∧
    ∀ x ∈ w.attached, ∃ symbol, image.defined? x.probe.target = some symbol ∧
      x.offset = symbol.value := by
  intro resolver w
  have hparse := SymbolTable.parse_elf himage library
  have hagrees : ∀ n (c : SymbolCache) name, c.Agrees library (.ofImage image) →
      (c.resolve (reads n) library name).answer = (SymbolTable.ofImage image).resolve library name ∧
        (c.resolve (reads n) library name).state.Agrees library (.ofImage image) :=
    fun n c name h => h.resolve (hread n) hparse name
  refine ⟨fun name symbol hdefined => ⟨?_, fun s _ hmaps => Elf.Segment.eq_position_iff hmaps⟩,
    ?_, ?_⟩
  · refine (hagrees 0 {} name (.inl rfl)).1.trans ?_
    rw [SymbolTable.resolve_ofImage, hdefined]
  · obtain ⟨before, hattaches, hstopped⟩ :=
      pass_attaches Artifact.host resolver library (a, k) (0, {}) declared
    rw [stopped_places hstopped]
    exact Artifact.attaches_places hattaches
  · obtain ⟨_, lines, hw⟩ := pass_walk Artifact.host resolver library (a, k) (0, {}) declared
    simp only [w, hw]
    refine fun x hx => walk_tried_of_answers Artifact.host resolver library
      (fun r : Nat × SymbolCache => r.2.Agrees library (.ofImage image))
      (fun name offset => ∃ symbol, image.defined? name = some symbol ∧ offset = symbol.value)
      ?_ ?_ (a, k) (0, {}) (.inl rfl) declared x (List.mem_append_left _ hx)
    · exact fun r target h => (hagrees r.1 r.2 target h).2
    · intro r target offset h hanswer
      have htable := (hagrees r.1 r.2 target h).1.symm.trans hanswer
      rw [SymbolTable.resolve_ofImage] at htable
      cases hdefined : image.defined? target with
      | none =>
        rw [hdefined] at htable
        cases htable
      | some symbol =>
        rw [hdefined] at htable
        cases htable
        exact ⟨symbol, rfl, rfl⟩

/-! ### A library that is moved in memory -/

/-- A shared object of one segment, which starts at 0 in the file and at 10000 in memory. Its one
symbol is the function `f` at 10078, so the code of `f` is byte 78 of the file. -/
def moved : Bytes :=
  let code : Bytes := [0xC3, 0, 0, 0, 0, 0, 0, 0]
  let names : Bytes := [0, 0x66, 0, 0, 0, 0, 0, 0]
  let symbols : List Elf.Symbol := [⟨0, 0, 0, 0, 0⟩, ⟨1, 0x10078, 8, 0x12, 1⟩]
  Elf.written 3 62 [⟨Elf.loadSegment, 0, 0x10000, 440⟩]
    (code ++ names ++ symbols.flatMap Elf.Symbol.written)
    [⟨0, 0, 0, 0, 0, 0, 0, 0⟩, ⟨0, 1, 6, 0x10078, 120, 8, 0, 0⟩,
      ⟨0, Elf.symbolSection, 0, 0, 136, 48, 3, 1⟩, ⟨0, Elf.stringSection, 0, 0, 128, 8, 0, 0⟩]

set_option maxRecDepth 20000 in
theorem read_moved : ∃ image, Elf.Container.read moved = .ok (.elf image) ∧
    image.segments = [⟨Elf.loadSegment, 0, 0x10000, 440⟩] ∧
    image.defined? "f" = some ⟨1, 0x10078, 8, 0x12, 1⟩ :=
  ⟨_, rfl, rfl, rfl⟩

/-- An artifact with one program, for `f`. -/
def enterF : Artifact := { programs := [("enter_f", ⟨"enter_f", some .entry, "uprobe/f"⟩)] }

/-- A pass of that artifact over the moved library. -/
def passMoved : Walk (Artifact × Kernel) (Nat × SymbolCache) :=
  (pass Artifact.host (.caching fun _ _ => .ok moved) "libf.so" (enterF, {}) (0, {})
    [⟨"enter_f", "uprobe/f", .entry, "f"⟩]).2

set_option maxRecDepth 20000 in
theorem offsets_are_values_moved :
    ((Resolver.caching fun _ _ => .ok moved).resolve (0, {}) "libf.so" "f").answer = .ok 0x10078 ∧
      passMoved.host.2.attachments.map (·.place) = [("libf.so", 0x10078)] := by
  obtain ⟨image, himage, _, hdefined⟩ := read_moved
  obtain ⟨hresolved, hplaces, _⟩ := offsets_are_values (fun _ _ => .ok moved) "libf.so" moved image
    (fun _ => rfl) himage enterF {} [⟨"enter_f", "uprobe/f", .entry, "f"⟩]
  have hattached : passMoved.attached.map (fun x => ("libf.so", x.offset)) =
      [("libf.so", 0x10078)] := by decide +kernel
  exact ⟨(hresolved "f" _ hdefined).1, hplaces.trans hattached⟩

set_option maxRecDepth 20000 in
/-- The segment of the moved library has the byte 78 of the file at the value of `f`, and the
kernel is handed 10078, which is behind the end of the file. -/
theorem passMoved_off_position :
    ∃ image symbol s, Elf.Container.read moved = .ok (.elf image) ∧
      image.defined? "f" = some symbol ∧ s ∈ image.segments ∧ s.Maps symbol.value ∧
      s.position symbol.value = 0x78 ∧ moved.length = 440 ∧
      passMoved.host.2.attachments.map (·.place) = [("libf.so", 0x10078)] := by
  obtain ⟨image, himage, hsegments, hdefined⟩ := read_moved
  refine ⟨image, _, _, himage, hdefined, hsegments ▸ List.mem_singleton_self _,
    ⟨rfl, by decide, by decide⟩, rfl, rfl, ?_⟩
  decide +kernel

end Probe

end LookupTap
