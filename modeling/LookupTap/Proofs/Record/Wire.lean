import LookupTap.Proofs.Address.Text
import LookupTap.Proofs.Text.Utf8
import LookupTap.Pump.Handle
import Mathlib.Data.List.TakeWhile

/-! The lookup record, on the wire and off it.

A buffer is a record just when it is long enough, and writing the record that was read gives back
the bytes it was read from; nothing that stands behind them matters (`decode_encode_append`). The
host that a record is about is a run of its bytes (`Record.octets`): four for an `Ip4`, in either
of the places where one can stand, and sixteen for an `Ip6`. These are the bytes of the address
that a tracker is handed (`octets_source`), and a name that was written in UTF-8 is handed over as
it was, whatever stands behind its NUL (`host_of_named`). -/
namespace LookupTap

/-! ### The bytes of an address -/

namespace Ip6

theorem split_group (high low : UInt8) : split (group high low) = (high, low) := by
  have hhigh : high.toNat < 256 := high.toNat_lt
  have hlow : low.toNat < 256 := low.toNat_lt
  unfold split group
  congr 1
  · apply UInt8.toNat_inj.mp
    simp
    omega
  · apply UInt8.toNat_inj.mp
    simp

theorem split_eq_iff {g : UInt16} {high low : UInt8} :
    (split g).1 = high ∧ (split g).2 = low ↔ g = group high low := by
  constructor
  · rintro ⟨rfl, rfl⟩
    exact (group_split g).symm
  · rintro rfl
    rw [split_group]
    exact ⟨rfl, rfl⟩

theorem ofBytes?_toBytes (ip : Ip6) : ofBytes? ip.toBytes = some ip := by
  simp [ofBytes?, toBytes, toList, groups, group_split, ofList?]

/-- Sixteen bytes are those of an address. -/
theorem exists_toBytes {bs : Bytes} (h : bs.length = addressSize) : ∃ ip : Ip6, ip.toBytes = bs := by
  match bs, h with
  | [a, b, c, d, e, f, g, h, i, j, k, l, m, n, o, p], _ =>
    exact ⟨⟨group a b, group c d, group e f, group g h, group i j, group k l, group m n, group o p⟩,
      by simp [toBytes, toList, split_group]⟩

theorem length_toBytes (ip : Ip6) : ip.toBytes.length = addressSize := rfl

end Ip6

/-- What stands before an `Ip4` in the sixteen bytes of an address that spells it. -/
def mappedLead : Bytes := [0, 0, 0, 0, 0, 0, 0, 0, 0, 0, 0xFF, 0xFF]

/-- An address spells an `Ip4` just when its bytes are the lead and that `Ip4`. -/
theorem Ip6.mapped?_eq_some_iff {ip : Ip6} {w : Ip4} :
    ip.mapped? = some w ↔ ip.toBytes = mappedLead ++ w.toList := by
  obtain ⟨g0, g1, g2, g3, g4, g5, g6, g7⟩ := ip
  obtain ⟨a, b, c, d⟩ := w
  have hzero : (0 : UInt16) = group 0 0 := by decide
  have hones : (0xFFFF : UInt16) = group 0xFF 0xFF := by decide
  simp only [mapped?, hzero, hones, ← split_eq_iff, toBytes, toList, mappedLead, Ip4.toList]
  split
  · next hlead => simp [hlead]
  · next hother =>
    constructor
    · intro h
      cases h
    · intro h
      simp at h
      grind

namespace Address

/-- The bytes of an address: four or sixteen. -/
def octets : Address → Bytes
  | v4 ip => ip.toList
  | v6 ip => ip.toBytes

/-- An address is told by its bytes. -/
theorem octets_inj {a b : Address} : a.octets = b.octets ↔ a = b := by
  refine ⟨fun h => ?_, congrArg octets⟩
  cases a with
  | v4 ip =>
    cases b with
    | v4 ip' =>
      have hread := congrArg Ip4.ofList? h
      exact congrArg v4 (Option.some.inj hread)
    | v6 ip' =>
      have hlength := congrArg List.length h
      cases hlength
  | v6 ip =>
    cases b with
    | v4 ip' =>
      have hlength := congrArg List.length h
      cases hlength
    | v6 ip' =>
      have hread := congrArg Ip6.ofBytes? h
      simp only [octets, Ip6.ofBytes?_toBytes] at hread
      exact congrArg v6 (Option.some.inj hread)

end Address

theorem Ip4.exists_toList {bs : Bytes} (h : bs.length = 4) : ∃ ip : Ip4, ip.toList = bs := by
  match bs, h with
  | [a, b, c, d], _ => exact ⟨⟨a, b, c, d⟩, rfl⟩

/-! ### The host of a record -/

namespace Record

/-- The bytes of the host that a record is about, as they stand in it. -/
def octets (r : Record) : Bytes :=
  if r.family = inet then r.address.take 4
  else if r.address.take 12 = mappedLead then r.address.drop 12
  else r.address

theorem octets_source (r : Record) : r.source.octets = r.octets := by
  unfold source octets
  split
  · have hlength : (r.address.take 4).length = 4 := by
      rw [List.length_take, r.length_address]
      rfl
    obtain ⟨ip, hip⟩ := Ip4.exists_toList hlength
    rw [← hip, Ip4.ofList?_toList]
    rfl
  · obtain ⟨ip, hip⟩ := Ip6.exists_toBytes r.length_address
    rw [← hip, Ip6.ofBytes?_toBytes]
    simp only [Address.unmapped]
    cases hmapped : ip.mapped? with
    | some w =>
      rw [Ip6.mapped?_eq_some_iff.mp hmapped]
      rfl
    | none =>
      rw [if_neg]
      · rfl
      · intro hlead
        -- what follows the lead are four bytes, so the address would be a spelling of them
        have hlength : (ip.toBytes.drop 12).length = 4 := by
          rw [List.length_drop, ip.length_toBytes]
          rfl
        obtain ⟨w, hw⟩ := Ip4.exists_toList hlength
        have hsome : ip.mapped? = some w := by
          rw [Ip6.mapped?_eq_some_iff, hw, ← hlead, List.take_append_drop]
        cases hmapped.symm.trans hsome

/-- The bytes in front of the first NUL of a field: alone, or before a NUL and anything. -/
def FrontOf (front field : Bytes) : Prop :=
  0 ∉ front ∧ (field = front ∨ ∃ garbage, field = front ++ 0 :: garbage)

theorem frontOf_iff {front field : Bytes} :
    FrontOf front field ↔ field.takeWhile (· ≠ 0) = front := by
  constructor
  · rintro ⟨hnul, hfield⟩
    have hfront : ∀ b ∈ front, decide (b ≠ 0) = true := fun b hb =>
      decide_eq_true fun hzero => hnul (hzero ▸ hb)
    obtain rfl | ⟨garbage, rfl⟩ := hfield
    · exact List.takeWhile_eq_self_iff.mpr hfront
    · rw [List.takeWhile_append_of_pos hfront, List.takeWhile_cons_of_neg (by simp),
        List.append_nil]
  · rintro rfl
    refine ⟨fun hzero => by simpa using List.mem_takeWhile_imp hzero, ?_⟩
    have hsplit : field.takeWhile (· ≠ 0) ++ field.dropWhile (· ≠ 0) = field :=
      List.takeWhile_append_dropWhile
    cases hbehind : field.dropWhile (· ≠ 0) with
    | nil =>
      rw [hbehind, List.append_nil] at hsplit
      exact .inl hsplit.symm
    | cons b garbage =>
      have hzero := List.head?_dropWhile_not (· ≠ 0) field
      rw [hbehind] at hsplit hzero
      obtain rfl : b = 0 := by simpa using hzero
      exact .inr ⟨garbage, hsplit.symm⟩

theorem host_of_front {r : Record} {front : Bytes} (h : FrontOf front r.name) :
    r.host = String.ofList (Utf8.lossy front) := by
  rw [host, frontOf_iff.mp h]

/-- The text stands in the field of a name: alone, or before a NUL and anything. -/
def Named (host : String) (name : Bytes) : Prop :=
  name = Utf8.encode host.toList ∨ ∃ garbage, name = Utf8.encode host.toList ++ 0 :: garbage

theorem host_of_named {r : Record} {host : String} (hnul : '\x00' ∉ host.toList)
    (h : Named host r.name) : r.host = host := by
  have hfront : FrontOf (Utf8.encode host.toList) r.name := ⟨mt Utf8.zero_mem_encode.mp hnul, h⟩
  rw [host_of_front hfront, Utf8.lossy_encode, String.ofList_toList]

/-! ### Reading and writing -/

theorem length_encode (r : Record) : r.encode.length = recordSize := by
  rw [encode, List.length_append, List.length_append, Bytes.length_ofNat, r.length_address,
    r.length_name]
  rfl

theorem encode_inj {r r' : Record} : r.encode = r'.encode ↔ r = r' := by
  refine ⟨fun h => ?_, congrArg encode⟩
  obtain ⟨hfront, hname⟩ := List.append_inj' h (r.length_name.trans r'.length_name.symm)
  obtain ⟨hfamily, haddress⟩ := List.append_inj' hfront (r.length_address.trans r'.length_address.symm)
  have hnumber := congrArg Bytes.toNat hfamily
  rw [Bytes.toNat_ofNat 4 _ r.family.toNat_lt, Bytes.toNat_ofNat 4 _ r'.family.toNat_lt] at hnumber
  obtain ⟨family, address, name, _, _⟩ := r
  obtain ⟨family', address', name', _, _⟩ := r'
  obtain rfl : family = family' := UInt32.toNat_inj.mp hnumber
  obtain rfl : address = address' := haddress
  obtain rfl : name = name' := hname
  rfl

theorem decode_short {bs : Bytes} (h : bs.length < recordSize) :
    decode bs = .error ⟨recordSize, bs.length⟩ := dif_pos h

theorem decode_long {bs : Bytes} (h : recordSize ≤ bs.length) : ∃ r, decode bs = .ok r :=
  ⟨_, dif_neg (Nat.not_lt.mpr h)⟩

theorem decode_isOk_iff {bs : Bytes} : (∃ r, decode bs = .ok r) ↔ recordSize ≤ bs.length := by
  refine ⟨fun ⟨r, h⟩ => Nat.not_lt.mp fun hshort => ?_, decode_long⟩
  cases (decode_short hshort).symm.trans h

/-- A record is read back from the front of any buffer. -/
theorem decode_encode_append (r : Record) (tail : Bytes) : decode (r.encode ++ tail) = .ok r := by
  have hlong : recordSize ≤ (r.encode ++ tail).length := by
    rw [List.length_append, r.length_encode]
    exact Nat.le_add_right _ _
  obtain ⟨r', h⟩ := decode_long hlong
  rw [h]
  have hsame := encode_decode h
  rw [List.take_left' r.length_encode] at hsame
  rw [encode_inj.mp hsame]

end Record

namespace Pump
variable {σ : Type}

/-- A buffer that holds a record costs one line and one call of the tracker. -/
theorem handle_decoded (tracker : Tracker σ) (s : σ) {buffer : Bytes} {r : Record}
    (h : Record.decode buffer = .ok r) :
    handle tracker s buffer =
      { state := (tracker.accept s r.resolution).state
        lines := lookupLine r :: (tracker.accept s r.resolution).lines
        resolution := some r.resolution
        crash := (tracker.accept s r.resolution).crash } := by
  rw [handle, h]

theorem handle_short (tracker : Tracker σ) (s : σ) {buffer : Bytes}
    (h : buffer.length < recordSize) :
    handle tracker s buffer =
      { state := s, lines := [truncatedLine ⟨recordSize, buffer.length⟩] } := by
  rw [handle, Record.decode_short h]

/-- **A record is read as it was written, and costs one call.** A buffer holds a record just when it
has 272 bytes: then what was read, written again, is the first 272 of them, and any other bytes may
stand behind these; else the fault says how many there are, and the tracker is not called.

Whatever family, address and text are written, with anything behind the NUL of the text and behind
the record, the tracker is called once, with that text and with the address that stands in the first
four bytes of the field, in the last four behind the lead of a spelled `Ip4`, or in all sixteen. -/
theorem record_for_call (buffer : Bytes) (family : UInt32) (address name tail : Bytes)
    (host : String) (haddress : address.length = 16) (hname : name.length = 252)
    (hnul : '\x00' ∉ host.toList) (hnamed : Record.Named host name) :
    ((∃ r, Record.decode buffer = .ok r) ↔ 272 ≤ buffer.length) ∧
    (∀ r, Record.decode buffer = .ok r →
      Bytes.ofNat 4 r.family.toNat ++ r.address ++ r.name = buffer.take 272 ∧
        ∀ more, Record.decode (buffer.take 272 ++ more) = .ok r) ∧
    (buffer.length < 272 → Record.decode buffer = .error ⟨272, buffer.length⟩ ∧
      ∀ {σ : Type} (tracker : Tracker σ) (s : σ), handle tracker s buffer =
        { state := s, lines := [truncatedLine ⟨272, buffer.length⟩] }) ∧
    ∃ a : Address,
      a.octets = (if family = 2 then address.take 4
        else if address.take 12 = mappedLead then address.drop 12
        else address) ∧
      (∀ {σ : Type} (tracker : Tracker σ) (s : σ),
        handle tracker s (Bytes.ofNat 4 family.toNat ++ address ++ name ++ tail) =
          { state := (tracker.accept s ⟨a, host⟩).state
            lines := ⟨.debug, .pump, s!"LOOKUP family={family.toNat} {host} -> {a.text}"⟩ ::
              (tracker.accept s ⟨a, host⟩).lines
            resolution := some ⟨a, host⟩
            crash := (tracker.accept s ⟨a, host⟩).crash }) ∧
      ∀ calls, (handle Tracker.recorder calls
          (Bytes.ofNat 4 family.toNat ++ address ++ name ++ tail)).state =
        calls ++ [(a.text, host)] := by
  let r : Record := ⟨family, address, name, haddress, hname⟩
  have hhost : r.host = host := Record.host_of_named hnul hnamed
  have hhandle : ∀ {σ : Type} (tracker : Tracker σ) (s : σ),
      handle tracker s (Bytes.ofNat 4 family.toNat ++ address ++ name ++ tail) = _ :=
    fun tracker s => handle_decoded tracker s (Record.decode_encode_append r tail)
  refine ⟨Record.decode_isOk_iff, fun r' hread => ?_, fun hshort => ?_, r.source, r.octets_source,
    fun tracker s => ?_, fun calls => ?_⟩
  · have hwritten := Record.encode_decode hread
    refine ⟨hwritten, fun more => ?_⟩
    rw [← Record.decode_encode_append r' more, hwritten]
    rfl
  · exact ⟨Record.decode_short hshort, fun tracker s => handle_short tracker s hshort⟩
  · rw [hhandle, lookupLine, Record.resolution, hhost]
  · rw [hhandle, Record.resolution, hhost]
    rfl

/-- `::ffff:10.1.2.3` and a name with a letter of two bytes, with bytes behind the NUL and behind the
record. -/
theorem record_for_call_mapped :
    let address := mappedLead ++ [10, 1, 2, 3]
    let name := Utf8.encode "é.example".toList ++ 0 :: List.replicate 241 0xAA
    address.length = 16 ∧ name.length = 252 ∧ Record.Named "é.example" name ∧
      (handle Tracker.recorder []
        (Bytes.ofNat 4 10 ++ address ++ name ++ [0xFF, 0xFF])).state =
          [("10.1.2.3", "é.example")] := by
  intro address name
  have haddress : address.length = 16 := rfl
  have hname : name.length = 252 := by
    rw [List.length_append, List.length_cons, List.length_replicate]
    decide
  have hnamed : Record.Named "é.example" name := .inr ⟨_, rfl⟩
  obtain ⟨_, _, _, a, hoctets, _, hcalls⟩ :=
    record_for_call [] 10 address name [0xFF, 0xFF] "é.example" haddress hname (by decide) hnamed
  have ha : a = .v4 ⟨10, 1, 2, 3⟩ := Address.octets_inj.mp hoctets
  refine ⟨haddress, hname, hnamed, (hcalls []).trans ?_⟩
  rw [ha]
  decide

end Pump

end LookupTap
