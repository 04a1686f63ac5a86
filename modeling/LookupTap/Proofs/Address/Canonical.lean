import LookupTap.Proofs.Record.Wire

/-! One text for each host.

An address is told by its text, and the address that a record is read as never spells an `Ip4` in
sixteen bytes (`mapped?_source`). So two records are handed over with the same text just when they
are about the same host, whichever way each of them writes it (`same_text_iff`). The text of an
`Ip4` is four numbers with dots between them; in what is left to an `Ip6` there is no dot
(`dot_not_mem_compressed`). -/
namespace LookupTap

/-- Four numbers of a byte with dots between them. -/
def Dotted (s : String) : Prop := ∃ a b c d : UInt8, s = s!"{a}.{b}.{c}.{d}"

theorem not_mem_joined {c separator : Char} (hc : c ≠ separator) {parts : List (List Char)}
    (hparts : ∀ part ∈ parts, c ∉ part) : c ∉ joined separator parts := by
  fun_induction joined separator parts with
  | case1 => exact List.not_mem_nil
  | case2 part => exact hparts part List.mem_cons_self
  | case3 part rest hrest ih =>
    have hlater := ih fun part hpart => hparts part (List.mem_cons_of_mem _ hpart)
    intro hmem
    rcases List.mem_append.mp hmem with hfirst | hmem
    · exact hparts part List.mem_cons_self hfirst
    · rcases List.mem_cons.mp hmem with heq | hmem
      · exact hc heq
      · exact hlater hmem

namespace Ip6

theorem dot_not_mem_groupChars (gs : List UInt16) : '.' ∉ groupChars gs := by
  refine not_mem_joined (by decide) fun part hpart => ?_
  obtain ⟨g, _, rfl⟩ := List.mem_map.mp hpart
  exact not_mem_hexadecimal rfl g.toNat

theorem dot_not_mem_compressed (gs : List UInt16) : '.' ∉ compressed gs := by
  simp only [compressed]
  split
  · intro hmem
    rcases List.mem_append.mp hmem with hfront | hmem
    · exact dot_not_mem_groupChars _ hfront
    · simp [dot_not_mem_groupChars] at hmem
  · exact dot_not_mem_groupChars gs

end Ip6

namespace Address

theorem text_inj {a b : Address} : a.text = b.text ↔ a = b := by
  refine ⟨fun h => ?_, congrArg text⟩
  have hread := congrArg ofText? h
  rw [ofText?_text, ofText?_text] at hread
  exact Option.some.inj hread

theorem dotted_v4 (ip : Ip4) : Dotted (v4 ip).text := by
  refine ⟨ip.a, ip.b, ip.c, ip.d, ?_⟩
  rw [← String.toList_inj, text, String.toList_ofList]
  simp [chars, Ip4.chars, Ip4.toList, joined, decimal, toString, Nat.repr]

end Address

theorem Dotted.dot_mem {s : String} (h : Dotted s) : '.' ∈ s.toList := by
  obtain ⟨a, b, c, d, rfl⟩ := h
  simp [toString]

/-! ### Records -/

namespace Record

/-- What a record is read as is no `Ip4` in another spelling. -/
theorem mapped?_source {r : Record} {ip : Ip6} (h : r.source = .v6 ip) : ip.mapped? = none := by
  unfold source at h
  split at h
  · split at h <;> cases h
  · split at h
    · unfold Address.unmapped at h
      split at h
      · cases h
      · next hnone =>
        cases h
        exact hnone
    · cases h

/-- An `Ip4` is handed over as four numbers, and an `Ip6` without a dot. -/
theorem dotted_source (r : Record) :
    (r.octets.length = 4 ∧ Dotted r.source.text) ∨
      (r.octets.length = 16 ∧ '.' ∉ r.source.text.toList) := by
  rw [← r.octets_source]
  cases hsource : r.source with
  | v4 ip => exact .inl ⟨rfl, Address.dotted_v4 ip⟩
  | v6 ip =>
    refine .inr ⟨ip.length_toBytes, ?_⟩
    have hchars : ip.chars = Ip6.compressed ip.toList := by
      rw [Ip6.chars, mapped?_source hsource]
    rw [Address.text, String.toList_ofList, Address.chars, hchars]
    exact Ip6.dot_not_mem_compressed ip.toList

theorem dotted_iff (r : Record) : Dotted r.source.text ↔ r.octets.length = 4 := by
  obtain ⟨hfour, hdotted⟩ | ⟨hsixteen, hnone⟩ := r.dotted_source
  · exact ⟨fun _ => hfour, fun _ => hdotted⟩
  · refine ⟨fun hdotted => absurd hdotted.dot_mem hnone, fun hfour => ?_⟩
    cases hfour.symm.trans hsixteen

theorem text_eq_iff {r r' : Record} : r.source.text = r'.source.text ↔ r.octets = r'.octets := by
  rw [Address.text_inj, ← Address.octets_inj, octets_source, octets_source]

/-- **One host, one text.** Whatever the families, and whatever stands in the bytes that nobody
reads, the tracker is called for two records with the same text just when they are about the same
host: the same four bytes, behind the family of an `Ip4` or behind the lead of a spelled one, or the
same sixteen. The text is four numbers with dots between them just when the host has four bytes, and
there is no dot in it otherwise. -/
theorem same_text_iff {buffer buffer' : Bytes} {r r' : Record} (h : decode buffer = .ok r)
    (h' : decode buffer' = .ok r') :
    ∃ text text' : String,
      (∀ {σ : Type} (track : σ → String → String → Reaction σ) (s : σ),
        (Pump.handle { track } s buffer).state = (track s text r.host).state ∧
          (Pump.handle { track } s buffer').state = (track s text' r'.host).state) ∧
      (text = text' ↔ r.octets = r'.octets) ∧
      (Dotted text ↔ r.octets.length = 4) ∧
      (r.octets.length ≠ 4 → r.octets.length = 16 ∧ '.' ∉ text.toList) := by
  refine ⟨r.source.text, r'.source.text, fun track s => ⟨?_, ?_⟩, text_eq_iff, r.dotted_iff,
    fun hother => ?_⟩
  · rw [Pump.handle_decoded _ s h]
    rfl
  · rw [Pump.handle_decoded _ s h']
    rfl
  · exact r.dotted_source.resolve_left fun hfour => hother hfour.1

/-- `10.1.2.3` in four bytes with others behind them, and in sixteen: one text. -/
theorem same_text_iff_mapped :
    let name := List.replicate 252 0
    let buffer := Bytes.ofNat 4 2 ++ ([10, 1, 2, 3] ++ List.replicate 12 0xAA) ++ name ++ [0xFF]
    let buffer' := Bytes.ofNat 4 10 ++ (mappedLead ++ [10, 1, 2, 3]) ++ name ++ [0xFF]
    (∃ r, decode buffer = .ok r) ∧ (∃ r', decode buffer' = .ok r') ∧
      ∃ text, Dotted text ∧ ∀ {σ : Type} (track : σ → String → String → Reaction σ) (s : σ),
        (Pump.handle { track } s buffer).state = (track s text "").state ∧
          (Pump.handle { track } s buffer').state = (track s text "").state := by
  intro name buffer buffer'
  let r : Record := ⟨2, [10, 1, 2, 3] ++ List.replicate 12 0xAA, name, rfl, List.length_replicate ..⟩
  let r' : Record := ⟨10, mappedLead ++ [10, 1, 2, 3], name, rfl, List.length_replicate ..⟩
  have h : decode buffer = .ok r := decode_encode_append r [0xFF]
  have h' : decode buffer' = .ok r' := decode_encode_append r' [0xFF]
  obtain ⟨text, text', hcalls, hsame, hdotted, _⟩ := same_text_iff h h'
  obtain rfl : text = text' := hsame.mpr rfl
  exact ⟨⟨r, h⟩, ⟨r', h'⟩, text, hdotted.mpr rfl, hcalls⟩

end Record

end LookupTap
