import LookupTap.Proofs.Record.Wire
import LookupTap.Proofs.Text.Pieces

/-! The host name of a record, for any bytes in its field.

The name ends at the first NUL of the field, or with the field (`FrontOf`). What is in front of it
comes from a process that nobody vouches for, and may be anything. `host_faithful` says what is made
of it: the text that stands in it, as it is; one replacement for each broken piece of what is no
text; and nothing else, so that no name has a NUL in it or is longer than three times the field. -/
namespace LookupTap

namespace Utf8

theorem utf8ByteSize_ofList (cs : List Char) :
    (String.ofList cs).utf8ByteSize = (encode cs).length := by
  rw [← String.size_toByteArray, String.toByteArray_ofList]
  exact List.size_toByteArray

/-- A replacement is written in three bytes, and stands for one at least. -/
theorem length_shown_le {pieces : List Piece} (h : Divided pieces) :
    (encode (pieces.map Piece.shown)).length ≤ 3 * (joined pieces).length := by
  induction pieces with
  | nil => exact Nat.le_refl 0
  | cons piece pieces ih =>
    have hpiece : (String.utf8EncodeChar piece.shown).length ≤ 3 * piece.bytes.length := by
      cases piece with
      | char c => exact Nat.le_mul_of_pos_left _ (by decide)
      | broken bytes =>
        have hpos := List.length_pos_iff.mpr h.bytes_ne_nil
        have hthree : (String.utf8EncodeChar replacement).length = 3 := by decide
        show (String.utf8EncodeChar replacement).length ≤ _
        omega
    have htail := ih h.tail
    rw [encode] at htail
    rw [joined_cons, encode, List.map_cons, List.flatMap_cons, List.length_append,
      List.length_append]
    omega

/-- A NUL that is shown is one of the bytes. -/
theorem zero_mem_of_shown {pieces : List Piece} (h : '\x00' ∈ pieces.map Piece.shown) :
    0 ∈ joined pieces := by
  obtain ⟨piece, hpiece, hshown⟩ := List.mem_map.mp h
  cases piece with
  | char c => exact List.mem_flatMap.mpr ⟨_, hpiece, zero_mem_char.mpr hshown⟩
  | broken bytes =>
    have hother : replacement ≠ '\x00' := by decide
    exact absurd hshown hother

end Utf8

namespace Record

/-- **The host name is faithful to the bytes in front of the first NUL.** There is one such front in
every field, and the host name depends on nothing else. Text at the front is shown as it is, before
what is read of the rest; a front that is text is shown as that text. The front is divided in one way
into characters and broken pieces, and the host name shows each of those characters, in order, and
one replacement for each broken piece. So a text that stands anywhere in the front is shown, between
what is read of the bytes on its two sides. There is no NUL in the host name, and it is at most 756
bytes long. -/
theorem host_faithful (r : Record) :
    ∃ front, (∀ other, FrontOf other r.name ↔ other = front) ∧
      (∀ r' : Record, FrontOf front r'.name → r'.host = r.host) ∧
      (∀ text rest, front = Utf8.encode text ++ rest →
        r.host = String.ofList text ++ String.ofList (Utf8.lossy rest)) ∧
      (∀ text : String, front = Utf8.encode text.toList → r.host = text) ∧
      (∃ pieces, Utf8.Divided pieces ∧ Utf8.joined pieces = front ∧
        (∀ others, Utf8.Divided others → Utf8.joined others = front → others = pieces) ∧
        r.host.toList = pieces.map Utf8.Piece.shown) ∧
      (∀ before text after, text ≠ [] → front = before ++ Utf8.encode text ++ after →
        r.host.toList = Utf8.lossy before ++ text ++ Utf8.lossy after) ∧
      '\x00' ∉ r.host.toList ∧ r.host.utf8ByteSize ≤ 756 := by
  have hfront : FrontOf (r.name.takeWhile (· ≠ 0)) r.name := frontOf_iff.mpr rfl
  generalize r.name.takeWhile (· ≠ 0) = front at hfront
  have hhost := host_of_front hfront
  have hshort : front.length ≤ 252 := by
    rw [← frontOf_iff.mp hfront]
    exact (List.takeWhile_prefix _).length_le.trans_eq r.length_name
  obtain ⟨pieces, hdivided, rfl⟩ := Utf8.exists_divided front
  have hshown : r.host.toList = pieces.map Utf8.Piece.shown := by
    rw [hhost, String.toList_ofList, Utf8.lossy_divided hdivided]
  refine ⟨_, fun other => ?_, fun r' hfront' => ?_, fun text rest hsplit => ?_,
    fun text hwritten => ?_, ⟨pieces, hdivided, rfl, fun others hothers hjoined => ?_, hshown⟩,
    fun before text after htext hsplit => ?_, fun hnul => ?_, ?_⟩
  · rw [frontOf_iff, frontOf_iff.mp hfront]
    exact eq_comm
  · rw [host_of_front hfront', hhost]
  · rw [hhost, hsplit, Utf8.lossy_encode_append, String.ofList_append]
  · rw [hhost, hwritten, Utf8.lossy_encode, String.ofList_toList]
  · exact Utf8.divided_inj hothers hdivided hjoined
  · rw [hhost, hsplit, String.toList_ofList, Utf8.lossy_around htext]
  · exact hfront.1 (Utf8.zero_mem_of_shown (hshown ▸ hnul))
  · have hlength := Utf8.length_shown_le hdivided
    rw [hhost, Utf8.lossy_divided hdivided, Utf8.utf8ByteSize_ofList]
    omega

end Record

end LookupTap
