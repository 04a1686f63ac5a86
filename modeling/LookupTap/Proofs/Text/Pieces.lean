import LookupTap.Proofs.Text.Utf8

/-! What is read with replacements, piece by piece.

Any byte string falls into pieces: characters as they are written, and broken pieces between them.
A broken piece stands where no character can be read. It is as much of one as there is: the longest
beginning of some character's bytes, or a single byte that no character begins with (`Broken`). There
is one way to divide a byte string like that (`exists_divided`, `divided_inj`), and reading with
replacements reads each character and puts one replacement for each broken piece (`lossy_divided`).

A character is never lost: wherever its bytes stand, they are read as it is, what is in front of
them is read as if it ended there, and what is behind them as if it began there (`lossy_around`). -/
namespace LookupTap.Utf8

/-! ### What lead bytes ask for -/

/-- The four lengths of a character: the lead byte carries the bits over its mark, and the range of
the byte after it leaves out what is written shorter or is no character. -/
theorem lead?_cases {lead : UInt8} {bits : Nat} {ranges : List (Nat × Nat)}
    (h : lead? lead = some ⟨bits, ranges⟩) :
    (ranges = [] ∧ lead.toNat = bits ∧ bits < 0x80) ∨
    (ranges = [(0x80, 0xBF)] ∧ lead.toNat = 0xC0 + bits ∧ 2 ≤ bits ∧ bits < 0x20) ∨
    (∃ first last, ranges = [(first, last), (0x80, 0xBF)] ∧ lead.toNat = 0xE0 + bits ∧ bits < 0x10 ∧
      0x80 ≤ first ∧ first ≤ last ∧ last ≤ 0xBF ∧ (bits = 0 → first = 0xA0) ∧
      (bits = 0xD → last = 0x9F)) ∨
    (∃ first last, ranges = [(first, last), (0x80, 0xBF), (0x80, 0xBF)] ∧ lead.toNat = 0xF0 + bits ∧
      bits ≤ 4 ∧ 0x80 ≤ first ∧ first ≤ last ∧ last ≤ 0xBF ∧ (bits = 0 → first = 0x90) ∧
      (bits = 4 → last = 0x8F)) := by
  unfold lead? at h
  dsimp only at h
  split_ifs at h
  all_goals
    obtain ⟨rfl, rfl⟩ := Lead.mk.inj (Option.some.inj h)
  · exact .inl ⟨rfl, by omega⟩
  · exact .inr (.inl ⟨rfl, by omega⟩)
  · exact .inr (.inr (.inl ⟨_, _, rfl, by omega⟩))
  · exact .inr (.inr (.inl ⟨_, _, rfl, by omega⟩))
  · exact .inr (.inr (.inl ⟨_, _, rfl, by omega⟩))
  · exact .inr (.inr (.inr ⟨_, _, rfl, by omega⟩))
  · exact .inr (.inr (.inr ⟨_, _, rfl, by omega⟩))
  · exact .inr (.inr (.inr ⟨_, _, rfl, by omega⟩))

/-- All that may follow a lead byte are continuation bytes, of which each range has some. -/
theorem ranges_of_lead? {lead : UInt8} {bits : Nat} {ranges : List (Nat × Nat)}
    (h : lead? lead = some ⟨bits, ranges⟩) :
    ∀ range ∈ ranges, 0x80 ≤ range.1 ∧ range.1 ≤ range.2 ∧ range.2 ≤ 0xBF := by
  have := lead?_cases h
  grind

/-- No lead byte is a continuation byte. -/
theorem lead?_eq_none {b : UInt8} (h : 0x80 ≤ b.toNat ∧ b.toNat ≤ 0xBF) : lead? b = none := by
  rw [lead?, if_neg (by omega), if_pos (by omega)]

theorem byte_eq {n : Nat} {b : UInt8} (h : n = b.toNat) : UInt8.ofNat n = b := by
  rw [h, UInt8.ofNat_toNat]

/-- What a lead byte asks for makes a character with it. -/
theorem char_followed {lead : UInt8} {bits : Nat} {ranges : List (Nat × Nat)} {bytes : Bytes}
    (hlead : lead? lead = some ⟨bits, ranges⟩) (h : Within ranges bytes) :
    String.utf8EncodeChar (Char.ofNat (gathered bits bytes)) = lead :: bytes := by
  have hwritten (v : Nat) : (Char.ofNat v).val.toNat = (Char.ofNat v).toNat := rfl
  simp only [String.utf8EncodeChar, hwritten]
  obtain ⟨rfl, hbits⟩ | ⟨rfl, hbits⟩ | ⟨first, last, rfl, hbits⟩ | ⟨first, last, rfl, hbits⟩ :=
    lead?_cases hlead
  · obtain rfl := List.forall₂_nil_left_iff.mp h
    rw [gathered, List.foldl_nil, toNat_char (by omega), if_pos (by omega), byte_eq hbits.1.symm]
  · obtain ⟨b, _, hb, hnone, rfl⟩ := List.forall₂_cons_left_iff.mp h
    obtain rfl := List.forall₂_nil_left_iff.mp hnone
    rw [gathered_cons, gathered, List.foldl_nil, toNat_char (by omega), if_neg (by omega),
      if_pos (by omega), byte_eq (b := lead) (by omega), byte_eq (b := b) (by omega)]
  · obtain ⟨b, _, hb, hmore, rfl⟩ := List.forall₂_cons_left_iff.mp h
    obtain ⟨c, _, hc, hnone, rfl⟩ := List.forall₂_cons_left_iff.mp hmore
    obtain rfl := List.forall₂_nil_left_iff.mp hnone
    rw [gathered_cons, gathered_cons, gathered, List.foldl_nil, toNat_char (by omega),
      if_neg (by omega), if_neg (by omega), if_pos (by omega), byte_eq (b := lead) (by omega),
      byte_eq (b := b) (by omega), byte_eq (b := c) (by omega)]
  · obtain ⟨b, _, hb, hmore, rfl⟩ := List.forall₂_cons_left_iff.mp h
    obtain ⟨c, _, hc, hlast, rfl⟩ := List.forall₂_cons_left_iff.mp hmore
    obtain ⟨d, _, hd, hnone, rfl⟩ := List.forall₂_cons_left_iff.mp hlast
    obtain rfl := List.forall₂_nil_left_iff.mp hnone
    rw [gathered_cons, gathered_cons, gathered_cons, gathered, List.foldl_nil,
      toNat_char (by omega), if_neg (by omega), if_neg (by omega), if_neg (by omega),
      byte_eq (b := lead) (by omega), byte_eq (b := b) (by omega), byte_eq (b := c) (by omega),
      byte_eq (b := d) (by omega)]

/-- A character's bytes are a lead byte and what it asks for, and a lead byte asks for one thing. -/
theorem lead_of_char {c : Char} {lead : UInt8} {bytes : Bytes}
    (h : String.utf8EncodeChar c = lead :: bytes) :
    ∃ bits ranges, lead? lead = some ⟨bits, ranges⟩ ∧ Within ranges bytes := by
  obtain ⟨lead', bytes', bits, ranges, hwritten, hlead, hwithin, -⟩ := written_char c
  obtain ⟨rfl, rfl⟩ := List.cons.inj (h.symm.trans hwritten)
  exact ⟨bits, ranges, hlead, hwithin⟩

/-! ### Where a character stops short -/

/-- The bytes are what the first of the ranges ask for, and behind them is nothing that the next
one takes. -/
inductive Cut : List (Nat × Nat) → Bytes → Bytes → Prop where
  | here {next later rest} (hstop : ∀ b ∈ rest.head?, ¬ (next.1 ≤ b.toNat ∧ b.toNat ≤ next.2)) :
    Cut (next :: later) [] rest
  | further {next later b bytes rest} (hb : next.1 ≤ b.toNat ∧ b.toNat ≤ next.2)
    (hcut : Cut later bytes rest) : Cut (next :: later) (b :: bytes) rest

/-- What the ranges ask for is there, or it stops somewhere. -/
theorem within_or_cut (ranges : List (Nat × Nat)) (bs : Bytes) :
    ∃ bytes rest, bs = bytes ++ rest ∧ (Within ranges bytes ∨ Cut ranges bytes rest) := by
  induction ranges generalizing bs with
  | nil => exact ⟨[], bs, rfl, .inl .nil⟩
  | cons next later ih =>
    cases bs with
    | nil => exact ⟨[], [], rfl, .inr (.here (by simp))⟩
    | cons b bs =>
      by_cases hb : next.1 ≤ b.toNat ∧ b.toNat ≤ next.2
      · obtain ⟨bytes, rest, rfl, hwithin | hcut⟩ := ih bs
        · exact ⟨b :: bytes, rest, rfl, .inl (.cons hb hwithin)⟩
        · exact ⟨b :: bytes, rest, rfl, .inr (.further hb hcut)⟩
      · exact ⟨[], b :: bs, rfl, .inr (.here (by simpa using hb))⟩

/-- The reader gives up where the character stops, and looks at the byte there afresh. -/
theorem lossyFrom_stopped {next : Nat × Nat} {later : List (Nat × Nat)} {rest : Bytes}
    (hstop : ∀ b ∈ rest.head?, ¬ (next.1 ≤ b.toNat ∧ b.toNat ≤ next.2)) (bits : Nat) :
    lossyFrom (.inside bits next later) rest = replacement :: lossyFrom .between rest := by
  cases rest with
  | nil => rfl
  | cons b rest =>
    rw [lossyFrom, feed, if_neg (hstop b rfl)]
    rfl

namespace Cut

variable {ranges : List (Nat × Nat)} {bytes rest : Bytes}

theorem lossyFrom_eq {next : Nat × Nat} {later : List (Nat × Nat)}
    (h : Cut (next :: later) bytes rest) (bits : Nat) :
    lossyFrom (.inside bits next later) (bytes ++ rest) =
      replacement :: lossyFrom .between rest := by
  induction later generalizing bits next bytes with
  | nil =>
    cases h with
    | here hstop => exact lossyFrom_stopped hstop bits
    | further hb hcut => cases hcut
  | cons following later ih =>
    cases h with
    | here hstop => exact lossyFrom_stopped hstop bits
    | further hb hcut =>
      rw [List.cons_append, lossyFrom, feed, if_pos hb]
      exact ih hcut _

/-- It could have gone on. -/
theorem completed (h : Cut ranges bytes rest)
    (hranges : ∀ range ∈ ranges, 0x80 ≤ range.1 ∧ range.1 ≤ range.2 ∧ range.2 ≤ 0xBF) :
    ∃ more, more ≠ [] ∧ Within ranges (bytes ++ more) := by
  induction h with
  | @here next later =>
    refine ⟨(next :: later).map fun range => .ofNat range.1, by simp, ?_⟩
    rw [List.nil_append, Within, List.forall₂_map_right_iff, List.forall₂_same]
    intro range hrange
    have := hranges range hrange
    rw [toNat_byte (by omega)]
    omega
  | further hb hcut ih =>
    obtain ⟨more, hmore, hwithin⟩ := ih fun range hrange => hranges range (.tail _ hrange)
    exact ⟨more, hmore, .cons hb hwithin⟩

/-- No character goes on from where it stops. -/
theorem length_le (h : Cut ranges bytes rest) {longer more : Bytes}
    (hwithin : Within ranges (longer ++ more)) (hread : longer <+: bytes ++ rest) :
    longer.length ≤ bytes.length := by
  induction h generalizing longer with
  | here hstop =>
    cases longer with
    | nil => exact Nat.le_refl _
    | cons b longer =>
      obtain ⟨behind, rfl⟩ := hread
      exact absurd (List.forall₂_cons.mp hwithin).1 (hstop b rfl)
  | further hb hcut ih =>
    cases longer with
    | nil => exact Nat.zero_le _
    | cons b longer =>
      exact Nat.succ_le_succ (ih (List.forall₂_cons.mp hwithin).2 (List.cons_prefix_cons.mp hread).2)

end Cut

/-! ### Broken pieces -/

/-- The bytes are the beginning of a character's bytes, and not all of them. -/
def Begins (bytes : Bytes) : Prop :=
  ∃ c rest, rest ≠ [] ∧ String.utf8EncodeChar c = bytes ++ rest

/-- The bytes, with the rest behind them, are as much as there is of what is no character. -/
structure Broken (bytes rest : Bytes) : Prop where
  unread : ∀ c, ¬ String.utf8EncodeChar c <+: bytes ++ rest
  begun : (bytes ≠ [] ∧ Begins bytes) ∨ bytes.length = 1
  longest : ∀ longer, longer <+: bytes ++ rest → Begins longer → longer.length ≤ bytes.length

/-- A character with this lead byte has more bytes than are there, and goes no further than they. -/
theorem broken_cons {lead : UInt8} {bytes rest : Bytes}
    (hbegun : Begins (lead :: bytes) ∨ bytes = [])
    (hshort : ∀ c inside more, String.utf8EncodeChar c = lead :: (inside ++ more) →
      inside <+: bytes ++ rest → more ≠ [] ∧ inside.length ≤ bytes.length) :
    Broken (lead :: bytes) rest where
  unread c hread := by
    obtain ⟨lead', inside, -, -, hc, -⟩ := written_char c
    rw [hc] at hread
    obtain ⟨rfl, hinside⟩ := List.cons_prefix_cons.mp hread
    exact (hshort c inside [] (by rw [hc, List.append_nil]) hinside).1 rfl
  begun := by
    obtain hbegins | rfl := hbegun
    · exact .inl ⟨List.cons_ne_nil _ _, hbegins⟩
    · exact .inr rfl
  longest longer hread hbegins := by
    obtain ⟨c, more, -, hc⟩ := hbegins
    cases longer with
    | nil => exact Nat.zero_le _
    | cons lead' inside =>
      obtain ⟨rfl, hinside⟩ := List.cons_prefix_cons.mp hread
      exact Nat.succ_le_succ (hshort c inside more hc hinside).2

/-- A byte that is no lead byte is a piece of its own. -/
theorem broken_singleton {b : UInt8} (h : lead? b = none) (rest : Bytes) : Broken [b] rest := by
  apply broken_cons (.inr rfl)
  intro c inside more hc
  obtain ⟨bits, ranges, hlead, -⟩ := lead_of_char hc
  cases h.symm.trans hlead

theorem broken_of_cut {lead : UInt8} {bits : Nat} {ranges : List (Nat × Nat)} {bytes rest : Bytes}
    (hlead : lead? lead = some ⟨bits, ranges⟩) (h : Cut ranges bytes rest) :
    Broken (lead :: bytes) rest := by
  obtain ⟨missing, hmissing, hcompleted⟩ := h.completed (ranges_of_lead? hlead)
  apply broken_cons (.inl ⟨_, missing, hmissing, char_followed hlead hcompleted⟩)
  intro c inside more hc hinside
  obtain ⟨bits', ranges', hlead', hwithin⟩ := lead_of_char hc
  obtain ⟨-, rfl⟩ := Lead.mk.inj (Option.some.inj (hlead.symm.trans hlead'))
  have hle := h.length_le hwithin hinside
  refine ⟨?_, hle⟩
  rintro rfl
  -- all that the lead byte asks for would be there
  have hlength := hwithin.length_eq.symm.trans hcompleted.length_eq
  have hpos := List.length_pos_iff.mpr hmissing
  rw [List.append_nil, List.length_append] at hlength
  omega

namespace Broken

variable {bytes rest bytes' rest' : Bytes}

theorem ne_nil (h : Broken bytes rest) : bytes ≠ [] := by
  rintro rfl
  rcases h.begun with ⟨hne, -⟩ | hone
  · exact hne rfl
  · cases hone

theorem length_le (h : Broken bytes rest) (h' : Broken bytes' rest')
    (heq : bytes ++ rest = bytes' ++ rest') : bytes'.length ≤ bytes.length := by
  rcases h'.begun with ⟨-, hbegins⟩ | hone
  · exact h.longest bytes' ⟨rest', heq.symm⟩ hbegins
  · rw [hone]
    exact List.length_pos_iff.mpr h.ne_nil

/-- One broken piece can stand in front of some bytes. -/
theorem unique (h : Broken bytes rest) (h' : Broken bytes' rest')
    (heq : bytes ++ rest = bytes' ++ rest') : bytes = bytes' ∧ rest = rest' :=
  List.append_inj heq (Nat.le_antisymm (h'.length_le h heq.symm) (h.length_le h' heq))

end Broken

/-- Bytes start with a character, or with a broken piece that is read as one replacement. -/
theorem starts_with {bs : Bytes} (h : bs ≠ []) :
    (∃ c rest, bs = String.utf8EncodeChar c ++ rest) ∨
    ∃ bytes rest, bs = bytes ++ rest ∧ Broken bytes rest ∧ lossy bs = replacement :: lossy rest := by
  obtain ⟨lead, tail, rfl⟩ := List.exists_cons_of_ne_nil h
  cases hlead : lead? lead with
  | none =>
    refine .inr ⟨[lead], tail, rfl, broken_singleton hlead tail, ?_⟩
    rw [lossy, lossyFrom, feed, start, hlead]
    rfl
  | some asked =>
    obtain ⟨bits, ranges⟩ := asked
    obtain ⟨bytes, rest, rfl, hwithin | hcut⟩ := within_or_cut ranges tail
    · refine .inl ⟨Char.ofNat (gathered bits bytes), rest, ?_⟩
      rw [char_followed hlead hwithin, List.cons_append]
    · refine .inr ⟨lead :: bytes, rest, rfl, broken_of_cut hlead hcut, ?_⟩
      cases ranges with
      | nil => cases hcut
      | cons next later =>
        rw [lossy, lossyFrom, feed, start, hlead]
        exact hcut.lossyFrom_eq bits

theorem lossy_broken {bytes rest : Bytes} (h : Broken bytes rest) :
    lossy (bytes ++ rest) = replacement :: lossy rest := by
  rcases starts_with (List.append_ne_nil_of_left_ne_nil h.ne_nil rest) with
    ⟨c, rest', heq⟩ | ⟨bytes', rest', heq, hbroken, hread⟩
  · exact absurd ⟨rest', heq.symm⟩ (h.unread c)
  · obtain ⟨-, rfl⟩ := h.unique hbroken heq
    exact hread

/-! ### Dividing bytes into pieces -/

inductive Piece where
  | char (c : Char)
  | broken (bytes : Bytes)
  deriving DecidableEq

namespace Piece

/-- The bytes that the piece stands for. -/
def bytes : Piece → Bytes
  | char c => String.utf8EncodeChar c
  | broken bytes => bytes

/-- What is read for it. -/
def shown : Piece → Char
  | char c => c
  | broken _ => replacement

end Piece

def joined (pieces : List Piece) : Bytes := pieces.flatMap Piece.bytes

/-- Each broken piece is one in front of the pieces behind it. -/
def Divided : List Piece → Prop
  | [] => True
  | .char _ :: pieces => Divided pieces
  | .broken bytes :: pieces => Broken bytes (joined pieces) ∧ Divided pieces

theorem joined_cons (piece : Piece) (pieces : List Piece) :
    joined (piece :: pieces) = piece.bytes ++ joined pieces := rfl

theorem exists_divided (bs : Bytes) : ∃ pieces, Divided pieces ∧ joined pieces = bs := by
  induction hlength : bs.length using Nat.strongRecOn generalizing bs with
  | ind n ih =>
    subst hlength
    by_cases h : bs = []
    · exact ⟨[], trivial, h.symm⟩
    · rcases starts_with h with ⟨c, rest, rfl⟩ | ⟨bytes, rest, rfl, hbroken, -⟩
      · have hpos := c.utf8Size_pos
        have hless : rest.length < (String.utf8EncodeChar c ++ rest).length := by
          rw [List.length_append, String.length_utf8EncodeChar]
          omega
        obtain ⟨pieces, hdivided, hjoined⟩ := ih _ hless rest rfl
        exact ⟨.char c :: pieces, hdivided, congrArg (_ ++ ·) hjoined⟩
      · have hpos := List.length_pos_iff.mpr hbroken.ne_nil
        have hless : rest.length < (bytes ++ rest).length := by
          rw [List.length_append]
          omega
        obtain ⟨pieces, hdivided, rfl⟩ := ih _ hless rest rfl
        exact ⟨.broken bytes :: pieces, ⟨hbroken, hdivided⟩, rfl⟩

/-- Each character is read as it is, and each broken piece as one replacement. -/
theorem lossy_divided {pieces : List Piece} (h : Divided pieces) :
    lossy (joined pieces) = pieces.map Piece.shown := by
  induction pieces with
  | nil => rfl
  | cons piece pieces ih =>
    rw [joined_cons, List.map_cons]
    cases piece with
    | char c =>
      rw [Piece.bytes, lossy, lossyFrom_char]
      exact congrArg (c :: ·) (ih h)
    | broken bytes =>
      rw [Piece.bytes, lossy_broken h.1, ih h.2]
      rfl

/-- A character that is cut short, a letter, and two bytes that no character begins with. -/
example : lossy [0xE2, 0x82, 0x66, 0xC0, 0x80] = [replacement, 'f', replacement, replacement] := by
  decide

theorem Divided.bytes_ne_nil {piece : Piece} {pieces : List Piece}
    (h : Divided (piece :: pieces)) : piece.bytes ≠ [] := by
  cases piece with
  | char c =>
    obtain ⟨lead, bytes, -, -, hc, -⟩ := written_char c
    rw [Piece.bytes, hc]
    exact List.cons_ne_nil lead bytes
  | broken bytes => exact h.1.ne_nil

theorem Divided.cons_inj {p q : Piece} {ps qs : List Piece} (hp : Divided (p :: ps))
    (hq : Divided (q :: qs)) (h : joined (p :: ps) = joined (q :: qs)) :
    p = q ∧ joined ps = joined qs := by
  rw [joined_cons, joined_cons] at h
  cases p with
  | char c =>
    cases q with
    | char d =>
      -- the bytes of one character are not the beginning of another's: they are read as it
      have hread := congrArg lossy h
      rw [Piece.bytes, Piece.bytes, lossy, lossy, lossyFrom_char, lossyFrom_char] at hread
      obtain ⟨rfl, -⟩ := List.cons.inj hread
      exact ⟨rfl, List.append_cancel_left h⟩
    | broken bytes => exact absurd ⟨_, h⟩ (hq.1.unread c)
  | broken bytes =>
    cases q with
    | char d => exact absurd ⟨_, h.symm⟩ (hp.1.unread d)
    | broken bytes' =>
      obtain ⟨rfl, hbehind⟩ := hp.1.unique hq.1 h
      exact ⟨rfl, hbehind⟩

theorem Divided.tail {piece : Piece} {pieces : List Piece} (h : Divided (piece :: pieces)) :
    Divided pieces := by
  cases piece with
  | char c => exact h
  | broken bytes => exact h.2

/-- Bytes are divided in one way. -/
theorem divided_inj {ps qs : List Piece} (hp : Divided ps) (hq : Divided qs)
    (h : joined ps = joined qs) : ps = qs := by
  induction ps generalizing qs with
  | nil =>
    cases qs with
    | nil => rfl
    | cons q qs => exact absurd (List.append_eq_nil_iff.mp h.symm).1 hq.bytes_ne_nil
  | cons p ps ih =>
    cases qs with
    | nil => exact absurd (List.append_eq_nil_iff.mp h).1 hp.bytes_ne_nil
    | cons q qs =>
      obtain ⟨rfl, hbehind⟩ := hp.cons_inj hq h
      rw [ih hp.tail hq.tail hbehind]

/-! ### Characters wherever they stand -/

/-- What the reader waits for is a continuation byte. -/
def State.Inward : State → Prop
  | .between => True
  | .inside _ next later => ∀ range ∈ next :: later, 0x80 ≤ range.1 ∧ range.2 ≤ 0xBF

theorem start_inward (b : UInt8) : (start b).2.Inward := by
  unfold start
  split
  · exact trivial
  · exact trivial
  · next bits next later hlead =>
    intro range hrange
    have := ranges_of_lead? hlead range hrange
    exact ⟨this.1, this.2.2⟩

theorem feed_inward {s : State} (hs : s.Inward) (b : UInt8) : (feed s b).2.Inward := by
  cases s with
  | between => exact start_inward b
  | inside bits next later =>
    by_cases hb : next.1 ≤ b.toNat ∧ b.toNat ≤ next.2
    · rw [feed, if_pos hb]
      cases later with
      | nil => exact trivial
      | cons following later => exact fun range hrange => hs range (.tail _ hrange)
    · rw [feed, if_neg hb]
      exact start_inward b

/-- A lead byte ends whatever is being read, and is looked at afresh. -/
theorem lossyFrom_char_of_inward {s : State} (hs : s.Inward) (c : Char) (rest : Bytes) :
    lossyFrom s (String.utf8EncodeChar c ++ rest) = finish s ++ c :: lossyFrom .between rest := by
  cases s with
  | between => exact lossyFrom_char c rest
  | inside bits next later =>
    rw [lossyFrom_stopped, lossyFrom_char]
    · rfl
    · intro b hb hin
      obtain ⟨lead, bytes, bits', ranges, hc, hlead, -⟩ := written_char c
      rw [hc] at hb
      obtain rfl := Option.some.inj hb
      have hnext := hs next (.head _)
      cases hlead.symm.trans (lead?_eq_none ⟨by omega, by omega⟩)

/-- A character is read wherever it stands. -/
theorem lossyFrom_around {s : State} (hs : s.Inward) (before : Bytes) (c : Char) (after : Bytes) :
    lossyFrom s (before ++ (String.utf8EncodeChar c ++ after)) =
      lossyFrom s before ++ c :: lossyFrom .between after := by
  induction before generalizing s with
  | nil => exact lossyFrom_char_of_inward hs c after
  | cons b before ih =>
    rw [List.cons_append, lossyFrom, ih (feed_inward hs b), lossyFrom, List.append_assoc]

/-- Text is read wherever it stands, and cuts what is around it in two. -/
theorem lossy_around {text : List Char} (h : text ≠ []) (before after : Bytes) :
    lossy (before ++ encode text ++ after) = lossy before ++ text ++ lossy after := by
  obtain ⟨c, text, rfl⟩ := List.exists_cons_of_ne_nil h
  have hinward : State.between.Inward := trivial
  have hspelled : before ++ encode (c :: text) ++ after =
      before ++ (String.utf8EncodeChar c ++ (encode text ++ after)) := by
    rw [encode, List.flatMap_cons, ← encode]
    simp only [List.append_assoc]
  rw [hspelled, lossy, lossyFrom_around hinward, List.append_assoc]
  exact congrArg (lossy before ++ c :: ·) (lossy_encode_append text after)

end LookupTap.Utf8
