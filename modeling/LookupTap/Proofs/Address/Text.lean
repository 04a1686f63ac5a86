import LookupTap.Address.Text
import LookupTap.Proofs.Number.Digits

/-! Reading back the text of an address.

`ofText?_text`: the text of every address is read as that address, an `Ip6` as an `Ip6` even
where it ends in a dotted `Ip4`. So no two addresses have the same text.

Digits contain no separator, so the pieces of a text are the numbers that were joined; the
groups around `::` are found because no number is empty, so a text has no second `::`; and what
`::` stands for is as many zeros as are missing, which is the run that was left out. -/
namespace LookupTap

/-! ### Pieces -/

theorem joined_eq_intercalate (separator : Char) (parts : List (List Char)) :
    joined separator parts = [separator].intercalate parts := by
  fun_induction joined separator parts with
  | case1 => rfl
  | case2 part => rw [List.intercalate_singleton]
  | case3 part rest hrest ih =>
    obtain ⟨next, rest, rfl⟩ := List.exists_cons_of_ne_nil hrest
    rw [List.intercalate_cons_cons, ih, List.append_assoc]
    rfl

theorem pieces_eq_splitOn (separator : Char) (cs : List Char) :
    pieces separator cs = cs.splitOn separator := by
  induction cs with
  | nil => rw [List.splitOn_nil, pieces]
  | cons c cs ih =>
    rw [List.splitOn_eq_splitOnP, List.splitOnP_cons_eq_if_modifyHead, ← List.splitOn_eq_splitOnP,
      ← ih, pieces]
    by_cases hc : c = separator
    · rw [if_pos hc, if_pos (beq_iff_eq.mpr hc)]
    · rw [if_neg hc, if_neg (fun h => hc (beq_iff_eq.mp h))]
      cases hpieces : pieces separator cs with
      | nil =>
        rw [ih, List.splitOn_eq_splitOnP] at hpieces
        exact absurd hpieces (List.splitOnP_ne_nil _ _)
      | cons piece rest => rfl

/-- Parts without the separator are the pieces of what they are joined to. -/
theorem pieces_joined {separator : Char} {parts : List (List Char)}
    (hparts : ∀ part ∈ parts, separator ∉ part) (hne : parts ≠ []) :
    pieces separator (joined separator parts) = parts := by
  rw [pieces_eq_splitOn, joined_eq_intercalate]
  exact List.splitOn_intercalate separator hparts hne

/-- A character that is no separator is in one of the pieces. -/
theorem mem_pieces {separator c : Char} (hc : c ≠ separator) {cs : List Char} (hmem : c ∈ cs) :
    ∃ piece ∈ pieces separator cs, c ∈ piece := by
  induction cs with
  | nil => cases hmem
  | cons c' cs ih =>
    rw [pieces]
    rcases List.mem_cons.mp hmem with rfl | hmem
    · rw [if_neg hc]
      cases pieces separator cs with
      | nil => exact ⟨[c], List.mem_singleton_self _, List.mem_singleton_self c⟩
      | cons piece rest => exact ⟨c :: piece, List.mem_cons_self, List.mem_cons_self⟩
    · obtain ⟨piece, hpiece, hin⟩ := ih hmem
      split
      · exact ⟨piece, List.mem_cons_of_mem _ hpiece, hin⟩
      · cases hpieces : pieces separator cs with
        | nil =>
          rw [hpieces] at hpiece
          cases hpiece
        | cons first rest =>
          rw [hpieces] at hpiece
          rcases List.mem_cons.mp hpiece with rfl | hrest
          · exact ⟨c' :: piece, List.mem_cons_self, List.mem_cons_of_mem _ hin⟩
          · exact ⟨piece, List.mem_cons_of_mem _ hrest, hin⟩

/-- Where every element can be read, it can be read on its own. -/
theorem exists_of_mapM {α β : Type} {f : α → Option β} {xs : List α} {ys : List β}
    (hread : xs.mapM f = some ys) : ∀ x ∈ xs, ∃ y, f x = some y := by
  induction xs generalizing ys with
  | nil => exact fun x hx => absurd hx List.not_mem_nil
  | cons x xs ih =>
    rw [List.mapM_cons] at hread
    obtain ⟨y, hy, hrest⟩ := Option.bind_eq_some_iff.mp hread
    obtain ⟨zs, hzs, _⟩ := Option.bind_eq_some_iff.mp hrest
    rintro x' (_ | ⟨_, hx'⟩)
    · exact ⟨y, hy⟩
    · exact ih hzs x' hx'

theorem mapM_map_of_read {α β : Type} {write : β → α} {read : α → Option β}
    (hread : ∀ b, read (write b) = some b) (bs : List β) : (bs.map write).mapM read = some bs := by
  induction bs with
  | nil => rfl
  | cons b bs ih =>
    rw [List.map_cons, List.mapM_cons, hread, ih]
    rfl

/-! ### Dotted numbers -/

theorem not_mem_decimal {c : Char} (hc : Digits.digit? 10 c = none) (n : Nat) : c ∉ decimal n :=
  Digits.not_mem_of_number? hc (Digits.number?_toDigits (by decide) (by decide) n)

theorem byte?_decimal (b : UInt8) : byte? (decimal b.toNat) = some b := by
  have hnumber : Digits.number? 10 (decimal b.toNat) = some b.toNat :=
    Digits.number?_toDigits (by decide) (by decide) b.toNat
  have hlength : (decimal b.toNat).length ≤ 3 :=
    (Nat.length_toDigits_le_iff (by decide) (by decide)).mpr (Nat.lt_trans b.toNat_lt (by decide))
  unfold byte?
  split
  next c cs hdigits =>
    -- only zero has a zero in front, and it has nothing behind it
    have hzero : b.toNat = 0 := Digits.eq_zero_of_head?_toDigits (by decide) (by decide)
      (congrArg List.head? hdigits)
    rw [hzero] at hdigits
    cases hdigits
  · simp only [if_pos hlength, hnumber, if_pos b.toNat_lt, UInt8.ofNat_toNat]

theorem not_mem_of_byte? {c : Char} (hc : Digits.digit? 10 c = none) {cs : List Char} {b : UInt8}
    (hread : byte? cs = some b) : c ∉ cs := by
  unfold byte? at hread
  split at hread
  · cases hread
  · split at hread
    · cases hnumber : Digits.number? 10 cs with
      | none => simp [hnumber] at hread
      | some n => exact Digits.not_mem_of_number? hc hnumber
    · cases hread

namespace Ip4

theorem read?_chars (ip : Ip4) : read? ip.chars = some ip := by
  have hparts : ∀ part ∈ ip.toList.map fun n => decimal n.toNat, '.' ∉ part := by
    intro part hpart
    obtain ⟨n, _, rfl⟩ := List.mem_map.mp hpart
    exact not_mem_decimal rfl n.toNat
  rw [read?, chars, pieces_joined hparts (by simp [toList]), mapM_map_of_read byte?_decimal]
  exact ofList?_toList ip

/-- The numbers of an `Ip4` have dots between them and nothing else. -/
theorem not_mem_of_read? {c : Char} (hc : Digits.digit? 10 c = none) (hdot : c ≠ '.')
    {cs : List Char} {ip : Ip4} (hread : read? cs = some ip) : c ∉ cs := by
  intro hmem
  obtain ⟨bytes, hbytes, _⟩ := Option.bind_eq_some_iff.mp hread
  obtain ⟨piece, hpiece, hin⟩ := mem_pieces hdot hmem
  obtain ⟨b, hb⟩ := exists_of_mapM hbytes piece hpiece
  exact not_mem_of_byte? hc hb hin

theorem dot_mem_chars (ip : Ip4) : '.' ∈ ip.chars := by
  simp [chars, toList, joined]

theorem colon_not_mem_chars (ip : Ip4) : ':' ∉ ip.chars :=
  not_mem_of_read? rfl (by decide) (read?_chars ip)

end Ip4

/-! ### Groups -/

namespace Ip6

theorem group_split (g : UInt16) : group (split g).1 (split g).2 = g := by
  apply UInt16.toNat_inj.mp
  have hg : g.toNat < 65536 := g.toNat_lt
  simp [group, split]
  omega

theorem not_mem_hexadecimal {c : Char} (hc : Digits.digit? 16 c = none) (n : Nat) :
    c ∉ hexadecimal n :=
  Digits.not_mem_of_number? hc (Digits.number?_toDigits (by decide) (by decide) n)

theorem group?_hexadecimal (g : UInt16) : group? (hexadecimal g.toNat) = some g := by
  have hnumber : Digits.number? 16 (hexadecimal g.toNat) = some g.toNat :=
    Digits.number?_toDigits (by decide) (by decide) g.toNat
  have hlength : (hexadecimal g.toNat).length ≤ 4 :=
    (Nat.length_toDigits_le_iff (by decide) (by decide)).mpr g.toNat_lt
  rw [group?, if_pos hlength, hnumber, Option.map_some, UInt16.ofNat_toNat]

theorem group?_of_mem {c : Char} (hc : Digits.digit? 16 c = none) {cs : List Char}
    (hmem : c ∈ cs) : group? cs = none := by
  unfold group?
  split
  · cases hnumber : Digits.number? 16 cs with
    | none => rfl
    | some n => exact absurd hmem (Digits.not_mem_of_number? hc hnumber)
  · rfl

theorem ending?_hexadecimal (g : UInt16) : ending? (hexadecimal g.toNat) = some [g] := by
  rw [ending?, group?_hexadecimal]

theorem ending?_chars (w : Ip4) : ending? w.chars = some [group w.a w.b, group w.c w.d] := by
  rw [ending?, group?_of_mem rfl w.dot_mem_chars, Ip4.read?_chars]
  rfl

theorem groups?_hexadecimal (gs : List UInt16) :
    groups? (gs.map fun g => hexadecimal g.toNat) = some gs := by
  induction gs with
  | nil => rfl
  | cons g gs ih =>
    cases gs with
    | nil => exact ending?_hexadecimal g
    | cons g' gs =>
      rw [List.map_cons] at ih
      rw [List.map_cons, List.map_cons, groups?, group?_hexadecimal, ih]
      rintro ⟨⟩

/-- What a group is written as is one part between colons. -/
theorem part_of_groups {gs : List UInt16} {part : List Char}
    (hpart : part ∈ gs.map fun g => hexadecimal g.toNat) : part ≠ [] ∧ ':' ∉ part := by
  obtain ⟨g, _, rfl⟩ := List.mem_map.mp hpart
  exact ⟨Nat.toDigits_ne_nil, not_mem_hexadecimal rfl g.toNat⟩

theorem pieces_groupChars {gs : List UInt16} (hne : gs ≠ []) :
    pieces ':' (groupChars gs) = gs.map fun g => hexadecimal g.toNat :=
  pieces_joined (fun _ hpart => (part_of_groups hpart).2) (mt List.map_eq_nil_iff.mp hne)

theorem side?_of_ne_nil (dotted : Bool) {cs : List Char} (hne : cs ≠ []) :
    side? dotted cs =
      if dotted then groups? (pieces ':' cs) else (pieces ':' cs).mapM group? := by
  cases cs with
  | nil => exact absurd rfl hne
  | cons c cs => rfl

theorem groupChars_ne_nil {gs : List UInt16} (hne : gs ≠ []) : groupChars gs ≠ [] := by
  intro hnil
  -- no text has the one piece that is empty, and a group is not
  have hpieces := pieces_groupChars hne
  rw [hnil, pieces] at hpieces
  have hpart : [] ∈ gs.map fun g => hexadecimal g.toNat := hpieces ▸ List.mem_singleton_self []
  exact (part_of_groups hpart).1 rfl

theorem side?_groupChars (dotted : Bool) (gs : List UInt16) :
    side? dotted (groupChars gs) = some gs := by
  by_cases hne : gs = []
  · rw [hne]
    rfl
  · rw [side?_of_ne_nil dotted (groupChars_ne_nil hne), pieces_groupChars hne,
      mapM_map_of_read group?_hexadecimal, groups?_hexadecimal, ite_self]

/-! ### The place of `::` -/

theorem cut?_cons {c : Char} (hc : c ≠ ':') (cs : List Char) :
    cut? (c :: cs) = (cut? cs).map fun (front, back) => (c :: front, back) := by
  rw [cut?]
  rintro rest rfl
  exact absurd rfl hc

theorem cut?_colon_cons {c : Char} (hc : c ≠ ':') (cs : List Char) :
    cut? (':' :: c :: cs) = (cut? (c :: cs)).map fun (front, back) => (':' :: front, back) := by
  rw [cut?]
  rintro rest - hcs
  exact absurd (List.cons.inj hcs).1 hc

theorem cut?_append {part : List Char} (hpart : ':' ∉ part) (cs : List Char) :
    cut? (part ++ cs) = (cut? cs).map fun (front, back) => (part ++ front, back) := by
  induction part with
  | nil => simp
  | cons c part ih =>
    have hc : c ≠ ':' := fun h => hpart (h ▸ List.mem_cons_self)
    rw [List.cons_append, cut?_cons hc, ih (mt (List.mem_cons_of_mem c) hpart), Option.map_map]
    rfl

theorem joined_cons_cons (separator c : Char) (part : List Char) (rest : List (List Char)) :
    ∃ tail, joined separator ((c :: part) :: rest) = c :: tail := by
  cases rest with
  | nil => exact ⟨part, rfl⟩
  | cons next rest => exact ⟨_, rfl⟩

/-- Parts that are not empty have no `::` between them, so the first one is in what follows. -/
theorem cut?_joined {parts : List (List Char)} (hparts : ∀ part ∈ parts, part ≠ [] ∧ ':' ∉ part)
    (cs : List Char) :
    cut? (joined ':' parts ++ cs) =
      (cut? cs).map fun (front, back) => (joined ':' parts ++ front, back) := by
  fun_induction joined ':' parts with
  | case1 => simp
  | case2 part => exact cut?_append (hparts part List.mem_cons_self).2 cs
  | case3 part rest hrest ih =>
    have hrestParts : ∀ part ∈ rest, part ≠ [] ∧ ':' ∉ part :=
      fun part hpart => hparts part (List.mem_cons_of_mem _ hpart)
    have hfollowing := ih hrestParts
    -- the colon is followed by the first character of the next part, which is none
    obtain ⟨c, tail, htail, hc⟩ : ∃ c tail, joined ':' rest = c :: tail ∧ c ≠ ':' := by
      obtain ⟨next, rest, rfl⟩ := List.exists_cons_of_ne_nil hrest
      obtain ⟨hnext, hcolon⟩ := hrestParts next List.mem_cons_self
      obtain ⟨c, next, rfl⟩ := List.exists_cons_of_ne_nil hnext
      obtain ⟨tail, htail⟩ := joined_cons_cons ':' c next rest
      exact ⟨c, tail, htail, fun h => hcolon (h ▸ List.mem_cons_self)⟩
    rw [htail] at hfollowing
    rw [htail, List.append_assoc, cut?_append (hparts part List.mem_cons_self).2, List.cons_append,
      List.cons_append, cut?_colon_cons hc, ← List.cons_append, hfollowing, Option.map_map,
      Option.map_map]
    congr 1
    funext cut
    simp

theorem cut?_groupChars (gs : List UInt16) (cs : List Char) :
    cut? (groupChars gs ++ cs) =
      (cut? cs).map fun (front, back) => (groupChars gs ++ front, back) :=
  cut?_joined (fun _ hpart => part_of_groups hpart) cs

/-! ### The run that is left out -/

theorem take_zeros (gs : List UInt16) :
    gs.take (zeros gs) = List.replicate (zeros gs) 0 ∧ zeros gs ≤ gs.length := by
  induction gs with
  | nil => exact ⟨rfl, Nat.le_refl 0⟩
  | cons g gs ih =>
    rw [zeros]
    by_cases hg : g = 0
    · rw [if_pos hg, hg, List.take_succ_cons, ih.1, List.replicate_succ]
      exact ⟨rfl, Nat.succ_le_succ ih.2⟩
    · rw [if_neg hg]
      exact ⟨rfl, Nat.zero_le _⟩

/-- The longest run lies inside the list, and it is of zeros. -/
theorem longestRun_zeros (i : Nat) (gs : List UInt16) :
    ∃ start, (longestRun i gs).1 = i + start ∧ start + (longestRun i gs).2 ≤ gs.length ∧
      (gs.drop start).take (longestRun i gs).2 = List.replicate (longestRun i gs).2 0 := by
  induction gs generalizing i with
  | nil => exact ⟨0, rfl, Nat.le_refl 0, rfl⟩
  | cons g gs ih =>
    rw [longestRun]
    split
    · obtain ⟨hzeros, hlength⟩ := take_zeros (g :: gs)
      exact ⟨0, rfl, by omega, hzeros⟩
    · obtain ⟨start, hstart, hlength, hzeros⟩ := ih (i + 1)
      refine ⟨start + 1, ?_, ?_, hzeros⟩
      · omega
      · rw [List.length_cons]
        omega

/-- A list is what stands before the run, the run, and what stands behind it. -/
theorem split_longestRun (gs : List UInt16) :
    (longestRun 0 gs).1 + (longestRun 0 gs).2 ≤ gs.length ∧
      gs.take (longestRun 0 gs).1 ++ List.replicate (longestRun 0 gs).2 0 ++
        gs.drop ((longestRun 0 gs).1 + (longestRun 0 gs).2) = gs := by
  obtain ⟨start, hstart, hlength, hzeros⟩ := longestRun_zeros 0 gs
  rw [Nat.zero_add] at hstart
  rw [hstart]
  refine ⟨hlength, ?_⟩
  rw [← hzeros, ← List.drop_drop, List.append_assoc, List.take_append_drop, List.take_append_drop]

/-! ### Addresses -/

/-- The groups around `::` are read, and what it stands for is what they are short of. -/
theorem read?_around {front back : List UInt16} (hlength : front.length + back.length ≤ 7) :
    read? (groupChars front ++ ':' :: ':' :: groupChars back) =
      ofList? (front ++ List.replicate (8 - (front.length + back.length)) 0 ++ back) := by
  have hcut : cut? (groupChars front ++ ':' :: ':' :: groupChars back) =
      some (groupChars front, groupChars back) := by
    rw [cut?_groupChars, cut?]
    simp
  rw [read?, hcut]
  simp only [side?_groupChars, if_pos hlength]

theorem read?_compressed {gs : List UInt16} (hlength : gs.length = 8) :
    read? (compressed gs) = ofList? gs := by
  obtain ⟨hinside, hsplit⟩ := split_longestRun gs
  simp only [compressed]
  split
  · next hrun =>
    have hfront : (gs.take (longestRun 0 gs).1).length = (longestRun 0 gs).1 := by
      rw [List.length_take]
      omega
    have hback : (gs.drop ((longestRun 0 gs).1 + (longestRun 0 gs).2)).length =
        8 - ((longestRun 0 gs).1 + (longestRun 0 gs).2) := by
      rw [List.length_drop, hlength]
    have hmissing : 8 - ((gs.take (longestRun 0 gs).1).length +
        (gs.drop ((longestRun 0 gs).1 + (longestRun 0 gs).2)).length) = (longestRun 0 gs).2 := by
      omega
    rw [read?_around (by omega), hmissing, hsplit]
  · have hne : gs ≠ [] := by
      rintro rfl
      cases hlength
    have hcut : cut? (groupChars gs) = none := by
      have hnone := cut?_groupChars gs []
      rwa [List.append_nil] at hnone
    rw [read?, hcut]
    simp only [pieces_groupChars hne, groups?_hexadecimal]
    rfl

theorem eq_of_mapped? {ip : Ip6} {w : Ip4} (h : ip.mapped? = some w) :
    ip = ⟨0, 0, 0, 0, 0, 0xFFFF, group w.a w.b, group w.c w.d⟩ := by
  obtain ⟨g0, g1, g2, g3, g4, g5, g6, g7⟩ := ip
  unfold mapped? at h
  split at h
  · next hlead =>
    obtain ⟨rfl, rfl, rfl, rfl, rfl, rfl⟩ := hlead
    cases h
    rw [group_split, group_split]
  · cases h

/-- A dotted end is read as the last two groups. -/
theorem read?_mapped (w : Ip4) :
    read? ("::ffff:".toList ++ w.chars) =
      some ⟨0, 0, 0, 0, 0, 0xFFFF, group w.a w.b, group w.c w.d⟩ := by
  have hparts : ∀ part ∈ ["ffff".toList, w.chars], ':' ∉ part := by
    rintro part (_ | ⟨_, _ | ⟨_, ⟨⟩⟩⟩)
    · decide
    · exact w.colon_not_mem_chars
  have hpieces : pieces ':' ("ffff:".toList ++ w.chars) = ["ffff".toList, w.chars] :=
    pieces_joined hparts (List.cons_ne_nil _ _)
  have hlead : group? "ffff".toList = some 0xFFFF := by decide
  have hback : side? true ("ffff:".toList ++ w.chars) =
      some [0xFFFF, group w.a w.b, group w.c w.d] := by
    rw [side?_of_ne_nil true (by simp), if_pos rfl, hpieces, groups?, hlead, groups?, ending?_chars]
    rintro ⟨⟩
  have hfront : side? false [] = some [] := rfl
  have hcut : cut? ("::ffff:".toList ++ w.chars) = some ([], "ffff:".toList ++ w.chars) := rfl
  rw [read?, hcut]
  simp only [hfront, hback]
  rfl

theorem read?_chars (ip : Ip6) : read? ip.chars = some ip := by
  unfold chars
  cases hmapped : ip.mapped? with
  | some w =>
    rw [eq_of_mapped? hmapped]
    exact read?_mapped w
  | none => exact read?_compressed rfl

theorem colon_mem_chars (ip : Ip6) : ':' ∈ ip.chars := by
  unfold chars
  split
  · exact List.mem_append_left _ (by decide)
  · simp only [compressed]
    split
    · exact List.mem_append_right _ List.mem_cons_self
    · simp [groupChars, toList, joined]

end Ip6

namespace Address

theorem read?_chars (a : Address) : read? a.chars = some a := by
  cases a with
  | v4 ip => rw [chars, read?, Ip4.read?_chars]
  | v6 ip =>
    have hnone : Ip4.read? ip.chars = none := by
      cases hread : Ip4.read? ip.chars with
      | none => rfl
      | some w => exact absurd ip.colon_mem_chars (Ip4.not_mem_of_read? rfl (by decide) hread)
    rw [chars, read?, hnone, Ip6.read?_chars]
    rfl

/-- The text of an address is read as that address. -/
theorem ofText?_text (a : Address) : ofText? a.text = some a := by
  rw [ofText?, text, String.toList_ofList]
  exact read?_chars a

example : ofText? "::ffff:10.1.2.3" = some (.v6 ⟨0, 0, 0, 0, 0, 0xFFFF, 0x0A01, 0x0203⟩) := by
  decide

end Address

end LookupTap
