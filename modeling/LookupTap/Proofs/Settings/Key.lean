import LookupTap.Proofs.Text.Case
import LookupTap.Settings.Environment
import Mathlib.Data.List.Basic
import Mathlib.Data.List.TakeWhile

/-! Where a key leads.

A key lays its value under its slot: the root of a key that leads into something, and a whole key
in small letters. So an entry of a file is laid under a name without dots and brackets if that is
its key, or what its key has before a dot or a bracket (`ofText_of_slot`). The variables that are
laid there are those that have the name for their first component (`component?_of_slot`). -/
namespace LookupTap

/-! ### Scans -/

namespace Text.Scan
variable {α β : Type}

theorem bind_eq_some {x : Scan α} {f : α → Scan β} {c : Cursor} {r : β × Cursor} :
    (x >>= f) c = some r ↔ ∃ a c', x c = some (a, c') ∧ f a c' = some r := by
  constructor
  · intro h
    obtain ⟨⟨a, c'⟩, hx, hf⟩ := Option.bind_eq_some_iff.mp h
    exact ⟨a, c', hx, hf⟩
  · rintro ⟨a, c', hx, hf⟩
    exact Option.bind_eq_some_iff.mpr ⟨(a, c'), hx, hf⟩

theorem rest_pass (c : Cursor) (ch : Char) : (c.pass ch).rest = c.rest.tail := by
  unfold Cursor.pass
  split <;> rfl

theorem rest_passes (cs : List Char) (c : Cursor) :
    (cs.foldl Cursor.pass c).rest = c.rest.drop cs.length := by
  induction cs generalizing c with
  | nil => rfl
  | cons ch rest ih => rw [List.foldl_cons, ih, rest_pass, List.drop_tail, List.length_cons]

/-- What `takeWhile` takes, and what it leaves. -/
theorem takeWhile_eq_some {p : Char → Bool} {c c' : Cursor} {cs : List Char}
    (h : takeWhile p c = some (cs, c')) :
    c.rest = cs ++ c'.rest := by
  cases h
  rw [rest_passes]
  exact (List.prefix_iff_eq_append.mp (List.takeWhile_prefix p)).symm

theorem accept_eq_some {lead : List Char} {c c' : Cursor} {taken : Bool}
    (h : accept lead c = some (taken, c')) :
    (taken = true ∧ lead.isPrefixOf c.rest) ∨ (taken = false ∧ c' = c) := by
  obtain ⟨looks, c₁, hlooks, h⟩ := bind_eq_some.mp h
  cases hlooks
  split at h
  · next hlead =>
    obtain ⟨_, _, _, h⟩ := bind_eq_some.mp h
    cases h
    exact .inl ⟨rfl, hlead⟩
  · cases h
    exact .inr ⟨rfl, rfl⟩

theorem expect_eq_some {lead : List Char} {c c' : Cursor} (h : expect lead c = some ((), c')) :
    lead.isPrefixOf c.rest := by
  obtain ⟨looks, c₁, hlooks, h⟩ := bind_eq_some.mp h
  cases hlooks
  split at h
  · assumption
  · cases h

theorem whole_eq_some {s : Scan α} {text : List Char} {a : α} (h : s.whole text = some a) :
    ∃ c, s { rest := text } = some (a, c) := by
  unfold whole at h
  split at h
  · next a' c hrun =>
    split at h
    · cases h
      exact ⟨c, hrun⟩
    · cases h
  · cases h

end Text.Scan

namespace Settings

namespace Key
open Text (Scan Cursor)

/-! ### Keys -/

theorem name_eq_some {c c' : Cursor} {key : String} (h : name c = some (key, c')) :
    c.rest = key.toList ++ c'.rest := by
  obtain ⟨cs, c₁, htaken, hrest⟩ := Scan.bind_eq_some.mp h
  have hsplit := Scan.takeWhile_eq_some htaken
  split at hrest
  · cases hrest
  · cases hrest
    rwa [String.toList_ofList]

/-- What a path goes on with behind its root. -/
theorem tail_eq_some {fuel : Nat} {c c' : Cursor} {segments : List Segment}
    (h : tail fuel c = some (segments, c')) :
    (segments = [] ∧ c.rest = []) ∨
      (segments ≠ [] ∧ ∃ ch more, c.rest = ch :: more ∧ (ch = '.' ∨ ch = '[')) := by
  cases fuel with
  | zero => cases h
  | succ fuel =>
    obtain ⟨ended, c₁, hend, hgoes⟩ := Scan.bind_eq_some.mp h
    cases hend
    split at hgoes
    · next hempty =>
      cases hgoes
      exact .inl ⟨rfl, List.isEmpty_iff.mp hempty⟩
    · have hfirst : ∀ {lead : Char}, [lead].isPrefixOf c.rest = true →
          ∃ more, c.rest = lead :: more := fun hlead =>
        (List.isPrefixOf_iff_prefix.mp hlead).imp fun _ => Eq.symm
      refine .inr ?_
      obtain ⟨dot, c₂, hdot, hstep⟩ := Scan.bind_eq_some.mp hgoes
      split at hstep
      · next htaken =>
        obtain ⟨_, hlead⟩ | ⟨hnot, _⟩ := Scan.accept_eq_some hdot
        · obtain ⟨more, hmore⟩ := hfirst hlead
          obtain ⟨_, _, _, hrest⟩ := Scan.bind_eq_some.mp hstep
          obtain ⟨_, _, _, hdone⟩ := Scan.bind_eq_some.mp hrest
          cases hdone
          exact ⟨List.cons_ne_nil _ _, _, more, hmore, .inl rfl⟩
        · cases hnot.symm.trans htaken
      · next hleft =>
        obtain ⟨htaken, _⟩ | ⟨_, rfl⟩ := Scan.accept_eq_some hdot
        · exact absurd htaken hleft
        · obtain ⟨_, _, hopen, hindex⟩ := Scan.bind_eq_some.mp hstep
          obtain ⟨more, hmore⟩ := hfirst (Scan.expect_eq_some hopen)
          obtain ⟨_, _, _, hclose⟩ := Scan.bind_eq_some.mp hindex
          obtain ⟨_, _, _, hrest⟩ := Scan.bind_eq_some.mp hclose
          obtain ⟨_, _, _, hdone⟩ := Scan.bind_eq_some.mp hrest
          cases hdone
          exact ⟨List.cons_ne_nil _ _, _, more, hmore, .inr rfl⟩

/-- A key that leads into something has its root up to a dot or a bracket; any other key is its own
root. -/
theorem ofText_cases (text : String) :
    ofText text = ⟨text, []⟩ ∨
      ((ofText text).segments ≠ [] ∧
        ∃ ch more, text.toList = (ofText text).root.toList ++ ch :: more ∧
          (ch = '.' ∨ ch = '[')) := by
  unfold ofText
  cases hread : (path text.length).whole text.toList with
  | none => exact .inl rfl
  | some key =>
    obtain ⟨c, hpath⟩ := Scan.whole_eq_some hread
    obtain ⟨root, c₁, hname, h⟩ := Scan.bind_eq_some.mp hpath
    obtain ⟨segments, c₂, htail, h⟩ := Scan.bind_eq_some.mp h
    cases h
    have hroot : text.toList = root.toList ++ c₁.rest := name_eq_some hname
    obtain ⟨rfl, hend⟩ | ⟨hdeep, ch, more, hmore, hch⟩ := tail_eq_some htail
    · rw [hend, List.append_nil] at hroot
      exact .inl (congrArg (fun root => Key.mk root []) (String.toList_inj.mp hroot.symm))
    · exact .inr ⟨hdeep, ch, more, hmore ▸ hroot, hch⟩

/-- A key that leads into nothing. -/
def isWhole (k : Key) : Bool := k.segments.isEmpty

/-- What a key lays its value under. -/
def slot (k : Key) : String := if k.isWhole then Text.lower k.root else k.root

/-- What a text is that leads to a slot, as a key. -/
theorem ofText_of_slot {text slot : String} (hsmall : Text.lower text = text)
    (h : (ofText text).slot = slot) :
    if (ofText text).isWhole then text = slot
    else ∃ ch more, text.toList = slot.toList ++ ch :: more ∧ (ch = '.' ∨ ch = '[') := by
  obtain hwhole | ⟨hdeep, hsplit⟩ := ofText_cases text
  · rw [hwhole] at h ⊢
    exact hsmall.symm.trans h
  · have hnot : ¬ (ofText text).isWhole = true := by simpa [isWhole] using hdeep
    rw [Key.slot, if_neg hnot] at h
    rw [if_neg hnot, ← h]
    exact hsplit

end Key

/-! ### Variables -/

namespace Variables

/-- What stands before the first `__`. -/
def firstPart : List Char → List Char
  | '_' :: '_' :: _ => []
  | c :: rest => c :: firstPart rest
  | [] => []

/-- The first component of the name of a variable that counts, in small letters. -/
def component? (name : String) : Option String :=
  (lead.toList.isPrefixOf? (Text.lower name).toList).map fun rest => String.ofList (firstPart rest)

theorem mem_dotted {c : Char} {cs : List Char} (h : c ∈ dotted cs) : c = '.' ∨ c ∈ cs := by
  fun_induction dotted cs with
  | case1 rest ih =>
    rcases List.mem_cons.mp h with rfl | hin
    · exact .inl rfl
    · exact (ih hin).imp_right fun hrest => List.mem_cons_of_mem _ (List.mem_cons_of_mem _ hrest)
  | case2 first rest hother ih =>
    rcases List.mem_cons.mp h with rfl | hin
    · exact .inr List.mem_cons_self
    · exact (ih hin).imp_right (List.mem_cons_of_mem _)
  | case3 => exact .inr h

theorem takeWhile_dotted {cs : List Char} (h : '.' ∉ cs) :
    (dotted cs).takeWhile (· ≠ '.') = firstPart cs := by
  fun_induction dotted cs with
  | case1 rest ih => rfl
  | case2 first rest hother ih =>
    have hne : first ≠ '.' := fun heq => h (heq ▸ List.mem_cons_self)
    rw [List.takeWhile_cons_of_pos (by simpa using hne),
      ih fun hin => h (List.mem_cons_of_mem _ hin), firstPart]
    exact hother
  | case3 => rfl

theorem dotted_of_not_mem {cs : List Char} (h : '.' ∉ dotted cs) : dotted cs = cs := by
  fun_induction dotted cs with
  | case1 rest ih => exact absurd List.mem_cons_self h
  | case2 first rest hother ih => rw [ih fun hin => h (List.mem_cons_of_mem _ hin)]
  | case3 => rfl

/-- The key of a variable is what stands behind the lead, in small letters and with dots. -/
theorem key?_eq_some {name key : String} (h : key? name = some key) :
    ∃ rest, (Text.lower name).toList = lead.toList ++ rest ∧
      component? name = some (String.ofList (firstPart rest)) ∧ key.toList = dotted rest ∧
      Text.lower key = key := by
  obtain ⟨rest, hrest, rfl⟩ := Option.map_eq_some_iff.mp h
  have hsplit : (Text.lower name).toList = lead.toList ++ rest :=
    (List.isPrefixOf?_eq_some_iff_append_eq.mp hrest).symm
  refine ⟨rest, hsplit, by rw [component?, hrest]; rfl, String.toList_ofList,
    Text.lower_of_small fun c hc => ?_⟩
  rw [String.toList_ofList] at hc
  rcases mem_dotted hc with rfl | hin
  · rfl
  · exact Text.small_of_mem_lower (hsplit ▸ List.mem_append_right _ hin)

variable {name key slot : String}

/-- A variable that is laid under a name has it for its first component. -/
theorem component?_of_slot (hslot : '.' ∉ slot.toList) (hkey : key? name = some key)
    (h : (Key.ofText key).slot = slot) (hdot : '.' ∉ name.toList) (hbracket : '[' ∉ name.toList) :
    component? name = some slot := by
  obtain ⟨rest, hsplit, hcomponent, hlist, hsmall⟩ := key?_eq_some hkey
  have hrest : ∀ c : Char, c.toNat < 0x61 → c ∈ rest → c ∈ name.toList := fun c hlow hc =>
    Text.mem_of_mem_lower (hsplit ▸ List.mem_append_right _ hc) hlow
  have hfirst := takeWhile_dotted fun hin => hdot (hrest '.' (by decide) hin)
  have hkept : slot.toList.takeWhile (· ≠ '.') = slot.toList :=
    List.takeWhile_eq_self_iff.mpr fun c hc => decide_eq_true fun heq => hslot (heq ▸ hc)
  have hpart : firstPart rest = slot.toList := by
    have hled := Key.ofText_of_slot hsmall h
    split at hled
    · rw [← hfirst, ← hlist, hled, hkept]
    · obtain ⟨ch, more, hmore, rfl | rfl⟩ := hled
      · rw [← hfirst, ← hlist, hmore, List.takeWhile_append, hkept]
        simp
      · have hin : '[' ∈ dotted rest := by simp [← hlist, hmore]
        rcases mem_dotted hin with heq | hin
        · cases heq
        · exact absurd (hrest '[' (by decide) hin) hbracket
  rw [hcomponent, hpart, String.ofList_toList]

/-- A variable whose key has no dots is its key behind the lead. -/
theorem lower_of_key? (hdot : '.' ∉ key.toList) (h : key? name = some key) :
    Text.lower name = lead ++ key := by
  obtain ⟨rest, hsplit, _, hlist, _⟩ := key?_eq_some h
  rw [hlist] at hdot
  rw [← String.toList_inj, hsplit, String.toList_append, hlist, dotted_of_not_mem hdot]

theorem key?_of_lower (h : Text.lower name = lead ++ key) :
    key? name = some (String.ofList (dotted key.toList)) := by
  have hsplit : lead.toList.isPrefixOf? (Text.lower name).toList = some key.toList := by
    rw [List.isPrefixOf?_eq_some_iff_append_eq, h, String.toList_append]
  rw [key?, hsplit, Option.map_some]

/-- A variable for a whole name is that name behind the lead. -/
theorem lower_of_slot (hslot : '.' ∉ slot.toList) (hkey : key? name = some key)
    (h : (Key.ofText key).slot = slot) (hwhole : (Key.ofText key).isWhole = true) :
    Text.lower name = lead ++ slot := by
  obtain ⟨_, _, _, _, hsmall⟩ := key?_eq_some hkey
  have hled := Key.ofText_of_slot hsmall h
  rw [if_pos hwhole] at hled
  subst hled
  exact lower_of_key? hslot hkey

end Variables

end Settings

end LookupTap
