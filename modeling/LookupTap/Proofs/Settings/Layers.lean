import LookupTap.Proofs.Settings.Key
import LookupTap.Proofs.Settings.Taken
import Mathlib.Data.List.Induction

/-! How a setting is decided.

The entries of the file, in any order, and those of the variables, in any order, are laid over
each other. Each goes into one slot (`get?_laid`), and in the slot of a setting a whole value, or a
run of values for parts of it, hides all that is below (`foldl_winning`). So a setting is read from
what wins for it alone, and the settings load just when each of them does (`load_layers`).

The order is nothing to a setting that only whole keys lead to: a table has one entry for it at most
(`entries_of_whole`), and that of the variables is the last variable of its name (`get?_table`). -/
namespace LookupTap.Settings

/-- Data that is no list and no table. -/
def Data.isScalar : Data → Bool
  | list _ => false
  | table _ => false
  | _ => true

/-- A value, and the key that it is laid under. -/
structure Assignment where
  key : Key
  value : Value

namespace Assignment

/-- What an entry of a table assigns. -/
def ofEntry (entry : String × Value) : Assignment := ⟨Key.ofText entry.1, entry.2⟩

def slot (a : Assignment) : String := a.key.slot

/-- The assignment is for a slot as a whole. -/
def isWhole (a : Assignment) : Bool := a.key.isWhole

/-- What is in the slot after the assignment of a scalar. -/
def fill (a : Assignment) (old : Option Value) : Value :=
  match a.key.segments with
  | [] => a.value
  | first :: rest =>
    let old := old.getD ⟨.nil, none⟩
    ⟨Data.setAt a.value.data (first :: rest) old.data,
      if first.fits old.data then old.origin else none⟩

end Assignment

/-- The table that assignments make of another, one after the other. -/
def laidOver (t : Table) (as : List Assignment) : Table :=
  as.foldl (fun (t : Table) a => t.set a.key a.value) t

def laid (as : List Assignment) : Table := laidOver [] as

/-- What a table assigns, entry by entry. -/
def assigned (t : Table) : List Assignment := t.map .ofEntry

/-- The settings that assignments give. -/
def given (as : List Assignment) : Except Fault Settings := ofTable (laid as)

theorem setAll_eq (t entries : Table) : t.setAll entries = laidOver t (assigned entries) := by
  rw [laidOver, assigned, List.foldl_map]
  rfl

theorem laid_append (as bs : List Assignment) : laid (as ++ bs) = laidOver (laid as) bs :=
  List.foldl_append

/-- Setting by key keeps keys apart. -/
theorem nodup_set {t : Table} (h : (t.map Prod.fst).Nodup) (key : Key) (v : Value) :
    ((t.set key v).map Prod.fst).Nodup := by
  unfold Table.set
  split
  · unfold Table.put
    dsimp only
    split
    · split
      · exact Keyed.nodup_put _ _ h
      · exact Keyed.nodup_put _ _ h
      · split
        · exact h
        · exact Keyed.nodup_put _ _ h
    · exact Keyed.nodup_put _ _ h
  · exact Keyed.nodup_put _ _ h

theorem nodup_laid (as : List Assignment) : ((laid as).map Prod.fst).Nodup :=
  List.foldlRecOn (motive := fun t : Table => (t.map Prod.fst).Nodup) as _ List.nodup_nil
    fun _ h a _ => nodup_set h a.key a.value

/-! ### One slot -/

section Slot
variable {a : Assignment} {as : List Assignment}

theorem get?_set (hscalar : a.value.data.isScalar) (t : Table) (slot : String) :
    Keyed.get? slot (t.set a.key a.value) =
      if slot = a.slot then some (a.fill (Keyed.get? slot t)) else Keyed.get? slot t := by
  obtain ⟨⟨root, segments⟩, v⟩ := a
  cases segments with
  | nil =>
    have hput : t.set ⟨root, []⟩ v = Keyed.put (Text.lower root) v t := by
      obtain ⟨d, origin⟩ := v
      cases d <;> first | rfl | cases hscalar
    rw [hput, Keyed.get?_put]
    rfl
  | cons first rest =>
    simp only [Table.set, Keyed.get?_put, Assignment.fill]
    split
    · next hslot =>
      subst hslot
      exact (if_pos rfl).symm
    · next hother => exact (if_neg hother).symm

theorem get?_laidOver (hscalar : ∀ a ∈ as, a.value.data.isScalar) (t : Table) (slot : String) :
    Keyed.get? slot (laidOver t as) =
      (as.filter (·.slot = slot)).foldl (fun old a => some (a.fill old)) (Keyed.get? slot t) := by
  induction as generalizing t with
  | nil => rfl
  | cons a rest ih =>
    have hset := get?_set (hscalar a List.mem_cons_self) t slot
    have hrest := ih (fun b hb => hscalar b (List.mem_cons_of_mem a hb)) (t.set a.key a.value)
    refine hrest.trans ?_
    rw [hset]
    by_cases hslot : a.slot = slot
    · rw [if_pos hslot.symm, List.filter_cons_of_pos (by simpa using hslot), List.foldl_cons]
    · rw [if_neg (Ne.symm hslot), List.filter_cons_of_neg (by simpa using hslot)]

/-- A slot has what the assignments to it make, whatever else is assigned. -/
theorem get?_laid (hscalar : ∀ a ∈ as, a.value.data.isScalar) (slot : String) :
    Keyed.get? slot (laid as) =
      (as.filter (·.slot = slot)).foldl (fun old a => some (a.fill old)) none :=
  get?_laidOver hscalar [] slot

theorem fill_whole (hwhole : a.isWhole = true) (old : Option Value) : a.fill old = a.value := by
  obtain ⟨⟨root, segments⟩, v⟩ := a
  cases segments with
  | nil => rfl
  | cons first rest => cases hwhole

/-- Laying data over a part sees only the entries and the items of what is there. -/
theorem setAt_congr {old old' : Data} (hentries : old.entries = old'.entries)
    (hitems : old.items = old'.items) (new : Data) (first : Segment) (rest : List Segment) :
    Data.setAt new (first :: rest) old = Data.setAt new (first :: rest) old' := by
  cases first with
  | entry key => cases rest <;> simp only [Data.setAt, hentries]
  | item index => simp only [Data.setAt, hitems]

/-- An assignment to a part of a scalar does not see the scalar. -/
theorem fill_scalar (hpart : a.isWhole = false) {old : Value} (hold : old.data.isScalar) :
    a.fill (some old) = a.fill none := by
  obtain ⟨⟨root, segments⟩, v⟩ := a
  cases segments with
  | nil => cases hpart
  | cons first rest =>
    have hsame : old.data.entries = Data.nil.entries ∧ old.data.items = Data.nil.items ∧
        first.fits old.data = false := by
      obtain ⟨d, origin⟩ := old
      cases d <;> first | (cases first <;> exact ⟨rfl, rfl, rfl⟩) | cases hold
    obtain ⟨hentries, hitems, hfits⟩ := hsame
    have hnone : first.fits .nil = false := by cases first <;> rfl
    simp only [Assignment.fill, Option.getD_some, Option.getD_none, hfits, hnone,
      setAt_congr hentries hitems, Bool.false_eq_true, if_false]

end Slot

/-! ### What wins -/

/-- What counts after one more assignment to a slot: it alone if it is for the whole, and else it
and those for parts that counted before. -/
def nextWinning (won : List Assignment) (a : Assignment) : List Assignment :=
  if a.isWhole then [a] else won.filter (!·.isWhole) ++ [a]

/-- Of the assignments to a slot those that count: the last one if it is for the whole, and else
those for parts at the end. -/
def winning (as : List Assignment) : List Assignment := as.foldl nextWinning []

theorem winning_concat (as : List Assignment) (a : Assignment) :
    winning (as ++ [a]) = nextWinning (winning as) a := List.foldl_concat ..

theorem mem_of_mem_winning {as : List Assignment} {a : Assignment} (h : a ∈ winning as) :
    a ∈ as := by
  induction as using List.reverseRecOn with
  | nil => exact h
  | append_singleton as b ih =>
    rw [winning_concat, nextWinning] at h
    split at h
    · exact List.mem_append_right _ h
    · rcases List.mem_append.mp h with hold | hnew
      · exact List.mem_append_left _ (ih (List.mem_of_mem_filter hold))
      · exact List.mem_append_right _ hnew

/-- What counts is one whole value, or values for parts only. -/
theorem winning_shape (as : List Assignment) :
    (∃ a, winning as = [a] ∧ a.isWhole = true) ∨ ∀ a ∈ winning as, a.isWhole = false := by
  induction as using List.reverseRecOn with
  | nil => exact .inr fun a ha => absurd ha List.not_mem_nil
  | append_singleton as b ih =>
    rw [winning_concat, nextWinning]
    split
    · next hwhole => exact .inl ⟨b, rfl, hwhole⟩
    · next hpart =>
      refine .inr fun a ha => ?_
      rcases List.mem_append.mp ha with hold | hnew
      · simpa using (List.mem_filter.mp hold).2
      · rw [List.mem_singleton.mp hnew]
        simpa using hpart

/-- What wins makes the same of a slot as all assignments to it. -/
theorem foldl_winning {as : List Assignment} (hscalar : ∀ a ∈ as, a.value.data.isScalar) :
    (winning as).foldl (fun old a => some (a.fill old)) none =
      as.foldl (fun old a => some (a.fill old)) none := by
  induction as using List.reverseRecOn with
  | nil => rfl
  | append_singleton as b ih =>
    have hbefore := ih fun a ha => hscalar a (List.mem_append_left _ ha)
    rw [winning_concat, nextWinning, List.foldl_concat, ← hbefore]
    split
    · next hwhole => simp only [List.foldl_cons, List.foldl_nil, fill_whole hwhole]
    · next hpart =>
      have hpart : b.isWhole = false := by simpa using hpart
      rw [List.foldl_concat]
      obtain ⟨a, hone, hwhole⟩ | hparts := winning_shape as
      · -- the whole value that counted is a scalar, so the part does not see it
        have ha : a.value.data.isScalar :=
          hscalar a (List.mem_append_left _ (mem_of_mem_winning (hone ▸ List.mem_singleton_self a)))
        rw [hone, List.filter_cons_of_neg (by simpa using hwhole), List.filter_nil]
        simp only [List.foldl_cons, List.foldl_nil, fill_whole hwhole, fill_scalar hpart ha]
      · rw [List.filter_eq_self.mpr fun a ha => by simp [hparts a ha]]

/-! ### The five settings -/

namespace Setting

/-- The assignments to the slot of a setting. -/
def entries (k : Setting) (as : List Assignment) : List Assignment := as.filter (·.slot = k.key)

/-- The assignment of a value to a setting by its name. -/
def named (k : Setting) (v : Value) : Assignment := ⟨⟨k.key, []⟩, v⟩

theorem dot_not_mem_key (k : Setting) : '.' ∉ k.key.toList := by
  cases k <;> decide

theorem lower_key (k : Setting) : Text.lower k.key = k.key := by
  cases k <;> decide +kernel

theorem ofText_key (k : Setting) : Key.ofText k.key = ⟨k.key, []⟩ := by
  cases k <;> decide +kernel

theorem dotted_key (k : Setting) : String.ofList (Variables.dotted k.key.toList) = k.key := by
  cases k <;> decide

theorem slot_key (k : Setting) : (Key.ofText k.key).slot = k.key := by
  rw [ofText_key]
  exact k.lower_key

end Setting

section Given
variable {as : List Assignment} (hscalar : ∀ a ∈ as, a.value.data.isScalar)
include hscalar

/-- What wins for a setting fills its slot as all assignments do, and no other slot. -/
theorem get?_winning (k k' : Setting) :
    Keyed.get? k'.key (laid (winning (k.entries as))) =
      if k' = k then Keyed.get? k.key (laid as) else none := by
  have hslot : ∀ a ∈ winning (k.entries as), a.slot = k.key := fun a ha =>
    of_decide_eq_true (List.mem_filter.mp (mem_of_mem_winning ha)).2
  have hentries : ∀ a ∈ k.entries as, a.value.data.isScalar := fun a ha =>
    hscalar a (List.mem_of_mem_filter ha)
  rw [get?_laid fun a ha => hentries a (mem_of_mem_winning ha)]
  split
  · next hk =>
    subst hk
    rw [List.filter_eq_self.mpr fun a ha => decide_eq_true (hslot a ha), foldl_winning hentries,
      get?_laid hscalar]
    rfl
  · next hk =>
    rw [List.filter_eq_nil_iff.mpr fun a ha => ?_]
    · rfl
    · rw [hslot a ha, decide_eq_true_eq]
      exact Setting.key_ne (Ne.symm hk)

theorem held_winning (k : Setting) (s : Settings) :
    k.Held (laid (winning (k.entries as))) s ↔ k.Held (laid as) s :=
  Setting.held_congr ((get?_winning hscalar k k).trans (if_pos rfl)) s

/-- Each setting is given by what wins for it alone. -/
theorem given_winning {s : Settings} (h : given as = .ok s) (k : Setting) :
    given (winning (k.entries as)) = .ok (k.alone s) := by
  refine ofTable_of_one (nodup_laid _)
    (fun k' hk' => (get?_winning hscalar k k').trans (if_neg hk')) ?_
  exact (held_winning hscalar k s).mpr ((ofTable_eq_ok_iff (nodup_laid as)).mp h k)

/-- There are settings just when what wins for each of them is accepted. -/
theorem given_ok_iff :
    (∃ s, given as = .ok s) ↔ ∀ k : Setting, ∃ s, given (winning (k.entries as)) = .ok s := by
  constructor
  · rintro ⟨s, h⟩ k
    exact ⟨_, given_winning hscalar h k⟩
  · intro h
    refine (ofTable_ok_iff (nodup_laid as)).mpr fun k => (h k).imp fun s hs => ?_
    exact (held_winning hscalar k s).mp ((ofTable_eq_ok_iff (nodup_laid _)).mp hs k)

end Given

/-! ### The sources -/

theorem isScalar_data (text : String) : (Variables.data text).isScalar = true := by
  unfold Variables.data
  split
  · rfl
  · rfl
  · split
    · rfl
    · split <;> rfl

theorem isScalar_of_mem_table {vars : Variables} {entry : String × Value} (h : entry ∈ vars.table) :
    entry.2.data.isScalar = true := by
  obtain ⟨v, _, hentry⟩ := List.mem_filterMap.mp (Keyed.mem_collect h)
  obtain ⟨key, _, rfl⟩ := Option.map_eq_some_iff.mp hentry
  exact isScalar_data v.2

namespace Loader

/-- What the file and the variables assign, each in the order in which they are gone through. -/
def assigned (l : Loader) (file : Table) (vars : Variables) : List Assignment :=
  Settings.assigned (l.inFile.order file) ++ Settings.assigned (l.inVariables.order vars.table)

theorem isScalar_of_mem_assigned (l : Loader) (vars : Variables) :
    ∀ a ∈ Settings.assigned (l.inVariables.order vars.table), a.value.data.isScalar = true := by
  intro a ha
  obtain ⟨entry, hentry, rfl⟩ := List.mem_map.mp ha
  exact isScalar_of_mem_table ((l.inVariables.perm _).mem_iff.mp hentry)

theorem laid_eq (l : Loader) (file : Table) (vars : Variables) :
    l.laid file vars = Settings.laid (l.assigned file vars) := by
  rw [Loader.laid, Loader.assigned, setAll_eq, setAll_eq, laid_append]
  rfl

theorem nodup_laid (l : Loader) (file : Table) (vars : Variables) :
    ((l.laid file vars).map Prod.fst).Nodup := by
  rw [laid_eq]
  exact Settings.nodup_laid _

end Loader

theorem load_ok_iff (l : Loader) {files : Files} {file : Option String} {t : Table}
    (h : fileTable l.others files file = .ok t) (vars : Variables) (s : Settings) :
    load files vars file l = .ok s ↔ ofTable (l.laid t (environment files vars)) = .ok s := by
  rw [load, h]
  exact ofTable_perm (l.nodup_laid t _) (l.inAll.perm _) s

/-! ### The `.env` file -/

/-- The variables that the `.env` file adds to those of the process. -/
def added (files : Files) (vars : Variables) : Variables :=
  (environment files vars).drop vars.length

/-- A file of assignments leaves the variables of the process, and adds others. -/
theorem assignAll_adds (vars earlier : Variables) (statements : List (List Char)) :
    ∃ more, Dotenv.assignAll vars earlier statements = vars ++ more ∧
      ∀ v ∈ more, v.1 ∉ vars.map Prod.fst := by
  have hnothing (vars : Variables) :
      ∃ more, vars = vars ++ more ∧ ∀ v ∈ more, v.1 ∉ vars.map Prod.fst :=
    ⟨[], (List.append_nil _).symm, fun v hv => absurd hv List.not_mem_nil⟩
  induction statements generalizing vars earlier with
  | nil => exact hnothing vars
  | cons statement rest ih =>
    unfold Dotenv.assignAll
    dsimp only
    split
    · exact ih vars earlier
    · split
      · exact hnothing vars
      · next name raw _ =>
        split
        · exact hnothing vars
        · next text _ =>
          split
          · exact ih vars _
          · next hnew =>
            obtain ⟨more, hall, hfresh⟩ := ih (vars ++ [(name, text)]) (Keyed.put name text earlier)
            refine ⟨(name, text) :: more, by rw [hall, List.append_assoc]; rfl, fun v hv => ?_⟩
            rcases List.mem_cons.mp hv with rfl | hin
            · exact Keyed.get?_eq_none_iff.mp (by simpa [Keyed.has] using hnew)
            · exact fun hold => hfresh v hin (by simp only [List.map_append, List.mem_append, hold,
                true_or])

/-- No variable that the `.env` file adds has the name of one of the process. -/
theorem environment_eq (files : Files) (vars : Variables) :
    environment files vars = vars ++ added files vars ∧
      ∀ v ∈ added files vars, v.1 ∉ vars.map Prod.fst := by
  obtain ⟨more, hmore, hfresh⟩ : ∃ more, environment files vars = vars ++ more ∧
      ∀ v ∈ more, v.1 ∉ vars.map Prod.fst := by
    unfold environment
    split
    · exact ⟨[], (List.append_nil _).symm, fun v hv => absurd hv List.not_mem_nil⟩
    · split
      · exact assignAll_adds vars [] _
      · exact ⟨[], (List.append_nil _).symm, fun v hv => absurd hv List.not_mem_nil⟩
  have hadded : added files vars = more := by rw [added, hmore, List.drop_left]
  exact ⟨hadded ▸ hmore, hadded ▸ hfresh⟩

/-! ### Settings that only whole keys lead to -/

namespace Setting

/-- All keys of the table that lead to the slot of the setting are for the whole of it. -/
def Whole (k : Setting) (t : Table) : Prop :=
  ∀ entry ∈ t, (Key.ofText entry.1).slot = k.key → (Key.ofText entry.1).isWhole = true

instance (k : Setting) (t : Table) : Decidable (k.Whole t) :=
  inferInstanceAs (Decidable (∀ entry ∈ t, _ → _))

/-- What the last variable of the name of the setting says. -/
def textIn? (k : Setting) (vars : Variables) : Option String :=
  (vars.filter fun v => Text.lower v.1 = Variables.lead ++ k.key).getLast?.map Prod.snd

variable {k : Setting}

theorem key?_eq_some_iff {name : String} :
    Variables.key? name = some k.key ↔ Text.lower name = Variables.lead ++ k.key := by
  refine ⟨Variables.lower_of_key? k.dot_not_mem_key, fun h => ?_⟩
  rw [Variables.key?_of_lower h, dotted_key]

/-- A table assigns its entry for the setting alone, in whatever order it is gone through. -/
theorem entries_of_whole {t t' : Table} (hapart : (t.map Prod.fst).Nodup)
    (hsmall : ∀ entry ∈ t, Text.lower entry.1 = entry.1) (hwhole : k.Whole t) (hperm : t'.Perm t) :
    k.entries (assigned t') = ((Keyed.get? k.key t).map k.named).toList := by
  have hslot : ∀ entry ∈ t',
      decide ((Assignment.ofEntry entry).slot = k.key) = decide (entry.1 = k.key) := by
    intro entry hentry
    have hin : entry ∈ t := hperm.mem_iff.mp hentry
    refine decide_eq_decide.mpr ⟨fun h => ?_, fun h => ?_⟩
    · have hled := Key.ofText_of_slot (hsmall entry hin) h
      rwa [if_pos (hwhole entry hin h)] at hled
    · exact (congrArg (fun key => (Key.ofText key).slot) h).trans k.slot_key
  have hapart' : (t'.map Prod.fst).Nodup := (hperm.map Prod.fst).nodup_iff.mpr hapart
  have hentries : k.entries (assigned t') = (t'.filter (·.1 = k.key)).map .ofEntry := by
    rw [entries, assigned, List.filter_map]
    exact congrArg _ (List.filter_congr hslot)
  rw [hentries, ← Keyed.get?_perm hapart hperm]
  cases hget : Keyed.get? k.key t' with
  | none =>
    rw [List.filter_eq_nil_iff.mpr fun entry hentry hkey => Keyed.get?_eq_none_iff.mp hget
      (List.mem_map.mpr ⟨entry, hentry, of_decide_eq_true hkey⟩)]
    rfl
  | some v =>
    rw [Keyed.filter_of_mem hapart' (Keyed.mem_of_get? hget)]
    exact congrArg (fun key => [Assignment.mk key v]) k.ofText_key

/-- What is put under the name of the setting is what the variables of this name say. -/
theorem valuesOf_key (k : Setting) (vars : Variables) :
    Keyed.valuesOf k.key (vars.filterMap Variables.entry?) =
      (vars.filter fun v => Text.lower v.1 = Variables.lead ++ k.key).map
        fun v => Variables.value v.2 := by
  induction vars with
  | nil => rfl
  | cons v rest ih =>
    by_cases hname : Text.lower v.1 = Variables.lead ++ k.key
    · have hentry : Variables.entry? v = some (k.key, Variables.value v.2) := by
        rw [Variables.entry?, key?_eq_some_iff.mpr hname, Option.map_some]
      rw [List.filterMap_cons_some hentry, List.filter_cons_of_pos (by simpa using hname),
        List.map_cons, ← ih]
      simp [Keyed.valuesOf]
    · rw [List.filter_cons_of_neg (by simpa using hname), ← ih]
      cases hentry : Variables.entry? v with
      | none => rw [List.filterMap_cons_none hentry]
      | some entry =>
        obtain ⟨key, hkey, rfl⟩ := Option.map_eq_some_iff.mp hentry
        have hother : key ≠ k.key := fun heq => hname (key?_eq_some_iff.mp (heq ▸ hkey))
        rw [List.filterMap_cons_some hentry]
        simp [Keyed.valuesOf, hother]

/-- What the variables say under the name of the setting is what the last one of it says. -/
theorem get?_table (k : Setting) (vars : Variables) :
    Keyed.get? k.key vars.table = (k.textIn? vars).map Variables.value := by
  rw [Variables.table, Keyed.get?_collect, valuesOf_key, List.getLast?_map, textIn?,
    Option.map_map]
  rfl

theorem textIn?_append (k : Setting) (vars more : Variables) :
    k.textIn? (vars ++ more) = (k.textIn? more).or (k.textIn? vars) := by
  rw [textIn?, textIn?, textIn?, List.filter_append, List.getLast?_append]
  cases (more.filter fun v => Text.lower v.1 = Variables.lead ++ k.key).getLast? <;> rfl

theorem exists_of_textIn? {vars : Variables} {text : String} (h : k.textIn? vars = some text) :
    ∃ v ∈ vars, Text.lower v.1 = Variables.lead ++ k.key := by
  obtain ⟨v, hlast, _⟩ := Option.map_eq_some_iff.mp h
  have hin := List.mem_filter.mp (List.mem_of_getLast? hlast)
  exact ⟨v, hin.1, of_decide_eq_true hin.2⟩

/-- If the `.env` file spells no variable otherwise than the process does, the process has the first
word. -/
theorem textIn?_added {vars more : Variables} (hfresh : ∀ v ∈ more, v.1 ∉ vars.map Prod.fst)
    (hspelled : ∀ v ∈ vars, ∀ v' ∈ more, Text.lower v.1 = Text.lower v'.1 → v.1 = v'.1) :
    k.textIn? (vars ++ more) = (k.textIn? vars).or (k.textIn? more) := by
  rw [textIn?_append]
  cases hvars : k.textIn? vars with
  | none => rw [Option.or_none, Option.none_or]
  | some text =>
    cases hmore : k.textIn? more with
    | none => rfl
    | some text' =>
      obtain ⟨v, hv, hlower⟩ := exists_of_textIn? hvars
      obtain ⟨v', hv', hlower'⟩ := exists_of_textIn? hmore
      have hname : v.1 = v'.1 := hspelled v hv v' hv' (hlower.trans hlower'.symm)
      exact absurd (List.mem_map.mpr ⟨v, hv, hname⟩) (hfresh v' hv')

end Setting

theorem small_of_mem_table {vars : Variables} {entry : String × Value} (h : entry ∈ vars.table) :
    Text.lower entry.1 = entry.1 := by
  obtain ⟨v, _, hentry⟩ := List.mem_filterMap.mp (Keyed.mem_collect h)
  obtain ⟨key, hkey, rfl⟩ := Option.map_eq_some_iff.mp hentry
  obtain ⟨_, _, _, _, hsmall⟩ := Variables.key?_eq_some hkey
  exact hsmall

theorem nodup_table (vars : Variables) : (vars.table.map Prod.fst).Nodup := Keyed.nodup_collect _

theorem nodup_fileTable {others : Readers} {files : Files} {file : Option String} {t : Table}
    (h : fileTable others files file = .ok t) : (t.map Prod.fst).Nodup := by
  cases file with
  | none =>
    cases h
    exact List.nodup_nil
  | some name =>
    obtain ⟨_, _, rfl⟩ := map_eq_ok h
    exact Keyed.nodup_collect _

/-- If only whole keys lead to a setting, its last variable wins, and without one the entry of the
file. -/
theorem winning_of_whole (l : Loader) {k : Setting} {t : Table} {vars : Variables}
    (hapart : (t.map Prod.fst).Nodup) (hsmall : ∀ entry ∈ t, Text.lower entry.1 = entry.1)
    (hfile : k.Whole t) (hvars : k.Whole vars.table) :
    winning (k.entries (l.assigned t vars)) =
      (((k.textIn? vars).map Variables.value).or (Keyed.get? k.key t)).toList.map k.named := by
  have hfirst := Setting.entries_of_whole hapart hsmall hfile (l.inFile.perm t)
  have hsecond := Setting.entries_of_whole (nodup_table vars)
    (fun entry => small_of_mem_table) hvars (l.inVariables.perm vars.table)
  rw [Loader.assigned, Setting.entries, List.filter_append]
  change winning (k.entries _ ++ k.entries _) = _
  rw [hfirst, hsecond, Setting.get?_table]
  cases (k.textIn? vars).map Variables.value <;> cases Keyed.get? k.key t <;> rfl

/-- A variable that is laid in the slot of a setting has its name for the first component; one for
the whole setting has no other component. -/
theorem component?_of_led {k : Setting} {name key : String}
    (hkey : Variables.key? name = some key) (hslot : (Key.ofText key).slot = k.key) :
    ('.' ∉ name.toList → '[' ∉ name.toList → Variables.component? name = some k.key) ∧
      ((Key.ofText key).isWhole = true → Text.lower name = Variables.lead ++ k.key) :=
  ⟨Variables.component?_of_slot k.dot_not_mem_key hkey hslot,
    Variables.lower_of_slot k.dot_not_mem_key hkey hslot⟩

/-- **Settings are decided one by one.** With a file of scalars under keys in small letters, or
none, and in whatever order the entries of the file and of the variables are gone through, each
setting is given by what wins for it alone among those of the file, and after them those of the
variables; and there are settings just when that is accepted for each of them. What wins is the last
value for the whole of the setting, or the last run of values for parts of it.

If only whole keys lead to the setting, and the `.env` file does not spell in other letters what the
process has, the order is nothing to it: it is what the process's variable says, else what that of
the `.env` file says, else what the file says, and else it is as by default.

A key of the file is for a setting if it is its name, or its name and a path into it; a variable, if
its first component is the name. -/
theorem load_layers (l : Loader) (files : Files) (vars : Variables) (file : Option String)
    (t : Table) (hfile : fileTable l.others files file = .ok t)
    (hscalar : ∀ entry ∈ t, entry.2.data.isScalar = true)
    (hsmall : ∀ entry ∈ t, Text.lower entry.1 = entry.1) :
    let more := added files vars
    let all := l.assigned t (vars ++ more)
    (∀ s, load files vars file l = .ok s →
      ∀ k : Setting, given (winning (k.entries all)) = .ok (k.alone s)) ∧
    ((∃ s, load files vars file l = .ok s) ↔
      ∀ k : Setting, ∃ s, given (winning (k.entries all)) = .ok s) ∧
    (∀ v ∈ more, v.1 ∉ vars.map Prod.fst) ∧
    (∀ k : Setting, k.Whole t → k.Whole (vars ++ more).table →
      (∀ v ∈ vars, ∀ v' ∈ more, Text.lower v.1 = Text.lower v'.1 → v.1 = v'.1) →
      winning (k.entries all) =
        ((((k.textIn? vars).or (k.textIn? more)).map Variables.value).or
          (Keyed.get? k.key t)).toList.map k.named) ∧
    (∀ (k : Setting) key, Text.lower key = key → (Key.ofText key).slot = k.key →
      if (Key.ofText key).isWhole then key = k.key
      else ∃ ch path, key.toList = k.key.toList ++ ch :: path ∧ (ch = '.' ∨ ch = '[')) ∧
    ∀ (k : Setting) name key, Variables.key? name = some key → (Key.ofText key).slot = k.key →
      ('.' ∉ name.toList → '[' ∉ name.toList → Variables.component? name = some k.key) ∧
      ((Key.ofText key).isWhole = true → Text.lower name = Variables.lead ++ k.key) := by
  intro more all
  obtain ⟨henvironment, hfresh⟩ := environment_eq files vars
  have hload (s : Settings) : load files vars file l = .ok s ↔ given all = .ok s := by
    rw [load_ok_iff l hfile, henvironment, l.laid_eq]
    rfl
  have hall : ∀ a ∈ all, a.value.data.isScalar = true := by
    intro a ha
    rcases List.mem_append.mp ha with hin | hin
    · obtain ⟨entry, hentry, rfl⟩ := List.mem_map.mp hin
      exact hscalar entry ((l.inFile.perm t).mem_iff.mp hentry)
    · exact l.isScalar_of_mem_assigned _ a hin
  rw [exists_congr hload]
  refine ⟨fun s hs => given_winning hall ((hload s).mp hs), given_ok_iff hall, hfresh, ?_,
    fun k key hsmall => Key.ofText_of_slot hsmall, fun k name key => component?_of_led⟩
  intro k hwhole hwhole' hspelled
  rw [winning_of_whole l (nodup_fileTable hfile) hsmall hwhole hwhole',
    Setting.textIn?_added hfresh hspelled]

/-! ### Small directories -/

/-- A working directory with these files. -/
def holding (files : List (String × String)) : Files :=
  files.foldl (fun fs (name, text) => fs.write name (Utf8.encode text.toList)) { home := "/w" }

/-- Three sources with something to say on the channel, two of them on something else as well. -/
def three : Files := holding
  [("c.json", "\x7b\"events_channel\": \"file\", \"library_path\": \"/lib/f.so\"\x7d"),
    (".env", "RESOLVTAP__EVENTS_CHANNEL=dotenv\nRESOLVTAP__LIBRARY_MARKER=musl\n")]

/-- The way from the last entry to the first. -/
def Walk.backward : Walk := ⟨List.reverse, List.reverse_perm⟩

/-- The channel is the process's, the marker the one of the `.env` file, and the path the file's. -/
theorem load_layers_three :
    let l : Loader := { inFile := .backward, inVariables := .backward, inAll := .backward }
    let vars : Variables := [("RESOLVTAP__EVENTS_CHANNEL", "process"), ("RESOLVTAP__OTHER", "1")]
    let s : Settings :=
      { eventsChannel := "process", libraryMarker := "musl", libraryPath := some "/lib/f.so" }
    ∃ t, fileTable l.others three (some "c.json") = .ok t ∧
      load three vars (some "c.json") l = .ok s ∧
      (∀ k : Setting,
        given (winning (k.entries (l.assigned t (vars ++ added three vars)))) = .ok (k.alone s)) ∧
      winning (Setting.eventsChannel.entries (l.assigned t (vars ++ added three vars))) =
        [Setting.eventsChannel.named (Variables.value "process")] := by
  intro l vars s
  have hload : load three vars (some "c.json") l = .ok s := eq_ok_of_toOption (by decide +kernel)
  have hchecked : ((fileTable l.others three (some "c.json")).toOption.map fun t =>
      decide ((∀ entry ∈ t, entry.2.data.isScalar = true) ∧
        (∀ entry ∈ t, Text.lower entry.1 = entry.1) ∧ Setting.eventsChannel.Whole t)) =
      some true := by decide +kernel
  have hvars : Setting.eventsChannel.Whole (Variables.table (vars ++ added three vars)) := by
    decide +kernel
  have hspelled : ∀ v ∈ vars, ∀ v' ∈ added three vars,
      Text.lower v.1 = Text.lower v'.1 → v.1 = v'.1 := by decide +kernel
  have htext : Setting.eventsChannel.textIn? vars = some "process" := by decide +kernel
  obtain ⟨t, htable, hall⟩ := Option.map_eq_some_iff.mp hchecked
  have hfile : fileTable l.others three (some "c.json") = .ok t := eq_ok_of_toOption htable
  obtain ⟨hscalar, hsmall, hwhole⟩ := of_decide_eq_true hall
  obtain ⟨halone, _, _, hsources, _⟩ :=
    load_layers l three vars (some "c.json") t hfile hscalar hsmall
  refine ⟨t, hfile, hload, halone s hload, ?_⟩
  rw [hsources .eventsChannel hwhole hvars hspelled, htext]
  rfl

/-- The process's own `resolvtap__events_channel` loses to what the `.env` file calls
`RESOLVTAP__EVENTS_CHANNEL`; a key of the file that is no setting leads into one; and a variable of
the `.env` file spoils one of the process that leads into the same setting. -/
theorem load_across_layers :
    (load (holding [(".env", "RESOLVTAP__EVENTS_CHANNEL=dotenv\n")])
        [("resolvtap__events_channel", "process")] none).toOption =
      some { eventsChannel := "dotenv" } ∧
    (load (holding []) [("resolvtap__events_channel", "process")] none).toOption =
      some { eventsChannel := "process" } ∧
    (load (holding [("c.yaml", "locator.proc_maps: x\n")]) [] (some "c.yaml")).toOption =
      some { locator := .procMaps } ∧
    (load (holding []) [] none).toOption = some {} ∧
    (load (holding [(".env", "RESOLVTAP__LOCATOR__LINK_MAP=y\n")])
        [("RESOLVTAP__LOCATOR__PROC_MAPS", "x")] none).toOption = none ∧
    (load (holding []) [("RESOLVTAP__LOCATOR__PROC_MAPS", "x")] none).toOption =
      some { locator := .procMaps } := by
  decide +kernel

end LookupTap.Settings
