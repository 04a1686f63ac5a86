import LookupTap.Settings
import LookupTap.Step

/-! The settings of a table.

Entries are taken up one after the other, each into the one field that its key names, so a field
comes from its own entry and from no other (`alone_take`, `take_other`). Where keys are apart there
is one entry for a field at most: the table gives settings just when each of its entries is
accepted (`ofTable_eq_ok_iff`), in whatever order they are taken up (`ofTable_perm`). -/
namespace LookupTap.Settings

namespace Setting

/-- This setting as in `s`, and the others as they are by default. -/
def alone (s : Settings) : Setting → Settings
  | artifactPath => { artifactPath := s.artifactPath }
  | eventsChannel => { eventsChannel := s.eventsChannel }
  | libraryMarker => { libraryMarker := s.libraryMarker }
  | libraryPath => { libraryPath := s.libraryPath }
  | locator => { locator := s.locator }

/-- The table gives this setting as it is in `s`, or else it is as in `base`. -/
def HeldOver (base : Settings) (t : Table) (s : Settings) (k : Setting) : Prop :=
  match Keyed.get? k.key t with
  | none => k.alone s = k.alone base
  | some v => k.take v {} = .ok (k.alone s)

/-- The table gives this setting as it is in `s`. -/
def Held (t : Table) (s : Settings) (k : Setting) : Prop := k.HeldOver {} t s

theorem key_ne {k k' : Setting} (h : k ≠ k') : k.key ≠ k'.key := by
  cases k <;> cases k' <;> first | exact absurd rfl h | decide

theorem ofKey?_eq_some {key : String} {k : Setting} (h : ofKey? key = some k) : k.key = key := by
  simpa using List.find?_some h

theorem ofKey?_eq_none {key : String} (h : ofKey? key = none) (k : Setting) : k.key ≠ key := by
  have hnone := List.find?_eq_none.mp h k (by cases k <;> decide)
  simpa using hnone

theorem alone_alone (s : Settings) (k : Setting) : k.alone (k.alone s) = k.alone s := by
  cases k <;> rfl

theorem alone_other (s : Settings) {k k' : Setting} (h : k' ≠ k) :
    k'.alone (k.alone s) = k'.alone {} := by
  cases k' <;> cases k <;> first | exact absurd rfl h | rfl

theorem eq_of_alone {s s' : Settings} (h : ∀ k : Setting, k.alone s = k.alone s') : s = s' := by
  have hartifact := congrArg Settings.artifactPath (h .artifactPath)
  have hevents := congrArg Settings.eventsChannel (h .eventsChannel)
  have hmarker := congrArg Settings.libraryMarker (h .libraryMarker)
  have hlibrary := congrArg Settings.libraryPath (h .libraryPath)
  have hlocator := congrArg Settings.locator (h .locator)
  obtain ⟨⟩ := s
  simp_all [alone]

/-- What a setting is given does not depend on the settings so far. -/
theorem alone_take (v : Value) (s : Settings) (k : Setting) :
    (k.take v s).map k.alone = k.take v {} := by
  cases k <;> exact (comp_map (f := Except Fault) _ _ _).symm

theorem take_other {v : Value} {s s' : Settings} {k k' : Setting} (h : k.take v s = .ok s')
    (hne : k' ≠ k) : k'.alone s' = k'.alone s := by
  cases k <;> obtain ⟨_, _, rfl⟩ := map_eq_ok h <;>
    cases k' <;> first | exact absurd rfl hne | rfl

/-- A setting is read from its slot only. -/
theorem held_congr {t t' : Table} {k : Setting}
    (h : Keyed.get? k.key t' = Keyed.get? k.key t) (s : Settings) : k.Held t' s ↔ k.Held t s := by
  simp only [Held, HeldOver, h]

theorem held_alone_congr {t : Table} {s s' : Settings} {k : Setting}
    (h : k.alone s = k.alone s') : k.Held t s ↔ k.Held t s' := by
  simp only [Held, HeldOver, h]

end Setting

/-! ### Taking up a table -/

/-- Where keys are apart, a table gives what each of its entries gives. -/
theorem foldlM_takeEntry {t : Table} (hapart : (t.map Prod.fst).Nodup) (base s : Settings) :
    t.foldlM takeEntry base = .ok s ↔ ∀ k : Setting, k.HeldOver base t s := by
  induction t generalizing base with
  | nil =>
    refine ⟨fun h k => ?_, fun h => ?_⟩
    · cases h
      rfl
    · exact congrArg Except.ok (Setting.eq_of_alone h).symm
  | cons entry rest ih =>
    obtain ⟨key, v⟩ := entry
    obtain ⟨hfresh, hrest⟩ := List.nodup_cons.mp hapart
    -- an entry is all that counts for its own setting, and nothing for another one
    have hother (base' : Settings) {k : Setting} (hkey : k.key ≠ key)
        (hsame : k.alone base' = k.alone base) :
        k.HeldOver base' rest s ↔ k.HeldOver base ((key, v) :: rest) s := by
      simp only [Setting.HeldOver, Keyed.get?, if_neg hkey, hsame]
    rw [List.foldlM_cons]
    cases hkey : Setting.ofKey? key with
    | none =>
      have hpass : takeEntry base (key, v) = .ok base := by rw [takeEntry, hkey]
      rw [hpass]
      exact (ih hrest base).trans
        (forall_congr' fun k => hother base (Setting.ofKey?_eq_none hkey k) rfl)
    | some k₀ =>
      obtain rfl : k₀.key = key := Setting.ofKey?_eq_some hkey
      have htake : takeEntry base (k₀.key, v) = k₀.take v base := by rw [takeEntry, hkey]
      have hgone : Keyed.get? k₀.key rest = none := Keyed.get?_eq_none_iff.mpr hfresh
      have hown (base' : Settings) :
          k₀.HeldOver base' rest s ↔ k₀.alone s = k₀.alone base' := by
        simp only [Setting.HeldOver, hgone]
      have hfirst : k₀.HeldOver base ((k₀.key, v) :: rest) s ↔
          k₀.take v {} = .ok (k₀.alone s) := by
        simp only [Setting.HeldOver, Keyed.get?, if_true]
      rw [htake]
      constructor
      · intro h k
        obtain ⟨next, hnext, hrun⟩ := bind_eq_ok h
        have hheld := (ih hrest next).mp hrun
        by_cases hk : k = k₀
        · subst hk
          rw [hfirst, ← Setting.alone_take v base, hnext, (hown next).mp (hheld k)]
          rfl
        · exact (hother next (Setting.key_ne hk) (Setting.take_other hnext hk)).mp (hheld k)
      · intro h
        have halone := hfirst.mp (h k₀)
        rw [← Setting.alone_take v base] at halone
        obtain ⟨next, hnext, hsame⟩ := map_eq_ok halone
        rw [hnext]
        refine (ih hrest next).mpr fun k => ?_
        by_cases hk : k = k₀
        · subst hk
          exact (hown next).mpr hsame.symm
        · exact (hother next (Setting.key_ne hk) (Setting.take_other hnext hk)).mpr (h k)

section Apart
variable {t : Table} (hapart : (t.map Prod.fst).Nodup)
include hapart

theorem ofTable_eq_ok_iff {s : Settings} : ofTable t = .ok s ↔ ∀ k : Setting, k.Held t s :=
  foldlM_takeEntry hapart {} s

/-- The order of the entries is nothing to the settings. -/
theorem ofTable_perm {t' : Table} (hperm : t'.Perm t) (s : Settings) :
    ofTable t' = .ok s ↔ ofTable t = .ok s := by
  have hapart' : (t'.map Prod.fst).Nodup := (hperm.map Prod.fst).nodup_iff.mpr hapart
  rw [ofTable_eq_ok_iff hapart, ofTable_eq_ok_iff hapart']
  exact forall_congr' fun k => Setting.held_congr (Keyed.get?_perm hapart hperm k.key) s

/-- A table gives settings just when it gives each of them. -/
theorem ofTable_ok_iff : (∃ s, ofTable t = .ok s) ↔ ∀ k : Setting, ∃ s, k.Held t s := by
  constructor
  · exact fun ⟨s, h⟩ k => ⟨s, (ofTable_eq_ok_iff hapart).mp h k⟩
  · intro heach
    obtain ⟨artifact, hartifact⟩ := heach .artifactPath
    obtain ⟨events, hevents⟩ := heach .eventsChannel
    obtain ⟨marker, hmarker⟩ := heach .libraryMarker
    obtain ⟨library, hlibrary⟩ := heach .libraryPath
    obtain ⟨locator, hlocator⟩ := heach .locator
    let s : Settings := ⟨artifact.artifactPath, events.eventsChannel, marker.libraryMarker,
      library.libraryPath, locator.locator⟩
    refine ⟨s, (ofTable_eq_ok_iff hapart).mpr fun k => ?_⟩
    cases k with
    | artifactPath => exact (Setting.held_alone_congr rfl).mp hartifact
    | eventsChannel => exact (Setting.held_alone_congr rfl).mp hevents
    | libraryMarker => exact (Setting.held_alone_congr rfl).mp hmarker
    | libraryPath => exact (Setting.held_alone_congr rfl).mp hlibrary
    | locator => exact (Setting.held_alone_congr rfl).mp hlocator

/-- A table of one setting gives that one, and the others as they are by default. -/
theorem ofTable_of_one {k : Setting} {s : Settings}
    (hothers : ∀ k' : Setting, k' ≠ k → Keyed.get? k'.key t = none) (hheld : k.Held t s) :
    ofTable t = .ok (k.alone s) := by
  refine (ofTable_eq_ok_iff hapart).mpr fun k' => ?_
  by_cases hk : k' = k
  · subst hk
    exact (Setting.held_alone_congr (Setting.alone_alone s k')).mpr hheld
  · simp only [Setting.Held, Setting.HeldOver, hothers k' hk]
    exact Setting.alone_other s hk

end Apart

end LookupTap.Settings
