import LookupTap.Proofs.Number.Written
import LookupTap.Proofs.Settings.Layers

/-! What arrives of the text of a variable.

A text that reads as a truth value or as a number is taken for that, and a setting that is a text
gets it as the truth value or the number is written. So a text arrives as it is if it is neither, or
if it is written in just this way (`arrived_eq_iff`). -/
namespace LookupTap.Settings

namespace Variables

/-- What arrives of a text in a setting that is a text. -/
def arrived (text : String) : String := (data text).scalarText?.getD text

def truthText (b : Bool) : String := if b then "true" else "false"

/-- The texts that arrive as they are. -/
inductive Kept : String → Prop
  | truth (b : Bool) : Kept (truthText b)
  | whole {i : Int} : -0x8000000000000000 ≤ i → i ≤ 0x7FFFFFFFFFFFFFFF → Kept (toString i)
  | number {text : String} {x : Binary64} : Digits.int64? 10 text.toList = none →
    Binary64.read? text.toList = some x → x.text = text → Kept text
  | word {text : String} : (∀ b, Text.lower text ≠ truthText b) → ¬ Numeral text.toList → Kept text

/-- What a text is read as. -/
theorem data_cases (text : String) :
    (∃ b, Text.lower text = truthText b ∧ data text = .bool b) ∨
      (∀ b, Text.lower text ≠ truthText b) ∧
        ((∃ i, Digits.int64? 10 text.toList = some i ∧ data text = .int i) ∨
          (Digits.int64? 10 text.toList = none ∧
            ((∃ x, Binary64.read? text.toList = some x ∧ data text = .float x) ∨
              Binary64.read? text.toList = none ∧ data text = .text text))) := by
  unfold data
  split
  · next htrue => exact .inl ⟨true, htrue, rfl⟩
  · next hfalse => exact .inl ⟨false, hfalse, rfl⟩
  · next htrue hfalse =>
    refine .inr ⟨fun b => ?_, ?_⟩
    · cases b with
      | true => exact htrue
      | false => exact hfalse
    · split
      · next i hi => exact .inl ⟨i, hi, rfl⟩
      · next hint =>
        refine .inr ⟨hint, ?_⟩
        split
        · next x hx => exact .inl ⟨x, hx, rfl⟩
        · next hread => exact .inr ⟨hread, rfl⟩

theorem scalarText?_data (text : String) : (data text).scalarText? = some (arrived text) := by
  unfold arrived
  obtain ⟨b, _, hdata⟩ | ⟨_, ⟨i, _, hdata⟩ | ⟨_, ⟨x, _, hdata⟩ | ⟨_, hdata⟩⟩⟩ := data_cases text <;>
    rw [hdata] <;> rfl

section Arrival
variable {text : String}

/-- What arrives of a truth value, in any letters, is its name in small ones. -/
theorem arrived_truth {b : Bool} (h : Text.lower text = truthText b) :
    arrived text = truthText b := by
  obtain ⟨b', hb', hdata⟩ | ⟨hword, _⟩ := data_cases text
  · rw [arrived, hdata, ← h, hb']
    rfl
  · exact absurd h (hword b)

section Word
variable (hword : ∀ b, Text.lower text ≠ truthText b)
include hword

theorem arrived_whole {i : Int} (h : Digits.int64? 10 text.toList = some i) :
    arrived text = toString i := by
  obtain ⟨b, hb, _⟩ | ⟨_, ⟨j, hj, hdata⟩ | ⟨hnone, _⟩⟩ := data_cases text
  · exact absurd hb (hword b)
  · cases h.symm.trans hj
    rw [arrived, hdata]
    rfl
  · cases h.symm.trans hnone

theorem arrived_number (hint : Digits.int64? 10 text.toList = none) {x : Binary64}
    (h : Binary64.read? text.toList = some x) : arrived text = x.text := by
  obtain ⟨b, hb, _⟩ | ⟨_, ⟨i, hi, _⟩ | ⟨_, ⟨y, hy, hdata⟩ | ⟨hnone, _⟩⟩⟩ := data_cases text
  · exact absurd hb (hword b)
  · cases hint.symm.trans hi
  · cases h.symm.trans hy
    rw [arrived, hdata]
    rfl
  · cases h.symm.trans hnone

theorem arrived_word (h : ¬ Numeral text.toList) : arrived text = text := by
  rw [← Binary64.isSome_read?] at h
  obtain ⟨b, hb, _⟩ | ⟨_, ⟨i, hi, _⟩ | ⟨_, ⟨x, hx, _⟩ | ⟨_, hdata⟩⟩⟩ := data_cases text
  · exact absurd hb (hword b)
  · exact absurd (Binary64.isSome_read?.mpr (Digits.int64?_eq_some hi).1) h
  · exact absurd (by rw [hx]; rfl) h
  · rw [arrived, hdata]
    rfl

end Word

/-- A numeral is no truth value: it starts with none of their letters. -/
theorem lower_ne_of_numeral (h : Numeral text.toList) (b : Bool) :
    Text.lower text ≠ truthText b := by
  obtain ⟨c, rest, htext, hc⟩ := Binary64.exists_head h
  have hascii : c.toNat < 0x80 := by
    by_contra hpast
    have hlower : c.toLower = c := Text.toLower_of_not_ascii hpast
    rw [hlower] at hc
    rcases hc with rfl | rfl | hdigit | rfl | rfl | rfl
    case inr.inr.inl =>
      rw [Digits.isDigit_iff] at hdigit
      omega
    all_goals exact hpast (by decide)
  have hall : ∀ n < 0x80, ((Char.ofNat n).toLower = 'i' ∨ (Char.ofNat n).toLower = 'n' ∨
      (Char.ofNat n).isDigit ∨ Char.ofNat n = '.' ∨ Char.ofNat n = '-' ∨ Char.ofNat n = '+') →
      (Char.ofNat n).toLower ≠ 't' ∧ (Char.ofNat n).toLower ≠ 'f' := by decide
  have hletter := hall c.toNat hascii
  rw [Char.ofNat_toNat] at hletter
  intro hlower
  have hlist := congrArg String.toList hlower
  rw [Text.toList_lower, htext, List.flatMap_cons, Text.lowerChar, if_pos hascii] at hlist
  cases b with
  | true => exact (hletter hc).1 (List.cons.inj hlist).1
  | false => exact (hletter hc).2 (List.cons.inj hlist).1

theorem arrived_eq_iff : arrived text = text ↔ Kept text := by
  constructor
  · intro h
    by_cases htruth : ∃ b, Text.lower text = truthText b
    · obtain ⟨b, hb⟩ := htruth
      rw [← h, arrived_truth hb]
      exact .truth b
    · rw [not_exists] at htruth
      by_cases hnumeral : Numeral text.toList
      · cases hint : Digits.int64? 10 text.toList with
        | some i =>
          obtain ⟨_, hlow, hhigh⟩ := Digits.int64?_eq_some hint
          rw [← h, arrived_whole htruth hint]
          exact .whole hlow hhigh
        | none =>
          obtain ⟨x, hx⟩ := Option.isSome_iff_exists.mp (Binary64.isSome_read?.mpr hnumeral)
          exact .number hint hx ((arrived_number htruth hint hx).symm.trans h)
      · exact .word htruth hnumeral
  · intro h
    cases h with
    | truth b => exact arrived_truth (by cases b <;> decide +kernel)
    | whole hlow hhigh =>
      have hread := Digits.int64?_toString hlow hhigh
      exact arrived_whole (lower_ne_of_numeral (Digits.int64?_eq_some hread).1) hread
    | number hint hx hsame =>
      have hnumeral := Binary64.isSome_read?.mp (Option.isSome_of_eq_some hx)
      exact (arrived_number (lower_ne_of_numeral hnumeral) hint hx).trans hsame
    | word hword hnumeral => exact arrived_word hword hnumeral

/-- A number that is not spelled as it is written does not arrive so. -/
theorem arrived_ne_of_loose (h : Numeral text.toList) (hloose : Numeral.Loose text.toList) :
    arrived text ≠ text := by
  intro hsame
  have hword := lower_ne_of_numeral h
  cases hint : Digits.int64? 10 text.toList with
  | some i =>
    rw [← hsame, arrived_whole hword hint] at hloose
    exact Numeral.not_loose_toString i hloose
  | none =>
    obtain ⟨x, hx⟩ := Option.isSome_iff_exists.mp (Binary64.isSome_read?.mpr h)
    rw [← hsame, arrived_number hword hint hx, Binary64.text, String.toList_ofList] at hloose
    exact Binary64.not_loose_chars (Binary64.bounded_of_read? hx) hloose

end Arrival

end Variables

/-! ### The settings that are texts -/

namespace Setting

/-- The text of a setting, if it is one. -/
def textOf (s : Settings) : Setting → Option String
  | artifactPath => some s.artifactPath
  | eventsChannel => some s.eventsChannel
  | libraryMarker => some s.libraryMarker
  | libraryPath => s.libraryPath
  | locator => none

/-- The settings with this text, and the others as they are by default. -/
def giving (text : String) : Setting → Settings
  | artifactPath => { artifactPath := text }
  | eventsChannel => { eventsChannel := text }
  | libraryMarker => { libraryMarker := text }
  | libraryPath => { libraryPath := some text }
  | locator => {}

variable {k : Setting}

theorem held_text (hk : k ≠ locator) {t : Table} {text : String}
    (h : Keyed.get? k.key t = some (Variables.value text)) (s : Settings) :
    k.Held t s ↔ k.textOf s = some (Variables.arrived text) := by
  have hscalar := Variables.scalarText?_data text
  have htext : (Variables.value text).text k.key = .ok (Variables.arrived text) := by
    simp only [Value.text, Variables.value, hscalar]
  have hpath : (Variables.value text).path? k.key = .ok (some (Variables.arrived text)) := by
    unfold Value.path?
    split
    · next hnil =>
      rw [show Variables.data text = .nil from hnil] at hscalar
      cases hscalar
    · rw [htext]
      rfl
  simp only [Held, HeldOver, h]
  cases k with
  | locator => exact absurd rfl hk
  | _ => simp [take, htext, hpath, Except.map, alone, textOf, eq_comm]

/-- If only whole keys of variables lead to a setting, the last variable of its name decides it,
whatever the file says. -/
theorem get?_laid_of_whole (l : Loader) (t : Table) {vars : Variables} {text : String}
    (htext : k.textIn? vars = some text) (hwhole : k.Whole vars.table) :
    Keyed.get? k.key (l.laid t vars) = some (Variables.value text) := by
  have hentries : k.entries (assigned (l.inVariables.order vars.table)) =
      [k.named (Variables.value text)] := by
    rw [entries_of_whole (nodup_table vars) (fun entry => small_of_mem_table) hwhole
      (l.inVariables.perm vars.table), get?_table, htext]
    rfl
  rw [Loader.laid, setAll_eq, get?_laidOver (l.isScalar_of_mem_assigned vars)]
  change (k.entries _).foldl _ _ = _
  rw [hentries]
  rfl

/-- The variable of a setting leaves the other settings alone. -/
theorem get?_laid_other (l : Loader) {k' : Setting} (hne : k' ≠ k) {vars : Variables}
    (hone : vars.length = 1) {text : String} (htext : k.textIn? vars = some text) :
    Keyed.get? k'.key (l.laid [] vars) = none := by
  obtain ⟨v, rfl⟩ := List.length_eq_one_iff.mp hone
  have hname : Text.lower v.1 = Variables.lead ++ k.key := by
    obtain ⟨v', hv', hlower⟩ := exists_of_textIn? htext
    rwa [List.mem_singleton.mp hv'] at hlower
  have hnone : k'.entries (assigned (l.inVariables.order (Variables.table [v]))) = [] := by
    refine List.filter_eq_nil_iff.mpr fun a ha hslot => ?_
    obtain ⟨entry, hentry, rfl⟩ := List.mem_map.mp ha
    have hin : entry ∈ Variables.table [v] := (l.inVariables.perm _).mem_iff.mp hentry
    obtain ⟨v', hv', hsays⟩ := List.mem_filterMap.mp (Keyed.mem_collect hin)
    rw [List.mem_singleton.mp hv', Variables.entry?, key?_eq_some_iff.mpr hname] at hsays
    cases hsays
    have hkey : (Key.ofText k.key).slot = k'.key := of_decide_eq_true hslot
    exact key_ne hne (hkey.symm.trans k.slot_key)
  rw [Loader.laid, setAll_eq, get?_laidOver (l.isScalar_of_mem_assigned [v])]
  change (k'.entries _).foldl _ _ = _
  rw [hnone, List.perm_nil.mp (l.inFile.perm [])]
  rfl

end Setting

/-- **The last variable for a text decides it, and is taken for what it reads as.** If no variable
is for a part of the setting, it has the text that arrives of its variable's, in whatever order the
variables are gone through. That is never a reason not to load: the settings do so just when the
file is read and each other setting is accepted. Alone in the environment the variable gives itself
and the defaults.

The text arrives unchanged if it is kept, and only then. A truth value in other letters than small
ones is not, and neither is a number with a plus sign, an exponent, a zero in front of another digit
or one at the end of a fraction. -/
theorem variable_arrives {k : Setting} (hk : k ≠ .locator) (l : Loader) {files : Files}
    {vars : Variables} {text : String} (file : Option String)
    (htext : k.textIn? (environment files vars) = some text)
    (hwhole : k.Whole (environment files vars).table) :
    (∀ s, load files vars file l = .ok s → k.textOf s = some (Variables.arrived text)) ∧
    ((∃ s, load files vars file l = .ok s) ↔
      ∃ t, fileTable l.others files file = .ok t ∧
        ∀ k' : Setting, k' ≠ k → ∃ s, k'.Held (l.laid t (environment files vars)) s) ∧
    ((environment files vars).length = 1 →
      load files vars none l = .ok (k.giving (Variables.arrived text))) ∧
    (Variables.arrived text = text ↔ Variables.Kept text) ∧
    (∀ b, Text.lower text = Variables.truthText b →
      Variables.arrived text = Variables.truthText b) ∧
    (Numeral text.toList → Numeral.Loose text.toList → Variables.arrived text ≠ text) := by
  have hheld (t : Table) (s : Settings) : k.Held (l.laid t (environment files vars)) s ↔
      k.textOf s = some (Variables.arrived text) :=
    Setting.held_text hk (Setting.get?_laid_of_whole l t htext hwhole) s
  have hgiving : k.textOf (k.giving (Variables.arrived text)) = some (Variables.arrived text) := by
    cases k <;> first | rfl | exact absurd rfl hk
  refine ⟨fun s hs => ?_, ?_, fun hone => ?_, Variables.arrived_eq_iff,
    fun b => Variables.arrived_truth, Variables.arrived_ne_of_loose⟩
  · cases hfile : fileTable l.others files file with
    | error e =>
      rw [load, hfile] at hs
      cases hs
    | ok t =>
      have hall := (ofTable_eq_ok_iff (l.nodup_laid t _)).mp ((load_ok_iff l hfile vars s).mp hs)
      exact (hheld t s).mp (hall k)
  · cases hfile : fileTable l.others files file with
    | error e => simp [load, hfile]
    | ok t =>
      rw [exists_congr (load_ok_iff l hfile vars), ofTable_ok_iff (l.nodup_laid t _)]
      simp only [Except.ok.injEq, exists_eq_left']
      refine ⟨fun h k' _ => h k', fun h k' => ?_⟩
      by_cases hk' : k' = k
      · exact ⟨_, hk' ▸ (hheld t _).mpr hgiving⟩
      · exact h k' hk'
  · have halone (text : String) : k.alone (k.giving text) = k.giving text := by
      cases k <;> rfl
    rw [← halone]
    refine (load_ok_iff l rfl vars _).mpr ?_
    exact ofTable_of_one (l.nodup_laid [] _)
      (fun k' hk' => Setting.get?_laid_other l hk' hone htext) ((hheld [] _).mpr hgiving)

/-- A version for a marker loses its last zero on the way. -/
theorem variable_arrives_version :
    let vars : Variables := [("RESOLVTAP__LIBRARY_MARKER", "2.30")]
    load (holding []) vars none = .ok { libraryMarker := "2.3" } ∧ ¬ Variables.Kept "2.30" := by
  intro vars
  have htext : Setting.libraryMarker.textIn? (environment (holding []) vars) = some "2.30" := by
    decide +kernel
  have hwhole : Setting.libraryMarker.Whole (environment (holding []) vars).table := by
    decide +kernel
  have hone : (environment (holding []) vars).length = 1 := by decide +kernel
  have hnumeral : Numeral "2.30".toList := Binary64.isSome_read?.mp (by decide +kernel)
  have hzero : Numeral.Loose (['2'] ++ '.' :: ['3', '0']) := .zeroAtEnd (.inr rfl)
  have harrived : Variables.arrived "2.30" = "2.3" := by decide +kernel
  obtain ⟨_, _, halone, hkept, _, hloose⟩ :=
    variable_arrives (by decide) {} none htext hwhole
  rw [harrived] at halone
  exact ⟨halone hone, mt hkept.mpr (hloose hnumeral hzero)⟩

/-- Texts that other ones arrive of, one for each setting. -/
theorem load_not_verbatim :
    (load (holding []) [("RESOLVTAP__EVENTS_CHANNEL", "007")] none).toOption =
      some { eventsChannel := "7" } ∧
    (load (holding []) [("RESOLVTAP__LIBRARY_MARKER", "2.30")] none).toOption =
      some { libraryMarker := "2.3" } ∧
    (load (holding []) [("RESOLVTAP__ARTIFACT_PATH", "+5")] none).toOption =
      some { artifactPath := "5" } ∧
    (load (holding []) [("RESOLVTAP__LIBRARY_PATH", "TRUE")] none).toOption =
      some { libraryPath := some "true" } := by
  decide +kernel

end LookupTap.Settings
