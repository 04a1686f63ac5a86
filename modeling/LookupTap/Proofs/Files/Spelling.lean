import LookupTap.Files
import Mathlib.Data.List.Basic
import Mathlib.Data.List.Induction

/-! What the spelling of a path has to do with what is read.

A component that is empty or `.` moves a walk nowhere: it only asks that the place be a directory,
which the next name asks as well. So such a component makes a difference at the end of a path and
nowhere else (`walk_busy`), and a path leads where its parts lead, if what is there is a directory
or the path does not ask for one (`place?_eq`). So two paths with the same parts read the same when
both end in a name and are short enough to be taken (`read_eq_of_parts`), and a path that is not like
that reads nothing at all (`ofFile_of_read`). -/
namespace LookupTap

namespace Path

/-- A component that moves a walk nowhere. -/
abbrev Idle (name : String) : Prop := name = "" ∨ name = "."

/-- The components that do. -/
def busy (names : List String) : List String := names.filter fun name => name ≠ "" ∧ name ≠ "."

/-- The last component moves a walk nowhere. -/
def endsIdle (names : List String) : Bool := names.getLast?.any fun name => Idle name

/-- The path ends in a separator or in `.`, so what it leads to has to be a directory. -/
def asksDirectory (path : String) : Bool := endsIdle (components path)

/-- A path that may lead to a file: it ends in a name, and the system takes it. -/
structure OfFile (path : String) : Prop where
  named : asksDirectory path = false
  short : path.utf8ByteSize ≤ Files.longestPath

section Components
variable {name : String} {names front rest : List String}

theorem busy_append : busy (front ++ rest) = busy front ++ busy rest := List.filter_append ..

theorem busy_busy : busy (busy names) = busy names := by simp [busy]

theorem busy_cons_idle (h : Idle name) : busy (name :: names) = busy names := by
  apply List.filter_cons_of_neg
  rcases h with rfl | rfl <;> simp

theorem busy_cons (h : ¬ Idle name) : busy (name :: names) = name :: busy names := by
  apply List.filter_cons_of_pos
  simpa [Idle] using h

theorem endsIdle_append (front : List String) (h : rest ≠ []) :
    endsIdle (front ++ rest) = endsIdle rest := by
  rw [endsIdle, List.getLast?_append_of_ne_nil _ h, endsIdle]

theorem endsIdle_cons (h : ¬ Idle name) : endsIdle (name :: names) = endsIdle names := by
  cases names with
  | nil => simpa [endsIdle] using h
  | cons next later => exact endsIdle_append [name] (by simp)

/-- Only idle components end idly, if they are all there are. -/
theorem endsIdle_of_busy (hne : names ≠ []) (h : busy names = []) : endsIdle names = true := by
  have hlast : names.getLast hne ∉ busy names := by simp [h]
  rw [endsIdle, List.getLast?_eq_some_getLast hne]
  simpa [busy, Classical.or_iff_not_imp_left] using hlast

/-- Where the last part does not end idly, its idle components can be left out. -/
theorem endsIdle_busy (h : endsIdle rest = false) :
    endsIdle (front ++ busy rest) = endsIdle (front ++ rest) := by
  induction rest using List.reverseRecOn with
  | nil => rfl
  | append_singleton rest last _ =>
    have hlast : ¬ Idle last := by simpa [endsIdle] using h
    have hbusy : busy (rest ++ [last]) = busy rest ++ [last] := by
      rw [busy_append, busy_cons hlast]
      rfl
    rw [hbusy, ← List.append_assoc, ← List.append_assoc, endsIdle_append _ (by simp),
      endsIdle_append _ (by simp)]

/-- Leaving the idle ones out of the last part hides no more than that it ended idly. -/
theorem endsIdle_or : (endsIdle rest || endsIdle (front ++ busy rest)) = endsIdle (front ++ rest) := by
  cases h : endsIdle rest with
  | true =>
    have hne : rest ≠ [] := by
      rintro rfl
      cases h
    rw [Bool.true_or, endsIdle_append _ hne, h]
  | false => rw [Bool.false_or, endsIdle_busy h]

end Components

theorem components_ne_nil (path : String) : components path ≠ [] := by
  simp [components, List.splitOn_eq_splitOnP, List.splitOnP_ne_nil]

/-- A separator cuts a path in two. -/
theorem components_append {path first rest : List Char} (h : path = first ++ '/' :: rest) :
    components (String.ofList path) =
      components (String.ofList first) ++ components (String.ofList rest) := by
  simp only [components, String.toList_ofList, h, List.splitOn_eq_splitOnP]
  rw [List.splitOnP_append_cons (p := (· == '/')) _ _ (beq_self_eq_true '/'), List.map_append]

theorem isRooted_iff {path : String} : isRooted path = true ↔ ∃ rest, path.toList = '/' :: rest := by
  rw [isRooted, String.startsWith_string_iff]
  constructor
  · rintro ⟨rest, h⟩
    exact ⟨rest, h.symm⟩
  · rintro ⟨rest, h⟩
    exact ⟨rest, h.symm⟩

theorem flatten_splitOn (cs : List Char) : (cs.splitOn '/').flatten = cs.filter (· ≠ '/') := by
  rw [List.splitOn_eq_splitOnP]
  induction cs with
  | nil => rfl
  | cons c cs ih =>
    rw [List.splitOnP_cons_eq_if_modifyHead]
    split
    · next hslash => simp_all
    · next hother =>
      cases hparts : cs.splitOnP (· == '/') with
      | nil => exact absurd hparts (List.splitOnP_ne_nil _ _)
      | cons part rest =>
        rw [hparts] at ih
        simp_all

/-- What stands in a path, apart from separators and dots, stands in one of its parts. -/
theorem mem_iff_mem_names {c : Char} (hslash : c ≠ '/') (hdot : c ≠ '.') (path : String) :
    c ∈ path.toList ↔ ∃ name ∈ (parts path).names, c ∈ name.toList := by
  have hcut : c ∈ path.toList ↔ ∃ name ∈ components path, c ∈ name.toList := by
    have hfilter : c ∈ path.toList ↔ c ∈ (path.toList.splitOn '/').flatten := by
      simp [flatten_splitOn, hslash]
    simp [hfilter, components]
  rw [hcut]
  constructor
  · rintro ⟨name, hname, hc⟩
    refine ⟨name, List.mem_filter.mpr ⟨hname, ?_⟩, hc⟩
    have hempty : name ≠ "" := by
      rintro rfl
      simp at hc
    have hdots : name ≠ "." := by
      rintro rfl
      simp [hdot] at hc
    simp [hempty, hdots]
  · rintro ⟨name, hname, hc⟩
    exact ⟨name, (List.mem_filter.mp hname).1, hc⟩

theorem names_eq (path : String) : (parts path).names = busy (components path) := rfl

end Path

namespace Files
open LookupTap.Path
variable {fs : Files} {place names rest : List String}

/-- What is left of an answer when the place has to be a directory. -/
def checked (fs : Files) (asked : Bool) (answer : Except OsError (List String)) :
    Except OsError (List String) :=
  match answer with
  | .ok place => if asked ∧ fs.node? place ≠ some .directory then .error .notADirectory else .ok place
  | .error e => .error e

@[simp] theorem checked_false (answer : Except OsError (List String)) :
    fs.checked false answer = answer := by
  cases answer <;> simp [checked]

@[simp] theorem checked_error (asked : Bool) (e : OsError) :
    fs.checked asked (.error e) = .error e := rfl

theorem checked_ok (asked : Bool) (h : fs.node? place = some .directory) :
    fs.checked asked (.ok place) = .ok place := by
  simp [checked, h]

theorem checked_checked (asked asked' : Bool) (answer : Except OsError (List String)) :
    fs.checked asked (fs.checked asked' answer) = fs.checked (asked || asked') answer := by
  cases answer with
  | error e => rfl
  | ok place =>
    by_cases h : fs.node? place = some .directory
    · rw [checked_ok _ h, checked_ok _ h, checked_ok _ h]
    · cases asked' <;> simp [checked, h]

theorem checked_eq_ok {asked : Bool} {answer : Except OsError (List String)}
    (h : fs.checked asked answer = .ok place) :
    answer = .ok place ∧ (asked = true → fs.node? place = some .directory) := by
  cases answer with
  | error e => cases h
  | ok there =>
    rw [checked] at h
    split at h
    · cases h
    · next hnot =>
      cases h
      exact ⟨rfl, fun hasked => by_contra fun hother => hnot ⟨hasked, hother⟩⟩

/-! ### Walking -/

section Along
variable {follow : (place names : List String) → Except OsError (List String)}

theorem along_blocked {name : String} (h : fs.node? place ≠ some .directory) :
    fs.along follow place (name :: rest) = .error .notADirectory := by
  rw [along]
  split
  · next hdirectory => exact absurd hdirectory h
  · rfl

theorem along_idle {name : String} (h : fs.node? place = some .directory) (hidle : Idle name) :
    fs.along follow place (name :: rest) = fs.along follow place rest := by
  rw [along, h]
  exact if_pos hidle

/-- Where idle components do not matter to what follows a link, they do not matter on the way. -/
theorem along_busy (hfollow : ∀ place names,
      follow place names = fs.checked (endsIdle names) (follow place (busy names)))
    (place names : List String) :
    fs.along follow place names = fs.checked (endsIdle names) (fs.along follow place (busy names)) := by
  induction names generalizing place with
  | nil => rfl
  | cons name rest ih =>
    by_cases hidle : Idle name
    · rw [busy_cons_idle hidle]
      by_cases hplace : fs.node? place = some .directory
      · rw [along_idle hplace hidle]
        cases rest with
        | nil => exact (checked_ok _ hplace).symm
        | cons next later =>
          rw [ih, ← endsIdle_append [name] (by simp)]
          rfl
      · rw [along_blocked hplace]
        cases hbusy : busy rest with
        | cons next later => rw [along_blocked hplace, checked_error]
        | nil =>
          -- all components are idle, so it is the place itself that has to be a directory
          have hends : endsIdle (name :: rest) = true :=
            endsIdle_of_busy (by simp) ((busy_cons_idle hidle).trans hbusy)
          rw [hends, along, checked, if_pos ⟨rfl, hplace⟩]
    · rw [busy_cons hidle, endsIdle_cons hidle]
      by_cases hplace : fs.node? place = some .directory
      · simp only [along, hplace, if_neg hidle]
        split
        · exact ih _
        · split
          · rfl
          · split
            · rfl
            · next target _ =>
              split
              · rfl
              · rw [hfollow, hfollow _ (_ ++ busy rest), checked_checked, endsIdle_or,
                  busy_append, busy_append, busy_busy]
            · exact ih _
      · rw [along_blocked hplace, along_blocked hplace, checked_error]

end Along

/-- Idle components on a walk matter at its end only, where they ask for a directory. -/
theorem walk_busy (links : Nat) (place names : List String) :
    fs.walk links place names = fs.checked (endsIdle names) (fs.walk links place (busy names)) := by
  induction links generalizing place names with
  | zero => exact along_busy (fun _ _ => rfl) place names
  | succ links ih => exact along_busy ih place names

/-! ### Whole paths -/

/-- The working directory has a text from the root on, with nothing in it but names. -/
structure Settled (fs : Files) : Prop where
  rooted : isRooted fs.home = true
  named : ∀ name ∈ fs.homePlace,
    name ≠ "." ∧ name ≠ ".." ∧ name.utf8ByteSize ≤ longestName

/-- Where a path of these parts starts. -/
def base (fs : Files) (parts : Parts) : List String := if parts.rooted then [] else fs.homePlace

/-- A path is the text of the working directory, goes on behind it, or starts elsewhere. -/
theorem origin_cases (fs : Files) (start : List String) (path : String) :
    (path = fs.home ∧ fs.origin start path = (fs.homePlace, [])) ∨
    (∃ rest, path.toList = fs.home.toList ++ '/' :: rest ∧
      fs.origin start path = (fs.homePlace, components (String.ofList rest))) ∨
    fs.origin start path = (if isRooted path then [] else start, components path) := by
  unfold origin
  split
  · next hprefix =>
    have hpath := List.isPrefixOf?_eq_some_iff_append_eq.mp hprefix
    rw [List.append_nil] at hpath
    exact .inl ⟨(String.toList_inj.mp hpath).symm, rfl⟩
  · next rest hprefix =>
    exact .inr (.inl ⟨rest, (List.isPrefixOf?_eq_some_iff_append_eq.mp hprefix).symm, rfl⟩)
  · exact .inr (.inr rfl)

theorem node?_above (h : place <+: fs.homePlace) : fs.node? place = some .directory := by
  rw [node?, if_pos (List.isPrefixOf_iff_prefix.mpr h)]

namespace Settled
variable (h : fs.Settled)
include h

theorem parts_home : (parts fs.home).names = fs.homePlace := by
  show (components fs.home).filter _ = (components fs.home).filter _
  apply List.filter_congr
  intro name hname
  by_cases hempty : name = ""
  · simp [hempty]
  · have hplace : name ∈ fs.homePlace := by simp [homePlace, hname, hempty]
    simp [hempty, (h.named name hplace).1]

/-- The names of the working directory lead down to it. -/
theorem along_down (follow : (place names : List String) → Except OsError (List String))
    {down : List String} (hdown : place ++ down = fs.homePlace) :
    fs.along follow place (down ++ rest) = fs.along follow fs.homePlace rest := by
  induction down generalizing place with
  | nil =>
    rw [List.append_nil] at hdown
    rw [hdown, List.nil_append]
  | cons name down ih =>
    have hnext : place ++ [name] ++ down = fs.homePlace := by
      rw [List.append_assoc]
      exact hdown
    have hname : name ∈ fs.homePlace := by simp [← hdown]
    have hnonempty : name ≠ "" := by
      rintro rfl
      simp [homePlace] at hname
    obtain ⟨hdot, hup, hshort⟩ := h.named name hname
    rw [List.cons_append, along, node?_above ⟨_, hdown⟩, node?_above ⟨_, hnext⟩]
    simp only [hnonempty, hdot, hup, Nat.not_lt.mpr hshort, or_self, if_false]
    exact ih hnext

theorem walk_down (links : Nat) (rest : List String) :
    fs.walk links [] (fs.homePlace ++ rest) = fs.walk links fs.homePlace rest := by
  cases links <;> exact h.along_down _ (List.nil_append _)

/-- **A path leads where its parts lead.** What is there has to be a directory if the path asks for
one. -/
theorem place?_eq {path : String} (hne : path ≠ "") (hshort : path.utf8ByteSize ≤ longestPath) :
    fs.place? path = fs.checked (asksDirectory path)
      (fs.walk mostLinks (fs.base (parts path)) (parts path).names) := by
  have hhome : fs.node? fs.homePlace = some .directory := node?_above (List.prefix_refl _)
  rw [place?, if_neg hne, if_neg (Nat.not_lt.mpr hshort)]
  obtain ⟨rfl, horigin⟩ | ⟨rest, hpath, horigin⟩ | horigin := fs.origin_cases fs.homePlace path
  · have hbase : fs.base (parts fs.home) = [] := if_pos h.rooted
    have hwalk := h.walk_down mostLinks []
    rw [List.append_nil] at hwalk
    rw [horigin, hbase, h.parts_home, hwalk]
    exact (checked_ok _ hhome).symm
  · have hcut : components path = components fs.home ++ components (String.ofList rest) := by
      have := components_append hpath
      rwa [String.ofList_toList, String.ofList_toList] at this
    have hrooted : isRooted path = true := by
      obtain ⟨first, hfirst⟩ := isRooted_iff.mp h.rooted
      exact isRooted_iff.mpr ⟨_, by rw [hpath, hfirst, List.cons_append]⟩
    have hbase : fs.base (parts path) = [] := if_pos hrooted
    have hnames : (parts path).names = fs.homePlace ++ busy (components (String.ofList rest)) := by
      rw [names_eq, hcut, busy_append, ← names_eq, h.parts_home]
    rw [horigin, hbase, hnames, h.walk_down, asksDirectory, hcut,
      endsIdle_append _ (components_ne_nil _)]
    exact walk_busy ..
  · rw [horigin]
    exact walk_busy ..

/-! ### What is read -/

/-- What is read is at the end of a path that may lead to a file. -/
theorem ofFile_of_read {path : String} {data : Bytes} (hread : fs.read path = .ok data) :
    OfFile path := by
  unfold read at hread
  split at hread
  · cases hread
  · split at hread
    · cases hread
    · next place hplace =>
      have hfile : fs.node? place ≠ some .directory := by
        intro hdirectory
        rw [hdirectory] at hread
        cases hread
      have hne : path ≠ "" := by
        rintro rfl
        cases hplace
      have hshort : path.utf8ByteSize ≤ longestPath := by
        by_contra hlong
        rw [place?, if_neg hne, if_pos (Nat.lt_of_not_le hlong)] at hplace
        cases hplace
      refine ⟨?_, hshort⟩
      rw [h.place?_eq hne hshort] at hplace
      rw [← Bool.not_eq_true]
      exact fun hasks => hfile ((checked_eq_ok hplace).2 hasks)

/-- **Two spellings of a path read the same.** That is so for all that may lead to a file: with the
same parts they start at the same place and walk the same names. -/
theorem read_eq_of_parts {path path' : String} (hparts : parts path' = parts path)
    (hfile : OfFile path) (hfile' : OfFile path') : fs.read path' = fs.read path := by
  have hne {p : String} (hp : OfFile p) : p ≠ "" := by
    rintro rfl
    exact absurd hp.named (by decide)
  have hplace : fs.place? path' = fs.place? path := by
    rw [h.place?_eq (hne hfile) hfile.short, h.place?_eq (hne hfile') hfile'.short, hfile.named,
      hfile'.named, hparts]
  have hnul : Char.ofNat 0 ∈ path'.toList ↔ Char.ofNat 0 ∈ path.toList := by
    rw [mem_iff_mem_names (by decide) (by decide), hparts,
      ← mem_iff_mem_names (by decide) (by decide)]
  unfold read
  simp only [List.contains_iff_mem, hnul, hplace]

end Settled

end Files

end LookupTap
