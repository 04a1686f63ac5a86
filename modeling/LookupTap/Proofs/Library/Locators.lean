import LookupTap.Library
import Mathlib.Data.List.Infix

/-! The two lists that a library is looked for in.

The loaded objects are listed by their paths. The mapped files are listed line by line, each as
often as it is mapped, among lines that are of no file, and with a mark behind the path of a file
that is gone (`Listed`). A search takes the first path that has the marker in it (`Finds`), so the
two searches look for the marker in two lists of paths: the objects' own, and the ones that the
lines show (`Mapping.listed`). `searches_agree` says when that comes to the same. -/
namespace LookupTap.Library

open Text (isBlank trim trimStart trimEnd)

/-! ### What a search answers -/

/-- The marker stands in the path, as a run of bytes. -/
def Marked (marker path : String) : Prop :=
  Utf8.encode marker.toList <:+: Utf8.encode path.toList

theorem contains_iff (needle haystack : Bytes) :
    Bytes.contains needle haystack = true ↔ needle <:+: haystack := by
  induction haystack with
  | nil =>
    rw [Bytes.contains, List.isEmpty_iff, List.infix_nil]
  | cons b rest ih =>
    rw [Bytes.contains, Bool.or_eq_true, List.isPrefixOf_iff_prefix, ih, List.infix_cons_iff]

theorem marks_iff (marker path : String) : marks marker path = true ↔ Marked marker path :=
  contains_iff ..

section Search
variable {marker : String} {view : Mapping → String} {objects : List Mapping}

/-- The first of the objects that has the marker in its path, in one view of the paths. -/
def First (marker : String) (view : Mapping → String) (objects : List Mapping) (m : Mapping) :
    Prop :=
  ∃ before after, objects = before ++ m :: after ∧
    (∀ other ∈ before, ¬ Marked marker (view other)) ∧ Marked marker (view m)

/-- What a search for the marker answers, in one view of the paths: the path of the first object
that has it, or that the library was not found if none has it. -/
inductive Finds (marker : String) (view : Mapping → String) (objects : List Mapping) :
    Except Fault String → Prop where
  | found {m} : First marker view objects m → Finds marker view objects (.ok (view m))
  | missing : (∀ m ∈ objects, ¬ Marked marker (view m)) →
      Finds marker view objects (.error (.libraryNotFound marker))

theorem first_iff (m : Mapping) :
    First marker view objects m ↔ objects.find? (marks marker ∘ view) = some m := by
  rw [List.find?_eq_some_iff_append]
  constructor
  · rintro ⟨before, after, hobjects, hbefore, hm⟩
    refine ⟨(marks_iff ..).2 hm, before, after, hobjects, fun other hin => ?_⟩
    rw [Bool.not_eq_true', ← Bool.not_eq_true]
    exact fun hmarks => hbefore other hin ((marks_iff ..).1 hmarks)
  · rintro ⟨hm, before, after, hobjects, hbefore⟩
    refine ⟨before, after, hobjects, fun other hin hmarked => ?_, (marks_iff ..).1 hm⟩
    have hnot := hbefore other hin
    rw [Function.comp_apply, (marks_iff ..).2 hmarked] at hnot
    cases hnot

theorem First.mem {m : Mapping} (h : First marker view objects m) : m ∈ objects :=
  List.mem_of_find?_eq_some ((first_iff m).1 h)

theorem search_finds (list : String) :
    Finds marker view objects (search list marker (objects.map view)).answer := by
  unfold search
  rw [List.find?_map]
  cases hfind : objects.find? (marks marker ∘ view) with
  | some m => exact .found ((first_iff m).2 hfind)
  | none =>
    exact .missing fun m hin hmarked => List.find?_eq_none.1 hfind m hin ((marks_iff ..).2 hmarked)

theorem Finds.of_ok {path : String} (h : Finds marker view objects (.ok path)) :
    ∃ m, First marker view objects m ∧ view m = path := by
  cases h with
  | found hm => exact ⟨_, hm, rfl⟩

theorem Finds.unique {answer other : Except Fault String} (h : Finds marker view objects answer)
    (h' : Finds marker view objects other) : answer = other := by
  cases h with
  | found hm =>
    cases h' with
    | found hm' =>
      cases ((first_iff _).1 hm).symm.trans ((first_iff _).1 hm')
      rfl
    | missing hnone =>
      obtain ⟨_, _, _, _, hmarked⟩ := id hm
      exact absurd hmarked (hnone _ hm.mem)
  | missing hnone =>
    cases h' with
    | found hm =>
      obtain ⟨_, _, _, _, hmarked⟩ := id hm
      exact absurd hmarked (hnone _ hm.mem)
    | missing _ => rfl

/-- An answer depends on the first path with the marker in it, and on no other. -/
theorem search_answer_congr (list list' : String) {paths others : List String}
    (h : paths.find? (marks marker) = others.find? (marks marker)) :
    (search list marker paths).answer = (search list' marker others).answer := by
  unfold search
  rw [h]
  cases others.find? (marks marker) <;> rfl

end Search

/-! ### Lines -/

theorem endsWith_iff (path mark : String) :
    path.endsWith mark = true ↔ mark.toList <:+ path.toList := by
  rw [String.endsWith, String.Slice.endsWith_string_iff, String.copy_toSlice]

/-- A shown text that is left when blanks are taken off is the path of a file, unless it is one of
the texts that are not. -/
theorem fileOf?_eq (shown : String) : fileOf? shown =
    if trim shown.toList = [] ∨ "/SYSV".toList <+: trim shown.toList ∨
        ['['] <+: trim shown.toList ∧ [']'] <:+ trim shown.toList then none
    else some (String.ofList (trim shown.toList)) := by
  have hempty : String.ofList (trim shown.toList) = "" ↔ trim shown.toList = [] :=
    String.ofList_eq_empty_iff
  simp only [fileOf?, hempty, String.startsWith_string_iff, endsWith_iff, String.toList_ofList]
  rfl

/-- A line of no file: nothing, or a name in brackets. -/
def Pseudo (line : String) : Prop := line = "" ∨ ∃ name : String, line = "[" ++ name ++ "]"

theorem fileOf?_pseudo {line : String} (h : Pseudo line) : fileOf? line = none := by
  obtain rfl | ⟨name, rfl⟩ := h
  · rfl
  · have hline : ("[" ++ name ++ "]").toList = '[' :: name.toList ++ [']'] := by
      simp
    have htrim : trim ('[' :: name.toList ++ [']']) = '[' :: name.toList ++ [']'] := by
      simp [trim, trimEnd, trimStart, isBlank]
    rw [fileOf?_eq, hline, htrim]
    exact if_pos (.inr (.inr ⟨⟨_, rfl⟩, ⟨_, rfl⟩⟩))

/-- An absolute path that fits on a line, and is not of shared memory. -/
structure Ordinary (path : String) : Prop where
  absolute : ['/'] <+: path.toList
  oneLine : '\n' ∉ path.toList
  unshared : ¬ "/SYSV".toList <+: path.toList

/-- A text that starts as a path names a file, once the blanks at its ends are taken off. -/
theorem fileOf?_absolute {shown : String} (h : ['/'] <+: trim shown.toList)
    (hown : ¬ "/SYSV".toList <+: trim shown.toList) :
    fileOf? shown = some (String.ofList (trim shown.toList)) := by
  obtain ⟨rest, hrest⟩ := h
  rw [fileOf?_eq, if_neg]
  rintro (hnil | hshared | ⟨⟨name, hname⟩, -⟩)
  · rw [hnil] at hrest
    cases hrest
  · exact hown hshared
  · rw [← hrest] at hname
    cases hname

theorem flatMap_shownChar {cs : List Char} (h : '\n' ∉ cs) : cs.flatMap shownChar = cs := by
  induction cs with
  | nil => rfl
  | cons c rest ih =>
    have hc : c ≠ '\n' := fun hc => h (hc ▸ List.mem_cons_self)
    rw [List.flatMap_cons, shownChar, if_neg hc, ih fun hin => h (List.mem_cons_of_mem c hin)]
    rfl

theorem trimEnd_isPrefix (cs : List Char) : trimEnd cs <+: cs := by
  rw [← List.reverse_suffix, trimEnd, List.reverse_reverse]
  exact List.dropWhile_suffix isBlank

theorem trimEnd_cons {c : Char} (hc : isBlank c = false) (cs : List Char) :
    trimEnd (c :: cs) = c :: trimEnd cs := by
  have hlast : [c].dropWhile isBlank = [c] := List.dropWhile_cons_of_neg (by simp [hc])
  rw [trimEnd, trimEnd, trimStart, trimStart, List.reverse_cons, List.dropWhile_append, hlast]
  split
  · next hnone =>
    rw [List.isEmpty_iff.1 hnone]
    rfl
  · rw [List.reverse_append]
    rfl

theorem trimEnd_concat {c : Char} (hc : isBlank c = false) (cs : List Char) :
    trimEnd (cs ++ [c]) = cs ++ [c] := by
  rw [trimEnd, trimStart, List.reverse_concat, List.dropWhile_cons_of_neg (by simp [hc]),
    List.reverse_cons, List.reverse_reverse]

/-- The path that the line of an object shows: the object's own without the blanks at its end, or,
when the file is gone, with the mark behind it. -/
def Mapping.listed (m : Mapping) : String :=
  if m.deleted then m.path ++ deletedMark else String.ofList (trimEnd m.path.toList)

theorem toList_deletedMark : deletedMark.toList = ' ' :: "(deleted".toList ++ [')'] := by
  decide

theorem trim_shown {m : Mapping} (h : Ordinary m.path) : trim m.shown.toList = m.listed.toList := by
  obtain ⟨path, deleted⟩ := m
  obtain ⟨⟨rest, hpath⟩, hline, -⟩ := h
  rw [Mapping.shown, String.toList_append, String.toList_ofList, flatMap_shownChar hline]
  cases deleted with
  | false =>
    show trim (path.toList ++ []) = (String.ofList (trimEnd path.toList)).toList
    rw [List.append_nil, String.toList_ofList, ← hpath]
    rfl
  | true =>
    show trim (path.toList ++ deletedMark.toList) = (path ++ deletedMark).toList
    have hlast : isBlank ')' = false := by decide
    rw [String.toList_append, toList_deletedMark, ← List.append_assoc, ← hpath]
    show trimEnd ('/' :: rest ++ ' ' :: "(deleted".toList ++ [')']) = _
    exact trimEnd_concat hlast _

theorem listed_absolute {m : Mapping} (h : Ordinary m.path) : ['/'] <+: m.listed.toList := by
  obtain ⟨rest, hpath⟩ := h.absolute
  unfold Mapping.listed
  split
  · rw [String.toList_append, ← hpath]
    exact ⟨rest ++ deletedMark.toList, rfl⟩
  · rw [String.toList_ofList, ← hpath]
    exact ⟨_, (trimEnd_cons (by decide) rest).symm⟩

/-- A name without the character in it is not made a start of a path by what goes on with it. -/
theorem not_prefix_append {name path rest : List Char} {c : Char} (hc : c ∉ name)
    (h : ¬ name <+: path) : ¬ name <+: path ++ c :: rest := by
  intro hname
  rcases List.prefix_or_prefix_of_prefix hname (List.prefix_append path (c :: rest)) with
    hin | ⟨more, rfl⟩
  · exact h hin
  · cases more with
    | nil => exact h (by rw [List.append_nil])
    | cons d more =>
      rw [List.prefix_append_right_inj, List.cons_prefix_cons] at hname
      exact hc (hname.1 ▸ List.mem_append_right path List.mem_cons_self)

/-- The mark does not make a path one of shared memory. -/
theorem listed_unshared {m : Mapping} (h : Ordinary m.path) :
    ¬ "/SYSV".toList <+: m.listed.toList := by
  have hunshared := h.unshared
  have hblank : ' ' ∉ "/SYSV".toList := by decide
  generalize "/SYSV".toList = name at hunshared hblank ⊢
  unfold Mapping.listed
  split
  · rw [String.toList_append, toList_deletedMark]
    exact not_prefix_append hblank hunshared
  · rw [String.toList_ofList]
    exact fun hshared => hunshared (hshared.trans (trimEnd_isPrefix _))

theorem fileOf?_shown {m : Mapping} (h : Ordinary m.path) : fileOf? m.shown = some m.listed := by
  have habsolute := listed_absolute h
  have hunshared := listed_unshared h
  rw [← trim_shown h] at habsolute hunshared
  rw [fileOf?_absolute habsolute hunshared, trim_shown h, String.ofList_toList]

/-! ### The two lists -/

/-- The lines of mapped files, when the objects of `before` have stood already: the objects come in
their order, each with a line for each mapping, and lines of no file may stand anywhere. -/
inductive Listed : List Mapping → List Mapping → List String → Prop where
  | done {before} : Listed before [] []
  | aside {before objects line lines} : Pseudo line → Listed before objects lines →
      Listed before objects (line :: lines)
  | first {before m objects lines} : Listed (before ++ [m]) objects lines →
      Listed before (m :: objects) (m.shown :: lines)
  | again {before m objects lines} : m ∈ before → Listed before objects lines →
      Listed before objects (m.shown :: lines)

/-- Lines lead to the object that their paths lead to: what is no file is passed over, and an
object that stands again has been passed over before. -/
theorem Listed.find?_files {marker : String} {before objects : List Mapping} {lines : List String}
    (h : Listed before objects lines) (hordinary : ∀ m ∈ before ++ objects, Ordinary m.path)
    (hbefore : ∀ m ∈ before, ¬ Marked marker m.listed) :
    (lines.filterMap fileOf?).find? (marks marker) =
      (objects.map Mapping.listed).find? (marks marker) := by
  induction h with
  | done => rfl
  | aside hpseudo _ ih =>
    rw [List.filterMap_cons_none (fileOf?_pseudo hpseudo)]
    exact ih hordinary hbefore
  | @first before m objects lines _ ih =>
    rw [List.filterMap_cons_some (fileOf?_shown (hordinary m (by simp))), List.map_cons]
    by_cases hm : Marked marker m.listed
    · have hfound : marks marker m.listed = true := (marks_iff ..).2 hm
      rw [List.find?_cons_of_pos hfound, List.find?_cons_of_pos hfound]
    · have hskip : ¬ marks marker m.listed = true := fun hmarks => hm ((marks_iff ..).1 hmarks)
      rw [List.find?_cons_of_neg hskip, List.find?_cons_of_neg hskip]
      refine ih (fun other hin => hordinary other (by simpa using hin)) fun other hin => ?_
      rcases List.mem_append.1 hin with hin | hin
      · exact hbefore other hin
      · exact List.mem_singleton.1 hin ▸ hm
  | again hin _ ih =>
    have hskip : ¬ marks marker (Mapping.listed _) = true := fun hmarks =>
      hbefore _ hin ((marks_iff ..).1 hmarks)
    rw [List.filterMap_cons_some (fileOf?_shown (hordinary _ (List.mem_append_left _ hin))),
      List.find?_cons_of_neg hskip]
    exact ih hordinary hbefore

/-- A path that ends neither with a blank nor as the path of a file that is gone is shown. -/
structure Plain (path : String) : Prop where
  unblank : trimEnd path.toList = path.toList
  unmarked : ¬ deletedMark.toList <:+ path.toList

theorem Plain.listed {m : Mapping} (h : Plain m.path) (hthere : m.deleted = false) :
    m.listed = m.path := by
  rw [Mapping.listed, hthere, h.unblank, String.ofList_toList]
  rfl

theorem Plain.marked_listed {marker : String} {m : Mapping} (h : Plain m.path)
    (hmarked : Marked marker m.path) : Marked marker m.listed := by
  cases hgone : m.deleted with
  | false => rwa [h.listed hgone]
  | true =>
    rw [Mapping.listed, hgone, if_pos rfl]
    refine hmarked.trans ?_
    rw [String.toList_append, Utf8.encode, Utf8.encode, List.flatMap_append]
    exact (List.prefix_append ..).isInfix

theorem First.path {marker : String} {objects : List Mapping} {m : Mapping}
    (h : First marker Mapping.listed objects m) (hplain : ∀ m ∈ objects, Plain m.path)
    (hthere : m.deleted = false) : First marker Mapping.path objects m := by
  have hm := (hplain m h.mem).listed hthere
  obtain ⟨before, after, rfl, hbefore, hmarked⟩ := h
  refine ⟨before, after, rfl, fun other hin hother => ?_, hm ▸ hmarked⟩
  exact hbefore other hin ((hplain other (List.mem_append_left _ hin)).marked_listed hother)

/-- **The list of mapped files leads to the library that the loaded objects lead to, unless its file
is gone.** For objects under ordinary paths, in one order in both lists, however often each is
mapped and whatever lines of no file stand between, and for every marker: the search through the
objects answers the first path that has the bytes of the marker in it somewhere, and the search
through the lines the first such path as it is shown, each the same failure if there is none. So
for paths that do not themselves look like that of a file that is gone, nor end with a blank, the two
answers are one if and only if the file of the first object that is shown with the marker is still
there. -/
theorem searches_agree (marker : String) {objects : List Mapping} {lines : List String}
    (hordinary : ∀ m ∈ objects, Ordinary m.path) (hlines : Listed [] objects lines) :
    let linked := (inLinkMap marker (objects.map Mapping.path)).answer
    let mapped := (inMaps marker lines).answer
    Finds marker Mapping.path objects linked ∧
      Finds marker Mapping.listed objects mapped ∧
      ((∀ m ∈ objects, Plain m.path) →
        (mapped = linked ↔ ∀ m, First marker Mapping.listed objects m → m.deleted = false)) := by
  intro linked mapped
  have hlinked : Finds marker Mapping.path objects linked := search_finds ..
  have hmapped : Finds marker Mapping.listed objects mapped := by
    have hsame : mapped = (search "memory maps" marker (objects.map Mapping.listed)).answer :=
      search_answer_congr _ _ (hlines.find?_files hordinary nofun)
    exact hsame ▸ search_finds "memory maps"
  refine ⟨hlinked, hmapped, fun hplain => ⟨fun heq m hfirst => ?_, fun hthere => ?_⟩⟩
  · -- no path of an object is one that is shown of a file that is gone
    refine Bool.eq_false_iff.2 fun hgone => ?_
    have hpath : mapped = .ok (m.path ++ deletedMark) := by
      rw [hmapped.unique (.found hfirst), Mapping.listed, hgone, if_pos rfl]
    rw [← heq, hpath] at hlinked
    obtain ⟨other, hother, hsame⟩ := hlinked.of_ok
    refine (hplain other hother.mem).unmarked ?_
    rw [hsame, String.toList_append]
    exact List.suffix_append ..
  · have hagain : Finds marker Mapping.path objects mapped := by
      generalize mapped = answer at hmapped ⊢
      cases hmapped with
      | found hfirst =>
        rw [(hplain _ hfirst.mem).listed (hthere _ hfirst)]
        exact .found (hfirst.path hplain (hthere _ hfirst))
      | missing hnone =>
        exact .missing fun m hin hmarked => hnone m hin ((hplain m hin).marked_listed hmarked)
    exact hagain.unique hlinked

/-- Two libraries, of which the first is mapped twice and the second, which has the marker, is still
there, and a third one with the marker that is gone. -/
theorem searches_agree_three :
    let loader : Mapping := ⟨"/lib/ld-linux.so.2", false⟩
    let runtime : Mapping := ⟨"/opt/glibc/libc.so.6", false⟩
    let gone : Mapping := ⟨"/tmp/libc.so.6", true⟩
    let objects := [loader, runtime, gone]
    let lines :=
      ["", loader.shown, loader.shown, "[heap]", runtime.shown, "", gone.shown, "[stack]"]
    (inMaps "libc.so" lines).answer = (inLinkMap "libc.so" (objects.map Mapping.path)).answer ∧
      (inMaps "libc.so" lines).answer = .ok "/opt/glibc/libc.so.6" := by
  intro loader runtime gone objects lines
  have hordinary : ∀ m ∈ objects, Ordinary m.path := by
    simp only [objects, List.forall_mem_cons]
    exact ⟨⟨by decide, by decide, by decide⟩, ⟨by decide, by decide, by decide⟩,
      ⟨by decide, by decide, by decide⟩, nofun⟩
  have hplain : ∀ m ∈ objects, Plain m.path := by
    simp only [objects, List.forall_mem_cons]
    exact ⟨⟨by decide, by decide⟩, ⟨by decide, by decide⟩, ⟨by decide, by decide⟩, nofun⟩
  have hlines : Listed [] objects lines :=
    .aside (.inl rfl) <| .first <| .again List.mem_cons_self <| .aside (.inr ⟨"heap", by decide⟩) <|
      .first <| .aside (.inl rfl) <| .first <| .aside (.inr ⟨"stack", by decide⟩) .done
  have hfirst : First "libc.so" Mapping.listed objects runtime := (first_iff runtime).2 (by decide)
  obtain ⟨-, hmapped, hsame⟩ := searches_agree "libc.so" hordinary hlines
  refine ⟨(hsame hplain).2 fun m hm => ?_, (hmapped.unique (.found hfirst)).trans (by decide)⟩
  cases ((first_iff m).1 hm).symm.trans ((first_iff runtime).1 hfirst)
  rfl

/-- A library whose file is gone is found among the objects under its own path, and among the mapped
files under another one, which leads nowhere. -/
theorem searches_differ_gone :
    let gone : Mapping := ⟨"/d/libqq.so.6", true⟩
    Ordinary gone.path ∧ Listed [] [gone] [gone.shown] ∧
      (inLinkMap "libqq.so" [gone.path]).answer = .ok "/d/libqq.so.6" ∧
      (inMaps "libqq.so" [gone.shown]).answer = .ok "/d/libqq.so.6 (deleted)" := by
  intro gone
  have hordinary : Ordinary gone.path := ⟨by decide, by decide, by decide⟩
  refine ⟨hordinary, .first .done, by decide, ?_⟩
  rw [inMaps, List.filterMap_cons_some (fileOf?_shown hordinary)]
  decide

end LookupTap.Library
