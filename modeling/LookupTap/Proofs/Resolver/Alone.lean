import LookupTap.Proofs.Files.Spelling
import LookupTap.Proofs.Resolver.Snapshot

/-! When a resolver that remembers answers as one that does not.

While no file changes, all questions on a path that can be answered find the same table, however the
path is spelled, so it does not matter which of them was the first (`tables_agree`). What remains of
the past is a table for a spelling that leads to no file itself: one with a separator or `.` at its
end, or one too long for the system. Such a question is answered from the table if it comes late and
refused if it comes first; all others are answered as a fresh resolver would (`answers_alone`). -/
namespace LookupTap.SymbolCache

/-- What a parsed binary holds has nothing to do with the path it was found under. -/
theorem parse_ok_of_parse_ok {path : String} {data : Bytes} {t : SymbolTable}
    (h : SymbolTable.parse path data = .ok t) (path' : String) :
    SymbolTable.parse path' data = .ok t := by
  unfold SymbolTable.parse at h ⊢
  split at h <;> simp_all

theorem load_eq_ok {read : Reading} {path : String} {t : SymbolTable} (h : load read path = .ok t) :
    ∃ data, read path = .ok data ∧ SymbolTable.parse path data = .ok t := by
  unfold load at h
  split at h
  · cases h
  · next data hread => exact ⟨data, hread, h⟩

section Unchanged
variable {files : Files} (hfiles : files.Settled) {path path' : String}
include hfiles

/-- A path that may lead to a file finds the table that is found under another spelling. -/
theorem load_of_parts (hparts : Path.parts path' = Path.parts path) (hfile : Path.OfFile path)
    {t : SymbolTable} (h : load files.read path' = .ok t) : load files.read path = .ok t := by
  obtain ⟨data, hread, hparse⟩ := load_eq_ok h
  have hfile' : Path.OfFile path' := hfiles.ofFile_of_read hread
  rw [hfiles.read_eq_of_parts hparts hfile hfile'] at hread
  rw [load, hread]
  exact parse_ok_of_parse_ok hparse path

theorem tables_agree (hparts : Path.parts path' = Path.parts path) {t t' : SymbolTable}
    (h : load files.read path = .ok t) (h' : load files.read path' = .ok t') : t' = t := by
  obtain ⟨data, hread, _⟩ := load_eq_ok h
  have hsame := load_of_parts hfiles hparts (hfiles.ofFile_of_read hread) h'
  exact Except.ok.inj (hsame.symm.trans h)

end Unchanged

namespace Session

/-- The session in which nothing happens but questions. -/
def asking (files : Files) (asked : List (String × String)) : Session :=
  ({ files } : Session).run (asked.map fun (path, symbol) => .ask path symbol)

theorem run_asks (s : Session) (asked : List (String × String)) :
    (s.run (asked.map fun (path, symbol) => .ask path symbol)).files = s.files ∧
      (s.run (asked.map fun (path, symbol) => .ask path symbol)).asked =
        s.asked ++ asked.map fun (path, symbol) => ⟨s.files.read, path, symbol⟩ := by
  induction asked generalizing s with
  | nil => exact ⟨rfl, (List.append_nil _).symm⟩
  | cons question asked ih =>
    obtain ⟨hfiles, hasked⟩ := ih (s.turn (.ask question.1 question.2))
    refine ⟨hfiles, hasked.trans ?_⟩
    rw [asked_ask, List.append_assoc]
    rfl

end Session

/-- What a question gets from a fresh resolver. -/
def aloneAnswer (files : Files) (path symbol : String) : Except Fault Nat :=
  (({ files } : Session).reply path symbol).answer

theorem aloneAnswer_of_load {files : Files} {path : String} {t : SymbolTable}
    (h : load files.read path = .ok t) (symbol : String) :
    aloneAnswer files path symbol = t.resolve path symbol := by
  rw [aloneAnswer, Session.reply, resolve_loaded rfl h]

theorem aloneAnswer_of_error {files : Files} {path : String} {e : Fault}
    (h : load files.read path = .error e) (symbol : String) :
    aloneAnswer files path symbol = .error e := by
  rw [aloneAnswer, Session.reply, resolve_failed rfl h]

/-! ### What the past leaves -/

theorem exists_of_firstTable? {place : Path.Parts} {asked : List Question} {path : String}
    {t : SymbolTable} (h : firstTable? place asked = some (path, t)) :
    ∃ q ∈ asked, q.place = place ∧ q.table? = some t := by
  obtain ⟨q, hq, hfound⟩ := List.exists_of_findSome?_eq_some h
  obtain ⟨hin, hplace⟩ := List.mem_filter.mp hq
  obtain ⟨_, htable, heq⟩ := Option.map_eq_some_iff.mp hfound
  cases heq
  exact ⟨q, hin, of_decide_eq_true hplace, htable⟩

theorem table?_of_firstTable?_none {place : Path.Parts} {asked : List Question}
    (h : firstTable? place asked = none) {q : Question} (hq : q ∈ asked) (hplace : q.place = place) :
    q.table? = none := by
  have hnone := List.findSome?_eq_none_iff.mp h q (List.mem_filter.mpr ⟨hq, decide_eq_true hplace⟩)
  exact Option.map_eq_none_iff.mp hnone

section Asking
variable {files : Files} {asked : List (String × String)} {path : String}

/-- A session of questions keeps the first table that one of them finds on the path. -/
theorem get?_asking (files : Files) (asked : List (String × String)) (path : String) :
    Keyed.get? (Path.parts path) (Session.asking files asked).cache.tables =
      (firstTable? (Path.parts path)
        (asked.map fun (path, symbol) => ⟨files.read, path, symbol⟩)).map (·.2) := by
  have htraced := Session.run_traced (Session.fresh_traced files)
    (asked.map fun (path, symbol) => .ask path symbol)
  rw [Session.asking, htraced.kept, (Session.run_asks ..).2]
  rfl

theorem reply_asking (files : Files) (asked : List (String × String)) (path symbol : String) :
    (Session.asking files asked).reply path symbol =
      (Session.asking files asked).cache.resolve files.read path symbol := by
  rw [Session.reply, Session.asking, (Session.run_asks ..).1]

/-- An earlier question, on a path with the same parts, finds the table. -/
def Found (files : Files) (asked : List (String × String)) (path : String) (t : SymbolTable) :
    Prop :=
  ∃ q ∈ asked, Path.parts q.1 = Path.parts path ∧ load files.read q.1 = .ok t

/-- What an earlier question finds on the path answers the present one. -/
theorem answer_of_found (hfiles : files.Settled) {t : SymbolTable} (h : Found files asked path t)
    (symbol : String) :
    ((Session.asking files asked).reply path symbol).answer = t.resolve path symbol := by
  obtain ⟨q, hq, hparts, hload⟩ := h
  have hkept := get?_asking files asked path
  rw [reply_asking]
  cases hfirst : firstTable? (Path.parts path)
      (asked.map fun (path, symbol) => ⟨files.read, path, symbol⟩) with
  | none =>
    have hnone := table?_of_firstTable?_none hfirst (List.mem_map_of_mem hq) hparts
    rw [Question.table?, hload] at hnone
    cases hnone
  | some found =>
    obtain ⟨first, hin, hplace, htable⟩ := exists_of_firstTable? hfirst
    obtain ⟨q', _, rfl⟩ := List.mem_map.mp hin
    have hload' : load files.read q'.1 = .ok found.2 := eq_ok_of_toOption htable
    obtain rfl : found.2 = t := tables_agree hfiles (hplace.trans hparts.symm) hload hload'
    rw [hfirst] at hkept
    rw [resolve_kept hkept]

/-- Where no earlier question finds a table, there is nothing to remember. -/
theorem answer_of_not_found (hnone : ¬ ∃ t, Found files asked path t) (symbol : String) :
    ((Session.asking files asked).reply path symbol).answer = aloneAnswer files path symbol := by
  have hfirst : firstTable? (Path.parts path)
      (asked.map fun (path, symbol) => ⟨files.read, path, symbol⟩) = none := by
    rw [Option.eq_none_iff_forall_ne_some]
    intro found hsome
    obtain ⟨first, hin, hplace, htable⟩ := exists_of_firstTable? hsome
    obtain ⟨q, hq, rfl⟩ := List.mem_map.mp hin
    exact hnone ⟨found.2, q, hq, hplace, eq_ok_of_toOption htable⟩
  have hkept := get?_asking files asked path
  rw [hfirst] at hkept
  rw [reply_asking]
  exact (resolve_congr files.read symbol hkept).1

/-- A question that has an answer of its own gets it. -/
theorem answer_of_load (hfiles : files.Settled) {t : SymbolTable}
    (hload : load files.read path = .ok t) (symbol : String) :
    ((Session.asking files asked).reply path symbol).answer = aloneAnswer files path symbol := by
  by_cases hfound : ∃ t, Found files asked path t
  · obtain ⟨t', q, hq, hparts, hload'⟩ := hfound
    rw [answer_of_found hfiles ⟨q, hq, hparts, hload'⟩, tables_agree hfiles hparts hload hload',
      aloneAnswer_of_load hload]
  · exact answer_of_not_found hfound symbol

end Asking

/-- **A resolver that remembers answers as a fresh one, but for spellings that lead to no file.**
While no file changes, a question on a path that ends in a name and is short enough is answered as
it would be alone. A question on any path is answered otherwise just when it would be refused alone
and an earlier one, on a path with the same parts, found a table; and then it is answered from that
table. -/
theorem answers_alone (files : Files) (hfiles : files.Settled) (asked : List (String × String))
    (path symbol : String) :
    let answer := ((Session.asking files asked).reply path symbol).answer
    (Path.OfFile path → answer = aloneAnswer files path symbol) ∧
    (answer ≠ aloneAnswer files path symbol ↔
      (∃ reason, aloneAnswer files path symbol = .error (.badBinary path reason)) ∧
        ∃ t, Found files asked path t) ∧
    ∀ t, Found files asked path t → answer = t.resolve path symbol := by
  intro answer
  refine ⟨fun hfile => ?_, ⟨fun hdiffers => ?_, ?_⟩,
    fun t hfound => answer_of_found hfiles hfound symbol⟩
  · by_cases hfound : ∃ t, Found files asked path t
    · obtain ⟨t, q, _, hparts, hload⟩ := hfound
      exact answer_of_load hfiles (load_of_parts hfiles hparts hfile hload) symbol
    · exact answer_of_not_found hfound symbol
  · cases hload : load files.read path with
    | ok t => exact absurd (answer_of_load hfiles hload symbol) hdiffers
    | error e =>
      obtain ⟨reason, rfl⟩ := load_fault hload
      refine ⟨⟨reason, aloneAnswer_of_error hload symbol⟩, ?_⟩
      apply Classical.byContradiction
      intro hnone
      exact hdiffers (answer_of_not_found hnone symbol)
  · rintro ⟨⟨reason, hrefused⟩, t, hfound⟩ hsame
    -- a table gives an offset or misses the symbol: it refuses no binary
    have hanswer : answer = t.resolve path symbol := answer_of_found hfiles hfound symbol
    rw [hrefused, hanswer, SymbolTable.resolve] at hsame
    split at hsame <;> cases hsame

/-! ### A library asked for as a directory -/

/-- The files of a working directory with one library in it. -/
def oneLibrary : Files := ({ home := "/w" } : Files).write "d/f.so" (Elf.library 0x66 16)

theorem settled_oneLibrary : oneLibrary.Settled where
  rooted := by decide +kernel
  named := by decide +kernel

set_option maxRecDepth 20000 in
theorem load_oneLibrary : load oneLibrary.read "d//f.so" = .ok ⟨[⟨"f", 16⟩]⟩ :=
  eq_ok_of_toOption (by decide +kernel)

theorem answers_alone_library :
    oneLibrary.Settled ∧
    ((Session.asking oneLibrary [("d//f.so", "f")]).reply "d/./f.so" "f").answer =
      aloneAnswer oneLibrary "d/./f.so" "f" ∧
    ((Session.asking oneLibrary [("d//f.so", "f")]).reply "d/f.so/" "f").answer = .ok 16 := by
  obtain ⟨hsame, _, _⟩ :=
    answers_alone oneLibrary settled_oneLibrary [("d//f.so", "f")] "d/./f.so" "f"
  obtain ⟨_, _, htable⟩ :=
    answers_alone oneLibrary settled_oneLibrary [("d//f.so", "f")] "d/f.so/" "f"
  refine ⟨settled_oneLibrary, hsame ⟨by decide +kernel, by decide +kernel⟩, ?_⟩
  exact htable _ ⟨_, .head _, by decide +kernel, load_oneLibrary⟩

/-- Asked for as a directory, the library is refused, but not after it has been asked for as a
file. -/
theorem kept_as_directory :
    ((Session.asking oneLibrary [("d/f.so", "f")]).reply "d/f.so/" "f").answer = .ok 16 ∧
    aloneAnswer oneLibrary "d/f.so/" "f" =
      .error (.badBinary "d/f.so/" "Not a directory (os error 20)") := by
  have hplace : oneLibrary.place? "d/f.so/" = .error .notADirectory := by decide +kernel
  have hread : oneLibrary.read "d/f.so/" = .error (.os .notADirectory) := by
    rw [Files.read, if_neg (by decide), hplace]
  have hload : load oneLibrary.read "d/f.so/" =
      .error (.badBinary "d/f.so/" "Not a directory (os error 20)") := by
    rw [load, hread]
    rfl
  refine ⟨eq_ok_of_toOption ?_, aloneAnswer_of_error hload "f"⟩
  decide +kernel

end LookupTap.SymbolCache
