import LookupTap.Log

/-! What a step of the program leaves: its answer, the lines it wrote, and its state. -/
namespace LookupTap

/-- An answer and the lines written on the way to it. -/
structure Logged (α : Type) where
  answer : α
  lines : List Line := []

/-- What comes of a step that changes a state. -/
structure Step (σ α : Type) where
  answer : α
  state : σ
  lines : List Line := []

/-- If two steps in a row come out well, each of them does. -/
theorem bind_eq_ok {ε α β : Type} {x : Except ε α} {f : α → Except ε β} {b : β}
    (h : x >>= f = .ok b) : ∃ a, x = .ok a ∧ f a = .ok b := by
  cases x with
  | error e => cases h
  | ok a => exact ⟨a, rfl, h⟩

theorem map_eq_ok {ε α β : Type} {x : Except ε α} {f : α → β} {b : β}
    (h : x.map f = .ok b) : ∃ a, x = .ok a ∧ f a = b := by
  cases x with
  | error e => cases h
  | ok a => exact ⟨a, rfl, Except.ok.inj h⟩

theorem eq_ok_of_toOption {ε α : Type} {x : Except ε α} {a : α} (h : x.toOption = some a) :
    x = .ok a := by
  cases x with
  | error e => cases h
  | ok b => exact congrArg Except.ok (Option.some.inj h)

end LookupTap
