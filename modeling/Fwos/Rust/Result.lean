import Mathlib.Data.List.Basic

/-!
# Checks that fail with a text

`Result<T, String>` as `Except String`, the check that the sources write as
`if !condition { return Err(…) }`, and how success passes through a sequence of
checks.
-/

namespace Rust

variable {α β ε : Type}

/-- Go on only if the condition holds. -/
def ensure (condition : Bool) (error : ε) : Except ε Unit :=
  if condition then .ok () else .error error

@[simp]
theorem ensure_eq_ok {condition : Bool} {error : ε} {u : Unit} :
    ensure condition error = .ok u ↔ condition = true := by
  unfold ensure
  split <;> simp_all

@[simp]
theorem pure_eq_ok {a b : α} : (pure a : Except ε α) = .ok b ↔ a = b := by
  simp [pure, Except.pure]

@[simp]
theorem throw_ne_ok {error : ε} {a : α} : ((throw error : Except ε α) = .ok a) ↔ False := by
  simp [throw, throwThe, MonadExceptOf.throw]

theorem bind_eq_ok {first : Except ε α} {next : α → Except ε β} {b : β} :
    first >>= next = .ok b ↔ ∃ a, first = .ok a ∧ next a = .ok b := by
  cases first <;> simp [bind, Except.bind]

/-- A sequence of checks succeeds when every check does. -/
theorem forM_eq_ok {list : List α} {check : α → Except ε Unit} {u : Unit} :
    forM list check = .ok u ↔ ∀ a ∈ list, check a = .ok () := by
  induction list with
  | nil => simp
  | cons a list ih =>
    rw [List.forM_cons, bind_eq_ok]
    simp only [List.mem_cons, forall_eq_or_imp, ← ih]
    exact ⟨fun ⟨(), ha, hl⟩ => ⟨ha, hl⟩, fun ⟨ha, hl⟩ => ⟨(), ha, hl⟩⟩

theorem option_forM_eq_ok {value : Option α} {check : α → Except ε Unit} {u : Unit} :
    forM value check = .ok u ↔ ∀ a, value = some a → check a = .ok () := by
  cases value <;> simp [forM, Option.forM]

/-- An optional value that the sources demand with `ok_or`. -/
def okOr (value : Option α) (error : ε) : Except ε α :=
  match value with
  | some a => .ok a
  | none => .error error

@[simp]
theorem okOr_eq_ok {value : Option α} {error : ε} {a : α} :
    okOr value error = .ok a ↔ value = some a := by
  cases value <;> simp [okOr]

end Rust
