import Mathlib

/-!
# Running fallible Rust code

A Rust function returns a value, returns an error, or panics. This module
gives those outcomes a monad and models the operations that panic: checked
machine arithmetic and oversized allocations. The integers are 64 bits wide,
the width of `u64` and of `usize` on the targets considered.
-/

namespace Rust

/-- The ways a run can stop without a value. `diverges` marks a loop whose
body makes no progress. -/
inductive Stop (ε : Type) where
  | error (e : ε)
  | panic
  | diverges
  deriving DecidableEq, Repr

/-- A run ending in a value or stopping early. -/
abbrev Exec (ε α : Type) := Except (Stop ε) α

/-- Number of values of a 64-bit machine integer. -/
def wordCount : Nat := 2 ^ 64

/-- Largest size in bytes of one allocation, `isize::MAX`. -/
def isizeMax : Nat := 2 ^ 63 - 1

namespace Exec

variable {ε ε' α β : Type}

/-- Stop with an error value. -/
def fail (e : ε) : Exec ε α := .error (.error e)

/-- Panic. -/
def panicked : Exec ε α := .error .panic

/-- Unwrap an optional value, stopping with `e` when it is absent. -/
def okOr (value : Option α) (e : ε) : Exec ε α :=
  match value with
  | some a => .ok a
  | none => fail e

/-- `if condition { return Err(e) }`. -/
def failIf (condition : Prop) [Decidable condition] (e : ε) : Exec ε Unit :=
  if condition then fail e else .ok ()

/-- Turn an error into a value that can be matched on. Panics pass through. -/
def attempt (run : Exec ε α) : Exec ε' (Except ε α) :=
  match run with
  | .ok a => .ok (.ok a)
  | .error (.error e) => .ok (.error e)
  | .error .panic => .error .panic
  | .error .diverges => .error .diverges

/-- `Result::or_else` for a fallback that ignores the error. -/
def orElse (first : Exec ε α) (second : Exec ε α) : Exec ε α :=
  match first with
  | .ok a => .ok a
  | .error (.error _) => second
  | .error .panic => .error .panic
  | .error .diverges => .error .diverges

@[simp] theorem pure_eq_ok (a : α) : (pure a : Exec ε α) = .ok a := rfl

@[simp] theorem ok_bind (a : α) (next : α → Exec ε β) :
    ((.ok a : Exec ε α) >>= next) = next a := rfl

@[simp] theorem error_bind (stop : Stop ε) (next : α → Exec ε β) :
    ((.error stop : Exec ε α) >>= next) = .error stop := rfl

@[simp] theorem fail_bind (e : ε) (next : α → Exec ε β) :
    ((fail e : Exec ε α) >>= next) = fail e := rfl

/-- A failed check skips what follows. -/
theorem failIf_bind (condition : Prop) [Decidable condition] (e : ε)
    (next : Unit → Exec ε β) :
    (failIf condition e >>= next) =
      if condition then fail e else next () := by
  unfold failIf
  split <;> rfl

@[simp] theorem okOr_some (a : α) (e : ε) :
    okOr (some a) e = (.ok a : Exec ε α) := rfl

@[simp] theorem okOr_none (e : ε) :
    (okOr none e : Exec ε α) = fail e := rfl

@[simp] theorem attempt_ok (a : α) :
    (attempt (.ok a : Exec ε α) : Exec ε' (Except ε α)) = .ok (.ok a) := rfl

@[simp] theorem attempt_fail (e : ε) :
    (attempt (fail e : Exec ε α) : Exec ε' (Except ε α)) =
      .ok (.error e) := rfl

@[simp] theorem orElse_ok (a : α) (second : Exec ε α) :
    orElse (.ok a) second = .ok a := rfl

@[simp] theorem orElse_fail (e : ε) (second : Exec ε α) :
    orElse (fail e) second = second := rfl

@[simp] theorem fail_ne_ok (e : ε) (a : α) :
    (fail e : Exec ε α) ≠ .ok a := by
  intro impossible
  cases impossible

@[simp] theorem panicked_ne_ok (a : α) :
    (panicked : Exec ε α) ≠ .ok a := by
  intro impossible
  cases impossible

/-- A value is returned if there is one. -/
theorem okOr_eq_ok {value : Option α} {e : ε} {a : α} :
    (okOr value e : Exec ε α) = .ok a ↔ value = some a := by
  cases value <;> simp

/-- Two steps return if the first one does and the second one does with its
value. -/
theorem bind_eq_ok {run : Exec ε α} {next : α → Exec ε β} {b : β} :
    (run >>= next) = .ok b ↔ ∃ a, run = .ok a ∧ next a = .ok b := by
  cases run with
  | ok a => simp
  | error stop => simp

/-! ## Ending regularly -/

/-- The run ends with a value or an error value: it neither panics nor
diverges. -/
def Settles (run : Exec ε α) : Prop :=
  run ≠ .error .panic ∧ run ≠ .error .diverges

@[simp] theorem settles_ok (a : α) : Settles (.ok a : Exec ε α) := by
  simp [Settles]

@[simp] theorem settles_fail (e : ε) : Settles (fail e : Exec ε α) := by
  simp [Settles, fail]

@[simp] theorem not_settles_panicked :
    ¬ Settles (panicked : Exec ε α) := by
  simp [Settles, panicked]

/-- What returns settles. -/
theorem Settles.of_eq_ok {run : Exec ε α} {a : α} (returned : run = .ok a) :
    Settles run := by
  rw [returned]
  exact settles_ok a

/-- What settles returns or fails. -/
theorem settles_iff {run : Exec ε α} :
    Settles run ↔ (∃ a, run = .ok a) ∨ ∃ e, run = fail e := by
  rcases run with (_ | _ | _) | a <;> simp [Settles, fail]

/-- A sequence settles when its first part does and every continuation that
is reached does. -/
theorem Settles.bind {run : Exec ε α} {next : α → Exec ε β}
    (first : Settles run)
    (rest : ∀ a, run = .ok a → Settles (next a)) :
    Settles (run >>= next) := by
  rcases settles_iff.mp first with ⟨a, returned⟩ | ⟨e, failed⟩
  · rw [returned, ok_bind]
    exact rest a returned
  · rw [failed, fail_bind]
    exact settles_fail e

/-- A sequence that settles has a first part that settles. -/
theorem Settles.of_bind {run : Exec ε α} {next : α → Exec ε β}
    (whole : Settles (run >>= next)) : Settles run := by
  rcases run with (_ | _ | _) | a <;> simp_all [Settles]

theorem Settles.failIf (condition : Prop) [Decidable condition] (e : ε) :
    Settles (failIf condition e) := by
  unfold Exec.failIf
  split <;> simp

theorem Settles.okOr (value : Option α) (e : ε) :
    Settles (okOr value e) := by
  cases value <;> simp

/-- A fallback settles if both ways do. -/
theorem Settles.orElse {first second : Exec ε α}
    (firstSettles : Settles first) (secondSettles : Settles second) :
    Settles (orElse first second) := by
  rcases settles_iff.mp firstSettles with ⟨a, returned⟩ | ⟨e, failed⟩
  · simp [returned]
  · simpa [failed] using secondSettles

/-! ## Checked machine arithmetic -/

/-- Overflow-checked addition. -/
def add (a b : Nat) : Exec ε Nat :=
  if a + b < wordCount then .ok (a + b) else panicked

/-- Overflow-checked multiplication. -/
def mul (a b : Nat) : Exec ε Nat :=
  if a * b < wordCount then .ok (a * b) else panicked

/-- Underflow-checked subtraction. -/
def sub (a b : Nat) : Exec ε Nat :=
  if b ≤ a then .ok (a - b) else panicked

/-- Division, panicking on a zero divisor. -/
def div (a b : Nat) : Exec ε Nat :=
  if b = 0 then panicked else .ok (a / b)

/-- Remainder, panicking on a zero divisor. -/
def rem (a b : Nat) : Exec ε Nat :=
  if b = 0 then panicked else .ok (a % b)

/-- `div_ceil`, panicking on a zero divisor. -/
def divCeil (a b : Nat) : Exec ε Nat :=
  if b = 0 then panicked
  else .ok (if a % b = 0 then a / b else a / b + 1)

/-- `next_multiple_of`, panicking on a zero divisor and on overflow. -/
def nextMultipleOf (a b : Nat) : Exec ε Nat :=
  if b = 0 then panicked
  else if a % b = 0 then .ok a
  else add a (b - a % b)

/-- Saturating addition of 64-bit integers. -/
def saturatingAdd (a b : Nat) : Nat := min (a + b) (wordCount - 1)

/-- `wrapping_add`: the sum modulo the number of words. -/
def wrappingAdd (a b : Nat) : Nat := (a + b) % wordCount

/-- `checked_add`: the sum when it is representable. -/
def checkedAdd (a b : Nat) : Option Nat :=
  if a + b < wordCount then some (a + b) else none

/-- `checked_mul`: the product when it is representable. -/
def checkedMul (a b : Nat) : Option Nat :=
  if a * b < wordCount then some (a * b) else none

theorem add_eq_ok {a b : Nat} (fits : a + b < wordCount) :
    (add a b : Exec ε Nat) = .ok (a + b) := if_pos fits

theorem mul_eq_ok {a b : Nat} (fits : a * b < wordCount) :
    (mul a b : Exec ε Nat) = .ok (a * b) := if_pos fits

theorem sub_eq_ok {a b : Nat} (ordered : b ≤ a) :
    (sub a b : Exec ε Nat) = .ok (a - b) := if_pos ordered

theorem div_eq_ok {a b : Nat} (nonzero : b ≠ 0) :
    (div a b : Exec ε Nat) = .ok (a / b) := if_neg nonzero

theorem rem_eq_ok {a b : Nat} (nonzero : b ≠ 0) :
    (rem a b : Exec ε Nat) = .ok (a % b) := if_neg nonzero

/-- Rounding up adds one unless the division leaves no remainder. -/
theorem ceilDiv_eq {a b : Nat} (positive : 0 < b) :
    a ⌈/⌉ b = if a % b = 0 then a / b else a / b + 1 := by
  have whole := Nat.div_add_mod a b
  have small := Nat.mod_lt a positive
  rw [Nat.ceilDiv_eq_add_pred_div]
  by_cases exact : a % b = 0
  · rw [if_pos exact]
    apply Nat.div_eq_of_lt_le
    · rw [Nat.mul_comm]
      omega
    · rw [Nat.add_mul, Nat.mul_comm]
      omega
  · rw [if_neg exact]
    apply Nat.div_eq_of_lt_le
    · rw [Nat.add_mul, Nat.mul_comm]
      omega
    · rw [Nat.add_mul, Nat.add_mul, Nat.mul_comm]
      omega

/-- Division that rounds up. -/
theorem divCeil_eq_ok {a b : Nat} (positive : 0 < b) :
    (divCeil a b : Exec ε Nat) = .ok (a ⌈/⌉ b) := by
  rw [divCeil, if_neg (by omega), ceilDiv_eq positive]

/-- Rounding up to a multiple is rounding a division up. -/
theorem nextMultipleOf_eq_ok {a b : Nat} (positive : 0 < b)
    (fits : a ⌈/⌉ b * b < wordCount) :
    (nextMultipleOf a b : Exec ε Nat) = .ok (a ⌈/⌉ b * b) := by
  have whole := Nat.div_add_mod a b
  have small := Nat.mod_lt a positive
  rw [ceilDiv_eq positive] at fits ⊢
  rw [nextMultipleOf, if_neg (by omega)]
  by_cases exact : a % b = 0
  · rw [if_pos exact, if_pos exact,
      Nat.div_mul_cancel (Nat.dvd_of_mod_eq_zero exact)]
  · rw [if_neg exact, Nat.add_mul, Nat.mul_comm] at fits
    rw [if_neg exact, if_neg exact, add_eq_ok (by omega), Nat.add_mul,
      Nat.mul_comm (a / b)]
    congr 1
    omega

theorem checkedAdd_eq {a b : Nat} (fits : a + b < wordCount) :
    checkedAdd a b = some (a + b) := if_pos fits

theorem checkedMul_eq {a b : Nat} (fits : a * b < wordCount) :
    checkedMul a b = some (a * b) := if_pos fits

/-- A sum settles if it is a word. -/
theorem settles_add {a b : Nat} :
    Settles (add a b : Exec ε Nat) ↔ a + b < wordCount := by
  unfold add
  split <;> simp_all

/-- So does a product. -/
theorem settles_mul {a b : Nat} :
    Settles (mul a b : Exec ε Nat) ↔ a * b < wordCount := by
  unfold mul
  split <;> simp_all

/-- So does the next multiple. -/
theorem settles_nextMultipleOf {a b : Nat} (positive : 0 < b)
    (representable : a < wordCount) :
    Settles (nextMultipleOf a b : Exec ε Nat) ↔
      a ⌈/⌉ b * b < wordCount := by
  have whole := Nat.div_add_mod a b
  have small := Nat.mod_lt a positive
  rw [nextMultipleOf, if_neg (by omega), ceilDiv_eq positive]
  by_cases exact : a % b = 0
  · rw [if_pos exact, if_pos exact,
      Nat.div_mul_cancel (Nat.dvd_of_mod_eq_zero exact)]
    exact iff_of_true (settles_ok a) representable
  · rw [if_neg exact, if_neg exact, settles_add, Nat.add_mul,
      Nat.mul_comm (a / b)]
    omega

theorem saturatingAdd_eq {a b : Nat} (fits : a + b < wordCount) :
    saturatingAdd a b = a + b := by
  unfold saturatingAdd
  omega

/-- A saturated end below the largest word is the exact end. -/
theorem saturatingAdd_le_iff {a b limit : Nat}
    (limitSmall : limit < wordCount - 1) :
    saturatingAdd a b ≤ limit ↔ a + b ≤ limit := by
  unfold saturatingAdd
  omega

end Exec
end Rust
