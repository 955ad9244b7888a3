import VhdxForensic.Rust.Bytes

/-!
# Reads that may be short

A read fills the front of a buffer and says with how many bytes. It may stop
before the buffer is full, so callers repeat it in a loop. As long as every
read makes progress before the end of the source, the pattern of short reads
does not show.
-/

namespace Rust

open Bytes Exec

/-- `std::io::Error` of a read, as far as callers look into it. -/
inductive ReadError where
  | interrupted
  | other (message : String)
  deriving DecidableEq, Repr

/-- The result of a read: the number of bytes delivered and the buffer
afterwards. -/
abbrev ReadResult := Exec ReadError (Nat × Bytes)

/-- Fill `buf` from `total` on. The loop makes at most `fuel` passes and
repeats interrupted reads if `retry` is set. -/
def fillLoop {S : Type} (retry : Bool)
    (read : S → Nat → Bytes → ReadResult × S) :
    Nat → S → Bytes → Nat → ReadResult × S
  | 0, state, _, _ => (.error .diverges, state)
  | fuel + 1, state, buf, total =>
      if total < buf.length then
        match read state total (buf.drop total) with
        | (.ok (n, slice), state) =>
            let buf := buf.take total ++ slice
            if n = 0 then (.ok (total, buf), state)
            else
              match (add total n : Exec ReadError Nat) with
              | .ok total => fillLoop retry read fuel state buf total
              | .error stop => (.error stop, state)
        | (.error (.error e), state) =>
            if retry = true ∧ e = .interrupted then
              fillLoop retry read fuel state buf total
            else (fail e, state)
        | (.error stop, state) => (.error stop, state)
      else (.ok (total, buf), state)

/-- What every read keeps is kept by the loop. -/
theorem fillLoop_keeps {S : Type} {retry : Bool}
    {read : S → Nat → Bytes → ReadResult × S} {keeps : S → Prop}
    (step : ∀ state total slice, keeps state →
      keeps (read state total slice).2)
    (fuel : Nat) {state : S} (buf : Bytes) (total : Nat)
    (holds : keeps state) :
    keeps (fillLoop retry read fuel state buf total).2 := by
  induction fuel generalizing state buf total with
  | zero => exact holds
  | succ fuel inductionHypothesis =>
      rw [fillLoop]
      split
      case isFalse => exact holds
      have after := step state total (buf.drop total) holds
      rcases answered : read state total (buf.drop total) with
        ⟨(e | _ | _) | ⟨n, slice⟩, next⟩ <;> rw [answered] at after
      · dsimp only
        split
        · exact inductionHypothesis buf total after
        · exact after
      · exact after
      · exact after
      · dsimp only
        split
        · exact after
        · cases (add total n : Exec ReadError Nat) with
          | error stop => exact after
          | ok sum => exact inductionHypothesis _ _ after

/-- A read of `n` bytes of `source` from `start` on turns the buffer `before`
into `after`. A clean read leaves the rest of the buffer alone. -/
structure Delivered (clean : Prop) (source : Bytes) (start : Nat)
    (before after : Bytes) (n : Nat) : Prop where
  /-- The buffer keeps its length. -/
  length_eq : after.length = before.length
  /-- No more bytes are delivered than there is room for. -/
  le_buffer : n ≤ before.length
  /-- No more are delivered than are left. -/
  le_source : n ≤ source.length - start
  /-- The front of the buffer holds them. -/
  front_eq : window after 0 n = window source start n
  /-- A clean read leaves the rest of the buffer alone. -/
  rest_eq : clean → after.drop n = before.drop n

/-- A read delivers something unless nothing is asked for or nothing is
left. -/
def Progress (source : Bytes) (start : Nat) (before : Bytes) (n : Nat) :
    Prop :=
  0 < before.length → start < source.length → 0 < n

section Delivered

variable {clean : Prop} {source before middle after : Bytes}
  {start total n : Nat}

/-- Nothing is delivered. -/
theorem Delivered.zero : Delivered clean source start before before 0 where
  length_eq := rfl
  le_buffer := Nat.zero_le _
  le_source := Nat.zero_le _
  front_eq := by rw [window_empty, window_empty]
  rest_eq _ := rfl

/-- One more read behind what has been delivered. -/
theorem Delivered.append (first : Delivered clean source start before middle
      total)
    (second : Delivered clean source (start + total) (middle.drop total) after
      n) :
    Delivered clean source start before (middle.take total ++ after)
      (total + n) := by
  have firstLength := first.length_eq
  have secondLength := second.length_eq
  have firstLe := first.le_buffer
  have secondLe := second.le_buffer
  have firstSource := first.le_source
  have secondSource := second.le_source
  rw [List.length_drop] at secondLength secondLe
  have frontLength : (middle.take total).length = total := by
    rw [List.length_take]
    omega
  have whole : middle.take total = window middle 0 total := rfl
  constructor
  · rw [List.length_append, frontLength]
    omega
  · omega
  · omega
  · have back := window_append_right (middle.take total) after 0 n
    rw [frontLength, Nat.add_zero, second.front_eq] at back
    rw [window_append, Nat.zero_add, back,
      window_append_left (by omega), window_append source, ← first.front_eq,
      whole, window_window_of_le (by omega), Nat.zero_add]
  · intro isClean
    rw [← List.drop_drop, List.drop_left' frontLength,
      second.rest_eq isClean, first.rest_eq isClean, List.drop_drop]

/-- A loop over reads that make progress delivers all that the buffer takes
and the source has. -/
theorem fillLoop_of_delivered {S : Type} {At : Nat → S → Prop}
    {read : S → Nat → Bytes → ReadResult × S} (retry : Bool)
    (allocated : before.length ≤ isizeMax)
    (delivers : ∀ total state slice, At total state →
      0 < slice.length → total + slice.length ≤ before.length →
        ∃ n after state', read state total slice = (.ok (n, after), state') ∧
          At (total + n) state' ∧
          Delivered clean source (start + total) slice after n ∧
          Progress source (start + total) slice n)
    {fuel : Nat} {state : S} (enough : before.length - total < fuel)
    (stands : At total state)
    (delivered : Delivered clean source start before middle total) :
    ∃ m after state',
      fillLoop retry read fuel state middle total =
        (.ok (m, after), state') ∧
      At m state' ∧ Delivered clean source start before after m ∧
      m = min before.length (source.length - start) := by
  have word : isizeMax < wordCount := by decide
  have middleLength := delivered.length_eq
  have totalLe := delivered.le_buffer
  have sourceLe := delivered.le_source
  induction fuel generalizing total middle state with
  | zero => omega
  | succ fuel inductionHypothesis =>
      rw [fillLoop]
      by_cases full : total < middle.length
      case neg =>
        rw [if_neg full]
        exact ⟨total, middle, state, rfl, stands, delivered, by omega⟩
      rw [if_pos full]
      have sliceLength : (middle.drop total).length =
          before.length - total := by
        rw [List.length_drop, middleLength]
      obtain ⟨n, after, state', ran, stands', more, progress⟩ :=
        delivers total state (middle.drop total) stands (by omega) (by omega)
      have whole := delivered.append more
      rw [ran]
      dsimp only
      by_cases ended : n = 0
      · -- Nothing was left of the source.
        subst ended
        rw [if_pos rfl]
        refine ⟨total, _, state', rfl, stands', whole, ?_⟩
        by_contra unfinished
        have positive := progress (by omega) (by omega)
        omega
      · rw [if_neg ended, add_eq_ok (by have := whole.le_buffer; omega)]
        exact inductionHypothesis (by omega) stands' whole
          whole.length_eq whole.le_buffer whole.le_source

end Delivered
end Rust
