import Mathlib

/-!
# Shift registers with feedback

A register of `w` bits is shifted towards its low end, and a polynomial is
added whenever a one falls out. Steps are linear in exclusive or, and a
polynomial with its highest bit set makes them injective. Bytes are fed in at
the low end; as many bytes as the register holds can be recovered from the
state they lead to.
-/

namespace Rust.ShiftRegister

variable {w : Nat}

/-- One step of the register. -/
def step (poly x : BitVec w) : BitVec w :=
  if x &&& 1#w ≠ 0#w then (x >>> 1) ^^^ poly else x >>> 1

/-- Feed one byte. -/
def feedByte (poly x : BitVec w) (byte : UInt8) : BitVec w :=
  (step poly)^[8] (x ^^^ byte.toBitVec.setWidth w)

/-- Feed a byte string. -/
def feed (poly x : BitVec w) (bytes : List UInt8) : BitVec w :=
  bytes.foldl (feedByte poly) x

/-- The bytes next to each other, the first one lowest. -/
def word (w : Nat) : List UInt8 → BitVec w
  | [] => 0#w
  | byte :: rest => byte.toBitVec.setWidth w ^^^ (word w rest <<< 8)

/-! ## Steps -/

theorem low_bit_iff (x : BitVec w) :
    x &&& 1#w ≠ 0#w ↔ x.getLsbD 0 = true := by
  rw [BitVec.and_one_eq_setWidth_ofBool_getLsbD]
  cases low : x.getLsbD 0 with
  | false => simp
  | true =>
      have positive : 0 < w := BitVec.lt_of_getLsbD low
      simp only [iff_true]
      intro zero
      have bit := congrArg (fun y => BitVec.getLsbD y 0) zero
      simp [positive] at bit

/-- A set low bit feeds the polynomial back. -/
theorem step_of_low {poly x : BitVec w} (low : x.getLsbD 0 = true) :
    step poly x = (x >>> 1) ^^^ poly :=
  if_pos ((low_bit_iff x).mpr low)

/-- Otherwise the register is only shifted. -/
theorem step_of_not_low {poly x : BitVec w} (low : x.getLsbD 0 = false) :
    step poly x = x >>> 1 :=
  if_neg fun one => by simp [(low_bit_iff x).mp one] at low

/-- Steps are linear. -/
theorem step_xor (poly x y : BitVec w) :
    step poly (x ^^^ y) = step poly x ^^^ step poly y := by
  have low : (x ^^^ y).getLsbD 0 = (x.getLsbD 0 ^^ y.getLsbD 0) :=
    BitVec.getLsbD_xor
  cases lowX : x.getLsbD 0 <;> cases lowY : y.getLsbD 0 <;>
    simp only [lowX, lowY, Bool.not_false, Bool.not_true, Bool.xor_false,
      Bool.xor_true] at low
  · rw [step_of_not_low low, step_of_not_low lowX, step_of_not_low lowY,
      BitVec.ushiftRight_xor_distrib]
  · rw [step_of_low low, step_of_not_low lowX, step_of_low lowY,
      BitVec.ushiftRight_xor_distrib, BitVec.xor_assoc]
  · rw [step_of_low low, step_of_low lowX, step_of_not_low lowY,
      BitVec.ushiftRight_xor_distrib]
    ac_rfl
  · rw [step_of_not_low low, step_of_low lowX, step_of_low lowY,
      BitVec.ushiftRight_xor_distrib]
    -- The two polynomials cancel.
    rw [show ((x >>> 1) ^^^ poly) ^^^ ((y >>> 1) ^^^ poly) =
      ((x >>> 1) ^^^ (y >>> 1)) ^^^ (poly ^^^ poly) by ac_rfl,
      BitVec.xor_self, BitVec.xor_zero]

/-- Only zero is stepped to zero. -/
theorem eq_zero_of_step_eq_zero {poly x : BitVec w} (high : poly.msb = true)
    (zero : step poly x = 0#w) : x = 0#w := by
  have highest : poly.getLsbD (w - 1) = true := by
    rwa [← BitVec.msb_eq_getLsbD_last]
  have positive : w - 1 < w := BitVec.lt_of_getLsbD highest
  cases low : x.getLsbD 0 with
  | true =>
      rw [step_of_low low] at zero
      have top := congrArg (fun y => BitVec.getLsbD y (w - 1)) zero
      have shifted : (x >>> 1).getLsbD (w - 1) = false := by
        rw [BitVec.getLsbD_ushiftRight]
        exact BitVec.getLsbD_of_ge x _ (by omega)
      rw [BitVec.getLsbD_xor, shifted, highest] at top
      simp at top
  | false =>
      rw [step_of_not_low low] at zero
      apply BitVec.eq_of_getLsbD_eq
      intro i _
      cases i with
      | zero => simpa using low
      | succ i =>
          have bit := congrArg (fun y => BitVec.getLsbD y i) zero
          rw [BitVec.getLsbD_ushiftRight, Nat.add_comm] at bit
          simpa using bit

/-- Steps lose nothing if the highest coefficient is set. -/
theorem step_injective {poly : BitVec w} (high : poly.msb = true) :
    Function.Injective (step poly) := by
  intro x y same
  apply BitVec.xor_eq_zero_iff.mp
  apply eq_zero_of_step_eq_zero high
  rw [step_xor, same, BitVec.xor_self]

/-- So are several steps. -/
theorem iterate_step_xor (poly : BitVec w) (count : Nat) (x y : BitVec w) :
    (step poly)^[count] (x ^^^ y) =
      (step poly)^[count] x ^^^ (step poly)^[count] y := by
  induction count generalizing x y with
  | zero => rfl
  | succ count inductionHypothesis =>
      rw [Function.iterate_succ_apply, Function.iterate_succ_apply,
        Function.iterate_succ_apply, step_xor, inductionHypothesis]

/-- Steps shift out what stands above zeros. -/
theorem step_shiftLeft (poly x : BitVec w) (small : x.toNat < 2 ^ (w - 1)) :
    step poly (x <<< 1) = x := by
  have low : (x <<< 1).getLsbD 0 = false := by simp
  rw [step_of_not_low low]
  apply BitVec.eq_of_getLsbD_eq
  intro i inside
  rw [BitVec.getLsbD_ushiftRight, BitVec.getLsbD_shiftLeft]
  by_cases top : 1 + i < w
  · simp [top]
  · have clear : x.getLsbD i = false := by
      rw [BitVec.getLsbD, Nat.testBit_lt_two_pow]
      exact small.trans_le (Nat.pow_le_pow_right (by decide) (by omega))
    simp [top, clear]

/-- Low zeros are shifted out without feedback. -/
theorem iterate_step_shiftLeft (poly x : BitVec w) {count : Nat}
    (atMost : count ≤ w) (small : x.toNat < 2 ^ (w - count)) :
    (step poly)^[count] (x <<< count) = x := by
  induction count with
  | zero => simp
  | succ count inductionHypothesis =>
      have below : x.toNat < 2 ^ (w - count) :=
        small.trans_le (Nat.pow_le_pow_right (by decide) (by omega))
      have shifted : (x <<< count).toNat < 2 ^ (w - 1) := by
        rw [BitVec.toNat_shiftLeft, Nat.shiftLeft_eq]
        refine (Nat.mod_le _ _).trans_lt ?_
        calc x.toNat * 2 ^ count < 2 ^ (w - (count + 1)) * 2 ^ count :=
              Nat.mul_lt_mul_of_pos_right small (by positivity)
          _ = 2 ^ (w - 1) := by
              rw [← pow_add]
              congr 1
              omega
      rw [BitVec.shiftLeft_add, Function.iterate_succ_apply,
        step_shiftLeft poly _ shifted, inductionHypothesis (by omega) below]

/-! ## Feeding bytes -/

@[simp] theorem feed_nil (poly x : BitVec w) : feed poly x [] = x := rfl

@[simp] theorem feed_cons (poly x : BitVec w) (byte : UInt8)
    (rest : List UInt8) :
    feed poly x (byte :: rest) = feed poly (feedByte poly x byte) rest := rfl

/-- Bytes are fed one string after the other. -/
theorem feed_append (poly x : BitVec w) (first second : List UInt8) :
    feed poly x (first ++ second) = feed poly (feed poly x first) second :=
  List.foldl_append

/-- Feeding the same bytes keeps different states apart. -/
theorem feed_injective {poly : BitVec w} (high : poly.msb = true)
    (bytes : List UInt8) : Function.Injective fun x => feed poly x bytes := by
  induction bytes with
  | nil => exact fun _ _ same => same
  | cons byte rest inductionHypothesis =>
      intro x y same
      have fed : feedByte poly x byte = feedByte poly y byte :=
        inductionHypothesis same
      have mixed := (step_injective high).iterate 8 fed
      exact (BitVec.xor_left_inj _).mp mixed

/-- The bytes of a word fill its low end. -/
theorem toNat_word_lt {bytes : List UInt8} (fits : bytes.length * 8 ≤ w) :
    (word w bytes).toNat < 2 ^ (bytes.length * 8) := by
  induction bytes with
  | nil => simp [word]
  | cons byte rest inductionHypothesis =>
      rw [List.length_cons] at fits ⊢
      have restLt := inductionHypothesis (by omega)
      have split : (rest.length + 1) * 8 = rest.length * 8 + 8 := by omega
      rw [word, BitVec.toNat_xor, split]
      apply Nat.xor_lt_two_pow
      · rw [BitVec.toNat_setWidth_of_le (by omega)]
        calc byte.toBitVec.toNat < 2 ^ 8 := byte.toBitVec.isLt
          _ ≤ 2 ^ (rest.length * 8 + 8) :=
              Nat.pow_le_pow_right (by decide) (by omega)
      · rw [BitVec.toNat_shiftLeft, Nat.shiftLeft_eq, pow_add]
        exact (Nat.mod_le _ _).trans_lt
          (Nat.mul_lt_mul_of_pos_right restLt (by decide))

/-- Feeding bytes one by one steps the register over their word. -/
theorem feed_eq_iterate (poly x : BitVec w) {bytes : List UInt8}
    (fits : bytes.length * 8 ≤ w) :
    feed poly x bytes =
      (step poly)^[bytes.length * 8] (x ^^^ word w bytes) := by
  induction bytes generalizing x with
  | nil => simp [word]
  | cons byte rest inductionHypothesis =>
      rw [List.length_cons] at fits
      have restLt := @toNat_word_lt w rest (by omega)
      have small : (word w rest).toNat < 2 ^ (w - 8) :=
        restLt.trans_le (Nat.pow_le_pow_right (by decide) (by omega))
      have delayed : feedByte poly x byte ^^^ word w rest =
          (step poly)^[8] (x ^^^ word w (byte :: rest)) := by
        rw [word, ← BitVec.xor_assoc, iterate_step_xor,
          iterate_step_shiftLeft poly _ (by omega) small]
        rfl
      rw [feed_cons, inductionHypothesis _ (by omega), delayed,
        ← Function.iterate_add_apply, List.length_cons, Nat.add_mul,
        Nat.one_mul]

/-- A word shows its bytes. -/
theorem eq_of_word_eq {left right : List UInt8}
    (sameLength : left.length = right.length) (fits : left.length * 8 ≤ w)
    (same : word w left = word w right) : left = right := by
  induction left generalizing right with
  | nil => exact (List.length_eq_zero_iff.mp sameLength.symm).symm
  | cons byte rest inductionHypothesis =>
      cases right with
      | nil => cases sameLength
      | cons byte' rest' =>
          rw [List.length_cons, List.length_cons] at sameLength
          rw [List.length_cons] at fits
          have bits : ∀ i < w, (byte.toBitVec.getLsbD i ^^
              (!decide (i < 8) && (word w rest).getLsbD (i - 8))) =
              (byte'.toBitVec.getLsbD i ^^
                (!decide (i < 8) && (word w rest').getLsbD (i - 8))) := by
            intro i inside
            have bit := congrArg (fun x => BitVec.getLsbD x i) same
            simpa only [word, BitVec.getLsbD_xor, BitVec.getLsbD_setWidth,
              BitVec.getLsbD_shiftLeft, inside, decide_true, Bool.true_and]
              using bit
          have first : byte = byte' := by
            apply UInt8.toBitVec_inj.mp
            apply BitVec.eq_of_getLsbD_eq
            intro i inside
            simpa [inside] using bits i (by omega)
          have others : word w rest = word w rest' := by
            apply BitVec.eq_of_getLsbD_eq
            intro i inside
            by_cases fed : i + 8 < w
            · have beyond : ∀ b : UInt8, b.toBitVec.getLsbD (i + 8) = false :=
                fun b => BitVec.getLsbD_of_ge _ _ (by omega)
              have bit := bits (i + 8) fed
              rw [beyond, beyond] at bit
              simpa using bit
            · have clear : ∀ bytes : List UInt8, bytes.length = rest.length →
                  (word w bytes).getLsbD i = false := by
                intro bytes lengthEq
                have wordLt := @toNat_word_lt w bytes (by omega)
                rw [BitVec.getLsbD, Nat.testBit_lt_two_pow]
                exact wordLt.trans_le
                  (Nat.pow_le_pow_right (by decide) (by omega))
              rw [clear rest rfl, clear rest' (by omega)]
          rw [first, inductionHypothesis (by omega) (by omega) others]

/-- As many bytes as the register holds lead to different states. -/
theorem eq_of_feed_eq {poly x : BitVec w} (high : poly.msb = true)
    {left right : List UInt8} (sameLength : left.length = right.length)
    (fits : left.length * 8 ≤ w)
    (same : feed poly x left = feed poly x right) : left = right := by
  rw [feed_eq_iterate poly x fits,
    feed_eq_iterate poly x (sameLength ▸ fits), sameLength] at same
  have mixed := (step_injective high).iterate _ same
  exact eq_of_word_eq sameLength fits ((BitVec.xor_right_inj _).mp mixed)

end Rust.ShiftRegister
