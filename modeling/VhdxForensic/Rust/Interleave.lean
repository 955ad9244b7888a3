import Mathlib

/-!
# Interleaved tables

A table with an extra slot after every group of `ratio` items. Items are
numbered without the extra slots. A slot holds an item or is the extra slot
of its group, as its remainder modulo the size of a group shows.
-/

namespace Rust.Interleave

/-- Slot of an item. -/
def itemSlot (ratio item : Nat) : Nat := item + item / ratio

/-- The extra slot of a group. -/
def extraSlot (ratio group : Nat) : Nat := group * (ratio + 1) + ratio

variable {ratio : Nat}

theorem itemSlot_eq (ratio item : Nat) :
    itemSlot ratio item = (ratio + 1) * (item / ratio) + item % ratio := by
  have whole := Nat.div_add_mod item ratio
  unfold itemSlot
  rw [Nat.add_mul, Nat.one_mul]
  omega

theorem extraSlot_eq (ratio group : Nat) :
    extraSlot ratio group = (ratio + 1) * group + ratio := by
  rw [extraSlot, Nat.mul_comm]

/-- The position of an item in its group. -/
theorem itemSlot_mod (positive : 0 < ratio) (item : Nat) :
    itemSlot ratio item % (ratio + 1) = item % ratio := by
  have small : item % ratio < ratio + 1 :=
    Nat.lt_succ_of_lt (Nat.mod_lt item positive)
  rw [itemSlot_eq, Nat.mul_add_mod, Nat.mod_eq_of_lt small]

/-- The group of an item. -/
theorem itemSlot_div (positive : 0 < ratio) (item : Nat) :
    itemSlot ratio item / (ratio + 1) = item / ratio := by
  have small : item % ratio < ratio + 1 :=
    Nat.lt_succ_of_lt (Nat.mod_lt item positive)
  rw [itemSlot_eq, Nat.mul_add_div (by omega), Nat.div_eq_of_lt small,
    Nat.add_zero]

/-- The extra slot is the last one of its group. -/
theorem extraSlot_mod (ratio group : Nat) :
    extraSlot ratio group % (ratio + 1) = ratio := by
  rw [extraSlot_eq, Nat.mul_add_mod, Nat.mod_eq_of_lt (by omega)]

theorem extraSlot_div (ratio group : Nat) :
    extraSlot ratio group / (ratio + 1) = group := by
  rw [extraSlot_eq, Nat.mul_add_div (by omega), Nat.div_eq_of_lt (by omega),
    Nat.add_zero]

/-- Items have different slots. -/
theorem itemSlot_injective (positive : 0 < ratio) :
    Function.Injective (itemSlot ratio) := by
  intro left right same
  have groups : left / ratio = right / ratio := by
    rw [← itemSlot_div positive, ← itemSlot_div positive, same]
  have places : left % ratio = right % ratio := by
    rw [← itemSlot_mod positive, ← itemSlot_mod positive, same]
  rw [← Nat.div_add_mod left ratio, ← Nat.div_add_mod right ratio, groups,
    places]

/-- Groups have different extra slots. -/
theorem extraSlot_injective (ratio : Nat) :
    Function.Injective (extraSlot ratio) := by
  intro left right same
  rw [← extraSlot_div ratio left, ← extraSlot_div ratio right, same]

/-- No slot is of both kinds. -/
theorem extraSlot_ne_itemSlot (positive : 0 < ratio) (group item : Nat) :
    extraSlot ratio group ≠ itemSlot ratio item := by
  intro same
  have small := Nat.mod_lt item positive
  have remainder : ratio = item % ratio := by
    rw [← itemSlot_mod positive, ← same, extraSlot_mod]
  omega

/-- The slots with the last remainder are the extra ones. -/
theorem exists_extraSlot_iff (slot : Nat) :
    (∃ group, extraSlot ratio group = slot) ↔ slot % (ratio + 1) = ratio := by
  constructor
  · rintro ⟨group, rfl⟩
    exact extraSlot_mod ratio group
  · intro last
    refine ⟨slot / (ratio + 1), ?_⟩
    rw [extraSlot_eq]
    have whole := Nat.div_add_mod slot (ratio + 1)
    omega

/-- All other slots hold an item. -/
theorem exists_itemSlot_iff (positive : 0 < ratio) (slot : Nat) :
    (∃ item, itemSlot ratio item = slot) ↔ slot % (ratio + 1) ≠ ratio := by
  constructor
  · rintro ⟨item, rfl⟩
    rw [itemSlot_mod positive]
    exact (Nat.mod_lt item positive).ne
  · intro differs
    have small := Nat.mod_lt slot (Nat.succ_pos ratio)
    have place : slot % (ratio + 1) < ratio := by
      rw [Nat.succ_eq_add_one] at small
      omega
    refine ⟨ratio * (slot / (ratio + 1)) + slot % (ratio + 1), ?_⟩
    rw [itemSlot_eq, Nat.mul_add_div positive, Nat.mul_add_mod,
      Nat.div_eq_of_lt place, Nat.mod_eq_of_lt place, Nat.add_zero]
    exact Nat.div_add_mod slot (ratio + 1)

/-- The extra slot of the group that a slot lies in. -/
theorem extraSlot_of_itemSlot (positive : 0 < ratio) (item : Nat) :
    itemSlot ratio item / (ratio + 1) * (ratio + 1) + ratio =
      extraSlot ratio (item / ratio) := by
  rw [itemSlot_div positive, extraSlot]

end Rust.Interleave
