import VhdxForensic.Core.Region
import VhdxForensic.Rust.ShiftRegister

/-!
# Changes under a checksum

The checksum register is a shift register of 32 bits, so it tells apart byte
strings that differ in four consecutive bytes only. A block that carries its
checksum does not survive such a change, be it in the field or outside.
-/

namespace VhdxForensic

open Rust Rust.Bytes Rust.Exec

/-- The data was changed, and only in four consecutive bytes of the block of
`size` bytes at `offset` that lie outside or inside its checksum field. -/
structure SmallChange (offset size : Nat) (data changed : Bytes) : Prop where
  /-- No byte is added or removed. -/
  length_eq : changed.length = data.length
  /-- Some byte is different. -/
  ne : changed ≠ data
  /-- The changed bytes are four neighbours, all of them inside or outside the
  checksum field. -/
  confined : ∃ start, start + 4 ≤ size ∧
    (start + 4 ≤ 4 ∨ start = 4 ∨ 8 ≤ start) ∧
    ∀ index, ¬ (offset + start ≤ index ∧ index < offset + start + 4) →
      changed[index]? = data[index]?

/-! ## The checksum register -/

theorem crcRegister_eq_feed (data : Bytes) :
    crcRegister data = ShiftRegister.feed crcPoly 0xFFFFFFFF#32 data := rfl

theorem crcRegister_eq_of_crc32c_eq {left right : Bytes}
    (same : crc32c left = crc32c right) :
    crcRegister left = crcRegister right :=
  (BitVec.xor_left_inj _).mp (BitVec.eq_of_toNat_eq same)

/-- Outside a window of four bytes the strings agree. -/
def AgreeOutside (start : Nat) (left right : Bytes) : Prop :=
  ∀ index, ¬ (start ≤ index ∧ index < start + 4) → left[index]? = right[index]?

section Window

variable {start : Nat} {left right : Bytes}

theorem split_at_window (start : Nat) (data : Bytes) :
    data =
      data.take start ++ (window data start 4 ++ data.drop (start + 4)) := by
  unfold window
  rw [← List.drop_drop, List.take_append_drop, List.take_append_drop]

/-- The checksum tells strings apart that agree outside of four bytes. -/
theorem eq_of_crc32c_eq (lengthEq : left.length = right.length)
    (agree : AgreeOutside start left right)
    (same : crc32c left = crc32c right) : left = right := by
  have before : left.take start = right.take start := by
    apply List.ext_getElem?
    intro index
    rw [List.getElem?_take, List.getElem?_take]
    split
    · exact agree index (by omega)
    · rfl
  have behind : left.drop (start + 4) = right.drop (start + 4) := by
    apply List.ext_getElem?
    intro index
    rw [List.getElem?_drop, List.getElem?_drop]
    exact agree _ (by omega)
  have registers := crcRegister_eq_of_crc32c_eq same
  rw [crcRegister_eq_feed, crcRegister_eq_feed, split_at_window start left,
    split_at_window start right, ShiftRegister.feed_append,
    ShiftRegister.feed_append, ShiftRegister.feed_append,
    ShiftRegister.feed_append, before, behind] at registers
  have high : crcPoly.msb = true := by decide
  have middle : window left start 4 = window right start 4 := by
    refine ShiftRegister.eq_of_feed_eq high ?_ ?_
      (ShiftRegister.feed_injective high _ registers)
    · rw [length_window, length_window, lengthEq]
    · rw [length_window]
      omega
  rw [split_at_window start left, split_at_window start right, before, middle,
    behind]

end Window

/-! ## Blocks with their checksum -/

/-- The block stores the checksum of itself. -/
def ChecksumHolds (block : Bytes) : Prop :=
  crc32c (clearChecksum block) = leU32 block 4

section Block

variable {block changed : Bytes}

theorem getElem?_clearChecksum (present : 8 ≤ block.length) (index : Nat) :
    (clearChecksum block)[index]? =
      if 4 ≤ index ∧ index < 8 then some 0 else block[index]? := by
  rw [clearChecksum, getElem?_overwrite (by simpa using present)]
  change (if 4 ≤ index ∧ index < 8 then _ else _) = _
  split
  · rename_i field
    obtain ⟨lower, upper⟩ := field
    have cases : index = 4 ∨ index = 5 ∨ index = 6 ∨ index = 7 := by omega
    rcases cases with rfl | rfl | rfl | rfl <;> rfl
  · rfl

/-- Integers of four bytes show their bytes. -/
theorem window_eq_of_leU32_eq {off : Nat}
    (present : off + 4 ≤ block.length)
    (lengthEq : changed.length = block.length)
    (same : leU32 changed off = leU32 block off) :
    window changed off 4 = window block off 4 := by
  unfold leU32 at same
  rw [le_eq_decode (by omega), le_eq_decode present] at same
  have decoded := encodeLe_decodeLe (window block off 4)
  have decodedChanged := encodeLe_decodeLe (window changed off 4)
  rw [length_window_of_le present] at decoded
  rw [length_window_of_le (by omega), same, decoded] at decodedChanged
  exact decodedChanged.symm

/-- No small change of a block keeps its checksum right. -/
theorem not_checksumHolds_of_agree {start : Nat}
    (present : 8 ≤ block.length) (lengthEq : changed.length = block.length)
    (apart : start + 4 ≤ 4 ∨ start = 4 ∨ 8 ≤ start)
    (agree : AgreeOutside start changed block) (holds : ChecksumHolds block)
    (still : ChecksumHolds changed) : changed = block := by
  unfold ChecksumHolds at holds still
  have clearedLength : (clearChecksum changed).length =
      (clearChecksum block).length := by
    rw [length_clearChecksum (by omega), length_clearChecksum present, lengthEq]
  -- Bytes outside the field and the window are the same anyway.
  have clearedAgree : AgreeOutside start (clearChecksum changed)
      (clearChecksum block) := by
    intro index outside
    rw [getElem?_clearChecksum (by omega), getElem?_clearChecksum present,
      agree index outside]
  have cleared : clearChecksum changed = clearChecksum block := by
    rcases apart with before | rfl | behind
    · refine eq_of_crc32c_eq clearedLength clearedAgree ?_
      rw [still, holds]
      exact le_congr (by omega) (by omega) (window_ext fun index indexLt =>
        agree _ (by omega))
    · apply List.ext_getElem?
      intro index
      by_cases field : 4 ≤ index ∧ index < 4 + 4
      · rw [getElem?_clearChecksum (by omega), getElem?_clearChecksum present,
          if_pos field, if_pos field]
      · exact clearedAgree index field
    · refine eq_of_crc32c_eq clearedLength clearedAgree ?_
      rw [still, holds]
      exact le_congr (by omega) (by omega) (window_ext fun index indexLt =>
        agree _ (by omega))
  have stored : window changed 4 4 = window block 4 4 :=
    window_eq_of_leU32_eq (by omega) lengthEq
      (by rw [← still, ← holds, cleared])
  apply List.ext_getElem?
  intro index
  by_cases field : 4 ≤ index ∧ index < 8
  · have byte := congrArg (fun bytes : Bytes => bytes[index - 4]?) stored
    rw [getElem?_window, getElem?_window, if_pos (by omega),
      if_pos (by omega), show 4 + (index - 4) = index by omega] at byte
    exact byte
  · have byte := congrArg (fun bytes : Bytes => bytes[index]?) cleared
    rwa [getElem?_clearChecksum (by omega), getElem?_clearChecksum present,
      if_neg field, if_neg field] at byte

end Block

section Change

variable {data changed : Bytes} {offset size : Nat}

/-- A checked block inside the data does not survive a small change. -/
theorem SmallChange.not_checksumHolds (change : SmallChange offset size data
      changed)
    (inside : offset + size ≤ data.length) (large : 8 ≤ size)
    (holds : ChecksumHolds (window data offset size)) :
    ¬ ChecksumHolds (window changed offset size) := by
  obtain ⟨lengthEq, ne, start, fits, apart, agree⟩ := change
  intro still
  apply ne
  have blockAgree : AgreeOutside start (window changed offset size)
      (window data offset size) := by
    intro index outside
    rw [getElem?_window, getElem?_window]
    split
    · exact agree _ (by omega)
    · rfl
  have blocks := not_checksumHolds_of_agree
    (by rw [length_window_of_le inside]; exact large)
    (by rw [length_window, length_window, lengthEq]) apart blockAgree holds
    still
  apply List.ext_getElem?
  intro index
  by_cases touched : offset + start ≤ index ∧ index < offset + start + 4
  · have byte := congrArg (fun bytes : Bytes => bytes[index - offset]?) blocks
    rwa [getElem?_window, getElem?_window, if_pos (by omega),
      if_pos (by omega), show offset + (index - offset) = index by omega]
      at byte
  · exact agree index touched

theorem checksumHolds_window_iff (inside : offset + size ≤ data.length)
    (large : 8 ≤ size) :
    ChecksumHolds (window data offset size) ↔
      crc32c (clearChecksum (window data offset size)) =
        leU32 data (offset + 4) := by
  rw [ChecksumHolds, leU32_window (by omega) inside]

/-- A valid block is invalid after a small change. -/
theorem SmallChange.not_blockValid {signature : Bytes}
    (change : SmallChange offset size data changed) (large : 8 ≤ size)
    (valid : BlockValid data offset size signature) :
    ¬ BlockValid changed offset size signature := by
  obtain ⟨inside, -, holds⟩ := valid
  rintro ⟨insideChanged, -, still⟩
  exact change.not_checksumHolds inside large
    ((checksumHolds_window_iff inside large).mpr holds)
    ((checksumHolds_window_iff insideChanged large).mpr still)

end Change

end VhdxForensic
