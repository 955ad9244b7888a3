import VhdxForensic.Rust.Exec

/-!
# Byte strings

Slices of bytes are lists. `window` and `overwrite` are the total forms of
reading and writing a range; `slice`, `copyInto` and `fill` are the Rust
operations, which panic outside the string. Fixed-width integers are stored
least significant byte first.
-/

namespace Rust

/-- A string of bytes. -/
abbrev Bytes := List UInt8

namespace Bytes

open Exec

variable {ε : Type}

/-! ## Windows -/

/-- The `count` bytes from `off` on, cut short at the end of the string. -/
def window (data : Bytes) (off count : Nat) : Bytes :=
  (data.drop off).take count

theorem length_window (data : Bytes) (off count : Nat) :
    (window data off count).length = min count (data.length - off) := by
  simp [window]

theorem length_window_of_le {data : Bytes} {off count : Nat}
    (inside : off + count ≤ data.length) :
    (window data off count).length = count := by
  rw [length_window]
  omega

/-- A window shows the bytes from its offset on. -/
theorem getElem?_window (data : Bytes) (off count index : Nat) :
    (window data off count)[index]? =
      if index < count then data[off + index]? else none := by
  simp [window, List.getElem?_take]

@[simp] theorem window_zero_length (data : Bytes) :
    window data 0 data.length = data := by
  simp [window]

@[simp] theorem window_empty (data : Bytes) (off : Nat) :
    window data off 0 = [] := by
  simp [window]

/-- Windows with the same bytes at every index are equal. -/
theorem window_ext {left right : Bytes} {leftOff rightOff count : Nat}
    (same : ∀ index < count,
      left[leftOff + index]? = right[rightOff + index]?) :
    window left leftOff count = window right rightOff count := by
  apply List.ext_getElem?
  intro index
  rw [getElem?_window, getElem?_window]
  split
  · exact same index (by assumption)
  · rfl

/-- A window of a window is a shorter window. -/
theorem window_window (data : Bytes) (off count innerOff innerCount : Nat) :
    window (window data off count) innerOff innerCount =
      window data (off + innerOff) (min innerCount (count - innerOff)) := by
  apply List.ext_getElem?
  intro index
  simp only [getElem?_window]
  by_cases inner : index < innerCount
  · by_cases outer : innerOff + index < count
    · rw [if_pos inner, if_pos outer, if_pos (by omega), Nat.add_assoc]
    · rw [if_pos inner, if_neg outer, if_neg (by omega)]
  · rw [if_neg inner, if_neg (by omega)]

theorem window_window_of_le {data : Bytes}
    {off count innerOff innerCount : Nat}
    (inside : innerOff + innerCount ≤ count) :
    window (window data off count) innerOff innerCount =
      window data (off + innerOff) innerCount := by
  rw [window_window, show min innerCount (count - innerOff) = innerCount by
    omega]

/-- A window is cut into two consecutive windows. -/
theorem window_append (data : Bytes) (off first second : Nat) :
    window data off (first + second) =
      window data off first ++ window data (off + first) second := by
  simp [window, List.take_add, List.drop_drop]

/-- A window in front of the end shows the first string. -/
theorem window_append_left {left right : Bytes} {off count : Nat}
    (inside : off + count ≤ left.length) :
    window (left ++ right) off count = window left off count := by
  apply window_ext
  intro index indexLt
  rw [List.getElem?_append_left (by omega)]

/-- A window behind the first string shows the second one. -/
theorem window_append_right (left right : Bytes) (off count : Nat) :
    window (left ++ right) (left.length + off) count =
      window right off count := by
  apply window_ext
  intro index indexLt
  rw [List.getElem?_append_right (by omega)]
  congr 1
  omega

/-- The bytes of a concatenation of blocks of one width. -/
theorem length_flatten_of_uniform {width : Nat} {blocks : List Bytes}
    (uniform : ∀ block ∈ blocks, block.length = width) :
    blocks.flatten.length = blocks.length * width := by
  induction blocks with
  | nil => simp
  | cons block blocks inductionHypothesis =>
      rw [List.flatten_cons, List.length_append, uniform block (by simp),
        inductionHypothesis fun later member =>
          uniform later (by simp [member]),
        List.length_cons]
      ring

/-- A block is read back from a concatenation of blocks of one width. -/
theorem window_flatten {width index : Nat} {blocks : List Bytes}
    {block : Bytes}
    (uniform : ∀ block ∈ blocks, block.length = width)
    (found : blocks[index]? = some block) :
    window blocks.flatten (index * width) width = block := by
  induction blocks generalizing index with
  | nil => simp at found
  | cons first blocks inductionHypothesis =>
      have firstLength := uniform first (by simp)
      rw [List.flatten_cons]
      cases index with
      | zero =>
          cases found
          rw [Nat.zero_mul, window_append_left (by omega), ← firstLength,
            window_zero_length]
      | succ index =>
          rw [show (index + 1) * width = first.length + index * width by
            rw [firstLength]
            ring, window_append_right]
          exact inductionHypothesis
            (fun later member => uniform later (by simp [member])) found

/-! ## Overwriting -/

/-- Replace the bytes from `off` on by `source`. -/
def overwrite (data : Bytes) (off : Nat) (source : Bytes) : Bytes :=
  data.take off ++ source ++ data.drop (off + source.length)

/-- Overwriting keeps the length. -/
theorem length_overwrite {data source : Bytes} {off : Nat}
    (inside : off + source.length ≤ data.length) :
    (overwrite data off source).length = data.length := by
  simp [overwrite]
  omega

@[simp] theorem overwrite_nil (data : Bytes) (off : Nat) :
    overwrite data off [] = data := by
  simp [overwrite]

/-- It changes the covered bytes only. -/
theorem getElem?_overwrite {data source : Bytes} {off : Nat}
    (inside : off + source.length ≤ data.length) (index : Nat) :
    (overwrite data off source)[index]? =
      if off ≤ index ∧ index < off + source.length then source[index - off]?
      else data[index]? := by
  have prefixLength : (data.take off).length = off := by
    simp
    omega
  unfold overwrite
  by_cases before : index < off
  · rw [List.getElem?_append_left (by simp; omega),
      List.getElem?_append_left (by omega),
      List.getElem?_take_of_lt before, if_neg (by omega)]
  · by_cases within : index < off + source.length
    · rw [List.getElem?_append_left (by simp; omega),
        List.getElem?_append_right (by omega), prefixLength,
        if_pos (by omega)]
    · rw [List.getElem?_append_right (by simp; omega), List.length_append,
        prefixLength, List.getElem?_drop, if_neg (by omega)]
      congr 1
      omega

/-- A window that misses the overwritten range is unchanged. -/
theorem window_overwrite_of_disjoint {data source : Bytes}
    {off windowOff count : Nat}
    (inside : off + source.length ≤ data.length)
    (disjoint : windowOff + count ≤ off ∨ off + source.length ≤ windowOff) :
    window (overwrite data off source) windowOff count =
      window data windowOff count := by
  apply window_ext
  intro index indexLt
  rw [getElem?_overwrite inside, if_neg (by omega)]

/-- The overwritten range holds the source. -/
theorem window_overwrite_self {data source : Bytes} {off : Nat}
    (inside : off + source.length ≤ data.length) :
    window (overwrite data off source) off source.length = source := by
  apply List.ext_getElem?
  intro index
  rw [getElem?_window, getElem?_overwrite inside]
  by_cases within : index < source.length
  · rw [if_pos within, if_pos (by omega)]
    congr 1
    omega
  · rw [if_neg within, List.getElem?_eq_none (by omega)]

/-- Writing a range's own bytes changes nothing. -/
theorem overwrite_window_self {data : Bytes} {off count : Nat}
    (inside : off + count ≤ data.length) :
    overwrite data off (window data off count) = data := by
  have sourceLength := length_window_of_le inside
  apply List.ext_getElem?
  intro index
  rw [getElem?_overwrite (by omega), getElem?_window, sourceLength]
  by_cases written : off ≤ index ∧ index < off + count
  · rw [if_pos written, if_pos (by omega)]
    congr 1
    omega
  · rw [if_neg written]

/-! ## The panicking operations -/

/-- `&data[start..stop]`. -/
def slice (data : Bytes) (start stop : Nat) : Exec ε Bytes :=
  if start ≤ stop ∧ stop ≤ data.length then
    .ok (window data start (stop - start))
  else panicked

/-- `data[start..stop].copy_from_slice(source)`. -/
def copyInto (data : Bytes) (start stop : Nat) (source : Bytes) :
    Exec ε Bytes :=
  if start ≤ stop ∧ stop ≤ data.length ∧ source.length = stop - start then
    .ok (overwrite data start source)
  else panicked

/-- `data[start..stop].fill(value)`. -/
def fill (data : Bytes) (start stop : Nat) (value : UInt8) :
    Exec ε Bytes :=
  if start ≤ stop ∧ stop ≤ data.length then
    .ok (overwrite data start (List.replicate (stop - start) value))
  else panicked

/-- `vec![0u8; count]`, which panics past the largest allocation. -/
def zeroed (count : Nat) : Exec ε Bytes :=
  if count ≤ isizeMax then .ok (List.replicate count 0) else panicked

/-- A slice inside the string is a window. -/
theorem slice_eq_ok {data : Bytes} {start stop : Nat}
    (ordered : start ≤ stop) (inside : stop ≤ data.length) :
    (slice data start stop : Exec ε Bytes) =
      .ok (window data start (stop - start)) := if_pos ⟨ordered, inside⟩

/-- No other slice can be taken. -/
theorem settles_slice {data : Bytes} {start stop : Nat} :
    Settles (slice data start stop : Exec ε Bytes) ↔
      start ≤ stop ∧ stop ≤ data.length := by
  unfold slice
  split <;> simp_all

/-- Copying into a slice of the same length overwrites it. -/
theorem copyInto_eq_ok {data source : Bytes} {start stop : Nat}
    (ordered : start ≤ stop) (inside : stop ≤ data.length)
    (sameLength : source.length = stop - start) :
    (copyInto data start stop source : Exec ε Bytes) =
      .ok (overwrite data start source) :=
  if_pos ⟨ordered, inside, sameLength⟩

/-- Filling a slice overwrites it. -/
theorem fill_eq_ok {data : Bytes} {start stop : Nat} (value : UInt8)
    (ordered : start ≤ stop) (inside : stop ≤ data.length) :
    (fill data start stop value : Exec ε Bytes) =
      .ok (overwrite data start (List.replicate (stop - start) value)) :=
  if_pos ⟨ordered, inside⟩

theorem zeroed_eq_ok {count : Nat} (allocatable : count ≤ isizeMax) :
    (zeroed count : Exec ε Bytes) = .ok (List.replicate count 0) :=
  if_pos allocatable

/-- An allocation settles if it is not too large. -/
theorem settles_zeroed {count : Nat} :
    Settles (zeroed count : Exec ε Bytes) ↔ count ≤ isizeMax := by
  unfold zeroed
  split <;> simp_all

/-! ## Little-endian integers -/

/-- The integer a byte string encodes, least significant byte first. -/
def decodeLe : Bytes → Nat
  | [] => 0
  | byte :: rest => byte.toNat + 256 * decodeLe rest

/-- The `width` low bytes of an integer, least significant byte first. -/
def encodeLe : (width : Nat) → Nat → Bytes
  | 0, _ => []
  | width + 1, value =>
      UInt8.ofNat (value % 256) :: encodeLe width (value / 256)

@[simp] theorem length_encodeLe (width value : Nat) :
    (encodeLe width value).length = width := by
  induction width generalizing value with
  | zero => rfl
  | succ width inductionHypothesis =>
      simp [encodeLe, inductionHypothesis]

/-- A number of some bytes is less than their power of 256. -/
theorem decodeLe_lt (bytes : Bytes) :
    decodeLe bytes < 256 ^ bytes.length := by
  induction bytes with
  | nil => simp [decodeLe]
  | cons byte rest inductionHypothesis =>
      have byteLt := byte.toNat_lt
      rw [decodeLe, List.length_cons, pow_succ]
      omega

/-- A number that fits is read back. -/
theorem decodeLe_encodeLe {width value : Nat} (fits : value < 256 ^ width) :
    decodeLe (encodeLe width value) = value := by
  induction width generalizing value with
  | zero => simp_all [encodeLe, decodeLe]
  | succ width inductionHypothesis =>
      have restFits : value / 256 < 256 ^ width := by
        rw [pow_succ] at fits
        omega
      rw [encodeLe, decodeLe, inductionHypothesis restFits,
        UInt8.toNat_ofNat', Nat.mod_mod_of_dvd _ (by norm_num)]
      omega

/-- Bytes are written back. -/
theorem encodeLe_decodeLe (bytes : Bytes) :
    encodeLe bytes.length (decodeLe bytes) = bytes := by
  induction bytes with
  | nil => rfl
  | cons byte rest inductionHypothesis =>
      have byteLt := byte.toNat_lt
      have low : (byte.toNat + 256 * decodeLe rest) % 256 = byte.toNat := by
        omega
      have high : (byte.toNat + 256 * decodeLe rest) / 256 =
          decodeLe rest := by
        omega
      rw [List.length_cons, decodeLe, encodeLe, low, high,
        inductionHypothesis, UInt8.ofNat_toNat]

@[simp] theorem decodeLe_replicate_zero (count : Nat) :
    decodeLe (List.replicate count 0) = 0 := by
  induction count with
  | zero => rfl
  | succ count inductionHypothesis =>
      simp [List.replicate_succ, decodeLe, inductionHypothesis]

/-- Read a `width`-byte integer at `off`; zero when it does not fit. -/
def le (width : Nat) (data : Bytes) (off : Nat) : Nat :=
  if off + width ≤ data.length then decodeLe (window data off width) else 0

/-- A field that is there is decoded. -/
theorem le_eq_decode {width : Nat} {data : Bytes} {off : Nat}
    (inside : off + width ≤ data.length) :
    le width data off = decodeLe (window data off width) := if_pos inside

/-- A field that is cut off reads as zero. -/
theorem le_eq_zero {width : Nat} {data : Bytes} {off : Nat}
    (outside : data.length < off + width) :
    le width data off = 0 := if_neg (by omega)

theorem le_lt (width : Nat) (data : Bytes) (off : Nat) :
    le width data off < 256 ^ width := by
  unfold le
  split
  · have bound := decodeLe_lt (window data off width)
    rwa [length_window_of_le (by assumption)] at bound
  · exact Nat.pow_pos (by norm_num)

/-- An integer read depends only on the bytes it covers. -/
theorem le_congr {width : Nat} {left right : Bytes} {leftOff rightOff : Nat}
    (leftInside : leftOff + width ≤ left.length)
    (rightInside : rightOff + width ≤ right.length)
    (same : window left leftOff width = window right rightOff width) :
    le width left leftOff = le width right rightOff := by
  rw [le_eq_decode leftInside, le_eq_decode rightInside, same]

/-- Reading inside a window reads the string behind it. -/
theorem le_window {width : Nat} {data : Bytes} {off count inner : Nat}
    (inside : inner + width ≤ count) (present : off + count ≤ data.length) :
    le width (window data off count) inner = le width data (off + inner) := by
  apply le_congr
  · rw [length_window_of_le present]
    exact inside
  · omega
  · exact window_window_of_le inside

/-- An integer inside a longer string is read back. -/
theorem le_append_encodeLe {width value : Nat} (left right : Bytes)
    (fits : value < 256 ^ width) :
    le width (left ++ (encodeLe width value ++ right)) left.length = value := by
  have encodedLength := length_encodeLe width value
  have behind := window_append_right left (encodeLe width value ++ right)
    0 width
  have front : window (encodeLe width value ++ right) 0 width =
      window (encodeLe width value) 0 width :=
    window_append_left (by omega)
  have whole := window_zero_length (encodeLe width value)
  rw [encodedLength] at whole
  rw [Nat.add_zero, front, whole] at behind
  rw [le_eq_decode (by simp), behind, decodeLe_encodeLe fits]

/-- A written integer is read back. -/
theorem le_overwrite_encodeLe {width value : Nat} {data : Bytes} {off : Nat}
    (inside : off + width ≤ data.length) (fits : value < 256 ^ width) :
    le width (overwrite data off (encodeLe width value)) off = value := by
  have written : off + (encodeLe width value).length ≤ data.length := by
    simpa using inside
  rw [le_eq_decode (by rw [length_overwrite written]; exact inside)]
  have content := window_overwrite_self written
  rw [length_encodeLe] at content
  rw [content, decodeLe_encodeLe fits]

/-- An integer outside the overwritten range is unchanged. -/
theorem le_overwrite_of_disjoint {width : Nat} {data source : Bytes}
    {off readOff : Nat}
    (inside : off + source.length ≤ data.length)
    (disjoint : readOff + width ≤ off ∨ off + source.length ≤ readOff) :
    le width (overwrite data off source) readOff = le width data readOff := by
  unfold le
  rw [length_overwrite inside, window_overwrite_of_disjoint inside disjoint]

end Bytes
end Rust
