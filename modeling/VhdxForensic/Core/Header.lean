import VhdxForensic.Core.Base

/-!
# Header selection

Two copies of the header lie in fixed 64 KiB slots. The active one is the
valid copy with the higher sequence number; the first wins a tie.
-/

namespace VhdxForensic

open Rust Rust.Bytes Rust.Exec

def header1Offset : Nat := 0x10000
def header2Offset : Nat := 0x20000
def regionTable1Offset : Nat := 0x30000
def regionTable2Offset : Nat := 0x40000

/-- `b"head"`. -/
def headerSignature : Bytes := [0x68, 0x65, 0x61, 0x64]

def headerSize : Nat := 4096

/-- The header fields the reader keeps. -/
structure VhdxHeader where
  /-- The copy with the greater number is active. -/
  sequenceNumber : Nat
  /-- GUID of the entries to replay; zero if there are none. -/
  logGuid : Bytes
  /-- Where the log starts. -/
  logOffset : Nat
  /-- Length of the log. -/
  logLength : Nat
  deriving DecidableEq, Repr

/-- Compare the stored checksum with that of the block without it. -/
def verifyCrc32c {ε : Type} (block : Bytes) : Exec ε Bool := do
  let stored := leU32 block 4
  let buf ← fill block 4 8 0
  return crc32c buf = stored

/-- Decode the header copy at `offset`. -/
def parseOneHeader (data : Bytes) (offset : Nat) :
    Exec VhdxError VhdxHeader := do
  let stop ← okOr (checkedAdd offset headerSize) .noValidHeader
  failIf (data.length < stop) .noValidHeader
  let block ← slice data offset stop
  let signature ← slice block 0 4
  failIf (signature ≠ headerSignature) .noValidHeader
  let valid ← verifyCrc32c block
  failIf (valid = false) .noValidHeader
  return {
    sequenceNumber := leU64 block 8
    logGuid := leArr16 block 48
    logLength := leU32 block 68
    logOffset := leU64 block 72 }

/-- Select the active header from a prefix that covers both copies. -/
def parseActiveHeader (data : Bytes) : Exec VhdxError VhdxHeader := do
  let h1 ← attempt (parseOneHeader data header1Offset)
  let h2 ← attempt (parseOneHeader data header2Offset)
  match h1, h2 with
  | .ok a, .ok b =>
      if a.sequenceNumber ≥ b.sequenceNumber then return a else return b
  | .ok a, .error _ => return a
  | .error _, .ok b => return b
  | .error _, .error _ => fail .noValidHeader

/-! ## What selection computes -/

/-- The copy of the header at `offset` is present, signed and checksummed. -/
def HeaderValid (data : Bytes) (offset : Nat) : Prop :=
  BlockValid data offset headerSize headerSignature

instance (data : Bytes) (offset : Nat) : Decidable (HeaderValid data offset) :=
  inferInstanceAs (Decidable (BlockValid _ _ _ _))

/-- The fields at `offset`, read straight from the data. -/
def headerAt (data : Bytes) (offset : Nat) : VhdxHeader where
  sequenceNumber := leU64 data (offset + 8)
  logGuid := leArr16 data (offset + 48)
  logOffset := leU64 data (offset + 72)
  logLength := leU32 data (offset + 68)

/-- Offset of the active header copy, if there is one. -/
def activeHeaderOffset (data : Bytes) : Option Nat :=
  if HeaderValid data header1Offset then
    if HeaderValid data header2Offset then
      if leU64 data (header1Offset + 8) ≥ leU64 data (header2Offset + 8) then
        some header1Offset
      else some header2Offset
    else some header1Offset
  else if HeaderValid data header2Offset then some header2Offset
  else none

/-- The fields of the active header copy, if there is one. -/
def activeHeader (data : Bytes) : Option VhdxHeader :=
  (activeHeaderOffset data).map (headerAt data)

/-- The checksum of a whole block is compared without errors. -/
theorem verifyCrc32c_eq {ε : Type} {block : Bytes}
    (present : 8 ≤ block.length) :
    (verifyCrc32c block : Exec ε Bool) =
      .ok (decide (crc32c (clearChecksum block) = leU32 block 4)) := by
  rw [verifyCrc32c, fill_eq_ok 0 (by omega) present]
  rfl

/-- A header copy is parsed exactly if it is valid. -/
theorem parseOneHeader_eq {data : Bytes} {offset : Nat}
    (representable : offset + headerSize < wordCount) :
    parseOneHeader data offset =
      if HeaderValid data offset then .ok (headerAt data offset)
      else fail .noValidHeader := by
  rw [parseOneHeader, checkedAdd, if_pos representable, okOr_some, ok_bind,
    failIf_bind]
  by_cases short : data.length < offset + headerSize
  · rw [if_pos short, if_neg]
    rintro ⟨inside, -⟩
    omega
  · have inside : offset + headerSize ≤ data.length := by omega
    have blockLength := length_window_of_le inside
    rw [if_neg short, slice_eq_ok (by omega) inside,
      show offset + headerSize - offset = headerSize by omega, ok_bind,
      slice_eq_ok (by omega) (by rw [blockLength, headerSize]; omega),
      ok_bind, failIf_bind, window_window_of_le (by decide),
      verifyCrc32c_eq (by rw [blockLength, headerSize]; omega), ok_bind,
      failIf_bind, leU32_window (by decide) inside,
      leU64_window (by decide) inside, leU64_window (by decide) inside,
      leU32_window (by decide) inside, leArr16_window (by decide) inside]
    by_cases signed : window data offset 4 = headerSignature
    · by_cases checked : crc32c (clearChecksum
          (window data offset headerSize)) = leU32 data (offset + 4)
      · rw [if_neg (by simpa using signed), if_neg (by simpa using checked),
          if_pos ⟨inside, signed, checked⟩]
        rfl
      · rw [if_neg (by simpa using signed), if_pos (by simpa using checked),
          if_neg fun valid => checked valid.2.2]
    · rw [if_pos (by simpa using signed),
        if_neg fun valid => signed valid.2.1]

/-- Selection returns the fields of the active copy and never panics. -/
theorem parseActiveHeader_eq (data : Bytes) :
    parseActiveHeader data = okOr (activeHeader data) .noValidHeader := by
  rw [parseActiveHeader, parseOneHeader_eq (by decide),
    parseOneHeader_eq (by decide), activeHeader, activeHeaderOffset]
  by_cases first : HeaderValid data header1Offset <;>
    by_cases second : HeaderValid data header2Offset
  · simp only [first, second, if_true, attempt_ok, ok_bind]
    change (if leU64 data (header1Offset + 8) ≥
        leU64 data (header2Offset + 8) then _ else _) = _
    split <;> rfl
  · simp [first, second]
  · simp [first, second]
  · simp [first, second]

/-! ## What selection reads -/

/-- The header slots of two strings hold the same bytes. -/
structure SameHeaderSlots (left right : Bytes) : Prop where
  /-- The first string holds both copies. -/
  leftPresent : regionTable1Offset ≤ left.length
  /-- So does the second string. -/
  rightPresent : regionTable1Offset ≤ right.length
  /-- The first copies are the same. -/
  first : window left header1Offset headerSize =
    window right header1Offset headerSize
  /-- The second copies are the same. -/
  second : window left header2Offset headerSize =
    window right header2Offset headerSize

section Slots

variable {left right : Bytes}

/-- The fields of a header copy depend only on the bytes of the copy. -/
theorem headerAt_congr {leftOff rightOff : Nat}
    (leftInside : leftOff + headerSize ≤ left.length)
    (rightInside : rightOff + headerSize ≤ right.length)
    (same : window left leftOff headerSize =
      window right rightOff headerSize) :
    headerAt left leftOff = headerAt right rightOff := by
  unfold headerAt
  rw [← leU64_window (show 8 + 8 ≤ headerSize by decide) leftInside,
    ← leArr16_window (show 48 + 16 ≤ headerSize by decide) leftInside,
    ← leU64_window (show 72 + 8 ≤ headerSize by decide) leftInside,
    ← leU32_window (show 68 + 4 ≤ headerSize by decide) leftInside, same,
    leU64_window (by decide) rightInside,
    leArr16_window (by decide) rightInside,
    leU64_window (by decide) rightInside,
    leU32_window (by decide) rightInside]

theorem SameHeaderSlots.headerAt_first (same : SameHeaderSlots left right) :
    headerAt left header1Offset = headerAt right header1Offset := by
  have leftPresent := same.leftPresent
  have rightPresent := same.rightPresent
  have inside : header1Offset + headerSize ≤ regionTable1Offset := by decide
  exact headerAt_congr (by omega) (by omega) same.first

theorem SameHeaderSlots.headerAt_second (same : SameHeaderSlots left right) :
    headerAt left header2Offset = headerAt right header2Offset := by
  have leftPresent := same.leftPresent
  have rightPresent := same.rightPresent
  have inside : header2Offset + headerSize ≤ regionTable1Offset := by decide
  exact headerAt_congr (by omega) (by omega) same.second

/-- Header selection reads only the header slots. -/
theorem activeHeaderOffset_congr (same : SameHeaderSlots left right) :
    activeHeaderOffset left = activeHeaderOffset right := by
  have leftPresent := same.leftPresent
  have rightPresent := same.rightPresent
  have firstInside : header1Offset + headerSize ≤ regionTable1Offset := by
    decide
  have secondInside : header2Offset + headerSize ≤ regionTable1Offset := by
    decide
  have valid1 : HeaderValid left header1Offset ↔
      HeaderValid right header1Offset :=
    blockValid_congr (by decide) (by omega) (by omega) same.first
  have valid2 : HeaderValid left header2Offset ↔
      HeaderValid right header2Offset :=
    blockValid_congr (by decide) (by omega) (by omega) same.second
  have sequence1 : leU64 left (header1Offset + 8) =
      leU64 right (header1Offset + 8) :=
    congrArg VhdxHeader.sequenceNumber same.headerAt_first
  have sequence2 : leU64 left (header2Offset + 8) =
      leU64 right (header2Offset + 8) :=
    congrArg VhdxHeader.sequenceNumber same.headerAt_second
  simp only [activeHeaderOffset, valid1, valid2, sequence1, sequence2]

/-- The active copy lies in one of the two slots. -/
theorem activeHeaderOffset_cases {data : Bytes} {offset : Nat}
    (active : activeHeaderOffset data = some offset) :
    (offset = header1Offset ∨ offset = header2Offset) ∧
      HeaderValid data offset := by
  unfold activeHeaderOffset at active
  split at active
  · rename_i first
    split at active
    · rename_i second
      split at active
      · cases active
        exact ⟨Or.inl rfl, first⟩
      · cases active
        exact ⟨Or.inr rfl, second⟩
    · cases active
      exact ⟨Or.inl rfl, first⟩
  · split at active
    · rename_i second
      cases active
      exact ⟨Or.inr rfl, second⟩
    · cases active

/-- The active header depends on the two copies only. -/
theorem activeHeader_congr (same : SameHeaderSlots left right) :
    activeHeader left = activeHeader right := by
  unfold activeHeader
  rw [activeHeaderOffset_congr same]
  cases active : activeHeaderOffset right with
  | none => rfl
  | some offset =>
      rw [Option.map_some, Option.map_some]
      rcases (activeHeaderOffset_cases active).1 with rfl | rfl
      · rw [same.headerAt_first]
      · rw [same.headerAt_second]

/-- The fields of the active header have their widths. -/
theorem activeHeader_bounds {data : Bytes} {header : VhdxHeader}
    (active : activeHeader data = some header) :
    header.logOffset < 2 ^ 64 ∧ header.logLength < 2 ^ 32 := by
  obtain ⟨offset, -, rfl⟩ := Option.map_eq_some_iff.mp active
  exact ⟨leU64_lt _ _, leU32_lt _ _⟩

end Slots

end VhdxForensic
