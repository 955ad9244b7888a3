import VhdxForensic.Forensic.Integrity

/-!
# Repairing an image

The findings of one analysis are worked through in order. A finding of a
repairable kind leads to one write into the image, and every other finding is
listed with a reason. All offsets are computed before the first write.
-/

namespace VhdxForensic

open Rust Rust.Bytes Rust.Exec

/-- A single action that was applied to the image. -/
structure RepairAction where
  /-- What was done. -/
  description : String
  /-- Where it was done. -/
  byteOffset : Nat
  /-- How many bytes were written. -/
  bytesChanged : Nat
  /-- The notice that goes with every action. -/
  disclaimer : String
  deriving DecidableEq, Repr

/-- A finding that is not repaired. -/
structure CannotRepair where
  /-- The finding. -/
  anomaly : VhdxIntegrityAnomaly
  /-- Why it is left. -/
  reason : String
  deriving DecidableEq, Repr

structure RepairReport where
  /-- Actions in the order in which they were done. -/
  repaired : List RepairAction
  /-- Findings that were left. -/
  cannotRepair : List CannotRepair
  deriving DecidableEq, Repr

/-! ## The actions -/

/-- `data.copy_within(start..stop, dest)`. -/
def copyWithin (data : Bytes) (start stop dest : Nat) : Audit Bytes := do
  let block ← slice data start stop
  let destEnd ← add dest block.length
  copyInto data dest destEnd block

/-- Copy a block over another one and compute its checksum again. -/
def copyBlockWithCrc (data : Bytes) (srcOff dstOff size : Nat) :
    Audit Bytes := do
  let srcEnd ← add srcOff size
  let data ← copyWithin data srcOff srcEnd dstOff
  let sumStart ← add dstOff 4
  let sumEnd ← add dstOff 8
  let data ← fill data sumStart sumEnd 0
  let dstEnd ← add dstOff size
  let block ← slice data dstOff dstEnd
  copyInto data sumStart sumEnd (encodeLe 4 (crc32c block))

def copyHeader (data : Bytes) (srcCopy dstCopy : Nat) :
    Audit (RepairAction × Bytes) := do
  let srcOff := headerOffset srcCopy
  let dstOff := headerOffset dstCopy
  let data ← copyBlockWithCrc data srcOff dstOff headerSize
  return ({
    description := s!"Replaced corrupt header copy {dstCopy} with copy " ++
      s!"{srcCopy} and recomputed CRC32C"
    byteOffset := dstOff
    bytesChanged := headerSize
    disclaimer := "Header copy was replaced with the other valid copy. " ++
      "The original corrupt copy may have contained forensically " ++
      "significant modifications." }, data)

def copyRegionTable (data : Bytes) (srcCopy dstCopy : Nat) :
    Audit (RepairAction × Bytes) := do
  let srcOff := rtOffset srcCopy
  let dstOff := rtOffset dstCopy
  let data ← copyBlockWithCrc data srcOff dstOff regionTableCrcCoverage
  return ({
    description := s!"Replaced corrupt region table copy {dstCopy} with " ++
      s!"copy {srcCopy} and recomputed CRC32C"
    byteOffset := dstOff
    bytesChanged := regionTableCrcCoverage
    disclaimer := "Region table copy was replaced with the other valid " ++
      "copy. The original corrupt copy may have contained forensically " ++
      "significant modifications." }, data)

/-- All bits but 3 to 19, which an entry leaves zero. -/
def batUsedBitsMask : Nat := 0xFFFFFFFFFFF00007

def clearBatReservedBits (data : Bytes) (batOffset batIndex : Nat) :
    Audit (RepairAction × Bytes) := do
  let step ← mul batIndex 8
  let bytePos ← add batOffset step
  let entryEnd ← add bytePos 8
  let raw := leU64 data bytePos
  let cleaned := raw &&& batUsedBitsMask
  let data ← copyInto data bytePos entryEnd (encodeLe 8 cleaned)
  return ({
    description := s!"BAT entry {batIndex} had non-zero reserved bits — " ++
      "bits [3..19] cleared, offset and state preserved"
    byteOffset := bytePos
    bytesChanged := 8
    disclaimer := "Reserved bits cleared; payload offset preserved. " ++
      "The original reserved-bit pattern may have been forensically " ++
      "significant." }, data)

def zeroBatEntry (data : Bytes) (batOffset batIndex : Nat) :
    Audit (RepairAction × Bytes) := do
  let step ← mul batIndex 8
  let bytePos ← add batOffset step
  let entryEnd ← add bytePos 8
  let data ← fill data bytePos entryEnd 0
  return ({
    description := s!"BAT entry {batIndex} pointed outside container — " ++
      "zeroed to NOT_PRESENT"
    byteOffset := bytePos
    bytesChanged := 8
    disclaimer := "BAT entry replaced with NOT_PRESENT (0). " ++
      "Data the entry supposedly referenced cannot be recovered from this " ++
      "image." }, data)

/-! ## Working through the findings -/

/-- An action that was applied. -/
def performed (run : Audit (RepairAction × Bytes)) :
    Audit (Option RepairAction × Bytes) := do
  let (action, data) ← run
  return (some action, data)

/-- The action for a finding, if there is one, and the image after it. -/
def repairIssue (batOffset : Option Nat) (data : Bytes) :
    VhdxIntegrityAnomaly → Audit (Option RepairAction × Bytes)
  | .headerChecksumMismatch 1 _ _ => performed (copyHeader data 2 1)
  | .headerChecksumMismatch 2 _ _ => performed (copyHeader data 1 2)
  | .regionTableChecksumMismatch 1 _ _ => performed (copyRegionTable data 2 1)
  | .regionTableChecksumMismatch 2 _ _ => performed (copyRegionTable data 1 2)
  | .batEntryBeyondContainer batIndex _ _
  | .batEntryInStructuralRegion batIndex _ _
  | .undefinedBlockState batIndex =>
      match batOffset with
      | some off => performed (zeroBatEntry data off batIndex)
      | none => return (none, data)
  | .batEntryUnaligned batIndex _ =>
      match batOffset with
      | some off => performed (clearBatReservedBits data off batIndex)
      | none => return (none, data)
  | _ => return (none, data)

/-- Why a finding is not repaired. -/
def repairReason : VhdxIntegrityAnomaly → String
  | .bothHeaderCopiesInvalid =>
      "Both header copies are invalid; no valid reference copy exists to " ++
      "restore from"
  | .bothRegionTableCopiesInvalid =>
      "Both region table copies are invalid; region layout cannot be " ++
      "determined"
  | .dirtyLog .. =>
      "Log replay is required to reach a consistent image state; " ++
      "log replay is out of scope for offline forensic analysis — " ++
      "mount the image on a running Hyper-V host for automatic replay"
  | .batSizeMetadataMismatch .. =>
      "Cannot determine which field (VirtualDiskSize or BlockSize) was " ++
      "altered without an external reference; altering either would destroy " ++
      "evidence"
  | .logEntryGuidMismatch .. =>
      "Log was transplanted from a different image; replay would overwrite " ++
      "this image's metadata with data from the source image"
  | .ghostDataInAbsentBlock .. =>
      "Absent-block data cannot be zeroed without destroying evidence; " ++
      "use a carver to extract the content before repair"
  | .metadataItemsOverlap .. =>
      "Overlapping metadata items are ambiguous; cannot determine which " ++
      "item's data is authoritative without external reference"
  | .logGuidAllZerosWithDirtyLog .. =>
      "Log structure is internally contradictory; replay is unsafe and " ++
      "clearing the log would destroy evidence of the anomaly"
  | .batEntriesOverlap .. =>
      "Overlapping BAT entries are ambiguous; cannot determine which " ++
      "logical block mapping is authoritative without external reference data"
  | .headerCopyMismatch .. =>
      "Header field mismatch between copies requires manual forensic " ++
      "analysis to determine which copy reflects the intended state"
  | .regionTableCopyMismatch .. =>
      "Region table field mismatch between copies requires manual forensic " ++
      "analysis to determine which copy reflects the intended state"
  | .differencingDisk =>
      "Differencing disk repair requires access to the full parent chain"
  | .batEntryBeyondContainer .. =>
      "BAT region offset cannot be determined from region tables"
  | _ => "No automated repair strategy is available for this anomaly type"

/-- One pass over the findings. -/
def repairStep (batOffset : Option Nat) (state : Bytes × RepairReport)
    (issue : VhdxIntegrityAnomaly) : Audit (Bytes × RepairReport) := do
  let (action, data) ← repairIssue batOffset state.1 issue
  match action with
  | some action =>
      return (data, { state.2 with
        repaired := state.2.repaired ++ [action] })
  | none =>
      return (data, { state.2 with
        cannotRepair := state.2.cannotRepair ++
          [{ anomaly := issue, reason := repairReason issue }] })

def batRegionOffset (data : Bytes) : Audit (Option Nat) := do
  let regions ← attempt (parseRegions data)
  return regions.toOption.map ParsedRegions.batOffset

/-- Repair what can be repaired: the report and the bytes after. -/
def attemptRepair (orders : SortOrders) (data : Bytes) :
    Audit (RepairReport × Bytes) := do
  let issues ← analyse orders data
  let ghosts ← checkBatGhostData data
  let batOffset ← batRegionOffset data
  let (data, report) ← (issues ++ ghosts).foldlM (repairStep batOffset)
    (data, { repaired := [], cannotRepair := [] })
  return (report, data)

/-! ## What an action writes -/

/-- Start and size of what the action for a finding writes. -/
def repairPlace (batOffset : Option Nat) :
    VhdxIntegrityAnomaly → Option (Nat × Nat)
  | .headerChecksumMismatch copy _ _ =>
      if copy = 1 ∨ copy = 2 then some (headerOffset copy, headerSize)
      else none
  | .regionTableChecksumMismatch copy _ _ =>
      if copy = 1 ∨ copy = 2 then
        some (rtOffset copy, regionTableCrcCoverage)
      else none
  | .batEntryBeyondContainer batIndex _ _
  | .batEntryInStructuralRegion batIndex _ _
  | .undefinedBlockState batIndex
  | .batEntryUnaligned batIndex _ =>
      batOffset.map fun off => (off + batIndex * 8, 8)
  | _ => none

/-- What the action writes there. -/
def repairContent (batOffset : Option Nat) (data : Bytes) :
    VhdxIntegrityAnomaly → Bytes
  | .headerChecksumMismatch copy _ _ =>
      sealBlock (window data (headerOffset (3 - copy)) headerSize)
  | .regionTableChecksumMismatch copy _ _ =>
      sealBlock (window data (rtOffset (3 - copy)) regionTableCrcCoverage)
  | .batEntryUnaligned batIndex _ =>
      encodeLe 8 (leU64 data (batOffset.getD 0 + batIndex * 8) &&&
        batUsedBitsMask)
  | _ => List.replicate 8 0

/-- The image after the action for a finding. -/
def repairedBy (batOffset : Option Nat) (data : Bytes)
    (issue : VhdxIntegrityAnomaly) : Bytes :=
  match repairPlace batOffset issue with
  | none => data
  | some place =>
      overwrite data place.1 (repairContent batOffset data issue)

/-- Start and size of an action. -/
def RepairAction.place (action : RepairAction) : Nat × Nat :=
  (action.byteOffset, action.bytesChanged)

/-- The image holds what the action for a finding reads and writes. -/
def ActionFits (batOffset : Option Nat) (size : Nat) :
    VhdxIntegrityAnomaly → Prop
  | .headerChecksumMismatch .. => header2Offset + headerSize ≤ size
  | .regionTableChecksumMismatch .. =>
      regionTable2Offset + regionTableCrcCoverage ≤ size
  | .batEntryBeyondContainer batIndex _ _
  | .batEntryInStructuralRegion batIndex _ _
  | .undefinedBlockState batIndex
  | .batEntryUnaligned batIndex _ =>
      ∀ off ∈ batOffset, off + batIndex * 8 + 8 ≤ size
  | _ => True

section Actions

variable {data : Bytes}

/-- A write inside what was just written is a write to its source. -/
theorem overwrite_overwrite {source piece : Bytes} {off inner : Nat}
    (inside : off + source.length ≤ data.length)
    (within : inner + piece.length ≤ source.length) :
    overwrite (overwrite data off source) (off + inner) piece =
      overwrite data off (overwrite source inner piece) := by
  have lengthEq := length_overwrite inside
  have sourceEq := length_overwrite within
  apply List.ext_getElem?
  intro index
  rw [getElem?_overwrite (by omega), getElem?_overwrite inside,
    getElem?_overwrite (by omega), sourceEq]
  by_cases written : off ≤ index ∧ index < off + source.length
  · rw [if_pos written, if_pos written, getElem?_overwrite within]
    by_cases patched : off + inner ≤ index ∧
        index < off + inner + piece.length
    · rw [if_pos patched, if_pos (by omega), Nat.sub_add_eq]
    · rw [if_neg patched, if_neg (by omega)]
  · rw [if_neg written, if_neg written, if_neg (by omega)]

/-- The later of two writes of one length to one place stays. -/
theorem overwrite_again {first second : Bytes} {off : Nat}
    (inside : off + first.length ≤ data.length)
    (sameLength : second.length = first.length) :
    overwrite (overwrite data off first) off second =
      overwrite data off second := by
  have lengthEq := length_overwrite inside
  apply List.ext_getElem?
  intro index
  rw [getElem?_overwrite (by omega), getElem?_overwrite inside,
    getElem?_overwrite (by omega), sameLength]
  split <;> rfl

/-- A copied block is sealed. -/
theorem copyBlockWithCrc_eq {srcOff dstOff size : Nat}
    (allocated : data.length ≤ isizeMax) (large : 8 ≤ size)
    (source : srcOff + size ≤ data.length)
    (target : dstOff + size ≤ data.length) :
    copyBlockWithCrc data srcOff dstOff size =
      .ok (overwrite data dstOff (sealBlock (window data srcOff size))) := by
  have word : isizeMax < wordCount := by decide
  have blockLength := length_window_of_le source
  set block := window data srcOff size with blockEq
  have copied : dstOff + block.length ≤ data.length := by omega
  have clearedLength := @length_clearChecksum block (by omega)
  have zeros : List.replicate 4 (0 : UInt8) = [0, 0, 0, 0] := rfl
  have dataLength := length_overwrite copied
  rw [copyBlockWithCrc, add_eq_ok (by omega), ok_bind, copyWithin,
    slice_eq_ok (by omega) source, ok_bind, Nat.add_sub_cancel_left,
    ← blockEq, add_eq_ok (by omega), ok_bind,
    copyInto_eq_ok (by omega) copied (by omega), ok_bind,
    add_eq_ok (by omega), ok_bind, add_eq_ok (by omega), ok_bind,
    fill_eq_ok 0 (by omega) (by omega), ok_bind,
    show dstOff + 8 - (dstOff + 4) = 4 by omega, zeros,
    overwrite_overwrite copied (by simp; omega), ← clearChecksum,
    add_eq_ok (by omega), ok_bind]
  have cleared : dstOff + (clearChecksum block).length ≤ data.length := by
    omega
  have sealedLength := length_overwrite cleared
  rw [slice_eq_ok (by omega) (by omega), ok_bind, Nat.add_sub_cancel_left,
    show size = (clearChecksum block).length by omega,
    window_overwrite_self cleared,
    copyInto_eq_ok (by omega) (by omega) (by rw [length_encodeLe]; omega),
    overwrite_overwrite cleared (by simp; omega), clearChecksum,
    overwrite_again (by simp; omega) (by simp), ← clearChecksum, ← sealBlock]

/-! ### The action for a finding -/

/-- A run takes one action, which writes `content` at `off`. -/
def Writes (data : Bytes) (off : Nat) (content : Bytes)
    (run : Audit (RepairAction × Bytes)) : Prop :=
  ∃ action : RepairAction, run = .ok (action, overwrite data off content) ∧
    action.place = (off, content.length)

theorem copyHeader_writes {srcCopy dstCopy : Nat}
    (allocated : data.length ≤ isizeMax)
    (source : headerOffset srcCopy + headerSize ≤ data.length)
    (target : headerOffset dstCopy + headerSize ≤ data.length) :
    Writes data (headerOffset dstCopy)
      (sealBlock (window data (headerOffset srcCopy) headerSize))
      (copyHeader data srcCopy dstCopy) := by
  have large : 8 ≤ headerSize := by decide
  have blockLength := length_window_of_le source
  rw [copyHeader, copyBlockWithCrc_eq allocated large source target, ok_bind]
  refine ⟨_, rfl, ?_⟩
  rw [length_sealBlock (by omega), blockLength]
  rfl

theorem copyRegionTable_writes {srcCopy dstCopy : Nat}
    (allocated : data.length ≤ isizeMax)
    (source : rtOffset srcCopy + regionTableCrcCoverage ≤ data.length)
    (target : rtOffset dstCopy + regionTableCrcCoverage ≤ data.length) :
    Writes data (rtOffset dstCopy)
      (sealBlock (window data (rtOffset srcCopy) regionTableCrcCoverage))
      (copyRegionTable data srcCopy dstCopy) := by
  have large : 8 ≤ regionTableCrcCoverage := by decide
  have blockLength := length_window_of_le source
  rw [copyRegionTable, copyBlockWithCrc_eq allocated large source target,
    ok_bind]
  refine ⟨_, rfl, ?_⟩
  rw [length_sealBlock (by omega), blockLength]
  rfl

section Entry

variable {off batIndex : Nat}

/-- An entry inside the image can be located. -/
theorem entryPos_eq (allocated : data.length ≤ isizeMax)
    (inside : off + batIndex * 8 + 8 ≤ data.length) :
    (mul batIndex 8 : Audit Nat) = .ok (batIndex * 8) ∧
      (add off (batIndex * 8) : Audit Nat) = .ok (off + batIndex * 8) ∧
      (add (off + batIndex * 8) 8 : Audit Nat) =
        .ok (off + batIndex * 8 + 8) := by
  have word : isizeMax < wordCount := by decide
  exact ⟨mul_eq_ok (by omega), add_eq_ok (by omega), add_eq_ok (by omega)⟩

theorem zeroBatEntry_writes (allocated : data.length ≤ isizeMax)
    (inside : off + batIndex * 8 + 8 ≤ data.length) :
    Writes data (off + batIndex * 8) (List.replicate 8 0)
      (zeroBatEntry data off batIndex) := by
  obtain ⟨step, start, stop⟩ := entryPos_eq allocated inside
  rw [zeroBatEntry, step, ok_bind, start, ok_bind, stop, ok_bind,
    fill_eq_ok 0 (by omega) inside, ok_bind, Nat.add_sub_cancel_left]
  exact ⟨_, rfl, rfl⟩

theorem clearBatReservedBits_writes (allocated : data.length ≤ isizeMax)
    (inside : off + batIndex * 8 + 8 ≤ data.length) :
    Writes data (off + batIndex * 8)
      (encodeLe 8 (leU64 data (off + batIndex * 8) &&& batUsedBitsMask))
      (clearBatReservedBits data off batIndex) := by
  obtain ⟨step, start, stop⟩ := entryPos_eq allocated inside
  rw [clearBatReservedBits, step, ok_bind, start, ok_bind, stop, ok_bind]
  dsimp only
  rw [copyInto_eq_ok (by omega) inside
    (by rw [length_encodeLe, Nat.add_sub_cancel_left]), ok_bind]
  exact ⟨_, rfl, rfl⟩

end Entry

variable {batOffset : Option Nat} {issue : VhdxIntegrityAnomaly}

theorem length_sealed {off size : Nat} (large : 8 ≤ size)
    (inside : off + size ≤ data.length) :
    (sealBlock (window data off size)).length = size := by
  have blockLength := length_window_of_le inside
  rw [length_sealBlock (by omega), blockLength]

/-- A run whose action writes the content of a finding at its place. -/
theorem performed_of_writes {off : Nat} {content : Bytes}
    {run : Audit (RepairAction × Bytes)} (writes : Writes data off content run)
    (place : repairPlace batOffset issue = some (off, content.length))
    (contentEq : repairContent batOffset data issue = content) :
    ∃ action, performed run = .ok (action, repairedBy batOffset data issue) ∧
      action.map RepairAction.place = repairPlace batOffset issue := by
  obtain ⟨action, returned, placeEq⟩ := writes
  refine ⟨some action, ?_, ?_⟩
  · rw [performed, returned, ok_bind, repairedBy, place, contentEq]
    rfl
  · rw [place, Option.map_some, placeEq]

/-- The action for a finding does what it should and nothing else. -/
theorem repairIssue_eq (allocated : data.length ≤ isizeMax)
    (fits : ActionFits batOffset data.length issue) :
    ∃ action, repairIssue batOffset data issue =
        .ok (action, repairedBy batOffset data issue) ∧
      action.map RepairAction.place = repairPlace batOffset issue := by
  have headers : headerOffset 1 ≤ headerOffset 2 ∧ 8 ≤ headerSize := by
    decide
  have tables : rtOffset 1 ≤ rtOffset 2 ∧ 8 ≤ regionTableCrcCoverage := by
    decide
  unfold repairIssue
  split
  · have second : headerOffset 2 + headerSize ≤ data.length := fits
    have first : headerOffset 1 + headerSize ≤ data.length := by omega
    exact performed_of_writes (copyHeader_writes allocated second first)
      (by rw [length_sealed headers.2 second]; rfl) rfl
  · have second : headerOffset 2 + headerSize ≤ data.length := fits
    have first : headerOffset 1 + headerSize ≤ data.length := by omega
    exact performed_of_writes (copyHeader_writes allocated first second)
      (by rw [length_sealed headers.2 first]; rfl) rfl
  · have second : rtOffset 2 + regionTableCrcCoverage ≤ data.length := fits
    have first : rtOffset 1 + regionTableCrcCoverage ≤ data.length := by omega
    exact performed_of_writes (copyRegionTable_writes allocated second first)
      (by rw [length_sealed tables.2 second]; rfl) rfl
  · have second : rtOffset 2 + regionTableCrcCoverage ≤ data.length := fits
    have first : rtOffset 1 + regionTableCrcCoverage ≤ data.length := by omega
    exact performed_of_writes (copyRegionTable_writes allocated first second)
      (by rw [length_sealed tables.2 first]; rfl) rfl
  case h_5 | h_6 | h_7 =>
    cases located : batOffset with
    | none => exact ⟨none, rfl, rfl⟩
    | some off =>
        have inside := fits off located
        exact performed_of_writes (zeroBatEntry_writes allocated inside)
          rfl rfl
  case h_8 =>
    cases located : batOffset with
    | none => exact ⟨none, rfl, rfl⟩
    | some off =>
        have inside := fits off located
        exact performed_of_writes
          (clearBatReservedBits_writes allocated inside) rfl rfl
  case h_9 header1 header2 table1 table2 beyond structural undefined
      unaligned =>
    have untouched : repairPlace batOffset issue = none := by
      unfold repairPlace
      split
      · rw [if_neg]
        rintro (rfl | rfl)
        · exact header1 _ _ rfl
        · exact header2 _ _ rfl
      · rw [if_neg]
        rintro (rfl | rfl)
        · exact table1 _ _ rfl
        · exact table2 _ _ rfl
      · exact absurd rfl (beyond _ _ _)
      · exact absurd rfl (structural _ _ _)
      · exact absurd rfl (undefined _)
      · exact absurd rfl (unaligned _ _)
      · rfl
    exact ⟨none, by rw [repairedBy, untouched]; rfl, untouched.symm⟩

/-! ### The pass over the findings -/

section Place

variable {place : Nat × Nat}

/-- An action that fits writes inside the image. -/
theorem repairPlace_inside {size : Nat} (fits : ActionFits batOffset size issue)
    (found : repairPlace batOffset issue = some place) :
    place.1 + place.2 ≤ size := by
  have headers : headerOffset 1 ≤ headerOffset 2 := by decide
  have tables : rtOffset 1 ≤ rtOffset 2 := by decide
  unfold repairPlace at found
  split at found
  · obtain ⟨known, ⟨⟩⟩ := Option.ite_none_right_eq_some.mp found
    have second : headerOffset 2 + headerSize ≤ size := fits
    rcases known with rfl | rfl <;> dsimp only <;> omega
  · obtain ⟨known, ⟨⟩⟩ := Option.ite_none_right_eq_some.mp found
    have second : rtOffset 2 + regionTableCrcCoverage ≤ size := fits
    rcases known with rfl | rfl <;> dsimp only <;> omega
  case h_3 | h_4 | h_5 | h_6 =>
    obtain ⟨off, located, rfl⟩ := Option.map_eq_some_iff.mp found
    exact fits off located
  · cases found

/-- An action writes as much as it says. -/
theorem length_repairContent (fits : ActionFits batOffset data.length issue)
    (found : repairPlace batOffset issue = some place) :
    (repairContent batOffset data issue).length = place.2 := by
  have headers : 8 ≤ headerSize := by decide
  have tables : 8 ≤ regionTableCrcCoverage := by decide
  unfold repairPlace at found
  split at found
  · obtain ⟨known, ⟨⟩⟩ := Option.ite_none_right_eq_some.mp found
    have second : headerOffset 2 + headerSize ≤ data.length := fits
    have first : headerOffset 1 ≤ headerOffset 2 := by decide
    rcases known with rfl | rfl
    · exact length_sealed headers second
    · exact length_sealed headers (show headerOffset 1 + _ ≤ _ by omega)
  · obtain ⟨known, ⟨⟩⟩ := Option.ite_none_right_eq_some.mp found
    have second : rtOffset 2 + regionTableCrcCoverage ≤ data.length := fits
    have first : rtOffset 1 ≤ rtOffset 2 := by decide
    rcases known with rfl | rfl
    · exact length_sealed tables second
    · exact length_sealed tables (show rtOffset 1 + _ ≤ _ by omega)
  case h_3 | h_4 | h_5 =>
    obtain ⟨off, located, rfl⟩ := Option.map_eq_some_iff.mp found
    rfl
  · obtain ⟨off, located, rfl⟩ := Option.map_eq_some_iff.mp found
    exact length_encodeLe 8 _
  · cases found

/-- An action keeps the size of the image. -/
theorem length_repairedBy (fits : ActionFits batOffset data.length issue) :
    (repairedBy batOffset data issue).length = data.length := by
  rw [repairedBy]
  cases found : repairPlace batOffset issue with
  | none => rfl
  | some place =>
      have inside := repairPlace_inside fits found
      have width := length_repairContent fits found
      exact length_overwrite (by omega)

/-- Bytes outside the place of an action stay. -/
theorem getElem?_repairedBy (fits : ActionFits batOffset data.length issue)
    {index : Nat}
    (outside : ∀ place ∈ repairPlace batOffset issue,
      ¬ (place.1 ≤ index ∧ index < place.1 + place.2)) :
    (repairedBy batOffset data issue)[index]? = data[index]? := by
  rw [repairedBy]
  cases found : repairPlace batOffset issue with
  | none => rfl
  | some place =>
      have inside := repairPlace_inside fits found
      have width := length_repairContent fits found
      have missed := outside place found
      dsimp only
      rw [getElem?_overwrite (by omega), if_neg (by omega)]

end Place

end Actions

/-! ### The pass over the findings -/

section Pass

variable {batOffset : Option Nat} {data : Bytes} {issues : Findings}

/-- The image after the actions for a list of findings. -/
def repairedByAll (batOffset : Option Nat) (data : Bytes)
    (issues : Findings) : Bytes :=
  issues.foldl (repairedBy batOffset) data

/-- The report lists one action for each finding with a place and every
other finding. -/
structure Covers (batOffset : Option Nat) (issues : Findings)
    (report : RepairReport) : Prop where
  /-- The actions are those for the repaired findings, in order. -/
  places : report.repaired.map RepairAction.place =
    issues.filterMap (repairPlace batOffset)
  /-- All other findings are listed as left. -/
  others : report.cannotRepair.map CannotRepair.anomaly =
    issues.filter fun issue => (repairPlace batOffset issue).isNone

/-- One finding adds one line to the report. -/
theorem repairStep_eq {issue : VhdxIntegrityAnomaly}
    {earlier : Findings} {report : RepairReport}
    (allocated : data.length ≤ isizeMax)
    (fits : ActionFits batOffset data.length issue)
    (covers : Covers batOffset earlier report) :
    ∃ report', repairStep batOffset (data, report) issue =
        .ok (repairedBy batOffset data issue, report') ∧
      Covers batOffset (earlier ++ [issue]) report' := by
  obtain ⟨action, returned, place⟩ := repairIssue_eq allocated fits
  rw [repairStep, returned, ok_bind]
  cases action with
  | none =>
      refine ⟨_, rfl, ?_, ?_⟩
      · simp [covers.places, ← place]
      · simp [covers.others, ← place]
  | some action =>
      refine ⟨_, rfl, ?_, ?_⟩
      · simp [covers.places, ← place]
      · simp [covers.others, ← place]

/-- The pass applies the actions of all findings and reports each. -/
theorem repairPass_eq {earlier : Findings} {report : RepairReport}
    (allocated : data.length ≤ isizeMax)
    (fits : ∀ issue ∈ issues, ActionFits batOffset data.length issue)
    (covers : Covers batOffset earlier report) :
    ∃ report', issues.foldlM (repairStep batOffset) (data, report) =
        .ok (repairedByAll batOffset data issues, report') ∧
      Covers batOffset (earlier ++ issues) report' := by
  induction issues generalizing data earlier report with
  | nil => exact ⟨report, rfl, by rwa [List.append_nil]⟩
  | cons issue issues inductionHypothesis =>
      have issueFits := fits issue List.mem_cons_self
      have lengthEq := length_repairedBy issueFits
      obtain ⟨report', returned, covered⟩ :=
        repairStep_eq allocated issueFits covers
      rw [List.foldlM_cons, returned, ok_bind, List.append_cons]
      refine inductionHypothesis (by omega) (fun later member => ?_) covered
      rw [lengthEq]
      exact fits later (List.mem_cons_of_mem _ member)

/-- The actions keep the size of the image and all bytes outside of their
places. -/
theorem repairedByAll_frame
    (fits : ∀ issue ∈ issues, ActionFits batOffset data.length issue) :
    (repairedByAll batOffset data issues).length = data.length ∧
      ∀ index, (∀ place ∈ issues.filterMap (repairPlace batOffset),
        ¬ (place.1 ≤ index ∧ index < place.1 + place.2)) →
          (repairedByAll batOffset data issues)[index]? = data[index]? := by
  induction issues generalizing data with
  | nil => exact ⟨rfl, fun _ _ => rfl⟩
  | cons issue issues inductionHypothesis =>
      have issueFits := fits issue List.mem_cons_self
      have lengthEq := length_repairedBy issueFits
      obtain ⟨restLength, restFrame⟩ := @inductionHypothesis
        (repairedBy batOffset data issue) fun later member => by
          rw [lengthEq]
          exact fits later (List.mem_cons_of_mem _ member)
      refine ⟨restLength.trans lengthEq, fun index outside => ?_⟩
      refine (restFrame index fun place member => ?_).trans
        (getElem?_repairedBy issueFits fun place member => ?_)
      · obtain ⟨later, laterMember, found⟩ := List.mem_filterMap.mp member
        exact outside place (List.mem_filterMap.mpr
          ⟨later, List.mem_cons_of_mem _ laterMember, found⟩)
      · exact outside place (List.mem_filterMap.mpr
          ⟨issue, List.mem_cons_self, member⟩)

end Pass

end VhdxForensic
