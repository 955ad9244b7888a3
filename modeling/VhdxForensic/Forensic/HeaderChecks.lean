import VhdxForensic.Core.Header
import VhdxForensic.Core.Reader
import VhdxForensic.Forensic.Anomaly

/-!
# Checks of the fixed blocks and the headers

The analyser works on the raw bytes. Its checks cannot fail, so a run of one
of them returns its findings or panics. Every check is split into the part
that cuts blocks out of the image and the findings about those blocks.
-/

namespace VhdxForensic

open Rust Rust.Bytes Rust.Exec

/-- A run that has no error values. -/
abbrev Audit (α : Type) := Exec Empty α

/-- A list of findings. -/
abbrev Findings := List VhdxIntegrityAnomaly

/-- Some byte of a block is not zero. -/
def anyNonzero (block : Bytes) : Bool := block.any fun byte => byte ≠ 0

/-- Number of bytes of a block that are not zero. -/
def countNonzero (block : Bytes) : Nat := block.countP fun byte => byte ≠ 0

/-! ## The container as a whole -/

/-- 320 KiB: five slots of 64 KiB. -/
def analyserMinContainerSize : Nat := 0x50000

def checkFileMagic (data : Bytes) : Audit Findings := do
  if data.length < analyserMinContainerSize then
    return [.containerTruncated data.length analyserMinContainerSize]
  else
    let found ← slice data 0 8
    if found ≠ fileMagic then return [.badMagic found] else return []

/-- Findings about bytes 512 to 65536. -/
def reservedFindings (reserved : Bytes) : Findings :=
  match reserved.findIdx? (fun byte => byte ≠ 0) with
  | none => []
  | some pos =>
      [.fileIdentifierReservedNonZero (512 + pos)
        (countNonzero (reserved.drop pos))]

def checkFileIdentifierReserved (data : Bytes) : Audit Findings := do
  if data.length < 65536 then return []
  else
    let reserved ← slice data 512 65536
    return reservedFindings reserved

/-- The padding between the fixed blocks: neighbours, start and end. -/
def fixedGaps : List (String × String × Nat × Nat) :=
  [("Header1", "Header2", header1Offset + headerSize, header2Offset),
    ("Header2", "RegionTable1", header2Offset + headerSize,
      regionTable1Offset),
    ("RegionTable2", "DataArea",
      regionTable2Offset + regionTableCrcCoverage, 0x100000)]

/-- Visit the gaps up to the first one that is not wholly present. -/
def gapFindings (data : Bytes) :
    List (String × String × Nat × Nat) → Audit Findings
  | [] => .ok []
  | (fromRegion, toRegion, gapStart, gapEnd) :: gaps =>
      if data.length < gapEnd then .ok []
      else do
        let gap ← slice data gapStart gapEnd
        let rest ← gapFindings data gaps
        if anyNonzero gap then
          return .interRegionGapNonZero fromRegion toRegion gapStart
            (gapEnd - gapStart) :: rest
        else return rest

def checkInterRegionGaps (data : Bytes) : Audit Findings :=
  if data.length < 0x100000 then .ok [] else gapFindings data fixedGaps

/-! ## Checksums -/

/-- Check a block of `size` bytes at `offset`: its presence, its signature
and its checksum. `mismatch` makes the finding. -/
def checkBlockCrc (data : Bytes) (offset size : Nat) (signature : Bytes)
    (mismatch : (computed stored : Nat) → VhdxIntegrityAnomaly) :
    Audit (Option VhdxIntegrityAnomaly) := do
  if data.length < offset + size then return some (mismatch 0 0)
  else
    let block ← slice data offset (offset + size)
    let found ← slice block 0 4
    if found ≠ signature then return some (mismatch 0 0)
    else
      let stored := leU32 block 4
      let buf ← fill block 4 8 0
      let computed := crc32c buf
      if computed ≠ stored then return some (mismatch computed stored)
      else return none

/-- Offset of a header copy. -/
def headerOffset (copy : Nat) : Nat :=
  if copy = 1 then header1Offset else header2Offset

def checkSingleHeaderCrc (data : Bytes) (copy : Nat) :
    Audit (Option VhdxIntegrityAnomaly) :=
  checkBlockCrc data (headerOffset copy) headerSize headerSignature
    (.headerChecksumMismatch copy)

/-- What the check of a block finds. -/
def crcFinding (data : Bytes) (offset size : Nat) (signature : Bytes)
    (mismatch : (computed stored : Nat) → VhdxIntegrityAnomaly) :
    Option VhdxIntegrityAnomaly :=
  let block := window data offset size
  let computed := crc32c (clearChecksum block)
  if data.length < offset + size then some (mismatch 0 0)
  else if window data offset 4 ≠ signature then some (mismatch 0 0)
  else if computed ≠ leU32 data (offset + 4) then
    some (mismatch computed (leU32 data (offset + 4)))
  else none

section Crc

variable {data signature : Bytes} {offset size : Nat}
  {mismatch : (computed stored : Nat) → VhdxIntegrityAnomaly}

theorem checkBlockCrc_eq (sizeEnough : 8 ≤ size) :
    checkBlockCrc data offset size signature mismatch =
      .ok (crcFinding data offset size signature mismatch) := by
  rw [checkBlockCrc, crcFinding]
  dsimp only
  by_cases short : data.length < offset + size
  · rw [if_pos short, if_pos short]
    rfl
  have blockLength : (window data offset size).length = size :=
    length_window_of_le (by omega)
  rw [if_neg short, if_neg short, slice_eq_ok (by omega) (by omega), ok_bind,
    Nat.add_sub_cancel_left, slice_eq_ok (by omega) (by omega), ok_bind,
    window_window_of_le (by omega), Nat.add_zero]
  by_cases unsigned : window data offset 4 ≠ signature
  · rw [if_pos unsigned, if_pos unsigned]
    rfl
  rw [if_neg unsigned, if_neg unsigned,
    fill_eq_ok 0 (by omega) (by omega), ok_bind,
    leU32_window (by omega) (by omega)]
  change (if crc32c (clearChecksum _) ≠ _ then _ else _) = _
  split <;> rfl

theorem crcFinding_eq_none_iff :
    crcFinding data offset size signature mismatch = none ↔
      BlockValid data offset size signature := by
  unfold crcFinding BlockValid
  dsimp only
  by_cases short : data.length < offset + size
  · rw [if_pos short]
    exact iff_of_false (by simp) fun valid => by omega
  rw [if_neg short]
  by_cases signed : window data offset 4 = signature
  · rw [if_neg (not_not_intro signed)]
    by_cases checked : crc32c (clearChecksum (window data offset size)) =
        leU32 data (offset + 4)
    · rw [if_neg (not_not_intro checked)]
      exact iff_of_true rfl ⟨by omega, signed, checked⟩
    · rw [if_pos checked]
      exact iff_of_false (by simp) fun valid => checked valid.2.2
  · rw [if_pos signed]
    exact iff_of_false (by simp) fun valid => signed valid.2.1

/-- A finding of the check is a mismatch. -/
theorem exists_of_crcFinding {finding : VhdxIntegrityAnomaly}
    (found : crcFinding data offset size signature mismatch =
      some finding) :
    ∃ computed stored, finding = mismatch computed stored := by
  unfold crcFinding at found
  dsimp only at found
  split at found
  · exact ⟨0, 0, (Option.some.inj found).symm⟩
  · split at found
    · exact ⟨0, 0, (Option.some.inj found).symm⟩
    · split at found
      · exact ⟨_, _, (Option.some.inj found).symm⟩
      · cases found

end Crc

/-- What the check of a header copy finds. -/
def headerCrcFinding (data : Bytes) (copy : Nat) :
    Option VhdxIntegrityAnomaly :=
  crcFinding data (headerOffset copy) headerSize headerSignature
    (.headerChecksumMismatch copy)

theorem checkSingleHeaderCrc_eq (data : Bytes) (copy : Nat) :
    checkSingleHeaderCrc data copy = .ok (headerCrcFinding data copy) :=
  checkBlockCrc_eq (by decide)

theorem headerCrcFinding_eq_none_iff {data : Bytes} {copy : Nat} :
    headerCrcFinding data copy = none ↔
      HeaderValid data (headerOffset copy) :=
  crcFinding_eq_none_iff

/-! ## Headers -/

/-- Findings about two valid header copies. -/
def headerPairFindings (h1 h2 : Bytes) : Findings :=
  let seq1 := leU64 h1 8
  let seq2 := leU64 h2 8
  let gap := (seq1 - seq2) + (seq2 - seq1)
  let sequence : Findings :=
    if seq1 = 0 ∧ seq2 = 0 then [.bothSequenceNumbersZero]
    else if seq1 = seq2 then [.sequenceNumbersIdentical seq1]
    else if gap > 1 then [.sequenceNumberGapLarge seq1 seq2 gap]
    else []
  let logLength : Findings :=
    if leU32 h1 68 ≠ leU32 h2 68 then
      [.headerCopyMismatch "LogLength" (leU32 h1 68) (leU32 h2 68)]
    else []
  let logOffset : Findings :=
    if leU64 h1 72 ≠ leU64 h2 72 then
      [.headerCopyMismatch "LogOffset" (leU64 h1 72) (leU64 h2 72)]
    else []
  sequence ++ logLength ++ logOffset

def checkHeaderPair (data : Bytes) : Audit Findings := do
  let h1 ← slice data header1Offset (header1Offset + headerSize)
  let h2 ← slice data header2Offset (header2Offset + headerSize)
  return headerPairFindings h1 h2

/-- Findings about bytes 80 to 4096 of a header copy. -/
def headerReservedFindings (copy : Nat) (headerReserved : Bytes) : Findings :=
  if anyNonzero headerReserved then
    let firstNonzero :=
      (headerReserved.findIdx? fun byte => byte ≠ 0).getD 0
    [.headerReservedNonZero copy (80 + firstNonzero)
      (countNonzero headerReserved)]
  else []

def checkHeaderReserved (data : Bytes) (copy : Nat) (valid : Bool) :
    Audit Findings := do
  let offset := headerOffset copy
  if valid ∧ data.length ≥ offset + headerSize then
    let headerReserved ← slice data (offset + 80) (offset + headerSize)
    return headerReservedFindings copy headerReserved
  else return []

/-- The block of the valid header copy with the higher sequence number. -/
def activeHeaderBlock (data : Bytes) : Audit (Option Bytes) := do
  let h1 ← checkSingleHeaderCrc data 1
  let h2 ← checkSingleHeaderCrc data 2
  match h1, h2 with
  | none, none =>
      let seq1 := leU64 data (header1Offset + 8)
      let seq2 := leU64 data (header2Offset + 8)
      if seq1 ≥ seq2 then
        return some (← slice data header1Offset (header1Offset + headerSize))
      else
        return some (← slice data header2Offset (header2Offset + headerSize))
  | none, some _ =>
      return some (← slice data header1Offset (header1Offset + headerSize))
  | some _, none =>
      return some (← slice data header2Offset (header2Offset + headerSize))
  | some _, some _ => return none

/-- Findings about the log pointer of the active header. -/
def logPointerFindings (logLength logOffset containerSize : Nat) : Findings :=
  if logLength > 0 then
    let misaligned : Findings :=
      if logOffset % 0x100000 ≠ 0 then [.logOffsetMisaligned logOffset] else []
    let lengthMisaligned : Findings :=
      if logLength % 0x100000 ≠ 0 then [.logLengthMisaligned logLength] else []
    let beyond : Findings :=
      if saturatingAdd logOffset logLength > containerSize then
        [.logBeyondContainer logOffset logLength containerSize]
      else []
    let reserved : Findings :=
      if logOffset < 0x100000 then [.logInReservedZone logOffset] else []
    misaligned ++ lengthMisaligned ++ beyond ++ reserved ++
      [.dirtyLog logLength logOffset]
  else []

/-- Findings about the active header, whose write GUIDs are given. -/
def activeHeaderFindings (active fileWriteGuid dataWriteGuid : Bytes)
    (containerSize : Nat) : Findings :=
  let logGuid := leArr16 active 48
  let logLength := leU32 active 68
  let logOffset := leU64 active 72
  let logGuidZero := logGuid = List.replicate 16 0
  let fileWrite : Findings :=
    if fileWriteGuid.all (· = 0) then [.fileWriteGuidAllZeros] else []
  let dataWrite : Findings :=
    if dataWriteGuid.all (· = 0) then [.dataWriteGuidAllZeros] else []
  let noLog : Findings :=
    if ¬ logGuidZero ∧ logLength = 0 then [.logGuidWithNoLog logGuid] else []
  let noGuid : Findings :=
    if logGuidZero ∧ logLength > 0 then
      [.logGuidAllZerosWithDirtyLog logLength]
    else []
  let logVersion : Findings :=
    if leU16 active 64 ≠ 1 then [.logVersionInvalid (leU16 active 64)] else []
  let version : Findings :=
    if leU16 active 66 ≠ 1 then [.versionInvalid (leU16 active 66)] else []
  fileWrite ++ dataWrite ++ noLog ++ noGuid ++ logVersion ++ version ++
    logPointerFindings logLength logOffset containerSize

def checkActiveHeader (data : Bytes) : Audit Findings := do
  match ← activeHeaderBlock data with
  | none => return []
  | some active =>
      let fileWriteGuid ← slice active 16 32
      let dataWriteGuid ← slice active 32 48
      return activeHeaderFindings active fileWriteGuid dataWriteGuid
        data.length

def checkHeaders (data : Bytes) : Audit Findings := do
  let h1Bad ← checkSingleHeaderCrc data 1
  let h2Bad ← checkSingleHeaderCrc data 2
  if h1Bad.isSome ∧ h2Bad.isSome then return [.bothHeaderCopiesInvalid]
  else
    let pair ←
      if h1Bad.isNone ∧ h2Bad.isNone then checkHeaderPair data
      else pure []
    let reserved1 ← checkHeaderReserved data 1 h1Bad.isNone
    let reserved2 ← checkHeaderReserved data 2 h2Bad.isNone
    let active ← checkActiveHeader data
    return h1Bad.toList ++ h2Bad.toList ++ pair ++ reserved1 ++ reserved2 ++
      active

/-! ## What the checks compute -/

section Blocks

variable (data : Bytes)

/-- Findings about the reserved bytes of a valid header copy. -/
def copyReservedFindings (copy : Nat) : Findings :=
  if headerCrcFinding data copy = none then
    headerReservedFindings copy
      (window data (headerOffset copy + 80) (headerSize - 80))
  else []

/-- Findings about the active header copy. -/
def activeFindings : Findings :=
  match activeHeaderOffset data with
  | none => []
  | some offset =>
      activeHeaderFindings (window data offset headerSize)
        (window data (offset + 16) 16) (window data (offset + 32) 16)
        data.length

/-- All findings about the headers. -/
def headerFindings : Findings :=
  let h1 := headerCrcFinding data 1
  let h2 := headerCrcFinding data 2
  if h1.isSome ∧ h2.isSome then [.bothHeaderCopiesInvalid]
  else
    h1.toList ++ h2.toList ++
      (if h1.isNone ∧ h2.isNone then
        headerPairFindings (window data header1Offset headerSize)
          (window data header2Offset headerSize)
      else []) ++
      copyReservedFindings data 1 ++ copyReservedFindings data 2 ++
      activeFindings data

variable {data}

/-- The block of a valid header copy can be cut out. -/
theorem slice_of_headerValid {ε : Type} {offset : Nat}
    (valid : HeaderValid data offset) :
    (slice data offset (offset + headerSize) : Exec ε Bytes) =
      .ok (window data offset headerSize) := by
  rw [slice_eq_ok (by omega) valid.1, Nat.add_sub_cancel_left]

variable (data)

/-- The analyser picks the header copy that the reader picks. -/
theorem activeHeaderBlock_eq :
    activeHeaderBlock data =
      .ok ((activeHeaderOffset data).map fun offset =>
        window data offset headerSize) := by
  have first : headerCrcFinding data 1 = none ↔
      HeaderValid data header1Offset := headerCrcFinding_eq_none_iff
  have second : headerCrcFinding data 2 = none ↔
      HeaderValid data header2Offset := headerCrcFinding_eq_none_iff
  rw [activeHeaderBlock, checkSingleHeaderCrc_eq, ok_bind,
    checkSingleHeaderCrc_eq, ok_bind, activeHeaderOffset]
  cases h1 : headerCrcFinding data 1 with
  | none =>
      have valid1 := first.mp h1
      rw [if_pos valid1]
      cases h2 : headerCrcFinding data 2 with
      | none =>
          have valid2 := second.mp h2
          rw [if_pos valid2]
          dsimp only
          split
          · rw [slice_of_headerValid valid1]
            rfl
          · rw [slice_of_headerValid valid2]
            rfl
      | some finding =>
          have invalid2 : ¬ HeaderValid data header2Offset :=
            fun valid2 => by simp [second.mpr valid2] at h2
          rw [if_neg invalid2]
          dsimp only
          rw [slice_of_headerValid valid1]
          rfl
  | some finding1 =>
      have invalid1 : ¬ HeaderValid data header1Offset :=
        fun valid1 => by simp [first.mpr valid1] at h1
      rw [if_neg invalid1]
      cases h2 : headerCrcFinding data 2 with
      | none =>
          have valid2 := second.mp h2
          rw [if_pos valid2]
          dsimp only
          rw [slice_of_headerValid valid2]
          rfl
      | some finding =>
          have invalid2 : ¬ HeaderValid data header2Offset :=
            fun valid2 => by simp [second.mpr valid2] at h2
          rw [if_neg invalid2]
          rfl

variable {data}

/-- The log fields of the active block are those of the active header. -/
theorem activeHeaderBlock_of_active {header : VhdxHeader}
    (active : activeHeader data = some header) :
    ∃ block, activeHeaderBlock data = .ok (some block) ∧
      leU32 block 68 = header.logLength ∧ leU64 block 72 = header.logOffset ∧
      leArr16 block 48 = header.logGuid := by
  obtain ⟨offset, found, rfl⟩ := Option.map_eq_some_iff.mp active
  have present := (activeHeaderOffset_cases found).2.1
  refine ⟨window data offset headerSize, ?_, ?_, ?_, ?_⟩
  · rw [activeHeaderBlock_eq, found]
    rfl
  · exact leU32_window (by decide) present
  · exact leU64_window (by decide) present
  · exact leArr16_window (by decide) present

theorem activeHeaderBlock_of_none (inactive : activeHeader data = none) :
    activeHeaderBlock data = .ok none := by
  rw [activeHeaderBlock_eq, Option.map_eq_none_iff.mp inactive]
  rfl

variable (data)

theorem checkHeaderReserved_eq (copy : Nat) :
    checkHeaderReserved data copy (headerCrcFinding data copy).isNone =
      .ok (copyReservedFindings data copy) := by
  have size : headerSize = 4096 := rfl
  rw [checkHeaderReserved, copyReservedFindings]
  by_cases valid : headerCrcFinding data copy = none
  · have present := (headerCrcFinding_eq_none_iff.mp valid).1
    rw [if_pos valid, if_pos ⟨by rw [valid]; rfl, present⟩,
      slice_eq_ok (by omega) present, ok_bind,
      show headerOffset copy + headerSize - (headerOffset copy + 80) =
        headerSize - 80 by omega]
    rfl
  · rw [if_neg valid, if_neg fun both => valid (by simpa using both.1)]
    rfl

theorem checkActiveHeader_eq :
    checkActiveHeader data = .ok (activeFindings data) := by
  rw [checkActiveHeader, activeHeaderBlock_eq, ok_bind, activeFindings]
  cases active : activeHeaderOffset data with
  | none => rfl
  | some offset =>
      have present := (activeHeaderOffset_cases active).2.1
      have size : headerSize = 4096 := rfl
      have blockLength : (window data offset headerSize).length =
          headerSize := length_window_of_le present
      rw [Option.map_some]
      dsimp only
      rw [slice_eq_ok (by omega) (by omega), ok_bind,
        slice_eq_ok (by omega) (by omega), ok_bind,
        window_window_of_le (by omega), window_window_of_le (by omega)]
      rfl

theorem checkHeaders_eq : checkHeaders data = .ok (headerFindings data) := by
  rw [checkHeaders, checkSingleHeaderCrc_eq, ok_bind, checkSingleHeaderCrc_eq,
    ok_bind, headerFindings]
  dsimp only
  split
  · rfl
  · by_cases both : (headerCrcFinding data 1).isNone ∧
        (headerCrcFinding data 2).isNone
    · have valid1 : HeaderValid data header1Offset :=
        headerCrcFinding_eq_none_iff.mp (Option.isNone_iff_eq_none.mp both.1)
      have valid2 : HeaderValid data header2Offset :=
        headerCrcFinding_eq_none_iff.mp (Option.isNone_iff_eq_none.mp both.2)
      rw [if_pos both, if_pos both, checkHeaderPair,
        slice_of_headerValid valid1, ok_bind, slice_of_headerValid valid2,
        ok_bind, pure_bind, checkHeaderReserved_eq, ok_bind,
        checkHeaderReserved_eq, ok_bind, checkActiveHeader_eq]
      rfl
    · rw [if_neg both, if_neg both, pure_bind, checkHeaderReserved_eq, ok_bind,
        checkHeaderReserved_eq, ok_bind, checkActiveHeader_eq]
      rfl

end Blocks

/-! ## What the checks of the container compute -/

/-- Findings about the size and the magic. -/
def fileMagicFindings (data : Bytes) : Findings :=
  if data.length < analyserMinContainerSize then
    [.containerTruncated data.length analyserMinContainerSize]
  else if window data 0 8 ≠ fileMagic then [.badMagic (window data 0 8)]
  else []

theorem checkFileMagic_eq (data : Bytes) :
    checkFileMagic data = .ok (fileMagicFindings data) := by
  have large : 8 ≤ analyserMinContainerSize := by decide
  rw [checkFileMagic, fileMagicFindings]
  split
  · rfl
  · rw [slice_eq_ok (by omega) (by omega), ok_bind]
    split <;> rfl

/-- Findings about the reserved area of the file identifier. -/
def identifierFindings (data : Bytes) : Findings :=
  if data.length < 65536 then []
  else reservedFindings (window data 512 (65536 - 512))

theorem checkFileIdentifierReserved_eq (data : Bytes) :
    checkFileIdentifierReserved data = .ok (identifierFindings data) := by
  rw [checkFileIdentifierReserved, identifierFindings]
  split
  · rfl
  · rw [slice_eq_ok (by omega) (by omega)]
    rfl

/-- Findings about the gaps up to the first one that is cut short. -/
def presentGaps (data : Bytes) :
    List (String × String × Nat × Nat) → Findings
  | [] => []
  | (fromRegion, toRegion, gapStart, gapEnd) :: gaps =>
      if data.length < gapEnd then []
      else if anyNonzero (window data gapStart (gapEnd - gapStart)) then
        .interRegionGapNonZero fromRegion toRegion gapStart
          (gapEnd - gapStart) :: presentGaps data gaps
      else presentGaps data gaps

theorem gapFindings_eq (data : Bytes)
    (gaps : List (String × String × Nat × Nat))
    (ordered : ∀ gap ∈ gaps, gap.2.2.1 ≤ gap.2.2.2) :
    gapFindings data gaps = .ok (presentGaps data gaps) := by
  induction gaps with
  | nil => rfl
  | cons gap gaps inductionHypothesis =>
      obtain ⟨fromRegion, toRegion, gapStart, gapEnd⟩ := gap
      have rest := inductionHypothesis
        fun later member => ordered later (by simp [member])
      have gapOrdered : gapStart ≤ gapEnd :=
        ordered (fromRegion, toRegion, gapStart, gapEnd) List.mem_cons_self
      rw [gapFindings, presentGaps]
      split
      · rfl
      · rw [slice_eq_ok gapOrdered (by omega), ok_bind, rest, ok_bind]
        split <;> rfl

/-- Findings about the padding between the fixed blocks. -/
def interRegionFindings (data : Bytes) : Findings :=
  if data.length < 0x100000 then [] else presentGaps data fixedGaps

theorem checkInterRegionGaps_eq (data : Bytes) :
    checkInterRegionGaps data = .ok (interRegionFindings data) := by
  rw [checkInterRegionGaps, interRegionFindings]
  split
  · rfl
  · exact gapFindings_eq data fixedGaps (by decide)

end VhdxForensic
