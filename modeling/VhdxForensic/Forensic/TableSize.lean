import VhdxForensic.Forensic.BatChecks

/-!
# The size of the table against the reader's indices

The reader looks up one payload entry per block and one bitmap entry per
chunk. Two checks of the analyser judge from the size of the table alone
whether these lookups can succeed.
-/

namespace VhdxForensic

open Rust Rust.Bytes Rust.Exec

theorem lt_ceilDiv_iff {a b c : Nat} (positive : 0 < b) :
    c < a ⌈/⌉ b ↔ c * b < a := by
  rw [← not_le, ceilDiv_le_iff_le_mul positive, Nat.mul_comm, not_le]

namespace VhdxMetadata

variable {metadata : VhdxMetadata}

/-- Number of blocks of the disk. -/
def blockCount (metadata : VhdxMetadata) : Nat :=
  metadata.virtualDiskSize ⌈/⌉ metadata.blockSize

/-- Number of chunks with a block of the disk. -/
def chunkCount (metadata : VhdxMetadata) : Nat :=
  metadata.blockCount ⌈/⌉ metadata.chunkRatioOf

theorem Valid.block_lt_blockCount_iff (valid : metadata.Valid) {block : Nat} :
    block < metadata.blockCount ↔
      block * metadata.blockSize < metadata.virtualDiskSize :=
  lt_ceilDiv_iff valid.blockSize_pos

/-- The blocks of the disk are those that hold one of its bytes. -/
theorem Valid.block_lt_blockCount (valid : metadata.Valid) {v : Nat}
    (inside : v < metadata.virtualDiskSize) :
    v / metadata.blockSize < metadata.blockCount := by
  have := Nat.div_mul_le_self v metadata.blockSize
  rw [valid.block_lt_blockCount_iff]
  omega

theorem Valid.chunk_lt_chunkCount_iff (valid : metadata.Valid) {chunk : Nat} :
    chunk < metadata.chunkCount ↔
      chunk * metadata.chunkRatioOf < metadata.blockCount :=
  lt_ceilDiv_iff valid.chunkRatioOf_pos

theorem Valid.blockCount_pos (valid : metadata.Valid) :
    0 < metadata.blockCount := by
  have nonempty := valid.diskNonempty
  rw [valid.block_lt_blockCount_iff]
  omega

/-- A valid disk has at most 2 ^ 26 blocks. -/
theorem Valid.blockCount_le (valid : metadata.Valid) :
    metadata.blockCount ≤ 2 ^ 26 := by
  rw [blockCount, ceilDiv_le_iff_le_mul valid.blockSize_pos]
  calc metadata.virtualDiskSize
      ≤ virtualDiskSizeMax := valid.disk_le_max
    _ = blockSizeMin * 2 ^ 26 := by decide
    _ ≤ metadata.blockSize * 2 ^ 26 :=
        Nat.mul_le_mul_right _ valid.blockSizeMin_le

theorem Valid.chunkCount_le (valid : metadata.Valid) :
    metadata.chunkCount ≤ metadata.blockCount := by
  rw [chunkCount, ceilDiv_le_iff_le_mul valid.chunkRatioOf_pos]
  exact Nat.le_mul_of_pos_left _ valid.chunkRatioOf_pos

/-- The payload entries of the disk end with the entry of its last block. -/
theorem Valid.payloadIndex_lt (valid : metadata.Valid) {block : Nat}
    (inside : block < metadata.blockCount) :
    metadata.payloadIndex block <
      metadata.blockCount + metadata.chunkCount := by
  have chunkStart := Nat.div_mul_le_self block metadata.chunkRatioOf
  have chunkInside : block / metadata.chunkRatioOf < metadata.chunkCount := by
    rw [valid.chunk_lt_chunkCount_iff]
    omega
  unfold payloadIndex
  omega

/-- The bitmap entries of the disk end with the last chunk, counted whole. -/
theorem Valid.bitmapIndex_lt_iff (valid : metadata.Valid) {entries : Nat} :
    (∀ block < metadata.blockCount, metadata.bitmapIndex block < entries) ↔
      metadata.chunkCount * (metadata.chunkRatioOf + 1) ≤ entries := by
  have ratioPos := valid.chunkRatioOf_pos
  constructor
  · intro fits
    -- The first block of the last chunk decides.
    have lastChunk : 0 < metadata.chunkCount := by
      rw [valid.chunk_lt_chunkCount_iff]
      simpa using valid.blockCount_pos
    have firstInside : (metadata.chunkCount - 1) * metadata.chunkRatioOf <
        metadata.blockCount := by
      rw [← valid.chunk_lt_chunkCount_iff]
      omega
    have last := fits _ firstInside
    rw [bitmapIndex, Nat.mul_div_cancel _ ratioPos] at last
    obtain ⟨earlier, chunks⟩ := Nat.exists_eq_add_of_lt lastChunk
    rw [chunks, Nat.zero_add, Nat.add_mul]
    rw [chunks, Nat.zero_add, Nat.add_sub_cancel] at last
    omega
  · intro fits block inside
    have chunkStart := Nat.div_mul_le_self block metadata.chunkRatioOf
    have chunkInside : block / metadata.chunkRatioOf + 1 ≤
        metadata.chunkCount := by
      rw [Nat.succ_le_iff, valid.chunk_lt_chunkCount_iff]
      omega
    have scaled := Nat.mul_le_mul_right (metadata.chunkRatioOf + 1)
      chunkInside
    rw [Nat.add_mul] at scaled
    unfold bitmapIndex
    omega

end VhdxMetadata

/-! ## The size check -/

section SizeCheck

variable {regions : ParsedRegions} {metadata : VhdxMetadata}

/-- Every index that the reader can look up is below `entries`. -/
def IndicesBelow (metadata : VhdxMetadata) (entries : Nat) : Prop :=
  ∀ v < metadata.virtualDiskSize,
    metadata.payloadIndex (v / metadata.blockSize) < entries ∧
      metadata.bitmapIndex (v / metadata.blockSize) < entries

/-- Bytes of the entries for the blocks and the chunks of the disk, in whole
MiB. -/
def tableBytes (metadata : VhdxMetadata) : Nat :=
  ((metadata.blockCount + metadata.chunkCount) * 8) ⌈/⌉ mb * mb

/-- The unused slots of the last chunk fit into the last MiB of the table. -/
def LastChunkFits (metadata : VhdxMetadata) : Prop :=
  metadata.chunkCount * (metadata.chunkRatioOf + 1) * 8 ≤ tableBytes metadata

theorem tableBytes_lt (valid : metadata.Valid) :
    tableBytes metadata < 2 ^ 32 := by
  have blocks := valid.blockCount_le
  have chunks := valid.chunkCount_le
  have rounded : ((metadata.blockCount + metadata.chunkCount) * 8) ⌈/⌉ mb ≤
      2 ^ 10 := by
    rw [ceilDiv_le_iff_le_mul mb_pos]
    change _ ≤ 0x100000 * 2 ^ 10
    omega
  have scaled := Nat.mul_le_mul_right mb rounded
  have total : 2 ^ 10 * mb < 2 ^ 32 := by decide
  unfold tableBytes
  omega

/-- The number of entries in whole MiB, counted in bytes. -/
theorem le_tableEntries_iff (entries : Nat) :
    entries * 8 ≤ tableBytes metadata ↔ entries ≤ tableBytes metadata / 8 :=
  (Nat.le_div_iff_mul_le (by norm_num)).symm

theorem indicesBelow_iff (valid : metadata.Valid) :
    IndicesBelow metadata (tableBytes metadata / 8) ↔
      LastChunkFits metadata := by
  have payloads : metadata.blockCount + metadata.chunkCount ≤
      tableBytes metadata / 8 := by
    rw [← le_tableEntries_iff, tableBytes, Nat.mul_comm _ mb]
    exact le_smul_ceilDiv mb_pos
  rw [LastChunkFits, le_tableEntries_iff, ← valid.bitmapIndex_lt_iff]
  constructor
  · intro below block inside
    -- The block is that of its own first byte.
    have first := below (block * metadata.blockSize)
      (valid.block_lt_blockCount_iff.mp inside)
    rw [Nat.mul_div_cancel _ valid.blockSize_pos] at first
    exact first.2
  · intro bitmaps v inside
    have blockInside := valid.block_lt_blockCount inside
    exact ⟨Nat.lt_of_lt_of_le (valid.payloadIndex_lt blockInside) payloads,
      bitmaps _ blockInside⟩

theorem expectedBytes_eq (metadata : VhdxMetadata) :
    expectedBytes metadata.blockSize metadata.virtualDiskSize
      metadata.chunkRatioOf = tableBytes metadata := rfl

/-- The numbers of a described table stay in range. -/
theorem arithmeticFits_of_describes (describes : regions.Describes metadata) :
    TableArithmeticFits regions := by
  have bytesLt := tableBytes_lt describes.valid
  have ratioLe := describes.valid.chunkRatioOf_le
  have countLt := entryCountOf_lt describes.sound
  constructor
  · intro bs blockSize vds diskSize cr ratio _
    rw [describes.blockSize_eq, Option.mem_some_iff] at blockSize
    rw [describes.vdiskSize_eq, Option.mem_some_iff] at diskSize
    rw [describes.chunkRatio_eq, Option.mem_some_iff] at ratio
    subst blockSize diskSize ratio
    refine ⟨describes.valid.chunkRatioOf_pos, ?_⟩
    rw [expectedBytes_eq]
    unfold wordCount
    omega
  · intro bs _ vds _ cr ratio _
    rw [describes.chunkRatio_eq, Option.mem_some_iff] at ratio
    subst ratio
    unfold wordCount
    nlinarith

/-- The size check of a described table. -/
theorem batCheckSizeFormula_of_describes
    (describes : regions.Describes metadata) (entryCount : Nat) :
    batCheckSizeFormula regions entryCount = .ok [] ↔
      regions.batLength = tableBytes metadata := by
  have bytesLt := tableBytes_lt describes.valid
  have blockPos := describes.valid.blockSize_pos
  have fits := (arithmeticFits_of_describes describes).1
  rw [batCheckSizeFormula_eq fits, sizeFindings, describes.blockSize_eq,
    describes.vdiskSize_eq, describes.chunkRatio_eq]
  dsimp only
  rw [expectedBytes_eq, Nat.mod_eq_of_lt bytesLt]
  by_cases matching : tableBytes metadata = regions.batLength
  · rw [if_neg fun both => both.2 matching]
    exact iff_of_true rfl matching.symm
  · rw [if_pos ⟨blockPos, matching⟩]
    exact iff_of_false (by simp) (Ne.symm matching)

/-- A table that passes the size check holds every entry that the reader can
look up, if the last chunk fits into the rounded size. -/
theorem passing_table_holds_indices_iff
    (describes : regions.Describes metadata) :
    (batCheckSizeFormula regions (entryCountOf regions) = .ok [] →
        IndicesBelow metadata (entryCountOf regions)) ↔
      (regions.batLength = tableBytes metadata → LastChunkFits metadata) := by
  rw [batCheckSizeFormula_of_describes describes]
  refine imp_congr_right fun passes => ?_
  rw [entryCountOf, passes, indicesBelow_iff describes.valid]

end SizeCheck

/-- What the analyser would decode for a description next to a table of
`batLength` bytes at 3 MiB. -/
def regionsFor (metadata : VhdxMetadata) (batLength : Nat) :
    ParsedRegions where
  batOffset := 0x300000
  batLength := batLength
  metaOffset := 0x200000
  metaLength := 0x100000
  blockSize := some metadata.blockSize
  logicalSs := some metadata.logicalSectorSize
  vdiskSize := some metadata.virtualDiskSize
  chunkRatio :=
    chunkRatioFor (some metadata.blockSize) (some metadata.logicalSectorSize)
  hasParent := metadata.hasParent
  leaveAlloc := false
  physicalSs := none
  vdiskId := none
  hasParentLocator := metadata.hasParent

theorem regionsFor_describes {metadata : VhdxMetadata} {batLength : Nat}
    (valid : metadata.Valid) (small : batLength < 2 ^ 32) :
    (regionsFor metadata batLength).Describes metadata where
  sound := {
    batOffset_lt := show 0x300000 < 2 ^ 64 by decide
    batLength_lt := small
    metaOffset_lt := show 0x200000 < 2 ^ 64 by decide
    metaLength_lt := show 0x100000 < 2 ^ 32 by decide
    blockSize_lt := by
      intro bs found
      have upper : metadata.blockSize ≤ 2 ^ 28 := valid.blockSize_le_max
      rw [← Option.mem_some_iff.mp found]
      omega
    logicalSs_lt := by
      intro ss found
      rw [← Option.mem_some_iff.mp found]
      rcases VhdxMetadata.sectorSize_cases valid.sectorSize with size | size
        <;> omega
    vdiskSize_lt := by
      intro vds found
      have upper : metadata.virtualDiskSize ≤ 2 ^ 46 := valid.disk_le_max
      rw [← Option.mem_some_iff.mp found]
      omega
    chunkRatio_eq := rfl }
  metadata_eq := rfl
  valid := valid

/-- Thirty-one chunks of 4096 blocks and one block more. -/
def barelyStartedChunk : VhdxMetadata where
  blockSize := 0x100000
  hasParent := true
  virtualDiskSize := (31 * 4096 + 1) * 0x100000
  logicalSectorSize := 512

theorem barelyStartedChunk_valid : barelyStartedChunk.Valid :=
  VhdxMetadata.validate_eq_ok_iff.mp rfl

theorem passing_table_holds_indices_iff_barelyStartedChunk :
    (batCheckSizeFormula (regionsFor barelyStartedChunk 0x100000)
          (entryCountOf (regionsFor barelyStartedChunk 0x100000)) = .ok [] →
        IndicesBelow barelyStartedChunk
          (entryCountOf (regionsFor barelyStartedChunk 0x100000))) ↔
      (0x100000 = tableBytes barelyStartedChunk →
        LastChunkFits barelyStartedChunk) :=
  passing_table_holds_indices_iff
    (regionsFor_describes barelyStartedChunk_valid (by decide))

/-- The bitmap entry of a barely started chunk lies behind a table that
passes the size check. -/
theorem barelyStartedChunk_overruns :
    ∃ regions : ParsedRegions, regions.Describes barelyStartedChunk ∧
      batCheckSizeFormula regions (entryCountOf regions) = .ok [] ∧
        ¬ IndicesBelow barelyStartedChunk (entryCountOf regions) := by
  have describes :=
    @regionsFor_describes _ 0x100000 barelyStartedChunk_valid (by decide)
  refine ⟨_, describes, ?_, fun below => ?_⟩
  · rw [batCheckSizeFormula_of_describes describes]
    decide
  · have last := below (31 * 4096 * 0x100000) (by decide)
    exact absurd last.2 (by decide)

/-! ## The capacity check -/

/-- Payload entries among the first `entries` entries of a table. -/
def payloadSlots (entries cr : Nat) : Nat := entries - entries / (cr + 1)

/-- The blocks with an entry are those below the number of payload slots. -/
theorem le_payloadIndex_iff {metadata : VhdxMetadata} (valid : metadata.Valid)
    {entries block : Nat} :
    entries ≤ metadata.payloadIndex block ↔
      payloadSlots entries metadata.chunkRatioOf ≤ block := by
  have ratioPos := valid.chunkRatioOf_pos
  unfold VhdxMetadata.payloadIndex payloadSlots
  generalize metadata.chunkRatioOf = cr at ratioPos ⊢
  -- Both sides by whole chunks and a rest.
  have blockWhole := Nat.div_add_mod block cr
  have blockRest := Nat.mod_lt block ratioPos
  have entryWhole := Nat.div_add_mod entries (cr + 1)
  have entryRest : entries % (cr + 1) < cr + 1 :=
    Nat.mod_lt entries (Nat.succ_pos cr)
  rw [Nat.add_mul, Nat.one_mul] at entryWhole
  rcases Nat.lt_trichotomy (block / cr) (entries / (cr + 1)) with
    fewer | same | more
  · have chunks := Nat.mul_le_mul_left cr (Nat.succ_le_of_lt fewer)
    rw [Nat.mul_succ] at chunks
    omega
  · rw [← same] at entryWhole ⊢
    omega
  · have chunks := Nat.mul_le_mul_left cr (Nat.succ_le_of_lt more)
    rw [Nat.mul_succ] at chunks
    omega

/-- The check counts one payload slot too few unless the table ends with a
chunk. -/
theorem countedBlocks_eq (entries cr : Nat) :
    countedBlocks entries cr =
      if entries % (cr + 1) = 0 then payloadSlots entries cr
      else payloadSlots entries cr - 1 := by
  have whole := Nat.div_add_mod entries (cr + 1)
  have rest : entries % (cr + 1) < cr + 1 :=
    Nat.mod_lt entries (Nat.succ_pos cr)
  unfold countedBlocks payloadSlots
  generalize entries / (cr + 1) = chunks at whole ⊢
  generalize entries % (cr + 1) = slots at whole rest ⊢
  have scaled : entries * cr = (cr + 1) * (chunks * cr) + slots * cr := by
    rw [← whole]
    ring
  have split : (cr + 1) * chunks = chunks * cr + chunks := by ring
  rw [scaled, Nat.mul_add_div (Nat.succ_pos cr)]
  by_cases ends : slots = 0
  · rw [if_pos ends, ends, Nat.zero_mul, Nat.zero_div]
    omega
  · have rounded : slots * cr / (cr + 1) = slots - 1 := by
      apply Nat.div_eq_of_lt_le
      · rw [Nat.sub_mul, Nat.mul_succ]
        omega
      · rw [Nat.sub_add_cancel (by omega), Nat.mul_succ]
        omega
    rw [if_neg ends, rounded]
    omega

section CapacityCheck

variable {regions : ParsedRegions} {metadata : VhdxMetadata}

/-- Some finding says that the disk is declared too large. -/
def ReportsOverreported (findings : Findings) : Prop :=
  ∃ declared batCoverage,
    .virtualDiskSizeOverreported declared batCoverage ∈ findings

/-- Some byte of the disk has no payload entry. -/
def LacksEntry (metadata : VhdxMetadata) (entries : Nat) : Prop :=
  ∃ v < metadata.virtualDiskSize,
    entries ≤ metadata.payloadIndex (v / metadata.blockSize)

/-- The disk ends in the block of the last payload slot. -/
def EndsInLastSlot (metadata : VhdxMetadata) (entries : Nat) : Prop :=
  let slots := payloadSlots entries metadata.chunkRatioOf
  (slots - 1) * metadata.blockSize < metadata.virtualDiskSize ∧
    metadata.virtualDiskSize ≤ slots * metadata.blockSize

theorem lacksEntry_iff (valid : metadata.Valid) (entries : Nat) :
    LacksEntry metadata entries ↔
      payloadSlots entries metadata.chunkRatioOf * metadata.blockSize <
        metadata.virtualDiskSize := by
  have blockPos := valid.blockSize_pos
  constructor
  · rintro ⟨v, inside, missing⟩
    rw [le_payloadIndex_iff valid, Nat.le_div_iff_mul_le blockPos] at missing
    omega
  · intro beyond
    refine ⟨_, beyond, ?_⟩
    rw [le_payloadIndex_iff valid, Nat.mul_div_cancel _ blockPos]

theorem reportsOverreported_coverageFindings
    (describes : regions.Describes metadata) (present : List (Nat × Nat))
    (entries : Nat) :
    ReportsOverreported (coverageFindings regions present entries) ↔
      countedBlocks entries metadata.chunkRatioOf * metadata.blockSize <
        metadata.virtualDiskSize := by
  have blockPos := describes.valid.blockSize_pos
  rw [coverageFindings, describes.blockSize_eq, describes.vdiskSize_eq,
    describes.chunkRatio_eq]
  dsimp only
  rw [if_neg (by omega)]
  unfold ReportsOverreported underFindings overFindings
  constructor
  · rintro ⟨declared, coverage, member⟩
    split at member <;> split at member <;> simp_all
  · intro beyond
    dsimp only
    rw [if_pos beyond]
    exact ⟨_, _, List.mem_append_right _ List.mem_cons_self⟩

/-- The capacity check reports exactly the disks with a missing entry, except
for those that end in the last slot of a table with a started chunk. -/
theorem overreported_exact_iff (describes : regions.Describes metadata)
    {present : List (Nat × Nat)}
    (placed : ∀ block ∈ present, block.1 * mb < isizeMax) :
    (∃ findings,
      batCheckCoverage regions present (entryCountOf regions) =
          .ok findings ∧
        (ReportsOverreported findings ↔
          LacksEntry metadata (entryCountOf regions))) ↔
      entryCountOf regions % (metadata.chunkRatioOf + 1) = 0 ∨
        ¬ EndsInLastSlot metadata (entryCountOf regions) := by
  have valid := describes.valid
  have countLt := entryCountOf_lt describes.sound
  have fits := (arithmeticFits_of_describes describes).2
  have word : isizeMax + mb < wordCount := by decide
  have run := @batCheckCoverage_eq regions present (entryCountOf regions)
    describes.sound countLt fits fun block member => by
      have := placed block member
      rw [Nat.add_mul]
      omega
  have exact_iff : (∃ findings,
      batCheckCoverage regions present (entryCountOf regions) =
          .ok findings ∧
        (ReportsOverreported findings ↔
          LacksEntry metadata (entryCountOf regions))) ↔
      (ReportsOverreported
          (coverageFindings regions present (entryCountOf regions)) ↔
        LacksEntry metadata (entryCountOf regions)) := by
    rw [run]
    simp
  rw [exact_iff, reportsOverreported_coverageFindings describes,
    lacksEntry_iff valid, countedBlocks_eq]
  unfold EndsInLastSlot
  dsimp only
  by_cases ends : entryCountOf regions % (metadata.chunkRatioOf + 1) = 0
  · rw [if_pos ends]
    exact iff_of_true Iff.rfl (Or.inl ends)
  · rw [if_neg ends]
    have shorter := Nat.mul_le_mul_right metadata.blockSize
      (Nat.sub_le (payloadSlots (entryCountOf regions)
        metadata.chunkRatioOf) 1)
    constructor
    · intro same
      right
      rintro ⟨more, enough⟩
      exact absurd (same.mp more) (by omega)
    · intro condition
      have outside := condition.resolve_left ends
      constructor
      · intro more
        by_contra enough
        exact outside ⟨more, by omega⟩
      · intro missing
        omega

theorem overreported_exact_iff_barelyStartedChunk :
    (∃ findings,
      batCheckCoverage (regionsFor barelyStartedChunk 0x100000)
            [(4, 0), (5, 31 * 4097)]
            (entryCountOf (regionsFor barelyStartedChunk 0x100000)) =
          .ok findings ∧
        (ReportsOverreported findings ↔
          LacksEntry barelyStartedChunk
            (entryCountOf (regionsFor barelyStartedChunk 0x100000)))) ↔
      entryCountOf (regionsFor barelyStartedChunk 0x100000) %
            (barelyStartedChunk.chunkRatioOf + 1) = 0 ∨
        ¬ EndsInLastSlot barelyStartedChunk
          (entryCountOf (regionsFor barelyStartedChunk 0x100000)) :=
  overreported_exact_iff
    (regionsFor_describes barelyStartedChunk_valid (by decide)) (by decide)

/-- A disk of one block and a table of one entry, which is its own, are
reported. -/
theorem oneEntry_overreported :
    ∃ regions : ParsedRegions, regions.Describes oneBlockDisk ∧
      (∃ findings, batCheckCoverage regions [] (entryCountOf regions) =
          .ok findings ∧ ReportsOverreported findings) ∧
        ¬ LacksEntry oneBlockDisk (entryCountOf regions) := by
  have describes := @regionsFor_describes _ 8 oneBlockDisk_valid (by decide)
  refine ⟨_, describes, ⟨_, rfl, ?_⟩, ?_⟩
  · exact ⟨0x100000, 0, by decide⟩
  · rw [lacksEntry_iff oneBlockDisk_valid]
    decide

end CapacityCheck

end VhdxForensic
