import VhdxForensic.Core.Base
import VhdxForensic.Rust.Loop

/-!
# Metadata

The metadata region holds a table of items found by GUID. Four of them
describe the virtual disk.
-/

namespace VhdxForensic

open Rust Rust.Bytes Rust.Exec

/-- `b"metadata"`. -/
def metadataTableSignature : Bytes :=
  [0x6D, 0x65, 0x74, 0x61, 0x64, 0x61, 0x74, 0x61]

namespace VhdxMetadata

def blockSizeMin : Nat := 1 <<< 20
def blockSizeMax : Nat := 256 <<< 20
def validSectorSizes : List Nat := [512, 4096]

/-- 64 TiB. -/
def virtualDiskSizeMax : Nat := 64 * (1 <<< 40)

end VhdxMetadata

def guidFileParameters : Bytes :=
  [0x37, 0x67, 0xA1, 0xCA, 0x36, 0xFA, 0x43, 0x4D,
   0xB3, 0xB6, 0x33, 0xF0, 0xAA, 0x44, 0xE7, 0x6B]

def guidVirtualDiskSize : Bytes :=
  [0x24, 0x42, 0xA5, 0x2F, 0x1B, 0xCD, 0x76, 0x48,
   0xB2, 0x11, 0x5B, 0xE0, 0x7A, 0x6C, 0xE3, 0x2C]

/-- The GUID that QEMU up to 5.2 wrote for the virtual disk size. -/
def guidVirtualDiskSizeQemuCompat : Bytes :=
  [0x24, 0x42, 0xA5, 0x2F, 0x1B, 0xCD, 0x76, 0x48,
   0xB2, 0x11, 0x5D, 0xBE, 0xD8, 0x3B, 0xF4, 0xB8]

def guidLogicalSectorSize : Bytes :=
  [0x1D, 0xBF, 0x41, 0x81, 0x6F, 0xA9, 0x09, 0x47,
   0xBA, 0x47, 0xF2, 0x33, 0xA8, 0xFA, 0xAB, 0x5F]

def guidPhysicalSectorSize : Bytes :=
  [0xC7, 0x48, 0xA3, 0xCD, 0x5D, 0x44, 0x71, 0x44,
   0x9C, 0xC9, 0xE9, 0x88, 0x52, 0x51, 0xC5, 0x56]

def guidVirtualDiskId : Bytes :=
  [0xAB, 0x12, 0xCA, 0xBE, 0xE6, 0xB2, 0x23, 0x45,
   0x93, 0xEF, 0xC3, 0x09, 0xE0, 0x00, 0xC7, 0x46]

def guidParentLocator : Bytes :=
  [0x2D, 0x5F, 0xD3, 0xA8, 0x0B, 0xB3, 0x4D, 0x45,
   0xAB, 0xF7, 0xD3, 0xD8, 0x48, 0x34, 0xAB, 0x0C]

/-- The decoded description of the virtual disk. -/
structure VhdxMetadata where
  /-- Bytes of a payload block. -/
  blockSize : Nat
  /-- The disk is a differencing disk. -/
  hasParent : Bool
  /-- Bytes of the disk. -/
  virtualDiskSize : Nat
  /-- Bytes of a sector. -/
  logicalSectorSize : Nat
  deriving DecidableEq, Repr

/-- `u32::count_ones`. -/
def countOnes (value : Nat) : Nat := go 32 value
where
  /-- Number of ones among the `width` low bits. -/
  go : Nat → Nat → Nat
    | 0, _ => 0
    | width + 1, value => value % 2 + go width (value / 2)

namespace VhdxMetadata

/-- How many data block entries precede each sector bitmap entry. -/
def chunkRatio {ε : Type} (metadata : VhdxMetadata) : Exec ε Nat := do
  let bits ← mul (1 <<< 23) metadata.logicalSectorSize
  div bits metadata.blockSize

def validate (metadata : VhdxMetadata) : Exec VhdxError Unit := do
  failIf (metadata.blockSize < blockSizeMin ∨
      metadata.blockSize > blockSizeMax)
    (.invalidMetadata "BlockSize must be in [1 MB, 256 MB]")
  failIf (countOnes metadata.blockSize ≠ 1)
    (.invalidMetadata "BlockSize must be a power of two")
  failIf (metadata.logicalSectorSize ∉ validSectorSizes)
    (.invalidMetadata "LogicalSectorSize must be 512 or 4096")
  failIf (metadata.virtualDiskSize = 0)
    (.invalidMetadata "VirtualDiskSize cannot be zero")
  failIf (metadata.virtualDiskSize > virtualDiskSizeMax)
    (.invalidMetadata "VirtualDiskSize exceeds the 64 TiB spec limit")
  let remainder ← rem metadata.virtualDiskSize metadata.logicalSectorSize
  failIf (remainder ≠ 0)
    (.invalidMetadata
      "VirtualDiskSize must be a multiple of LogicalSectorSize")

end VhdxMetadata

/-- The items found so far. -/
structure MetadataItems where
  /-- From the file parameters. -/
  blockSize : Option Nat := none
  /-- From the flags of the file parameters. -/
  hasParent : Bool := false
  /-- From the item of either GUID. -/
  virtualDiskSize : Option Nat := none
  /-- Optional, 512 bytes if absent. -/
  logicalSectorSize : Option Nat := none
  deriving DecidableEq, Repr

/-- Take over one item by its GUID if it is long enough. -/
def MetadataItems.record (items : MetadataItems) (guid itemData : Bytes) :
    MetadataItems :=
  if guid = guidFileParameters ∧ itemData.length ≥ 8 then
    let flags := leU32 itemData 4
    { items with
      blockSize := some (leU32 itemData 0)
      hasParent := flags &&& 2 ≠ 0 }
  else if (guid = guidVirtualDiskSize ∨
      guid = guidVirtualDiskSizeQemuCompat) ∧ itemData.length ≥ 8 then
    { items with virtualDiskSize := some (leU64 itemData 0) }
  else if guid = guidLogicalSectorSize ∧ itemData.length ≥ 4 then
    { items with logicalSectorSize := some (leU32 itemData 0) }
  else items

/-- One metadata table entry; items that leave the data are skipped. -/
def metadataStep (data region : Bytes) (start : Nat)
    (index : Nat) (items : MetadataItems) :
    Exec VhdxError (ForInStep MetadataItems) := do
  let base ← add 32 (index * 32)
  let entryEnd ← add base 32
  if entryEnd > region.length then return .done items
  else
    let guid ← slice region base (base + 16)
    let itemOffset := leU32 region (base + 16)
    let itemLen := leU32 region (base + 20)
    let dataStart ← add start itemOffset
    let dataEnd ← add dataStart itemLen
    if data.length < dataEnd then return .yield items
    else
      let itemData ← slice data dataStart dataEnd
      return .yield (items.record guid itemData)

/-- Parse the metadata region. -/
def parseMetadata (data : Bytes) (regionOffset regionLen : Nat) :
    Exec VhdxError VhdxMetadata := do
  let start := regionOffset
  let stop ← add start regionLen
  let tableStart ← add start 8
  failIf (data.length < stop ∨ stop < tableStart)
    (.metadataMissing "region out of bounds")
  let region ← slice data start stop
  let signature ← slice region 0 8
  failIf (signature ≠ metadataTableSignature)
    (.metadataMissing "bad metadata signature")
  let entryCount := leU16 region 10
  let items ← forRange entryCount (metadataStep data region start) {}
  let blockSize ← okOr items.blockSize (.metadataMissing "BlockSize")
  let virtualDiskSize ←
    okOr items.virtualDiskSize (.metadataMissing "VirtualDiskSize")
  return {
    blockSize
    hasParent := items.hasParent
    virtualDiskSize
    logicalSectorSize := items.logicalSectorSize.getD 512 }

/-! ## What parsing computes -/

/-- Number of table entries that lie in the region. -/
def metadataEntryCount (region : Bytes) : Nat :=
  min (leU16 region 10) ((region.length - 32) / 32)

/-- GUID and content of the item at `index`, when it lies in the region. -/
def metadataItem (region : Bytes) (index : Nat) : Option (Bytes × Bytes) :=
  let base := 32 + index * 32
  let itemOffset := leU32 region (base + 16)
  let itemLen := leU32 region (base + 20)
  if itemOffset + itemLen ≤ region.length then
    some (window region base 16, window region itemOffset itemLen)
  else none

/-- The items found so far together with the item at `index`. -/
def recordItem (region : Bytes) (index : Nat) (items : MetadataItems) :
    MetadataItems :=
  match metadataItem region index with
  | some (guid, itemData) => items.record guid itemData
  | none => items

/-- The last usable item of every kind. -/
def metadataItems (region : Bytes) : MetadataItems :=
  foldRange (recordItem region) (metadataEntryCount region) {}

/-- The description that the found items give. -/
def MetadataItems.resolve (items : MetadataItems) :
    Exec VhdxError VhdxMetadata := do
  let blockSize ← okOr items.blockSize (.metadataMissing "BlockSize")
  let virtualDiskSize ←
    okOr items.virtualDiskSize (.metadataMissing "VirtualDiskSize")
  return {
    blockSize
    hasParent := items.hasParent
    virtualDiskSize
    logicalSectorSize := items.logicalSectorSize.getD 512 }

section Parse

variable {region : Bytes}

/-- An item that the region holds is recorded. -/
theorem metadataStep_eq {index : Nat} (items : MetadataItems)
    (allocated : region.length ≤ isizeMax)
    (inside : 32 + index * 32 + 32 ≤ region.length) :
    metadataStep region region 0 index items =
      .ok (.yield (recordItem region index items)) := by
  have offsetLt := leU32_lt region (32 + index * 32 + 16)
  have lengthLt := leU32_lt region (32 + index * 32 + 20)
  unfold isizeMax at allocated
  rw [metadataStep, add_eq_ok (by unfold wordCount; omega), ok_bind,
    add_eq_ok (by unfold wordCount; omega), ok_bind, if_neg (by omega),
    slice_eq_ok (by omega) (by omega), ok_bind, Nat.add_sub_cancel_left]
  dsimp only
  rw [add_eq_ok (by unfold wordCount; omega), ok_bind,
    add_eq_ok (by unfold wordCount; omega), ok_bind, Nat.zero_add,
    recordItem, metadataItem]
  by_cases leaves : region.length < leU32 region (32 + index * 32 + 16) +
      leU32 region (32 + index * 32 + 20)
  · rw [if_pos leaves, if_neg (by omega)]
    rfl
  · rw [if_neg leaves, if_pos (by omega), slice_eq_ok (by omega) (by omega),
      ok_bind, Nat.add_sub_cancel_left]
    rfl

/-- The loop ends at the end of the region. -/
theorem metadataStep_ends {index : Nat} (items : MetadataItems)
    (indexSmall : index < 2 ^ 16)
    (outside : region.length < 32 + index * 32 + 32) :
    metadataStep region region 0 index items = .ok (.done items) := by
  rw [metadataStep, add_eq_ok (by unfold wordCount; omega), ok_bind,
    add_eq_ok (by unfold wordCount; omega), ok_bind, if_pos (by omega)]
  rfl

/-- Parsing a region that is a string of its own. -/
theorem parseMetadata_eq (allocated : region.length ≤ isizeMax) :
    parseMetadata region 0 region.length =
      if region.length < 8 then
        fail (.metadataMissing "region out of bounds")
      else if window region 0 8 ≠ metadataTableSignature then
        fail (.metadataMissing "bad metadata signature")
      else (metadataItems region).resolve := by
  have countLt := leU16_lt region 10
  have allocatedWord : region.length < wordCount := by
    unfold isizeMax at allocated
    unfold wordCount
    omega
  have loop : forRange (leU16 region 10)
      (metadataStep region region 0) {} = .ok (metadataItems region) := by
    apply forRange_eq_fold_of_break
    · exact min_le_left _ _
    · intro index indexLt items
      apply metadataStep_eq items allocated
      unfold metadataEntryCount at indexLt
      omega
    · intro broke items
      apply metadataStep_ends items
      · unfold metadataEntryCount
        omega
      · unfold metadataEntryCount at *
        omega
  rw [parseMetadata]
  dsimp only
  rw [add_eq_ok (by omega), ok_bind, add_eq_ok (by decide), ok_bind,
    failIf_bind, Nat.zero_add, Nat.zero_add]
  by_cases short : region.length < 8
  · rw [if_pos (Or.inr short), if_pos short]
  · rw [if_neg (by omega), if_neg short, slice_eq_ok (by omega) le_rfl,
      ok_bind, Nat.sub_zero, window_zero_length,
      slice_eq_ok (by omega) (by omega), ok_bind, failIf_bind]
    split
    · rfl
    · rw [loop]
      rfl

/-- Resolving the items settles. -/
theorem settles_resolve (items : MetadataItems) : Settles items.resolve :=
  (Settles.okOr _ _).bind fun _ _ =>
    (Settles.okOr _ _).bind fun _ _ => settles_ok _

/-- Parsing a metadata region settles. -/
theorem settles_parseMetadata (allocated : region.length ≤ isizeMax) :
    Settles (parseMetadata region 0 region.length) := by
  rw [parseMetadata_eq allocated]
  split
  · exact settles_fail _
  · split
    · exact settles_fail _
    · exact settles_resolve _

end Parse

/-! ## Valid descriptions -/

namespace VhdxMetadata

/-- The description passes every check of `validate`. -/
structure Valid (metadata : VhdxMetadata) : Prop where
  /-- Blocks are not too small. -/
  blockSizeMin_le : blockSizeMin ≤ metadata.blockSize
  /-- Blocks are not too large. -/
  blockSize_le_max : metadata.blockSize ≤ blockSizeMax
  /-- The size of a block is a power of two. -/
  oneBit : countOnes metadata.blockSize = 1
  /-- The size of a sector is one of the two allowed ones. -/
  sectorSize : metadata.logicalSectorSize ∈ validSectorSizes
  /-- The disk has bytes. -/
  diskNonempty : metadata.virtualDiskSize ≠ 0
  /-- The disk is not too large. -/
  disk_le_max : metadata.virtualDiskSize ≤ virtualDiskSizeMax
  /-- The disk ends with a sector. -/
  wholeSectors :
    metadata.virtualDiskSize % metadata.logicalSectorSize = 0

theorem sectorSize_cases {metadata : VhdxMetadata}
    (known : metadata.logicalSectorSize ∈ validSectorSizes) :
    metadata.logicalSectorSize = 512 ∨ metadata.logicalSectorSize = 4096 := by
  simpa [validSectorSizes] using known

/-- Validation succeeds on valid descriptions and fails on all others. -/
theorem validate_cases (metadata : VhdxMetadata) :
    metadata.Valid ∧ metadata.validate = .ok () ∨
      ¬ metadata.Valid ∧ ∃ e, metadata.validate = fail e := by
  unfold validate
  by_cases range : metadata.blockSize < blockSizeMin ∨
      metadata.blockSize > blockSizeMax
  · right
    refine ⟨fun valid => ?_, _, by rw [failIf_bind, if_pos range]⟩
    have := valid.blockSizeMin_le
    have := valid.blockSize_le_max
    omega
  rw [failIf_bind, if_neg range, failIf_bind]
  by_cases oneBit : countOnes metadata.blockSize = 1
  case neg =>
    right
    exact ⟨fun valid => oneBit valid.oneBit, _, by rw [if_pos oneBit]⟩
  rw [if_neg (not_not_intro oneBit), failIf_bind]
  by_cases known : metadata.logicalSectorSize ∈ validSectorSizes
  case neg =>
    right
    exact ⟨fun valid => known valid.sectorSize, _, by rw [if_pos known]⟩
  rw [if_neg (not_not_intro known), failIf_bind]
  by_cases empty : metadata.virtualDiskSize = 0
  · right
    exact ⟨fun valid => valid.diskNonempty empty, _, by rw [if_pos empty]⟩
  rw [if_neg empty, failIf_bind]
  by_cases large : metadata.virtualDiskSize > virtualDiskSizeMax
  · right
    refine ⟨fun valid => ?_, _, by rw [if_pos large]⟩
    have := valid.disk_le_max
    omega
  rw [if_neg large, rem_eq_ok (by
    rcases sectorSize_cases known with small | big <;> omega), ok_bind,
    failIf]
  by_cases whole : metadata.virtualDiskSize % metadata.logicalSectorSize = 0
  · left
    rw [if_neg (not_not_intro whole)]
    exact ⟨⟨by omega, by omega, oneBit, known, empty, by omega, whole⟩, rfl⟩
  · right
    rw [if_pos whole]
    exact ⟨fun valid => whole valid.wholeSectors, _, rfl⟩

/-- Validating settles. -/
theorem settles_validate (metadata : VhdxMetadata) :
    Settles metadata.validate := by
  rcases validate_cases metadata with ⟨-, passes⟩ | ⟨-, e, fails⟩
  · exact .of_eq_ok passes
  · rw [fails]
    exact settles_fail e

/-- Validation accepts the valid descriptions. -/
theorem validate_eq_ok_iff {metadata : VhdxMetadata} :
    metadata.validate = .ok () ↔ metadata.Valid := by
  rcases validate_cases metadata with ⟨valid, passes⟩ | ⟨invalid, e, fails⟩
  · exact iff_of_true passes valid
  · refine iff_of_false ?_ invalid
    rw [fails]
    exact fail_ne_ok e ()

end VhdxMetadata

/-- A number without ones is zero. -/
theorem countOnes_go_eq_zero {width value : Nat}
    (noOnes : countOnes.go width value = 0) (fits : value < 2 ^ width) :
    value = 0 := by
  induction width generalizing value with
  | zero => simpa using fits
  | succ width inductionHypothesis =>
      unfold countOnes.go at noOnes
      have half : value / 2 = 0 := by
        apply inductionHypothesis
        · omega
        · rw [pow_succ] at fits
          omega
      omega

/-- A number with a single one is a power of two. -/
theorem exists_eq_two_pow_of_countOnes_go {width value : Nat}
    (oneBit : countOnes.go width value = 1) (fits : value < 2 ^ width) :
    ∃ exponent, value = 2 ^ exponent := by
  induction width generalizing value with
  | zero => simp [countOnes.go] at oneBit
  | succ width inductionHypothesis =>
      unfold countOnes.go at oneBit
      have halfFits : value / 2 < 2 ^ width := by
        rw [pow_succ] at fits
        omega
      by_cases odd : value % 2 = 1
      · have half : value / 2 = 0 :=
          countOnes_go_eq_zero (by omega) halfFits
        exact ⟨0, by omega⟩
      · obtain ⟨exponent, half⟩ : ∃ exponent, value / 2 = 2 ^ exponent :=
          inductionHypothesis (by omega) halfFits
        exact ⟨exponent + 1, by rw [pow_succ]; omega⟩

namespace VhdxMetadata

variable {metadata : VhdxMetadata}

/-- A valid block size is a power of two from 1 MiB to 256 MiB. -/
theorem Valid.exists_blockSize_eq (valid : metadata.Valid) :
    ∃ exponent, 20 ≤ exponent ∧ exponent ≤ 28 ∧
      metadata.blockSize = 2 ^ exponent := by
  have lower := valid.blockSizeMin_le
  have upper := valid.blockSize_le_max
  have fits : metadata.blockSize < 2 ^ 32 := by
    unfold blockSizeMax at upper
    omega
  obtain ⟨exponent, power⟩ :=
    exists_eq_two_pow_of_countOnes_go valid.oneBit fits
  rw [power] at lower upper
  refine ⟨exponent, ?_, ?_, power⟩
  · exact (Nat.pow_le_pow_iff_right (by norm_num)).mp
      (show 2 ^ 20 ≤ 2 ^ exponent from lower)
  · exact (Nat.pow_le_pow_iff_right (by norm_num)).mp
      (show 2 ^ exponent ≤ 2 ^ 28 from upper)

/-- A valid sector size is a power of two, 512 or 4096. -/
theorem Valid.exists_sectorSize_eq (valid : metadata.Valid) :
    ∃ exponent, 9 ≤ exponent ∧ exponent ≤ 12 ∧
      metadata.logicalSectorSize = 2 ^ exponent := by
  rcases sectorSize_cases valid.sectorSize with small | large
  · exact ⟨9, by omega, by omega, small⟩
  · exact ⟨12, by omega, by omega, large⟩

/-- Payload entries of one chunk, as a number. -/
def chunkRatioOf (metadata : VhdxMetadata) : Nat :=
  2 ^ 23 * metadata.logicalSectorSize / metadata.blockSize

/-- The chunk ratio of a valid description is computed without errors. -/
theorem Valid.chunkRatio_eq {ε : Type} (valid : metadata.Valid) :
    (metadata.chunkRatio : Exec ε Nat) = .ok metadata.chunkRatioOf := by
  have lower := valid.blockSizeMin_le
  unfold blockSizeMin at lower
  rw [chunkRatio, mul_eq_ok (by
    rcases sectorSize_cases valid.sectorSize with small | large
    · rw [small]
      decide
    · rw [large]
      decide), ok_bind, div_eq_ok (by omega)]
  rfl

/-- Sectors of one block, as a number. -/
def sectorsPerBlock (metadata : VhdxMetadata) : Nat :=
  metadata.blockSize / metadata.logicalSectorSize

/-- A chunk spans the sectors of one sector bitmap block. -/
theorem Valid.chunk_sectors (valid : metadata.Valid) :
    metadata.chunkRatioOf * metadata.sectorsPerBlock = 2 ^ 23 := by
  obtain ⟨blockExponent, blockLower, blockUpper, blockSize⟩ :=
    valid.exists_blockSize_eq
  obtain ⟨sectorExponent, sectorLower, sectorUpper, sectorSize⟩ :=
    valid.exists_sectorSize_eq
  rw [chunkRatioOf, sectorsPerBlock, blockSize, sectorSize, ← pow_add,
    Nat.pow_div (by omega) (by norm_num), Nat.pow_div (by omega)
    (by norm_num), ← pow_add]
  congr 1
  omega

theorem Valid.chunkRatioOf_pos (valid : metadata.Valid) :
    0 < metadata.chunkRatioOf := by
  have whole := valid.chunk_sectors
  by_contra zero
  rw [show metadata.chunkRatioOf = 0 by omega] at whole
  omega

/-- No chunk has more than 2^23 blocks. -/
theorem Valid.chunkRatioOf_le (valid : metadata.Valid) :
    metadata.chunkRatioOf ≤ 2 ^ 23 := by
  have whole := valid.chunk_sectors
  by_contra large
  have perBlock : 0 < metadata.sectorsPerBlock := by
    by_contra zero
    rw [show metadata.sectorsPerBlock = 0 by omega] at whole
    omega
  nlinarith

/-- Blocks consist of whole sectors. -/
theorem Valid.sectorsPerBlock_mul (valid : metadata.Valid) :
    metadata.sectorsPerBlock * metadata.logicalSectorSize =
      metadata.blockSize := by
  obtain ⟨blockExponent, blockLower, -, blockSize⟩ :=
    valid.exists_blockSize_eq
  obtain ⟨sectorExponent, -, sectorUpper, sectorSize⟩ :=
    valid.exists_sectorSize_eq
  unfold sectorsPerBlock
  apply Nat.div_mul_cancel
  rw [blockSize, sectorSize]
  exact pow_dvd_pow 2 (by omega)

theorem Valid.sectorSize_pos (valid : metadata.Valid) :
    0 < metadata.logicalSectorSize := by
  rcases sectorSize_cases valid.sectorSize with small | large <;> omega

theorem Valid.blockSize_pos (valid : metadata.Valid) :
    0 < metadata.blockSize := by
  have lower := valid.blockSizeMin_le
  unfold blockSizeMin at lower
  omega

end VhdxMetadata
end VhdxForensic
