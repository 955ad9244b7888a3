import VhdxForensic.Core.Metadata

/-!
# The block allocation table

The table interleaves one sector bitmap entry after every chunk of payload
entries. An entry packs a state in its low three bits and an offset in MiB
from bit 20 on.
-/

namespace VhdxForensic

open Rust Rust.Bytes Rust.Exec

namespace Bat

def payloadBlockNotPresent : Nat := 0
def payloadBlockUndefined : Nat := 1
def payloadBlockZero : Nat := 2
def payloadBlockUnmapped : Nat := 3
def payloadBlockFullyPresent : Nat := 6
def payloadBlockPartiallyPresent : Nat := 7
def sectorBitmapBlockPresent : Nat := 6
def mib : Nat := 0x100000

end Bat

/-- Where the bytes of a virtual offset live. -/
inductive ReadTarget where
  | file (fileOffset : Nat)
  | parent
  | zero
  | partialBlock (fileOffset bitmapByteFileOffset bitmapBit : Nat)
  deriving DecidableEq, Repr

structure Bat where
  /-- The raw 64-bit entries. -/
  entries : List Nat
  /-- The description by which they are looked up. -/
  metadata : VhdxMetadata
  deriving DecidableEq, Repr

namespace Bat

/-- Decode the table in `[batOffset, batOffset + batLen)`. -/
def parse (data : Bytes) (batOffset batLen : Nat) (metadata : VhdxMetadata) :
    Exec VhdxError Bat := do
  let stop ← add batOffset batLen
  failIf (data.length < stop) .batRegionMissing
  let batBytes ← slice data batOffset stop
  let entryCount := batBytes.length / 8
  let entries := (List.range entryCount).map fun i => leU64 batBytes (i * 8)
  return { entries, metadata }

/-- Resolve one virtual byte to where it is read from. -/
def readTargetForByte (bat : Bat) (virtualByte : Nat) :
    Exec VhdxError ReadTarget := do
  if virtualByte ≥ bat.metadata.virtualDiskSize then
    let sector ← div virtualByte bat.metadata.logicalSectorSize
    fail (.sectorOutOfRange sector bat.metadata.virtualDiskSize)
  else
    let blockSize := bat.metadata.blockSize
    let dataBlockIndex ← div virtualByte blockSize
    let offsetWithinBlock ← rem virtualByte blockSize
    let chunkRatio ← bat.metadata.chunkRatio
    let chunkIndex ← div dataBlockIndex chunkRatio
    let batIndex ← add dataBlockIndex chunkIndex
    let batEntry ← okOr bat.entries[batIndex]? (.blockNotPresent dataBlockIndex)
    let state := batEntry &&& 0b111
    if state = payloadBlockNotPresent then return .parent
    else if state = payloadBlockUndefined ∨ state = payloadBlockZero ∨
        state = payloadBlockUnmapped then return .zero
    else if ¬ (state = payloadBlockFullyPresent ∨
        state = payloadBlockPartiallyPresent) then
      fail (.invalidPayloadBlockState dataBlockIndex state)
    else
      let fileOffset ← okOr
        ((checkedMul (batEntry >>> 20) mib).bind
          fun o => checkedAdd o offsetWithinBlock) .addressOverflow
      if state = payloadBlockFullyPresent then return .file fileOffset
      else
        let bitmapBatIndex ← okOr
          (((checkedAdd chunkRatio 1).bind
            fun entriesPerChunk => checkedMul chunkIndex entriesPerChunk).bind
              fun index => checkedAdd index chunkRatio) .addressOverflow
        let bitmapEntry ← okOr bat.entries[bitmapBatIndex]?
          (.sectorBitmapNotPresent dataBlockIndex)
        failIf (bitmapEntry &&& 0b111 ≠ sectorBitmapBlockPresent)
          (.sectorBitmapNotPresent dataBlockIndex)
        let logicalSectorSize := bat.metadata.logicalSectorSize
        let sectorsPerBlock ← div blockSize logicalSectorSize
        let blockInChunk ← rem dataBlockIndex chunkRatio
        let sectorInBlock ← div offsetWithinBlock logicalSectorSize
        let sectorInChunk ← okOr
          ((checkedMul blockInChunk sectorsPerBlock).bind
            fun base => checkedAdd base sectorInBlock) .addressOverflow
        let bitmapByteFileOffset ← okOr
          ((checkedMul (bitmapEntry >>> 20) mib).bind
            fun offset => checkedAdd offset (sectorInChunk / 8))
          .addressOverflow
        return .partialBlock fileOffset bitmapByteFileOffset (sectorInChunk % 8)

/-! ## What parsing and resolving compute -/

/-- The entries stored in a table region. -/
def entriesOf (region : Bytes) : List Nat :=
  (List.range (region.length / 8)).map fun index => leU64 region (index * 8)

/-- Parsing a region reads all of its whole entries. -/
theorem parse_eq {region : Bytes} (metadata : VhdxMetadata)
    (allocated : region.length ≤ isizeMax) :
    parse region 0 region.length metadata =
      .ok { entries := entriesOf region, metadata } := by
  unfold isizeMax at allocated
  rw [parse, add_eq_ok (by unfold wordCount; omega), ok_bind, failIf_bind,
    if_neg (by omega), slice_eq_ok (by omega) (by omega), ok_bind,
    Nat.zero_add, Nat.sub_zero, window_zero_length]
  rfl

/-- The entries are 64-bit values. -/
theorem lt_of_mem_entriesOf {region : Bytes} {entry : Nat}
    (member : entry ∈ entriesOf region) : entry < 2 ^ 64 := by
  obtain ⟨index, -, rfl⟩ := List.mem_map.mp member
  exact leU64_lt _ _

theorem getElem?_entriesOf (region : Bytes) (index : Nat) :
    (entriesOf region)[index]? =
      if index < region.length / 8 then some (leU64 region (index * 8))
      else none := by
  unfold entriesOf
  rw [List.getElem?_map]
  split
  · rw [List.getElem?_range (by assumption)]
    rfl
  · rw [List.getElem?_eq_none (by
      rw [List.length_range]
      omega)]
    rfl

/-- The state packed into an entry. -/
def stateOf (entry : Nat) : Nat := entry % 8

/-- The container offset packed into an entry. -/
def offsetOf (entry : Nat) : Nat := entry / 2 ^ 20 * 2 ^ 20

/-- The state is in the three lowest bits. -/
theorem and_seven_eq_stateOf (entry : Nat) :
    entry &&& 0b111 = stateOf entry :=
  Nat.and_two_pow_sub_one_eq_mod entry 3

theorem offsetOf_le (entry : Nat) : offsetOf entry ≤ entry :=
  Nat.div_mul_le_self _ _

/-- The offset of an entry is a word. -/
theorem checkedMul_offset {entry : Nat} (entryLt : entry < 2 ^ 64) :
    checkedMul (entry >>> 20) mib = some (offsetOf entry) := by
  have atMost := offsetOf_le entry
  have packed : (entry >>> 20) * mib = offsetOf entry := by
    rw [Nat.shiftRight_eq_div_pow]
    rfl
  rw [checkedMul, packed, if_pos (by unfold wordCount; omega)]

end Bat

namespace VhdxMetadata

/-- Index of the payload entry of a block. -/
def payloadIndex (metadata : VhdxMetadata) (block : Nat) : Nat :=
  block + block / metadata.chunkRatioOf

/-- Index of the sector bitmap entry of the chunk of a block. -/
def bitmapIndex (metadata : VhdxMetadata) (block : Nat) : Nat :=
  block / metadata.chunkRatioOf * (metadata.chunkRatioOf + 1) +
    metadata.chunkRatioOf

/-- Position of a virtual byte's sector in the bitmap of its chunk. -/
def sectorInChunk (metadata : VhdxMetadata) (virtualByte : Nat) : Nat :=
  virtualByte / metadata.blockSize % metadata.chunkRatioOf *
      metadata.sectorsPerBlock +
    virtualByte % metadata.blockSize / metadata.logicalSectorSize

/-- A chunk has 2^23 sectors. -/
theorem Valid.sectorInChunk_lt {metadata : VhdxMetadata}
    (valid : metadata.Valid) (virtualByte : Nat) :
    metadata.sectorInChunk virtualByte < 2 ^ 23 := by
  have whole := valid.chunk_sectors
  have blockLt : virtualByte / metadata.blockSize % metadata.chunkRatioOf <
      metadata.chunkRatioOf := Nat.mod_lt _ valid.chunkRatioOf_pos
  have sectorLt : virtualByte % metadata.blockSize /
      metadata.logicalSectorSize < metadata.sectorsPerBlock := by
    apply Nat.div_lt_of_lt_mul
    rw [Nat.mul_comm, valid.sectorsPerBlock_mul]
    exact Nat.mod_lt _ valid.blockSize_pos
  unfold sectorInChunk
  calc virtualByte / metadata.blockSize % metadata.chunkRatioOf *
        metadata.sectorsPerBlock +
      virtualByte % metadata.blockSize / metadata.logicalSectorSize
      < virtualByte / metadata.blockSize % metadata.chunkRatioOf *
          metadata.sectorsPerBlock + metadata.sectorsPerBlock := by omega
    _ = (virtualByte / metadata.blockSize % metadata.chunkRatioOf + 1) *
          metadata.sectorsPerBlock := by ring
    _ ≤ metadata.chunkRatioOf * metadata.sectorsPerBlock :=
        Nat.mul_le_mul_right _ blockLt
    _ = 2 ^ 23 := whole

end VhdxMetadata

namespace Bat

/-- The payload entry of a virtual byte's block. -/
def payloadEntry (bat : Bat) (virtualByte : Nat) : Option Nat :=
  bat.entries[bat.metadata.payloadIndex
    (virtualByte / bat.metadata.blockSize)]?

/-- The sector bitmap entry of a virtual byte's chunk. -/
def bitmapEntry (bat : Bat) (virtualByte : Nat) : Option Nat :=
  bat.entries[bat.metadata.bitmapIndex
    (virtualByte / bat.metadata.blockSize)]?

/-- Container offset that a payload entry gives to a virtual byte. -/
def byteOffset (bat : Bat) (entry virtualByte : Nat) : Nat :=
  offsetOf entry + virtualByte % bat.metadata.blockSize

/-- Container offset of the bitmap byte for a virtual byte. -/
def bitmapByteOffset (bat : Bat) (entry virtualByte : Nat) : Nat :=
  offsetOf entry + bat.metadata.sectorInChunk virtualByte / 8

/-- A table over a valid description with entries of 64 bits. -/
structure Sound (bat : Bat) : Prop where
  /-- The description passed validation. -/
  valid : bat.metadata.Valid
  /-- The entries are 64-bit values. -/
  entries_lt : ∀ entry ∈ bat.entries, entry < 2 ^ 64

section Resolve

variable {bat : Bat} {virtualByte : Nat}

theorem Sound.payloadEntry_lt (sound : bat.Sound) {entry : Nat}
    (found : bat.payloadEntry virtualByte = some entry) :
    entry < 2 ^ 64 :=
  sound.entries_lt entry (List.mem_of_getElem? found)

theorem Sound.bitmapEntry_lt (sound : bat.Sound) {entry : Nat}
    (found : bat.bitmapEntry virtualByte = some entry) :
    entry < 2 ^ 64 :=
  sound.entries_lt entry (List.mem_of_getElem? found)

/-- The blocks of a valid disk are few. -/
theorem block_lt (sound : bat.Sound)
    (inside : virtualByte < bat.metadata.virtualDiskSize) :
    virtualByte / bat.metadata.blockSize < 2 ^ 46 := by
  have atMost := sound.valid.disk_le_max
  unfold VhdxMetadata.virtualDiskSizeMax at atMost
  have := Nat.div_le_self virtualByte bat.metadata.blockSize
  omega

/-- The sector bitmap of a partially present block, once its entry is
known. -/
def resolvePartial (bat : Bat) (virtualByte fileOffset : Nat) :
    Exec VhdxError ReadTarget :=
  let block := virtualByte / bat.metadata.blockSize
  match bat.bitmapEntry virtualByte with
  | none => fail (.sectorBitmapNotPresent block)
  | some entry =>
      if stateOf entry ≠ sectorBitmapBlockPresent then
        fail (.sectorBitmapNotPresent block)
      else if bat.bitmapByteOffset entry virtualByte < wordCount then
        .ok (.partialBlock fileOffset (bat.bitmapByteOffset entry virtualByte)
          (bat.metadata.sectorInChunk virtualByte % 8))
      else fail .addressOverflow

/-- The target of a virtual byte, once its payload entry is known. -/
def resolvePayload (bat : Bat) (virtualByte entry : Nat) :
    Exec VhdxError ReadTarget :=
  let block := virtualByte / bat.metadata.blockSize
  let state := stateOf entry
  if state = payloadBlockNotPresent then .ok .parent
  else if state = payloadBlockUndefined ∨ state = payloadBlockZero ∨
      state = payloadBlockUnmapped then .ok .zero
  else if ¬ (state = payloadBlockFullyPresent ∨
      state = payloadBlockPartiallyPresent) then
    fail (.invalidPayloadBlockState block state)
  else if bat.byteOffset entry virtualByte < wordCount then
    if state = payloadBlockFullyPresent then
      .ok (.file (bat.byteOffset entry virtualByte))
    else bat.resolvePartial virtualByte (bat.byteOffset entry virtualByte)
  else fail .addressOverflow

/-- Resolving a byte of the disk meets no machine limit except an address
that is not representable. -/
theorem readTargetForByte_eq (sound : bat.Sound)
    (inside : virtualByte < bat.metadata.virtualDiskSize) :
    bat.readTargetForByte virtualByte =
      match bat.payloadEntry virtualByte with
      | none =>
          fail (.blockNotPresent (virtualByte / bat.metadata.blockSize))
      | some entry => bat.resolvePayload virtualByte entry := by
  have blockLt := block_lt sound inside
  have ratioPos := sound.valid.chunkRatioOf_pos
  have ratioLe := sound.valid.chunkRatioOf_le
  have chunkLe : virtualByte / bat.metadata.blockSize /
      bat.metadata.chunkRatioOf ≤ virtualByte / bat.metadata.blockSize :=
    Nat.div_le_self _ _
  have sectorLt := sound.valid.sectorInChunk_lt virtualByte
  have blockPos := sound.valid.blockSize_pos
  have sectorPos := sound.valid.sectorSize_pos
  rw [readTargetForByte, if_neg (by omega)]
  dsimp only
  rw [div_eq_ok (by omega), ok_bind, rem_eq_ok (by omega), ok_bind,
    sound.valid.chunkRatio_eq, ok_bind, div_eq_ok (by omega), ok_bind,
    add_eq_ok (by unfold wordCount; omega), ok_bind]
  change (okOr (bat.payloadEntry virtualByte) _ >>= _) = _
  cases found : bat.payloadEntry virtualByte with
  | none => rfl
  | some entry =>
      have entryLt := sound.payloadEntry_lt found
      rw [okOr_some, ok_bind, and_seven_eq_stateOf, checkedMul_offset entryLt,
        Option.bind_some]
      change _ = bat.resolvePayload virtualByte entry
      unfold resolvePayload
      dsimp only
      by_cases absent : stateOf entry = payloadBlockNotPresent
      · rw [if_pos absent, if_pos absent]
        rfl
      rw [if_neg absent, if_neg absent]
      by_cases zero : stateOf entry = payloadBlockUndefined ∨
          stateOf entry = payloadBlockZero ∨
          stateOf entry = payloadBlockUnmapped
      · rw [if_pos zero, if_pos zero]
        rfl
      rw [if_neg zero, if_neg zero]
      by_cases present : stateOf entry = payloadBlockFullyPresent ∨
          stateOf entry = payloadBlockPartiallyPresent
      case neg => rw [if_pos present, if_pos present]
      rw [if_neg (not_not_intro present), if_neg (not_not_intro present),
        checkedAdd]
      change (okOr (if bat.byteOffset entry virtualByte < wordCount then
        some (bat.byteOffset entry virtualByte) else none) _ >>= _) = _
      by_cases representable :
          bat.byteOffset entry virtualByte < wordCount
      case neg => rw [if_neg representable, if_neg representable]; rfl
      rw [if_pos representable, if_pos representable, okOr_some, ok_bind]
      by_cases full : stateOf entry = payloadBlockFullyPresent
      · rw [if_pos full, if_pos full]
        rfl
      rw [if_neg full, if_neg full]
      have entriesPerChunk : virtualByte / bat.metadata.blockSize /
          bat.metadata.chunkRatioOf * (bat.metadata.chunkRatioOf + 1) ≤
            2 ^ 46 * 2 ^ 24 / 2 ^ 8 := by
        have whole : virtualByte / bat.metadata.blockSize /
            bat.metadata.chunkRatioOf * bat.metadata.chunkRatioOf ≤
              virtualByte / bat.metadata.blockSize :=
          Nat.div_mul_le_self _ _
        rw [Nat.mul_add, Nat.mul_one]
        omega
      rw [checkedAdd, if_pos (by unfold wordCount; omega), Option.bind_some,
        checkedMul, if_pos (by unfold wordCount; omega), Option.bind_some,
        checkedAdd, if_pos (by unfold wordCount; omega), okOr_some, ok_bind]
      unfold resolvePartial
      dsimp only
      change (okOr (bat.bitmapEntry virtualByte) _ >>= _) = _
      cases bitmapFound : bat.bitmapEntry virtualByte with
      | none => rfl
      | some bitmap =>
          have bitmapLt := sound.bitmapEntry_lt bitmapFound
          have inChunk : virtualByte / bat.metadata.blockSize %
              bat.metadata.chunkRatioOf * (bat.metadata.blockSize /
                bat.metadata.logicalSectorSize) +
              virtualByte % bat.metadata.blockSize /
                bat.metadata.logicalSectorSize =
              bat.metadata.sectorInChunk virtualByte := rfl
          have baseLt : virtualByte / bat.metadata.blockSize %
              bat.metadata.chunkRatioOf * (bat.metadata.blockSize /
                bat.metadata.logicalSectorSize) < 2 ^ 23 :=
            lt_of_le_of_lt (Nat.le_add_right _ _) sectorLt
          rw [okOr_some, ok_bind, failIf_bind, and_seven_eq_stateOf]
          dsimp only
          by_cases mapped : stateOf bitmap = sectorBitmapBlockPresent
          case neg => rw [if_pos mapped, if_pos mapped]
          rw [if_neg (not_not_intro mapped), if_neg (not_not_intro mapped),
            div_eq_ok (by omega), ok_bind, rem_eq_ok (by omega), ok_bind,
            div_eq_ok (by omega), ok_bind, checkedMul,
            if_pos (by unfold wordCount; omega), Option.bind_some, checkedAdd,
            inChunk, if_pos (by unfold wordCount; omega), okOr_some, ok_bind,
            checkedMul_offset bitmapLt, Option.bind_some, checkedAdd]
          change (okOr (if bat.bitmapByteOffset bitmap virtualByte <
            wordCount then some (bat.bitmapByteOffset bitmap virtualByte)
            else none) _ >>= _) = _
          split <;> rfl

end Resolve

end Bat
end VhdxForensic
