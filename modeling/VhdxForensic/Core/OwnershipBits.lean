import VhdxForensic.Core.Bat
import VhdxForensic.Rust.Interleave

/-!
# Addresses of ownership bits

A partially present block has one bit per sector in the sector bitmap of its
chunk. The bit is addressed by the table entry of the bitmap, a byte of the
bitmap block and a position in the byte. All three are the digits of the
sector number, so sectors and addresses correspond to each other.
-/

namespace VhdxForensic

open Rust Rust.Bytes Rust.Exec

/-- Where the ownership bit of a sector stands. -/
structure BitAddress where
  /-- Index of the bitmap block in the table. -/
  batIndex : Nat
  /-- Byte of the bitmap block. -/
  byteInBlock : Nat
  /-- Bit of this byte. -/
  bit : Nat
  deriving DecidableEq, Repr

namespace VhdxMetadata

/-- Address of the ownership bit of a virtual byte. -/
def bitAddress (metadata : VhdxMetadata) (virtualByte : Nat) : BitAddress where
  batIndex := metadata.bitmapIndex (virtualByte / metadata.blockSize)
  byteInBlock := metadata.sectorInChunk virtualByte / 8
  bit := metadata.sectorInChunk virtualByte % 8

/-- Number of the sector of a virtual byte. -/
def sectorOf (metadata : VhdxMetadata) (virtualByte : Nat) : Nat :=
  virtualByte / metadata.logicalSectorSize

end VhdxMetadata

/-- The target of a byte in a partially present block with the given entry,
once the address of its ownership bit is known. -/
def Bat.partialTarget (bat : Bat) (virtualByte entry : Nat)
    (address : BitAddress) : Exec VhdxError ReadTarget :=
  let block := virtualByte / bat.metadata.blockSize
  if bat.byteOffset entry virtualByte < wordCount then
    match bat.entries[address.batIndex]? with
    | none => fail (.sectorBitmapNotPresent block)
    | some bitmap =>
        if stateOf bitmap ≠ sectorBitmapBlockPresent then
          fail (.sectorBitmapNotPresent block)
        else if offsetOf bitmap + address.byteInBlock < wordCount then
          .ok (.partialBlock (bat.byteOffset entry virtualByte)
            (offsetOf bitmap + address.byteInBlock) address.bit)
        else fail .addressOverflow
  else fail .addressOverflow

/-! ## Digits of the sector number -/

namespace VhdxMetadata

variable {metadata : VhdxMetadata}

theorem bitmapIndex_eq_extraSlot (metadata : VhdxMetadata) (block : Nat) :
    metadata.bitmapIndex block =
      Interleave.extraSlot metadata.chunkRatioOf
        (block / metadata.chunkRatioOf) := rfl

theorem Valid.payloadIndex_injective (valid : metadata.Valid) :
    Function.Injective metadata.payloadIndex :=
  Interleave.itemSlot_injective valid.chunkRatioOf_pos

theorem Valid.bitmapIndex_ne_payloadIndex (valid : metadata.Valid)
    (block other : Nat) :
    metadata.bitmapIndex block ≠ metadata.payloadIndex other :=
  Interleave.extraSlot_ne_itemSlot valid.chunkRatioOf_pos _ _

/-- The block of a byte is the block of its sector. -/
theorem Valid.block_eq (valid : metadata.Valid) (virtualByte : Nat) :
    virtualByte / metadata.blockSize =
      metadata.sectorOf virtualByte / metadata.sectorsPerBlock := by
  rw [sectorOf, Nat.div_div_eq_div_mul, Nat.mul_comm,
    valid.sectorsPerBlock_mul]

/-- The sector inside the block is the remainder of the sector number. -/
theorem Valid.sectorInBlock_eq (valid : metadata.Valid) (virtualByte : Nat) :
    virtualByte % metadata.blockSize / metadata.logicalSectorSize =
      metadata.sectorOf virtualByte % metadata.sectorsPerBlock := by
  rw [sectorOf, ← valid.sectorsPerBlock_mul, Nat.mul_comm,
    Nat.mod_mul_right_div_self]

/-- A chunk has 2^23 sectors. -/
theorem Valid.chunk_eq (valid : metadata.Valid) (virtualByte : Nat) :
    virtualByte / metadata.blockSize / metadata.chunkRatioOf =
      metadata.sectorOf virtualByte / 2 ^ 23 := by
  rw [valid.block_eq, Nat.div_div_eq_div_mul, Nat.mul_comm,
    valid.chunk_sectors]

theorem Valid.sectorInChunk_eq (valid : metadata.Valid) (virtualByte : Nat) :
    metadata.sectorInChunk virtualByte =
      metadata.sectorOf virtualByte % 2 ^ 23 := by
  rw [sectorInChunk, valid.sectorInBlock_eq, valid.block_eq,
    ← valid.chunk_sectors, Nat.mul_comm metadata.chunkRatioOf, Nat.mod_mul,
    Nat.mul_comm metadata.sectorsPerBlock, Nat.add_comm]

theorem Valid.bitmapIndex_eq_iff (valid : metadata.Valid) (v w : Nat) :
    metadata.bitmapIndex (v / metadata.blockSize) =
        metadata.bitmapIndex (w / metadata.blockSize) ↔
      metadata.sectorOf v / 2 ^ 23 = metadata.sectorOf w / 2 ^ 23 := by
  rw [bitmapIndex_eq_extraSlot, bitmapIndex_eq_extraSlot,
    (Interleave.extraSlot_injective _).eq_iff, valid.chunk_eq, valid.chunk_eq]

theorem Valid.bit_eq (valid : metadata.Valid) (virtualByte : Nat) :
    (metadata.bitAddress virtualByte).bit =
      metadata.sectorOf virtualByte % 8 := by
  change metadata.sectorInChunk virtualByte % 8 = _
  rw [valid.sectorInChunk_eq]
  omega

/-- A byte of a sector bitmap stands for the sectors with one quotient by
eight. -/
theorem Valid.bitmapByte_eq_iff (valid : metadata.Valid) (v w : Nat) :
    (metadata.bitAddress v).batIndex = (metadata.bitAddress w).batIndex ∧
        (metadata.bitAddress v).byteInBlock =
          (metadata.bitAddress w).byteInBlock ↔
      metadata.sectorOf v / 8 = metadata.sectorOf w / 8 := by
  change metadata.bitmapIndex (v / metadata.blockSize) =
        metadata.bitmapIndex (w / metadata.blockSize) ∧
      metadata.sectorInChunk v / 8 = metadata.sectorInChunk w / 8 ↔ _
  rw [valid.bitmapIndex_eq_iff, valid.sectorInChunk_eq,
    valid.sectorInChunk_eq]
  omega

/-- Sectors and addresses of ownership bits correspond to each other. -/
theorem Valid.bitAddress_eq_iff (valid : metadata.Valid) (v w : Nat) :
    metadata.bitAddress v = metadata.bitAddress w ↔
      metadata.sectorOf v = metadata.sectorOf w := by
  rw [BitAddress.mk.injEq, ← and_assoc, valid.bitmapByte_eq_iff,
    valid.bit_eq, valid.bit_eq]
  omega

/-- A block has whole bytes of the sector bitmap. -/
theorem Valid.eight_dvd_sectorsPerBlock (valid : metadata.Valid) :
    8 ∣ metadata.sectorsPerBlock := by
  obtain ⟨blockExponent, blockLower, -, blockSize⟩ :=
    valid.exists_blockSize_eq
  obtain ⟨sectorExponent, -, sectorUpper, sectorSize⟩ :=
    valid.exists_sectorSize_eq
  rw [sectorsPerBlock, blockSize, sectorSize,
    Nat.pow_div (by omega) (by norm_num)]
  exact pow_dvd_pow 2 (show 3 ≤ blockExponent - sectorExponent by omega)

/-- Sectors that share a byte of the bitmap are in one block. -/
theorem Valid.block_eq_of_bitmapByte_eq (valid : metadata.Valid) {v w : Nat}
    (same : metadata.sectorOf v / 8 = metadata.sectorOf w / 8) :
    v / metadata.blockSize = w / metadata.blockSize := by
  obtain ⟨bytes, sectors⟩ := valid.eight_dvd_sectorsPerBlock
  rw [valid.block_eq, valid.block_eq, sectors, ← Nat.div_div_eq_div_mul,
    ← Nat.div_div_eq_div_mul, same]

/-- Payload entry and offset in the block determine the byte. -/
theorem Valid.eq_of_place_eq (valid : metadata.Valid) {v w : Nat}
    (entry : metadata.payloadIndex (v / metadata.blockSize) =
      metadata.payloadIndex (w / metadata.blockSize))
    (offset : v % metadata.blockSize = w % metadata.blockSize) : v = w := by
  have block := valid.payloadIndex_injective entry
  rw [← Nat.div_add_mod v metadata.blockSize,
    ← Nat.div_add_mod w metadata.blockSize, block, offset]

end VhdxMetadata

/-! ## The addresses the reader computes -/

/-- The reader finds the owner of a byte of a partially present block at its
address. -/
theorem Bat.readTargetForByte_of_partial {bat : Bat} {virtualByte entry : Nat}
    (sound : bat.Sound)
    (inside : virtualByte < bat.metadata.virtualDiskSize)
    (found : bat.payloadEntry virtualByte = some entry)
    (shared : stateOf entry = payloadBlockPartiallyPresent) :
    bat.readTargetForByte virtualByte =
      bat.partialTarget virtualByte entry
        (bat.metadata.bitAddress virtualByte) := by
  rw [readTargetForByte_eq sound inside, found]
  change bat.resolvePayload virtualByte entry = _
  unfold resolvePayload
  dsimp only
  rw [shared, if_neg (by decide), if_neg (by decide),
    if_neg (not_not_intro (Or.inr rfl)), partialTarget]
  by_cases representable : bat.byteOffset entry virtualByte < wordCount
  · rw [if_pos representable, if_pos representable, if_neg (by decide),
      resolvePartial]
    rfl
  · rw [if_neg representable, if_neg representable]

/-- What makes the addresses of ownership bits unique. -/
structure VhdxMetadata.OwnershipBitsUnique (metadata : VhdxMetadata) :
    Prop where
  /-- The reader looks at the bit at the address. -/
  resolved : ∀ bat : Bat, bat.metadata = metadata →
    (∀ entry ∈ bat.entries, entry < 2 ^ 64) →
    ∀ v < metadata.virtualDiskSize, ∀ entry,
      bat.entries[metadata.payloadIndex (v / metadata.blockSize)]? =
        some entry →
      Bat.stateOf entry = Bat.payloadBlockPartiallyPresent →
      bat.readTargetForByte v =
        bat.partialTarget v entry (metadata.bitAddress v)
  /-- Two bytes have one address if and only if they are in one sector. -/
  address_eq_iff : ∀ v < metadata.virtualDiskSize,
    ∀ w < metadata.virtualDiskSize,
      metadata.bitAddress v = metadata.bitAddress w ↔
        v / metadata.logicalSectorSize = w / metadata.logicalSectorSize
  /-- A bitmap block has 1 MiB. -/
  byteInBlock_lt : ∀ v < metadata.virtualDiskSize,
    (metadata.bitAddress v).byteInBlock < Bat.mib
  /-- The entry of a bitmap is not the entry of a block. -/
  batIndex_ne : ∀ v < metadata.virtualDiskSize, ∀ block,
    (metadata.bitAddress v).batIndex ≠ metadata.payloadIndex block
  /-- A bitmap byte is about eight consecutive sectors from a first one on, in
  the order of the bits and all in one block. -/
  eight_sectors : ∀ v < metadata.virtualDiskSize, ∃ first, ∀ w,
    ((metadata.bitAddress w).batIndex = (metadata.bitAddress v).batIndex ∧
        (metadata.bitAddress w).byteInBlock =
          (metadata.bitAddress v).byteInBlock ↔
      first ≤ w / metadata.logicalSectorSize ∧
        w / metadata.logicalSectorSize < first + 8) ∧
    (first ≤ w / metadata.logicalSectorSize ∧
        w / metadata.logicalSectorSize < first + 8 →
      w / metadata.logicalSectorSize =
          first + (metadata.bitAddress w).bit ∧
        w / metadata.blockSize = v / metadata.blockSize)
  /-- Different bytes are stored at different places. -/
  place_injective : ∀ v < metadata.virtualDiskSize,
    ∀ w < metadata.virtualDiskSize,
      metadata.payloadIndex (v / metadata.blockSize) =
          metadata.payloadIndex (w / metadata.blockSize) →
      v % metadata.blockSize = w % metadata.blockSize → v = w

/-- Sector ownership bits of validated metadata have unique addresses. -/
theorem VhdxMetadata.ownershipBitsUnique_of_validate {metadata : VhdxMetadata}
    (accepted : metadata.validate = .ok ()) :
    metadata.OwnershipBitsUnique := by
  have valid := validate_eq_ok_iff.mp accepted
  refine { resolved := ?resolved, address_eq_iff := ?address,
           byteInBlock_lt := ?byte, batIndex_ne := ?index,
           eight_sectors := ?eight, place_injective := ?place }
  case resolved =>
    rintro bat rfl entries v inside entry found shared
    exact Bat.readTargetForByte_of_partial ⟨valid, entries⟩ inside found
      shared
  case address =>
    intro v _ w _
    exact valid.bitAddress_eq_iff v w
  case byte =>
    intro v _
    have sectorLt := valid.sectorInChunk_lt v
    exact Nat.div_lt_of_lt_mul sectorLt
  case index =>
    intro v _ block
    exact valid.bitmapIndex_ne_payloadIndex _ block
  case eight =>
    intro v _
    refine ⟨metadata.sectorOf v / 8 * 8, fun w => ?_⟩
    change _ ∧ (_ ≤ metadata.sectorOf w ∧ metadata.sectorOf w < _ →
      metadata.sectorOf w = _ ∧ _)
    constructor
    · rw [valid.bitmapByte_eq_iff]
      change _ ↔ _ ≤ metadata.sectorOf w ∧ metadata.sectorOf w < _
      omega
    · rintro ⟨lower, upper⟩
      have sameByte : metadata.sectorOf w / 8 = metadata.sectorOf v / 8 := by
        omega
      refine ⟨?_, valid.block_eq_of_bitmapByte_eq sameByte⟩
      rw [valid.bit_eq]
      omega
  case place =>
    intro v _ w _
    exact valid.eq_of_place_eq

/-- A disk of two blocks of 1 MiB. -/
theorem VhdxMetadata.ownershipBitsUnique_two_blocks :
    ({ blockSize := 0x100000, hasParent := true, virtualDiskSize := 0x200000,
       logicalSectorSize := 512 } : VhdxMetadata).OwnershipBitsUnique :=
  ownershipBitsUnique_of_validate (by decide)

end VhdxForensic
