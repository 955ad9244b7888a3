import VhdxForensic.Core.StoredBytes
import VhdxForensic.Forensic.SlotRoles

/-!
# Data that no reader serves

The scan for data of absent blocks takes every payload entry that is not fully
present for an absent one. A reader also serves the owned sectors of partially
present blocks. This module determines for which images the reported data is
data that no reader of the image serves.
-/

namespace VhdxForensic

open Rust Rust.Bytes Rust.Exec

namespace AuditedImage

variable (image : AuditedImage)

/-- Number of bytes of the block at entry `i` that are not zero. -/
def nonzeroBytes (i : Nat) : Nat :=
  countNonzero
    (blockContent image.bytes (image.start i) image.metadata.blockSize)

/-- The payload entry at `i` maps no whole block but has the offset of one
with data in the image. -/
structure KeepsData (i : Nat) : Prop where
  /-- The entry lies in the table. -/
  inTable : i < image.entryCount
  /-- It is a payload entry. -/
  payload : ¬ BitmapSlot image.regions i
  /-- It maps no block. -/
  unmapped : Bat.stateOf (entryAt image.bytes image.regions i) ≠
    Bat.payloadBlockFullyPresent
  /-- It still holds an offset. -/
  placed : image.start i ≠ 0
  /-- The offset lies in the image. -/
  starts : image.start i < image.bytes.length
  /-- The former block has a byte that is not zero. -/
  hasData : 0 < image.nonzeroBytes i

/-- What the scan is said to report: unserved data only, and all data of
blocks that are not present. -/
structure GhostExact (findings : Findings) : Prop where
  /-- What is reported is the entry of a block. -/
  payload : ∀ i start count,
    .ghostDataInAbsentBlock i start count ∈ findings →
      ∃ block, image.metadata.payloadIndex block = i
  /-- No reader serves data from what is reported. -/
  unserved : ∀ i start count,
    .ghostDataInAbsentBlock i start count ∈ findings →
      ∀ (P : Type) (parent : Option P) (reader : VhdxReader P),
        VhdxReader.fromBytes image.bytes parent = .ok reader →
          ¬ reader.ServesThrough i
  /-- Every absent block with data at its offset is reported. -/
  complete : ∀ i < image.entryCount,
    (∃ block, image.metadata.payloadIndex block = i) →
    Bat.stateOf (entryAt image.bytes image.regions i) =
      Bat.payloadBlockNotPresent →
    image.start i ≠ 0 → 0 < image.nonzeroBytes i →
      .ghostDataInAbsentBlock i (image.start i) (image.nonzeroBytes i) ∈
        findings

/-- Every virtual byte that the decoded table stores in the container has a
payload index whose entry, as the scan sees it, keeps no data. -/
def StoredIsMapped : Prop :=
  ∀ metadata bat,
    VhdxReader.DecodesTo image.bytes image.bytes metadata bat →
      ∀ virtualByte < metadata.virtualDiskSize,
        StoredInContainer image.bytes bat virtualByte →
          ¬ image.KeepsData
            (metadata.payloadIndex (virtualByte / metadata.blockSize))

/-! ## What the scan reports -/

theorem tableLocated :
    ∀ r ∈ parsedRegions image.bytes, TableLocated r := by
  intro r parsed bs _ _ nonempty
  rw [image.parsedRegions_eq, Option.mem_some_iff] at parsed
  subst parsed
  have inside := image.inside
  have allocated := image.allocated
  have word : isizeMax < wordCount := by decide
  unfold entryCountOf at nonempty
  omega

theorem mem_ghostOf {i : Nat} {finding : VhdxIntegrityAnomaly} :
    finding ∈ ghostOf image.bytes image.regions image.metadata.blockSize i ∧
        i < image.entryCount ↔
      image.KeepsData i ∧ finding = .ghostDataInAbsentBlock i (image.start i)
        (image.nonzeroBytes i) := by
  unfold ghostOf
  dsimp only
  constructor
  · rintro ⟨member, inTable⟩
    split at member
    case isFalse => cases member
    rename_i all
    obtain ⟨unmapped, payload, placed, starts, hasData⟩ := all
    exact ⟨⟨inTable, payload, unmapped, placed, starts, hasData⟩,
      List.mem_singleton.mp member⟩
  · rintro ⟨keeps, rfl⟩
    refine ⟨?_, keeps.inTable⟩
    rw [if_pos ⟨keeps.unmapped, keeps.payload, keeps.placed, keeps.starts,
      keeps.hasData⟩]
    exact List.mem_singleton_self _

/-- The scan reports the entries that keep data. -/
theorem mem_ghostFindings {finding : VhdxIntegrityAnomaly} :
    finding ∈ ghostFindings image.bytes ↔ ∃ i, image.KeepsData i ∧
      finding = .ghostDataInAbsentBlock i (image.start i)
        (image.nonzeroBytes i) := by
  have sized := image.describes.blockSize_eq
  have positive := image.valid.blockSize_pos
  rw [ghostFindings, image.parsedRegions_eq]
  dsimp only
  rw [sized]
  dsimp only
  rw [if_pos positive, image.readableEntries_eq, List.mem_flatMap]
  refine exists_congr fun i => ?_
  rw [List.mem_range, and_comm, image.mem_ghostOf]

theorem mem_ghostFindings_iff {i start count : Nat} :
    .ghostDataInAbsentBlock i start count ∈ ghostFindings image.bytes ↔
      image.KeepsData i ∧ start = image.start i ∧
        count = image.nonzeroBytes i := by
  rw [image.mem_ghostFindings]
  constructor
  · rintro ⟨_, keeps, same⟩
    cases same
    exact ⟨keeps, rfl, rfl⟩
  · rintro ⟨keeps, rfl, rfl⟩
    exact ⟨i, keeps, rfl⟩

theorem KeepsData.exists_block {image : AuditedImage} {i : Nat}
    (keeps : image.KeepsData i) :
    ∃ block, image.metadata.payloadIndex block = i :=
  ((not_bitmapSlot_iff_existsUnique image.describes i).mp
    keeps.payload).exists

/-- A block that starts behind the image has no bytes. -/
theorem starts_of_nonzeroBytes {i : Nat} (hasData : 0 < image.nonzeroBytes i) :
    image.start i < image.bytes.length := by
  by_contra behind
  have empty : blockContent image.bytes (image.start i)
      image.metadata.blockSize = [] := by
    apply List.eq_nil_of_length_eq_zero
    rw [blockContent, length_window]
    omega
  rw [nonzeroBytes, empty] at hasData
  exact absurd hasData (by decide)

/-- A first byte of the block that is not zero is counted. -/
theorem nonzeroBytes_pos {i : Nat} {byte : UInt8}
    (found : image.bytes[image.start i]? = some byte) (nonzero : byte ≠ 0) :
    0 < image.nonzeroBytes i := by
  have positive := image.valid.blockSize_pos
  have starts := (List.getElem?_eq_some_iff.mp found).1
  have first : (blockContent image.bytes (image.start i)
      image.metadata.blockSize)[0]? = some byte := by
    rw [blockContent, getElem?_window, if_pos (by omega), Nat.add_zero, found]
  rw [nonzeroBytes, countNonzero, List.countP_pos_iff]
  exact ⟨byte, List.mem_of_getElem? first, decide_eq_true nonzero⟩

theorem keepsData_of_notPresent {i : Nat} (inTable : i < image.entryCount)
    (payload : ∃ block, image.metadata.payloadIndex block = i)
    (absent : Bat.stateOf (entryAt image.bytes image.regions i) =
      Bat.payloadBlockNotPresent)
    (placed : image.start i ≠ 0) (hasData : 0 < image.nonzeroBytes i) :
    image.KeepsData i where
  inTable := inTable
  payload := by
    obtain ⟨block, rfl⟩ := payload
    exact not_bitmapSlot_payloadIndex image.describes block
  unmapped := by
    rw [absent]
    decide
  placed := placed
  starts := image.starts_of_nonzeroBytes hasData
  hasData := hasData

end AuditedImage

/-! ## Images without a log -/

namespace AuditedImage.IsStandard

variable {items : List StoredItem} {bat : List Nat} {extra : List Run}
  {image : AuditedImage}

/-- A standard container has nothing to replay. -/
theorem replayedEntries_eq (standard : image.IsStandard items bat extra)
    (fits : StandardFits items bat extra) :
    VhdxReader.replayedEntries image.bytes = [] := by
  rw [VhdxReader.replayedEntries]
  cases active : activeHeader image.bytes with
  | none => rfl
  | some header =>
      have clean : header.IsClean :=
        Or.inl (standard.logLength_eq fits active)
      exact if_neg fun all => all.2.2.1 clean

/-- The pieces of one byte are found in the container. -/
theorem getElem?_eq (standard : image.IsStandard items bat extra)
    (fits : StandardFits items bat extra) {offset : Nat} {byte : UInt8}
    (member : (offset, [byte]) ∈ extra) :
    image.bytes[offset]? = some byte := by
  have held := (standardPlan_fits fits).holds_region
    (show (offset, [byte]) ∈ (standardPlan items bat extra).regions by
      simp [standardPlan, member])
  rw [← standard.bytes_eq, List.length_singleton] at held
  have first := congrArg (fun bytes : Bytes => bytes[0]?) held
  rwa [getElem?_window, if_pos (by decide)] at first

end AuditedImage.IsStandard

/-- An audited image that is opened without replaying a log entry. -/
structure UnloggedImage extends AuditedImage where
  /-- There is nothing to replay. -/
  unlogged : VhdxReader.replayedEntries bytes = []

namespace UnloggedImage

open VhdxReader

variable (image : UnloggedImage)

/-- The readers of the image are those of the tables it decodes to. -/
theorem fromBytes_eq_ok {P : Type} {parent : Option P}
    {reader : VhdxReader P}
    (opened : fromBytes image.bytes parent = .ok reader) :
    ∃ metadata bat,
      VhdxReader.DecodesTo image.bytes image.bytes metadata bat ∧
        reader = plainReader image.bytes metadata bat parent := by
  obtain ⟨decodedImage, metadata, bat, decodes, rfl⟩ :=
    exists_decodesTo image.allocated opened
  have same := decodes.image_eq image.allocated image.unlogged
  subst same
  exact ⟨metadata, bat, decodes, rfl⟩

/-- What the reader of a decoded table serves. -/
theorem servesThrough_iff {P : Type} {parent : Option P}
    {metadata : VhdxMetadata} {bat : Bat} {i : Nat}
    (opened : fromBytes image.bytes parent =
      .ok (plainReader image.bytes metadata bat parent)) :
    (plainReader image.bytes metadata bat parent).ServesThrough i ↔
      ∃ virtualByte < metadata.virtualDiskSize,
        metadata.payloadIndex (virtualByte / metadata.blockSize) = i ∧
          StoredInContainer image.bytes bat virtualByte := by
  have intact := (intact_of_fromBytes image.toBuffer opened).1
  have sameImage : (plainReader image.bytes metadata bat parent).image =
      image.bytes := patchedView_mem image.bytes
  refine exists_congr fun virtualByte => and_congr_right fun inside =>
    and_congr_right fun _ => ?_
  rw [servesFromContainer_iff intact inside, sameImage]
  rfl

/-- The reported data is data that no reader serves if every byte stored in
the container belongs to an entry that keeps no data. -/
theorem ghost_exact_iff :
    (∃ findings, checkBatGhostData image.bytes = .ok findings ∧
        image.GhostExact findings) ↔ image.StoredIsMapped := by
  have returned := checkBatGhostData_eq image.allocated image.tableLocated
  constructor
  · rintro ⟨findings, returned', exact⟩ metadata bat decodes virtualByte inside
      stored keeps
    cases returned.symm.trans returned'
    have opened := @VhdxReader.DecodesTo.fromBytes_eq Unit _ _ _ _ decodes
      image.allocated (some ()) fun _ => rfl
    have reported := image.mem_ghostFindings_iff.mpr ⟨keeps, rfl, rfl⟩
    refine exact.unserved _ _ _ reported Unit (some ()) _ opened ?_
    exact (image.servesThrough_iff opened).mpr
      ⟨virtualByte, inside, rfl, stored⟩
  · intro mapped
    refine ⟨_, returned, ?payload, ?unserved, ?complete⟩
    case payload =>
      intro i start count reported
      exact (image.mem_ghostFindings_iff.mp reported).1.exists_block
    case unserved =>
      intro i start count reported P parent reader opened serves
      have keeps := (image.mem_ghostFindings_iff.mp reported).1
      obtain ⟨metadata, bat, decodes, rfl⟩ := image.fromBytes_eq_ok opened
      obtain ⟨virtualByte, inside, rfl, stored⟩ :=
        (image.servesThrough_iff opened).mp serves
      exact mapped metadata bat decodes virtualByte inside stored keeps
    case complete =>
      intro i inTable payload absent placed hasData
      exact image.mem_ghostFindings_iff.mpr ⟨image.keepsData_of_notPresent
        inTable payload absent placed hasData, rfl, rfl⟩

/-! ## A partially present block -/

/-- Sixteen payload entries of which the first is partially present, and the
entry of their sector bitmap. -/
def partialTable : List Nat :=
  0x400007 :: (List.replicate 15 0 ++ [0x500006])

/-- The first byte of the block, and its sector as the only owned one. -/
def partialPieces : List Run := [(0x400000, [7]), (0x500000, [1])]

theorem partial_fits :
    StandardFits (blockItems 0x10000000 0x100000) partialTable
      partialPieces where
  items_fit := blockItems_fit (by decide) (by decide)
  bat_le := by decide
  extra_apart := by
    refine List.pairwise_pair.mpr ?_
    exact Or.inl (by decide)
  extra_place := by
    intro piece member
    rcases List.mem_pair.mp member with rfl | rfl <;> decide

/-- A read of the first byte of the disk takes a byte of the block. -/
theorem storedInContainer_first {data : Bytes}
    (block : data[0x400000]? = some 7) (bitmap : data[0x500000]? = some 1) :
    StoredInContainer data
      { entries := partialTable, metadata := blockDisk 0x10000000 0x100000 }
      0 := by
  refine ⟨0x400007, rfl, (List.getElem?_eq_some_iff.mp block).1, Or.inr ⟨rfl,
    0x500006, 1, rfl, rfl, bitmap, ?_⟩⟩
  decide

/-- The data of a partially present block is reported, and a reader serves
it. -/
theorem partialBlock_served :
    ∃ image : UnloggedImage,
      image.IsStandard (blockItems 0x10000000 0x100000) partialTable
          partialPieces ∧
        (∃ findings count, checkBatGhostData image.bytes = .ok findings ∧
          .ghostDataInAbsentBlock 0 0x400000 count ∈ findings) ∧
        (∃ reader : VhdxReader Unit,
          fromBytes image.bytes none = .ok reader ∧
            reader.ServesThrough 0) ∧
        ¬ ∃ findings, checkBatGhostData image.bytes = .ok findings ∧
          image.GhostExact findings := by
  have entriesLt : ∀ entry ∈ partialTable, entry < 2 ^ 64 := by decide
  have complete : (standardRegionsAt (blockItems 0x10000000 0x100000)
      partialTable.length).metadata = some (blockDisk 0x10000000 0x100000) :=
    rfl
  obtain ⟨audited, standard, metadataEq⟩ :=
    exists_standardImage partial_fits blockItems_short complete rfl
  obtain ⟨image, rfl⟩ : ∃ image : UnloggedImage,
      image.toAuditedImage = audited :=
    ⟨⟨audited, standard.replayedEntries_eq partial_fits⟩, rfl⟩
  have block : image.bytes[0x400000]? = some 7 :=
    standard.getElem?_eq partial_fits (by simp [partialPieces])
  have bitmap : image.bytes[0x500000]? = some 1 :=
    standard.getElem?_eq partial_fits (by simp [partialPieces])
  have stored : partialTable[0]? = some 0x400007 := rfl
  have size := standard.length_eq
  have start : image.start 0 = 0x400000 :=
    standard.start_eq partial_fits entriesLt stored
  have keeps : image.KeepsData 0 := {
    inTable := by
      rw [standard.entryCount_eq]
      decide
    payload := by
      rw [image.bitmapSlot_iff, metadataEq]
      decide
    unmapped := by
      rw [standard.entryAt_eq partial_fits entriesLt stored]
      decide
    placed := by
      rw [start]
      decide
    starts := by
      rw [start, size]
      decide
    hasData := by
      rw [← start] at block
      exact image.nonzeroBytes_pos block (by decide) }
  have reported := image.mem_ghostFindings_iff.mpr ⟨keeps, rfl, rfl⟩
  rw [start] at reported
  have opened := @standardPlan_opens _ _ _ Unit _ partial_fits entriesLt
    (show (recordedItems (blockItems 0x10000000 0x100000)).resolve =
      .ok (blockDisk 0x10000000 0x100000) from rfl)
    (VhdxMetadata.validate_eq_ok_iff.mp rfl) none (fun linked => by
      cases linked)
  rw [← standard.bytes_eq] at opened
  have serves := (image.servesThrough_iff opened).mpr
    ⟨0, by decide, rfl, storedInContainer_first block bitmap⟩
  have returned := checkBatGhostData_eq image.allocated image.tableLocated
  refine ⟨image, standard, ⟨_, _, returned, reported⟩,
    ⟨_, opened, serves⟩, ?_⟩
  rintro ⟨findings, returned', exact⟩
  cases returned.symm.trans returned'
  exact exact.unserved _ _ _ reported Unit none _ opened serves

end UnloggedImage

end VhdxForensic
