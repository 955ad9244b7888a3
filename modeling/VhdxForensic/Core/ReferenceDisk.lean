import VhdxForensic.Core.Container
import VhdxForensic.Core.OpenEquivalence

/-!
# The reference disk

What a container means, one virtual byte at a time and without reference to
how the reader batches its work: the payload entry of a block decides whether
its bytes come from the container, from the parent or are zero. The read loop
is shown to refine this disk, for a parent chain of any depth.
-/

namespace VhdxForensic

open Rust Rust.Bytes Rust.Exec

/-! ## The meaning of a virtual byte -/

/-- The byte of a block whose sectors are owned one by one. Without a
sector bitmap the byte has no value. -/
def partialByte (image : Bytes) (bat : Bat) (parentByte : Nat → Option UInt8)
    (entry virtualByte : Nat) : Option UInt8 :=
  match bat.bitmapEntry virtualByte with
  | none => none
  | some bitmap =>
      if Bat.stateOf bitmap ≠ Bat.sectorBitmapBlockPresent then none
      else
        match image[bat.bitmapByteOffset bitmap virtualByte]? with
        | none => none
        | some owners =>
            if owners.toNat.testBit
                (bat.metadata.sectorInChunk virtualByte % 8) then
              image[bat.byteOffset entry virtualByte]?
            else parentByte virtualByte

/-- The byte that a payload entry gives to a virtual byte of its block. -/
def entryByte (image : Bytes) (bat : Bat) (parentByte : Nat → Option UInt8)
    (entry virtualByte : Nat) : Option UInt8 :=
  let state := Bat.stateOf entry
  if state = Bat.payloadBlockNotPresent then parentByte virtualByte
  else if state = Bat.payloadBlockUndefined ∨
      state = Bat.payloadBlockZero ∨ state = Bat.payloadBlockUnmapped then
    some 0
  else if ¬ (state = Bat.payloadBlockFullyPresent ∨
      state = Bat.payloadBlockPartiallyPresent) then none
  else if bat.byteOffset entry virtualByte < wordCount then
    if state = Bat.payloadBlockFullyPresent then
      image[bat.byteOffset entry virtualByte]?
    else partialByte image bat parentByte entry virtualByte
  else none

/-- The value of a virtual byte, when it has one. -/
def referenceByte (image : Bytes) (bat : Bat)
    (parentByte : Nat → Option UInt8) (virtualByte : Nat) : Option UInt8 :=
  match bat.payloadEntry virtualByte with
  | none => none
  | some entry => entryByte image bat parentByte entry virtualByte

/-- The bytes of the parent: zeros when there is none, no value past its
end. -/
def parentByte (parent : Option ReferenceDisk) (virtualByte : Nat) :
    Option UInt8 :=
  match parent with
  | none => some 0
  | some disk =>
      if virtualByte < disk.size then disk.byte virtualByte else none

/-! ## Bytes of one block -/

section Block

variable {metadata : VhdxMetadata} {virtualByte index : Nat}

/-- Up to the end of the block, bytes share the block and are offset in it. -/
theorem block_add (within : virtualByte % metadata.blockSize + index <
      metadata.blockSize) :
    (virtualByte + index) / metadata.blockSize =
        virtualByte / metadata.blockSize ∧
      (virtualByte + index) % metadata.blockSize =
        virtualByte % metadata.blockSize + index := by
  have split := Nat.div_add_mod virtualByte metadata.blockSize
  have positive : 0 < metadata.blockSize := by omega
  have decomposed : virtualByte + index =
      virtualByte % metadata.blockSize + index +
        metadata.blockSize * (virtualByte / metadata.blockSize) := by
    omega
  constructor
  · rw [decomposed, Nat.add_mul_div_left _ _ positive, Nat.div_eq_of_lt within,
      Nat.zero_add]
  · rw [decomposed, Nat.add_mul_mod_self_left, Nat.mod_eq_of_lt within]

/-- Number of sector boundaries between a byte and a later one. -/
def sectorStep (metadata : VhdxMetadata) (virtualByte index : Nat) : Nat :=
  (virtualByte % metadata.logicalSectorSize + index) /
    metadata.logicalSectorSize

/-- The sector of a byte further on. -/
theorem sector_add (virtualByte index : Nat)
    (positive : 0 < metadata.logicalSectorSize) :
    (virtualByte + index) / metadata.logicalSectorSize =
      virtualByte / metadata.logicalSectorSize +
        sectorStep metadata virtualByte index := by
  have split := Nat.div_add_mod virtualByte metadata.logicalSectorSize
  have decomposed : virtualByte + index =
      virtualByte % metadata.logicalSectorSize + index +
        metadata.logicalSectorSize *
          (virtualByte / metadata.logicalSectorSize) := by
    omega
  rw [decomposed, Nat.add_mul_div_left _ _ positive, sectorStep]
  conv_rhs => rw [← split]
  rw [Nat.mul_add_mod, Nat.mod_mod, Nat.mul_add_div positive,
    Nat.div_eq_of_lt (Nat.mod_lt _ positive), Nat.add_zero, Nat.add_comm]

/-- Sector positions in a chunk advance with the sectors of the block. -/
theorem sectorInChunk_add (valid : metadata.Valid)
    (within : virtualByte % metadata.blockSize + index <
      metadata.blockSize) :
    metadata.sectorInChunk (virtualByte + index) =
      metadata.sectorInChunk virtualByte +
        sectorStep metadata virtualByte index := by
  obtain ⟨sameBlock, advanced⟩ := block_add within
  have positive := valid.sectorSize_pos
  have wholeSectors : virtualByte % metadata.blockSize %
      metadata.logicalSectorSize = virtualByte % metadata.logicalSectorSize :=
    Nat.mod_mod_of_dvd _ ⟨metadata.sectorsPerBlock, by
      rw [Nat.mul_comm, valid.sectorsPerBlock_mul]⟩
  have inBlock := sector_add (virtualByte % metadata.blockSize) index positive
  unfold VhdxMetadata.sectorInChunk
  rw [sameBlock, advanced, inBlock, sectorStep, sectorStep, wholeSectors]
  omega

/-- Bytes whose sectors share a bitmap byte share the MiB of their block. -/
theorem mib_of_sectorStep (valid : metadata.Valid)
    (within : virtualByte % metadata.blockSize + index < metadata.blockSize)
    (sameByte : metadata.sectorInChunk virtualByte % 8 +
      sectorStep metadata virtualByte index < 8) :
    (virtualByte % metadata.blockSize + index) / 2 ^ 20 =
      virtualByte % metadata.blockSize / 2 ^ 20 := by
  obtain ⟨sameBlock, advanced⟩ := block_add within
  obtain ⟨blockExponent, blockLower, -, blockSize⟩ := valid.exists_blockSize_eq
  obtain ⟨sectorExponent, -, sectorUpper, sectorSize⟩ :=
    valid.exists_sectorSize_eq
  -- A block starts a new bitmap byte, so the byte is decided inside the block.
  have aligned : 8 ∣ metadata.sectorsPerBlock := by
    unfold VhdxMetadata.sectorsPerBlock
    rw [blockSize, sectorSize, Nat.pow_div (by omega) (by norm_num)]
    exact pow_dvd_pow 2 (show 3 ≤ blockExponent - sectorExponent by omega)
  have perByte : ∀ byte, byte / 2 ^ 20 =
      byte / metadata.logicalSectorSize / 8 / 2 ^ (17 - sectorExponent) := by
    intro byte
    rw [sectorSize, Nat.div_div_eq_div_mul, Nat.div_div_eq_div_mul]
    congr 1
    rw [show 8 = 2 ^ 3 by norm_num, ← pow_add, ← pow_add]
    congr 1
    omega
  have advance := sectorInChunk_add valid within
  unfold VhdxMetadata.sectorInChunk at advance sameByte
  rw [sameBlock, advanced] at advance
  obtain ⟨factor, alignedEq⟩ := Dvd.dvd.mul_left aligned
    (virtualByte / metadata.blockSize % metadata.chunkRatioOf)
  rw [perByte, perByte]
  congr 1
  omega

end Block

/-! ## Runs of one owner -/

/-- All sectors of a run lie in one bitmap byte and have one owner. -/
theorem testBit_of_lt_runSectors {bitmap bitmapBit step : Nat}
    (bitLt : bitmapBit < 8)
    (inRun : step < VhdxReader.runSectors bitmap bitmapBit) :
    bitmapBit + step < 8 ∧
      bitmap.testBit (bitmapBit + step) = bitmap.testBit bitmapBit := by
  cases step with
  | zero => exact ⟨by omega, rfl⟩
  | succ step =>
      unfold VhdxReader.runSectors at inRun
      dsimp only at inRun
      generalize property : (fun bit =>
        decide (bitmap.testBit bit = bitmap.testBit bitmapBit)) = owned at inRun
      have isPrefix : (List.range' (bitmapBit + 1)
          (7 - bitmapBit)).takeWhile owned <+:
            List.range' (bitmapBit + 1) (7 - bitmapBit) :=
        List.takeWhile_prefix owned
      have shorter := isPrefix.length_le
      rw [List.length_range'] at shorter
      have stepLt : step < ((List.range' (bitmapBit + 1)
          (7 - bitmapBit)).takeWhile owned).length := by
        omega
      have element := List.prefix_iff_getElem?.mp isPrefix step stepLt
      rw [List.getElem?_range' (by omega), Nat.one_mul] at element
      have holds := List.mem_takeWhile_imp (List.getElem_mem stepLt)
      rw [← Option.some.inj element, ← property] at holds
      refine ⟨by omega, ?_⟩
      rw [← Nat.add_assoc, Nat.add_right_comm]
      simpa using holds

/-! ## Planning one chunk -/

section Resolve

variable {image : Bytes} {bat : Bat} {owner : Nat → Option UInt8}
  {entry virtualByte index : Nat}

/-- Bytes of one block have one payload entry. -/
theorem payloadEntry_add (within :
      virtualByte % bat.metadata.blockSize + index < bat.metadata.blockSize) :
    bat.payloadEntry (virtualByte + index) = bat.payloadEntry virtualByte := by
  rw [Bat.payloadEntry, Bat.payloadEntry, (block_add within).1]

/-- They have one bitmap entry. -/
theorem bitmapEntry_add (within :
      virtualByte % bat.metadata.blockSize + index < bat.metadata.blockSize) :
    bat.bitmapEntry (virtualByte + index) = bat.bitmapEntry virtualByte := by
  rw [Bat.bitmapEntry, Bat.bitmapEntry, (block_add within).1]

/-- They are stored side by side. -/
theorem byteOffset_add (within :
      virtualByte % bat.metadata.blockSize + index < bat.metadata.blockSize) :
    bat.byteOffset entry (virtualByte + index) =
      bat.byteOffset entry virtualByte + index := by
  rw [Bat.byteOffset, Bat.byteOffset, (block_add within).2, Nat.add_assoc]

/-- A byte whose address is not representable is not in the container. -/
theorem getElem?_of_wordCount_le {pos : Nat}
    (small : image.length < wordCount) (large : wordCount ≤ pos) :
    image[pos]? = none :=
  List.getElem?_eq_none (by omega)

/-- The largest word ends a MiB, so bytes of one MiB are all representable
or none of them is. -/
theorem lt_wordCount_of_sameMib {base first second : Nat}
    (same : second / 2 ^ 20 = first / 2 ^ 20)
    (representable : base * 2 ^ 20 + first < wordCount) :
    base * 2 ^ 20 + second < wordCount := by
  unfold wordCount at *
  omega

/-- A run of sectors in one bitmap byte does not leave the address space. -/
theorem byteOffset_representable (sound : bat.Sound)
    (within :
      virtualByte % bat.metadata.blockSize + index < bat.metadata.blockSize)
    (sameByte : bat.metadata.sectorInChunk virtualByte % 8 +
      sectorStep bat.metadata virtualByte index < 8)
    (representable : bat.byteOffset entry virtualByte < wordCount) :
    bat.byteOffset entry (virtualByte + index) < wordCount := by
  have sameMib := mib_of_sectorStep sound.valid within sameByte
  rw [byteOffset_add within]
  rw [Bat.byteOffset, Bat.offsetOf] at representable ⊢
  rw [Nat.add_assoc]
  exact lt_wordCount_of_sameMib sameMib representable

/-- They are all served through this entry. -/
theorem referenceByte_of_entry
    (found : bat.payloadEntry virtualByte = some entry)
    (within :
      virtualByte % bat.metadata.blockSize + index < bat.metadata.blockSize) :
    referenceByte image bat owner (virtualByte + index) =
      entryByte image bat owner entry (virtualByte + index) := by
  rw [referenceByte, payloadEntry_add within, found]

/-- Along a run of one owner the bitmap byte and the owner's answer stay. -/
theorem partialByte_add (sound : bat.Sound) {bitmap : Nat} {owners : UInt8}
    (within :
      virtualByte % bat.metadata.blockSize + index < bat.metadata.blockSize)
    (mapped : bat.bitmapEntry virtualByte = some bitmap)
    (present : Bat.stateOf bitmap = Bat.sectorBitmapBlockPresent)
    (read : image[bat.bitmapByteOffset bitmap virtualByte]? = some owners)
    (inRun : sectorStep bat.metadata virtualByte index <
      VhdxReader.runSectors owners.toNat
        (bat.metadata.sectorInChunk virtualByte % 8)) :
    partialByte image bat owner entry (virtualByte + index) =
      if owners.toNat.testBit (bat.metadata.sectorInChunk virtualByte % 8) then
        image[bat.byteOffset entry virtualByte + index]?
      else owner (virtualByte + index) := by
  obtain ⟨sameByte, sameOwner⟩ := testBit_of_lt_runSectors
    (Nat.mod_lt _ (by norm_num)) inRun
  have advance := sectorInChunk_add sound.valid within
  have byteOffset : bat.bitmapByteOffset bitmap (virtualByte + index) =
      bat.bitmapByteOffset bitmap virtualByte := by
    unfold Bat.bitmapByteOffset
    omega
  have bit : bat.metadata.sectorInChunk (virtualByte + index) % 8 =
      bat.metadata.sectorInChunk virtualByte % 8 +
        sectorStep bat.metadata virtualByte index := by
    omega
  rw [partialByte, bitmapEntry_add within, mapped]
  dsimp only
  rw [if_neg (not_not_intro present), byteOffset, read]
  dsimp only
  rw [bit, sameOwner, byteOffset_add within]

end Resolve

namespace VhdxReader

variable {P : Type} {reader : VhdxReader P}

/-- What opening establishes and no call changes: the container can be
addressed and the table is decoded under a valid description. -/
structure Intact (reader : VhdxReader P) : Prop where
  /-- The machine can address the container. -/
  addressable : reader.Addressable
  /-- The table holds 64-bit entries under a valid description. -/
  sound : reader.bat.Sound
  /-- The reader and its table have one description. -/
  metadata_eq : reader.metadata = reader.bat.metadata

/-- The byte a chunk source gives at an index of the chunk. -/
def sourceByte (image : Bytes) (owner : Nat → Option UInt8)
    (virtualByte : Nat) : ChunkSource → Nat → Option UInt8
  | .file fileOffset, index => image[fileOffset + index]?
  | .parent, index => owner (virtualByte + index)
  | .zero, _ => some 0

/-- The plan of a chunk is right: it makes progress within the limit and its
source gives the reference bytes. -/
def PlanRight (reader : VhdxReader P) (owner : Nat → Option UInt8)
    (virtualByte limit : Nat) (plan : ChunkSource × Nat) : Prop :=
  0 < plan.2 ∧ plan.2 ≤ limit ∧ ∀ index < plan.2,
    referenceByte reader.image reader.bat owner (virtualByte + index) =
      sourceByte reader.image owner virtualByte plan.1 index

theorem Intact.image_small (intact : reader.Intact) :
    reader.image.length < wordCount := by
  rw [image, length_patchedView]
  exact intact.addressable

/-- The length of a chunk that is cut at the end of its block. -/
def blockChunk (reader : VhdxReader P) (virtualByte limit : Nat) : Nat :=
  min limit (reader.bat.metadata.blockSize -
    virtualByte % reader.bat.metadata.blockSize)

/-- The length of a chunk that is also cut at the end of a run of sectors. -/
def runChunk (reader : VhdxReader P) (virtualByte limit run : Nat) : Nat :=
  min (reader.blockChunk virtualByte limit)
    ((virtualByte / reader.bat.metadata.logicalSectorSize + run) *
      reader.bat.metadata.logicalSectorSize - virtualByte)

/-- The plan for a byte once its target is resolved. -/
def planTarget (reader : VhdxReader P) (virtualByte limit : Nat) :
    ReadTarget → Exec IoError (ChunkSource × Nat)
  | .file fileOffset =>
      .ok (.file fileOffset, reader.blockChunk virtualByte limit)
  | .parent => .ok (.parent, reader.blockChunk virtualByte limit)
  | .zero => .ok (.zero, reader.blockChunk virtualByte limit)
  | .partialBlock fileOffset bitmapByteFileOffset bitmapBit =>
      match reader.image[bitmapByteFileOffset]? with
      | none => fail (.unexpectedEof "VHDX sector bitmap truncated")
      | some owners =>
          .ok (if owners.toNat.testBit bitmapBit then .file fileOffset
            else .parent,
            reader.runChunk virtualByte limit
              (runSectors owners.toNat bitmapBit))

/-- The byte at an offset, read as a window of one byte. -/
theorem window_one {data : Bytes} {off : Nat} :
    window data off 1 = data[off]?.toList := by
  apply List.ext_getElem?
  intro index
  rw [getElem?_window]
  cases index with
  | zero =>
      rw [if_pos (by omega), Nat.add_zero]
      cases data[off]? <;> rfl
  | succ index =>
      rw [if_neg (by omega)]
      cases data[off]? <;> rfl

theorem runSectors_pos (bitmap bitmapBit : Nat) :
    0 < runSectors bitmap bitmapBit := by
  unfold runSectors
  dsimp only
  omega

/-- A run of sectors ends with the bitmap byte at the latest. -/
theorem runSectors_le (bitmap bitmapBit : Nat) :
    runSectors bitmap bitmapBit ≤ 8 := by
  unfold runSectors
  dsimp only
  have shorter := (List.takeWhile_prefix
    (fun bit => decide (bitmap.testBit bit = bitmap.testBit bitmapBit))
    (l := List.range' (bitmapBit + 1) (7 - bitmapBit))).length_le
  rw [List.length_range'] at shorter
  omega

/-- A run of sectors ends after the byte it starts with. -/
theorem lt_runEnd {sectorSize run : Nat} (virtualByte : Nat)
    (positive : 0 < sectorSize) (runPos : 0 < run) :
    virtualByte < (virtualByte / sectorSize + run) * sectorSize := by
  have split := Nat.div_add_mod virtualByte sectorSize
  have inSector := Nat.mod_lt virtualByte positive
  have atLeast := Nat.le_mul_of_pos_left sectorSize runPos
  rw [Nat.add_mul, Nat.mul_comm (virtualByte / _)]
  omega

/-- Planning up to the resolution of the first byte. -/
theorem planChunk_eq (intact : reader.Intact) {virtualByte limit : Nat}
    (inside : virtualByte < reader.metadata.virtualDiskSize) :
    reader.planChunk virtualByte limit =
      (attempt (reader.bat.readTargetForByte virtualByte) >>= fun target =>
        match target with
        | .error e => fail (.other e.message)
        | .ok target => reader.planTarget virtualByte limit target) := by
  obtain ⟨addressable, sound, metadataEq⟩ := intact
  have blockPos := sound.valid.blockSize_pos
  have blockLe := sound.valid.blockSize_le_max
  have sectorPos := sound.valid.sectorSize_pos
  have sizeLe := sound.valid.disk_le_max
  rw [metadataEq] at inside
  unfold VhdxMetadata.virtualDiskSizeMax at sizeLe
  unfold VhdxMetadata.blockSizeMax at blockLe
  have blockLe' : virtualByte / reader.bat.metadata.blockSize ≤ virtualByte :=
    Nat.div_le_self _ _
  have split := Nat.div_add_mod virtualByte reader.bat.metadata.blockSize
  have rest := Nat.mod_lt virtualByte blockPos
  have blockEnd : (virtualByte / reader.bat.metadata.blockSize + 1) *
      reader.bat.metadata.blockSize =
        virtualByte - virtualByte % reader.bat.metadata.blockSize +
          reader.bat.metadata.blockSize := by
    rw [Nat.add_mul, Nat.one_mul, Nat.mul_comm]
    omega
  have blockRest : virtualByte -
      virtualByte % reader.bat.metadata.blockSize +
        reader.bat.metadata.blockSize - virtualByte =
      reader.bat.metadata.blockSize -
        virtualByte % reader.bat.metadata.blockSize := by
    omega
  rw [planChunk, metadataEq]
  dsimp only
  rw [div_eq_ok (by omega), ok_bind,
    add_eq_ok (by unfold wordCount; omega), ok_bind,
    mul_eq_ok (by rw [blockEnd]; unfold wordCount; omega), ok_bind,
    blockEnd, sub_eq_ok (by omega), ok_bind, blockRest]
  congr 1
  funext target
  rcases target with e | (fileOffset | _ | _ |
    ⟨fileOffset, bitmapByteFileOffset, bitmapBit⟩)
  · rfl
  · rfl
  · rfl
  · rfl
  · dsimp only
    rw [bitmapByte_eq addressable, window_one, planTarget]
    cases reader.image[bitmapByteFileOffset]? with
    | none => rfl
    | some owners =>
      rw [Option.toList_some, if_neg (by simp), List.headD_cons]
      have sectorLe : virtualByte / reader.bat.metadata.logicalSectorSize ≤
          virtualByte := Nat.div_le_self _ _
      have runEnd := lt_runEnd virtualByte sectorPos
        (runSectors_pos owners.toNat bitmapBit)
      have runLe := runSectors_le owners.toNat bitmapBit
      have runEndSmall : (virtualByte /
          reader.bat.metadata.logicalSectorSize +
            runSectors owners.toNat bitmapBit) *
              reader.bat.metadata.logicalSectorSize < wordCount := by
        have sectorSplit := Nat.div_add_mod virtualByte
          reader.bat.metadata.logicalSectorSize
        have runSmall : runSectors owners.toNat bitmapBit *
            reader.bat.metadata.logicalSectorSize ≤ 8 * 4096 :=
          Nat.mul_le_mul runLe (by
            rcases VhdxMetadata.sectorSize_cases sound.valid.sectorSize with
              small | large <;> omega)
        rw [Nat.add_mul, Nat.mul_comm (virtualByte / _)]
        unfold wordCount
        omega
      rw [div_eq_ok (by omega), ok_bind,
        add_eq_ok (by unfold wordCount; omega), ok_bind,
        mul_eq_ok runEndSmall, ok_bind, sub_eq_ok runEnd.le, ok_bind]
      dsimp only
      by_cases owned : owners.toNat.testBit bitmapBit = true
      · rw [if_pos owned, if_pos owned]
        rfl
      · rw [if_neg owned, if_neg owned]
        rfl

section Plan

variable {owner : Nat → Option UInt8} {virtualByte limit entry : Nat}

/-- A chunk up to the end of the block is right when all bytes of the block
come from the same source. -/
theorem planRight_of_entry (intact : reader.Intact) {source : ChunkSource}
    (limitPos : 0 < limit)
    (found : reader.bat.payloadEntry virtualByte = some entry)
    (same : ∀ index, virtualByte % reader.bat.metadata.blockSize + index <
        reader.bat.metadata.blockSize →
      entryByte reader.image reader.bat owner entry (virtualByte + index) =
        sourceByte reader.image owner virtualByte source index) :
    reader.PlanRight owner virtualByte limit
      (source, reader.blockChunk virtualByte limit) := by
  have inBlock := Nat.mod_lt virtualByte intact.sound.valid.blockSize_pos
  unfold PlanRight blockChunk
  refine ⟨by dsimp only; omega, Nat.min_le_left _ _, ?_⟩
  intro index inChunk
  have within : virtualByte % reader.bat.metadata.blockSize + index <
      reader.bat.metadata.blockSize := by
    dsimp only at inChunk
    omega
  rw [referenceByte_of_entry found within]
  exact same index within

/-- The bytes of a fully present block are in the container, each at its
offset, or have no value. -/
theorem entryByte_full (intact : reader.Intact) {index : Nat}
    (full : Bat.stateOf entry = Bat.payloadBlockFullyPresent)
    (within : virtualByte % reader.bat.metadata.blockSize + index <
      reader.bat.metadata.blockSize) :
    entryByte reader.image reader.bat owner entry (virtualByte + index) =
      reader.image[reader.bat.byteOffset entry virtualByte + index]? := by
  unfold entryByte
  dsimp only
  rw [byteOffset_add within, if_neg (by rw [full]; decide),
    if_neg (by rw [full]; decide), if_neg (not_not_intro (Or.inl full)),
    if_pos full]
  by_cases representable :
      reader.bat.byteOffset entry virtualByte + index < wordCount
  · rw [if_pos representable]
  · rw [if_neg representable,
      getElem?_of_wordCount_le intact.image_small (by omega)]

/-- The bytes of a chunk within a run are in sectors of the run. -/
theorem sectorStep_lt {metadata : VhdxMetadata} {run index : Nat}
    (inRun : index < (virtualByte / metadata.logicalSectorSize + run) *
      metadata.logicalSectorSize - virtualByte) :
    sectorStep metadata virtualByte index < run := by
  have split := Nat.div_add_mod virtualByte metadata.logicalSectorSize
  rw [Nat.add_mul, Nat.mul_comm (virtualByte / _)] at inRun
  apply Nat.div_lt_of_lt_mul
  rw [Nat.mul_comm]
  omega

/-- A run of sectors of a partially present block is right. -/
theorem planRight_of_run (intact : reader.Intact)
    (limitPos : 0 < limit) {bitmap : Nat} {owners : UInt8}
    (found : reader.bat.payloadEntry virtualByte = some entry)
    (isPartial : Bat.stateOf entry = Bat.payloadBlockPartiallyPresent)
    (representable : reader.bat.byteOffset entry virtualByte < wordCount)
    (mapped : reader.bat.bitmapEntry virtualByte = some bitmap)
    (present : Bat.stateOf bitmap = Bat.sectorBitmapBlockPresent)
    (read : reader.image[reader.bat.bitmapByteOffset bitmap virtualByte]? =
      some owners) :
    reader.PlanRight owner virtualByte limit
      (if owners.toNat.testBit
          (reader.bat.metadata.sectorInChunk virtualByte % 8) then
        .file (reader.bat.byteOffset entry virtualByte)
      else .parent,
      reader.runChunk virtualByte limit (runSectors owners.toNat
        (reader.bat.metadata.sectorInChunk virtualByte % 8))) := by
  have valid := intact.sound.valid
  have inBlock := Nat.mod_lt virtualByte valid.blockSize_pos
  have progress := lt_runEnd virtualByte valid.sectorSize_pos
    (runSectors_pos owners.toNat
      (reader.bat.metadata.sectorInChunk virtualByte % 8))
  unfold PlanRight runChunk blockChunk
  dsimp only
  refine ⟨by omega, by omega, ?_⟩
  intro index inChunk
  have within : virtualByte % reader.bat.metadata.blockSize + index <
      reader.bat.metadata.blockSize := by
    omega
  have inRun : sectorStep reader.bat.metadata virtualByte index <
      runSectors owners.toNat
        (reader.bat.metadata.sectorInChunk virtualByte % 8) := by
    apply sectorStep_lt
    omega
  have sameByte := (testBit_of_lt_runSectors
    (Nat.mod_lt _ (by norm_num)) inRun).1
  have stays := byteOffset_representable intact.sound within sameByte
    representable
  rw [referenceByte_of_entry found within, entryByte]
  rw [if_neg (by rw [isPartial]; decide), if_neg (by rw [isPartial]; decide),
    if_neg (not_not_intro (Or.inr isPartial)), if_pos stays,
    if_neg (by rw [isPartial]; decide)]
  rw [partialByte_add intact.sound within mapped present read inRun]
  split <;> rfl

/-- Planning a chunk either is right or fails at a byte without a value. -/
theorem planChunk_spec (intact : reader.Intact)
    (owner : Nat → Option UInt8)
    (inside : virtualByte < reader.metadata.virtualDiskSize)
    (limitPos : 0 < limit) :
    (∃ plan, reader.planChunk virtualByte limit = .ok plan ∧
        reader.PlanRight owner virtualByte limit plan) ∨
      ((∃ e, reader.planChunk virtualByte limit = fail e) ∧
        referenceByte reader.image reader.bat owner virtualByte = none) := by
  have insideBat : virtualByte < reader.bat.metadata.virtualDiskSize := by
    rw [← intact.metadata_eq]
    exact inside
  rw [planChunk_eq intact inside,
    Bat.readTargetForByte_eq intact.sound insideBat]
  cases found : reader.bat.payloadEntry virtualByte with
  | none =>
      right
      refine ⟨⟨_, rfl⟩, ?_⟩
      rw [referenceByte, found]
  | some entry =>
      have reference : referenceByte reader.image reader.bat owner
          virtualByte =
            entryByte reader.image reader.bat owner entry virtualByte := by
        rw [referenceByte, found]
      rw [reference]
      dsimp only
      unfold Bat.resolvePayload
      dsimp only
      by_cases absent : Bat.stateOf entry = Bat.payloadBlockNotPresent
      · left
        refine ⟨(.parent, _), by rw [if_pos absent]; rfl, ?_⟩
        apply planRight_of_entry intact limitPos found
        intro index within
        unfold entryByte
        dsimp only
        rw [if_pos absent]
        rfl
      rw [if_neg absent]
      by_cases zero : Bat.stateOf entry = Bat.payloadBlockUndefined ∨
          Bat.stateOf entry = Bat.payloadBlockZero ∨
          Bat.stateOf entry = Bat.payloadBlockUnmapped
      · left
        refine ⟨(.zero, _), by rw [if_pos zero]; rfl, ?_⟩
        apply planRight_of_entry intact limitPos found
        intro index within
        unfold entryByte
        dsimp only
        rw [if_neg absent, if_pos zero]
        rfl
      rw [if_neg zero]
      by_cases present : Bat.stateOf entry = Bat.payloadBlockFullyPresent ∨
          Bat.stateOf entry = Bat.payloadBlockPartiallyPresent
      case neg =>
        right
        refine ⟨⟨_, by rw [if_pos present]; rfl⟩, ?_⟩
        unfold entryByte
        dsimp only
        rw [if_neg absent, if_neg zero, if_pos present]
      rw [if_neg (not_not_intro present)]
      by_cases representable :
          reader.bat.byteOffset entry virtualByte < wordCount
      case neg =>
        right
        refine ⟨⟨_, by rw [if_neg representable]; rfl⟩, ?_⟩
        unfold entryByte
        dsimp only
        rw [if_neg absent, if_neg zero, if_neg (not_not_intro present),
          if_neg representable]
      rw [if_pos representable]
      by_cases full : Bat.stateOf entry = Bat.payloadBlockFullyPresent
      · left
        refine ⟨(.file _, _), by rw [if_pos full]; rfl, ?_⟩
        apply planRight_of_entry intact limitPos found
        intro index within
        exact entryByte_full intact full within
      rw [if_neg full]
      have isPartial := present.resolve_left full
      have unowned : entryByte reader.image reader.bat owner entry
          virtualByte =
            partialByte reader.image reader.bat owner entry virtualByte := by
        unfold entryByte
        dsimp only
        rw [if_neg absent, if_neg zero, if_neg (not_not_intro present),
          if_pos representable, if_neg full]
      rw [unowned]
      unfold Bat.resolvePartial partialByte
      dsimp only
      cases mapped : reader.bat.bitmapEntry virtualByte with
      | none =>
          right
          exact ⟨⟨_, rfl⟩, rfl⟩
      | some bitmap =>
          dsimp only
          by_cases present :
              Bat.stateOf bitmap = Bat.sectorBitmapBlockPresent
          case neg =>
            right
            refine ⟨⟨_, by rw [if_pos present]; rfl⟩, ?_⟩
            rw [if_pos present]
          rw [if_neg (not_not_intro present), if_neg (not_not_intro present)]
          by_cases bitmapRepresentable :
              reader.bat.bitmapByteOffset bitmap virtualByte < wordCount
          case neg =>
            right
            refine ⟨⟨_, by rw [if_neg bitmapRepresentable]; rfl⟩, ?_⟩
            rw [getElem?_of_wordCount_le intact.image_small (by omega)]
          rw [if_pos bitmapRepresentable]
          rw [attempt_ok, ok_bind]
          dsimp only
          rw [planTarget]
          cases read :
              reader.image[reader.bat.bitmapByteOffset bitmap virtualByte]? with
          | none =>
              right
              exact ⟨⟨_, rfl⟩, rfl⟩
          | some owners =>
              left
              exact ⟨_, rfl, planRight_of_run intact limitPos found isPartial
                representable mapped present read⟩

end Plan

/-! ## Reading one chunk -/

section Chunk

variable {image : Bytes} {bat : Bat} {owner : Nat → Option UInt8}
  {virtualByte limit : Nat}

/-- The disk of a container over the disk of its parent. -/
def referenceDisk (reader : VhdxReader P) (parent : Option ReferenceDisk) :
    ReferenceDisk where
  size := reader.metadata.virtualDiskSize
  byte := referenceByte reader.image reader.bat (parentByte parent)

/-- A result agrees with the next bytes of a disk: it delivers some of them,
at least one, or it fails and one of them has no value. -/
def ChunkAgrees (disk : ReferenceDisk) (virtualByte limit : Nat)
    (result : Exec IoError Bytes) : Prop :=
  (∃ chunk, result = .ok chunk ∧ 0 < chunk.length ∧ chunk.length ≤ limit ∧
      disk.range virtualByte chunk.length = some chunk) ∨
    ((∃ e, result = fail e) ∧ disk.range virtualByte limit = none)

open PresentsDisk in
/-- Calls on the parent keep it sound and do not change its disk. -/
def ParentKept [PresentsDisk P] (before after : Option P) : Prop :=
  after.map disk = before.map disk ∧ ∀ device ∈ after, Sound device

/-- A range with an undefined byte is undefined. -/
theorem range_eq_none_of_byte {disk : ReferenceDisk} {index : Nat}
    (indexLt : index < limit)
    (undefinedByte : disk.byte (virtualByte + index) = none) :
    disk.range virtualByte limit = none :=
  disk.range_eq_none_iff.mpr ⟨index, indexLt, undefinedByte⟩

variable [ReadSeek IoError P] [PresentsDisk P] [RefinesDisk IoError P]

open PresentsDisk in
/-- A chunk of the parent is read at its own virtual offset. -/
theorem readParentChunk_spec {count : Nat} (parent : Option P)
    (sound : ∀ device ∈ parent, Sound device)
    (virtualByteLt : virtualByte < 2 ^ 63) (countPos : 0 < count) :
    ParentKept parent (readParentChunk parent count virtualByte).2 ∧
      ((∃ chunk, (readParentChunk parent count virtualByte).1 = .ok chunk ∧
          chunk.length = count ∧ ∀ index < count,
            parentByte (parent.map disk) (virtualByte + index) =
              chunk[index]?) ∨
        ((∃ e, (readParentChunk parent count virtualByte).1 = fail e) ∧
          ∃ index < count,
            parentByte (parent.map disk) (virtualByte + index) = none)) := by
  cases parent with
  | none =>
      refine ⟨⟨rfl, sound⟩, Or.inl ⟨_, rfl, List.length_replicate, ?_⟩⟩
      intro index indexLt
      rw [List.getElem?_replicate_of_lt indexLt]
      rfl
  | some device =>
      obtain ⟨stays, sameDisk, answer⟩ := RefinesDisk.seek_step (ε := IoError)
        device (.start virtualByte) (sound device rfl)
      have target : seekTarget (ε := IoError) (disk device).size
          (position device) (.start virtualByte) = .ok (virtualByte : Int) := by
        rw [seekTarget, asI64, if_pos virtualByteLt]
      rw [target] at answer
      dsimp only at answer
      rw [if_neg (by omega)] at answer
      obtain ⟨moved, positioned⟩ := answer
      rcases sought : ReadSeek.seek device (SeekFrom.start virtualByte) with
        ⟨result, after⟩
      rw [sought] at stays sameDisk moved positioned
      dsimp only at stays sameDisk moved positioned
      rw [Int.toNat_natCast] at positioned
      subst moved
      obtain ⟨restStays, restDisk, delivered⟩ :=
        readExact_refines readExactEof count after stays
      have unfolded : readParentChunk (some device) count virtualByte =
          ((readExact readExactEof count after).1,
            some (readExact readExactEof count after).2) := by
        unfold readParentChunk
        dsimp only
        rw [sought]
      rw [unfolded]
      dsimp only
      rw [sameDisk] at restDisk delivered
      rw [positioned] at delivered
      refine ⟨⟨by simp [restDisk], by simpa using restStays⟩, ?_⟩
      rw [Option.map_some]
      by_cases inside : virtualByte + count ≤ (disk device).size
      · have inDisk : ∀ index < count,
            parentByte (some (disk device)) (virtualByte + index) =
              (disk device).byte (virtualByte + index) := by
          intro index indexLt
          unfold parentByte
          dsimp only
          rw [if_pos (by omega)]
        rw [if_pos (Or.inl inside)] at delivered
        cases found : (disk device).range virtualByte count with
        | some bytes =>
            rw [found] at delivered
            obtain ⟨total, values⟩ :=
              (disk device).range_eq_some_iff.mp found
            refine Or.inl ⟨bytes, delivered, total, ?_⟩
            intro index indexLt
            rw [inDisk index indexLt, values index indexLt]
        | none =>
            rw [found] at delivered
            obtain ⟨index, indexLt, missing⟩ :=
              (disk device).range_eq_none_iff.mp found
            refine Or.inr ⟨delivered, index, indexLt, ?_⟩
            rw [inDisk index indexLt, missing]
      · rw [if_neg (by omega)] at delivered
        refine Or.inr ⟨delivered, count - 1, by omega, ?_⟩
        unfold parentByte
        dsimp only
        rw [if_neg (by omega)]

open PresentsDisk in
/-- One pass of the read loop delivers the next bytes of the disk. -/
theorem readChunk_spec (intact : reader.Intact) (parent : Option P)
    (sound : ∀ device ∈ parent, Sound device)
    (limitPos : 0 < limit)
    (inside : virtualByte + limit ≤ reader.metadata.virtualDiskSize) :
    ParentKept parent (reader.readChunk parent virtualByte limit).2 ∧
      ChunkAgrees (reader.referenceDisk (parent.map disk)) virtualByte limit
        (reader.readChunk parent virtualByte limit).1 := by
  have sizeLe := intact.sound.valid.disk_le_max
  rw [← intact.metadata_eq] at sizeLe
  unfold VhdxMetadata.virtualDiskSizeMax at sizeLe
  rcases planChunk_spec intact (parentByte (parent.map disk))
      (show virtualByte < reader.metadata.virtualDiskSize by omega)
      limitPos with
    ⟨⟨source, count⟩, planned, countPos, countLe, right⟩ |
    ⟨⟨e, failed⟩, undefinedByte⟩
  · dsimp only at countPos countLe right
    -- A chunk that gives the bytes of its source gives those of the disk.
    have delivers : ∀ chunk : Bytes, chunk.length = count →
        (∀ index < count,
          sourceByte reader.image (parentByte (parent.map disk)) virtualByte
            source index = chunk[index]?) →
        ChunkAgrees (reader.referenceDisk (parent.map disk)) virtualByte
          limit (.ok chunk) := by
      intro chunk total values
      refine Or.inl ⟨chunk, rfl, by omega, by omega, ?_⟩
      rw [ReferenceDisk.range_eq_some_iff]
      refine ⟨rfl, fun index indexLt => ?_⟩
      rw [← values index (by omega)]
      exact right index (by omega)
    have misses : ∀ index < count,
        sourceByte reader.image (parentByte (parent.map disk)) virtualByte
          source index = none →
        (reader.referenceDisk (parent.map disk)).range virtualByte limit =
          none := by
      intro index indexLt missing
      apply range_eq_none_of_byte (show index < limit by omega)
      rw [← missing]
      exact right index indexLt
    unfold readChunk
    rw [planned]
    cases source with
    | file fileOffset =>
        refine ⟨⟨rfl, sound⟩, ?_⟩
        dsimp only
        rw [readFileChunk_eq intact.addressable]
        split
        · rename_i short
          refine Or.inr ⟨⟨_, rfl⟩, ?_⟩
          rw [length_window] at short
          apply misses (count - 1) (by omega)
          exact List.getElem?_eq_none (by omega)
        · apply delivers
          · have := length_window reader.image fileOffset count
            omega
          · intro index indexLt
            rw [getElem?_window, if_pos indexLt]
            rfl
    | parent =>
        obtain ⟨kept, answer⟩ := readParentChunk_spec parent sound
          (show virtualByte < 2 ^ 63 by omega) countPos
        refine ⟨kept, ?_⟩
        dsimp only
        rcases answer with ⟨chunk, delivered, total, values⟩ |
          ⟨failed, index, indexLt, missing⟩
        · rw [delivered]
          exact delivers chunk total values
        · exact Or.inr ⟨failed, misses index indexLt missing⟩
    | zero =>
        refine ⟨⟨rfl, sound⟩, ?_⟩
        apply delivers _ List.length_replicate
        intro index indexLt
        rw [List.getElem?_replicate_of_lt indexLt]
        rfl
  · unfold readChunk
    rw [failed]
    refine ⟨⟨rfl, sound⟩, Or.inr ⟨⟨e, rfl⟩, ?_⟩⟩
    apply range_eq_none_of_byte limitPos
    exact undefinedByte

omit [ReadSeek IoError P] [RefinesDisk IoError P] in
theorem ParentKept.trans {first second third : Option P}
    (before : ParentKept first second) (after : ParentKept second third) :
    ParentKept first third :=
  ⟨after.1.trans before.1, after.2⟩

open PresentsDisk in
/-- The read loop delivers the rest of the range, by induction on what is
still to be read. -/
theorem readLoop_spec (intact : reader.Intact) {toRead : Nat}
    (inside : reader.pos + toRead ≤ reader.metadata.virtualDiskSize)
    (remaining : Nat) (written : Nat) (total : written + remaining = toRead)
    (parent : Option P) (sound : ∀ device ∈ parent, Sound device) :
    ParentKept parent (reader.readLoop toRead written parent).2 ∧
      match (reader.referenceDisk (parent.map disk)).range
          (reader.pos + written) remaining with
      | some bytes => (reader.readLoop toRead written parent).1 = .ok bytes
      | none => ∃ e, (reader.readLoop toRead written parent).1 = fail e := by
  have sizeLe := intact.sound.valid.disk_le_max
  rw [← intact.metadata_eq] at sizeLe
  unfold VhdxMetadata.virtualDiskSizeMax at sizeLe
  induction remaining using Nat.strong_induction_on generalizing written
    parent with
  | _ remaining inductionHypothesis =>
      unfold readLoop
      by_cases more : written < toRead
      case neg =>
        have ended : remaining = 0 := by omega
        subst ended
        rw [dif_neg more]
        exact ⟨⟨rfl, sound⟩, rfl⟩
      rw [dif_pos more, add_eq_ok (by unfold wordCount; omega),
        show toRead - written = remaining by omega]
      dsimp only
      obtain ⟨kept, answer⟩ := readChunk_spec intact parent sound
        (show 0 < remaining by omega)
        (show reader.pos + written + remaining ≤
          reader.metadata.virtualDiskSize by omega)
      rcases outcome : reader.readChunk parent (reader.pos + written)
        remaining with ⟨result, after⟩
      rw [outcome] at kept answer
      dsimp only at kept answer ⊢
      rcases answer with ⟨chunk, rfl, progress, atMost, delivered⟩ |
        ⟨⟨e, rfl⟩, missing⟩
      · dsimp only
        rw [dif_neg (by omega)]
        obtain ⟨restKept, rest⟩ := inductionHypothesis
          (remaining - chunk.length) (by omega) (written + chunk.length)
          (by omega) after kept.2
        have appended := (reader.referenceDisk (parent.map disk)).range_append
          (reader.pos + written) chunk.length (remaining - chunk.length)
        rw [show chunk.length + (remaining - chunk.length) = remaining by
          omega, delivered] at appended
        rw [kept.1, ← Nat.add_assoc] at rest
        rw [appended]
        rcases restOutcome : reader.readLoop toRead (written + chunk.length)
          after with ⟨restResult, final⟩
        rw [restOutcome] at restKept rest
        cases found : (reader.referenceDisk (parent.map disk)).range
            (reader.pos + written + chunk.length)
            (remaining - chunk.length) with
        | some bytes =>
            rw [found] at rest
            dsimp only at rest
            subst rest
            exact ⟨kept.trans restKept, rfl⟩
        | none =>
            rw [found] at rest
            obtain ⟨e, failed⟩ := rest
            dsimp only at failed
            subst failed
            exact ⟨kept.trans restKept, e, rfl⟩
      · rw [missing]
        exact ⟨kept, e, rfl⟩

end Chunk

/-! ## The reader refines its disk -/

section Refinement

open PresentsDisk

instance [PresentsDisk P] : PresentsDisk (VhdxReader P) where
  disk reader := reader.referenceDisk (reader.parent.map disk)
  position reader := reader.pos
  Sound reader := reader.Intact ∧ ∀ device ∈ reader.parent, Sound device

variable [ReadSeek IoError P] [PresentsDisk P] [RefinesDisk IoError P]

omit [ReadSeek IoError P] [PresentsDisk P] [RefinesDisk IoError P] in
/-- Being intact is a property of the container alone. -/
theorem Intact.of_sameContainer {after : VhdxReader P}
    (intact : reader.Intact)
    (same : after.backing = reader.backing ∧
      after.overlay = reader.overlay ∧ after.bat = reader.bat ∧
      after.metadata = reader.metadata) :
    after.Intact := by
  obtain ⟨backing, overlay, bat, metadata⟩ := same
  constructor
  · unfold Addressable
    rw [backing]
    exact intact.addressable
  · rw [bat]
    exact intact.sound
  · rw [metadata, bat]
    exact intact.metadata_eq

omit [ReadSeek IoError P] [PresentsDisk P] [RefinesDisk IoError P] in
/-- So is the disk, over the disk of the parent. -/
theorem referenceDisk_of_sameContainer {after : VhdxReader P}
    (parent : Option ReferenceDisk)
    (same : after.backing = reader.backing ∧
      after.overlay = reader.overlay ∧ after.bat = reader.bat ∧
      after.metadata = reader.metadata) :
    after.referenceDisk parent = reader.referenceDisk parent := by
  obtain ⟨backing, overlay, bat, metadata⟩ := same
  unfold referenceDisk image
  rw [backing, overlay, bat, metadata]

/-- A read delivers the range of the disk and advances, or fails when the
range has no value. -/
theorem read_spec (count : Nat) (intact : reader.Intact)
    (sound : ∀ device ∈ reader.parent, Sound device) :
    (reader.read count).2.parent.map disk = reader.parent.map disk ∧
      (∀ device ∈ (reader.read count).2.parent, Sound device) ∧
      match (disk reader).read reader.pos count with
      | some bytes =>
          (reader.read count).1 = .ok bytes ∧
            (reader.read count).2.pos = reader.pos + bytes.length
      | none =>
          (∃ e, (reader.read count).1 = fail e) ∧
            (reader.read count).2.pos = reader.pos := by
  have sizeLe := intact.sound.valid.disk_le_max
  rw [← intact.metadata_eq] at sizeLe
  unfold VhdxMetadata.virtualDiskSizeMax at sizeLe
  have size : (disk reader).size = reader.metadata.virtualDiskSize := rfl
  unfold read ReferenceDisk.read
  rw [size]
  by_cases beyond : reader.pos ≥ reader.metadata.virtualDiskSize
  · rw [if_pos beyond, show min count
      (reader.metadata.virtualDiskSize - reader.pos) = 0 by omega]
    exact ⟨rfl, sound, rfl, rfl⟩
  rw [if_neg beyond]
  dsimp only
  generalize lengthEq : min count
    (reader.metadata.virtualDiskSize - reader.pos) = toRead
  obtain ⟨kept, answer⟩ := readLoop_spec intact
    (show reader.pos + toRead ≤ reader.metadata.virtualDiskSize by omega)
    toRead 0 (Nat.zero_add _) reader.parent sound
  rw [Nat.add_zero] at answer
  change match (disk reader).range reader.pos toRead with
    | some bytes => _
    | none => _ at answer
  rcases outcome : reader.readLoop toRead 0 reader.parent with
    ⟨result, after⟩
  rw [outcome] at kept answer
  cases found : (disk reader).range reader.pos toRead with
  | some bytes =>
      have total := (disk reader).length_of_range found
      rw [found] at answer
      dsimp only at answer
      subst answer
      dsimp only
      rw [add_eq_ok (by unfold wordCount; omega)]
      exact ⟨kept.1, kept.2, rfl, rfl⟩
  | none =>
      rw [found] at answer
      obtain ⟨e, failed⟩ := answer
      dsimp only at failed
      subst failed
      exact ⟨kept.1, kept.2, ⟨e, rfl⟩, rfl⟩

omit [ReadSeek IoError P] [PresentsDisk P] [RefinesDisk IoError P] in
/-- A seek moves to its target unless that lies before the start. -/
theorem seek_spec (reader : VhdxReader P) (target : SeekFrom) :
    match (seekTarget reader.metadata.virtualDiskSize reader.pos target :
      Exec IoError Int) with
    | .error stop =>
        (reader.seek target).1 = .error stop ∧
          (reader.seek target).2.pos = reader.pos
    | .ok newPos =>
        if newPos < 0 then
          (∃ e, (reader.seek target).1 = fail e) ∧
            (reader.seek target).2.pos = reader.pos
        else
          (reader.seek target).1 = .ok newPos.toNat ∧
            (reader.seek target).2.pos = newPos.toNat := by
  unfold seek
  cases seekTarget (ε := IoError) reader.metadata.virtualDiskSize reader.pos
      target with
  | error stop => exact ⟨rfl, rfl⟩
  | ok newPos =>
      dsimp only
      split
      · exact ⟨⟨_, rfl⟩, rfl⟩
      · exact ⟨rfl, rfl⟩

instance : RefinesDisk IoError (VhdxReader P) where
  read_step reader count := by
    rintro ⟨intact, sound⟩
    have frame := read_frame reader count
    obtain ⟨sameParent, parentSound, answer⟩ := read_spec count intact sound
    refine ⟨⟨intact.of_sameContainer frame, parentSound⟩, ?_, answer⟩
    change (reader.read count).2.referenceDisk
      ((reader.read count).2.parent.map disk) = reader.referenceDisk _
    rw [referenceDisk_of_sameContainer _ frame, sameParent]
  seek_step reader target := by
    rintro ⟨intact, sound⟩
    obtain ⟨backing, overlay, bat, metadata, parent⟩ :=
      seek_frame reader target
    have frame := And.intro backing (And.intro overlay (And.intro bat metadata))
    refine ⟨⟨intact.of_sameContainer frame, ?_⟩, ?_, ?_⟩
    · change ∀ device ∈ (reader.seek target).2.parent, _
      rw [parent]
      exact sound
    · change (reader.seek target).2.referenceDisk
        ((reader.seek target).2.parent.map disk) = reader.referenceDisk _
      rw [referenceDisk_of_sameContainer _ frame, parent]
    · have answer := seek_spec reader target
      have sameTarget : (seekTarget (disk reader).size (position reader)
          target : Exec IoError Int) =
            seekTarget reader.metadata.virtualDiskSize reader.pos target := rfl
      rw [sameTarget]
      cases resolved : (seekTarget reader.metadata.virtualDiskSize reader.pos
          target : Exec IoError Int) with
      | error stop =>
          rw [resolved] at answer
          exact answer
      | ok newPos =>
          rw [resolved] at answer
          exact answer

end Refinement

/-! ## Opened readers -/

section Opened

open PresentsDisk

variable [ReadSeek IoError P]

/-- A reader that some opening returned, after any calls. The parents that it
was opened with satisfy `parentOpened`. -/
inductive OpenedOver (parentOpened : P → Prop) : VhdxReader P → Prop where
  | fromBytes {reader : VhdxReader P} (data : Buffer) (parent : Option P)
      (parents : ∀ device ∈ parent, parentOpened device)
      (opened : VhdxReader.fromBytes data.bytes parent = .ok reader) :
      OpenedOver parentOpened reader
  | fromBacking {reader : VhdxReader P} (backing : Backing)
      (allocated : backing.view.length ≤ isizeMax) (parent : Option P)
      (parents : ∀ device ∈ parent, parentOpened device)
      (opened : VhdxReader.fromBacking backing parent = .ok reader) :
      OpenedOver parentOpened reader
  | read {reader : VhdxReader P} (count : Nat)
      (opened : OpenedOver parentOpened reader) :
      OpenedOver parentOpened (reader.read count).2
  | seek {reader : VhdxReader P} (target : SeekFrom)
      (opened : OpenedOver parentOpened reader) :
      OpenedOver parentOpened (reader.seek target).2

omit [ReadSeek IoError P] in
/-- What assembling returns is intact and keeps the parent. -/
theorem intact_of_assemble {backing : Backing} {overlay : LogOverlay}
    {parent : Option P}
    (large : minContainerSize ≤ backing.view.length)
    (allocated : backing.view.length ≤ isizeMax)
    (assembled : assemble backing overlay parent = .ok reader) :
    reader.Intact ∧ reader.parent = parent := by
  rw [assemble_eq parent large allocated] at assembled
  obtain ⟨⟨metadata, bat⟩, decoded, built⟩ := bind_eq_ok.mp assembled
  obtain ⟨regions, decodes, rfl⟩ := decodeImage_eq_ok_iff.mp decoded
  cases built
  refine ⟨⟨?_, ⟨decodes.valid, ?_⟩, rfl⟩, rfl⟩
  · unfold Addressable
    unfold isizeMax at allocated
    unfold wordCount
    dsimp only
    omega
  · intro entry member
    exact Bat.lt_of_mem_entriesOf member

omit [ReadSeek IoError P] in
/-- Opening a buffer gives an intact reader. -/
theorem intact_of_fromBytes {parent : Option P} (data : Buffer)
    (opened : VhdxReader.fromBytes data.bytes parent = .ok reader) :
    reader.Intact ∧ reader.parent = parent := by
  have allocated := data.allocated
  obtain ⟨entries, gate, -, -, assembled⟩ :=
    (fromBytes_eq_ok_iff allocated).mp opened
  have large := (openGate_eq_ok_iff.mp gate).2
  apply intact_of_assemble _ _ assembled
  · simpa [Backing.view] using large
  · simpa [Backing.view] using allocated

omit [ReadSeek IoError P] in
/-- Opening a backing gives an intact reader. -/
theorem intact_of_fromBacking {parent : Option P} {backing : Backing}
    (allocated : backing.view.length ≤ isizeMax)
    (opened : VhdxReader.fromBacking backing parent = .ok reader) :
    reader.Intact ∧ reader.parent = parent := by
  rw [fromBacking_eq parent allocated] at opened
  obtain ⟨⟨⟩, gate, opened⟩ := bind_eq_ok.mp opened
  obtain ⟨entries, pending, opened⟩ := bind_eq_ok.mp opened
  obtain ⟨overlay, recorded, assembled⟩ := bind_eq_ok.mp opened
  exact intact_of_assemble (openGate_eq_ok_iff.mp gate).2 allocated assembled

end Opened

/-- Opened readers are sound over sound parents. -/
theorem OpenedOver.sound [ReadSeek IoError P] [PresentsDisk P]
    [RefinesDisk IoError P] {parentOpened : P → Prop}
    (parentsSound : ∀ device, parentOpened device →
      PresentsDisk.Sound device)
    (opened : OpenedOver parentOpened reader) :
    PresentsDisk.Sound reader := by
  induction opened with
  | fromBytes data parent parents opened =>
      obtain ⟨intact, rfl⟩ := intact_of_fromBytes data opened
      exact ⟨intact, fun device member =>
        parentsSound device (parents device member)⟩
  | fromBacking backing allocated parent parents opened =>
      obtain ⟨intact, rfl⟩ := intact_of_fromBacking allocated opened
      exact ⟨intact, fun device member =>
        parentsSound device (parents device member)⟩
  | read count _ sound =>
      exact (RefinesDisk.read_step (ε := IoError) _ count sound).1
  | seek target _ sound =>
      exact (RefinesDisk.seek_step (ε := IoError) _ target sound).1

end VhdxReader

/-! ## The source of positioned reads -/

namespace VhdxSource

open PresentsDisk

variable {P : Type} [ReadSeek IoError P] [PresentsDisk P]
  [RefinesDisk IoError P]

/-- The replies of a source to a sequence of requests for `count` bytes at
`offset`. -/
def answers : List (Nat × Nat) → VhdxSource P → List Reply
  | [], _ => []
  | (offset, count) :: requests, source =>
      let (result, source) := source.readAt offset count
      replyOf .bytes result :: answers requests source

/-- The answer of a disk to a positioned read. -/
def diskAnswer (disk : ReferenceDisk) (request : Nat × Nat) : Reply :=
  match disk.read request.1 request.2 with
  | some bytes => .bytes bytes
  | none => .failed

/-- The read loop fills its request in one pass, or fails. -/
theorem readAtLoop_spec (reader : VhdxReader P) (want : Nat)
    (sound : Sound reader)
    (inside : reader.pos + want ≤ reader.metadata.virtualDiskSize) :
    Sound (readAtLoop reader want).2 ∧
      disk (readAtLoop reader want).2 = disk reader ∧
      match (disk reader).range reader.pos want with
      | some bytes => (readAtLoop reader want).1 = .ok bytes
      | none => ∃ e, (readAtLoop reader want).1 = fail e := by
  by_cases more : 0 < want
  case neg =>
    have ended : want = 0 := by omega
    subst ended
    rw [readAtLoop, dif_neg more]
    exact ⟨sound, rfl, rfl⟩
  obtain ⟨stays, sameDisk, answer⟩ :=
    RefinesDisk.read_step (ε := IoError) reader want sound
  have whole : min want ((disk reader).size - position reader) = want := by
    change min want (reader.metadata.virtualDiskSize - reader.pos) = want
    omega
  rw [ReferenceDisk.read, whole] at answer
  change Sound (reader.read want).2 at stays
  change disk (reader.read want).2 = disk reader at sameDisk
  rw [readAtLoop, dif_pos more]
  cases found : (disk reader).range reader.pos want with
  | some bytes =>
      have total := (disk reader).length_of_range found
      change (match (disk reader).range reader.pos want with
        | some bytes => (reader.read want).1 = .ok bytes ∧ _
        | none => _) at answer
      rw [found] at answer
      rcases outcome : reader.read want with ⟨result, after⟩
      rw [outcome] at stays sameDisk answer
      obtain ⟨delivered, -⟩ := answer
      dsimp only at delivered stays sameDisk
      subst delivered
      dsimp only
      rw [dif_neg (by omega), readAtLoop, dif_neg (by omega)]
      dsimp only
      rw [List.append_nil]
      exact ⟨stays, sameDisk, rfl⟩
  | none =>
      change (match (disk reader).range reader.pos want with
        | some bytes => _
        | none => (∃ e, (reader.read want).1 = fail e) ∧ _) at answer
      rw [found] at answer
      rcases outcome : reader.read want with ⟨result, after⟩
      rw [outcome] at stays sameDisk answer
      obtain ⟨⟨e, failed⟩, -⟩ := answer
      dsimp only at failed stays sameDisk
      subst failed
      exact ⟨stays, sameDisk, e, rfl⟩

/-- One positioned read is answered by the disk. -/
theorem readAt_spec {source : VhdxSource P} (offset count : Nat)
    (sound : Sound source.inner)
    (lengthEq : source.len = source.inner.metadata.virtualDiskSize) :
    Sound (source.readAt offset count).2.inner ∧
      disk (source.readAt offset count).2.inner = disk source.inner ∧
      (source.readAt offset count).2.len = source.len ∧
      replyOf .bytes (source.readAt offset count).1 =
        diskAnswer (disk source.inner) (offset, count) := by
  have size : (disk source.inner).size =
      source.inner.metadata.virtualDiskSize := rfl
  have sizeLe := sound.1.sound.valid.disk_le_max
  rw [← sound.1.metadata_eq] at sizeLe
  unfold VhdxMetadata.virtualDiskSizeMax at sizeLe
  unfold readAt diskAnswer ReferenceDisk.read
  rw [size, ← lengthEq]
  dsimp only
  by_cases beyond : source.len - offset = 0
  · rw [if_pos beyond, beyond, Nat.min_zero]
    exact ⟨sound, rfl, rfl, rfl⟩
  rw [if_neg beyond]
  -- The seek lands on the offset, which is inside the disk.
  have sought : source.inner.seek (.start offset) =
      (.ok offset, { source.inner with pos := offset }) := by
    have small : offset < 2 ^ 63 := by omega
    rw [VhdxReader.seek, seekTarget, asI64, if_pos small]
    dsimp only
    rw [if_neg (by omega), Int.toNat_natCast]
  have moved : Sound { source.inner with pos := offset } :=
    ⟨sound.1.of_sameContainer ⟨rfl, rfl, rfl, rfl⟩, sound.2⟩
  rw [sought]
  dsimp only
  obtain ⟨stays, sameDisk, answer⟩ := readAtLoop_spec
    { source.inner with pos := offset } (min count (source.len - offset))
    moved (by
      dsimp only
      omega)
  refine ⟨stays, sameDisk, rfl, ?_⟩
  change match (disk source.inner).range offset
      (min count (source.len - offset)) with
    | some bytes => _ = Except.ok bytes
    | none => ∃ e, _ = fail e at answer
  cases found : (disk source.inner).range offset
      (min count (source.len - offset)) with
  | some bytes =>
      rw [found] at answer
      rw [answer]
      rfl
  | none =>
      rw [found] at answer
      obtain ⟨e, failed⟩ := answer
      rw [failed]
      rfl

/-- A source answers every sequence of requests as the disk does. -/
theorem answers_refine (requests : List (Nat × Nat)) (source : VhdxSource P)
    (sound : Sound source.inner)
    (lengthEq : source.len = source.inner.metadata.virtualDiskSize) :
    answers requests source =
      requests.map (diskAnswer (disk source.inner)) := by
  induction requests generalizing source with
  | nil => rfl
  | cons request requests inductionHypothesis =>
      obtain ⟨offset, count⟩ := request
      obtain ⟨stays, sameDisk, sameLen, answer⟩ :=
        readAt_spec offset count sound lengthEq
      have sameSize := congrArg ReferenceDisk.size sameDisk
      have next := inductionHypothesis (source.readAt offset count).2 stays
        (by rw [sameLen, lengthEq]; exact sameSize.symm)
      rw [sameDisk] at next
      rw [answers, List.map_cons, ← answer, ← next]

end VhdxSource

/-! ## Parent chains -/

open PresentsDisk

instance : PresentsDisk Empty where
  disk device := nomatch device
  position device := nomatch device
  Sound device := nomatch device

instance : RefinesDisk IoError Empty where
  read_step device := nomatch device
  seek_step device := nomatch device

namespace Parent

instance presentsDisk : (depth : Nat) → PresentsDisk (Parent depth)
  | 0 => inferInstanceAs (PresentsDisk Empty)
  | depth + 1 =>
      have := presentsDisk depth
      inferInstanceAs (PresentsDisk (VhdxReader (Parent depth)))

instance refinesDisk : (depth : Nat) → RefinesDisk IoError (Parent depth)
  | 0 => inferInstanceAs (RefinesDisk IoError Empty)
  | depth + 1 =>
      have := refinesDisk depth
      inferInstanceAs (RefinesDisk IoError (VhdxReader (Parent depth)))

/-- Every reader of the chain was returned by an opening, with the next one
as its parent. -/
def Opened : (depth : Nat) → Parent depth → Prop
  | 0 => fun device : Empty => nomatch device
  | depth + 1 => VhdxReader.OpenedOver (Opened depth)

/-- Chains of opened readers are sound. -/
theorem Opened.sound :
    (depth : Nat) → (device : Parent depth) → Opened depth device →
      Sound device
  | 0, device, _ => nomatch device
  | depth + 1, _, opened =>
      VhdxReader.OpenedOver.sound (Opened.sound depth) opened

end Parent

namespace VhdxReader

/-- A reader at the top of a chain of `depth` opened readers. -/
def Opened (depth : Nat) (reader : VhdxReader (Parent depth)) : Prop :=
  OpenedOver (Parent.Opened depth) reader

/-- An opened reader answers every sequence of reads and seeks, and its
source every sequence of positioned reads, as the reference disk does. -/
theorem refines_referenceDisk {depth : Nat}
    {reader : VhdxReader (Parent depth)} (opened : reader.Opened depth) :
    (∀ calls, replies calls reader =
        (disk reader).replies calls reader.pos) ∧
      ∀ requests, VhdxSource.answers requests (.new reader) =
        requests.map (VhdxSource.diskAnswer (disk reader)) := by
  have sound : Sound reader :=
    OpenedOver.sound (Parent.Opened.sound depth) opened
  exact ⟨fun calls => replies_refine calls reader sound,
    fun requests => VhdxSource.answers_refine requests (.new reader) sound
      rfl⟩

/-- A container whose only block is not present. -/
def emptyContainer : Buffer where
  bytes :=
    (standardPlan (diskItems guidVirtualDiskSize) [0] []).container
  allocated := by
    rw [ContainerPlan.length_container]
    exact show 0x600000 ≤ isizeMax by decide

/-- The reader that opens it. -/
def emptyReader : VhdxReader (Parent 0) :=
  plainReader emptyContainer.bytes oneBlockDisk
    { entries := [0], metadata := oneBlockDisk } none

theorem emptyReader_opened : emptyReader.Opened 0 := by
  have fits : StandardFits (diskItems guidVirtualDiskSize) [0] [] :=
    ⟨diskItems_fit rfl, by decide, List.Pairwise.nil, by simp⟩
  have opened := standardPlan_opens fits (by simp) recordedItems_diskItems
    oneBlockDisk_valid (none : Option (Parent 0)) (by simp [oneBlockDisk])
  refine OpenedOver.fromBytes emptyContainer none (by simp) ?_
  unfold emptyReader emptyContainer
  dsimp only
  exact opened

/-- Items of a differencing disk of one block of 1 MiB. -/
def childItems : List StoredItem :=
  [{ guid := guidFileParameters, length := 8, value := 2 <<< 32 + 0x100000 },
    { guid := guidVirtualDiskSize, length := 8, value := 0x100000 }]

/-- The description of that disk. -/
def childDisk : VhdxMetadata where
  blockSize := 0x100000
  hasParent := true
  virtualDiskSize := 0x100000
  logicalSectorSize := 512

/-- Its table: the block at 5 MiB is partially present, its bitmap at 4
MiB. -/
def childEntries : List Nat :=
  0x500007 :: (List.replicate 4095 0 ++ [0x400006])

/-- The first sector is stored in the container, the others in the parent. -/
def childPlan : ContainerPlan :=
  standardPlan childItems childEntries [(0x400000, [1]), (0x500000, [7])]

theorem childItems_fit : MetadataFits childItems where
  encodable := by
    intro item member
    rcases List.mem_pair.mp member with rfl | rfl
    · exact ⟨rfl, le_rfl, show 2 <<< 32 + 0x100000 < 2 ^ 64 by decide⟩
    · exact ⟨rfl, le_rfl, show 0x100000 < 2 ^ 64 by decide⟩
  count_le := show 2 ≤ 256 by decide

theorem childDisk_valid : childDisk.Valid :=
  VhdxMetadata.validate_eq_ok_iff.mp rfl

theorem length_childEntries : childEntries.length = 4097 := by
  rw [childEntries, List.length_cons, List.length_append,
    List.length_replicate, List.length_singleton]

theorem childEntries_lt : ∀ entry ∈ childEntries, entry < 2 ^ 64 := by
  intro entry member
  rcases List.mem_cons.mp member with rfl | member
  · decide
  rcases List.mem_append.mp member with absent | bitmap
  · rw [List.eq_of_mem_replicate absent]
    exact Nat.two_pow_pos 64
  · rw [List.mem_singleton.mp bitmap]
    decide

theorem childPlan_fits :
    StandardFits childItems childEntries
      [(0x400000, [1]), (0x500000, [7])] where
  items_fit := childItems_fit
  bat_le := by
    rw [length_childEntries]
    decide
  extra_apart := List.pairwise_pair.mpr (Or.inl (by decide))
  extra_place := by
    intro piece member
    rcases List.mem_pair.mp member with rfl | rfl <;> decide

/-- The container of the differencing disk. -/
def childContainer : Buffer where
  bytes := childPlan.container
  allocated := by
    rw [ContainerPlan.length_container]
    exact show 0x600000 ≤ isizeMax by decide

/-- The reader that opens it over the empty disk. -/
def childReader : VhdxReader (Parent 1) :=
  plainReader childContainer.bytes childDisk
    { entries := childEntries, metadata := childDisk } (some emptyReader)

/-- It is an opened reader over an opened parent. -/
theorem childReader_opened : childReader.Opened 1 := by
  have opened := standardPlan_opens childPlan_fits childEntries_lt
    (show (recordedItems childItems).resolve = .ok childDisk from rfl)
    childDisk_valid (some emptyReader) fun _ => rfl
  refine OpenedOver.fromBytes childContainer (some emptyReader) ?_ ?_
  · intro device found
    cases found
    exact emptyReader_opened
  · unfold childReader childContainer childPlan
    dsimp only
    exact opened

theorem childReader_refines :
    (∀ calls, replies calls childReader =
        (disk childReader).replies calls childReader.pos) ∧
      ∀ requests, VhdxSource.answers requests (.new childReader) =
        requests.map (VhdxSource.diskAnswer (disk childReader)) :=
  refines_referenceDisk childReader_opened

end VhdxReader

end VhdxForensic
