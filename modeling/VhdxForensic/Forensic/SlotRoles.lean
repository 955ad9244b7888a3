import VhdxForensic.Core.OwnershipBits
import VhdxForensic.Forensic.GhostData

/-!
# The role of a slot

The reader goes from a block to the slots of its payload entry and its sector
bitmap. The analyser goes from a slot to its role and from a payload slot to
the slot of the bitmap. Both ways agree on every slot of the table.
-/

namespace VhdxForensic

open Rust Rust.Bytes Rust.Exec

/-! ## What the scans do in either role -/

/-- The scan of a sector bitmap slot. -/
def scanBitmapSlot (i raw : Nat) : Audit (Findings × Option (Nat × Nat)) :=
  let state := raw &&& 0b111
  if state ≠ sbBlockNotPresent ∧ state ≠ sbBlockPresent then
    return ([.sectorBitmapInvalidState i state], none)
  else return ([], none)

/-- The check of the bitmap slot that is paired with a payload slot. -/
def missingBitmapAt (data : Bytes) (r : ParsedRegions)
    (entryCount i bitmapIdx : Nat) : Audit Findings := do
  if bitmapIdx < entryCount then
    let bep ← batEntryPos r.batOffset bitmapIdx
    let bitmapEnd ← add bep 8
    if bitmapEnd ≤ data.length ∧
        leU64 data bep &&& 0b111 = sbBlockNotPresent then
      return [.missingSectorBitmap i bitmapIdx]
    else return []
  else return []

/-- The scan of a payload slot with the given paired bitmap slot. -/
def scanPayloadSlot (data : Bytes) (r : ParsedRegions)
    (zone : Option (Nat × Nat)) (entryCount containerSize i raw : Nat)
    (bitmapIdx : Nat) : Audit (Findings × Option (Nat × Nat)) := do
  let state := raw &&& 0b111
  let issues := stateFindings r.hasParent i state
  if state ≠ Bat.payloadBlockFullyPresent then return (issues, none)
  else
    let offsetMb := raw >>> 20
    let fileOffset ← mul offsetMb mb
    let issues := issues ++ placementFindings r zone i raw fileOffset
    if fileOffset ≥ containerSize then
      return (issues ++
        [.batEntryBeyondContainer i fileOffset containerSize], none)
    else
      let missing ← missingBitmapAt data r entryCount i bitmapIdx
      return (issues ++ missing, some (offsetMb, i))

/-- The ghost scan of a payload slot. -/
def ghostPayloadSlot (data : Bytes) (bs i raw : Nat) (issues : Findings) :
    Audit (ForInStep Findings) := do
  let offsetMb := raw >>> 20
  if offsetMb = 0 then return .yield issues
  else
    let fileOffset ← mul offsetMb mb
    if fileOffset ≥ data.length then return .yield issues
    else
      let blockEnd := min (saturatingAdd fileOffset bs) data.length
      let block ← slice data fileOffset blockEnd
      let nonzeroBytes := countNonzero block
      if nonzeroBytes > 0 then
        return .yield
          (issues ++ [.ghostDataInAbsentBlock i fileOffset nonzeroBytes])
      else return .yield issues

/-! ## Slots by their remainder -/

section Roles

variable {metadata : VhdxMetadata} {r : ParsedRegions}

/-- For the analyser the bitmap slots are those of the reader. -/
theorem bitmapSlot_iff_exists (describes : r.Describes metadata) (i : Nat) :
    BitmapSlot r i ↔ ∃ block, metadata.bitmapIndex block = i := by
  have ratioPos := describes.valid.chunkRatioOf_pos
  rw [bitmapSlot_iff describes.chunkRatio_eq, ← Interleave.exists_extraSlot_iff]
  constructor
  · rintro ⟨chunk, rfl⟩
    refine ⟨metadata.chunkRatioOf * chunk, ?_⟩
    rw [VhdxMetadata.bitmapIndex_eq_extraSlot, Nat.mul_div_cancel_left _
      ratioPos]
  · rintro ⟨block, rfl⟩
    exact ⟨_, (VhdxMetadata.bitmapIndex_eq_extraSlot metadata block).symm⟩

/-- All other slots are the payload slot of exactly one block. -/
theorem not_bitmapSlot_iff_existsUnique (describes : r.Describes metadata)
    (i : Nat) :
    ¬ BitmapSlot r i ↔ ∃! block, metadata.payloadIndex block = i := by
  have ratioPos := describes.valid.chunkRatioOf_pos
  rw [bitmapSlot_iff describes.chunkRatio_eq]
  change i % (metadata.chunkRatioOf + 1) ≠ metadata.chunkRatioOf ↔ _
  rw [← Interleave.exists_itemSlot_iff ratioPos]
  constructor
  · rintro ⟨block, stored⟩
    refine ⟨block, stored, fun other otherStored => ?_⟩
    exact describes.valid.payloadIndex_injective
      (otherStored.trans stored.symm)
  · rintro ⟨block, stored, -⟩
    exact ⟨block, stored⟩

/-- The analyser pairs a payload slot with the reader's bitmap slot. -/
theorem pairedSlot_eq (describes : r.Describes metadata) (block : Nat) :
    metadata.payloadIndex block / (metadata.chunkRatioOf + 1) *
        (metadata.chunkRatioOf + 1) + metadata.chunkRatioOf =
      metadata.bitmapIndex block :=
  Interleave.extraSlot_of_itemSlot describes.valid.chunkRatioOf_pos block

theorem missingBitmap_eq_at (describes : r.Describes metadata) (data : Bytes)
    {entryCount block : Nat}
    (small : metadata.payloadIndex block < 2 ^ 32) :
    missingBitmap data r entryCount (metadata.payloadIndex block) =
      missingBitmapAt data r entryCount (metadata.payloadIndex block)
        (metadata.bitmapIndex block) := by
  have ratioLe := describes.valid.chunkRatioOf_le
  have chunkStart := Nat.div_mul_le_self (metadata.payloadIndex block)
    (metadata.chunkRatioOf + 1)
  have paired := pairedSlot_eq describes block
  have word : 2 ^ 33 < wordCount := by decide
  rw [missingBitmap, describes.chunkRatio_eq]
  dsimp only
  rw [add_eq_ok (by omega), ok_bind, div_eq_ok (by omega), ok_bind,
    mul_eq_ok (by omega), ok_bind, add_eq_ok (by omega), ok_bind, paired]
  rfl

theorem not_bitmapSlot_payloadIndex (describes : r.Describes metadata)
    (block : Nat) : ¬ BitmapSlot r (metadata.payloadIndex block) := by
  rw [bitmapSlot_iff_exists describes]
  rintro ⟨other, same⟩
  exact describes.valid.bitmapIndex_ne_payloadIndex other block same

theorem scanEntry_of_bitmapSlot (describes : r.Describes metadata)
    (data : Bytes) (zone : Option (Nat × Nat)) (entryCount containerSize : Nat)
    {i : Nat} (raw : Nat) (slot : BitmapSlot r i) :
    scanEntry data r zone entryCount containerSize i raw =
      scanBitmapSlot i raw := by
  rw [scanEntry, isBitmapSlot_eq describes.sound, ok_bind,
    if_pos (decide_eq_true slot)]
  rfl

theorem scanEntry_of_payloadIndex (describes : r.Describes metadata)
    (data : Bytes) (zone : Option (Nat × Nat)) (entryCount containerSize : Nat)
    {block : Nat} (raw : Nat)
    (small : metadata.payloadIndex block < 2 ^ 32) :
    scanEntry data r zone entryCount containerSize
        (metadata.payloadIndex block) raw =
      scanPayloadSlot data r zone entryCount containerSize
        (metadata.payloadIndex block) raw (metadata.bitmapIndex block) := by
  have payload := not_bitmapSlot_payloadIndex describes block
  rw [scanEntry, isBitmapSlot_eq describes.sound, ok_bind,
    if_neg (by simpa using payload), scanPayloadSlot,
    missingBitmap_eq_at describes data small]

theorem ghostStep_of_bitmapSlot (describes : r.Describes metadata)
    {data : Bytes} (allocated : data.length ≤ isizeMax) (bs : Nat) {i : Nat}
    (within : r.batOffset + i * 8 + 8 ≤ data.length) (issues : Findings)
    (slot : BitmapSlot r i) :
    ghostStep data r bs i issues = .ok (.yield issues) := by
  rw [ghostStep_eq allocated describes.sound within, ghostOf,
    if_neg fun all => all.2.1 slot, List.append_nil]

theorem ghostStep_of_payloadIndex (describes : r.Describes metadata)
    {data : Bytes} (allocated : data.length ≤ isizeMax) (bs : Nat)
    {block : Nat}
    (within : r.batOffset + metadata.payloadIndex block * 8 + 8 ≤ data.length)
    (issues : Findings) :
    ghostStep data r bs (metadata.payloadIndex block) issues =
      if entryAt data r (metadata.payloadIndex block) &&& 0b111 =
          Bat.payloadBlockFullyPresent then
        .ok (.yield issues)
      else
        ghostPayloadSlot data bs (metadata.payloadIndex block)
          (entryAt data r (metadata.payloadIndex block)) issues := by
  have word : isizeMax < wordCount := by decide
  have payload := not_bitmapSlot_payloadIndex describes block
  rw [ghostStep, batEntryPos_eq (by omega), ok_bind, add_eq_ok (by omega),
    ok_bind, if_neg (by omega)]
  dsimp only
  rw [isBitmapSlot_eq describes.sound, ok_bind, ← entryAt]
  by_cases mapped : entryAt data r (metadata.payloadIndex block) &&& 0b111 =
      Bat.payloadBlockFullyPresent
  · rw [if_pos mapped, if_pos mapped]
    rfl
  · rw [if_neg mapped, if_neg mapped, if_neg (by simpa using payload)]
    rfl

end Roles

/-! ## The whole scans by role -/

section Scans

variable {metadata : VhdxMetadata} {r : ParsedRegions}

open Classical in
/-- The scan of a slot in the role that the reader gives it. -/
noncomputable def scanByRole (metadata : VhdxMetadata) (data : Bytes)
    (r : ParsedRegions) (zone : Option (Nat × Nat))
    (entryCount containerSize i raw : Nat) :
    Audit (Findings × Option (Nat × Nat)) :=
  if served : ∃ block, metadata.payloadIndex block = i then
    scanPayloadSlot data r zone entryCount containerSize i raw
      (metadata.bitmapIndex served.choose)
  else scanBitmapSlot i raw

/-- One pass of the scan of the table, with the given scan of a slot. -/
def scanStepBy (scan : Nat → Nat → Audit (Findings × Option (Nat × Nat)))
    (data : Bytes) (r : ParsedRegions) (i : Nat)
    (state : Findings × List (Nat × Nat)) :
    Audit (ForInStep (Findings × List (Nat × Nat))) := do
  let ep ← batEntryPos r.batOffset i
  let entryEnd ← add ep 8
  if entryEnd > data.length then return .done state
  else
    let (found, offset) ← scan i (leU64 data ep)
    return .yield (state.1 ++ found, state.2 ++ offset.toList)

open Classical in
/-- One pass of the ghost scan in the roles that the reader gives. -/
noncomputable def ghostStepByRole (metadata : VhdxMetadata) (data : Bytes)
    (r : ParsedRegions) (bs i : Nat) (issues : Findings) :
    Audit (ForInStep Findings) := do
  let ep ← batEntryPos r.batOffset i
  let entryEnd ← add ep 8
  if entryEnd > data.length then return .done issues
  else
    let raw := leU64 data ep
    if raw &&& 0b111 = Bat.payloadBlockFullyPresent then return .yield issues
    else if ∃ block, metadata.payloadIndex block = i then
      ghostPayloadSlot data bs i raw issues
    else return .yield issues

/-- The slots without a block are those of the bitmaps. -/
theorem bitmapSlot_iff_no_block (describes : r.Describes metadata) (i : Nat) :
    BitmapSlot r i ↔ ¬ ∃ block, metadata.payloadIndex block = i := by
  rw [← not_iff_not, not_not, not_bitmapSlot_iff_existsUnique describes]
  constructor
  · exact ExistsUnique.exists
  · rintro ⟨block, stored⟩
    exact ⟨block, stored, fun other otherStored =>
      describes.valid.payloadIndex_injective (otherStored.trans stored.symm)⟩

theorem scanEntry_eq_byRole (describes : r.Describes metadata) (data : Bytes)
    (zone : Option (Nat × Nat)) (entryCount containerSize : Nat) {i : Nat}
    (raw : Nat) (small : i < 2 ^ 32) :
    scanEntry data r zone entryCount containerSize i raw =
      scanByRole metadata data r zone entryCount containerSize i raw := by
  by_cases served : ∃ block, metadata.payloadIndex block = i
  · have stored := served.choose_spec
    have scanned := scanEntry_of_payloadIndex describes data zone entryCount
      containerSize raw (stored.trans_lt small)
    rw [stored] at scanned
    rw [scanByRole, dif_pos served, scanned]
  · have slot := (bitmapSlot_iff_no_block describes i).mpr served
    rw [scanByRole, dif_neg served,
      scanEntry_of_bitmapSlot describes data zone _ _ raw slot]

/-- The scan of the table takes every slot in the role that it has for the
reader. -/
theorem batScanEntries_byRole (describes : r.Describes metadata)
    (sorting : UnstableSort (Nat × Nat) Prod.fst) (data : Bytes)
    (containerSize : Nat) :
    batScanEntries sorting data r (entryCountOf r) containerSize = (do
      let zone ← logZone data
      let (issues, present) ← forRange (entryCountOf r)
        (scanStepBy (scanByRole metadata data r zone (entryCountOf r)
          containerSize) data r) ([], [])
      let present := sorting.run present
      let issues ← (present.zip present.tail).foldlM overlapStep issues
      return (issues, present)) := by
  have small := entryCountOf_lt describes.sound
  rw [batScanEntries]
  congr 1
  funext zone
  rw [forRange_congr (fun i iLt => ?_) ([], [])]
  funext state
  rw [batScanStep, scanStepBy]
  simp only [scanEntry_eq_byRole describes data zone (entryCountOf r)
    containerSize _ (show i < 2 ^ 32 by omega)]

/-- So does the search for data of absent blocks. -/
theorem checkBatGhostData_byRole (describes : r.Describes metadata)
    {data : Bytes} (parsed : parseRegions data = .ok r) :
    checkBatGhostData data = forRange (entryCountOf r)
      (ghostStepByRole metadata data r metadata.blockSize) [] := by
  have positive : metadata.blockSize > 0 := describes.valid.blockSize_pos
  rw [checkBatGhostData, parsed, attempt_ok, ok_bind]
  simp only [Except.toOption, describes.blockSize_eq, if_pos positive]
  refine forRange_congr (fun i _ => ?_) []
  funext issues
  rw [ghostStep, ghostStepByRole, isBitmapSlot_eq describes.sound]
  by_cases served : ∃ block, metadata.payloadIndex block = i
  · have payload : ¬ BitmapSlot r i := fun slot =>
      (bitmapSlot_iff_no_block describes i).mp slot served
    simp only [ok_bind, decide_eq_false payload, Bool.false_eq_true,
      if_false, if_pos served, ghostPayloadSlot]
  · have slot := (bitmapSlot_iff_no_block describes i).mpr served
    simp only [ok_bind, decide_eq_true slot, if_true, if_neg served]

end Scans

/-! ## Agreement on every slot -/

/-- Analyser and reader agree on the role of the slot `i`. -/
structure SlotRolesAgree (r : ParsedRegions) (metadata : VhdxMetadata)
    (i : Nat) : Prop where
  /-- The reader finds the payload entry of a block at its index. -/
  reader : ∀ bat : Bat, bat.metadata = metadata →
    (∀ entry ∈ bat.entries, entry < 2 ^ 64) →
    ∀ v < metadata.virtualDiskSize,
      metadata.payloadIndex (v / metadata.blockSize) = i →
      bat.readTargetForByte v =
        match bat.entries[i]? with
        | none => fail (.blockNotPresent (v / metadata.blockSize))
        | some entry => bat.resolvePayload v entry
  /-- A payload slot is the index of exactly one block. -/
  payload_iff : isBitmapSlot r.chunkRatio i = .ok false ↔
    ∃! block, metadata.payloadIndex block = i
  /-- A bitmap slot is the bitmap index of some chunk. -/
  bitmap_iff : isBitmapSlot r.chunkRatio i = .ok true ↔
    ∃ block, metadata.bitmapIndex block = i
  /-- The scan takes a bitmap index as a bitmap slot. -/
  scan_bitmap : (∃ block, metadata.bitmapIndex block = i) →
    ∀ data zone entryCount containerSize raw,
      scanEntry data r zone entryCount containerSize i raw =
        scanBitmapSlot i raw
  /-- The scan pairs the slot with the bitmap index of the block. -/
  scan_payload : i < entryCountOf r →
    ∀ block, metadata.payloadIndex block = i →
      ∀ data zone entryCount containerSize raw,
        scanEntry data r zone entryCount containerSize i raw =
          scanPayloadSlot data r zone entryCount containerSize i raw
            (metadata.bitmapIndex block)
  /-- The ghost scan passes over a bitmap index. -/
  ghost_bitmap : (∃ block, metadata.bitmapIndex block = i) →
    ∀ data : Bytes, data.length ≤ isizeMax →
      r.batOffset + i * 8 + 8 ≤ data.length →
      ∀ bs issues, ghostStep data r bs i issues = .ok (.yield issues)
  /-- The ghost scan takes a payload index as a payload slot. -/
  ghost_payload : ∀ block, metadata.payloadIndex block = i →
    ∀ data : Bytes, data.length ≤ isizeMax →
      r.batOffset + i * 8 + 8 ≤ data.length →
      ∀ bs issues, ghostStep data r bs i issues =
        if entryAt data r i &&& 0b111 = Bat.payloadBlockFullyPresent then
          .ok (.yield issues)
        else ghostPayloadSlot data bs i (entryAt data r i) issues

theorem slotRolesAgree_of_validate {r : ParsedRegions}
    {metadata : VhdxMetadata} (sound : r.Sound)
    (decoded : r.metadata = some metadata)
    (accepted : metadata.validate = .ok ()) (i : Nat) :
    SlotRolesAgree r metadata i := by
  have valid := VhdxMetadata.validate_eq_ok_iff.mp accepted
  have describes : r.Describes metadata := ⟨sound, decoded, valid⟩
  refine { reader := ?reader, payload_iff := ?payload, bitmap_iff := ?bitmap,
           scan_bitmap := ?scanBitmap, scan_payload := ?scanPayload,
           ghost_bitmap := ?ghostBitmap, ghost_payload := ?ghostPayload }
  case reader =>
    rintro bat rfl entries v inside rfl
    exact Bat.readTargetForByte_eq ⟨valid, entries⟩ inside
  case payload =>
    rw [isBitmapSlot_eq sound, ← not_bitmapSlot_iff_existsUnique describes]
    simp
  case bitmap =>
    rw [isBitmapSlot_eq sound, ← bitmapSlot_iff_exists describes]
    simp
  case scanBitmap =>
    intro slot data zone entryCount containerSize raw
    exact scanEntry_of_bitmapSlot describes data zone entryCount
      containerSize raw ((bitmapSlot_iff_exists describes i).mpr slot)
  case scanPayload =>
    rintro inTable block rfl data zone entryCount containerSize raw
    have small : metadata.payloadIndex block < 2 ^ 32 := by
      have lengthLt := sound.batLength_lt
      unfold entryCountOf at inTable
      omega
    exact scanEntry_of_payloadIndex describes data zone entryCount
      containerSize raw small
  case ghostBitmap =>
    intro slot data allocated within bs issues
    exact ghostStep_of_bitmapSlot describes allocated bs within issues
      ((bitmapSlot_iff_exists describes i).mpr slot)
  case ghostPayload =>
    rintro block rfl data allocated within bs issues
    exact ghostStep_of_payloadIndex describes allocated bs within issues

/-- Slot 4096 is the bitmap slot of the first chunk of a disk with blocks of
1 MiB. -/
theorem slotRolesAgree_first_bitmap :
    SlotRolesAgree
      { batOffset := 0x300000, batLength := 0x100000, metaOffset := 0x200000,
        metaLength := 0x100000, blockSize := some 0x100000,
        logicalSs := some 512, vdiskSize := some 0x200000,
        chunkRatio := some 4096, hasParent := false, leaveAlloc := false,
        physicalSs := none, vdiskId := none, hasParentLocator := false }
      { blockSize := 0x100000, hasParent := false,
        virtualDiskSize := 0x200000, logicalSectorSize := 512 } 4096 :=
  slotRolesAgree_of_validate
    { batOffset_lt := by decide, batLength_lt := by decide,
      metaOffset_lt := by decide, metaLength_lt := by decide,
      blockSize_lt := by simp, vdiskSize_lt := by simp,
      logicalSs_lt := by simp, chunkRatio_eq := by decide }
    rfl (by decide) 4096

end VhdxForensic
