import VhdxForensic.Forensic.ParsedRegions
import VhdxForensic.Rust.Sort

/-!
# Checks of the block allocation table

The size of the table, its entries one by one, the order of the blocks in the
container and the disk size are checked against each other. The checks use
the analyser's own parse of the regions, so none of the values they combine
has been validated.
-/

namespace VhdxForensic

open Rust Rust.Bytes Rust.Exec

def sbBlockNotPresent : Nat := 0
def sbBlockPresent : Nat := 6

/-- Bits 3 to 19 of an entry. -/
def batReservedBitsMask : Nat := 0xFFFF8

def batEntryPos {ε : Type} (batOffset index : Nat) : Exec ε Nat := do
  let step ← mul index 8
  add batOffset step

/-- The size of the table against disk and block size. -/
def batCheckSizeFormula (r : ParsedRegions) (entryCount : Nat) :
    Audit Findings :=
  match r.blockSize, r.vdiskSize, r.chunkRatio with
  | some bs, some vds, some cr =>
      if bs = 0 then return []
      else do
        let dataBlocks ← divCeil vds bs
        let bitmaps ← divCeil dataBlocks cr
        let batEntriesExpected ← add dataBlocks bitmaps
        let bytes ← mul batEntriesExpected 8
        let rounded ← nextMultipleOf bytes mb
        if rounded % 2 ^ 32 = r.batLength then return []
        else
          return [.batSizeMetadataMismatch r.batLength entryCount
            batEntriesExpected vds bs]
  | _, _, _ => return []

/-- The log of the active header, as start and end. -/
def logZone (data : Bytes) : Audit (Option (Nat × Nat)) := do
  match ← activeHeaderBlock data with
  | none => return none
  | some h =>
      let ll := leU32 h 68
      let lo := leU64 h 72
      if ll > 0 then return some (lo, saturatingAdd lo ll) else return none

/-- Name of the structural zone that holds a container offset. -/
def structuralZone (r : ParsedRegions) (zone : Option (Nat × Nat))
    (fo : Nat) : Option String :=
  if fo < 0x10000 then some "FileIdentifier"
  else if fo < 0x20000 then some "Header1"
  else if fo < 0x30000 then some "Header2"
  else if fo < 0x40000 then some "RegionTable1"
  else if fo < 0x50000 then some "RegionTable2"
  else if fo ≥ r.metaOffset ∧ fo < saturatingAdd r.metaOffset r.metaLength then
    some "Metadata"
  else if zone.any fun log => log.1 ≤ fo ∧ fo < log.2 then some "Log"
  else none

/-- The entry at `i` is a sector bitmap slot. -/
def isBitmapSlot (chunkRatio : Option Nat) (i : Nat) : Audit Bool :=
  match chunkRatio with
  | none => return false
  | some cr => do
      let slots ← add cr 1
      let position ← rem i slots
      return position = cr

/-- Findings about the state of a payload entry. -/
def stateFindings (hasParent : Bool) (i state : Nat) : Findings :=
  if state = Bat.payloadBlockPartiallyPresent then [.partiallyPresentBlock i]
  else if state = 1 then [.undefinedBlockState i]
  else if state = 3 ∧ hasParent = false then
    [.unmappedBlockInNonDifferencing i]
  else []

/-- Findings about where a fully present block starts. -/
def placementFindings (r : ParsedRegions) (zone : Option (Nat × Nat))
    (i raw fileOffset : Nat) : Findings :=
  let unaligned : Findings :=
    if raw &&& batReservedBitsMask ≠ 0 then [.batEntryUnaligned i fileOffset]
    else []
  let structural : Findings :=
    match structuralZone r zone fileOffset with
    | some name => [.batEntryInStructuralRegion i fileOffset name]
    | none => []
  unaligned ++ structural

/-- The sector bitmap of a fully present block must be present. -/
def missingBitmap (data : Bytes) (r : ParsedRegions) (entryCount i : Nat) :
    Audit Findings :=
  match r.chunkRatio with
  | none => return []
  | some cr => do
      let slots ← add cr 1
      let chunk ← div i slots
      let base ← mul chunk slots
      let bitmapIdx ← add base cr
      if bitmapIdx < entryCount then
        let bep ← batEntryPos r.batOffset bitmapIdx
        let bitmapEnd ← add bep 8
        if bitmapEnd ≤ data.length ∧
            leU64 data bep &&& 0b111 = sbBlockNotPresent then
          return [.missingSectorBitmap i bitmapIdx]
        else return []
      else return []

/-- Findings about one entry, and where its block starts in MiB if the block
counts as present. -/
def scanEntry (data : Bytes) (r : ParsedRegions) (zone : Option (Nat × Nat))
    (entryCount containerSize i raw : Nat) :
    Audit (Findings × Option (Nat × Nat)) := do
  let state := raw &&& 0b111
  if ← isBitmapSlot r.chunkRatio i then
    if state ≠ sbBlockNotPresent ∧ state ≠ sbBlockPresent then
      return ([.sectorBitmapInvalidState i state], none)
    else return ([], none)
  else
    let issues := stateFindings r.hasParent i state
    if state ≠ Bat.payloadBlockFullyPresent then return (issues, none)
    else
      let offsetMb := raw >>> 20
      let fileOffset ← mul offsetMb mb
      let issues := issues ++ placementFindings r zone i raw fileOffset
      if fileOffset ≥ containerSize then
        return (issues ++
          [.batEntryBeyondContainer i fileOffset containerSize], none)
      else
        let missing ← missingBitmap data r entryCount i
        return (issues ++ missing, some (offsetMb, i))

/-- One pass of the scan. -/
def batScanStep (data : Bytes) (r : ParsedRegions)
    (zone : Option (Nat × Nat)) (entryCount containerSize i : Nat)
    (state : Findings × List (Nat × Nat)) :
    Audit (ForInStep (Findings × List (Nat × Nat))) := do
  let ep ← batEntryPos r.batOffset i
  let entryEnd ← add ep 8
  if entryEnd > data.length then return .done state
  else
    let raw := leU64 data ep
    let (found, offset) ←
      scanEntry data r zone entryCount containerSize i raw
    return .yield (state.1 ++ found, state.2 ++ offset.toList)

/-- Neighbours of the sorted list that start at one offset. -/
def overlapStep (issues : Findings) (w : (Nat × Nat) × (Nat × Nat)) :
    Audit Findings :=
  if w.1.1 = w.2.1 then do
    let sharedOffset ← mul w.1.1 mb
    return issues ++ [.batEntriesOverlap w.1.2 w.2.2 sharedOffset]
  else return issues

/-- Per-entry findings, and the present blocks sorted by their offsets. -/
def batScanEntries (sorting : UnstableSort (Nat × Nat) Prod.fst)
    (data : Bytes) (r : ParsedRegions) (entryCount containerSize : Nat) :
    Audit (Findings × List (Nat × Nat)) := do
  let zone ← logZone data
  let (issues, present) ← forRange entryCount
    (batScanStep data r zone entryCount containerSize) ([], [])
  let present := sorting.run present
  let issues ← (present.zip present.tail).foldlM overlapStep issues
  return (issues, present)

/-- The disk must not be smaller than the blocks placed in the container. -/
def underreportedFindings (declaredVds : Nat) (present : List (Nat × Nat)) :
    Audit Findings :=
  if present = [] then return []
  else do
    let maxMb := (present.map Prod.fst).max?.getD 0
    let blocks ← add maxMb 1
    let batCoverage ← mul blocks mb
    if batCoverage > declaredVds then
      return [.virtualDiskSizeUnderreported declaredVds batCoverage]
    else return []

/-- The disk must not be larger than the blocks the table can hold. -/
def overreportedFindings (bs declaredVds entryCount : Nat)
    (chunkRatio : Option Nat) : Audit Findings :=
  match chunkRatio with
  | none => return []
  | some cr => do
      let slots ← mul entryCount cr
      let perChunk ← add cr 1
      let maxDataBlocks ← div slots perChunk
      let batCoverage ← mul maxDataBlocks bs
      if declaredVds > batCoverage then
        return [.virtualDiskSizeOverreported declaredVds batCoverage]
      else return []

/-- The declared disk size against the table. -/
def batCheckCoverage (r : ParsedRegions) (present : List (Nat × Nat))
    (entryCount : Nat) : Audit Findings :=
  match r.blockSize, r.vdiskSize with
  | some bs, some declaredVds =>
      if bs = 0 then return []
      else do
        let underIssues ← underreportedFindings declaredVds present
        let overIssues ←
          overreportedFindings bs declaredVds entryCount r.chunkRatio
        return underIssues ++ overIssues
  | _, _ => return []

def checkBatInner (sorting : UnstableSort (Nat × Nat) Prod.fst)
    (data : Bytes) (regions : Option ParsedRegions) : Audit Findings :=
  match regions with
  | none => return []
  | some r => do
      let batLen := r.batLength
      let batEnd := saturatingAdd r.batOffset batLen
      if data.length < batEnd ∨ batLen < 8 then return []
      else
        let entryCount := batLen / 8
        let sizeIssues ← batCheckSizeFormula r entryCount
        let (entryIssues, present) ←
          batScanEntries sorting data r entryCount data.length
        let coverage ← batCheckCoverage r present entryCount
        return sizeIssues ++ entryIssues ++ coverage

/-- Validate the table of an image. -/
def checkBat (sorting : UnstableSort (Nat × Nat) Prod.fst) (data : Bytes) :
    Audit Findings := do
  let regions ← attempt (parseRegions data)
  checkBatInner sorting data regions.toOption

/-! ## The size of the table -/

/-- Entries for all blocks of a disk with one bitmap entry per started
chunk. -/
def expectedEntries (bs vds cr : Nat) : Nat :=
  vds ⌈/⌉ bs + (vds ⌈/⌉ bs) ⌈/⌉ cr

/-- Their bytes in whole MiB. -/
def expectedBytes (bs vds cr : Nat) : Nat :=
  (expectedEntries bs vds cr * 8) ⌈/⌉ mb * mb

/-- The size check divides by no zero and stays in the range of its
integers. -/
def SizeFormulaFits (r : ParsedRegions) : Prop :=
  ∀ bs ∈ r.blockSize, ∀ vds ∈ r.vdiskSize, ∀ cr ∈ r.chunkRatio,
    0 < bs → 0 < cr ∧ expectedBytes bs vds cr < wordCount

/-- Findings about the size of the table. -/
def sizeFindings (r : ParsedRegions) (entryCount : Nat) : Findings :=
  match r.blockSize, r.vdiskSize, r.chunkRatio with
  | some bs, some vds, some cr =>
      if 0 < bs ∧ expectedBytes bs vds cr % 2 ^ 32 ≠ r.batLength then
        [.batSizeMetadataMismatch r.batLength entryCount
          (expectedEntries bs vds cr) vds bs]
      else []
  | _, _, _ => []

theorem mb_pos : 0 < mb := by decide

/-- The expected entries fit the expected size. -/
theorem expectedEntries_le_expectedBytes (bs vds cr : Nat) :
    expectedEntries bs vds cr * 8 ≤ expectedBytes bs vds cr := by
  rw [expectedBytes, Nat.mul_comm _ mb]
  exact le_smul_ceilDiv mb_pos

/-- Within its range the size check has this outcome. -/
theorem batCheckSizeFormula_eq {r : ParsedRegions} (fits : SizeFormulaFits r)
    (entryCount : Nat) :
    batCheckSizeFormula r entryCount = .ok (sizeFindings r entryCount) := by
  unfold batCheckSizeFormula sizeFindings
  split
  · rename_i bs vds cr blockSize diskSize ratio
    by_cases unsized : bs = 0
    · rw [if_pos unsized, if_neg (by omega)]
      rfl
    obtain ⟨ratioPos, bytesLt⟩ := fits bs blockSize vds diskSize cr ratio
      (by omega)
    have bytes := expectedEntries_le_expectedBytes bs vds cr
    have entries : expectedEntries bs vds cr =
      vds ⌈/⌉ bs + (vds ⌈/⌉ bs) ⌈/⌉ cr := rfl
    rw [if_neg unsized, divCeil_eq_ok (by omega), ok_bind,
      divCeil_eq_ok ratioPos, ok_bind, add_eq_ok (by omega), ok_bind,
      ← entries, mul_eq_ok (by omega), ok_bind,
      nextMultipleOf_eq_ok mb_pos bytesLt, ok_bind]
    change (if expectedBytes bs vds cr % 2 ^ 32 = r.batLength then _
      else _) = _
    by_cases matching : expectedBytes bs vds cr % 2 ^ 32 = r.batLength
    · rw [if_pos matching, if_neg fun both => both.2 matching]
      rfl
    · rw [if_neg matching, if_pos ⟨by omega, matching⟩]
      rfl
  · rfl

/-- Without the range condition the check panics. -/
theorem settles_batCheckSizeFormula_iff {r : ParsedRegions}
    (entryCount : Nat) :
    Settles (batCheckSizeFormula r entryCount) ↔ SizeFormulaFits r := by
  constructor
  · intro settles bs blockSize vds diskSize cr ratio sized
    rw [Option.mem_def] at blockSize diskSize ratio
    rw [batCheckSizeFormula, blockSize, diskSize, ratio] at settles
    dsimp only at settles
    rw [if_neg (by omega), divCeil_eq_ok sized, ok_bind] at settles
    have ratioPos : 0 < cr := by
      by_contra zero
      rw [divCeil, if_pos (by omega)] at settles
      exact not_settles_panicked settles
    rw [divCeil_eq_ok ratioPos, ok_bind] at settles
    have entriesLt := settles_add.mp settles.of_bind
    rw [add_eq_ok entriesLt, ok_bind] at settles
    have bytesLt := settles_mul.mp settles.of_bind
    rw [mul_eq_ok bytesLt, ok_bind] at settles
    exact ⟨ratioPos,
      (settles_nextMultipleOf mb_pos bytesLt).mp settles.of_bind⟩
  · intro fits
    exact .of_eq_ok (batCheckSizeFormula_eq fits entryCount)

/-! ## The entries -/

/-- Number of entries of the table. -/
def entryCountOf (r : ParsedRegions) : Nat := r.batLength / 8

/-- The entry stored at `i`. -/
def entryAt (data : Bytes) (r : ParsedRegions) (i : Nat) : Nat :=
  leU64 data (r.batOffset + i * 8)

/-- The entry at `i` belongs to a sector bitmap. -/
def BitmapSlot (r : ParsedRegions) (i : Nat) : Prop :=
  ∃ cr ∈ r.chunkRatio, i % (cr + 1) = cr

instance (r : ParsedRegions) (i : Nat) : Decidable (BitmapSlot r i) :=
  inferInstanceAs (Decidable (∃ cr ∈ r.chunkRatio, _))

/-- The entry at `i` maps a whole block. -/
def FullyPresent (data : Bytes) (r : ParsedRegions) (i : Nat) : Prop :=
  ¬ BitmapSlot r i ∧
    Bat.stateOf (entryAt data r i) = Bat.payloadBlockFullyPresent

instance (data : Bytes) (r : ParsedRegions) (i : Nat) :
    Decidable (FullyPresent data r i) :=
  inferInstanceAs (Decidable (_ ∧ _))

/-- Where the block of the entry at `i` starts. -/
def blockStart (data : Bytes) (r : ParsedRegions) (i : Nat) : Nat :=
  Bat.offsetOf (entryAt data r i)

/-- The scan records the entry at `i` as present: its block is mapped and
starts inside the container. -/
def Recorded (data : Bytes) (r : ParsedRegions) (i : Nat) : Prop :=
  FullyPresent data r i ∧ blockStart data r i < data.length

instance (data : Bytes) (r : ParsedRegions) (i : Nat) :
    Decidable (Recorded data r i) :=
  inferInstanceAs (Decidable (_ ∧ _))

/-- The log of the active header, if it is not empty. -/
def logZoneOf (data : Bytes) : Option (Nat × Nat) :=
  (activeHeader data).bind fun header =>
    if header.logLength > 0 then
      some (header.logOffset, saturatingAdd header.logOffset header.logLength)
    else none

/-- Findings about the sector bitmap that belongs to the entry at `i`. -/
def missingFindings (data : Bytes) (r : ParsedRegions) (i : Nat) : Findings :=
  match r.chunkRatio with
  | none => []
  | some cr =>
      let bitmapIdx := i / (cr + 1) * (cr + 1) + cr
      if bitmapIdx < entryCountOf r ∧
          Bat.stateOf (entryAt data r bitmapIdx) = sbBlockNotPresent then
        [.missingSectorBitmap i bitmapIdx]
      else []

/-- Findings about a mapped block. -/
def blockFindings (data : Bytes) (r : ParsedRegions)
    (zone : Option (Nat × Nat)) (i : Nat) : Findings :=
  placementFindings r zone i (entryAt data r i) (blockStart data r i) ++
    if blockStart data r i < data.length then missingFindings data r i
    else [.batEntryBeyondContainer i (blockStart data r i) data.length]

/-- Findings about the entry at `i`. -/
def entryFindings (data : Bytes) (r : ParsedRegions)
    (zone : Option (Nat × Nat)) (i : Nat) : Findings :=
  let state := Bat.stateOf (entryAt data r i)
  if BitmapSlot r i then
    if state ≠ sbBlockNotPresent ∧ state ≠ sbBlockPresent then
      [.sectorBitmapInvalidState i state]
    else []
  else if state = Bat.payloadBlockFullyPresent then
    blockFindings data r zone i
  else stateFindings r.hasParent i state

/-- The entry at `i` in the list of present blocks. -/
def presentEntry (data : Bytes) (r : ParsedRegions) (i : Nat) :
    Option (Nat × Nat) :=
  if Recorded data r i then some (entryAt data r i / 2 ^ 20, i) else none

/-- The zone of the log is found without errors. -/
theorem logZone_eq (data : Bytes) : logZone data = .ok (logZoneOf data) := by
  rw [logZone, logZoneOf]
  cases active : activeHeader data with
  | none =>
      rw [activeHeaderBlock_of_none active]
      rfl
  | some header =>
      obtain ⟨block, found, logLength, logOffset, -⟩ :=
        activeHeaderBlock_of_active active
      rw [found, ok_bind]
      dsimp only
      rw [logLength, logOffset]
      by_cases nonempty : header.logLength > 0
      · rw [if_pos nonempty, Option.bind_some, if_pos nonempty]
        rfl
      · rw [if_neg nonempty, Option.bind_some, if_neg nonempty]
        rfl

/-- A computed chunk ratio is far from the largest integer. -/
theorem ParsedRegions.Sound.chunkRatio_lt {r : ParsedRegions}
    (sound : r.Sound) : ∀ cr ∈ r.chunkRatio, cr < 2 ^ 55 := by
  intro cr found
  rw [sound.chunkRatio_eq] at found
  obtain ⟨bs, -, computed⟩ := Option.bind_eq_some_iff.mp found
  split at computed
  · cases computed
    have logical : r.logicalSs.getD 512 < 2 ^ 32 := by
      cases stored : r.logicalSs with
      | none => decide
      | some ss => exact sound.logicalSs_lt ss stored
    apply Nat.lt_of_le_of_lt (Nat.div_le_self _ _)
    omega
  · cases computed

section Scan

variable {data : Bytes} {r : ParsedRegions} {zone : Option (Nat × Nat)}

/-- A bitmap slot is the last one of a chunk. -/
theorem bitmapSlot_iff {cr i : Nat} (ratio : r.chunkRatio = some cr) :
    BitmapSlot r i ↔ i % (cr + 1) = cr := by
  unfold BitmapSlot
  simp [ratio]

/-- The check for a bitmap slot settles. -/
theorem isBitmapSlot_eq (sound : r.Sound) (i : Nat) :
    isBitmapSlot r.chunkRatio i = .ok (decide (BitmapSlot r i)) := by
  have ratioLt := sound.chunkRatio_lt
  unfold isBitmapSlot
  cases ratio : r.chunkRatio with
  | none =>
      have payload : ¬ BitmapSlot r i := by
        rintro ⟨cr, found, -⟩
        rw [ratio] at found
        cases found
      rw [decide_eq_false payload]
      rfl
  | some cr =>
      have small := ratioLt cr ratio
      dsimp only
      rw [add_eq_ok (by unfold wordCount; omega), ok_bind,
        rem_eq_ok (by omega), ok_bind]
      exact congrArg Except.ok
        (decide_eq_decide.mpr (bitmapSlot_iff ratio).symm)

/-- The position of an entry, while it is a word. -/
theorem batEntryPos_eq {ε : Type} {batOffset index : Nat}
    (small : batOffset + index * 8 < wordCount) :
    (batEntryPos batOffset index : Exec ε Nat) =
      .ok (batOffset + index * 8) := by
  rw [batEntryPos, mul_eq_ok (by omega), ok_bind, add_eq_ok small]

/-- Entries of a table inside the image lie inside the image. -/
theorem entry_inside {i : Nat}
    (inside : r.batOffset + r.batLength ≤ data.length)
    (iLt : i < entryCountOf r) :
    r.batOffset + i * 8 + 8 ≤ data.length := by
  unfold entryCountOf at iLt
  omega

/-- The check for a missing bitmap settles. -/
theorem missingBitmap_eq (allocated : data.length ≤ isizeMax)
    (sound : r.Sound) (inside : r.batOffset + r.batLength ≤ data.length)
    {i : Nat} (iLt : i < entryCountOf r) :
    missingBitmap data r (entryCountOf r) i =
      .ok (missingFindings data r i) := by
  have ratioLt := sound.chunkRatio_lt
  have within := entry_inside inside iLt
  unfold isizeMax at allocated
  unfold missingBitmap missingFindings
  cases ratio : r.chunkRatio with
  | none => rfl
  | some cr =>
      have small := ratioLt cr ratio
      have chunkStart := Nat.div_mul_le_self i (cr + 1)
      dsimp only
      rw [add_eq_ok (by unfold wordCount; omega), ok_bind,
        div_eq_ok (by omega), ok_bind,
        mul_eq_ok (by unfold wordCount; omega), ok_bind,
        add_eq_ok (by unfold wordCount; omega), ok_bind]
      by_cases stored : i / (cr + 1) * (cr + 1) + cr < entryCountOf r
      case neg =>
        rw [if_neg stored, if_neg fun both => stored both.1]
        rfl
      have bitmapWithin := entry_inside inside stored
      rw [if_pos stored, batEntryPos_eq (by unfold wordCount; omega),
        ok_bind, add_eq_ok (by unfold wordCount; omega), ok_bind,
        Bat.and_seven_eq_stateOf]
      by_cases absent : Bat.stateOf (entryAt data r
          (i / (cr + 1) * (cr + 1) + cr)) = sbBlockNotPresent
      · rw [if_pos (And.intro stored absent)]
        exact if_pos ⟨bitmapWithin, absent⟩
      · rw [if_neg fun both : _ ∧ _ => absent both.2]
        exact if_neg fun both => absent both.2

/-- The offset of an entry in MiB gives where its block starts. -/
theorem mul_offset {ε : Type} {entry : Nat} (entryLt : entry < 2 ^ 64) :
    (mul (entry >>> 20) mb : Exec ε Nat) = .ok (Bat.offsetOf entry) := by
  have atMost := Bat.offsetOf_le entry
  have packed : (entry >>> 20) * mb = Bat.offsetOf entry := by
    rw [Nat.shiftRight_eq_div_pow]
    rfl
  rw [mul_eq_ok (by rw [packed]; unfold wordCount; omega), packed]

theorem entryAt_lt (data : Bytes) (r : ParsedRegions) (i : Nat) :
    entryAt data r i < 2 ^ 64 := leU64_lt _ _

/-- The state of a mapped block is in order. -/
theorem stateFindings_fullyPresent (hasParent : Bool) (i : Nat) :
    stateFindings hasParent i Bat.payloadBlockFullyPresent = [] := rfl

/-- The scan of an entry in an image has this outcome. -/
theorem scanEntry_eq (allocated : data.length ≤ isizeMax) (sound : r.Sound)
    (inside : r.batOffset + r.batLength ≤ data.length) {i : Nat}
    (iLt : i < entryCountOf r) :
    scanEntry data r zone (entryCountOf r) data.length i (entryAt data r i) =
      .ok (entryFindings data r zone i, presentEntry data r i) := by
  rw [scanEntry, Bat.and_seven_eq_stateOf, isBitmapSlot_eq sound, ok_bind,
    entryFindings, presentEntry]
  by_cases slot : BitmapSlot r i
  · have unrecorded : ¬ Recorded data r i := fun recorded =>
      recorded.1.1 slot
    rw [if_pos (decide_eq_true slot), if_pos slot, if_neg unrecorded]
    split <;> rfl
  rw [if_neg (by simpa using slot), if_neg slot]
  by_cases mapped : Bat.stateOf (entryAt data r i) =
      Bat.payloadBlockFullyPresent
  case neg =>
    rw [if_pos mapped, if_neg mapped, if_neg fun recorded =>
      mapped recorded.1.2]
    rfl
  rw [if_neg (not_not_intro mapped), if_pos mapped]
  dsimp only
  rw [mul_offset (entryAt_lt data r i), ok_bind, mapped,
    stateFindings_fullyPresent, List.nil_append, ← blockStart, blockFindings]
  by_cases starts : blockStart data r i < data.length
  · rw [if_neg (by omega), missingBitmap_eq allocated sound inside iLt,
      ok_bind, if_pos starts, if_pos ⟨⟨slot, mapped⟩, starts⟩,
      Nat.shiftRight_eq_div_pow, pure_eq_ok]
  · rw [if_pos (by omega), if_neg starts,
      if_neg fun recorded => starts recorded.2, pure_eq_ok]

/-- The present blocks in the order of the table. -/
def presentEntries (data : Bytes) (r : ParsedRegions) : List (Nat × Nat) :=
  (List.range (entryCountOf r)).filterMap (presentEntry data r)

/-- Findings about the entries in the order of the table. -/
def scanFindings (data : Bytes) (r : ParsedRegions) : Findings :=
  (List.range (entryCountOf r)).flatMap
    (entryFindings data r (logZoneOf data))

/-- Finding about two neighbours of the sorted list. -/
def overlapOf (w : (Nat × Nat) × (Nat × Nat)) : Findings :=
  if w.1.1 = w.2.1 then [.batEntriesOverlap w.1.2 w.2.2 (w.1.1 * mb)] else []

/-- Findings about the neighbours of the sorted list. -/
def overlapFindings (present : List (Nat × Nat)) : Findings :=
  (present.zip present.tail).flatMap overlapOf

theorem presentEntry_eq_some {i : Nat} {placed : Nat × Nat} :
    presentEntry data r i = some placed ↔
      Recorded data r i ∧ (entryAt data r i / 2 ^ 20, i) = placed := by
  unfold presentEntry
  split <;> simp_all

/-- A block is recorded if it is mapped inside the container. -/
theorem mem_presentEntries {placed : Nat × Nat} :
    placed ∈ presentEntries data r ↔
      placed.2 < entryCountOf r ∧ Recorded data r placed.2 ∧
        placed.1 * mb = blockStart data r placed.2 := by
  unfold presentEntries
  simp only [List.mem_filterMap, List.mem_range, presentEntry_eq_some]
  constructor
  · rintro ⟨i, iLt, recorded, rfl⟩
    exact ⟨iLt, recorded, rfl⟩
  · rintro ⟨iLt, recorded, starts⟩
    refine ⟨placed.2, iLt, recorded, Prod.ext ?_ rfl⟩
    exact (Nat.eq_of_mul_eq_mul_right mb_pos starts).symm

/-- Present blocks start inside the container. -/
theorem present_placed {placed : Nat × Nat}
    (member : placed ∈ presentEntries data r) :
    placed.1 * mb < data.length := by
  obtain ⟨-, recorded, starts⟩ := mem_presentEntries.mp member
  rw [starts]
  exact recorded.2

/-- One pass adds the findings of one entry. -/
theorem batScanStep_eq (allocated : data.length ≤ isizeMax) (sound : r.Sound)
    (inside : r.batOffset + r.batLength ≤ data.length) {i : Nat}
    (iLt : i < entryCountOf r) (state : Findings × List (Nat × Nat)) :
    batScanStep data r zone (entryCountOf r) data.length i state =
      .ok (.yield (state.1 ++ entryFindings data r zone i,
        state.2 ++ (presentEntry data r i).toList)) := by
  have within := entry_inside inside iLt
  have scanned := @scanEntry_eq _ _ zone allocated sound inside i iLt
  unfold entryAt at scanned
  unfold isizeMax at allocated
  rw [batScanStep, batEntryPos_eq (by unfold wordCount; omega), ok_bind,
    add_eq_ok (by unfold wordCount; omega), ok_bind, if_neg (by omega)]
  dsimp only
  rw [scanned]
  rfl

/-- The passes add the findings of all entries. -/
theorem batScan_eq (allocated : data.length ≤ isizeMax) (sound : r.Sound)
    (inside : r.batOffset + r.batLength ≤ data.length) :
    forRange (entryCountOf r)
        (batScanStep data r (logZoneOf data) (entryCountOf r) data.length)
        ([], []) =
      .ok (scanFindings data r, presentEntries data r) := by
  rw [forRange_eq_fold
    (fun i state => (state.1 ++ entryFindings data r (logZoneOf data) i,
      state.2 ++ (presentEntry data r i).toList))
    (fun _ _ => True) trivial fun i iLt state _ =>
      ⟨batScanStep_eq allocated sound inside iLt state, trivial⟩]
  -- Both components of the state grow by one batch per entry.
  have found := foldRange_append (entryFindings data r (logZoneOf data))
    (entryCountOf r) []
  have placed := foldRange_append (fun i => (presentEntry data r i).toList)
    (entryCountOf r) []
  rw [List.nil_append] at found placed
  rw [← List.filterMap_eq_flatMap_toList] at placed
  rw [scanFindings, presentEntries, ← found, ← placed]
  congr 1
  refine Prod.ext ?_ ?_
  · exact foldRange_map Prod.fst _ _ fun i state => rfl
  · exact foldRange_map Prod.snd _ _ fun i state => rfl

/-- One pair of neighbours adds its finding. -/
theorem overlapStep_eq {w : (Nat × Nat) × (Nat × Nat)}
    (placed : w.1.1 * mb < wordCount) (issues : Findings) :
    overlapStep issues w = .ok (issues ++ overlapOf w) := by
  unfold overlapStep overlapOf
  split
  · rw [mul_eq_ok placed, ok_bind]
    rfl
  · rw [List.append_nil]
    rfl

/-- The scan reports about the entries, then about equal offsets. -/
theorem batScanEntries_eq (sorting : UnstableSort (Nat × Nat) Prod.fst)
    (allocated : data.length ≤ isizeMax) (sound : r.Sound)
    (inside : r.batOffset + r.batLength ≤ data.length) :
    batScanEntries sorting data r (entryCountOf r) data.length =
      .ok (scanFindings data r ++
          overlapFindings (sorting.run (presentEntries data r)),
        sorting.run (presentEntries data r)) := by
  have word : isizeMax < wordCount := by decide
  rw [batScanEntries, logZone_eq, ok_bind,
    batScan_eq allocated sound inside, ok_bind]
  dsimp only
  rw [foldlM_eq_ok (fun issues w => issues ++ overlapOf w) (fun _ => True)
    trivial]
  · rw [ok_bind, List.foldl_append_eq_append]
    rfl
  · intro w member issues _
    have neighbour := (List.of_mem_zip member).1
    have placed := present_placed (sorting.mem_run.mp neighbour)
    exact ⟨overlapStep_eq (by omega) issues, trivial⟩

end Scan

/-! ## Coverage -/

/-- The start in MiB of the block that is placed last. -/
def furthest (present : List (Nat × Nat)) : Nat :=
  (present.map Prod.fst).max?.getD 0

/-- Finding about the blocks placed in the container. -/
def underFindings (declaredVds : Nat) (present : List (Nat × Nat)) :
    Findings :=
  if present ≠ [] ∧ declaredVds < (furthest present + 1) * mb then
    [.virtualDiskSizeUnderreported declaredVds ((furthest present + 1) * mb)]
  else []

/-- Payload entries that the check counts among the entries of a table. -/
def countedBlocks (entryCount cr : Nat) : Nat := entryCount * cr / (cr + 1)

/-- Finding about the blocks the table can hold. -/
def overFindings (bs declaredVds entryCount : Nat) (chunkRatio : Option Nat) :
    Findings :=
  match chunkRatio with
  | none => []
  | some cr =>
      if countedBlocks entryCount cr * bs < declaredVds then
        [.virtualDiskSizeOverreported declaredVds
          (countedBlocks entryCount cr * bs)]
      else []

/-- Findings about the declared disk size. -/
def coverageFindings (r : ParsedRegions) (present : List (Nat × Nat))
    (entryCount : Nat) : Findings :=
  match r.blockSize, r.vdiskSize with
  | some bs, some declaredVds =>
      if bs = 0 then []
      else underFindings declaredVds present ++
        overFindings bs declaredVds entryCount r.chunkRatio
  | _, _ => []

/-- The number of slots stays in the range of its integer. -/
def CoverageFits (r : ParsedRegions) (entryCount : Nat) : Prop :=
  ∀ bs ∈ r.blockSize, ∀ _vds ∈ r.vdiskSize, ∀ cr ∈ r.chunkRatio, 0 < bs →
    entryCount * cr < wordCount

/-- The furthest block is a block, and none is further. -/
theorem furthest_spec {present : List (Nat × Nat)} (nonempty : present ≠ []) :
    (∃ placed ∈ present, placed.1 = furthest present) ∧
      ∀ placed ∈ present, placed.1 ≤ furthest present := by
  cases largest : (present.map Prod.fst).max? with
  | none =>
      rw [List.max?_eq_none_iff, List.map_eq_nil_iff] at largest
      exact absurd largest nonempty
  | some value =>
      have isFurthest : furthest present = value := by
        rw [furthest, largest, Option.getD_some]
      obtain ⟨member, bound⟩ := List.max?_eq_some_iff.mp largest
      rw [isFurthest]
      constructor
      · obtain ⟨placed, found, same⟩ := List.mem_map.mp member
        exact ⟨placed, found, same⟩
      · intro placed found
        exact bound placed.1 (List.mem_map_of_mem found)

/-- The coverage exceeds a size exactly if some block is placed beyond it. -/
theorem lt_furthest_iff {present : List (Nat × Nat)} (size : Nat) :
    (present ≠ [] ∧ size < (furthest present + 1) * mb) ↔
      ∃ placed ∈ present, size < (placed.1 + 1) * mb := by
  constructor
  · rintro ⟨nonempty, beyond⟩
    obtain ⟨placed, member, last⟩ := (furthest_spec nonempty).1
    exact ⟨placed, member, by rwa [last]⟩
  · rintro ⟨placed, member, beyond⟩
    have nonempty : present ≠ [] := List.ne_nil_of_mem member
    have atMost := (furthest_spec nonempty).2 placed member
    have scaled := Nat.mul_le_mul_right mb (Nat.succ_le_succ atMost)
    exact ⟨nonempty, Nat.lt_of_lt_of_le beyond scaled⟩

/-- Whether a disk is too small is found without errors. -/
theorem underreportedFindings_eq {declaredVds : Nat}
    {present : List (Nat × Nat)}
    (placed : ∀ block ∈ present, (block.1 + 1) * mb < wordCount) :
    underreportedFindings declaredVds present =
      .ok (underFindings declaredVds present) := by
  rw [underreportedFindings, underFindings]
  by_cases empty : present = []
  · rw [if_pos empty, if_neg fun both => both.1 empty]
    rfl
  obtain ⟨last, member, lastEq⟩ := (furthest_spec empty).1
  have small := placed last member
  rw [lastEq] at small
  have positive : 1 ≤ mb := by decide
  have unscaled := Nat.le_mul_of_pos_right (furthest present + 1) positive
  rw [if_neg empty]
  change (add (furthest present) 1 >>= _) = _
  rw [add_eq_ok (by omega), ok_bind, mul_eq_ok small, ok_bind]
  by_cases beyond : declaredVds < (furthest present + 1) * mb
  · rw [if_pos beyond, if_pos ⟨empty, beyond⟩]
    rfl
  · rw [if_neg beyond, if_neg fun both => beyond both.2]
    rfl

/-- Within its range the capacity check has this outcome. -/
theorem overreportedFindings_eq {bs declaredVds entryCount : Nat}
    {chunkRatio : Option Nat} (bsLt : bs < 2 ^ 32)
    (countLt : entryCount < 2 ^ 32)
    (ratioLt : ∀ cr ∈ chunkRatio, cr < 2 ^ 55)
    (fits : ∀ cr ∈ chunkRatio, entryCount * cr < wordCount) :
    overreportedFindings bs declaredVds entryCount chunkRatio =
      .ok (overFindings bs declaredVds entryCount chunkRatio) := by
  cases chunkRatio with
  | none => rfl
  | some cr =>
      have small := ratioLt cr rfl
      have counted : countedBlocks entryCount cr ≤ entryCount := by
        apply Nat.div_le_of_le_mul
        rw [Nat.mul_comm, Nat.add_mul]
        omega
      have covered : countedBlocks entryCount cr * bs < wordCount := by
        unfold wordCount
        nlinarith
      rw [overreportedFindings, mul_eq_ok (fits cr rfl), ok_bind,
        add_eq_ok (by unfold wordCount; omega), ok_bind,
        div_eq_ok (by omega), ok_bind]
      change (mul (countedBlocks entryCount cr) bs >>= _) = _
      rw [mul_eq_ok covered, ok_bind, overFindings]
      split <;> rfl

/-- So has the check of the declared size. -/
theorem batCheckCoverage_eq {r : ParsedRegions} {present : List (Nat × Nat)}
    {entryCount : Nat} (sound : r.Sound) (countLt : entryCount < 2 ^ 32)
    (fits : CoverageFits r entryCount)
    (placed : ∀ block ∈ present, (block.1 + 1) * mb < wordCount) :
    batCheckCoverage r present entryCount =
      .ok (coverageFindings r present entryCount) := by
  unfold batCheckCoverage coverageFindings
  split
  · rename_i bs vds blockSize diskSize
    by_cases unsized : bs = 0
    · rw [if_pos unsized, if_pos unsized]
      rfl
    · rw [if_neg unsized, if_neg unsized, underreportedFindings_eq placed,
        ok_bind, overreportedFindings_eq (sound.blockSize_lt bs blockSize)
          countLt sound.chunkRatio_lt fun cr ratio =>
            fits bs blockSize vds diskSize cr ratio (by omega), ok_bind]
      rfl
  · rfl

/-- Without the range condition the check panics. -/
theorem settles_batCheckCoverage_iff {r : ParsedRegions}
    {present : List (Nat × Nat)} {entryCount : Nat} (sound : r.Sound)
    (countLt : entryCount < 2 ^ 32)
    (placed : ∀ block ∈ present, (block.1 + 1) * mb < wordCount) :
    Settles (batCheckCoverage r present entryCount) ↔
      CoverageFits r entryCount := by
  constructor
  · intro settles bs blockSize vds diskSize cr ratio sized
    rw [Option.mem_def] at blockSize diskSize ratio
    rw [batCheckCoverage, blockSize, diskSize, ratio] at settles
    dsimp only at settles
    rw [if_neg (by omega), underreportedFindings_eq placed, ok_bind,
      overreportedFindings] at settles
    exact settles_mul.mp settles.of_bind.of_bind
  · intro fits
    exact .of_eq_ok (batCheckCoverage_eq sound countLt fits placed)

/-! ## The whole check -/

/-- The table lies inside the image and holds an entry. -/
def TableChecked (data : Bytes) (r : ParsedRegions) : Prop :=
  r.batOffset + r.batLength ≤ data.length ∧ 8 ≤ r.batLength

instance (data : Bytes) (r : ParsedRegions) : Decidable (TableChecked data r) :=
  inferInstanceAs (Decidable (_ ∧ _))

/-- The checks compute with numbers in the range of their integers. -/
def TableArithmeticFits (r : ParsedRegions) : Prop :=
  SizeFormulaFits r ∧ CoverageFits r (entryCountOf r)

/-- All findings about a table. -/
def batFindings (sorting : UnstableSort (Nat × Nat) Prod.fst) (data : Bytes)
    (r : ParsedRegions) : Findings :=
  if TableChecked data r then
    let present := sorting.run (presentEntries data r)
    sizeFindings r (entryCountOf r) ++
      (scanFindings data r ++ overlapFindings present) ++
      coverageFindings r present (entryCountOf r)
  else []

section Whole

variable {sorting : UnstableSort (Nat × Nat) Prod.fst} {data : Bytes}
  {r : ParsedRegions}

theorem entryCountOf_lt (sound : r.Sound) : entryCountOf r < 2 ^ 32 :=
  Nat.lt_of_le_of_lt (Nat.div_le_self _ _) sound.batLength_lt

theorem sorted_placed (allocated : data.length ≤ isizeMax) :
    ∀ block ∈ sorting.run (presentEntries data r),
      (block.1 + 1) * mb < wordCount := by
  intro block member
  have word : isizeMax + mb < wordCount := by decide
  have placed := present_placed (sorting.mem_run.mp member)
  rw [Nat.add_mul]
  omega

/-- The gate of the check. -/
theorem tableUnchecked_iff (allocated : data.length ≤ isizeMax) :
    (data.length < saturatingAdd r.batOffset r.batLength ∨
      r.batLength < 8) ↔ ¬ TableChecked data r := by
  have word : isizeMax < wordCount - 1 := by decide
  have ends := @saturatingAdd_le_iff r.batOffset r.batLength data.length
    (by omega)
  unfold TableChecked
  omega

/-- The check of a table runs to its end if its numbers stay in range. -/
theorem checkBatInner_eq (allocated : data.length ≤ isizeMax)
    (sound : r.Sound)
    (fits : TableChecked data r → TableArithmeticFits r) :
    checkBatInner sorting data (some r) =
      .ok (batFindings sorting data r) := by
  rw [checkBatInner, batFindings]
  dsimp only
  by_cases checked : TableChecked data r
  case neg =>
    rw [if_pos ((tableUnchecked_iff allocated).mpr checked), if_neg checked]
    rfl
  obtain ⟨sizeFits, coverageFits⟩ := fits checked
  rw [if_neg fun gated => (tableUnchecked_iff allocated).mp gated checked,
    if_pos checked]
  change (batCheckSizeFormula r (entryCountOf r) >>= fun sizeIssues =>
    batScanEntries sorting data r (entryCountOf r) data.length >>=
      fun scanned => batCheckCoverage r scanned.2 (entryCountOf r) >>=
        fun coverage => _) = _
  rw [batCheckSizeFormula_eq sizeFits, ok_bind,
    batScanEntries_eq sorting allocated sound checked.1, ok_bind,
    batCheckCoverage_eq sound (entryCountOf_lt sound) coverageFits
      (sorted_placed allocated), ok_bind]
  rfl

/-- The check of a table runs to its end exactly if its numbers stay in
range. -/
theorem settles_checkBatInner_iff (allocated : data.length ≤ isizeMax)
    (sound : r.Sound) :
    Settles (checkBatInner sorting data (some r)) ↔
      (TableChecked data r → TableArithmeticFits r) := by
  constructor
  · intro settles checked
    rw [checkBatInner] at settles
    dsimp only at settles
    rw [if_neg fun gated =>
      (tableUnchecked_iff allocated).mp gated checked] at settles
    change Settles (batCheckSizeFormula r (entryCountOf r) >>=
      fun sizeIssues => batScanEntries sorting data r (entryCountOf r)
        data.length >>= fun scanned =>
          batCheckCoverage r scanned.2 (entryCountOf r) >>= fun coverage =>
            _) at settles
    have sizeFits :=
      (settles_batCheckSizeFormula_iff (entryCountOf r)).mp settles.of_bind
    rw [batCheckSizeFormula_eq sizeFits, ok_bind,
      batScanEntries_eq sorting allocated sound checked.1, ok_bind] at settles
    exact ⟨sizeFits, (settles_batCheckCoverage_iff sound
      (entryCountOf_lt sound) (sorted_placed allocated)).mp settles.of_bind⟩
  · intro fits
    exact .of_eq_ok (checkBatInner_eq allocated sound fits)

end Whole

end VhdxForensic
