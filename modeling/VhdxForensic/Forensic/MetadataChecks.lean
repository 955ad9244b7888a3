import VhdxForensic.Forensic.ParsedRegions
import VhdxForensic.Rust.Sort

/-!
# Checks of the metadata

The parsed items are checked one by one and the ranges of the table entries
against the region and against each other. The ranges are read from the table
once more, with a larger cap on the number of entries.
-/

namespace VhdxForensic

open Rust Rust.Bytes Rust.Exec

/-- Saturating multiplication of 64-bit integers. -/
def saturatingMul (a b : Nat) : Nat := min (a * b) (wordCount - 1)

/-- Saturating addition of 32-bit integers. -/
def saturatingAdd32 (a b : Nat) : Nat := min (a + b) (2 ^ 32 - 1)

/-- Findings about the flags and identifiers. -/
def flagFindings (r : ParsedRegions) : Findings :=
  let parent : Findings := if r.hasParent then [.differencingDisk] else []
  let locator : Findings :=
    if r.hasParent ∧ ¬ r.hasParentLocator then [.missingParentLocator] else []
  let leaveAlloc : Findings :=
    if r.leaveAlloc ∧ ¬ r.hasParent then [.leaveBlocksAllocatedSet] else []
  let physicalSs : Findings :=
    match r.physicalSs with
    | none => []
    | some ps =>
        if ps ≠ 512 ∧ ps ≠ 4096 then [.physicalSectorSizeInvalid ps] else []
  let vdiskId : Findings :=
    match r.vdiskId with
    | none => []
    | some vid =>
        if vid = List.replicate 16 0 then [.virtualDiskIdAllZeros] else []
  parent ++ locator ++ leaveAlloc ++ physicalSs ++ vdiskId

/-- One table entry: its range, and what is found about it. -/
def itemRangeStep (region : Bytes) (regionSize index : Nat)
    (state : Findings × List (Nat × Nat)) :
    Audit (ForInStep (Findings × List (Nat × Nat))) := do
  let base := saturatingAdd 32 (saturatingMul index 32)
  let entryEnd ← add base 32
  if entryEnd > region.length then return .done state
  else
    let itemOff := leU32 region (base + 16)
    let itemLen := leU32 region (base + 20)
    let itemEnd := saturatingAdd32 itemOff itemLen
    let beyond : Findings :=
      if itemEnd > regionSize then
        [.metadataItemBeyondRegion itemOff itemEnd (regionSize % 2 ^ 32)]
      else []
    return .yield (state.1 ++ beyond, state.2 ++ [(itemOff, itemEnd)])

/-- Findings about neighbours in the order of the offsets. -/
def itemOverlap (w : (Nat × Nat) × (Nat × Nat)) : Findings :=
  if w.2.1 < w.1.2 ∧ w.2.2 > w.1.1 then
    [.metadataItemsOverlap w.1.1 w.2.1 (max w.1.1 w.2.1)]
  else []

/-- Findings about the ranges of the table entries. -/
def checkItemRanges (sorting : UnstableSort (Nat × Nat) Prod.fst)
    (data : Bytes) (metaOffset metaLength : Nat) : Audit Findings := do
  let metaEnd := saturatingAdd metaOffset metaLength
  if data.length ≥ metaEnd ∧ metaLength ≥ 8 then
    let region ← slice data metaOffset metaEnd
    let signature ← slice region 0 8
    if signature = metadataTableSignature then
      let count := leU16 region 10
      let (issues, itemRanges) ← forRange (min count 2048)
        (itemRangeStep region metaLength) ([], [])
      let itemRanges := sorting.run itemRanges
      return issues ++ (itemRanges.zip itemRanges.tail).flatMap itemOverlap
    else return []
  else return []

/-- Findings about the block size. -/
def blockSizeFindings (blockSize : Option Nat) : Findings :=
  match blockSize with
  | none => [.metadataMissing "BlockSize"]
  | some bs =>
      if bs = 0 ∨ bs < VhdxMetadata.blockSizeMin ∨
          bs > VhdxMetadata.blockSizeMax then
        [.blockSizeInvalid bs "outside spec range [1 MB, 256 MB]"]
      else if countOnes bs ≠ 1 then
        [.blockSizeInvalid bs "not a power of two"]
      else []

/-- Findings about the logical sector size. -/
def logicalSsFindings (logicalSs : Option Nat) : Findings :=
  match logicalSs with
  | none => []
  | some ss =>
      if ss ≠ 512 ∧ ss ≠ 4096 then [.logicalSectorSizeInvalid ss] else []

/-- Findings about the disk size. -/
def vdiskSizeFindings (vdiskSize logicalSs : Option Nat) : Findings :=
  match vdiskSize with
  | none => [.metadataMissing "VirtualDiskSize"]
  | some 0 => [.virtualDiskSizeInvalid 0 "zero"]
  | some vds =>
      let large : Findings :=
        if vds > VhdxMetadata.virtualDiskSizeMax then
          [.virtualDiskSizeInvalid vds "exceeds 64 TiB spec limit"]
        else []
      let sectorSz := logicalSs.getD 512
      let uneven : Findings :=
        if sectorSz > 0 ∧ vds % sectorSz ≠ 0 then
          [.virtualDiskSizeInvalid vds "not a multiple of LogicalSectorSize"]
        else []
      large ++ uneven

def checkMetadataInner (sorting : UnstableSort (Nat × Nat) Prod.fst)
    (data : Bytes) (regions : Option ParsedRegions) : Audit Findings :=
  match regions with
  | none => return []
  | some r => do
      let ranges ← checkItemRanges sorting data r.metaOffset r.metaLength
      return flagFindings r ++ ranges ++ blockSizeFindings r.blockSize ++
        logicalSsFindings r.logicalSs ++
        vdiskSizeFindings r.vdiskSize r.logicalSs

/-- Validate the metadata fields of an image. -/
def checkMetadata (sorting : UnstableSort (Nat × Nat) Prod.fst)
    (data : Bytes) : Audit Findings := do
  let regions ← attempt (parseRegions data)
  checkMetadataInner sorting data regions.toOption

/-! ## What the checks compute -/

section Ranges

variable (region : Bytes)

/-- The range of the item that the entry at `index` names. -/
def itemRangeAt (index : Nat) : Nat × Nat :=
  let base := 32 + index * 32
  let itemOff := leU32 region (base + 16)
  (itemOff, saturatingAdd32 itemOff (leU32 region (base + 20)))

/-- Finding about that range. -/
def beyondRegion (regionSize index : Nat) : Findings :=
  let range := itemRangeAt region index
  if range.2 > regionSize then
    [.metadataItemBeyondRegion range.1 range.2 (regionSize % 2 ^ 32)]
  else []

/-- The ranges of all entries that the check visits. -/
def itemRanges : List (Nat × Nat) :=
  (List.range (min (metadataEntryCount region) 2048)).map (itemRangeAt region)

end Ranges

/-- Findings about the ranges of the table entries. -/
def itemRangeFindings (sorting : UnstableSort (Nat × Nat) Prod.fst)
    (data : Bytes) (metaOffset metaLength : Nat) : Findings :=
  let region := window data metaOffset metaLength
  let sorted := sorting.run (itemRanges region)
  if metaOffset + metaLength ≤ data.length ∧ 8 ≤ metaLength ∧
      window region 0 8 = metadataTableSignature then
    (List.range (min (metadataEntryCount region) 2048)).flatMap
        (beyondRegion region metaLength) ++
      (sorted.zip sorted.tail).flatMap itemOverlap
  else []

/-- All findings about the metadata. -/
def metadataFindings (sorting : UnstableSort (Nat × Nat) Prod.fst)
    (data : Bytes) (r : ParsedRegions) : Findings :=
  flagFindings r ++
    itemRangeFindings sorting data r.metaOffset r.metaLength ++
    blockSizeFindings r.blockSize ++ logicalSsFindings r.logicalSs ++
    vdiskSizeFindings r.vdiskSize r.logicalSs

section Checks

variable {sorting : UnstableSort (Nat × Nat) Prod.fst} {data region : Bytes}

theorem itemRangeStep_eq {index regionSize : Nat}
    (state : Findings × List (Nat × Nat)) (small : index < 2048)
    (inside : 32 + index * 32 + 32 ≤ region.length) :
    itemRangeStep region regionSize index state =
      .ok (.yield (state.1 ++ beyondRegion region regionSize index,
        state.2 ++ [itemRangeAt region index])) := by
  have word : 2 ^ 20 < wordCount := by decide
  have base : saturatingAdd 32 (saturatingMul index 32) =
      32 + index * 32 := by
    unfold saturatingAdd saturatingMul
    omega
  rw [itemRangeStep, base]
  dsimp only
  rw [add_eq_ok (by omega), ok_bind, if_neg (by omega)]
  rfl

theorem itemRangeStep_ends {index regionSize : Nat}
    (state : Findings × List (Nat × Nat)) (small : index < 2048)
    (outside : region.length < 32 + index * 32 + 32) :
    itemRangeStep region regionSize index state = .ok (.done state) := by
  have word : 2 ^ 20 < wordCount := by decide
  have base : saturatingAdd 32 (saturatingMul index 32) =
      32 + index * 32 := by
    unfold saturatingAdd saturatingMul
    omega
  rw [itemRangeStep, base]
  dsimp only
  rw [add_eq_ok (by omega), ok_bind, if_pos (by omega)]
  rfl

/-- The loop visits the entries that fit into the region. -/
theorem itemRangeLoop_eq (regionSize : Nat) :
    forRange (min (leU16 region 10) 2048) (itemRangeStep region regionSize)
        ([], []) =
      .ok ((List.range (min (metadataEntryCount region) 2048)).flatMap
        (beyondRegion region regionSize), itemRanges region) := by
  have visited : metadataEntryCount region =
    min (leU16 region 10) ((region.length - 32) / 32) := rfl
  rw [forRange_eq_fold_of_break
    (fun index state => (state.1 ++ beyondRegion region regionSize index,
      state.2 ++ [itemRangeAt region index]))
    (show min (metadataEntryCount region) 2048 ≤ _ by omega)
    (fun index indexLt state =>
      itemRangeStep_eq state (by omega) (by omega))
    (fun broke state => itemRangeStep_ends state (by omega) (by omega))]
  -- Both components of the state grow by one batch per entry.
  have found := foldRange_append (beyondRegion region regionSize)
    (min (metadataEntryCount region) 2048) []
  have ranges := foldRange_append (fun index => [itemRangeAt region index])
    (min (metadataEntryCount region) 2048) []
  rw [List.nil_append] at found ranges
  rw [← List.map_eq_flatMap] at ranges
  rw [itemRanges, ← found, ← ranges]
  congr 1
  refine Prod.ext ?_ ?_
  · exact foldRange_map Prod.fst _ _ fun index state => rfl
  · exact foldRange_map Prod.snd _ _ fun index state => rfl

theorem checkItemRanges_eq (allocated : data.length ≤ isizeMax)
    (metaOffset metaLength : Nat) :
    checkItemRanges sorting data metaOffset metaLength =
      .ok (itemRangeFindings sorting data metaOffset metaLength) := by
  have word : isizeMax < wordCount - 1 := by decide
  have ends := @saturatingAdd_le_iff metaOffset metaLength data.length
    (by omega)
  rw [checkItemRanges, itemRangeFindings]
  dsimp only
  by_cases readable : metaOffset + metaLength ≤ data.length ∧ 8 ≤ metaLength
  case neg =>
    rw [if_neg fun both => readable ⟨ends.mp both.1, both.2⟩,
      if_neg fun all => readable ⟨all.1, all.2.1⟩]
    rfl
  obtain ⟨inside, large⟩ := readable
  have regionLength := length_window_of_le inside
  rw [if_pos ⟨ends.mpr inside, large⟩, saturatingAdd_eq (by omega),
    slice_eq_ok (by omega) inside, ok_bind, Nat.add_sub_cancel_left,
    slice_eq_ok (by omega) (by omega), ok_bind, Nat.sub_zero]
  by_cases signed : window (window data metaOffset metaLength) 0 8 =
      metadataTableSignature
  · rw [if_pos signed, if_pos ⟨inside, large, signed⟩, itemRangeLoop_eq]
    rfl
  · rw [if_neg signed, if_neg fun all => signed all.2.2]
    rfl

/-- The checks of the metadata meet no machine limit. -/
theorem checkMetadataInner_eq (allocated : data.length ≤ isizeMax)
    (r : ParsedRegions) :
    checkMetadataInner sorting data (some r) =
      .ok (metadataFindings sorting data r) := by
  rw [checkMetadataInner]
  rw [checkItemRanges_eq allocated, ok_bind]
  rfl

end Checks

end VhdxForensic
