import VhdxForensic.Forensic.RegionChecks

/-!
# The analyser's view of regions and metadata

One pass over a region table and the metadata region collects what the later
checks need. The parser is separate from the reader's: nothing is validated,
and `None` is the error of the functions below.
-/

namespace VhdxForensic

open Rust Rust.Bytes Rust.Exec

/-- State derived from a region table and the metadata region. -/
structure ParsedRegions where
  /-- Where the block allocation table starts. -/
  batOffset : Nat
  /-- Its length in bytes. -/
  batLength : Nat
  /-- Where the metadata region starts. -/
  metaOffset : Nat
  /-- Its length in bytes. -/
  metaLength : Nat
  /-- From the file parameters. -/
  blockSize : Option Nat
  /-- Size of a logical sector. -/
  logicalSs : Option Nat
  /-- Size of the disk. -/
  vdiskSize : Option Nat
  /-- Payload entries per bitmap entry. -/
  chunkRatio : Option Nat
  /-- Flag of the file parameters. -/
  hasParent : Bool
  /-- Flag of the file parameters. -/
  leaveAlloc : Bool
  /-- Size of a physical sector. -/
  physicalSs : Option Nat
  /-- GUID of the disk. -/
  vdiskId : Option Bytes
  /-- There is an item that locates a parent. -/
  hasParentLocator : Bool
  deriving DecidableEq, Repr

/-- The metadata items found so far. -/
structure ParsedItems where
  /-- From the file parameters. -/
  blockSize : Option Nat := none
  /-- Size of a logical sector. -/
  logicalSs : Option Nat := none
  /-- Size of the disk. -/
  vdiskSize : Option Nat := none
  /-- Flag of the file parameters. -/
  hasParent : Bool := false
  /-- Flag of the file parameters. -/
  leaveAlloc : Bool := false
  /-- Size of a physical sector. -/
  physicalSs : Option Nat := none
  /-- GUID of the disk. -/
  vdiskId : Option Bytes := none
  /-- There is an item that locates a parent. -/
  hasParentLocator : Bool := false
  deriving DecidableEq, Repr

/-- `self.data.len() >= data_start + count`. -/
def itemPresent (data : Bytes) (dataStart count : Nat) : Exec Unit Bool := do
  let dataEnd ← add dataStart count
  return data.length ≥ dataEnd

/-- Take over the item at `dataStart` by its GUID if the image holds it. -/
def parseItem (data : Bytes) (guid : Bytes) (dataStart : Nat)
    (items : ParsedItems) : Exec Unit ParsedItems := do
  if guid = guidFileParameters then
    if ← itemPresent data dataStart 8 then
      let flags := leU32 data (dataStart + 4)
      return { items with
        blockSize := some (leU32 data dataStart)
        leaveAlloc := flags &&& 1 ≠ 0
        hasParent := flags &&& 2 ≠ 0 }
    else return items
  else if guid = guidVirtualDiskSize then
    if ← itemPresent data dataStart 8 then
      return { items with vdiskSize := some (leU64 data dataStart) }
    else return items
  else if guid = guidLogicalSectorSize then
    if ← itemPresent data dataStart 4 then
      return { items with logicalSs := some (leU32 data dataStart) }
    else return items
  else if guid = guidPhysicalSectorSize then
    if ← itemPresent data dataStart 4 then
      return { items with physicalSs := some (leU32 data dataStart) }
    else return items
  else if guid = guidVirtualDiskId then
    if ← itemPresent data dataStart 16 then
      let id ← slice data dataStart (dataStart + 16)
      return { items with vdiskId := some id }
    else return items
  else if guid = guidParentLocator then
    return { items with hasParentLocator := true }
  else return items

/-- One metadata table entry. -/
def parseItemStep (data region : Bytes) (metaStart : Nat) (index : Nat)
    (items : ParsedItems) : Exec Unit (ForInStep ParsedItems) := do
  let base ← okOr ((checkedMul index 32).bind (checkedAdd 32)) ()
  let entryEnd ← add base 32
  if entryEnd > region.length then return .done items
  else
    let guid ← slice region base (base + 16)
    let itemOff := leU32 region (base + 16)
    let dataStart ← okOr (checkedAdd metaStart itemOff) ()
    let items ← parseItem data guid dataStart items
    return .yield items

/-- Parse the metadata items of at most 256 table entries. -/
def parseItems (data : Bytes) (metaOffset metaLength : Nat) :
    Exec Unit ParsedItems := do
  let metaTableEnd := saturatingAdd metaOffset metaLength
  if data.length ≥ metaTableEnd ∧ metaLength ≥ 8 then
    let region ← slice data metaOffset metaTableEnd
    let signature ← slice region 0 8
    if signature = metadataTableSignature then
      let count := leU16 region 10
      forRange (min count 256) (parseItemStep data region metaOffset) {}
    else return {}
  else return {}

/-- Payload entries per chunk, when they can be computed. -/
def parseChunkRatio (blockSize logicalSs : Option Nat) :
    Exec Unit (Option Nat) :=
  match blockSize, logicalSs with
  | some bs, some ss =>
      if bs > 0 ∧ ss > 0 then do
        let bits ← mul (1 <<< 23) ss
        return some (← div bits bs)
      else return none
  | some bs, none =>
      if bs > 0 then do
        let bits ← mul (1 <<< 23) 512
        return some (← div bits bs)
      else return none
  | none, _ => return none

/-- One table entry: remember the ranges of the known regions. -/
def tryParseStep (rt : Bytes) (index : Nat)
    (state : Option (Nat × Nat) × Option (Nat × Nat)) :
    Exec Unit (ForInStep (Option (Nat × Nat) × Option (Nat × Nat))) := do
  let (bat, metadata) := state
  let base ← okOr
    ((checkedMul index regionEntrySize).bind (checkedAdd 16)) ()
  let entryEnd ← add base regionEntrySize
  if entryEnd > rt.length then return .done state
  else
    let guid ← slice rt base (base + 16)
    let off := leU64 rt (base + 16)
    let len := leU32 rt (base + 24)
    if guid = batGuid then return .yield (some (off, len), metadata)
    else if guid = metadataGuid then return .yield (bat, some (off, len))
    else return .yield state

def tryParseRegions (data : Bytes) (rtOff : Nat) :
    Exec Unit ParsedRegions := do
  failIf (data.length < rtOff + regionTableCrcCoverage) ()
  let rt ← slice data rtOff (rtOff + regionTableCrcCoverage)
  let signature ← slice rt 0 4
  failIf (signature ≠ regionTableSignature) ()
  let stored := leU32 rt 4
  let buf ← fill rt 4 8 0
  failIf (crc32c buf ≠ stored) ()
  let entryCount := min (leU32 rt 8) 2048
  let (bat, metadata) ← forRange entryCount (tryParseStep rt) (none, none)
  let (batOffset, batLength) ← okOr bat ()
  let (metaOffset, metaLength) ← okOr metadata ()
  let items ← parseItems data metaOffset metaLength
  let chunkRatio ← parseChunkRatio items.blockSize items.logicalSs
  return {
    batOffset
    batLength
    metaOffset
    metaLength
    blockSize := items.blockSize
    logicalSs := items.logicalSs
    vdiskSize := items.vdiskSize
    chunkRatio
    hasParent := items.hasParent
    leaveAlloc := items.leaveAlloc
    physicalSs := items.physicalSs
    vdiskId := items.vdiskId
    hasParentLocator := items.hasParentLocator }

/-- Parse the first region table that can be parsed. -/
def parseRegions (data : Bytes) : Exec Unit ParsedRegions :=
  orElse (tryParseRegions data regionTable1Offset)
    (tryParseRegions data regionTable2Offset)

/-! ## What parsing computes -/

/-- Take over an item whose bytes begin with `tail`. -/
def ParsedItems.record (items : ParsedItems) (guid tail : Bytes) :
    ParsedItems :=
  if guid = guidFileParameters then
    if 8 ≤ tail.length then
      { items with
        blockSize := some (leU32 tail 0)
        leaveAlloc := leU32 tail 4 &&& 1 ≠ 0
        hasParent := leU32 tail 4 &&& 2 ≠ 0 }
    else items
  else if guid = guidVirtualDiskSize then
    if 8 ≤ tail.length then { items with vdiskSize := some (leU64 tail 0) }
    else items
  else if guid = guidLogicalSectorSize then
    if 4 ≤ tail.length then { items with logicalSs := some (leU32 tail 0) }
    else items
  else if guid = guidPhysicalSectorSize then
    if 4 ≤ tail.length then { items with physicalSs := some (leU32 tail 0) }
    else items
  else if guid = guidVirtualDiskId then
    if 16 ≤ tail.length then { items with vdiskId := some (window tail 0 16) }
    else items
  else if guid = guidParentLocator then
    { items with hasParentLocator := true }
  else items

/-- Payload entries per chunk, as a number. -/
def chunkRatioFor (blockSize logicalSs : Option Nat) : Option Nat :=
  blockSize.bind fun bs =>
    if bs > 0 ∧ logicalSs ≠ some 0 then
      some (2 ^ 23 * logicalSs.getD 512 / bs)
    else none

/-- Bytes of the image from an offset on. -/
def imageTail (data : Bytes) (start : Nat) : Bytes :=
  window data start (data.length - start)

/-- The items found so far together with the item at `index`. -/
def recordParsed (data region : Bytes) (metaOffset : Nat) (index : Nat)
    (items : ParsedItems) : ParsedItems :=
  let base := 32 + index * 32
  items.record (window region base 16)
    (imageTail data (metaOffset + leU32 region (base + 16)))

/-- The items of the metadata region. -/
def parsedItems (data : Bytes) (metaOffset metaLength : Nat) : ParsedItems :=
  let region := window data metaOffset metaLength
  if metaOffset + metaLength ≤ data.length ∧ 8 ≤ metaLength ∧
      window region 0 8 = metadataTableSignature then
    foldRange (recordParsed data region metaOffset)
      (min (metadataEntryCount region) 256) {}
  else {}

/-- The parsed state for given ranges of the two regions. -/
def regionsAt (data : Bytes) (bat metadata : Nat × Nat) : ParsedRegions :=
  let items := parsedItems data metadata.1 metadata.2
  { batOffset := bat.1
    batLength := bat.2
    metaOffset := metadata.1
    metaLength := metadata.2
    blockSize := items.blockSize
    logicalSs := items.logicalSs
    vdiskSize := items.vdiskSize
    chunkRatio := chunkRatioFor items.blockSize items.logicalSs
    hasParent := items.hasParent
    leaveAlloc := items.leaveAlloc
    physicalSs := items.physicalSs
    vdiskId := items.vdiskId
    hasParentLocator := items.hasParentLocator }

/-- What the copy of the region table at `offset` leads to. -/
def tableAnalysis (data : Bytes) (offset : Nat) : Option ParsedRegions :=
  if RegionTableValid data offset then
    (resolvedRange data offset fittingEntries batGuid).bind fun bat =>
      (resolvedRange data offset fittingEntries metadataGuid).map
        fun metadata => regionsAt data bat metadata
  else none

/-- What the first usable copy leads to. -/
def parsedRegions (data : Bytes) : Option ParsedRegions :=
  (tableAnalysis data regionTable1Offset).or
    (tableAnalysis data regionTable2Offset)

section Items

variable {data : Bytes}

theorem length_imageTail (data : Bytes) (start : Nat) :
    (imageTail data start).length = data.length - start := by
  rw [imageTail, length_window]
  omega

/-- Whether an item is present is found without errors. -/
theorem itemPresent_eq {dataStart count : Nat}
    (small : dataStart + count < wordCount) :
    itemPresent data dataStart count =
      .ok (decide (dataStart + count ≤ data.length)) := by
  rw [itemPresent, add_eq_ok small]
  rfl

/-- Both ways to take over an item, if it is present, come to the same. -/
theorem ok_ite_congr {α : Type} {present : Prop} [Decidable present]
    {taken taken' skipped : α} (same : present → taken = taken') :
    (if present then .ok taken else .ok skipped : Exec Unit α) =
      .ok (if present then taken' else skipped) := by
  split
  · rw [same (by assumption)]
  · rfl

/-- An item is taken over from the bytes at its place. -/
theorem parseItem_eq {dataStart : Nat} (guid : Bytes) (items : ParsedItems)
    (small : dataStart + 16 < wordCount) :
    parseItem data guid dataStart items =
      .ok (items.record guid (imageTail data dataStart)) := by
  have tailLength := length_imageTail data dataStart
  have present : ∀ count, 0 < count →
      (count ≤ (imageTail data dataStart).length ↔
        dataStart + count ≤ data.length) := by
    intro count positive
    rw [tailLength]
    omega
  have integer32 : ∀ inner, dataStart + inner + 4 ≤ data.length →
      leU32 data (dataStart + inner) =
        leU32 (imageTail data dataStart) inner := by
    intro inner inside
    rw [imageTail, leU32_window (by omega) (by omega)]
  have integer64 : dataStart + 8 ≤ data.length →
      leU64 data dataStart = leU64 (imageTail data dataStart) 0 := by
    intro inside
    rw [imageTail, leU64_window (by omega) (by omega), Nat.add_zero]
  rw [parseItem, ParsedItems.record]
  simp only [itemPresent_eq (show dataStart + 8 < wordCount by omega),
    itemPresent_eq (show dataStart + 4 < wordCount by omega),
    itemPresent_eq small, ok_bind, decide_eq_true_eq,
    present 8 (by norm_num), present 4 (by norm_num),
    present 16 (by norm_num)]
  by_cases fileParameters : guid = guidFileParameters
  · rw [if_pos fileParameters, if_pos fileParameters]
    refine ok_ite_congr fun inside => ?_
    rw [integer32 4 (by omega), ← integer32 0 (by omega), Nat.add_zero]
  rw [if_neg fileParameters, if_neg fileParameters]
  by_cases diskSize : guid = guidVirtualDiskSize
  · rw [if_pos diskSize, if_pos diskSize]
    exact ok_ite_congr fun inside => by rw [integer64 inside]
  rw [if_neg diskSize, if_neg diskSize]
  by_cases logical : guid = guidLogicalSectorSize
  · rw [if_pos logical, if_pos logical]
    exact ok_ite_congr fun inside => by
      rw [← integer32 0 (by omega), Nat.add_zero]
  rw [if_neg logical, if_neg logical]
  by_cases physical : guid = guidPhysicalSectorSize
  · rw [if_pos physical, if_pos physical]
    exact ok_ite_congr fun inside => by
      rw [← integer32 0 (by omega), Nat.add_zero]
  rw [if_neg physical, if_neg physical]
  by_cases diskId : guid = guidVirtualDiskId
  · rw [if_pos diskId, if_pos diskId]
    by_cases inside : dataStart + 16 ≤ data.length
    · rw [if_pos inside, if_pos inside, slice_eq_ok (by omega) inside,
        ok_bind, Nat.add_sub_cancel_left, imageTail,
        window_window_of_le (by omega), Nat.add_zero]
      rfl
    · rw [if_neg inside, if_neg inside]
      rfl
  rw [if_neg diskId, if_neg diskId]
  split <;> rfl

/-- One pass takes over one item. -/
theorem parseItemStep_eq {metaOffset metaLength index : Nat}
    (items : ParsedItems) (allocated : data.length ≤ isizeMax)
    (present : metaOffset + metaLength ≤ data.length)
    (inside : 32 + index * 32 + 32 ≤ metaLength) :
    parseItemStep data (window data metaOffset metaLength) metaOffset index
        items =
      .ok (.yield (recordParsed data (window data metaOffset metaLength)
        metaOffset index items)) := by
  unfold isizeMax at allocated
  have regionLength : (window data metaOffset metaLength).length =
      metaLength := length_window_of_le present
  have itemLt := leU32_lt (window data metaOffset metaLength)
    (32 + index * 32 + 16)
  have baseEnd : 32 + index * 32 + 32 < wordCount := by
    unfold wordCount
    omega
  have dataStart : metaOffset + leU32 (window data metaOffset metaLength)
      (32 + index * 32 + 16) + 16 < wordCount := by
    unfold wordCount
    omega
  rw [parseItemStep, checkedMul_eq (by omega), Option.bind_some,
    checkedAdd_eq (by omega), okOr_some, ok_bind, add_eq_ok baseEnd, ok_bind,
    if_neg (by omega), slice_eq_ok (by omega) (by omega), ok_bind,
    Nat.add_sub_cancel_left]
  dsimp only
  rw [checkedAdd_eq (by omega), okOr_some, ok_bind, parseItem_eq _ _ dataStart,
    ok_bind]
  rfl

/-- The loop over the items settles. -/
theorem parseItems_eq {metaOffset metaLength : Nat}
    (allocated : data.length ≤ isizeMax) :
    parseItems data metaOffset metaLength =
      .ok (parsedItems data metaOffset metaLength) := by
  have word : isizeMax + 2 ^ 22 < wordCount - 1 := by decide
  have reaches : saturatingAdd metaOffset metaLength ≤ data.length ↔
      metaOffset + metaLength ≤ data.length :=
    saturatingAdd_le_iff (by omega)
  rw [parseItems, parsedItems]
  dsimp only
  by_cases present : metaOffset + metaLength ≤ data.length
  case neg =>
    rw [if_neg fun both => present (reaches.mp both.1),
      if_neg fun both => present both.1]
    rfl
  by_cases long : 8 ≤ metaLength
  case neg =>
    rw [if_neg fun both => long both.2, if_neg fun both => long both.2.1]
    rfl
  have regionLength : (window data metaOffset metaLength).length =
      metaLength := length_window_of_le present
  rw [if_pos ⟨reaches.mpr present, long⟩, saturatingAdd_eq (by omega),
    slice_eq_ok (by omega) present, ok_bind, Nat.add_sub_cancel_left,
    slice_eq_ok (by omega) (by omega), ok_bind]
  by_cases signed : window (window data metaOffset metaLength) 0 8 =
      metadataTableSignature
  case neg =>
    rw [if_neg signed, if_neg fun all => signed all.2.2]
    rfl
  rw [if_pos signed, if_pos ⟨present, long, signed⟩]
  apply forRange_eq_fold_of_break
  · unfold metadataEntryCount
    omega
  · intro index indexLt items
    apply parseItemStep_eq items allocated present
    unfold metadataEntryCount at indexLt
    omega
  · intro broke items
    unfold metadataEntryCount at broke ⊢
    rw [parseItemStep, checkedMul_eq (by omega), Option.bind_some,
      checkedAdd_eq (by omega), okOr_some, ok_bind,
      add_eq_ok (by omega), ok_bind, if_pos (by omega)]
    rfl

/-- The integers found are in the range of their types. -/
structure ParsedItems.Sound (items : ParsedItems) : Prop where
  /-- The size of a block is a 32-bit value. -/
  blockSize_lt : ∀ bs ∈ items.blockSize, bs < 2 ^ 32
  /-- So is the size of a sector. -/
  logicalSs_lt : ∀ ss ∈ items.logicalSs, ss < 2 ^ 32
  /-- The size of the disk is a 64-bit value. -/
  vdiskSize_lt : ∀ vds ∈ items.vdiskSize, vds < 2 ^ 64

/-- Taking over an item keeps the widths of the fields. -/
theorem ParsedItems.Sound.record {items : ParsedItems} (sound : items.Sound)
    (guid tail : Bytes) : (items.record guid tail).Sound := by
  obtain ⟨blockSizeLt, logicalSsLt, vdiskSizeLt⟩ := sound
  have integer32 := leU32_lt tail 0
  have integer64 := leU64_lt tail 0
  unfold ParsedItems.record
  split_ifs <;> constructor <;> simp_all

/-- All decoded numbers have the widths of their fields. -/
theorem parsedItems_sound (data : Bytes) (metaOffset metaLength : Nat) :
    (parsedItems data metaOffset metaLength).Sound := by
  have empty : ({} : ParsedItems).Sound := by
    constructor <;> simp
  unfold parsedItems
  dsimp only
  split
  · exact foldRange_induction (fun _ (items : ParsedItems) => items.Sound)
      empty _ fun index _ items sound => sound.record _ _
  · exact empty

/-- The chunk ratio is computed without errors. -/
theorem parseChunkRatio_eq {blockSize logicalSs : Option Nat}
    (logicalSsLt : ∀ ss ∈ logicalSs, ss < 2 ^ 32) :
    parseChunkRatio blockSize logicalSs =
      .ok (chunkRatioFor blockSize logicalSs) := by
  unfold parseChunkRatio chunkRatioFor
  cases blockSize with
  | none => rfl
  | some bs =>
      rw [Option.bind_some]
      cases logicalSs with
      | none =>
          dsimp only
          by_cases positive : bs > 0
          · rw [if_pos positive, if_pos ⟨positive, by simp⟩,
              mul_eq_ok (by decide), ok_bind, div_eq_ok (by omega)]
            rfl
          · rw [if_neg positive, if_neg fun both => positive both.1]
            rfl
      | some ss =>
          have ssLt := logicalSsLt ss rfl
          dsimp only
          by_cases positive : bs > 0 ∧ ss > 0
          · rw [if_pos positive, if_pos ⟨positive.1, by
                rw [ne_eq, Option.some.injEq]
                omega⟩, mul_eq_ok (by
                unfold wordCount
                omega), ok_bind, div_eq_ok (by omega)]
            rfl
          · rw [if_neg positive, if_neg]
            · rfl
            · rintro ⟨blockPositive, nonzero⟩
              rw [ne_eq, Option.some.injEq] at nonzero
              omega

end Items

/-! ## Region tables -/

section Tables

variable {data : Bytes} {offset : Nat}

/-- The ranges remembered after one more entry. -/
def rememberRange (data : Bytes) (offset index : Nat)
    (state : Option (Nat × Nat) × Option (Nat × Nat)) :
    Option (Nat × Nat) × Option (Nat × Nat) :=
  let entry := regionEntryAt data offset index
  if entry.guid = batGuid then (some entry.range, state.2)
  else if entry.guid = metadataGuid then (state.1, some entry.range)
  else state

/-- The loop over a table remembers the last range of each region. -/
theorem foldRange_rememberRange (cap : Nat) :
    foldRange (rememberRange data offset) (visitedEntries data offset cap)
        (none, none) =
      (resolvedRange data offset cap batGuid,
        resolvedRange data offset cap metadataGuid) := by
  have projected := foldRange_map (Prod.map (Option.map RegionEntry.range)
    (Option.map RegionEntry.range)) (visitedEntries data offset cap)
    ((none, none) : Option RegionEntry × Option RegionEntry)
    (show ∀ index state, Prod.map (Option.map RegionEntry.range)
        (Option.map RegionEntry.range) (rememberRegion data offset index state)
      = rememberRange data offset index (Prod.map
        (Option.map RegionEntry.range) (Option.map RegionEntry.range) state) by
      intro index state
      unfold rememberRegion rememberRange
      dsimp only
      split
      · rfl
      · split <;> rfl)
  rw [foldRange_rememberRegion] at projected
  exact projected.symm

/-- An entry that the block holds is remembered. -/
theorem tryParseStep_eq {index : Nat}
    (state : Option (Nat × Nat) × Option (Nat × Nat))
    (present : offset + regionTableCrcCoverage ≤ data.length)
    (fits : index < fittingEntries) :
    tryParseStep (window data offset regionTableCrcCoverage) index state =
      .ok (.yield (rememberRange data offset index state)) := by
  have coverage : regionTableCrcCoverage = 65536 := rfl
  have width : regionEntrySize = 32 := rfl
  have fitting : fittingEntries = 2047 := rfl
  have blockLength := length_window_of_le present
  have base : index * regionEntrySize = index * 32 := rfl
  have word : regionTableCrcCoverage < wordCount := by decide
  rw [tryParseStep, checkedMul_eq (by omega), Option.bind_some,
    checkedAdd_eq (by omega), okOr_some, ok_bind, add_eq_ok (by omega),
    ok_bind, if_neg (by omega), slice_eq_ok (by omega) (by omega), ok_bind,
    Nat.add_sub_cancel_left, window_window_of_le (by omega)]
  dsimp only
  rw [leU64_window (by omega) present, leU32_window (by omega) present]
  unfold rememberRange regionEntryAt
  dsimp only
  split
  · rfl
  · split <;> rfl

/-- The loop ends at the end of the block. -/
theorem tryParseStep_ends {index : Nat}
    (state : Option (Nat × Nat) × Option (Nat × Nat))
    (present : offset + regionTableCrcCoverage ≤ data.length)
    (outside : fittingEntries ≤ index) (capped : index < 2048) :
    tryParseStep (window data offset regionTableCrcCoverage) index state =
      .ok (.done state) := by
  have coverage : regionTableCrcCoverage = 65536 := rfl
  have width : regionEntrySize = 32 := rfl
  have fitting : fittingEntries = 2047 := rfl
  have blockLength := length_window_of_le present
  have base : index * regionEntrySize = index * 32 := rfl
  have word : 2 ^ 20 < wordCount := by decide
  rw [tryParseStep, checkedMul_eq (by omega), Option.bind_some,
    checkedAdd_eq (by omega), okOr_some, ok_bind, add_eq_ok (by omega),
    ok_bind, if_pos (by omega)]
  rfl

/-- Parsing one region table settles. -/
theorem tryParseRegions_eq (allocated : data.length ≤ isizeMax)
    (offset : Nat) :
    tryParseRegions data offset = okOr (tableAnalysis data offset) () := by
  have coverage : regionTableCrcCoverage = 65536 := rfl
  have fitting : fittingEntries = 2047 := rfl
  rw [tryParseRegions, failIf_bind, tableAnalysis]
  by_cases short : data.length < offset + regionTableCrcCoverage
  · rw [if_pos short, if_neg fun valid => by
      have := valid.1
      omega]
    rfl
  have present : offset + regionTableCrcCoverage ≤ data.length := by omega
  have blockLength := length_window_of_le present
  have validIff : RegionTableValid data offset ↔
      window data offset 4 = regionTableSignature ∧
        crc32c (clearChecksum (window data offset regionTableCrcCoverage)) =
          leU32 data (offset + 4) :=
    and_iff_right present
  rw [if_neg short, slice_eq_ok (by omega) present, ok_bind,
    Nat.add_sub_cancel_left, slice_eq_ok (by omega) (by omega), ok_bind,
    failIf_bind, window_window_of_le (by omega), Nat.add_zero]
  by_cases signed : window data offset 4 = regionTableSignature
  case neg =>
    rw [if_pos signed, if_neg fun valid => signed (validIff.mp valid).1]
    rfl
  rw [if_neg (not_not_intro signed)]
  dsimp only
  rw [leU32_window (by omega) present, fill_eq_ok 0 (by omega) (by omega),
    ok_bind, failIf_bind]
  by_cases checked : crc32c (clearChecksum
      (window data offset regionTableCrcCoverage)) = leU32 data (offset + 4)
  case neg =>
    rw [if_neg fun valid => checked (validIff.mp valid).2]
    exact if_pos checked
  rw [if_pos (validIff.mpr ⟨signed, checked⟩)]
  have loop : forRange (min (leU32 data (offset + 8)) 2048)
      (tryParseStep (window data offset regionTableCrcCoverage))
      (none, none) =
      .ok (resolvedRange data offset fittingEntries batGuid,
        resolvedRange data offset fittingEntries metadataGuid) := by
    rw [← foldRange_rememberRange]
    apply forRange_eq_fold_of_break
    · unfold visitedEntries
      omega
    · intro index indexLt state
      apply tryParseStep_eq state present
      unfold visitedEntries at indexLt
      omega
    · intro broke state
      unfold visitedEntries at broke ⊢
      exact tryParseStep_ends state present (by omega) (by omega)
  have unchecked : ¬ crc32c (overwrite
      (window data offset regionTableCrcCoverage) 4
        (List.replicate (8 - 4) 0)) ≠ leU32 data (offset + 4) :=
    not_not_intro checked
  rw [if_neg unchecked]
  rw [leU32_window (by omega) present, loop, ok_bind]
  dsimp only
  cases resolvedRange data offset fittingEntries batGuid with
  | none => rfl
  | some bat =>
      rw [okOr_some, ok_bind, Option.bind_some]
      cases resolvedRange data offset fittingEntries metadataGuid with
      | none => rfl
      | some metadata =>
          rw [okOr_some, ok_bind, parseItems_eq allocated, ok_bind,
            parseChunkRatio_eq (parsedItems_sound _ _ _).logicalSs_lt]
          rfl

/-- Parsing the regions meets no machine limit. -/
theorem parseRegions_eq (allocated : data.length ≤ isizeMax) :
    parseRegions data = okOr (parsedRegions data) () := by
  rw [parseRegions, tryParseRegions_eq allocated,
    tryParseRegions_eq allocated, parsedRegions]
  cases tableAnalysis data regionTable1Offset with
  | none => rfl
  | some regions => rfl

end Tables

/-! ## What the parsed state describes -/

namespace ParsedRegions

/-- The fields are in the range of their types, and the chunk ratio is the
computed one. -/
structure Sound (regions : ParsedRegions) : Prop where
  /-- The offset of the table is a 64-bit value. -/
  batOffset_lt : regions.batOffset < 2 ^ 64
  /-- Its length is a 32-bit value. -/
  batLength_lt : regions.batLength < 2 ^ 32
  /-- The offset of the metadata is a 64-bit value. -/
  metaOffset_lt : regions.metaOffset < 2 ^ 64
  /-- Its length is a 32-bit value. -/
  metaLength_lt : regions.metaLength < 2 ^ 32
  /-- The size of a block is a 32-bit value. -/
  blockSize_lt : ∀ bs ∈ regions.blockSize, bs < 2 ^ 32
  /-- The size of the disk is a 64-bit value. -/
  vdiskSize_lt : ∀ vds ∈ regions.vdiskSize, vds < 2 ^ 64
  /-- The size of a sector is a 32-bit value. -/
  logicalSs_lt : ∀ ss ∈ regions.logicalSs, ss < 2 ^ 32
  /-- The chunk ratio is computed from these sizes. -/
  chunkRatio_eq :
    regions.chunkRatio = chunkRatioFor regions.blockSize regions.logicalSs

/-- The description that the parsed items give, if it is complete. -/
def metadata (regions : ParsedRegions) : Option VhdxMetadata :=
  regions.blockSize.bind fun blockSize =>
    regions.vdiskSize.map fun virtualDiskSize =>
      { blockSize
        hasParent := regions.hasParent
        virtualDiskSize
        logicalSectorSize := regions.logicalSs.getD 512 }

/-- The parsed state gives a valid description. -/
structure Describes (regions : ParsedRegions) (metadata : VhdxMetadata) :
    Prop where
  /-- The numbers have the widths of their fields. -/
  sound : regions.Sound
  /-- The items give the description. -/
  metadata_eq : regions.metadata = some metadata
  /-- The description is valid. -/
  valid : metadata.Valid

section Describes

variable {regions : ParsedRegions} {metadata : VhdxMetadata}

/-- A complete description has all its items. -/
theorem metadata_eq_some (complete : regions.metadata = some metadata) :
    regions.blockSize = some metadata.blockSize ∧
      regions.vdiskSize = some metadata.virtualDiskSize ∧
      regions.hasParent = metadata.hasParent ∧
      regions.logicalSs.getD 512 = metadata.logicalSectorSize := by
  obtain ⟨blockSize, blockFound, rest⟩ := Option.bind_eq_some_iff.mp complete
  obtain ⟨diskSize, diskFound, rfl⟩ := Option.map_eq_some_iff.mp rest
  exact ⟨blockFound, diskFound, rfl, rfl⟩

theorem Describes.blockSize_eq (describes : regions.Describes metadata) :
    regions.blockSize = some metadata.blockSize :=
  (metadata_eq_some describes.metadata_eq).1

theorem Describes.vdiskSize_eq (describes : regions.Describes metadata) :
    regions.vdiskSize = some metadata.virtualDiskSize :=
  (metadata_eq_some describes.metadata_eq).2.1

theorem Describes.hasParent_eq (describes : regions.Describes metadata) :
    regions.hasParent = metadata.hasParent :=
  (metadata_eq_some describes.metadata_eq).2.2.1

/-- The analyser computes the reader's chunk ratio. -/
theorem Describes.chunkRatio_eq (describes : regions.Describes metadata) :
    regions.chunkRatio = some metadata.chunkRatioOf := by
  have sectorSize := (metadata_eq_some describes.metadata_eq).2.2.2
  have blockPos := describes.valid.blockSize_pos
  have sectorPos := describes.valid.sectorSize_pos
  rw [describes.sound.chunkRatio_eq, describes.blockSize_eq, chunkRatioFor,
    Option.bind_some, if_pos, sectorSize]
  · rfl
  · refine ⟨blockPos, fun zero => ?_⟩
    rw [zero, Option.getD_some] at sectorSize
    omega

end Describes

end ParsedRegions

theorem resolvedRange_lt {data : Bytes} {offset cap : Nat} {guid : Bytes}
    {range : Nat × Nat}
    (found : resolvedRange data offset cap guid = some range) :
    range.1 < 2 ^ 64 ∧ range.2 < 2 ^ 32 := by
  rw [resolvedRange_eq] at found
  obtain ⟨index, -, rfl⟩ := Option.map_eq_some_iff.mp found
  exact ⟨leU64_lt _ _, leU32_lt _ _⟩

/-- What is parsed from one table has the widths of its fields. -/
theorem tableAnalysis_sound {data : Bytes} {offset : Nat}
    {regions : ParsedRegions}
    (found : tableAnalysis data offset = some regions) : regions.Sound := by
  unfold tableAnalysis at found
  split at found
  case isFalse => cases found
  obtain ⟨bat, batFound, rest⟩ := Option.bind_eq_some_iff.mp found
  obtain ⟨metadata, metadataFound, rfl⟩ := Option.map_eq_some_iff.mp rest
  obtain ⟨batOffsetLt, batLengthLt⟩ := resolvedRange_lt batFound
  obtain ⟨metaOffsetLt, metaLengthLt⟩ := resolvedRange_lt metadataFound
  have items := parsedItems_sound data metadata.1 metadata.2
  exact ⟨batOffsetLt, batLengthLt, metaOffsetLt, metaLengthLt,
    items.blockSize_lt, items.vdiskSize_lt, items.logicalSs_lt, rfl⟩

/-- So has what is parsed from the image. -/
theorem parsedRegions_sound {data : Bytes} {regions : ParsedRegions}
    (found : parsedRegions data = some regions) : regions.Sound := by
  rcases Option.or_eq_some_iff.mp found with first | ⟨-, second⟩
  · exact tableAnalysis_sound first
  · exact tableAnalysis_sound second

/-! ## Planned containers -/

/-- What the analyser takes over from encoded items. -/
def analysedItems (items : List StoredItem) : ParsedItems :=
  items.foldl (fun found item => found.record item.guid
    (encodeLe 8 item.value)) {}

/-- All items but the disk identifier show in their first eight bytes. -/
theorem ParsedItems.record_congr (items : ParsedItems)
    {guid tail tail' : Bytes} (short : guid ≠ guidVirtualDiskId)
    (long : 8 ≤ tail.length) (long' : 8 ≤ tail'.length)
    (same : window tail 0 8 = window tail' 0 8) :
    items.record guid tail = items.record guid tail' := by
  have integer32 : ∀ inner, inner + 4 ≤ 8 →
      leU32 tail inner = leU32 tail' inner := by
    intro inner inside
    have left := leU32_window inside (show 0 + 8 ≤ tail.length by omega)
    have right := leU32_window inside (show 0 + 8 ≤ tail'.length by omega)
    rw [Nat.zero_add] at left right
    rw [← left, same, right]
  have integer64 : leU64 tail 0 = leU64 tail' 0 :=
    le_congr (by omega) (by omega) same
  unfold ParsedItems.record
  rw [integer32 0 (by omega), integer32 4 (by omega), integer64, if_pos long,
    if_pos long', if_pos long, if_pos long',
    if_pos (show 4 ≤ tail.length by omega),
    if_pos (show 4 ≤ tail'.length by omega),
    if_pos (show 4 ≤ tail.length by omega),
    if_pos (show 4 ≤ tail'.length by omega), if_neg short, if_neg short]

section Planned

variable {items : List StoredItem} {bat : List Nat} {extra : List Run}

/-- The items of an encoded metadata region, wherever it lies. -/
theorem parsedItems_of_window {data : Bytes} {metaOffset : Nat}
    (fits : MetadataFits items)
    (short : ∀ item ∈ items, item.guid ≠ guidVirtualDiskId)
    (inside : metaOffset + metadataRegionSize ≤ data.length)
    (holds : window data metaOffset metadataRegionSize =
      encodeMetadata items) :
    parsedItems data metaOffset metadataRegionSize = analysedItems items := by
  have countLe := fits.count_le
  have regionLength := length_encodeMetadata items
  have size : metadataRegionSize = 0x100000 := rfl
  have start : itemsOffset = 0x10000 := rfl
  have signed : window (encodeMetadata items) 0 8 = metadataTableSignature :=
    window_layout (metadataPieces_apart fits) (by simp [metadataPieces]) rfl
      (by omega)
  have count : min (metadataEntryCount (encodeMetadata items)) 256 =
      items.length := by
    rw [metadataEntryCount_encodeMetadata fits]
    exact min_eq_left countLe
  rw [parsedItems, holds]
  rw [if_pos ⟨inside, by omega, signed⟩, count, analysedItems]
  apply foldRange_eq_foldl
  intro index item found state
  have indexLt := (List.getElem?_eq_some_iff.mp found).1
  obtain ⟨guid, offset, -⟩ := itemEntry_fields fits found
  have content := window_itemContent fits found
  rw [recordParsed, guid, offset]
  have tailLength := length_imageTail data
    (metaOffset + (itemsOffset + index * 8))
  apply ParsedItems.record_congr
  · exact short item (List.mem_of_getElem? found)
  · omega
  · rw [length_encodeLe]
  · have inRegion : window (window data metaOffset metadataRegionSize)
        (itemsOffset + index * 8) 8 =
          window data (metaOffset + (itemsOffset + index * 8)) 8 :=
      window_window_of_le (by omega)
    have whole := window_zero_length (encodeLe 8 item.value)
    rw [length_encodeLe] at whole
    rw [whole, imageTail, window_window_of_le (by omega), Nat.add_zero,
      ← inRegion, holds, content]

/-- The parsed state of a standard container. -/
def standardRegionsAt (items : List StoredItem) (entries : Nat) :
    ParsedRegions :=
  let found := analysedItems items
  { batOffset := 0x300000
    batLength := entries * 8
    metaOffset := 0x200000
    metaLength := metadataRegionSize
    blockSize := found.blockSize
    logicalSs := found.logicalSs
    vdiskSize := found.vdiskSize
    chunkRatio := chunkRatioFor found.blockSize found.logicalSs
    hasParent := found.hasParent
    leaveAlloc := found.leaveAlloc
    physicalSs := found.physicalSs
    vdiskId := found.vdiskId
    hasParentLocator := found.hasParentLocator }

/-- Analysing a standard container finds its regions and items. -/
theorem parsedRegions_standardPlan (fits : StandardFits items bat extra)
    (short : ∀ item ∈ items, item.guid ≠ guidVirtualDiskId) :
    parsedRegions (standardPlan items bat extra).container =
      some (standardRegionsAt items bat.length) := by
  have planFits := standardPlan_fits fits
  have containerLength := (standardPlan items bat extra).length_container
  have holds := planFits.holds_region
    (show (0x200000, encodeMetadata items) ∈
      (standardPlan items bat extra).regions from List.mem_cons_self)
  rw [length_encodeMetadata] at holds
  have size : metadataRegionSize = 0x100000 := rfl
  have items_eq : parsedItems (standardPlan items bat extra).container
      0x200000 metadataRegionSize = analysedItems items := by
    refine parsedItems_of_window fits.items_fit short ?_ holds
    rw [containerLength]
    exact show 0x200000 + metadataRegionSize ≤ 0x600000 by decide
  have first : tableAnalysis (standardPlan items bat extra).container
      regionTable1Offset = some (standardRegionsAt items bat.length) := by
    rw [tableAnalysis, if_pos planFits.holds_table1.1,
      planFits.resolvedRange_table1 _ (show 2 ≤ fittingEntries by decide),
      planFits.resolvedRange_table1 _ (show 2 ≤ fittingEntries by decide)]
    change some (regionsAt _ (0x300000, bat.length * 8)
      (0x200000, metadataRegionSize)) = _
    rw [regionsAt, items_eq]
    rfl
  rw [parsedRegions, first]
  rfl

end Planned

end VhdxForensic
