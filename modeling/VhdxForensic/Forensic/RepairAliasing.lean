import VhdxForensic.Forensic.RepairSettles
import VhdxForensic.Forensic.Tampering

/-!
# A table inside of a header

Standard containers keep the table apart from everything else. A container
whose region tables place the table on the sequence number of a header copy
is repaired into one with an invalid header copy.
-/

namespace VhdxForensic

open Rust Rust.Bytes Rust.Exec

/-! ## Standard containers -/

section Standard

variable {items : List StoredItem} {bat : List Nat} {extra : List Run}

/-- The copies of a planned container are valid. -/
theorem ContainerPlan.Fits.nothing_restored {plan : ContainerPlan}
    (fits : plan.Fits) :
    headerRepairs plan.container = [] ∧ tableRepairs plan.container = [] := by
  have header : ∀ copy, copy = 1 ∨ copy = 2 →
      headerCrcFinding plan.container copy = none := by
    rintro copy (rfl | rfl)
    · exact headerCrcFinding_eq_none_iff.mpr fits.holds_header1.1
    · exact headerCrcFinding_eq_none_iff.mpr fits.holds_header2.1
  have table : ∀ copy, copy = 1 ∨ copy = 2 →
      rtCrcFinding plan.container copy = none := by
    rintro copy (rfl | rfl)
    · exact rtCrcFinding_eq_none_iff.mpr fits.holds_table1.1
    · exact rtCrcFinding_eq_none_iff.mpr fits.holds_table2.1
  constructor
  · rw [headerRepairs, header 1 (Or.inl rfl), header 2 (Or.inr rfl)]
    rfl
  · rw [tableRepairs, table 1 (Or.inl rfl), table 2 (Or.inr rfl)]
    rfl

/-- The metadata of a standard container is read from its region. -/
theorem metadataRanges_standardPlan (fits : StandardFits items bat extra)
    {range : Nat × Nat}
    (member : range ∈ metadataRanges (standardPlan items bat extra).container
      0x200000 metadataRegionSize) :
    0x200000 ≤ range.1 ∧ range.1 + range.2 ≤ 0x300000 := by
  have size : metadataRegionSize = 0x100000 := rfl
  have countLe := fits.items_fit.count_le
  have start : itemsOffset = 0x10000 := rfl
  have holds := (standardPlan_fits fits).holds_region
    (show (0x200000, encodeMetadata items) ∈
      (standardPlan items bat extra).regions from List.mem_cons_self)
  rw [length_encodeMetadata] at holds
  have width : ∀ guid, itemWidth guid ≤ 16 := by
    intro guid
    unfold itemWidth
    split_ifs <;> omega
  have count : itemCount (standardPlan items bat extra).container 0x200000
      metadataRegionSize = items.length := by
    rw [itemCount, holds, metadataEntryCount_encodeMetadata fits.items_fit]
    exact min_eq_left fits.items_fit.count_le
  rcases List.mem_cons.mp member with rfl | value
  · dsimp only
    omega
  · obtain ⟨index, indexMember, rfl⟩ := List.mem_map.mp value
    have indexLt := List.mem_range.mp indexMember
    rw [count] at indexLt
    obtain ⟨-, offset, -⟩ := itemEntry_fields fits.items_fit
      (List.getElem?_eq_getElem indexLt)
    have widthLe := width
      (window (encodeMetadata items) (32 + index * 32) 16)
    rw [itemRead, holds]
    dsimp only
    rw [offset]
    omega

theorem fixedRanges_end :
    ∀ range ∈ fixedRanges, range.1 + range.2 ≤ 0x300000 := by decide

/-- The repairs of a standard container are apart from what is read. -/
theorem repairsApart_standardPlan (fits : StandardFits items bat extra)
    (short : ∀ item ∈ items, item.guid ≠ guidVirtualDiskId) :
    RepairsApart (standardPlan items bat extra).container := by
  intro readable r parsed
  rw [parsedRegions_standardPlan fits short, Option.mem_some_iff] at parsed
  subst parsed
  have batLe := fits.bat_le
  obtain ⟨headers, tables⟩ := (standardPlan_fits fits).nothing_restored
  constructor
  · rintro checked i iLt - range member ⟨index, inSlot, inRange⟩
    change 0x300000 + i * 8 ≤ index ∧ _ at inSlot
    have below : range.1 + range.2 ≤ 0x300000 := by
      rcases List.mem_append.mp member with fixed | metadata
      · exact fixedRanges_end range fixed
      · exact (metadataRanges_standardPlan fits metadata).2
    unfold InRange at inRange
    omega
  · intro place member
    rw [restoredPlaces, headers, tables] at member
    cases member

end Standard

/-- Region tables that place the table on the sequence number of the first
header copy. -/
def aliasedTable : List RegionEntry :=
  [{ guid := batGuid, fileOffset := 0x10008, length := 8 },
    (standardRegions 0).metadata]

/-- A container of 3 MiB with these tables. -/
def aliasedPlan (items : List StoredItem) : ContainerPlan where
  size := 0x300000
  header1 := cleanHeader 1
  header2 := cleanHeader 2
  table1 := aliasedTable
  table2 := aliasedTable
  regions := [(0x200000, encodeMetadata items)]

theorem aliasedTable_fits : RegionTableFits aliasedTable where
  encodable := by
    intro entry member
    rcases List.mem_pair.mp member with rfl | rfl
    · exact ⟨rfl, show 0x10008 < 2 ^ 64 by decide, show 8 < 2 ^ 32 by decide⟩
    · exact (standardRegions_encodable (Nat.zero_le _)).2
  count_le := show 2 ≤ 2047 by decide

/-- The parsed state of that container. -/
def aliasedRegions (items : List StoredItem) : ParsedRegions :=
  let found := analysedItems items
  { batOffset := 0x10008
    batLength := 8
    metaOffset := 0x200000
    metaLength := metadataRegionSize
    blockSize := found.blockSize
    logicalSs := found.logicalSs
    vdiskSize := found.vdiskSize
    chunkRatio := chunkRatioFor found.blockSize found.logicalSs
    hasParent := found.hasParent
    leaveAlloc := found.leaveAlloc
    physicalSs := found.physicalSs
    vdiskId := found.vdiskId
    hasParentLocator := found.hasParentLocator }

section Aliased

variable {items : List StoredItem}

theorem aliasedPlan_fits : (aliasedPlan items).Fits where
  header1 := cleanHeader_encodable (by decide)
  header2 := cleanHeader_encodable (by decide)
  table1 := aliasedTable_fits
  table2 := aliasedTable_fits
  apart := by
    apply ContainerPlan.pieces_apart
    · intro region member
      obtain rfl := List.mem_singleton.mp member
      exact show 0x50000 ≤ 0x200000 by decide
    · exact List.pairwise_singleton _ _
  large := show 0x50000 ≤ 0x300000 by decide
  regions_inside := by
    intro region member
    change region.1 + region.2.length ≤ 0x300000
    rw [List.mem_singleton.mp member, length_encodeMetadata]
    exact show 0x200000 + metadataRegionSize ≤ 0x300000 by decide

/-- A container with these tables and this metadata is parsed to it. -/
theorem parsedRegions_aliased (fits : MetadataFits items)
    (short : ∀ item ∈ items, item.guid ≠ guidVirtualDiskId) {data : Bytes}
    (size : data.length = 0x300000)
    (named : tableRanges data regionTable1Offset =
      some ((0x10008, 8), (0x200000, metadataRegionSize)))
    (holds : window data 0x200000 metadataRegionSize =
      encodeMetadata items) :
    parsedRegions data = some (aliasedRegions items) := by
  have itemsEq : parsedItems data 0x200000 metadataRegionSize =
      analysedItems items := by
    refine parsedItems_of_window fits short ?_ holds
    rw [size]
    exact show 0x200000 + metadataRegionSize ≤ 0x300000 by decide
  rw [parsedRegions_eq_map, usedRanges, named, Option.some_or,
    Option.map_some, regionsAt, itemsEq]
  rfl

/-- The planned container has these tables and this metadata. -/
theorem aliasedPlan_holds :
    tableRanges (aliasedPlan items).container regionTable1Offset =
        some ((0x10008, 8), (0x200000, metadataRegionSize)) ∧
      window (aliasedPlan items).container 0x200000 metadataRegionSize =
        encodeMetadata items := by
  have planFits := @aliasedPlan_fits items
  have holds := planFits.holds_region
    (show (0x200000, encodeMetadata items) ∈ (aliasedPlan items).regions from
      List.mem_cons_self)
  have bat : (lastWithGuid batGuid (aliasedPlan items).table1).map
      RegionEntry.range = some (0x10008, 8) := rfl
  have metadata : (lastWithGuid metadataGuid (aliasedPlan items).table1).map
      RegionEntry.range = some (0x200000, metadataRegionSize) := rfl
  rw [length_encodeMetadata] at holds
  refine ⟨?_, holds⟩
  rw [tableRanges, if_pos planFits.holds_table1.1,
    planFits.resolvedRange_table1 _ (show 2 ≤ fittingEntries by decide),
    planFits.resolvedRange_table1 _ (show 2 ≤ fittingEntries by decide),
    bat, metadata]
  rfl

end Aliased

/-! ## The repair of that container -/

section Repaired

variable {data : Bytes}

/-- Clearing the sequence number one is a small change. -/
theorem clearedNumber_change {offset : Nat}
    (inside : offset + headerSize ≤ data.length)
    (number : leU64 data (offset + 8) = 1) :
    SmallChange offset headerSize data
      (overwrite data (offset + 8) (List.replicate 8 0)) := by
  have size : headerSize = 4096 := rfl
  have written : offset + 8 + (List.replicate 8 (0 : UInt8)).length ≤
      data.length := by
    rw [List.length_replicate]
    omega
  have stored : window data (offset + 8) 8 = encodeLe 8 1 := by
    rw [← number, leU64, le, if_pos (by omega)]
    have cut := encodeLe_decodeLe (window data (offset + 8) 8)
    rwa [length_window_of_le (by omega), eq_comm] at cut
  have byte : ∀ index < 8, data[offset + 8 + index]? =
      (encodeLe 8 1)[index]? := by
    intro index indexLt
    rw [← stored, getElem?_window, if_pos indexLt]
  refine { length_eq := length_overwrite written, ne := ?_, confined := ?_ }
  · intro same
    have first := congrArg (fun bytes : Bytes => bytes[offset + 8]?) same
    rw [getElem?_overwrite written, if_pos (by simp), Nat.sub_self] at first
    have one := byte 0 (by decide)
    rw [Nat.add_zero, ← first] at one
    exact absurd one (by decide)
  · refine ⟨8, by omega, Or.inr (Or.inr le_rfl), fun index outside => ?_⟩
    rw [getElem?_overwrite written, List.length_replicate]
    by_cases cleared : offset + 8 ≤ index ∧ index < offset + 8 + 8
    · -- The upper half of the number is zero already.
      rw [if_pos cleared]
      have upper := byte (index - (offset + 8)) (by omega)
      rw [show offset + 8 + (index - (offset + 8)) = index by omega] at upper
      rw [upper]
      have place : 4 ≤ index - (offset + 8) ∧ index - (offset + 8) < 8 := by
        omega
      revert place
      generalize index - (offset + 8) = inner
      rintro ⟨low, high⟩
      interval_cases inner <;> rfl
    · rw [if_neg cleared]

variable {items : List StoredItem} {image : Buffer}

/-- The only finding that is repaired is about the number read as an
entry. -/
theorem runRepairs_aliased (fits : MetadataFits items)
    (short : ∀ item ∈ items, item.guid ≠ guidVirtualDiskId)
    (noSize : (analysedItems items).blockSize = none)
    (bytesEq : image.bytes = (aliasedPlan items).container) :
    fileMagicFindings image.bytes = [] ∧
      parsedRegions image.bytes = some (aliasedRegions items) ∧
      leU64 image.bytes 0x10008 = 1 ∧
      runRepairs image.bytes = [.undefinedBlockState 0] := by
  have planFits := @aliasedPlan_fits items
  have size : image.bytes.length = 0x300000 := by
    rw [bytesEq]
    exact (aliasedPlan items).length_container
  have held := @aliasedPlan_holds items
  rw [← bytesEq] at held
  have parsed := parsedRegions_aliased fits short size held.1 held.2
  have number : leU64 image.bytes 0x10008 = 1 := by
    have header := planFits.holds_header1.2
    rw [← bytesEq] at header
    have stored := congrArg VhdxHeader.sequenceNumber header
    rwa [headerAt] at stored
  have readable : fileMagicFindings image.bytes = [] := by
    have large : analyserMinContainerSize ≤ 0x300000 := by decide
    rw [fileMagicFindings, if_neg (by omega), bytesEq,
      if_neg (not_not_intro planFits.magic)]
  obtain ⟨headers, tables⟩ := planFits.nothing_restored
  rw [← bytesEq] at headers tables
  have checked : TableChecked image.bytes (aliasedRegions items) := by
    refine ⟨?_, le_rfl⟩
    rw [size]
    exact show 0x10008 + 8 ≤ 0x300000 by decide
  have ratio : (aliasedRegions items).chunkRatio = none := by
    change chunkRatioFor (analysedItems items).blockSize _ = none
    rw [noSize]
    rfl
  have payload : ¬ BitmapSlot (aliasedRegions items) 0 := by
    rintro ⟨cr, found, -⟩
    rw [ratio] at found
    cases found
  have entry : entryAt image.bytes (aliasedRegions items) 0 = 1 := number
  refine ⟨readable, parsed, number, ?_⟩
  rw [runRepairs, if_neg (not_not_intro readable), headers, tables, parsed]
  change batRepairs image.bytes (aliasedRegions items) = _
  have single : entryCountOf (aliasedRegions items) = 1 := by
    change 8 / 8 = 1
    decide
  rw [batRepairs, if_pos checked, single, List.range_one,
    List.flatMap_singleton,
    entryRepairs, if_neg payload, entry]
  rfl

/-- Without a block size the analysis of that container computes nothing. -/
theorem aliased_fits (noSize : (analysedItems items).blockSize = none)
    {data : Bytes} (parsed : parsedRegions data = some (aliasedRegions items)) :
    AnalysisFits data ∧ ∀ r ∈ parsedRegions data, TableLocated r := by
  have located : ∀ r ∈ parsedRegions data, TableLocated r := by
    intro r found bs size
    rw [parsed, Option.mem_some_iff] at found
    subst found
    change bs ∈ (analysedItems items).blockSize at size
    rw [noSize] at size
    cases size
  refine ⟨fun _ r found => ?_, located⟩
  have first := located r found
  rw [parsed, Option.mem_some_iff] at found
  subst found
  refine ⟨fun _ => ⟨fun bs size => ?_, fun bs size => ?_⟩, first⟩ <;>
    · change bs ∈ (analysedItems items).blockSize at size
      rw [noSize] at size
      cases size

/-- Its repair completes and invalidates the header copy, which the analysis
of the repaired bytes reports. -/
theorem repaired_aliased (fits : MetadataFits items)
    (short : ∀ item ∈ items, item.guid ≠ guidVirtualDiskId)
    (noSize : (analysedItems items).blockSize = none)
    (bytesEq : image.bytes = (aliasedPlan items).container) :
    ∃ report out found,
      attemptRepair stableOrders image.bytes = .ok (report, out) ∧
        analyse stableOrders out = .ok found ∧
          ∃ finding ∈ found, finding.repairable = true := by
  obtain ⟨readable, parsed, number, repaired⟩ :=
    runRepairs_aliased fits short noSize bytesEq
  have planFits := @aliasedPlan_fits items
  have valid1 : HeaderValid image.bytes (headerOffset 1) := by
    rw [bytesEq]
    exact planFits.holds_header1.1
  have valid2 : HeaderValid image.bytes (headerOffset 2) := by
    rw [bytesEq]
    exact planFits.holds_header2.1
  have size : image.bytes.length = 0x300000 := by
    rw [bytesEq]
    exact (aliasedPlan items).length_container
  have held := @aliasedPlan_holds items
  rw [← bytesEq] at held
  obtain ⟨analysisFits, located⟩ := aliased_fits noSize parsed
  obtain ⟨report, completed, -⟩ :=
    @attemptRepair_eq stableOrders _ image.allocated analysisFits located
  have written : repairedImage stableOrders image.bytes =
      overwrite image.bytes (headerOffset 1 + 8) (List.replicate 8 0) := by
    rw [repairedImage_eq, repaired, tableOffset, parsed]
    rfl
  rw [written] at completed
  have change := clearedNumber_change valid1.1 number
  have invalid := change.header valid1
  have inside : headerOffset 1 + 8 + (List.replicate 8 (0 : UInt8)).length ≤
      image.bytes.length := by
    have first := valid1.1
    have size : headerSize = 4096 := rfl
    rw [List.length_replicate]
    omega
  have kept : HeaderValid (overwrite image.bytes (headerOffset 1 + 8)
      (List.replicate 8 0)) (headerOffset 2) := by
    refine (blockValid_congr (by decide) ?_ valid2.1 ?_).mpr valid2
    · rw [length_overwrite inside]
      exact valid2.1
    · exact window_overwrite_of_disjoint inside (Or.inr (by decide))
  have magic : fileMagicFindings (overwrite image.bytes (headerOffset 1 + 8)
      (List.replicate 8 0)) = [] := by
    rw [fileMagicFindings, length_overwrite inside,
      window_overwrite_of_disjoint inside (Or.inl (by decide))]
    exact readable
  -- The tables and the metadata are as before.
  have outParsed : parsedRegions (overwrite image.bytes (headerOffset 1 + 8)
      (List.replicate 8 0)) = some (aliasedRegions items) := by
    have table : regionTable1Offset + regionTableCrcCoverage ≤ 0x300000 := by
      decide
    refine parsedRegions_aliased fits short ?_ ?_ ?_
    · rw [length_overwrite inside, size]
    · rw [← held.1]
      refine tableRanges_congr ?_ (by omega) ?_
      · rw [length_overwrite inside]
        omega
      · exact window_overwrite_of_disjoint inside (Or.inr (by decide))
    · rw [← held.2]
      exact window_overwrite_of_disjoint inside (Or.inr (by decide))
  have outAllocated : (overwrite image.bytes (headerOffset 1 + 8)
      (List.replicate 8 0)).length ≤ isizeMax := by
    rw [length_overwrite inside]
    exact image.allocated
  have analysed := @analyse_eq_ok stableOrders _ outAllocated
    (aliased_fits noSize outParsed).1
  refine ⟨report, _, _, completed, analysed, ?_⟩
  -- The first header copy is restorable from the second one.
  by_contra unreported
  push Not at unreported
  have nothing : runRepairs (overwrite image.bytes (headerOffset 1 + 8)
      (List.replicate 8 0)) = [] := by
    rw [← repairs_auditFindings stableOrders]
    exact List.filter_eq_nil_iff.mpr unreported
  rw [runRepairs_eq magic, List.append_eq_nil_iff, List.append_eq_nil_iff,
    headerRepairs, headerCrcFinding_eq_none_iff.mpr kept] at nothing
  have single := nothing.1.1
  cases found : headerCrcFinding (overwrite image.bytes (headerOffset 1 + 8)
      (List.replicate 8 0)) 1 with
  | none => exact invalid (headerCrcFinding_eq_none_iff.mp found)
  | some finding =>
      rw [found] at single
      cases single

end Repaired

end VhdxForensic
