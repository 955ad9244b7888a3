import VhdxForensic.Forensic.MetadataChecks
import VhdxForensic.Rust.Intervals

/-!
# Overlapping metadata items

The check sorts the ranges of the table entries by their offsets and compares
neighbours. A range between two others can hide their overlap, and an empty
range inside of another one is reported although it holds no byte.
-/

namespace VhdxForensic

open Rust Rust.Bytes Rust.Exec Rust.Intervals

/-- An overlap of items is among the findings. -/
def ReportsItemsOverlap (findings : Findings) : Prop :=
  ∃ a b at_, .metadataItemsOverlap a b at_ ∈ findings

section Reports

variable {findings more : Findings}

@[simp] theorem reportsItemsOverlap_append :
    ReportsItemsOverlap (findings ++ more) ↔
      ReportsItemsOverlap findings ∨ ReportsItemsOverlap more := by
  simp only [ReportsItemsOverlap, List.mem_append, exists_or]

/-- An overlap is reported if some batch reports it. -/
theorem reportsItemsOverlap_flatMap {α : Type} {items : List α}
    {batch : α → Findings} :
    ReportsItemsOverlap (items.flatMap batch) ↔
      ∃ item ∈ items, ReportsItemsOverlap (batch item) := by
  simp only [ReportsItemsOverlap, List.mem_flatMap]
  constructor
  · rintro ⟨a, b, at_, item, member, found⟩
    exact ⟨item, member, a, b, at_, found⟩
  · rintro ⟨item, member, a, b, at_, found⟩
    exact ⟨a, b, at_, item, member, found⟩

theorem not_reports_flagFindings (r : ParsedRegions) :
    ¬ ReportsItemsOverlap (flagFindings r) := by
  unfold flagFindings ReportsItemsOverlap
  cases r.physicalSs <;> cases r.vdiskId <;> dsimp only <;>
    split_ifs <;> simp

theorem not_reports_beyondRegion (region : Bytes) (regionSize index : Nat) :
    ¬ ReportsItemsOverlap (beyondRegion region regionSize index) := by
  unfold beyondRegion ReportsItemsOverlap
  dsimp only
  split <;> simp

theorem not_reports_blockSizeFindings (blockSize : Option Nat) :
    ¬ ReportsItemsOverlap (blockSizeFindings blockSize) := by
  unfold blockSizeFindings ReportsItemsOverlap
  cases blockSize with
  | none => simp
  | some bs =>
      dsimp only
      split_ifs <;> simp

theorem not_reports_logicalSsFindings (logicalSs : Option Nat) :
    ¬ ReportsItemsOverlap (logicalSsFindings logicalSs) := by
  unfold logicalSsFindings ReportsItemsOverlap
  cases logicalSs with
  | none => simp
  | some ss =>
      dsimp only
      split_ifs <;> simp

theorem not_reports_vdiskSizeFindings (vdiskSize logicalSs : Option Nat) :
    ¬ ReportsItemsOverlap (vdiskSizeFindings vdiskSize logicalSs) := by
  unfold vdiskSizeFindings ReportsItemsOverlap
  split
  · simp
  · simp
  · dsimp only
    split_ifs <;> simp

/-- Neighbours are reported if they are flagged. -/
theorem reports_itemOverlap {w : (Nat × Nat) × (Nat × Nat)} :
    ReportsItemsOverlap (itemOverlap w) ↔ Flagged w.1 w.2 := by
  unfold itemOverlap ReportsItemsOverlap Flagged
  split
  · rename_i flagged
    simpa using flagged
  · rename_i quiet
    simpa using quiet

/-- The neighbours of a list are all quiet or one pair is reported. -/
theorem reports_neighbours {items : List (Nat × Nat)} :
    ReportsItemsOverlap ((items.zip items.tail).flatMap itemOverlap) ↔
      ¬ Quiet items := by
  rw [reportsItemsOverlap_flatMap, ← not_iff_not, not_not, Quiet]
  simp only [reports_itemOverlap, not_exists, not_and]
  induction items with
  | nil => simp
  | cons first rest inductionHypothesis =>
      cases rest with
      | nil => simp
      | cons second rest =>
          have neighbours : (first :: second :: rest).zip
              (first :: second :: rest).tail =
                (first, second) :: (second :: rest).zip rest := rfl
          rw [neighbours, List.forall_mem_cons, List.isChain_cons_cons]
          exact and_congr_right fun _ => inductionHypothesis

end Reports

/-! ## When the check is exact -/

/-- The ranges of the entries that the check of an image walks. -/
def walkedRanges (data : Bytes) (r : ParsedRegions) : List (Nat × Nat) :=
  itemRanges (window data r.metaOffset r.metaLength)

/-- The check reports an overlap exactly if two ranges share a byte, in
whatever order the sort leaves ranges with one offset. -/
def OverlapsExact (data : Bytes) : Prop :=
  ∀ r, parsedRegions data = some r → ∀ sorting, ∃ findings,
    checkMetadata sorting data = .ok findings ∧
      (ReportsItemsOverlap findings ↔ Meeting (walkedRanges data r))

/-- The metadata region lies in the image and has its signature. -/
structure MetadataReadable (data : Bytes) (r : ParsedRegions) : Prop where
  /-- The image has regions. -/
  parsed : parsedRegions data = some r
  /-- The metadata region lies in the image. -/
  inside : r.metaOffset + r.metaLength ≤ data.length
  /-- It starts with the signature of a metadata table. -/
  signed : window (window data r.metaOffset r.metaLength) 0 8 =
    metadataTableSignature

section Exact

variable {data : Bytes} {r : ParsedRegions}

/-- The range of an item does not end before its start. -/
theorem itemRangeAt_proper (region : Bytes) (index : Nat) :
    (itemRangeAt region index).1 ≤ (itemRangeAt region index).2 := by
  have small := leU32_lt region (32 + index * 32 + 16)
  unfold itemRangeAt saturatingAdd32
  dsimp only
  omega

/-- So it is for all items that the check visits. -/
theorem walkedRanges_proper :
    ∀ a ∈ walkedRanges data r, a.1 ≤ a.2 := by
  intro a aMember
  obtain ⟨index, -, rfl⟩ := List.mem_map.mp aMember
  exact itemRangeAt_proper _ index

theorem MetadataReadable.long (readable : MetadataReadable data r) :
    8 ≤ r.metaLength := by
  have lengths := congrArg List.length readable.signed
  rw [length_window, length_window_of_le readable.inside] at lengths
  have signature : metadataTableSignature.length = 8 := rfl
  omega

/-- The check of the metadata settles. -/
theorem checkMetadata_eq (allocated : data.length ≤ isizeMax)
    (sorting : UnstableSort (Nat × Nat) Prod.fst)
    (parsed : parsedRegions data = some r) :
    checkMetadata sorting data = .ok (metadataFindings sorting data r) := by
  rw [checkMetadata, parseRegions_eq allocated, parsed]
  exact checkMetadataInner_eq allocated r

/-- The check reports an overlap if it flags two neighbours. -/
theorem reports_metadataFindings (readable : MetadataReadable data r)
    (sorting : UnstableSort (Nat × Nat) Prod.fst) :
    ReportsItemsOverlap (metadataFindings sorting data r) ↔
      ¬ Quiet (sorting.run (walkedRanges data r)) := by
  have ranges : ReportsItemsOverlap
      (itemRangeFindings sorting data r.metaOffset r.metaLength) ↔
        ¬ Quiet (sorting.run (walkedRanges data r)) := by
    unfold itemRangeFindings
    dsimp only
    rw [if_pos ⟨readable.inside, readable.long, readable.signed⟩,
      reportsItemsOverlap_append, reports_neighbours, or_iff_right]
    · rfl
    · rw [reportsItemsOverlap_flatMap]
      rintro ⟨index, -, found⟩
      exact not_reports_beyondRegion _ _ index found
  simp only [metadataFindings, reportsItemsOverlap_append, ranges,
    not_reports_flagFindings, not_reports_blockSizeFindings,
    not_reports_logicalSsFindings, not_reports_vdiskSizeFindings,
    false_or, or_false]

/-- The check of an image is as exact as the comparison of neighbours. -/
theorem overlapsExact_iff_exact (allocated : data.length ≤ isizeMax)
    (readable : MetadataReadable data r) :
    OverlapsExact data ↔ Intervals.Exact (walkedRanges data r) := by
  constructor
  · intro exact sorted arranges
    obtain ⟨sorting, rfl⟩ :=
      UnstableSort.exists_run_eq arranges.perm arranges.ordered
    obtain ⟨findings, ran, iff⟩ := exact r readable.parsed sorting
    rw [checkMetadata_eq allocated sorting readable.parsed] at ran
    cases ran
    rw [← iff, reports_metadataFindings readable]
  · intro exact r' parsed' sorting
    obtain rfl : r = r' := by
      have same := readable.parsed.symm.trans parsed'
      exact Option.some.inj same
    refine ⟨_, checkMetadata_eq allocated sorting parsed', ?_⟩
    rw [reports_metadataFindings readable]
    exact exact _ ⟨sorting.perm _, sorting.ordered _⟩

/-- The check is exact if meeting ranges are crowded at some offset, and if no
empty range stands inside another one where no ranges meet. -/
theorem overlapsExact_iff (allocated : data.length ≤ isizeMax)
    (readable : MetadataReadable data r) :
    OverlapsExact data ↔
      (Meeting (walkedRanges data r) →
        ∃ start, Crowded (walkedRanges data r) start) ∧
      (¬ Meeting (walkedRanges data r) →
        ¬ EmptyInside (walkedRanges data r)) := by
  rw [overlapsExact_iff_exact allocated readable]
  exact exact_iff walkedRanges_proper

end Exact

/-! ## Containers with given ranges -/

/-- Offset and length of each item at their places in a metadata table. -/
def rangeTablePieces (ranges : List (Nat × Nat)) : List Run :=
  (0, metadataTableSignature) :: (10, encodeLe 2 ranges.length) ::
    ranges.zipIdx.flatMap fun entry =>
      [(32 + entry.2 * 32 + 16, encodeLe 4 entry.1.1),
        (32 + entry.2 * 32 + 20, encodeLe 4 entry.1.2)]

/-- A metadata region whose entries have the given ranges and no GUID. -/
def encodeRanges (ranges : List (Nat × Nat)) : Bytes :=
  layout metadataRegionSize (rangeTablePieces ranges)

/-- Three MiB with such a region. -/
def rangesPlan (ranges : List (Nat × Nat)) : ContainerPlan where
  size := 0x300000
  header1 := cleanHeader 1
  header2 := cleanHeader 2
  table1 := [(standardRegions 0).bat, (standardRegions 0).metadata]
  table2 := [(standardRegions 0).bat, (standardRegions 0).metadata]
  regions := [(0x200000, encodeRanges ranges)]

/-- The ranges can be encoded. -/
structure RangesFit (ranges : List (Nat × Nat)) : Prop where
  /-- The pieces of the table do not overlap. -/
  apart : (rangeTablePieces ranges).Pairwise Run.Apart
  /-- There are no more entries than the check visits. -/
  count_le : ranges.length ≤ 2048
  /-- Offsets and lengths fit their fields. -/
  fields_lt : ∀ range ∈ ranges, range.1 < 2 ^ 32 ∧ range.2 < 2 ^ 32

section Planned

variable {ranges : List (Nat × Nat)}

theorem length_encodeRanges :
    (encodeRanges ranges).length = metadataRegionSize :=
  length_layout _ _

/-- The table is read back. -/
theorem itemRangeAt_encodeRanges (fits : RangesFit ranges) {index : Nat}
    {range : Nat × Nat} (found : ranges[index]? = some range) :
    itemRangeAt (encodeRanges ranges) index =
      (range.1, saturatingAdd32 range.1 range.2) := by
  have size : metadataRegionSize = 0x100000 := rfl
  have countLe := fits.count_le
  obtain ⟨indexLt, -⟩ := List.getElem?_eq_some_iff.mp found
  obtain ⟨offsetLt, lengthLt⟩ :=
    fits.fields_lt range (List.mem_of_getElem? found)
  have entry : (range, index) ∈ ranges.zipIdx :=
    List.mk_mem_zipIdx_iff_getElem?.mpr found
  have pieces : ∀ piece ∈ [(32 + index * 32 + 16, encodeLe 4 range.1),
      (32 + index * 32 + 20, encodeLe 4 range.2)],
      piece ∈ rangeTablePieces ranges := by
    intro piece member
    refine List.mem_cons_of_mem _ (List.mem_cons_of_mem _ ?_)
    exact List.mem_flatMap.mpr ⟨(range, index), entry, member⟩
  have offset : leU32 (encodeRanges ranges) (32 + index * 32 + 16) =
      range.1 :=
    le_layout fits.apart (pieces _ (by simp)) (by omega) offsetLt
  have length : leU32 (encodeRanges ranges) (32 + index * 32 + 20) =
      range.2 :=
    le_layout fits.apart (pieces _ (by simp)) (by omega) lengthLt
  unfold itemRangeAt
  dsimp only
  rw [offset, length]

/-- An encoded table of ranges has these ranges. -/
theorem itemRanges_encodeRanges (fits : RangesFit ranges) :
    itemRanges (encodeRanges ranges) =
      ranges.map fun range =>
        (range.1, saturatingAdd32 range.1 range.2) := by
  have size : metadataRegionSize = 0x100000 := rfl
  have countLe := fits.count_le
  have regionLength := @length_encodeRanges ranges
  have stored : leU16 (encodeRanges ranges) 10 = ranges.length :=
    le_layout fits.apart (by simp [rangeTablePieces]) (by omega) (by omega)
  have count : min (metadataEntryCount (encodeRanges ranges)) 2048 =
      ranges.length := by
    rw [metadataEntryCount, stored, regionLength]
    omega
  rw [itemRanges, count]
  apply List.ext_getElem?
  intro index
  rw [List.getElem?_map, List.getElem?_map]
  by_cases indexLt : index < ranges.length
  · rw [List.getElem?_range indexLt, List.getElem?_eq_getElem indexLt]
    exact congrArg some (itemRangeAt_encodeRanges fits
      (List.getElem?_eq_getElem indexLt))
  · rw [List.getElem?_eq_none (by simpa using indexLt),
      List.getElem?_eq_none (by simpa using indexLt)]
    rfl

/-- A container with such a table can be laid out. -/
theorem rangesPlan_fits : (rangesPlan ranges).Fits where
  header1 := cleanHeader_encodable (by decide)
  header2 := cleanHeader_encodable (by decide)
  table1 := @standardTable_fits [] (Nat.zero_le _)
  table2 := @standardTable_fits [] (Nat.zero_le _)
  apart := by
    apply ContainerPlan.pieces_apart
    · intro region member
      obtain rfl := List.mem_singleton.mp member
      exact show 0x50000 ≤ 0x200000 by decide
    · exact List.pairwise_singleton _ _
  large := show 0x50000 ≤ 0x300000 by decide
  regions_inside := by
    intro region member
    change region.1 + region.2.length ≤ 0x300000
    rw [List.mem_singleton.mp member, length_encodeRanges]
    exact show 0x200000 + metadataRegionSize ≤ 0x300000 by decide

/-- The container leads to its metadata region, and the check walks the given
ranges. -/
theorem rangesPlan_walked (fits : RangesFit ranges) :
    ∃ r, MetadataReadable (rangesPlan ranges).container r ∧
      walkedRanges (rangesPlan ranges).container r = ranges.map fun range =>
        (range.1, saturatingAdd32 range.1 range.2) := by
  have planFits := @rangesPlan_fits ranges
  have size : metadataRegionSize = 0x100000 := rfl
  have holds := planFits.holds_region
    (show (0x200000, encodeRanges ranges) ∈ (rangesPlan ranges).regions from
      List.mem_cons_self)
  rw [length_encodeRanges] at holds
  have signed : window (encodeRanges ranges) 0 8 = metadataTableSignature :=
    window_layout fits.apart (by simp [rangeTablePieces]) rfl (by omega)
  have bat : (lastWithGuid batGuid (rangesPlan ranges).table1).map
      RegionEntry.range = some (0x300000, 0 * 8) := rfl
  have metadata : (lastWithGuid metadataGuid (rangesPlan ranges).table1).map
      RegionEntry.range = some (0x200000, metadataRegionSize) := rfl
  have first : tableAnalysis (rangesPlan ranges).container
      regionTable1Offset = some (regionsAt (rangesPlan ranges).container
        (0x300000, 0 * 8) (0x200000, metadataRegionSize)) := by
    rw [tableAnalysis, if_pos planFits.holds_table1.1,
      planFits.resolvedRange_table1 _ (show 2 ≤ fittingEntries by decide),
      planFits.resolvedRange_table1 _ (show 2 ≤ fittingEntries by decide),
      bat, metadata, Option.bind_some, Option.map_some]
  refine ⟨_, ⟨by rw [parsedRegions, first]; rfl, ?_, ?_⟩, ?_⟩
  · rw [ContainerPlan.length_container]
    exact show 0x200000 + metadataRegionSize ≤ 0x300000 by decide
  · change window (window (rangesPlan ranges).container 0x200000
      metadataRegionSize) 0 8 = _
    rw [holds, signed]
  · change itemRanges (window (rangesPlan ranges).container 0x200000
      metadataRegionSize) = _
    rw [holds, itemRanges_encodeRanges fits]

theorem rangesPlan_allocated :
    (rangesPlan ranges).container.length ≤ isizeMax := by
  rw [ContainerPlan.length_container]
  exact show 0x300000 ≤ isizeMax by decide

end Planned

/-- A hundred bytes and an item of no bytes among them. -/
def emptyItem : List (Nat × Nat) := [(0x10000, 100), (0x10010, 0)]

/-- A hundred bytes, an item of no bytes at the same offset, and ten of the
hundred bytes. -/
def hiddenItem : List (Nat × Nat) :=
  [(0x10000, 100), (0x10000, 0), (0x10032, 10)]

theorem emptyItem_fits : RangesFit emptyItem :=
  ⟨by decide, by decide, by decide⟩

theorem hiddenItem_fits : RangesFit hiddenItem :=
  ⟨by decide, by decide, by decide⟩

/-- Every order of the first ranges is reported although none meet. A stable
sort leaves the last ranges in an order that shows no overlap. -/
theorem items_misjudged :
    (∀ sorting, ∃ r findings,
      MetadataReadable (rangesPlan emptyItem).container r ∧
        checkMetadata sorting (rangesPlan emptyItem).container =
          .ok findings ∧
        ReportsItemsOverlap findings ∧
        ¬ Meeting (walkedRanges (rangesPlan emptyItem).container r)) ∧
      ∃ r findings, MetadataReadable (rangesPlan hiddenItem).container r ∧
        checkMetadata (UnstableSort.stable Prod.fst)
          (rangesPlan hiddenItem).container = .ok findings ∧
        ¬ ReportsItemsOverlap findings ∧
        Meeting (walkedRanges (rangesPlan hiddenItem).container r) := by
  constructor
  · intro sorting
    obtain ⟨r, readable, walked⟩ := rangesPlan_walked emptyItem_fits
    refine ⟨r, _, readable, checkMetadata_eq rangesPlan_allocated sorting
      readable.parsed, ?_, ?_⟩
    · rw [reports_metadataFindings readable]
      have crowded : Crowded (walkedRanges (rangesPlan emptyItem).container r)
          0x10000 := by
        rw [walked]
        decide
      exact crowded.not_quiet walkedRanges_proper
        ⟨sorting.perm _, sorting.ordered _⟩
    · rw [walked]
      exact not_meeting_iff.mpr (by decide)
  · obtain ⟨r, readable, walked⟩ := rangesPlan_walked hiddenItem_fits
    refine ⟨r, _, readable, checkMetadata_eq rangesPlan_allocated _
      readable.parsed, ?_, ?_⟩
    · rw [reports_metadataFindings readable, not_not, walked,
        UnstableSort.stable]
      dsimp only
      rw [List.mergeSort_of_pairwise (by decide)]
      decide
    · rw [walked]
      exact ⟨0, 2, _, _, by decide, rfl, rfl, meets_iff.mpr (by decide)⟩

/-- The condition fails for ranges that the check misjudges. -/
theorem overlapsExact_iff_emptyItem :
    ∃ r, MetadataReadable (rangesPlan emptyItem).container r ∧
      (OverlapsExact (rangesPlan emptyItem).container ↔
        (Meeting (walkedRanges (rangesPlan emptyItem).container r) →
          ∃ start, Crowded
            (walkedRanges (rangesPlan emptyItem).container r) start) ∧
        (¬ Meeting (walkedRanges (rangesPlan emptyItem).container r) →
          ¬ EmptyInside
            (walkedRanges (rangesPlan emptyItem).container r))) := by
  obtain ⟨r, readable, -⟩ := rangesPlan_walked emptyItem_fits
  exact ⟨r, readable, overlapsExact_iff rangesPlan_allocated readable⟩

end VhdxForensic
