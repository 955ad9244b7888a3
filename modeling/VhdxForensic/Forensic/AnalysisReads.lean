import VhdxForensic.Forensic.RepairFindings

/-!
# What the repairable findings are read from

The repairable findings depend on the file magic, the header copies, the
region tables, the metadata and the entries of the table. Images with the same
bytes there have the same repairable findings.
-/

namespace VhdxForensic

open Rust Rust.Bytes Rust.Exec

/-- The byte at `index` lies in the range of a start and a size. -/
def InRange (range : Nat × Nat) (index : Nat) : Prop :=
  range.1 ≤ index ∧ index < range.1 + range.2

/-- Two ranges have a byte in common. -/
def Overlap (a b : Nat × Nat) : Prop :=
  ∃ index, InRange a index ∧ InRange b index

/-- Ranges of the magic, the header copies and the region tables. -/
def fixedRanges : List (Nat × Nat) :=
  [(0, 8), (header1Offset, headerSize), (header2Offset, headerSize),
    (regionTable1Offset, regionTableCrcCoverage),
    (regionTable2Offset, regionTableCrcCoverage)]

/-- Number of metadata items that are looked at. -/
def itemCount (data : Bytes) (metaOffset metaLength : Nat) : Nat :=
  min (metadataEntryCount (window data metaOffset metaLength)) 256

/-- Number of bytes that are read of an item with this GUID. -/
def itemWidth (guid : Bytes) : Nat :=
  if guid = guidFileParameters ∨ guid = guidVirtualDiskSize then 8
  else if guid = guidLogicalSectorSize ∨ guid = guidPhysicalSectorSize then 4
  else if guid = guidVirtualDiskId then 16
  else 0

/-- Range that is read of the item at `index`. -/
def itemRead (data : Bytes) (metaOffset metaLength index : Nat) : Nat × Nat :=
  let region := window data metaOffset metaLength
  let base := 32 + index * 32
  (metaOffset + leU32 region (base + 16), itemWidth (window region base 16))

/-- Ranges of the metadata table and of the values of its items. -/
def metadataRanges (data : Bytes) (metaOffset metaLength : Nat) :
    List (Nat × Nat) :=
  (metaOffset, min metaLength (32 + itemCount data metaOffset metaLength * 32))
    :: (List.range (itemCount data metaOffset metaLength)).map
      (itemRead data metaOffset metaLength)

/-- Two images hold the same bytes in a range. -/
def SameRange (left right : Bytes) (range : Nat × Nat) : Prop :=
  window left range.1 range.2 = window right range.1 range.2

/-! ## Region tables -/

section Tables

variable {left right : Bytes} {leftOff rightOff : Nat}

/-- Equal windows are equal inside. -/
theorem window_congr_inside {count inner size : Nat}
    (inside : inner + size ≤ count)
    (same : window left leftOff count = window right rightOff count) :
    window left (leftOff + inner) size =
      window right (rightOff + inner) size := by
  rw [← window_window_of_le inside, same, window_window_of_le inside]

/-- The block of a region table holds this many entries. -/
theorem block_fits {count : Nat} (fits : count ≤ fittingEntries) :
    16 + count * regionEntrySize ≤ regionTableCrcCoverage := by
  unfold fittingEntries at fits
  unfold regionEntrySize regionTableCrcCoverage
  omega

/-- Equal bytes of region tables hold the same entries. -/
theorem regionEntries_congr {count span : Nat}
    (fits : 16 + count * regionEntrySize ≤ span)
    (leftInside : leftOff + span ≤ left.length)
    (rightInside : rightOff + span ≤ right.length)
    (same : window left leftOff span = window right rightOff span) :
    leU32 left (leftOff + 8) = leU32 right (rightOff + 8) ∧
      regionEntries left leftOff count =
        regionEntries right rightOff count := by
  have integer : ∀ size inner, inner + size ≤ span →
      le size left (leftOff + inner) = le size right (rightOff + inner) := by
    intro size inner inside
    rw [← le_window inside leftInside, same, le_window inside rightInside]
  refine ⟨integer 4 8 (by omega), List.map_congr_left fun index member => ?_⟩
  have indexLt := List.mem_range.mp member
  have inside : 16 + index * regionEntrySize + 28 ≤ span := by
    unfold regionEntrySize at fits ⊢
    omega
  unfold regionEntryAt leU64 leU32
  generalize 16 + index * regionEntrySize = inner at inside
  rw [window_congr_inside (show inner + 16 ≤ _ by omega) same,
    Nat.add_assoc, Nat.add_assoc, integer 8 (inner + 16) (by omega),
    integer 4 (inner + 24) (by omega), Nat.add_assoc, Nat.add_assoc]

/-- Equal blocks of region tables resolve every GUID to one range. -/
theorem resolvedRange_congr {guid : Bytes}
    (leftInside : leftOff + regionTableCrcCoverage ≤ left.length)
    (rightInside : rightOff + regionTableCrcCoverage ≤ right.length)
    (same : window left leftOff regionTableCrcCoverage =
      window right rightOff regionTableCrcCoverage) :
    resolvedRange left leftOff fittingEntries guid =
      resolvedRange right rightOff fittingEntries guid := by
  obtain ⟨count, entries⟩ := regionEntries_congr
    (block_fits (show visitedEntries left leftOff fittingEntries ≤
      fittingEntries from min_le_right _ _)) leftInside rightInside same
  have visited : visitedEntries left leftOff fittingEntries =
      visitedEntries right rightOff fittingEntries := congrArg (min · _) count
  unfold resolvedRange
  rw [entries, visited]

/-- The ranges that a valid table gives to the table and the metadata. -/
def tableRanges (data : Bytes) (offset : Nat) :
    Option ((Nat × Nat) × (Nat × Nat)) :=
  if RegionTableValid data offset then
    (resolvedRange data offset fittingEntries batGuid).bind fun bat =>
      (resolvedRange data offset fittingEntries metadataGuid).map
        fun metadata => (bat, metadata)
  else none

/-- The ranges of the first usable copy. -/
def usedRanges (data : Bytes) : Option ((Nat × Nat) × (Nat × Nat)) :=
  (tableRanges data regionTable1Offset).or
    (tableRanges data regionTable2Offset)

theorem tableAnalysis_eq (data : Bytes) (offset : Nat) :
    tableAnalysis data offset = (tableRanges data offset).map
      fun ranges => regionsAt data ranges.1 ranges.2 := by
  unfold tableAnalysis tableRanges
  split
  · cases resolvedRange data offset fittingEntries batGuid with
    | none => rfl
    | some bat =>
        cases resolvedRange data offset fittingEntries metadataGuid <;> rfl
  · rfl

theorem parsedRegions_eq_map (data : Bytes) :
    parsedRegions data = (usedRanges data).map
      fun ranges => regionsAt data ranges.1 ranges.2 := by
  rw [parsedRegions, tableAnalysis_eq, tableAnalysis_eq, usedRanges]
  cases tableRanges data regionTable1Offset <;> rfl

theorem tableRanges_congr
    (leftInside : leftOff + regionTableCrcCoverage ≤ left.length)
    (rightInside : rightOff + regionTableCrcCoverage ≤ right.length)
    (same : window left leftOff regionTableCrcCoverage =
      window right rightOff regionTableCrcCoverage) :
    tableRanges left leftOff = tableRanges right rightOff := by
  have valid : RegionTableValid left leftOff ↔
      RegionTableValid right rightOff :=
    blockValid_congr (by decide) leftInside rightInside same
  unfold tableRanges
  rw [resolvedRange_congr leftInside rightInside same,
    resolvedRange_congr leftInside rightInside same]
  simp only [valid]

end Tables

/-! ## Metadata -/

section Metadata

variable {left right : Bytes} {metaOffset metaLength : Nat}

/-- An item shows in the bytes that are read of it. -/
theorem ParsedItems.record_congr_value (items : ParsedItems)
    {guid tail tail' : Bytes} (lengthEq : tail.length = tail'.length)
    (same : window tail 0 (itemWidth guid) =
      window tail' 0 (itemWidth guid)) :
    items.record guid tail = items.record guid tail' := by
  have integer : ∀ size inner, inner + size ≤ itemWidth guid →
      le size tail inner = le size tail' inner := by
    intro size inner inside
    have content := window_congr_inside inside same
    rw [Nat.zero_add] at content
    rw [le, le, lengthEq, content]
  unfold ParsedItems.record leU32 leU64
  rw [← lengthEq]
  unfold itemWidth at integer same
  by_cases parameters : guid = guidFileParameters
  · rw [if_pos (Or.inl parameters)] at integer
    rw [if_pos parameters, if_pos parameters, integer 4 0 (by omega),
      integer 4 4 (by omega)]
  rw [if_neg parameters, if_neg parameters]
  by_cases diskSize : guid = guidVirtualDiskSize
  · rw [if_pos (Or.inr diskSize)] at integer
    rw [if_pos diskSize, if_pos diskSize, integer 8 0 (by omega)]
  rw [if_neg diskSize, if_neg diskSize]
  rw [if_neg (not_or.mpr ⟨parameters, diskSize⟩)] at integer same
  by_cases logical : guid = guidLogicalSectorSize
  · rw [if_pos (Or.inl logical)] at integer
    rw [if_pos logical, if_pos logical, integer 4 0 (by omega)]
  rw [if_neg logical, if_neg logical]
  by_cases physical : guid = guidPhysicalSectorSize
  · rw [if_pos (Or.inr physical)] at integer
    rw [if_pos physical, if_pos physical, integer 4 0 (by omega)]
  rw [if_neg physical, if_neg physical]
  rw [if_neg (not_or.mpr ⟨logical, physical⟩)] at same
  by_cases diskId : guid = guidVirtualDiskId
  · rw [if_pos diskId] at same
    rw [same]
  · rw [if_neg diskId, if_neg diskId]

/-- Tails of images of one length begin alike. -/
theorem tail_congr {start count : Nat} (lengthEq : left.length = right.length)
    (same : SameRange left right (start, count)) :
    window (imageTail left start) 0 count =
      window (imageTail right start) 0 count := by
  unfold imageTail
  rw [window_window, window_window, ← lengthEq]
  exact window_congr_inside (by omega) same

/-- What the metadata table says depends on its header and entries only. -/
theorem table_congr {leftRegion rightRegion : Bytes} {read : Nat}
    (lengthEq : leftRegion.length = rightRegion.length)
    (same : window leftRegion 0 read = window rightRegion 0 read)
    {size inner : Nat}
    (inside : inner + size ≤ leftRegion.length → inner + size ≤ read) :
    le size leftRegion inner = le size rightRegion inner := by
  by_cases present : inner + size ≤ leftRegion.length
  · have content := window_congr_inside (inside present) same
    rw [Nat.zero_add] at content
    exact le_congr present (by omega) content
  · rw [le_eq_zero (by omega), le_eq_zero (by omega)]

theorem parsedItems_congr (lengthEq : left.length = right.length)
    (same : ∀ range ∈ metadataRanges left metaOffset metaLength,
      SameRange left right range) :
    parsedItems left metaOffset metaLength =
      parsedItems right metaOffset metaLength := by
  have table := same _ List.mem_cons_self
  have value : ∀ index < itemCount left metaOffset metaLength,
      SameRange left right (itemRead left metaOffset metaLength index) :=
    fun index indexLt => same _ (List.mem_cons_of_mem _ (List.mem_map.mpr
      ⟨index, List.mem_range.mpr indexLt, rfl⟩))
  unfold itemRead itemCount at value
  unfold SameRange itemCount at table
  unfold parsedItems
  rw [← lengthEq]
  by_cases inside : metaOffset + metaLength ≤ left.length
  case neg =>
    rw [if_neg fun all => inside all.1, if_neg fun all => inside all.1]
  have leftLength := length_window_of_le inside
  have rightLength := @length_window_of_le right metaOffset metaLength
    (by omega)
  set leftRegion := window left metaOffset metaLength with leftEq
  set rightRegion := window right metaOffset metaLength with rightEq
  set count := min (metadataEntryCount leftRegion) 256 with countEq
  have prefixSame : window leftRegion 0 (min metaLength (32 + count * 32)) =
      window rightRegion 0 (min metaLength (32 + count * 32)) := by
    rw [leftEq, rightEq, window_window_of_le (by omega),
      window_window_of_le (by omega)]
    exact table
  have countSame : min (metadataEntryCount rightRegion) 256 = count := by
    have stored : leU16 leftRegion 10 = leU16 rightRegion 10 :=
      table_congr (by omega) prefixSame (by omega)
    rw [countEq, metadataEntryCount, metadataEntryCount, stored, leftLength,
      rightLength]
  have span : 0 < count → 32 + count * 32 ≤ metaLength := by
    intro positive
    rw [countEq, metadataEntryCount, leftLength] at positive ⊢
    omega
  have signature : 8 ≤ metaLength →
      window leftRegion 0 8 = window rightRegion 0 8 := fun long =>
    window_congr_inside (show 0 + 8 ≤ min metaLength (32 + count * 32) by
      omega) prefixSame
  have condition : (metaOffset + metaLength ≤ left.length ∧ 8 ≤ metaLength ∧
      window leftRegion 0 8 = metadataTableSignature) ↔
        metaOffset + metaLength ≤ left.length ∧ 8 ≤ metaLength ∧
          window rightRegion 0 8 = metadataTableSignature := by
    refine and_congr_right fun _ => and_congr_right fun long => ?_
    rw [signature long]
  simp only [condition, countSame]
  congr 1
  apply foldRange_congr
  intro index indexLt items
  have entryInside := span (by omega)
  have guid : window leftRegion (32 + index * 32) 16 =
      window rightRegion (32 + index * 32) 16 := by
    have inner := window_congr_inside (show 32 + index * 32 + 16 ≤
      min metaLength (32 + count * 32) by omega) prefixSame
    rwa [Nat.zero_add] at inner
  have offset : leU32 leftRegion (32 + index * 32 + 16) =
      leU32 rightRegion (32 + index * 32 + 16) :=
    table_congr (by omega) prefixSame (by omega)
  rw [recordParsed, recordParsed, ← guid, ← offset]
  exact items.record_congr_value (by simp [length_imageTail, lengthEq])
    (tail_congr lengthEq (value index indexLt))

end Metadata

/-! ## Blocks -/

section Blocks

variable {data : Bytes} {offset size : Nat} {signature : Bytes}

/-- Sealing a valid block changes nothing. -/
theorem sealBlock_of_valid (large : 8 ≤ size)
    (valid : BlockValid data offset size signature) :
    sealBlock (window data offset size) = window data offset size := by
  obtain ⟨inside, -, checked⟩ := valid
  have blockLength := length_window_of_le inside
  have field : encodeLe 4 (leU32 (window data offset size) 4) =
      window (window data offset size) 4 4 := by
    have fieldLength := @length_window_of_le (window data offset size) 4 4
      (by omega)
    have decoded := encodeLe_decodeLe (window (window data offset size) 4 4)
    rw [fieldLength] at decoded
    rw [leU32, le_eq_decode (by omega), decoded]
  rw [sealBlock, checked, ← leU32_window (by omega) inside, field]
  exact overwrite_window_self (by omega)

end Blocks

end VhdxForensic
