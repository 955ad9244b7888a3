import VhdxForensic.Core.Encoding

/-!
# Encoding whole containers

Region tables and metadata regions with their items, and the container that
holds two headers, two tables and any regions at their places. Decoding finds
again what was written.
-/

namespace VhdxForensic

open Rust Rust.Bytes Rust.Exec

/-! ## Region tables -/

/-- A table entry of 32 bytes. -/
def encodeRegionEntry (entry : RegionEntry) : Bytes :=
  entry.guid ++ (encodeLe 8 entry.fileOffset ++
    (encodeLe 4 entry.length ++ encodeLe 4 0))

/-- The fields of the entry have their widths. -/
structure RegionEntry.Encodable (entry : RegionEntry) : Prop where
  /-- The GUID has 16 bytes. -/
  length_guid : entry.guid.length = 16
  /-- The offset fits its field. -/
  fileOffset_lt : entry.fileOffset < 2 ^ 64
  /-- The length fits its field. -/
  length_lt : entry.length < 2 ^ 32

/-- Signature, entry count and entries of a table. -/
def regionTablePieces (entries : List RegionEntry) : List Run :=
  [(0, regionTableSignature), (8, encodeLe 4 entries.length),
    (16, (entries.map encodeRegionEntry).flatten)]

/-- A checksummed table with the given entries. -/
def encodeRegionTable (entries : List RegionEntry) : Bytes :=
  sealBlock (layout regionTableCrcCoverage (regionTablePieces entries))

/-- The entries fit into a table. -/
structure RegionTableFits (entries : List RegionEntry) : Prop where
  /-- Every entry fits its fields. -/
  encodable : ∀ entry ∈ entries, entry.Encodable
  /-- The entries fit the block of the table. -/
  count_le : entries.length ≤ 2047

section RegionTables

variable {entries : List RegionEntry}

theorem length_encodeRegionEntry {entry : RegionEntry}
    (encodable : entry.Encodable) :
    (encodeRegionEntry entry).length = regionEntrySize := by
  simp [encodeRegionEntry, encodable.length_guid, regionEntrySize]

/-- All encoded entries have one length. -/
theorem length_of_mem_encodeRegionEntries (fits : RegionTableFits entries) :
    ∀ block ∈ entries.map encodeRegionEntry,
      block.length = regionEntrySize := by
  intro block member
  obtain ⟨entry, entryMember, rfl⟩ := List.mem_map.mp member
  exact length_encodeRegionEntry (fits.encodable entry entryMember)

@[simp] theorem length_encodeRegionTable (entries : List RegionEntry) :
    (encodeRegionTable entries).length = regionTableCrcCoverage := by
  rw [encodeRegionTable, length_sealBlock (by rw [length_layout]; decide),
    length_layout]

/-- The header and the entries of a table do not overlap. -/
theorem regionTablePieces_apart (entries : List RegionEntry) :
    (regionTablePieces entries).Pairwise Run.Apart := by
  simp [regionTablePieces, Run.Apart, regionTableSignature]

/-- An encoded entry is read back. -/
theorem regionEntryAt_of_window {data : Bytes} {offset index : Nat}
    {entry : RegionEntry} (encodable : entry.Encodable)
    (inside : offset + (16 + index * regionEntrySize) + regionEntrySize ≤
      data.length)
    (holds : window data (offset + (16 + index * regionEntrySize))
      regionEntrySize = encodeRegionEntry entry) :
    regionEntryAt data offset index = entry := by
  obtain ⟨guidLength, offsetLt, lengthLt⟩ := encodable
  have width : regionEntrySize = 32 := rfl
  rw [regionEntryAt]
  generalize offset + (16 + index * regionEntrySize) = base at *
  have guid : window data base 16 = entry.guid := by
    have front : window (window data base regionEntrySize) 0 16 =
        window data (base + 0) 16 :=
      window_window_of_le (by omega)
    rw [holds, encodeRegionEntry, window_append_left (by omega), ← guidLength,
      window_zero_length, guidLength] at front
    exact front.symm
  have fileOffset : leU64 data (base + 16) = entry.fileOffset := by
    rw [← leU64_window (show 16 + 8 ≤ regionEntrySize by omega) inside,
      holds, encodeRegionEntry, ← guidLength]
    exact le_append_encodeLe _ _ offsetLt
  have length : leU32 data (base + 24) = entry.length := by
    rw [← leU32_window (show 24 + 4 ≤ regionEntrySize by omega) inside,
      holds, encodeRegionEntry, ← List.append_assoc]
    have front : (entry.guid ++ encodeLe 8 entry.fileOffset).length = 24 := by
      simp [guidLength]
    rw [← front]
    exact le_append_encodeLe _ _ lengthLt
  rw [guid, fileOffset, length]

/-- An entry of an encoded table is found in its block. -/
theorem window_encodeRegionTable {index : Nat} {entry : RegionEntry}
    (fits : RegionTableFits entries) (found : entries[index]? = some entry) :
    window (encodeRegionTable entries) (16 + index * regionEntrySize)
      regionEntrySize = encodeRegionEntry entry := by
  have coverage : regionTableCrcCoverage = 65536 := rfl
  have width : regionEntrySize = 32 := rfl
  have countLe := fits.count_le
  have base : index * regionEntrySize = index * 32 := rfl
  have indexLt := (List.getElem?_eq_some_iff.mp found).1
  have uniform := length_of_mem_encodeRegionEntries fits
  have entriesLength := length_flatten_of_uniform uniform
  rw [List.length_map, width] at entriesLength
  have present : 8 ≤ (layout regionTableCrcCoverage
      (regionTablePieces entries)).length := by
    rw [length_layout]
    omega
  have inBlock : window (layout regionTableCrcCoverage
      (regionTablePieces entries)) (16 + index * regionEntrySize)
        regionEntrySize =
      window (entries.map encodeRegionEntry).flatten
        (index * regionEntrySize) regionEntrySize :=
    window_layout_within (regionTablePieces_apart entries)
      (by simp [regionTablePieces]) (by omega) (by omega)
  rw [encodeRegionTable, window_sealBlock present (by omega), inBlock]
  exact window_flatten uniform (by rw [List.getElem?_map, found]; rfl)

/-- A container that holds an encoded table at a place has its entries
there. -/
theorem regionEntries_of_window {data : Bytes} {offset : Nat}
    (fits : RegionTableFits entries)
    (inside : offset + regionTableCrcCoverage ≤ data.length)
    (holds : window data offset regionTableCrcCoverage =
      encodeRegionTable entries) :
    RegionTableValid data offset ∧
      leU32 data (offset + 8) = entries.length ∧
      regionEntries data offset entries.length = entries := by
  have coverage : regionTableCrcCoverage = 65536 := rfl
  have width : regionEntrySize = 32 := rfl
  have countLe := fits.count_le
  have apart := regionTablePieces_apart entries
  have blockLength := length_encodeRegionTable entries
  have present : 8 ≤ (layout regionTableCrcCoverage
      (regionTablePieces entries)).length := by
    rw [length_layout]
    omega
  have same : window data offset regionTableCrcCoverage =
      window (encodeRegionTable entries) 0 regionTableCrcCoverage := by
    rw [holds, ← blockLength, window_zero_length]
  refine ⟨?_, ?_, ?_⟩
  · apply (blockValid_congr (by omega) inside (by omega) same).mpr
    have signed : window (layout regionTableCrcCoverage
        (regionTablePieces entries)) 0 4 = regionTableSignature :=
      window_layout apart (by simp [regionTablePieces]) rfl (by omega)
    have valid := blockValid_sealBlock present signed
    rwa [length_layout] at valid
  · rw [← leU32_window (show 8 + 4 ≤ regionTableCrcCoverage by omega) inside,
      holds]
    exact (le_sealBlock present (by omega)).trans (le_layout apart
      (by simp [regionTablePieces]) (by omega) (by omega))
  · apply List.ext_getElem?
    intro index
    unfold regionEntries
    rw [List.getElem?_map]
    have base : index * regionEntrySize = index * 32 := rfl
    by_cases indexLt : index < entries.length
    · rw [List.getElem?_range indexLt, List.getElem?_eq_getElem indexLt,
        Option.map_some]
      apply congrArg some
      apply regionEntryAt_of_window
        (fits.encodable _ (List.getElem_mem indexLt)) (by omega)
      rw [← window_window_of_le (show 16 + index * regionEntrySize +
        regionEntrySize ≤ regionTableCrcCoverage by omega), holds]
      exact window_encodeRegionTable fits (List.getElem?_eq_getElem indexLt)
    · rw [List.getElem?_eq_none (by simpa using indexLt),
        List.getElem?_eq_none (by omega)]
      rfl

end RegionTables

/-! ## Metadata regions -/

/-- A metadata item: its GUID, its declared length and its content, an
integer of eight bytes. -/
structure StoredItem where
  /-- What the item says. -/
  guid : Bytes
  /-- The declared length. -/
  length : Nat
  /-- The value, as eight bytes. -/
  value : Nat
  deriving DecidableEq, Repr

namespace StoredItem

/-- The declared part of the content. -/
def content (item : StoredItem) : Bytes :=
  window (encodeLe 8 item.value) 0 item.length

/-- The fields of the item have their widths. -/
structure Encodable (item : StoredItem) : Prop where
  /-- The GUID has 16 bytes. -/
  length_guid : item.guid.length = 16
  /-- The declared length covers no more than the value. -/
  length_le : item.length ≤ 8
  /-- The value fits eight bytes. -/
  value_lt : item.value < 2 ^ 64

end StoredItem

/-- Where the contents of the items begin in the region. -/
def itemsOffset : Nat := 0x10000

/-- Size of an encoded metadata region. -/
def metadataRegionSize : Nat := 0x100000

/-- The table entry of the item at `index`. -/
def encodeItemEntry (index : Nat) (item : StoredItem) : Bytes :=
  item.guid ++ (encodeLe 4 (itemsOffset + index * 8) ++
    (encodeLe 4 item.length ++ List.replicate 8 0))

/-- Signature, entry count, table and contents. -/
def metadataPieces (items : List StoredItem) : List Run :=
  [(0, metadataTableSignature), (10, encodeLe 2 items.length),
    (32, (items.mapIdx encodeItemEntry).flatten),
    (itemsOffset, (items.map fun item => encodeLe 8 item.value).flatten)]

/-- A metadata region with the given items. -/
def encodeMetadata (items : List StoredItem) : Bytes :=
  layout metadataRegionSize (metadataPieces items)

/-- The items fit into a region. -/
structure MetadataFits (items : List StoredItem) : Prop where
  /-- Every item fits its fields. -/
  encodable : ∀ item ∈ items, item.Encodable
  /-- There are no more items than the analyser visits. -/
  count_le : items.length ≤ 256

section Metadata

variable {items : List StoredItem}

@[simp] theorem length_encodeMetadata (items : List StoredItem) :
    (encodeMetadata items).length = metadataRegionSize := length_layout _ _

/-- All encoded items have one length. -/
theorem length_of_mem_itemEntries (fits : MetadataFits items) :
    ∀ block ∈ items.mapIdx encodeItemEntry, block.length = 32 := by
  intro block member
  obtain ⟨index, indexLt, rfl⟩ := List.mem_mapIdx.mp member
  have encodable := fits.encodable _ (List.getElem_mem indexLt)
  simp [encodeItemEntry, encodable.length_guid]

theorem length_of_mem_itemContents (items : List StoredItem) :
    ∀ block ∈ items.map fun item => encodeLe 8 item.value,
      block.length = 8 := by
  intro block member
  obtain ⟨item, -, rfl⟩ := List.mem_map.mp member
  exact length_encodeLe _ _

theorem length_itemEntries (fits : MetadataFits items) :
    (items.mapIdx encodeItemEntry).flatten.length = items.length * 32 := by
  rw [length_flatten_of_uniform (length_of_mem_itemEntries fits),
    List.length_mapIdx]

theorem length_itemContents (items : List StoredItem) :
    (items.map fun item => encodeLe 8 item.value).flatten.length =
      items.length * 8 := by
  rw [length_flatten_of_uniform (length_of_mem_itemContents items),
    List.length_map]

/-- The header, the items and their values do not overlap. -/
theorem metadataPieces_apart (fits : MetadataFits items) :
    (metadataPieces items).Pairwise Run.Apart := by
  have countLe := fits.count_le
  have entries := length_itemEntries fits
  simp only [metadataPieces, Run.Apart, List.pairwise_cons, List.mem_cons,
    List.not_mem_nil, or_false, forall_eq_or_imp, forall_eq,
    List.Pairwise.nil, and_true, false_imp_iff, forall_const, entries,
    length_encodeLe, itemsOffset]
  have signature : metadataTableSignature.length = 8 := rfl
  omega

/-- The table entry of an item is read back. -/
theorem window_itemEntry (fits : MetadataFits items) {index : Nat}
    {item : StoredItem} (found : items[index]? = some item) :
    window (encodeMetadata items) (32 + index * 32) 32 =
      encodeItemEntry index item := by
  have indexLt := (List.getElem?_eq_some_iff.mp found).1
  have countLe := fits.count_le
  have entries := length_itemEntries fits
  have size : metadataRegionSize = 0x100000 := rfl
  have inRegion : window (encodeMetadata items) (32 + index * 32) 32 =
      window (items.mapIdx encodeItemEntry).flatten (index * 32) 32 :=
    window_layout_within (metadataPieces_apart fits)
      (by simp [metadataPieces]) (by omega) (by omega)
  rw [inRegion, window_flatten (length_of_mem_itemEntries fits)]
  rw [List.getElem?_mapIdx, found]
  rfl

/-- The content of an item is read back. -/
theorem window_itemContent (fits : MetadataFits items) {index : Nat}
    {item : StoredItem} (found : items[index]? = some item) :
    window (encodeMetadata items) (itemsOffset + index * 8) 8 =
      encodeLe 8 item.value := by
  have indexLt := (List.getElem?_eq_some_iff.mp found).1
  have countLe := fits.count_le
  have contents := length_itemContents items
  have size : metadataRegionSize = 0x100000 := rfl
  have start : itemsOffset = 0x10000 := rfl
  have inRegion : window (encodeMetadata items) (itemsOffset + index * 8) 8 =
      window (items.map fun item => encodeLe 8 item.value).flatten
        (index * 8) 8 :=
    window_layout_within (metadataPieces_apart fits)
      (by simp [metadataPieces]) (by omega) (by omega)
  rw [inRegion, window_flatten (length_of_mem_itemContents items)]
  rw [List.getElem?_map, found]
  rfl

/-- The fields of a table entry. -/
theorem itemEntry_fields (fits : MetadataFits items) {index : Nat}
    {item : StoredItem} (found : items[index]? = some item) :
    window (encodeMetadata items) (32 + index * 32) 16 = item.guid ∧
      leU32 (encodeMetadata items) (32 + index * 32 + 16) =
        itemsOffset + index * 8 ∧
      leU32 (encodeMetadata items) (32 + index * 32 + 20) = item.length := by
  have indexLt := (List.getElem?_eq_some_iff.mp found).1
  have countLe := fits.count_le
  have size : metadataRegionSize = 0x100000 := rfl
  have start : itemsOffset = 0x10000 := rfl
  have regionLength := length_encodeMetadata items
  obtain ⟨guidLength, lengthLe, -⟩ :=
    fits.encodable item (List.mem_of_getElem? found)
  have entry := window_itemEntry fits found
  refine ⟨?_, ?_, ?_⟩
  · have front : window (window (encodeMetadata items) (32 + index * 32) 32)
        0 16 = window (encodeMetadata items) (32 + index * 32 + 0) 16 :=
      window_window_of_le (by omega)
    rw [entry, encodeItemEntry, window_append_left (by omega), ← guidLength,
      window_zero_length, guidLength] at front
    exact front.symm
  · rw [← leU32_window (show 16 + 4 ≤ 32 by omega) (by omega), entry,
      encodeItemEntry, ← guidLength]
    exact le_append_encodeLe _ _ (by omega)
  · have front : (item.guid ++
        encodeLe 4 (itemsOffset + index * 8)).length = 20 := by
      simp [guidLength]
    rw [← leU32_window (show 20 + 4 ≤ 32 by omega) (by omega), entry,
      encodeItemEntry, ← List.append_assoc, ← front]
    exact le_append_encodeLe _ _ (by omega)

/-- An encoded item is found with its declared content. -/
theorem metadataItem_encodeMetadata (fits : MetadataFits items) {index : Nat}
    {item : StoredItem} (found : items[index]? = some item) :
    metadataItem (encodeMetadata items) index =
      some (item.guid, item.content) := by
  have indexLt := (List.getElem?_eq_some_iff.mp found).1
  have countLe := fits.count_le
  have size : metadataRegionSize = 0x100000 := rfl
  have start : itemsOffset = 0x10000 := rfl
  have regionLength := length_encodeMetadata items
  have lengthLe := (fits.encodable item (List.mem_of_getElem? found)).length_le
  obtain ⟨guid, offset, length⟩ := itemEntry_fields fits found
  have content : window (encodeMetadata items) (itemsOffset + index * 8)
      item.length = item.content := by
    have cut : window (window (encodeMetadata items)
        (itemsOffset + index * 8) 8) 0 item.length =
          window (encodeMetadata items) (itemsOffset + index * 8 + 0)
            item.length :=
      window_window_of_le (by omega)
    rw [window_itemContent fits found] at cut
    exact cut.symm
  rw [metadataItem, guid, offset, length, if_pos (by omega), content]

/-- What the items describe, recorded one after the other. -/
def recordedItems (items : List StoredItem) : MetadataItems :=
  items.foldl (fun found item => found.record item.guid item.content) {}

/-- All entries of an encoded metadata table are visited. -/
theorem metadataEntryCount_encodeMetadata (fits : MetadataFits items) :
    metadataEntryCount (encodeMetadata items) = items.length := by
  have countLe := fits.count_le
  have size : metadataRegionSize = 0x100000 := rfl
  have stored : leU16 (encodeMetadata items) 10 = items.length :=
    le_layout (metadataPieces_apart fits) (by simp [metadataPieces])
      (by omega) (by omega)
  rw [metadataEntryCount, stored, length_encodeMetadata]
  omega

/-- Decoding an encoded region records its items. -/
theorem metadataItems_encodeMetadata (fits : MetadataFits items) :
    metadataItems (encodeMetadata items) = recordedItems items := by
  rw [metadataItems, metadataEntryCount_encodeMetadata fits]
  apply foldRange_eq_foldl
  intro index item found state
  rw [recordItem, metadataItem_encodeMetadata fits found]

/-- The reader decodes what is recorded of the items. -/
theorem parseMetadata_encodeMetadata (fits : MetadataFits items) :
    parseMetadata (encodeMetadata items) 0 (encodeMetadata items).length =
      (recordedItems items).resolve := by
  have regionLength := length_encodeMetadata items
  have size : metadataRegionSize = 0x100000 := rfl
  have signed : window (encodeMetadata items) 0 8 = metadataTableSignature :=
    window_layout (metadataPieces_apart fits) (by simp [metadataPieces]) rfl
      (by omega)
  rw [parseMetadata_eq (by unfold isizeMax; omega), if_neg (by omega),
    if_neg (not_not_intro signed), metadataItems_encodeMetadata fits]

end Metadata

/-! ## Block allocation tables -/

/-- A table with the given entries. -/
def encodeBat (entries : List Nat) : Bytes :=
  (entries.map (encodeLe 8)).flatten

section Tables

variable {entries : List Nat}

theorem length_of_mem_encodeBat (entries : List Nat) :
    ∀ block ∈ entries.map (encodeLe 8), block.length = 8 := by
  intro block member
  obtain ⟨entry, -, rfl⟩ := List.mem_map.mp member
  exact length_encodeLe _ _

@[simp] theorem length_encodeBat (entries : List Nat) :
    (encodeBat entries).length = entries.length * 8 := by
  rw [encodeBat, length_flatten_of_uniform (length_of_mem_encodeBat entries),
    List.length_map]

/-- An encoded table decodes to its entries. -/
theorem entriesOf_encodeBat (fits : ∀ entry ∈ entries, entry < 2 ^ 64) :
    Bat.entriesOf (encodeBat entries) = entries := by
  apply List.ext_getElem?
  intro index
  rw [Bat.getElem?_entriesOf, length_encodeBat,
    Nat.mul_div_cancel _ (by norm_num)]
  by_cases indexLt : index < entries.length
  · rw [if_pos indexLt, List.getElem?_eq_getElem indexLt]
    have stored : window (encodeBat entries) (index * 8) 8 =
        encodeLe 8 entries[index] :=
      window_flatten (length_of_mem_encodeBat entries) (by
        rw [List.getElem?_map, List.getElem?_eq_getElem indexLt]
        rfl)
    rw [leU64, le_eq_decode (by rw [length_encodeBat]; omega), stored,
      decodeLe_encodeLe (fits _ (List.getElem_mem indexLt))]
  · rw [if_neg indexLt, List.getElem?_eq_none (by omega)]

end Tables

/-! ## Containers -/

/-- What an encoded container holds: two headers, two region tables and
further pieces. -/
structure ContainerPlan where
  /-- Length of the container. -/
  size : Nat
  /-- First header copy. -/
  header1 : VhdxHeader
  /-- Second header copy. -/
  header2 : VhdxHeader
  /-- Entries of the first region table. -/
  table1 : List RegionEntry
  /-- Entries of the second region table. -/
  table2 : List RegionEntry
  /-- Further pieces with their offsets. -/
  regions : List Run

namespace ContainerPlan

variable (plan : ContainerPlan)

def pieces : List Run :=
  (0, fileMagic) :: (header1Offset, encodeHeader plan.header1) ::
    (header2Offset, encodeHeader plan.header2) ::
    (regionTable1Offset, encodeRegionTable plan.table1) ::
    (regionTable2Offset, encodeRegionTable plan.table2) :: plan.regions

/-- The container. -/
def container : Bytes := layout plan.size plan.pieces

/-- Everything has its width and its place. -/
structure Fits : Prop where
  /-- The first header can be encoded. -/
  header1 : plan.header1.Encodable
  /-- The second header can be encoded. -/
  header2 : plan.header2.Encodable
  /-- So can the first region table. -/
  table1 : RegionTableFits plan.table1
  /-- So can the second region table. -/
  table2 : RegionTableFits plan.table2
  /-- The pieces do not overlap. -/
  apart : plan.pieces.Pairwise Run.Apart
  /-- There is room for the region tables. -/
  large : 0x50000 ≤ plan.size
  /-- The further pieces lie in the container. -/
  regions_inside : ∀ region ∈ plan.regions,
    region.1 + region.2.length ≤ plan.size

@[simp] theorem length_container : plan.container.length = plan.size :=
  length_layout _ _

variable {plan}

/-- A small container is the content of a buffer. -/
theorem exists_buffer (small : plan.size ≤ isizeMax) :
    ∃ image : Buffer, image.bytes = plan.container :=
  ⟨⟨plan.container, by rwa [length_container]⟩, rfl⟩

/-- Regions behind the fixed blocks are apart from them. -/
theorem pieces_apart
    (behind : ∀ region ∈ plan.regions, 0x50000 ≤ region.1)
    (apart : plan.regions.Pairwise Run.Apart) :
    plan.pieces.Pairwise Run.Apart := by
  have places : header1Offset = 0x10000 ∧ header2Offset = 0x20000 ∧
      regionTable1Offset = 0x30000 ∧ regionTable2Offset = 0x40000 ∧
      headerSize = 0x1000 ∧ regionTableCrcCoverage = 0x10000 ∧
      fileMagic.length = 8 := by
    decide
  unfold pieces
  simp only [List.pairwise_cons, List.mem_cons, forall_eq_or_imp, Run.Apart,
    length_encodeHeader, length_encodeRegionTable]
  refine ⟨⟨by omega, by omega, by omega, by omega, fun region member => ?_⟩,
    ⟨by omega, by omega, by omega, fun region member => ?_⟩,
    ⟨by omega, by omega, fun region member => ?_⟩,
    ⟨by omega, fun region member => ?_⟩, fun region member => ?_, apart⟩
  all_goals
    have := behind region member
    omega

/-- A planned container starts with the magic. -/
theorem Fits.magic (fits : plan.Fits) :
    window plan.container 0 8 = fileMagic :=
  window_layout fits.apart (by simp [pieces]) rfl (by
    have := fits.large
    omega)

/-- Its first header copy is the planned one. -/
theorem Fits.holds_header1 (fits : plan.Fits) :
    HeaderValid plan.container header1Offset ∧
      headerAt plan.container header1Offset = plan.header1 := by
  have large := fits.large
  have place : header1Offset + headerSize ≤ 0x50000 := by decide
  apply header_of_window fits.header1 (by rw [length_container]; omega)
  exact window_layout fits.apart (by simp [pieces])
    (length_encodeHeader _) (by omega)

/-- So is its second header copy. -/
theorem Fits.holds_header2 (fits : plan.Fits) :
    HeaderValid plan.container header2Offset ∧
      headerAt plan.container header2Offset = plan.header2 := by
  have large := fits.large
  have place : header2Offset + headerSize ≤ 0x50000 := by decide
  apply header_of_window fits.header2 (by rw [length_container]; omega)
  exact window_layout fits.apart (by simp [pieces])
    (length_encodeHeader _) (by omega)

/-- Its first region table has the planned entries. -/
theorem Fits.holds_table1 (fits : plan.Fits) :
    RegionTableValid plan.container regionTable1Offset ∧
      leU32 plan.container (regionTable1Offset + 8) = plan.table1.length ∧
      regionEntries plan.container regionTable1Offset plan.table1.length =
        plan.table1 := by
  have large := fits.large
  have place : regionTable1Offset + regionTableCrcCoverage ≤ 0x50000 := by
    decide
  apply regionEntries_of_window fits.table1 (by rw [length_container]; omega)
  exact window_layout fits.apart (by simp [pieces])
    (length_encodeRegionTable _) (by omega)

/-- So has its second region table. -/
theorem Fits.holds_table2 (fits : plan.Fits) :
    RegionTableValid plan.container regionTable2Offset ∧
      leU32 plan.container (regionTable2Offset + 8) = plan.table2.length ∧
      regionEntries plan.container regionTable2Offset plan.table2.length =
        plan.table2 := by
  have large := fits.large
  have place : regionTable2Offset + regionTableCrcCoverage ≤ 0x50000 := by
    decide
  apply regionEntries_of_window fits.table2 (by rw [length_container]; omega)
  exact window_layout fits.apart (by simp [pieces])
    (length_encodeRegionTable _) (by omega)

/-- A region is read back from its place. -/
theorem Fits.holds_region (fits : plan.Fits) {off : Nat} {bytes : Bytes}
    (member : (off, bytes) ∈ plan.regions) :
    window plan.container off bytes.length = bytes :=
  window_layout fits.apart (by simp [pieces, member]) rfl
    (fits.regions_inside _ member)

/-- The plan describes a container without a log to replay: its first table
names a table and an encoded metadata region. -/
structure Describes (plan : ContainerPlan) (regions : RegionTable)
    (items : List StoredItem) (metadata : VhdxMetadata) : Prop where
  /-- The container can be laid out. -/
  fits : plan.Fits
  /-- The reader accepts its size. -/
  large : VhdxReader.minContainerSize ≤ plan.size
  /-- It fits into memory. -/
  allocated : plan.size ≤ isizeMax
  /-- The first header names no log. -/
  clean1 : plan.header1.IsClean
  /-- The second header names no log. -/
  clean2 : plan.header2.IsClean
  /-- The regions of the first table lie in the container. -/
  inside : ∀ entry ∈ plan.table1, entry.Inside plan.size
  /-- What the first table resolves to. -/
  regions_eq : resolveRegions plan.table1 = .ok regions
  /-- The items can be encoded. -/
  items_fit : MetadataFits items
  /-- They are stored where the metadata region starts. -/
  holds_metadata : (regions.metadata.fileOffset, encodeMetadata items) ∈
    plan.regions
  /-- The metadata region has its usual length. -/
  metadata_length : regions.metadata.length = metadataRegionSize
  /-- What the items resolve to. -/
  metadata_eq : (recordedItems items).resolve = .ok metadata
  /-- This description is valid. -/
  valid : metadata.Valid

/-- One of the two headers is active. -/
theorem Fits.activeHeader (fits : plan.Fits) :
    VhdxForensic.activeHeader plan.container = some plan.header1 ∨
      VhdxForensic.activeHeader plan.container = some plan.header2 := by
  obtain ⟨valid1, fields1⟩ := fits.holds_header1
  obtain ⟨valid2, fields2⟩ := fits.holds_header2
  rw [VhdxForensic.activeHeader, activeHeaderOffset, if_pos valid1,
    if_pos valid2]
  split
  · left
    rw [Option.map_some, fields1]
  · right
    rw [Option.map_some, fields2]

section Describes

variable {regions : RegionTable} {items : List StoredItem}
  {metadata : VhdxMetadata}

/-- Decoding a described container finds what the plan says. -/
theorem Describes.decodes (describes : plan.Describes regions items metadata)
    {attached : Bool} (parent : metadata.hasParent = true → attached = true) :
    Decodes plan.container attached regions metadata := by
  have containerLength := plan.length_container
  obtain ⟨valid, stored, entries⟩ := describes.fits.holds_table1
  have countLe := describes.fits.table1.count_le
  have cap : regionEntryCountMax = 2048 := rfl
  have count : regionEntryCount plan.container regionTable1Offset =
      plan.table1.length := by
    rw [regionEntryCount, stored]
    omega
  have named : tableRegions plan.container regionTable1Offset =
      .ok regions := by
    rw [tableRegions, count, entries, if_pos valid, containerLength,
      if_pos describes.inside, describes.regions_eq]
  have content : regions.metadata.content plan.container =
      encodeMetadata items := by
    have held := describes.fits.holds_region describes.holds_metadata
    rwa [length_encodeMetadata, ← describes.metadata_length] at held
  constructor
  · rw [decodeRegions_eq (by rw [containerLength]; exact describes.large)
      (by rw [containerLength]; exact describes.allocated), named, orElse_ok]
  · rw [content, parseMetadata_encodeMetadata describes.items_fit,
      describes.metadata_eq]
  · exact describes.valid
  · exact parent

/-- A described container opens. -/
theorem Describes.opens {P : Type}
    (describes : plan.Describes regions items metadata)
    (parent : Option P)
    (attached : metadata.hasParent = true → parent.isSome = true) :
    VhdxReader.fromBytes plan.container parent =
      .ok (VhdxReader.plainReader plan.container metadata
        { entries := Bat.entriesOf (regions.bat.content plan.container)
          metadata } parent) := by
  have containerLength := plan.length_container
  have gate : VhdxReader.openGate plan.container = .ok () :=
    VhdxReader.openGate_eq_ok_iff.mpr
      ⟨describes.fits.magic, by rw [containerLength]; exact describes.large⟩
  have decoded : decodeImage plan.container parent.isSome =
      .ok (metadata, _) :=
    decodeImage_eq_ok_iff.mpr ⟨regions, describes.decodes attached, rfl⟩
  have allocated : plan.container.length ≤ isizeMax := by
    rw [containerLength]
    exact describes.allocated
  rcases describes.fits.activeHeader with active | active
  · rw [VhdxReader.fromBytes_of_clean parent allocated gate active
      describes.clean1, decoded]
    rfl
  · rw [VhdxReader.fromBytes_of_clean parent allocated gate active
      describes.clean2, decoded]
    rfl

end Describes

end ContainerPlan

/-! ## A standard container -/

/-- A header without a log. -/
def cleanHeader (sequenceNumber : Nat) : VhdxHeader where
  sequenceNumber := sequenceNumber
  logGuid := List.replicate 16 0
  logOffset := 0
  logLength := 0

theorem cleanHeader_isClean (sequenceNumber : Nat) :
    (cleanHeader sequenceNumber).IsClean := Or.inl rfl

theorem cleanHeader_encodable {sequenceNumber : Nat}
    (small : sequenceNumber < 2 ^ 64) :
    (cleanHeader sequenceNumber).Encodable where
  sequenceNumber_lt := small
  length_logGuid := List.length_replicate
  logOffset_lt := Nat.two_pow_pos 64
  logLength_lt := Nat.two_pow_pos 32

/-- Metadata at 2 MiB and a table of `entries` entries at 3 MiB. -/
def standardRegions (entries : Nat) : RegionTable where
  bat := { guid := batGuid, fileOffset := 0x300000, length := entries * 8 }
  metadata := {
    guid := metadataGuid, fileOffset := 0x200000, length := metadataRegionSize }

/-- Six MiB with the standard regions and further pieces behind them. -/
def standardPlan (items : List StoredItem) (bat : List Nat)
    (extra : List Run) : ContainerPlan where
  size := 0x600000
  header1 := cleanHeader 1
  header2 := cleanHeader 2
  table1 := [(standardRegions bat.length).bat,
    (standardRegions bat.length).metadata]
  table2 := [(standardRegions bat.length).bat,
    (standardRegions bat.length).metadata]
  regions := (0x200000, encodeMetadata items) ::
    (0x300000, encodeBat bat) :: extra

/-- Items of a disk of one block of 1 MiB, its size under the given GUID. -/
def diskItems (sizeGuid : Bytes) : List StoredItem :=
  [{ guid := guidFileParameters, length := 8, value := 0x100000 },
    { guid := sizeGuid, length := 8, value := 0x100000 }]

/-- The description of that disk. -/
def oneBlockDisk : VhdxMetadata where
  blockSize := 0x100000
  hasParent := false
  virtualDiskSize := 0x100000
  logicalSectorSize := 512

theorem oneBlockDisk_valid : oneBlockDisk.Valid :=
  VhdxMetadata.validate_eq_ok_iff.mp rfl

theorem diskItems_fit {sizeGuid : Bytes} (lengthEq : sizeGuid.length = 16) :
    MetadataFits (diskItems sizeGuid) where
  encodable := by
    intro item member
    rcases List.mem_pair.mp member with rfl | rfl
    · exact ⟨rfl, le_rfl, show 0x100000 < 2 ^ 64 by decide⟩
    · exact ⟨lengthEq, le_rfl, show 0x100000 < 2 ^ 64 by decide⟩
  count_le := show 2 ≤ 256 by decide

/-- The items describe a disk of one block. -/
theorem recordedItems_diskItems :
    (recordedItems (diskItems guidVirtualDiskSize)).resolve =
      .ok oneBlockDisk := rfl

/-- The parts of a standard plan are in range. -/
structure StandardFits (items : List StoredItem) (bat : List Nat)
    (extra : List Run) : Prop where
  /-- The items can be encoded. -/
  items_fit : MetadataFits items
  /-- The table ends before the further pieces. -/
  bat_le : bat.length ≤ 0x20000
  /-- The further pieces do not overlap. -/
  extra_apart : extra.Pairwise Run.Apart
  /-- They lie behind the table. -/
  extra_place : ∀ piece ∈ extra,
    0x400000 ≤ piece.1 ∧ piece.1 + piece.2.length ≤ 0x600000

section Standard

variable {items : List StoredItem} {bat : List Nat} {extra : List Run}

theorem standardRegions_encodable {entries : Nat}
    (entriesLe : entries ≤ 0x20000) :
    (standardRegions entries).bat.Encodable ∧
      (standardRegions entries).metadata.Encodable := by
  constructor
  · refine ⟨rfl, show 0x300000 < 2 ^ 64 by decide, ?_⟩
    change entries * 8 < 2 ^ 32
    omega
  · exact ⟨rfl, show 0x200000 < 2 ^ 64 by decide,
      show metadataRegionSize < 2 ^ 32 by decide⟩

theorem standardTable_fits (batLe : bat.length ≤ 0x20000) :
    RegionTableFits [(standardRegions bat.length).bat,
      (standardRegions bat.length).metadata] := by
  obtain ⟨batFits, metadataFits⟩ := standardRegions_encodable batLe
  constructor
  · intro entry member
    rcases List.mem_pair.mp member with rfl | rfl
    · exact batFits
    · exact metadataFits
  · exact show 2 ≤ 2047 by decide

/-- A standard plan can be laid out. -/
theorem standardPlan_fits (fits : StandardFits items bat extra) :
    (standardPlan items bat extra).Fits := by
  have batLe := fits.bat_le
  have metadataLength := length_encodeMetadata items
  have batLength := length_encodeBat bat
  have size : metadataRegionSize = 0x100000 := rfl
  constructor
  · exact cleanHeader_encodable (by decide)
  · exact cleanHeader_encodable (by decide)
  · exact standardTable_fits batLe
  · exact standardTable_fits batLe
  · apply ContainerPlan.pieces_apart
    · intro region member
      rcases List.mem_cons.mp member with rfl | member
      · exact show 0x50000 ≤ 0x200000 by decide
      rcases List.mem_cons.mp member with rfl | member
      · exact show 0x50000 ≤ 0x300000 by decide
      · have := (fits.extra_place region member).1
        omega
    · apply List.Pairwise.cons
      · intro region member
        left
        dsimp only
        rcases List.mem_cons.mp member with rfl | member
        · dsimp only
          omega
        · have := (fits.extra_place region member).1
          omega
      · apply List.Pairwise.cons _ fits.extra_apart
        intro region member
        left
        have := (fits.extra_place region member).1
        dsimp only
        omega
  · exact show 0x50000 ≤ 0x600000 by decide
  · intro region member
    change region ∈ (0x200000, encodeMetadata items) ::
      (0x300000, encodeBat bat) :: extra at member
    change region.1 + region.2.length ≤ 0x600000
    rcases List.mem_cons.mp member with rfl | member
    · rw [length_encodeMetadata]
      omega
    rcases List.mem_cons.mp member with rfl | member
    · rw [length_encodeBat]
      omega
    · exact (fits.extra_place region member).2

/-- A standard container is described by its items. -/
theorem standardPlan_describes {metadata : VhdxMetadata}
    (fits : StandardFits items bat extra)
    (metadataEq : (recordedItems items).resolve = .ok metadata)
    (valid : metadata.Valid) :
    (standardPlan items bat extra).Describes (standardRegions bat.length)
      items metadata where
  fits := standardPlan_fits fits
  large := show VhdxReader.minContainerSize ≤ 0x600000 by decide
  allocated := show 0x600000 ≤ isizeMax by decide
  clean1 := cleanHeader_isClean 1
  clean2 := cleanHeader_isClean 2
  inside := by
    have batLe := fits.bat_le
    intro entry member
    rcases List.mem_pair.mp member with rfl | rfl
    · change 0x300000 + bat.length * 8 ≤ 0x600000
      omega
    · exact show 0x200000 + metadataRegionSize ≤ 0x600000 by decide
  regions_eq := rfl
  items_fit := fits.items_fit
  holds_metadata := List.mem_cons_self
  metadata_length := rfl
  metadata_eq := metadataEq
  valid := valid

/-- The table of a standard container holds its entries. -/
theorem standardPlan_entries (fits : StandardFits items bat extra)
    (entriesLt : ∀ entry ∈ bat, entry < 2 ^ 64) :
    Bat.entriesOf ((standardRegions bat.length).bat.content
      (standardPlan items bat extra).container) = bat := by
  have held := (standardPlan_fits fits).holds_region
    (show (0x300000, encodeBat bat) ∈
      (standardPlan items bat extra).regions by simp [standardPlan])
  rw [length_encodeBat] at held
  rw [RegionEntry.content]
  exact (congrArg Bat.entriesOf held).trans (entriesOf_encodeBat entriesLt)

/-- A standard container opens with its entries as the table. -/
theorem standardPlan_opens {P : Type} {metadata : VhdxMetadata}
    (fits : StandardFits items bat extra)
    (entriesLt : ∀ entry ∈ bat, entry < 2 ^ 64)
    (metadataEq : (recordedItems items).resolve = .ok metadata)
    (valid : metadata.Valid) (parent : Option P)
    (attached : metadata.hasParent = true → parent.isSome = true) :
    VhdxReader.fromBytes (standardPlan items bat extra).container parent =
      .ok (VhdxReader.plainReader (standardPlan items bat extra).container
        metadata { entries := bat, metadata } parent) := by
  have opened := (standardPlan_describes fits metadataEq valid).opens parent
    attached
  rwa [standardPlan_entries fits entriesLt] at opened

end Standard

end VhdxForensic
