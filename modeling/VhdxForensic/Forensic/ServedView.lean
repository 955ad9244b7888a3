import VhdxForensic.Core.Isolation
import VhdxForensic.Forensic.AnalysisReads
import VhdxForensic.Forensic.UnservedData

/-!
# What is audited and what is served

The analyser and the reader parse region tables and metadata with code of
their own. They differ on region entries outside the container, on the last
entry of a full table, on metadata entries past the 256th, on items that are
shorter than their values or leave their region and on one obsolete GUID. An
image without any of these is seen alike by both.
-/

namespace VhdxForensic

open Rust Rust.Bytes Rust.Exec

/-! ## Bounded images -/

/-- The entries of every valid region table fit its block, and their regions
fit the container. -/
structure TablesBounded (data : Bytes) : Prop where
  /-- A valid table declares no more entries than it has room for. -/
  count_le : ∀ copy, copy = 1 ∨ copy = 2 →
    RegionTableValid data (rtOffset copy) →
      leU32 data (rtOffset copy + 8) ≤ fittingEntries
  /-- Its entries lie in the container. -/
  inside : ∀ copy, copy = 1 ∨ copy = 2 →
    RegionTableValid data (rtOffset copy) →
      ∀ entry ∈ regionEntries data (rtOffset copy)
        (regionEntryCount data (rtOffset copy)), entry.Inside data.length

/-- GUIDs of the items that both parsers look for. -/
def sharedGuids : List Bytes :=
  [guidFileParameters, guidVirtualDiskSize, guidLogicalSectorSize]

/-- The item at `index` has a current GUID, and if both parsers look for it,
it holds its value and lies in the region. -/
structure ItemBounded (region : Bytes) (index : Nat) : Prop where
  /-- The item is not the size of the disk under the QEMU GUID. -/
  current : window region (32 + index * 32) 16 ≠ guidVirtualDiskSizeQemuCompat
  /-- An item that both parsers know has its value in the region. -/
  holds : window region (32 + index * 32) 16 ∈ sharedGuids →
    itemWidth (window region (32 + index * 32) 16) ≤
        leU32 region (32 + index * 32 + 20) ∧
      leU32 region (32 + index * 32 + 16) +
        leU32 region (32 + index * 32 + 20) ≤ region.length

/-- Both parsers visit all items of the region, and all are bounded. -/
structure MetadataBounded (region : Bytes) : Prop where
  /-- There are no more items than the analyser visits. -/
  count_le : metadataEntryCount region ≤ 256
  /-- Every item is bounded. -/
  items : ∀ index < metadataEntryCount region, ItemBounded region index

/-- The region tables and the metadata of the image are bounded. -/
structure Bounded (data : Bytes) : Prop where
  /-- The region tables are bounded. -/
  tables : TablesBounded data
  /-- So is the metadata that the analyser decodes. -/
  metadata : ∀ r ∈ parsedRegions data,
    MetadataBounded (window data r.metaOffset r.metaLength)

/-! ## Region tables -/

section Tables

variable {data : Bytes} {copy : Nat} {regions : RegionTable}

/-- Both parsers take the same regions from a bounded table, or none. -/
theorem TablesBounded.tableRegions_cases (bounded : TablesBounded data)
    (known : copy = 1 ∨ copy = 2) :
    (∃ regions, tableRegions data (rtOffset copy) = .ok regions ∧
      tableRanges data (rtOffset copy) =
        some (regions.bat.range, regions.metadata.range)) ∨
      ∃ e, tableRegions data (rtOffset copy) = fail e ∧
        tableRanges data (rtOffset copy) = none := by
  unfold tableRegions tableRanges
  dsimp only
  by_cases valid : RegionTableValid data (rtOffset copy)
  case neg =>
    right
    exact ⟨_, if_neg valid, if_neg valid⟩
  have cap : regionEntryCountMax = 2048 := rfl
  have fitting : fittingEntries = 2047 := rfl
  have countLe := bounded.count_le copy known valid
  have visited : visitedEntries data (rtOffset copy) fittingEntries =
      regionEntryCount data (rtOffset copy) := by
    rw [visitedEntries, regionEntryCount]
    omega
  rw [if_pos valid, if_pos valid, if_pos (bounded.inside copy known valid),
    resolvedRange, resolvedRange, visited, resolveRegions]
  cases lastWithGuid batGuid (regionEntries data (rtOffset copy)
      (regionEntryCount data (rtOffset copy))) with
  | none => exact Or.inr ⟨_, rfl, rfl⟩
  | some bat =>
      cases lastWithGuid metadataGuid (regionEntries data (rtOffset copy)
          (regionEntryCount data (rtOffset copy))) with
      | none => exact Or.inr ⟨_, rfl, rfl⟩
      | some metadata => exact Or.inl ⟨{ bat, metadata }, rfl, rfl⟩

/-- Both parsers take the same regions from bounded tables, or none. -/
theorem TablesBounded.decodeRegions_cases (bounded : TablesBounded data)
    (large : VhdxReader.minContainerSize ≤ data.length)
    (allocated : data.length ≤ isizeMax) :
    (∃ regions, decodeRegions data = .ok regions ∧
      usedRanges data = some (regions.bat.range, regions.metadata.range)) ∨
      ∃ e, decodeRegions data = fail e ∧ usedRanges data = none := by
  rw [decodeRegions_eq large allocated, usedRanges]
  change (∃ regions, orElse (tableRegions data (rtOffset 1))
      (tableRegions data (rtOffset 2)) = .ok regions ∧
    (tableRanges data (rtOffset 1)).or (tableRanges data (rtOffset 2)) = _) ∨
      ∃ e, orElse (tableRegions data (rtOffset 1))
        (tableRegions data (rtOffset 2)) = fail e ∧
      (tableRanges data (rtOffset 1)).or (tableRanges data (rtOffset 2)) = none
  rcases bounded.tableRegions_cases (Or.inl rfl) with
    ⟨regions, taken, ranges⟩ | ⟨e, rejected, skipped⟩
  · exact Or.inl ⟨regions, by rw [taken, orElse_ok], by rw [ranges]; rfl⟩
  · rw [rejected, orElse_fail, skipped, Option.none_or]
    exact bounded.tableRegions_cases (Or.inr rfl)

/-- The analyser takes the regions that the reader decoded. -/
theorem TablesBounded.usedRanges_eq (bounded : TablesBounded data)
    (large : VhdxReader.minContainerSize ≤ data.length)
    (allocated : data.length ≤ isizeMax)
    (decoded : decodeRegions data = .ok regions) :
    usedRanges data = some (regions.bat.range, regions.metadata.range) := by
  rcases bounded.decodeRegions_cases large allocated with
    ⟨_, taken, ranges⟩ | ⟨e, rejected, -⟩
  · obtain rfl := Except.ok.inj (decoded.symm.trans taken)
    exact ranges
  · rw [rejected] at decoded
    cases decoded

end Tables

/-! ## Metadata -/

/-- The parsers found the same values of the items that both look for. -/
structure SameItems (items : MetadataItems) (parsed : ParsedItems) : Prop where
  /-- The size of a block agrees. -/
  blockSize_eq : parsed.blockSize = items.blockSize
  /-- The flag of a parent agrees. -/
  hasParent_eq : parsed.hasParent = items.hasParent
  /-- The size of the disk agrees. -/
  vdiskSize_eq : parsed.vdiskSize = items.virtualDiskSize
  /-- The size of a sector agrees. -/
  logicalSs_eq : parsed.logicalSs = items.logicalSectorSize

section Metadata

variable {items : MetadataItems} {parsed : ParsedItems}
  {guid content tail : Bytes}

/-- An item that holds its value is recorded alike from its content and from
all that follows it in the image. -/
theorem SameItems.record (same : SameItems items parsed)
    (shared : guid ∈ sharedGuids) (holds : itemWidth guid ≤ content.length)
    (cut : content = window tail 0 content.length) :
    SameItems (items.record guid content) (parsed.record guid tail) := by
  have room : content.length ≤ tail.length := by
    have cutLength := congrArg List.length cut
    rw [length_window] at cutLength
    omega
  have integer : ∀ size inner, inner + size ≤ content.length →
      le size tail inner = le size content inner := by
    intro size inner inside
    rw [cut, le_window inside (by omega), Nat.zero_add]
  obtain ⟨blockSize, hasParent, vdiskSize, logicalSs⟩ := same
  unfold MetadataItems.record ParsedItems.record leU32 leU64
  simp only [sharedGuids, List.mem_cons, List.not_mem_nil, or_false] at shared
  rcases shared with rfl | rfl | rfl
  · have width : 8 ≤ content.length := holds
    rw [if_pos ⟨rfl, width⟩, if_pos rfl, if_pos (width.trans room),
      integer 4 0 (by omega), integer 4 4 (by omega)]
    exact ⟨rfl, rfl, vdiskSize, logicalSs⟩
  · have width : 8 ≤ content.length := holds
    rw [if_neg fun both => absurd both.1 (by decide),
      if_pos ⟨Or.inl rfl, width⟩,
      if_neg (by decide), if_pos rfl, if_pos (width.trans room),
      integer 8 0 (by omega)]
    exact ⟨blockSize, hasParent, rfl, logicalSs⟩
  · have width : 4 ≤ content.length := holds
    rw [if_neg fun both => absurd both.1 (by decide),
      if_neg fun both => absurd both.1 (by decide), if_pos ⟨rfl, width⟩,
      if_neg (by decide), if_neg (by decide), if_pos rfl,
      if_pos (width.trans room), integer 4 0 (by omega)]
    exact ⟨blockSize, hasParent, vdiskSize, rfl⟩

/-- The reader passes over any other item with a current GUID. -/
theorem MetadataItems.record_other (other : guid ∉ sharedGuids)
    (current : guid ≠ guidVirtualDiskSizeQemuCompat) :
    items.record guid content = items := by
  simp only [sharedGuids, List.mem_cons, List.not_mem_nil, or_false, not_or]
    at other
  obtain ⟨parameters, diskSize, logical⟩ := other
  rw [MetadataItems.record, if_neg fun both => parameters both.1,
    if_neg fun both => both.1.elim diskSize current,
    if_neg fun both => logical both.1]

/-- The analyser records any other item without a change to what is shared. -/
theorem SameItems.record_other (same : SameItems items parsed)
    (other : guid ∉ sharedGuids) :
    SameItems items (parsed.record guid tail) := by
  simp only [sharedGuids, List.mem_cons, List.not_mem_nil, or_false, not_or]
    at other
  obtain ⟨parameters, diskSize, logical⟩ := other
  obtain ⟨blockSize, hasParent, vdiskSize, logicalSs⟩ := same
  rw [ParsedItems.record, if_neg parameters, if_neg diskSize, if_neg logical]
  split_ifs <;> exact ⟨blockSize, hasParent, vdiskSize, logicalSs⟩

variable {data : Bytes} {metaOffset metaLength : Nat}

/-- A bounded item is recorded alike from the region and from the image. -/
theorem SameItems.step (same : SameItems items parsed) {index : Nat}
    (inside : metaOffset + metaLength ≤ data.length)
    (bounded : ItemBounded (window data metaOffset metaLength) index) :
    SameItems (recordItem (window data metaOffset metaLength) index items)
      (recordParsed data (window data metaOffset metaLength) metaOffset index
        parsed) := by
  obtain ⟨current, holds⟩ := bounded
  have regionLength := length_window_of_le inside
  unfold recordItem metadataItem recordParsed
  dsimp only
  by_cases shared : window (window data metaOffset metaLength)
      (32 + index * 32) 16 ∈ sharedGuids
  · obtain ⟨width, stays⟩ := holds shared
    rw [if_pos stays]
    have contentLength := length_window_of_le stays
    refine same.record shared (by rw [contentLength]; exact width) ?_
    rw [contentLength, imageTail, window_window_of_le (by omega),
      window_window_of_le (by omega)]
    rfl
  · by_cases stays : leU32 (window data metaOffset metaLength)
        (32 + index * 32 + 16) + leU32 (window data metaOffset metaLength)
          (32 + index * 32 + 20) ≤ (window data metaOffset metaLength).length
    · rw [if_pos stays]
      dsimp only
      rw [MetadataItems.record_other shared current]
      exact same.record_other shared
    · rw [if_neg stays]
      exact same.record_other shared

/-- Both parsers find the same values in a bounded metadata region. -/
theorem MetadataBounded.sameItems
    (bounded : MetadataBounded (window data metaOffset metaLength))
    (inside : metaOffset + metaLength ≤ data.length) (long : 8 ≤ metaLength)
    (signed : window (window data metaOffset metaLength) 0 8 =
      metadataTableSignature) :
    SameItems (metadataItems (window data metaOffset metaLength))
      (parsedItems data metaOffset metaLength) := by
  have countLe := bounded.count_le
  unfold parsedItems
  dsimp only
  rw [if_pos ⟨inside, long, signed⟩, min_eq_left countLe]
  exact foldRange_rel SameItems ⟨rfl, rfl, rfl, rfl⟩ _
    fun index indexLt _ _ same => same.step inside (bounded.items index indexLt)

/-- The description is made of the values that were found. -/
theorem MetadataItems.found_of_resolve {metadata : VhdxMetadata}
    (resolved : items.resolve = .ok metadata) :
    items.blockSize = some metadata.blockSize ∧
      items.virtualDiskSize = some metadata.virtualDiskSize ∧
      items.hasParent = metadata.hasParent ∧
      items.logicalSectorSize.getD 512 = metadata.logicalSectorSize := by
  obtain ⟨blockSize, blockSizeFound, resolved⟩ := bind_eq_ok.mp resolved
  obtain ⟨diskSize, diskSizeFound, resolved⟩ := bind_eq_ok.mp resolved
  cases resolved
  exact ⟨okOr_eq_ok.mp blockSizeFound, okOr_eq_ok.mp diskSizeFound, rfl, rfl⟩

/-- The analyser computes the chunk ratio of a valid description. -/
theorem chunkRatioFor_eq {blockSize logicalSs : Option Nat}
    {metadata : VhdxMetadata} (valid : metadata.Valid)
    (blockSizeEq : blockSize = some metadata.blockSize)
    (sectorSizeEq : logicalSs.getD 512 = metadata.logicalSectorSize) :
    chunkRatioFor blockSize logicalSs = some metadata.chunkRatioOf := by
  have sectorPos := valid.sectorSize_pos
  rw [blockSizeEq, chunkRatioFor, Option.bind_some, sectorSizeEq, if_pos]
  · rfl
  · refine ⟨valid.blockSize_pos, fun zero => ?_⟩
    rw [zero, Option.getD_some] at sectorSizeEq
    omega

end Metadata

/-! ## Opened images -/

/-- The analysis starts from the regions and the description that opening
decoded. -/
structure Audits (data : Bytes) (regions : RegionTable)
    (metadata : VhdxMetadata) (r : ParsedRegions) : Prop where
  /-- The table is the one that the reader uses. -/
  bat_eq : (r.batOffset, r.batLength) = regions.bat.range
  /-- So is the metadata region. -/
  meta_eq : (r.metaOffset, r.metaLength) = regions.metadata.range
  /-- The size of a block agrees. -/
  blockSize_eq : r.blockSize = some metadata.blockSize
  /-- The size of the disk agrees. -/
  vdiskSize_eq : r.vdiskSize = some metadata.virtualDiskSize
  /-- The flag of a parent agrees. -/
  hasParent_eq : r.hasParent = metadata.hasParent
  /-- The size of a sector agrees, 512 bytes if absent. -/
  logicalSs_eq : r.logicalSs.getD 512 = metadata.logicalSectorSize
  /-- The chunk ratio agrees. -/
  chunkRatio_eq : r.chunkRatio = some metadata.chunkRatioOf

section Opened

variable {data : Bytes} {regions : RegionTable} {metadata : VhdxMetadata}
  {attached : Bool}

/-- In a bounded image the analysis starts from what is decoded. -/
theorem Bounded.audits (bounded : Bounded data)
    (large : VhdxReader.minContainerSize ≤ data.length)
    (allocated : data.length ≤ isizeMax)
    (decodes : Decodes data attached regions metadata) :
    ∃ r, parsedRegions data = some r ∧ Audits data regions metadata r := by
  have used := bounded.tables.usedRanges_eq large allocated decodes.regions_eq
  have parsed := parsedRegions_eq_map data
  rw [used, Option.map_some] at parsed
  have inside : regions.metadata.fileOffset + regions.metadata.length ≤
      data.length :=
    (decodeRegions_inside large allocated decodes.regions_eq).2
  have region : MetadataBounded (regions.metadata.content data) :=
    bounded.metadata _ parsed
  have contentLength := length_content
    (show regions.metadata.Inside data.length from inside)
  have metadataEq := decodes.metadata_eq
  rw [parseMetadata_eq (by omega)] at metadataEq
  split at metadataEq
  · cases metadataEq
  rename_i long
  split at metadataEq
  · cases metadataEq
  rename_i signed
  have same : SameItems (metadataItems (regions.metadata.content data))
      (parsedItems data regions.metadata.fileOffset regions.metadata.length) :=
    region.sameItems inside (by omega) (not_not.mp signed)
  obtain ⟨blockSize, diskSize, hasParent, sectorSize⟩ :=
    MetadataItems.found_of_resolve metadataEq
  have logicalSs := (congrArg (Option.getD · 512) same.logicalSs_eq).trans
    sectorSize
  exact ⟨_, parsed, rfl, rfl, same.blockSize_eq.trans blockSize,
    same.vdiskSize_eq.trans diskSize, same.hasParent_eq.trans hasParent,
    logicalSs, chunkRatioFor_eq decodes.valid
      (same.blockSize_eq.trans blockSize) logicalSs⟩

/-- The analysed description is the decoded one. -/
theorem Audits.describes {r : ParsedRegions}
    (audits : Audits data regions metadata r)
    (parsed : parsedRegions data = some r) (valid : metadata.Valid) :
    r.Describes metadata where
  sound := parsedRegions_sound parsed
  metadata_eq := by
    rw [ParsedRegions.metadata, audits.blockSize_eq, audits.vdiskSize_eq,
      audits.hasParent_eq, audits.logicalSs_eq]
    rfl
  valid := valid

/-- An image that opens has an active header. -/
theorem VhdxReader.DecodesTo.exists_activeHeader {image : Bytes} {bat : Bat}
    (decodes : VhdxReader.DecodesTo data image metadata bat)
    (allocated : data.length ≤ isizeMax) :
    ∃ header, activeHeader data = some header := by
  have applied := decodes.applied
  rw [apply_eq allocated] at applied
  obtain ⟨entries, pending, -⟩ := bind_eq_ok.mp applied
  cases active : activeHeader data with
  | none =>
      rw [pendingEntries, active] at pending
      cases pending
  | some header => exact ⟨header, rfl⟩

/-- Under a clean header nothing is replayed. -/
theorem replayedEntries_of_clean
    (clean : ∀ header ∈ activeHeader data, header.IsClean) :
    VhdxReader.replayedEntries data = [] := by
  rw [VhdxReader.replayedEntries]
  cases active : activeHeader data with
  | none => rfl
  | some header => exact if_neg fun all => all.2.2.1 (clean header active)

/-- Under a clean header nothing is applied. -/
theorem apply_of_clean (allocated : data.length ≤ isizeMax)
    {header : VhdxHeader} (active : activeHeader data = some header)
    (clean : header.IsClean) : apply data = .ok data := by
  rw [apply_eq allocated, pendingEntries, active]
  dsimp only
  rw [if_pos clean]
  rfl

/-- An image that opens passes the first check of the analysis. -/
theorem fileMagicFindings_of_openGate
    (gate : VhdxReader.openGate data = .ok ()) :
    fileMagicFindings data = [] := by
  obtain ⟨magic, large⟩ := VhdxReader.openGate_eq_ok_iff.mp gate
  have smaller : analyserMinContainerSize ≤ VhdxReader.minContainerSize := by
    decide
  rw [fileMagicFindings, if_neg (by omega), if_neg (not_not_intro magic)]

theorem magic_of_readable (readable : fileMagicFindings data = []) :
    window data 0 8 = fileMagic := by
  unfold fileMagicFindings at readable
  split_ifs at readable with short other
  exact not_not.mp other

/-- The entries of the table are those that the reader holds. -/
theorem getElem?_entriesOf_content {r : ParsedRegions}
    (batEq : (r.batOffset, r.batLength) = regions.bat.range)
    (inside : regions.bat.Inside data.length) (i : Nat) :
    (Bat.entriesOf (regions.bat.content data))[i]? =
      if i < entryCountOf r then some (entryAt data r i) else none := by
  obtain ⟨offsetEq, lengthEq⟩ := Prod.mk.inj batEq
  rw [getElem?_entriesOf_region inside, entryCountOf, lengthEq, entryAt,
    offsetEq]

end Opened

/-- Both parsers use the header copy at `offset`. -/
structure SameHeader (data : Bytes) (offset : Nat) : Prop where
  /-- The reader decodes the header from there. -/
  decoded : parseActiveHeader data = .ok (headerAt data offset)
  /-- The analyser audits the block that starts there. -/
  audited : activeHeaderBlock data = .ok (some (window data offset headerSize))

/-- Both parsers use the active header copy. -/
theorem sameHeader_of_active {data : Bytes} {offset : Nat}
    (active : activeHeaderOffset data = some offset) :
    SameHeader data offset where
  decoded := by
    rw [parseActiveHeader_eq, activeHeader, active]
    rfl
  audited := by
    rw [activeHeaderBlock_eq, active]
    rfl

/-- An image that opens without a log to replay, if it is bounded, is audited
as it is served: by the same header copy, regions, description and entries. -/
theorem analysis_audits_served {P : Type} (image : Buffer)
    {parent : Option P} {reader : VhdxReader P}
    (opened : VhdxReader.fromBytes image.bytes parent = .ok reader)
    (unlogged : VhdxReader.replayedEntries image.bytes = [])
    (bounded : Bounded image.bytes) :
    ∃ offset regions r,
      SameHeader image.bytes offset ∧
      decodeRegions image.bytes = .ok regions ∧
      parseRegions image.bytes = .ok r ∧
      Audits image.bytes regions reader.metadata r ∧
      ∀ i, reader.bat.entries[i]? =
        if i < entryCountOf r then some (entryAt image.bytes r i)
        else none := by
  have allocated := image.allocated
  obtain ⟨_, metadata, bat, decodesTo, rfl⟩ :=
    VhdxReader.exists_decodesTo allocated opened
  obtain rfl := decodesTo.image_eq allocated unlogged
  have large := (VhdxReader.openGate_eq_ok_iff.mp decodesTo.gate).2
  obtain ⟨regions, decodes, rfl⟩ := decodeImage_eq_ok_iff.mp decodesTo.decoded
  obtain ⟨r, parsed, audits⟩ := bounded.audits large allocated decodes
  obtain ⟨header, active⟩ := decodesTo.exists_activeHeader allocated
  obtain ⟨offset, found, -⟩ := Option.map_eq_some_iff.mp active
  refine ⟨offset, regions, r, sameHeader_of_active found, decodes.regions_eq,
    ?_, audits, getElem?_entriesOf_content audits.bat_eq
      (decodeRegions_inside large allocated decodes.regions_eq).1⟩
  rw [parseRegions_eq allocated, parsed]
  rfl

/-! ## Standard containers -/

section Standard

variable {items : List StoredItem} {bat : List Nat} {extra : List Run}

/-- The item has a current GUID and holds its value. -/
def StoredItem.Current (item : StoredItem) : Prop :=
  item.guid ≠ guidVirtualDiskSizeQemuCompat ∧
    (item.guid ∈ sharedGuids → itemWidth item.guid ≤ item.length)

/-- Current items are encoded into a bounded region. -/
theorem metadataBounded_encodeMetadata (fits : MetadataFits items)
    (current : ∀ item ∈ items, item.Current) :
    MetadataBounded (encodeMetadata items) where
  count_le := by
    rw [metadataEntryCount_encodeMetadata fits]
    exact fits.count_le
  items := by
    intro index indexLt
    rw [metadataEntryCount_encodeMetadata fits] at indexLt
    have countLe := fits.count_le
    have size : metadataRegionSize = 0x100000 := rfl
    have start : itemsOffset = 0x10000 := rfl
    have found := List.getElem?_eq_getElem indexLt
    have member := List.mem_of_getElem? found
    have lengthLe := (fits.encodable _ member).length_le
    obtain ⟨guid, offset, length⟩ := itemEntry_fields fits found
    obtain ⟨known, holds⟩ := current _ member
    constructor
    · rw [guid]
      exact known
    · rw [guid, offset, length, length_encodeMetadata]
      exact fun shared => ⟨holds shared, by omega⟩

/-- The tables of a planned container are bounded if their entries lie in
it. -/
theorem ContainerPlan.Fits.tablesBounded {plan : ContainerPlan}
    (fits : plan.Fits)
    (inside : ∀ entry ∈ plan.table1 ++ plan.table2, entry.Inside plan.size) :
    TablesBounded plan.container := by
  have containerLength := plan.length_container
  have cap : regionEntryCountMax = 2048 := rfl
  have bounded : ∀ {offset : Nat} {table : List RegionEntry},
      table.length ≤ 2047 → leU32 plan.container (offset + 8) = table.length →
      regionEntries plan.container offset table.length = table →
        regionEntries plan.container offset
          (regionEntryCount plan.container offset) = table := by
    intro offset table countLe stored entries
    rw [regionEntryCount, stored, min_eq_left (by omega), entries]
  obtain ⟨-, stored1, entries1⟩ := fits.holds_table1
  obtain ⟨-, stored2, entries2⟩ := fits.holds_table2
  have countLe1 := fits.table1.count_le
  have countLe2 := fits.table2.count_le
  constructor
  · rintro copy (rfl | rfl) -
    · exact stored1.trans_le countLe1
    · exact stored2.trans_le countLe2
  · rintro copy (rfl | rfl) - entry member
    · change entry ∈ regionEntries plan.container regionTable1Offset
        (regionEntryCount plan.container regionTable1Offset) at member
      rw [bounded countLe1 stored1 entries1] at member
      rw [containerLength]
      exact inside entry (List.mem_append_left _ member)
    · change entry ∈ regionEntries plan.container regionTable2Offset
        (regionEntryCount plan.container regionTable2Offset) at member
      rw [bounded countLe2 stored2 entries2] at member
      rw [containerLength]
      exact inside entry (List.mem_append_right _ member)

/-- A standard container of current items is bounded. -/
theorem bounded_standardPlan (fits : StandardFits items bat extra)
    (short : ∀ item ∈ items, item.guid ≠ guidVirtualDiskId)
    (current : ∀ item ∈ items, item.Current) :
    Bounded (standardPlan items bat extra).container where
  tables := by
    have batLe := fits.bat_le
    refine (standardPlan_fits fits).tablesBounded fun entry member => ?_
    have known : entry = (standardRegions bat.length).bat ∨
        entry = (standardRegions bat.length).metadata :=
      (List.mem_append.mp member).elim List.mem_pair.mp List.mem_pair.mp
    rcases known with rfl | rfl
    · change 0x300000 + bat.length * 8 ≤ 0x600000
      omega
    · exact show 0x200000 + metadataRegionSize ≤ 0x600000 by decide
  metadata := by
    intro r parsed
    rw [parsedRegions_standardPlan fits short, Option.mem_some_iff] at parsed
    subst parsed
    have holds := (standardPlan_fits fits).holds_region
      (show (0x200000, encodeMetadata items) ∈
        (standardPlan items bat extra).regions from List.mem_cons_self)
    rw [length_encodeMetadata] at holds
    have region := metadataBounded_encodeMetadata fits.items_fit current
    rwa [← holds] at region

end Standard

theorem blockItems_current {blockSize diskSize : Nat} :
    ∀ item ∈ blockItems blockSize diskSize, item.Current := by
  intro item member
  rcases List.mem_pair.mp member with rfl | rfl
  · exact ⟨show guidFileParameters ≠ guidVirtualDiskSizeQemuCompat by decide,
      fun _ => le_rfl⟩
  · exact ⟨show guidVirtualDiskSize ≠ guidVirtualDiskSizeQemuCompat by decide,
      fun _ => le_rfl⟩

/-- A container of one block is audited as it is served. -/
theorem analysis_audits_served_oneBlockDisk :
    ∃ (image : Buffer) (reader : VhdxReader (Parent 0)),
      image.bytes =
          (standardPlan (blockItems 0x100000 0x100000) [0] []).container ∧
        VhdxReader.fromBytes image.bytes none = .ok reader ∧
        ∃ offset regions r,
          SameHeader image.bytes offset ∧
          decodeRegions image.bytes = .ok regions ∧
          parseRegions image.bytes = .ok r ∧
          Audits image.bytes regions reader.metadata r ∧
          ∀ i, reader.bat.entries[i]? =
            if i < entryCountOf r then some (entryAt image.bytes r i)
            else none := by
  have fits : StandardFits (blockItems 0x100000 0x100000) [0] [] :=
    ⟨blockItems_fit (by decide) (by decide), show 1 ≤ 0x20000 by decide,
      .nil, fun _ member => absurd member List.not_mem_nil⟩
  obtain ⟨image, standard, -⟩ := @exists_standardImage _ _ _ oneBlockDisk fits
    blockItems_short rfl rfl
  have opened := standardPlan_opens fits (by simp)
    (show (recordedItems (blockItems 0x100000 0x100000)).resolve =
      .ok oneBlockDisk from rfl)
    oneBlockDisk_valid (none : Option (Parent 0)) (by simp [oneBlockDisk])
  have bounded := bounded_standardPlan fits blockItems_short blockItems_current
  rw [← standard.bytes_eq] at opened bounded
  exact ⟨image.toBuffer, _, standard.bytes_eq, opened,
    analysis_audits_served image.toBuffer opened
      (standard.replayedEntries_eq fits) bounded⟩

end VhdxForensic
