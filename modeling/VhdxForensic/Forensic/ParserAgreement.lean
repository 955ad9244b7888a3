import VhdxForensic.Forensic.ServedView

/-!
# When both parsers agree

Of every kind, each parser keeps the last region entry and the last metadata
item that it accepts. An image that opens without a log to replay is audited
as it is served exactly when the entries and the items that decide in the two
parsers hold the same values.
-/

namespace VhdxForensic

open Rust Rust.Bytes Rust.Exec

/-! ## Region tables -/

/-- A parser that takes the first usable copy takes this one. -/
def FirstCopy (usable : Nat → Prop) (copy : Nat) : Prop :=
  copy = 1 ∧ usable 1 ∨ copy = 2 ∧ ¬ usable 1 ∧ usable 2

/-- At most one copy is the first usable one. -/
theorem FirstCopy.unique {usable : Nat → Prop} {copy other : Nat}
    (first : FirstCopy usable copy) (second : FirstCopy usable other) :
    copy = other := by
  rcases first with ⟨rfl, one⟩ | ⟨rfl, notOne, -⟩
  · rcases second with ⟨rfl, -⟩ | ⟨-, notOne, -⟩
    · rfl
    · exact absurd one notOne
  · rcases second with ⟨-, one⟩ | ⟨rfl, -, -⟩
    · exact absurd one notOne
    · rfl

/-- The copy is valid and names both regions among the entries that a parser
visits which reads at most `cap`. -/
structure NamesRegions (data : Bytes) (cap copy : Nat) : Prop where
  /-- Signature and checksum are right. -/
  valid : RegionTableValid data (rtOffset copy)
  /-- An entry names the table. -/
  bat : ∃ range, resolvedRange data (rtOffset copy) cap batGuid = some range
  /-- An entry names the metadata. -/
  metadata : ∃ range,
    resolvedRange data (rtOffset copy) cap metadataGuid = some range

/-- The copy names both regions, and none of its entries leaves the
container. -/
structure Contained (data : Bytes) (copy : Nat) : Prop
    extends NamesRegions data regionEntryCountMax copy where
  /-- All visited entries lie in the container. -/
  inside : ∀ entry ∈ regionEntries data (rtOffset copy)
    (regionEntryCount data (rtOffset copy)), entry.Inside data.length

section Tables

variable {data : Bytes} {copy : Nat} {regions : RegionTable}

/-- The reader decodes a copy exactly when it is contained. -/
theorem tableRegions_eq_ok_iff :
    tableRegions data (rtOffset copy) = .ok regions ↔
      Contained data copy ∧
        lastWithGuid batGuid (regionEntries data (rtOffset copy)
            (regionEntryCount data (rtOffset copy))) = some regions.bat ∧
        lastWithGuid metadataGuid (regionEntries data (rtOffset copy)
            (regionEntryCount data (rtOffset copy))) =
          some regions.metadata := by
  constructor
  · intro decoded
    unfold tableRegions at decoded
    dsimp only at decoded
    split at decoded
    case isFalse => cases decoded
    rename_i valid
    split at decoded
    case isFalse => cases decoded
    rename_i inside
    obtain ⟨bat, batFound, decoded⟩ := bind_eq_ok.mp decoded
    obtain ⟨metadata, metadataFound, decoded⟩ := bind_eq_ok.mp decoded
    cases decoded
    have batNamed := okOr_eq_ok.mp batFound
    have metadataNamed := okOr_eq_ok.mp metadataFound
    exact ⟨⟨⟨valid, ⟨_, congrArg (Option.map RegionEntry.range) batNamed⟩,
      ⟨_, congrArg (Option.map RegionEntry.range) metadataNamed⟩⟩, inside⟩,
      batNamed, metadataNamed⟩
  · rintro ⟨contained, batNamed, metadataNamed⟩
    unfold tableRegions
    dsimp only
    rw [if_pos contained.valid, if_pos contained.inside, resolveRegions,
      batNamed, metadataNamed]
    rfl

/-- Decoding a copy does not panic. -/
theorem settles_tableRegions (data : Bytes) (offset : Nat) :
    Settles (tableRegions data offset) := by
  unfold tableRegions resolveRegions
  dsimp only
  split
  · split
    · cases lastWithGuid batGuid (regionEntries data offset
          (regionEntryCount data offset)) with
      | none => exact settles_fail _
      | some bat =>
          cases lastWithGuid metadataGuid (regionEntries data offset
              (regionEntryCount data offset)) with
          | none => exact settles_fail _
          | some metadata => exact settles_ok _
    · exact settles_fail _
  · exact settles_fail _

/-- The reader decodes every contained copy. -/
theorem Contained.exists_tableRegions (contained : Contained data copy) :
    ∃ regions, tableRegions data (rtOffset copy) = .ok regions := by
  obtain ⟨_, batFound⟩ := contained.bat
  obtain ⟨_, metadataFound⟩ := contained.metadata
  obtain ⟨bat, batNamed, -⟩ := Option.map_eq_some_iff.mp batFound
  obtain ⟨metadata, metadataNamed, -⟩ := Option.map_eq_some_iff.mp metadataFound
  exact ⟨{ bat, metadata },
    tableRegions_eq_ok_iff.mpr ⟨contained, batNamed, metadataNamed⟩⟩

/-- The decoded regions are those of the first contained copy. -/
theorem exists_firstContained
    (large : VhdxReader.minContainerSize ≤ data.length)
    (allocated : data.length ≤ isizeMax)
    (decoded : decodeRegions data = .ok regions) :
    ∃ copy, FirstCopy (Contained data) copy ∧
      resolvedRange data (rtOffset copy) regionEntryCountMax batGuid =
        some regions.bat.range ∧
      resolvedRange data (rtOffset copy) regionEntryCountMax metadataGuid =
        some regions.metadata.range := by
  have ranges : ∀ {copy}, tableRegions data (rtOffset copy) = .ok regions →
      Contained data copy ∧
        resolvedRange data (rtOffset copy) regionEntryCountMax batGuid =
          some regions.bat.range ∧
        resolvedRange data (rtOffset copy) regionEntryCountMax metadataGuid =
          some regions.metadata.range := by
    intro copy taken
    obtain ⟨contained, batNamed, metadataNamed⟩ :=
      tableRegions_eq_ok_iff.mp taken
    exact ⟨contained, congrArg (Option.map RegionEntry.range) batNamed,
      congrArg (Option.map RegionEntry.range) metadataNamed⟩
  rw [decodeRegions_eq large allocated] at decoded
  change orElse (tableRegions data (rtOffset 1))
    (tableRegions data (rtOffset 2)) = .ok regions at decoded
  by_cases contained : Contained data 1
  · obtain ⟨first, taken⟩ := contained.exists_tableRegions
    rw [taken, orElse_ok] at decoded
    obtain rfl := Except.ok.inj decoded
    exact ⟨1, Or.inl ⟨rfl, contained⟩, (ranges taken).2⟩
  · rcases orElse_eq_ok decoded with first | second
    · exact absurd (ranges first).1 contained
    · exact ⟨2, Or.inr ⟨rfl, contained, (ranges second).1⟩,
        (ranges second).2⟩

/-- The reader decodes the regions of a first contained copy. -/
theorem FirstCopy.exists_decodeRegions
    (first : FirstCopy (Contained data) copy)
    (large : VhdxReader.minContainerSize ≤ data.length)
    (allocated : data.length ≤ isizeMax) :
    ∃ regions, decodeRegions data = .ok regions := by
  rw [decodeRegions_eq large allocated]
  change ∃ regions, orElse (tableRegions data (rtOffset 1))
    (tableRegions data (rtOffset 2)) = .ok regions
  rcases first with ⟨-, contained⟩ | ⟨-, rejected, contained⟩
  · obtain ⟨regions, taken⟩ := contained.exists_tableRegions
    exact ⟨regions, by rw [taken, orElse_ok]⟩
  · obtain ⟨regions, taken⟩ := contained.exists_tableRegions
    refine ⟨regions, ?_⟩
    rcases settles_iff.mp (settles_tableRegions data (rtOffset 1)) with
      ⟨skipped, first⟩ | ⟨e, failed⟩
    · exact absurd (tableRegions_eq_ok_iff.mp first).1 rejected
    · rw [failed, orElse_fail, taken]

/-- The ranges of a copy are those that its entries name. -/
theorem tableRanges_eq_some_iff {bat metadata : Nat × Nat} :
    tableRanges data (rtOffset copy) = some (bat, metadata) ↔
      RegionTableValid data (rtOffset copy) ∧
        resolvedRange data (rtOffset copy) fittingEntries batGuid =
          some bat ∧
        resolvedRange data (rtOffset copy) fittingEntries metadataGuid =
          some metadata := by
  unfold tableRanges
  split
  · rename_i valid
    cases resolvedRange data (rtOffset copy) fittingEntries batGuid <;>
      cases resolvedRange data (rtOffset copy) fittingEntries metadataGuid <;>
        simp [valid]
  · rename_i invalid
    simp [invalid]

/-- The analyser starts from the first copy that names both regions. -/
theorem usedRanges_eq_some_iff {bat metadata : Nat × Nat} :
    usedRanges data = some (bat, metadata) ↔
      ∃ copy, FirstCopy (NamesRegions data fittingEntries) copy ∧
        resolvedRange data (rtOffset copy) fittingEntries batGuid =
          some bat ∧
        resolvedRange data (rtOffset copy) fittingEntries metadataGuid =
          some metadata := by
  change (tableRanges data (rtOffset 1)).or (tableRanges data (rtOffset 2)) =
    _ ↔ _
  have named : ∀ {copy},
      tableRanges data (rtOffset copy) = some (bat, metadata) →
        NamesRegions data fittingEntries copy := fun found =>
    let ⟨valid, first, second⟩ := tableRanges_eq_some_iff.mp found
    ⟨valid, ⟨_, first⟩, ⟨_, second⟩⟩
  have skipped : tableRanges data (rtOffset 1) = none ↔
      ¬ NamesRegions data fittingEntries 1 := by
    constructor
    · rintro none ⟨valid, ⟨_, first⟩, ⟨_, second⟩⟩
      rw [tableRanges_eq_some_iff.mpr ⟨valid, first, second⟩] at none
      cases none
    · intro unnamed
      by_contra found
      obtain ⟨⟨_, _⟩, found⟩ := Option.ne_none_iff_exists'.mp found
      obtain ⟨valid, first, second⟩ := tableRanges_eq_some_iff.mp found
      exact unnamed ⟨valid, ⟨_, first⟩, ⟨_, second⟩⟩
  rw [Option.or_eq_some_iff, skipped]
  constructor
  · rintro (found | ⟨unnamed, found⟩)
    · exact ⟨1, Or.inl ⟨rfl, named found⟩,
        (tableRanges_eq_some_iff.mp found).2⟩
    · exact ⟨2, Or.inr ⟨rfl, unnamed, named found⟩,
        (tableRanges_eq_some_iff.mp found).2⟩
  · rintro ⟨copy, ⟨rfl, names⟩ | ⟨rfl, unnamed, names⟩, found⟩
    · exact Or.inl (tableRanges_eq_some_iff.mpr ⟨names.valid, found⟩)
    · exact Or.inr ⟨unnamed, tableRanges_eq_some_iff.mpr ⟨names.valid, found⟩⟩

end Tables

/-! ## Metadata items -/

/-- GUID of the item at `index`. -/
def itemGuid (region : Bytes) (index : Nat) : Bytes :=
  window region (32 + index * 32) 16

/-- Offset of the item at `index` in the region. -/
def itemOffset (region : Bytes) (index : Nat) : Nat :=
  leU32 region (32 + index * 32 + 16)

/-- Declared length of the item at `index`. -/
def itemLength (region : Bytes) (index : Nat) : Nat :=
  leU32 region (32 + index * 32 + 20)

/-- The reader takes a value of this width from the item: the item lies in
the region and is long enough. -/
def ServedItem (region : Bytes) (guids : List Bytes) (width index : Nat) :
    Prop :=
  itemGuid region index ∈ guids ∧
    itemOffset region index + itemLength region index ≤ region.length ∧
    width ≤ itemLength region index

instance (region : Bytes) (guids : List Bytes) (width : Nat) :
    DecidablePred (ServedItem region guids width) :=
  fun _ => inferInstanceAs (Decidable (_ ∧ _ ∧ _))

/-- The analyser takes a value of this width from the item: the image holds
the value. -/
def AuditedItem (data region : Bytes) (metaOffset : Nat) (guid : Bytes)
    (width index : Nat) : Prop :=
  itemGuid region index = guid ∧
    metaOffset + itemOffset region index + width ≤ data.length

instance (data region : Bytes) (metaOffset : Nat) (guid : Bytes)
    (width : Nat) :
    DecidablePred (AuditedItem data region metaOffset guid width) :=
  fun _ => inferInstanceAs (Decidable (_ ∧ _))

/-- GUIDs from which the reader takes the size of the disk. -/
def diskSizeGuids : List Bytes :=
  [guidVirtualDiskSize, guidVirtualDiskSizeQemuCompat]

section Items

variable {data region : Bytes} {metaOffset index : Nat}
  {items : MetadataItems} {parsed : ParsedItems}

/-- What the reader records of an item. -/
theorem recordItem_eq :
    recordItem region index items =
      if ServedItem region [guidFileParameters] 8 index then
        { items with
          blockSize := some (leU32 region (itemOffset region index))
          hasParent :=
            leU32 region (itemOffset region index + 4) &&& 2 ≠ 0 }
      else if ServedItem region diskSizeGuids 8 index then
        { items with
          virtualDiskSize := some (leU64 region (itemOffset region index)) }
      else if ServedItem region [guidLogicalSectorSize] 4 index then
        { items with
          logicalSectorSize :=
            some (leU32 region (itemOffset region index)) }
      else items := by
  unfold recordItem metadataItem ServedItem itemGuid itemOffset itemLength
    diskSizeGuids
  dsimp only
  simp only [List.mem_cons, List.not_mem_nil, or_false]
  by_cases stays : leU32 region (32 + index * 32 + 16) +
      leU32 region (32 + index * 32 + 20) ≤ region.length
  case neg =>
    simp only [stays, if_false, false_and, and_false]
  have contentLength := length_window_of_le stays
  simp only [stays, if_true, true_and]
  unfold MetadataItems.record
  rw [contentLength]
  split_ifs with parameters diskSize sectorSize
  · rw [leU32_window (by omega) stays, leU32_window (by omega) stays]
    rfl
  · rw [leU64_window (by omega) stays, Nat.add_zero]
  · rw [leU32_window (by omega) stays, Nat.add_zero]
  · rfl

/-- An item of one kind is none of another. -/
theorem ServedItem.not_of_disjoint {guids others : List Bytes}
    {width width' : Nat} (served : ServedItem region guids width index)
    (disjoint : ∀ guid ∈ guids, guid ∉ others) :
    ¬ ServedItem region others width' index :=
  fun other => disjoint _ served.1 other.1

/-- A value fits the rest of an image if the image holds it. -/
theorem le_length_imageTail {start width : Nat} (positive : 0 < width) :
    width ≤ (imageTail data start).length ↔ start + width ≤ data.length := by
  rw [length_imageTail]
  omega

/-- What the analyser records of file parameters. -/
theorem ParsedItems.record_parameters (parsed : ParsedItems)
    {guid : Bytes} {start : Nat} :
    (parsed.record guid (imageTail data start)).blockSize =
        (if guid = guidFileParameters ∧ start + 8 ≤ data.length then
          some (leU32 data start)
        else parsed.blockSize) ∧
      (parsed.record guid (imageTail data start)).hasParent =
        if guid = guidFileParameters ∧ start + 8 ≤ data.length then
          decide (leU32 data (start + 4) &&& 2 ≠ 0)
        else parsed.hasParent := by
  unfold ParsedItems.record
  by_cases parameters : guid = guidFileParameters
  · simp only [parameters, if_true, true_and,
      le_length_imageTail (show 0 < 8 by decide)]
    by_cases held : start + 8 ≤ data.length
    · rw [if_pos held, if_pos held, if_pos held, imageTail,
        leU32_window (by omega) (by omega), leU32_window (by omega) (by omega)]
      exact ⟨rfl, rfl⟩
    · rw [if_neg held, if_neg held, if_neg held]
      exact ⟨rfl, rfl⟩
  · simp only [parameters, if_false, false_and]
    split_ifs <;> exact ⟨rfl, rfl⟩

/-- What the analyser records of the size of the disk. -/
theorem ParsedItems.record_vdiskSize (parsed : ParsedItems) {guid : Bytes}
    {start : Nat} :
    (parsed.record guid (imageTail data start)).vdiskSize =
      if guid = guidVirtualDiskSize ∧ start + 8 ≤ data.length then
        some (leU64 data start)
      else parsed.vdiskSize := by
  unfold ParsedItems.record
  by_cases diskSize : guid = guidVirtualDiskSize
  · have other : guidVirtualDiskSize ≠ guidFileParameters := by decide
    simp only [diskSize, other, if_true, if_false, true_and,
      le_length_imageTail (show 0 < 8 by decide)]
    split
    · rw [imageTail, leU64_window (by omega) (by omega)]
      rfl
    · rfl
  · simp only [diskSize, if_false, false_and]
    split_ifs <;> rfl

/-- What the analyser records of the sector size. -/
theorem ParsedItems.record_logicalSs (parsed : ParsedItems) {guid : Bytes}
    {start : Nat} :
    (parsed.record guid (imageTail data start)).logicalSs =
      if guid = guidLogicalSectorSize ∧ start + 4 ≤ data.length then
        some (leU32 data start)
      else parsed.logicalSs := by
  unfold ParsedItems.record
  by_cases sectorSize : guid = guidLogicalSectorSize
  · have first : guidLogicalSectorSize ≠ guidFileParameters := by decide
    have second : guidLogicalSectorSize ≠ guidVirtualDiskSize := by decide
    simp only [sectorSize, first, second, if_true, if_false, true_and,
      le_length_imageTail (show 0 < 4 by decide)]
    split
    · rw [imageTail, leU32_window (by omega) (by omega)]
      rfl
    · rfl
  · simp only [sectorSize, if_false, false_and]
    split_ifs <;> rfl

section Fields

variable (index items parsed)

theorem recordItem_blockSize :
    (recordItem region index items).blockSize =
      if ServedItem region [guidFileParameters] 8 index then
        some (leU32 region (itemOffset region index))
      else items.blockSize := by
  rw [recordItem_eq]
  split_ifs <;> rfl

theorem recordItem_hasParent :
    (recordItem region index items).hasParent =
      if ServedItem region [guidFileParameters] 8 index then
        decide (leU32 region (itemOffset region index + 4) &&& 2 ≠ 0)
      else items.hasParent := by
  rw [recordItem_eq]
  split_ifs <;> rfl

theorem recordItem_virtualDiskSize :
    (recordItem region index items).virtualDiskSize =
      if ServedItem region diskSizeGuids 8 index then
        some (leU64 region (itemOffset region index))
      else items.virtualDiskSize := by
  rw [recordItem_eq]
  by_cases diskSize : ServedItem region diskSizeGuids 8 index
  · rw [if_neg (diskSize.not_of_disjoint (by decide)), if_pos diskSize,
      if_pos diskSize]
  · rw [if_neg diskSize, if_neg diskSize]
    split_ifs <;> rfl

theorem recordItem_logicalSectorSize :
    (recordItem region index items).logicalSectorSize =
      if ServedItem region [guidLogicalSectorSize] 4 index then
        some (leU32 region (itemOffset region index))
      else items.logicalSectorSize := by
  rw [recordItem_eq]
  by_cases sectorSize : ServedItem region [guidLogicalSectorSize] 4 index
  · rw [if_neg (sectorSize.not_of_disjoint (by decide)),
      if_neg (sectorSize.not_of_disjoint (by decide)), if_pos sectorSize,
      if_pos sectorSize]
  · rw [if_neg sectorSize, if_neg sectorSize]
    split_ifs <;> rfl

theorem recordParsed_blockSize :
    (recordParsed data region metaOffset index parsed).blockSize =
      if AuditedItem data region metaOffset guidFileParameters 8 index then
        some (leU32 data (metaOffset + itemOffset region index))
      else parsed.blockSize :=
  parsed.record_parameters.1

theorem recordParsed_hasParent :
    (recordParsed data region metaOffset index parsed).hasParent =
      if AuditedItem data region metaOffset guidFileParameters 8 index then
        decide
          (leU32 data (metaOffset + itemOffset region index + 4) &&& 2 ≠ 0)
      else parsed.hasParent :=
  parsed.record_parameters.2

theorem recordParsed_vdiskSize :
    (recordParsed data region metaOffset index parsed).vdiskSize =
      if AuditedItem data region metaOffset guidVirtualDiskSize 8 index then
        some (leU64 data (metaOffset + itemOffset region index))
      else parsed.vdiskSize :=
  parsed.record_vdiskSize

theorem recordParsed_logicalSs :
    (recordParsed data region metaOffset index parsed).logicalSs =
      if AuditedItem data region metaOffset guidLogicalSectorSize 4 index then
        some (leU32 data (metaOffset + itemOffset region index))
      else parsed.logicalSs :=
  parsed.record_logicalSs

end Fields

end Items

/-! ## The values that decide -/

/-- The values that both parsers look for. -/
structure SharedValues where
  /-- Block size and parent flag. -/
  parameters : Option (Nat × Bool)
  /-- Size of the disk. -/
  diskSize : Option Nat
  /-- Size of a logical sector. -/
  sectorSize : Option Nat

/-- The values of the items at these indices of a metadata region. -/
def valuesAt (data : Bytes) (metadata : Nat × Nat)
    (parameters diskSize sectorSize : Option Nat) : SharedValues :=
  let start index :=
    metadata.1 + itemOffset (window data metadata.1 metadata.2) index
  { parameters := parameters.map fun index =>
      (leU32 data (start index), leU32 data (start index + 4) &&& 2 ≠ 0)
    diskSize := diskSize.map fun index => leU64 data (start index)
    sectorSize := sectorSize.map fun index => leU32 data (start index) }

/-- The values of the last items that the analyser accepts. -/
def auditedValues (data : Bytes) (metadata : Nat × Nat) : SharedValues :=
  let region := window data metadata.1 metadata.2
  let count := min (metadataEntryCount region) 256
  valuesAt data metadata
    (lastAccepted (AuditedItem data region metadata.1 guidFileParameters 8)
      count)
    (lastAccepted (AuditedItem data region metadata.1 guidVirtualDiskSize 8)
      count)
    (lastAccepted (AuditedItem data region metadata.1 guidLogicalSectorSize 4)
      count)

/-- The values of the last items that the reader accepts. -/
def servedValues (data : Bytes) (metadata : Nat × Nat) : SharedValues :=
  let region := window data metadata.1 metadata.2
  let count := metadataEntryCount region
  valuesAt data metadata
    (lastAccepted (ServedItem region [guidFileParameters] 8) count)
    (lastAccepted (ServedItem region diskSizeGuids 8) count)
    (lastAccepted (ServedItem region [guidLogicalSectorSize] 4) count)

section Values

variable {data : Bytes} {metadata : Nat × Nat}

/-- The analyser keeps the values that decide for it. -/
theorem parsedItems_values
    (inside : metadata.1 + metadata.2 ≤ data.length) (long : 8 ≤ metadata.2)
    (signed : window (window data metadata.1 metadata.2) 0 8 =
      metadataTableSignature) :
    let parsed := parsedItems data metadata.1 metadata.2
    let values := auditedValues data metadata
    parsed.blockSize = values.parameters.map Prod.fst ∧
      parsed.hasParent = (values.parameters.map Prod.snd).getD false ∧
      parsed.vdiskSize = values.diskSize ∧
      parsed.logicalSs = values.sectorSize := by
  unfold parsedItems auditedValues valuesAt
  dsimp only
  rw [if_pos ⟨inside, long, signed⟩, Option.map_map, Option.map_map]
  exact ⟨foldRange_lastAccepted_some ParsedItems.blockSize
      recordParsed_blockSize rfl _,
    foldRange_lastAccepted recordParsed_hasParent _ _,
    foldRange_lastAccepted_some ParsedItems.vdiskSize
      recordParsed_vdiskSize rfl _,
    foldRange_lastAccepted_some ParsedItems.logicalSs
      recordParsed_logicalSs rfl _⟩

/-- The reader keeps the values that decide for it. -/
theorem metadataItems_values
    (inside : metadata.1 + metadata.2 ≤ data.length) :
    let items := metadataItems (window data metadata.1 metadata.2)
    let values := servedValues data metadata
    items.blockSize = values.parameters.map Prod.fst ∧
      items.hasParent = (values.parameters.map Prod.snd).getD false ∧
      items.virtualDiskSize = values.diskSize ∧
      items.logicalSectorSize = values.sectorSize := by
  have regionLength := length_window_of_le inside
  -- An accepted item holds its value in the region.
  have held : ∀ {guids : List Bytes} {width index : Nat},
      ServedItem (window data metadata.1 metadata.2) guids width index →
        itemOffset (window data metadata.1 metadata.2) index + width ≤
          metadata.2 := by
    rintro guids width index ⟨-, stays, long⟩
    omega
  unfold metadataItems servedValues valuesAt
  dsimp only
  rw [Option.map_map, Option.map_map]
  refine ⟨?_, ?_, ?_, ?_⟩
  · refine (foldRange_lastAccepted_some MetadataItems.blockSize
      recordItem_blockSize rfl _).trans (Option.map_congr fun index last => ?_)
    have room := held (accepts_of_mem_lastAccepted last)
    exact leU32_window (by omega) inside
  · refine (foldRange_lastAccepted recordItem_hasParent _ _).trans
      (congrArg (Option.getD · false) (Option.map_congr fun index last => ?_))
    have room := held (accepts_of_mem_lastAccepted last)
    rw [leU32_window (by omega) inside]
    rfl
  · refine (foldRange_lastAccepted_some MetadataItems.virtualDiskSize
      recordItem_virtualDiskSize rfl _).trans
        (Option.map_congr fun index last => ?_)
    have room := held (accepts_of_mem_lastAccepted last)
    exact leU64_window (by omega) inside
  · refine (foldRange_lastAccepted_some MetadataItems.logicalSectorSize
      recordItem_logicalSectorSize rfl _).trans
        (Option.map_congr fun index last => ?_)
    have room := held (accepts_of_mem_lastAccepted last)
    exact leU32_window (by omega) inside

end Values

/-! ## Agreement -/

/-- The values that decide in the two parsers are the same. -/
structure SameValues (audited served : SharedValues) : Prop where
  /-- Block size and parent flag are the same. -/
  parameters : audited.parameters = served.parameters
  /-- The size of the disk is the same. -/
  diskSize : audited.diskSize = served.diskSize
  /-- The sector size is the same, where none means 512. -/
  sectorSize : audited.sectorSize.getD 512 = served.sectorSize.getD 512

/-- The entries and the items that decide in the two parsers agree. -/
structure DecidedAlike (data : Bytes) : Prop where
  /-- The last entries for each region name the same range, in the first copy
  that names both and in the first contained copy. -/
  ranges : ∃ audited served,
    FirstCopy (NamesRegions data fittingEntries) audited ∧
      FirstCopy (Contained data) served ∧
      ∀ guid, guid = batGuid ∨ guid = metadataGuid →
        resolvedRange data (rtOffset audited) fittingEntries guid =
          resolvedRange data (rtOffset served) regionEntryCountMax guid
  /-- The last items for each value hold the same. -/
  values : ∀ served, FirstCopy (Contained data) served →
    ∀ range ∈ resolvedRange data (rtOffset served) regionEntryCountMax
      metadataGuid,
        SameValues (auditedValues data range) (servedValues data range)

section Agreement

variable {data : Bytes} {regions : RegionTable} {metadata : VhdxMetadata}
  {attached : Bool}

/-- What the reader decoded are the values that decide for it. -/
theorem Decodes.values (decodes : Decodes data attached regions metadata)
    (inside : regions.metadata.Inside data.length)
    (allocated : data.length ≤ isizeMax) :
    let values := servedValues data regions.metadata.range
    8 ≤ regions.metadata.length ∧
      window (window data regions.metadata.fileOffset regions.metadata.length)
        0 8 = metadataTableSignature ∧
      values.parameters = some (metadata.blockSize, metadata.hasParent) ∧
      values.diskSize = some metadata.virtualDiskSize ∧
      values.sectorSize.getD 512 = metadata.logicalSectorSize := by
  have contentLength := length_content inside
  have metadataEq := decodes.metadata_eq
  unfold RegionEntry.Inside at inside
  rw [parseMetadata_eq (by omega)] at metadataEq
  split at metadataEq
  · cases metadataEq
  rename_i long
  split at metadataEq
  · cases metadataEq
  rename_i signed
  obtain ⟨blockSize, diskSize, hasParent, sectorSize⟩ :=
    MetadataItems.found_of_resolve metadataEq
  obtain ⟨blockSizeEq, hasParentEq, diskSizeEq, sectorSizeEq⟩ :=
    @metadataItems_values data regions.metadata.range inside
  rw [RegionEntry.content] at blockSize diskSize hasParent sectorSize
  refine ⟨by omega, not_not.mp signed, ?_, diskSizeEq.symm.trans diskSize,
    by rw [← sectorSizeEq]; exact sectorSize⟩
  have size := blockSizeEq.symm.trans blockSize
  have flag := hasParentEq.symm.trans hasParent
  obtain ⟨⟨first, second⟩, found, rfl⟩ := Option.map_eq_some_iff.mp size
  rw [found] at flag ⊢
  exact congrArg (fun flag => some (_, flag)) flag

/-- The analysis starts from what was decoded exactly when all that decides
agrees. -/
theorem Decodes.audits_iff
    (decodes : Decodes data attached regions metadata)
    (large : VhdxReader.minContainerSize ≤ data.length)
    (allocated : data.length ≤ isizeMax) :
    (∃ r, parsedRegions data = some r ∧ Audits data regions metadata r) ↔
      DecidedAlike data := by
  have inside := (decodeRegions_inside large allocated decodes.regions_eq).2
  obtain ⟨served, first, batServed, metadataServed⟩ :=
    exists_firstContained large allocated decodes.regions_eq
  obtain ⟨long, signed, parametersEq, diskSizeEq, sectorSizeEq⟩ :=
    decodes.values inside allocated
  obtain ⟨blockSize, hasParent, vdiskSize, logicalSs⟩ :=
    @parsedItems_values data regions.metadata.range inside long signed
  rw [parsedRegions_eq_map]
  constructor
  · rintro ⟨r, parsed, audits⟩
    obtain ⟨⟨bat, range⟩, used, rfl⟩ := Option.map_eq_some_iff.mp parsed
    have batEq : bat = regions.bat.range := audits.bat_eq
    have rangeEq : range = regions.metadata.range := audits.meta_eq
    subst batEq rangeEq
    obtain ⟨audited, auditedFirst, batAudited, metadataAudited⟩ :=
      usedRanges_eq_some_iff.mp used
    refine ⟨⟨audited, served, auditedFirst, first, ?_⟩, ?_⟩
    · rintro guid (rfl | rfl)
      · rw [batAudited, batServed]
      · rw [metadataAudited, metadataServed]
    · intro other otherFirst range found
      obtain rfl := otherFirst.unique first
      obtain rfl := Option.some.inj (metadataServed.symm.trans found)
      have size := blockSize.symm.trans audits.blockSize_eq
      have flag := hasParent.symm.trans audits.hasParent_eq
      refine ⟨?_, ?_, ?_⟩
      · obtain ⟨⟨_, _⟩, held, rfl⟩ := Option.map_eq_some_iff.mp size
        rw [held] at flag
        rw [held, parametersEq]
        exact congrArg (fun flag => some (_, flag)) flag
      · rw [diskSizeEq, ← vdiskSize]
        exact audits.vdiskSize_eq
      · rw [sectorSizeEq, ← logicalSs]
        exact audits.logicalSs_eq
  · rintro ⟨⟨audited, other, auditedFirst, otherFirst, same⟩, values⟩
    obtain rfl := otherFirst.unique first
    obtain ⟨parameters, diskSize, sectorSize⟩ :=
      values other first _ metadataServed
    have used : usedRanges data =
        some (regions.bat.range, regions.metadata.range) :=
      usedRanges_eq_some_iff.mpr ⟨audited, auditedFirst,
        (same _ (Or.inl rfl)).trans batServed,
        (same _ (Or.inr rfl)).trans metadataServed⟩
    rw [parameters, parametersEq] at blockSize hasParent
    rw [diskSize, diskSizeEq] at vdiskSize
    rw [sectorSizeEq, ← logicalSs] at sectorSize
    rw [used]
    exact ⟨_, rfl, rfl, rfl, blockSize, vdiskSize, hasParent, sectorSize,
      chunkRatioFor_eq decodes.valid blockSize sectorSize⟩

end Agreement

/-- The analyser audits the structures that the reader of the image uses. -/
def AuditsServed (data : Bytes) (metadata : VhdxMetadata) : Prop :=
  ∃ offset regions r, SameHeader data offset ∧
    decodeRegions data = .ok regions ∧ parseRegions data = .ok r ∧
    Audits data regions metadata r

/-- An image that opens under a clean header is audited as it is served
exactly when the entries and items that decide in the two parsers agree. -/
theorem auditsServed_iff {P : Type} (image : Buffer) {parent : Option P}
    {reader : VhdxReader P}
    (opened : VhdxReader.fromBytes image.bytes parent = .ok reader)
    (clean : ∀ header ∈ activeHeader image.bytes, header.IsClean) :
    AuditsServed image.bytes reader.metadata ↔ DecidedAlike image.bytes := by
  have allocated := image.allocated
  obtain ⟨_, metadata, bat, decodesTo, rfl⟩ :=
    VhdxReader.exists_decodesTo allocated opened
  obtain rfl := decodesTo.image_eq allocated (replayedEntries_of_clean clean)
  have large := (VhdxReader.openGate_eq_ok_iff.mp decodesTo.gate).2
  obtain ⟨regions, decodes, rfl⟩ := decodeImage_eq_ok_iff.mp decodesTo.decoded
  obtain ⟨header, active⟩ := decodesTo.exists_activeHeader allocated
  obtain ⟨offset, found, -⟩ := Option.map_eq_some_iff.mp active
  rw [← decodes.audits_iff large allocated]
  constructor
  · rintro ⟨_, regions', r, -, regionsEq, parsed, audits⟩
    obtain rfl := Except.ok.inj (decodes.regions_eq.symm.trans regionsEq)
    rw [parseRegions_eq allocated, okOr_eq_ok] at parsed
    exact ⟨r, parsed, audits⟩
  · rintro ⟨r, parsed, audits⟩
    refine ⟨offset, regions, r, sameHeader_of_active found,
      decodes.regions_eq, ?_, audits⟩
    rw [parseRegions_eq allocated, parsed]
    rfl

/-! ## Sizes under the obsolete GUID -/

section Standard

variable {items : List StoredItem} {bat : List Nat} {extra : List Run}

/-- The headers of a standard container are clean. -/
theorem standardPlan_clean (fits : StandardFits items bat extra) :
    ∀ header ∈ activeHeader (standardPlan items bat extra).container,
      header.IsClean := by
  intro header active
  rcases (standardPlan_fits fits).activeHeader with first | second
  · rw [first] at active
    cases active
    exact Or.inl rfl
  · rw [second] at active
    cases active
    exact Or.inl rfl

end Standard

/-- A container whose disk size is stored under the obsolete GUID. -/
def obsoletePlan : ContainerPlan :=
  standardPlan (diskItems guidVirtualDiskSizeQemuCompat) [0] []

theorem obsolete_fits :
    StandardFits (diskItems guidVirtualDiskSizeQemuCompat) [0] [] :=
  ⟨diskItems_fit rfl, show 1 ≤ 0x20000 by decide, .nil,
    fun _ member => absurd member List.not_mem_nil⟩

/-- The reader opens the container, and the analyser misses the size of its
disk. -/
theorem obsoletePlan_auditedWithoutSize :
    ∃ (image : Buffer) (reader : VhdxReader (Parent 0)),
      image.bytes = obsoletePlan.container ∧
        VhdxReader.fromBytes image.bytes none = .ok reader ∧
        (∀ header ∈ activeHeader image.bytes, header.IsClean) ∧
        reader.metadata.virtualDiskSize = 0x100000 ∧
        (∃ r, parseRegions image.bytes = .ok r ∧ r.vdiskSize = none) ∧
        ¬ AuditsServed image.bytes reader.metadata := by
  obtain ⟨image, bytesEq⟩ := @ContainerPlan.exists_buffer
    (standardPlan (diskItems guidVirtualDiskSizeQemuCompat) [0] [])
    (show 0x600000 ≤ isizeMax by decide)
  have opened := standardPlan_opens obsolete_fits (by simp)
    (show (recordedItems (diskItems guidVirtualDiskSizeQemuCompat)).resolve =
      .ok oneBlockDisk from rfl)
    oneBlockDisk_valid (none : Option (Parent 0)) (by simp [oneBlockDisk])
  have clean := standardPlan_clean obsolete_fits
  have parsed : parsedRegions (standardPlan
      (diskItems guidVirtualDiskSizeQemuCompat) [0] []).container =
        some (standardRegionsAt
          (diskItems guidVirtualDiskSizeQemuCompat) 1) := by
    refine parsedRegions_standardPlan obsolete_fits fun item member => ?_
    rcases List.mem_pair.mp member with rfl | rfl
    · exact show guidFileParameters ≠ guidVirtualDiskId by decide
    · exact show guidVirtualDiskSizeQemuCompat ≠ guidVirtualDiskId by decide
  rw [← bytesEq] at opened clean parsed
  have analysed : parseRegions image.bytes = .ok (standardRegionsAt
      (diskItems guidVirtualDiskSizeQemuCompat) 1) := by
    rw [parseRegions_eq image.allocated, parsed]
    rfl
  have missed : (standardRegionsAt
      (diskItems guidVirtualDiskSizeQemuCompat) 1).vdiskSize = none := rfl
  refine ⟨image, _, bytesEq, opened, clean, rfl, ⟨_, analysed, missed⟩, ?_⟩
  rintro ⟨_, _, r, -, -, found, audits⟩
  obtain rfl := Except.ok.inj (analysed.symm.trans found)
  have sized := audits.vdiskSize_eq
  rw [missed] at sized
  cases sized

/-- Two blocks, of which the second is mapped, are audited as they are served
exactly when what decides agrees. -/
theorem auditsServed_iff_twoBlocks :
    ∃ (image : Buffer) (reader : VhdxReader (Parent 0)),
      image.bytes = (standardPlan (blockItems 0x100000 0x200000)
          [0, 0x400006] []).container ∧
        VhdxReader.fromBytes image.bytes none = .ok reader ∧
        (AuditsServed image.bytes reader.metadata ↔
          DecidedAlike image.bytes) := by
  have fits : StandardFits (blockItems 0x100000 0x200000) [0, 0x400006] [] :=
    ⟨blockItems_fit (by decide) (by decide), show 2 ≤ 0x20000 by decide,
      .nil, fun _ member => absurd member List.not_mem_nil⟩
  obtain ⟨image, bytesEq⟩ := @ContainerPlan.exists_buffer
    (standardPlan (blockItems 0x100000 0x200000) [0, 0x400006] [])
    (show 0x600000 ≤ isizeMax by decide)
  have opened := standardPlan_opens fits (by decide)
    (show (recordedItems (blockItems 0x100000 0x200000)).resolve =
      .ok (blockDisk 0x100000 0x200000) from rfl)
    (VhdxMetadata.validate_eq_ok_iff.mp rfl) (none : Option (Parent 0))
    (by simp [blockDisk])
  have clean := standardPlan_clean fits
  rw [← bytesEq] at opened clean
  exact ⟨image, _, bytesEq, opened, auditsServed_iff image opened clean⟩

end VhdxForensic
