import VhdxForensic.Forensic.RepairedDisk

/-!
# What a silent report guarantees

Some findings say that an image cannot be opened, or that bytes of its disk
may have no value. A bounded image about which none of them is reported opens,
and the bytes of its disk that cannot be read are those in blocks with a
reserved state, behind the end of the container and left to a parent that
lacks them.
-/

namespace VhdxForensic

open Rust Rust.Bytes Rust.Exec

/-- The kinds of findings that bear on opening an image and reading it. -/
def VhdxIntegrityAnomaly.hindersReading : VhdxIntegrityAnomaly → Bool
  | badMagic .. | containerTruncated .. | bothHeaderCopiesInvalid
  | bothRegionTableCopiesInvalid | dirtyLog .. | metadataMissing ..
  | blockSizeInvalid .. | logicalSectorSizeInvalid ..
  | virtualDiskSizeInvalid .. | virtualDiskSizeOverreported ..
  | partiallyPresentBlock .. => true
  | _ => false

/-- No finding bears on reading. -/
def Silent (findings : Findings) : Prop :=
  ∀ finding ∈ findings, finding.hindersReading = false

section Silent

variable {findings more : Findings} {finding : VhdxIntegrityAnomaly}

@[simp] theorem silent_nil : Silent [] := by
  simp [Silent]

@[simp] theorem silent_cons :
    Silent (finding :: findings) ↔
      finding.hindersReading = false ∧ Silent findings := by
  simp [Silent]

@[simp] theorem silent_append :
    Silent (findings ++ more) ↔ Silent findings ∧ Silent more := by
  simp [Silent, or_imp, forall_and]

@[simp] theorem silent_flatMap {α : Type} {items : List α}
    {batch : α → Findings} :
    Silent (items.flatMap batch) ↔ ∀ item ∈ items, Silent (batch item) := by
  simp only [Silent, List.mem_flatMap, forall_exists_index, and_imp]
  exact ⟨fun all item member finding found => all finding item member found,
    fun all finding item member found => all item member finding found⟩

@[simp] theorem silent_ite {condition : Prop} [Decidable condition] :
    Silent (if condition then findings else more) ↔
      (condition → Silent findings) ∧ (¬ condition → Silent more) := by
  split <;> simp_all

/-- Most checks have nothing to say about reading. -/
theorem FromCheck.silent {check : Check} (from_ : FromCheck check findings)
    (other : check ≠ .container ∧ check ≠ .headers ∧ check ≠ .tables ∧
      check ≠ .metadata ∧ check ≠ .bat) : Silent findings := by
  intro finding member
  have origin := from_ finding member
  cases finding <;> first | rfl | (cases origin; simp at other)

end Silent

/-! ## The checks in front of the regions -/

section Front

variable {data : Bytes}

/-- All findings of the container hinder reading. -/
theorem silent_fileMagicFindings_iff :
    Silent (fileMagicFindings data) ↔ fileMagicFindings data = [] := by
  unfold fileMagicFindings
  split
  · simp [VhdxIntegrityAnomaly.hindersReading]
  · split <;> simp [VhdxIntegrityAnomaly.hindersReading]

/-- One invalid header copy does not hinder reading. -/
theorem silent_headerCrcFinding (copy : Nat) :
    Silent (headerCrcFinding data copy).toList := by
  intro finding member
  obtain ⟨computed, stored, rfl⟩ :=
    exists_of_crcFinding (Option.mem_toList.mp member)
  rfl

theorem silent_headerPairFindings (h1 h2 : Bytes) :
    Silent (headerPairFindings h1 h2) := by
  unfold headerPairFindings
  dsimp only
  split_ifs <;> simp [VhdxIntegrityAnomaly.hindersReading]

theorem silent_copyReservedFindings (copy : Nat) :
    Silent (copyReservedFindings data copy) := by
  unfold copyReservedFindings headerReservedFindings
  split_ifs <;> simp [VhdxIntegrityAnomaly.hindersReading]

/-- The log pointer is passed over exactly if the log is empty. -/
theorem silent_logPointerFindings_iff {logLength logOffset size : Nat} :
    Silent (logPointerFindings logLength logOffset size) ↔
      logLength = 0 := by
  unfold logPointerFindings
  simp [VhdxIntegrityAnomaly.hindersReading]

/-- Of the active header, only a pending log hinders reading. -/
theorem silent_activeFindings_iff :
    Silent (activeFindings data) ↔
      ∀ header ∈ activeHeader data, header.logLength = 0 := by
  rw [activeFindings, activeHeader]
  cases active : activeHeaderOffset data with
  | none => simp
  | some offset =>
      have present := (activeHeaderOffset_cases active).2.1
      have logLength : leU32 (window data offset headerSize) 68 =
          (headerAt data offset).logLength :=
        leU32_window (by decide) present
      unfold activeHeaderFindings
      dsimp only
      rw [logLength]
      simp [silent_logPointerFindings_iff,
        VhdxIntegrityAnomaly.hindersReading]

/-- There is no active header if both copies are invalid. -/
theorem activeHeader_eq_none_iff :
    activeHeader data = none ↔
      ¬ HeaderValid data header1Offset ∧ ¬ HeaderValid data header2Offset := by
  rw [activeHeader, Option.map_eq_none_iff, activeHeaderOffset]
  split_ifs <;> simp_all

/-- The header checks have nothing to say about reading exactly if a header
is active and has no log. -/
theorem silent_headerFindings_iff :
    Silent (headerFindings data) ↔
      ∃ header, activeHeader data = some header ∧ header.logLength = 0 := by
  have inactive : activeHeader data = none ↔
      (headerCrcFinding data 1).isSome ∧ (headerCrcFinding data 2).isSome := by
    rw [activeHeader_eq_none_iff, Option.isSome_iff_ne_none,
      Option.isSome_iff_ne_none, Ne, Ne, headerCrcFinding_eq_none_iff,
      headerCrcFinding_eq_none_iff]
    rfl
  rw [headerFindings]
  cases active : activeHeader data with
  | none =>
      rw [if_pos (inactive.mp active)]
      simp [VhdxIntegrityAnomaly.hindersReading]
  | some header =>
      rw [if_neg fun both => by cases active.symm.trans (inactive.mpr both)]
      simp only [silent_append, silent_headerCrcFinding,
        silent_copyReservedFindings, silent_headerPairFindings, silent_ite,
        silent_nil, silent_activeFindings_iff, active, Option.mem_some_iff,
        implies_true, true_and]
      simp

/-- Two invalid region tables hinder reading. -/
theorem silent_regionTableFindings_iff :
    Silent (regionTableFindings data) ↔
      RegionTableValid data regionTable1Offset ∨
        RegionTableValid data regionTable2Offset := by
  have reported : .bothRegionTableCopiesInvalid ∈ regionTableFindings data ↔
      .bothRegionTableCopiesInvalid ∈ frontFindings data := by
    refine ⟨fun member => List.mem_append_right _ member, fun member => ?_⟩
    rcases origin_of_mem_frontFindings member with
      ⟨origin, -⟩ | ⟨origin, -⟩ | ⟨origin, -⟩ | ⟨-, reported⟩
    · cases origin
    · cases origin
    · cases origin
    · exact reported
  rw [or_iff_not_and_not, ← bothTablesInvalid_iff, ← reported]
  constructor
  · exact fun silent member => absurd (silent _ member) (by decide)
  · intro missing finding member
    have origin := fromCheck_regionTableFindings data finding member
    cases finding <;> first | rfl | cases origin
    exact absurd member missing

end Front

/-! ## The checks of the regions -/

section Regions

variable {data : Bytes} {r : ParsedRegions}
  {sorting : UnstableSort (Nat × Nat) Prod.fst}

theorem silent_flagFindings : Silent (flagFindings r) := by
  unfold flagFindings
  cases r.physicalSs <;> cases r.vdiskId <;>
    simp [VhdxIntegrityAnomaly.hindersReading]

/-- The places of the items do not hinder reading. -/
theorem silent_itemRangeFindings (metaOffset metaLength : Nat) :
    Silent (itemRangeFindings sorting data metaOffset metaLength) := by
  unfold itemRangeFindings beyondRegion itemOverlap
  dsimp only
  simp [VhdxIntegrityAnomaly.hindersReading]

/-- Blocks of a size that the reader refuses hinder reading. -/
theorem silent_blockSizeFindings_iff {blockSize : Option Nat} :
    Silent (blockSizeFindings blockSize) ↔
      ∃ bs, blockSize = some bs ∧ VhdxMetadata.blockSizeMin ≤ bs ∧
        bs ≤ VhdxMetadata.blockSizeMax ∧ countOnes bs = 1 := by
  have positive : 0 < VhdxMetadata.blockSizeMin := by decide
  cases blockSize with
  | none => simp [blockSizeFindings, VhdxIntegrityAnomaly.hindersReading]
  | some bs =>
      simp only [blockSizeFindings, silent_ite, silent_cons, silent_nil,
        VhdxIntegrityAnomaly.hindersReading, Option.some_inj,
        exists_eq_left']
      constructor
      · rintro ⟨bounds, ones⟩
        have inside : ¬ (bs = 0 ∨ bs < VhdxMetadata.blockSizeMin ∨
            bs > VhdxMetadata.blockSizeMax) := fun outside => by
          simpa using bounds outside
        exact ⟨by omega, by omega, by_contra fun bits => by
          simpa using (ones inside).1 bits⟩
      · rintro ⟨low, high, single⟩
        exact ⟨fun outside => by omega, fun _ =>
          ⟨fun bits => absurd single bits, by simp⟩⟩

/-- So do sectors of a size that the reader refuses. -/
theorem silent_logicalSsFindings_iff {logicalSs : Option Nat} :
    Silent (logicalSsFindings logicalSs) ↔
      logicalSs.getD 512 ∈ VhdxMetadata.validSectorSizes := by
  cases logicalSs with
  | none => simp [logicalSsFindings, VhdxMetadata.validSectorSizes]
  | some ss =>
      simp only [logicalSsFindings, silent_ite, silent_cons, silent_nil,
        VhdxIntegrityAnomaly.hindersReading, VhdxMetadata.validSectorSizes,
        Option.getD_some, List.mem_cons, List.not_mem_nil, or_false]
      constructor
      · intro both
        by_contra other
        simpa using both.1 (not_or.mp other)
      · intro known
        exact ⟨fun other => absurd known (not_or.mpr other), by simp⟩

/-- So does a size of the disk that the reader refuses. -/
theorem silent_vdiskSizeFindings_iff {vdiskSize logicalSs : Option Nat}
    (sectorPos : 0 < logicalSs.getD 512) :
    Silent (vdiskSizeFindings vdiskSize logicalSs) ↔
      ∃ vds, vdiskSize = some vds ∧ vds ≠ 0 ∧
        vds ≤ VhdxMetadata.virtualDiskSizeMax ∧
          vds % logicalSs.getD 512 = 0 := by
  unfold vdiskSizeFindings
  split
  · simp [VhdxIntegrityAnomaly.hindersReading]
  · simp [VhdxIntegrityAnomaly.hindersReading]
  · rename_i vds nonzero
    simp [VhdxIntegrityAnomaly.hindersReading, sectorPos]
    exact fun _ _ => nonzero

/-- The metadata checks have nothing to say about reading exactly if the
parsed state gives a valid description. -/
theorem silent_metadataFindings_iff :
    Silent (metadataFindings sorting data r) ↔
      ∃ metadata, r.metadata = some metadata ∧ metadata.Valid := by
  simp only [metadataFindings, silent_append, silent_flagFindings,
    silent_itemRangeFindings, true_and, silent_blockSizeFindings_iff,
    silent_logicalSsFindings_iff]
  constructor
  · rintro ⟨⟨⟨bs, blockSize, low, high, ones⟩, known⟩, disk⟩
    have sectorPos : 0 < r.logicalSs.getD 512 := by
      rcases List.mem_pair.mp known with small | large <;> omega
    obtain ⟨vds, diskSize, nonempty, small, whole⟩ :=
      (silent_vdiskSizeFindings_iff sectorPos).mp disk
    refine ⟨⟨bs, r.hasParent, vds, r.logicalSs.getD 512⟩, ?_,
      ⟨low, high, ones, known, nonempty, small, whole⟩⟩
    rw [ParsedRegions.metadata, blockSize, diskSize]
    rfl
  · rintro ⟨metadata, complete, valid⟩
    obtain ⟨blockSize, diskSize, -, sectorSize⟩ :=
      ParsedRegions.metadata_eq_some complete
    refine ⟨⟨⟨_, blockSize, valid.blockSizeMin_le, valid.blockSize_le_max,
      valid.oneBit⟩, by rw [sectorSize]; exact valid.sectorSize⟩, ?_⟩
    rw [silent_vdiskSizeFindings_iff (by
      rw [sectorSize]
      exact valid.sectorSize_pos), sectorSize]
    exact ⟨_, diskSize, valid.diskNonempty, valid.disk_le_max,
      valid.wholeSectors⟩

theorem silent_placementFindings {zone : Option (Nat × Nat)}
    (i raw fileOffset : Nat) :
    Silent (placementFindings r zone i raw fileOffset) := by
  unfold placementFindings
  cases structuralZone r zone fileOffset <;>
    simp [VhdxIntegrityAnomaly.hindersReading]

theorem silent_missingFindings (i : Nat) :
    Silent (missingFindings data r i) := by
  unfold missingFindings
  split <;> simp [VhdxIntegrityAnomaly.hindersReading]

/-- Of the states, only the partially present one hinders reading. -/
theorem silent_stateFindings_iff {hasParent : Bool} {i state : Nat} :
    Silent (stateFindings hasParent i state) ↔
      state ≠ Bat.payloadBlockPartiallyPresent := by
  unfold stateFindings
  simp [VhdxIntegrityAnomaly.hindersReading]

/-- So it does in the scan of an entry. -/
theorem silent_entryFindings_iff {zone : Option (Nat × Nat)} {i : Nat} :
    Silent (entryFindings data r zone i) ↔
      (¬ BitmapSlot r i → Bat.stateOf (entryAt data r i) ≠
        Bat.payloadBlockPartiallyPresent) := by
  unfold entryFindings blockFindings
  dsimp only
  by_cases slot : BitmapSlot r i
  · rw [if_pos slot]
    simp [slot, VhdxIntegrityAnomaly.hindersReading]
  rw [if_neg slot]
  by_cases mapped : Bat.stateOf (entryAt data r i) =
      Bat.payloadBlockFullyPresent
  · rw [if_pos mapped, mapped]
    simp only [silent_append, silent_placementFindings, silent_ite,
      silent_missingFindings, silent_cons, silent_nil,
      VhdxIntegrityAnomaly.hindersReading, implies_true, true_and]
    exact iff_of_true trivial fun _ => by decide
  · rw [if_neg mapped, silent_stateFindings_iff]
    exact ⟨fun other _ => other, fun other => other slot⟩

theorem silent_sizeFindings (entryCount : Nat) :
    Silent (sizeFindings r entryCount) := by
  unfold sizeFindings
  split <;> simp [VhdxIntegrityAnomaly.hindersReading]

theorem silent_overlapFindings (present : List (Nat × Nat)) :
    Silent (overlapFindings present) := by
  unfold overlapFindings overlapOf
  simp [VhdxIntegrityAnomaly.hindersReading]

/-- A disk that is larger than its table hinders reading. -/
theorem silent_coverageFindings_iff {metadata : VhdxMetadata}
    (describes : r.Describes metadata) (present : List (Nat × Nat))
    (entryCount : Nat) :
    Silent (coverageFindings r present entryCount) ↔
      metadata.virtualDiskSize ≤
        countedBlocks entryCount metadata.chunkRatioOf *
          metadata.blockSize := by
  have blockPos := describes.valid.blockSize_pos
  rw [coverageFindings, describes.blockSize_eq, describes.vdiskSize_eq,
    describes.chunkRatio_eq]
  dsimp only
  rw [if_neg (by omega)]
  unfold underFindings overFindings
  simp [VhdxIntegrityAnomaly.hindersReading]

/-- The table checks have nothing to say about reading exactly if the blocks
they count hold the disk and none of them is partially present. -/
theorem silent_batFindings_iff {metadata : VhdxMetadata}
    (describes : r.Describes metadata) (checked : TableChecked data r) :
    Silent (batFindings sorting data r) ↔
      (∀ i < entryCountOf r, ¬ BitmapSlot r i →
        Bat.stateOf (entryAt data r i) ≠
          Bat.payloadBlockPartiallyPresent) ∧
        metadata.virtualDiskSize ≤
          countedBlocks (entryCountOf r) metadata.chunkRatioOf *
            metadata.blockSize := by
  rw [batFindings, if_pos checked]
  simp only [silent_append, silent_sizeFindings, silent_overlapFindings,
    silent_coverageFindings_iff describes, scanFindings, silent_flatMap,
    silent_entryFindings_iff, List.mem_range, true_and, and_true]

/-- Nothing behind the table does. -/
theorem silent_tailFindings : Silent (tailFindings data r) := by
  unfold tailFindings
  split
  · exact silent_nil
  · split
    · exact (fromCheck_trailingFindings data r _).silent (by decide)
    · exact silent_nil

end Regions

/-! ## The whole analysis -/

section Analysis

variable {data : Bytes} {orders : SortOrders}

/-- An analysis that has nothing to say about reading found the container
readable, and so did each of its checks. -/
theorem silent_auditFindings_iff :
    Silent (auditFindings orders data) ↔
      fileMagicFindings data = [] ∧ Silent (headerFindings data) ∧
        Silent (regionTableFindings data) ∧
        ∀ r ∈ parsedRegions data,
          Silent (metadataFindings orders.items data r) ∧
            Silent (batFindings orders.blocks data r) := by
  have identifier := (fromCheck_identifierFindings data).silent (by decide)
  have gaps := (fromCheck_interRegionFindings data).silent (by decide)
  have layout := (fromCheck_layoutFindings data).silent (by decide)
  have log := (fromCheck_logFindings data).silent (by decide)
  have front : Silent (frontFindings data) ↔
      Silent (headerFindings data) ∧ Silent (regionTableFindings data) := by
    simp only [frontFindings, silent_append, identifier, gaps, true_and]
  rw [auditFindings]
  by_cases magic : fileMagicFindings data = []
  case neg =>
    rw [if_pos magic, silent_fileMagicFindings_iff]
    simp [magic]
  rw [if_neg (not_not_intro magic)]
  by_cases both : .bothRegionTableCopiesInvalid ∈ frontFindings data
  · obtain ⟨invalid1, invalid2⟩ := bothTablesInvalid_iff.mp both
    rw [if_pos both, front, parsedRegions_eq_none invalid1 invalid2]
    simp [magic]
  · rw [if_neg both, deepFindings]
    simp only [silent_append, front, layout, silent_ite, log, silent_nil,
      implies_true, and_true, magic, true_and, and_assoc]
    refine and_congr_right fun _ => and_congr_right fun _ => ?_
    cases parsedRegions data with
    | none => simp [regionFindings]
    | some r =>
        simp [regionFindings, silent_tailFindings]

end Analysis

/-! ## Opening -/

/-- Items that were found make a description. -/
theorem MetadataItems.resolve_eq_ok {items : MetadataItems}
    {metadata : VhdxMetadata}
    (blockSize : items.blockSize = some metadata.blockSize)
    (diskSize : items.virtualDiskSize = some metadata.virtualDiskSize)
    (hasParent : items.hasParent = metadata.hasParent)
    (sectorSize : items.logicalSectorSize.getD 512 =
      metadata.logicalSectorSize) : items.resolve = .ok metadata := by
  rw [resolve, blockSize, diskSize, hasParent, sectorSize]
  rfl

section Opening

variable {data : Bytes} {r : ParsedRegions} {metadata : VhdxMetadata}
  {attached : Bool}

/-- A description that the analysis found in a bounded image is decoded. -/
theorem Bounded.decodes (bounded : Bounded data)
    (large : VhdxReader.minContainerSize ≤ data.length)
    (allocated : data.length ≤ isizeMax)
    (parsed : parsedRegions data = some r) (describes : r.Describes metadata)
    (parent : metadata.hasParent = true → attached = true) :
    ∃ regions, Decodes data attached regions metadata := by
  have region := bounded.metadata r parsed
  rw [parsedRegions_eq_map data] at parsed
  rcases bounded.tables.decodeRegions_cases large allocated with
    ⟨regions, decoded, ranges⟩ | ⟨e, -, unused⟩
  case inr =>
    rw [unused] at parsed
    cases parsed
  rw [ranges, Option.map_some] at parsed
  obtain rfl := Option.some.inj parsed
  obtain ⟨blockSize, diskSize, hasParent, sectorSize⟩ :=
    ParsedRegions.metadata_eq_some describes.metadata_eq
  have inside := (decodeRegions_inside large allocated decoded).2
  have contentLength := length_content inside
  -- Without a readable region there would be no block size.
  have readable : regions.metadata.fileOffset + regions.metadata.length ≤
        data.length ∧ 8 ≤ regions.metadata.length ∧
      window (regions.metadata.content data) 0 8 =
        metadataTableSignature := by
    by_contra unreadable
    have nothing : parsedItems data regions.metadata.fileOffset
        regions.metadata.length = {} := if_neg unreadable
    have missing : (parsedItems data regions.metadata.fileOffset
        regions.metadata.length).blockSize = some metadata.blockSize :=
      blockSize
    rw [nothing] at missing
    cases missing
  obtain ⟨-, long, signed⟩ := readable
  have same : SameItems (metadataItems (regions.metadata.content data))
      (parsedItems data regions.metadata.fileOffset
        regions.metadata.length) :=
    region.sameItems inside long signed
  refine ⟨regions, decoded, ?_, describes.valid, parent⟩
  unfold RegionEntry.Inside at inside
  rw [parseMetadata_eq (by omega), if_neg (by omega),
    if_neg (not_not_intro signed)]
  exact MetadataItems.resolve_eq_ok (same.blockSize_eq.symm.trans blockSize)
    (same.vdiskSize_eq.symm.trans diskSize)
    (same.hasParent_eq.symm.trans hasParent)
    ((congrArg (Option.getD · 512) same.logicalSs_eq).symm.trans sectorSize)

end Opening

/-! ## Reading -/

/-- The block of an entry has a defined state, and what a byte of it is read
from exists. -/
structure EntryBacked (data : Bytes) (bat : Bat) (owner : Nat → Option UInt8)
    (entry virtualByte : Nat) : Prop where
  /-- The state is none of the reserved ones. -/
  defined : Bat.stateOf entry ≠ 4 ∧ Bat.stateOf entry ≠ 5
  /-- A byte of a mapped block lies in the container. -/
  inside : Bat.stateOf entry = Bat.payloadBlockFullyPresent →
    bat.byteOffset entry virtualByte < data.length
  /-- A byte of an absent block has an owner. -/
  owned : Bat.stateOf entry = Bat.payloadBlockNotPresent →
    (owner virtualByte).isSome = true

/-- A byte of a block that is not partially present has a value exactly if it
is backed. -/
theorem isSome_entryByte_iff {data : Bytes} {bat : Bat}
    {owner : Nat → Option UInt8} {entry virtualByte : Nat}
    (allocated : data.length ≤ isizeMax)
    (whole : Bat.stateOf entry ≠ Bat.payloadBlockPartiallyPresent) :
    (entryByte data bat owner entry virtualByte).isSome = true ↔
      EntryBacked data bat owner entry virtualByte := by
  have word : isizeMax < wordCount := by decide
  have stateLt : Bat.stateOf entry < 8 := Nat.mod_lt _ (by decide)
  unfold Bat.payloadBlockPartiallyPresent at whole
  have backed : EntryBacked data bat owner entry virtualByte ↔
      (Bat.stateOf entry ≠ 4 ∧ Bat.stateOf entry ≠ 5) ∧
        (Bat.stateOf entry = 6 →
          bat.byteOffset entry virtualByte < data.length) ∧
        (Bat.stateOf entry = 0 → (owner virtualByte).isSome = true) :=
    ⟨fun ⟨defined, inside, owned⟩ => ⟨defined, inside, owned⟩,
      fun ⟨defined, inside, owned⟩ => ⟨defined, inside, owned⟩⟩
  rw [backed]
  unfold entryByte Bat.payloadBlockNotPresent Bat.payloadBlockUndefined
    Bat.payloadBlockZero Bat.payloadBlockUnmapped
    Bat.payloadBlockFullyPresent Bat.payloadBlockPartiallyPresent
  dsimp only
  generalize Bat.stateOf entry = state at *
  by_cases absent : state = 0
  · simp [absent]
  by_cases zeros : state = 1 ∨ state = 2 ∨ state = 3
  · rw [if_neg absent, if_pos zeros]
    simp only [Option.isSome_some, true_iff]
    omega
  by_cases mapped : state = 6
  · subst mapped
    rw [if_neg (by decide), if_neg (by decide), if_neg (by decide)]
    by_cases inside : bat.byteOffset entry virtualByte < data.length
    · rw [if_pos (by omega), if_pos rfl, List.getElem?_eq_getElem inside]
      simp [inside]
    · rw [List.getElem?_eq_none (by omega)]
      simp [inside]
  · rw [if_neg absent, if_neg zeros, if_pos (by omega)]
    simp only [Option.isSome_none, Bool.false_eq_true, false_iff]
    omega

/-- Every byte of the disk has a payload entry, unless the blocks that the
table check counts are too few. -/
theorem countedBlocks_holds {metadata : VhdxMetadata} (valid : metadata.Valid)
    {entries virtualByte : Nat}
    (covered : metadata.virtualDiskSize ≤
      countedBlocks entries metadata.chunkRatioOf * metadata.blockSize)
    (inside : virtualByte < metadata.virtualDiskSize) :
    metadata.payloadIndex (virtualByte / metadata.blockSize) < entries := by
  have counted : countedBlocks entries metadata.chunkRatioOf ≤
      payloadSlots entries metadata.chunkRatioOf := by
    rw [countedBlocks_eq]
    split <;> omega
  have scaled := Nat.mul_le_mul_right metadata.blockSize counted
  by_contra missing
  have lacks : LacksEntry metadata entries :=
    ⟨virtualByte, inside, Nat.le_of_not_lt missing⟩
  have beyond := (lacksEntry_iff valid entries).mp lacks
  omega

/-- Every byte of the disk whose entry, if there is one, is not partially
present is backed exactly if it has a value. -/
theorem isSome_referenceByte_iff {data : Bytes} {bat : Bat}
    {owner : Nat → Option UInt8} {virtualByte : Nat}
    (allocated : data.length ≤ isizeMax)
    (whole : ∃ entry, bat.payloadEntry virtualByte = some entry ∧
      Bat.stateOf entry ≠ Bat.payloadBlockPartiallyPresent) :
    (referenceByte data bat owner virtualByte).isSome = true ↔
      ∀ entry ∈ bat.payloadEntry virtualByte,
        EntryBacked data bat owner entry virtualByte := by
  obtain ⟨entry, found, complete⟩ := whole
  rw [referenceByte, found]
  dsimp only
  rw [isSome_entryByte_iff allocated complete]
  simp

/-- A bounded image about which nothing that bears on reading is reported
opens, and a read is answered exactly if all of its bytes are backed. -/
theorem silent_report_serves {depth : Nat} (image : Buffer)
    {parent : Option (Parent depth)}
    (parents : ∀ device ∈ parent, Parent.Opened depth device)
    (large : VhdxReader.minContainerSize ≤ image.bytes.length)
    (bounded : Bounded image.bytes) {r : ParsedRegions}
    (parsed : parseRegions image.bytes = .ok r)
    (checked : TableChecked image.bytes r)
    (attached : r.hasParent = true → parent.isSome = true)
    {orders : SortOrders} {found : Findings}
    (analysed : analyse orders image.bytes = .ok found)
    (silent : Silent found) :
    ∃ reader, VhdxReader.fromBytes image.bytes parent = .ok reader ∧
      ∀ offset count,
        (∃ bytes, ((VhdxSource.new reader).readAt offset count).1 =
            .ok bytes) ↔
          ∀ virtualByte, offset ≤ virtualByte →
            virtualByte < offset + count →
            virtualByte < reader.metadata.virtualDiskSize →
            ∀ entry ∈ reader.bat.payloadEntry virtualByte,
              EntryBacked image.bytes reader.bat
                (parentByte (parent.map PresentsDisk.disk)) entry
                virtualByte := by
  have allocated := image.allocated
  rw [parseRegions_eq allocated, okOr_eq_ok] at parsed
  obtain rfl := Except.ok.inj (analysed.symm.trans (analyse_eq_ok allocated
    ((settles_analyse_iff allocated).mp (.of_eq_ok analysed))))
  obtain ⟨readable, headers, -, regionsSilent⟩ :=
    silent_auditFindings_iff.mp silent
  obtain ⟨header, active, emptyLog⟩ := silent_headerFindings_iff.mp headers
  obtain ⟨metadataSilent, batSilent⟩ := regionsSilent r parsed
  obtain ⟨metadata, complete, valid⟩ :=
    silent_metadataFindings_iff.mp metadataSilent
  have describes : r.Describes metadata :=
    ⟨parsedRegions_sound parsed, complete, valid⟩
  obtain ⟨whole, covered⟩ := (silent_batFindings_iff describes checked).mp
    batSilent
  obtain ⟨regions, decodes⟩ : ∃ regions,
      Decodes image.bytes true regions metadata :=
    bounded.decodes large allocated parsed describes fun _ => rfl
  obtain ⟨r', parsed', audits⟩ := bounded.audits large allocated decodes
  obtain rfl := Option.some.inj (parsed.symm.trans parsed')
  have decodesTo : VhdxReader.DecodesTo image.bytes image.bytes metadata
      { entries := Bat.entriesOf (regions.bat.content image.bytes)
        metadata } :=
    ⟨VhdxReader.openGate_eq_ok_iff.mpr ⟨magic_of_readable readable, large⟩,
      apply_of_clean allocated active (Or.inl emptyLog),
      decodeImage_eq_ok_iff.mpr ⟨regions, decodes, rfl⟩⟩
  have opened : VhdxReader.fromBytes image.bytes parent = _ :=
    decodesTo.fromBytes_eq allocated (describes.hasParent_eq ▸ attached)
  refine ⟨_, opened, fun offset count => ?_⟩
  have sound := VhdxReader.OpenedOver.sound (Parent.Opened.sound depth)
    (.fromBytes image parent parents opened)
  have answers := fun bytes =>
    @VhdxSource.readAt_eq_ok_iff _ _ sound offset count bytes
  simp only [answers, VhdxReader.disk_plainReader]
  rw [ReferenceDisk.exists_read_iff]
  refine forall_congr' fun virtualByte => forall_congr' fun _ =>
    forall_congr' fun _ => forall_congr' fun inside => ?_
  refine isSome_referenceByte_iff allocated ?_
  -- The entry is that of a payload slot of the table.
  have indexLt := countedBlocks_holds valid covered inside
  have entryFound : Bat.payloadEntry
      { entries := Bat.entriesOf (regions.bat.content image.bytes), metadata }
      virtualByte = some (entryAt image.bytes r (metadata.payloadIndex
        (virtualByte / metadata.blockSize))) := by
    rw [Bat.payloadEntry, getElem?_entriesOf_content audits.bat_eq
      (decodeRegions_inside large allocated decodes.regions_eq).1,
      if_pos indexLt]
  exact ⟨_, entryFound, whole _ indexLt
    (not_bitmapSlot_payloadIndex describes _)⟩

/-- A mapped block and a table with room for a second one. -/
def mappedEntries : List Nat := [0x400006, 0]

theorem mapped_fits : StandardFits (blockItems 0x100000 0x100000)
    mappedEntries [(0x400000, [7])] :=
  ⟨blockItems_fit (by decide) (by decide), show 2 ≤ 0x20000 by decide,
    List.pairwise_singleton _ _, by
      intro piece member
      rw [List.mem_singleton.mp member]
      decide⟩

/-- The table of the container is checked. -/
theorem tableChecked_mapped {image : AuditedImage}
    (standard : image.IsStandard (blockItems 0x100000 0x100000) mappedEntries
      [(0x400000, [7])]) : TableChecked image.bytes image.regions := by
  refine ⟨image.inside, ?_⟩
  rw [standard.regions_eq]
  exact show 8 ≤ 2 * 8 by decide

/-- The report on the image has nothing to say about reading. -/
theorem silent_mapped {image : AuditedImage}
    (standard : image.IsStandard (blockItems 0x100000 0x100000) mappedEntries
      [(0x400000, [7])]) (described : image.metadata = oneBlockDisk)
    (orders : SortOrders) : Silent (auditFindings orders image.bytes) := by
  have fits := mapped_fits
  have planFits := standardPlan_fits fits
  have entryCount : entryCountOf image.regions = 2 := standard.entryCount_eq
  rw [silent_auditFindings_iff, silent_headerFindings_iff,
    silent_regionTableFindings_iff, image.parsedRegions_eq]
  refine ⟨?_, ?_, Or.inl ?_, ?_⟩
  · rw [standard.bytes_eq]
    exact fileMagicFindings_standardPlan fits
  · obtain ⟨header, active⟩ : ∃ header,
        activeHeader image.bytes = some header := by
      rw [standard.bytes_eq]
      exact planFits.activeHeader.elim (⟨_, ·⟩) (⟨_, ·⟩)
    exact ⟨header, active, standard.logLength_eq fits active⟩
  · rw [standard.bytes_eq]
    exact planFits.holds_table1.1
  · rintro r ⟨⟩
    rw [silent_metadataFindings_iff,
      silent_batFindings_iff image.describes (tableChecked_mapped standard),
      entryCount, described]
    refine ⟨⟨_, image.describes.metadata_eq, image.describes.valid⟩, ?_,
      by decide⟩
    intro i iLt _
    have small : ∀ entry ∈ mappedEntries, entry < 2 ^ 64 := by decide
    have whole : ∀ entry ∈ mappedEntries,
        Bat.stateOf entry ≠ Bat.payloadBlockPartiallyPresent := by decide
    have stored : mappedEntries[i]? = some mappedEntries[i] :=
      List.getElem?_eq_getElem iLt
    rw [standard.entryAt_eq fits small stored]
    exact whole _ (List.getElem_mem iLt)

/-- The image opens, and each of its bytes can be read. -/
theorem silent_report_serves_mapped :
    ∃ (image : Buffer) (reader : VhdxReader (Parent 0)),
      image.bytes = (standardPlan (blockItems 0x100000 0x100000)
          mappedEntries [(0x400000, [7])]).container ∧
        VhdxReader.fromBytes image.bytes none = .ok reader ∧
        ∀ offset count,
          (∃ bytes, ((VhdxSource.new reader).readAt offset count).1 =
              .ok bytes) ↔
            ∀ virtualByte, offset ≤ virtualByte →
              virtualByte < offset + count →
              virtualByte < reader.metadata.virtualDiskSize →
              ∀ entry ∈ reader.bat.payloadEntry virtualByte,
                EntryBacked image.bytes reader.bat
                  (parentByte ((none : Option (Parent 0)).map
                    PresentsDisk.disk)) entry virtualByte := by
  have fits := mapped_fits
  obtain ⟨image, standard, described⟩ := @exists_standardImage _ _ _
    oneBlockDisk fits blockItems_short rfl rfl
  have bounded := bounded_standardPlan fits blockItems_short blockItems_current
  rw [← standard.bytes_eq] at bounded
  have size := standard.length_eq
  have attached : image.regions.hasParent = true →
      (none : Option (Parent 0)).isSome = true := by
    rw [standard.regions_eq]
    exact fun differencing => by cases differencing
  have parsed : parseRegions image.bytes = .ok image.regions := by
    rw [parseRegions_eq image.allocated, image.parsedRegions_eq]
    rfl
  have noParents : ∀ device ∈ (none : Option (Parent 0)),
      Parent.Opened 0 device := by
    rintro device ⟨⟩
  obtain ⟨_, completed⟩ := image.repair_completes stableOrders
  have analysisFits := (fits_of_settles image.allocated
    (.of_eq_ok completed)).1
  obtain ⟨reader, opened, answers⟩ := silent_report_serves image.toBuffer
    noParents (show VhdxReader.minContainerSize ≤ image.bytes.length by
      rw [size]
      decide) bounded parsed (tableChecked_mapped standard) attached
    (analyse_eq_ok image.allocated analysisFits)
    (silent_mapped standard described stableOrders)
  exact ⟨image.toBuffer, reader, standard.bytes_eq, opened, answers⟩

end VhdxForensic
