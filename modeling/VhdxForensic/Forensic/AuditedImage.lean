import VhdxForensic.Core.Opening
import VhdxForensic.Forensic.TableSize

/-!
# Images with a readable table

The checks of the table say something about the disk when the table lies
inside the image and the metadata next to it is valid. For such images the
findings are sorted by what they are about.
-/

namespace VhdxForensic

open Rust Rust.Bytes Rust.Exec

/-! ## Kinds of findings -/

namespace VhdxIntegrityAnomaly

/-- Findings of the scan about one entry. -/
def aboutEntry : VhdxIntegrityAnomaly → Bool
  | batEntryInStructuralRegion .. | missingSectorBitmap ..
  | undefinedBlockState .. | unmappedBlockInNonDifferencing ..
  | batEntryBeyondContainer .. | batEntryUnaligned ..
  | partiallyPresentBlock .. | sectorBitmapInvalidState .. => true
  | _ => false

/-- Findings about the size of the table. -/
def aboutTable : VhdxIntegrityAnomaly → Bool
  | batSizeMetadataMismatch .. | virtualDiskSizeOverreported .. => true
  | _ => false

end VhdxIntegrityAnomaly

section Members

variable {sorting : UnstableSort (Nat × Nat) Prod.fst} {data : Bytes}
  {r : ParsedRegions} {finding : VhdxIntegrityAnomaly}

theorem aboutEntry_of_mem_stateFindings {hasParent : Bool} {i state : Nat}
    (member : finding ∈ stateFindings hasParent i state) :
    finding.aboutEntry = true := by
  unfold stateFindings at member
  split at member
  · cases List.mem_singleton.mp member
    rfl
  split at member
  · cases List.mem_singleton.mp member
    rfl
  split at member
  · cases List.mem_singleton.mp member
    rfl
  · cases member

theorem aboutEntry_of_mem_placementFindings {zone : Option (Nat × Nat)}
    {i raw fileOffset : Nat}
    (member : finding ∈ placementFindings r zone i raw fileOffset) :
    finding.aboutEntry = true := by
  rcases List.mem_append.mp member with unaligned | structural
  · split at unaligned
    · cases List.mem_singleton.mp unaligned
      rfl
    · cases unaligned
  · split at structural
    · cases List.mem_singleton.mp structural
      rfl
    · cases structural

theorem aboutEntry_of_mem_missingFindings {i : Nat}
    (member : finding ∈ missingFindings data r i) :
    finding.aboutEntry = true := by
  unfold missingFindings at member
  split at member
  · cases member
  · dsimp only at member
    split at member
    · cases List.mem_singleton.mp member
      rfl
    · cases member

/-- The scan of an entry reports about an entry. -/
theorem aboutEntry_of_mem_entryFindings {zone : Option (Nat × Nat)} {i : Nat}
    (member : finding ∈ entryFindings data r zone i) :
    finding.aboutEntry = true := by
  unfold entryFindings at member
  dsimp only at member
  split at member
  · split at member
    · cases List.mem_singleton.mp member
      rfl
    · cases member
  split at member
  · rcases List.mem_append.mp member with placed | rest
    · exact aboutEntry_of_mem_placementFindings placed
    split at rest
    · exact aboutEntry_of_mem_missingFindings rest
    · cases List.mem_singleton.mp rest
      rfl
  · exact aboutEntry_of_mem_stateFindings member

/-- The scan of the table reports about entries. -/
theorem aboutEntry_of_mem_scanFindings
    (member : finding ∈ scanFindings data r) :
    finding.aboutEntry = true := by
  obtain ⟨i, -, found⟩ := List.mem_flatMap.mp member
  exact aboutEntry_of_mem_entryFindings found

/-- An overlap is reported for neighbours with one offset. -/
theorem mem_overlapFindings {present : List (Nat × Nat)} :
    finding ∈ overlapFindings present ↔
      ∃ w ∈ present.zip present.tail, w.1.1 = w.2.1 ∧
        finding = .batEntriesOverlap w.1.2 w.2.2 (w.1.1 * mb) := by
  unfold overlapFindings overlapOf
  rw [List.mem_flatMap]
  refine exists_congr fun w => and_congr_right fun _ => ?_
  split <;> simp_all

/-- The size check reports about the table. -/
theorem aboutTable_of_mem_sizeFindings {entryCount : Nat}
    (member : finding ∈ sizeFindings r entryCount) :
    finding.aboutTable = true := by
  unfold sizeFindings at member
  split at member
  · split at member
    · cases List.mem_singleton.mp member
      rfl
    · cases member
  · cases member

/-- A disk is reported as too small if a present block ends behind it. -/
theorem mem_underFindings {declaredVds : Nat} {present : List (Nat × Nat)} :
    finding ∈ underFindings declaredVds present ↔
      (∃ placed ∈ present, declaredVds < (placed.1 + 1) * mb) ∧
        finding = .virtualDiskSizeUnderreported declaredVds
          ((furthest present + 1) * mb) := by
  rw [← lt_furthest_iff]
  unfold underFindings
  split <;> simp_all

/-- The capacity check reports about the table. -/
theorem aboutTable_of_mem_overFindings {bs declaredVds entryCount : Nat}
    {chunkRatio : Option Nat}
    (member : finding ∈ overFindings bs declaredVds entryCount chunkRatio) :
    finding.aboutTable = true := by
  unfold overFindings at member
  split at member
  · cases member
  · split at member
    · cases List.mem_singleton.mp member
      rfl
    · cases member

end Members

/-! ## The images -/

/-- An image whose table lies inside it and whose metadata is valid. -/
structure AuditedImage extends Buffer where
  /-- What the analyser has decoded. -/
  regions : ParsedRegions
  /-- It is the result of parsing the bytes. -/
  parsed : parseRegions bytes = .ok regions
  /-- The table lies in the image. -/
  inside : regions.batOffset + regions.batLength ≤ bytes.length
  /-- The description in it. -/
  metadata : VhdxMetadata
  /-- No item of the description is missing. -/
  complete : regions.metadata = some metadata
  /-- The reader accepts the description. -/
  accepted : metadata.validate = .ok ()

namespace AuditedImage

variable (image : AuditedImage)
  (sorting : UnstableSort (Nat × Nat) Prod.fst)

theorem valid : image.metadata.Valid :=
  VhdxMetadata.validate_eq_ok_iff.mp image.accepted

/-- The regions of the image are the parsed ones. -/
theorem parsedRegions_eq : parsedRegions image.bytes = some image.regions :=
  okOr_eq_ok.mp ((parseRegions_eq image.allocated).symm.trans image.parsed)

/-- They describe the disk that the reader decodes. -/
theorem describes : image.regions.Describes image.metadata where
  sound := parsedRegions_sound image.parsedRegions_eq
  metadata_eq := image.complete
  valid := image.valid

/-- Number of entries of the table. -/
def entryCount : Nat := entryCountOf image.regions

/-- Where the block of an entry starts. -/
def start (i : Nat) : Nat := blockStart image.bytes image.regions i

/-- The payload entry at `i` maps a whole block. -/
def FullyPresentAt (i : Nat) : Prop :=
  i < image.entryCount ∧ FullyPresent image.bytes image.regions i

/-- The payload entry at `i` is recorded as present. -/
def RecordedAt (i : Nat) : Prop :=
  image.FullyPresentAt i ∧ image.start i < image.bytes.length

theorem bitmapSlot_iff {i : Nat} :
    BitmapSlot image.regions i ↔
      i % (image.metadata.chunkRatioOf + 1) = image.metadata.chunkRatioOf :=
  VhdxForensic.bitmapSlot_iff image.describes.chunkRatio_eq

/-- The findings about the table. -/
def findings : Findings :=
  batFindings sorting image.bytes image.regions

/-- The check of the table meets no machine limit. -/
theorem checkBat_eq :
    checkBat sorting image.bytes = .ok (image.findings sorting) := by
  rw [checkBat, image.parsed, attempt_ok, ok_bind]
  exact checkBatInner_eq image.allocated image.describes.sound
    fun _ => arithmeticFits_of_describes image.describes

/-- A run of the check is judged by the findings. -/
theorem exists_checkBat_iff {judged : Findings → Prop} :
    (∃ findings, checkBat sorting image.bytes = .ok findings ∧
      judged findings) ↔ judged (image.findings sorting) := by
  rw [image.checkBat_eq]
  simp

/-- The blocks in the order in which they lie in the container. -/
def sortedBlocks : List (Nat × Nat) :=
  sorting.run (presentEntries image.bytes image.regions)

theorem mem_sortedBlocks {placed : Nat × Nat} :
    placed ∈ image.sortedBlocks sorting ↔
      image.RecordedAt placed.2 ∧ placed.1 * mb = image.start placed.2 := by
  rw [sortedBlocks, sorting.mem_run, mem_presentEntries]
  unfold RecordedAt FullyPresentAt Recorded entryCount start
  tauto

/-- A table that is too short for the checks has no entries. -/
theorem entryCount_eq_zero
    (unchecked : ¬ TableChecked image.bytes image.regions) :
    image.entryCount = 0 := by
  have inside := image.inside
  unfold TableChecked at unchecked
  unfold entryCount entryCountOf
  omega

theorem sortedBlocks_eq_nil
    (unchecked : ¬ TableChecked image.bytes image.regions) :
    image.sortedBlocks sorting = [] := by
  apply List.eq_nil_iff_forall_not_mem.mpr
  intro placed member
  have empty := image.entryCount_eq_zero unchecked
  have recorded := ((image.mem_sortedBlocks sorting).mp member).1
  have := recorded.1.1
  omega

theorem scanFindings_eq_nil
    (unchecked : ¬ TableChecked image.bytes image.regions) :
    scanFindings image.bytes image.regions = [] := by
  have empty := image.entryCount_eq_zero unchecked
  rw [entryCount] at empty
  rw [scanFindings, empty]
  rfl

/-- Findings that the size of the table does not lead to come from its
entries, from neighbours or from the furthest block. -/
theorem mem_findings {finding : VhdxIntegrityAnomaly}
    (contents : finding.aboutTable = false) :
    finding ∈ image.findings sorting ↔
      finding ∈ scanFindings image.bytes image.regions ∨
        finding ∈ overlapFindings (image.sortedBlocks sorting) ∨
          finding ∈ underFindings image.metadata.virtualDiskSize
            (image.sortedBlocks sorting) := by
  have notSize : finding ∉ sizeFindings image.regions
      (entryCountOf image.regions) := fun member => by
    simp [aboutTable_of_mem_sizeFindings member] at contents
  have notOver : finding ∉ overFindings image.metadata.blockSize
      image.metadata.virtualDiskSize (entryCountOf image.regions)
        image.regions.chunkRatio := fun member => by
    simp [aboutTable_of_mem_overFindings member] at contents
  have blockPos := image.valid.blockSize_pos
  have coverage : coverageFindings image.regions
      (image.sortedBlocks sorting) (entryCountOf image.regions) =
        underFindings image.metadata.virtualDiskSize
            (image.sortedBlocks sorting) ++
          overFindings image.metadata.blockSize
            image.metadata.virtualDiskSize (entryCountOf image.regions)
            image.regions.chunkRatio := by
    rw [coverageFindings, image.describes.blockSize_eq,
      image.describes.vdiskSize_eq]
    exact if_neg (by omega)
  unfold findings batFindings
  by_cases checked : TableChecked image.bytes image.regions
  · rw [if_pos checked]
    change finding ∈ _ ++ (_ ++ overlapFindings (image.sortedBlocks sorting)) ++
      coverageFindings image.regions (image.sortedBlocks sorting) _ ↔ _
    rw [coverage]
    simp only [List.mem_append]
    tauto
  · rw [if_neg checked, image.scanFindings_eq_nil checked,
      image.sortedBlocks_eq_nil sorting checked]
    simp [overlapFindings, underFindings]

/-! ## Standard containers -/

/-- The image is a standard container. -/
structure IsStandard (items : List StoredItem) (bat : List Nat)
    (extra : List Run) : Prop where
  /-- The bytes are a standard container. -/
  bytes_eq : image.bytes = (standardPlan items bat extra).container
  /-- The analyser has decoded its parts. -/
  regions_eq : image.regions = standardRegionsAt items bat.length

end AuditedImage

theorem exists_auditedImage {data : Bytes} {regions : ParsedRegions}
    {metadata : VhdxMetadata} (allocated : data.length ≤ isizeMax)
    (parsed : parseRegions data = .ok regions)
    (inside : regions.batOffset + regions.batLength ≤ data.length)
    (complete : regions.metadata = some metadata)
    (accepted : metadata.validate = .ok ()) :
    ∃ image : AuditedImage, image.bytes = data ∧ image.regions = regions ∧
      image.metadata = metadata :=
  ⟨{ bytes := data, allocated, regions, parsed, inside, metadata, complete,
     accepted }, rfl, rfl, rfl⟩

section Standard

variable {items : List StoredItem} {bat : List Nat} {extra : List Run}

/-- A standard container with valid metadata is such an image. -/
theorem exists_standardImage {metadata : VhdxMetadata}
    (fits : StandardFits items bat extra)
    (short : ∀ item ∈ items, item.guid ≠ guidVirtualDiskId)
    (complete : (standardRegionsAt items bat.length).metadata =
      some metadata)
    (accepted : metadata.validate = .ok ()) :
    ∃ image : AuditedImage,
      image.IsStandard items bat extra ∧ image.metadata = metadata := by
  have batLe := fits.bat_le
  have size : (standardPlan items bat extra).container.length = 0x600000 :=
    (standardPlan items bat extra).length_container
  have allocated : (standardPlan items bat extra).container.length ≤
      isizeMax := by
    rw [size]
    decide
  have parsed : parseRegions (standardPlan items bat extra).container =
      .ok (standardRegionsAt items bat.length) := by
    rw [parseRegions_eq allocated, parsedRegions_standardPlan fits short]
    rfl
  have inside : (standardRegionsAt items bat.length).batOffset +
      (standardRegionsAt items bat.length).batLength ≤
        (standardPlan items bat extra).container.length := by
    rw [size]
    change 0x300000 + bat.length * 8 ≤ 0x600000
    omega
  obtain ⟨image, bytesEq, regionsEq, metadataEq⟩ :=
    exists_auditedImage allocated parsed inside complete accepted
  exact ⟨image, ⟨bytesEq, regionsEq⟩, metadataEq⟩

namespace AuditedImage.IsStandard

variable {image : AuditedImage}

theorem length_eq (standard : image.IsStandard items bat extra) :
    image.bytes.length = 0x600000 := by
  rw [standard.bytes_eq]
  exact (standardPlan items bat extra).length_container

/-- The table has as many entries as were laid out. -/
theorem entryCount_eq (standard : image.IsStandard items bat extra) :
    image.entryCount = bat.length := by
  rw [entryCount, entryCountOf, standard.regions_eq]
  exact Nat.mul_div_cancel _ (by norm_num)

/-- The table of a standard container holds its entries. -/
theorem entryAt_eq (standard : image.IsStandard items bat extra)
    (fits : StandardFits items bat extra)
    (entriesLt : ∀ entry ∈ bat, entry < 2 ^ 64) {i entry : Nat}
    (stored : bat[i]? = some entry) :
    entryAt image.bytes image.regions i = entry := by
  have batLe := fits.bat_le
  have iLt := (List.getElem?_eq_some_iff.mp stored).1
  have held := (standardPlan_fits fits).holds_region
    (show (0x300000, encodeBat bat) ∈
      (standardPlan items bat extra).regions by simp [standardPlan])
  have size := standard.length_eq
  rw [length_encodeBat, ← standard.bytes_eq] at held
  have decoded := Bat.getElem?_entriesOf (encodeBat bat) i
  rw [entriesOf_encodeBat entriesLt, stored, length_encodeBat,
    Nat.mul_div_cancel _ (by norm_num), if_pos iLt, Option.some_inj]
    at decoded
  rw [entryAt, standard.regions_eq]
  change leU64 image.bytes (0x300000 + i * 8) = entry
  rw [decoded, ← held, leU64_window (by omega) (by omega)]

section Entries

variable {i entry : Nat}

/-- A block starts where its entry says. -/
theorem start_eq (standard : image.IsStandard items bat extra)
    (fits : StandardFits items bat extra)
    (entriesLt : ∀ entry ∈ bat, entry < 2 ^ 64)
    (stored : bat[i]? = some entry) :
    image.start i = Bat.offsetOf entry := by
  rw [start, blockStart, standard.entryAt_eq fits entriesLt stored]

/-- A mapped entry in front of the first bitmap is a present block. -/
theorem fullyPresentAt (standard : image.IsStandard items bat extra)
    (fits : StandardFits items bat extra)
    (entriesLt : ∀ entry ∈ bat, entry < 2 ^ 64)
    (stored : bat[i]? = some entry)
    (payload : i < image.metadata.chunkRatioOf)
    (mapped : Bat.stateOf entry = Bat.payloadBlockFullyPresent) :
    image.FullyPresentAt i := by
  refine ⟨?_, ?_, ?_⟩
  · rw [standard.entryCount_eq]
    exact (List.getElem?_eq_some_iff.mp stored).1
  · rw [image.bitmapSlot_iff, Nat.mod_eq_of_lt (by omega)]
    omega
  · rw [standard.entryAt_eq fits entriesLt stored]
    exact mapped

end Entries

/-- A standard container has no log. -/
theorem logLength_eq (standard : image.IsStandard items bat extra)
    (fits : StandardFits items bat extra) {header : VhdxHeader}
    (active : activeHeader image.bytes = some header) :
    header.logLength = 0 := by
  rw [standard.bytes_eq] at active
  rcases (standardPlan_fits fits).activeHeader with first | second
  · rw [first] at active
    cases active
    rfl
  · rw [second] at active
    cases active
    rfl

end AuditedImage.IsStandard

end Standard

/-- Items of a disk with blocks of `blockSize` bytes. -/
def blockItems (blockSize diskSize : Nat) : List StoredItem :=
  [{ guid := guidFileParameters, length := 8, value := blockSize },
    { guid := guidVirtualDiskSize, length := 8, value := diskSize }]

/-- The description of that disk. -/
def blockDisk (blockSize diskSize : Nat) : VhdxMetadata where
  blockSize := blockSize
  hasParent := false
  virtualDiskSize := diskSize
  logicalSectorSize := 512

theorem blockItems_fit {blockSize diskSize : Nat}
    (blockSizeLt : blockSize < 2 ^ 64) (diskSizeLt : diskSize < 2 ^ 64) :
    MetadataFits (blockItems blockSize diskSize) where
  encodable := by
    intro item member
    rcases List.mem_pair.mp member with rfl | rfl
    · exact ⟨rfl, le_rfl, blockSizeLt⟩
    · exact ⟨rfl, le_rfl, diskSizeLt⟩
  count_le := show 2 ≤ 256 by decide

/-- None of the items is the GUID of the disk. -/
theorem blockItems_short {blockSize diskSize : Nat} :
    ∀ item ∈ blockItems blockSize diskSize,
      item.guid ≠ guidVirtualDiskId := by
  intro item member
  rcases List.mem_pair.mp member with rfl | rfl
  · exact show guidFileParameters ≠ guidVirtualDiskId by decide
  · exact show guidVirtualDiskSize ≠ guidVirtualDiskId by decide

end VhdxForensic
