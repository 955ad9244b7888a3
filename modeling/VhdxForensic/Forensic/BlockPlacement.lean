import VhdxForensic.Forensic.AuditedImage

/-!
# Findings about the placement of blocks

Three findings judge where the mapped blocks lie in the container: beyond the
disk size, on top of each other and on structural regions. For every image
with a readable table the conditions are derived under which these findings
are exact.
-/

namespace VhdxForensic

open Rust Rust.Bytes Rust.Exec

namespace AuditedImage

variable (image : AuditedImage)
  (sorting : UnstableSort (Nat × Nat) Prod.fst)

/-! ## Blocks beyond the disk -/

/-- Some finding says that the disk is declared too small. -/
def ReportsUnderreported (findings : Findings) : Prop :=
  ∃ declared batCoverage,
    .virtualDiskSizeUnderreported declared batCoverage ∈ findings

/-- The block of the disk that the entry at `i` belongs to. -/
def blockOf (i : Nat) : Nat := i - i / (image.metadata.chunkRatioOf + 1)

/-- Some recorded block lies wholly at or beyond the end of the disk. -/
def MapsBeyondDisk : Prop :=
  ∃ i, image.RecordedAt i ∧
    image.metadata.virtualDiskSize ≤
      image.blockOf i * image.metadata.blockSize

/-- Some recorded block is placed so that one MiB from its start on ends
behind the container offset that equals the disk size. -/
def PlacedBeyondDisk : Prop :=
  ∃ i, image.RecordedAt i ∧
    image.metadata.virtualDiskSize < image.start i + mb

/-- A recorded entry is listed with its offset in MiB. -/
theorem recorded_mem_sortedBlocks {i : Nat} (recorded : image.RecordedAt i) :
    (entryAt image.bytes image.regions i / 2 ^ 20, i) ∈
      image.sortedBlocks sorting :=
  (image.mem_sortedBlocks sorting).mpr ⟨recorded, rfl⟩

/-- The finding is about places in the container. -/
theorem reportsUnderreported_iff :
    ReportsUnderreported (image.findings sorting) ↔
      image.PlacedBeyondDisk := by
  constructor
  · rintro ⟨declared, batCoverage, member⟩
    rcases (image.mem_findings sorting rfl).mp member with
      scanned | overlapping | under
    · cases aboutEntry_of_mem_scanFindings scanned
    · obtain ⟨w, -, -, same⟩ := mem_overlapFindings.mp overlapping
      cases same
    · obtain ⟨⟨placed, found, beyond⟩, -⟩ := mem_underFindings.mp under
      obtain ⟨recorded, starts⟩ := (image.mem_sortedBlocks sorting).mp found
      rw [Nat.add_mul, starts, Nat.one_mul] at beyond
      exact ⟨placed.2, recorded, beyond⟩
  · rintro ⟨i, recorded, beyond⟩
    refine ⟨_, _, (image.mem_findings sorting rfl).mpr (Or.inr (Or.inr
      (mem_underFindings.mpr ⟨?_, rfl⟩)))⟩
    refine ⟨_, image.recorded_mem_sortedBlocks sorting recorded, ?_⟩
    rw [Nat.add_mul, Nat.one_mul]
    exact beyond

/-- The finding is exact when the places of the blocks in the container and
on the disk agree about the end of the disk. -/
theorem underreported_exact_iff :
    (∃ findings, checkBat sorting image.bytes = .ok findings ∧
        (ReportsUnderreported findings ↔ image.MapsBeyondDisk)) ↔
      (image.PlacedBeyondDisk ↔ image.MapsBeyondDisk) := by
  rw [image.exists_checkBat_iff sorting, image.reportsUnderreported_iff]

/-- A disk of one block of 1 MiB at 5 MiB is reported as declared too
small. -/
theorem oneBlock_underreported :
    ∃ image : AuditedImage,
      image.IsStandard (blockItems 0x100000 0x100000) [0x500006] [] ∧
        (∀ order, ∃ findings, checkBat order image.bytes = .ok findings ∧
          ReportsUnderreported findings) ∧
        ¬ image.MapsBeyondDisk := by
  have fits : StandardFits (blockItems 0x100000 0x100000) [0x500006] [] := {
    items_fit := blockItems_fit (by decide) (by decide)
    bat_le := by decide
    extra_apart := List.Pairwise.nil
    extra_place := by simp }
  have entriesLt : ∀ entry ∈ [0x500006], entry < 2 ^ 64 := by decide
  have stored : [0x500006][0]? = some 0x500006 := rfl
  have complete : (standardRegionsAt (blockItems 0x100000 0x100000) 1).metadata
      = some (blockDisk 0x100000 0x100000) := rfl
  obtain ⟨image, standard, metadataEq⟩ :=
    exists_standardImage fits blockItems_short complete rfl
  have count := standard.entryCount_eq
  have size := standard.length_eq
  have start := standard.start_eq fits entriesLt stored
  have mapped := standard.fullyPresentAt fits entriesLt stored
    (by rw [metadataEq]; decide) (by decide)
  refine ⟨image, standard, fun order => ?_, ?_⟩
  · rw [image.exists_checkBat_iff order, image.reportsUnderreported_iff]
    refine ⟨0, ⟨mapped, ?_⟩, ?_⟩
    · rw [start, size]
      decide
    · rw [start, metadataEq]
      decide
  · rintro ⟨i, recorded, beyond⟩
    have iLt := recorded.1.1
    rw [count] at iLt
    have first : i = 0 := by simpa using iLt
    rw [first, metadataEq] at beyond
    exact absurd beyond (by rw [blockOf, metadataEq]; decide)

/-! ## Blocks on top of each other -/

/-- Some finding says that two entries share an offset. -/
def ReportsOverlap (findings : Findings) : Prop :=
  ∃ indexA indexB sharedOffset,
    .batEntriesOverlap indexA indexB sharedOffset ∈ findings

/-- A container byte lies in the blocks of both entries. -/
def SharesByte (i j : Nat) : Prop :=
  ∃ byte < image.bytes.length,
    (image.start i ≤ byte ∧ byte < image.start i + image.metadata.blockSize) ∧
      image.start j ≤ byte ∧ byte < image.start j + image.metadata.blockSize

/-- Two recorded entries share a container byte. -/
def BlocksOverlap : Prop :=
  ∃ i j, i ≠ j ∧ image.RecordedAt i ∧ image.RecordedAt j ∧
    image.SharesByte i j

/-- Two recorded entries name one offset. -/
def OffsetsRepeat : Prop :=
  ∃ i j, i ≠ j ∧ image.RecordedAt i ∧ image.RecordedAt j ∧
    image.start i = image.start j

/-- The offsets of recorded entries are at least a block apart. -/
def BlocksApart : Prop :=
  ∀ i j, i ≠ j → image.RecordedAt i → image.RecordedAt j →
    image.start i + image.metadata.blockSize ≤ image.start j ∨
      image.start j + image.metadata.blockSize ≤ image.start i

/-- Two blocks share a byte of the container unless they are apart. -/
theorem sharesByte_iff {i j : Nat} (first : image.RecordedAt i)
    (second : image.RecordedAt j) :
    image.SharesByte i j ↔
      image.start i < image.start j + image.metadata.blockSize ∧
        image.start j < image.start i + image.metadata.blockSize := by
  constructor
  · rintro ⟨byte, -, ⟨lower, upper⟩, lower', upper'⟩
    omega
  · rintro ⟨before, after⟩
    have := first.2
    have := second.2
    refine ⟨max (image.start i) (image.start j), ?_, ⟨?_, ?_⟩, ?_, ?_⟩
      <;> omega

theorem blocksApart_iff : image.BlocksApart ↔ ¬ image.BlocksOverlap := by
  constructor
  · rintro apart ⟨i, j, differ, first, second, shared⟩
    have := (image.sharesByte_iff first second).mp shared
    have := apart i j differ first second
    omega
  · intro disjoint i j differ first second
    by_contra close
    refine disjoint ⟨i, j, differ, first, second, ?_⟩
    rw [image.sharesByte_iff first second]
    omega

theorem offsetsRepeat_overlap (repeated : image.OffsetsRepeat) :
    image.BlocksOverlap := by
  obtain ⟨i, j, differ, first, second, same⟩ := repeated
  have blockPos := image.valid.blockSize_pos
  refine ⟨i, j, differ, first, second, ?_⟩
  rw [image.sharesByte_iff first second]
  omega

theorem nodup_sortedBlocks : (image.sortedBlocks sorting).Nodup := by
  rw [sortedBlocks, (sorting.perm _).nodup_iff]
  refine List.Nodup.filterMap ?_ List.nodup_range
  intro i j placed left right
  have first := (presentEntry_eq_some.mp left).2
  have second := (presentEntry_eq_some.mp right).2
  rw [← second] at first
  exact congrArg Prod.snd first

/-- An offset is repeated exactly if the sorted offsets are not distinct. -/
theorem offsetsRepeat_iff :
    image.OffsetsRepeat ↔
      ¬ ((image.sortedBlocks sorting).map Prod.fst).Nodup := by
  rw [List.nodup_map_iff_inj_on (image.nodup_sortedBlocks sorting)]
  constructor
  · rintro ⟨i, j, differ, first, second, same⟩ distinct
    have equal := distinct _ (image.recorded_mem_sortedBlocks sorting first)
      _ (image.recorded_mem_sortedBlocks sorting second)
      (Nat.eq_of_mul_eq_mul_right mb_pos same)
    exact differ (congrArg Prod.snd equal)
  · intro repeated
    push Not at repeated
    obtain ⟨a, aMember, b, bMember, same, differ⟩ := repeated
    obtain ⟨first, aStarts⟩ := (image.mem_sortedBlocks sorting).mp aMember
    obtain ⟨second, bStarts⟩ := (image.mem_sortedBlocks sorting).mp bMember
    refine ⟨a.2, b.2, fun index => differ (Prod.ext same index), first,
      second, ?_⟩
    rw [← aStarts, ← bStarts, same]

/-- Neighbours of the sorted list reveal every repeated offset. -/
theorem reportsOverlap_iff :
    ReportsOverlap (image.findings sorting) ↔ image.OffsetsRepeat := by
  have neighbours : _ ↔ _ := nodup_map_key_iff (sorting.ordered
    (presentEntries image.bytes image.regions))
  rw [image.offsetsRepeat_iff sorting, sortedBlocks, neighbours]
  push Not
  constructor
  · rintro ⟨indexA, indexB, sharedOffset, member⟩
    rcases (image.mem_findings sorting rfl).mp member with
      scanned | overlapping | under
    · cases aboutEntry_of_mem_scanFindings scanned
    · obtain ⟨w, neighbour, same, -⟩ := mem_overlapFindings.mp overlapping
      exact ⟨w, neighbour, same⟩
    · cases (mem_underFindings.mp under).2
  · rintro ⟨w, neighbour, same⟩
    exact ⟨_, _, _, (image.mem_findings sorting rfl).mpr (Or.inr (Or.inl
      (mem_overlapFindings.mpr ⟨w, neighbour, same, rfl⟩)))⟩

/-- The finding is exact when an offset is repeated or no two blocks
overlap. -/
theorem overlap_exact_iff :
    (∃ findings, checkBat sorting image.bytes = .ok findings ∧
        (ReportsOverlap findings ↔ image.BlocksOverlap)) ↔
      image.OffsetsRepeat ∨ image.BlocksApart := by
  rw [image.exists_checkBat_iff sorting, image.reportsOverlap_iff,
    image.blocksApart_iff]
  have := image.offsetsRepeat_overlap
  tauto

/-- Two blocks of 2 MiB at 4 MiB and 5 MiB overlap unnoticed. -/
theorem shiftedBlocks_unreported :
    ∃ image : AuditedImage,
      image.IsStandard (blockItems 0x200000 0x400000) [0x400006, 0x500006]
          [] ∧
        (∀ order, ∃ findings, checkBat order image.bytes = .ok findings ∧
          ¬ ReportsOverlap findings) ∧
        image.BlocksOverlap := by
  have fits : StandardFits (blockItems 0x200000 0x400000)
      [0x400006, 0x500006] [] := {
    items_fit := blockItems_fit (by decide) (by decide)
    bat_le := by decide
    extra_apart := List.Pairwise.nil
    extra_place := by simp }
  have entriesLt : ∀ entry ∈ [0x400006, 0x500006], entry < 2 ^ 64 := by
    decide
  have stored0 : [0x400006, 0x500006][0]? = some 0x400006 := rfl
  have stored1 : [0x400006, 0x500006][1]? = some 0x500006 := rfl
  have complete : (standardRegionsAt (blockItems 0x200000 0x400000) 2).metadata
      = some (blockDisk 0x200000 0x400000) := rfl
  obtain ⟨image, standard, metadataEq⟩ :=
    exists_standardImage fits blockItems_short complete rfl
  have count := standard.entryCount_eq
  have size := standard.length_eq
  have start0 := standard.start_eq fits entriesLt stored0
  have start1 := standard.start_eq fits entriesLt stored1
  have recorded0 : image.RecordedAt 0 :=
    ⟨standard.fullyPresentAt fits entriesLt stored0
      (by rw [metadataEq]; decide) (by decide),
      by rw [start0, size]; decide⟩
  have recorded1 : image.RecordedAt 1 :=
    ⟨standard.fullyPresentAt fits entriesLt stored1
      (by rw [metadataEq]; decide) (by decide),
      by rw [start1, size]; decide⟩
  refine ⟨image, standard, fun order => ?_, ?_⟩
  · rw [image.exists_checkBat_iff order, image.reportsOverlap_iff]
    rintro ⟨i, j, differ, first, second, same⟩
    have iLt := first.1.1
    have jLt := second.1.1
    rw [count] at iLt jLt
    change i < 2 at iLt
    change j < 2 at jLt
    -- The two entries are the only ones, and their offsets differ.
    have apart : image.start 0 ≠ image.start 1 := by
      rw [start0, start1]
      decide
    interval_cases i <;> interval_cases j
    · exact differ rfl
    · exact apart same
    · exact apart same.symm
    · exact differ rfl
  · refine ⟨0, 1, by decide, recorded0, recorded1, ?_⟩
    rw [image.sharesByte_iff recorded0 recorded1, start0, start1, metadataEq]
    decide

/-! ## Blocks on structural regions -/

/-- Some finding says that a block starts in a structural region. -/
def ReportsStructural (findings : Findings) : Prop :=
  ∃ batIndex fileOffset collidesWith,
    .batEntryInStructuralRegion batIndex fileOffset collidesWith ∈ findings

/-- The metadata region and the log of the active header, as start and
length. -/
def placedRegions : List (Nat × Nat) :=
  (image.regions.metaOffset, image.regions.metaLength) ::
    ((activeHeader image.bytes).map fun header =>
      (header.logOffset, header.logLength)).toList

/-- A container offset lies in the fixed slots, the metadata region or the
log. -/
def StructuralByte (byte : Nat) : Prop :=
  byte < 0x50000 ∨
    ∃ region ∈ image.placedRegions,
      region.1 ≤ byte ∧ byte < region.1 + region.2

/-- A mapped block makes no structural byte readable. -/
def BlocksOffStructure : Prop :=
  ∀ i, image.FullyPresentAt i → ∀ byte < image.bytes.length,
    image.start i ≤ byte →
      byte < image.start i + image.metadata.blockSize →
        ¬ image.StructuralByte byte

/-- A mapped block starts in a structural region. -/
def StartsInStructure : Prop :=
  ∃ i, image.FullyPresentAt i ∧ image.StructuralByte (image.start i)

/-- No mapped block that starts below the metadata region or the log reaches
the first byte of that region. -/
def BlocksEndBelowRegions : Prop :=
  ∀ i, image.FullyPresentAt i → ∀ region ∈ image.placedRegions,
    0 < region.2 → region.1 < image.bytes.length →
      image.start i < region.1 →
        image.start i + image.metadata.blockSize ≤ region.1

theorem start_lt (i : Nat) : image.start i < wordCount - 1 := by
  have entryLt := entryAt_lt image.bytes image.regions i
  have whole : image.start i % mb = 0 := Nat.mul_mod_left _ _
  have atMost : image.start i ≤ entryAt image.bytes image.regions i :=
    Bat.offsetOf_le _
  unfold mb at whole
  unfold wordCount
  omega

theorem lt_saturatingAdd_iff {a b c : Nat} (small : c < wordCount - 1) :
    c < saturatingAdd a b ↔ c < a + b := by
  unfold saturatingAdd
  omega

/-- The log zone of the scan is the log of the active header. -/
theorem any_logZoneOf_iff {data : Bytes} {fo : Nat}
    (small : fo < wordCount - 1) :
    (logZoneOf data).any (fun log => decide (log.1 ≤ fo ∧ fo < log.2)) =
        true ↔
      ∃ region ∈ ((activeHeader data).map fun header =>
          (header.logOffset, header.logLength)).toList,
        region.1 ≤ fo ∧ fo < region.1 + region.2 := by
  rw [logZoneOf]
  cases activeHeader data with
  | none => simp
  | some header =>
      have ends := @lt_saturatingAdd_iff header.logOffset header.logLength fo
        small
      rw [Option.bind_some]
      by_cases nonempty : header.logLength > 0
      · rw [if_pos nonempty]
        simp [ends]
      · rw [if_neg nonempty]
        simp only [Option.any_none, Option.map_some, Option.toList_some,
          List.mem_singleton, exists_eq_left]
        exact iff_of_false Bool.false_ne_true (by omega)

/-- The zones of the scan are the structural bytes. -/
theorem structuralZone_ne_none_iff {fo : Nat} (small : fo < wordCount - 1) :
    structuralZone image.regions (logZoneOf image.bytes) fo ≠ none ↔
      image.StructuralByte fo := by
  have metadataEnd := @lt_saturatingAdd_iff image.regions.metaOffset
    image.regions.metaLength fo small
  have log := @any_logZoneOf_iff image.bytes fo small
  unfold StructuralByte placedRegions
  rw [List.exists_mem_cons_iff, ← log, ← metadataEnd, structuralZone]
  by_cases fixed : fo < 0x50000
  · refine iff_of_true ?_ (Or.inl fixed)
    split_ifs <;> exact Option.some_ne_none _
  rw [if_neg (by omega), if_neg (by omega), if_neg (by omega),
    if_neg (by omega), if_neg fixed, or_iff_right fixed]
  split_ifs with inMetadata inLog
  · exact iff_of_true (Option.some_ne_none _) (Or.inl inMetadata)
  · exact iff_of_true (Option.some_ne_none _) (Or.inr inLog)
  · exact iff_of_false (not_not_intro rfl) fun zone =>
      zone.elim inMetadata inLog

/-- The scan reports the mapped blocks that start in a zone. -/
theorem exists_structural_entryFinding_iff {data : Bytes} {r : ParsedRegions}
    {zone : Option (Nat × Nat)} {i : Nat} :
    (∃ batIndex fileOffset collidesWith,
      .batEntryInStructuralRegion batIndex fileOffset collidesWith ∈
        entryFindings data r zone i) ↔
      FullyPresent data r i ∧
        structuralZone r zone (blockStart data r i) ≠ none := by
  constructor
  · rintro ⟨batIndex, fileOffset, collidesWith, member⟩
    unfold entryFindings at member
    dsimp only at member
    by_cases slot : BitmapSlot r i
    · rw [if_pos slot] at member
      split at member <;> simp at member
    rw [if_neg slot] at member
    by_cases mapped : Bat.stateOf (entryAt data r i) =
        Bat.payloadBlockFullyPresent
    case neg =>
      rw [if_neg mapped, stateFindings] at member
      split_ifs at member <;> simp at member
    rw [if_pos mapped] at member
    refine ⟨⟨slot, mapped⟩, ?_⟩
    rcases List.mem_append.mp member with placed | rest
    · rcases List.mem_append.mp placed with unaligned | structural
      · split at unaligned <;> simp at unaligned
      · split at structural
        · rename_i name found
          rw [found]
          exact Option.some_ne_none name
        · cases structural
    · split at rest
      · unfold missingFindings at rest
        split at rest
        · cases rest
        · dsimp only at rest
          split at rest <;> simp at rest
      · simp at rest
  · rintro ⟨⟨slot, mapped⟩, zoned⟩
    obtain ⟨name, found⟩ := Option.ne_none_iff_exists'.mp zoned
    refine ⟨i, blockStart data r i, name, ?_⟩
    unfold entryFindings
    dsimp only
    rw [if_neg slot, if_pos mapped]
    refine List.mem_append_left _ (List.mem_append_right _ ?_)
    rw [found]
    exact List.mem_cons_self

/-- The finding is about the starts of the mapped blocks. -/
theorem reportsStructural_iff :
    ReportsStructural (image.findings sorting) ↔ image.StartsInStructure := by
  constructor
  · rintro ⟨batIndex, fileOffset, collidesWith, member⟩
    rcases (image.mem_findings sorting rfl).mp member with
      scanned | overlapping | under
    · obtain ⟨i, iRange, found⟩ := List.mem_flatMap.mp scanned
      obtain ⟨mapped, zoned⟩ :=
        exists_structural_entryFinding_iff.mp ⟨_, _, _, found⟩
      exact ⟨i, ⟨List.mem_range.mp iRange, mapped⟩,
        (image.structuralZone_ne_none_iff (image.start_lt i)).mp zoned⟩
    · obtain ⟨w, -, -, same⟩ := mem_overlapFindings.mp overlapping
      cases same
    · cases (mem_underFindings.mp under).2
  · rintro ⟨i, ⟨iLt, mapped⟩, zone⟩
    have zoned :=
      (image.structuralZone_ne_none_iff (image.start_lt i)).mpr zone
    obtain ⟨batIndex, fileOffset, collidesWith, found⟩ :=
      exists_structural_entryFinding_iff.mpr ⟨mapped, zoned⟩
    exact ⟨batIndex, fileOffset, collidesWith,
      (image.mem_findings sorting rfl).mpr (Or.inl
        (List.mem_flatMap.mpr ⟨i, List.mem_range.mpr iLt, found⟩))⟩

/-- A mapped block that starts off the structural regions reaches one of them
only across its first byte. -/
theorem blocksOffStructure_iff (starts : ¬ image.StartsInStructure) :
    image.BlocksOffStructure ↔ image.BlocksEndBelowRegions := by
  constructor
  · intro off i mapped region member nonempty inside below
    by_contra reaches
    exact off i mapped region.1 inside (by omega) (by omega)
      (Or.inr ⟨region, member, by omega, by omega⟩)
  · intro ends i mapped byte inside lower upper structural
    have startOff : ¬ image.StructuralByte (image.start i) := fun zone =>
      starts ⟨i, mapped, zone⟩
    unfold StructuralByte at startOff
    push Not at startOff
    obtain ⟨aboveSlots, offRegions⟩ := startOff
    rcases structural with slots | ⟨region, member, first, last⟩
    · omega
    · have startRegion := offRegions region member
      have := ends i mapped region member (by omega) (by omega) (by omega)
      omega

/-- No report means that no structural byte is readable, when a block starts
in a structural region or none reaches one from below. -/
theorem structural_exact_iff :
    (∃ findings, checkBat sorting image.bytes = .ok findings ∧
        (¬ ReportsStructural findings → image.BlocksOffStructure)) ↔
      image.StartsInStructure ∨ image.BlocksEndBelowRegions := by
  rw [image.exists_checkBat_iff sorting, image.reportsStructural_iff]
  have condition := image.blocksOffStructure_iff
  tauto

/-- A block of 2 MiB at 1 MiB covers the metadata region unnoticed. -/
theorem coveredMetadata_unreported :
    ∃ image : AuditedImage,
      image.IsStandard (blockItems 0x200000 0x200000) [0x100006] [] ∧
        (∀ order, ∃ findings, checkBat order image.bytes = .ok findings ∧
          ¬ ReportsStructural findings) ∧
        ¬ image.BlocksOffStructure := by
  have fits : StandardFits (blockItems 0x200000 0x200000) [0x100006] [] := {
    items_fit := blockItems_fit (by decide) (by decide)
    bat_le := by decide
    extra_apart := List.Pairwise.nil
    extra_place := by simp }
  have entriesLt : ∀ entry ∈ [0x100006], entry < 2 ^ 64 := by decide
  have stored : [0x100006][0]? = some 0x100006 := rfl
  have complete : (standardRegionsAt (blockItems 0x200000 0x200000) 1).metadata
      = some (blockDisk 0x200000 0x200000) := rfl
  obtain ⟨image, standard, metadataEq⟩ :=
    exists_standardImage fits blockItems_short complete rfl
  have count := standard.entryCount_eq
  have size := standard.length_eq
  have start : image.start 0 = 0x100000 :=
    standard.start_eq fits entriesLt stored
  have mapped := standard.fullyPresentAt fits entriesLt stored
    (by rw [metadataEq]; decide) (by decide)
  have metaOffset : image.regions.metaOffset = 0x200000 := by
    rw [standard.regions_eq]
    rfl
  have metaLength : image.regions.metaLength = 0x100000 := by
    rw [standard.regions_eq]
    rfl
  refine ⟨image, standard, fun order => ?_, fun off => ?_⟩
  · rw [image.exists_checkBat_iff order, image.reportsStructural_iff]
    rintro ⟨i, ⟨iLt, -⟩, structural⟩
    rw [count] at iLt
    have first : i = 0 := by simpa using iLt
    rw [first, start] at structural
    rcases structural with slots | ⟨region, member, lower, upper⟩
    · omega
    rcases List.mem_cons.mp member with rfl | log
    · rw [metaOffset] at lower
      omega
    · rw [Option.mem_toList, Option.map_eq_some_iff] at log
      obtain ⟨header, active, rfl⟩ := log
      have empty := standard.logLength_eq fits active
      omega
  · refine off 0 mapped 0x200000 (by rw [size]; decide)
      (by rw [start]; decide) (by rw [start, metadataEq]; decide)
      (Or.inr ⟨_, List.mem_cons_self, ?_, ?_⟩)
    · rw [metaOffset]
    · rw [metaOffset, metaLength]
      decide

end AuditedImage

end VhdxForensic
