import VhdxForensic.Forensic.GhostData
import VhdxForensic.Forensic.LogChecks
import VhdxForensic.Forensic.MetadataChecks
import VhdxForensic.Forensic.RegionLayout

/-!
# Where findings come from

Every kind of finding is reported by one check only, so a finding of a run
over all checks can be traced back to the check it comes from.
-/

namespace VhdxForensic

open Rust Rust.Bytes Rust.Exec

/-- The checks of the analyser. -/
inductive Check where
  | container
  | identifier
  | gaps
  | headers
  | tables
  | layout
  | log
  | metadata
  | bat
  | trailing
  | ghost
  deriving DecidableEq, Repr

namespace VhdxIntegrityAnomaly

/-- The check that reports findings of this kind, if there is one. -/
@[simp] def origin : VhdxIntegrityAnomaly → Option Check
  | badMagic .. | containerTruncated .. => some .container
  | fileIdentifierReservedNonZero .. => some .identifier
  | interRegionGapNonZero .. => some .gaps
  | headerChecksumMismatch .. | bothHeaderCopiesInvalid
  | sequenceNumbersIdentical .. | bothSequenceNumbersZero
  | headerCopyMismatch .. | fileWriteGuidAllZeros | dataWriteGuidAllZeros
  | logGuidWithNoLog .. | logGuidAllZerosWithDirtyLog ..
  | logVersionInvalid .. | versionInvalid .. | logOffsetMisaligned ..
  | logLengthMisaligned .. | logBeyondContainer .. | logInReservedZone ..
  | sequenceNumberGapLarge .. | dirtyLog ..
  | headerReservedNonZero .. => some .headers
  | regionTableChecksumMismatch .. | bothRegionTableCopiesInvalid
  | regionTableCopyMismatch .. => some .tables
  | regionMisaligned .. | regionBeyondContainer .. | regionsOverlap ..
  | logOverlapsStructuralRegion .. | unknownRequiredRegion ..
  | regionTableReservedNonZero .. | regionEntryCountZero .. => some .layout
  | logZeroedButDirty .. | logEntrySignatureMissing ..
  | logEntryCrcMismatch .. | logEntryGuidMismatch ..
  | logSequenceNumberGap .. => some .log
  | metadataMissing .. | blockSizeInvalid .. | logicalSectorSizeInvalid ..
  | virtualDiskSizeInvalid .. | differencingDisk
  | physicalSectorSizeInvalid .. | virtualDiskIdAllZeros
  | metadataItemsOverlap .. | metadataItemBeyondRegion ..
  | leaveBlocksAllocatedSet | missingParentLocator => some .metadata
  | batSizeMetadataMismatch .. | batEntryInStructuralRegion ..
  | missingSectorBitmap .. | undefinedBlockState ..
  | unmappedBlockInNonDifferencing .. | batEntryBeyondContainer ..
  | batEntryUnaligned .. | batEntriesOverlap .. | partiallyPresentBlock ..
  | sectorBitmapInvalidState .. | virtualDiskSizeUnderreported ..
  | virtualDiskSizeOverreported .. => some .bat
  | trailingData .. => some .trailing
  | ghostDataInAbsentBlock .. => some .ghost
  | creatorStringAnomalous .. => none

/-- Only three checks lead to repairs. -/
theorem origin_of_repairable {finding : VhdxIntegrityAnomaly}
    (repaired : finding.repairable = true) :
    finding.origin = some .headers ∨ finding.origin = some .tables ∨
      finding.origin = some .bat := by
  cases finding <;> simp_all [repairable]

end VhdxIntegrityAnomaly

/-- All findings come from one check. -/
def FromCheck (check : Check) (findings : Findings) : Prop :=
  ∀ finding ∈ findings, finding.origin = some check

section FromCheck

variable {check : Check} {findings : Findings}
  {finding : VhdxIntegrityAnomaly}

@[simp] theorem fromCheck_nil : FromCheck check [] := by
  simp [FromCheck]

@[simp] theorem fromCheck_cons :
    FromCheck check (finding :: findings) ↔
      finding.origin = some check ∧ FromCheck check findings := by
  simp [FromCheck]

@[simp] theorem fromCheck_append {more : Findings} :
    FromCheck check (findings ++ more) ↔
      FromCheck check findings ∧ FromCheck check more := by
  simp [FromCheck, or_imp, forall_and]

@[simp] theorem fromCheck_ite_iff {condition : Prop} [Decidable condition]
    {more : Findings} :
    FromCheck check (if condition then findings else more) ↔
      (condition → FromCheck check findings) ∧
        (¬ condition → FromCheck check more) := by
  by_cases holds : condition
  · rw [if_pos holds]
    exact ⟨fun yes => ⟨fun _ => yes, fun no => absurd holds no⟩,
      fun both => both.1 holds⟩
  · rw [if_neg holds]
    exact ⟨fun no => ⟨fun yes => absurd yes holds, fun _ => no⟩,
      fun both => both.2 holds⟩

theorem fromCheck_ite {condition : Prop} [Decidable condition]
    {more : Findings} (yes : FromCheck check findings)
    (no : FromCheck check more) :
    FromCheck check (if condition then findings else more) := by
  split <;> assumption

theorem fromCheck_flatMap {α : Type} {items : List α} {batch : α → Findings}
    (batches : ∀ item ∈ items, FromCheck check (batch item)) :
    FromCheck check (items.flatMap batch) := by
  intro finding member
  obtain ⟨item, found, inBatch⟩ := List.mem_flatMap.mp member
  exact batches item found finding inBatch

/-- A single finding that depends on a condition. -/
theorem fromCheck_singleton_ite {condition : Prop}
    [Decidable condition] (known : finding.origin = some check) :
    FromCheck check (if condition then [finding] else []) :=
  fromCheck_ite (by simpa using known) fromCheck_nil

end FromCheck

/-! ## The checks -/

section Checks

open VhdxIntegrityAnomaly

variable (data : Bytes)

/-- The check of the container reports about the container. -/
theorem fromCheck_fileMagicFindings :
    FromCheck .container (fileMagicFindings data) := by
  unfold fileMagicFindings
  split
  · simp
  · split <;> simp

theorem fromCheck_identifierFindings :
    FromCheck .identifier (identifierFindings data) := by
  unfold identifierFindings reservedFindings
  split
  · exact fromCheck_nil
  · split <;> simp

/-- The check of the gaps reports about gaps. -/
theorem fromCheck_interRegionFindings :
    FromCheck .gaps (interRegionFindings data) := by
  have inGaps : ∀ gaps, FromCheck .gaps (presentGaps data gaps) := by
    intro gaps
    induction gaps with
    | nil => exact fromCheck_nil
    | cons gap gaps inductionHypothesis =>
        unfold presentGaps
        split
        · exact fromCheck_nil
        · split
          · simpa using inductionHypothesis
          · exact inductionHypothesis
  exact fromCheck_ite fromCheck_nil (inGaps fixedGaps)

theorem fromCheck_headerCrcFinding (copy : Nat) :
    FromCheck .headers (headerCrcFinding data copy).toList := by
  intro finding member
  obtain ⟨computed, stored, rfl⟩ :=
    exists_of_crcFinding (Option.mem_toList.mp member)
  rfl

theorem fromCheck_headerPairFindings (h1 h2 : Bytes) :
    FromCheck .headers (headerPairFindings h1 h2) := by
  unfold headerPairFindings
  dsimp only
  rw [fromCheck_append, fromCheck_append]
  refine ⟨⟨?_, fromCheck_singleton_ite rfl⟩, fromCheck_singleton_ite rfl⟩
  split
  · simp
  · split
    · simp
    · exact fromCheck_singleton_ite rfl

theorem fromCheck_copyReservedFindings (copy : Nat) :
    FromCheck .headers (copyReservedFindings data copy) :=
  fromCheck_ite (fromCheck_singleton_ite rfl) fromCheck_nil

theorem fromCheck_activeFindings :
    FromCheck .headers (activeFindings data) := by
  have pointer : ∀ logLength logOffset containerSize, FromCheck .headers
      (logPointerFindings logLength logOffset containerSize) := by
    intro logLength logOffset containerSize
    apply fromCheck_ite _ fromCheck_nil
    simp
  unfold activeFindings activeHeaderFindings
  split
  · exact fromCheck_nil
  · simp [pointer]

/-- The checks of the header copies report about headers. -/
theorem fromCheck_headerFindings :
    FromCheck .headers (headerFindings data) := by
  unfold headerFindings
  dsimp only
  split
  · simp
  · simp only [fromCheck_append, fromCheck_headerCrcFinding,
      fromCheck_copyReservedFindings, fromCheck_activeFindings, true_and,
      and_true]
    exact fromCheck_ite (fromCheck_headerPairFindings _ _) fromCheck_nil

theorem fromCheck_rtCrcFinding (copy : Nat) :
    FromCheck .tables (rtCrcFinding data copy).toList := by
  intro finding member
  obtain ⟨computed, stored, rfl⟩ :=
    exists_of_crcFinding (Option.mem_toList.mp member)
  rfl

theorem fromCheck_pairFindings (index : Nat) :
    FromCheck .tables (pairFindings data index) := by
  unfold pairFindings entryPairFindings
  split
  · exact fromCheck_nil
  · split
    · exact fromCheck_nil
    · simp [rangeFindings]

/-- The checks of the region tables report about tables. -/
theorem fromCheck_regionTableFindings :
    FromCheck .tables (regionTableFindings data) := by
  unfold regionTableFindings
  dsimp only
  split
  · simp
  · split
    · exact fromCheck_flatMap fun index _ => fromCheck_pairFindings data index
    · exact fromCheck_append.mpr
        ⟨fromCheck_rtCrcFinding data 1, fromCheck_rtCrcFinding data 2⟩

theorem fromCheck_layoutEntry (copy containerSize : Nat) (guid : Bytes)
    (fileOffset length requiredField : Nat) :
    FromCheck .layout (layoutEntry copy containerSize guid fileOffset length
      requiredField).1 := by
  unfold layoutEntry reservedWordFindings
  dsimp only
  split <;> simp

theorem fromCheck_pairwiseOverlaps (known : List KnownRegion) :
    FromCheck .layout (pairwiseOverlaps known) := by
  induction known with
  | nil => exact fromCheck_nil
  | cons region later inductionHypothesis =>
      refine fromCheck_append.mpr ⟨fromCheck_flatMap fun other _ => ?_,
        inductionHypothesis⟩
      exact fromCheck_singleton_ite rfl

theorem fromCheck_activeLogOverlaps :
    FromCheck .layout (activeLogOverlaps data) := by
  unfold activeLogOverlaps logOverlaps
  split
  · exact fromCheck_nil
  · refine fromCheck_ite (fromCheck_flatMap fun zone _ => ?_) fromCheck_nil
    exact fromCheck_singleton_ite rfl

/-- The check of the layout reports about the layout. -/
theorem fromCheck_layoutFindings :
    FromCheck .layout (layoutFindings data) := by
  have ofCopy : ∀ copy, FromCheck .layout (copyLayoutFindings data copy) := by
    intro copy
    have entries : FromCheck .layout ((List.range (visitedEntries data
        (rtOffset copy) fittingEntries)).flatMap
          (fun index => (layoutAt data copy index).1)) :=
      fromCheck_flatMap fun index _ => fromCheck_layoutEntry _ _ _ _ _ _
    unfold copyLayoutFindings reservedWordFindings
    dsimp only
    split
    · simp
    · simp [entries, fromCheck_pairwiseOverlaps,
        fromCheck_activeLogOverlaps]
  exact fromCheck_ite (ofCopy 1) (fromCheck_ite (ofCopy 2) fromCheck_nil)

theorem fromCheck_visitFindings (log headerGuid : Bytes) (logOffset : Nat)
    (prevSeq : Option Nat) (pos : Nat) :
    FromCheck .log (visitFindings log headerGuid logOffset prevSeq pos) := by
  unfold visitFindings guidFindings sequenceFindings
  dsimp only
  split
  · rw [fromCheck_append]
    refine ⟨fromCheck_singleton_ite rfl, ?_⟩
    split
    · exact fromCheck_nil
    · exact fromCheck_singleton_ite rfl
  · exact fromCheck_cons.mpr ⟨rfl, fromCheck_nil⟩

theorem fromCheck_walkAudit (log headerGuid : Bytes) (logOffset : Nat)
    (prevSeq : Option Nat) (pos : Nat) :
    FromCheck .log (walkAudit log headerGuid logOffset prevSeq pos).issues := by
  induction pos using visitsFrom.induct log generalizing prevSeq with
  | case1 pos entry inductionHypothesis =>
      rw [walkAudit_of_entry prevSeq entry, LogAudit.issues_visit,
        fromCheck_append]
      exact ⟨fromCheck_visitFindings _ _ _ _ _, inductionHypothesis _⟩
  | case2 pos ended =>
      have stop : FromCheck .log (stopFindings log logOffset pos) :=
        fromCheck_singleton_ite rfl
      rw [walkAudit_of_no_entry prevSeq ended]
      exact fromCheck_append.mpr ⟨fromCheck_nil, stop⟩

/-- The audit of the log reports about the log. -/
theorem fromCheck_logFindings : FromCheck .log (logFindings data) := by
  have zeroed : ∀ logOffset logLength, FromCheck .log
      (LogAudit.issues { stop := [.logZeroedButDirty logOffset logLength] }) :=
    fun _ _ => fromCheck_cons.mpr ⟨rfl, fromCheck_nil⟩
  rw [logFindings, logAuditOf]
  cases activeHeader data with
  | none => exact fromCheck_nil
  | some header =>
      dsimp only
      split_ifs
      · exact fromCheck_nil
      · exact zeroed _ _
      · exact fromCheck_walkAudit _ _ _ _ _

/-- The checks of the metadata report about the metadata. -/
theorem fromCheck_metadataFindings
    (sorting : UnstableSort (Nat × Nat) Prod.fst) (r : ParsedRegions) :
    FromCheck .metadata (metadataFindings sorting data r) := by
  have flags : FromCheck .metadata (flagFindings r) := by
    unfold flagFindings
    cases r.physicalSs <;> cases r.vdiskId <;> simp
  have beyond : ∀ region regionSize index,
      FromCheck .metadata (beyondRegion region regionSize index) := by
    intro region regionSize index
    unfold beyondRegion
    exact fromCheck_singleton_ite rfl
  have overlap : ∀ w, FromCheck .metadata (itemOverlap w) := by
    intro w
    unfold itemOverlap
    exact fromCheck_singleton_ite rfl
  have ranges : FromCheck .metadata
      (itemRangeFindings sorting data r.metaOffset r.metaLength) := by
    unfold itemRangeFindings
    dsimp only
    refine fromCheck_ite (fromCheck_append.mpr ⟨?_, ?_⟩) fromCheck_nil
    · exact fromCheck_flatMap fun index _ => beyond _ _ index
    · exact fromCheck_flatMap fun w _ => overlap w
  have blockSize : FromCheck .metadata (blockSizeFindings r.blockSize) := by
    unfold blockSizeFindings
    split
    · simp
    · refine fromCheck_ite (by simp) (fromCheck_singleton_ite rfl)
  have logicalSs : FromCheck .metadata (logicalSsFindings r.logicalSs) := by
    unfold logicalSsFindings
    split
    · exact fromCheck_nil
    · exact fromCheck_singleton_ite rfl
  have vdiskSize : FromCheck .metadata
      (vdiskSizeFindings r.vdiskSize r.logicalSs) := by
    unfold vdiskSizeFindings
    split <;> simp
  simp [metadataFindings, flags, ranges, blockSize, logicalSs, vdiskSize]

/-- The scan of an entry reports about the table. -/
theorem fromCheck_entryFindings (r : ParsedRegions)
    (zone : Option (Nat × Nat)) (i : Nat) :
    FromCheck .bat (entryFindings data r zone i) := by
  have missing : FromCheck .bat (missingFindings data r i) := by
    unfold missingFindings
    split
    · exact fromCheck_nil
    · exact fromCheck_singleton_ite rfl
  have placement : ∀ raw fileOffset,
      FromCheck .bat (placementFindings r zone i raw fileOffset) := by
    intro raw fileOffset
    refine fromCheck_append.mpr ⟨fromCheck_singleton_ite rfl, ?_⟩
    split <;> simp
  unfold entryFindings
  dsimp only
  split
  · exact fromCheck_singleton_ite rfl
  · split
    · refine fromCheck_append.mpr ⟨placement _ _, ?_⟩
      exact fromCheck_ite missing (by simp)
    · refine fromCheck_ite (by simp) ?_
      exact fromCheck_ite (by simp) (fromCheck_singleton_ite rfl)

/-- The checks of the table report about the table. -/
theorem fromCheck_batFindings (sorting : UnstableSort (Nat × Nat) Prod.fst)
    (r : ParsedRegions) : FromCheck .bat (batFindings sorting data r) := by
  have size : ∀ entryCount, FromCheck .bat (sizeFindings r entryCount) := by
    intro entryCount
    unfold sizeFindings
    split
    · exact fromCheck_singleton_ite rfl
    · exact fromCheck_nil
  have overreported : ∀ bs declaredVds entryCount chunkRatio, FromCheck .bat
      (overFindings bs declaredVds entryCount chunkRatio) := by
    intro bs declaredVds entryCount chunkRatio
    unfold overFindings
    split
    · exact fromCheck_nil
    · exact fromCheck_singleton_ite rfl
  have coverage : ∀ present entryCount,
      FromCheck .bat (coverageFindings r present entryCount) := by
    intro present entryCount
    unfold coverageFindings
    split
    · refine fromCheck_ite fromCheck_nil (fromCheck_append.mpr ⟨?_,
        overreported _ _ _ _⟩)
      exact fromCheck_singleton_ite rfl
    · exact fromCheck_nil
  refine fromCheck_ite (fromCheck_append.mpr ⟨fromCheck_append.mpr
    ⟨size _, fromCheck_append.mpr ⟨?_, ?_⟩⟩, coverage _ _⟩) fromCheck_nil
  · exact fromCheck_flatMap fun i _ => fromCheck_entryFindings data r _ i
  · exact fromCheck_flatMap fun w _ => fromCheck_singleton_ite rfl

/-- The check of the end reports about the end. -/
theorem fromCheck_trailingFindings (r : ParsedRegions) (blockSize : Nat) :
    FromCheck .trailing (trailingFindings data r blockSize) :=
  fromCheck_singleton_ite rfl

/-- The scan for data of absent blocks reports about such data. -/
theorem fromCheck_ghostFindings : FromCheck .ghost (ghostFindings data) := by
  unfold ghostFindings
  split
  · exact fromCheck_nil
  · split
    · exact fromCheck_nil
    · refine fromCheck_ite (fromCheck_flatMap fun i _ => ?_) fromCheck_nil
      exact fromCheck_singleton_ite rfl

end Checks

end VhdxForensic
