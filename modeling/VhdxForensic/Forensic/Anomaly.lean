import VhdxForensic.Core.Base

/-!
# Findings

The findings of the analyser, grouped by the layer of the container they
belong to, with their severities.
-/

namespace VhdxForensic

open Rust

inductive Severity where
  | info
  | low
  | medium
  | high
  | critical
  deriving DecidableEq, Repr

inductive VhdxIntegrityAnomaly where
  -- Container and magic.
  | badMagic (found : Bytes)
  | containerTruncated (size minimum : Nat)
  -- Checksums of the header copies.
  | headerChecksumMismatch (copy computed stored : Nat)
  | bothHeaderCopiesInvalid
  -- Cross-checks of two valid header copies.
  | sequenceNumbersIdentical (value : Nat)
  | bothSequenceNumbersZero
  | headerCopyMismatch (field : String) (copy1Value copy2Value : Nat)
  -- Log section.
  | logZeroedButDirty (logOffset logLength : Nat)
  | logEntrySignatureMissing (entryOffset : Nat)
  | logEntryCrcMismatch (entryOffset computed stored : Nat)
  | logEntryGuidMismatch (entryOffset : Nat) (entryGuid headerGuid : Bytes)
  | logSequenceNumberGap (atOffset expectedSeq foundSeq : Nat)
  -- GUIDs, versions and the log pointer of the active header.
  | fileWriteGuidAllZeros
  | dataWriteGuidAllZeros
  | logGuidWithNoLog (logGuid : Bytes)
  | logGuidAllZerosWithDirtyLog (logLength : Nat)
  | logVersionInvalid (version : Nat)
  | versionInvalid (version : Nat)
  | logOffsetMisaligned (logOffset : Nat)
  | logLengthMisaligned (logLength : Nat)
  | logBeyondContainer (logOffset logLength containerSize : Nat)
  | logInReservedZone (logOffset : Nat)
  | sequenceNumberGapLarge (seq1 seq2 gap : Nat)
  | dirtyLog (logLength logOffset : Nat)
  -- Region layout.
  | regionMisaligned (region : String) (fileOffset : Nat)
  | regionBeyondContainer (region : String) (declaredEnd containerSize : Nat)
  | regionsOverlap (regionA regionB : String) (overlapOffset : Nat)
  | logOverlapsStructuralRegion (logOffset : Nat) (overlapping : String)
  | unknownRequiredRegion (guidHex : String)
  | regionTableReservedNonZero (copy : Nat) (location : String) (value : Nat)
  | regionEntryCountZero (copy : Nat)
  -- Checksums of the region table copies.
  | regionTableChecksumMismatch (copy computed stored : Nat)
  | bothRegionTableCopiesInvalid
  | regionTableCopyMismatch (region field : String) (rt1Value rt2Value : Nat)
  -- Metadata, which no checksum protects.
  | metadataMissing (item : String)
  | blockSizeInvalid (blockSize : Nat) (reason : String)
  | logicalSectorSizeInvalid (sectorSize : Nat)
  | virtualDiskSizeInvalid (vdiskSize : Nat) (reason : String)
  | virtualDiskSizeUnderreported (declared batCoverage : Nat)
  | differencingDisk
  | physicalSectorSizeInvalid (sectorSize : Nat)
  | virtualDiskIdAllZeros
  | metadataItemsOverlap (itemAOffset itemBOffset overlapOffset : Nat)
  | metadataItemBeyondRegion (itemOffset itemEnd regionEnd : Nat)
  | leaveBlocksAllocatedSet
  | missingParentLocator
  | virtualDiskSizeOverreported (declared batCoverage : Nat)
  -- Block allocation table, which no checksum protects.
  | batSizeMetadataMismatch (batBytesActual batEntriesActual
      batEntriesExpected vdiskSize blockSize : Nat)
  | batEntryInStructuralRegion (batIndex fileOffset : Nat)
      (collidesWith : String)
  | missingSectorBitmap (dataBatIndex bitmapBatIndex : Nat)
  | undefinedBlockState (batIndex : Nat)
  | unmappedBlockInNonDifferencing (batIndex : Nat)
  | ghostDataInAbsentBlock (batIndex fileOffset nonzeroBytes : Nat)
  | batEntryBeyondContainer (batIndex fileOffset containerSize : Nat)
  | batEntryUnaligned (batIndex fileOffset : Nat)
  | batEntriesOverlap (indexA indexB sharedOffset : Nat)
  | partiallyPresentBlock (batIndex : Nat)
  | sectorBitmapInvalidState (batIndex state : Nat)
  -- Container layout and hidden data.
  | trailingData (startOffset size : Nat)
  | creatorStringAnomalous (anomaly : String)
  | fileIdentifierReservedNonZero (startOffset nonzeroCount : Nat)
  | interRegionGapNonZero (fromRegion toRegion : String)
      (gapOffset gapSize : Nat)
  | headerReservedNonZero (copy offsetInHeader length : Nat)
  deriving DecidableEq, Repr

namespace VhdxIntegrityAnomaly

def severity : VhdxIntegrityAnomaly → Severity
  | badMagic .. | containerTruncated .. => .critical
  | bothHeaderCopiesInvalid | bothRegionTableCopiesInvalid => .critical
  | headerChecksumMismatch .. | regionTableChecksumMismatch .. => .high
  | headerCopyMismatch .. | regionTableCopyMismatch ..
  | batEntriesOverlap .. | batEntryBeyondContainer ..
  | virtualDiskSizeUnderreported .. => .high
  | differencingDisk | metadataMissing .. | blockSizeInvalid ..
  | logicalSectorSizeInvalid .. | virtualDiskSizeInvalid ..
  | batEntryUnaligned .. | partiallyPresentBlock ..
  | sectorBitmapInvalidState .. => .medium
  | bothSequenceNumbersZero | sequenceNumbersIdentical .. | trailingData ..
  | creatorStringAnomalous .. => .medium
  | batEntryInStructuralRegion .. | batSizeMetadataMismatch .. => .high
  | missingSectorBitmap .. | undefinedBlockState ..
  | unmappedBlockInNonDifferencing .. | ghostDataInAbsentBlock .. => .medium
  | logEntryCrcMismatch .. | logEntryGuidMismatch ..
  | logSequenceNumberGap .. => .high
  | logZeroedButDirty .. | logEntrySignatureMissing .. => .medium
  | regionMisaligned .. | regionBeyondContainer .. | regionsOverlap ..
  | logOverlapsStructuralRegion .. => .high
  | unknownRequiredRegion .. | regionTableReservedNonZero ..
  | regionEntryCountZero .. => .medium
  | fileWriteGuidAllZeros | dataWriteGuidAllZeros | logGuidWithNoLog ..
  | logVersionInvalid .. | versionInvalid ..
  | sequenceNumberGapLarge .. => .medium
  | logOffsetMisaligned .. | logLengthMisaligned .. | logBeyondContainer ..
  | logInReservedZone .. => .high
  | logGuidAllZerosWithDirtyLog .. => .medium
  | dirtyLog .. => .info
  | physicalSectorSizeInvalid .. | virtualDiskIdAllZeros => .medium
  | metadataItemsOverlap .. | metadataItemBeyondRegion ..
  | missingParentLocator | virtualDiskSizeOverreported .. => .high
  | leaveBlocksAllocatedSet => .medium
  | fileIdentifierReservedNonZero .. | headerReservedNonZero .. => .medium
  | interRegionGapNonZero .. => .info

/-- The kinds of findings that are repaired in place. -/
def repairable : VhdxIntegrityAnomaly → Bool
  | headerChecksumMismatch .. | regionTableChecksumMismatch ..
  | batEntryBeyondContainer .. | batEntryInStructuralRegion ..
  | undefinedBlockState .. | batEntryUnaligned .. => true
  | _ => false

end VhdxIntegrityAnomaly
end VhdxForensic
