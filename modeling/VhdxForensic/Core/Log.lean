import VhdxForensic.Core.Backing
import VhdxForensic.Core.Header
import VhdxForensic.Rust.Loop

/-!
# Log replay

A dirty container carries a log of sector writes. `apply` replays it in
place; `buildOverlay` records the same writes as runs that patch every
positioned read.
-/

namespace VhdxForensic

open Rust Rust.Bytes Rust.Exec

/-- `b"loge"`. -/
def logEntrySignature : Bytes := [0x6C, 0x6F, 0x67, 0x65]

/-- `b"desc"`. -/
def dataDescriptorSignature : Bytes := [0x64, 0x65, 0x73, 0x63]

/-- `b"zero"`. -/
def zeroDescriptorSignature : Bytes := [0x7A, 0x65, 0x72, 0x6F]

/-- Bytes from which replay starts with a log: none when the length is zero
or the GUID is all zeros. -/
def VhdxHeader.IsClean (header : VhdxHeader) : Prop :=
  header.logLength = 0 ∨ header.logGuid = List.replicate 16 0

instance (header : VhdxHeader) : Decidable header.IsClean :=
  inferInstanceAs (Decidable (_ ∨ _))

/-! ## Collecting entries -/

/-- Walk the log from `pos`, keeping the checksummed entries that carry the
expected GUID together with their sequence numbers. -/
def collectFrom {ε : Type} (log expectedGuid : Bytes) (pos : Nat) :
    Exec ε (List (Nat × Bytes)) := do
  let _ ← add pos 64
  if _atEnd : pos + 64 > log.length then return []
  else
    let signature ← slice log pos (pos + 4)
    if signature ≠ logEntrySignature then return []
    else
      let entryLen := leU32 log (pos + 8)
      let entryEnd ← add pos entryLen
      if _tooShort : entryLen < 64 ∨ entryEnd > log.length then return []
      else
        let entryBytes ← slice log pos entryEnd
        let stored := leU32 entryBytes 4
        let tmp ← fill entryBytes 4 8 0
        if crc32c tmp ≠ stored then
          collectFrom log expectedGuid (pos + entryLen)
        else if leArr16 entryBytes 32 ≠ expectedGuid then
          collectFrom log expectedGuid (pos + entryLen)
        else
          let rest ← collectFrom log expectedGuid (pos + entryLen)
          return (leU64 entryBytes 16, entryBytes) :: rest
termination_by log.length - pos

/-- The entries to replay, in ascending sequence order with ties in log
order. -/
def collectEntries {ε : Type} (log expectedGuid : Bytes) :
    Exec ε (List Bytes) := do
  let entries ← collectFrom log expectedGuid 0
  let sorted := entries.mergeSort fun a b => decide (a.1 ≤ b.1)
  return sorted.map Prod.snd

/-! ## Replay in place -/

/-- One descriptor of an entry applied to the container. The state is the
container and the number of data sectors consumed so far. -/
def applyDescriptor {ε : Type} (entry : Bytes) (dataSectorBase : Nat)
    (index : Nat) (state : Bytes × Nat) :
    Exec ε (ForInStep (Bytes × Nat)) := do
  let (data, sectorIdx) := state
  let d ← slice entry (64 + index * 32) (64 + (index + 1) * 32)
  let signature ← slice d 0 4
  if signature = dataDescriptorSignature then
    let fileOff := leU64 d 24
    let sectorOff ← add dataSectorBase (sectorIdx * 4096)
    let sectorEnd ← add sectorOff 4096
    if sectorEnd ≤ entry.length then
      let fileEnd ← add fileOff 4096
      if fileEnd ≤ data.length then
        let sector ← slice entry sectorOff sectorEnd
        let data ← copyInto data fileOff fileEnd sector
        return .yield (data, sectorIdx + 1)
      else return .yield (data, sectorIdx + 1)
    else return .yield (data, sectorIdx + 1)
  else if signature = zeroDescriptorSignature then
    let zeroLen := leU64 d 8
    let fileOff := leU64 d 16
    let stop := min (saturatingAdd fileOff zeroLen) data.length
    if fileOff < data.length then
      let data ← fill data fileOff stop 0
      return .yield (data, sectorIdx)
    else return .yield (data, sectorIdx)
  else return .yield (data, sectorIdx)

/-- Replay one entry into the container. -/
def applyEntry {ε : Type} (data entry : Bytes) : Exec ε Bytes := do
  let descriptorCount := leU32 entry 24
  let dataSectorBase ← add 64 (descriptorCount * 32)
  let (data, _) ← forRange descriptorCount
    (applyDescriptor entry dataSectorBase) (data, 0)
  return data

/-- Replay the log, if there is one, into the container. -/
def apply (data : Bytes) : Exec VhdxError Bytes := do
  let header ← parseActiveHeader data
  if header.IsClean then return data
  else
    let logEnd := saturatingAdd header.logOffset header.logLength
    failIf (data.length < logEnd) .offsetOutOfBounds
    let log ← slice data header.logOffset logEnd
    let entries ← collectEntries log header.logGuid
    entries.foldlM applyEntry data

/-! ## The overlay -/

/-- The replayed runs in replay order: where each starts and its bytes. -/
structure LogOverlay where
  /-- Offsets and bytes, in the order in which they are to be written. -/
  runs : List (Nat × Bytes) := []
  deriving DecidableEq, Repr

namespace LogOverlay

/-- Record one run; empty runs are dropped. -/
def push (overlay : LogOverlay) (fileOffset : Nat) (bytes : Bytes) :
    LogOverlay :=
  if bytes = [] then overlay
  else { runs := overlay.runs ++ [(fileOffset, bytes)] }

/-- Copy the part of one run that overlaps the buffer. -/
def patchRun {ε : Type} (readOff readEnd : Nat) (buf : Bytes)
    (item : Nat × Bytes) : Exec ε Bytes := do
  let (runStart, run) := item
  let runEnd := saturatingAdd runStart run.length
  let ovStart := max runStart readOff
  let ovEnd := min runEnd readEnd
  if ovStart ≥ ovEnd then return buf
  else
    let dst ← sub ovStart readOff
    let src ← sub ovStart runStart
    let n ← sub ovEnd ovStart
    let srcEnd ← add src n
    let dstEnd ← add dst n
    let piece ← slice run src srcEnd
    copyInto buf dst dstEnd piece

/-- Patch a buffer that was filled from container offset `readOff`. -/
def patch {ε : Type} (overlay : LogOverlay) (buf : Bytes) (readOff : Nat) :
    Exec ε Bytes :=
  if overlay.runs = [] ∨ buf = [] then return buf
  else
    let readEnd := saturatingAdd readOff buf.length
    overlay.runs.foldlM (patchRun readOff readEnd) buf

end LogOverlay

/-- One descriptor of an entry recorded in the overlay. -/
def overlayDescriptor {ε : Type} (entry : Bytes) (dataSectorBase : Nat)
    (index : Nat) (state : LogOverlay × Nat) :
    Exec ε (ForInStep (LogOverlay × Nat)) := do
  let (overlay, sectorIdx) := state
  let d ← slice entry (64 + index * 32) (64 + (index + 1) * 32)
  let signature ← slice d 0 4
  if signature = dataDescriptorSignature then
    let fileOff := leU64 d 24
    let sectorOff ← add dataSectorBase (sectorIdx * 4096)
    let sectorEnd ← add sectorOff 4096
    if sectorEnd ≤ entry.length then
      let sector ← slice entry sectorOff sectorEnd
      return .yield (overlay.push fileOff sector, sectorIdx + 1)
    else return .yield (overlay, sectorIdx + 1)
  else if signature = zeroDescriptorSignature then
    let zeroLen := leU64 d 8
    let fileOff := leU64 d 16
    if zeroLen > 0 then
      let zeros ← zeroed zeroLen
      return .yield (overlay.push fileOff zeros, sectorIdx)
    else return .yield (overlay, sectorIdx)
  else return .yield (overlay, sectorIdx)

/-- Record one entry in the overlay. -/
def overlayEntry {ε : Type} (overlay : LogOverlay) (entry : Bytes) :
    Exec ε LogOverlay := do
  let descriptorCount := leU32 entry 24
  let dataSectorBase ← add 64 (descriptorCount * 32)
  let (overlay, _) ← forRange descriptorCount
    (overlayDescriptor entry dataSectorBase) (overlay, 0)
  return overlay

/-- Read the log region of a dirty container and record its entries. -/
def buildOverlay (backing : Backing) (header : VhdxHeader) :
    Exec VhdxError LogOverlay := do
  if header.IsClean then return {}
  else
    let logEnd := saturatingAdd header.logOffset header.logLength
    failIf (backing.len < logEnd) .offsetOutOfBounds
    let log ← backing.readExactAt header.logOffset header.logLength
    failIf (log.length < header.logLength) .offsetOutOfBounds
    let entries ← collectEntries log header.logGuid
    entries.foldlM overlayEntry {}

end VhdxForensic
