import VhdxForensic.Core.LogReplay
import VhdxForensic.Rust.Layout

/-!
# The log format

The encoding of a list of writes as a log entry, written down from the format
rather than from the replay code, and how replay reads such an entry back.
Zero descriptors are read as they were written. Data descriptors are not:
replay takes the sequence number for the file offset.
-/

namespace VhdxForensic

open Rust Rust.Bytes Rust.Exec

/-! ## Encoding -/

namespace LogFormat

/-- `b"data"`. -/
def dataSectorSignature : Bytes := [0x64, 0x61, 0x74, 0x61]

/-- The 32-byte descriptor of a write. A data descriptor carries the last 4
and the first 8 bytes of its sector. -/
def encodeDescriptor (sequenceNumber : Nat) : LogWrite → Bytes
  | .sector fileOffset bytes => layout 32
      [(0, dataDescriptorSignature), (4, window bytes 4092 4),
        (8, window bytes 0 8), (16, encodeLe 8 fileOffset),
        (24, encodeLe 8 sequenceNumber)]
  | .zeros fileOffset count => layout 32
      [(0, zeroDescriptorSignature), (8, encodeLe 8 count),
        (16, encodeLe 8 fileOffset), (24, encodeLe 8 sequenceNumber)]

/-- The data sector of a sector write: its bytes 8 to 4092 between a
signature and the halves of the sequence number. -/
def encodeSector (sequenceNumber : Nat) (bytes : Bytes) : Bytes :=
  layout 4096
    [(0, dataSectorSignature), (4, encodeLe 4 (sequenceNumber / 2 ^ 32)),
      (8, window bytes 8 4084), (4092, encodeLe 4 (sequenceNumber % 2 ^ 32))]

/-- The data sector of a write, if it has one. -/
def dataSector (sequenceNumber : Nat) : LogWrite → Option Bytes
  | .sector _ bytes => some (encodeSector sequenceNumber bytes)
  | .zeros _ _ => none

/-- Zeros that fill header and descriptors up to a multiple of 4096 bytes. -/
def padding (count : Nat) : Bytes :=
  List.replicate ((4096 - (64 + count * 32) % 4096) % 4096) 0

/-- The log entry of a list of writes under a 64-byte header. -/
def encodeEntry (header : Bytes) (sequenceNumber : Nat)
    (writes : List LogWrite) : Bytes :=
  header ++ (writes.map (encodeDescriptor sequenceNumber)).flatten ++
    padding writes.length ++
      (writes.filterMap (dataSector sequenceNumber)).flatten

end LogFormat

namespace LogWrite

/-- The write is one the format can carry for a container of length `len`:
a whole aligned sector or a zero range, inside the container. -/
def InContainer (len : Nat) : LogWrite → Prop
  | sector fileOffset bytes =>
      bytes.length = 4096 ∧ fileOffset % 4096 = 0 ∧ fileOffset + 4096 ≤ len
  | zeros fileOffset count => fileOffset + count ≤ len

/-- The write is a sector rather than a zero range. -/
def isSector : LogWrite → Bool
  | sector _ _ => true
  | zeros _ _ => false

end LogWrite

/-- What one log entry can say about containers of a length. -/
structure LogContent where
  /-- Length of the container. -/
  len : Nat
  /-- What the entry writes, in order. -/
  writes : List LogWrite
  /-- The container fits into memory. -/
  allocated : len ≤ isizeMax
  /-- The writes lie in the container. -/
  inContainer : ∀ write ∈ writes, write.InContainer len
  /-- Their number fits its field. -/
  countLt : writes.length < 2 ^ 32

/-- The header has its full length and announces `count` descriptors. -/
structure EntryHeader (count : Nat) where
  /-- The bytes of the header. -/
  bytes : Bytes
  /-- There are 64 of them. -/
  length_eq : bytes.length = 64
  /-- They announce the number of descriptors. -/
  count_eq : leU32 bytes 24 = count

namespace LogFormat

section Descriptors

variable {sequenceNumber fileOffset count : Nat} {bytes : Bytes}

@[simp] theorem length_encodeDescriptor (sequenceNumber : Nat)
    (write : LogWrite) :
    (encodeDescriptor sequenceNumber write).length = 32 := by
  cases write <;> exact length_layout _ _

@[simp] theorem length_encodeSector (sequenceNumber : Nat) (bytes : Bytes) :
    (encodeSector sequenceNumber bytes).length = 4096 :=
  length_layout _ _

theorem data_apart (full : bytes.length = 4096) :
    [(0, dataDescriptorSignature), (4, window bytes 4092 4),
      (8, window bytes 0 8), (16, encodeLe 8 fileOffset),
      (24, encodeLe 8 sequenceNumber)].Pairwise Run.Apart := by
  simp [Run.Apart, dataDescriptorSignature, length_window, full]

theorem zero_apart :
    [(0, zeroDescriptorSignature), (8, encodeLe 8 count),
      (16, encodeLe 8 fileOffset),
      (24, encodeLe 8 sequenceNumber)].Pairwise Run.Apart := by
  simp [Run.Apart, zeroDescriptorSignature]

/-- The descriptor of a sector is a data descriptor. -/
theorem signature_encodeDescriptor_sector (full : bytes.length = 4096) :
    window (encodeDescriptor sequenceNumber (.sector fileOffset bytes)) 0 4 =
      dataDescriptorSignature :=
  window_layout (data_apart full) (by simp) rfl (by decide)

theorem sequence_encodeDescriptor_sector (full : bytes.length = 4096)
    (sequenceLt : sequenceNumber < 2 ^ 64) :
    leU64 (encodeDescriptor sequenceNumber (.sector fileOffset bytes)) 24 =
      sequenceNumber :=
  le_layout (data_apart full) (by simp) (by decide) sequenceLt

/-- The descriptor of zeros is a zero descriptor. -/
theorem signature_encodeDescriptor_zeros :
    window (encodeDescriptor sequenceNumber (.zeros fileOffset count)) 0 4 =
      zeroDescriptorSignature :=
  window_layout zero_apart (by simp) rfl (by decide)

theorem offset_encodeDescriptor_zeros (offsetLt : fileOffset < 2 ^ 64) :
    leU64 (encodeDescriptor sequenceNumber (.zeros fileOffset count)) 16 =
      fileOffset :=
  le_layout zero_apart (by simp) (by decide) offsetLt

theorem count_encodeDescriptor_zeros (countLt : count < 2 ^ 64) :
    leU64 (encodeDescriptor sequenceNumber (.zeros fileOffset count)) 8 =
      count :=
  le_layout zero_apart (by simp) (by decide) countLt

end Descriptors

/-! ## Reading an encoded entry -/

section Entry

open LogEntry

variable {writes : List LogWrite} {sequenceNumber : Nat}
  (header : EntryHeader writes.length)

/-- An encoded entry has one descriptor for every write. -/
theorem descriptorCount_encodeEntry :
    descriptorCount (encodeEntry header.bytes sequenceNumber writes) =
      writes.length := by
  have length := header.length_eq
  refine Eq.trans ?_ header.count_eq
  apply le_congr
  · simp [encodeEntry]
    omega
  · omega
  · unfold encodeEntry
    rw [List.append_assoc, List.append_assoc, window_append_left (by omega)]

theorem length_descriptors :
    (writes.map (encodeDescriptor sequenceNumber)).flatten.length =
      writes.length * 32 := by
  rw [length_flatten_of_uniform, List.length_map]
  intro block member
  obtain ⟨write, -, rfl⟩ := List.mem_map.mp member
  exact length_encodeDescriptor _ _

theorem length_dataSectors :
    (writes.filterMap (dataSector sequenceNumber)).flatten.length =
      writes.countP LogWrite.isSector * 4096 := by
  rw [length_flatten_of_uniform]
  · congr 1
    induction writes with
    | nil => rfl
    | cons write writes inductionHypothesis =>
        have rest := inductionHypothesis
        rw [List.countP_cons, List.filterMap_cons]
        cases write with
        | sector fileOffset bytes => simp [dataSector, LogWrite.isSector, rest]
        | zeros fileOffset count => simpa [dataSector, LogWrite.isSector]
  · intro block member
    obtain ⟨write, -, encoded⟩ := List.mem_filterMap.mp member
    cases write with
    | sector fileOffset bytes =>
        rw [← Option.some.inj encoded]
        exact length_encodeSector _ _
    | zeros fileOffset count => cases encoded

/-- The entry has room for its table and all data sectors. -/
theorem length_encodeEntry (sequenceNumber : Nat) :
    64 + writes.length * 32 + writes.countP LogWrite.isSector * 4096 ≤
      (encodeEntry header.bytes sequenceNumber writes).length := by
  have length := header.length_eq
  unfold encodeEntry
  rw [List.length_append, List.length_append, List.length_append,
    length_descriptors, length_dataSectors]
  omega

/-- The descriptors are in the order of the writes. -/
theorem descriptor_encodeEntry {index : Nat} {write : LogWrite}
    (found : writes[index]? = some write) :
    descriptor (encodeEntry header.bytes sequenceNumber writes) index =
      encodeDescriptor sequenceNumber write := by
  have length := header.length_eq
  have indexLt := (List.getElem?_eq_some_iff.mp found).1
  have tableLength :
      (writes.map (encodeDescriptor sequenceNumber)).flatten.length =
        writes.length * 32 := length_descriptors
  rw [descriptor, encodeEntry, List.append_assoc, List.append_assoc,
    ← length, window_append_right, window_append_left (by omega)]
  apply window_flatten
  · intro block member
    obtain ⟨write, -, rfl⟩ := List.mem_map.mp member
    exact length_encodeDescriptor _ _
  · rw [List.getElem?_map, found]
    rfl

/-- Data descriptors are those of sectors. -/
theorem isData_encodeEntry {index : Nat} {write : LogWrite}
    (full : ∀ fileOffset bytes, write = .sector fileOffset bytes →
      bytes.length = 4096)
    (found : writes[index]? = some write) :
    isData (encodeEntry header.bytes sequenceNumber writes) index =
      write.isSector := by
  rw [isData, descriptor_encodeEntry header found]
  cases write with
  | sector fileOffset bytes =>
      rw [signature_encodeDescriptor_sector (full _ _ rfl)]
      rfl
  | zeros fileOffset count =>
      rw [signature_encodeDescriptor_zeros]
      rfl

/-- Data descriptors are counted as the sectors that were encoded. -/
theorem sectorIndex_encodeEntry
    (full : ∀ fileOffset bytes, .sector fileOffset bytes ∈ writes →
      bytes.length = 4096)
    {index : Nat} (indexLe : index ≤ writes.length) :
    sectorIndex (encodeEntry header.bytes sequenceNumber writes) index =
      (writes.take index).countP LogWrite.isSector := by
  induction index with
  | zero => simp
  | succ index inductionHypothesis =>
      have found : writes[index]? = some writes[index] :=
        List.getElem?_eq_getElem (by omega)
      rw [sectorIndex_succ, inductionHypothesis (by omega),
        List.take_add_one, found, List.countP_append,
        isData_encodeEntry header (fun fileOffset bytes named =>
          full fileOffset bytes (by
            rw [← named]
            exact List.getElem_mem (by omega))) found]
      cases writes[index] <;> rfl

/-- The sector of a data descriptor lies in the entry. -/
theorem sectorOffset_encodeEntry
    (full : ∀ fileOffset bytes, .sector fileOffset bytes ∈ writes →
      bytes.length = 4096)
    {index fileOffset : Nat} {bytes : Bytes}
    (found : writes[index]? = some (.sector fileOffset bytes)) :
    sectorOffset (encodeEntry header.bytes sequenceNumber writes) index +
        4096 ≤ (encodeEntry header.bytes sequenceNumber writes).length := by
  have indexLt := (List.getElem?_eq_some_iff.mp found).1
  have room := length_encodeEntry header sequenceNumber
  have parts : writes.countP LogWrite.isSector =
      (writes.take index).countP LogWrite.isSector +
        (writes.drop index).countP LogWrite.isSector := by
    rw [← List.countP_append, List.take_append_drop]
  have here : 0 < (writes.drop index).countP LogWrite.isSector := by
    apply List.countP_pos_iff.mpr
    refine ⟨.sector fileOffset bytes, ?_, rfl⟩
    rw [List.mem_drop_iff_getElem]
    exact ⟨0, by omega, (List.getElem?_eq_some_iff.mp found).2⟩
  rw [sectorOffset, dataSectorBase, descriptorCount_encodeEntry,
    sectorIndex_encodeEntry header full (by omega)]
  omega

/-- Replay reads a sector back to where the sequence number says. -/
theorem writeAt_encodeEntry_sector
    (full : ∀ fileOffset bytes, .sector fileOffset bytes ∈ writes →
      bytes.length = 4096)
    (sequenceLt : sequenceNumber < 2 ^ 64)
    {index fileOffset : Nat} {bytes : Bytes}
    (found : writes[index]? = some (.sector fileOffset bytes)) :
    writeAt (encodeEntry header.bytes sequenceNumber writes) index =
      some (.sector sequenceNumber
        (window (encodeEntry header.bytes sequenceNumber writes)
          (sectorOffset (encodeEntry header.bytes sequenceNumber writes)
            index) 4096)) := by
  have bytesFull := full _ _ (List.mem_of_getElem? found)
  have isSector :
      isData (encodeEntry header.bytes sequenceNumber writes) index = true :=
    isData_encodeEntry header (fun _ _ named => by cases named; exact bytesFull)
      found
  rw [writeAt, if_pos isSector,
    if_pos (sectorOffset_encodeEntry header full found),
    descriptor_encodeEntry header found,
    sequence_encodeDescriptor_sector bytesFull sequenceLt]

/-- Replay reads a zero range back as it was written. -/
theorem writeAt_encodeEntry_zeros {index fileOffset count : Nat}
    (offsetLt : fileOffset < 2 ^ 64)
    (countLt : count < 2 ^ 64)
    (found : writes[index]? = some (.zeros fileOffset count)) :
    writeAt (encodeEntry header.bytes sequenceNumber writes) index =
      some (.zeros fileOffset count) := by
  have noSector :
      isData (encodeEntry header.bytes sequenceNumber writes) index = false :=
    isData_encodeEntry header (fun _ _ named => by cases named) found
  rw [writeAt, noSector, if_neg (by decide), isZero,
    descriptor_encodeEntry header found, signature_encodeDescriptor_zeros,
    if_pos (by decide), offset_encodeDescriptor_zeros offsetLt,
    count_encodeDescriptor_zeros countLt]

/-- The descriptor table of an encoded entry is complete. -/
theorem tableFits_encodeEntry (sequenceNumber : Nat) :
    TableFits (encodeEntry header.bytes sequenceNumber writes) := by
  have room := length_encodeEntry header sequenceNumber
  rw [TableFits, dataSectorBase, descriptorCount_encodeEntry]
  omega

end Entry

end LogFormat

/-! ## Decoding what the format encodes -/

/-- Replaying the entry performs exactly these writes on the container, and
the overlay records runs that describe the same bytes. -/
def DecodesTo (data entry : Bytes) (writes : List LogWrite) : Prop :=
  (applyEntry data entry : Exec VhdxError Bytes) =
      .ok (replayFrom 0 (writes.map LogWrite.run) data) ∧
    ∃ overlay : LogOverlay,
      (overlayEntry {} entry : Exec VhdxError LogOverlay) = .ok overlay ∧
        ∀ pos old, settle overlay.runs pos old =
          settle (writes.map LogWrite.run) pos old

namespace LogContent

open LogFormat

variable (content : LogContent)

theorem full : ∀ fileOffset bytes,
    .sector fileOffset bytes ∈ content.writes → bytes.length = 4096 :=
  fun _ _ member => (content.inContainer _ member).1

theorem small : ∀ fileOffset count,
    .zeros fileOffset count ∈ content.writes →
      fileOffset < 2 ^ 64 ∧ count < 2 ^ 64 := by
  intro fileOffset count member
  have inside : fileOffset + count ≤ content.len :=
    content.inContainer _ member
  have allocated := content.allocated
  unfold isizeMax at allocated
  omega

/-- Every encoding of the content is decoded to it, over every container of
its length. -/
def DecodesEveryEncoding : Prop :=
  ∀ (header : EntryHeader content.writes.length) (sequenceNumber : Nat)
    (data : Bytes), sequenceNumber < 2 ^ 64 → data.length = content.len →
      DecodesTo data
        (encodeEntry header.bytes sequenceNumber content.writes)
        content.writes

/-- Replay reads back exactly the content when it has no sector. -/
theorem writes_encodeEntry_of_zeros
    (header : EntryHeader content.writes.length) (sequenceNumber : Nat)
    (onlyZeros : ∀ write ∈ content.writes, write.isSector = false) :
    LogEntry.writes (encodeEntry header.bytes sequenceNumber content.writes) =
      content.writes := by
  have each : ∀ index ∈ List.range content.writes.length,
      LogEntry.writeAt
        (encodeEntry header.bytes sequenceNumber content.writes) index =
          content.writes[index]? := by
    intro index member
    obtain ⟨write, found⟩ : ∃ write, content.writes[index]? = some write :=
      ⟨_, List.getElem?_eq_getElem (List.mem_range.mp member)⟩
    have noSector := onlyZeros write (List.mem_of_getElem? found)
    cases write with
    | sector fileOffset bytes => simp [LogWrite.isSector] at noSector
    | zeros fileOffset count =>
        obtain ⟨offsetLt, countLt⟩ :=
          content.small _ _ (List.mem_of_getElem? found)
        rw [writeAt_encodeEntry_zeros header offsetLt countLt found, found]
  rw [LogEntry.writes, descriptorCount_encodeEntry, List.filterMap_congr each,
    filterMap_getElem?_range]

/-- A sector is written to where the sequence number says. -/
theorem sector_mem_writes_encodeEntry
    (header : EntryHeader content.writes.length) {sequenceNumber : Nat}
    (sequenceLt : sequenceNumber < 2 ^ 64)
    {write : LogWrite} (member : write ∈ content.writes)
    (isSector : write.isSector = true) :
    ∃ bytes, bytes.length = 4096 ∧ LogWrite.sector sequenceNumber bytes ∈
      LogEntry.writes
        (encodeEntry header.bytes sequenceNumber content.writes) := by
  obtain ⟨index, found⟩ := List.mem_iff_getElem?.mp member
  have indexLt := (List.getElem?_eq_some_iff.mp found).1
  cases write with
  | zeros fileOffset count => simp [LogWrite.isSector] at isSector
  | sector fileOffset bytes =>
      have read := writeAt_encodeEntry_sector header content.full sequenceLt
        found
      have visited : index ∈ List.range (LogEntry.descriptorCount
          (encodeEntry header.bytes sequenceNumber content.writes)) := by
        rw [descriptorCount_encodeEntry]
        exact List.mem_range.mpr indexLt
      exact ⟨_, length_window_of_le
        (sectorOffset_encodeEntry header content.full found),
        List.mem_filterMap.mpr ⟨index, visited, read⟩⟩

/-- Replay decodes all encodings of exactly those contents that consist of
zero ranges. -/
theorem decodesEveryEncoding_iff :
    content.DecodesEveryEncoding ↔
      ∀ write ∈ content.writes, write.isSector = false := by
  have allocated := content.allocated
  unfold isizeMax at allocated
  constructor
  · intro decodes write member
    by_contra isSector
    let header : EntryHeader content.writes.length :=
      { bytes := layout 64 [(24, encodeLe 4 content.writes.length)]
        length_eq := length_layout _ _
        count_eq := le_layout (by simp) (by simp) (by decide)
          content.countLt }
    -- The end of a sector at the largest sequence number overflows.
    have lastSequence : 2 ^ 64 - 1 < 2 ^ 64 := by decide
    obtain ⟨bytes, bytesLength, written⟩ :=
      content.sector_mem_writes_encodeEntry header lastSequence member
        (by simpa using isSector)
    obtain ⟨applied, -⟩ := decodes header (2 ^ 64 - 1)
      (List.replicate content.len 0) (by decide) (by simp)
    have safe := (settles_applyEntry_iff (ε := VhdxError)
      (by simp [wordCount]; omega)
      (by
        have := length_encodeEntry header (2 ^ 64 - 1)
        omega)).mp (.of_eq_ok applied)
    have representable := safe.2 _ written
    simp [bytesLength, wordCount] at representable
  · intro onlyZeros header sequenceNumber data sequenceLt sameLength
    have decoded := content.writes_encodeEntry_of_zeros header sequenceNumber
      onlyZeros
    have room : 64 ≤ (encodeEntry header.bytes sequenceNumber
        content.writes).length := by
      have := length_encodeEntry header sequenceNumber
      omega
    have fits := tableFits_encodeEntry header sequenceNumber
    have lands : ∀ write ∈ content.writes, write.LandsIn data.length := by
      intro write member
      have noSector := onlyZeros write member
      cases write with
      | sector fileOffset bytes => simp [LogWrite.isSector] at noSector
      | zeros fileOffset count => exact LogWrite.landsIn_zeros
    have applySafe : LogEntry.ApplySafe
        (encodeEntry header.bytes sequenceNumber content.writes) := by
      refine ⟨fits, ?_⟩
      rw [decoded]
      intro write member
      have noSector := onlyZeros write member
      cases write with
      | sector fileOffset bytes => simp [LogWrite.isSector] at noSector
      | zeros fileOffset count => exact LogWrite.endRepresentable_zeros
    have overlaySafe : LogEntry.OverlaySafe
        (encodeEntry header.bytes sequenceNumber content.writes) := by
      refine ⟨fits, ?_⟩
      rw [decoded]
      intro write member
      cases write with
      | sector fileOffset bytes => exact LogWrite.allocatable_sector
      | zeros fileOffset count =>
          have inside : fileOffset + count ≤ content.len :=
            content.inContainer _ member
          simp only [LogWrite.allocatable_zeros, isizeMax]
          omega
    constructor
    · rw [applyEntry_eq_ok (by rw [sameLength, wordCount]; omega) room
        applySafe, decoded, applyWrites_eq_replayFrom,
        List.filter_eq_self.mpr fun write member => by
          simpa using lands write member]
    · refine ⟨_, overlayEntry_eq_ok room overlaySafe, ?_⟩
      intro pos old
      rw [decoded, LogOverlay.runs_foldl_record]
      exact LogOverlay.settle_nonempty _ _ _

/-- A sector of ones. -/
def ones : Bytes := List.replicate 4096 1

theorem length_ones : ones.length = 4096 := List.length_replicate

/-- One sector in the second half of 8 KiB. -/
def oneSector : LogContent where
  len := 8192
  writes := [.sector 4096 ones]
  allocated := by decide
  inContainer := by
    intro write member
    rw [List.mem_singleton.mp member]
    exact ⟨length_ones, by decide, by decide⟩
  countLt := by decide

/-- A header that announces one descriptor. -/
def oneDescriptor : EntryHeader oneSector.writes.length where
  bytes := layout 64 [(24, encodeLe 4 1)]
  length_eq := length_layout _ _
  count_eq :=
    le_layout (List.pairwise_singleton _ _) (List.mem_singleton.mpr rfl)
      (by decide) (by decide)

/-- Replay takes the sector of the entry with sequence number 1 to
offset 1. -/
theorem writes_oneSector : ∃ bytes, bytes.length = 4096 ∧
    LogEntry.writes (encodeEntry oneDescriptor.bytes 1 oneSector.writes) =
      [.sector 1 bytes] := by
  have found : oneSector.writes[0]? = some (.sector 4096 ones) := rfl
  let entry := encodeEntry oneDescriptor.bytes 1 oneSector.writes
  refine ⟨window entry (LogEntry.sectorOffset entry 0) 4096,
    length_window_of_le
      (sectorOffset_encodeEntry oneDescriptor oneSector.full found), ?_⟩
  rw [LogEntry.writes, descriptorCount_encodeEntry]
  change List.filterMap _ [0] = _
  rw [List.filterMap_cons, writeAt_encodeEntry_sector oneDescriptor
    oneSector.full (by decide) found]
  rfl

/-- The last byte of the sector does not reach the container. -/
theorem oneSector_misplaced : ¬ oneSector.DecodesEveryEncoding := by
  intro decodes
  have dataLength : (List.replicate 8192 (0 : UInt8)).length = 8192 :=
    List.length_replicate
  obtain ⟨applied, -⟩ := decodes oneDescriptor 1 (List.replicate 8192 0)
    (by decide) dataLength
  obtain ⟨bytes, bytesLength, read⟩ := writes_oneSector
  have room : 64 ≤
      (encodeEntry oneDescriptor.bytes 1 oneSector.writes).length :=
    le_trans (by rw [Nat.add_assoc]; exact Nat.le_add_right _ _)
      (length_encodeEntry oneDescriptor 1)
  have safe : LogEntry.ApplySafe
      (encodeEntry oneDescriptor.bytes 1 oneSector.writes) := by
    refine ⟨tableFits_encodeEntry oneDescriptor 1, ?_⟩
    rw [read]
    intro write member
    rw [List.mem_singleton.mp member, LogWrite.endRepresentable_sector,
      bytesLength]
    decide
  have small : (List.replicate 8192 (0 : UInt8)).length < wordCount := by
    rw [dataLength, wordCount]
    omega
  rw [applyEntry_eq_ok small room safe, read,
    applyWrites_eq_replayFrom, dataLength] at applied
  have landing : [LogWrite.sector 1 bytes].filter
      (fun write => write.LandsIn 8192) = [.sector 1 bytes] := by
    apply List.filter_eq_self.mpr
    intro write member
    rw [List.mem_singleton.mp member, decide_eq_true_iff,
      LogWrite.landsIn_sector, bytesLength]
    decide
  have lastByte := congrArg (fun image => image[8191]?)
    (Except.ok.inj applied)
  have lastZero : (List.replicate 8192 (0 : UInt8))[8191]? = some 0 :=
    List.getElem?_replicate_of_lt (by decide)
  have notWritten : ¬ Run.Covers (1, bytes) 8191 := by
    rintro ⟨-, ends⟩
    dsimp only at ends
    omega
  have written : Run.put (4096, ones) 8191 0 = 1 := by
    have covers : Run.Covers (4096, ones) 8191 := by
      constructor
      · decide
      · rw [length_ones]
        decide
    have last := Run.put_of_covers 0 covers
    rw [show ones[8191 - 4096]? = some 1 from
      List.getElem?_replicate_of_lt (by decide)] at last
    exact (Option.some.inj last).symm
  rw [landing] at lastByte
  simp only [getElem?_replayFrom, lastZero, Option.map_some, Nat.zero_add,
    oneSector, List.map_cons, List.map_nil, LogWrite.run, settle_cons,
    settle_nil, written, Run.put_of_not_covers 0 notWritten] at lastByte
  exact absurd (Option.some.inj lastByte) (by decide)

end LogContent
end VhdxForensic
