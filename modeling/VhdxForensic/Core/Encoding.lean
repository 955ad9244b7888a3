import VhdxForensic.Core.Opening
import VhdxForensic.Rust.Layout

/-!
# Encoding structures

The write side of the container format: blocks sealed with their checksum,
headers, and logs. Every structure is read back as it was written, which
makes it possible to speak of concrete containers without computing a single
checksum.
-/

namespace VhdxForensic

open Rust Rust.Bytes Rust.Exec

/-! ## Sealed blocks -/

/-- The block with its checksum stored at bytes 4 to 8. -/
def sealBlock (block : Bytes) : Bytes :=
  overwrite block 4 (encodeLe 4 (crc32c (clearChecksum block)))

section Seal

variable {block signature : Bytes}

theorem length_sealBlock (present : 8 ≤ block.length) :
    (sealBlock block).length = block.length :=
  length_overwrite (by simpa using present)

/-- Sealing shows only in the checksum field. -/
theorem window_sealBlock {off count : Nat}
    (present : 8 ≤ block.length)
    (apart : off + count ≤ 4 ∨ 8 ≤ off) :
    window (sealBlock block) off count = window block off count :=
  window_overwrite_of_disjoint (by simpa using present) (by simpa using apart)

/-- Sealing changes the checksum only. -/
theorem le_sealBlock {width off : Nat}
    (present : 8 ≤ block.length)
    (apart : off + width ≤ 4 ∨ 8 ≤ off) :
    le width (sealBlock block) off = le width block off :=
  le_overwrite_of_disjoint (by simpa using present) (by simpa using apart)

/-- Without its checksum a sealed block is as before. -/
theorem clearChecksum_sealBlock (present : 8 ≤ block.length) :
    clearChecksum (sealBlock block) = clearChecksum block := by
  have sealedLength := length_sealBlock present
  apply List.ext_getElem?
  intro index
  have written :
      4 + (encodeLe 4 (crc32c (clearChecksum block))).length ≤
        block.length := by
    simpa using present
  unfold clearChecksum
  rw [getElem?_overwrite (by simp; omega), getElem?_overwrite (by simp; omega)]
  by_cases cleared : 4 ≤ index ∧ index < 4 + [(0 : UInt8), 0, 0, 0].length
  · rw [if_pos cleared, if_pos cleared]
  · rw [if_neg cleared, if_neg cleared, sealBlock, getElem?_overwrite written,
      if_neg (by simpa using cleared)]

/-- A sealed block is valid. -/
theorem blockValid_sealBlock (present : 8 ≤ block.length)
    (signed : window block 0 4 = signature) :
    BlockValid (sealBlock block) 0 block.length signature := by
  have sealedLength := length_sealBlock present
  refine ⟨by omega, ?_, ?_⟩
  · rw [window_sealBlock present (by omega), signed]
  · rw [← sealedLength, window_zero_length, clearChecksum_sealBlock present]
    exact (le_overwrite_encodeLe (by omega) (crc32c_lt _)).symm

end Seal

/-! ## Headers -/

/-- The GUID that every encoded header carries for file and data writes. -/
def writeGuid : Bytes := List.replicate 16 1

@[simp] theorem length_writeGuid : writeGuid.length = 16 :=
  List.length_replicate

/-- The fields of a header at their places. -/
def headerPieces (header : VhdxHeader) : List Run :=
  [(0, headerSignature), (8, encodeLe 8 header.sequenceNumber),
    (16, writeGuid), (32, writeGuid), (48, header.logGuid),
    (64, encodeLe 2 1), (66, encodeLe 2 1),
    (68, encodeLe 4 header.logLength), (72, encodeLe 8 header.logOffset)]

/-- A header block. -/
def encodeHeader (header : VhdxHeader) : Bytes :=
  sealBlock (layout headerSize (headerPieces header))

/-- The fields of the header have their widths. -/
structure VhdxHeader.Encodable (header : VhdxHeader) : Prop where
  /-- The sequence number fits its field. -/
  sequenceNumber_lt : header.sequenceNumber < 2 ^ 64
  /-- The GUID of the log has 16 bytes. -/
  length_logGuid : header.logGuid.length = 16
  /-- The offset of the log fits its field. -/
  logOffset_lt : header.logOffset < 2 ^ 64
  /-- The length of the log fits its field. -/
  logLength_lt : header.logLength < 2 ^ 32

section Header

variable {header : VhdxHeader}

@[simp] theorem length_encodeHeader (header : VhdxHeader) :
    (encodeHeader header).length = headerSize := by
  rw [encodeHeader, length_sealBlock (by rw [length_layout]; decide),
    length_layout]

/-- The fields of a header do not overlap. -/
theorem headerPieces_apart (encodable : header.Encodable) :
    (headerPieces header).Pairwise Run.Apart := by
  simp [headerPieces, Run.Apart, headerSignature, encodable.length_logGuid]

/-- An encoded header is valid. -/
theorem headerValid_encodeHeader (encodable : header.Encodable) :
    HeaderValid (encodeHeader header) 0 := by
  have signed : window (layout headerSize (headerPieces header)) 0 4 =
      headerSignature :=
    window_layout (headerPieces_apart encodable) (by simp [headerPieces]) rfl
      (by decide)
  have valid := blockValid_sealBlock (by rw [length_layout]; decide) signed
  rwa [length_layout] at valid

/-- An encoded header decodes to itself. -/
theorem headerAt_encodeHeader (encodable : header.Encodable) :
    headerAt (encodeHeader header) 0 = header := by
  have apart := headerPieces_apart encodable
  have present : 8 ≤ (layout headerSize (headerPieces header)).length := by
    rw [length_layout]
    decide
  have sequenceNumber : leU64 (encodeHeader header) (0 + 8) =
      header.sequenceNumber :=
    (le_sealBlock present (by omega)).trans (le_layout apart
      (by simp [headerPieces]) (by decide) encodable.sequenceNumber_lt)
  have logGuid : leArr16 (encodeHeader header) (0 + 48) = header.logGuid := by
    rw [leArr16_eq_window (by rw [length_encodeHeader]; decide)]
    exact (window_sealBlock present (by omega)).trans (window_layout apart
      (by simp [headerPieces]) encodable.length_logGuid (by decide))
  have logOffset : leU64 (encodeHeader header) (0 + 72) = header.logOffset :=
    (le_sealBlock present (by omega)).trans (le_layout apart
      (by simp [headerPieces]) (by decide) encodable.logOffset_lt)
  have logLength : leU32 (encodeHeader header) (0 + 68) = header.logLength :=
    (le_sealBlock present (by omega)).trans (le_layout apart
      (by simp [headerPieces]) (by decide) encodable.logLength_lt)
  rw [headerAt, sequenceNumber, logGuid, logOffset, logLength]

/-- A container that holds an encoded header at a place has it there. -/
theorem header_of_window {data : Bytes} {offset : Nat}
    (encodable : header.Encodable)
    (inside : offset + headerSize ≤ data.length)
    (holds : window data offset headerSize = encodeHeader header) :
    HeaderValid data offset ∧ headerAt data offset = header := by
  have blockLength := length_encodeHeader header
  have same : window data offset headerSize =
      window (encodeHeader header) 0 headerSize := by
    rw [holds, ← blockLength, window_zero_length]
  constructor
  · exact (blockValid_congr (by decide) inside (by omega) same).mpr
      (headerValid_encodeHeader encodable)
  · rw [headerAt_congr inside (by omega) same, headerAt_encodeHeader encodable]

end Header

/-! ## Logs -/

/-- A log entry of `size` bytes with the given pieces besides its signature,
its length and its GUID. -/
def logEntryPieces (size : Nat) (logGuid : Bytes) (pieces : List Run) :
    List Run :=
  (0, logEntrySignature) :: (8, encodeLe 4 size) :: (32, logGuid) :: pieces

def encodeLogEntry (size : Nat) (logGuid : Bytes) (pieces : List Run) :
    Bytes :=
  sealBlock (layout size (logEntryPieces size logGuid pieces))

/-- The pieces of a log entry do not get in each other's way. -/
structure LogEntryFits (size : Nat) (logGuid : Bytes) (pieces : List Run) :
    Prop where
  /-- There is room for the entry header. -/
  header_le : 64 ≤ size
  /-- The length fits its field. -/
  size_lt : size < 2 ^ 32
  /-- The GUID has 16 bytes. -/
  length_logGuid : logGuid.length = 16
  /-- The pieces do not overlap. -/
  apart : (logEntryPieces size logGuid pieces).Pairwise Run.Apart

section LogEntries

variable {size : Nat} {logGuid : Bytes} {pieces : List Run}

theorem length_encodeLogEntry (fits : LogEntryFits size logGuid pieces) :
    (encodeLogEntry size logGuid pieces).length = size := by
  have header := fits.header_le
  rw [encodeLogEntry, length_sealBlock (by rw [length_layout]; omega),
    length_layout]

/-- A piece of a log entry is read back. -/
theorem window_encodeLogEntry {off count : Nat} {bytes : Bytes}
    (fits : LogEntryFits size logGuid pieces)
    (member : (off, bytes) ∈ logEntryPieces size logGuid pieces)
    (lengthEq : bytes.length = count)
    (inside : off + count ≤ size)
    (apart : off + count ≤ 4 ∨ 8 ≤ off) :
    window (encodeLogEntry size logGuid pieces) off count = bytes := by
  have header := fits.header_le
  rw [encodeLogEntry, window_sealBlock (by rw [length_layout]; omega) apart,
    window_layout fits.apart member lengthEq inside]

/-- A field of a log entry is read back. -/
theorem le_encodeLogEntry {width value off : Nat}
    (fits : LogEntryFits size logGuid pieces)
    (member : (off, encodeLe width value) ∈ logEntryPieces size logGuid pieces)
    (inside : off + width ≤ size)
    (valueFits : value < 256 ^ width)
    (apart : off + width ≤ 4 ∨ 8 ≤ off) :
    le width (encodeLogEntry size logGuid pieces) off = value := by
  have header := fits.header_le
  rw [encodeLogEntry, le_sealBlock (by rw [length_layout]; omega) apart,
    le_layout fits.apart member inside valueFits]

/-- The number of descriptors that an encoded entry announces. -/
theorem descriptorCount_encodeLogEntry {count : Nat}
    (fits : LogEntryFits size logGuid pieces)
    (member : (24, encodeLe 4 count) ∈ pieces)
    (countLt : count < 2 ^ 32) :
    LogEntry.descriptorCount (encodeLogEntry size logGuid pieces) = count := by
  have header := fits.header_le
  exact le_encodeLogEntry fits (by simp [logEntryPieces, member]) (by omega)
    countLt (by omega)

/-- A log has an entry where it holds an encoded one. -/
theorem logEntryAt_of_window {log : Bytes} {pos : Nat}
    (fits : LogEntryFits size logGuid pieces)
    (inside : pos + size ≤ log.length)
    (holds : window log pos size = encodeLogEntry size logGuid pieces) :
    LogEntryAt log pos ∧ nextEntry log pos = pos + size := by
  have header := fits.header_le
  have signed : window log pos 4 = logEntrySignature := by
    have first := @window_window_of_le log pos size 0 4 (by omega)
    rw [holds, Nat.add_zero] at first
    rw [← first]
    exact window_encodeLogEntry fits (by simp [logEntryPieces]) rfl (by omega)
      (by omega)
  have stored : leU32 log (pos + 8) = size := by
    rw [← leU32_window (by omega) inside, holds]
    exact le_encodeLogEntry fits (by simp [logEntryPieces]) (by omega)
      (by have := fits.size_lt; omega) (by omega)
  refine ⟨⟨signed, by omega, by omega⟩, ?_⟩
  rw [nextEntry, stored]

/-- It is valid there. -/
theorem logEntryValid_of_window {log : Bytes} {pos : Nat}
    (fits : LogEntryFits size logGuid pieces)
    (inside : pos + size ≤ log.length)
    (holds : window log pos size = encodeLogEntry size logGuid pieces) :
    LogEntryValid log logGuid pos size := by
  have header := fits.header_le
  have present : 8 ≤
      (layout size (logEntryPieces size logGuid pieces)).length := by
    rw [length_layout]
    omega
  constructor
  · have whole : BlockValid (encodeLogEntry size logGuid pieces) 0 _ _ :=
      blockValid_sealBlock present rfl
    have itself := window_zero_length (encodeLogEntry size logGuid pieces)
    have sealed := whole.2.2
    rw [length_encodeLogEntry fits] at itself
    rw [length_layout, itself] at sealed
    rw [holds, sealed, ← holds, leU32_window (by omega) inside]
  · have named := @window_window_of_le log pos size 32 16 (by omega)
    rw [← named, holds]
    exact window_encodeLogEntry fits (by simp [logEntryPieces])
      fits.length_logGuid (by omega) (by omega)

/-- It is kept there. -/
theorem keptEntry_of_window {log : Bytes} {pos : Nat}
    (fits : LogEntryFits size logGuid pieces)
    (inside : pos + size ≤ log.length)
    (holds : window log pos size = encodeLogEntry size logGuid pieces) :
    keptEntry log logGuid pos =
      some (leU64 (encodeLogEntry size logGuid pieces) 16,
        encodeLogEntry size logGuid pieces) := by
  have header := fits.header_le
  have next := (logEntryAt_of_window fits inside holds).2
  have stored : leU32 log (pos + 8) = size := by
    rw [nextEntry] at next
    omega
  rw [keptEntry, stored, if_pos (logEntryValid_of_window fits inside holds),
    ← holds, leU64_window (by omega) inside]

/-- An encoded entry is found at the start of its bytes, and it fills them. -/
theorem logEntryAt_encodeLogEntry (fits : LogEntryFits size logGuid pieces) :
    LogEntryAt (encodeLogEntry size logGuid pieces) 0 ∧
      nextEntry (encodeLogEntry size logGuid pieces) 0 = size := by
  have entryLength := length_encodeLogEntry fits
  have whole := window_zero_length (encodeLogEntry size logGuid pieces)
  rw [entryLength] at whole
  have found := logEntryAt_of_window fits (by omega) whole
  rwa [Nat.zero_add] at found

/-- The walk over an encoded entry visits its start only. -/
theorem visitsFrom_encodeLogEntry (fits : LogEntryFits size logGuid pieces) :
    visitsFrom (encodeLogEntry size logGuid pieces) 0 = [0] := by
  obtain ⟨entry, next⟩ := logEntryAt_encodeLogEntry fits
  have entryLength := length_encodeLogEntry fits
  rw [visitsFrom_of_entry entry, next, visitsFrom_of_no_entry]
  rintro ⟨-, large, inside⟩
  omega

/-- A log that holds one encoded entry and nothing more is replayed from
that entry. -/
theorem logEntries_encodeLogEntry (fits : LogEntryFits size logGuid pieces) :
    logEntries (encodeLogEntry size logGuid pieces) logGuid =
      [encodeLogEntry size logGuid pieces] := by
  have entryLength := length_encodeLogEntry fits
  have whole := window_zero_length (encodeLogEntry size logGuid pieces)
  rw [entryLength] at whole
  have collected : logEntriesFrom (encodeLogEntry size logGuid pieces) logGuid
      0 = [(leU64 (encodeLogEntry size logGuid pieces) 16,
        encodeLogEntry size logGuid pieces)] := by
    rw [logEntriesFrom_eq, visitsFrom_encodeLogEntry fits,
      List.filterMap_cons, keptEntry_of_window fits (by omega) whole]
    rfl
  rw [logEntries, collected, List.mergeSort_singleton]
  rfl

/-! Two encoded entries, one behind the other. -/

section TwoEntries

variable {log : Bytes} {first second : Nat} {firstGuid secondGuid : Bytes}
  {firstPieces secondPieces : List Run}

/-- Both entries are found in the log. -/
theorem windows_pair (fits : LogEntryFits first firstGuid firstPieces)
    (fits' : LogEntryFits second secondGuid secondPieces)
    (holds : log = encodeLogEntry first firstGuid firstPieces ++
      encodeLogEntry second secondGuid secondPieces) :
    log.length = first + second ∧
      window log 0 first = encodeLogEntry first firstGuid firstPieces ∧
      window log first second =
        encodeLogEntry second secondGuid secondPieces := by
  have long := length_encodeLogEntry fits
  have long' := length_encodeLogEntry fits'
  have whole := window_zero_length (encodeLogEntry first firstGuid firstPieces)
  have whole' :=
    window_zero_length (encodeLogEntry second secondGuid secondPieces)
  have behind := window_append_right
    (encodeLogEntry first firstGuid firstPieces)
    (encodeLogEntry second secondGuid secondPieces) 0 second
  rw [long] at whole behind
  rw [long'] at whole'
  rw [holds]
  refine ⟨?_, ?_, behind.trans whole'⟩
  · rw [List.length_append, long, long']
  · rw [window_append_left (by omega), whole]

/-- The walk visits both. -/
theorem visitsFrom_pair (fits : LogEntryFits first firstGuid firstPieces)
    (fits' : LogEntryFits second secondGuid secondPieces)
    (holds : log = encodeLogEntry first firstGuid firstPieces ++
      encodeLogEntry second secondGuid secondPieces) :
    visitsFrom log 0 = [0, first] := by
  obtain ⟨long, window1, window2⟩ := windows_pair fits fits' holds
  obtain ⟨entry, next⟩ := logEntryAt_of_window fits (by omega) window1
  obtain ⟨entry', next'⟩ := logEntryAt_of_window fits' (by omega) window2
  have ended : ¬ LogEntryAt log (first + second) := by
    rintro ⟨-, large, inside⟩
    omega
  rw [visitsFrom_of_entry entry, next, Nat.zero_add,
    visitsFrom_of_entry entry', next', visitsFrom_of_no_entry ended]

/-- Two entries of one GUID in the order of their sequence numbers are both
replayed in this order. -/
theorem logEntries_pair (fits : LogEntryFits first firstGuid firstPieces)
    (fits' : LogEntryFits second firstGuid secondPieces)
    (holds : log = encodeLogEntry first firstGuid firstPieces ++
      encodeLogEntry second firstGuid secondPieces)
    (ordered : leU64 (encodeLogEntry first firstGuid firstPieces) 16 ≤
      leU64 (encodeLogEntry second firstGuid secondPieces) 16) :
    logEntries log firstGuid = [encodeLogEntry first firstGuid firstPieces,
      encodeLogEntry second firstGuid secondPieces] := by
  obtain ⟨long, window1, window2⟩ := windows_pair fits fits' holds
  rw [logEntries, logEntriesFrom_eq, visitsFrom_pair fits fits' holds,
    List.filterMap_cons, keptEntry_of_window fits (by omega) window1,
    List.filterMap_cons, keptEntry_of_window fits' (by omega) window2,
    List.filterMap_nil, List.mergeSort_of_pairwise]
  · rfl
  · exact List.pairwise_pair.mpr (decide_eq_true ordered)

end TwoEntries

/-- A container with one header, in the first slot, and one log entry. -/
def dirtyContainer (len : Nat) (header : VhdxHeader) (entry : Bytes) :
    Bytes :=
  layout len [(0, fileMagic), (header1Offset, encodeHeader header),
    (header.logOffset, entry)]

@[simp] theorem length_dirtyContainer (len : Nat) (header : VhdxHeader)
    (entry : Bytes) : (dirtyContainer len header entry).length = len :=
  length_layout _ _

/-- Behind its log the container holds zeros. -/
theorem getElem?_dirtyContainer {len pos : Nat} {header : VhdxHeader}
    {entry : Bytes}
    (pastHeader : regionTable1Offset ≤ pos)
    (pastLog : header.logOffset + entry.length ≤ pos)
    (inside : pos < len) :
    (dirtyContainer len header entry)[pos]? = some 0 := by
  have sizes : header1Offset + headerSize ≤ regionTable1Offset ∧
      fileMagic.length ≤ regionTable1Offset := by
    decide
  have headerLength := length_encodeHeader header
  rw [dirtyContainer, getElem?_layout, if_pos inside, settle_of_not_covers]
  intro piece member
  simp only [List.mem_cons, List.not_mem_nil, or_false] at member
  rintro ⟨-, ends⟩
  rcases member with rfl | rfl | rfl <;> dsimp only at ends <;> omega

/-- The container is large enough and the log lies behind the header
slots. -/
structure DirtyContainerFits (len : Nat) (header : VhdxHeader)
    (entry : Bytes) : Prop where
  /-- The header can be encoded. -/
  encodable : header.Encodable
  /-- It names a log to replay. -/
  dirty : ¬ header.IsClean
  /-- The reader accepts the size. -/
  large : VhdxReader.minContainerSize ≤ len
  /-- The log lies behind the header copies. -/
  behind : regionTable1Offset ≤ header.logOffset
  /-- The log is the entry. -/
  logLength_eq : header.logLength = entry.length
  /-- It lies in the container. -/
  inside : header.logOffset + entry.length ≤ len

section Dirty

variable {len : Nat} {header : VhdxHeader} {entry : Bytes}

/-- The pieces of the container do not get in each other's way. -/
theorem DirtyContainerFits.apart
    (fits : DirtyContainerFits len header entry) :
    [(0, fileMagic), (header1Offset, encodeHeader header),
      (header.logOffset, entry)].Pairwise Run.Apart := by
  have behind := fits.behind
  have headerLength := length_encodeHeader header
  have sizes : header1Offset + headerSize ≤ regionTable1Offset ∧
      fileMagic.length ≤ header1Offset := by
    decide
  simp only [Run.Apart, List.pairwise_cons, List.mem_cons,
    List.not_mem_nil, or_false, forall_eq_or_imp, forall_eq,
    List.Pairwise.nil, and_true, false_imp_iff, forall_const]
  omega

theorem DirtyContainerFits.magic
    (fits : DirtyContainerFits len header entry) :
    window (dirtyContainer len header entry) 0 8 = fileMagic :=
  window_layout fits.apart (by simp) rfl (by
    have := fits.large
    have : 8 ≤ VhdxReader.minContainerSize := by decide
    omega)

/-- The header in the first slot is the active one. -/
theorem DirtyContainerFits.activeHeader_eq
    (fits : DirtyContainerFits len header entry) :
    activeHeader (dirtyContainer len header entry) = some header := by
  have apart := fits.apart
  obtain ⟨encodable, dirty, large, behind, logLength, inside⟩ := fits
  have sizes : header1Offset + headerSize ≤ header2Offset ∧
      header2Offset + headerSize ≤ regionTable1Offset ∧
      regionTable1Offset ≤ VhdxReader.minContainerSize ∧
      fileMagic.length ≤ header1Offset ∧ headerSize = 4096 ∧
      fileMagic.length = 8 := by
    decide
  have headerLength := length_encodeHeader header
  have containerLength := length_dirtyContainer len header entry
  have firstSlot : window (dirtyContainer len header entry) header1Offset
      headerSize = encodeHeader header :=
    window_layout apart (by simp) headerLength (by omega)
  obtain ⟨firstValid, firstFields⟩ :=
    header_of_window encodable (by omega) firstSlot
  have secondInvalid :
      ¬ HeaderValid (dirtyContainer len header entry) header2Offset := by
    rintro ⟨-, signed, -⟩
    have gap : window (dirtyContainer len header entry) header2Offset 4 =
        List.replicate 4 0 := by
      apply window_layout_gap
      · omega
      · simp only [List.mem_cons, List.not_mem_nil, or_false, forall_eq_or_imp,
          forall_eq]
        omega
    rw [gap] at signed
    exact absurd signed (by decide)
  rw [activeHeader, activeHeaderOffset, if_pos firstValid,
    if_neg secondInvalid, Option.map_some, firstFields]

/-- The log of the container is what was laid down. -/
theorem DirtyContainerFits.logRegion_eq
    (fits : DirtyContainerFits len header entry) :
    logRegion (dirtyContainer len header entry) header = entry :=
  window_layout fits.apart (by simp) fits.logLength_eq.symm (by
    rw [fits.logLength_eq]
    exact fits.inside)

end Dirty

/-- The entry of such a container is replayed. -/
theorem replayedEntries_dirtyContainer {len : Nat} {header : VhdxHeader}
    (fits : LogEntryFits size header.logGuid pieces)
    (containerFits : DirtyContainerFits len header
      (encodeLogEntry size header.logGuid pieces)) :
    VhdxReader.replayedEntries (dirtyContainer len header
        (encodeLogEntry size header.logGuid pieces)) =
      [encodeLogEntry size header.logGuid pieces] := by
  have large := containerFits.large
  have inside := containerFits.inside
  have logLength := containerFits.logLength_eq
  have containerLength := length_dirtyContainer len header
    (encodeLogEntry size header.logGuid pieces)
  rw [VhdxReader.replayedEntries, containerFits.activeHeader_eq]
  dsimp only
  rw [if_pos ⟨containerFits.magic, by omega, containerFits.dirty, by omega⟩,
    containerFits.logRegion_eq, logEntries_encodeLogEntry fits]

end LogEntries

end VhdxForensic
