import VhdxForensic.Core.Encoding
import VhdxForensic.Rust.LastWriter
import VhdxForensic.Rust.Sort

/-!
# Bytes of the overlay

The descriptors of the collected entries are ordered by the sequence number of
the entry, its position in the log and their index. The overlay shows every
position of the container as the greatest descriptor that covers it left it,
no matter how the container is cut into reads.
-/

namespace VhdxForensic

open Rust Rust.Bytes Rust.Exec LogEntry

variable {ε : Type}

/-- Sequence number, log position and descriptor index, in this order. -/
abbrev WriteKey := Nat ×ₗ Nat ×ₗ Nat

def writeKey (sequence position index : Nat) : WriteKey :=
  toLex (sequence, toLex (position, index))

/-- A collected entry with its sequence number and its position. -/
structure CollectedEntry where
  /-- Sequence number of the entry. -/
  sequence : Nat
  /-- Where the entry starts in the log. -/
  position : Nat
  /-- The whole entry. -/
  bytes : Bytes

/-- The descriptor with the given key writes the run. -/
def DescriptorAt (log expectedGuid : Bytes) (key : WriteKey) (run : Run) :
    Prop :=
  ∃ sequence position index entry,
    key = writeKey sequence position index ∧
      position ∈ visitsFrom log 0 ∧
      keptEntry log expectedGuid position = some (sequence, entry) ∧
      index < descriptorCount entry ∧
      ∃ write ∈ writeAt entry index, run = write.run

/-- Patch consecutive pieces, each at its own offset. -/
def LogOverlay.patchPieces (overlay : LogOverlay) :
    Nat → List Bytes → Exec ε (List Bytes)
  | _, [] => return []
  | readOff, piece :: rest => do
      let patched ← overlay.patch piece readOff
      let patchedRest ← overlay.patchPieces (readOff + piece.length) rest
      return patched :: patchedRest

/-! ## Runs in the order of their keys -/

/-- What is collected of the entry at a position. -/
def collectedAt (log expectedGuid : Bytes) (position : Nat) :
    Option CollectedEntry :=
  (keptEntry log expectedGuid position).map fun kept =>
    { sequence := kept.1, position, bytes := kept.2 }

/-- The collected entries in the order of replay. -/
def collectedEntries (log expectedGuid : Bytes) : List CollectedEntry :=
  ((visitsFrom log 0).filterMap (collectedAt log expectedGuid)).mergeSort
    fun a b => decide (a.sequence ≤ b.sequence)

/-- The runs of an entry with their keys. -/
def CollectedEntry.keyedRuns (entry : CollectedEntry) :
    List (WriteKey × Run) :=
  (List.range (descriptorCount entry.bytes)).filterMap fun index =>
    (writeAt entry.bytes index).map fun write =>
      (writeKey entry.sequence entry.position index, write.run)

/-- All runs with their keys in the order of replay. -/
def keyedRuns (log expectedGuid : Bytes) : List (WriteKey × Run) :=
  (collectedEntries log expectedGuid).flatMap CollectedEntry.keyedRuns

theorem writeKey_lt {sequence position index sequence' position' index' : Nat} :
    writeKey sequence position index < writeKey sequence' position' index' ↔
      sequence < sequence' ∨
        sequence = sequence' ∧
          (position < position' ∨ position = position' ∧ index < index') := by
  unfold writeKey
  rw [Prod.Lex.toLex_lt_toLex, Prod.Lex.toLex_lt_toLex]

section Order

variable (log expectedGuid : Bytes)

theorem logEntries_eq_collected :
    logEntries log expectedGuid =
      (collectedEntries log expectedGuid).map CollectedEntry.bytes := by
  have tagged : logEntriesFrom log expectedGuid 0 =
      ((visitsFrom log 0).filterMap (collectedAt log expectedGuid)).map
        fun entry => (entry.sequence, entry.bytes) := by
    rw [logEntriesFrom_eq, List.map_filterMap]
    apply List.filterMap_congr
    intro position _
    rw [collectedAt, Option.map_map]
    exact Option.map_id'.symm
  have sorted := @List.map_mergeSort CollectedEntry (Nat × Bytes)
    (fun a b => decide (a.sequence ≤ b.sequence))
    (fun a b => decide (a.1 ≤ b.1))
    (fun entry => (entry.sequence, entry.bytes))
    ((visitsFrom log 0).filterMap (collectedAt log expectedGuid))
    (fun _ _ _ _ => rfl)
  rw [logEntries, tagged, ← sorted, List.map_map]
  rfl

/-- Collected entries stand in the order of their sequence numbers, equal
ones in the order of the log. -/
theorem collectedEntries_sorted :
    (collectedEntries log expectedGuid).Pairwise fun a b =>
      a.sequence < b.sequence ∨
        a.sequence = b.sequence ∧ a.position < b.position := by
  apply pairwise_mergeSort_lex
  refine (visitsFrom_ascending log 0).filterMap _ ?_
  intro position position' ascending a aFound b bFound
  obtain ⟨-, -, rfl⟩ := Option.map_eq_some_iff.mp aFound
  obtain ⟨-, -, rfl⟩ := Option.map_eq_some_iff.mp bFound
  exact ascending

theorem CollectedEntry.mem_keyedRuns {entry : CollectedEntry}
    {item : WriteKey × Run} :
    item ∈ entry.keyedRuns ↔
      ∃ index < descriptorCount entry.bytes,
        ∃ write ∈ writeAt entry.bytes index,
          (writeKey entry.sequence entry.position index, write.run) =
            item := by
  unfold keyedRuns
  simp only [List.mem_filterMap, List.mem_range, Option.map_eq_some_iff,
    Option.mem_def]

theorem CollectedEntry.keyedRuns_sorted (entry : CollectedEntry) :
    entry.keyedRuns.Pairwise fun a b => a.1 < b.1 := by
  refine List.pairwise_lt_range.filterMap _ ?_
  intro index index' ascending a aFound b bFound
  obtain ⟨-, -, rfl⟩ := Option.map_eq_some_iff.mp aFound
  obtain ⟨-, -, rfl⟩ := Option.map_eq_some_iff.mp bFound
  exact writeKey_lt.mpr (Or.inr ⟨rfl, Or.inr ⟨rfl, ascending⟩⟩)

/-- The overlay's runs stand in the order of their keys. -/
theorem keyedRuns_sorted :
    (keyedRuns log expectedGuid).Pairwise fun a b => a.1 < b.1 := by
  rw [keyedRuns, List.pairwise_flatMap]
  refine ⟨fun entry _ => entry.keyedRuns_sorted,
    (collectedEntries_sorted log expectedGuid).imp ?_⟩
  intro entry later before a aMember b bMember
  obtain ⟨index, -, write, -, rfl⟩ :=
    CollectedEntry.mem_keyedRuns.mp aMember
  obtain ⟨index', -, write', -, rfl⟩ :=
    CollectedEntry.mem_keyedRuns.mp bMember
  refine writeKey_lt.mpr ?_
  rcases before with less | ⟨same, less⟩
  · exact Or.inl less
  · exact Or.inr ⟨same, Or.inl less⟩

theorem mem_keyedRuns {key : WriteKey} {run : Run} :
    (key, run) ∈ keyedRuns log expectedGuid ↔
      DescriptorAt log expectedGuid key run := by
  unfold keyedRuns collectedEntries
  simp only [List.mem_flatMap, List.mem_mergeSort, List.mem_filterMap,
    CollectedEntry.mem_keyedRuns, collectedAt, Option.map_eq_some_iff]
  constructor
  · rintro ⟨-, ⟨position, visited, kept, found, rfl⟩, index, indexLt, write,
      decoded, same⟩
    cases same
    exact ⟨kept.1, position, index, kept.2, rfl, visited, found, indexLt,
      write, decoded, rfl⟩
  · rintro ⟨sequence, position, index, entry, rfl, visited, found, indexLt,
      write, decoded, rfl⟩
    exact ⟨_, ⟨position, visited, (sequence, entry), found, rfl⟩, index,
      indexLt, write, decoded, rfl⟩

/-- Forgetting the keys leaves the runs of the collected entries. -/
theorem keyedRuns_runs :
    (keyedRuns log expectedGuid).map Prod.snd =
      (entryWrites (logEntries log expectedGuid)).map LogWrite.run := by
  rw [logEntries_eq_collected, entryWrites, keyedRuns, List.map_flatMap,
    List.flatMap_map, List.map_flatMap]
  congr 1
  funext entry
  rw [CollectedEntry.keyedRuns, LogEntry.writes, List.map_filterMap,
    List.map_filterMap]
  congr 1
  funext index
  rw [Option.map_map]
  rfl

end Order

/-! ## What patching shows -/

/-- The byte that a descriptor's run has at a position. -/
def WrittenAt (run : Run) (pos : Nat) (byte : UInt8) : Prop :=
  run.2[pos - run.1]? = some byte

/-- No other descriptor that covers the position has a greater key. -/
def GreatestCovering (log expectedGuid : Bytes) (pos : Nat) (key : WriteKey)
    (run : Run) : Prop :=
  DescriptorAt log expectedGuid key run ∧ run.Covers pos ∧
    ∀ other otherRun, DescriptorAt log expectedGuid other otherRun →
      otherRun.Covers pos → other ≤ key

/-- Every read up to 2^64 is patched, without errors, so that each byte is the
one of the greatest covering descriptor or the original one, and reading the
range in pieces gives the same bytes. -/
def LogOverlay.ShowsLastWriter (overlay : LogOverlay)
    (log expectedGuid : Bytes) : Prop :=
  ∀ (buf : Bytes) (readOff : Nat), readOff + buf.length < 2 ^ 64 →
    ∃ patched, (overlay.patch buf readOff : Exec VhdxError _) = .ok patched ∧
      patched.length = buf.length ∧
      (∀ i old, buf[i]? = some old → ∃ byte, patched[i]? = some byte ∧
        ((∀ key run, DescriptorAt log expectedGuid key run →
            ¬ run.Covers (readOff + i)) ∧ byte = old ∨
          ∃ key run,
            GreatestCovering log expectedGuid (readOff + i) key run ∧
              WrittenAt run (readOff + i) byte)) ∧
      ∀ pieces : List Bytes, pieces.flatten = buf →
        ∃ patchedPieces,
          (overlay.patchPieces readOff pieces : Exec VhdxError _) =
            .ok patchedPieces ∧
          patchedPieces.flatten = patched

section Patch

variable {log expectedGuid : Bytes}

/-- The overlay holds the nonempty runs in the order of their keys. -/
theorem runs_of_recorded {entries : List Bytes} {overlay : LogOverlay}
    (allocated : log.length ≤ isizeMax)
    (collected : (collectEntries log expectedGuid : Exec ε _) = .ok entries)
    (recorded : (entries.foldlM overlayEntry {} : Exec ε _) = .ok overlay) :
    overlay.runs = ((keyedRuns log expectedGuid).map Prod.snd).filter
      fun run => decide (run.2 ≠ []) := by
  rw [collectEntries_eq expectedGuid allocated] at collected
  cases collected
  have headers : ∀ entry ∈ logEntries log expectedGuid, 64 ≤ entry.length :=
    fun entry member => header_le_of_mem_logEntries member
  have safe := (settles_foldlM_overlayEntry_iff {} headers).mp
    (.of_eq_ok recorded)
  rw [foldlM_overlayEntry_eq_ok headers safe] at recorded
  cases recorded
  rw [LogOverlay.runs_foldl_record, List.nil_append, keyedRuns_runs]

/-- A position is left alone or shows its greatest covering descriptor. -/
theorem settle_greatest (pos : Nat) (old : UInt8) :
    (∀ key run, DescriptorAt log expectedGuid key run → ¬ run.Covers pos) ∧
        settle ((keyedRuns log expectedGuid).map Prod.snd) pos old = old ∨
      ∃ key run, GreatestCovering log expectedGuid pos key run ∧
        WrittenAt run pos
          (settle ((keyedRuns log expectedGuid).map Prod.snd) pos old) := by
  rcases settle_lastWriter (keyedRuns_sorted log expectedGuid) pos old with
    ⟨missed, unchanged⟩ | ⟨⟨key, run⟩, writer, byte⟩
  · refine Or.inl ⟨fun key run descriptor => ?_, unchanged⟩
    exact missed (key, run) ((mem_keyedRuns log expectedGuid).mpr descriptor)
  · refine Or.inr ⟨key, run, ⟨?_, writer.covers, ?_⟩, byte⟩
    · exact (mem_keyedRuns log expectedGuid).mp writer.member
    · intro other otherRun descriptor covers
      exact writer.greatest (other, otherRun)
        ((mem_keyedRuns log expectedGuid).mpr descriptor) covers

/-- Patching pieces replays the runs over each of them. -/
theorem patchPieces_eq_ok (overlay : LogOverlay) {readOff : Nat}
    {pieces : List Bytes}
    (small : readOff + pieces.flatten.length < wordCount) :
    (overlay.patchPieces readOff pieces : Exec ε _) =
      .ok (replayPieces overlay.runs readOff pieces) := by
  induction pieces generalizing readOff with
  | nil => rfl
  | cons piece rest inductionHypothesis =>
      rw [List.flatten_cons, List.length_append] at small
      rw [LogOverlay.patchPieces, overlay.patch_eq_ok (by omega), ok_bind,
        inductionHypothesis (by omega), ok_bind]
      rfl

/-- What is recorded of a log is the last writer of every position, and a
range may be read in any pieces. -/
theorem showsLastWriter_of_recorded {entries : List Bytes}
    {overlay : LogOverlay} (allocated : log.length ≤ isizeMax)
    (collected : (collectEntries log expectedGuid : Exec ε _) = .ok entries)
    (recorded : (entries.foldlM overlayEntry {} : Exec ε _) = .ok overlay) :
    overlay.ShowsLastWriter log expectedGuid := by
  intro buf readOff small
  have runs := runs_of_recorded allocated collected recorded
  refine ⟨replayFrom readOff overlay.runs buf, overlay.patch_eq_ok small,
    length_replayFrom _ _ _, ?_, ?_⟩
  · intro i old present
    refine ⟨_, by rw [getElem?_replayFrom, present, Option.map_some], ?_⟩
    rw [runs, LogOverlay.settle_nonempty]
    exact settle_greatest (readOff + i) old
  · rintro pieces rfl
    exact ⟨_, patchPieces_eq_ok overlay small,
      replayFrom_flatten overlay.runs readOff pieces⟩

/-- Recording stops at zero runs that are too large to allocate, and at
nothing else. -/
theorem overlay_lastWriter {entries : List Bytes}
    (allocated : log.length ≤ isizeMax)
    (collected : (collectEntries log expectedGuid : Exec ε _) = .ok entries)
    (tables : ∀ entry ∈ entries, TableFits entry) :
    (Settles (entries.foldlM overlayEntry {} : Exec ε LogOverlay) ↔
      ∀ write ∈ entryWrites entries, write.Allocatable) ∧
    ∀ overlay, (entries.foldlM overlayEntry {} : Exec ε _) = .ok overlay →
      overlay.ShowsLastWriter log expectedGuid := by
  constructor
  · have entriesEq := collected
    rw [collectEntries_eq expectedGuid allocated] at entriesEq
    cases entriesEq
    rw [settles_foldlM_overlayEntry_iff {} fun entry member =>
      header_le_of_mem_logEntries member]
    constructor
    · intro safe write member
      obtain ⟨entry, entryMember, written⟩ := List.mem_flatMap.mp member
      exact (safe entry entryMember).2 write written
    · intro allocatable entry member
      refine ⟨tables entry member, fun write written => ?_⟩
      exact allocatable write (List.mem_flatMap.mpr ⟨entry, member, written⟩)
  · intro overlay recorded
    exact showsLastWriter_of_recorded allocated collected recorded

/-- The overlay that is built for the active header shows the last writers
of its log region. -/
theorem buildOverlay_lastWriter {backing : Backing} {header : VhdxHeader}
    {overlay : LogOverlay} (allocated : backing.view.length ≤ isizeMax)
    (active : activeHeader backing.view = some header)
    (dirty : ¬ header.IsClean)
    (built : buildOverlay backing header = .ok overlay) :
    overlay.ShowsLastWriter (logRegion backing.view header)
      header.logGuid := by
  have opened := buildOverlay_eq allocated
  rw [active, okOr_some, ok_bind, built, pendingEntries, active] at opened
  dsimp only at opened
  rw [if_neg dirty] at opened
  have region : (logRegion backing.view header).length ≤ isizeMax := by
    rw [logRegion, length_window]
    omega
  by_cases leaves : backing.view.length < header.logOffset + header.logLength
  · rw [if_pos leaves] at opened
    cases opened
  · rw [if_neg leaves, ok_bind] at opened
    exact showsLastWriter_of_recorded region (collectEntries_eq _ region)
      opened.symm

end Patch

/-! ## Clearing entries -/

/-- Sequence number, count and descriptor of an entry that only clears a
range. -/
def clearingPieces (sequence fileOffset count : Nat) : List Run :=
  [(16, encodeLe 8 sequence), (24, encodeLe 4 1),
    (64, zeroDescriptorSignature), (72, encodeLe 8 count),
    (80, encodeLe 8 fileOffset)]

/-- An entry with one zero descriptor. -/
def clearingEntry (logGuid : Bytes) (sequence fileOffset count : Nat) :
    Bytes :=
  encodeLogEntry 96 logGuid (clearingPieces sequence fileOffset count)

section Clearing

variable {logGuid : Bytes} {sequence fileOffset count : Nat}

theorem clearingEntry_fits (lengthEq : logGuid.length = 16) :
    LogEntryFits 96 logGuid (clearingPieces sequence fileOffset count) where
  header_le := by decide
  size_lt := by decide
  length_logGuid := lengthEq
  apart := by
    simp [logEntryPieces, clearingPieces, Run.Apart, lengthEq,
      logEntrySignature, zeroDescriptorSignature]

theorem length_clearingEntry (lengthEq : logGuid.length = 16) :
    (clearingEntry logGuid sequence fileOffset count).length = 96 :=
  length_encodeLogEntry (clearingEntry_fits lengthEq)

theorem descriptorCount_clearingEntry (lengthEq : logGuid.length = 16) :
    descriptorCount (clearingEntry logGuid sequence fileOffset count) = 1 :=
  descriptorCount_encodeLogEntry (clearingEntry_fits lengthEq)
    (by simp [clearingPieces]) (by decide)

theorem tableFits_clearingEntry (lengthEq : logGuid.length = 16) :
    TableFits (clearingEntry logGuid sequence fileOffset count) := by
  rw [TableFits, dataSectorBase, descriptorCount_clearingEntry lengthEq,
    length_clearingEntry lengthEq]

theorem sequence_clearingEntry (lengthEq : logGuid.length = 16)
    (sequenceLt : sequence < 2 ^ 64) :
    leU64 (clearingEntry logGuid sequence fileOffset count) 16 = sequence :=
  le_encodeLogEntry (clearingEntry_fits lengthEq)
    (by simp [logEntryPieces, clearingPieces]) (by decide) (by omega)
    (by decide)

/-- The only write of a clearing entry is its zero run. -/
theorem writes_clearingEntry (lengthEq : logGuid.length = 16)
    (offsetLt : fileOffset < 2 ^ 64) (countLt : count < 2 ^ 64) :
    writes (clearingEntry logGuid sequence fileOffset count) =
      [.zeros fileOffset count] := by
  have fits : LogEntryFits 96 logGuid
      (clearingPieces sequence fileOffset count) :=
    clearingEntry_fits lengthEq
  have long : (clearingEntry logGuid sequence fileOffset count).length = 96 :=
    length_clearingEntry lengthEq
  have signed : window (descriptor
      (clearingEntry logGuid sequence fileOffset count) 0) 0 4 =
        zeroDescriptorSignature := by
    rw [descriptor, window_window_of_le (by omega)]
    exact window_encodeLogEntry fits
      (by simp [logEntryPieces, clearingPieces]) rfl (by decide) (by decide)
  have field : ∀ inner value,
      (64 + inner, encodeLe 8 value) ∈ logEntryPieces 96 logGuid
        (clearingPieces sequence fileOffset count) →
      inner + 8 ≤ 32 → value < 2 ^ 64 →
      leU64 (descriptor (clearingEntry logGuid sequence fileOffset count) 0)
        inner = value := by
    intro inner value member inside valueLt
    rw [descriptor, leU64_window inside (by omega)]
    exact le_encodeLogEntry fits member (by omega) (by omega) (by omega)
  have decoded : writeAt (clearingEntry logGuid sequence fileOffset count)
      0 = some (.zeros fileOffset count) := by
    rw [writeAt, isData, isZero, signed, if_neg (by decide),
      if_pos (by decide),
      field 16 fileOffset (by simp [logEntryPieces, clearingPieces])
        (by decide) offsetLt,
      field 8 count (by simp [logEntryPieces, clearingPieces]) (by decide)
        countLt]
  rw [writes, descriptorCount_clearingEntry lengthEq]
  simp [decoded]

theorem logEntries_clearingEntry (lengthEq : logGuid.length = 16) :
    logEntries (clearingEntry logGuid sequence fileOffset count) logGuid =
      [clearingEntry logGuid sequence fileOffset count] :=
  logEntries_encodeLogEntry (clearingEntry_fits lengthEq)

end Clearing

/-! ## Logs of two entries -/

/-- Two entries that clear 4 KiB each, the second one from the middle of what
the first one clears. -/
def overlappingLog : Bytes :=
  clearingEntry (List.replicate 16 1) 1 0x200000 0x1000 ++
    clearingEntry (List.replicate 16 1) 2 0x200800 0x1000

theorem length_overlappingLog : overlappingLog.length = 192 := by
  rw [overlappingLog, List.length_append, length_clearingEntry rfl,
    length_clearingEntry rfl]

/-- Both entries are replayed, the first one first. -/
theorem logEntries_overlappingLog :
    logEntries overlappingLog (List.replicate 16 1) =
      [clearingEntry (List.replicate 16 1) 1 0x200000 0x1000,
        clearingEntry (List.replicate 16 1) 2 0x200800 0x1000] := by
  have first := @sequence_clearingEntry (List.replicate 16 1) 1 0x200000
    0x1000 rfl (by decide)
  have second := @sequence_clearingEntry (List.replicate 16 1) 2 0x200800
    0x1000 rfl (by decide)
  rw [clearingEntry] at first second
  refine logEntries_pair (clearingEntry_fits rfl) (clearingEntry_fits rfl) rfl
    ?_
  rw [first, second]
  decide

theorem overlay_lastWriter_overlappingLog :
    (Settles ((logEntries overlappingLog (List.replicate 16 1)).foldlM
        overlayEntry {} : Exec VhdxError LogOverlay) ↔
      ∀ write ∈ entryWrites
          (logEntries overlappingLog (List.replicate 16 1)),
        write.Allocatable) ∧
    ∀ overlay,
      ((logEntries overlappingLog (List.replicate 16 1)).foldlM overlayEntry
          {} : Exec VhdxError _) = .ok overlay →
      overlay.ShowsLastWriter overlappingLog (List.replicate 16 1) := by
  have allocated : overlappingLog.length ≤ isizeMax := by
    rw [length_overlappingLog]
    decide
  refine overlay_lastWriter allocated (collectEntries_eq _ allocated) ?_
  intro entry member
  rw [logEntries_overlappingLog] at member
  rcases List.mem_pair.mp member with rfl | rfl <;>
    exact tableFits_clearingEntry rfl

end VhdxForensic
