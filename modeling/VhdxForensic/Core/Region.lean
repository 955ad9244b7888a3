import VhdxForensic.Core.Header
import VhdxForensic.Rust.Loop

/-!
# Region tables

A region table names the regions of a container by GUID. Two copies lie in
fixed 64 KiB slots; the last entry with a GUID is the one that counts.
-/

namespace VhdxForensic

open Rust Rust.Bytes Rust.Exec

/-- `b"regi"`. -/
def regionTableSignature : Bytes := [0x72, 0x65, 0x67, 0x69]

def regionEntrySize : Nat := 32

/-- Byte size of a region table block, all of it under the checksum. -/
def regionTableCrcCoverage : Nat := 65536

/-- 1 MiB. -/
def mb : Nat := 0x100000

def batGuid : Bytes :=
  [0x66, 0x77, 0xC2, 0x2D, 0x23, 0xF6, 0x00, 0x42,
   0x9D, 0x64, 0x11, 0x5E, 0x9B, 0xFD, 0x4A, 0x08]

def metadataGuid : Bytes :=
  [0x06, 0xA2, 0x7C, 0x8B, 0x90, 0x47, 0x9A, 0x4B,
   0xB8, 0xFE, 0x57, 0x5F, 0x05, 0x0F, 0x88, 0x6E]

/-- Cap on the number of entries read from one table. -/
def regionEntryCountMax : Nat := 2048

structure RegionEntry where
  /-- Which region it is. -/
  guid : Bytes
  /-- Where it starts. -/
  fileOffset : Nat
  /-- How long it is. -/
  length : Nat
  deriving DecidableEq, Repr

structure RegionTable where
  /-- Region of the block allocation table. -/
  bat : RegionEntry
  /-- Region of the metadata. -/
  metadata : RegionEntry
  deriving DecidableEq, Repr

/-- One table entry: check its range and remember it if it is known. -/
def regionTableStep (table : Bytes) (containerLen : Nat)
    (index : Nat) (state : Option RegionEntry × Option RegionEntry) :
    Exec VhdxError
      (ForInStep (Option RegionEntry × Option RegionEntry)) := do
  let (bat, metadata) := state
  let base ← add 16 (index * regionEntrySize)
  let entryEnd ← add base regionEntrySize
  if entryEnd > table.length then return .done (bat, metadata)
  else
    let guid ← slice table base (base + 16)
    let fileOffset := leU64 table (base + 16)
    let length := leU32 table (base + 24)
    let regionEnd ← okOr (checkedAdd fileOffset length) .offsetOutOfBounds
    failIf (regionEnd > containerLen) .offsetOutOfBounds
    let entry : RegionEntry := { guid, fileOffset, length }
    if guid = batGuid then return .yield (some entry, metadata)
    else if guid = metadataGuid then return .yield (bat, some entry)
    else return .yield (bat, metadata)

/-- Parse the region table at `offset`. Region ranges are checked against
the size of the whole container. -/
def parseRegionTable (data : Bytes) (offset containerLen : Nat) :
    Exec VhdxError RegionTable := do
  let headerEnd ← add offset 16
  failIf (data.length < headerEnd) .invalidRegionTable
  let table ← slice data offset data.length
  let signature ← slice table 0 4
  failIf (signature ≠ regionTableSignature) .invalidRegionTable
  let storedCrc := leU32 table 4
  let covered ← slice table 0 (min regionTableCrcCoverage table.length)
  let buf := covered ++
    List.replicate (regionTableCrcCoverage - covered.length) 0
  let buf ← fill buf 4 8 0
  failIf (crc32c buf ≠ storedCrc) .invalidRegionTable
  let entryCount := min (leU32 table 8) regionEntryCountMax
  let (bat, metadata) ← forRange entryCount
    (regionTableStep table containerLen) (none, none)
  let bat ← okOr bat .batRegionMissing
  let metadata ← okOr metadata .metadataRegionMissing
  return { bat, metadata }

/-! ## What parsing computes -/

/-- The region table copy at `offset` is present, signed and checksummed. -/
def RegionTableValid (data : Bytes) (offset : Nat) : Prop :=
  BlockValid data offset regionTableCrcCoverage regionTableSignature

instance (data : Bytes) (offset : Nat) :
    Decidable (RegionTableValid data offset) :=
  inferInstanceAs (Decidable (BlockValid _ _ _ _))

/-- The entry at `index` of the table at `offset`. -/
def regionEntryAt (data : Bytes) (offset index : Nat) : RegionEntry where
  guid := window data (offset + (16 + index * regionEntrySize)) 16
  fileOffset := leU64 data (offset + (16 + index * regionEntrySize) + 16)
  length := leU32 data (offset + (16 + index * regionEntrySize) + 24)

/-- Number of entries the reader visits. -/
def regionEntryCount (data : Bytes) (offset : Nat) : Nat :=
  min (leU32 data (offset + 8)) regionEntryCountMax

/-- The first `count` entries of the table at `offset`. -/
def regionEntries (data : Bytes) (offset count : Nat) : List RegionEntry :=
  (List.range count).map (regionEntryAt data offset)

/-- The last entry with a GUID. -/
def lastWithGuid (guid : Bytes) (entries : List RegionEntry) :
    Option RegionEntry :=
  (entries.filter fun entry => entry.guid = guid).getLast?

/-- The region lies inside a container of length `containerLen`. -/
def RegionEntry.Inside (entry : RegionEntry) (containerLen : Nat) : Prop :=
  entry.fileOffset + entry.length ≤ containerLen

instance (entry : RegionEntry) (containerLen : Nat) :
    Decidable (entry.Inside containerLen) :=
  inferInstanceAs (Decidable (_ ≤ _))

/-- What is remembered after one more entry. -/
def rememberRegion (data : Bytes) (offset index : Nat)
    (state : Option RegionEntry × Option RegionEntry) :
    Option RegionEntry × Option RegionEntry :=
  let entry := regionEntryAt data offset index
  if entry.guid = batGuid then (some entry, state.2)
  else if entry.guid = metadataGuid then (state.1, some entry)
  else state

theorem lastWithGuid_append_singleton (guid : Bytes)
    (entries : List RegionEntry) (entry : RegionEntry) :
    lastWithGuid guid (entries ++ [entry]) =
      if entry.guid = guid then some entry
      else lastWithGuid guid entries := by
  unfold lastWithGuid
  rw [List.filter_append]
  by_cases named : entry.guid = guid
  · rw [List.filter_cons_of_pos (by simpa using named), if_pos named]
    simp
  · rw [List.filter_cons_of_neg (by simpa using named), if_neg named]
    simp

theorem lastWithGuid_mem {guid : Bytes} {entries : List RegionEntry}
    {entry : RegionEntry} (found : lastWithGuid guid entries = some entry) :
    entry ∈ entries ∧ entry.guid = guid := by
  have member := List.mem_of_getLast? found
  simpa using member

/-- Remembering entry by entry finds the last one of each GUID. -/
theorem foldRange_rememberRegion (data : Bytes) (offset count : Nat) :
    foldRange (rememberRegion data offset) count (none, none) =
      (lastWithGuid batGuid (regionEntries data offset count),
        lastWithGuid metadataGuid (regionEntries data offset count)) := by
  induction count with
  | zero => rfl
  | succ count inductionHypothesis =>
      have more : regionEntries data offset (count + 1) =
          regionEntries data offset count ++
            [regionEntryAt data offset count] := by
        simp [regionEntries, List.range_succ]
      have distinct : metadataGuid ≠ batGuid := by decide
      rw [foldRange_succ, inductionHypothesis, more,
        lastWithGuid_append_singleton, lastWithGuid_append_singleton,
        rememberRegion]
      by_cases isBat : (regionEntryAt data offset count).guid = batGuid
      · rw [if_pos isBat, if_pos isBat, if_neg fun isMetadata =>
          distinct (isMetadata.symm.trans isBat)]
      · rw [if_neg isBat, if_neg isBat]
        split <;> rfl

/-- The two regions a table names, each the last entry with its GUID. -/
def resolveRegions (entries : List RegionEntry) :
    Exec VhdxError RegionTable := do
  let bat ← okOr (lastWithGuid batGuid entries) .batRegionMissing
  let metadata ←
    okOr (lastWithGuid metadataGuid entries) .metadataRegionMissing
  return { bat, metadata }

section Parse

variable {data : Bytes} {offset containerLen : Nat}

/-- Bytes a table of the largest entry count occupies. -/
def regionTableSpan : Nat := 16 + regionEntryCountMax * regionEntrySize

theorem regionTableStep_eq {index : Nat}
    (state : Option RegionEntry × Option RegionEntry)
    (indexLt : index < regionEntryCountMax)
    (present : offset + regionTableSpan ≤ data.length) :
    regionTableStep (window data offset (data.length - offset)) containerLen
        index state =
      if (regionEntryAt data offset index).fileOffset +
          (regionEntryAt data offset index).length < wordCount ∧
          (regionEntryAt data offset index).Inside containerLen then
        .ok (.yield (rememberRegion data offset index state))
      else fail .offsetOutOfBounds := by
  have room : 16 + index * regionEntrySize + regionEntrySize ≤
      data.length - offset := by
    unfold regionTableSpan regionEntryCountMax regionEntrySize at present
    unfold regionEntryCountMax at indexLt
    unfold regionEntrySize
    omega
  have baseSmall : 16 + index * regionEntrySize + regionEntrySize <
      wordCount := by
    unfold regionEntryCountMax at indexLt
    unfold regionEntrySize wordCount
    omega
  have tableLength : (window data offset (data.length - offset)).length =
      data.length - offset := length_window_of_le (by omega)
  have entryRoom : regionEntrySize = 32 := rfl
  have inTable : ¬ 16 + index * regionEntrySize + regionEntrySize >
      (window data offset (data.length - offset)).length := by
    omega
  rw [regionTableStep, add_eq_ok (by omega), ok_bind, add_eq_ok baseSmall,
    ok_bind, if_neg inTable, slice_eq_ok (by omega) (by omega), ok_bind,
    Nat.add_sub_cancel_left, window_window_of_le (by omega),
    leU64_window (by omega) (by omega), leU32_window (by omega) (by omega),
    ← Nat.add_assoc offset (16 + index * regionEntrySize) 16,
    ← Nat.add_assoc offset (16 + index * regionEntrySize) 24]
  change (okOr (checkedAdd (regionEntryAt data offset index).fileOffset
    (regionEntryAt data offset index).length) VhdxError.offsetOutOfBounds >>=
      fun regionEnd => failIf (regionEnd > containerLen) _ >>= fun _ =>
        if (regionEntryAt data offset index).guid = batGuid then
          Except.ok (ForInStep.yield
            (some (regionEntryAt data offset index), state.2))
        else if (regionEntryAt data offset index).guid = metadataGuid then
          .ok (ForInStep.yield
            (state.1, some (regionEntryAt data offset index)))
        else .ok (ForInStep.yield state)) = _
  rw [checkedAdd]
  by_cases representable : (regionEntryAt data offset index).fileOffset +
      (regionEntryAt data offset index).length < wordCount
  · rw [if_pos representable, okOr_some, ok_bind, failIf_bind]
    by_cases inside : (regionEntryAt data offset index).Inside containerLen
    · have notPast : ¬ (regionEntryAt data offset index).fileOffset +
          (regionEntryAt data offset index).length > containerLen := by
        unfold RegionEntry.Inside at inside
        omega
      rw [if_neg notPast,
        if_pos (And.intro representable inside), rememberRegion]
      by_cases isBat : (regionEntryAt data offset index).guid = batGuid
      · rw [if_pos isBat, if_pos isBat]
      · rw [if_neg isBat, if_neg isBat]
        split <;> rfl
    · have past : (regionEntryAt data offset index).fileOffset +
          (regionEntryAt data offset index).length > containerLen := by
        unfold RegionEntry.Inside at inside
        omega
      rw [if_pos past, if_neg fun both => inside both.2]
  · rw [if_neg representable, okOr_none, fail_bind,
      if_neg fun both => representable both.1]

/-- Parsing rejects an invalid copy and a copy with an entry outside the
container, and otherwise resolves the named regions. -/
theorem parseRegionTable_eq
    (present : offset + regionTableSpan ≤ data.length)
    (dataSmall : data.length < wordCount)
    (containerSmall : containerLen < wordCount) :
    parseRegionTable data offset containerLen =
      if RegionTableValid data offset then
        if ∀ entry ∈ regionEntries data offset (regionEntryCount data offset),
            entry.Inside containerLen then
          resolveRegions
            (regionEntries data offset (regionEntryCount data offset))
        else fail .offsetOutOfBounds
      else fail .invalidRegionTable := by
  have spanLarge : regionTableCrcCoverage + 16 = regionTableSpan := rfl
  have coverage : regionTableCrcCoverage = 65536 := rfl
  have tableLength : (window data offset (data.length - offset)).length =
      data.length - offset := length_window_of_le (by omega)
  have coverageInside :
      0 + regionTableCrcCoverage ≤ data.length - offset := by
    omega
  have coveredLength : (window data offset regionTableCrcCoverage).length =
      regionTableCrcCoverage := length_window_of_le (by omega)
  rw [parseRegionTable, add_eq_ok (by omega), ok_bind, failIf_bind,
    if_neg (by omega), slice_eq_ok (by omega) le_rfl, ok_bind,
    slice_eq_ok (by omega) (by omega), ok_bind, failIf_bind,
    window_window_of_le (by omega), tableLength,
    min_eq_left (by omega : regionTableCrcCoverage ≤ data.length - offset),
    slice_eq_ok (by omega) (by omega), ok_bind]
  simp only [Nat.sub_zero, Nat.add_zero, window_window_of_le coverageInside,
    coveredLength, Nat.sub_self, List.replicate_zero, List.append_nil]
  rw [
    fill_eq_ok 0 (by omega) (by rw [length_window_of_le] <;> omega),
    ok_bind, failIf_bind, leU32_window (by omega) (by omega),
    leU32_window (by omega) (by omega)]
  change (if _ then _ else if crc32c (clearChecksum _) ≠ _ then _ else _) = _
  have validIff : RegionTableValid data offset ↔
      window data offset 4 = regionTableSignature ∧
        crc32c (clearChecksum (window data offset regionTableCrcCoverage)) =
          leU32 data (offset + 4) := by
    unfold RegionTableValid BlockValid
    exact and_iff_right (by omega)
  by_cases signed : window data offset 4 = regionTableSignature
  · rw [if_neg (by simpa using signed)]
    by_cases checked : crc32c (clearChecksum
        (window data offset regionTableCrcCoverage)) =
          leU32 data (offset + 4)
    · rw [if_pos (validIff.mpr ⟨signed, checked⟩),
        if_neg (by simpa using checked)]
      have loop : forRange (regionEntryCount data offset)
          (regionTableStep (window data offset (data.length - offset))
            containerLen) (none, none) =
          if ∀ index < regionEntryCount data offset,
              (regionEntryAt data offset index).Inside containerLen then
            .ok (foldRange (rememberRegion data offset)
              (regionEntryCount data offset) (none, none))
          else fail .offsetOutOfBounds := by
        have capped : regionEntryCount data offset ≤ regionEntryCountMax :=
          min_le_right _ _
        apply forRange_eq_fold_or_fail
        · intro index indexLt inside state
          rw [regionTableStep_eq state (by omega) present, if_pos]
          refine ⟨?_, inside⟩
          unfold RegionEntry.Inside at inside
          omega
        · intro index indexLt outside state
          rw [regionTableStep_eq state (by omega) present,
            if_neg fun both => outside both.2]
      change (forRange (regionEntryCount data offset) _ _ >>= _) = _
      rw [loop]
      have allIff : (∀ index < regionEntryCount data offset,
          (regionEntryAt data offset index).Inside containerLen) ↔
          ∀ entry ∈ regionEntries data offset (regionEntryCount data offset),
            entry.Inside containerLen := by
        simp [regionEntries]
      by_cases all : ∀ entry ∈ regionEntries data offset
          (regionEntryCount data offset), entry.Inside containerLen
      · rw [if_pos (allIff.mpr all), if_pos all, ok_bind,
          foldRange_rememberRegion]
        rfl
      · rw [if_neg fun inside => all (allIff.mp inside), if_neg all,
          fail_bind]
    · rw [if_neg fun valid => checked (validIff.mp valid).2]
      exact if_pos checked
  · rw [if_pos (by simpa using signed),
      if_neg fun valid => signed (validIff.mp valid).1]

theorem settles_resolveRegions (entries : List RegionEntry) :
    Settles (resolveRegions entries) :=
  (Settles.okOr _ _).bind fun _ _ =>
    (Settles.okOr _ _).bind fun _ _ => settles_ok _

theorem settles_parseRegionTable
    (present : offset + regionTableSpan ≤ data.length)
    (dataSmall : data.length < wordCount)
    (containerSmall : containerLen < wordCount) :
    Settles (parseRegionTable data offset containerLen) := by
  rw [parseRegionTable_eq present dataSmall containerSmall]
  split
  · split
    · exact settles_resolveRegions _
    · exact settles_fail _
  · exact settles_fail _

/-- A parsed table names regions inside the container. -/
theorem parseRegionTable_inside {table : RegionTable}
    (present : offset + regionTableSpan ≤ data.length)
    (dataSmall : data.length < wordCount)
    (containerSmall : containerLen < wordCount)
    (parsed : parseRegionTable data offset containerLen = .ok table) :
    table.bat.Inside containerLen ∧ table.metadata.Inside containerLen := by
  rw [parseRegionTable_eq present dataSmall containerSmall] at parsed
  split at parsed
  · split at parsed
    · rename_i all
      unfold resolveRegions at parsed
      obtain ⟨bat, batFound, parsed⟩ := bind_eq_ok.mp parsed
      obtain ⟨metadata, metadataFound, parsed⟩ := bind_eq_ok.mp parsed
      cases parsed
      have named : ∀ {guid : Bytes} {e : VhdxError} {entry : RegionEntry},
          okOr (lastWithGuid guid (regionEntries data offset
            (regionEntryCount data offset))) e = .ok entry →
              entry.Inside containerLen := by
        intro guid e entry found
        cases looked : lastWithGuid guid (regionEntries data offset
            (regionEntryCount data offset)) with
        | none => simp [looked] at found
        | some last =>
            rw [looked] at found
            cases found
            exact all _ (lastWithGuid_mem looked).1
      exact ⟨named batFound, named metadataFound⟩
    · cases parsed
  · cases parsed

end Parse

end VhdxForensic
