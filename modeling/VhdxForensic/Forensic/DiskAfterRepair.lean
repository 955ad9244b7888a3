import VhdxForensic.Core.ReplayRestart
import VhdxForensic.Core.StoredBytes
import VhdxForensic.Forensic.RepairedDisk

/-!
# When a repair keeps the disk

A repair writes the bytes that the analysis has seen, and the reader sees them
after the replay of the log. As long as nothing that is written is read as
something else, the disk stays exactly if no undefined block is left to a
parent that has other bytes there, and no sector bitmap in use is freed.
-/

namespace VhdxForensic

open Rust Rust.Bytes Rust.Exec

/-! ## Where a repair shows -/

/-- The replay of the log writes the byte. -/
def Logged (data : Bytes) (pos : Nat) : Prop :=
  ∃ run ∈ pendingRuns data, run.Covers pos

/-- Places of all actions. -/
def repairedPlaces (data : Bytes) : List (Nat × Nat) :=
  (runRepairs data).filterMap (repairPlace (tableOffset data))

/-- An action writes the byte, and the replay of the log keeps it. -/
def Touched (data : Bytes) (pos : Nat) : Prop :=
  (∃ place ∈ repairedPlaces data, InRange place pos) ∧ ¬ Logged data pos

/-- The log, if it is replayed. -/
def replayedRanges (data : Bytes) : List (Nat × Nat) :=
  match activeHeader data with
  | none => []
  | some header =>
      if header.IsClean then [] else [(header.logOffset, header.logLength)]

/-- What is read of both copies of the region table. -/
def tableReads : Nat × Nat :=
  (regionTable1Offset, regionTableCrcCoverage + regionTableSpan)

/-- What is read before the table and the metadata: the magic, the header
copies, the region tables and the log. -/
def openingReads (data : Bytes) : List (Nat × Nat) :=
  (0, 8) :: (header1Offset, headerSize) :: (header2Offset, headerSize) ::
    tableReads :: replayedRanges data

/-- The entry at `i` of the audited table is repaired. -/
structure EntryRepaired (data : Bytes) (r : ParsedRegions) (i : Nat) :
    Prop where
  /-- The table is audited. -/
  checked : TableChecked data r
  /-- It has such an entry. -/
  lt : i < entryCountOf r
  /-- Something to repair is found about the entry. -/
  broken : entryRepairs data r (logZoneOf data) i ≠ []

/-- Nothing that a repair writes is read as something else when the repaired
image is opened. -/
structure RepairsUnread (data : Bytes) (regions : RegionTable) : Prop where
  /-- A repaired entry lies on nothing else that opening reads. -/
  entries : ∀ r ∈ parsedRegions data, ∀ i, EntryRepaired data r i →
    ∀ range ∈ openingReads data, ¬ Overlap (r.batOffset + i * 8, 8) range
  /-- It is an entry of the table that the reader uses, or lies off it. -/
  table : ∀ r ∈ parsedRegions data, ∀ i, EntryRepaired data r i →
    r.batOffset = regions.bat.fileOffset ∨
      ¬ Overlap (r.batOffset + i * 8, 8) regions.bat.range
  /-- The log writes all of it or nothing. -/
  whole : ∀ r ∈ parsedRegions data, ∀ i, EntryRepaired data r i →
    (∀ pos, InRange (r.batOffset + i * 8, 8) pos → Logged data pos) ∨
      ∀ pos, InRange (r.batOffset + i * 8, 8) pos → ¬ Logged data pos
  /-- A restored block lies neither on the table nor on the log. -/
  blocks : ∀ place ∈ restoredPlaces data,
    ∀ range ∈ regions.bat.range :: replayedRanges data, ¬ Overlap place range
  /-- The log writes to no region table of which a copy is restored, and the
  entries of that table fit the copy. -/
  copies : tableRepairs data ≠ [] →
    (∀ pos, InRange tableReads pos → ¬ Logged data pos) ∧
      ∀ copy, copy = 1 ∨ copy = 2 → RegionTableValid data (rtOffset copy) →
        leU32 data (rtOffset copy + 8) ≤ fittingEntries
  /-- The metadata is not touched. -/
  metadata : ∀ pos, InRange regions.metadata.range pos → ¬ Touched data pos

/-- What the reader sees of the repaired image. -/
def imageAfter (data : Bytes) : Bytes :=
  replayFrom 0 (pendingRuns data) (withEntries data)

@[simp] theorem length_imageAfter (data : Bytes) :
    (imageAfter data).length = data.length := by
  rw [imageAfter, length_replayFrom, length_withEntries]

section Places

variable {data : Bytes} {pos : Nat}

/-- An action restores a block or repairs an entry. -/
theorem place_cases (readable : fileMagicFindings data = [])
    {place : Nat × Nat} (member : place ∈ repairedPlaces data) :
    place ∈ restoredPlaces data ∨
      ∃ r ∈ parsedRegions data, ∃ i, EntryRepaired data r i ∧
        place = (r.batOffset + i * 8, 8) := by
  obtain ⟨issue, issueMember, found⟩ := List.mem_filterMap.mp member
  rw [runRepairs_eq readable] at issueMember
  rcases List.mem_append.mp issueMember with block | entry
  · exact Or.inl (mem_restoredPlaces (List.mem_append.mp block) found)
  · obtain ⟨r, parsed, checked, i, iLt, broken, place⟩ :=
      place_of_mem_entryIssues entry
    rw [place] at found
    exact Or.inr ⟨r, parsed, i, ⟨checked, iLt, broken⟩,
      (Option.some.inj found).symm⟩

/-- A byte that no action writes is as before. -/
theorem getElem?_withEntries
    (untouched : ∀ place ∈ repairedPlaces data, ¬ InRange place pos) :
    (withEntries data)[pos]? = data[pos]? :=
  (repairedByAll_frame fun _ => actionFits_of_mem_runRepairs).2 pos untouched

/-- Ranges without a byte that an action writes are as before. -/
theorem window_withEntries {range : Nat × Nat}
    (missed : ∀ place ∈ repairedPlaces data, ¬ Overlap place range) :
    SameRange (withEntries data) data range := by
  apply window_ext
  intro index indexLt
  exact getElem?_withEntries fun place member inside =>
    missed place member ⟨_, inside, Nat.le_add_right _ _, by omega⟩

/-- Replaying the log over the repaired image shows the touched bytes only. -/
theorem getElem?_imageAfter (untouched : ¬ Touched data pos) :
    (imageAfter data)[pos]? =
      (replayFrom 0 (pendingRuns data) data)[pos]? := by
  rw [imageAfter, getElem?_replayFrom, getElem?_replayFrom, Nat.zero_add]
  by_cases logged : Logged data pos
  · have lengthEq := @length_withEntries data
    by_cases inside : pos < data.length
    · rw [List.getElem?_eq_getElem inside,
        List.getElem?_eq_getElem (lengthEq ▸ inside), Option.map_some,
        Option.map_some, settle_eq_of_covers logged]
    · rw [List.getElem?_eq_none (by omega), List.getElem?_eq_none (by omega)]
  · rw [getElem?_withEntries fun place member inside =>
      untouched ⟨⟨place, member, inside⟩, logged⟩]

/-- Where nothing is logged, the replay shows the byte as it is. -/
theorem getElem?_replayFrom_unlogged (base : Bytes)
    (unlogged : ¬ Logged data pos) :
    (replayFrom 0 (pendingRuns data) base)[pos]? = base[pos]? := by
  rw [getElem?_replayFrom, Nat.zero_add]
  cases base[pos]? with
  | none => rfl
  | some byte =>
      rw [Option.map_some, settle_of_not_covers byte fun run member covers =>
        unlogged ⟨run, member, covers⟩]

/-- A range without a touched byte is shown as before. -/
theorem window_imageAfter {range : Nat × Nat}
    (untouched : ∀ pos, InRange range pos → ¬ Touched data pos) :
    SameRange (imageAfter data) (replayFrom 0 (pendingRuns data) data)
      range := by
  apply window_ext
  intro index indexLt
  exact getElem?_imageAfter (untouched _ ⟨Nat.le_add_right _ _, by omega⟩)

end Places

/-! ## Opening the repaired image -/

section Opening

variable {data image : Bytes} {regions : RegionTable}

/-- The fixed blocks are spared by the repaired entries. -/
theorem RepairsUnread.fixedSpare (unread : RepairsUnread data regions) :
    ∀ range ∈ fixedRanges, EntriesSpare data range := by
  have tables : ∀ copy, copy = 1 ∨ copy = 2 → ∀ entry,
      Overlap entry (rtOffset copy, regionTableCrcCoverage) →
        Overlap entry tableReads := by
    have first : rtOffset 1 = 0x30000 := rfl
    have second : rtOffset 2 = 0x40000 := rfl
    have reads : tableReads = (0x30000, 0x20010) := rfl
    have coverage : regionTableCrcCoverage = 0x10000 := rfl
    rintro copy known entry ⟨index, inEntry, low, high⟩
    dsimp only at low high
    refine ⟨index, inEntry, ?_⟩
    rw [reads]
    unfold InRange
    dsimp only
    rcases known with rfl | rfl <;> omega
  intro range member r parsed checked i iLt broken overlap
  have spared := unread.entries r parsed i ⟨checked, iLt, broken⟩
  simp only [fixedRanges, List.mem_cons, List.not_mem_nil, or_false] at member
  rcases member with rfl | rfl | rfl | rfl | rfl
  · exact spared _ (by simp [openingReads]) overlap
  · exact spared _ (by simp [openingReads]) overlap
  · exact spared _ (by simp [openingReads]) overlap
  · exact spared tableReads (by simp [openingReads])
      (tables 1 (Or.inl rfl) _ overlap)
  · exact spared tableReads (by simp [openingReads])
      (tables 2 (Or.inr rfl) _ overlap)

/-- The repair writes nothing of the log that is replayed. -/
theorem RepairsUnread.spares_log (unread : RepairsUnread data regions)
    (readable : fileMagicFindings data = []) {range : Nat × Nat}
    (member : range ∈ replayedRanges data) :
    ∀ place ∈ repairedPlaces data, ¬ Overlap place range := by
  intro place placeMember
  rcases place_cases readable placeMember with
    restored | ⟨r, parsed, i, repaired, rfl⟩
  · exact unread.blocks place restored range (List.mem_cons_of_mem _ member)
  · refine unread.entries r parsed i repaired range ?_
    simp [openingReads, member]

/-- The same entries are pending after the repair. -/
theorem RepairsUnread.pendingEntries_eq (unread : RepairsUnread data regions)
    (readable : fileMagicFindings data = []) :
    pendingEntries (withEntries data) = pendingEntries data := by
  have lengthEq := @length_withEntries data
  have active := activeHeader_of_restored lengthEq
    (fixedBlocks_inside readable).1
    (restored_headers readable unread.fixedSpare)
  rw [pendingEntries, pendingEntries, active, lengthEq]
  cases found : activeHeader data with
  | none => rfl
  | some header =>
      dsimp only
      by_cases clean : header.IsClean
      · rw [if_pos clean, if_pos clean]
      · have logged : (header.logOffset, header.logLength) ∈
            replayedRanges data := by
          rw [replayedRanges, found]
          dsimp only
          rw [if_neg clean]
          exact List.mem_singleton_self _
        have log : logRegion (withEntries data) header =
            logRegion data header :=
          @window_withEntries data (header.logOffset, header.logLength)
            (unread.spares_log readable logged)
        rw [log]

/-- The log is replayed over the repaired image. -/
theorem RepairsUnread.apply_eq (unread : RepairsUnread data regions)
    (readable : fileMagicFindings data = [])
    (allocated : data.length ≤ isizeMax) (applied : apply data = .ok image) :
    apply (withEntries data) = .ok (imageAfter data) ∧
      image = replayFrom 0 (pendingRuns data) data := by
  have lengthEq := @length_withEntries data
  obtain ⟨entries, pending, safe, imageEq⟩ :=
    replayed_of_apply allocated applied
  have headers := header_le_of_pendingEntries pending
  have small : (withEntries data).length < wordCount :=
    Buffer.length_lt ⟨withEntries data, by omega⟩
  refine ⟨?_, imageEq⟩
  rw [VhdxForensic.apply_eq (by omega), unread.pendingEntries_eq readable,
    pending, ok_bind, foldlM_applyEntry_eq_ok small headers safe,
    applyWrites_eq_replayFrom, imageAfter, pendingRuns, pending, lengthEq]

/-- Equal bytes of region tables name the same regions. -/
theorem tableRegions_congr {left right : Bytes} {leftOff rightOff span : Nat}
    (lengthEq : left.length = right.length)
    (large : regionTableCrcCoverage ≤ span)
    (fits : RegionTableValid right rightOff →
      16 + regionEntryCount right rightOff * regionEntrySize ≤ span)
    (leftInside : leftOff + span ≤ left.length)
    (rightInside : rightOff + span ≤ right.length)
    (same : window left leftOff span = window right rightOff span) :
    tableRegions left leftOff = tableRegions right rightOff := by
  have block := window_congr_inside
    (show 0 + regionTableCrcCoverage ≤ span by omega) same
  rw [Nat.add_zero, Nat.add_zero] at block
  have validIff : RegionTableValid left leftOff ↔
      RegionTableValid right rightOff :=
    blockValid_congr (by decide) (by omega) (by omega) block
  unfold tableRegions
  by_cases valid : RegionTableValid right rightOff
  case neg => rw [if_neg valid, if_neg (validIff.not.mpr valid)]
  obtain ⟨countEq, entriesEq⟩ :=
    regionEntries_congr (fits valid) leftInside rightInside same
  have visited : regionEntryCount left leftOff =
      regionEntryCount right rightOff := congrArg (min · _) countEq
  rw [if_pos valid, if_pos (validIff.mpr valid), visited, entriesEq, lengthEq]

/-- A table that is used as one of two copies is used as one of the restored
copies. -/
theorem orElse_restored {table : Nat → Exec VhdxError RegionTable}
    (rejected : ∀ copy, ¬ tableCopies.Valid data copy →
      ∃ e, table copy = fail e)
    (decoded : orElse (table 1) (table 2) = .ok regions) :
    orElse (table (tableCopies.source data 1))
      (table (tableCopies.source data 2)) = .ok regions := by
  by_cases first : tableCopies.Valid data 1
  · rw [BlockCopies.source_of_valid first]
    by_cases second : tableCopies.Valid data 2
    · rwa [BlockCopies.source_of_valid second]
    · obtain ⟨e, unused⟩ := rejected 2 second
      rw [unused] at decoded
      rcases orElse_eq_ok decoded with used | failed
      · rw [BlockCopies.source_of_peer second first, used, orElse_ok]
      · exact absurd failed (fail_ne_ok _ _)
  · by_cases second : tableCopies.Valid data 2
    · obtain ⟨e, unused⟩ := rejected 1 first
      rw [unused, orElse_fail] at decoded
      rw [BlockCopies.source_of_valid second,
        BlockCopies.source_of_peer first second, decoded, orElse_ok]
    · rwa [@BlockCopies.source_of_none _ _ 1 second,
        @BlockCopies.source_of_none _ _ 2 first]

/-- Without a restored copy no byte of the region tables is touched. -/
theorem RepairsUnread.tables_untouched (unread : RepairsUnread data regions)
    (readable : fileMagicFindings data = []) (nothing : tableRepairs data = [])
    {pos : Nat} (inside : InRange tableReads pos) : ¬ Touched data pos := by
  rintro ⟨⟨place, member, inPlace⟩, -⟩
  rcases place_cases readable member with
    restored | ⟨r, parsed, i, repaired, rfl⟩
  · obtain ⟨issue, issueMember, found⟩ := List.mem_filterMap.mp restored
    rw [nothing, List.append_nil] at issueMember
    obtain ⟨copy, known, places⟩ := place_of_mem_headerRepairs issueMember
    obtain rfl := Option.some.inj ((places none).symm.trans found)
    have reads : tableReads = (0x30000, 0x20010) := rfl
    have size : headerSize = 0x1000 := rfl
    have first : headerOffset 1 = 0x10000 := rfl
    have second : headerOffset 2 = 0x20000 := rfl
    rw [reads] at inside
    unfold InRange at inside inPlace
    dsimp only at inside inPlace
    rcases known with rfl | rfl <;> omega
  · exact unread.entries r parsed i repaired tableReads
      (by simp [openingReads]) ⟨pos, inPlace, inside⟩

/-- Opening the repaired image decodes the same regions. -/
theorem RepairsUnread.decodeRegions_eq (unread : RepairsUnread data regions)
    (readable : fileMagicFindings data = [])
    (large : VhdxReader.minContainerSize ≤ data.length)
    (allocated : data.length ≤ isizeMax)
    (decoded : decodeRegions (replayFrom 0 (pendingRuns data) data) =
      .ok regions) :
    decodeRegions (imageAfter data) = .ok regions := by
  have lengthAfter := length_imageAfter data
  have lengthBefore := length_replayFrom 0 (pendingRuns data) data
  have minimum : VhdxReader.minContainerSize = 0x250000 := rfl
  have reads : tableReads = (0x30000, 0x20010) := rfl
  have first : rtOffset 1 = 0x30000 := rfl
  have second : rtOffset 2 = 0x40000 := rfl
  have coverage : regionTableCrcCoverage = 0x10000 := rfl
  have spanEq : regionTableSpan = 0x10010 := rfl
  rw [VhdxForensic.decodeRegions_eq (by omega) (by omega)] at decoded ⊢
  change orElse (tableRegions _ (rtOffset 1)) (tableRegions _ (rtOffset 2)) =
    _ at decoded
  change orElse (tableRegions _ (rtOffset 1)) (tableRegions _ (rtOffset 2)) = _
  by_cases nothing : tableRepairs data = []
  · have same : ∀ copy, copy = 1 ∨ copy = 2 →
        tableRegions (imageAfter data) (rtOffset copy) =
          tableRegions (replayFrom 0 (pendingRuns data) data)
            (rtOffset copy) := by
      intro copy known
      have offsetLe : 0x30000 ≤ rtOffset copy ∧ rtOffset copy ≤ 0x40000 := by
        rcases known with rfl | rfl <;> omega
      refine @tableRegions_congr _ _ _ _ regionTableSpan (by omega) (by omega)
        (fun _ => ?_) (by omega) (by omega) ?_
      · have := min_le_right (leU32 (replayFrom 0 (pendingRuns data) data)
          (rtOffset copy + 8)) regionEntryCountMax
        exact Nat.add_le_add_left (Nat.mul_le_mul_right _ this) 16
      · refine @window_imageAfter data (rtOffset copy, regionTableSpan)
          fun pos inside => unread.tables_untouched readable nothing ?_
        rw [reads]
        unfold InRange at inside ⊢
        dsimp only at inside ⊢
        omega
    rw [same 1 (Or.inl rfl), same 2 (Or.inr rfl), decoded]
  obtain ⟨unlogged, fits⟩ := unread.copies nothing
  have restored := restored_tables readable unread.fixedSpare
  have source := @BlockCopies.source_cases tableCopies data
  have shown : ∀ base : Bytes, ∀ copy, copy = 1 ∨ copy = 2 →
      window (replayFrom 0 (pendingRuns data) base) (rtOffset copy)
        regionTableCrcCoverage =
          window base (rtOffset copy) regionTableCrcCoverage := by
    intro base copy known
    refine window_ext fun index indexLt =>
      getElem?_replayFrom_unlogged base (unlogged _ ?_)
    rw [reads]
    unfold InRange
    dsimp only
    rcases known with rfl | rfl <;> omega
  have blockFits : ∀ copy, copy = 1 ∨ copy = 2 →
      RegionTableValid data (rtOffset copy) →
        16 + regionEntryCount data (rtOffset copy) * regionEntrySize ≤
          regionTableCrcCoverage := fun copy known valid =>
    block_fits ((min_le_left _ _).trans (fits copy known valid))
  have inside : ∀ copy, copy = 1 ∨ copy = 2 →
      rtOffset copy + regionTableCrcCoverage ≤ data.length := by
    rintro copy (rfl | rfl) <;> omega
  have before : ∀ copy, copy = 1 ∨ copy = 2 →
      tableRegions (replayFrom 0 (pendingRuns data) data) (rtOffset copy) =
        tableRegions data (rtOffset copy) := fun copy known =>
    tableRegions_congr lengthBefore le_rfl (blockFits copy known)
      (by rw [lengthBefore]; exact inside copy known) (inside copy known)
      (shown data copy known)
  have after : ∀ copy, copy = 1 ∨ copy = 2 →
      tableRegions (imageAfter data) (rtOffset copy) =
        tableRegions data (rtOffset (tableCopies.source data copy)) := by
    intro copy known
    refine tableRegions_congr lengthAfter le_rfl (blockFits _ (source known))
      (by rw [lengthAfter]; exact inside copy known) (inside _ (source known))
      ?_
    exact (shown _ copy known).trans (restored copy known)
  rw [before 1 (Or.inl rfl), before 2 (Or.inr rfl)] at decoded
  rw [after 1 (Or.inl rfl), after 2 (Or.inr rfl)]
  exact @orElse_restored data regions
    (fun copy => tableRegions data (rtOffset copy))
    (fun copy invalid => ⟨_, if_neg invalid⟩) decoded

/-- The repaired image opens with the same regions and description. -/
theorem RepairsUnread.decodesTo (unread : RepairsUnread data regions)
    {metadata : VhdxMetadata} {bat : Bat}
    (decodesTo : VhdxReader.DecodesTo data image metadata bat)
    (allocated : data.length ≤ isizeMax)
    (decoded : decodeRegions image = .ok regions) :
    VhdxReader.DecodesTo (withEntries data) (imageAfter data) metadata
      { entries := Bat.entriesOf (regions.bat.content (imageAfter data))
        metadata } := by
  have lengthEq := @length_withEntries data
  obtain ⟨-, large⟩ := VhdxReader.openGate_eq_ok_iff.mp decodesTo.gate
  have readable := fileMagicFindings_of_openGate decodesTo.gate
  have magic := magic_of_readable (fileMagicFindings_withEntries readable
    unread.fixedSpare)
  obtain ⟨applied, rfl⟩ :=
    unread.apply_eq readable allocated decodesTo.applied
  obtain ⟨_, decodes, -⟩ := decodeImage_eq_ok_iff.mp decodesTo.decoded
  obtain rfl := Except.ok.inj (decodes.regions_eq.symm.trans decoded)
  have content : RegionEntry.content (imageAfter data) _ =
      RegionEntry.content _ _ := window_imageAfter unread.metadata
  refine ⟨VhdxReader.openGate_eq_ok_iff.mpr ⟨magic, by omega⟩, applied, ?_⟩
  refine decodeImage_eq_ok_iff.mpr ⟨_, ⟨unread.decodeRegions_eq readable large
    allocated decoded, ?_, decodes.valid, decodes.parent⟩, rfl⟩
  rw [content]
  exact decodes.metadata_eq

end Opening

/-! ## The entries of the repaired image -/

/-- A repair of the entry at `i` shows in the table that the reader uses. -/
structure RepairShows (data : Bytes) (regions : RegionTable)
    (r : ParsedRegions) (i : Nat) : Prop where
  /-- The analyser has found these regions. -/
  parsed : parsedRegions data = some r
  /-- Its table starts where the table of the reader does. -/
  offset_eq : r.batOffset = regions.bat.fileOffset
  /-- The entry is repaired. -/
  repaired : EntryRepaired data r i
  /-- The log does not write it. -/
  unlogged : ∀ pos, InRange (regions.bat.fileOffset + i * 8, 8) pos →
    ¬ Logged data pos

section Entries

variable {data : Bytes} {regions : RegionTable} {r : ParsedRegions} {i : Nat}

/-- What is found about a repaired entry is found about its value. -/
theorem EntryRepaired.mem_auditFindings_iff (repaired : EntryRepaired data r i)
    (readable : fileMagicFindings data = [])
    (parsed : parsedRegions data = some r) {orders : SortOrders}
    {finding : VhdxIntegrityAnomaly} (named : finding.brokenEntry = some i) :
    finding ∈ auditFindings orders data ↔
      finding ∈ valueRepairs r (logZoneOf data) data.length i
        (entryAt data r i) := by
  have repairable : finding.repairable = true := by
    cases finding <;> first | rfl | cases named
  have blocks : finding ∉ headerRepairs data ++ tableRepairs data := by
    intro member
    rcases List.mem_append.mp member with header | table
    · obtain ⟨copy, computed, stored, rfl, -⟩ := mem_headerRepairs header
      cases named
    · obtain ⟨copy, computed, stored, rfl, -⟩ := mem_tableRepairs table
      cases named
  have issues : entryIssues data = batRepairs data r := by
    rw [entryIssues, parsed]
  have audited : finding ∈ auditFindings orders data ↔
      finding ∈ repairs (auditFindings orders data) := by
    rw [repairs, List.mem_filter, and_iff_left repairable]
  rw [audited, repairs_auditFindings, runRepairs_eq readable,
    List.mem_append, or_iff_right blocks, issues, ← entryRepairs_eq,
    ← filter_batRepairs repaired.checked repaired.lt, List.mem_filter,
    and_iff_left (decide_eq_true named)]

/-- An entry is as before unless a repair of it shows. -/
theorem RepairsUnread.entry_kept (unread : RepairsUnread data regions)
    (readable : fileMagicFindings data = [])
    (inside : regions.bat.Inside data.length)
    (iLt : i < regions.bat.length / 8)
    (unshown : ∀ r, ¬ RepairShows data regions r i) :
    leU64 (imageAfter data) (regions.bat.fileOffset + i * 8) =
      leU64 (replayFrom 0 (pendingRuns data) data)
        (regions.bat.fileOffset + i * 8) := by
  have lengthAfter := length_imageAfter data
  have lengthBefore := length_replayFrom 0 (pendingRuns data) data
  unfold RegionEntry.Inside at inside
  refine le_congr (by omega) (by omega) (@window_imageAfter data
    (regions.bat.fileOffset + i * 8, 8) ?_)
  rintro pos inEntry ⟨⟨place, member, inPlace⟩, unlogged⟩
  have inTable : InRange regions.bat.range pos := by
    obtain ⟨low, high⟩ := inEntry
    dsimp only at low high
    constructor <;> dsimp only [RegionEntry.range] <;> omega
  rcases place_cases readable member with
    restored | ⟨r, parsed, j, repaired, rfl⟩
  · exact unread.blocks place restored _ List.mem_cons_self
      ⟨pos, inPlace, inTable⟩
  rcases unread.table r parsed j repaired with same | apart
  · have slot : j = i := by
      obtain ⟨low, high⟩ := inEntry
      obtain ⟨placeLow, placeHigh⟩ := inPlace
      dsimp only at low high placeLow placeHigh
      omega
    subst slot
    rcases unread.whole r parsed j repaired with all | nothing
    · exact unlogged (all pos inPlace)
    · exact unshown r ⟨parsed, same, repaired, same ▸ nothing⟩
  · exact apart ⟨pos, inPlace, inTable⟩

/-- Before the repair such an entry has the value that is audited. -/
theorem RepairShows.entry_before (shown : RepairShows data regions r i) :
    leU64 (replayFrom 0 (pendingRuns data) data)
        (regions.bat.fileOffset + i * 8) = entryAt data r i := by
  obtain ⟨-, offsetEq, repaired, unlogged⟩ := shown
  have lengthBefore := length_replayFrom 0 (pendingRuns data) data
  have inside := entry_inside repaired.checked.1 repaired.lt
  rw [offsetEq] at inside
  rw [entryAt, offsetEq]
  refine le_congr (by omega) (by omega) (window_ext fun index indexLt => ?_)
  exact getElem?_replayFrom_unlogged data
    (unlogged _ ⟨Nat.le_add_right _ _, by omega⟩)

/-- After the repair it has the value that the actions give it. -/
theorem RepairShows.entry_after (shown : RepairShows data regions r i)
    (unread : RepairsUnread data regions)
    (readable : fileMagicFindings data = []) :
    leU64 (imageAfter data) (regions.bat.fileOffset + i * 8) =
      (valueRepairs r (logZoneOf data) data.length i
        (entryAt data r i)).foldl settledBy (entryAt data r i) := by
  obtain ⟨parsed, offsetEq, repaired, unlogged⟩ := shown
  have lengthAfter := length_imageAfter data
  have lengthEq := @length_withEntries data
  have inside := entry_inside repaired.checked.1 repaired.lt
  rw [offsetEq] at inside
  rw [← entryRepairs_eq, ← entryAt_withEntries readable parsed repaired.checked
    repaired.lt, entryAt, offsetEq]
  · refine le_congr (by omega) (by omega) (window_ext fun index indexLt => ?_)
    exact getElem?_replayFrom_unlogged (withEntries data)
      (unlogged _ ⟨Nat.le_add_right _ _, by omega⟩)
  · intro place member overlap
    exact unread.fixedSpare place (mem_fixedRanges_of_restored member) r parsed
      repaired.checked i repaired.lt repaired.broken overlap.symm

end Entries

end VhdxForensic
