import VhdxForensic.Core.ReplayRestart
import VhdxForensic.Forensic.RepairAliasing

/-!
# Healing a region table

The region table is stored twice. Whatever damage one of two equal copies
takes, a repair gives back the image as it was before, byte for byte.
-/

namespace VhdxForensic

open Rust Rust.Bytes Rust.Exec

/-- One copy of the region table is damaged beyond its checksum, and nothing
else. -/
structure TableDamage (copy : Nat) (data damaged : Bytes) : Prop where
  /-- The length stays. -/
  length_eq : damaged.length = data.length
  /-- Only this copy is changed. -/
  confined : ∀ index,
    ¬ InRange (rtOffset copy, regionTableCrcCoverage) index →
      damaged[index]? = data[index]?
  /-- The copy is no longer valid. -/
  invalid : ¬ RegionTableValid damaged (rtOffset copy)

/-- Both copies of the region table are valid and equal, and the table, the
metadata and what they are read from lie elsewhere. -/
structure TablesMirrored (data : Bytes) : Prop where
  /-- The analysis does not stop at the magic. -/
  readable : fileMagicFindings data = []
  /-- The first copy is valid. -/
  valid : RegionTableValid data (rtOffset 1)
  /-- The second copy has the same bytes. -/
  same : window data (rtOffset 1) regionTableCrcCoverage =
    window data (rtOffset 2) regionTableCrcCoverage
  /-- Neither the table nor what is read of the metadata lies on a copy. -/
  apart : ∀ copy, copy = 1 ∨ copy = 2 → ∀ r ∈ parsedRegions data,
    ¬ Overlap (rtOffset copy, regionTableCrcCoverage)
        (r.batOffset, entryCountOf r * 8) ∧
      ∀ range ∈ metadataRanges data r.metaOffset r.metaLength,
        ¬ Overlap (rtOffset copy, regionTableCrcCoverage) range

section Congr

variable {left right : Bytes}

/-- The finding about the checksum of a block depends on the block. -/
theorem crcFinding_congr {offset size : Nat} {signature : Bytes}
    {mismatch : (computed stored : Nat) → VhdxIntegrityAnomaly}
    (large : 8 ≤ size) (lengthEq : left.length = right.length)
    (same : SameRange left right (offset, size)) :
    crcFinding left offset size signature mismatch =
      crcFinding right offset size signature mismatch := by
  unfold crcFinding
  by_cases outside : left.length < offset + size
  · simp only [outside, lengthEq ▸ outside, if_true]
  · have signed : window left offset 4 = window right offset 4 := by
      have cut := window_congr_inside (show 0 + 4 ≤ size by omega) same
      rwa [Nat.add_zero] at cut
    have stored : leU32 left (offset + 4) = leU32 right (offset + 4) :=
      le_congr (by omega) (by omega)
        (window_congr_inside (show 4 + 4 ≤ size by omega) same)
    dsimp only
    rw [← lengthEq, if_neg outside, if_neg outside, signed, stored,
      show window left offset size = window right offset size from same]

/-- Entries with the same value have the same findings. -/
theorem batRepairs_congr {r : ParsedRegions}
    (lengthEq : left.length = right.length)
    (zone : logZoneOf left = logZoneOf right)
    (same : TableChecked right r →
      SameRange left right (r.batOffset, entryCountOf r * 8)) :
    batRepairs left r = batRepairs right r := by
  have checkedIff : TableChecked left r ↔ TableChecked right r := by
    rw [TableChecked, TableChecked, lengthEq]
  unfold batRepairs
  by_cases checked : TableChecked right r
  case neg =>
    rw [if_neg checked, if_neg fun both => checked (checkedIff.mp both)]
  rw [if_pos checked, if_pos (checkedIff.mpr checked), zone]
  refine List.flatMap_congr fun i member => ?_
  have iLt := List.mem_range.mp member
  have value : entryAt left r i = entryAt right r i :=
    le_congr (entry_inside (checkedIff.mpr checked).1 iLt)
      (entry_inside checked.1 iLt)
      (window_congr_inside (show i * 8 + 8 ≤ entryCountOf r * 8 by omega)
        (same checked))
  rw [entryRepairs_eq, entryRepairs_eq, value, lengthEq]

end Congr

section Damage

variable {copy : Nat} {data damaged : Bytes}

/-- Ranges off the damaged copy are as before. -/
theorem TableDamage.sameRange (damage : TableDamage copy data damaged)
    {range : Nat × Nat}
    (apart : ¬ Overlap (rtOffset copy, regionTableCrcCoverage) range) :
    SameRange damaged data range := by
  apply window_ext
  intro index indexLt
  refine damage.confined _ fun inside => apart ⟨range.1 + index, inside, ?_⟩
  unfold InRange
  omega

theorem TableDamage.readable (damage : TableDamage copy data damaged)
    (known : copy = 1 ∨ copy = 2) (readable : fileMagicFindings data = []) :
    fileMagicFindings damaged = [] := by
  have magic : SameRange damaged data (0, 8) := damage.sameRange
    (fixedBlocks_apart.2 copy known).2
  rw [fileMagicFindings, damage.length_eq,
    show window damaged 0 8 = window data 0 8 from magic]
  exact readable

theorem TableDamage.sameHeader (damage : TableDamage copy data damaged)
    (known : copy = 1 ∨ copy = 2) {header : Nat}
    (headerKnown : header = 1 ∨ header = 2) :
    SameRange damaged data (headerOffset header, headerSize) := by
  refine damage.sameRange fun ⟨index, inTable, inHeader⟩ => ?_
  exact fixedBlocks_apart.1 header copy headerKnown known
    ⟨index, inHeader, inTable⟩

theorem TableDamage.headerRepairs_eq (damage : TableDamage copy data damaged)
    (known : copy = 1 ∨ copy = 2) :
    headerRepairs damaged = headerRepairs data := by
  have first : headerCrcFinding damaged 1 = headerCrcFinding data 1 :=
    crcFinding_congr (by decide) damage.length_eq
      (damage.sameHeader known (Or.inl rfl))
  have second : headerCrcFinding damaged 2 = headerCrcFinding data 2 :=
    crcFinding_congr (by decide) damage.length_eq
      (damage.sameHeader known (Or.inr rfl))
  rw [headerRepairs, headerRepairs, first, second]

theorem TableDamage.logZoneOf_eq (damage : TableDamage copy data damaged)
    (known : copy = 1 ∨ copy = 2) : logZoneOf damaged = logZoneOf data := by
  rw [logZoneOf, logZoneOf, activeHeader_of_windows damage.length_eq
    (damage.sameHeader known (Or.inl rfl))
    (damage.sameHeader known (Or.inr rfl))]

end Damage

section Heal

variable {copy : Nat} {data damaged : Bytes}

/-- The copies of a mirrored table are valid and inside the image. -/
theorem TablesMirrored.valid_copy (mirrored : TablesMirrored data)
    (known : copy = 1 ∨ copy = 2) :
    RegionTableValid data (rtOffset copy) := by
  have inside := (fixedBlocks_inside mirrored.readable).2
  rcases known with rfl | rfl
  · exact mirrored.valid
  · exact (blockValid_congr (by decide) mirrored.valid.1 inside
      mirrored.same).mp mirrored.valid

/-- The copy that is not damaged is as before. -/
theorem TableDamage.samePeer (damage : TableDamage copy data damaged)
    (known : copy = 1 ∨ copy = 2) :
    SameRange damaged data (rtOffset (3 - copy), regionTableCrcCoverage) := by
  have numbers : rtOffset 1 + regionTableCrcCoverage ≤ rtOffset 2 := by decide
  refine damage.sameRange ?_
  rintro ⟨index, first, second⟩
  unfold InRange at first second
  rcases known with rfl | rfl
  · change _ ∧ index < rtOffset 1 + _ at first
    change rtOffset 2 ≤ index ∧ _ at second
    omega
  · change rtOffset 2 ≤ index ∧ _ at first
    change _ ∧ index < rtOffset 1 + _ at second
    omega

theorem TableDamage.valid_peer (damage : TableDamage copy data damaged)
    (known : copy = 1 ∨ copy = 2) (mirrored : TablesMirrored data) :
    RegionTableValid damaged (rtOffset (3 - copy)) := by
  have valid := mirrored.valid_copy (show 3 - copy = 1 ∨ 3 - copy = 2 by omega)
  exact (blockValid_congr (by decide) (by rw [damage.length_eq]; exact valid.1)
    valid.1 (damage.samePeer known)).mpr valid

/-- Only the damaged copy is reported. -/
theorem TableDamage.tableRepairs_eq (damage : TableDamage copy data damaged)
    (known : copy = 1 ∨ copy = 2) (mirrored : TablesMirrored data) :
    ∃ found, tableCopies.finding damaged copy = some found ∧
      tableRepairs damaged = [found] := by
  have peer : rtCrcFinding damaged (3 - copy) = none :=
    rtCrcFinding_eq_none_iff.mpr (damage.valid_peer known mirrored)
  cases found : rtCrcFinding damaged copy with
  | none => exact absurd (rtCrcFinding_eq_none_iff.mp found) damage.invalid
  | some finding =>
      refine ⟨finding, found, ?_⟩
      rcases known with rfl | rfl
      · rw [tableRepairs, found, show rtCrcFinding damaged 2 = none from peer]
        rfl
      · rw [tableRepairs, found, show rtCrcFinding damaged 1 = none from peer]
        rfl

/-- The analysis reads the ranges from the copy that is left. -/
theorem TableDamage.usedRanges_eq (damage : TableDamage copy data damaged)
    (known : copy = 1 ∨ copy = 2) (mirrored : TablesMirrored data) :
    usedRanges damaged = usedRanges data := by
  have inside := (fixedBlocks_inside mirrored.readable).2
  have equal : tableRanges data (rtOffset 1) = tableRanges data (rtOffset 2) :=
    tableRanges_congr mirrored.valid.1 inside mirrored.same
  have unused : tableRanges damaged (rtOffset copy) = none :=
    if_neg damage.invalid
  have peer : tableRanges damaged (rtOffset (3 - copy)) =
      tableRanges data (rtOffset (3 - copy)) :=
    tableRanges_congr (damage.valid_peer known mirrored).1
      (mirrored.valid_copy (by omega)).1 (damage.samePeer known)
  change (tableRanges damaged (rtOffset 1)).or
    (tableRanges damaged (rtOffset 2)) =
      (tableRanges data (rtOffset 1)).or (tableRanges data (rtOffset 2))
  rcases known with rfl | rfl
  · rw [unused, show tableRanges damaged (rtOffset 2) = _ from peer, equal]
    exact Option.or_self.symm
  · rw [unused, show tableRanges damaged (rtOffset 1) = _ from peer, ← equal,
      Option.or_self, Option.or_none]

theorem TableDamage.parsedRegions_eq (damage : TableDamage copy data damaged)
    (known : copy = 1 ∨ copy = 2) (mirrored : TablesMirrored data) :
    parsedRegions damaged = parsedRegions data := by
  have parsed := parsedRegions_eq_map data
  rw [parsedRegions_eq_map, damage.usedRanges_eq known mirrored, parsed]
  cases used : usedRanges data with
  | none => rfl
  | some ranges =>
      rw [used, Option.map_some] at parsed
      have items : parsedItems damaged ranges.2.1 ranges.2.2 =
          parsedItems data ranges.2.1 ranges.2.2 :=
        (parsedItems_congr damage.length_eq.symm fun range member =>
          (damage.sameRange
            ((mirrored.apart copy known _ parsed).2 range member)).symm).symm
      rw [Option.map_some, Option.map_some, regionsAt, regionsAt, items]

/-- Nothing but the damaged copy is repaired. -/
theorem TableDamage.runRepairs_eq (damage : TableDamage copy data damaged)
    (known : copy = 1 ∨ copy = 2) (mirrored : TablesMirrored data)
    (nothing : runRepairs data = []) :
    ∃ found, tableCopies.finding damaged copy = some found ∧
      runRepairs damaged = [found] := by
  obtain ⟨found, finding, tables⟩ := damage.tableRepairs_eq known mirrored
  refine ⟨found, finding, ?_⟩
  rw [VhdxForensic.runRepairs_eq mirrored.readable, List.append_eq_nil_iff,
    List.append_eq_nil_iff] at nothing
  obtain ⟨⟨headers, -⟩, entries⟩ := nothing
  have sameEntries : entryIssues damaged = entryIssues data := by
    rw [entryIssues, entryIssues, damage.parsedRegions_eq known mirrored]
    cases parsed : parsedRegions data with
    | none => rfl
    | some r =>
        exact batRepairs_congr damage.length_eq (damage.logZoneOf_eq known)
          fun _ => damage.sameRange (mirrored.apart copy known r parsed).1
  rw [VhdxForensic.runRepairs_eq (damage.readable known mirrored.readable),
    damage.headerRepairs_eq known, headers, tables, sameEntries, entries]
  rfl

/-- The content of the other copy makes up for the damage. -/
theorem TableDamage.overwrite_eq (damage : TableDamage copy data damaged)
    (known : copy = 1 ∨ copy = 2) (mirrored : TablesMirrored data) :
    overwrite damaged (rtOffset copy)
      (window damaged (rtOffset (3 - copy)) regionTableCrcCoverage) = data := by
  have valid := mirrored.valid_copy known
  have peerValid := damage.valid_peer known mirrored
  have contentLength := length_window_of_le peerValid.1
  have content : window damaged (rtOffset (3 - copy)) regionTableCrcCoverage =
      window data (rtOffset copy) regionTableCrcCoverage := by
    rw [show window damaged (rtOffset (3 - copy)) regionTableCrcCoverage = _
      from damage.samePeer known]
    rcases known with rfl | rfl
    · exact mirrored.same.symm
    · exact mirrored.same
  apply List.ext_getElem?
  intro index
  rw [getElem?_overwrite
      (by rw [contentLength, damage.length_eq]; exact valid.1),
    contentLength, content]
  by_cases inside : InRange (rtOffset copy, regionTableCrcCoverage) index
  · have low : rtOffset copy ≤ index := inside.1
    have high : index < rtOffset copy + regionTableCrcCoverage := inside.2
    rw [if_pos ⟨low, high⟩, getElem?_window, if_pos (by omega)]
    congr 1
    omega
  · have outside : ¬ (rtOffset copy ≤ index ∧
        index < rtOffset copy + regionTableCrcCoverage) := inside
    rw [if_neg outside, damage.confined index inside]

end Heal

/-- Only findings that can be repaired have a place. -/
theorem filterMap_repairs (tableOffset : Option Nat)
    (findings : List VhdxIntegrityAnomaly) :
    (repairs findings).filterMap (repairPlace tableOffset) =
      findings.filterMap (repairPlace tableOffset) := by
  rw [repairs]
  induction findings with
  | nil => rfl
  | cons finding findings inductionHypothesis =>
      cases kept : finding.repairable with
      | true =>
          rw [List.filter_cons_of_pos kept, List.filterMap_cons,
            List.filterMap_cons, inductionHypothesis]
      | false =>
          rw [List.filter_cons_of_neg (by simp [kept]),
            List.filterMap_cons_none (repairPlace_eq_none kept).1,
            inductionHypothesis]

/-- A repair undoes damage to one copy of the region table byte for byte. -/
theorem attemptRepair_heals_table (image : Buffer) {orders : SortOrders}
    {copy : Nat} {damaged : Bytes} (known : copy = 1 ∨ copy = 2)
    (settled : Settled image.bytes) (mirrored : TablesMirrored image.bytes)
    (damage : TableDamage copy image.bytes damaged) :
    ∃ report, attemptRepair orders damaged = .ok (report, image.bytes) ∧
      report.repaired.map RepairAction.place =
        [(rtOffset copy, regionTableCrcCoverage)] := by
  obtain ⟨_, completed, -⟩ := settled.again orders
  obtain ⟨fits, located⟩ :=
    fits_of_settles image.allocated (.of_eq_ok completed)
  have allocated : damaged.length ≤ isizeMax := by
    rw [damage.length_eq]
    exact image.allocated
  have parsed := damage.parsedRegions_eq known mirrored
  have damagedFits : AnalysisFits damaged := by
    intro magic r found
    rw [parsed] at found
    obtain ⟨tableFits, first⟩ := fits mirrored.readable r found
    refine ⟨fun checked => tableFits ?_, first⟩
    rwa [TableChecked, damage.length_eq] at checked
  obtain ⟨found, finding, repaired⟩ := damage.runRepairs_eq known mirrored
    (settled.runRepairs_eq_nil image.allocated)
  obtain ⟨report, returned, covers⟩ := @attemptRepair_eq orders damaged
    allocated damagedFits (by rw [parsed]; exact located)
  have healed : repairedImage orders damaged = image.bytes := by
    rw [repairedImage_eq, repaired,
      BlockCopies.repairedByAll_single tableCopies_restorable .refl known
        finding (damage.valid_peer known mirrored)]
    exact damage.overwrite_eq known mirrored
  refine ⟨report, by rw [returned, healed], ?_⟩
  obtain ⟨computed, stored, rfl⟩ := exists_of_crcFinding finding
  have places := covers.places
  rw [places, ← filterMap_repairs, @repairs_allFindings orders damaged,
    repaired, List.filterMap_cons, tableCopies_restorable.place _ _ _ _ known]
  rfl

/-- The tables of a planned container are stored whole. -/
theorem ContainerPlan.Fits.windows_tables {plan : ContainerPlan}
    (fits : plan.Fits) :
    window plan.container (rtOffset 1) regionTableCrcCoverage =
        encodeRegionTable plan.table1 ∧
      window plan.container (rtOffset 2) regionTableCrcCoverage =
        encodeRegionTable plan.table2 := by
  have large := fits.large
  have first : regionTable1Offset + regionTableCrcCoverage ≤ 0x50000 := by
    decide
  have second : regionTable2Offset + regionTableCrcCoverage ≤ 0x50000 := by
    decide
  constructor
  · change window _ regionTable1Offset _ = _
    exact window_layout fits.apart (by simp [ContainerPlan.pieces])
      (length_encodeRegionTable _) (by omega)
  · change window _ regionTable2Offset _ = _
    exact window_layout fits.apart (by simp [ContainerPlan.pieces])
      (length_encodeRegionTable _) (by omega)

section Standard

variable {items : List StoredItem} {bat : List Nat} {extra : List Run}

/-- The tables of a standard container are mirrored. -/
theorem tablesMirrored_standardPlan (fits : StandardFits items bat extra)
    (short : ∀ item ∈ items, item.guid ≠ guidVirtualDiskId) :
    TablesMirrored (standardPlan items bat extra).container where
  readable := fileMagicFindings_standardPlan fits
  valid := (standardPlan_fits fits).holds_table1.1
  same := (standardPlan_fits fits).windows_tables.1.trans
    (standardPlan_fits fits).windows_tables.2.symm
  apart := by
    intro copy known r parsed
    rw [parsedRegions_standardPlan fits short, Option.mem_some_iff] at parsed
    subst parsed
    have tableEnd : rtOffset copy + regionTableCrcCoverage ≤ 0x200000 := by
      rcases known with rfl | rfl <;> decide
    constructor
    · rintro ⟨index, inTable, inBat⟩
      change 0x300000 ≤ index ∧ _ at inBat
      unfold InRange at inTable
      omega
    · rintro range member ⟨index, inTable, inRange⟩
      have low := (metadataRanges_standardPlan fits member).1
      unfold InRange at inTable inRange
      omega

/-- Clearing the first byte of a valid copy damages it. -/
theorem clearedTable_damage {copy : Nat} {data : Bytes}
    (valid : RegionTableValid data (rtOffset copy)) :
    TableDamage copy data (overwrite data (rtOffset copy) [0]) := by
  have inside := valid.1
  have size : regionTableCrcCoverage = 65536 := rfl
  have written : rtOffset copy + [(0 : UInt8)].length ≤ data.length := by
    rw [List.length_singleton]
    omega
  refine ⟨length_overwrite written, fun index outside => ?_, fun damaged => ?_⟩
  · unfold InRange at outside
    rw [getElem?_overwrite written, List.length_singleton, if_neg (by omega)]
  · have byte := congrArg (fun bytes : Bytes => bytes[0]?) damaged.2.1
    rw [getElem?_window, if_pos (by decide), Nat.add_zero,
      getElem?_overwrite written, if_pos (by simp), Nat.sub_self] at byte
    exact absurd byte (by decide)

/-- In a standard container with one entry, that entry is repaired or
nothing. -/
theorem AuditedImage.IsStandard.runRepairs_single {image : AuditedImage}
    {value : Nat} (standard : image.IsStandard items [value] extra)
    (fits : StandardFits items [value] extra) (valueLt : value < 2 ^ 64) :
    runRepairs image.bytes =
      valueRepairs image.regions (logZoneOf image.bytes) image.bytes.length 0
        value := by
  have readable := fileMagicFindings_standardPlan fits
  obtain ⟨headers, tables⟩ := (standardPlan_fits fits).nothing_restored
  rw [← standard.bytes_eq] at readable headers tables
  rw [runRepairs_eq readable, headers, tables, entryIssues,
    image.parsedRegions_eq]
  change batRepairs image.bytes image.regions = _
  have checked : TableChecked image.bytes image.regions := by
    refine ⟨image.inside, ?_⟩
    rw [standard.regions_eq]
    exact show 8 ≤ 1 * 8 by decide
  have single : entryCountOf image.regions = 1 := standard.entryCount_eq
  have stored : entryAt image.bytes image.regions 0 = value :=
    standard.entryAt_eq fits (by simpa using valueLt) rfl
  rw [batRepairs, if_pos checked, single, List.range_one,
    List.flatMap_singleton, entryRepairs_eq, stored]

/-- A container whose first region table has lost its first byte is healed. -/
theorem attemptRepair_heals_table_cleared :
    ∃ image : Buffer,
      image.bytes =
          (standardPlan (blockItems 0x100000 0x100000) [0] []).container ∧
        ∃ report, attemptRepair stableOrders
            (overwrite image.bytes (rtOffset 1) [0]) =
              .ok (report, image.bytes) ∧
          report.repaired.map RepairAction.place =
            [(rtOffset 1, regionTableCrcCoverage)] := by
  have fits : StandardFits (blockItems 0x100000 0x100000) [0] [] :=
    ⟨blockItems_fit (by decide) (by decide), show 1 ≤ 0x20000 by decide,
      .nil, fun _ member => absurd member List.not_mem_nil⟩
  obtain ⟨image, standard, -⟩ := @exists_standardImage _ _ _ oneBlockDisk fits
    blockItems_short rfl rfl
  have bytesEq := standard.bytes_eq
  have mirrored : TablesMirrored image.bytes := by
    rw [bytesEq]
    exact tablesMirrored_standardPlan fits blockItems_short
  obtain ⟨_, completed⟩ := image.repair_completes stableOrders
  obtain ⟨analysed, located⟩ :=
    fits_of_settles image.allocated (.of_eq_ok completed)
  have settled : Settled image.bytes := by
    exact settled_of_runRepairs_eq_nil image.allocated analysed located
      ((standard.runRepairs_single fits (by decide)).trans valueRepairs_zero)
  exact ⟨image.toBuffer, bytesEq, attemptRepair_heals_table image.toBuffer
    (Or.inl rfl) settled mirrored (clearedTable_damage mirrored.valid)⟩

end Standard

end VhdxForensic
