import VhdxForensic.Core.Container
import VhdxForensic.Forensic.HeaderChecks

/-!
# Checks of the region tables

Both copies are checked on their own; valid copies are compared entry by
entry. The comparison goes by position, while the consumers of a table look
for the last entry with a GUID.
-/

namespace VhdxForensic

open Rust Rust.Bytes Rust.Exec

/-- Offset of a region table copy. -/
def rtOffset (copy : Nat) : Nat :=
  if copy = 1 then regionTable1Offset else regionTable2Offset

def checkSingleRtCrc (data : Bytes) (copy : Nat) :
    Audit (Option VhdxIntegrityAnomaly) :=
  checkBlockCrc data (rtOffset copy) regionTableCrcCoverage
    regionTableSignature (.regionTableChecksumMismatch copy)

/-- The name of a region, if its GUID is known. -/
def regionName (guid : Bytes) : Option String :=
  if guid = batGuid then some "BAT"
  else if guid = metadataGuid then some "Metadata"
  else none

/-- Findings about the ranges that two entries give to one region. -/
def rangeFindings (region : String) (off1 off2 len1 len2 : Nat) : Findings :=
  let fileOffset : Findings :=
    if off1 ≠ off2 then
      [.regionTableCopyMismatch region "file_offset" off1 off2]
    else []
  let length : Findings :=
    if len1 ≠ len2 then [.regionTableCopyMismatch region "length" len1 len2]
    else []
  fileOffset ++ length

/-- Compare the entries at one index of both tables. -/
def regionTablePairStep (rt1 rt2 : Bytes) (index : Nat) (issues : Findings) :
    Audit (ForInStep Findings) := do
  let base ← add 16 (index * regionEntrySize)
  let entryEnd ← add base regionEntrySize
  if entryEnd > rt1.length ∨ entryEnd > rt2.length then return .done issues
  else
    let guid1 ← slice rt1 base (base + 16)
    let guid2 ← slice rt2 base (base + 16)
    if guid1 ≠ guid2 then return .yield issues
    else
      match regionName guid1 with
      | none => return .yield issues
      | some region =>
          let off1 := leU64 rt1 (base + 16)
          let off2 := leU64 rt2 (base + 16)
          let len1 := leU32 rt1 (base + 24)
          let len2 := leU32 rt2 (base + 24)
          return .yield (issues ++ rangeFindings region off1 off2 len1 len2)

def checkRegionTablePair (data : Bytes) : Audit Findings := do
  let rt1 ← slice data regionTable1Offset
    (regionTable1Offset + regionTableCrcCoverage)
  let rt2 ← slice data regionTable2Offset
    (regionTable2Offset + regionTableCrcCoverage)
  let count1 := min (leU32 rt1 8) 2048
  let count2 := min (leU32 rt2 8) 2048
  let count := min count1 count2
  forRange count (regionTablePairStep rt1 rt2) []

def checkRegionTables (data : Bytes) : Audit Findings := do
  let rt1Bad ← checkSingleRtCrc data 1
  let rt2Bad ← checkSingleRtCrc data 2
  if rt1Bad.isSome ∧ rt2Bad.isSome then return [.bothRegionTableCopiesInvalid]
  else if rt1Bad.isNone ∧ rt2Bad.isNone then checkRegionTablePair data
  else return rt1Bad.toList ++ rt2Bad.toList

/-! ## What the checks compute -/

/-- What the check of a region table copy finds. -/
def rtCrcFinding (data : Bytes) (copy : Nat) : Option VhdxIntegrityAnomaly :=
  crcFinding data (rtOffset copy) regionTableCrcCoverage regionTableSignature
    (.regionTableChecksumMismatch copy)

theorem checkSingleRtCrc_eq (data : Bytes) (copy : Nat) :
    checkSingleRtCrc data copy = .ok (rtCrcFinding data copy) :=
  checkBlockCrc_eq (by decide)

theorem rtCrcFinding_eq_none_iff {data : Bytes} {copy : Nat} :
    rtCrcFinding data copy = none ↔ RegionTableValid data (rtOffset copy) :=
  crcFinding_eq_none_iff

/-- Number of entries that fit into the block of a table. -/
def fittingEntries : Nat := 2047

/-- Findings about two entries at one index. -/
def entryPairFindings (entry1 entry2 : RegionEntry) : Findings :=
  if entry1.guid ≠ entry2.guid then []
  else
    match regionName entry1.guid with
    | none => []
    | some region =>
        rangeFindings region entry1.fileOffset entry2.fileOffset
          entry1.length entry2.length

/-- Findings about the entries of both copies at one index. -/
def pairFindings (data : Bytes) (index : Nat) : Findings :=
  entryPairFindings (regionEntryAt data regionTable1Offset index)
    (regionEntryAt data regionTable2Offset index)

/-- Number of indices at which the copies are compared. -/
def comparedEntries (data : Bytes) : Nat :=
  min (min (regionEntryCount data regionTable1Offset)
    (regionEntryCount data regionTable2Offset)) fittingEntries

/-- Findings about two valid copies. -/
def regionTablePairFindings (data : Bytes) : Findings :=
  (List.range (comparedEntries data)).flatMap (pairFindings data)

/-- All findings about the region tables. -/
def regionTableFindings (data : Bytes) : Findings :=
  let rt1 := rtCrcFinding data 1
  let rt2 := rtCrcFinding data 2
  if rt1.isSome ∧ rt2.isSome then [.bothRegionTableCopiesInvalid]
  else if rt1.isNone ∧ rt2.isNone then regionTablePairFindings data
  else rt1.toList ++ rt2.toList

section Pair

variable {data : Bytes}

/-- The block of a valid table copy can be cut out. -/
theorem slice_of_regionTableValid {ε : Type} {offset : Nat}
    (valid : RegionTableValid data offset) :
    (slice data offset (offset + regionTableCrcCoverage) : Exec ε Bytes) =
      .ok (window data offset regionTableCrcCoverage) := by
  rw [slice_eq_ok (by omega) valid.1, Nat.add_sub_cancel_left]

theorem regionTablePairStep_eq {index : Nat} (issues : Findings)
    (valid1 : RegionTableValid data regionTable1Offset)
    (valid2 : RegionTableValid data regionTable2Offset)
    (fits : index < fittingEntries) :
    regionTablePairStep
        (window data regionTable1Offset regionTableCrcCoverage)
        (window data regionTable2Offset regionTableCrcCoverage) index issues =
      .ok (.yield (issues ++ pairFindings data index)) := by
  have coverage : regionTableCrcCoverage = 65536 := rfl
  have width : regionEntrySize = 32 := rfl
  have fitting : fittingEntries = 2047 := rfl
  have length1 := length_window_of_le valid1.1
  have length2 := length_window_of_le valid2.1
  have entryEnd : 16 + index * regionEntrySize + 32 ≤
      regionTableCrcCoverage := by
    rw [width]
    omega
  have small : regionTableCrcCoverage < wordCount := by decide
  rw [regionTablePairStep, add_eq_ok (by omega), ok_bind,
    add_eq_ok (by omega), ok_bind, if_neg (by omega),
    slice_eq_ok (by omega) (by omega), ok_bind, Nat.add_sub_cancel_left,
    slice_eq_ok (by omega) (by omega), ok_bind, Nat.add_sub_cancel_left,
    window_window_of_le (by omega), window_window_of_le (by omega),
    leU64_window (by omega) valid1.1, leU64_window (by omega) valid2.1,
    leU32_window (by omega) valid1.1, leU32_window (by omega) valid2.1]
  unfold pairFindings entryPairFindings regionEntryAt
  dsimp only
  by_cases named : window data
      (regionTable1Offset + (16 + index * regionEntrySize)) 16 =
    window data (regionTable2Offset + (16 + index * regionEntrySize)) 16
  · rw [if_neg (not_not_intro named), if_neg (not_not_intro named)]
    split
    · rw [List.append_nil]
      rfl
    · rfl
  · rw [if_pos named, if_pos named, List.append_nil]
    rfl

/-- The comparison breaks at the first entry that leaves the blocks. -/
theorem regionTablePairStep_ends {index : Nat} (issues : Findings)
    (valid1 : RegionTableValid data regionTable1Offset)
    (outside : fittingEntries ≤ index) (capped : index < 2048) :
    regionTablePairStep
        (window data regionTable1Offset regionTableCrcCoverage)
        (window data regionTable2Offset regionTableCrcCoverage) index issues =
      .ok (.done issues) := by
  have coverage : regionTableCrcCoverage = 65536 := rfl
  have width : regionEntrySize = 32 := rfl
  have fitting : fittingEntries = 2047 := rfl
  have length1 := length_window_of_le valid1.1
  have word : 2 ^ 20 < wordCount := by decide
  have base : index * regionEntrySize = index * 32 := rfl
  rw [regionTablePairStep, add_eq_ok (by omega), ok_bind,
    add_eq_ok (by omega), ok_bind, if_pos (Or.inl (by omega))]
  rfl

theorem checkRegionTablePair_eq
    (valid1 : RegionTableValid data regionTable1Offset)
    (valid2 : RegionTableValid data regionTable2Offset) :
    checkRegionTablePair data = .ok (regionTablePairFindings data) := by
  have coverage : regionTableCrcCoverage = 65536 := rfl
  have cap : regionEntryCountMax = 2048 := rfl
  rw [checkRegionTablePair, slice_of_regionTableValid valid1, ok_bind,
    slice_of_regionTableValid valid2, ok_bind,
    leU32_window (by omega) valid1.1, leU32_window (by omega) valid2.1]
  have loop : forRange (min (regionEntryCount data regionTable1Offset)
      (regionEntryCount data regionTable2Offset))
      (regionTablePairStep
        (window data regionTable1Offset regionTableCrcCoverage)
        (window data regionTable2Offset regionTableCrcCoverage)) [] =
      .ok (foldRange (fun index issues => issues ++ pairFindings data index)
        (comparedEntries data) []) := by
    apply forRange_eq_fold_of_break
    · exact min_le_left _ _
    · intro index indexLt issues
      apply regionTablePairStep_eq issues valid1 valid2
      unfold comparedEntries at indexLt
      omega
    · intro broke issues
      unfold comparedEntries at broke
      apply regionTablePairStep_ends issues valid1
      · unfold comparedEntries
        omega
      · unfold comparedEntries fittingEntries
        omega
  rw [foldRange_append, List.nil_append] at loop
  exact loop

theorem checkRegionTables_eq (data : Bytes) :
    checkRegionTables data = .ok (regionTableFindings data) := by
  rw [checkRegionTables, checkSingleRtCrc_eq, ok_bind, checkSingleRtCrc_eq,
    ok_bind, regionTableFindings]
  split
  · rfl
  · split
    · rename_i both
      have valid1 : RegionTableValid data regionTable1Offset :=
        rtCrcFinding_eq_none_iff.mp (Option.isNone_iff_eq_none.mp both.1)
      have valid2 : RegionTableValid data regionTable2Offset :=
        rtCrcFinding_eq_none_iff.mp (Option.isNone_iff_eq_none.mp both.2)
      exact checkRegionTablePair_eq valid1 valid2
    · rfl

/-- Valid copies are compared. -/
theorem regionTableFindings_of_valid
    (valid1 : RegionTableValid data regionTable1Offset)
    (valid2 : RegionTableValid data regionTable2Offset) :
    regionTableFindings data = regionTablePairFindings data := by
  have none1 : rtCrcFinding data 1 = none :=
    rtCrcFinding_eq_none_iff.mpr valid1
  have none2 : rtCrcFinding data 2 = none :=
    rtCrcFinding_eq_none_iff.mpr valid2
  rw [regionTableFindings, none1, none2]
  rfl

end Pair

/-! ## Disagreeing copies -/

/-- The findings report no disagreement of the copies. -/
def NoCopyMismatch (findings : Findings) : Prop :=
  ∀ region field value1 value2,
    .regionTableCopyMismatch region field value1 value2 ∉ findings

/-- Where a region lies. -/
def RegionEntry.range (entry : RegionEntry) : Nat × Nat :=
  (entry.fileOffset, entry.length)

/-- Number of entries that a consumer visits which reads at most `cap`. -/
def visitedEntries (data : Bytes) (offset cap : Nat) : Nat :=
  min (leU32 data (offset + 8)) cap

/-- The range to which such a consumer resolves a GUID. -/
def resolvedRange (data : Bytes) (offset cap : Nat) (guid : Bytes) :
    Option (Nat × Nat) :=
  (lastWithGuid guid (regionEntries data offset
    (visitedEntries data offset cap))).map RegionEntry.range

/-- Index of the last visited entry with a GUID. -/
def lastIndex (data : Bytes) (offset cap : Nat) (guid : Bytes) :
    Option Nat :=
  ((List.range (visitedEntries data offset cap)).filter fun index =>
    (regionEntryAt data offset index).guid = guid).getLast?

/-- GUIDs of the regions that a container cannot do without. -/
def knownRegions : List Bytes := [batGuid, metadataGuid]

/-- Both copies resolve the known regions to the same ranges. -/
def CopiesAgree (data : Bytes) (cap : Nat) : Prop :=
  ∀ guid ∈ knownRegions,
    resolvedRange data regionTable1Offset cap guid =
      resolvedRange data regionTable2Offset cap guid

/-- The entries that count for a GUID stand at one index of both blocks, or
there is none in either copy. -/
def LastEntriesAligned (data : Bytes) (cap : Nat) (guid : Bytes) : Prop :=
  match lastIndex data regionTable1Offset cap guid,
    lastIndex data regionTable2Offset cap guid with
  | none, none => True
  | some index1, some index2 => index1 = index2 ∧ index1 < fittingEntries
  | _, _ => False

/-- The entries that count for a GUID happen to give the same range. -/
def LastRangesCoincide (data : Bytes) (cap : Nat) (guid : Bytes) : Prop :=
  ∃ index1 index2,
    lastIndex data regionTable1Offset cap guid = some index1 ∧
      lastIndex data regionTable2Offset cap guid = some index2 ∧
      (regionEntryAt data regionTable1Offset index1).range =
        (regionEntryAt data regionTable2Offset index2).range

/-- The entries that count for a GUID are compared with each other, or agree
by coincidence. -/
def LastEntriesMatch (data : Bytes) (cap : Nat) (guid : Bytes) : Prop :=
  LastEntriesAligned data cap guid ∨ LastRangesCoincide data cap guid

section Agreement

variable {data : Bytes} {cap : Nat} {guid : Bytes}

theorem lastWithGuid_regionEntries (offset : Nat) :
    lastWithGuid guid (regionEntries data offset
        (visitedEntries data offset cap)) =
      (lastIndex data offset cap guid).map (regionEntryAt data offset) := by
  unfold lastWithGuid regionEntries lastIndex
  rw [List.filter_map, List.getLast?_map]
  rfl

theorem resolvedRange_eq (offset : Nat) :
    resolvedRange data offset cap guid =
      (lastIndex data offset cap guid).map fun index =>
        (regionEntryAt data offset index).range := by
  rw [resolvedRange, lastWithGuid_regionEntries, Option.map_map]
  rfl

theorem lastIndex_spec {offset index : Nat}
    (found : lastIndex data offset cap guid = some index) :
    index < visitedEntries data offset cap ∧
      (regionEntryAt data offset index).guid = guid := by
  have member := List.mem_of_getLast? found
  simpa using member

/-- Ranges that are not reported as different are the same. -/
theorem range_eq_of_no_finding {region : String} {off1 off2 len1 len2 : Nat}
    (noMismatch : NoCopyMismatch (rangeFindings region off1 off2 len1 len2)) :
    (off1, len1) = (off2, len2) := by
  have sameOffset : off1 = off2 := by
    by_contra differ
    apply noMismatch region "file_offset" off1 off2
    simp [rangeFindings, differ]
  have sameLength : len1 = len2 := by
    by_contra differ
    apply noMismatch region "length" len1 len2
    simp [rangeFindings, differ]
  rw [sameOffset, sameLength]

theorem regionName_of_known (known : guid ∈ knownRegions) :
    ∃ region, regionName guid = some region := by
  rcases List.mem_pair.mp known with rfl | rfl
  · exact ⟨"BAT", if_pos rfl⟩
  · refine ⟨"Metadata", ?_⟩
    rw [regionName, if_neg (by decide), if_pos rfl]

/-- A compared index at which both copies carry a known GUID gives it one
range. -/
theorem range_eq_of_compared {index : Nat}
    (noMismatch : NoCopyMismatch (regionTablePairFindings data))
    (known : guid ∈ knownRegions)
    (compared : index < comparedEntries data)
    (named1 : (regionEntryAt data regionTable1Offset index).guid = guid)
    (named2 : (regionEntryAt data regionTable2Offset index).guid = guid) :
    (regionEntryAt data regionTable1Offset index).range =
      (regionEntryAt data regionTable2Offset index).range := by
  obtain ⟨region, name⟩ := regionName_of_known known
  have here : pairFindings data index =
      rangeFindings region
        (regionEntryAt data regionTable1Offset index).fileOffset
        (regionEntryAt data regionTable2Offset index).fileOffset
        (regionEntryAt data regionTable1Offset index).length
        (regionEntryAt data regionTable2Offset index).length := by
    rw [pairFindings, entryPairFindings,
      if_neg (not_not_intro (named1.trans named2.symm)), named1, name]
  apply @range_eq_of_no_finding region
  intro region' field value1 value2 member
  apply noMismatch region' field value1 value2
  apply List.mem_flatMap_of_mem (List.mem_range.mpr compared)
  rwa [here]

/-- Entries at one index are compared, so they resolve alike when no
disagreement is reported. -/
theorem resolvedRange_eq_of_aligned
    (noMismatch : NoCopyMismatch (regionTablePairFindings data))
    (capLe : cap ≤ regionEntryCountMax) (known : guid ∈ knownRegions)
    (aligned : LastEntriesAligned data cap guid) :
    resolvedRange data regionTable1Offset cap guid =
      resolvedRange data regionTable2Offset cap guid := by
  rw [resolvedRange_eq, resolvedRange_eq]
  unfold LastEntriesAligned at aligned
  cases found1 : lastIndex data regionTable1Offset cap guid with
  | none =>
      rw [found1] at aligned
      cases found2 : lastIndex data regionTable2Offset cap guid with
      | none => rfl
      | some index2 =>
          rw [found2] at aligned
          exact aligned.elim
  | some index1 =>
      rw [found1] at aligned
      cases found2 : lastIndex data regionTable2Offset cap guid with
      | none =>
          rw [found2] at aligned
          exact aligned.elim
      | some index2 =>
          rw [found2] at aligned
          obtain ⟨rfl, fits⟩ := aligned
          obtain ⟨visited1, named1⟩ := lastIndex_spec found1
          obtain ⟨visited2, named2⟩ := lastIndex_spec found2
          refine congrArg some
            (range_eq_of_compared noMismatch known ?_ named1 named2)
          unfold visitedEntries at visited1 visited2
          unfold comparedEntries regionEntryCount
          omega

/-- Copies whose entries that count stand at the same indices are resolved
alike when no disagreement is reported. -/
theorem copiesAgree_of_aligned {findings : Findings}
    (valid1 : RegionTableValid data regionTable1Offset)
    (valid2 : RegionTableValid data regionTable2Offset)
    (checked : checkRegionTables data = .ok findings)
    (noMismatch : NoCopyMismatch findings)
    (capLe : cap ≤ regionEntryCountMax)
    (aligned : ∀ guid ∈ knownRegions, LastEntriesAligned data cap guid) :
    CopiesAgree data cap := by
  rw [checkRegionTables_eq, regionTableFindings_of_valid valid1 valid2]
    at checked
  obtain rfl := Except.ok.inj checked
  intro guid known
  exact resolvedRange_eq_of_aligned noMismatch capLe known
    (aligned guid known)

/-- Beyond that, copies are resolved alike only if their entries give the
same range by coincidence. -/
theorem copiesAgree_iff {findings : Findings}
    (valid1 : RegionTableValid data regionTable1Offset)
    (valid2 : RegionTableValid data regionTable2Offset)
    (checked : checkRegionTables data = .ok findings)
    (noMismatch : NoCopyMismatch findings)
    (capLe : cap ≤ regionEntryCountMax) :
    CopiesAgree data cap ↔
      ∀ guid ∈ knownRegions, LastEntriesMatch data cap guid := by
  rw [checkRegionTables_eq, regionTableFindings_of_valid valid1 valid2]
    at checked
  obtain rfl := Except.ok.inj checked
  refine forall₂_congr fun guid known => ?_
  constructor
  · intro agree
    rw [resolvedRange_eq, resolvedRange_eq] at agree
    cases found1 : lastIndex data regionTable1Offset cap guid with
    | none =>
        left
        rw [found1, Option.map_none] at agree
        rw [LastEntriesAligned, found1,
          Option.map_eq_none_iff.mp agree.symm]
        trivial
    | some index1 =>
        right
        rw [found1, Option.map_some] at agree
        obtain ⟨index2, found2, same⟩ := Option.map_eq_some_iff.mp agree.symm
        exact ⟨index1, index2, found1, found2, same.symm⟩
  · rintro (aligned | ⟨index1, index2, found1, found2, same⟩)
    · exact resolvedRange_eq_of_aligned noMismatch capLe known aligned
    · rw [resolvedRange_eq, resolvedRange_eq, found1, found2, Option.map_some,
        Option.map_some, same]

end Agreement

/-! ## Planned containers -/

namespace ContainerPlan

variable {plan : ContainerPlan}

/-- The comparison of two encoded tables goes through them side by side. -/
theorem Fits.regionTablePairFindings_eq (fits : plan.Fits) :
    regionTablePairFindings plan.container =
      (plan.table1.zip plan.table2).flatMap fun pair =>
        entryPairFindings pair.1 pair.2 := by
  obtain ⟨-, stored1, entries1⟩ := fits.holds_table1
  obtain ⟨-, stored2, entries2⟩ := fits.holds_table2
  have count1 := fits.table1.count_le
  have count2 := fits.table2.count_le
  have cap : regionEntryCountMax = 2048 := rfl
  have fitting : fittingEntries = 2047 := rfl
  have compared : comparedEntries plan.container =
      min plan.table1.length plan.table2.length := by
    rw [comparedEntries, regionEntryCount, regionEntryCount, stored1, stored2]
    omega
  have sideBySide : plan.table1.zip plan.table2 =
      (List.range (comparedEntries plan.container)).map fun index =>
        (regionEntryAt plan.container regionTable1Offset index,
          regionEntryAt plan.container regionTable2Offset index) := by
    rw [compared, ← zip_map_range]
    exact (congrArg₂ List.zip entries1 entries2).symm
  rw [sideBySide, List.flatMap_map]
  rfl

theorem Fits.resolvedRange_table1 (fits : plan.Fits) {cap : Nat}
    (guid : Bytes) (visited : plan.table1.length ≤ cap) :
    resolvedRange plan.container regionTable1Offset cap guid =
      (lastWithGuid guid plan.table1).map RegionEntry.range := by
  obtain ⟨-, stored, entries⟩ := fits.holds_table1
  rw [resolvedRange, visitedEntries, stored, min_eq_left visited, entries]

theorem Fits.resolvedRange_table2 (fits : plan.Fits) {cap : Nat}
    (guid : Bytes) (visited : plan.table2.length ≤ cap) :
    resolvedRange plan.container regionTable2Offset cap guid =
      (lastWithGuid guid plan.table2).map RegionEntry.range := by
  obtain ⟨-, stored, entries⟩ := fits.holds_table2
  rw [resolvedRange, visitedEntries, stored, min_eq_left visited, entries]

/-- Both tables of a fitting plan are valid, and the check compares them. -/
theorem Fits.checkRegionTables_eq (fits : plan.Fits) :
    checkRegionTables plan.container =
      .ok ((plan.table1.zip plan.table2).flatMap fun pair =>
        entryPairFindings pair.1 pair.2) := by
  rw [VhdxForensic.checkRegionTables_eq,
    regionTableFindings_of_valid fits.holds_table1.1 fits.holds_table2.1,
    fits.regionTablePairFindings_eq]

end ContainerPlan

/-- A standard container without items and entries. -/
theorem emptyPlan_fits : (standardPlan [] [] []).Fits :=
  standardPlan_fits
    { items_fit := ⟨by simp, by simp⟩
      bat_le := by simp
      extra_apart := List.Pairwise.nil
      extra_place := by simp }

theorem copiesAgree_iff_emptyPlan :
    CopiesAgree (standardPlan [] [] []).container regionEntryCountMax ↔
      ∀ guid ∈ knownRegions,
        LastEntriesMatch (standardPlan [] [] []).container
          regionEntryCountMax guid :=
  copiesAgree_iff emptyPlan_fits.holds_table1.1 emptyPlan_fits.holds_table2.1
    (emptyPlan_fits.checkRegionTables_eq.trans (congrArg Except.ok
      (show _ = [] by decide)))
    (fun _ _ _ _ => List.not_mem_nil) le_rfl

/-- A plan without regions but with two tables that name them in opposite
order and at different places. -/
def oppositeTables : ContainerPlan where
  size := 0x600000
  header1 := cleanHeader 1
  header2 := cleanHeader 2
  table1 := [{ guid := batGuid, fileOffset := 0x200000, length := 0x100000 },
    { guid := metadataGuid, fileOffset := 0x300000, length := 0x100000 }]
  table2 := [
    { guid := metadataGuid, fileOffset := 0x400000, length := 0x100000 },
    { guid := batGuid, fileOffset := 0x500000, length := 0x100000 }]
  regions := []

theorem oppositeTables_fits : oppositeTables.Fits where
  header1 := cleanHeader_encodable (by decide)
  header2 := cleanHeader_encodable (by decide)
  table1 := by
    refine ⟨fun entry member => ?_, show 2 ≤ 2047 by decide⟩
    rcases List.mem_pair.mp member with rfl | rfl <;>
      exact ⟨rfl, by norm_num, by norm_num⟩
  table2 := by
    refine ⟨fun entry member => ?_, show 2 ≤ 2047 by decide⟩
    rcases List.mem_pair.mp member with rfl | rfl <;>
      exact ⟨rfl, by norm_num, by norm_num⟩
  apart := ContainerPlan.pieces_apart (by simp [oppositeTables])
    List.Pairwise.nil
  large := show 0x50000 ≤ 0x600000 by decide
  regions_inside := by simp [oppositeTables]

/-- The copies of this container are valid and disagree for every consumer,
and nothing is reported. -/
theorem oppositeTables_unreported :
    RegionTableValid oppositeTables.container regionTable1Offset ∧
      RegionTableValid oppositeTables.container regionTable2Offset ∧
      checkRegionTables oppositeTables.container = .ok [] ∧
      ¬ CopiesAgree oppositeTables.container fittingEntries ∧
      ¬ CopiesAgree oppositeTables.container regionEntryCountMax := by
  have fits := oppositeTables_fits
  have disagree : ∀ cap, 2 ≤ cap →
      ¬ CopiesAgree oppositeTables.container cap := by
    intro cap visited agree
    have same := agree batGuid (by simp [knownRegions])
    rw [fits.resolvedRange_table1 _ visited,
      fits.resolvedRange_table2 _ visited] at same
    exact absurd same (by decide)
  refine ⟨fits.holds_table1.1, fits.holds_table2.1, ?_,
    disagree _ (by decide), disagree _ (by decide)⟩
  rw [fits.checkRegionTables_eq]
  rfl

end VhdxForensic
