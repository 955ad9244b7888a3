import VhdxForensic.Core.Checksum
import VhdxForensic.Core.OverlayBytes
import VhdxForensic.Forensic.LogChecks
import VhdxForensic.Forensic.RegionChecks

/-!
# Tampering with checksummed blocks

A small change of a header copy, a region table or a log entry is noticed by
every routine that verifies its checksum.
-/

namespace VhdxForensic

open Rust Rust.Bytes Rust.Exec

/-- Offset of the header copy that is not `copy`. -/
def otherHeaderOffset (copy : Nat) : Nat :=
  if copy = 1 then header2Offset else header1Offset

section Blocks

variable {data changed : Bytes}

/-- An invalid header copy is not used. -/
theorem parseActiveHeader_of_invalid {copy : Nat}
    (invalid : ¬ HeaderValid changed (headerOffset copy)) :
    parseActiveHeader changed =
      parseOneHeader changed (otherHeaderOffset copy) := by
  rw [parseActiveHeader_eq, activeHeader, activeHeaderOffset]
  unfold headerOffset at invalid
  unfold otherHeaderOffset
  by_cases first : copy = 1
  · rw [if_pos first] at invalid ⊢
    rw [if_neg invalid, parseOneHeader_eq (by decide)]
    by_cases valid : HeaderValid changed header2Offset
    · rw [if_pos valid, if_pos valid]
      rfl
    · rw [if_neg valid, if_neg valid]
      rfl
  · rw [if_neg first] at invalid ⊢
    rw [if_neg invalid, parseOneHeader_eq (by decide)]
    by_cases valid : HeaderValid changed header1Offset
    · rw [if_pos valid, if_pos valid]
      rfl
    · rw [if_neg valid, if_neg invalid, if_neg valid]
      rfl

/-- A table that is present and invalid is rejected. -/
theorem parseRegionTable_of_invalid {offset containerLen : Nat}
    (present : offset + regionTableCrcCoverage ≤ changed.length)
    (allocated : changed.length ≤ isizeMax)
    (invalid : ¬ RegionTableValid changed offset) :
    parseRegionTable changed offset containerLen =
      fail .invalidRegionTable := by
  have coverage : regionTableCrcCoverage = 65536 := rfl
  have word : isizeMax < wordCount := by decide
  have tableLength : (window changed offset
      (changed.length - offset)).length = changed.length - offset :=
    length_window_of_le (by omega)
  have coveredLength : (window changed offset regionTableCrcCoverage).length =
      regionTableCrcCoverage := length_window_of_le present
  rw [parseRegionTable, add_eq_ok (by omega), ok_bind, failIf_bind,
    if_neg (by omega), slice_eq_ok (by omega) le_rfl, ok_bind,
    slice_eq_ok (by omega) (by omega), ok_bind,
    window_window_of_le (by omega), Nat.add_zero, failIf_bind]
  by_cases signed : window changed offset 4 = regionTableSignature
  case neg => rw [if_pos signed]
  rw [if_neg (not_not_intro signed)]
  dsimp only
  rw [tableLength, min_eq_left (by omega),
    slice_eq_ok (by omega) (by omega), ok_bind, Nat.sub_zero,
    window_window_of_le (by omega), Nat.add_zero, coveredLength, Nat.sub_self,
    List.replicate_zero, List.append_nil, fill_eq_ok 0 (by omega) (by omega),
    ok_bind, failIf_bind, if_pos]
  intro checked
  refine invalid ⟨present, signed, ?_⟩
  rw [leU32_window (by omega) (by omega)] at checked
  exact checked

theorem SmallChange.header {copy : Nat}
    (change : SmallChange (headerOffset copy) headerSize data changed)
    (valid : HeaderValid data (headerOffset copy)) :
    ¬ HeaderValid changed (headerOffset copy) :=
  change.not_blockValid (by decide) valid

theorem SmallChange.table {offset : Nat}
    (change : SmallChange offset regionTableCrcCoverage data changed)
    (valid : RegionTableValid data offset) :
    ¬ RegionTableValid changed offset :=
  change.not_blockValid (by decide) valid

/-- A finding of the check of a header copy that is invalid. -/
theorem checkSingleHeaderCrc_of_invalid {copy : Nat}
    (invalid : ¬ HeaderValid changed (headerOffset copy)) :
    ∃ computed stored, checkSingleHeaderCrc changed copy =
      .ok (some (.headerChecksumMismatch copy computed stored)) := by
  rw [checkSingleHeaderCrc_eq]
  cases found : headerCrcFinding changed copy with
  | none => exact absurd (headerCrcFinding_eq_none_iff.mp found) invalid
  | some finding =>
      obtain ⟨computed, stored, rfl⟩ := exists_of_crcFinding found
      exact ⟨computed, stored, rfl⟩

theorem checkSingleRtCrc_of_invalid {copy : Nat}
    (invalid : ¬ RegionTableValid changed (rtOffset copy)) :
    ∃ computed stored, checkSingleRtCrc changed copy =
      .ok (some (.regionTableChecksumMismatch copy computed stored)) := by
  rw [checkSingleRtCrc_eq]
  cases found : rtCrcFinding changed copy with
  | none => exact absurd (rtCrcFinding_eq_none_iff.mp found) invalid
  | some finding =>
      obtain ⟨computed, stored, rfl⟩ := exists_of_crcFinding found
      exact ⟨computed, stored, rfl⟩

end Blocks

section Logs

variable {log changed expectedGuid : Bytes} {pos : Nat}

/-- The entry at `pos` is not kept after a small change that leaves its
length alone. -/
theorem keptEntry_of_change (entry : LogEntryAt log pos)
    (checked : LogEntryChecked log pos (leU32 log (pos + 8)))
    (change : SmallChange pos (leU32 log (pos + 8)) log changed)
    (sameLength : leU32 changed (pos + 8) = leU32 log (pos + 8)) :
    keptEntry changed expectedGuid pos = none := by
  obtain ⟨-, large, inside⟩ := entry
  have lengthEq := change.length_eq
  rw [keptEntry_eq_none_iff, sameLength]
  rintro ⟨still, -⟩
  exact change.not_checksumHolds inside (by omega)
    ((checksumHolds_window_iff inside (by omega)).mpr checked)
    ((checksumHolds_window_iff (by omega) (by omega)).mpr still)

theorem position_ne_of_keptEntry_eq_none
    (dropped : keptEntry log expectedGuid pos = none) :
    ∀ entry ∈ collectedEntries log expectedGuid, entry.position ≠ pos := by
  intro entry member same
  obtain ⟨position, -, collected⟩ :=
    List.mem_filterMap.mp (List.mem_mergeSort.mp member)
  obtain ⟨kept, found, rfl⟩ := Option.map_eq_some_iff.mp collected
  dsimp only at same
  rw [same, dropped] at found
  cases found

end Logs

/-- Small changes of checksummed blocks are caught. -/
structure SmallChangesCaught : Prop where
  /-- A changed header copy is neither parsed nor passed. -/
  header : ∀ (data changed : Bytes) (copy : Nat), copy = 1 ∨ copy = 2 →
    HeaderValid data (headerOffset copy) →
    SmallChange (headerOffset copy) headerSize data changed →
    parseOneHeader changed (headerOffset copy) = fail .noValidHeader ∧
      parseActiveHeader changed =
        parseOneHeader changed (otherHeaderOffset copy) ∧
      ∃ computed stored, checkSingleHeaderCrc changed copy =
        .ok (some (.headerChecksumMismatch copy computed stored))
  /-- A changed region table is neither parsed nor passed. -/
  table : ∀ (data changed : Bytes) (copy : Nat), copy = 1 ∨ copy = 2 →
    changed.length ≤ isizeMax →
    RegionTableValid data (rtOffset copy) →
    SmallChange (rtOffset copy) regionTableCrcCoverage data changed →
    (∀ containerLen, parseRegionTable changed (rtOffset copy) containerLen =
        fail .invalidRegionTable) ∧
      ∃ computed stored, checkSingleRtCrc changed copy =
        .ok (some (.regionTableChecksumMismatch copy computed stored))
  /-- A changed log entry is neither replayed nor passed. -/
  logEntry : ∀ (log changed expectedGuid : Bytes) (pos : Nat),
    changed.length ≤ isizeMax → pos ∈ visitsFrom log 0 →
    LogEntryChecked log pos (leU32 log (pos + 8)) →
    SmallChange pos (leU32 log (pos + 8)) log changed →
    leU32 changed (pos + 8) = leU32 log (pos + 8) →
    (collectEntries changed expectedGuid : Exec VhdxError _) =
        .ok ((collectedEntries changed expectedGuid).map
          CollectedEntry.bytes) ∧
      ∀ entry ∈ collectedEntries changed expectedGuid, entry.position ≠ pos

theorem smallChanges_caught : SmallChangesCaught where
  header := by
    intro data changed copy _ valid change
    have invalid := change.header valid
    refine ⟨?_, parseActiveHeader_of_invalid invalid,
      checkSingleHeaderCrc_of_invalid invalid⟩
    have representable : headerOffset copy + headerSize < wordCount := by
      unfold headerOffset
      split <;> decide
    rw [parseOneHeader_eq representable, if_neg invalid]
  table := by
    intro data changed copy _ allocated valid change
    have invalid := change.table valid
    have lengthEq := change.length_eq
    have present := valid.1
    exact ⟨fun containerLen => parseRegionTable_of_invalid (by omega)
      allocated invalid, checkSingleRtCrc_of_invalid invalid⟩
  logEntry := by
    intro log changed expectedGuid pos allocated visited checked change
      sameLength
    have entry := entry_of_mem_visitsFrom visited
    refine ⟨?_, position_ne_of_keptEntry_eq_none
      (keptEntry_of_change entry checked change sameLength)⟩
    rw [collectEntries_eq expectedGuid allocated, logEntries_eq_collected]

/-- Clearing the first byte of a valid header copy is a small change. -/
theorem clearedHeader_change {data : Bytes} {offset : Nat}
    (valid : HeaderValid data offset) :
    SmallChange offset headerSize data (overwrite data offset [0]) := by
  obtain ⟨inside, signed, -⟩ := valid
  have size : headerSize = 4096 := rfl
  have written : offset + [(0 : UInt8)].length ≤ data.length := by
    rw [List.length_singleton]
    omega
  have first : data[offset]? = some 0x68 := by
    have byte := congrArg (fun bytes : Bytes => bytes[0]?) signed
    rw [getElem?_window, if_pos (by decide), Nat.add_zero] at byte
    exact byte
  refine { length_eq := length_overwrite written, ne := ?_, confined := ?_ }
  · intro same
    have byte := congrArg (fun bytes : Bytes => bytes[offset]?) same
    rw [getElem?_overwrite written, if_pos (by simp), first,
      Nat.sub_self] at byte
    exact absurd byte (by decide)
  · refine ⟨0, by omega, Or.inl (by omega), fun index outside => ?_⟩
    rw [getElem?_overwrite written, List.length_singleton, if_neg (by omega)]

/-- A container whose first header copy has lost its first byte. -/
theorem smallChanges_caught_clearedHeader :
    parseOneHeader (overwrite (standardPlan [] [] []).container
        (headerOffset 1) [0]) (headerOffset 1) = fail .noValidHeader ∧
      parseActiveHeader (overwrite (standardPlan [] [] []).container
          (headerOffset 1) [0]) =
        parseOneHeader (overwrite (standardPlan [] [] []).container
          (headerOffset 1) [0]) (otherHeaderOffset 1) ∧
      ∃ computed stored,
        checkSingleHeaderCrc (overwrite (standardPlan [] [] []).container
            (headerOffset 1) [0]) 1 =
          .ok (some (.headerChecksumMismatch 1 computed stored)) :=
  smallChanges_caught.header _ _ 1 (Or.inl rfl) emptyPlan_fits.holds_header1.1
    (clearedHeader_change emptyPlan_fits.holds_header1.1)

end VhdxForensic
