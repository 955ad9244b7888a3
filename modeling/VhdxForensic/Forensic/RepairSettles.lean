import VhdxForensic.Forensic.RestoredCopies
import VhdxForensic.Forensic.RepairTrail

/-!
# What a repair settles

If the bytes that a repair writes are none of those that the analysis reads
elsewhere, nothing is left to repair afterwards. A table that shares bytes
with a header copy can be repaired into an invalid header.
-/

namespace VhdxForensic

open Rust Rust.Bytes Rust.Exec

/-! ## The value of an entry -/

section Value

variable {value : Nat}

/-- Clearing the reserved bits keeps the state. -/
theorem stateOf_used :
    Bat.stateOf (value &&& batUsedBitsMask) = Bat.stateOf value := by
  rw [← Bat.and_seven_eq_stateOf, ← Bat.and_seven_eq_stateOf, Nat.land_assoc]
  rfl

/-- It leaves no reserved bit set. -/
theorem reserved_used :
    value &&& batUsedBitsMask &&& batReservedBitsMask = 0 := by
  rw [Nat.land_assoc]
  exact Nat.and_zero value

/-- It keeps the offset. -/
theorem offsetOf_used (valueLt : value < 2 ^ 64) :
    Bat.offsetOf (value &&& batUsedBitsMask) = Bat.offsetOf value := by
  have kept : (value &&& batUsedBitsMask) / 2 ^ 20 = value / 2 ^ 20 := by
    rw [← Nat.shiftRight_eq_div_pow, ← Nat.shiftRight_eq_div_pow,
      Nat.shiftRight_and_distrib]
    have ones : batUsedBitsMask >>> 20 = 2 ^ 44 - 1 := by decide
    rw [ones, Nat.and_two_pow_sub_one_eq_mod, Nat.mod_eq_of_lt]
    rw [Nat.shiftRight_eq_div_pow]
    omega
  rw [Bat.offsetOf, kept, Bat.offsetOf]

/-- The value of an entry after the action for a finding about it. -/
def settledBy (value : Nat) : VhdxIntegrityAnomaly → Nat
  | .batEntryUnaligned _ _ => value &&& batUsedBitsMask
  | _ => 0

theorem settledBy_lt (valueLt : value < 2 ^ 64)
    (finding : VhdxIntegrityAnomaly) : settledBy value finding < 2 ^ 64 := by
  unfold settledBy
  split
  · exact Nat.lt_of_le_of_lt Nat.and_le_left valueLt
  · exact Nat.two_pow_pos 64

/-- Findings about an entry with this value that are repaired. -/
def valueRepairs (r : ParsedRegions) (zone : Option (Nat × Nat))
    (size i value : Nat) : Findings :=
  if BitmapSlot r i then []
  else if Bat.stateOf value = Bat.payloadBlockFullyPresent then
    placementFindings r zone i value (Bat.offsetOf value) ++
      if Bat.offsetOf value < size then []
      else [.batEntryBeyondContainer i (Bat.offsetOf value) size]
  else if Bat.stateOf value = 1 then [.undefinedBlockState i]
  else []

theorem entryRepairs_eq (data : Bytes) (r : ParsedRegions)
    (zone : Option (Nat × Nat)) (i : Nat) :
    entryRepairs data r zone i =
      valueRepairs r zone data.length i (entryAt data r i) := rfl

variable {r : ParsedRegions} {zone : Option (Nat × Nat)} {size i : Nat}

/-- A zero entry is in order. -/
theorem valueRepairs_zero : valueRepairs r zone size i 0 = [] := by
  unfold valueRepairs
  split
  · rfl
  · rfl

/-- A mapped block inside the container and off the structural zones. -/
theorem valueRepairs_of_placed
    (mapped : Bat.stateOf value = Bat.payloadBlockFullyPresent)
    (aligned : value &&& batReservedBitsMask = 0)
    (free : structuralZone r zone (Bat.offsetOf value) = none)
    (inside : Bat.offsetOf value < size) :
    valueRepairs r zone size i value = [] := by
  rw [valueRepairs, if_pos mapped, if_pos inside, placementFindings, free,
    if_neg (not_not_intro aligned)]
  exact ite_self []

/-- After the actions for its findings an entry is in order. -/
theorem valueRepairs_settled (valueLt : value < 2 ^ 64) :
    valueRepairs r zone size i
      ((valueRepairs r zone size i value).foldl settledBy value) = [] := by
  rw [valueRepairs.eq_1 r zone size i value]
  by_cases slot : BitmapSlot r i
  · rw [valueRepairs, if_pos slot]
  rw [if_neg slot]
  by_cases mapped : Bat.stateOf value = Bat.payloadBlockFullyPresent
  · rw [if_pos mapped]
    by_cases inside : Bat.offsetOf value < size
    · rw [if_pos inside, List.append_nil]
      cases collides : structuralZone r zone (Bat.offsetOf value) with
      | some name =>
          rw [placementFindings, collides, List.foldl_append]
          exact valueRepairs_zero
      | none =>
          by_cases unaligned : value &&& batReservedBitsMask ≠ 0
          · rw [placementFindings, collides, if_pos unaligned,
              List.append_nil, List.foldl_cons, List.foldl_nil, settledBy]
            exact valueRepairs_of_placed (stateOf_used.trans mapped)
              reserved_used (by rwa [offsetOf_used valueLt])
              (by rwa [offsetOf_used valueLt])
          · rw [placementFindings, collides, if_neg unaligned]
            exact valueRepairs_of_placed mapped (not_not.mp unaligned)
              collides inside
    · rw [if_neg inside, List.foldl_append]
      exact valueRepairs_zero
  · rw [if_neg mapped]
    by_cases undefined : Bat.stateOf value = 1
    · rw [if_pos undefined]
      exact valueRepairs_zero
    · rw [if_neg undefined, List.foldl_nil, valueRepairs, if_neg slot,
        if_neg mapped, if_neg undefined]

end Value

/-! ## The entries of the table -/

section Entries

variable {data : Bytes} {r : ParsedRegions} {i : Nat} {issues : Findings}

/-- The action for an entry writes inside the image. -/
theorem actionFits_of_entry {j : Nat} {finding : VhdxIntegrityAnomaly}
    (inside : r.batOffset + r.batLength ≤ data.length)
    (jLt : j < entryCountOf r) (named : finding.brokenEntry = some j) :
    ActionFits (some r.batOffset) data.length finding := by
  have there := entry_inside inside jLt
  cases finding <;> cases named <;> rintro off ⟨⟩ <;> exact there

/-- An action for an entry changes this entry only. -/
theorem entryAt_repairedBy {j : Nat} {finding : VhdxIntegrityAnomaly}
    (inside : r.batOffset + r.batLength ≤ data.length)
    (iLt : i < entryCountOf r) (jLt : j < entryCountOf r)
    (named : finding.brokenEntry = some j) :
    entryAt (repairedBy (some r.batOffset) data finding) r i =
      if j = i then settledBy (entryAt data r i) finding
      else entryAt data r i := by
  have here := entry_inside inside iLt
  have there := entry_inside inside jLt
  have written : repairedBy (some r.batOffset) data finding =
      overwrite data (r.batOffset + j * 8)
        (encodeLe 8 (settledBy (entryAt data r j) finding)) := by
    have zeros : List.replicate 8 (0 : UInt8) = encodeLe 8 0 := by decide
    cases finding <;> cases named <;>
      first | rfl | exact congrArg (overwrite data (r.batOffset + j * 8)) zeros
  have valueLt := settledBy_lt (entryAt_lt data r j) finding
  rw [written]
  by_cases same : j = i
  · rw [if_pos same, ← same]
    exact le_overwrite_encodeLe there valueLt
  · rw [if_neg same, entryAt, leU64, le_overwrite_of_disjoint]
    · rfl
    · rw [length_encodeLe]
      exact there
    · rw [length_encodeLe]
      omega

/-- The value of an entry after all actions. -/
theorem entryAt_repairedByAll
    (inside : r.batOffset + r.batLength ≤ data.length)
    (iLt : i < entryCountOf r)
    (named : ∀ issue ∈ issues, ∃ j < entryCountOf r,
      issue.brokenEntry = some j) :
    entryAt (repairedByAll (some r.batOffset) data issues) r i =
      (issues.filter fun issue => issue.brokenEntry = some i).foldl
        settledBy (entryAt data r i) := by
  induction issues generalizing data with
  | nil => rfl
  | cons issue issues inductionHypothesis =>
      obtain ⟨j, jLt, issueNamed⟩ := named issue List.mem_cons_self
      have lengthEq := length_repairedBy
        (actionFits_of_entry inside jLt issueNamed)
      have step := entryAt_repairedBy inside iLt jLt issueNamed
      have rest := @inductionHypothesis
        (repairedBy (some r.batOffset) data issue)
        (by rw [lengthEq]; exact inside)
        fun later member => named later (List.mem_cons_of_mem _ member)
      change entryAt (repairedByAll _ (repairedBy _ data issue) issues) r i = _
      rw [rest, step]
      by_cases same : j = i
      · rw [if_pos same, List.filter_cons_of_pos (by
          rw [issueNamed, same]
          exact decide_eq_true rfl), List.foldl_cons]
      · rw [if_neg same, List.filter_cons_of_neg (by
          rw [issueNamed]
          simpa using same)]

/-- A batch that one index of a range has. -/
theorem flatMap_range_single {α : Type} {count : Nat} (iLt : i < count)
    (batch : List α) :
    (List.range count).flatMap (fun j => if j = i then batch else []) =
      batch := by
  induction count with
  | zero => omega
  | succ count inductionHypothesis =>
      rw [List.range_succ, List.flatMap_append, List.flatMap_singleton]
      by_cases last : count = i
      · have others : ∀ j ∈ List.range count,
            (if j = i then batch else []) = [] := fun j member =>
          if_neg (by have := List.mem_range.mp member; omega)
        rw [List.flatMap_eq_nil_iff.mpr others, if_pos last, List.nil_append]
      · rw [inductionHypothesis (by omega), if_neg last, List.append_nil]

/-- The findings about one entry among those about all entries. -/
theorem filter_batRepairs (checked : TableChecked data r)
    (iLt : i < entryCountOf r) :
    (batRepairs data r).filter (fun issue => issue.brokenEntry = some i) =
      entryRepairs data r (logZoneOf data) i := by
  have own : ∀ j, (entryRepairs data r (logZoneOf data) j).filter
      (fun issue => issue.brokenEntry = some i) =
        if j = i then entryRepairs data r (logZoneOf data) i else [] := by
    intro j
    by_cases same : j = i
    · rw [if_pos same, same, List.filter_eq_self]
      intro finding member
      exact decide_eq_true (brokenEntry_of_mem_entryRepairs member)
    · rw [if_neg same, List.filter_eq_nil_iff]
      intro finding member
      rw [brokenEntry_of_mem_entryRepairs member]
      simpa using same
  rw [batRepairs, if_pos checked, List.filter_flatMap]
  simp only [own]
  exact flatMap_range_single iLt _

end Entries

/-! ## Repairs apart from what is read -/

/-- Ranges of the header copy and the region table that are restored. -/
def restoredPlaces (data : Bytes) : List (Nat × Nat) :=
  (headerRepairs data ++ tableRepairs data).filterMap (repairPlace none)

/-- What is written shares no byte with what else is read. -/
structure ApartIn (data : Bytes) (r : ParsedRegions) : Prop where
  /-- An entry that is repaired lies on nothing that another check reads. -/
  entries : TableChecked data r → ∀ i < entryCountOf r,
    entryRepairs data r (logZoneOf data) i ≠ [] →
      ∀ range ∈ fixedRanges ++ metadataRanges data r.metaOffset r.metaLength,
        ¬ Overlap (r.batOffset + i * 8, 8) range
  /-- A restored block lies neither on the table nor on what is read of the
  metadata. -/
  blocks : ∀ place ∈ restoredPlaces data,
    (TableChecked data r →
      ¬ Overlap place (r.batOffset, entryCountOf r * 8)) ∧
        ∀ range ∈ metadataRanges data r.metaOffset r.metaLength,
          ¬ Overlap place range

/-- The repairs of a readable image are apart from what is read. -/
def RepairsApart (data : Bytes) : Prop :=
  fileMagicFindings data = [] → ∀ r ∈ parsedRegions data, ApartIn data r

/-- No entry that is repaired shares a byte with the range. -/
def EntriesSpare (data : Bytes) (range : Nat × Nat) : Prop :=
  ∀ r ∈ parsedRegions data, TableChecked data r → ∀ i < entryCountOf r,
    entryRepairs data r (logZoneOf data) i ≠ [] →
      ¬ Overlap (r.batOffset + i * 8, 8) range

/-- Repairs apart from what is read spare it. -/
theorem RepairsApart.entriesSpare {data : Bytes} {range : Nat × Nat}
    (apart : RepairsApart data) (readable : fileMagicFindings data = [])
    (read : range ∈ fixedRanges ∨ ∃ r ∈ parsedRegions data,
      range ∈ metadataRanges data r.metaOffset r.metaLength) :
    EntriesSpare data range := by
  intro r parsed checked i iLt broken
  refine (apart readable r parsed).entries checked i iLt broken range ?_
  rcases read with fixed | ⟨r', parsed', inMetadata⟩
  · exact List.mem_append_left _ fixed
  · obtain rfl := Option.some.inj (parsed.symm.trans parsed')
    exact List.mem_append_right _ inMetadata

/-- Nothing is left to repair. -/
structure Settled (data : Bytes) : Prop where
  /-- The analysis reports nothing that would be repaired. -/
  analysed : ∀ orders, ∃ found, analyse orders data = .ok found ∧
    ∀ finding ∈ found, finding.repairable = false
  /-- A second repair does nothing. -/
  again : ∀ orders, ∃ report, attemptRepair orders data = .ok (report, data) ∧
    report.repaired = []

section Settled

variable {orders : SortOrders} {data : Bytes}

/-- The repaired image, by the repairable findings alone. -/
theorem repairedImage_eq :
    repairedImage orders data =
      repairedByAll (tableOffset data) data (runRepairs data) := by
  rw [repairedImage, ← repairedByAll_repairs, repairs_allFindings]

/-- Without repairable findings nothing is left to repair. -/
theorem settled_of_runRepairs_eq_nil (allocated : data.length ≤ isizeMax)
    (fits : AnalysisFits data)
    (located : ∀ r ∈ parsedRegions data, TableLocated r)
    (nothing : runRepairs data = []) : Settled data := by
  constructor
  · intro orders
    refine ⟨_, analyse_eq_ok allocated fits, fun finding member => ?_⟩
    have none := List.filter_eq_nil_iff.mp
      ((repairs_auditFindings orders).trans nothing) finding member
    exact Bool.eq_false_iff.mpr none
  · intro orders
    obtain ⟨report, returned, covers⟩ :=
      @attemptRepair_eq orders data allocated fits located
    rw [repairedImage_eq, nothing, repairedByAll_nil] at returned
    refine ⟨report, returned, ?_⟩
    have trail := covers.auditTrail.repaired
    have none : (allFindings orders data).filter
        VhdxIntegrityAnomaly.repairable = [] :=
      repairs_allFindings.trans nothing
    rw [none] at trail
    exact List.forall₂_nil_left_iff.mp trail

/-- A settled image has no repairable findings. -/
theorem Settled.runRepairs_eq_nil (allocated : data.length ≤ isizeMax)
    (settled : Settled data) : runRepairs data = [] := by
  obtain ⟨found, analysed, clean⟩ := settled.analysed stableOrders
  have fits := (settles_analyse_iff allocated).mp (.of_eq_ok analysed)
  rw [analyse_eq_ok allocated fits] at analysed
  obtain rfl := Except.ok.inj analysed
  rw [← repairs_auditFindings stableOrders]
  refine List.filter_eq_nil_iff.mpr fun finding member repaired => ?_
  rw [clean finding member] at repaired
  cases repaired

end Settled

/-! ### The places of the actions -/

section Places

variable {data : Bytes} {issue : VhdxIntegrityAnomaly}

/-- A header is repaired at its own place. -/
theorem place_of_mem_headerRepairs (member : issue ∈ headerRepairs data) :
    ∃ copy, (copy = 1 ∨ copy = 2) ∧ ∀ batOffset,
      repairPlace batOffset issue = some (headerOffset copy, headerSize) := by
  obtain ⟨copy, computed, stored, rfl, single⟩ := mem_headerRepairs member
  exact ⟨copy, single.1, fun _ => if_pos single.1⟩

/-- So is a region table. -/
theorem place_of_mem_tableRepairs (member : issue ∈ tableRepairs data) :
    ∃ copy, (copy = 1 ∨ copy = 2) ∧ ∀ batOffset,
      repairPlace batOffset issue =
        some (rtOffset copy, regionTableCrcCoverage) := by
  obtain ⟨copy, computed, stored, rfl, single⟩ := mem_tableRepairs member
  exact ⟨copy, single.1, fun _ => if_pos single.1⟩

/-- Restored copies lie where copies lie. -/
theorem mem_restoredPlaces {place : Nat × Nat} {batOffset : Option Nat}
    (member : issue ∈ headerRepairs data ∨ issue ∈ tableRepairs data)
    (found : repairPlace batOffset issue = some place) :
    place ∈ restoredPlaces data := by
  refine List.mem_filterMap.mpr ⟨issue, List.mem_append.mpr member, ?_⟩
  rcases member with header | table
  · obtain ⟨copy, -, places⟩ := place_of_mem_headerRepairs header
    rw [places, ← places batOffset, found]
  · obtain ⟨copy, -, places⟩ := place_of_mem_tableRepairs table
    rw [places, ← places batOffset, found]

/-- An entry is repaired at its own place. -/
theorem place_of_mem_batRepairs {r : ParsedRegions}
    (member : issue ∈ batRepairs data r) :
    TableChecked data r ∧ ∃ i < entryCountOf r,
      entryRepairs data r (logZoneOf data) i ≠ [] ∧
        repairPlace (some r.batOffset) issue =
          some (r.batOffset + i * 8, 8) := by
  obtain ⟨checked, i, iLt, found⟩ := mem_batRepairs member
  refine ⟨checked, i, iLt, List.ne_nil_of_mem found, ?_⟩
  have named := brokenEntry_of_mem_entryRepairs found
  cases issue <;> cases named <;> rfl

/-- Every action writes inside the image. -/
theorem actionFits_of_mem_runRepairs (member : issue ∈ runRepairs data) :
    ActionFits (tableOffset data) data.length issue := by
  obtain ⟨readable, place, repaired⟩ := exists_repairedAt member
  exact repaired.actionFits readable

/-- The fixed blocks do not overlap. -/
theorem fixedBlocks_apart :
    (∀ copy other, (copy = 1 ∨ copy = 2) → (other = 1 ∨ other = 2) →
      ¬ Overlap (headerOffset copy, headerSize)
        (rtOffset other, regionTableCrcCoverage)) ∧
    (∀ copy, (copy = 1 ∨ copy = 2) →
      ¬ Overlap (headerOffset copy, headerSize) (0, 8) ∧
        ¬ Overlap (rtOffset copy, regionTableCrcCoverage) (0, 8)) := by
  have numbers : headerOffset 1 = 0x10000 ∧ headerOffset 2 = 0x20000 ∧
      rtOffset 1 = 0x30000 ∧ rtOffset 2 = 0x40000 ∧ headerSize = 0x1000 ∧
      regionTableCrcCoverage = 0x10000 := by decide
  constructor
  · rintro copy other (rfl | rfl) (rfl | rfl) ⟨index, first, second⟩ <;>
      · unfold InRange at first second
        omega
  · rintro copy (rfl | rfl) <;> constructor <;>
      · rintro ⟨index, first, second⟩
        unfold InRange at first second
        omega

end Places

/-! ### The image after the repair -/

section Apart

variable {data : Bytes}

/-- The image with restored headers. -/
def withHeaders (data : Bytes) : Bytes :=
  repairedByAll (tableOffset data) data (headerRepairs data)

/-- The image with restored headers and region tables. -/
def withTables (data : Bytes) : Bytes :=
  repairedByAll (tableOffset data) (withHeaders data) (tableRepairs data)

/-- The image after all actions. -/
def withEntries (data : Bytes) : Bytes :=
  repairedByAll (tableOffset data) data (runRepairs data)

/-- Findings about the entries of the parsed table. -/
def entryIssues (data : Bytes) : Findings :=
  match parsedRegions data with
  | none => []
  | some r => batRepairs data r

/-- The repairs are made in this order. -/
theorem runRepairs_eq (readable : fileMagicFindings data = []) :
    runRepairs data =
      headerRepairs data ++ tableRepairs data ++ entryIssues data :=
  if_neg (not_not_intro readable)

/-- The entries are repaired last. -/
theorem withEntries_eq (readable : fileMagicFindings data = []) :
    withEntries data =
      repairedByAll (tableOffset data) (withTables data)
        (entryIssues data) := by
  rw [withEntries, runRepairs_eq readable, repairedByAll_append,
    repairedByAll_append]
  rfl

theorem issue_fits (readable : fileMagicFindings data = [])
    {issue : VhdxIntegrityAnomaly}
    (member : issue ∈ headerRepairs data ++ tableRepairs data ++
      entryIssues data) :
    ActionFits (tableOffset data) data.length issue :=
  actionFits_of_mem_runRepairs (by rwa [runRepairs_eq readable])

theorem length_withHeaders (readable : fileMagicFindings data = []) :
    (withHeaders data).length = data.length :=
  (repairedByAll_frame fun issue member => issue_fits readable (by
    simp [member])).1

theorem length_withTables (readable : fileMagicFindings data = []) :
    (withTables data).length = data.length := by
  have lengthEq := length_withHeaders readable
  rw [withTables, (repairedByAll_frame fun issue member => by
    rw [lengthEq]
    exact issue_fits readable (by simp [member])).1, lengthEq]

theorem length_withEntries : (withEntries data).length = data.length :=
  (repairedByAll_frame fun _ => actionFits_of_mem_runRepairs).1

/-- Every repaired entry is one of the table. -/
theorem place_of_mem_entryIssues {issue : VhdxIntegrityAnomaly}
    (member : issue ∈ entryIssues data) :
    ∃ r, parsedRegions data = some r ∧ TableChecked data r ∧
      ∃ i < entryCountOf r, entryRepairs data r (logZoneOf data) i ≠ [] ∧
        repairPlace (tableOffset data) issue =
          some (r.batOffset + i * 8, 8) := by
  unfold entryIssues at member
  split at member
  · cases member
  · rename_i r parsed
    obtain ⟨checked, i, iLt, broken, place⟩ := place_of_mem_batRepairs member
    refine ⟨r, parsed, checked, i, iLt, broken, ?_⟩
    rw [tableOffset, parsed]
    exact place

/-- The actions for entries keep what they spare. -/
theorem same_withEntries {range : Nat × Nat}
    (readable : fileMagicFindings data = [])
    (spared : EntriesSpare data range) :
    SameRange (withEntries data) (withTables data) range := by
  rw [withEntries_eq readable]
  refine window_repairedByAll (fun issue member => ?_)
    fun issue member place found => ?_
  · rw [length_withTables readable]
    exact issue_fits readable (by simp [member])
  · obtain ⟨r, parsed, checked, i, iLt, broken, placeEq⟩ :=
      place_of_mem_entryIssues member
    rw [placeEq] at found
    obtain rfl := Option.some.inj found
    exact spared r parsed checked i iLt broken

/-- The restored blocks keep a range that they do not overlap. -/
theorem same_withTables {range : Nat × Nat}
    (readable : fileMagicFindings data = [])
    (missed : ∀ place ∈ restoredPlaces data, ¬ Overlap place range) :
    SameRange (withTables data) data range := by
  have headers : SameRange (withHeaders data) data range :=
    window_repairedByAll
      (fun issue member => issue_fits readable (by simp [member]))
      fun issue member place found =>
        missed place (mem_restoredPlaces (Or.inl member) found)
  refine Eq.trans ?_ headers
  refine window_repairedByAll (fun issue member => ?_)
    fun issue member place found =>
      missed place (mem_restoredPlaces (Or.inr member) found)
  rw [length_withHeaders readable]
  exact issue_fits readable (by simp [member])

theorem mem_fixedRanges_header {copy : Nat} (known : copy = 1 ∨ copy = 2) :
    (headerOffset copy, headerSize) ∈ fixedRanges := by
  rcases known with rfl | rfl <;> decide

theorem mem_fixedRanges_table {copy : Nat} (known : copy = 1 ∨ copy = 2) :
    (rtOffset copy, regionTableCrcCoverage) ∈ fixedRanges := by
  rcases known with rfl | rfl <;> decide

/-- The headers of the repaired image are restored. -/
theorem restored_headers (readable : fileMagicFindings data = [])
    (spared : ∀ range ∈ fixedRanges, EntriesSpare data range) :
    headerCopies.Restored data (withEntries data) := by
  have inside := (fixedBlocks_inside readable).1
  have restored : headerCopies.Restored data (withHeaders data) :=
    BlockCopies.restored_repairedByAll headerCopies_restorable .refl inside
  refine restored.trans_same fun copy known => ?_
  refine (same_withEntries readable
    (spared _ (mem_fixedRanges_header known))).trans ?_
  refine window_repairedByAll (fun issue member => ?_)
    fun issue member place found overlap => ?_
  · rw [length_withHeaders readable]
    exact issue_fits readable (by simp [member])
  · obtain ⟨other, otherKnown, places⟩ := place_of_mem_tableRepairs member
    rw [places] at found
    obtain rfl := Option.some.inj found
    obtain ⟨index, inTable, inHeader⟩ := overlap
    exact fixedBlocks_apart.1 copy other known otherKnown
      ⟨index, inHeader, inTable⟩

/-- The region tables of the repaired image are restored. -/
theorem restored_tables (readable : fileMagicFindings data = [])
    (spared : ∀ range ∈ fixedRanges, EntriesSpare data range) :
    tableCopies.Restored data (withEntries data) := by
  have inside := (fixedBlocks_inside readable).2
  have sameCopies : tableCopies.SameCopies data (withHeaders data) := by
    refine ⟨length_withHeaders readable, fun copy known => ?_⟩
    refine window_repairedByAll
      (fun issue member => issue_fits readable (by simp [member]))
      fun issue member place found => ?_
    obtain ⟨other, otherKnown, places⟩ := place_of_mem_headerRepairs member
    rw [places] at found
    obtain rfl := Option.some.inj found
    exact fixedBlocks_apart.1 other copy otherKnown known
  have restored : tableCopies.Restored data (withTables data) :=
    BlockCopies.restored_repairedByAll tableCopies_restorable sameCopies inside
  exact restored.trans_same fun copy known => same_withEntries readable
    (spared _ (mem_fixedRanges_table known))

/-- The repaired image has the same magic. -/
theorem fileMagicFindings_withEntries
    (readable : fileMagicFindings data = [])
    (spared : ∀ range ∈ fixedRanges, EntriesSpare data range) :
    fileMagicFindings (withEntries data) = [] := by
  have magic : SameRange (withEntries data) data (0, 8) := by
    refine (same_withEntries readable (spared _ (by decide))).trans ?_
    refine same_withTables readable fun place member => ?_
    obtain ⟨issue, issueMember, found⟩ := List.mem_filterMap.mp member
    rcases List.mem_append.mp issueMember with header | table
    · obtain ⟨copy, known, places⟩ := place_of_mem_headerRepairs header
      obtain rfl := Option.some.inj ((places none).symm.trans found)
      exact (fixedBlocks_apart.2 copy known).1
    · obtain ⟨copy, known, places⟩ := place_of_mem_tableRepairs table
      obtain rfl := Option.some.inj ((places none).symm.trans found)
      exact (fixedBlocks_apart.2 copy known).2
  rw [fileMagicFindings, length_withEntries,
    show window (withEntries data) 0 8 = window data 0 8 from magic]
  exact readable

/-- The repaired image gives the same regions. -/
theorem parsedRegions_withEntries
    (readable : fileMagicFindings data = []) (apart : RepairsApart data) :
    parsedRegions (withEntries data) = parsedRegions data := by
  have spared := fun range fixed =>
    @RepairsApart.entriesSpare data range apart readable (Or.inl fixed)
  have parsed := parsedRegions_eq_map data
  rw [parsedRegions_eq_map, usedRanges_of_restored length_withEntries
    (fixedBlocks_inside readable).2 (restored_tables readable spared), parsed]
  cases used : usedRanges data with
  | none => rfl
  | some ranges =>
      rw [used, Option.map_some] at parsed
      rw [Option.map_some, Option.map_some, regionsAt, regionsAt]
      have items := @parsedItems_congr data (withEntries data) ranges.2.1
        ranges.2.2 length_withEntries.symm fun range member => by
          refine ((same_withEntries readable (apart.entriesSpare readable
            (Or.inr ⟨_, parsed, member⟩))).trans ?_).symm
          exact same_withTables readable fun place placeMember =>
            ((apart readable _ parsed).blocks place placeMember).2 range
              member
      rw [items]

/-- What overlaps an entry overlaps the table. -/
theorem Overlap.table_of_entry {r : ParsedRegions} {place : Nat × Nat}
    {i : Nat} (iLt : i < entryCountOf r)
    (overlap : Overlap place (r.batOffset + i * 8, 8)) :
    Overlap place (r.batOffset, entryCountOf r * 8) := by
  obtain ⟨index, inPlace, low, high⟩ := overlap
  dsimp only at low high
  exact ⟨index, inPlace, by dsimp only; omega, by dsimp only; omega⟩

/-- The value of an entry of the repaired image. -/
theorem entryAt_withEntries (readable : fileMagicFindings data = [])
    {r : ParsedRegions} (parsed : parsedRegions data = some r)
    (checked : TableChecked data r) {i : Nat} (iLt : i < entryCountOf r)
    (spared : ∀ place ∈ restoredPlaces data,
      ¬ Overlap place (r.batOffset + i * 8, 8)) :
    entryAt (withEntries data) r i =
      (entryRepairs data r (logZoneOf data) i).foldl settledBy
        (entryAt data r i) := by
  have located : tableOffset data = some r.batOffset := by
    rw [tableOffset, parsed]
    rfl
  have issues : entryIssues data = batRepairs data r := by
    rw [entryIssues, parsed]
  have tableLength := length_withTables readable
  have inside : r.batOffset + r.batLength ≤ (withTables data).length := by
    rw [tableLength]
    exact checked.1
  have kept : SameRange (withTables data) data (r.batOffset + i * 8, 8) :=
    same_withTables readable spared
  have value : entryAt (withTables data) r i = entryAt data r i :=
    le_congr (entry_inside inside iLt) (entry_inside checked.1 iLt) kept
  have named : ∀ issue ∈ batRepairs data r, ∃ j < entryCountOf r,
      issue.brokenEntry = some j := by
    intro issue issueMember
    obtain ⟨-, j, jLt, found⟩ := mem_batRepairs issueMember
    exact ⟨j, jLt, brokenEntry_of_mem_entryRepairs found⟩
  rw [withEntries_eq readable, located, issues,
    entryAt_repairedByAll inside iLt named, filter_batRepairs checked iLt,
    value]

/-- The table of the repaired image is in order. -/
theorem batRepairs_withEntries (readable : fileMagicFindings data = [])
    (apart : RepairsApart data) {r : ParsedRegions}
    (parsed : parsedRegions data = some r) :
    batRepairs (withEntries data) r = [] := by
  have spared := fun range fixed =>
    @RepairsApart.entriesSpare data range apart readable (Or.inl fixed)
  have zone : logZoneOf (withEntries data) = logZoneOf data := by
    rw [logZoneOf, activeHeader_of_restored length_withEntries
      (fixedBlocks_inside readable).1 (restored_headers readable spared),
      logZoneOf]
  unfold batRepairs
  split
  · rename_i outChecked
    have checked : TableChecked data r := by
      rwa [TableChecked, length_withEntries] at outChecked
    refine List.flatMap_eq_nil_iff.mpr fun i member => ?_
    have iLt := List.mem_range.mp member
    have settled := entryAt_withEntries readable parsed checked iLt
      fun place placeMember overlap =>
        ((apart readable r parsed).blocks place placeMember).1 checked
          (overlap.table_of_entry iLt)
    rw [zone, entryRepairs_eq, length_withEntries, settled, entryRepairs_eq]
    exact valueRepairs_settled (entryAt_lt data r i)
  · rfl

/-- An unreadable image is left as it is. -/
theorem withEntries_of_unreadable (unreadable : fileMagicFindings data ≠ []) :
    withEntries data = data ∧ runRepairs data = [] := by
  have nothing : runRepairs data = [] := if_pos unreadable
  exact ⟨by rw [withEntries, nothing, repairedByAll_nil], nothing⟩

/-- The repaired image has no repairable findings. -/
theorem runRepairs_withEntries (apart : RepairsApart data) :
    runRepairs (withEntries data) = [] := by
  by_cases readable : fileMagicFindings data = []
  case neg =>
    obtain ⟨unchanged, nothing⟩ := withEntries_of_unreadable readable
    rw [unchanged, nothing]
  obtain ⟨headers, tables⟩ := fixedBlocks_inside readable
  have spared := fun range fixed =>
    @RepairsApart.entriesSpare data range apart readable (Or.inl fixed)
  have headerNil : headerRepairs (withEntries data) = [] :=
    (restored_headers readable spared).singleFindings_eq_nil
      headerCopies_restorable length_withEntries headers
  have tableNil : tableRepairs (withEntries data) = [] :=
    (restored_tables readable spared).singleFindings_eq_nil
      tableCopies_restorable length_withEntries tables
  rw [runRepairs_eq (fileMagicFindings_withEntries readable spared), headerNil,
    tableNil, entryIssues, parsedRegions_withEntries readable apart]
  cases parsed : parsedRegions data with
  | none => rfl
  | some r => exact batRepairs_withEntries readable apart parsed

end Apart

end VhdxForensic
