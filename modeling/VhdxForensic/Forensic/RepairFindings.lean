import VhdxForensic.Forensic.Repair

/-!
# The findings that are repaired

Of all findings, the repairable ones are those about a single invalid copy of
a header or a region table and about broken entries of the table. They are
the same for every order of equal keys.
-/

namespace VhdxForensic

open Rust Rust.Bytes Rust.Exec

namespace VhdxIntegrityAnomaly

/-- The table entry that a repairable finding is about. -/
def brokenEntry : VhdxIntegrityAnomaly → Option Nat
  | batEntryBeyondContainer batIndex _ _
  | batEntryInStructuralRegion batIndex _ _
  | undefinedBlockState batIndex
  | batEntryUnaligned batIndex _ => some batIndex
  | _ => none

end VhdxIntegrityAnomaly

/-- The findings of a list that are repaired. -/
def repairs (findings : Findings) : Findings :=
  findings.filter VhdxIntegrityAnomaly.repairable

section Repairs

variable {findings more : Findings} {finding : VhdxIntegrityAnomaly}

@[simp] theorem repairs_nil : repairs [] = [] := rfl

@[simp] theorem repairs_cons :
    repairs (finding :: findings) =
      if finding.repairable then finding :: repairs findings
      else repairs findings := by
  rw [repairs, List.filter_cons]
  rfl

@[simp] theorem repairs_append :
    repairs (findings ++ more) = repairs findings ++ repairs more :=
  List.filter_append ..

@[simp] theorem repairs_ite {condition : Prop} [Decidable condition] :
    repairs (if condition then findings else more) =
      if condition then repairs findings else repairs more :=
  apply_ite ..

/-- Repairable findings are collected batch by batch. -/
theorem repairs_flatMap {α : Type} (items : List α) (batch : α → Findings) :
    repairs (items.flatMap batch) =
      items.flatMap fun item => repairs (batch item) := by
  induction items with
  | nil => rfl
  | cons item items inductionHypothesis =>
      rw [List.flatMap_cons, repairs_append, inductionHypothesis,
        List.flatMap_cons]

/-- Only three checks have findings that are repaired. -/
theorem FromCheck.repairs_eq {check : Check}
    (from_ : FromCheck check findings)
    (other : check ∉ [Check.headers, .tables, .bat]) :
    repairs findings = [] := by
  rw [repairs, List.filter_eq_nil_iff]
  intro finding member repaired
  have origin := from_ finding member
  have known := VhdxIntegrityAnomaly.origin_of_repairable repaired
  rw [origin] at known
  exact other (by simpa using known)

end Repairs

/-! ## What the checks report -/

open VhdxIntegrityAnomaly

variable {data : Bytes}

/-- Findings about a single invalid header copy. -/
def headerRepairs (data : Bytes) : Findings :=
  if (headerCrcFinding data 1).isSome ∧ (headerCrcFinding data 2).isSome then
    []
  else (headerCrcFinding data 1).toList ++ (headerCrcFinding data 2).toList

/-- Findings about a single invalid region table. -/
def tableRepairs (data : Bytes) : Findings :=
  if (rtCrcFinding data 1).isSome ∧ (rtCrcFinding data 2).isSome then []
  else (rtCrcFinding data 1).toList ++ (rtCrcFinding data 2).toList

/-- Findings about the entry at `i` that are repaired. -/
def entryRepairs (data : Bytes) (r : ParsedRegions)
    (zone : Option (Nat × Nat)) (i : Nat) : Findings :=
  if BitmapSlot r i then []
  else if Bat.stateOf (entryAt data r i) = Bat.payloadBlockFullyPresent then
    placementFindings r zone i (entryAt data r i) (blockStart data r i) ++
      if blockStart data r i < data.length then []
      else [.batEntryBeyondContainer i (blockStart data r i) data.length]
  else if Bat.stateOf (entryAt data r i) = 1 then [.undefinedBlockState i]
  else []

/-- Findings about the table that are repaired. -/
def batRepairs (data : Bytes) (r : ParsedRegions) : Findings :=
  if TableChecked data r then
    (List.range (entryCountOf r)).flatMap
      (entryRepairs data r (logZoneOf data))
  else []

/-- Repairable checksum findings are all kept. -/
theorem repairs_crcFinding {offset size : Nat} {signature : Bytes}
    {mismatch : (computed stored : Nat) → VhdxIntegrityAnomaly}
    (repaired : ∀ computed stored,
      (mismatch computed stored).repairable = true) :
    repairs (crcFinding data offset size signature mismatch).toList =
      (crcFinding data offset size signature mismatch).toList := by
  rw [repairs, List.filter_eq_self]
  intro finding member
  obtain ⟨computed, stored, rfl⟩ :=
    exists_of_crcFinding (Option.mem_toList.mp member)
  exact repaired computed stored

theorem repairs_headerPairFindings (h1 h2 : Bytes) :
    repairs (headerPairFindings h1 h2) = [] := by
  simp [headerPairFindings, repairable]

theorem repairs_copyReservedFindings (copy : Nat) :
    repairs (copyReservedFindings data copy) = [] := by
  simp [copyReservedFindings, headerReservedFindings, repairable]

theorem repairs_activeFindings : repairs (activeFindings data) = [] := by
  unfold activeFindings
  split
  · rfl
  · simp [activeHeaderFindings, logPointerFindings, repairable]

theorem repairs_headerCrcFinding (copy : Nat) :
    repairs (headerCrcFinding data copy).toList =
      (headerCrcFinding data copy).toList :=
  repairs_crcFinding fun _ _ => rfl

theorem repairs_rtCrcFinding (copy : Nat) :
    repairs (rtCrcFinding data copy).toList =
      (rtCrcFinding data copy).toList :=
  repairs_crcFinding fun _ _ => rfl

/-- Of the headers, only invalid copies are repaired. -/
theorem repairs_headerFindings :
    repairs (headerFindings data) = headerRepairs data := by
  rw [headerFindings, headerRepairs, repairs_ite]
  congr 1
  simp only [repairs_append, repairs_ite, repairs_headerCrcFinding,
    repairs_headerPairFindings, repairs_copyReservedFindings,
    repairs_activeFindings, repairs_nil, ite_self, List.append_nil]

/-- Of the region tables, only invalid copies are repaired. -/
theorem repairs_regionTableFindings :
    repairs (regionTableFindings data) = tableRepairs data := by
  have pairs : ∀ index, repairs (pairFindings data index) = [] := by
    intro index
    unfold pairFindings entryPairFindings
    split
    · rfl
    · split
      · rfl
      · simp [rangeFindings, repairable]
  rw [regionTableFindings, tableRepairs, repairs_ite]
  congr 1
  by_cases valid : (rtCrcFinding data 1).isNone ∧ (rtCrcFinding data 2).isNone
  · rw [if_pos valid, Option.isNone_iff_eq_none.mp valid.1,
      Option.isNone_iff_eq_none.mp valid.2, regionTablePairFindings,
      repairs_flatMap]
    exact List.flatMap_eq_nil_iff.mpr fun index _ => pairs index
  · rw [if_neg valid, repairs_append, repairs_rtCrcFinding,
      repairs_rtCrcFinding]

/-- Of the states, only the undefined one is repaired. -/
theorem repairs_stateFindings (hasParent : Bool) (i state : Nat) :
    repairs (stateFindings hasParent i state) =
      if state = 1 then [.undefinedBlockState i] else [] := by
  rw [stateFindings]
  by_cases undefined : state = 1
  · rw [undefined]
    rfl
  · rw [if_neg undefined, if_neg undefined]
    simp [repairable]

/-- Every finding about the place of a block is repaired. -/
theorem repairs_placementFindings (r : ParsedRegions)
    (zone : Option (Nat × Nat)) (i raw fileOffset : Nat) :
    repairs (placementFindings r zone i raw fileOffset) =
      placementFindings r zone i raw fileOffset := by
  rw [repairs, List.filter_eq_self]
  intro finding member
  rcases List.mem_append.mp member with unaligned | structural
  · simp only [List.mem_ite_nil_right, List.mem_singleton] at unaligned
    rw [unaligned.2]
    rfl
  · split at structural
    · rw [List.mem_singleton.mp structural]
      rfl
    · cases structural

/-- Missing bitmaps are not repaired. -/
theorem repairs_missingFindings (r : ParsedRegions) (i : Nat) :
    repairs (missingFindings data r i) = [] := by
  unfold missingFindings
  split
  · rfl
  · simp [repairable]

/-- What is repaired of one entry. -/
theorem repairs_entryFindings (r : ParsedRegions)
    (zone : Option (Nat × Nat)) (i : Nat) :
    repairs (entryFindings data r zone i) = entryRepairs data r zone i := by
  rw [entryFindings, entryRepairs]
  by_cases slot : BitmapSlot r i
  · simp [slot, repairable]
  rw [if_neg slot, if_neg slot, repairs_ite, blockFindings, repairs_append,
    repairs_ite, repairs_placementFindings, repairs_missingFindings,
    repairs_stateFindings]
  rfl

/-- What is repaired of a table. -/
theorem repairs_batFindings (sorting : UnstableSort (Nat × Nat) Prod.fst)
    (r : ParsedRegions) :
    repairs (batFindings sorting data r) = batRepairs data r := by
  have size : repairs (sizeFindings r (entryCountOf r)) = [] := by
    unfold sizeFindings
    split
    · simp [repairable]
    · rfl
  have overlap : ∀ w, repairs (overlapOf w) = [] := by
    intro w
    simp [overlapOf, repairable]
  have beyondTable : ∀ bs declaredVds,
      repairs (overFindings bs declaredVds (entryCountOf r) r.chunkRatio) =
        [] := by
    intro bs declaredVds
    unfold overFindings
    split
    · rfl
    · simp [repairable]
  have coverage : ∀ present, repairs
      (coverageFindings r present (entryCountOf r)) = [] := by
    intro present
    unfold coverageFindings underFindings
    split
    · simp [beyondTable, repairable]
    · rfl
  rw [batFindings, batRepairs]
  dsimp only
  rw [repairs_ite, repairs_append, repairs_append, repairs_append, size,
    coverage, scanFindings, overlapFindings, repairs_flatMap,
    repairs_flatMap, List.flatMap_eq_nil_iff.mpr fun w _ => overlap w]
  simp only [repairs_entryFindings, List.nil_append, List.append_nil,
    repairs_nil]

/-! ## The findings of a run -/

/-- The findings of a run that are repaired, in the order of the run. -/
def runRepairs (data : Bytes) : Findings :=
  if fileMagicFindings data ≠ [] then []
  else
    headerRepairs data ++ tableRepairs data ++
      match parsedRegions data with
      | none => []
      | some r => batRepairs data r

/-- What is repaired in front of the regions. -/
theorem repairs_frontFindings :
    repairs (frontFindings data) = headerRepairs data ++ tableRepairs data := by
  rw [frontFindings, repairs_append, repairs_append, repairs_append,
    (fromCheck_identifierFindings data).repairs_eq (by decide),
    (fromCheck_interRegionFindings data).repairs_eq (by decide),
    repairs_headerFindings, repairs_regionTableFindings]
  rfl

/-- Behind them, only the table is repaired. -/
theorem repairs_regionFindings (orders : SortOrders)
    (regions : Option ParsedRegions) :
    repairs (regionFindings orders data regions) =
      match regions with
      | none => []
      | some r => batRepairs data r := by
  cases regions with
  | none => rfl
  | some r =>
      have tail : repairs (tailFindings data r) = [] := by
        unfold tailFindings
        split
        · rfl
        · rw [repairs_ite, (fromCheck_trailingFindings data r _).repairs_eq
            (by decide), repairs_nil, ite_self]
      rw [regionFindings, repairs_append, repairs_append, tail,
        (fromCheck_metadataFindings data orders.items r).repairs_eq
          (by decide), repairs_batFindings, List.nil_append, List.append_nil]

/-- Which findings are repaired does not depend on the order of equal
keys. -/
theorem repairs_auditFindings (orders : SortOrders) :
    repairs (auditFindings orders data) = runRepairs data := by
  rw [auditFindings, runRepairs, repairs_ite,
    (fromCheck_fileMagicFindings data).repairs_eq (by decide)]
  congr 1
  by_cases both : .bothRegionTableCopiesInvalid ∈ frontFindings data
  · obtain ⟨invalid1, invalid2⟩ := bothTablesInvalid_iff.mp both
    rw [if_pos both, repairs_frontFindings,
      parsedRegions_eq_none invalid1 invalid2, List.append_nil]
  · rw [if_neg both, deepFindings, repairs_append, repairs_append,
      repairs_append, repairs_frontFindings, repairs_ite,
      (fromCheck_layoutFindings data).repairs_eq (by decide),
      (fromCheck_logFindings data).repairs_eq (by decide),
      repairs_regionFindings, repairs_nil, ite_self, List.append_nil,
      List.append_nil]

/-- Data of absent blocks is not repaired. -/
theorem repairs_ghostFindings : repairs (ghostFindings data) = [] :=
  (fromCheck_ghostFindings data).repairs_eq (by decide)

/-! ## Where the repairs are made -/

/-- Where the table starts that is repaired. -/
def tableOffset (data : Bytes) : Option Nat :=
  (parsedRegions data).map ParsedRegions.batOffset

/-- Findings about one of two blocks, if only one is invalid. -/
theorem mem_single_iff {first second : Option VhdxIntegrityAnomaly}
    {finding : VhdxIntegrityAnomaly} :
    finding ∈ (if first.isSome ∧ second.isSome then []
      else first.toList ++ second.toList) ↔
      first = some finding ∧ second = none ∨
        second = some finding ∧ first = none := by
  cases first <;> cases second <;> simp [eq_comm]

/-- The finding is the only one about the copies of a block. -/
def SingleFinding (copies : Nat → Option VhdxIntegrityAnomaly)
    (copy : Nat) (finding : VhdxIntegrityAnomaly) : Prop :=
  (copy = 1 ∨ copy = 2) ∧ copies copy = some finding ∧ copies (3 - copy) = none

/-- A header copy is repaired if it is the only invalid one. -/
theorem mem_headerRepairs {finding : VhdxIntegrityAnomaly}
    (member : finding ∈ headerRepairs data) :
    ∃ copy computed stored,
      finding = .headerChecksumMismatch copy computed stored ∧
        SingleFinding (headerCrcFinding data) copy finding := by
  rcases mem_single_iff.mp member with ⟨found, peer⟩ | ⟨found, peer⟩
  · obtain ⟨computed, stored, rfl⟩ := exists_of_crcFinding found
    exact ⟨1, computed, stored, rfl, Or.inl rfl, found, peer⟩
  · obtain ⟨computed, stored, rfl⟩ := exists_of_crcFinding found
    exact ⟨2, computed, stored, rfl, Or.inr rfl, found, peer⟩

/-- A region table is repaired if it is the only invalid one. -/
theorem mem_tableRepairs {finding : VhdxIntegrityAnomaly}
    (member : finding ∈ tableRepairs data) :
    ∃ copy computed stored,
      finding = .regionTableChecksumMismatch copy computed stored ∧
        SingleFinding (rtCrcFinding data) copy finding := by
  rcases mem_single_iff.mp member with ⟨found, peer⟩ | ⟨found, peer⟩
  · obtain ⟨computed, stored, rfl⟩ := exists_of_crcFinding found
    exact ⟨1, computed, stored, rfl, Or.inl rfl, found, peer⟩
  · obtain ⟨computed, stored, rfl⟩ := exists_of_crcFinding found
    exact ⟨2, computed, stored, rfl, Or.inr rfl, found, peer⟩

/-- Findings about an entry name it. -/
theorem brokenEntry_of_mem_entryRepairs {r : ParsedRegions}
    {zone : Option (Nat × Nat)} {i : Nat} {finding : VhdxIntegrityAnomaly}
    (member : finding ∈ entryRepairs data r zone i) :
    finding.brokenEntry = some i := by
  unfold entryRepairs placementFindings at member
  split at member
  · cases member
  split at member
  · rcases List.mem_append.mp member with placed | beyond
    · rcases List.mem_append.mp placed with unaligned | structural
      · rw [(List.mem_ite_nil_right.mp unaligned).2 |> List.mem_singleton.mp]
        rfl
      · split at structural
        · rw [List.mem_singleton.mp structural]
          rfl
        · cases structural
    · split at beyond
      · cases beyond
      · rw [List.mem_singleton.mp beyond]
        rfl
  · split at member
    · rw [List.mem_singleton.mp member]
      rfl
    · cases member

/-- A table is only repaired if it lies in the image. -/
theorem mem_batRepairs {r : ParsedRegions} {finding : VhdxIntegrityAnomaly}
    (member : finding ∈ batRepairs data r) :
    TableChecked data r ∧ ∃ i < entryCountOf r,
      finding ∈ entryRepairs data r (logZoneOf data) i := by
  unfold batRepairs at member
  split at member
  · rename_i checked
    obtain ⟨i, iLt, found⟩ := List.mem_flatMap.mp member
    exact ⟨checked, i, List.mem_range.mp iLt, found⟩
  · cases member

/-- The place of the action that repairs a finding. -/
inductive RepairedAt (data : Bytes) :
    VhdxIntegrityAnomaly → Nat × Nat → Prop
  | header {copy computed stored : Nat}
      (single : SingleFinding (headerCrcFinding data) copy
        (.headerChecksumMismatch copy computed stored)) :
      RepairedAt data (.headerChecksumMismatch copy computed stored)
        (headerOffset copy, headerSize)
  | table {copy computed stored : Nat}
      (single : SingleFinding (rtCrcFinding data) copy
        (.regionTableChecksumMismatch copy computed stored)) :
      RepairedAt data (.regionTableChecksumMismatch copy computed stored)
        (rtOffset copy, regionTableCrcCoverage)
  | entry {finding : VhdxIntegrityAnomaly} {r : ParsedRegions} {i : Nat}
      (parsed : parsedRegions data = some r) (checked : TableChecked data r)
      (iLt : i < entryCountOf r) (named : finding.brokenEntry = some i) :
      RepairedAt data finding (r.batOffset + i * 8, 8)

/-- Repaired findings have a place. -/
theorem exists_repairedAt {finding : VhdxIntegrityAnomaly}
    (member : finding ∈ runRepairs data) :
    fileMagicFindings data = [] ∧
      ∃ place, RepairedAt data finding place := by
  unfold runRepairs at member
  split at member
  · cases member
  rename_i readable
  refine ⟨not_not.mp readable, ?_⟩
  rcases List.mem_append.mp member with fixed | entries
  · rcases List.mem_append.mp fixed with header | table
    · obtain ⟨copy, computed, stored, rfl, single⟩ := mem_headerRepairs header
      exact ⟨_, .header single⟩
    · obtain ⟨copy, computed, stored, rfl, single⟩ := mem_tableRepairs table
      exact ⟨_, .table single⟩
  · split at entries
    · cases entries
    · rename_i r parsed
      obtain ⟨checked, i, iLt, found⟩ := mem_batRepairs entries
      exact ⟨_, .entry parsed checked iLt
        (brokenEntry_of_mem_entryRepairs found)⟩

/-- The action for a finding is made at its place. -/
theorem RepairedAt.repairPlace_eq {finding : VhdxIntegrityAnomaly}
    {place : Nat × Nat} (repaired : RepairedAt data finding place) :
    repairPlace (tableOffset data) finding = some place := by
  cases repaired with
  | header single => exact if_pos single.1
  | table single => exact if_pos single.1
  | entry parsed checked iLt named =>
      rw [tableOffset, parsed]
      cases finding <;> cases named <;> rfl

/-- An image that passes the first check holds all fixed blocks. -/
theorem fixedBlocks_inside (readable : fileMagicFindings data = []) :
    header2Offset + headerSize ≤ data.length ∧
      regionTable2Offset + regionTableCrcCoverage ≤ data.length := by
  have large : header2Offset + headerSize ≤ analyserMinContainerSize ∧
      regionTable2Offset + regionTableCrcCoverage ≤
        analyserMinContainerSize := by decide
  unfold fileMagicFindings at readable
  split at readable
  · cases readable
  · omega

/-- The action for a repaired finding stays inside the image. -/
theorem RepairedAt.actionFits {finding : VhdxIntegrityAnomaly}
    {place : Nat × Nat} (repaired : RepairedAt data finding place)
    (readable : fileMagicFindings data = []) :
    ActionFits (tableOffset data) data.length finding := by
  obtain ⟨headers, tables⟩ := fixedBlocks_inside readable
  cases repaired with
  | header single => exact headers
  | table single => exact tables
  | entry parsed checked iLt named =>
      have inside := entry_inside checked.1 iLt
      rw [tableOffset, parsed]
      cases finding <;> cases named <;> rintro off ⟨⟩ <;> exact inside

/-- Findings that are not repaired have no place. -/
theorem repairPlace_eq_none {batOffset : Option Nat}
    {finding : VhdxIntegrityAnomaly} (kept : finding.repairable = false) :
    repairPlace batOffset finding = none ∧
      ∀ size, ActionFits batOffset size finding := by
  cases finding <;> first | exact ⟨rfl, fun _ => trivial⟩ | cases kept

end VhdxForensic
