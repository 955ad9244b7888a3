import VhdxForensic.Forensic.Origins

/-!
# The whole analysis

All checks run one after the other. A critical finding about the container
ends the analysis, and so do two invalid region tables; the log is walked if
the header asks for its replay.
-/

namespace VhdxForensic

open Rust Rust.Bytes Rust.Exec

/-- How the two unstable sorts of the analyser order equal keys. -/
structure SortOrders where
  /-- Order of metadata items with equal offsets. -/
  items : UnstableSort (Nat × Nat) Prod.fst
  /-- Order of blocks with equal offsets. -/
  blocks : UnstableSort (Nat × Nat) Prod.fst

/-- Both sorts keep the order of equal keys. -/
def stableOrders : SortOrders where
  items := .stable Prod.fst
  blocks := .stable Prod.fst

def VhdxIntegrityAnomaly.isDirtyLog : VhdxIntegrityAnomaly → Bool
  | dirtyLog .. => true
  | _ => false

/-- Run all checks. -/
def analyse (orders : SortOrders) (data : Bytes) : Audit Findings := do
  let magic ← checkFileMagic data
  if magic.any (fun a => a.severity = .critical) then return magic
  else
    let reserved ← checkFileIdentifierReserved data
    let gaps ← checkInterRegionGaps data
    let headers ← checkHeaders data
    let tables ← checkRegionTables data
    let issues := magic ++ reserved ++ gaps ++ headers ++ tables
    if issues.any (fun a => a = .bothRegionTableCopiesInvalid) then
      return issues
    else
      let layout ← checkRegionLayout data
      let issues := issues ++ layout
      let log ←
        if issues.any VhdxIntegrityAnomaly.isDirtyLog then checkLog data
        else pure []
      let regions ← attempt (parseRegions data)
      let metadata ←
        checkMetadataInner orders.items data regions.toOption
      let bat ← checkBatInner orders.blocks data regions.toOption
      let trailing ← checkTrailingDataInner data regions.toOption
      return issues ++ log ++ metadata ++ bat ++ trailing

/-! ## What the analysis computes -/

/-- Findings about the blocks in front of the regions. -/
def frontFindings (data : Bytes) : Findings :=
  identifierFindings data ++ interRegionFindings data ++
    headerFindings data ++ regionTableFindings data

/-- Findings about data behind the disk. -/
def tailFindings (data : Bytes) (r : ParsedRegions) : Findings :=
  match r.blockSize with
  | none => []
  | some blockSize =>
      if 0 < blockSize then trailingFindings data r blockSize else []

/-- Findings about the parsed regions. -/
def regionFindings (orders : SortOrders) (data : Bytes) :
    Option ParsedRegions → Findings
  | none => []
  | some r =>
      metadataFindings orders.items data r ++
        batFindings orders.blocks data r ++ tailFindings data r

/-- The log is walked. -/
def LogWalked (data : Bytes) : Prop :=
  (frontFindings data ++ layoutFindings data).any
    VhdxIntegrityAnomaly.isDirtyLog = true

instance (data : Bytes) : Decidable (LogWalked data) :=
  inferInstanceAs (Decidable (_ = true))

/-- The findings when both the container and a region table are readable. -/
def deepFindings (orders : SortOrders) (data : Bytes) : Findings :=
  frontFindings data ++ layoutFindings data ++
    (if LogWalked data then logFindings data else []) ++
    regionFindings orders data (parsedRegions data)

/-- All findings of the analysis. -/
def auditFindings (orders : SortOrders) (data : Bytes) : Findings :=
  if fileMagicFindings data ≠ [] then fileMagicFindings data
  else if .bothRegionTableCopiesInvalid ∈ frontFindings data then
    frontFindings data
  else deepFindings orders data

section Analysis

variable {orders : SortOrders} {data : Bytes}

/-- Whatever is wrong with the container is critical. -/
theorem magic_critical_iff :
    (fileMagicFindings data).any (fun a => a.severity = .critical) = true ↔
      fileMagicFindings data ≠ [] := by
  unfold fileMagicFindings
  split
  · simp [VhdxIntegrityAnomaly.severity]
  · split <;> simp [VhdxIntegrityAnomaly.severity]

theorem checkTrailingDataInner_eq_ok (allocated : data.length ≤ isizeMax)
    {r : ParsedRegions} (located : TableLocated r) :
    checkTrailingDataInner data (some r) = .ok (tailFindings data r) := by
  cases sized : r.blockSize with
  | none =>
      rw [checkTrailingDataInner, tailFindings]
      simp only [sized]
      rfl
  | some blockSize =>
      rw [tailFindings]
      simp only [sized]
      by_cases positive : 0 < blockSize
      · rw [if_pos positive]
        exact checkTrailingDataInner_eq allocated sized positive
          (located blockSize sized positive)
      · rw [if_neg positive, checkTrailingDataInner]
        simp only [sized]
        exact if_neg positive

/-- The checks of the regions compute with numbers in range. -/
def RegionArithmeticFits (data : Bytes) (r : ParsedRegions) : Prop :=
  (TableChecked data r → TableArithmeticFits r) ∧ TableLocated r

/-- The checks of the regions one after the other. -/
def checkRegions (orders : SortOrders) (data : Bytes)
    (regions : Option ParsedRegions) : Audit Findings := do
  let metadata ← checkMetadataInner orders.items data regions
  let bat ← checkBatInner orders.blocks data regions
  let trailing ← checkTrailingDataInner data regions
  return metadata ++ bat ++ trailing

theorem checkRegions_eq (allocated : data.length ≤ isizeMax)
    {regions : Option ParsedRegions} (sound : ∀ r ∈ regions, r.Sound)
    (fits : ∀ r ∈ regions, RegionArithmeticFits data r) :
    checkRegions orders data regions =
      .ok (regionFindings orders data regions) := by
  cases regions with
  | none => rfl
  | some r =>
      obtain ⟨tableFits, located⟩ := fits r rfl
      rw [checkRegions, checkMetadataInner_eq allocated, ok_bind,
        checkBatInner_eq allocated (sound r rfl) tableFits, ok_bind,
        checkTrailingDataInner_eq_ok allocated located]
      rfl

theorem settles_checkRegions_iff (allocated : data.length ≤ isizeMax)
    {regions : Option ParsedRegions} (sound : ∀ r ∈ regions, r.Sound) :
    Settles (checkRegions orders data regions) ↔
      ∀ r ∈ regions, RegionArithmeticFits data r := by
  constructor
  · intro settles r parsed
    obtain rfl := Option.mem_def.mp parsed
    rw [checkRegions, checkMetadataInner_eq allocated, ok_bind] at settles
    have tableFits := (settles_checkBatInner_iff allocated
      (sound r rfl)).mp settles.of_bind
    rw [checkBatInner_eq allocated (sound r rfl) tableFits, ok_bind]
      at settles
    exact ⟨tableFits, (settles_checkTrailingDataInner_iff allocated
      (sound r rfl)).mp settles.of_bind⟩
  · intro fits
    exact .of_eq_ok (checkRegions_eq allocated sound fits)

/-- The analysis up to the regions. -/
theorem analyse_eq (allocated : data.length ≤ isizeMax) :
    analyse orders data =
      if fileMagicFindings data ≠ [] then .ok (fileMagicFindings data)
      else if .bothRegionTableCopiesInvalid ∈ frontFindings data then
        .ok (frontFindings data)
      else do
        let rest ← checkRegions orders data (parsedRegions data)
        return frontFindings data ++ layoutFindings data ++
          (if LogWalked data then logFindings data else []) ++ rest := by
  have toOption : (attempt (parseRegions data) : Audit _) =
      .ok (match parsedRegions data with
        | some r => .ok r
        | none => .error ()) := by
    rw [parseRegions_eq allocated]
    cases parsedRegions data <;> rfl
  have asOption : (match parsedRegions data with
      | some r => Except.ok r
      | none => Except.error ()).toOption = parsedRegions data := by
    cases parsedRegions data <;> rfl
  rw [analyse, checkFileMagic_eq, ok_bind]
  by_cases unreadable : fileMagicFindings data ≠ []
  · rw [if_pos (magic_critical_iff.mpr unreadable), if_pos unreadable]
    rfl
  have nothing : fileMagicFindings data = [] := not_not.mp unreadable
  have notCritical : ¬ (fileMagicFindings data).any
      (fun a => a.severity = .critical) = true :=
    fun critical => unreadable (magic_critical_iff.mp critical)
  rw [if_neg notCritical, if_neg unreadable,
    checkFileIdentifierReserved_eq, ok_bind, checkInterRegionGaps_eq, ok_bind,
    checkHeaders_eq, ok_bind, checkRegionTables_eq, ok_bind, nothing,
    List.nil_append, ← frontFindings]
  have bothIff : (frontFindings data).any
      (fun a => a = .bothRegionTableCopiesInvalid) = true ↔
        .bothRegionTableCopiesInvalid ∈ frontFindings data := by
    simp
  by_cases both : .bothRegionTableCopiesInvalid ∈ frontFindings data
  · rw [if_pos both]
    exact if_pos (bothIff.mpr both)
  rw [if_neg both]
  dsimp only
  rw [if_neg fun found => both (bothIff.mp found), checkRegionLayout_eq,
    ok_bind, toOption]
  by_cases walked : LogWalked data
  · rw [if_pos (show _ = true from walked), if_pos walked,
      checkLog_eq allocated, ok_bind, ok_bind, asOption]
    simp only [checkRegions, bind_assoc, pure_bind, List.append_assoc]
  · rw [if_neg (show ¬ _ = true from walked), if_neg walked, pure_bind,
      ok_bind, asOption]
    simp only [checkRegions, bind_assoc, pure_bind, List.append_assoc]

/-- The findings in front of the regions are those of four checks. -/
theorem origin_of_mem_frontFindings {finding : VhdxIntegrityAnomaly}
    (member : finding ∈ frontFindings data) :
    finding.origin = some .identifier ∧ finding ∈ identifierFindings data ∨
      finding.origin = some .gaps ∧ finding ∈ interRegionFindings data ∨
      finding.origin = some .headers ∧ finding ∈ headerFindings data ∨
      finding.origin = some .tables ∧ finding ∈ regionTableFindings data := by
  simp only [frontFindings, List.mem_append] at member
  rcases member with ((identifier | gap) | header) | table
  · exact Or.inl ⟨fromCheck_identifierFindings data _ identifier, identifier⟩
  · exact Or.inr (Or.inl ⟨fromCheck_interRegionFindings data _ gap, gap⟩)
  · exact Or.inr (Or.inr (Or.inl
      ⟨fromCheck_headerFindings data _ header, header⟩))
  · exact Or.inr (Or.inr (Or.inr
      ⟨fromCheck_regionTableFindings data _ table, table⟩))

/-- The analysis stops early exactly if no region table is valid. -/
theorem bothTablesInvalid_iff :
    .bothRegionTableCopiesInvalid ∈ frontFindings data ↔
      ¬ RegionTableValid data regionTable1Offset ∧
        ¬ RegionTableValid data regionTable2Offset := by
  have invalid : ∀ copy, (rtCrcFinding data copy).isSome ↔
      ¬ RegionTableValid data (rtOffset copy) := by
    intro copy
    rw [← rtCrcFinding_eq_none_iff, Option.isSome_iff_ne_none]
  have fromTables : .bothRegionTableCopiesInvalid ∈ frontFindings data ↔
      .bothRegionTableCopiesInvalid ∈ regionTableFindings data := by
    constructor
    · intro member
      rcases origin_of_mem_frontFindings member with
        ⟨origin, -⟩ | ⟨origin, -⟩ | ⟨origin, -⟩ | ⟨-, reported⟩
      · cases origin
      · cases origin
      · cases origin
      · exact reported
    · intro reported
      exact List.mem_append_right _ reported
  rw [fromTables, regionTableFindings]
  by_cases both : (rtCrcFinding data 1).isSome ∧ (rtCrcFinding data 2).isSome
  · rw [if_pos both]
    exact iff_of_true List.mem_cons_self
      ⟨(invalid 1).mp both.1, (invalid 2).mp both.2⟩
  · rw [if_neg both]
    refine iff_of_false (fun member => ?_) fun none =>
      both ⟨(invalid 1).mpr none.1, (invalid 2).mpr none.2⟩
    split at member
    · obtain ⟨index, -, inPair⟩ := List.mem_flatMap.mp member
      unfold pairFindings entryPairFindings rangeFindings at inPair
      split at inPair
      · cases inPair
      · split at inPair
        · cases inPair
        · simp at inPair
    · rcases List.mem_append.mp member with first | second
      · obtain ⟨computed, stored, impossible⟩ :=
          exists_of_crcFinding (Option.mem_toList.mp first)
        cases impossible
      · obtain ⟨computed, stored, impossible⟩ :=
          exists_of_crcFinding (Option.mem_toList.mp second)
        cases impossible

/-- Without a valid region table there are no parsed regions. -/
theorem parsedRegions_eq_none
    (invalid1 : ¬ RegionTableValid data regionTable1Offset)
    (invalid2 : ¬ RegionTableValid data regionTable2Offset) :
    parsedRegions data = none := by
  rw [parsedRegions, tableAnalysis, if_neg invalid1, tableAnalysis,
    if_neg invalid2]
  rfl

/-- The analysis computes with numbers in range. -/
def AnalysisFits (data : Bytes) : Prop :=
  fileMagicFindings data = [] →
    ∀ r ∈ parsedRegions data, RegionArithmeticFits data r

theorem analyse_eq_ok (allocated : data.length ≤ isizeMax)
    (fits : AnalysisFits data) :
    analyse orders data = .ok (auditFindings orders data) := by
  rw [analyse_eq allocated, auditFindings]
  by_cases unreadable : fileMagicFindings data ≠ []
  · rw [if_pos unreadable, if_pos unreadable]
  rw [if_neg unreadable, if_neg unreadable]
  by_cases both : .bothRegionTableCopiesInvalid ∈ frontFindings data
  · rw [if_pos both, if_pos both]
  · rw [if_neg both, if_neg both, checkRegions_eq allocated
      (fun r parsed => parsedRegions_sound parsed)
      (fits (not_not.mp unreadable)), ok_bind]
    rfl

/-- The analysis runs to its end exactly if its numbers stay in range. -/
theorem settles_analyse_iff (allocated : data.length ≤ isizeMax) :
    Settles (analyse orders data) ↔ AnalysisFits data := by
  constructor
  · intro settles magic r parsed
    rw [analyse_eq allocated, if_neg (not_not_intro magic)] at settles
    by_cases both : .bothRegionTableCopiesInvalid ∈ frontFindings data
    · obtain ⟨invalid1, invalid2⟩ := bothTablesInvalid_iff.mp both
      rw [parsedRegions_eq_none invalid1 invalid2] at parsed
      cases parsed
    · rw [if_neg both] at settles
      exact (settles_checkRegions_iff allocated
        fun r parsed => parsedRegions_sound parsed).mp settles.of_bind r parsed
  · intro fits
    exact .of_eq_ok (analyse_eq_ok allocated fits)

end Analysis

end VhdxForensic
