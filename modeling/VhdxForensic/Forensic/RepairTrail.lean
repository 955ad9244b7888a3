import VhdxForensic.Forensic.RepairFindings
import VhdxForensic.Forensic.UnservedData

/-!
# The trail of a repair

A repair completes exactly if the analysis does. Its report then accounts for
every changed byte and for every finding.
-/

namespace VhdxForensic

open Rust Rust.Bytes Rust.Exec

/-- All findings that a repair works through. -/
def allFindings (orders : SortOrders) (data : Bytes) : Findings :=
  auditFindings orders data ++ ghostFindings data

section Findings

variable {orders : SortOrders} {data : Bytes}
  {finding : VhdxIntegrityAnomaly}

theorem repairs_allFindings :
    repairs (allFindings orders data) = runRepairs data := by
  rw [allFindings, repairs_append, repairs_auditFindings,
    repairs_ghostFindings, List.append_nil]

/-- A repairable finding of a run is repaired at its place. -/
theorem repairedAt_of_mem (member : finding ∈ allFindings orders data)
    (repaired : finding.repairable = true) :
    fileMagicFindings data = [] ∧
      ∃ place, RepairedAt data finding place := by
  apply exists_repairedAt
  rw [← @repairs_allFindings orders data]
  exact List.mem_filter.mpr ⟨member, repaired⟩

theorem actionFits_of_mem (member : finding ∈ allFindings orders data) :
    ActionFits (tableOffset data) data.length finding := by
  cases repaired : finding.repairable with
  | false => exact (repairPlace_eq_none repaired).2 _
  | true =>
      obtain ⟨readable, place, at_⟩ := repairedAt_of_mem member repaired
      exact at_.actionFits readable

/-- Exactly the repairable findings have a place. -/
theorem repairPlace_of_mem (member : finding ∈ allFindings orders data) :
    (repairPlace (tableOffset data) finding).isSome = finding.repairable := by
  cases repaired : finding.repairable with
  | false => rw [(repairPlace_eq_none repaired).1]; rfl
  | true =>
      obtain ⟨-, place, at_⟩ := repairedAt_of_mem member repaired
      rw [at_.repairPlace_eq]
      rfl

end Findings

/-! ## The run -/

section Run

variable {orders : SortOrders} {data : Bytes}

theorem batRegionOffset_eq (allocated : data.length ≤ isizeMax) :
    batRegionOffset data = .ok (tableOffset data) := by
  rw [batRegionOffset, parseRegions_eq allocated, tableOffset]
  cases parsedRegions data <;> rfl

/-- The image after a repair. -/
def repairedImage (orders : SortOrders) (data : Bytes) : Bytes :=
  repairedByAll (tableOffset data) data (allFindings orders data)

/-- A repair completes with the actions for all findings. -/
theorem attemptRepair_eq (allocated : data.length ≤ isizeMax)
    (fits : AnalysisFits data)
    (located : ∀ r ∈ parsedRegions data, TableLocated r) :
    ∃ report, attemptRepair orders data =
        .ok (report, repairedImage orders data) ∧
      Covers (tableOffset data) (allFindings orders data) report := by
  obtain ⟨report, returned, covers⟩ := @repairPass_eq (tableOffset data) data
    (allFindings orders data) [] ⟨[], []⟩ allocated
    (fun _ member => actionFits_of_mem member) ⟨rfl, rfl⟩
  refine ⟨report, ?_, covers⟩
  rw [attemptRepair, analyse_eq_ok allocated fits, ok_bind,
    checkBatGhostData_eq allocated located, ok_bind,
    batRegionOffset_eq allocated, ok_bind, ← allFindings, returned]
  rfl

/-- A repair that completes had an analysis that completes. -/
theorem fits_of_settles (allocated : data.length ≤ isizeMax)
    (settles : Settles (attemptRepair orders data)) :
    AnalysisFits data ∧ ∀ r ∈ parsedRegions data, TableLocated r := by
  rw [attemptRepair] at settles
  have fits := (settles_analyse_iff allocated).mp settles.of_bind
  rw [analyse_eq_ok allocated fits, ok_bind] at settles
  exact ⟨fits, (settles_checkBatGhostData_iff allocated).mp settles.of_bind⟩

end Run

/-! ## Panic freedom -/

/-- The analyser and the repair run to their ends on an image. -/
def PanicFree (data : Bytes) : Prop :=
  ∀ orders, Settles (analyse orders data) ∧
    Settles (checkBatGhostData data) ∧ Settles (attemptRepair orders data)

/-- The numbers that an image declares stay in the range of the integers that
the analyser computes with. -/
structure DeclaredInRange (data : Bytes) : Prop where
  /-- The numbers of a checked table stay in range. -/
  arithmetic : fileMagicFindings data = [] → ∀ r ∈ parsedRegions data,
    TableChecked data r → TableArithmeticFits r
  /-- The first entry of the table can be located. -/
  located : ∀ r ∈ parsedRegions data, TableLocated r

/-- The analyser and the repair panic exactly on images that declare numbers
out of range. -/
theorem panicFree_iff (image : Buffer) :
    PanicFree image.bytes ↔ DeclaredInRange image.bytes := by
  have allocated := image.allocated
  constructor
  · intro free
    obtain ⟨analysed, scanned, -⟩ := free stableOrders
    have fits := (settles_analyse_iff allocated).mp analysed
    exact ⟨fun readable r parsed => (fits readable r parsed).1,
      (settles_checkBatGhostData_iff allocated).mp scanned⟩
  · intro inRange orders
    have fits : AnalysisFits image.bytes := fun readable r parsed =>
      ⟨inRange.arithmetic readable r parsed, inRange.located r parsed⟩
    obtain ⟨report, returned, -⟩ :=
      @attemptRepair_eq orders _ allocated fits inRange.located
    exact ⟨(settles_analyse_iff allocated).mpr fits,
      (settles_checkBatGhostData_iff allocated).mpr inRange.located,
      .of_eq_ok returned⟩

/-- Items of a disk of one block of 16 MiB with sectors of one byte. -/
def byteSectorItems : List StoredItem :=
  blockItems 0x1000000 0x1000000 ++
    [{ guid := guidLogicalSectorSize, length := 4, value := 1 }]

theorem byteSectorItems_fit : StandardFits byteSectorItems [0] [] where
  items_fit := {
    encodable := by
      intro item member
      rcases List.mem_append.mp member with block | sector
      · exact (blockItems_fit (by decide) (by decide)).encodable item block
      · rw [List.mem_singleton.mp sector]
        exact ⟨rfl, show 4 ≤ 8 by decide, show 1 < 2 ^ 64 by decide⟩
    count_le := show 3 ≤ 256 by decide }
  bat_le := show 1 ≤ 0x20000 by decide
  extra_apart := .nil
  extra_place := by
    intro piece member
    cases member

theorem byteSectorItems_short :
    ∀ item ∈ byteSectorItems, item.guid ≠ guidVirtualDiskId := by
  intro item member
  rcases List.mem_append.mp member with block | sector
  · exact blockItems_short item block
  · rw [List.mem_singleton.mp sector]
    exact show guidLogicalSectorSize ≠ guidVirtualDiskId by decide

/-- A standard container passes the first check. -/
theorem fileMagicFindings_standardPlan {items : List StoredItem}
    {bat : List Nat} {extra : List Run}
    (fits : StandardFits items bat extra) :
    fileMagicFindings (standardPlan items bat extra).container = [] := by
  have size : (standardPlan items bat extra).container.length = 0x600000 :=
    (standardPlan items bat extra).length_container
  have large : analyserMinContainerSize ≤ 0x600000 := by decide
  rw [fileMagicFindings, if_neg (by omega),
    if_neg (not_not_intro (standardPlan_fits fits).magic)]

/-- Sectors of one byte make the chunk ratio of that disk zero, by which the
size check divides. -/
theorem byteSectors_panic :
    ∃ image : Buffer,
      image.bytes = (standardPlan byteSectorItems [0] []).container ∧
        ¬ PanicFree image.bytes := by
  have size : (standardPlan byteSectorItems [0] []).container.length =
      0x600000 := (standardPlan byteSectorItems [0] []).length_container
  obtain ⟨image, bytesEq⟩ :=
    @ContainerPlan.exists_buffer (standardPlan byteSectorItems [0] [])
      (show 0x600000 ≤ isizeMax by decide)
  have parsed : parsedRegions image.bytes =
      some (standardRegionsAt byteSectorItems 1) := by
    rw [bytesEq]
    exact parsedRegions_standardPlan byteSectorItems_fit byteSectorItems_short
  have readable : fileMagicFindings image.bytes = [] := by
    rw [bytesEq]
    exact fileMagicFindings_standardPlan byteSectorItems_fit
  have checked : TableChecked image.bytes
      (standardRegionsAt byteSectorItems 1) := by
    refine ⟨?_, show 8 ≤ 1 * 8 by decide⟩
    rw [bytesEq, size]
    exact show 0x300000 + 1 * 8 ≤ 0x600000 by decide
  refine ⟨image, bytesEq, fun free => ?_⟩
  have arithmetic := (((panicFree_iff image).mp free).arithmetic readable _
    parsed checked).1
  have declared : (standardRegionsAt byteSectorItems 1).blockSize =
        some 0x1000000 ∧
      (standardRegionsAt byteSectorItems 1).vdiskSize = some 0x1000000 ∧
      (standardRegionsAt byteSectorItems 1).chunkRatio = some 0 := by
    decide +kernel
  exact Nat.lt_irrefl 0 (arithmetic _ declared.1 _ declared.2.1 _
    declared.2.2 (by decide)).1

/-! ## The audit trail -/

/-- The report accounts for every changed byte and every finding. -/
structure AuditTrail (data : Bytes) (findings : Findings)
    (report : RepairReport) (out : Bytes) : Prop where
  /-- The length stays. -/
  length_eq : out.length = data.length
  /-- Every changed byte lies in a place that an action names. -/
  accounted : ∀ index, out[index]? ≠ data[index]? →
    ∃ action ∈ report.repaired, action.byteOffset ≤ index ∧
      index < action.byteOffset + action.bytesChanged
  /-- The actions follow the repairable findings one by one. -/
  repaired : List.Forall₂
    (fun finding action => RepairedAt data finding action.place)
    (findings.filter VhdxIntegrityAnomaly.repairable) report.repaired
  /-- All other findings are listed as left. -/
  unrepaired : report.cannotRepair.map CannotRepair.anomaly =
    findings.filter fun finding => !finding.repairable

/-- Results that come from the kept items of a list, in their order. -/
theorem forall₂_of_filterMap_eq {α β γ : Type} {project : α → Option γ}
    {results : List β} {view : β → γ} {items : List α} {kept : α → Bool}
    {relation : α → γ → Prop}
    (same : results.map view = items.filterMap project)
    (dropped : ∀ item ∈ items, kept item = false → project item = none)
    (projected : ∀ item ∈ items, kept item = true →
      ∃ value, project item = some value ∧ relation item value) :
    List.Forall₂ (fun item result => relation item (view result))
      (items.filter kept) results := by
  induction items generalizing results with
  | nil =>
      rw [List.filterMap_nil, List.map_eq_nil_iff] at same
      rw [same]
      exact .nil
  | cons item items inductionHypothesis =>
      have restDropped := fun later member =>
        dropped later (List.mem_cons_of_mem item member)
      have restProjected := fun later member =>
        projected later (List.mem_cons_of_mem item member)
      cases keptEq : kept item with
      | false =>
          rw [List.filterMap_cons_none (dropped item List.mem_cons_self keptEq)]
            at same
          rw [List.filter_cons_of_neg (by simp [keptEq])]
          exact inductionHypothesis same restDropped restProjected
      | true =>
          obtain ⟨value, found, related⟩ :=
            projected item List.mem_cons_self keptEq
          rw [List.filterMap_cons_some found] at same
          obtain ⟨result, results, rfl, rfl, sameRest⟩ :=
            List.map_eq_cons_iff.mp same
          rw [List.filter_cons_of_pos keptEq]
          exact .cons related
            (inductionHypothesis sameRest restDropped restProjected)

/-- A report that covers all findings is an audit trail. -/
theorem Covers.auditTrail {orders : SortOrders} {data : Bytes}
    {report : RepairReport}
    (covers : Covers (tableOffset data) (allFindings orders data) report) :
    AuditTrail data (allFindings orders data) report
      (repairedImage orders data) := by
  obtain ⟨lengthEq, frame⟩ := repairedByAll_frame
    fun issue member => @actionFits_of_mem orders data issue member
  refine ⟨lengthEq, ?_, ?_, ?_⟩
  · intro index changed
    by_contra unaccounted
    refine changed (frame index fun place member inside => ?_)
    rw [← covers.places] at member
    obtain ⟨action, reported, rfl⟩ := List.mem_map.mp member
    exact unaccounted ⟨action, reported, inside⟩
  · refine forall₂_of_filterMap_eq covers.places ?_ ?_
    · intro finding member kept
      exact (repairPlace_eq_none kept).1
    · intro finding member repaired
      obtain ⟨-, place, at_⟩ := repairedAt_of_mem member repaired
      exact ⟨place, at_.repairPlace_eq, at_⟩
  · rw [covers.others]
    apply List.filter_congr
    intro finding member
    rw [← repairPlace_of_mem member]
    cases repairPlace (tableOffset data) finding <;> rfl

/-- The report of a repair accounts for all that it did. -/
theorem attemptRepair_trail (image : Buffer) {orders : SortOrders}
    {report : RepairReport} {out : Bytes}
    (completed : attemptRepair orders image.bytes = .ok (report, out)) :
    ∃ found ghosts, analyse orders image.bytes = .ok found ∧
      checkBatGhostData image.bytes = .ok ghosts ∧
        AuditTrail image.bytes (found ++ ghosts) report out := by
  have allocated := image.allocated
  obtain ⟨fits, located⟩ :=
    fits_of_settles allocated (.of_eq_ok completed)
  obtain ⟨_, returned, covers⟩ :=
    @attemptRepair_eq orders _ allocated fits located
  obtain ⟨rfl, rfl⟩ := Prod.mk.inj (Except.ok.inj
    (completed.symm.trans returned))
  exact ⟨_, _, analyse_eq_ok allocated fits,
    checkBatGhostData_eq allocated located, covers.auditTrail⟩

/-- The repair of an image with valid metadata completes. -/
theorem AuditedImage.repair_completes (image : AuditedImage)
    (orders : SortOrders) :
    ∃ report, attemptRepair orders image.bytes =
      .ok (report, repairedImage orders image.bytes) := by
  have fits : AnalysisFits image.bytes := by
    intro _ r parsed
    have located := image.tableLocated r parsed
    rw [image.parsedRegions_eq, Option.mem_some_iff] at parsed
    subst parsed
    exact ⟨fun _ => arithmeticFits_of_describes image.describes, located⟩
  obtain ⟨report, returned, -⟩ :=
    @attemptRepair_eq orders _ image.allocated fits image.tableLocated
  exact ⟨report, returned⟩

/-- A table whose only entry has an undefined state is repaired. -/
theorem attemptRepair_trail_undefinedState :
    ∃ (image : Buffer) (report : RepairReport) (out : Bytes),
      image.bytes =
          (standardPlan (blockItems 0x100000 0x100000) [1] []).container ∧
        attemptRepair stableOrders image.bytes = .ok (report, out) ∧
        ∃ found ghosts, analyse stableOrders image.bytes = .ok found ∧
          checkBatGhostData image.bytes = .ok ghosts ∧
            AuditTrail image.bytes (found ++ ghosts) report out := by
  have fits : StandardFits (blockItems 0x100000 0x100000) [1] [] :=
    ⟨blockItems_fit (by decide) (by decide), show 1 ≤ 0x20000 by decide,
      .nil, fun _ member => absurd member List.not_mem_nil⟩
  obtain ⟨image, standard, -⟩ := @exists_standardImage _ _ _ oneBlockDisk fits
    blockItems_short rfl rfl
  obtain ⟨report, completed⟩ := image.repair_completes stableOrders
  exact ⟨image.toBuffer, report, _, standard.bytes_eq, completed,
    attemptRepair_trail image.toBuffer completed⟩

end VhdxForensic
