import VhdxForensic.Forensic.RegionChecks

/-!
# Layout of the regions

The entries of the first valid region table are checked for alignment, range
and overlap, and the log is checked against the fixed blocks. Nothing here
asks whether the table names both regions.
-/

namespace VhdxForensic

open Rust Rust.Bytes Rust.Exec

/-- A known region with its declared range. -/
structure KnownRegion where
  /-- Name in the findings. -/
  name : String
  /-- First byte of the region. -/
  start : Nat
  /-- First byte behind it. -/
  stop : Nat
  deriving DecidableEq, Repr

/-- `{b:02x}` for every byte of a GUID. -/
def guidHex (guid : Bytes) : String :=
  String.ofList (guid.flatMap fun b =>
    [Nat.digitChar (b.toNat / 16), Nat.digitChar (b.toNat % 16)])

/-- Findings about a reserved word of a table. -/
def reservedWordFindings (copy : Nat) (location : String) (value : Nat) :
    Findings :=
  if value ≠ 0 then [.regionTableReservedNonZero copy location value] else []

/-- Findings about one table entry, and the range of a known region. -/
def layoutEntry (copy containerSize : Nat) (guid : Bytes)
    (fileOffset length requiredField : Nat) : Findings × Option KnownRegion :=
  let reserved := reservedWordFindings copy "entry"
    (requiredField &&& 0xFFFFFFFE)
  match regionName guid with
  | none =>
      let unknown : Findings :=
        if requiredField &&& 1 ≠ 0 then [.unknownRequiredRegion (guidHex guid)]
        else []
      (reserved ++ unknown, none)
  | some region =>
      let misaligned : Findings :=
        if fileOffset % 0x100000 ≠ 0 then [.regionMisaligned region fileOffset]
        else []
      let declaredEnd := saturatingAdd fileOffset length
      let beyond : Findings :=
        if declaredEnd > containerSize then
          [.regionBeyondContainer region declaredEnd containerSize]
        else []
      (reserved ++ misaligned ++ beyond,
        some { name := region, start := fileOffset, stop := declaredEnd })

/-- One pass over the entries. -/
def layoutStep (rt : Bytes) (copy containerSize index : Nat)
    (state : Findings × List KnownRegion) :
    Audit (ForInStep (Findings × List KnownRegion)) := do
  let base ← add 16 (index * regionEntrySize)
  let entryEnd ← add base regionEntrySize
  if entryEnd > rt.length then return .done state
  else
    let guid ← slice rt base (base + 16)
    let fileOffset := leU64 rt (base + 16)
    let length := leU32 rt (base + 24)
    let requiredField := leU32 rt (base + 28)
    let (found, known) :=
      layoutEntry copy containerSize guid fileOffset length requiredField
    return .yield (state.1 ++ found, state.2 ++ known.toList)

/-- Findings about two known regions. -/
def regionOverlaps (a b : KnownRegion) : Findings :=
  let overlapStart := max a.start b.start
  let overlapEnd := min a.stop b.stop
  if overlapStart < overlapEnd then
    [.regionsOverlap a.name b.name overlapStart]
  else []

/-- Every region against all later ones. -/
def pairwiseOverlaps : List KnownRegion → Findings
  | [] => []
  | a :: later => later.flatMap (regionOverlaps a) ++ pairwiseOverlaps later

/-- The fixed blocks, each with its whole slot. -/
def structuralZones : List KnownRegion :=
  [{ name := "FileIdentifier", start := 0x0, stop := 0x10000 },
    { name := "Header1", start := 0x10000, stop := 0x20000 },
    { name := "Header2", start := 0x20000, stop := 0x30000 },
    { name := "RegionTable1", start := 0x30000, stop := 0x40000 },
    { name := "RegionTable2", start := 0x40000, stop := 0x50000 }]

/-- Findings about a log on top of the fixed blocks. -/
def logOverlaps (logLength logOffset : Nat) : Findings :=
  if logLength > 0 then
    let logEnd := saturatingAdd logOffset logLength
    structuralZones.flatMap fun zone =>
      if max logOffset zone.start < min logEnd zone.stop then
        [.logOverlapsStructuralRegion logOffset zone.name]
      else []
  else []

/-- Check the layout that one copy of the table describes. -/
def checkCopyLayout (data : Bytes) (copy : Nat) : Audit Findings := do
  let rtOff := rtOffset copy
  let rt ← slice data rtOff (rtOff + regionTableCrcCoverage)
  let reserved := reservedWordFindings copy "header" (leU32 rt 12)
  let entryCount := min (leU32 rt 8) 2048
  if entryCount = 0 then return reserved ++ [.regionEntryCountZero copy]
  else
    let (entries, known) ← forRange entryCount
      (layoutStep rt copy data.length) ([], [])
    let issues := reserved ++ entries ++ pairwiseOverlaps known
    match ← activeHeaderBlock data with
    | none => return issues
    | some active =>
        return issues ++ logOverlaps (leU32 active 68) (leU64 active 72)

def checkRegionLayout (data : Bytes) : Audit Findings := do
  let rt1Bad ← checkSingleRtCrc data 1
  if rt1Bad.isNone then checkCopyLayout data 1
  else
    let rt2Bad ← checkSingleRtCrc data 2
    if rt2Bad.isNone then checkCopyLayout data 2 else return []

/-! ## What the check computes -/

/-- Findings about the entry at `index`, and the range of a known region. -/
def layoutAt (data : Bytes) (copy index : Nat) :
    Findings × Option KnownRegion :=
  let entry := regionEntryAt data (rtOffset copy) index
  layoutEntry copy data.length entry.guid entry.fileOffset entry.length
    (leU32 data (rtOffset copy + (16 + index * regionEntrySize) + 28))

/-- The known regions that a copy names, in the order of its entries. -/
def knownRanges (data : Bytes) (copy : Nat) : List KnownRegion :=
  (List.range (visitedEntries data (rtOffset copy) fittingEntries)).filterMap
    fun index => (layoutAt data copy index).2

/-- Findings about the log of the active header. -/
def activeLogOverlaps (data : Bytes) : Findings :=
  match activeHeader data with
  | none => []
  | some header => logOverlaps header.logLength header.logOffset

/-- Findings about the layout that one copy describes. -/
def copyLayoutFindings (data : Bytes) (copy : Nat) : Findings :=
  let reserved := reservedWordFindings copy "header"
    (leU32 data (rtOffset copy + 12))
  if leU32 data (rtOffset copy + 8) = 0 then
    reserved ++ [.regionEntryCountZero copy]
  else
    reserved ++
      (List.range (visitedEntries data (rtOffset copy)
        fittingEntries)).flatMap (fun index => (layoutAt data copy index).1) ++
      pairwiseOverlaps (knownRanges data copy) ++ activeLogOverlaps data

/-- All findings about the layout. -/
def layoutFindings (data : Bytes) : Findings :=
  if RegionTableValid data regionTable1Offset then copyLayoutFindings data 1
  else if RegionTableValid data regionTable2Offset then
    copyLayoutFindings data 2
  else []

section Layout

variable {data : Bytes} {copy : Nat}

theorem layoutStep_eq {index : Nat} (state : Findings × List KnownRegion)
    (present : rtOffset copy + regionTableCrcCoverage ≤ data.length)
    (fits : index < fittingEntries) :
    layoutStep (window data (rtOffset copy) regionTableCrcCoverage) copy
        data.length index state =
      .ok (.yield (state.1 ++ (layoutAt data copy index).1,
        state.2 ++ (layoutAt data copy index).2.toList)) := by
  have coverage : regionTableCrcCoverage = 65536 := rfl
  have width : regionEntrySize = 32 := rfl
  have fitting : fittingEntries = 2047 := rfl
  have blockLength := length_window_of_le present
  have base : index * regionEntrySize = index * 32 := rfl
  have word : regionTableCrcCoverage < wordCount := by decide
  rw [layoutStep, add_eq_ok (by omega), ok_bind, add_eq_ok (by omega),
    ok_bind, if_neg (by omega), slice_eq_ok (by omega) (by omega), ok_bind,
    Nat.add_sub_cancel_left, window_window_of_le (by omega)]
  dsimp only
  rw [leU64_window (by omega) present, leU32_window (by omega) present,
    leU32_window (by omega) present]
  rfl

theorem layoutStep_ends {index : Nat} (state : Findings × List KnownRegion)
    (present : rtOffset copy + regionTableCrcCoverage ≤ data.length)
    (outside : fittingEntries ≤ index) (capped : index < 2048) :
    layoutStep (window data (rtOffset copy) regionTableCrcCoverage) copy
        data.length index state = .ok (.done state) := by
  have coverage : regionTableCrcCoverage = 65536 := rfl
  have width : regionEntrySize = 32 := rfl
  have fitting : fittingEntries = 2047 := rfl
  have blockLength := length_window_of_le present
  have base : index * regionEntrySize = index * 32 := rfl
  have word : 2 ^ 20 < wordCount := by decide
  rw [layoutStep, add_eq_ok (by omega), ok_bind, add_eq_ok (by omega),
    ok_bind, if_pos (by omega)]
  rfl

/-- The loop visits the entries that fit into the block. -/
theorem layoutLoop_eq
    (present : rtOffset copy + regionTableCrcCoverage ≤ data.length) :
    forRange (min (leU32 data (rtOffset copy + 8)) 2048)
        (layoutStep (window data (rtOffset copy) regionTableCrcCoverage) copy
          data.length) ([], []) =
      .ok ((List.range (visitedEntries data (rtOffset copy)
          fittingEntries)).flatMap (fun index => (layoutAt data copy index).1),
        knownRanges data copy) := by
  have fitting : fittingEntries = 2047 := rfl
  have visited : visitedEntries data (rtOffset copy) fittingEntries =
    min (leU32 data (rtOffset copy + 8)) fittingEntries := rfl
  rw [forRange_eq_fold_of_break
    (fun index state => (state.1 ++ (layoutAt data copy index).1,
      state.2 ++ (layoutAt data copy index).2.toList))
    (show visitedEntries data (rtOffset copy) fittingEntries ≤ _ by omega)
    (fun index indexLt state => layoutStep_eq state present (by omega))
    (fun broke state => layoutStep_ends state present (by omega) (by omega))]
  -- Both components of the state grow by one batch per entry.
  have found := foldRange_append (fun index => (layoutAt data copy index).1)
    (visitedEntries data (rtOffset copy) fittingEntries) []
  have named := foldRange_append
    (fun index => (layoutAt data copy index).2.toList)
    (visitedEntries data (rtOffset copy) fittingEntries) []
  rw [List.nil_append] at found named
  rw [← List.filterMap_eq_flatMap_toList] at named
  rw [knownRanges, ← found, ← named]
  congr 1
  refine Prod.ext ?_ ?_
  · exact foldRange_map Prod.fst _ _ fun index state => rfl
  · exact foldRange_map Prod.snd _ _ fun index state => rfl

theorem checkCopyLayout_eq
    (present : rtOffset copy + regionTableCrcCoverage ≤ data.length) :
    checkCopyLayout data copy = .ok (copyLayoutFindings data copy) := by
  have coverage : regionTableCrcCoverage = 65536 := rfl
  rw [checkCopyLayout, slice_eq_ok (by omega) present, ok_bind,
    Nat.add_sub_cancel_left, leU32_window (by omega) present,
    leU32_window (by omega) present, copyLayoutFindings]
  by_cases empty : leU32 data (rtOffset copy + 8) = 0
  · rw [if_pos (by omega), if_pos empty]
    rfl
  rw [if_neg (by omega), if_neg empty, layoutLoop_eq present, ok_bind,
    activeLogOverlaps]
  cases active : activeHeader data with
  | none =>
      rw [activeHeaderBlock_of_none active, List.append_nil]
      rfl
  | some header =>
      obtain ⟨block, picked, logLength, logOffset, -⟩ :=
        activeHeaderBlock_of_active active
      dsimp only
      rw [picked, ← logLength, ← logOffset]
      rfl

theorem checkRegionLayout_eq (data : Bytes) :
    checkRegionLayout data = .ok (layoutFindings data) := by
  have first : (rtCrcFinding data 1).isNone ↔
      RegionTableValid data regionTable1Offset :=
    Option.isNone_iff_eq_none.trans rtCrcFinding_eq_none_iff
  have second : (rtCrcFinding data 2).isNone ↔
      RegionTableValid data regionTable2Offset :=
    Option.isNone_iff_eq_none.trans rtCrcFinding_eq_none_iff
  rw [checkRegionLayout, checkSingleRtCrc_eq, ok_bind, layoutFindings]
  by_cases valid1 : RegionTableValid data regionTable1Offset
  · rw [if_pos (first.mpr valid1), if_pos valid1]
    exact checkCopyLayout_eq valid1.1
  rw [if_neg fun ok => valid1 (first.mp ok), if_neg valid1,
    checkSingleRtCrc_eq, ok_bind]
  by_cases valid2 : RegionTableValid data regionTable2Offset
  · rw [if_pos (second.mpr valid2), if_pos valid2]
    exact checkCopyLayout_eq valid2.1
  · rw [if_neg fun ok => valid2 (second.mp ok), if_neg valid2]
    rfl

end Layout

end VhdxForensic
