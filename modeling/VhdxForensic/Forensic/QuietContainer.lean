import VhdxForensic.Forensic.ReservedAreas

/-!
# Containers without findings about the fixed blocks

An encoded container with two consecutive clean headers and two equal region
tables passes every check of the first megabyte if its regions lie behind it.
What is found about the layout depends on the entries of the tables only.
-/

namespace VhdxForensic

open Rust Rust.Bytes Rust.Exec

namespace ContainerPlan

/-- The first megabyte of the container is as a writer leaves it. -/
structure Quiet (plan : ContainerPlan) : Prop where
  /-- Everything has its place. -/
  fits : plan.Fits
  /-- The first header is the older one. -/
  header1 : plan.header1 = cleanHeader 1
  /-- The second header follows it. -/
  header2 : plan.header2 = cleanHeader 2
  /-- Both tables hold the same entries. -/
  tables : plan.table2 = plan.table1
  /-- The first megabyte is complete. -/
  large : 0x100000 ≤ plan.size
  /-- The regions leave it alone. -/
  behind : ∀ region ∈ plan.regions, 0x100000 ≤ region.1

end ContainerPlan

/-- Findings that could only be about a reserved area, and are not. -/
theorem FromCheck.eq_nil {check : Check} {findings : Findings}
    (from_ : FromCheck check findings)
    (only : check = .identifier ∨ check = .gaps)
    (none : NoReserved findings) : findings = [] := by
  rw [List.eq_nil_iff_forall_not_mem]
  intro finding member
  have origin := from_ finding member
  have unreserved := none finding member
  rcases only with rfl | rfl <;> cases finding <;>
    simp_all [VhdxIntegrityAnomaly.aboutReserved]

/-- The fields of an encoded header, in its block. -/
theorem encodeHeader_fields {header : VhdxHeader}
    (encodable : header.Encodable) :
    leU64 (encodeHeader header) 8 = header.sequenceNumber ∧
      leArr16 (encodeHeader header) 48 = header.logGuid ∧
      leU32 (encodeHeader header) 68 = header.logLength ∧
      leU64 (encodeHeader header) 72 = header.logOffset := by
  have fields := headerAt_encodeHeader encodable
  simp only [headerAt, Nat.zero_add] at fields
  obtain ⟨sequenceNumber, logGuid, logOffset, logLength⟩ :=
    VhdxHeader.mk.injEq .. ▸ fields
  exact ⟨sequenceNumber, logGuid, logLength, logOffset⟩

/-- Nothing is found about an encoded header without a log. -/
theorem activeHeaderFindings_cleanHeader {sequenceNumber size : Nat}
    (small : sequenceNumber < 2 ^ 64) :
    activeHeaderFindings (encodeHeader (cleanHeader sequenceNumber))
      (window (encodeHeader (cleanHeader sequenceNumber)) 16 16)
      (window (encodeHeader (cleanHeader sequenceNumber)) 32 16) size =
        [] := by
  have encodable := cleanHeader_encodable small
  have apart := headerPieces_apart encodable
  have present : 8 ≤ (layout headerSize (headerPieces
      (cleanHeader sequenceNumber))).length := by
    rw [length_layout]
    decide
  obtain ⟨-, logGuid, logLength, -⟩ := encodeHeader_fields encodable
  have version : ∀ off ∈ [64, 66],
      leU16 (encodeHeader (cleanHeader sequenceNumber)) off = 1 := by
    intro off member
    rcases List.mem_pair.mp member with rfl | rfl <;>
      exact (le_sealBlock present (by omega)).trans (le_layout apart
        (by simp [headerPieces]) (by decide) (by decide))
  have guid : ∀ off ∈ [16, 32],
      window (encodeHeader (cleanHeader sequenceNumber)) off 16 =
        writeGuid := by
    intro off member
    rcases List.mem_pair.mp member with rfl | rfl <;>
      exact (window_sealBlock present (by omega)).trans (window_layout apart
        (by simp [headerPieces]) length_writeGuid (by decide))
  have nonzero : ¬ writeGuid.all (· = 0) = true := by decide
  rw [activeHeaderFindings, logGuid, logLength, version 64 (by simp),
    version 66 (by simp), guid 16 (by simp), guid 32 (by simp)]
  simp [nonzero, logPointerFindings, cleanHeader]

/-- Between its pieces an encoded container is zero. -/
theorem ContainerPlan.zeroRange (plan : ContainerPlan) {start stop : Nat}
    (ordered : start ≤ stop) (inside : stop ≤ plan.size)
    (fixed : ∀ place ∈ HidingContainer.places,
      place.1 + place.2 ≤ start ∨ stop ≤ place.1)
    (missed : ∀ region ∈ plan.regions,
      region.1 + region.2.length ≤ start ∨ stop ≤ region.1) :
    ZeroRange plan.container start stop := by
  refine zeroRange_layout ordered inside fun piece member => ?_
  simp only [pieces, List.mem_cons] at member
  rcases member with rfl | rfl | rfl | rfl | rfl | member
  · exact fixed (0, 8) (by simp [HidingContainer.places])
  · rw [length_encodeHeader]
    exact fixed (header1Offset, headerSize) (by simp [HidingContainer.places])
  · rw [length_encodeHeader]
    exact fixed (header2Offset, headerSize) (by simp [HidingContainer.places])
  · rw [length_encodeRegionTable]
    exact fixed (regionTable1Offset, regionTableCrcCoverage)
      (by simp [HidingContainer.places])
  · rw [length_encodeRegionTable]
    exact fixed (regionTable2Offset, regionTableCrcCoverage)
      (by simp [HidingContainer.places])
  · exact missed piece member

namespace ContainerPlan.Quiet

variable {plan : ContainerPlan}

/-- Between the fixed blocks the container is zero. -/
theorem zeroRange (quiet : plan.Quiet) {start stop : Nat}
    (ordered : start ≤ stop) (inside : stop ≤ 0x100000)
    (fixed : ∀ place ∈ HidingContainer.places,
      place.1 + place.2 ≤ start ∨ stop ≤ place.1) :
    ZeroRange plan.container start stop :=
  plan.zeroRange ordered (inside.trans quiet.large) fixed
    fun _ member => Or.inr (inside.trans (quiet.behind _ member))

/-- The unused bytes of a header block are zero. -/
theorem headerZero (quiet : plan.Quiet) {offset : Nat} {header : VhdxHeader}
    (encodable : header.Encodable)
    (member : (offset, encodeHeader header) ∈ plan.pieces)
    (inside : offset + headerSize ≤ 0x100000) :
    ZeroRange plan.container (offset + 80) (offset + headerSize) := by
  refine zeroRange_sealedPiece quiet.fits.apart member
    (inside.trans quiet.large) (by decide) (by decide) le_rfl ?_
  simp [headerPieces, headerSignature, encodable.length_logGuid]

theorem identifierFindings_eq (quiet : plan.Quiet) :
    identifierFindings plan.container = [] := by
  have large := quiet.large
  refine (fromCheck_identifierFindings _).eq_nil (Or.inl rfl)
    ((noReserved_identifierFindings ?_).mpr ?_)
  · rw [length_container]
    omega
  · exact quiet.zeroRange (by decide) (by decide) (by decide)

theorem interRegionFindings_eq (quiet : plan.Quiet) :
    interRegionFindings plan.container = [] := by
  refine (fromCheck_interRegionFindings _).eq_nil (Or.inr rfl)
    ((noReserved_interRegionFindings ?_).mpr ⟨fun offset member => ?_, ?_⟩)
  · rw [length_container]
    exact quiet.large
  · rcases List.mem_pair.mp member with rfl | rfl
    · exact quiet.zeroRange (by decide) (by decide) (by decide)
    · exact quiet.zeroRange (by decide) (by decide) (by decide)
  · exact quiet.zeroRange (by decide) (by decide) (by decide)

/-- Nothing is found about the headers. -/
theorem headerFindings_eq (quiet : plan.Quiet) :
    headerFindings plan.container = [] := by
  have large := quiet.large
  have size : headerSize = 0x1000 := rfl
  have place1 : header1Offset = 0x10000 := rfl
  have place2 : header2Offset = 0x20000 := rfl
  have containerLength := plan.length_container
  have encodable1 := quiet.fits.header1
  have encodable2 := quiet.fits.header2
  obtain ⟨valid1, fields1⟩ := quiet.fits.holds_header1
  obtain ⟨valid2, fields2⟩ := quiet.fits.holds_header2
  have block1 : window plan.container header1Offset headerSize =
      encodeHeader plan.header1 :=
    window_layout quiet.fits.apart (by simp [pieces]) (length_encodeHeader _)
      (by omega)
  have block2 : window plan.container header2Offset headerSize =
      encodeHeader plan.header2 :=
    window_layout quiet.fits.apart (by simp [pieces]) (length_encodeHeader _)
      (by omega)
  have none1 : headerCrcFinding plan.container 1 = none :=
    headerCrcFinding_eq_none_iff.mpr valid1
  have none2 : headerCrcFinding plan.container 2 = none :=
    headerCrcFinding_eq_none_iff.mpr valid2
  have pair : headerPairFindings
      (window plan.container header1Offset headerSize)
      (window plan.container header2Offset headerSize) = [] := by
    obtain ⟨sequence1, -, length1, offset1⟩ := encodeHeader_fields encodable1
    obtain ⟨sequence2, -, length2, offset2⟩ := encodeHeader_fields encodable2
    rw [block1, block2, headerPairFindings, sequence1, sequence2, length1,
      length2, offset1, offset2, quiet.header1, quiet.header2]
    rfl
  have reserved : ∀ copy ∈ [1, 2],
      copyReservedFindings plan.container copy = [] := by
    intro copy member
    have zeros : ZeroRange plan.container (headerOffset copy + 80)
        (headerOffset copy + headerSize) := by
      rcases List.mem_pair.mp member with rfl | rfl
      · exact quiet.headerZero encodable1 (by simp [pieces, headerOffset])
          (by decide)
      · exact quiet.headerZero encodable2 (by simp [pieces, headerOffset])
          (by decide)
    have inside : headerOffset copy + headerSize ≤
        plan.container.length := by
      rcases List.mem_pair.mp member with rfl | rfl
      · exact valid1.1
      · exact valid2.1
    have quietBlock := (anyNonzero_eq_false_iff inside (by omega)).mpr zeros
    rw [show headerOffset copy + headerSize - (headerOffset copy + 80) =
      headerSize - 80 by omega] at quietBlock
    unfold copyReservedFindings headerReservedFindings
    rw [quietBlock]
    split <;> rfl
  have active : activeFindings plan.container = [] := by
    have newest : activeHeaderOffset plan.container = some header2Offset := by
      have sequence1 : leU64 plan.container (header1Offset + 8) = 1 :=
        (congrArg VhdxHeader.sequenceNumber fields1).trans
          (by rw [quiet.header1]; rfl)
      have sequence2 : leU64 plan.container (header2Offset + 8) = 2 :=
        (congrArg VhdxHeader.sequenceNumber fields2).trans
          (by rw [quiet.header2]; rfl)
      rw [activeHeaderOffset, if_pos valid1, if_pos valid2, sequence1,
        sequence2]
      rfl
    have inBlock : ∀ off, off + 16 ≤ headerSize →
        window plan.container (header2Offset + off) 16 =
          window (encodeHeader (cleanHeader 2)) off 16 := by
      intro off offLe
      rw [← quiet.header2, ← block2, window_window_of_le offLe]
    rw [activeFindings, newest]
    dsimp only
    rw [block2, inBlock 16 (by omega), inBlock 32 (by omega), quiet.header2]
    exact activeHeaderFindings_cleanHeader (by decide)
  rw [headerFindings, none1, none2]
  simp [pair, reserved 1, reserved 2, active]

/-- Nothing is found by comparing a table with itself. -/
theorem entryPairFindings_self (entry : RegionEntry) :
    entryPairFindings entry entry = [] := by
  rw [entryPairFindings, if_neg (not_not_intro rfl)]
  split
  · rfl
  · simp [rangeFindings]

theorem regionTableFindings_eq (quiet : plan.Quiet) :
    regionTableFindings plan.container = [] := by
  rw [regionTableFindings_of_valid quiet.fits.holds_table1.1
    quiet.fits.holds_table2.1, quiet.fits.regionTablePairFindings_eq,
    quiet.tables, List.flatMap_eq_nil_iff]
  intro pair member
  obtain ⟨first, second⟩ := pair
  obtain ⟨index, found⟩ := List.mem_iff_getElem?.mp member
  rw [List.getElem?_zip_eq_some] at found
  have same : first = second :=
    Option.some.inj (found.1.symm.trans found.2)
  subst same
  exact entryPairFindings_self first

/-- Nothing is found in front of the regions. -/
theorem frontFindings_eq (quiet : plan.Quiet) :
    frontFindings plan.container = [] := by
  rw [frontFindings, quiet.identifierFindings_eq,
    quiet.interRegionFindings_eq, quiet.headerFindings_eq,
    quiet.regionTableFindings_eq]
  rfl

/-- No bit of the last word of an encoded entry is set. -/
theorem requiredWord_eq (quiet : plan.Quiet) {index : Nat}
    {entry : RegionEntry} (found : plan.table1[index]? = some entry) :
    requiredWord plan.container regionTable1Offset index = 0 := by
  have large := quiet.large
  have coverage : regionTableCrcCoverage = 65536 := rfl
  have width : regionEntrySize = 32 := rfl
  have place : regionTable1Offset = 0x30000 := rfl
  have base : index * regionEntrySize = index * 32 := rfl
  have countLe := quiet.fits.table1.count_le
  have indexLt := (List.getElem?_eq_some_iff.mp found).1
  have containerLength := plan.length_container
  obtain ⟨guidLength, -, -⟩ :=
    quiet.fits.table1.encodable entry (List.mem_of_getElem? found)
  have block : window plan.container regionTable1Offset
      regionTableCrcCoverage = encodeRegionTable plan.table1 :=
    window_layout quiet.fits.apart (by simp [pieces])
      (length_encodeRegionTable _) (by omega)
  have stored : window plan.container
      (regionTable1Offset + (16 + index * regionEntrySize))
      regionEntrySize = encodeRegionEntry entry := by
    rw [← window_window_of_le (show 16 + index * regionEntrySize +
      regionEntrySize ≤ regionTableCrcCoverage by omega), block]
    exact window_encodeRegionTable quiet.fits.table1 found
  have front : (entry.guid ++ (encodeLe 8 entry.fileOffset ++
      encodeLe 4 entry.length)).length = 28 := by
    simp [guidLength]
  have shape : encodeRegionEntry entry = (entry.guid ++
      (encodeLe 8 entry.fileOffset ++ encodeLe 4 entry.length)) ++
        (encodeLe 4 0 ++ []) := by
    simp [encodeRegionEntry]
  rw [requiredWord, ← leU32_window (show 28 + 4 ≤ regionEntrySize by decide)
    (by omega), stored, shape, ← front]
  exact le_append_encodeLe _ _ (by decide)

/-- The layout check sees the entries of the first table. -/
theorem layoutAt_eq (quiet : plan.Quiet) :
    (List.range plan.table1.length).map (layoutAt plan.container 1) =
      plan.table1.map fun entry => layoutEntry 1 plan.size entry.guid
        entry.fileOffset entry.length 0 := by
  obtain ⟨-, -, entries⟩ := quiet.fits.holds_table1
  apply List.ext_getElem?
  intro index
  rw [List.getElem?_map, List.getElem?_map]
  by_cases indexLt : index < plan.table1.length
  · have found := List.getElem?_eq_getElem indexLt
    have stored : regionEntryAt plan.container regionTable1Offset index =
        plan.table1[index] := by
      have decoded := congrArg (·[index]?) entries
      simp only [regionEntries, List.getElem?_map,
        List.getElem?_range indexLt, found, Option.map_some] at decoded
      exact Option.some.inj decoded
    rw [List.getElem?_range indexLt, found, Option.map_some, Option.map_some,
      layoutAt]
    change some (layoutEntry 1 plan.container.length
      (regionEntryAt plan.container regionTable1Offset index).guid
      (regionEntryAt plan.container regionTable1Offset index).fileOffset
      (regionEntryAt plan.container regionTable1Offset index).length
      (requiredWord plan.container regionTable1Offset index)) = _
    rw [stored, quiet.requiredWord_eq found, length_container]
  · rw [List.getElem?_eq_none (by simpa using indexLt),
      List.getElem?_eq_none (by omega)]
    rfl

/-- What is found about the layout is what the entries say. -/
theorem layoutFindings_eq (quiet : plan.Quiet) (named : plan.table1 ≠ []) :
    layoutFindings plan.container =
      (plan.table1.map fun entry => layoutEntry 1 plan.size entry.guid
        entry.fileOffset entry.length 0).flatMap Prod.fst ++
      pairwiseOverlaps ((plan.table1.map fun entry =>
        layoutEntry 1 plan.size entry.guid entry.fileOffset entry.length
          0).filterMap Prod.snd) := by
  have large := quiet.large
  have place : rtOffset 1 = 0x30000 := rfl
  have countLe := quiet.fits.table1.count_le
  have containerLength := plan.length_container
  obtain ⟨valid, stored, -⟩ := quiet.fits.holds_table1
  have visited : visitedEntries plan.container (rtOffset 1) fittingEntries =
      plan.table1.length := by
    rw [visitedEntries]
    change min (leU32 plan.container (regionTable1Offset + 8)) 2047 = _
    omega
  have reserved : leU32 plan.container (rtOffset 1 + 12) = 0 := by
    have zeros : ZeroRange plan.container (regionTable1Offset + 12)
        (regionTable1Offset + 16) :=
      zeroRange_sealedPiece quiet.fits.apart
        (show (regionTable1Offset, sealBlock (layout regionTableCrcCoverage
          (regionTablePieces plan.table1))) ∈ plan.pieces by
            simp [pieces, encodeRegionTable])
        (by change 0x30000 + 0x10000 ≤ _; omega) (by decide) (by decide)
        (by decide) (by simp [regionTablePieces, regionTableSignature])
    exact (le_eq_zero_iff (by omega)).mpr zeros
  have log : activeLogOverlaps plan.container = [] := by
    rcases quiet.fits.activeHeader with active | active
    · rw [activeLogOverlaps, active, quiet.header1]
      rfl
    · rw [activeLogOverlaps, active, quiet.header2]
      rfl
  have entries : leU32 plan.container (rtOffset 1 + 8) ≠ 0 := by
    change leU32 plan.container (regionTable1Offset + 8) ≠ 0
    rw [stored]
    exact fun empty => named (List.length_eq_zero_iff.mp empty)
  rw [layoutFindings, if_pos valid, copyLayoutFindings, if_neg entries,
    reserved, log, knownRanges, visited, ← quiet.layoutAt_eq,
    List.flatMap_map, List.filterMap_map, List.append_nil]
  rfl

/-- If the layout is in order, only findings about the regions remain. -/
theorem auditFindings_eq (quiet : plan.Quiet) {orders : SortOrders}
    (ordered : layoutFindings plan.container = []) :
    auditFindings orders plan.container =
      regionFindings orders plan.container (parsedRegions plan.container) := by
  have large := quiet.large
  have minimum : analyserMinContainerSize = 0x50000 := rfl
  have containerLength := plan.length_container
  have readable : fileMagicFindings plan.container = [] := by
    rw [fileMagicFindings, if_neg (by omega),
      if_neg (not_not_intro quiet.fits.magic)]
  have front := quiet.frontFindings_eq
  have unwalked : ¬ LogWalked plan.container := by
    rw [LogWalked, front, ordered]
    exact Bool.false_ne_true
  rw [auditFindings, if_neg (not_not_intro readable), front,
    if_neg List.not_mem_nil, deepFindings, if_neg unwalked, front, ordered]
  rfl

end ContainerPlan.Quiet

/-! ## A table without the regions -/

/-- An entry of no known kind, which a reader may ignore. -/
def unknownEntry : RegionEntry where
  guid := List.replicate 16 0
  fileOffset := 0
  length := 0

/-- A container whose tables name no region. -/
def namelessPlan : ContainerPlan where
  size := 0x300000
  header1 := cleanHeader 1
  header2 := cleanHeader 2
  table1 := [unknownEntry]
  table2 := [unknownEntry]
  regions := []

theorem unknownEntry_encodable : unknownEntry.Encodable :=
  ⟨List.length_replicate, Nat.two_pow_pos 64, Nat.two_pow_pos 32⟩

theorem namelessPlan_quiet : namelessPlan.Quiet where
  fits :=
    { header1 := cleanHeader_encodable (by decide)
      header2 := cleanHeader_encodable (by decide)
      table1 := ⟨by simp [namelessPlan, unknownEntry_encodable],
        show 1 ≤ 2047 by decide⟩
      table2 := ⟨by simp [namelessPlan, unknownEntry_encodable],
        show 1 ≤ 2047 by decide⟩
      apart := ContainerPlan.pieces_apart (by simp [namelessPlan])
        List.Pairwise.nil
      large := show 0x50000 ≤ 0x300000 by decide
      regions_inside := by simp [namelessPlan] }
  header1 := rfl
  header2 := rfl
  tables := rfl
  large := show 0x100000 ≤ 0x300000 by decide
  behind := by simp [namelessPlan]

/-- Neither copy names a region. -/
theorem namelessPlan_resolves {guid : Bytes} (known : guid ∈ knownRegions)
    {cap copy : Nat} (visited : 1 ≤ cap) :
    resolvedRange namelessPlan.container (rtOffset copy) cap guid = none := by
  have fits := namelessPlan_quiet.fits
  have unnamed : (lastWithGuid guid [unknownEntry]).map RegionEntry.range =
      none := by
    rcases List.mem_pair.mp known with rfl | rfl <;> rfl
  unfold rtOffset
  split
  · rw [fits.resolvedRange_table1 guid visited]
    exact unnamed
  · rw [fits.resolvedRange_table2 guid visited]
    exact unnamed

/-- So the analyser finds no regions to check. -/
theorem namelessPlan_parsedRegions :
    parsedRegions namelessPlan.container = none := by
  have unnamed : ∀ offset ∈ [regionTable1Offset, regionTable2Offset],
      tableAnalysis namelessPlan.container offset = none := by
    intro offset member
    have resolved : resolvedRange namelessPlan.container offset
        fittingEntries batGuid = none := by
      rcases List.mem_pair.mp member with rfl | rfl
      · exact @namelessPlan_resolves _ (by simp [knownRegions]) _ 1 (by decide)
      · exact @namelessPlan_resolves _ (by simp [knownRegions]) _ 2 (by decide)
    unfold tableAnalysis
    rw [resolved]
    split <;> rfl
  rw [parsedRegions, unnamed _ (by simp), unnamed _ (by simp)]
  rfl

/-- Nothing is found about the container. -/
theorem namelessPlan_auditFindings (orders : SortOrders) :
    auditFindings orders namelessPlan.container = [] := by
  have ordered : layoutFindings namelessPlan.container = [] := by
    rw [namelessPlan_quiet.layoutFindings_eq (List.cons_ne_nil _ _)]
    rfl
  rw [namelessPlan_quiet.auditFindings_eq ordered,
    namelessPlan_parsedRegions]
  rfl

/-! ## A full table -/

/-- A standard container is empty behind its table. -/
theorem zeroRange_standardPlan (items : List StoredItem) {bat : List Nat}
    (batLe : bat.length ≤ 0x20000) :
    ZeroRange (standardPlan items bat []).container 0x400000 0x600000 := by
  have metadataLength := length_encodeMetadata items
  have batLength := length_encodeBat bat
  have regionSize : metadataRegionSize = 0x100000 := rfl
  refine (standardPlan items bat []).zeroRange (by decide)
    (show 0x600000 ≤ 0x600000 by decide) (by decide)
      fun region member => Or.inl ?_
  rcases List.mem_pair.mp member with rfl | rfl
  · dsimp only
    omega
  · dsimp only
    omega

/-- A table of one megabyte whose first entry is given and all others are
zero. -/
def fullTable (first : Nat) : List Nat := first :: List.replicate 0x1FFFF 0

/-- A disk of one block with that table. -/
def fullPlan (first : Nat) : ContainerPlan :=
  standardPlan (blockItems 0x100000 0x100000) (fullTable first) []

@[simp] theorem length_fullTable (first : Nat) :
    (fullTable first).length = 0x20000 := by
  rw [fullTable, List.length_cons, List.length_replicate]

theorem fullTable_fits (first : Nat) :
    StandardFits (blockItems 0x100000 0x100000) (fullTable first) [] where
  items_fit := blockItems_fit (by decide) (by decide)
  bat_le := (length_fullTable first).le
  extra_apart := .nil
  extra_place := fun _ member => absurd member List.not_mem_nil

theorem getElem?_fullTable {first i : Nat} (positive : 0 < i)
    (inside : i < 0x20000) : (fullTable first)[i]? = some 0 := by
  obtain ⟨i, rfl⟩ := Nat.exists_eq_add_of_lt positive
  rw [Nat.zero_add, fullTable, List.getElem?_cons_succ,
    List.getElem?_replicate, if_pos (by omega)]

theorem fullPlan_quiet (first : Nat) : (fullPlan first).Quiet where
  fits := standardPlan_fits (fullTable_fits first)
  header1 := rfl
  header2 := rfl
  tables := rfl
  large := show 0x100000 ≤ 0x600000 by decide
  behind := by
    intro region member
    rcases List.mem_pair.mp member with rfl | rfl
    · exact show 0x100000 ≤ 0x200000 by decide
    · exact show 0x100000 ≤ 0x300000 by decide

theorem fullPlan_layoutFindings (first : Nat) :
    layoutFindings (fullPlan first).container = [] := by
  rw [(fullPlan_quiet first).layoutFindings_eq (List.cons_ne_nil _ _)]
  have table : (fullPlan first).table1 = [(standardRegions 0x20000).bat,
      (standardRegions 0x20000).metadata] := by
    rw [← length_fullTable first]
    rfl
  rw [table]
  rfl

/-- What the analyser finds in the container. -/
def fullRegions : ParsedRegions :=
  standardRegionsAt (blockItems 0x100000 0x100000) 0x20000

section FullTable

variable {image : AuditedImage} {first : Nat}

/-- All entries but the first are zero. -/
theorem fullTable_entryAt
    (standard : image.IsStandard (blockItems 0x100000 0x100000)
      (fullTable first) []) (small : first < 2 ^ 64) {i : Nat}
    (inside : i < 0x20000) :
    entryAt image.bytes image.regions i = if i = 0 then first else 0 := by
  have entriesLt : ∀ entry ∈ fullTable first, entry < 2 ^ 64 := by
    intro entry member
    rcases List.mem_cons.mp member with rfl | member
    · exact small
    · rw [(List.mem_replicate.mp member).2]
      exact Nat.two_pow_pos 64
  split
  · rename_i start
    subst start
    exact standard.entryAt_eq (fullTable_fits first) entriesLt rfl
  · exact standard.entryAt_eq (fullTable_fits first) entriesLt
      (getElem?_fullTable (by omega) inside)

/-- The items of the container lie next to each other. -/
theorem itemRanges_blockItems {blockSize diskSize : Nat}
    (fits : MetadataFits (blockItems blockSize diskSize)) :
    itemRanges (encodeMetadata (blockItems blockSize diskSize)) =
      [(0x10000, 0x10008), (0x10008, 0x10010)] := by
  have count : metadataEntryCount
      (encodeMetadata (blockItems blockSize diskSize)) = 2 :=
    metadataEntryCount_encodeMetadata fits
  have range : ∀ index item,
      (blockItems blockSize diskSize)[index]? = some item →
        item.length = 8 → itemRangeAt
          (encodeMetadata (blockItems blockSize diskSize)) index =
            (0x10000 + index * 8, 0x10000 + index * 8 + 8) := by
    intro index item found lengthEq
    obtain ⟨-, offset, length⟩ := itemEntry_fields fits found
    have indexLt : index < 2 := (List.getElem?_eq_some_iff.mp found).1
    rw [itemRangeAt, offset, length, lengthEq, saturatingAdd32, min_eq_left (by
      unfold itemsOffset
      omega)]
    rfl
  rw [itemRanges, count]
  change [itemRangeAt _ 0, itemRangeAt _ 1] = _
  rw [range 0 _ rfl rfl, range 1 _ rfl rfl]

/-- Nothing is found about the items. -/
theorem fullPlan_metadataFindings
    (standard : image.IsStandard (blockItems 0x100000 0x100000)
      (fullTable first) []) (sorting : UnstableSort (Nat × Nat) Prod.fst) :
    metadataFindings sorting image.bytes image.regions = [] := by
  have itemsFit := @blockItems_fit 0x100000 0x100000 (by decide) (by decide)
  have region : window image.bytes 0x200000 metadataRegionSize =
      encodeMetadata (blockItems 0x100000 0x100000) := by
    have held := (fullPlan_quiet first).fits.holds_region
      (show (0x200000, encodeMetadata (blockItems 0x100000 0x100000)) ∈
        (fullPlan first).regions from List.mem_cons_self)
    rw [standard.bytes_eq]
    rwa [length_encodeMetadata] at held
  have ranges := itemRanges_blockItems itemsFit
  have beyond : (List.range (min (metadataEntryCount
      (encodeMetadata (blockItems 0x100000 0x100000))) 2048)).flatMap
        (beyondRegion (encodeMetadata (blockItems 0x100000 0x100000))
          metadataRegionSize) = [] := by
    rw [List.flatMap_eq_nil_iff]
    intro index member
    have inside : itemRangeAt
        (encodeMetadata (blockItems 0x100000 0x100000)) index ∈
          itemRanges (encodeMetadata (blockItems 0x100000 0x100000)) :=
      List.mem_map_of_mem member
    rw [ranges] at inside
    unfold beyondRegion
    generalize itemRangeAt
      (encodeMetadata (blockItems 0x100000 0x100000)) index = range at inside
    rcases List.mem_pair.mp inside with rfl | rfl <;> rfl
  have overlaps : ((sorting.run [(0x10000, 0x10008), (0x10008, 0x10010)]).zip
      (sorting.run [(0x10000, 0x10008), (0x10008, 0x10010)]).tail).flatMap
        itemOverlap = [] := by
    rw [List.flatMap_eq_nil_iff]
    intro pair member
    have distinct := (nodup_map_key_iff (sorting.ordered _)).mp
      (((sorting.perm [(0x10000, 0x10008), (0x10008, 0x10010)]).map
        Prod.fst).nodup_iff.mpr (by decide)) pair member
    have left := sorting.mem_run.mp (List.of_mem_zip member).1
    have right := sorting.mem_run.mp
      (List.mem_of_mem_tail (List.of_mem_zip member).2)
    obtain ⟨one, other⟩ := pair
    rcases List.mem_pair.mp left with rfl | rfl <;>
      rcases List.mem_pair.mp right with rfl | rfl <;>
        first
        | rfl
        | exact absurd rfl distinct
  have items : itemRangeFindings sorting image.bytes 0x200000
      metadataRegionSize = [] := by
    unfold itemRangeFindings
    dsimp only
    rw [region, ranges, beyond, overlaps, List.append_nil, ite_self]
  rw [standard.regions_eq, metadataFindings]
  change _ ++ itemRangeFindings sorting image.bytes 0x200000
    metadataRegionSize ++ _ ++ _ ++ _ = []
  rw [items, length_fullTable, ← fullRegions]
  have flags : flagFindings fullRegions = [] := rfl
  have blockSize : blockSizeFindings fullRegions.blockSize = [] := by
    change blockSizeFindings (some 0x100000) = []
    decide
  have sectorSize : logicalSsFindings fullRegions.logicalSs = [] := rfl
  have diskSize : vdiskSizeFindings fullRegions.vdiskSize
      fullRegions.logicalSs = [] := by
    change vdiskSizeFindings (some 0x100000) none = []
    decide
  rw [flags, blockSize, sectorSize, diskSize]
  rfl

section Unmapped

variable
  (standard : image.IsStandard (blockItems 0x100000 0x100000)
    (fullTable first) [])
  (small : first < 2 ^ 64)
  (unmapped : Bat.stateOf first ≠ Bat.payloadBlockFullyPresent)

include standard small unmapped

/-- No entry of the table is mapped. -/
theorem fullTable_unmapped {i : Nat} (inside : i < 0x20000) :
    Bat.stateOf (entryAt image.bytes image.regions i) ≠
      Bat.payloadBlockFullyPresent := by
  rw [fullTable_entryAt standard small inside]
  split
  · exact unmapped
  · decide

/-- No finding is about a block of the table if none is about its first
entry. -/
theorem fullPlan_batFindings
    (unreported : stateFindings false 0 (Bat.stateOf first) = [])
    (sorting : UnstableSort (Nat × Nat) Prod.fst) :
    batFindings sorting image.bytes image.regions = [] := by
  have entryCount : entryCountOf image.regions = 0x20000 :=
    standard.entryCount_eq.trans (length_fullTable first)
  have regionsEq : image.regions = fullRegions := by
    rw [standard.regions_eq, length_fullTable, fullRegions]
  have present : presentEntries image.bytes image.regions = [] := by
    rw [presentEntries, List.filterMap_eq_nil_iff]
    intro i member
    rw [entryCount, List.mem_range] at member
    exact if_neg fun recorded =>
      fullTable_unmapped standard small unmapped member recorded.1.2
  have sorted : sorting.run (presentEntries image.bytes image.regions) =
      [] := by
    rw [present]
    exact (sorting.perm []).eq_nil
  have scan : scanFindings image.bytes image.regions = [] := by
    rw [scanFindings, List.flatMap_eq_nil_iff]
    intro i member
    rw [entryCount, List.mem_range] at member
    have stored := fullTable_entryAt standard small member
    have notMapped := fullTable_unmapped standard small unmapped member
    have ratio : image.regions.chunkRatio = some 4096 := by
      rw [regionsEq]
      rfl
    have single : image.regions.hasParent = false := by
      rw [regionsEq]
      rfl
    unfold entryFindings
    dsimp only
    rw [if_neg notMapped, stored, single]
    by_cases start : i = 0
    · subst start
      have payload : ¬ BitmapSlot image.regions 0 := by
        rw [bitmapSlot_iff ratio]
        decide
      rw [if_neg payload, if_pos rfl]
      exact unreported
    · rw [if_neg start]
      split <;> rfl
  have blockSize : fullRegions.blockSize = some 0x100000 := rfl
  have diskSize : fullRegions.vdiskSize = some 0x100000 := rfl
  have chunkRatio : fullRegions.chunkRatio = some 4096 := rfl
  have length : fullRegions.batLength = 0x100000 := rfl
  have size : sizeFindings fullRegions 0x20000 = [] := by
    simp only [sizeFindings, blockSize, diskSize, chunkRatio, length]
    decide
  have coverage : coverageFindings fullRegions [] 0x20000 = [] := by
    simp only [coverageFindings, blockSize, diskSize, chunkRatio]
    decide
  rw [batFindings, sorted, scan, entryCount, regionsEq]
  dsimp only
  rw [size, coverage]
  exact ite_self _

/-- Behind the table the container is empty. -/
theorem fullPlan_tailFindings :
    tailFindings image.bytes image.regions = [] := by
  have regionsEq : image.regions = fullRegions := by
    rw [standard.regions_eq, length_fullTable, fullRegions]
  have blockSize : image.regions.blockSize = some 0x100000 := by
    rw [regionsEq]
    rfl
  have entryCount : entryCountOf image.regions = 0x20000 :=
    standard.entryCount_eq.trans (length_fullTable first)
  have behind : assumedEnd image.bytes image.regions 0x100000 =
      0x400000 := by
    rcases @lastEnd_assumedEnd image.bytes image.regions 0x100000 (by decide)
      with greatest | ⟨-, tableEnd⟩
    · obtain ⟨i, iLt, mapped, -⟩ := greatest.1
      have counted : readableEntries image.bytes image.regions ≤
          entryCountOf image.regions := Nat.min_le_left _ _
      exact absurd mapped
        (fullTable_unmapped standard small unmapped (by omega))
    · rw [tableEnd, regionsEq]
      decide
  have zeros : ZeroRange image.bytes 0x400000 0x600000 := by
    rw [standard.bytes_eq]
    exact zeroRange_standardPlan _ (length_fullTable first).le
  have nothing : anyNonzero (imageTail image.bytes 0x400000) = false := by
    rw [imageTail, standard.length_eq]
    exact (anyNonzero_eq_false_iff (by rw [standard.length_eq]) (by decide)).mpr
      zeros
  rw [tailFindings, blockSize]
  dsimp only
  rw [trailingFindings, behind, nothing]
  rfl

/-- Nothing is found about the container. -/
theorem fullPlan_auditFindings
    (unreported : stateFindings false 0 (Bat.stateOf first) = [])
    (orders : SortOrders) : auditFindings orders image.bytes = [] := by
  have remaining := @ContainerPlan.Quiet.auditFindings_eq _
    (fullPlan_quiet first) orders (fullPlan_layoutFindings first)
  have sameBytes : image.bytes = (fullPlan first).container :=
    standard.bytes_eq
  rw [← sameBytes, image.parsedRegions_eq] at remaining
  rw [remaining, regionFindings, fullPlan_metadataFindings standard,
    fullPlan_batFindings standard small unmapped unreported,
    fullPlan_tailFindings standard small unmapped]
  rfl

end Unmapped

end FullTable

end VhdxForensic
