import VhdxForensic.Forensic.Integrity

/-!
# Reserved areas of the first megabyte

Four checks look for bytes in areas that a container leaves zero. Together
their ranges are all of the reserved space, except that only one copy of the
region table is looked at.
-/

namespace VhdxForensic

open Rust Rust.Bytes Rust.Exec

/-! ## Areas of zeros -/

/-- The bytes from `start` up to `stop` exist and are zero. -/
def ZeroRange (data : Bytes) (start stop : Nat) : Prop :=
  window data start (stop - start) = List.replicate (stop - start) 0

instance (data : Bytes) (start stop : Nat) :
    Decidable (ZeroRange data start stop) :=
  inferInstanceAs (Decidable (_ = _))

section ZeroRange

variable {data : Bytes} {start stop : Nat}

theorem eq_replicate_zero_iff {block : Bytes} {count : Nat}
    (length : block.length = count) :
    block = List.replicate count 0 ↔ ∀ byte ∈ block, byte = 0 := by
  rw [List.eq_replicate_iff]
  exact and_iff_right length

/-- A range is zero if all bytes of its window are. -/
theorem zeroRange_iff (inside : stop ≤ data.length) (ordered : start ≤ stop) :
    ZeroRange data start stop ↔
      ∀ byte ∈ window data start (stop - start), byte = 0 :=
  eq_replicate_zero_iff (length_window_of_le (by omega))

/-- The check of a window is the check of the range. -/
theorem anyNonzero_eq_false_iff (inside : stop ≤ data.length)
    (ordered : start ≤ stop) :
    anyNonzero (window data start (stop - start)) = false ↔
      ZeroRange data start stop := by
  rw [zeroRange_iff inside ordered, anyNonzero]
  simp

/-- An integer is zero if and only if its bytes are. -/
theorem le_eq_zero_iff {width : Nat} (inside : start + width ≤ data.length) :
    le width data start = 0 ↔ ZeroRange data start (start + width) := by
  have length := length_window_of_le inside
  rw [le_eq_decode inside, ZeroRange, Nat.add_sub_cancel_left]
  constructor
  · intro zero
    have bytes := encodeLe_decodeLe (window data start width)
    have zeros := encodeLe_decodeLe (List.replicate width 0)
    rw [length, zero] at bytes
    rw [decodeLe_replicate_zero, List.length_replicate] at zeros
    exact bytes.symm.trans zeros
  · intro zeros
    rw [zeros, decodeLe_replicate_zero]

end ZeroRange

/-- Masking out bit 0 of a word leaves zero if bits 1 to 31 are zero. -/
theorem reservedBits_eq_zero_iff {word : Nat} (wordLt : word < 2 ^ 32) :
    word &&& 0xFFFFFFFE = 0 ↔
      ∀ bit, 1 ≤ bit → bit < 32 → word.testBit bit = false := by
  have mask : ∀ bit < 32, Nat.testBit 0xFFFFFFFE bit = decide (1 ≤ bit) := by
    decide
  constructor
  · intro masked bit lower upper
    have both := congrArg (fun n => n.testBit bit) masked
    simpa [mask bit upper, lower] using both
  · intro zeros
    apply Nat.eq_of_testBit_eq
    intro bit
    rw [Nat.testBit_and, Nat.zero_testBit]
    by_cases upper : bit < 32
    · rw [mask bit upper]
      by_cases lower : 1 ≤ bit
      · rw [zeros bit lower upper, Bool.false_and]
      · simp [lower]
    · have large : 2 ^ 32 ≤ 2 ^ bit := Nat.pow_le_pow_right (by decide)
        (by omega)
      rw [Nat.testBit_lt_two_pow (wordLt.trans_le large), Bool.false_and]

/-! ## The reserved space -/

/-- The `index`-th entry is declared and fits into the table. -/
def DeclaredEntry (data : Bytes) (offset index : Nat) : Prop :=
  index < min (leU32 data (offset + 8)) 2048 ∧
    16 + index * regionEntrySize + regionEntrySize ≤ regionTableCrcCoverage

/-- Word of an entry of which only bit 0 has a meaning. -/
def requiredWord (data : Bytes) (offset index : Nat) : Nat :=
  leU32 data (offset + (16 + index * regionEntrySize) + 28)

/-- Reserved fields of the region table at `offset` are zero. -/
structure TableReservedZero (data : Bytes) (offset : Nat) : Prop where
  /-- The reserved bytes of the table header are zero. -/
  header : ZeroRange data (offset + 12) (offset + 16)
  /-- So are all bits of a flag word but the first one. -/
  entries : ∀ index, DeclaredEntry data offset index →
    ∀ bit, 1 ≤ bit → bit < 32 →
      (requiredWord data offset index).testBit bit = false

/-- Reserved areas outside of the region tables are zero. -/
structure AreasZero (data : Bytes) : Prop where
  /-- The rest of the file identifier block. -/
  identifier : ZeroRange data 512 0x10000
  /-- The reserved bytes of the header copies. -/
  headers : ∀ offset ∈ [header1Offset, header2Offset],
    ZeroRange data (offset + 80) (offset + headerSize)
  /-- The slots behind the header copies. -/
  slots : ∀ offset ∈ [header1Offset, header2Offset],
    ZeroRange data (offset + headerSize) (offset + 0x10000)
  /-- The rest of the first MiB. -/
  rest : ZeroRange data 0x50000 0x100000

/-! ## Findings about reserved areas -/

/-- Findings about reserved areas of the first megabyte. -/
def VhdxIntegrityAnomaly.aboutReserved : VhdxIntegrityAnomaly → Bool
  | fileIdentifierReservedNonZero .. | headerReservedNonZero ..
  | interRegionGapNonZero .. | regionTableReservedNonZero .. => true
  | _ => false

/-- No finding is about a reserved area. -/
def NoReserved (findings : Findings) : Prop :=
  ∀ finding ∈ findings, finding.aboutReserved = false

section NoReserved

variable {findings more : Findings} {finding : VhdxIntegrityAnomaly}

@[simp] theorem noReserved_nil : NoReserved [] := by
  simp [NoReserved]

@[simp] theorem noReserved_cons :
    NoReserved (finding :: findings) ↔
      finding.aboutReserved = false ∧ NoReserved findings := by
  simp [NoReserved]

@[simp] theorem noReserved_append :
    NoReserved (findings ++ more) ↔
      NoReserved findings ∧ NoReserved more := by
  simp [NoReserved, or_imp, forall_and]

theorem noReserved_flatMap {α : Type} {items : List α}
    {batch : α → Findings} :
    NoReserved (items.flatMap batch) ↔
      ∀ item ∈ items, NoReserved (batch item) := by
  simp only [NoReserved, List.mem_flatMap]
  constructor
  · intro all item member finding inBatch
    exact all finding ⟨item, member, inBatch⟩
  · rintro all finding ⟨item, member, inBatch⟩
    exact all item member finding inBatch

@[simp] theorem noReserved_ite {condition : Prop} [Decidable condition] :
    NoReserved (if condition then findings else more) ↔
      (condition → NoReserved findings) ∧
        (¬ condition → NoReserved more) := by
  by_cases holds : condition
  · simp [holds]
  · simp [holds]

/-- A finding that depends on a condition is about a reserved area. -/
theorem noReserved_singleton_ite {condition : Prop} [Decidable condition]
    (reserved : finding.aboutReserved = true) :
    NoReserved (if condition then [finding] else []) ↔ ¬ condition := by
  simp [reserved]

/-- Four checks report findings about reserved areas. -/
theorem origin_of_aboutReserved (reserved : finding.aboutReserved = true) :
    finding.origin = some .identifier ∨ finding.origin = some .gaps ∨
      finding.origin = some .headers ∨ finding.origin = some .layout := by
  cases finding <;> simp_all [VhdxIntegrityAnomaly.aboutReserved]

/-- The other checks report nothing about reserved areas. -/
theorem FromCheck.noReserved {check : Check}
    (from_ : FromCheck check findings)
    (other : check ∉ [Check.identifier, .gaps, .headers, .layout]) :
    NoReserved findings := by
  intro finding member
  have origin := from_ finding member
  by_contra reserved
  rw [Bool.not_eq_false] at reserved
  have known := origin_of_aboutReserved reserved
  rw [origin] at known
  exact other (by simpa using known)

end NoReserved

/-! ## What the checks cover -/

/-- An image of 1 MiB or more with intact fixed blocks. -/
structure FramedImage extends Buffer where
  /-- The image has the minimum size of the analyser. -/
  large : 0x100000 ≤ bytes.length
  /-- It starts with the magic. -/
  magic : window bytes 0 8 = fileMagic
  /-- The first header copy is valid. -/
  header1 : HeaderValid bytes header1Offset
  /-- The second header copy is valid. -/
  header2 : HeaderValid bytes header2Offset
  /-- The first region table is valid. -/
  table1 : RegionTableValid bytes regionTable1Offset
  /-- The second region table is valid. -/
  table2 : RegionTableValid bytes regionTable2Offset

section Coverage

variable {data : Bytes}

/-- Nothing is reported of the file identifier exactly if its rest is zero. -/
theorem noReserved_identifierFindings (large : 0x10000 ≤ data.length) :
    NoReserved (identifierFindings data) ↔ ZeroRange data 512 0x10000 := by
  rw [identifierFindings, if_neg (by omega), reservedFindings,
    zeroRange_iff (by omega) (by decide)]
  cases first : (window data 512 (0x10000 - 512)).findIdx?
      (fun byte => byte ≠ 0) with
  | none =>
      refine iff_of_true noReserved_nil fun byte member => ?_
      simpa using List.findIdx?_eq_none_iff.mp first byte member
  | some pos =>
      refine iff_of_false (by simp [VhdxIntegrityAnomaly.aboutReserved]) ?_
      intro zeros
      have none : (window data 512 (0x10000 - 512)).findIdx?
          (fun byte => byte ≠ 0) = none :=
        List.findIdx?_eq_none_iff.mpr fun byte member => by
          simp [zeros byte member]
      rw [none] at first
      cases first

/-- Nothing is reported of gaps exactly if they are zero. -/
theorem noReserved_presentGaps {gaps : List (String × String × Nat × Nat)}
    (present : ∀ gap ∈ gaps,
      gap.2.2.1 ≤ gap.2.2.2 ∧ gap.2.2.2 ≤ data.length) :
    NoReserved (presentGaps data gaps) ↔
      ∀ gap ∈ gaps, ZeroRange data gap.2.2.1 gap.2.2.2 := by
  induction gaps with
  | nil => simp [presentGaps]
  | cons gap gaps inductionHypothesis =>
      obtain ⟨fromRegion, toRegion, gapStart, gapEnd⟩ := gap
      have rest := inductionHypothesis
        fun later member => present later (List.mem_cons_of_mem _ member)
      obtain ⟨ordered, inside⟩ := present _ List.mem_cons_self
      dsimp only at ordered inside
      rw [presentGaps, if_neg (by omega), List.forall_mem_cons, ← rest,
        ← anyNonzero_eq_false_iff inside ordered]
      by_cases found :
          anyNonzero (window data gapStart (gapEnd - gapStart)) = true
      · rw [if_pos found]
        simp [VhdxIntegrityAnomaly.aboutReserved, found]
      · rw [if_neg found]
        simp [found]

/-- Nothing is reported between the regions exactly if all bytes there are
zero. -/
theorem noReserved_interRegionFindings (large : 0x100000 ≤ data.length) :
    NoReserved (interRegionFindings data) ↔
      (∀ offset ∈ [header1Offset, header2Offset],
        ZeroRange data (offset + headerSize) (offset + 0x10000)) ∧
        ZeroRange data 0x50000 0x100000 := by
  have ends : ∀ gap ∈ fixedGaps,
      gap.2.2.1 ≤ gap.2.2.2 ∧ gap.2.2.2 ≤ 0x100000 := by
    decide
  rw [interRegionFindings, if_neg (by omega), noReserved_presentGaps
    fun gap member => ⟨(ends gap member).1, (ends gap member).2.trans large⟩]
  simp only [fixedGaps, List.forall_mem_cons, List.not_mem_nil,
    false_imp_iff, implies_true, and_true, and_assoc]
  exact Iff.rfl

/-- Nothing is reported of a header copy exactly if its reserved bytes are
zero. -/
theorem noReserved_copyReservedFindings {copy : Nat}
    (valid : HeaderValid data (headerOffset copy)) :
    NoReserved (copyReservedFindings data copy) ↔
      ZeroRange data (headerOffset copy + 80)
        (headerOffset copy + headerSize) := by
  have size : headerSize = 4096 := rfl
  have count : headerOffset copy + headerSize - (headerOffset copy + 80) =
      headerSize - 80 := by
    omega
  rw [copyReservedFindings, if_pos (headerCrcFinding_eq_none_iff.mpr valid),
    headerReservedFindings, ← anyNonzero_eq_false_iff valid.1 (by omega),
    count]
  simp [VhdxIntegrityAnomaly.aboutReserved]

theorem noReserved_headerPairFindings (h1 h2 : Bytes) :
    NoReserved (headerPairFindings h1 h2) := by
  simp [headerPairFindings, VhdxIntegrityAnomaly.aboutReserved]

theorem noReserved_activeFindings : NoReserved (activeFindings data) := by
  unfold activeFindings
  split
  · exact noReserved_nil
  · simp [activeHeaderFindings, logPointerFindings,
      VhdxIntegrityAnomaly.aboutReserved]

/-- Nothing is reported of the headers exactly if the reserved bytes of both
are zero. -/
theorem noReserved_headerFindings
    (valid1 : HeaderValid data header1Offset)
    (valid2 : HeaderValid data header2Offset) :
    NoReserved (headerFindings data) ↔
      ∀ offset ∈ [header1Offset, header2Offset],
        ZeroRange data (offset + 80) (offset + headerSize) := by
  have first : headerCrcFinding data 1 = none :=
    headerCrcFinding_eq_none_iff.mpr valid1
  have second : headerCrcFinding data 2 = none :=
    headerCrcFinding_eq_none_iff.mpr valid2
  have reserved1 := @noReserved_copyReservedFindings data 1 valid1
  have reserved2 := @noReserved_copyReservedFindings data 2 valid2
  rw [headerFindings]
  simp only [first, second, Option.isSome_none, Option.isNone_none,
    Option.toList_none, noReserved_append, noReserved_ite,
    noReserved_headerPairFindings, noReserved_activeFindings, reserved1,
    reserved2]
  simp [headerOffset]

/-- Nothing is reported of an entry exactly if all but the first of its flag
bits are zero. -/
theorem noReserved_layoutAt {copy index : Nat} :
    NoReserved (layoutAt data copy index).1 ↔
      ∀ bit, 1 ≤ bit → bit < 32 →
        (requiredWord data (rtOffset copy) index).testBit bit = false := by
  have wordLt : requiredWord data (rtOffset copy) index < 2 ^ 32 :=
    le_lt 4 _ _
  rw [← reservedBits_eq_zero_iff wordLt, layoutAt, layoutEntry, requiredWord]
  dsimp only
  split
  · simp [reservedWordFindings, VhdxIntegrityAnomaly.aboutReserved]
  · simp [reservedWordFindings, VhdxIntegrityAnomaly.aboutReserved]

/-- The entries that are visited are those that are declared. -/
theorem declaredEntry_iff {offset index : Nat} :
    DeclaredEntry data offset index ↔
      index < visitedEntries data offset fittingEntries := by
  have width : regionEntrySize = 32 := rfl
  have coverage : regionTableCrcCoverage = 65536 := rfl
  have fitting : fittingEntries = 2047 := rfl
  have scaled : index * regionEntrySize = index * 32 := rfl
  unfold DeclaredEntry visitedEntries
  omega

theorem noReserved_pairwiseOverlaps (known : List KnownRegion) :
    NoReserved (pairwiseOverlaps known) := by
  induction known with
  | nil => exact noReserved_nil
  | cons region later inductionHypothesis =>
      rw [pairwiseOverlaps, noReserved_append, noReserved_flatMap]
      refine ⟨fun other _ => ?_, inductionHypothesis⟩
      simp [regionOverlaps, VhdxIntegrityAnomaly.aboutReserved]

theorem noReserved_activeLogOverlaps :
    NoReserved (activeLogOverlaps data) := by
  unfold activeLogOverlaps
  split
  · exact noReserved_nil
  · simp [logOverlaps, noReserved_flatMap, VhdxIntegrityAnomaly.aboutReserved]

/-- The layout check covers the copy that it looks at. -/
theorem noReserved_copyLayoutFindings {copy : Nat}
    (valid : RegionTableValid data (rtOffset copy)) :
    NoReserved (copyLayoutFindings data copy) ↔
      TableReservedZero data (rtOffset copy) := by
  have present := valid.1
  have coverage : regionTableCrcCoverage = 65536 := rfl
  have header : NoReserved (reservedWordFindings copy "header"
      (leU32 data (rtOffset copy + 12))) ↔
        ZeroRange data (rtOffset copy + 12) (rtOffset copy + 16) := by
    rw [reservedWordFindings, noReserved_singleton_ite rfl, not_not]
    exact le_eq_zero_iff (by omega)
  have whole : TableReservedZero data (rtOffset copy) ↔
      ZeroRange data (rtOffset copy + 12) (rtOffset copy + 16) ∧
        ∀ index < visitedEntries data (rtOffset copy) fittingEntries,
          ∀ bit, 1 ≤ bit → bit < 32 →
            (requiredWord data (rtOffset copy) index).testBit bit = false := by
    simp only [← declaredEntry_iff]
    exact ⟨fun zero => ⟨zero.header, zero.entries⟩,
      fun zero => ⟨zero.1, zero.2⟩⟩
  rw [whole, copyLayoutFindings]
  by_cases empty : leU32 data (rtOffset copy + 8) = 0
  · have none : visitedEntries data (rtOffset copy) fittingEntries = 0 := by
      unfold visitedEntries
      omega
    rw [if_pos empty, noReserved_append, header, none]
    simp [VhdxIntegrityAnomaly.aboutReserved]
  · rw [if_neg empty]
    simp only [noReserved_append, header, noReserved_flatMap, List.mem_range,
      noReserved_layoutAt, noReserved_pairwiseOverlaps,
      noReserved_activeLogOverlaps, and_true]

end Coverage

/-! ## Runs of the analysis -/

namespace FramedImage

variable (image : FramedImage) {orders : SortOrders}

/-- A framed image is analysed beyond its magic. -/
theorem auditFindings_eq :
    auditFindings orders image.bytes = deepFindings orders image.bytes := by
  have large := image.large
  have minimum : analyserMinContainerSize = 0x50000 := rfl
  have readable : fileMagicFindings image.bytes = [] := by
    rw [fileMagicFindings, if_neg (by omega),
      if_neg (not_not_intro image.magic)]
  have tables : .bothRegionTableCopiesInvalid ∉ frontFindings image.bytes :=
    fun both => (bothTablesInvalid_iff.mp both).1 image.table1
  rw [auditFindings, if_neg (not_not_intro readable), if_neg tables]

/-- Behind the regions nothing about reserved areas is reported. -/
theorem noReserved_regionFindings :
    NoReserved (regionFindings orders image.bytes
      (parsedRegions image.bytes)) := by
  cases parsedRegions image.bytes with
  | none => exact noReserved_nil
  | some r =>
      have trailing : NoReserved (tailFindings image.bytes r) := by
        unfold tailFindings
        split
        · exact noReserved_nil
        · have findings := fromCheck_trailingFindings image.bytes r
          exact noReserved_ite.mpr
            ⟨fun _ => (findings _).noReserved (by decide),
              fun _ => noReserved_nil⟩
      simp only [regionFindings, noReserved_append]
      exact ⟨⟨(fromCheck_metadataFindings _ _ _).noReserved (by decide),
        (fromCheck_batFindings _ _ _).noReserved (by decide)⟩, trailing⟩

/-- What an analysis without findings about reserved areas has seen. -/
theorem noReserved_auditFindings :
    NoReserved (auditFindings orders image.bytes) ↔
      AreasZero image.bytes ∧
        TableReservedZero image.bytes regionTable1Offset := by
  have large := image.large
  have tables : NoReserved (regionTableFindings image.bytes) :=
    (fromCheck_regionTableFindings _).noReserved (by decide)
  have log : NoReserved
      (if LogWalked image.bytes then logFindings image.bytes else []) :=
    noReserved_ite.mpr ⟨fun _ => (fromCheck_logFindings _).noReserved
      (by decide), fun _ => noReserved_nil⟩
  have layout : layoutFindings image.bytes =
      copyLayoutFindings image.bytes 1 := if_pos image.table1
  have first := @noReserved_copyLayoutFindings image.bytes 1 image.table1
  have regions := @noReserved_regionFindings image orders
  rw [image.auditFindings_eq, deepFindings, frontFindings, layout]
  simp only [noReserved_append, noReserved_identifierFindings
    (show 0x10000 ≤ image.bytes.length by omega),
    noReserved_interRegionFindings large,
    noReserved_headerFindings image.header1 image.header2, tables, log,
    regions, first, and_true]
  constructor
  · rintro ⟨⟨⟨identifier, slots, rest⟩, headers⟩, table⟩
    exact ⟨⟨identifier, headers, slots, rest⟩, table⟩
  · rintro ⟨⟨identifier, headers, slots, rest⟩, table⟩
    exact ⟨⟨⟨identifier, slots, rest⟩, headers⟩, table⟩

/-- If the checked areas are zero, nothing about reserved areas is reported.
-/
theorem exists_unreported (fits : AnalysisFits image.bytes)
    (areas : AreasZero image.bytes)
    (table1 : TableReservedZero image.bytes regionTable1Offset) :
    ∃ findings, analyse stableOrders image.bytes = .ok findings ∧
      NoReserved findings :=
  ⟨_, analyse_eq_ok image.allocated fits,
    image.noReserved_auditFindings.mpr ⟨areas, table1⟩⟩

/-- An analysis that reports no reserved area has seen that all of them are
zero. -/
def HidesNothing : Prop :=
  ∀ orders findings, analyse orders image.bytes = .ok findings →
    NoReserved findings →
      AreasZero image.bytes ∧
        ∀ offset ∈ [regionTable1Offset, regionTable2Offset],
          TableReservedZero image.bytes offset

/-- Reserved fields of the second region table are the only hiding place. -/
theorem hidesNothing_iff :
    image.HidesNothing ↔
      (AnalysisFits image.bytes → AreasZero image.bytes →
        TableReservedZero image.bytes regionTable1Offset →
          TableReservedZero image.bytes regionTable2Offset) := by
  constructor
  · intro hides fits areas table1
    obtain ⟨findings, returned, unreported⟩ :=
      image.exists_unreported fits areas table1
    exact (hides _ _ returned unreported).2 _ (by simp)
  · intro seen orders findings returned unreported
    have fits := (settles_analyse_iff image.allocated).mp
      (Settles.of_eq_ok returned)
    rw [analyse_eq_ok image.allocated fits] at returned
    cases returned
    obtain ⟨areas, table1⟩ := image.noReserved_auditFindings.mp unreported
    refine ⟨areas, fun offset member => ?_⟩
    rcases List.mem_pair.mp member with rfl | rfl
    · exact table1
    · exact seen fits areas table1

end FramedImage

/-! ## A table that hides a byte -/

section Layouts

variable {size start stop : Nat} {pieces inner : List Run}

/-- A range that no piece touches is zero. -/
theorem zeroRange_layout (ordered : start ≤ stop) (inside : stop ≤ size)
    (missed : ∀ piece ∈ pieces,
      piece.1 + piece.2.length ≤ start ∨ stop ≤ piece.1) :
    ZeroRange (layout size pieces) start stop := by
  apply window_layout_gap (by omega)
  intro piece member
  have apart := missed piece member
  omega

/-- A gap inside a checksummed piece. -/
theorem zeroRange_sealedPiece {off count : Nat}
    (apart : pieces.Pairwise Run.Apart)
    (member : (off, sealBlock (layout count inner)) ∈ pieces)
    (inside : off + count ≤ size) (afterSum : 8 ≤ start)
    (ordered : start ≤ stop) (within : stop ≤ count)
    (missed : ∀ piece ∈ inner,
      piece.1 + piece.2.length ≤ start ∨ stop ≤ piece.1) :
    ZeroRange (layout size pieces) (off + start) (off + stop) := by
  have present : 8 ≤ (layout count inner).length := by
    rw [length_layout]
    omega
  have length := length_sealBlock present
  rw [length_layout] at length
  have gap := zeroRange_layout ordered within missed
  have shown : window (layout size pieces) (off + start) (stop - start) =
      window (sealBlock (layout count inner)) start (stop - start) :=
    window_layout_within apart member (by omega) (by omega)
  rw [ZeroRange, show off + stop - (off + start) = stop - start by omega,
    shown, window_sealBlock present (by omega)]
  exact gap

end Layouts

/-- An empty region table with a byte in its reserved field. -/
def hidingTable : Bytes :=
  sealBlock (layout regionTableCrcCoverage
    [(0, regionTableSignature), (12, [1])])

/-- The fixed blocks of a container whose tables are empty. -/
def hidingPieces : List Run :=
  [(0, fileMagic), (header1Offset, encodeHeader (cleanHeader 1)),
    (header2Offset, encodeHeader (cleanHeader 2)),
    (regionTable1Offset, encodeRegionTable []),
    (regionTable2Offset, hidingTable)]

/-- A container of 1 MiB with a hidden byte. -/
def hidingContainer : Bytes := layout 0x100000 hidingPieces

namespace HidingContainer

theorem length_container : hidingContainer.length = 0x100000 :=
  length_layout _ _

theorem length_hidingTable : hidingTable.length = regionTableCrcCoverage := by
  rw [hidingTable, length_sealBlock (by rw [length_layout]; decide),
    length_layout]

theorem pieces_apart : hidingPieces.Pairwise Run.Apart := by
  simp [hidingPieces, Run.Apart, length_hidingTable, fileMagic,
    header1Offset, header2Offset, regionTable1Offset, regionTable2Offset,
    headerSize, regionTableCrcCoverage]

/-- The second region table carries its checksum. -/
theorem hidingTable_valid :
    RegionTableValid hidingContainer regionTable2Offset := by
  have present : 8 ≤ (layout regionTableCrcCoverage
      [(0, regionTableSignature), (12, [1])]).length := by
    rw [length_layout]
    decide
  have signed : window (layout regionTableCrcCoverage
      [(0, regionTableSignature), (12, [1])]) 0 4 = regionTableSignature :=
    window_layout (by simp [Run.Apart, regionTableSignature]) (by simp) rfl
      (by decide)
  have valid := blockValid_sealBlock present signed
  rw [length_layout, ← hidingTable] at valid
  have holds : window hidingContainer regionTable2Offset
      regionTableCrcCoverage = hidingTable :=
    window_layout pieces_apart (by simp [hidingPieces]) length_hidingTable
      (by decide)
  have same : window hidingContainer regionTable2Offset
      regionTableCrcCoverage =
        window hidingTable 0 regionTableCrcCoverage := by
    rw [holds, ← length_hidingTable, window_zero_length]
  exact (blockValid_congr (by decide) (by rw [length_container]; decide)
    (by rw [length_hidingTable]; decide) same).mpr valid

/-- A laid out header is valid, and its reserved bytes are zero. -/
theorem header_of_piece {offset sequenceNumber : Nat}
    (member : (offset, encodeHeader (cleanHeader sequenceNumber)) ∈
      hidingPieces)
    (inside : offset + headerSize ≤ 0x100000)
    (small : sequenceNumber < 2 ^ 64) :
    HeaderValid hidingContainer offset ∧
      ZeroRange hidingContainer (offset + 80) (offset + headerSize) := by
  have encodable : (cleanHeader sequenceNumber).Encodable :=
    cleanHeader_encodable small
  constructor
  · have holds : window hidingContainer offset headerSize =
        encodeHeader (cleanHeader sequenceNumber) :=
      window_layout pieces_apart member (length_encodeHeader _) inside
    exact (header_of_window encodable (by rwa [length_container]) holds).1
  · refine zeroRange_sealedPiece pieces_apart member inside (by decide)
      (by decide) le_rfl ?_
    simp [headerPieces, headerSignature, encodable.length_logGuid]

/-- The first region table is valid and declares nothing. -/
theorem emptyTable :
    RegionTableValid hidingContainer regionTable1Offset ∧
      leU32 hidingContainer (regionTable1Offset + 8) = 0 := by
  have holds : window hidingContainer regionTable1Offset
      regionTableCrcCoverage = encodeRegionTable [] :=
    window_layout pieces_apart (by simp [hidingPieces])
      (length_encodeRegionTable []) (by decide)
  obtain ⟨valid, stored, -⟩ := regionEntries_of_window ⟨by simp, by simp⟩
    (by rw [length_container]; decide) holds
  exact ⟨valid, stored⟩

theorem magic_eq : window hidingContainer 0 8 = fileMagic :=
  window_layout pieces_apart (by simp [hidingPieces]) rfl (by decide)

def image : FramedImage where
  bytes := hidingContainer
  allocated := by
    rw [length_container]
    decide
  large := length_container.symm.le
  magic := magic_eq
  header1 := (@header_of_piece header1Offset 1 (by simp [hidingPieces])
    (by decide) (by decide)).1
  header2 := (@header_of_piece header2Offset 2 (by simp [hidingPieces])
    (by decide) (by decide)).1
  table1 := emptyTable.1
  table2 := hidingTable_valid

/-- Places of the pieces. -/
def places : List (Nat × Nat) :=
  [(0, 8), (header1Offset, headerSize), (header2Offset, headerSize),
    (regionTable1Offset, regionTableCrcCoverage),
    (regionTable2Offset, regionTableCrcCoverage)]

theorem place_mem {piece : Run} (member : piece ∈ hidingPieces) :
    (piece.1, piece.2.length) ∈ places := by
  have magicLength : fileMagic.length = 8 := rfl
  have mapped : (hidingPieces.map fun piece => (piece.1, piece.2.length)) =
      places := by
    simp only [hidingPieces, List.map_cons, List.map_nil, magicLength,
      length_encodeHeader, length_encodeRegionTable, length_hidingTable]
    rfl
  rw [← mapped]
  exact List.mem_map_of_mem member

/-- Between the fixed blocks the container is zero. -/
theorem zeroRange_container {start stop : Nat} (ordered : start ≤ stop)
    (inside : stop ≤ 0x100000)
    (missed : ∀ place ∈ places,
      place.1 + place.2 ≤ start ∨ stop ≤ place.1) :
    ZeroRange hidingContainer start stop :=
  zeroRange_layout ordered inside fun _ member =>
    missed _ (place_mem member)

/-- All other reserved areas are zero. -/
theorem areasZero : AreasZero hidingContainer where
  identifier := zeroRange_container (by decide) (by decide) (by decide)
  headers := by
    intro offset member
    rcases List.mem_pair.mp member with rfl | rfl
    · exact (@header_of_piece _ 1 (by simp [hidingPieces]) (by decide)
        (by decide)).2
    · exact (@header_of_piece _ 2 (by simp [hidingPieces]) (by decide)
        (by decide)).2
  slots := by
    intro offset member
    rcases List.mem_pair.mp member with rfl | rfl
    · exact zeroRange_container (by decide) (by decide) (by decide)
    · exact zeroRange_container (by decide) (by decide) (by decide)
  rest := zeroRange_container (by decide) (by decide) (by decide)

/-- A table without entries has no entry with reserved bits. -/
theorem noEntries {offset : Nat}
    (empty : leU32 hidingContainer (offset + 8) = 0) (index : Nat) :
    ¬ DeclaredEntry hidingContainer offset index := by
  rintro ⟨declared, -⟩
  rw [empty] at declared
  omega

/-- The first region table has no reserved bits. -/
theorem table1Zero : TableReservedZero hidingContainer regionTable1Offset where
  header := by
    refine zeroRange_sealedPiece pieces_apart
      (show (regionTable1Offset, sealBlock (layout regionTableCrcCoverage
        (regionTablePieces []))) ∈ hidingPieces by
          simp [hidingPieces, encodeRegionTable])
      (by decide) (by decide) (by decide) (by decide) ?_
    simp [regionTablePieces, regionTableSignature]
  entries index declared := absurd declared (noEntries emptyTable.2 index)

/-- The hidden byte. -/
theorem hiddenByte :
    window hidingContainer (regionTable2Offset + 12) 1 = [1] := by
  have present : 8 ≤ (layout regionTableCrcCoverage
      [(0, regionTableSignature), (12, [1])]).length := by
    rw [length_layout]
    decide
  calc window hidingContainer (regionTable2Offset + 12) 1
      = window hidingTable 12 1 :=
        window_layout_within pieces_apart (by simp [hidingPieces])
          (by rw [length_hidingTable]; decide)
          (by rw [length_hidingTable]; decide)
    _ = window (layout regionTableCrcCoverage
        [(0, regionTableSignature), (12, [1])]) 12 1 :=
        window_sealBlock present (by decide)
    _ = [1] := window_layout (by simp [Run.Apart, regionTableSignature])
        (by simp) rfl (by decide)

/-- The second region table has some. -/
theorem table2_ne_zero :
    ¬ TableReservedZero hidingContainer regionTable2Offset := by
  rintro ⟨zeros, -⟩
  have first := congrArg (fun bytes => window bytes 0 1) zeros
  rw [window_window_of_le (by decide), Nat.add_zero, hiddenByte] at first
  exact absurd first (by decide)

/-- The tables name no region. -/
theorem parsedRegions_eq : parsedRegions hidingContainer = none := by
  have second : leU32 hidingContainer (regionTable2Offset + 8) = 0 := by
    have zeros : ZeroRange hidingContainer (regionTable2Offset + 8)
        (regionTable2Offset + 12) :=
      zeroRange_sealedPiece pieces_apart
        (show (regionTable2Offset, sealBlock (layout regionTableCrcCoverage
          [(0, regionTableSignature), (12, [1])])) ∈ hidingPieces by
            simp [hidingPieces, hidingTable])
        (by decide) (by decide) (by decide) (by decide)
        (by simp [regionTableSignature])
    exact (le_eq_zero_iff (by rw [length_container]; decide)).mpr zeros
  have named : ∀ offset, leU32 hidingContainer (offset + 8) = 0 →
      tableAnalysis hidingContainer offset = none := by
    intro offset empty
    unfold tableAnalysis resolvedRange visitedEntries
    rw [empty]
    split <;> rfl
  rw [parsedRegions, named _ emptyTable.2, named _ second]
  rfl

theorem bytes_image : image.bytes = hidingContainer := by
  rw [image]

theorem analysisFits : AnalysisFits image.bytes := by
  intro _ r parsed
  rw [bytes_image, parsedRegions_eq] at parsed
  cases parsed

/-- The analysis of the container reports no reserved area, although the
second table has a byte in one. -/
theorem hidden_unreported :
    (∃ findings, analyse stableOrders image.bytes = .ok findings ∧
        NoReserved findings) ∧
      window image.bytes (regionTable2Offset + 12) 1 = [1] ∧
      ¬ image.HidesNothing := by
  have areas : AreasZero image.bytes := by
    rw [bytes_image]
    exact areasZero
  have table1 : TableReservedZero image.bytes regionTable1Offset := by
    rw [bytes_image]
    exact table1Zero
  have table2 : ¬ TableReservedZero image.bytes regionTable2Offset := by
    rw [bytes_image]
    exact table2_ne_zero
  have byte : window image.bytes (regionTable2Offset + 12) 1 = [1] := by
    rw [bytes_image]
    exact hiddenByte
  obtain ⟨findings, returned, unreported⟩ :=
    image.exists_unreported analysisFits areas table1
  exact ⟨⟨findings, returned, unreported⟩, byte, fun hides =>
    table2 ((hides _ _ returned unreported).2 _ (by simp))⟩

end HidingContainer

end VhdxForensic
