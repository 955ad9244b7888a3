import VhdxForensic.Forensic.ServedView
import VhdxForensic.Forensic.SlotRoles
import VhdxForensic.Forensic.TableHealing

/-!
# The disk of a repaired image

A repaired image opens as before, and a byte that could be read before is read
back unless its block lies on a structure, the repair leaves it to a parent,
or it was served from a place that the repair writes.
-/

namespace VhdxForensic

open Rust Rust.Bytes Rust.Exec

/-! ## Regions apart from each other -/

/-- The regions share no byte with each other or with the fixed blocks. -/
structure RegionsApart (regions : RegionTable) : Prop where
  /-- The table shares no byte with the metadata or a fixed block. -/
  bat : ∀ range ∈ regions.metadata.range :: fixedRanges,
    ¬ Overlap regions.bat.range range
  /-- The metadata shares no byte with a fixed block. -/
  metadata : ∀ range ∈ fixedRanges, ¬ Overlap regions.metadata.range range

/-- The table and the metadata of this image lie apart, and the analysis
starts from what is decoded. -/
structure AuditedApart (data : Bytes) (regions : RegionTable)
    (r : ParsedRegions) : Prop where
  /-- The analysis does not stop at the magic. -/
  readable : fileMagicFindings data = []
  /-- What the analyser has decoded. -/
  parsed : parsedRegions data = some r
  /-- Analyser and reader use one table. -/
  bat_eq : (r.batOffset, r.batLength) = regions.bat.range
  /-- The table lies in the image. -/
  inside : regions.bat.Inside data.length
  /-- The regions share no bytes. -/
  apart : RegionsApart regions

theorem Overlap.symm {a b : Nat × Nat} (overlap : Overlap a b) :
    Overlap b a :=
  let ⟨index, first, second⟩ := overlap
  ⟨index, second, first⟩

/-- What is restored is a header copy or a region table. -/
theorem mem_fixedRanges_of_restored {data : Bytes} {place : Nat × Nat}
    (member : place ∈ restoredPlaces data) : place ∈ fixedRanges := by
  obtain ⟨issue, issueMember, found⟩ := List.mem_filterMap.mp member
  rcases List.mem_append.mp issueMember with header | table
  · obtain ⟨copy, known, places⟩ := place_of_mem_headerRepairs header
    obtain rfl := Option.some.inj ((places none).symm.trans found)
    exact mem_fixedRanges_header known
  · obtain ⟨copy, known, places⟩ := place_of_mem_tableRepairs table
    obtain rfl := Option.some.inj ((places none).symm.trans found)
    exact mem_fixedRanges_table known

section Apart

variable {data : Bytes} {regions : RegionTable} {r : ParsedRegions}

/-- An entry lies in the table. -/
theorem AuditedApart.overlap_bat (audited : AuditedApart data regions r)
    {range : Nat × Nat} {i : Nat} (iLt : i < entryCountOf r)
    (overlap : Overlap (r.batOffset + i * 8, 8) range) :
    Overlap regions.bat.range range := by
  obtain ⟨index, ⟨low, high⟩, inRange⟩ := overlap
  rw [← audited.bat_eq]
  unfold entryCountOf at iLt
  dsimp only at low high
  exact ⟨index, ⟨by dsimp only; omega, by dsimp only; omega⟩, inRange⟩

/-- The repaired entries spare the fixed blocks and the metadata. -/
theorem AuditedApart.entriesSpare (audited : AuditedApart data regions r)
    {range : Nat × Nat}
    (member : range ∈ regions.metadata.range :: fixedRanges) :
    EntriesSpare data range := by
  intro r' parsed _ i iLt _ overlap
  obtain rfl := Option.some.inj (audited.parsed.symm.trans parsed)
  exact audited.apart.bat range member (audited.overlap_bat iLt overlap)

/-- The restored blocks spare the table. -/
theorem AuditedApart.restoredSpare (audited : AuditedApart data regions r) :
    ∀ place ∈ restoredPlaces data,
      ¬ Overlap place (r.batOffset, entryCountOf r * 8) := by
  rintro place member ⟨index, inPlace, inTable⟩
  refine audited.apart.bat place (List.mem_cons_of_mem _
    (mem_fixedRanges_of_restored member)) ⟨index, ?_, inPlace⟩
  rw [← audited.bat_eq]
  unfold entryCountOf InRange at inTable
  dsimp only at inTable
  exact ⟨by dsimp only; omega, by dsimp only; omega⟩

theorem AuditedApart.fixedSpare (audited : AuditedApart data regions r) :
    ∀ range ∈ fixedRanges, EntriesSpare data range := fun _ member =>
  audited.entriesSpare (List.mem_cons_of_mem _ member)

/-- The metadata region is as before. -/
theorem AuditedApart.same_metadata (audited : AuditedApart data regions r) :
    SameRange (withEntries data) data regions.metadata.range := by
  refine (same_withEntries audited.readable
    (audited.entriesSpare List.mem_cons_self)).trans ?_
  exact same_withTables audited.readable fun place member overlap =>
    audited.apart.metadata place (mem_fixedRanges_of_restored member)
      overlap.symm

end Apart

/-! ## Opening the repaired image -/

/-- Restored tables are bounded. -/
theorem TablesBounded.of_restored {data out : Bytes}
    (bounded : TablesBounded data) (lengthEq : out.length = data.length)
    (inside : regionTable2Offset + regionTableCrcCoverage ≤ data.length)
    (restored : tableCopies.Restored data out) : TablesBounded out := by
  have source : ∀ copy, copy = 1 ∨ copy = 2 →
      RegionTableValid out (rtOffset copy) →
        ∃ other, (other = 1 ∨ other = 2) ∧
          RegionTableValid data (rtOffset other) ∧
          leU32 out (rtOffset copy + 8) = leU32 data (rtOffset other + 8) ∧
          ∀ count ≤ fittingEntries, regionEntries out (rtOffset copy) count =
            regionEntries data (rtOffset other) count := by
    intro copy known valid
    have otherKnown := @BlockCopies.source_cases tableCopies data copy known
    have otherValid := (restored.valid_source tableCopies_restorable lengthEq
      inside known).mp valid
    have congr := fun {count : Nat} (fits : count ≤ fittingEntries) =>
      regionEntries_congr (block_fits fits) valid.1 otherValid.1
        (restored copy known)
    exact ⟨_, otherKnown, otherValid, (congr (Nat.zero_le _)).1,
      fun count fits => (congr fits).2⟩
  constructor
  · intro copy known valid
    obtain ⟨other, otherKnown, otherValid, count, -⟩ := source copy known valid
    rw [count]
    exact bounded.count_le other otherKnown otherValid
  · intro copy known valid entry member
    obtain ⟨other, otherKnown, otherValid, count, entries⟩ :=
      source copy known valid
    have countLe := bounded.count_le other otherKnown otherValid
    rw [regionEntryCount, count, entries _ ((min_le_left _ _).trans countLe)]
      at member
    rw [lengthEq]
    exact bounded.inside other otherKnown otherValid entry member

section Opening

variable {data : Bytes} {regions : RegionTable} {r : ParsedRegions}
  {metadata : VhdxMetadata} {attached : Bool}

/-- The same regions and description are decoded from the repaired image. -/
theorem AuditedApart.decodes (audited : AuditedApart data regions r)
    (large : VhdxReader.minContainerSize ≤ data.length)
    (allocated : data.length ≤ isizeMax) (bounded : TablesBounded data)
    (decodes : Decodes data attached regions metadata) :
    ∃ regions', Decodes (withEntries data) attached regions' metadata ∧
      regions'.bat.range = regions.bat.range := by
  have lengthEq := @length_withEntries data
  have inside := (fixedBlocks_inside audited.readable).2
  have restored := restored_tables audited.readable audited.fixedSpare
  have outBounded := bounded.of_restored lengthEq inside restored
  have used := usedRanges_of_restored lengthEq inside restored
  rw [bounded.usedRanges_eq large allocated decodes.regions_eq] at used
  rcases outBounded.decodeRegions_cases (by omega) (by omega) with
    ⟨regions', decoded, ranges⟩ | ⟨e, -, unused⟩
  · obtain ⟨batEq, metadataEq⟩ :=
      Prod.mk.inj (Option.some.inj (ranges.symm.trans used))
    have content : regions'.metadata.content (withEntries data) =
        regions.metadata.content data := by
      have same := audited.same_metadata
      rw [← metadataEq] at same
      exact same.trans (congrArg (fun range : Nat × Nat =>
        window data range.1 range.2) metadataEq)
    refine ⟨regions', ⟨decoded, ?_, decodes.valid, decodes.parent⟩, batEq⟩
    rw [content]
    exact decodes.metadata_eq
  · rw [unused] at used
    cases used

/-- Without a pending log the repaired image decodes as it is. -/
theorem AuditedApart.decodesTo (audited : AuditedApart data regions r)
    (gate : VhdxReader.openGate data = .ok ())
    (allocated : data.length ≤ isizeMax) (bounded : TablesBounded data)
    {header : VhdxHeader} (active : activeHeader data = some header)
    (clean : header.IsClean) (decodes : Decodes data true regions metadata) :
    ∃ regions' : RegionTable, regions'.bat.range = regions.bat.range ∧
      VhdxReader.DecodesTo (withEntries data) (withEntries data) metadata
        { entries := Bat.entriesOf (regions'.bat.content (withEntries data))
          metadata } := by
  have lengthEq := @length_withEntries data
  obtain ⟨magic, large⟩ := VhdxReader.openGate_eq_ok_iff.mp gate
  have magic' := magic_of_readable (fileMagicFindings_withEntries
    audited.readable audited.fixedSpare)
  have active' := activeHeader_of_restored lengthEq
    (fixedBlocks_inside audited.readable).1
    (restored_headers audited.readable audited.fixedSpare)
  obtain ⟨regions', decodes', batEq⟩ :=
    audited.decodes large allocated bounded decodes
  refine ⟨regions', batEq, ?_, ?_, ?_⟩
  · exact VhdxReader.openGate_eq_ok_iff.mpr ⟨magic', by omega⟩
  · exact apply_of_clean (by omega) (active'.trans active) clean
  · exact decodeImage_eq_ok_iff.mpr ⟨regions', decodes', rfl⟩

end Opening

/-! ## The bytes of the repaired image -/

/-- Container offsets that a virtual byte is read from. -/
def ServedFrom (bat : Bat) (virtualByte pos : Nat) : Prop :=
  ∃ entry, bat.payloadEntry virtualByte = some entry ∧
    ((Bat.stateOf entry = Bat.payloadBlockFullyPresent ∨
        Bat.stateOf entry = Bat.payloadBlockPartiallyPresent) ∧
        pos = bat.byteOffset entry virtualByte ∨
      Bat.stateOf entry = Bat.payloadBlockPartiallyPresent ∧
        ∃ bitmap, bat.bitmapEntry virtualByte = some bitmap ∧
          pos = bat.bitmapByteOffset bitmap virtualByte)

section Bytes

variable {data out : Bytes} {metadata : VhdxMetadata}
  {entries entries' : List Nat} {owner : Nat → Option UInt8}
  {value virtualByte : Nat} {byte : UInt8}

/-- A byte depends on the state and the offset of its entry. -/
theorem entryByte_congr {bat : Bat} {value' : Nat}
    (state : Bat.stateOf value' = Bat.stateOf value)
    (offset : Bat.offsetOf value' = Bat.offsetOf value) :
    entryByte data bat owner value' virtualByte =
      entryByte data bat owner value virtualByte := by
  unfold entryByte partialByte Bat.byteOffset
  rw [state, offset]

/-- The actions for an entry keep a byte that it gives, unless they free its
block. -/
theorem entryByte_settled {bat : Bat} {r : ParsedRegions}
    {zone : Option (Nat × Nat)} {i : Nat} (valueLt : value < 2 ^ 64)
    (known : entryByte data bat owner value virtualByte = some byte)
    (placed : ¬ BitmapSlot r i →
      Bat.stateOf value = Bat.payloadBlockFullyPresent →
        structuralZone r zone (Bat.offsetOf value) = none)
    (defined : ¬ BitmapSlot r i → Bat.stateOf value = 1 →
      owner virtualByte = some 0) :
    entryByte data bat owner
      ((valueRepairs r zone data.length i value).foldl settledBy value)
        virtualByte = some byte := by
  unfold valueRepairs
  by_cases slot : BitmapSlot r i
  · rw [if_pos slot]
    exact known
  rw [if_neg slot]
  by_cases mapped : Bat.stateOf value = Bat.payloadBlockFullyPresent
  · rw [if_pos mapped]
    by_cases inside : Bat.offsetOf value < data.length
    · rw [if_pos inside, List.append_nil, placementFindings,
        placed slot mapped, List.append_nil]
      split
      · rw [List.foldl_cons, List.foldl_nil, settledBy,
          entryByte_congr stateOf_used (offsetOf_used valueLt)]
        exact known
      · exact known
    · -- A block past the end of the container has no bytes.
      have beyond : data.length ≤ bat.byteOffset value virtualByte := by
        unfold Bat.byteOffset
        omega
      rw [entryByte, mapped, if_neg (by decide), if_neg (by decide),
        if_neg (by decide), if_pos rfl, List.getElem?_eq_none beyond] at known
      split at known <;> cases known
  rw [if_neg mapped]
  by_cases undefined : Bat.stateOf value = 1
  · rw [entryByte, undefined, if_neg (by decide), if_pos (by decide)] at known
    rw [if_pos undefined, ← known]
    exact defined slot undefined
  · rw [if_neg undefined]
    exact known

/-- Entries with the same bitmap read the same byte from images that agree
where it is served from. -/
theorem entryByte_of_served
    (bitmap : Bat.bitmapEntry { entries := entries', metadata } virtualByte =
      Bat.bitmapEntry { entries, metadata } virtualByte)
    (payload : Bat.payloadEntry { entries, metadata } virtualByte = some value)
    (same : ∀ pos, ServedFrom { entries, metadata } virtualByte pos →
      out[pos]? = data[pos]?) :
    entryByte out { entries := entries', metadata } owner value virtualByte =
      entryByte data { entries, metadata } owner value virtualByte := by
  have sameOffset : Bat.byteOffset { entries := entries', metadata } value
      virtualByte = Bat.byteOffset { entries, metadata } value virtualByte :=
    rfl
  unfold entryByte
  dsimp only
  rw [sameOffset]
  split
  · rfl
  split
  · rfl
  split
  · rfl
  rename_i present
  have block := same _
    ⟨value, payload, Or.inl ⟨not_not.mp present, rfl⟩⟩
  split
  case isFalse => rfl
  split
  · exact block
  rename_i notFull
  have isPartial := (not_not.mp present).resolve_left notFull
  unfold partialByte
  rw [bitmap, sameOffset, block]
  cases found : Bat.bitmapEntry { entries, metadata } virtualByte with
  | none => rfl
  | some mapped =>
      have owners := same _
        ⟨value, payload, Or.inr ⟨isPartial, mapped, found, rfl⟩⟩
      have samePlace : Bat.bitmapByteOffset { entries := entries', metadata }
          mapped virtualByte =
            Bat.bitmapByteOffset { entries, metadata } mapped virtualByte := rfl
      dsimp only
      rw [samePlace, owners]

end Bytes

/-! ## The disk -/

/-- A repair does no harm to a virtual byte: its block is not reported on a
structure, nor in an undefined state over a parent, and it is served from no
place that an action writes. -/
structure Unharmed (found : Findings) (report : RepairReport)
    (bat : Bat) (attached : Bool) (virtualByte : Nat) : Prop where
  /-- The block is not reported in a structural region. -/
  placed : ∀ fileOffset region,
    .batEntryInStructuralRegion (bat.metadata.payloadIndex
      (virtualByte / bat.metadata.blockSize)) fileOffset region ∉ found
  /-- With a parent attached it is not reported as undefined. -/
  defined : attached = true →
    .undefinedBlockState (bat.metadata.payloadIndex
      (virtualByte / bat.metadata.blockSize)) ∉ found
  /-- No action writes where the byte is served from. -/
  kept : ∀ pos, ServedFrom bat virtualByte pos →
    ∀ action ∈ report.repaired, ¬ InRange action.place pos

section Disk

variable {data : Bytes} {regions regions' : RegionTable} {r : ParsedRegions}
  {metadata : VhdxMetadata} {orders : SortOrders} {report : RepairReport}
  {owner : Nat → Option UInt8} {virtualByte : Nat} {byte : UInt8}

/-- Findings about an entry that opening decoded are among all findings. -/
theorem AuditedApart.mem_auditFindings (audited : AuditedApart data regions r)
    (orders : SortOrders) {i value : Nat}
    (found : (Bat.entriesOf (regions.bat.content data))[i]? = some value)
    {finding : VhdxIntegrityAnomaly}
    (member : finding ∈ valueRepairs r (logZoneOf data) data.length i value) :
    finding ∈ auditFindings orders data := by
  obtain ⟨tableOffset, tableLength⟩ := Prod.mk.inj audited.bat_eq
  have inside : regions.bat.fileOffset + regions.bat.length ≤ data.length :=
    audited.inside
  rw [getElem?_entriesOf_content audited.bat_eq audited.inside] at found
  split at found
  case isFalse => cases found
  rename_i iLt
  obtain rfl := Option.some.inj found
  have checked : TableChecked data r := by
    unfold entryCountOf at iLt
    exact ⟨by omega, by omega⟩
  have repaired : finding ∈ runRepairs data := by
    rw [runRepairs_eq audited.readable, entryIssues, audited.parsed]
    refine List.mem_append_right _ ?_
    dsimp only
    rw [batRepairs, if_pos checked]
    exact List.mem_flatMap.mpr ⟨i, List.mem_range.mpr iLt, member⟩
  rw [← repairs_auditFindings orders] at repaired
  exact List.mem_of_mem_filter repaired

/-- The entries that opening the repaired image decodes. -/
theorem AuditedApart.getElem?_entriesOf (audited : AuditedApart data regions r)
    (batEq : regions'.bat.range = regions.bat.range) (i : Nat) :
    (Bat.entriesOf (regions'.bat.content (withEntries data)))[i]? =
      (Bat.entriesOf (regions.bat.content data))[i]?.map fun value =>
        (valueRepairs r (logZoneOf data) data.length i value).foldl settledBy
          value := by
  obtain ⟨offsetEq, rangeLength⟩ := Prod.mk.inj batEq
  obtain ⟨tableOffset, tableLength⟩ := Prod.mk.inj audited.bat_eq
  have inside : regions.bat.fileOffset + regions.bat.length ≤ data.length :=
    audited.inside
  have inside' : regions'.bat.Inside (withEntries data).length := by
    unfold RegionEntry.Inside
    rw [offsetEq, rangeLength, length_withEntries]
    exact inside
  rw [getElem?_entriesOf_content audited.bat_eq audited.inside,
    getElem?_entriesOf_content (audited.bat_eq.trans batEq.symm) inside']
  split
  · rename_i iLt
    have checked : TableChecked data r := by
      unfold entryCountOf at iLt
      exact ⟨by omega, by omega⟩
    rw [entryAt_withEntries audited.readable audited.parsed checked iLt
      fun place member overlap =>
        audited.restoredSpare place member (overlap.table_of_entry iLt),
      Option.map_some, entryRepairs_eq]
  · rfl

/-- The entries of sector bitmaps stay. -/
theorem AuditedApart.bitmapEntry_eq (audited : AuditedApart data regions r)
    (describes : r.Describes metadata)
    (batEq : regions'.bat.range = regions.bat.range) (virtualByte : Nat) :
    Bat.bitmapEntry
        { entries := Bat.entriesOf (regions'.bat.content (withEntries data))
          metadata } virtualByte =
      Bat.bitmapEntry
        { entries := Bat.entriesOf (regions.bat.content data), metadata }
        virtualByte := by
  have slot : BitmapSlot r (metadata.bitmapIndex
      (virtualByte / metadata.blockSize)) :=
    (bitmapSlot_iff_exists describes _).mpr ⟨_, rfl⟩
  unfold Bat.bitmapEntry
  dsimp only
  rw [audited.getElem?_entriesOf batEq]
  cases (Bat.entriesOf (regions.bat.content data))[metadata.bitmapIndex
      (virtualByte / metadata.blockSize)]? with
  | none => rfl
  | some value =>
      rw [Option.map_some, valueRepairs, if_pos slot]
      rfl

/-- A byte that has a value before the repair has it afterwards. -/
theorem AuditedApart.referenceByte_eq (audited : AuditedApart data regions r)
    (describes : r.Describes metadata)
    (batEq : regions'.bat.range = regions.bat.range)
    (same : ∀ pos, (∀ action ∈ report.repaired, ¬ InRange action.place pos) →
      (withEntries data)[pos]? = data[pos]?) {attached : Bool}
    (alone : attached = false → owner virtualByte = some 0)
    (unharmed : Unharmed (auditFindings orders data) report
      { entries := Bat.entriesOf (regions.bat.content data), metadata }
      attached virtualByte)
    (known : referenceByte data
      { entries := Bat.entriesOf (regions.bat.content data), metadata } owner
      virtualByte = some byte) :
    referenceByte (withEntries data)
      { entries := Bat.entriesOf (regions'.bat.content (withEntries data))
        metadata } owner virtualByte = some byte := by
  have payload := not_bitmapSlot_payloadIndex describes
    (virtualByte / metadata.blockSize)
  have changed := audited.getElem?_entriesOf batEq
    (metadata.payloadIndex (virtualByte / metadata.blockSize))
  obtain ⟨placed, defined, kept⟩ := unharmed
  unfold referenceByte at known ⊢
  cases found : Bat.payloadEntry
      { entries := Bat.entriesOf (regions.bat.content data), metadata }
      virtualByte with
  | none =>
      rw [found] at known
      cases known
  | some value =>
      rw [found] at known
      have foundAt : (Bat.entriesOf (regions.bat.content data))[
          metadata.payloadIndex (virtualByte / metadata.blockSize)]? =
            some value := found
      have valueLt := Bat.lt_of_mem_entriesOf (List.mem_of_getElem? foundAt)
      rw [foundAt] at changed
      have found' : Bat.payloadEntry
          { entries := Bat.entriesOf (regions'.bat.content (withEntries data))
            metadata } virtualByte = some _ := changed
      rw [found']
      dsimp only at known ⊢
      rw [← entryByte_of_served (audited.bitmapEntry_eq describes batEq _) found
        fun pos served => same pos (kept pos served)] at known
      rw [← @length_withEntries data]
      refine entryByte_settled valueLt known (fun _ mapped => ?_)
        fun _ undefined => ?_
      · -- A block on a structure is reported.
        cases collides : structuralZone r (logZoneOf data)
            (Bat.offsetOf value) with
        | none => rfl
        | some name =>
            refine absurd (audited.mem_auditFindings orders foundAt ?_)
              (placed (Bat.offsetOf value) name)
            rw [valueRepairs, if_neg payload, if_pos mapped, placementFindings,
              collides]
            simp
      · cases attached with
        | false => exact alone rfl
        | true =>
            refine absurd (audited.mem_auditFindings orders foundAt ?_)
              (defined rfl)
            rw [valueRepairs, if_neg payload, undefined, if_neg (by decide),
              if_pos rfl]
            exact List.mem_singleton_self _

end Disk

/-- A differencing disk opens over a parent only. -/
theorem VhdxReader.attached_of_opened {P : Type} {parent : Option P}
    {reader : VhdxReader P} (allocated : data.length ≤ isizeMax)
    (opened : VhdxReader.fromBytes data parent = .ok reader) :
    reader.metadata.hasParent = true → parent.isSome = true := by
  rw [VhdxReader.fromBytes_eq_apply allocated] at opened
  obtain ⟨⟨⟩, gate, opened⟩ := bind_eq_ok.mp opened
  obtain ⟨image, applied, opened⟩ := bind_eq_ok.mp opened
  rw [VhdxReader.assemble_mem allocated parent gate applied] at opened
  obtain ⟨⟨metadata, bat⟩, decoded, built⟩ := bind_eq_ok.mp opened
  obtain ⟨regions, decodes, -⟩ := decodeImage_eq_ok_iff.mp decoded
  cases built
  exact decodes.parent

/-- A positioned read that is answered with bytes shows a range of the
disk. -/
theorem VhdxSource.readAt_eq_ok_iff {depth : Nat}
    {reader : VhdxReader (Parent depth)} (sound : PresentsDisk.Sound reader)
    {offset count : Nat} {bytes : Bytes} :
    ((VhdxSource.new reader).readAt offset count).1 = .ok bytes ↔
      (PresentsDisk.disk reader).read offset count = some bytes := by
  have answer := (@VhdxSource.readAt_spec _ _ _ _ (VhdxSource.new reader) offset
    count sound rfl).2.2.2
  have shown : ∀ result : Exec IoError Bytes,
      replyOf .bytes result = .bytes bytes ↔ result = .ok bytes := by
    rintro ((_ | _ | _) | delivered) <;> simp [replyOf]
  rw [← shown, answer]
  change VhdxSource.diskAnswer (PresentsDisk.disk reader) _ = _ ↔ _
  rw [VhdxSource.diskAnswer]
  cases (PresentsDisk.disk reader).read offset count <;> simp

/-- The disk of a reader without an overlay. -/
theorem VhdxReader.disk_plainReader {depth : Nat} (data : Bytes)
    (metadata : VhdxMetadata) (bat : Bat) (parent : Option (Parent depth)) :
    PresentsDisk.disk (plainReader data metadata bat parent) =
      { size := metadata.virtualDiskSize
        byte := referenceByte data bat
          (parentByte (parent.map PresentsDisk.disk)) } := by
  have image_eq : (plainReader data metadata bat parent).image = data :=
    patchedView_mem data
  change ReferenceDisk.mk metadata.virtualDiskSize (referenceByte
    (plainReader data metadata bat parent).image bat _) = _
  rw [image_eq]
  rfl

/-- The analysis and the repair of a bounded image that opens without a log
to replay run to their ends. -/
theorem repair_completes_of_opened {P : Type} (image : Buffer)
    {parent : Option P} {reader : VhdxReader P}
    (opened : VhdxReader.fromBytes image.bytes parent = .ok reader)
    (unlogged : VhdxReader.replayedEntries image.bytes = [])
    (bounded : Bounded image.bytes) (orders : SortOrders) :
    ∃ found report out, analyse orders image.bytes = .ok found ∧
      attemptRepair orders image.bytes = .ok (report, out) := by
  have allocated := image.allocated
  obtain ⟨_, metadata, bat, decodesTo, rfl⟩ :=
    VhdxReader.exists_decodesTo allocated opened
  obtain rfl := decodesTo.image_eq allocated unlogged
  have large := (VhdxReader.openGate_eq_ok_iff.mp decodesTo.gate).2
  obtain ⟨regions, decodes, rfl⟩ := decodeImage_eq_ok_iff.mp decodesTo.decoded
  obtain ⟨r, parsed, audits⟩ := bounded.audits large allocated decodes
  have describes := audits.describes parsed decodes.valid
  have inside : r.batOffset + r.batLength ≤ image.bytes.length := by
    obtain ⟨offsetEq, lengthEq⟩ := Prod.mk.inj audits.bat_eq
    rw [offsetEq, lengthEq]
    exact (decodeRegions_inside large allocated decodes.regions_eq).1
  obtain ⟨audited, bytesEq, -, -⟩ := exists_auditedImage allocated
    (by rw [parseRegions_eq allocated, parsed, okOr_some]) inside
    describes.metadata_eq (VhdxMetadata.validate_eq_ok_iff.mpr decodes.valid)
  obtain ⟨report, completed⟩ := audited.repair_completes orders
  rw [bytesEq] at completed
  have fits := (fits_of_settles allocated (.of_eq_ok completed)).1
  exact ⟨_, report, _, analyse_eq_ok allocated fits, completed⟩

/-- A repaired image opens with the same description, and the bytes that a
repair does no harm to are read back. -/
theorem attemptRepair_preserves_disk {depth : Nat} (image : Buffer)
    {parent : Option (Parent depth)}
    (parents : ∀ device ∈ parent, Parent.Opened depth device)
    {reader : VhdxReader (Parent depth)}
    (opened : VhdxReader.fromBytes image.bytes parent = .ok reader)
    (unlogged : ∀ header ∈ activeHeader image.bytes, header.IsClean)
    (bounded : Bounded image.bytes)
    (apart : ∀ regions, decodeRegions image.bytes = .ok regions →
      RegionsApart regions)
    {orders : SortOrders} {found : Findings}
    (analysed : analyse orders image.bytes = .ok found)
    {report : RepairReport} {out : Bytes}
    (completed : attemptRepair orders image.bytes = .ok (report, out)) :
    ∃ repaired, VhdxReader.fromBytes out parent = .ok repaired ∧
      repaired.metadata = reader.metadata ∧
      ∀ offset count bytes,
        ((VhdxSource.new reader).readAt offset count).1 = .ok bytes →
        (∀ virtualByte, offset ≤ virtualByte →
          virtualByte < offset + bytes.length →
            Unharmed found report reader.bat parent.isSome virtualByte) →
        ((VhdxSource.new repaired).readAt offset count).1 = .ok bytes := by
  have allocated := image.allocated
  obtain ⟨fits, located⟩ := fits_of_settles allocated (.of_eq_ok completed)
  obtain ⟨_, returned, covers⟩ := @attemptRepair_eq orders _ allocated fits
    located
  obtain ⟨rfl, rfl⟩ := Prod.mk.inj (Except.ok.inj
    (completed.symm.trans returned))
  obtain rfl := Except.ok.inj (analysed.symm.trans
    (analyse_eq_ok allocated fits))
  rw [repairedImage_eq, ← withEntries]
  -- What is decoded from the image.
  obtain ⟨_, metadata, bat, decodesTo, rfl⟩ :=
    VhdxReader.exists_decodesTo allocated opened
  obtain ⟨header, active⟩ := decodesTo.exists_activeHeader allocated
  obtain rfl := decodesTo.image_eq allocated (replayedEntries_of_clean unlogged)
  have large := (VhdxReader.openGate_eq_ok_iff.mp decodesTo.gate).2
  obtain ⟨regions, decodes, rfl⟩ := decodeImage_eq_ok_iff.mp decodesTo.decoded
  obtain ⟨r, parsed, audits⟩ := bounded.audits large allocated decodes
  have describes := audits.describes parsed decodes.valid
  have audited : AuditedApart image.bytes regions r :=
    ⟨fileMagicFindings_of_openGate decodesTo.gate, parsed, audits.bat_eq,
      (decodeRegions_inside large allocated decodes.regions_eq).1,
      apart regions decodes.regions_eq⟩
  -- What is decoded from the repaired image.
  obtain ⟨regions', batEq, decodesTo'⟩ := audited.decodesTo decodesTo.gate
    allocated bounded.tables active (unlogged header active) decodes
  have reopened := decodesTo'.fromBytes_eq (by
    rw [length_withEntries]
    exact allocated) (VhdxReader.attached_of_opened allocated opened)
  refine ⟨_, reopened, rfl, fun offset count bytes answered unharmed => ?_⟩
  have sound := VhdxReader.OpenedOver.sound (Parent.Opened.sound depth)
    (.fromBytes image parent parents opened)
  have sound' := VhdxReader.OpenedOver.sound (Parent.Opened.sound depth)
    (.fromBytes ⟨withEntries image.bytes, by
      rw [length_withEntries]
      exact allocated⟩ parent parents reopened)
  rw [VhdxSource.readAt_eq_ok_iff sound, VhdxReader.disk_plainReader]
    at answered
  rw [VhdxSource.readAt_eq_ok_iff sound', VhdxReader.disk_plainReader]
  refine @ReferenceDisk.read_mono _ _ ?_ _ _ _ answered
    fun v byte low high known => ?_
  · rfl
  refine audited.referenceByte_eq describes batEq (fun pos untouched => ?_)
    (fun missing => ?_) (unharmed v low high) known
  · by_contra changed
    rw [withEntries, ← @repairedImage_eq orders] at changed
    obtain ⟨action, reported, inside⟩ := covers.auditTrail.accounted pos changed
    exact untouched action reported inside
  · rw [Option.isSome_eq_false_iff, Option.isNone_iff_eq_none] at missing
    subst missing
    rfl

/-- The regions of a standard container are apart. -/
theorem regionsApart_standardRegions {entries : Nat}
    (entriesLe : entries ≤ 0x20000) :
    RegionsApart (standardRegions entries) := by
  have bat : (standardRegions entries).bat.range = (0x300000, entries * 8) :=
    rfl
  have metadata : (standardRegions entries).metadata.range =
      (0x200000, 0x100000) := rfl
  have low : ∀ range ∈ fixedRanges, range.1 + range.2 ≤ 0x50000 := by decide
  constructor
  · rintro range member ⟨index, inBat, inRange⟩
    rw [bat] at inBat
    rw [metadata] at member
    unfold InRange at inBat inRange
    dsimp only at inBat
    rcases List.mem_cons.mp member with rfl | fixed
    · dsimp only at inRange
      omega
    · have := low range fixed
      omega
  · rintro range member ⟨index, inMetadata, inRange⟩
    have := low range member
    rw [metadata] at inMetadata
    unfold InRange at inMetadata inRange
    dsimp only at inMetadata
    omega

/-- A block whose entry has a reserved bit set, and its first byte. -/
def unalignedEntry : Nat := 0x40000E

theorem unaligned_fits : StandardFits (blockItems 0x100000 0x100000)
    [unalignedEntry] [(0x400000, [7])] :=
  ⟨blockItems_fit (by decide) (by decide), show 1 ≤ 0x20000 by decide,
    List.pairwise_singleton _ _, by
      intro piece member
      rw [List.mem_singleton.mp member]
      decide⟩

section Unaligned

variable {image : AuditedImage}

/-- The entry is the only thing that is repaired. -/
theorem runRepairs_unaligned
    (standard : image.IsStandard (blockItems 0x100000 0x100000)
      [unalignedEntry] [(0x400000, [7])]) :
    runRepairs image.bytes = [.batEntryUnaligned 0 0x400000] := by
  have fits := unaligned_fits
  have zone : logZoneOf image.bytes = none := by
    rw [logZoneOf]
    cases active : activeHeader image.bytes with
    | none => rfl
    | some header =>
        rw [Option.bind_some, standard.logLength_eq fits active]
        rfl
  have payload : ¬ BitmapSlot (standardRegionsAt
      (blockItems 0x100000 0x100000) 1) 0 := by decide +kernel
  have free : structuralZone (standardRegionsAt
      (blockItems 0x100000 0x100000) 1) none 0x400000 = none := by
    decide +kernel
  have regions : image.regions =
      standardRegionsAt (blockItems 0x100000 0x100000) 1 := standard.regions_eq
  have offset : Bat.offsetOf unalignedEntry = 0x400000 := by decide
  rw [standard.runRepairs_single fits (by decide), standard.length_eq, zone,
    regions, valueRepairs, if_neg payload, if_pos (by decide),
    if_pos (by decide), placementFindings, offset, free]
  rfl

/-- The entry is what is written. -/
theorem places_unaligned
    (standard : image.IsStandard (blockItems 0x100000 0x100000)
      [unalignedEntry] [(0x400000, [7])]) {report : RepairReport}
    (covers : Covers (tableOffset image.bytes)
      (allFindings stableOrders image.bytes) report) :
    report.repaired.map RepairAction.place = [(0x300000, 8)] := by
  rw [covers.places, ← filterMap_repairs, repairs_allFindings,
    runRepairs_unaligned standard, tableOffset, image.parsedRegions_eq,
    standard.regions_eq]
  rfl

/-- The disk of the image. -/
def unalignedBat : Bat where
  entries := [unalignedEntry]
  metadata := oneBlockDisk

/-- The first byte of the disk is read from the block. -/
theorem servedFrom_unaligned {pos : Nat}
    (served : ServedFrom unalignedBat 0 pos) : pos = 0x400000 := by
  obtain ⟨entry, found, places⟩ := served
  rw [unalignedBat, VhdxReader.payloadEntry_block (by decide)] at found
  obtain rfl := Option.some.inj found
  rcases places with ⟨-, rfl⟩ | ⟨partly, -⟩
  · decide
  · exact absurd partly (by decide)

theorem referenceByte_unaligned
    (standard : image.IsStandard (blockItems 0x100000 0x100000)
      [unalignedEntry] [(0x400000, [7])]) :
    referenceByte image.bytes unalignedBat (parentByte none) 0 = some 7 := by
  have mapped : Bat.stateOf unalignedEntry = Bat.payloadBlockFullyPresent := by
    decide
  have place : unalignedBat.byteOffset unalignedEntry 0 = 0x400000 := by
    decide
  have found : unalignedBat.payloadEntry 0 = some unalignedEntry :=
    VhdxReader.payloadEntry_block (by decide)
  rw [referenceByte, found]
  dsimp only
  rw [entryByte, mapped, place, if_neg (by decide), if_neg (by decide),
    if_neg (by decide), if_pos (by decide), if_pos rfl]
  exact standard.getElem?_eq unaligned_fits (by simp)

/-- The repair does no harm to the first byte. -/
theorem unharmed_unaligned
    (standard : image.IsStandard (blockItems 0x100000 0x100000)
      [unalignedEntry] [(0x400000, [7])]) {report : RepairReport}
    (covers : Covers (tableOffset image.bytes)
      (allFindings stableOrders image.bytes) report) :
    Unharmed (auditFindings stableOrders image.bytes) report unalignedBat false
      0 where
  placed := by
    intro fileOffset region member
    have repaired : _ ∈ repairs (auditFindings stableOrders image.bytes) :=
      List.mem_filter.mpr ⟨member, rfl⟩
    rw [repairs_auditFindings, runRepairs_unaligned standard,
      List.mem_singleton] at repaired
    cases repaired
  defined := fun attached => by cases attached
  kept := by
    rintro pos served action member ⟨-, high⟩
    have place := List.mem_map_of_mem (f := RepairAction.place) member
    rw [places_unaligned standard covers, List.mem_singleton] at place
    rw [place, servedFrom_unaligned served] at high
    exact absurd high (by decide)

/-- A reserved bit is cleared, and the disk stays. -/
theorem attemptRepair_preserves_disk_unaligned :
    ∃ (image : Buffer) (reader repaired : VhdxReader (Parent 0))
      (report : RepairReport) (out : Bytes),
      image.bytes = (standardPlan (blockItems 0x100000 0x100000)
          [unalignedEntry] [(0x400000, [7])]).container ∧
        VhdxReader.fromBytes image.bytes none = .ok reader ∧
        attemptRepair stableOrders image.bytes = .ok (report, out) ∧
        VhdxReader.fromBytes out none = .ok repaired ∧
        ((VhdxSource.new reader).readAt 0 1).1 = .ok [7] ∧
        ((VhdxSource.new repaired).readAt 0 1).1 = .ok [7] := by
  have fits := unaligned_fits
  obtain ⟨image, standard, -⟩ := @exists_standardImage _ _ _ oneBlockDisk fits
    blockItems_short rfl rfl
  have metadataEq : (recordedItems (blockItems 0x100000 0x100000)).resolve =
      .ok oneBlockDisk := rfl
  have opened := standardPlan_opens fits (by simp [unalignedEntry]) metadataEq
    oneBlockDisk_valid (none : Option (Parent 0)) (by simp [oneBlockDisk])
  rw [← unalignedBat] at opened
  have bounded := bounded_standardPlan fits blockItems_short blockItems_current
  have decodes : Decodes _ true _ _ := (standardPlan_describes fits metadataEq
    oneBlockDisk_valid).decodes fun _ => rfl
  rw [← standard.bytes_eq] at opened bounded decodes
  obtain ⟨_, completed⟩ := image.repair_completes stableOrders
  obtain ⟨analysisFits, located⟩ :=
    fits_of_settles image.allocated (.of_eq_ok completed)
  obtain ⟨report, returned, covers⟩ := @attemptRepair_eq stableOrders _
    image.allocated analysisFits located
  have noParents : ∀ device ∈ (none : Option (Parent 0)),
      Parent.Opened 0 device := by
    rintro device ⟨⟩
  have sound := VhdxReader.OpenedOver.sound (Parent.Opened.sound 0)
    (.fromBytes image.toBuffer none noParents opened)
  have answered : ((VhdxSource.new (VhdxReader.plainReader image.bytes
      oneBlockDisk unalignedBat (none : Option (Parent 0)))).readAt 0 1).1 =
        .ok [7] := by
    rw [VhdxSource.readAt_eq_ok_iff sound, VhdxReader.disk_plainReader,
      ReferenceDisk.read, ReferenceDisk.range_eq_some_iff]
    refine ⟨rfl, fun index inside => ?_⟩
    obtain rfl : index = 0 := by
      have : min 1 (oneBlockDisk.virtualDiskSize - 0) = 1 := by decide
      dsimp only at inside
      omega
    exact referenceByte_unaligned standard
  obtain ⟨repaired, reopened, -, preserved⟩ := attemptRepair_preserves_disk
    image.toBuffer noParents opened
    (fun header active => Or.inl (standard.logLength_eq fits active)) bounded
    (fun regions decoded => by
      obtain rfl := Except.ok.inj (decodes.regions_eq.symm.trans decoded)
      exact regionsApart_standardRegions (by decide))
    (analyse_eq_ok image.allocated analysisFits) returned
  refine ⟨image.toBuffer, _, repaired, report, _, standard.bytes_eq, opened,
    returned, reopened, answered, preserved 0 1 [7] answered ?_⟩
  intro virtualByte _ virtualByteLt
  obtain rfl : virtualByte = 0 := by
    simp at virtualByteLt
    omega
  exact unharmed_unaligned standard covers

end Unaligned

end VhdxForensic
