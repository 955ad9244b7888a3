import VhdxForensic.Forensic.ParserAgreement
import VhdxForensic.Forensic.QuietContainer
import VhdxForensic.Forensic.SilentReport

/-!
# What an empty report does not guarantee

An image about which nothing is reported has a magic, a header and no log. It
need not name regions, its metadata need not hold the values that the reader
looks for, and its payload entries may have reserved states or leave the
container. This module says exactly when such an image opens and all of its
disk can be read.
-/

namespace VhdxForensic

open Rust Rust.Bytes Rust.Exec

/-! ## Bytes with a value -/

/-- The payload entry of a virtual byte says where its value is, and the
container holds what has to be read for it. -/
inductive ByteHeld (data : Bytes) (bat : Bat) (virtualByte : Nat) : Prop
  /-- States 0 to 3: nothing is read. -/
  | zeros (entry : Nat)
      (found : bat.payloadEntry virtualByte = some entry)
      (absent : Bat.stateOf entry < 4)
  /-- A whole block: the byte lies in the container. -/
  | mapped (entry : Nat)
      (found : bat.payloadEntry virtualByte = some entry)
      (state : Bat.stateOf entry = Bat.payloadBlockFullyPresent)
      (inside : bat.byteOffset entry virtualByte < data.length)
  /-- A block in part: the sector bitmap lies in the container, and so does
  the byte if its sector is owned. -/
  | sector (entry bitmap : Nat) (owners : UInt8)
      (found : bat.payloadEntry virtualByte = some entry)
      (state : Bat.stateOf entry = Bat.payloadBlockPartiallyPresent)
      (representable : bat.byteOffset entry virtualByte < wordCount)
      (bitmapFound : bat.bitmapEntry virtualByte = some bitmap)
      (present : Bat.stateOf bitmap = Bat.sectorBitmapBlockPresent)
      (stored : data[bat.bitmapByteOffset bitmap virtualByte]? = some owners)
      (inside : owners.toNat.testBit
          (bat.metadata.sectorInChunk virtualByte % 8) = true →
        bat.byteOffset entry virtualByte < data.length)

section Held

variable {data : Bytes} {bat : Bat} {virtualByte : Nat}

/-- Without a parent a byte has a value exactly if it is held. -/
theorem isSome_referenceByte_iff_held (allocated : data.length ≤ isizeMax) :
    (referenceByte data bat (parentByte none) virtualByte).isSome = true ↔
      ByteHeld data bat virtualByte := by
  have word : isizeMax < wordCount := by decide
  have inData : ∀ {pos : Nat}, (data[pos]?).isSome = true ↔
      pos < data.length := by
    simp
  constructor
  · intro value
    rw [referenceByte] at value
    cases found : bat.payloadEntry virtualByte with
    | none =>
        rw [found] at value
        cases value
    | some entry =>
        rw [found] at value
        dsimp only at value
        have stateLt : Bat.stateOf entry < 8 := Nat.mod_lt _ (by decide)
        unfold entryByte at value
        dsimp only at value
        split at value
        · rename_i absent
          exact .zeros entry found (by rw [absent]; decide)
        split at value
        · rename_i zeros
          refine .zeros entry found ?_
          rcases zeros with state | state | state <;> rw [state] <;> decide
        split at value
        · cases value
        split at value
        case isFalse => cases value
        rename_i states representable
        split at value
        · rename_i mapped
          exact .mapped entry found mapped (inData.mp value)
        · rename_i unmapped
          have partly := (not_not.mp states).resolve_left unmapped
          unfold partialByte at value
          split at value
          · cases value
          rename_i bitmap bitmapFound
          split at value
          · cases value
          rename_i present
          split at value
          · cases value
          rename_i owners stored
          refine .sector entry bitmap owners found partly representable
            bitmapFound (not_not.mp present) stored fun owned => ?_
          rw [if_pos owned] at value
          exact inData.mp value
  · rintro (⟨entry, found, absent⟩ | ⟨entry, found, state, inside⟩ |
      ⟨entry, bitmap, owners, found, state, representable, bitmapFound,
        present, stored, inside⟩)
    · rw [referenceByte, found]
      dsimp only
      unfold entryByte Bat.payloadBlockNotPresent Bat.payloadBlockUndefined
        Bat.payloadBlockZero Bat.payloadBlockUnmapped
      dsimp only
      split
      · rfl
      · rw [if_pos (by omega)]
        rfl
    · rw [referenceByte, found]
      dsimp only
      rw [entryByte, state, if_neg (by decide), if_neg (by decide),
        if_neg (by decide), if_pos (by omega), if_pos rfl]
      exact inData.mpr inside
    · rw [referenceByte, found]
      dsimp only
      rw [entryByte, state, if_neg (by decide), if_neg (by decide),
        if_neg (by decide), if_pos representable, if_neg (by decide),
        partialByte, bitmapFound]
      dsimp only
      rw [if_neg (not_not_intro present), stored]
      dsimp only
      split
      · rename_i owned
        exact inData.mpr (inside owned)
      · rfl

end Held

/-! ## Images that serve their whole disk -/

/-- The image opens without a parent, and one read gives all of its disk. -/
def ServesWholeDisk (data : Bytes) : Prop :=
  ∃ reader : VhdxReader (Parent 0),
    VhdxReader.fromBytes data none = .ok reader ∧
      ∃ bytes, (ReadSeek.read reader reader.metadata.virtualDiskSize).1 =
          .ok bytes ∧
        bytes.length = reader.metadata.virtualDiskSize

/-- The description that the deciding values give. -/
def SharedValues.description (values : SharedValues) : Option VhdxMetadata :=
  values.parameters.bind fun parameters => values.diskSize.map fun diskSize =>
    { blockSize := parameters.1
      hasParent := parameters.2
      virtualDiskSize := diskSize
      logicalSectorSize := values.sectorSize.getD 512 }

/-- The first contained copy of the region table has the ranges `bat` and
`region`, and the items that decide in this region give the description. -/
structure Described (data : Bytes) (bat region : Nat × Nat)
    (metadata : VhdxMetadata) : Prop where
  /-- A copy names both regions and only regions inside the container. -/
  regions : ∃ copy, FirstCopy (Contained data) copy ∧
    resolvedRange data (rtOffset copy) regionEntryCountMax batGuid =
      some bat ∧
    resolvedRange data (rtOffset copy) regionEntryCountMax metadataGuid =
      some region
  /-- The metadata region holds its signature. -/
  long : 8 ≤ region.2
  /-- The region starts with the signature of a metadata table. -/
  signed : window (window data region.1 region.2) 0 8 =
    metadataTableSignature
  /-- The items give a description within the limits of the format. -/
  values : (servedValues data region).description = some metadata
  /-- The description is valid. -/
  valid : metadata.Valid

/-- What the report leaves open: the container is large enough for the reader,
it describes a disk without a parent, and every byte of the disk is held. -/
structure Servable (data : Bytes) : Prop where
  /-- The reader accepts the size. -/
  large : VhdxReader.minContainerSize ≤ data.length
  /-- A description without a parent is found, and every byte of its disk has
  a value. -/
  held : ∃ bat region metadata, Described data bat region metadata ∧
    metadata.hasParent = false ∧
    ∀ virtualByte < metadata.virtualDiskSize,
      ByteHeld data { entries := Bat.entriesOf (window data bat.1 bat.2)
                      metadata } virtualByte

section Described

variable {data : Bytes} {bat region : Nat × Nat} {metadata : VhdxMetadata}
  {attached : Bool}

theorem SharedValues.description_eq_some_iff {values : SharedValues} :
    values.description = some metadata ↔
      values.parameters = some (metadata.blockSize, metadata.hasParent) ∧
        values.diskSize = some metadata.virtualDiskSize ∧
        values.sectorSize.getD 512 = metadata.logicalSectorSize := by
  unfold description
  constructor
  · intro described
    obtain ⟨parameters, first, rest⟩ := Option.bind_eq_some_iff.mp described
    obtain ⟨diskSize, second, rfl⟩ := Option.map_eq_some_iff.mp rest
    exact ⟨first, second, rfl⟩
  · rintro ⟨first, second, third⟩
    rw [first, second, third]
    rfl

/-- What the reader decodes is described. -/
theorem Decodes.described {regions : RegionTable}
    (decodes : Decodes data attached regions metadata)
    (large : VhdxReader.minContainerSize ≤ data.length)
    (allocated : data.length ≤ isizeMax) :
    Described data regions.bat.range regions.metadata.range metadata := by
  obtain ⟨copy, first, batFound, metadataFound⟩ :=
    exists_firstContained large allocated decodes.regions_eq
  obtain ⟨long, signed, values⟩ := decodes.values
    (decodeRegions_inside large allocated decodes.regions_eq).2 allocated
  exact ⟨⟨copy, first, batFound, metadataFound⟩, long, signed,
    SharedValues.description_eq_some_iff.mpr values, decodes.valid⟩

/-- What is described is decoded. -/
theorem Described.decodes (described : Described data bat region metadata)
    (large : VhdxReader.minContainerSize ≤ data.length)
    (allocated : data.length ≤ isizeMax)
    (parent : metadata.hasParent = true → attached = true) :
    ∃ regions, Decodes data attached regions metadata ∧
      regions.bat.range = bat ∧ regions.metadata.range = region := by
  obtain ⟨⟨copy, first, batFound, regionFound⟩, long, signed, values, valid⟩ :=
    described
  obtain ⟨regions, decoded⟩ := first.exists_decodeRegions large allocated
  obtain ⟨other, otherFirst, batOther, regionOther⟩ :=
    exists_firstContained large allocated decoded
  obtain rfl := otherFirst.unique first
  have batEq := Option.some.inj (batOther.symm.trans batFound)
  have regionEq := Option.some.inj (regionOther.symm.trans regionFound)
  subst batEq regionEq
  have inside := (decodeRegions_inside large allocated decoded).2
  have contentLength := length_content inside
  obtain ⟨parametersEq, diskSizeEq, sectorSizeEq⟩ :=
    SharedValues.description_eq_some_iff.mp values
  obtain ⟨blockSize, hasParent, diskSize, sectorSize⟩ :=
    @metadataItems_values data regions.metadata.range inside
  rw [parametersEq] at blockSize hasParent
  rw [diskSizeEq] at diskSize
  have itemLong : 8 ≤ regions.metadata.length := long
  have signedContent : window (regions.metadata.content data) 0 8 =
    metadataTableSignature := signed
  refine ⟨regions, ⟨decoded, ?_, valid, parent⟩, rfl, rfl⟩
  unfold RegionEntry.Inside at inside
  rw [parseMetadata_eq (by omega), if_neg (by omega),
    if_neg (not_not_intro signedContent)]
  exact MetadataItems.resolve_eq_ok blockSize diskSize hasParent
    ((congrArg (Option.getD · 512) sectorSize).trans sectorSizeEq)

end Described

/-! ## What an empty report leaves open -/

/-- A reader without a parent reads its whole disk at once exactly if every
byte is held. -/
theorem exists_readWhole_iff {data : Bytes} {metadata : VhdxMetadata}
    {bat : Bat} (allocated : data.length ≤ isizeMax)
    {reader : VhdxReader (Parent 0)}
    (plain : reader = VhdxReader.plainReader data metadata bat none)
    (sound : PresentsDisk.Sound reader) :
    (∃ bytes, (ReadSeek.read reader metadata.virtualDiskSize).1 = .ok bytes ∧
        bytes.length = metadata.virtualDiskSize) ↔
      ∀ virtualByte < metadata.virtualDiskSize,
        ByteHeld data bat virtualByte := by
  subst plain
  -- The disk of the reader, whose bytes have a value if they are held.
  obtain ⟨disk, same⟩ : ∃ disk : ReferenceDisk, disk =
      { size := metadata.virtualDiskSize
        byte := referenceByte data bat (parentByte none) } := ⟨_, rfl⟩
  have shown : PresentsDisk.disk (VhdxReader.plainReader data metadata bat
      (none : Option (Parent 0))) = disk :=
    (VhdxReader.disk_plainReader ..).trans same.symm
  obtain ⟨-, -, answer⟩ := RefinesDisk.read_step (ε := IoError)
    (VhdxReader.plainReader data metadata bat (none : Option (Parent 0)))
    metadata.virtualDiskSize sound
  have start : PresentsDisk.position (VhdxReader.plainReader data metadata bat
      (none : Option (Parent 0))) = 0 := rfl
  rw [shown, start] at answer
  have held : (∃ bytes, disk.read 0 metadata.virtualDiskSize = some bytes) ↔
      ∀ virtualByte < metadata.virtualDiskSize,
        ByteHeld data bat virtualByte := by
    rw [ReferenceDisk.exists_read_iff, same]
    refine forall_congr' fun v => ?_
    rw [← isSome_referenceByte_iff_held allocated]
    exact ⟨fun known inside => known (Nat.zero_le v) (by omega) inside,
      fun known _ _ inside => known inside⟩
  rw [← held]
  cases found : disk.read 0 metadata.virtualDiskSize with
  | none =>
      rw [found] at answer
      obtain ⟨⟨e, failed⟩, -⟩ := answer
      rw [failed]
      exact iff_of_false (fun ⟨_, delivered, _⟩ => by cases delivered)
        (fun ⟨_, delivered⟩ => by cases delivered)
  | some bytes =>
      rw [found] at answer
      have total := disk.length_of_range found
      rw [same] at total
      exact iff_of_true ⟨bytes, answer.1, total.trans (min_self _)⟩
        ⟨bytes, rfl⟩

/-- An empty report says that the magic is right and that the header in use
asks for no replay. -/
theorem emptyReport_clean {data : Bytes} (allocated : data.length ≤ isizeMax)
    {orders : SortOrders} (analysed : analyse orders data = .ok []) :
    fileMagicFindings data = [] ∧
      (∃ header, activeHeader data = some header) ∧
        ∀ header ∈ activeHeader data, header.IsClean := by
  have none : auditFindings orders data = [] := Except.ok.inj
    ((analyse_eq_ok allocated ((settles_analyse_iff allocated).mp
      (.of_eq_ok analysed))).symm.trans analysed)
  have silent : Silent (auditFindings orders data) := by
    rw [none]
    exact silent_nil
  obtain ⟨readable, headers, -, -⟩ := silent_auditFindings_iff.mp silent
  obtain ⟨header, active, emptyLog⟩ := silent_headerFindings_iff.mp headers
  refine ⟨readable, ⟨header, active⟩, fun other found => ?_⟩
  rw [active] at found
  cases found
  exact Or.inl emptyLog

/-- Nothing is reported about a full table whose first entry has a state that
the scan passes over. -/
theorem exists_fullImage {first : Nat} (small : first < 2 ^ 64)
    (unmapped : Bat.stateOf first ≠ Bat.payloadBlockFullyPresent)
    (unreported : stateFindings false 0 (Bat.stateOf first) = []) :
    ∃ image : Buffer, image.bytes = (fullPlan first).container ∧
      analyse stableOrders image.bytes = .ok [] := by
  obtain ⟨image, standard, -⟩ := @exists_standardImage _ _ _ oneBlockDisk
    (fullTable_fits first) blockItems_short rfl rfl
  obtain ⟨_, completed⟩ := image.repair_completes stableOrders
  have fits := (fits_of_settles image.allocated (.of_eq_ok completed)).1
  have returned := @analyse_eq_ok stableOrders _ image.allocated fits
  rw [fullPlan_auditFindings standard small unmapped unreported] at returned
  exact ⟨image.toBuffer, standard.bytes_eq, returned⟩

/-- The disk of that container is served if its first entry is held. -/
theorem servesWholeDisk_fullPlan_iff {first : Nat} (small : first < 2 ^ 64)
    (image : Buffer) (bytesEq : image.bytes = (fullPlan first).container) :
    ServesWholeDisk image.bytes ↔
      ∀ virtualByte < oneBlockDisk.virtualDiskSize, ByteHeld image.bytes
        { entries := fullTable first, metadata := oneBlockDisk }
        virtualByte := by
  have entriesLt : ∀ entry ∈ fullTable first, entry < 2 ^ 64 := by
    intro entry member
    rcases List.mem_cons.mp member with rfl | member
    · exact small
    · rw [(List.mem_replicate.mp member).2]
      exact Nat.two_pow_pos 64
  have opened := standardPlan_opens (fullTable_fits first) entriesLt
    (show (recordedItems (blockItems 0x100000 0x100000)).resolve =
      .ok oneBlockDisk from rfl) oneBlockDisk_valid
    (none : Option (Parent 0)) (by simp [oneBlockDisk])
  change VhdxReader.fromBytes (fullPlan first).container _ = _ at opened
  rw [← fullPlan, ← bytesEq] at opened
  have sound := VhdxReader.OpenedOver.sound (Parent.Opened.sound 0)
    (.fromBytes image none (by rintro device ⟨⟩) opened)
  rw [← exists_readWhole_iff image.allocated rfl sound]
  constructor
  · rintro ⟨reader, again, whole⟩
    rw [opened] at again
    cases again
    exact whole
  · exact fun whole => ⟨_, opened, whole⟩

theorem payloadEntry_fullTable {first virtualByte : Nat}
    (inside : virtualByte < oneBlockDisk.virtualDiskSize) :
    Bat.payloadEntry { entries := fullTable first, metadata := oneBlockDisk }
      virtualByte = some first := by
  have size : oneBlockDisk.virtualDiskSize = 0x100000 := rfl
  have block : virtualByte / 0x100000 = 0 := by omega
  change (fullTable first)[oneBlockDisk.payloadIndex
    (virtualByte / 0x100000)]? = _
  rw [block]
  rfl

end VhdxForensic
