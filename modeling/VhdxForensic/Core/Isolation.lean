import VhdxForensic.Core.ReferenceDisk

/-!
# Images without a parent

The flag of a differencing disk is looked at when an image is opened. Reading
asks the parent for every block that is not present and for every sector that
a sector bitmap leaves to it, whatever the flag says.
-/

namespace VhdxForensic

open Rust Rust.Bytes Rust.Exec

/-- A virtual byte is left to the parent: its block is not present, or the
block is present in part and another sector owner is recorded. -/
def LeftToParent (image : Bytes) (bat : Bat) (virtualByte : Nat) : Prop :=
  ∃ entry, bat.payloadEntry virtualByte = some entry ∧
    (Bat.stateOf entry = Bat.payloadBlockNotPresent ∨
      Bat.stateOf entry = Bat.payloadBlockPartiallyPresent ∧
        bat.byteOffset entry virtualByte < wordCount ∧
        ∃ bitmap owners, bat.bitmapEntry virtualByte = some bitmap ∧
          Bat.stateOf bitmap = Bat.sectorBitmapBlockPresent ∧
          image[bat.bitmapByteOffset bitmap virtualByte]? = some owners ∧
          ¬ owners.toNat.testBit
            (bat.metadata.sectorInChunk virtualByte % 8))

/-- The parent gives the bytes that are left to it. -/
theorem LeftToParent.referenceByte_eq {image : Bytes} {bat : Bat}
    {virtualByte : Nat} (left : LeftToParent image bat virtualByte)
    (owner : Nat → Option UInt8) :
    referenceByte image bat owner virtualByte = owner virtualByte := by
  obtain ⟨entry, found, absent | ⟨isPartial, representable, bitmap, owners,
    mapped, present, read, unowned⟩⟩ := left
  · rw [referenceByte, found]
    exact if_pos absent
  · rw [referenceByte, found]
    dsimp only
    rw [entryByte]
    rw [if_neg (by rw [isPartial]; decide), if_neg (by rw [isPartial]; decide),
      if_neg (not_not_intro (Or.inr isPartial)), if_pos representable,
      if_neg (by rw [isPartial]; decide), partialByte, mapped]
    dsimp only
    rw [if_neg (not_not_intro present), read]
    exact if_neg unowned

/-! ## Planning from the parent -/

theorem eq_ok_of_attempt {ε ε' α : Type} {run : Exec ε α} {a : α}
    (attempted : (attempt run : Exec ε' (Except ε α)) = .ok (.ok a)) :
    run = .ok a := by
  rcases run with (_ | _ | _) | a' <;> cases attempted
  rfl

section Resolve

variable {bat : Bat} {virtualByte entry : Nat}

/-- Only absent blocks are left to the parent as a whole. -/
theorem Bat.resolvePayload_eq_parent
    (resolved : bat.resolvePayload virtualByte entry = .ok .parent) :
    stateOf entry = payloadBlockNotPresent := by
  by_contra present
  unfold resolvePayload resolvePartial at resolved
  dsimp only at resolved
  rw [if_neg present] at resolved
  repeat' first | cases resolved | split at resolved

/-- A partially present block is looked up through its bitmap. -/
theorem Bat.resolvePayload_eq_partialBlock
    {fileOffset bitmapByteFileOffset bitmapBit : Nat}
    (resolved : bat.resolvePayload virtualByte entry =
      .ok (.partialBlock fileOffset bitmapByteFileOffset bitmapBit)) :
    stateOf entry = payloadBlockPartiallyPresent ∧
      bat.byteOffset entry virtualByte < wordCount ∧
      fileOffset = bat.byteOffset entry virtualByte ∧
      ∃ bitmap, bat.bitmapEntry virtualByte = some bitmap ∧
        stateOf bitmap = sectorBitmapBlockPresent ∧
        bitmapByteFileOffset = bat.bitmapByteOffset bitmap virtualByte ∧
        bitmapBit = bat.metadata.sectorInChunk virtualByte % 8 := by
  unfold resolvePayload at resolved
  dsimp only at resolved
  split at resolved
  · cases resolved
  split at resolved
  · cases resolved
  split at resolved
  · cases resolved
  rename_i present
  split at resolved
  case isFalse => cases resolved
  rename_i representable
  split at resolved
  · cases resolved
  rename_i notFull
  have isPartial := (not_not.mp present).resolve_left notFull
  unfold resolvePartial at resolved
  dsimp only at resolved
  split at resolved
  · cases resolved
  rename_i bitmap mapped
  split at resolved
  · cases resolved
  rename_i bitmapPresent
  split at resolved
  · cases resolved
    exact ⟨isPartial, representable, rfl, bitmap, mapped,
      not_not.mp bitmapPresent, rfl, rfl⟩
  · cases resolved

end Resolve

namespace VhdxReader

section Parents

variable {P Q : Type}

/-- The same container over another parent. -/
def withParent (reader : VhdxReader P) (parent : Option Q) : VhdxReader Q where
  backing := reader.backing
  overlay := reader.overlay
  bat := reader.bat
  metadata := reader.metadata
  pos := reader.pos
  parent := parent

/-- No byte of the disk is left to the parent. -/
def SelfContained (reader : VhdxReader P) : Prop :=
  ∀ virtualByte < reader.metadata.virtualDiskSize,
    ¬ LeftToParent reader.image reader.bat virtualByte

variable {reader : VhdxReader P}

/-- A chunk comes from the parent if the block is absent or if the bitmap
leaves its first sector to the parent. -/
theorem planTarget_eq_parent {virtualByte limit count : Nat}
    {target : ReadTarget}
    (planned : reader.planTarget virtualByte limit target =
      .ok (.parent, count)) :
    target = .parent ∨
      ∃ fileOffset bitmapByteFileOffset bitmapBit owners,
        target = .partialBlock fileOffset bitmapByteFileOffset bitmapBit ∧
          reader.image[bitmapByteFileOffset]? = some owners ∧
          ¬ owners.toNat.testBit bitmapBit := by
  cases target with
  | file fileOffset => cases planned
  | parent => exact Or.inl rfl
  | zero => cases planned
  | partialBlock fileOffset bitmapByteFileOffset bitmapBit =>
      right
      rw [planTarget] at planned
      split at planned
      · cases planned
      rename_i owners read
      refine ⟨_, _, _, owners, rfl, read, fun owned => ?_⟩
      rw [if_pos owned] at planned
      cases planned

/-- Only chunks at bytes that are left to the parent are planned to come from
it. -/
theorem leftToParent_of_planChunk (intact : reader.Intact)
    {virtualByte limit count : Nat}
    (inside : virtualByte < reader.metadata.virtualDiskSize)
    (planned : reader.planChunk virtualByte limit = .ok (.parent, count)) :
    LeftToParent reader.image reader.bat virtualByte := by
  rw [planChunk_eq intact inside, Bat.readTargetForByte_eq intact.sound
    (intact.metadata_eq ▸ inside)] at planned
  obtain ⟨outcome, attempted, planned⟩ := bind_eq_ok.mp planned
  cases found : reader.bat.payloadEntry virtualByte with
  | none =>
      rw [found] at attempted
      cases attempted
      cases planned
  | some entry =>
      rw [found] at attempted
      dsimp only at attempted
      cases outcome with
      | error e => cases planned
      | ok target =>
          have resolved := eq_ok_of_attempt attempted
          refine ⟨entry, found, ?_⟩
          rcases planTarget_eq_parent planned with
            rfl | ⟨_, _, _, owners, rfl, read, unowned⟩
          · exact Or.inl (Bat.resolvePayload_eq_parent resolved)
          · right
            obtain ⟨isPartial, representable, -, bitmap, mapped, present, rfl,
              rfl⟩ := Bat.resolvePayload_eq_partialBlock resolved
            exact ⟨isPartial, representable, bitmap, owners, mapped, present,
              read, unowned⟩

/-! ## Reading without the parent -/

theorem Intact.size_lt (intact : reader.Intact) :
    reader.metadata.virtualDiskSize < wordCount := by
  have sizeLe := intact.sound.valid.disk_le_max
  rw [intact.metadata_eq]
  exact sizeLe.trans_lt (by decide)

/-- It depends on the container only. -/
theorem SelfContained.of_sameContainer {after : VhdxReader P}
    (contained : reader.SelfContained)
    (same : after.backing = reader.backing ∧
      after.overlay = reader.overlay ∧ after.bat = reader.bat ∧
      after.metadata = reader.metadata) :
    after.SelfContained := by
  obtain ⟨backing, overlay, bat, metadata⟩ := same
  unfold SelfContained image
  rw [backing, overlay, bat, metadata]
  exact contained

/-- A self-contained reader never asks the parent for a chunk. -/
theorem SelfContained.planChunk_ne_parent (contained : reader.SelfContained)
    (intact : reader.Intact) {virtualByte limit count : Nat}
    (inside : virtualByte < reader.metadata.virtualDiskSize) :
    reader.planChunk virtualByte limit ≠ .ok (.parent, count) :=
  fun planned => contained virtualByte inside
    (leftToParent_of_planChunk intact inside planned)

variable [ReadSeek IoError P] [ReadSeek IoError Q]

/-- A chunk is the same over any parent, and the parent is not called. -/
theorem SelfContained.readChunk_eq (contained : reader.SelfContained)
    (intact : reader.Intact) {virtualByte : Nat} (limit : Nat)
    (inside : virtualByte < reader.metadata.virtualDiskSize)
    (parent : Option P) (other own : Option Q) :
    (reader.withParent own).readChunk other virtualByte limit =
      ((reader.readChunk parent virtualByte limit).1, other) := by
  have same : (reader.withParent own).planChunk virtualByte limit =
      reader.planChunk virtualByte limit := rfl
  rw [readChunk, readChunk, same]
  cases planned : reader.planChunk virtualByte limit with
  | error stop => rfl
  | ok plan =>
      rcases plan with ⟨_ | _ | _, count⟩
      · rfl
      · exact absurd planned (contained.planChunk_ne_parent intact inside)
      · rfl

/-- So is the read loop. -/
theorem SelfContained.readLoop_eq (contained : reader.SelfContained)
    (intact : reader.Intact) {toRead : Nat}
    (inside : reader.pos + toRead ≤ reader.metadata.virtualDiskSize)
    (written : Nat) (parent : Option P) (other own : Option Q) :
    (reader.withParent own).readLoop toRead written other =
      ((reader.readLoop toRead written parent).1, other) := by
  induction measure : toRead - written using Nat.strong_induction_on
    generalizing written parent other with
  | _ rest inductionHypothesis =>
  rw [readLoop, readLoop]
  by_cases more : written < toRead
  case neg => rw [dif_neg more, dif_neg more]
  rw [dif_pos more, dif_pos more]
  have samePos : (reader.withParent own).pos = reader.pos := rfl
  rw [samePos]
  have sizeLe := intact.size_lt
  rw [add_eq_ok (by omega)]
  dsimp only
  rw [contained.readChunk_eq intact (toRead - written) (by omega) parent other
    own]
  rcases reader.readChunk parent (reader.pos + written) (toRead - written) with
    ⟨stop | chunk, parent'⟩
  · rfl
  dsimp only
  by_cases stuck : chunk.length = 0
  · rw [dif_pos stuck, dif_pos stuck]
  rw [dif_neg stuck, dif_neg stuck,
    inductionHypothesis (toRead - (written + chunk.length)) (by omega)
      (written + chunk.length) parent' other rfl]
  rcases reader.readLoop toRead (written + chunk.length) parent' with
    ⟨stop | tail, parent''⟩ <;> rfl

/-- A read of the disk is the same over any parent. -/
theorem SelfContained.read_eq (contained : reader.SelfContained)
    (intact : reader.Intact) (count : Nat) (own : Option Q) :
    (reader.withParent own).read count =
      ((reader.read count).1, (reader.read count).2.withParent own) := by
  have samePos : (reader.withParent own).pos = reader.pos := rfl
  have sameMetadata : (reader.withParent own).metadata = reader.metadata := rfl
  have sameParent : (reader.withParent own).parent = own := rfl
  rw [read, read, samePos, sameMetadata, sameParent]
  by_cases past : reader.pos ≥ reader.metadata.virtualDiskSize
  · rw [if_pos past, if_pos past]
  rw [if_neg past, if_neg past]
  dsimp only
  rw [contained.readLoop_eq intact (by omega) 0 reader.parent own own]
  rcases reader.readLoop
      (min count (reader.metadata.virtualDiskSize - reader.pos)) 0
      reader.parent with ⟨stop | bytes, parent⟩
  · rfl
  dsimp only
  cases (add reader.pos bytes.length : Exec IoError Nat) <;> rfl

omit [ReadSeek IoError P] [ReadSeek IoError Q] in
/-- Seeking does not look at the parent. -/
theorem seek_withParent (reader : VhdxReader P) (target : SeekFrom)
    (own : Option Q) :
    (reader.withParent own).seek target =
      ((reader.seek target).1, (reader.seek target).2.withParent own) := by
  have same : (seekTarget (reader.withParent own).metadata.virtualDiskSize
      (reader.withParent own).pos target : Exec IoError Int) =
        seekTarget reader.metadata.virtualDiskSize reader.pos target := rfl
  rw [seek, seek, same]
  cases (seekTarget reader.metadata.virtualDiskSize reader.pos target :
      Exec IoError Int) with
  | error stop => rfl
  | ok newPos =>
      dsimp only
      split <;> rfl

/-- No sequence of calls shows the parent of a disk without bytes that are
left to it. -/
theorem SelfContained.outcomes_withParent (contained : reader.SelfContained)
    (intact : reader.Intact) (own : Option Q) (calls : List Call) :
    outcomes calls (reader.withParent own) = outcomes calls reader := by
  refine outcomes_map (fun reader : VhdxReader P => reader.withParent own)
    (fun reader => reader.SelfContained ∧ reader.Intact) ?_ calls reader
    ⟨contained, intact⟩
  rintro device call ⟨contained, intact⟩
  cases call with
  | read count =>
      have frame := read_frame device count
      refine ⟨⟨?_, intact.of_sameContainer frame⟩, ?_⟩
      · exact contained.of_sameContainer frame
      · exact congrArg
          (fun result : Exec IoError Bytes × VhdxReader Q =>
            (Outcome.read result.1, result.2))
          (contained.read_eq intact count own)
  | seek target =>
      obtain ⟨backing, overlay, bat, metadata, -⟩ := seek_frame device target
      have frame := And.intro backing (And.intro overlay
        (And.intro bat metadata))
      refine ⟨⟨?_, intact.of_sameContainer frame⟩, ?_⟩
      · exact contained.of_sameContainer frame
      · exact congrArg
          (fun result : Exec IoError Nat × VhdxReader Q =>
            (Outcome.seek result.1, result.2))
          (seek_withParent device target own)

end Parents

/-! ## Opening over a parent -/

/-- Two openings both fail, or give readers without an observable
difference, whatever their parents are. -/
def SameRuns {P Q : Type} [ReadSeek IoError P] [ReadSeek IoError Q]
    (left : Exec VhdxError (VhdxReader P))
    (right : Exec VhdxError (VhdxReader Q)) : Prop :=
  match left, right with
  | .ok left, .ok right => ∀ calls, outcomes calls left = outcomes calls right
  | .error _, .error _ => True
  | _, _ => False

/-- The openings of a container over any two opened readers, or without a
parent, are the same. -/
def Isolated (data : Bytes) : Prop :=
  ∀ (depth depth' : Nat) (first : Option (Parent depth))
    (second : Option (Parent depth')),
    (∀ device ∈ first, Parent.Opened depth device) →
    (∀ device ∈ second, Parent.Opened depth' device) →
      SameRuns (fromBytes data first) (fromBytes data second)

/-- A container is replayed to an image from which the description and the
table of a disk are decoded. -/
structure DecodesTo (data image : Bytes) (metadata : VhdxMetadata)
    (bat : Bat) : Prop where
  /-- The magic and the size are accepted. -/
  gate : openGate data = .ok ()
  /-- Replaying the log gives the image. -/
  applied : apply data = .ok image
  /-- The image decodes to the description and the table. -/
  decoded : decodeImage image true = .ok (metadata, bat)

/-- The flag of a differencing disk is clear. -/
def NotDifferencing (data : Bytes) : Prop :=
  ∀ image metadata bat, DecodesTo data image metadata bat →
    metadata.hasParent = false

section Openings

variable {P : Type} {data image : Bytes} {metadata : VhdxMetadata} {bat : Bat}

/-- Replay keeps the length of the container. -/
theorem length_of_apply (allocated : data.length ≤ isizeMax)
    (applied : apply data = .ok image) : image.length = data.length := by
  have small : data.length < wordCount := Buffer.length_lt ⟨data, allocated⟩
  rw [apply_eq allocated] at applied
  obtain ⟨entries, pending, replayed⟩ := bind_eq_ok.mp applied
  have headers := header_le_of_pendingEntries pending
  have safe := (settles_foldlM_applyEntry_iff small headers).mp
    (Settles.of_eq_ok replayed)
  rw [foldlM_applyEntry_eq_ok small headers safe] at replayed
  cases replayed
  exact length_applyWrites _ _

/-- What is decoded without a parent is decoded over one. -/
theorem decodeImage_true {attached : Bool}
    (decoded : decodeImage image attached = .ok (metadata, bat)) :
    decodeImage image true = .ok (metadata, bat) := by
  obtain ⟨regions, decodes, built⟩ := decodeImage_eq_ok_iff.mp decoded
  exact decodeImage_eq_ok_iff.mpr ⟨regions, ⟨decodes.regions_eq,
    decodes.metadata_eq, decodes.valid, fun _ => rfl⟩, built⟩

/-- A parent need only be attached to a differencing disk. -/
theorem decodeImage_attached {attached : Bool}
    (decoded : decodeImage image true = .ok (metadata, bat))
    (parent : metadata.hasParent = true → attached = true) :
    decodeImage image attached = .ok (metadata, bat) := by
  obtain ⟨regions, decodes, built⟩ := decodeImage_eq_ok_iff.mp decoded
  exact decodeImage_eq_ok_iff.mpr ⟨regions, ⟨decodes.regions_eq,
    decodes.metadata_eq, decodes.valid, parent⟩, built⟩

/-- Opening replays the log and assembles the reader. -/
theorem fromBytes_eq_apply (allocated : data.length ≤ isizeMax)
    (parent : Option P) :
    fromBytes data parent = (openGate data >>= fun _ =>
      apply data >>= fun image => assemble (.mem image) {} parent) := by
  rw [fromBytes_eq parent allocated, apply_eq allocated]
  cases openGate data with
  | error stop => rfl
  | ok _ =>
      cases pendingEntries data with
      | error stop => rfl
      | ok entries => rfl

theorem assemble_mem (allocated : data.length ≤ isizeMax)
    (parent : Option P) (gate : openGate data = .ok ())
    (applied : apply data = .ok image) :
    assemble (.mem image) {} parent =
      (decodeImage image parent.isSome >>= fun decoded =>
        .ok (plainReader image decoded.1 decoded.2 parent)) := by
  have large := (openGate_eq_ok_iff.mp gate).2
  have total := length_of_apply allocated applied
  rw [@assemble_eq P (.mem image) {} parent
    (show minContainerSize ≤ image.length by omega)
    (show image.length ≤ isizeMax by omega), patchedView_mem]
  rfl

/-- A container that decodes is opened. -/
theorem DecodesTo.fromBytes_eq (decodes : DecodesTo data image metadata bat)
    (allocated : data.length ≤ isizeMax) {parent : Option P}
    (attached : metadata.hasParent = true → parent.isSome = true) :
    fromBytes data parent = .ok (plainReader image metadata bat parent) := by
  rw [fromBytes_eq_apply allocated, decodes.gate, ok_bind, decodes.applied,
    ok_bind, assemble_mem allocated parent decodes.gate decodes.applied,
    decodeImage_attached decodes.decoded attached]
  rfl

/-- A container that is opened decodes. -/
theorem exists_decodesTo (allocated : data.length ≤ isizeMax)
    {parent : Option P} {reader : VhdxReader P}
    (opened : fromBytes data parent = .ok reader) :
    ∃ image metadata bat, DecodesTo data image metadata bat ∧
      reader = plainReader image metadata bat parent := by
  rw [fromBytes_eq_apply allocated] at opened
  obtain ⟨⟨⟩, gate, opened⟩ := bind_eq_ok.mp opened
  obtain ⟨image, applied, opened⟩ := bind_eq_ok.mp opened
  rw [assemble_mem allocated parent gate applied] at opened
  obtain ⟨⟨metadata, bat⟩, decoded, built⟩ := bind_eq_ok.mp opened
  cases built
  exact ⟨image, metadata, bat, ⟨gate, applied, decodeImage_true decoded⟩, rfl⟩

/-- Without entries to replay the image is the container. -/
theorem DecodesTo.image_eq (decodes : DecodesTo data image metadata bat)
    (allocated : data.length ≤ isizeMax)
    (unlogged : replayedEntries data = []) : image = data := by
  have applied := decodes.applied
  rw [apply_eq allocated] at applied
  obtain ⟨entries, pending, replayed⟩ := bind_eq_ok.mp applied
  rw [replayedEntries_of_pending decodes.gate pending] at unlogged
  rw [unlogged] at replayed
  cases replayed
  rfl

/-- Opening a disk that is not differencing. -/
theorem fromBytes_eq_ok_iff_decodesTo (allocated : data.length ≤ isizeMax)
    (alone : NotDifferencing data) (parent : Option P)
    {reader : VhdxReader P} :
    fromBytes data parent = .ok reader ↔ ∃ image metadata bat,
      DecodesTo data image metadata bat ∧
        reader = plainReader image metadata bat parent := by
  constructor
  · exact exists_decodesTo allocated
  · rintro ⟨image, metadata, bat, decodes, rfl⟩
    refine decodes.fromBytes_eq allocated fun differencing => ?_
    rw [alone _ _ _ decodes] at differencing
    cases differencing

end Openings

/-! ## When a container is isolated -/

/-- No byte of the disk that a container decodes to is left to a parent. -/
def NothingLeft (data : Bytes) : Prop :=
  ∀ image metadata bat, DecodesTo data image metadata bat →
    ∀ virtualByte < metadata.virtualDiskSize,
      ¬ LeftToParent image bat virtualByte

/-- A reader without an overlay is self-contained if no byte of its image is
left to the parent. -/
theorem selfContained_plainReader {P : Type} {image : Bytes}
    {metadata : VhdxMetadata} {bat : Bat} {parent : Option P} :
    (plainReader image metadata bat parent).SelfContained ↔
      ∀ virtualByte < metadata.virtualDiskSize,
        ¬ LeftToParent image bat virtualByte := by
  have sameImage : (plainReader image metadata bat parent).image = image :=
    patchedView_mem image
  rw [SelfContained, sameImage]
  rfl

/-- If nothing is left to a parent, the openings are the same. -/
theorem NothingLeft.isolated {data : Buffer} (nothing : NothingLeft data.bytes)
    (alone : NotDifferencing data.bytes) : Isolated data.bytes := by
  intro depth depth' first second _ _
  have opens (P : Type) (parent : Option P) (reader : VhdxReader P) :=
    @fromBytes_eq_ok_iff_decodesTo P data.bytes data.allocated alone parent
      reader
  cases opened : fromBytes data.bytes first with
  | error stop =>
      cases opened' : fromBytes data.bytes second with
      | error stop' => trivial
      | ok reader =>
          obtain ⟨image, metadata, bat, decodes, -⟩ :=
            (opens _ second reader).mp opened'
          rw [(opens _ first _).mpr ⟨image, metadata, bat, decodes, rfl⟩]
            at opened
          cases opened
  | ok reader =>
      obtain ⟨image, metadata, bat, decodes, rfl⟩ :=
        (opens _ first reader).mp opened
      rw [(opens _ second _).mpr ⟨image, metadata, bat, decodes, rfl⟩]
      intro calls
      have contained :
          (plainReader image metadata bat first).SelfContained :=
        selfContained_plainReader.mpr (nothing image metadata bat decodes)
      have intact := (intact_of_fromBytes data opened).1
      exact (contained.outcomes_withParent intact second calls).symm

/-! ## What a parent shows -/

section Shown

open PresentsDisk

/-- The visible part of a full result. -/
def shown {ε : Type} : Outcome ε → Reply
  | .read result => replyOf .bytes result
  | .seek result => replyOf .position result

/-- What a caller sees of a call is part of its full outcome. -/
theorem perform_eq_shown {P : Type} [ReadSeek IoError P] (device : P)
    (call : Call) :
    perform device call = (shown (performFully device call).1,
      (performFully device call).2) := by
  cases call <;> rfl

/-- Devices with the same results give the same replies. -/
theorem replies_of_outcomes {P Q : Type} [ReadSeek IoError P]
    [ReadSeek IoError Q] {calls : List Call} {device : P} {other : Q}
    (same : outcomes calls device = outcomes calls other) :
    replies calls device = replies calls other := by
  induction calls generalizing device other with
  | nil => rfl
  | cons call calls inductionHypothesis =>
      have first : (performFully device call).1 =
          (performFully other call).1 := (List.cons_eq_cons.mp same).1
      have later := inductionHypothesis (List.cons_eq_cons.mp same).2
      rw [replies, replies, perform_eq_shown, perform_eq_shown, first]
      cases shown (performFully other call).1 with
      | crashed => rfl
      | bytes delivered => exact congrArg _ later
      | position pos => exact congrArg _ later
      | failed => exact congrArg _ later

variable {P : Type} [ReadSeek IoError P] [PresentsDisk P]
  [RefinesDisk IoError P] {reader : VhdxReader P}

/-- Reading a byte that is left to the parent shows the byte of the parent. -/
theorem replies_of_left (sound : Sound reader) {virtualByte : Nat}
    (inside : virtualByte < reader.metadata.virtualDiskSize)
    (left : LeftToParent reader.image reader.bat virtualByte) :
    replies [.seek (.start virtualByte), .read 1] reader =
      [.position virtualByte,
        match parentByte (reader.parent.map disk) virtualByte with
        | some byte => .bytes [byte]
        | none => .failed] := by
  have sizeLt := sound.1.sound.valid.disk_le_max
  rw [← sound.1.metadata_eq] at sizeLt
  unfold VhdxMetadata.virtualDiskSizeMax at sizeLt
  have target : asI64 virtualByte = virtualByte := if_pos (by omega)
  have byte : (disk reader).byte virtualByte =
      parentByte (reader.parent.map disk) virtualByte :=
    left.referenceByte_eq _
  have size : (disk reader).size = reader.metadata.virtualDiskSize := rfl
  have one : min 1 ((disk reader).size - virtualByte) = 1 := by omega
  have sought (pos : Nat) :
      (disk reader).perform pos (.seek (.start virtualByte)) =
        (.position virtualByte, virtualByte) := by
    rw [ReferenceDisk.perform, seekTarget, target]
    dsimp only
    rw [if_neg (by omega), Int.toNat_natCast]
  have shownByte : ((disk reader).perform virtualByte (.read 1)).1 =
      match parentByte (reader.parent.map disk) virtualByte with
      | some byte => .bytes [byte]
      | none => .failed := by
    rw [ReferenceDisk.perform, ReferenceDisk.read, one, ReferenceDisk.range,
      byte]
    cases parentByte (reader.parent.map disk) virtualByte <;> rfl
  rw [replies_refine _ reader sound, ReferenceDisk.replies, sought]
  dsimp only
  rw [ReferenceDisk.replies]
  rcases performed : (disk reader).perform virtualByte (.read 1) with
    ⟨reply, pos⟩
  rw [performed] at shownByte
  dsimp only at shownByte
  subst shownByte
  cases parentByte (reader.parent.map disk) virtualByte <;> rfl

end Shown

/-! ## Disks of one block as parents -/

/-- A disk of one block of 1 MiB with the given table entry. -/
def blockContainer (entry : Nat) (extra : List Run) : Bytes :=
  (standardPlan (diskItems guidVirtualDiskSize) [entry] extra).container

/-- The reader of that disk. -/
def blockReader (entry : Nat) (extra : List Run) : VhdxReader (Parent 0) :=
  plainReader (blockContainer entry extra) oneBlockDisk
    { entries := [entry], metadata := oneBlockDisk } none

/-- The entry and the pieces can be encoded. -/
structure BlockFits (entry : Nat) (extra : List Run) : Prop where
  /-- The entry is a 64-bit value. -/
  entry_lt : entry < 2 ^ 64
  /-- The further pieces do not overlap. -/
  extra_apart : extra.Pairwise Run.Apart
  /-- They lie behind the table. -/
  extra_place : ∀ piece ∈ extra,
    0x400000 ≤ piece.1 ∧ piece.1 + piece.2.length ≤ 0x600000

section Block

open PresentsDisk

variable {entry : Nat} {extra : List Run}

theorem BlockFits.standardFits (fits : BlockFits entry extra) :
    StandardFits (diskItems guidVirtualDiskSize) [entry] extra :=
  ⟨diskItems_fit rfl, show 1 ≤ 0x20000 by decide, fits.extra_apart,
    fits.extra_place⟩

theorem allocated_blockContainer (entry : Nat) (extra : List Run) :
    (blockContainer entry extra).length ≤ isizeMax := by
  rw [blockContainer, ContainerPlan.length_container]
  exact show 0x600000 ≤ isizeMax by decide

def blockBuffer (entry : Nat) (extra : List Run) : Buffer where
  bytes := blockContainer entry extra
  allocated := allocated_blockContainer entry extra

theorem bytes_blockBuffer :
    (blockBuffer entry extra).bytes = blockContainer entry extra := by
  rw [blockBuffer]

/-- The container opens over any parent and without one. -/
theorem BlockFits.opens {P : Type} (fits : BlockFits entry extra)
    (parent : Option P) :
    fromBytes (blockBuffer entry extra).bytes parent =
      .ok (plainReader (blockContainer entry extra) oneBlockDisk
        { entries := [entry], metadata := oneBlockDisk } parent) := by
  rw [bytes_blockBuffer]
  exact standardPlan_opens fits.standardFits
    (fun stored member => by
      rw [List.mem_singleton.mp member]
      exact fits.entry_lt)
    recordedItems_diskItems oneBlockDisk_valid parent
    (fun differencing => by cases differencing)

/-- The reader of a container of one block is an opened one. -/
theorem BlockFits.opened (fits : BlockFits entry extra) :
    Parent.Opened 1 (blockReader entry extra) := by
  change OpenedOver (Parent.Opened 0) (blockReader entry extra)
  have opened := fits.opens (none : Option (Parent 0))
  exact OpenedOver.fromBytes (blockBuffer entry extra) none (by simp) opened

/-- All bytes of the disk have the one entry. -/
theorem payloadEntry_block {virtualByte : Nat}
    (inside : virtualByte < 0x100000) :
    Bat.payloadEntry { entries := [entry], metadata := oneBlockDisk }
      virtualByte = some entry := by
  have block : virtualByte / oneBlockDisk.blockSize = 0 :=
    Nat.div_eq_of_lt inside
  rw [Bat.payloadEntry, block, VhdxMetadata.payloadIndex, Nat.zero_div]
  rfl

/-- Every byte of the disk is governed by the entry. -/
theorem blockReader_byte {virtualByte : Nat} (inside : virtualByte < 0x100000) :
    (disk (blockReader entry extra)).byte virtualByte =
      entryByte (blockContainer entry extra)
        { entries := [entry], metadata := oneBlockDisk } (parentByte none)
        entry virtualByte := by
  have image : (blockReader entry extra).image = blockContainer entry extra :=
    patchedView_mem _
  have bat : (blockReader entry extra).bat =
      { entries := [entry], metadata := oneBlockDisk } := rfl
  change referenceByte (blockReader entry extra).image _ _ _ = _
  rw [image, bat, referenceByte, payloadEntry_block inside]
  rfl

/-- A table entry in a reserved state gives no byte a value. -/
theorem parentByte_reserved (virtualByte : Nat) :
    parentByte (some (disk (blockReader 4 []))) virtualByte = none := by
  have size : (disk (blockReader 4 [])).size = 0x100000 := rfl
  rw [parentByte, size]
  by_cases inside : virtualByte < 0x100000
  · rw [if_pos inside, blockReader_byte inside]
    rfl
  · rw [if_neg inside]

theorem reserved_fits : BlockFits 4 [] :=
  ⟨by decide, List.Pairwise.nil, by simp⟩

/-- What an opened container shows of a byte that is left to its parent. -/
theorem replies_plainReader {data : Buffer} {image : Bytes}
    {metadata : VhdxMetadata} {bat : Bat} {depth : Nat}
    {parent : Option (Parent depth)}
    (parents : ∀ device ∈ parent, Parent.Opened depth device)
    (opened : fromBytes data.bytes parent =
      .ok (plainReader image metadata bat parent)) {virtualByte : Nat}
    (inside : virtualByte < metadata.virtualDiskSize)
    (left : LeftToParent image bat virtualByte) :
    replies [.seek (.start virtualByte), .read 1]
        (plainReader image metadata bat parent) =
      [.position virtualByte,
        match parentByte (parent.map disk) virtualByte with
        | some byte => .bytes [byte]
        | none => .failed] := by
  have sound : Sound (plainReader image metadata bat parent) :=
    ⟨(intact_of_fromBytes data opened).1, fun device member =>
      Parent.Opened.sound depth device (parents device member)⟩
  have sameImage : (plainReader image metadata bat parent).image = image :=
    patchedView_mem image
  refine replies_of_left sound inside ?_
  rw [sameImage]
  exact left

end Block

section Isolation

open PresentsDisk

variable {data : Buffer}

/-- If the openings are the same, nothing is left to a parent. -/
theorem Isolated.nothingLeft (isolated : Isolated data.bytes)
    (alone : NotDifferencing data.bytes) : NothingLeft data.bytes := by
  intro image metadata bat decodes virtualByte inside left
  have unattached {attached : Prop} :
      metadata.hasParent = true → attached := by
    rw [alone _ _ _ decodes]
    exact fun impossible => by cases impossible
  have opened := @DecodesTo.fromBytes_eq (Parent 0) _ _ _ _ decodes
    data.allocated none unattached
  -- The second parent has no byte that can be read.
  have opened' := @DecodesTo.fromBytes_eq (Parent 1) _ _ _ _ decodes
    data.allocated (some (blockReader 4 [])) unattached
  have parents : ∀ device ∈ (some (blockReader 4 []) : Option (Parent 1)),
      Parent.Opened 1 device := by
    rintro device ⟨⟩
    exact reserved_fits.opened
  have noParents : ∀ device ∈ (none : Option (Parent 0)),
      Parent.Opened 0 device := by
    rintro device ⟨⟩
  have same := isolated 0 1 none (some (blockReader 4 [])) noParents parents
  rw [opened, opened'] at same
  have sameReplies := replies_of_outcomes
    (same [.seek (.start virtualByte), .read 1])
  rw [replies_plainReader noParents opened inside left,
    replies_plainReader parents opened' inside left] at sameReplies
  have missing : parentByte (Option.map disk
      (some (blockReader 4 []) : Option (Parent 1))) virtualByte = none :=
    parentByte_reserved virtualByte
  rw [missing] at sameReplies
  exact absurd sameReplies (by simp [parentByte])

/-- A disk that is not differencing shows nothing of the parent it is opened
with if no block of it is absent and every sector of its partially present
blocks is its own. -/
theorem isolated_iff (alone : NotDifferencing data.bytes) :
    Isolated data.bytes ↔ NothingLeft data.bytes :=
  ⟨fun isolated => isolated.nothingLeft alone,
    fun nothing => nothing.isolated alone⟩

end Isolation

section Shown

open PresentsDisk

/-- A container of one block is not a differencing disk. -/
theorem BlockFits.notDifferencing {entry : Nat} {extra : List Run}
    (fits : BlockFits entry extra) :
    NotDifferencing (blockBuffer entry extra).bytes := by
  intro image metadata bat decodes
  have opened := @DecodesTo.fromBytes_eq Unit _ _ _ _ decodes
    (blockBuffer entry extra).allocated (some ()) fun _ => rfl
  have opened' := fits.opens (some ())
  have same : (Except.ok (plainReader image metadata bat (some ())) :
      Exec VhdxError (VhdxReader Unit)) = _ := opened.symm.trans opened'
  have sameMetadata : metadata = oneBlockDisk :=
    congrArg VhdxReader.metadata (Except.ok.inj same)
  rw [sameMetadata]
  rfl

theorem absent_fits : BlockFits 0 [] :=
  ⟨by decide, List.Pairwise.nil, by simp⟩

/-- The condition at a disk whose only block is absent. -/
theorem isolated_iff_absent :
    Isolated (blockBuffer 0 []).bytes ↔ NothingLeft (blockBuffer 0 []).bytes :=
  isolated_iff absent_fits.notDifferencing

/-- A disk of which the first byte is a seven. -/
def sevenReader : VhdxReader (Parent 0) :=
  blockReader 0x400006 [(0x400000, [7])]

theorem seven_fits : BlockFits 0x400006 [(0x400000, [7])] :=
  ⟨by decide, List.pairwise_singleton _ _, by
    intro piece member
    rw [List.mem_singleton.mp member]
    decide⟩

/-- The first byte of this parent is 7. -/
theorem parentByte_seven :
    parentByte (some (disk sevenReader)) 0 = some 7 := by
  have held := (standardPlan_fits seven_fits.standardFits).holds_region
    (show (0x400000, [7]) ∈ (standardPlan (diskItems guidVirtualDiskSize)
      [0x400006] [(0x400000, [7])]).regions by simp [standardPlan])
  have byte : (blockContainer 0x400006 [(0x400000, [7])])[0x400000]? =
      some 7 := by
    have first := congrArg (fun bytes : Bytes => bytes[0]?) held
    rw [show ([7] : Bytes).length = 1 from rfl] at first
    rw [getElem?_window, if_pos (by decide)] at first
    exact first
  have size : (disk sevenReader).size = 0x100000 := rfl
  have full : entryByte (blockContainer 0x400006 [(0x400000, [7])])
      { entries := [0x400006], metadata := oneBlockDisk } (parentByte none)
      0x400006 0 =
        (blockContainer 0x400006 [(0x400000, [7])])[0x400000]? := by
    have place : Bat.byteOffset
        { entries := [0x400006], metadata := oneBlockDisk } 0x400006 0 =
          0x400000 := by decide
    rw [entryByte]
    rw [if_neg (by decide), if_neg (by decide), if_neg (by decide), place,
      if_pos (by decide), if_pos (by decide)]
  rw [parentByte, size, if_pos (by decide), sevenReader,
    blockReader_byte (by decide), full, byte]

/-- The first byte is zero without a parent and `byte` over the device. -/
def ShowsByte (data : Bytes) (device : Parent 1) (byte : UInt8) : Prop :=
  ∃ (alone : VhdxReader (Parent 0)) (attached : VhdxReader (Parent 1)),
    fromBytes data none = .ok alone ∧
    fromBytes data (some device) = .ok attached ∧
    replies [.seek (.start 0), .read 1] alone = [.position 0, .bytes [0]] ∧
    replies [.seek (.start 0), .read 1] attached =
      [.position 0, .bytes [byte]]

section Absent

variable {entry : Nat} {extra : List Run} {device : Parent 1} {byte : UInt8}

/-- An absent block shows the bytes of a supplied parent. -/
theorem BlockFits.showsByte (fits : BlockFits entry extra)
    (absent : Bat.stateOf entry = Bat.payloadBlockNotPresent)
    (deviceOpened : Parent.Opened 1 device)
    (shows : parentByte (some (disk device)) 0 = some byte) :
    ShowsByte (blockBuffer entry extra).bytes device byte := by
  have left : LeftToParent (blockContainer entry extra)
      { entries := [entry], metadata := oneBlockDisk } 0 :=
    ⟨entry, payloadEntry_block (by decide), Or.inl absent⟩
  have inside : 0 < oneBlockDisk.virtualDiskSize := by decide
  have opened := fits.opens (none : Option (Parent 0))
  have opened' := fits.opens (some device)
  have parents : ∀ other ∈ some device, Parent.Opened 1 other := by
    rintro other ⟨⟩
    exact deviceOpened
  have noParents : ∀ other ∈ (none : Option (Parent 0)),
      Parent.Opened 0 other := by
    rintro other ⟨⟩
  have zero := replies_plainReader noParents opened inside left
  have shown := replies_plainReader parents opened' inside left
  rw [Option.map_some, shows] at shown
  exact ⟨_, _, opened, opened', zero, shown⟩

/-- A byte of the parent that shows breaks the isolation. -/
theorem ShowsByte.not_isolated {data : Bytes}
    (shows : ShowsByte data device byte) (nonzero : byte ≠ 0)
    (deviceOpened : Parent.Opened 1 device) : ¬ Isolated data := by
  intro isolated
  obtain ⟨alone, attached, opened, opened', zero, shown⟩ := shows
  have same := isolated 0 1 none (some device) (by simp) (by
    rintro other ⟨⟩
    exact deviceOpened)
  rw [opened, opened'] at same
  have sameReplies := replies_of_outcomes (same [.seek (.start 0), .read 1])
  rw [zero, shown] at sameReplies
  simp only [List.cons.injEq, Reply.bytes.injEq, and_true, true_and]
    at sameReplies
  exact nonzero sameReplies.symm

end Absent

/-- A disk that is not differencing, whose block is absent, shows the first
byte of another disk. -/
theorem absentBlock_shows_parent :
    NotDifferencing (blockBuffer 0 []).bytes ∧
      Parent.Opened 1 sevenReader ∧
      ShowsByte (blockBuffer 0 []).bytes sevenReader 7 ∧
      ¬ Isolated (blockBuffer 0 []).bytes := by
  have shows : ShowsByte (blockBuffer 0 []).bytes sevenReader 7 :=
    absent_fits.showsByte rfl seven_fits.opened parentByte_seven
  exact ⟨absent_fits.notDifferencing, seven_fits.opened, shows,
    shows.not_isolated (by decide) seven_fits.opened⟩

end Shown

end VhdxReader

end VhdxForensic
