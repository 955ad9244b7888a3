import VhdxForensic.Core.Reader
import VhdxForensic.Rust.Requests

/-!
# The reader as a computation that sends requests

Opening and reading as the requests they send to the container and to the
parent. They run on any container that answers positioned reads, whatever
happens to its state. On a backing without state they are the reader.
-/

namespace VhdxForensic

open Rust Rust.Bytes Rust.Exec Rust.Asking

/-- A request to the container. Its answer are the bytes delivered to the
front of a fresh buffer. -/
inductive ContainerRequest where
  | readAt (count offset : Nat)
  | readExactAt (offset count : Nat)
  deriving DecidableEq, Repr

/-- A request of the read loop. The parent is sought and read exactly. -/
inductive ReaderRequest where
  | container (request : ContainerRequest)
  | parent (count virtualByte : Nat)
  deriving DecidableEq, Repr

/-- Size of the buffer. -/
def ContainerRequest.size : ContainerRequest → Nat
  | .readAt count _ => count
  | .readExactAt _ count => count

/-- Size of the buffer. -/
def ReaderRequest.size : ReaderRequest → Nat
  | .container request => request.size
  | .parent count _ => count

/-- What opening decodes from a container. -/
structure Decoded where
  /-- The pending writes of the log. -/
  overlay : LogOverlay
  /-- The decoded description. -/
  metadata : VhdxMetadata
  /-- The block allocation table. -/
  bat : Bat
  deriving DecidableEq, Repr

/-! ## The requests -/

namespace ReaderProgram

/-- A computation that reads the container. -/
abbrev Opening := Asking ContainerRequest Bytes VhdxError

/-- A computation that reads the container and its parent. -/
abbrev Reading := Asking ReaderRequest Bytes IoError

/-- Read the log region of a dirty container and record its entries. -/
def buildOverlay (containerLen : Nat) (header : VhdxHeader) :
    Opening LogOverlay := do
  if header.IsClean then return {}
  else
    let logEnd := saturatingAdd header.logOffset header.logLength
    .done (failIf (containerLen < logEnd) .offsetOutOfBounds)
    let log ← send (.readExactAt header.logOffset header.logLength)
    .done (failIf (log.length < header.logLength) .offsetOutOfBounds)
    let entries ← .done (collectEntries log header.logGuid)
    .done (entries.foldlM overlayEntry {})

/-- Read a region and patch it with the overlay. -/
def readRegion (containerLen : Nat) (overlay : LogOverlay)
    (fileOffset length : Nat) : Opening Bytes := do
  let stop := saturatingAdd fileOffset length
  .done (failIf (containerLen < stop) .offsetOutOfBounds)
  let buf ← send (.readExactAt fileOffset length)
  .done (failIf (buf.length < length) .offsetOutOfBounds)
  .done (overlay.patch buf fileOffset)

/-- Decode region table, metadata and block allocation table from patched
reads. -/
def assemble (containerLen : Nat) (overlay : LogOverlay) (attached : Bool) :
    Opening Decoded := do
  let head ← send (.readExactAt 0 VhdxReader.minContainerSize)
  let head ← .done (overlay.patch head 0)
  let regions ← .done (orElse
    (parseRegionTable head regionTable1Offset containerLen)
    (parseRegionTable head regionTable2Offset containerLen))
  let metaRegion ← readRegion containerLen overlay
    regions.metadata.fileOffset regions.metadata.length
  let metadata ←
    .done (parseMetadata metaRegion 0 regions.metadata.length)
  .done metadata.validate
  .done (failIf (metadata.hasParent = true ∧ attached = false)
    .differencingNotSupported)
  let batRegion ← readRegion containerLen overlay
    regions.bat.fileOffset regions.bat.length
  let bat ← .done (Bat.parse batRegion 0 regions.bat.length metadata)
  return { overlay, metadata, bat }

/-- Record the log in an overlay, then decode from patched reads. -/
def parseBacking (containerLen : Nat) (attached : Bool) : Opening Decoded := do
  let magic ← send (.readAt 8 0)
  .done (failIf (magic.length < 8 ∨ magic ≠ fileMagic) .badMagic)
  .done (failIf (containerLen < VhdxReader.minContainerSize)
    (.containerTooSmall VhdxReader.minContainerSize))
  let head ← send (.readExactAt 0 VhdxReader.minContainerSize)
  let header ← .done (parseActiveHeader head)
  let overlay ← buildOverlay containerLen header
  assemble containerLen overlay attached

/-- Decide the source and the length of the next chunk, of at most `limit`
bytes, at `virtualByte`. -/
def planChunk (decoded : Decoded) (virtualByte limit : Nat) :
    Reading (VhdxReader.ChunkSource × Nat) := do
  let blockSize := decoded.metadata.blockSize
  let block ← .done (div virtualByte blockSize)
  let nextBlock ← .done (add block 1)
  let blockEnd ← .done (mul nextBlock blockSize)
  let blockRest ← .done (sub blockEnd virtualByte)
  let thisChunk := min limit blockRest
  let target ← .done (attempt (decoded.bat.readTargetForByte virtualByte))
  match target with
  | .error e => .done (fail (.other e.message))
  | .ok (.file fileOffset) => return (.file fileOffset, thisChunk)
  | .ok .parent => return (.parent, thisChunk)
  | .ok .zero => return (.zero, thisChunk)
  | .ok (.partialBlock fileOffset bitmapByteFileOffset bitmapBit) =>
      let bitmap ← send (.container (.readAt 1 bitmapByteFileOffset))
      .done (failIf (bitmap.length < 1)
        (.unexpectedEof "VHDX sector bitmap truncated"))
      let bitmap ← .done (decoded.overlay.patch bitmap bitmapByteFileOffset)
      let byte := (bitmap.headD 0).toNat
      let logicalSectorSize := decoded.metadata.logicalSectorSize
      let sector ← .done (div virtualByte logicalSectorSize)
      let runEndSector ←
        .done (add sector (VhdxReader.runSectors byte bitmapBit))
      let runEnd ← .done (mul runEndSector logicalSectorSize)
      let runRest ← .done (sub runEnd virtualByte)
      let thisChunk := min thisChunk runRest
      if byte.testBit bitmapBit then return (.file fileOffset, thisChunk)
      else return (.parent, thisChunk)

/-- Read a chunk from where it is stored. -/
def readSource (decoded : Decoded) (virtualByte count : Nat) :
    VhdxReader.ChunkSource → Reading Bytes
  | .file fileOffset => do
      let bytes ← send (.container (.readAt count fileOffset))
      .done (failIf (bytes.length < count)
        (.unexpectedEof "VHDX data truncated"))
      .done (decoded.overlay.patch bytes fileOffset)
  | .parent => send (.parent count virtualByte)
  | .zero => return List.replicate count 0

/-- The read loop of a reader at `pos` from `written` on. -/
def readLoop (decoded : Decoded) (pos toRead written : Nat) :
    Reading Bytes := do
  if _more : written < toRead then
    let virtualByte ← .done (add pos written)
    let (source, count) ← planChunk decoded virtualByte (toRead - written)
    let chunk ← readSource decoded virtualByte count source
    if _stuck : count = 0 then .done (.error .diverges)
    else
      let rest ← readLoop decoded pos toRead (written + count)
      return chunk ++ rest
  else return []
termination_by toRead - written

end ReaderProgram

/-! ## Containers that answer requests -/

/-- A container with state behind positioned reads. -/
class Storage (B : Type) where
  /-- Length of the container. -/
  len : B → Nat
  /-- Serve one request of the reader. -/
  answer : B → ContainerRequest → Exec IoError Bytes × B

/-- A backing without state. -/
instance : Storage Backing where
  len := Backing.len
  answer backing
    | .readAt count offset => (.ok (backing.readAt count offset), backing)
    | .readExactAt offset count => (backing.readExactAt offset count, backing)

/-- `VhdxError::from(std::io::Error)`. -/
def raiseIo {α : Type} : Exec IoError α → Exec VhdxError α
  | .ok a => .ok a
  | .error (.error e) => fail (.io e)
  | .error .panic => panicked
  | .error .diverges => .error .diverges

/-- An opened container over a parent device, both with state. -/
structure StorageReader (B P : Type) where
  /-- What serves the requests. -/
  backing : B
  /-- What the opening has decoded. -/
  decoded : Decoded
  /-- Position of the next read. -/
  pos : Nat
  /-- Where a differencing disk reads what it lacks. -/
  parent : Option P

namespace StorageReader

variable {B P : Type} [Storage B]

/-- The container answers while it is opened. -/
def answerOpening (backing : B) (request : ContainerRequest) :
    Exec VhdxError Bytes × B :=
  let (result, backing) := Storage.answer backing request
  (raiseIo result, backing)

/-- `VhdxReader::from_backing` and `from_backing_with_parent`. -/
def fromBacking (backing : B) (parent : Option P) :
    Exec VhdxError (StorageReader B P) :=
  match (ReaderProgram.parseBacking (Storage.len backing)
      parent.isSome).serve answerOpening backing with
  | (.error stop, _) => .error stop
  | (.ok decoded, backing) => .ok { backing, decoded, pos := 0, parent }

variable [ReadSeek IoError P]

/-- The container and the parent answer the read loop. -/
def answerReading (devices : B × Option P) :
    ReaderRequest → Exec IoError Bytes × (B × Option P)
  | .container request =>
      let (result, backing) := Storage.answer devices.1 request
      (result, backing, devices.2)
  | .parent count virtualByte =>
      let (result, parent) :=
        VhdxReader.readParentChunk devices.2 count virtualByte
      (result, devices.1, parent)

/-- `Read::read` into a buffer of `count` bytes. -/
def read (reader : StorageReader B P) (count : Nat) :
    Exec IoError Bytes × StorageReader B P :=
  let size := reader.decoded.metadata.virtualDiskSize
  if reader.pos ≥ size then (.ok [], reader)
  else
    let toRead := min count (size - reader.pos)
    match (ReaderProgram.readLoop reader.decoded reader.pos toRead 0).serve
        answerReading (reader.backing, reader.parent) with
    | (.error stop, backing, parent) =>
        (.error stop, { reader with backing, parent })
    | (.ok bytes, backing, parent) =>
        match add reader.pos bytes.length with
        | .error stop => (.error stop, { reader with backing, parent })
        | .ok pos => (.ok bytes, { reader with backing, parent, pos })

omit [Storage B] [ReadSeek IoError P] in
/-- `Seek::seek`. -/
def seek (reader : StorageReader B P) (target : SeekFrom) :
    Exec IoError Nat × StorageReader B P :=
  match seekTarget reader.decoded.metadata.virtualDiskSize reader.pos
      target with
  | .error stop => (.error stop, reader)
  | .ok newPos =>
      if newPos < 0 then (fail (.invalidInput "seek before start"), reader)
      else (.ok newPos.toNat, { reader with pos := newPos.toNat })

instance : ReadSeek IoError (StorageReader B P) where
  read := read
  seek := seek

end StorageReader

/-! ## Requests that are sent -/

/-- The arguments of a request are of their types, and memory holds the
buffer. -/
def ContainerRequest.Typed : ContainerRequest → Prop
  | .readAt count offset => count ≤ isizeMax ∧ offset < wordCount
  | .readExactAt offset count => count ≤ isizeMax ∧ offset < wordCount

/-- The arguments of a request are of their types, and memory holds the
buffer. -/
def ReaderRequest.Typed : ReaderRequest → Prop
  | .container request => request.Typed
  | .parent count _ => count ≤ isizeMax

/-- The addresses in a target are machine words. -/
def ReadTarget.Typed : ReadTarget → Prop
  | .file fileOffset => fileOffset < wordCount
  | .parent => True
  | .zero => True
  | .partialBlock fileOffset bitmapByteFileOffset _ =>
      fileOffset < wordCount ∧ bitmapByteFileOffset < wordCount

theorem lt_of_bind_checkedAdd {ε : Type} {base : Option Nat} {b sum : Nat}
    {e : ε}
    (found : okOr (base.bind fun a => checkedAdd a b) e = .ok sum) :
    sum < wordCount := by
  obtain ⟨a, -, added⟩ := Option.bind_eq_some_iff.mp (okOr_eq_ok.mp found)
  unfold checkedAdd at added
  split at added
  · cases added
    assumption
  · cases added

theorem Bat.typed_of_readTargetForByte {bat : Bat} {virtualByte : Nat}
    {target : ReadTarget}
    (found : bat.readTargetForByte virtualByte = .ok target) :
    target.Typed := by
  unfold readTargetForByte at found
  split at found
  · obtain ⟨sector, -, failed⟩ := bind_eq_ok.mp found
    cases failed
  obtain ⟨block, -, found⟩ := bind_eq_ok.mp found
  obtain ⟨offsetWithinBlock, -, found⟩ := bind_eq_ok.mp found
  obtain ⟨ratio, -, found⟩ := bind_eq_ok.mp found
  obtain ⟨chunk, -, found⟩ := bind_eq_ok.mp found
  obtain ⟨index, -, found⟩ := bind_eq_ok.mp found
  obtain ⟨entry, -, found⟩ := bind_eq_ok.mp found
  dsimp only at found
  split at found
  · cases found
    trivial
  split at found
  · cases found
    trivial
  split at found
  · cases found
  obtain ⟨fileOffset, located, found⟩ := bind_eq_ok.mp found
  have offsetLt := lt_of_bind_checkedAdd located
  split at found
  · cases found
    exact offsetLt
  obtain ⟨bitmapIndex, -, found⟩ := bind_eq_ok.mp found
  obtain ⟨bitmapEntry, -, found⟩ := bind_eq_ok.mp found
  obtain ⟨_, -, found⟩ := bind_eq_ok.mp found
  obtain ⟨sectorsPerBlock, -, found⟩ := bind_eq_ok.mp found
  obtain ⟨blockInChunk, -, found⟩ := bind_eq_ok.mp found
  obtain ⟨sectorInBlock, -, found⟩ := bind_eq_ok.mp found
  obtain ⟨sectorInChunk, -, found⟩ := bind_eq_ok.mp found
  obtain ⟨bitmapByte, bitmapLocated, found⟩ := bind_eq_ok.mp found
  cases found
  exact ⟨offsetLt, lt_of_bind_checkedAdd bitmapLocated⟩

namespace ReaderProgram

/-- A request of the chunk planner: to the container, and typed. -/
def FromContainer (request : ReaderRequest) : Prop :=
  ∃ inner : ContainerRequest, inner.Typed ∧ request = .container inner

theorem FromContainer.typed {request : ReaderRequest}
    (fromContainer : FromContainer request) : request.Typed := by
  obtain ⟨inner, typed, rfl⟩ := fromContainer
  exact typed

/-- A plan for a chunk of at most `limit` bytes. -/
def Planned (limit : Nat) (plan : VhdxReader.ChunkSource × Nat) : Prop :=
  plan.2 ≤ limit ∧ ∀ fileOffset, plan.1 = .file fileOffset →
    fileOffset < wordCount

theorem obeys_planChunk (decoded : Decoded) (virtualByte limit : Nat) :
    (planChunk decoded virtualByte limit).Obeys FromContainer
      (Planned limit) := by
  refine (obeys_any _).bind fun block _ => ?_
  refine (obeys_any _).bind fun nextBlock _ => ?_
  refine (obeys_any _).bind fun blockEnd _ => ?_
  refine (obeys_any _).bind fun blockRest _ => ?_
  have inLimit : min limit blockRest ≤ limit := min_le_left _ _
  have resolves : (Asking.done (attempt
      (decoded.bat.readTargetForByte virtualByte)) : Reading _).Obeys
      FromContainer fun target =>
        ∀ found, target = .ok found → ReadTarget.Typed found := by
    refine obeys_done fun target returned found isFound => ?_
    subst isFound
    cases resolved : decoded.bat.readTargetForByte virtualByte with
    | error stop =>
        rw [resolved] at returned
        cases stop <;> cases returned
    | ok target =>
        rw [resolved] at returned
        cases returned
        exact Bat.typed_of_readTargetForByte resolved
  refine resolves.bind fun target typed => ?_
  rcases target with e | target
  · trivial
  have typed := typed target rfl
  cases target with
  | file fileOffset =>
      refine ⟨inLimit, fun other same => ?_⟩
      cases same
      exact typed
  | parent => exact ⟨inLimit, fun _ impossible => by cases impossible⟩
  | zero => exact ⟨inLimit, fun _ impossible => by cases impossible⟩
  | partialBlock fileOffset bitmapByteFileOffset bitmapBit =>
      obtain ⟨offsetLt, bitmapLt⟩ := typed
      have sent : (send (.container (.readAt 1 bitmapByteFileOffset)) :
          Reading Bytes).Obeys FromContainer fun _ => True :=
        obeys_send ⟨.readAt 1 bitmapByteFileOffset,
          ⟨by decide, bitmapLt⟩, rfl⟩ fun _ => trivial
      refine sent.bind fun bitmap _ => ?_
      refine (obeys_any _).bind fun _ _ => ?_
      refine (obeys_any _).bind fun patched _ => ?_
      refine (obeys_any _).bind fun sector _ => ?_
      refine (obeys_any _).bind fun runEndSector _ => ?_
      refine (obeys_any _).bind fun runEnd _ => ?_
      refine (obeys_any _).bind fun runRest _ => ?_
      have shorter : min (min limit blockRest) runRest ≤ limit :=
        Nat.le_trans (min_le_left _ _) inLimit
      dsimp only
      split
      · refine ⟨shorter, fun other same => ?_⟩
        cases same
        exact offsetLt
      · exact ⟨shorter, fun _ impossible => by cases impossible⟩

theorem obeys_readSource (decoded : Decoded) (virtualByte : Nat)
    {limit : Nat} (allocated : limit ≤ isizeMax)
    {plan : VhdxReader.ChunkSource × Nat} (planned : Planned limit plan) :
    (readSource decoded virtualByte plan.2 plan.1).Obeys ReaderRequest.Typed
      fun _ => True := by
  obtain ⟨source, count⟩ := plan
  obtain ⟨countLe, located⟩ := planned
  dsimp only at countLe located
  cases source with
  | file fileOffset =>
      have sent : (send (.container (.readAt count fileOffset)) :
          Reading Bytes).Obeys ReaderRequest.Typed fun _ => True :=
        obeys_send ⟨Nat.le_trans countLe allocated, located _ rfl⟩
          fun _ => trivial
      refine sent.bind fun bytes _ => ?_
      exact (obeys_any _).bind fun _ _ => obeys_any _
  | parent =>
      exact obeys_send (Nat.le_trans countLe allocated) fun _ => trivial
  | zero => trivial

/-- The read loop sends typed requests. -/
theorem obeys_readLoop (decoded : Decoded) (pos : Nat) {toRead : Nat}
    (allocated : toRead ≤ isizeMax) (written : Nat) :
    (readLoop decoded pos toRead written).Obeys ReaderRequest.Typed
      fun _ => True := by
  induction remaining : toRead - written using Nat.strong_induction_on
    generalizing written with
  | _ remaining inductionHypothesis =>
      subst remaining
      rw [readLoop]
      by_cases more : written < toRead
      case neg =>
        rw [dif_neg more]
        trivial
      rw [dif_pos more]
      refine (obeys_any _).bind fun virtualByte _ => ?_
      have plans := (obeys_planChunk decoded virtualByte
        (toRead - written)).mono fun _ request => request.typed
      refine plans.bind fun plan planned => ?_
      refine (obeys_readSource decoded virtualByte (by omega) planned).bind
        fun chunk _ => ?_
      by_cases stuck : plan.2 = 0
      · rw [dif_pos stuck]
        trivial
      rw [dif_neg stuck]
      refine (inductionHypothesis _ ?_ _ rfl).bind fun rest _ => trivial
      omega

/-! ### Opening -/

section Opening

variable {containerLen : Nat}

/-- A range that ends inside the container has typed bounds. -/
theorem typed_of_inside (allocated : containerLen ≤ isizeMax)
    {offset count : Nat}
    (inside : ¬ containerLen < saturatingAdd offset count) :
    (ContainerRequest.readExactAt offset count).Typed := by
  unfold isizeMax at allocated
  have fits := (saturatingAdd_le_iff (by unfold wordCount; omega)).mp
    (Nat.le_of_not_lt inside)
  constructor
  · unfold isizeMax
    omega
  · unfold wordCount
    omega

/-- What passes a check is as it says. -/
theorem obeys_failIf (condition : Prop) [Decidable condition]
    (e : VhdxError) :
    (Asking.done (failIf condition e) : Opening Unit).Obeys
      ContainerRequest.Typed fun _ => ¬ condition := by
  refine obeys_done fun passed returned => ?_
  unfold failIf at returned
  split at returned
  · cases returned
  · assumption

theorem obeys_readRegion (allocated : containerLen ≤ isizeMax)
    (overlay : LogOverlay) (fileOffset length : Nat) :
    (readRegion containerLen overlay fileOffset length).Obeys
      ContainerRequest.Typed fun _ => True := by
  refine (obeys_failIf _ _).bind fun _ inside => ?_
  have sent : (send (.readExactAt fileOffset length) : Opening Bytes).Obeys
      ContainerRequest.Typed fun _ => True :=
    obeys_send (typed_of_inside allocated inside) fun _ => trivial
  refine sent.bind fun buf _ => ?_
  exact (obeys_any _).bind fun _ _ => obeys_any _

theorem obeys_buildOverlay (allocated : containerLen ≤ isizeMax)
    (header : VhdxHeader) :
    (buildOverlay containerLen header).Obeys ContainerRequest.Typed
      fun _ => True := by
  unfold buildOverlay
  split
  · trivial
  refine (obeys_failIf _ _).bind fun _ inside => ?_
  have sent : (send (.readExactAt header.logOffset header.logLength) :
      Opening Bytes).Obeys ContainerRequest.Typed fun _ => True :=
    obeys_send (typed_of_inside allocated inside) fun _ => trivial
  refine sent.bind fun log _ => ?_
  refine (obeys_any _).bind fun _ _ => ?_
  exact (obeys_any _).bind fun entries _ => obeys_any _

/-- The prefix with the headers and region tables is a typed request. -/
theorem obeys_head :
    (send (.readExactAt 0 VhdxReader.minContainerSize) : Opening Bytes).Obeys
      ContainerRequest.Typed fun _ => True :=
  obeys_send ⟨by decide, by decide⟩ fun _ => trivial

theorem obeys_assemble (allocated : containerLen ≤ isizeMax)
    (overlay : LogOverlay) (attached : Bool) :
    (assemble containerLen overlay attached).Obeys ContainerRequest.Typed
      fun _ => True := by
  refine obeys_head.bind fun head _ => ?_
  refine (obeys_any _).bind fun patched _ => ?_
  refine (obeys_any _).bind fun regions _ => ?_
  refine (obeys_readRegion allocated _ _ _).bind fun metaRegion _ => ?_
  refine (obeys_any _).bind fun metadata _ => ?_
  refine (obeys_any _).bind fun _ _ => ?_
  refine (obeys_any _).bind fun _ _ => ?_
  refine (obeys_readRegion allocated _ _ _).bind fun batRegion _ => ?_
  exact (obeys_any _).bind fun bat _ => trivial

/-- Opening sends typed requests. -/
theorem obeys_parseBacking (allocated : containerLen ≤ isizeMax)
    (attached : Bool) :
    (parseBacking containerLen attached).Obeys ContainerRequest.Typed
      fun _ => True := by
  have magic : (send (.readAt 8 0) : Opening Bytes).Obeys
      ContainerRequest.Typed fun _ => True :=
    obeys_send ⟨by decide, by decide⟩ fun _ => trivial
  refine magic.bind fun _ _ => ?_
  refine (obeys_any _).bind fun _ _ => ?_
  refine (obeys_any _).bind fun _ _ => ?_
  refine obeys_head.bind fun head _ => ?_
  refine (obeys_any _).bind fun header _ => ?_
  refine (obeys_buildOverlay allocated header).bind fun overlay _ => ?_
  exact obeys_assemble allocated overlay attached

end Opening

end ReaderProgram

end VhdxForensic
