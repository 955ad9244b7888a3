import VhdxForensic.Core.Bat
import VhdxForensic.Core.Log
import VhdxForensic.Core.Region
import VhdxForensic.Rust.Device

/-!
# The reader

Opening a container selects the active header, replays or overlays the log,
and decodes the region table, the metadata and the block allocation table.
The opened reader is a seekable device over the virtual disk; blocks it does
not describe are read from its parent, itself a seekable device.
-/

namespace VhdxForensic

open Rust Rust.Bytes Rust.Exec

/-- `b"vhdxfile"`. -/
def fileMagic : Bytes := [0x76, 0x68, 0x64, 0x78, 0x66, 0x69, 0x6C, 0x65]

/-- An opened container over a parent device of type `P`. -/
structure VhdxReader (P : Type) where
  /-- Where the container is read from. -/
  backing : Backing
  /-- The pending writes of its log. -/
  overlay : LogOverlay
  /-- The block allocation table. -/
  bat : Bat
  /-- The decoded description. -/
  metadata : VhdxMetadata
  /-- Position of the next read. -/
  pos : Nat
  /-- Where a differencing disk reads what it lacks. -/
  parent : Option P

namespace VhdxReader

variable {P : Type}

/-- Covers the magic, both headers and both region tables. -/
def minContainerSize : Nat := 0x250000

/-! ## Opening -/

/-- Read a region and patch it with the overlay. -/
def readRegion (backing : Backing) (overlay : LogOverlay)
    (fileOffset length : Nat) : Exec VhdxError Bytes := do
  let stop := saturatingAdd fileOffset length
  failIf (backing.len < stop) .offsetOutOfBounds
  let buf ← backing.readExactAt fileOffset length
  failIf (buf.length < length) .offsetOutOfBounds
  overlay.patch buf fileOffset

/-- Decode region table, metadata and block allocation table from patched
reads. -/
def assemble (backing : Backing) (overlay : LogOverlay) (parent : Option P) :
    Exec VhdxError (VhdxReader P) := do
  let head ← backing.readExactAt 0 minContainerSize
  let head ← overlay.patch head 0
  let containerLen := backing.len
  let regions ← orElse
    (parseRegionTable head regionTable1Offset containerLen)
    (parseRegionTable head regionTable2Offset containerLen)
  let metaRegion ← readRegion backing overlay
    regions.metadata.fileOffset regions.metadata.length
  let metadata ← parseMetadata metaRegion 0 regions.metadata.length
  metadata.validate
  failIf (metadata.hasParent = true ∧ parent.isNone)
    .differencingNotSupported
  let batRegion ← readRegion backing overlay
    regions.bat.fileOffset regions.bat.length
  let bat ← Bat.parse batRegion 0 regions.bat.length metadata
  return { backing, overlay, bat, metadata, pos := 0, parent }

/-- Replay the log in place, then decode from the buffer. -/
def parseBytes (data : Bytes) (parent : Option P) :
    Exec VhdxError (VhdxReader P) := do
  failIf (data.length < 8 ∨ window data 0 8 ≠ fileMagic) .badMagic
  failIf (data.length < minContainerSize) (.containerTooSmall minContainerSize)
  let data ← apply data
  assemble (.mem data) {} parent

/-- Record the log in an overlay, then decode from patched reads. -/
def parseBacking (backing : Backing) (parent : Option P) :
    Exec VhdxError (VhdxReader P) := do
  let magic := backing.readAt 8 0
  failIf (magic.length < 8 ∨ magic ≠ fileMagic) .badMagic
  failIf (backing.len < minContainerSize) (.containerTooSmall minContainerSize)
  let head ← backing.readExactAt 0 minContainerSize
  let header ← parseActiveHeader head
  let overlay ← buildOverlay backing header
  assemble backing overlay parent

/-- `VhdxReader::from_bytes`, and `from_bytes_with_parent` with a parent. -/
def fromBytes (data : Bytes) (parent : Option P) :
    Exec VhdxError (VhdxReader P) :=
  parseBytes data parent

/-- `VhdxReader::from_backing`. -/
def fromBacking (backing : Backing) (parent : Option P) :
    Exec VhdxError (VhdxReader P) :=
  parseBacking backing parent

/-! ## Reading -/

/-- Where one pass of the read loop takes its bytes from. -/
inductive ChunkSource where
  | file (fileOffset : Nat)
  | parent
  | zero
  deriving DecidableEq, Repr

/-- Number of following sectors that share the owner of sector
`bitmapBit`, up to the end of the bitmap byte. -/
def runSectors (bitmap bitmapBit : Nat) : Nat :=
  let ownedByChild := bitmap.testBit bitmapBit
  1 + ((List.range' (bitmapBit + 1) (7 - bitmapBit)).takeWhile
    fun bit => bitmap.testBit bit = ownedByChild).length

/-- Decide the source and the length of the next chunk, of at most `limit`
bytes, at `virtualByte`. -/
def planChunk (reader : VhdxReader P) (virtualByte limit : Nat) :
    Exec IoError (ChunkSource × Nat) := do
  let blockSize := reader.metadata.blockSize
  let block ← div virtualByte blockSize
  let nextBlock ← add block 1
  let blockEnd ← mul nextBlock blockSize
  let blockRest ← sub blockEnd virtualByte
  let thisChunk := min limit blockRest
  let target ← attempt (reader.bat.readTargetForByte virtualByte)
  match target with
  | .error e => fail (.other e.message)
  | .ok (.file fileOffset) => return (.file fileOffset, thisChunk)
  | .ok .parent => return (.parent, thisChunk)
  | .ok .zero => return (.zero, thisChunk)
  | .ok (.partialBlock fileOffset bitmapByteFileOffset bitmapBit) =>
      let bitmap := reader.backing.readAt 1 bitmapByteFileOffset
      failIf (bitmap.length < 1)
        (.unexpectedEof "VHDX sector bitmap truncated")
      let bitmap ← reader.overlay.patch bitmap bitmapByteFileOffset
      let byte := (bitmap.headD 0).toNat
      let logicalSectorSize := reader.metadata.logicalSectorSize
      let sector ← div virtualByte logicalSectorSize
      let runEndSector ← add sector (runSectors byte bitmapBit)
      let runEnd ← mul runEndSector logicalSectorSize
      let runRest ← sub runEnd virtualByte
      let thisChunk := min thisChunk runRest
      if byte.testBit bitmapBit then return (.file fileOffset, thisChunk)
      else return (.parent, thisChunk)

/-- Read a chunk of the container through the overlay. -/
def readFileChunk (reader : VhdxReader P) (count fileOffset : Nat) :
    Exec IoError Bytes := do
  let bytes := reader.backing.readAt count fileOffset
  failIf (bytes.length < count) (.unexpectedEof "VHDX data truncated")
  reader.overlay.patch bytes fileOffset

/-- `ErrorKind::UnexpectedEof` of `read_exact`. -/
def readExactEof : IoError := .unexpectedEof "failed to fill whole buffer"

variable [ReadSeek IoError P]

/-- Read a chunk from the parent, or zeros when there is none. -/
def readParentChunk (parent : Option P) (count virtualByte : Nat) :
    Exec IoError Bytes × Option P :=
  match parent with
  | none => (.ok (List.replicate count 0), none)
  | some device =>
      match ReadSeek.seek device (.start virtualByte) with
      | (.error (.error e), device) => (fail (.other e.message), some device)
      | (.error .panic, device) => (panicked, some device)
      | (.error .diverges, device) => (.error .diverges, some device)
      | (.ok _, device) =>
          let (result, device) := readExact readExactEof count device
          (result, some device)

/-- One pass of the read loop: the chunk it writes and the parent after. -/
def readChunk (reader : VhdxReader P) (parent : Option P)
    (virtualByte limit : Nat) : Exec IoError Bytes × Option P :=
  match reader.planChunk virtualByte limit with
  | .error stop => (.error stop, parent)
  | .ok (.file fileOffset, count) =>
      (reader.readFileChunk count fileOffset, parent)
  | .ok (.parent, count) => readParentChunk parent count virtualByte
  | .ok (.zero, count) => (.ok (List.replicate count 0), parent)

/-- The read loop from `written` on. A pass that writes nothing would be
repeated for ever. -/
def readLoop (reader : VhdxReader P) (toRead written : Nat)
    (parent : Option P) : Exec IoError Bytes × Option P :=
  if _more : written < toRead then
    match add reader.pos written with
    | .error stop => (.error stop, parent)
    | .ok virtualByte =>
        match readChunk reader parent virtualByte (toRead - written) with
        | (.error stop, parent) => (.error stop, parent)
        | (.ok chunk, parent) =>
            if _stuck : chunk.length = 0 then (.error .diverges, parent)
            else
              match readLoop reader toRead (written + chunk.length) parent with
              | (.error stop, parent) => (.error stop, parent)
              | (.ok rest, parent) => (.ok (chunk ++ rest), parent)
  else (.ok [], parent)
termination_by toRead - written

/-- `Read::read` into a buffer of `count` bytes. -/
def read (reader : VhdxReader P) (count : Nat) :
    Exec IoError Bytes × VhdxReader P :=
  if reader.pos ≥ reader.metadata.virtualDiskSize then (.ok [], reader)
  else
    let remaining := reader.metadata.virtualDiskSize - reader.pos
    let toRead := min count remaining
    match reader.readLoop toRead 0 reader.parent with
    | (.error stop, parent) => (.error stop, { reader with parent })
    | (.ok bytes, parent) =>
        match add reader.pos bytes.length with
        | .error stop => (.error stop, { reader with parent })
        | .ok pos => (.ok bytes, { reader with parent, pos })

omit [ReadSeek IoError P] in
/-- `Seek::seek`. -/
def seek (reader : VhdxReader P) (target : SeekFrom) :
    Exec IoError Nat × VhdxReader P :=
  match seekTarget reader.metadata.virtualDiskSize reader.pos target with
  | .error stop => (.error stop, reader)
  | .ok newPos =>
      if newPos < 0 then (fail (.invalidInput "seek before start"), reader)
      else (.ok newPos.toNat, { reader with pos := newPos.toNat })

instance : ReadSeek IoError (VhdxReader P) where
  read := read
  seek := seek

end VhdxReader

/-! ## Parent chains -/

/-- There is no device of the empty type. -/
instance : ReadSeek IoError Empty where
  read device := nomatch device
  seek device := nomatch device

/-- What may stand below a reader with at most `depth` ancestors. -/
def Parent : (depth : Nat) → Type
  | 0 => Empty
  | depth + 1 => VhdxReader (Parent depth)

/-- A parent is itself a device over its own parent. -/
instance Parent.readSeek : (depth : Nat) → ReadSeek IoError (Parent depth)
  | 0 => inferInstanceAs (ReadSeek IoError Empty)
  | depth + 1 =>
      have := Parent.readSeek depth
      inferInstanceAs (ReadSeek IoError (VhdxReader (Parent depth)))

/-! ## The virtual file system source -/

/-- A reader presented as a source of positioned reads. -/
structure VhdxSource (P : Type) where
  /-- The reader behind the mutex. -/
  inner : VhdxReader P
  /-- Size of the disk, taken when the source was made. -/
  len : Nat

namespace VhdxSource

variable {P : Type} [ReadSeek IoError P]

def new (reader : VhdxReader P) : VhdxSource P where
  inner := reader
  len := reader.metadata.virtualDiskSize

/-- The read loop: fill `want` bytes, stopping early at the end. -/
def readAtLoop (reader : VhdxReader P) (want : Nat) :
    Exec IoError Bytes × VhdxReader P :=
  if _more : 0 < want then
    match reader.read want with
    | (.error stop, reader) => (.error stop, reader)
    | (.ok bytes, reader) =>
        if _ended : bytes.length = 0 then (.ok [], reader)
        else
          match readAtLoop reader (want - bytes.length) with
          | (.error stop, reader) => (.error stop, reader)
          | (.ok rest, reader) => (.ok (bytes ++ rest), reader)
  else (.ok [], reader)
termination_by want

/-- `ImageSource::read_at`: seek under the lock, then read. -/
def readAt (source : VhdxSource P) (offset count : Nat) :
    Exec IoError Bytes × VhdxSource P :=
  let avail := source.len - offset
  if avail = 0 then (.ok [], source)
  else
    let want := min count avail
    match source.inner.seek (.start offset) with
    | (.error stop, inner) => (.error stop, { source with inner })
    | (.ok _, inner) =>
        let (result, inner) := readAtLoop inner want
        (result, { source with inner })

end VhdxSource
end VhdxForensic
