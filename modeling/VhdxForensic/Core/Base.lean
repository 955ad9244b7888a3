import VhdxForensic.Rust.Bytes

/-!
# Errors, integer readers and the checksum

The error values of the reader crate, its bounds-checked little-endian
readers, and CRC-32C with the block check that headers and region tables
share.
-/

namespace VhdxForensic

open Rust Rust.Bytes Rust.Exec

/-! ## Errors -/

/-- The `std::io::Error` values the reader produces, by error kind. -/
inductive IoError where
  | other (message : String)
  | unexpectedEof (message : String)
  | invalidInput (message : String)
  deriving DecidableEq, Repr

/-- Errors of opening a container and of resolving a virtual byte. -/
inductive VhdxError where
  | badMagic
  | noValidHeader
  | invalidRegionTable
  | batRegionMissing
  | metadataRegionMissing
  | metadataMissing (item : String)
  | invalidMetadata (reason : String)
  | containerTooSmall (minimum : Nat)
  | offsetOutOfBounds
  | addressOverflow
  | sectorOutOfRange (sector size : Nat)
  | blockNotPresent (block : Nat)
  | invalidPayloadBlockState (block state : Nat)
  | sectorBitmapNotPresent (block : Nat)
  | io (cause : IoError)
  | differencingNotSupported
  deriving DecidableEq, Repr

/-- The text of an I/O error. -/
def IoError.message : IoError → String
  | .other message => message
  | .unexpectedEof message => message
  | .invalidInput message => message

/-- The `Display` text of an error. -/
def VhdxError.message : VhdxError → String
  | .badMagic => "not a VHDX file (bad magic)"
  | .noValidHeader => "no valid VHDX header found"
  | .invalidRegionTable => "region table not found or invalid"
  | .batRegionMissing => "BAT region not found in region table"
  | .metadataRegionMissing => "metadata region not found in region table"
  | .metadataMissing item => "required metadata item missing: " ++ item
  | .invalidMetadata reason =>
      "metadata value is outside valid range: " ++ reason
  | .containerTooSmall minimum =>
      "container is too small to be a valid VHDX (minimum " ++
        toString minimum ++ " bytes required)"
  | .offsetOutOfBounds =>
      "region or BAT file offset is outside the container bounds"
  | .addressOverflow =>
      "BAT entry file offset calculation overflows u64"
  | .sectorOutOfRange sector size =>
      "sector out of range (sector " ++ toString sector ++
        ", virtual disk size " ++ toString size ++ ")"
  | .blockNotPresent block =>
      "BAT entry not present for payload block " ++ toString block
  | .invalidPayloadBlockState block state =>
      "invalid payload BAT state " ++ toString state ++ " for block " ++
        toString block
  | .sectorBitmapNotPresent block =>
      "sector bitmap BAT entry is not present for partial payload block " ++
        toString block
  | .io cause => "I/O error: " ++ cause.message
  | .differencingNotSupported =>
      "VHDX has a parent locator (differencing disk not supported)"

/-! ## Integer readers -/

/-- Read a `u16`; zero when out of range. -/
def leU16 (data : Bytes) (off : Nat) : Nat := le 2 data off

/-- Read a `u32`; zero when out of range. -/
def leU32 (data : Bytes) (off : Nat) : Nat := le 4 data off

/-- Read a `u64`; zero when out of range. -/
def leU64 (data : Bytes) (off : Nat) : Nat := le 8 data off

/-- Copy a 16-byte GUID; all zeros when out of range. -/
def leArr16 (data : Bytes) (off : Nat) : Bytes :=
  if off + 16 ≤ data.length then window data off 16
  else List.replicate 16 0

theorem leU16_lt (data : Bytes) (off : Nat) : leU16 data off < 2 ^ 16 :=
  le_lt 2 data off

theorem leU32_lt (data : Bytes) (off : Nat) : leU32 data off < 2 ^ 32 :=
  le_lt 4 data off

theorem leU64_lt (data : Bytes) (off : Nat) : leU64 data off < 2 ^ 64 :=
  le_lt 8 data off

/-- Sixteen bytes that are there are read as they are. -/
theorem leArr16_eq_window {data : Bytes} {off : Nat}
    (inside : off + 16 ≤ data.length) :
    leArr16 data off = window data off 16 := if_pos inside

/-- A 32-bit read inside a window reads the string behind it. -/
theorem leU32_window {data : Bytes} {off count inner : Nat}
    (inside : inner + 4 ≤ count) (present : off + count ≤ data.length) :
    leU32 (window data off count) inner = leU32 data (off + inner) :=
  le_window inside present

/-- So does a 64-bit read. -/
theorem leU64_window {data : Bytes} {off count inner : Nat}
    (inside : inner + 8 ≤ count) (present : off + count ≤ data.length) :
    leU64 (window data off count) inner = leU64 data (off + inner) :=
  le_window inside present

/-- So does a read of sixteen bytes. -/
theorem leArr16_window {data : Bytes} {off count inner : Nat}
    (inside : inner + 16 ≤ count) (present : off + count ≤ data.length) :
    leArr16 (window data off count) inner = leArr16 data (off + inner) := by
  rw [leArr16_eq_window (by rw [length_window_of_le present]; exact inside),
    leArr16_eq_window (by omega), window_window_of_le inside]

/-! ## CRC-32C -/

/-- The reflected CRC-32C polynomial. -/
def crcPoly : BitVec 32 := 0x82F63B78#32

/-- One bit of the checksum register. -/
def crcBit (crc : BitVec 32) : BitVec 32 :=
  if crc &&& 1#32 ≠ 0#32 then (crc >>> 1) ^^^ crcPoly else crc >>> 1

/-- Feed one byte into the checksum register. -/
def crcByte (crc : BitVec 32) (byte : UInt8) : BitVec 32 :=
  crcBit^[8] (crc ^^^ byte.toBitVec.setWidth 32)

/-- The checksum register after a byte string. -/
def crcRegister (data : Bytes) : BitVec 32 :=
  data.foldl crcByte 0xFFFFFFFF#32

/-- CRC-32C of a byte string. -/
def crc32c (data : Bytes) : Nat :=
  (crcRegister data ^^^ 0xFFFFFFFF#32).toNat

theorem crc32c_lt (data : Bytes) : crc32c data < 2 ^ 32 :=
  (crcRegister data ^^^ 0xFFFFFFFF#32).isLt

/-- A block with its checksum field, bytes 4 to 8, zeroed. -/
def clearChecksum (block : Bytes) : Bytes :=
  overwrite block 4 [0, 0, 0, 0]

/-- Clearing the checksum keeps the length of a block. -/
theorem length_clearChecksum {block : Bytes} (present : 8 ≤ block.length) :
    (clearChecksum block).length = block.length :=
  length_overwrite (by simpa using present)

/-- `size` bytes at `off` that lie in the data, start with the signature and
carry the CRC-32C of themselves. -/
def BlockValid (data : Bytes) (off size : Nat) (signature : Bytes) : Prop :=
  off + size ≤ data.length ∧
    window data off 4 = signature ∧
    crc32c (clearChecksum (window data off size)) = leU32 data (off + 4)

instance (data : Bytes) (off size : Nat) (signature : Bytes) :
    Decidable (BlockValid data off size signature) :=
  inferInstanceAs (Decidable (_ ∧ _ ∧ _))

/-- Validity of a block depends only on the bytes of the block. -/
theorem blockValid_congr {left right : Bytes} {leftOff rightOff size : Nat}
    {signature : Bytes}
    (sizeEnough : 8 ≤ size)
    (leftInside : leftOff + size ≤ left.length)
    (rightInside : rightOff + size ≤ right.length)
    (same : window left leftOff size = window right rightOff size) :
    BlockValid left leftOff size signature ↔
      BlockValid right rightOff size signature := by
  have sameSignature : window left leftOff 4 = window right rightOff 4 := by
    have cut := congrArg (fun block => window block 0 4) same
    simpa [window_window_of_le (show 0 + 4 ≤ size by omega)] using cut
  have sameStored : leU32 left (leftOff + 4) = leU32 right (rightOff + 4) := by
    rw [← leU32_window (show 4 + 4 ≤ size by omega) leftInside, same,
      leU32_window (by omega) rightInside]
  simp only [BlockValid, same, sameSignature, sameStored, leftInside,
    rightInside, true_and]

end VhdxForensic
