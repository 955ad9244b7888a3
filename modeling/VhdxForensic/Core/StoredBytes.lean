import VhdxForensic.Core.Isolation

/-!
# Bytes stored in the container

The table stores a virtual byte in the container if its block is fully present,
or if it is partially present and the sector bitmap marks the sector as owned.
These are the bytes for which the read loop goes to the container.
-/

namespace VhdxForensic

open Rust Rust.Bytes Rust.Exec

/-- The sector bitmap marks the sector of a virtual byte as owned. -/
def SectorOwned (image : Bytes) (bat : Bat) (virtualByte : Nat) : Prop :=
  ∃ bitmap owners, bat.bitmapEntry virtualByte = some bitmap ∧
    Bat.stateOf bitmap = Bat.sectorBitmapBlockPresent ∧
    image[bat.bitmapByteOffset bitmap virtualByte]? = some owners ∧
    owners.toNat.testBit (bat.metadata.sectorInChunk virtualByte % 8)

/-- The byte of the container for a virtual byte exists and is the one to
read. -/
def StoredInContainer (image : Bytes) (bat : Bat) (virtualByte : Nat) : Prop :=
  ∃ entry, bat.payloadEntry virtualByte = some entry ∧
    bat.byteOffset entry virtualByte < image.length ∧
    (Bat.stateOf entry = Bat.payloadBlockFullyPresent ∨
      Bat.stateOf entry = Bat.payloadBlockPartiallyPresent ∧
        SectorOwned image bat virtualByte)

theorem Bat.resolvePayload_eq_file {bat : Bat} {virtualByte entry fileOffset :
    Nat}
    (resolved : bat.resolvePayload virtualByte entry =
      .ok (.file fileOffset)) :
    stateOf entry = payloadBlockFullyPresent ∧
      fileOffset = bat.byteOffset entry virtualByte := by
  unfold resolvePayload at resolved
  dsimp only at resolved
  split at resolved
  · cases resolved
  split at resolved
  · cases resolved
  split at resolved
  · cases resolved
  split at resolved
  case isFalse => cases resolved
  split at resolved
  case isTrue full =>
    cases resolved
    exact ⟨full, rfl⟩
  unfold resolvePartial at resolved
  dsimp only at resolved
  repeat' first | cases resolved | split at resolved

namespace VhdxReader

variable {P : Type} {reader : VhdxReader P} {virtualByte limit : Nat}

/-- A read at the virtual byte takes an existing byte of the container. -/
def ServesFromContainer (reader : VhdxReader P) (virtualByte limit : Nat) :
    Prop :=
  ∃ fileOffset count,
    reader.planChunk virtualByte limit = .ok (.file fileOffset, count) ∧
      fileOffset < reader.image.length

/-- A byte of the disk whose payload entry has the index `i` is read from the
container. -/
def ServesThrough (reader : VhdxReader P) (i : Nat) : Prop :=
  ∃ virtualByte < reader.metadata.virtualDiskSize,
    reader.metadata.payloadIndex (virtualByte / reader.metadata.blockSize) =
        i ∧
      reader.ServesFromContainer virtualByte 1

theorem planTarget_eq_file {fileOffset count : Nat} {target : ReadTarget}
    (planned : reader.planTarget virtualByte limit target =
      .ok (.file fileOffset, count)) :
    target = .file fileOffset ∨
      ∃ bitmapByteFileOffset bitmapBit owners,
        target = .partialBlock fileOffset bitmapByteFileOffset bitmapBit ∧
          reader.image[bitmapByteFileOffset]? = some owners ∧
          owners.toNat.testBit bitmapBit := by
  cases target with
  | file fileOffset =>
      cases planned
      exact Or.inl rfl
  | parent => cases planned
  | zero => cases planned
  | partialBlock fileOffset bitmapByteFileOffset bitmapBit =>
      right
      rw [planTarget] at planned
      split at planned
      · cases planned
      rename_i owners read
      split at planned
      case isFalse => cases planned
      rename_i owned
      cases planned
      exact ⟨_, _, owners, rfl, read, owned⟩

/-- Chunks that are planned to come from the container are stored there. -/
theorem storedInContainer_of_planChunk (intact : reader.Intact)
    {fileOffset count : Nat}
    (inside : virtualByte < reader.metadata.virtualDiskSize)
    (planned : reader.planChunk virtualByte limit =
      .ok (.file fileOffset, count))
    (exists_byte : fileOffset < reader.image.length) :
    StoredInContainer reader.image reader.bat virtualByte := by
  rw [planChunk_eq intact inside, Bat.readTargetForByte_eq intact.sound
    (intact.metadata_eq ▸ inside)] at planned
  obtain ⟨outcome, attempted, planned⟩ := bind_eq_ok.mp planned
  cases found : reader.bat.payloadEntry virtualByte with
  | none =>
      rw [found] at attempted
      cases attempted
      cases planned
  | some entry =>
      rw [found] at attempted
      dsimp only at attempted
      cases outcome with
      | error e => cases planned
      | ok target =>
          have resolved := eq_ok_of_attempt attempted
          rcases planTarget_eq_file planned with
            rfl | ⟨_, _, owners, rfl, read, owned⟩
          · obtain ⟨full, rfl⟩ := Bat.resolvePayload_eq_file resolved
            exact ⟨entry, found, exists_byte, Or.inl full⟩
          · obtain ⟨isPartial, -, rfl, bitmap, mapped, present, rfl, rfl⟩ :=
              Bat.resolvePayload_eq_partialBlock resolved
            exact ⟨entry, found, exists_byte, Or.inr ⟨isPartial, bitmap,
              owners, mapped, present, read, owned⟩⟩

/-- What is stored in the container is planned to come from there. -/
theorem planChunk_of_storedInContainer (intact : reader.Intact)
    (inside : virtualByte < reader.metadata.virtualDiskSize)
    (stored : StoredInContainer reader.image reader.bat virtualByte) :
    reader.ServesFromContainer virtualByte limit := by
  obtain ⟨entry, found, offsetLt, owner⟩ := stored
  have small := intact.image_small
  have representable : reader.bat.byteOffset entry virtualByte < wordCount :=
    offsetLt.trans small
  rw [ServesFromContainer, planChunk_eq intact inside,
    Bat.readTargetForByte_eq intact.sound (intact.metadata_eq ▸ inside), found]
  dsimp only
  unfold Bat.resolvePayload
  rcases owner with full | ⟨isPartial, bitmap, owners, mapped, present, read,
    owned⟩
  · dsimp only
    rw [if_neg (by rw [full]; decide), if_neg (by rw [full]; decide),
      if_neg (not_not_intro (Or.inl full)), if_pos representable,
      if_pos full]
    exact ⟨_, _, rfl, offsetLt⟩
  · have bitmapRepresentable :
        reader.bat.bitmapByteOffset bitmap virtualByte < wordCount :=
      (List.getElem?_eq_some_iff.mp read).1.trans small
    have resolved : reader.bat.resolvePartial virtualByte
        (reader.bat.byteOffset entry virtualByte) =
          .ok (.partialBlock (reader.bat.byteOffset entry virtualByte)
            (reader.bat.bitmapByteOffset bitmap virtualByte)
            (reader.bat.metadata.sectorInChunk virtualByte % 8)) := by
      unfold Bat.resolvePartial
      dsimp only
      rw [mapped]
      dsimp only
      rw [if_neg (not_not_intro present), if_pos bitmapRepresentable]
    dsimp only
    rw [if_neg (by rw [isPartial]; decide), if_neg (by rw [isPartial]; decide),
      if_neg (not_not_intro (Or.inr isPartial)), if_pos representable,
      if_neg (by rw [isPartial]; decide), resolved, attempt_ok, ok_bind]
    dsimp only
    rw [planTarget, read]
    dsimp only
    rw [if_pos owned]
    exact ⟨_, _, rfl, offsetLt⟩

/-- The read loop goes to the container for the stored bytes. -/
theorem servesFromContainer_iff (intact : reader.Intact)
    (inside : virtualByte < reader.metadata.virtualDiskSize) :
    reader.ServesFromContainer virtualByte limit ↔
      StoredInContainer reader.image reader.bat virtualByte := by
  constructor
  · rintro ⟨_, _, planned, exists_byte⟩
    exact storedInContainer_of_planChunk intact inside planned exists_byte
  · exact planChunk_of_storedInContainer intact inside

end VhdxReader

end VhdxForensic
