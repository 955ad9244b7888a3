import VhdxForensic.Core.Encoding

/-!
# Opening in place and through an overlay

A reader behaves like the reader over a plain buffer that holds its patched
view. Two readers with the same patched view are therefore indistinguishable,
and the two ways of opening agree exactly when replay in place and the overlay
produce the same bytes.
-/

namespace VhdxForensic

open Rust Rust.Bytes Rust.Exec

namespace VhdxReader

variable {P : Type}

/-! ## Plain readers -/

/-- The container bytes a reader sees. -/
def image (reader : VhdxReader P) : Bytes :=
  patchedView reader.backing reader.overlay

/-- The reader over a buffer that holds the bytes it sees. -/
def plain (reader : VhdxReader P) : VhdxReader P :=
  { reader with backing := .mem reader.image, overlay := {} }

/-- Applying the overlay shows the same image. -/
@[simp] theorem image_plain (reader : VhdxReader P) :
    reader.plain.image = reader.image := patchedView_mem _

@[simp] theorem pos_plain (reader : VhdxReader P) :
    reader.plain.pos = reader.pos := rfl

@[simp] theorem metadata_plain (reader : VhdxReader P) :
    reader.plain.metadata = reader.metadata := rfl

@[simp] theorem parent_plain (reader : VhdxReader P) :
    reader.plain.parent = reader.parent := rfl

section Plain

variable {reader : VhdxReader P}

/-- The backing has a length that a machine can address. -/
def Addressable (reader : VhdxReader P) : Prop :=
  reader.backing.view.length < wordCount

theorem Addressable.plain (addressable : reader.Addressable) :
    reader.plain.Addressable := by
  change (patchedView reader.backing reader.overlay).length < wordCount
  rw [length_patchedView]
  exact addressable

/-- Reading a chunk of the container reads the bytes the reader sees. -/
theorem readFileChunk_eq (addressable : reader.Addressable)
    (count fileOffset : Nat) :
    reader.readFileChunk count fileOffset =
      if (window reader.image fileOffset count).length < count then
        fail (.unexpectedEof "VHDX data truncated")
      else .ok (window reader.image fileOffset count) := by
  rw [readFileChunk, failIf_bind, length_readAt reader.overlay,
    patch_readAt addressable]
  rfl

/-- The sector bitmap byte at a container offset, as the reader sees it. -/
theorem bitmapByte_eq {ε : Type} (addressable : reader.Addressable)
    (offset : Nat) (next : Bytes → Exec IoError ε) :
    (failIf ((reader.backing.readAt 1 offset).length < 1)
        (.unexpectedEof "VHDX sector bitmap truncated") >>= fun _ =>
          reader.overlay.patch (reader.backing.readAt 1 offset) offset >>=
            next) =
      if (window reader.image offset 1).length < 1 then
        fail (.unexpectedEof "VHDX sector bitmap truncated")
      else next (window reader.image offset 1) := by
  rw [failIf_bind, length_readAt reader.overlay,
    patch_readAt addressable]
  rfl

/-- Reading from the container gives the same bytes. -/
theorem readFileChunk_plain (addressable : reader.Addressable)
    (count fileOffset : Nat) :
    reader.plain.readFileChunk count fileOffset =
      reader.readFileChunk count fileOffset := by
  rw [readFileChunk_eq addressable, readFileChunk_eq addressable.plain,
    image_plain]

/-- The same chunks are planned. -/
theorem planChunk_plain (addressable : reader.Addressable)
    (virtualByte limit : Nat) :
    reader.plain.planChunk virtualByte limit =
      reader.planChunk virtualByte limit := by
  unfold planChunk
  dsimp only
  simp only [bitmapByte_eq addressable, bitmapByte_eq addressable.plain,
    image_plain]
  rfl

variable [ReadSeek IoError P]

/-- The same chunks are read. -/
theorem readChunk_plain (addressable : reader.Addressable)
    (parent : Option P) (virtualByte limit : Nat) :
    reader.plain.readChunk parent virtualByte limit =
      reader.readChunk parent virtualByte limit := by
  unfold readChunk
  simp only [planChunk_plain addressable, readFileChunk_plain addressable]

/-- The loop over the chunks reads the same bytes. -/
theorem readLoop_plain (addressable : reader.Addressable)
    (toRead written : Nat) (parent : Option P) :
    reader.plain.readLoop toRead written parent =
      reader.readLoop toRead written parent := by
  -- Every pass that goes on writes at least one byte.
  induction remaining : toRead - written using Nat.strong_induction_on
    generalizing written parent with
  | _ remaining inductionHypothesis =>
      subst remaining
      rw [readLoop, readLoop]
      by_cases more : written < toRead
      case neg => rw [dif_neg more, dif_neg more]
      rw [dif_pos more, dif_pos more, pos_plain]
      cases add (ε := IoError) reader.pos written with
      | error stop => rfl
      | ok virtualByte =>
          simp only [readChunk_plain addressable]
          rcases reader.readChunk parent virtualByte (toRead - written) with
            ⟨stop | chunk, after⟩
          · rfl
          · dsimp only
            by_cases stuck : chunk.length = 0
            · rw [dif_pos stuck, dif_pos stuck]
            · rw [dif_neg stuck, dif_neg stuck, inductionHypothesis
                (toRead - (written + chunk.length)) (by omega) _ _ rfl]

/-- So does a whole read, which leaves the reader in the same state. -/
theorem read_plain (addressable : reader.Addressable) (count : Nat) :
    reader.plain.read count =
      ((reader.read count).1, (reader.read count).2.plain) := by
  unfold read
  rw [pos_plain, metadata_plain, parent_plain]
  by_cases ended : reader.pos ≥ reader.metadata.virtualDiskSize
  · rw [if_pos ended, if_pos ended]
  · rw [if_neg ended, if_neg ended]
    dsimp only
    rw [readLoop_plain addressable]
    rcases reader.readLoop (min count
        (reader.metadata.virtualDiskSize - reader.pos)) 0 reader.parent with
      ⟨stop | bytes, after⟩
    · rfl
    · dsimp only
      cases add (ε := IoError) reader.pos bytes.length <;> rfl

omit [ReadSeek IoError P] in
/-- Seeking does not look at the container. -/
theorem seek_plain (target : SeekFrom) :
    reader.plain.seek target =
      ((reader.seek target).1, (reader.seek target).2.plain) := by
  unfold seek
  rw [metadata_plain, pos_plain]
  cases seekTarget (ε := IoError) reader.metadata.virtualDiskSize reader.pos
      target with
  | error stop => rfl
  | ok newPos =>
      dsimp only
      split <;> rfl

/-- Reading leaves everything but the position and the parent alone. -/
theorem read_frame (reader : VhdxReader P) (count : Nat) :
    (reader.read count).2.backing = reader.backing ∧
      (reader.read count).2.overlay = reader.overlay ∧
      (reader.read count).2.bat = reader.bat ∧
      (reader.read count).2.metadata = reader.metadata := by
  unfold read
  split
  · exact ⟨rfl, rfl, rfl, rfl⟩
  · dsimp only
    split
    · exact ⟨rfl, rfl, rfl, rfl⟩
    · split <;> exact ⟨rfl, rfl, rfl, rfl⟩

omit [ReadSeek IoError P] in
/-- Seeking leaves everything but the position alone. -/
theorem seek_frame (reader : VhdxReader P) (target : SeekFrom) :
    (reader.seek target).2.backing = reader.backing ∧
      (reader.seek target).2.overlay = reader.overlay ∧
      (reader.seek target).2.bat = reader.bat ∧
      (reader.seek target).2.metadata = reader.metadata ∧
      (reader.seek target).2.parent = reader.parent := by
  unfold seek
  split
  · exact ⟨rfl, rfl, rfl, rfl, rfl⟩
  · split <;> exact ⟨rfl, rfl, rfl, rfl, rfl⟩

/-- A reader and its plain form give the same results for ever. -/
theorem outcomes_plain (calls : List Call)
    (addressable : reader.Addressable) :
    outcomes calls reader.plain = outcomes calls reader := by
  refine outcomes_map plain Addressable ?_ calls reader addressable
  intro device call holds
  cases call with
  | read count =>
      constructor
      · have frame := (read_frame device count).1
        unfold Addressable
        change (device.read count).2.backing.view.length < _
        rw [frame]
        exact holds
      · exact congrArg
          (fun result : Exec IoError Bytes × VhdxReader P =>
            (Outcome.read result.1, result.2)) (read_plain holds count)
  | seek target =>
      constructor
      · have frame := (seek_frame device target).1
        unfold Addressable
        change (device.seek target).2.backing.view.length < _
        rw [frame]
        exact holds
      · exact congrArg
          (fun result : Exec IoError Nat × VhdxReader P =>
            (Outcome.seek result.1, result.2)) (seek_plain target)

end Plain

/-! ## Agreement of the two openings -/

/-- Two openings both fail, or give readers without an observable
difference. -/
def SameOpening [ReadSeek IoError P]
    (left right : Exec VhdxError (VhdxReader P)) : Prop :=
  match left, right with
  | .ok left, .ok right => ∀ calls, outcomes calls left = outcomes calls right
  | .error (.error _), .error (.error _) => True
  | _, _ => False

/-- Patching a read of the untouched container gives the replayed bytes. -/
def PatchedReadsAgree (data : Bytes) : Prop :=
  ∀ header image overlay,
    openGate data = .ok () → parseActiveHeader data = .ok header →
    apply data = .ok image → buildOverlay (.mem data) header = .ok overlay →
    ∀ off count, off + count ≤ data.length →
      overlay.patch (window data off count) off =
        (.ok (window image off count) : Exec VhdxError Bytes)

/-- The two ways of opening a container are observationally the same. -/
def OpeningsAgree (data : Bytes) : Prop :=
  (∀ (P : Type) [ReadSeek IoError P] (parent : Option P),
    SameOpening (fromBytes data parent) (fromBacking (.mem data) parent)) ∧
  PatchedReadsAgree data

/-- The writes a container has replayed, in replay order. -/
def replayedWrites (data : Bytes) : List LogWrite :=
  entryWrites (replayedEntries data)

/-- Every replayed entry is safe for both ways of opening. -/
def ReplaySafe (data : Bytes) : Prop :=
  ∀ entry ∈ replayedEntries data,
    LogEntry.ApplySafe entry ∧ LogEntry.OverlaySafe entry

instance (data : Bytes) : Decidable (ReplaySafe data) :=
  inferInstanceAs (Decidable (∀ entry ∈ _, _))

/-- Where a data sector runs over the end of the container, the bytes it
would leave inside are those that the writes inside the container leave. -/
def ClippedSectorsHidden (data : Bytes) : Prop :=
  ∀ write ∈ replayedWrites data, ¬ write.LandsIn data.length →
    ∀ pos byte, data[pos]? = some byte → write.run.Covers pos →
      settle ((replayedWrites data).map LogWrite.run) pos byte =
        settle (((replayedWrites data).filter fun write =>
          write.LandsIn data.length).map LogWrite.run) pos byte

/-- Openings that agree both settle. -/
theorem SameOpening.settles [ReadSeek IoError P]
    {left right : Exec VhdxError (VhdxReader P)}
    (same : SameOpening left right) : Settles left ∧ Settles right := by
  unfold SameOpening at same
  split at same
  · exact ⟨settles_ok _, settles_ok _⟩
  · exact ⟨settles_fail _, settles_fail _⟩
  · exact same.elim

/-- Dropping the clipped sectors changes no byte exactly when they are
hidden. -/
theorem clippedSectorsHidden_iff {data : Bytes} :
    ClippedSectorsHidden data ↔
      ∀ pos byte, data[pos]? = some byte →
        settle ((replayedWrites data).map LogWrite.run) pos byte =
          settle (((replayedWrites data).filter fun write =>
            write.LandsIn data.length).map LogWrite.run) pos byte := by
  constructor
  · intro hidden pos byte present
    by_cases clipped : ∃ write ∈ replayedWrites data,
        ¬ write.LandsIn data.length ∧ write.run.Covers pos
    · obtain ⟨write, member, leaves, covers⟩ := clipped
      exact hidden write member leaves pos byte present covers
    · generalize replayedWrites data = list at *
      clear hidden present
      induction list generalizing byte with
      | nil => rfl
      | cons write list inductionHypothesis =>
          have rest := fun byte => inductionHypothesis byte fun ⟨later, member,
            both⟩ => clipped ⟨later, by simp [member], both⟩
          by_cases lands : write.LandsIn data.length
          · rw [List.filter_cons_of_pos (by simpa using lands), List.map_cons,
              List.map_cons, settle_cons, settle_cons, rest]
          · rw [List.filter_cons_of_neg (by simpa using lands), List.map_cons,
              settle_cons, Run.put_of_not_covers byte fun covers =>
                clipped ⟨write, by simp, lands, covers⟩, rest]
  · intro same write _ _ pos byte present _
    exact same pos byte present

section Replay

variable {data : Bytes} {entries : List Bytes}

/-- What replay in place and the overlay make of a safe log. -/
theorem replay_eq_ok
    (allocated : data.length ≤ isizeMax)
    (pending : pendingEntries data = .ok entries)
    (safe : ∀ entry ∈ entries,
      LogEntry.ApplySafe entry ∧ LogEntry.OverlaySafe entry) :
    (entries.foldlM applyEntry data : Exec VhdxError Bytes) =
        .ok (replayFrom 0 (((entryWrites entries).filter fun write =>
          write.LandsIn data.length).map LogWrite.run) data) ∧
      ∃ overlay : LogOverlay,
        (entries.foldlM overlayEntry {} : Exec VhdxError LogOverlay) =
            .ok overlay ∧
          replayFrom 0 overlay.runs data =
            replayFrom 0 ((entryWrites entries).map LogWrite.run) data := by
  have small : data.length < wordCount := Buffer.length_lt ⟨data, allocated⟩
  have headers := header_le_of_pendingEntries pending
  constructor
  · rw [foldlM_applyEntry_eq_ok small headers fun entry member =>
      (safe entry member).1, applyWrites_eq_replayFrom]
  · refine ⟨_, foldlM_overlayEntry_eq_ok headers fun entry member =>
      (safe entry member).2, ?_⟩
    apply replayFrom_congr
    intro index byte _
    rw [LogOverlay.runs_foldl_record]
    exact LogOverlay.settle_nonempty _ _ _

end Replay

/-- Readers assembled over equal views are indistinguishable. -/
theorem sameOpening_assemble [ReadSeek IoError P] {left right : Backing}
    {leftOverlay rightOverlay : LogOverlay} (parent : Option P)
    (leftLarge : minContainerSize ≤ left.view.length)
    (rightLarge : minContainerSize ≤ right.view.length)
    (leftAllocated : left.view.length ≤ isizeMax)
    (rightAllocated : right.view.length ≤ isizeMax)
    (sameView : patchedView left leftOverlay =
      patchedView right rightOverlay) :
    SameOpening (assemble left leftOverlay parent)
      (assemble right rightOverlay parent) := by
  rw [assemble_eq parent leftLarge leftAllocated,
    assemble_eq parent rightLarge rightAllocated, sameView]
  have decoding : Settles
      (decodeImage (patchedView right rightOverlay) parent.isSome) :=
    settles_decodeImage parent.isSome
      (by rwa [length_patchedView]) (by rwa [length_patchedView])
  rcases settles_iff.mp decoding with ⟨decoded, returned⟩ | ⟨e, failed⟩
  · rw [returned, ok_bind, ok_bind]
    intro calls
    refine Eq.trans (outcomes_plain calls ?_).symm
      (Eq.trans ?_ (outcomes_plain calls ?_))
    · exact Buffer.length_lt ⟨_, leftAllocated⟩
    · unfold plain image
      dsimp only
      rw [sameView]
    · exact Buffer.length_lt ⟨_, rightAllocated⟩
  · rw [failed]
    trivial

section Buffers

variable {data : Bytes} {entries : List Bytes}

/-- Opening over a buffer records the pending writes and assembles the reader.
-/
theorem fromMem_eq (parent : Option P) (allocated : data.length ≤ isizeMax) :
    fromBacking (.mem data) parent =
      (openGate data >>= fun _ => pendingEntries data >>= fun entries =>
        entries.foldlM overlayEntry {} >>= fun overlay =>
          assemble (.mem data) overlay parent) :=
  fromBacking_eq parent allocated

/-- It settles if the pending entries are safe to record. -/
theorem settles_fromMem_iff (parent : Option P)
    (allocated : data.length ≤ isizeMax) :
    Settles (fromBacking (.mem data) parent) ↔
      ∀ entry ∈ replayedEntries data, LogEntry.OverlaySafe entry :=
  settles_fromBacking_iff parent allocated

theorem buildMem_eq (allocated : data.length ≤ isizeMax) :
    (okOr (activeHeader data) .noValidHeader >>= buildOverlay (.mem data)) =
      (pendingEntries data >>= fun entries =>
        entries.foldlM overlayEntry {}) := by
  have presented : (Backing.mem data).view.length ≤ isizeMax := allocated
  exact buildOverlay_eq presented

/-- Patching a part of a buffer gives this part of the replayed buffer. -/
theorem patch_mem {ε : Type} (overlay : LogOverlay)
    (allocated : data.length ≤ isizeMax) (off count : Nat) :
    (overlay.patch (window data off count) off : Exec ε Bytes) =
      .ok (window (replayFrom 0 overlay.runs data) off count) := by
  have small : (Backing.mem data).view.length < wordCount :=
    Buffer.length_lt ⟨data, allocated⟩
  exact patch_window small off count

/-- A container that does not get as far as its log has nothing replayed. -/
theorem gate_and_pending_of_mem {entry : Bytes}
    (member : entry ∈ replayedEntries data) :
    openGate data = .ok () ∧
      pendingEntries data = .ok (replayedEntries data) := by
  rw [replayedEntries_eq] at member ⊢
  rcases settles_iff.mp (settles_openGate data) with ⟨⟨⟩, gate⟩ | ⟨e, gate⟩
  case inr => simp [gate, fail] at member
  rcases settles_iff.mp (settles_pendingEntries data) with
    ⟨entries, pending⟩ | ⟨e, pending⟩
  case inr => simp [gate, pending, fail] at member
  simp [gate, pending]

/-- When all patched reads agree with replay in place, no clipped sector
shows. -/
theorem PatchedReadsAgree.hidden (patched : PatchedReadsAgree data)
    (allocated : data.length ≤ isizeMax) (safe : ReplaySafe data) :
    ClippedSectorsHidden data := by
  intro write member leaves pos byte present covers
  obtain ⟨entry, entryMember, -⟩ := List.mem_flatMap.mp member
  obtain ⟨gate, pending⟩ := gate_and_pending_of_mem entryMember
  obtain ⟨applied, overlay, recorded, overlayRuns⟩ :=
    replay_eq_ok allocated pending safe
  have built := buildMem_eq allocated
  rw [pending, ok_bind, recorded] at built
  obtain ⟨header, active, built⟩ := bind_eq_ok.mp built
  have agree := patched header _ overlay gate
    (by rw [parseActiveHeader_eq, active])
    (by rw [apply_eq allocated, pending, ok_bind, applied]) built
    0 data.length (by omega)
  rw [patch_mem overlay allocated, overlayRuns] at agree
  have sameByte := congrArg (fun image => image[pos]?)
    (Except.ok.inj agree)
  have posLt := (List.getElem?_eq_some_iff.mp present).1
  simp only [getElem?_window, getElem?_replayFrom, Nat.zero_add, present,
    posLt, if_true, Option.map_some] at sameByte
  exact Option.some.inj sameByte

/-- Without a clipped sector that shows, the overlay's image is the replayed
one. -/
theorem ClippedSectorsHidden.images_eq (hidden : ClippedSectorsHidden data) :
    replayFrom 0 ((replayedWrites data).map LogWrite.run) data =
      replayFrom 0 (((replayedWrites data).filter fun write =>
        write.LandsIn data.length).map LogWrite.run) data := by
  apply replayFrom_congr
  intro index byte present
  rw [Nat.zero_add]
  exact clippedSectorsHidden_iff.mp hidden index byte present

/-- If no clipped sector shows, both openings agree. -/
theorem ClippedSectorsHidden.sameOpening [ReadSeek IoError P]
    (hidden : ClippedSectorsHidden data)
    (allocated : data.length ≤ isizeMax) (safe : ReplaySafe data)
    (parent : Option P) :
    SameOpening (fromBytes data parent)
      (fromBacking (.mem data) parent) := by
  rw [fromBytes_eq parent allocated, fromMem_eq parent allocated]
  rcases settles_iff.mp (settles_openGate data) with ⟨⟨⟩, gate⟩ | ⟨e, gate⟩
  case inr =>
    rw [gate]
    trivial
  rcases settles_iff.mp (settles_pendingEntries data) with
    ⟨entries, pending⟩ | ⟨e, pending⟩
  case inr =>
    rw [gate, ok_bind, ok_bind, pending]
    trivial
  have replayed := replayedEntries_of_pending gate pending
  unfold ReplaySafe at safe
  rw [replayed] at safe
  obtain ⟨applied, overlay, recorded, overlayRuns⟩ :=
    replay_eq_ok allocated pending safe
  have images := hidden.images_eq
  rw [replayedWrites, replayed] at images
  have large := (openGate_eq_ok_iff.mp gate).2
  rw [gate, ok_bind, ok_bind, pending, ok_bind, ok_bind, applied, recorded,
    ok_bind, ok_bind]
  apply sameOpening_assemble
  · simpa [Backing.view] using large
  · exact large
  · simpa [Backing.view] using allocated
  · exact allocated
  · rw [patchedView_mem, ← images, ← overlayRuns]
    rfl

/-- If no clipped sector shows, all patched reads agree. -/
theorem ClippedSectorsHidden.patchedReadsAgree
    (hidden : ClippedSectorsHidden data)
    (allocated : data.length ≤ isizeMax) (safe : ReplaySafe data) :
    PatchedReadsAgree data := by
  intro header image overlay gate active applied built off count _
  rcases settles_iff.mp (settles_pendingEntries data) with
    ⟨entries, pending⟩ | ⟨e, pending⟩
  case inr =>
    rw [apply_eq allocated, pending] at applied
    cases applied
  have replayed := replayedEntries_of_pending gate pending
  unfold ReplaySafe at safe
  rw [replayed] at safe
  obtain ⟨replays, recordedOverlay, recorded, overlayRuns⟩ :=
    replay_eq_ok allocated pending safe
  have images := hidden.images_eq
  rw [replayedWrites, replayed] at images
  have builds := buildMem_eq allocated
  rw [← parseActiveHeader_eq, active, ok_bind, built, pending, ok_bind,
    recorded] at builds
  rw [apply_eq allocated, pending, ok_bind, replays] at applied
  cases builds
  cases applied
  rw [patch_mem overlay allocated, overlayRuns, images]

end Buffers

/-- Opening settles on both paths, over every backing that presents the
bytes, exactly when every replayed entry is safe. -/
theorem openings_settle_iff (data : Buffer) (parent : Option P) :
    (Settles (fromBytes data.bytes parent) ∧
        ∀ backing : Backing, backing.view = data.bytes →
          Settles (fromBacking backing parent)) ↔
      ReplaySafe data.bytes := by
  rw [settles_fromBytes_iff parent data.allocated]
  constructor
  · rintro ⟨inPlace, overlaid⟩ entry member
    have recorded := (settles_fromMem_iff parent data.allocated).mp
      (overlaid (.mem data.bytes) rfl)
    exact ⟨inPlace entry member, recorded entry member⟩
  · intro safe
    refine ⟨fun entry member => (safe entry member).1, ?_⟩
    intro backing presents
    rw [settles_fromBacking_iff parent (by
      rw [presents]
      exact data.allocated), presents]
    exact fun entry member => (safe entry member).2

/-- A header that points to a log of `logLength` bytes at 1 MiB. -/
def dirtyHeader (logLength : Nat) : VhdxHeader where
  sequenceNumber := 1
  logGuid := List.replicate 16 1
  logOffset := 0x100000
  logLength := logLength

/-- A container with a log at 1 MiB can be laid out. -/
theorem dirtyHeader_fits {len logLength : Nat} {entry : Bytes}
    (positive : 0 < logLength)
    (lengthEq : logLength = entry.length)
    (large : minContainerSize ≤ len)
    (inside : 0x100000 + entry.length ≤ len)
    (lengthLt : logLength < 2 ^ 32) :
    DirtyContainerFits len (dirtyHeader logLength) entry where
  encodable :=
    { sequenceNumber_lt := show 1 < 2 ^ 64 by decide
      length_logGuid := rfl
      logOffset_lt := show 0x100000 < 2 ^ 64 by decide
      logLength_lt := lengthLt }
  dirty := by
    rintro (empty | unnamed)
    · exact absurd empty (by
        change ¬ logLength = 0
        omega)
    · exact absurd unnamed
        (show ¬ List.replicate 16 (1 : UInt8) = List.replicate 16 0 by decide)
  large := large
  behind := show regionTable1Offset ≤ 0x100000 by decide
  logLength_eq := lengthEq
  inside := inside

/-- A log entry that announces a descriptor and ends after its header. -/
def truncatedEntry : Bytes :=
  encodeLogEntry 64 (dirtyHeader 64).logGuid [(24, encodeLe 4 1)]

theorem truncatedEntry_fits :
    LogEntryFits 64 (dirtyHeader 64).logGuid [(24, encodeLe 4 1)] where
  header_le := le_rfl
  size_lt := by decide
  length_logGuid := rfl
  apart := by decide

/-- The smallest container with that entry in its log. -/
def truncatedContainer : Buffer where
  bytes := dirtyContainer minContainerSize (dirtyHeader 64) truncatedEntry
  allocated := by
    rw [length_dirtyContainer]
    decide

/-- The truncated entry is replayed. -/
theorem replayedEntries_truncatedContainer :
    replayedEntries truncatedContainer.bytes = [truncatedEntry] := by
  have entryLength := length_encodeLogEntry truncatedEntry_fits
  have containerFits :
      DirtyContainerFits minContainerSize (dirtyHeader 64) truncatedEntry :=
    dirtyHeader_fits (by decide) entryLength.symm le_rfl
      (by rw [truncatedEntry, entryLength]; decide) (by decide)
  unfold truncatedContainer
  dsimp only
  unfold truncatedEntry
  exact replayedEntries_dirtyContainer truncatedEntry_fits containerFits

/-- Opening it slices the descriptor out of the entry and panics. -/
theorem truncatedContainer_panics :
    ¬ Settles (fromBytes truncatedContainer.bytes (none : Option Empty)) := by
  rw [settles_fromBytes_iff none truncatedContainer.allocated,
    replayedEntries_truncatedContainer]
  intro safe
  have fits := (safe truncatedEntry (by simp)).1
  have count : LogEntry.descriptorCount truncatedEntry = 1 :=
    descriptorCount_encodeLogEntry truncatedEntry_fits (by simp) (by decide)
  have length : truncatedEntry.length = 64 :=
    length_encodeLogEntry truncatedEntry_fits
  unfold LogEntry.TableFits LogEntry.dataSectorBase at fits
  omega

/-- The two ways of opening agree exactly when the log is safe to replay and
no data sector that runs over the end of the container shows. -/
theorem openingsAgree_iff (data : Buffer) :
    OpeningsAgree data.bytes ↔
      ReplaySafe data.bytes ∧ ClippedSectorsHidden data.bytes := by
  have allocated := data.allocated
  constructor
  · rintro ⟨same, patched⟩
    obtain ⟨inPlace, overlaid⟩ := (same Empty none).settles
    have applySafe := (settles_fromBytes_iff none allocated).mp inPlace
    have overlaySafe := (settles_fromMem_iff none allocated).mp overlaid
    have safe : ReplaySafe data.bytes := fun entry member =>
      ⟨applySafe entry member, overlaySafe entry member⟩
    exact ⟨safe, patched.hidden allocated safe⟩
  · rintro ⟨safe, hidden⟩
    exact ⟨fun P _ parent => hidden.sameOpening allocated safe parent,
      hidden.patchedReadsAgree allocated safe⟩

/-- A single sector that runs over the end of the container and changes a
byte inside tells the two ways of opening apart. -/
theorem not_openingsAgree_of_straddling {data : Buffer} {entry bytes : Bytes}
    {fileOffset : Nat} {old new : UInt8}
    (replayed : replayedEntries data.bytes = [entry])
    (fits : LogEntry.TableFits entry)
    (read : LogEntry.writes entry = [.sector fileOffset bytes])
    (leaves : data.bytes.length < fileOffset + bytes.length)
    (representable : fileOffset + bytes.length < wordCount)
    (before : data.bytes[fileOffset]? = some old)
    (after : bytes[0]? = some new)
    (differs : new ≠ old) :
    ¬ OpeningsAgree data.bytes := by
  rintro ⟨-, patched⟩
  have safe : ReplaySafe data.bytes := by
    unfold ReplaySafe
    rw [replayed]
    intro entry' member
    rw [List.mem_singleton.mp member]
    refine ⟨⟨fits, ?_⟩, ⟨fits, ?_⟩⟩
    · rw [read]
      simpa using representable
    · rw [read]
      simp
  have hidden := patched.hidden data.allocated safe
  have written : replayedWrites data.bytes = [.sector fileOffset bytes] := by
    rw [replayedWrites, replayed, entryWrites, List.flatMap_singleton, read]
  have dropped :
      ¬ (LogWrite.sector fileOffset bytes).LandsIn data.bytes.length := by
    rw [LogWrite.landsIn_sector]
    omega
  have nonempty := (List.getElem?_eq_some_iff.mp after).1
  have covers :
      (LogWrite.sector fileOffset bytes).run.Covers fileOffset := by
    constructor
    · exact le_rfl
    · change fileOffset < fileOffset + bytes.length
      omega
  have same := hidden _ (by rw [written]; simp) dropped fileOffset old before
    covers
  rw [written, List.filter_cons_of_neg (by simpa using dropped),
    List.filter_nil, List.map_nil, settle_nil, List.map_singleton,
    settle_cons, settle_nil] at same
  have first := Run.put_of_covers old covers
  rw [same] at first
  change bytes[fileOffset - fileOffset]? = some old at first
  rw [Nat.sub_self, after] at first
  exact differs (Option.some.inj first)

/-- A sector of ones. -/
def sectorOfOnes : Bytes := List.replicate 4096 1

theorem length_sectorOfOnes : sectorOfOnes.length = 4096 :=
  List.length_replicate

/-- Half a sector before the end of the smallest container. -/
def straddlingOffset : Nat := minContainerSize - 2048

/-- One data descriptor with its sector. -/
def straddlingPieces : List Run :=
  [(24, encodeLe 4 1), (64, dataDescriptorSignature),
    (88, encodeLe 8 straddlingOffset), (96, sectorOfOnes)]

/-- A log entry with a sector that runs over the end of the container. -/
def straddlingEntry : Bytes :=
  encodeLogEntry 4192 (dirtyHeader 4192).logGuid straddlingPieces

theorem straddlingEntry_fits :
    LogEntryFits 4192 (dirtyHeader 4192).logGuid straddlingPieces where
  header_le := by decide
  size_lt := by decide
  length_logGuid := rfl
  apart := by
    have guidLength : (dirtyHeader 4192).logGuid.length = 16 := rfl
    simp [logEntryPieces, straddlingPieces, Run.Apart, guidLength,
      logEntrySignature, dataDescriptorSignature]

/-- The smallest container with that entry in its log. -/
def straddlingContainer : Buffer where
  bytes := dirtyContainer minContainerSize (dirtyHeader 4192) straddlingEntry
  allocated := by
    rw [length_dirtyContainer]
    decide

/-- The straddling entry is replayed. -/
theorem replayedEntries_straddlingContainer :
    replayedEntries straddlingContainer.bytes = [straddlingEntry] := by
  have entryLength := length_encodeLogEntry straddlingEntry_fits
  have containerFits : DirtyContainerFits minContainerSize
      (dirtyHeader 4192) straddlingEntry :=
    dirtyHeader_fits (by decide) entryLength.symm le_rfl
      (by rw [straddlingEntry, entryLength]; decide) (by decide)
  unfold straddlingContainer
  dsimp only
  unfold straddlingEntry
  exact replayedEntries_dirtyContainer straddlingEntry_fits containerFits

theorem descriptorCount_straddlingEntry :
    LogEntry.descriptorCount straddlingEntry = 1 :=
  descriptorCount_encodeLogEntry straddlingEntry_fits List.mem_cons_self
    (by decide)

theorem length_straddlingEntry : straddlingEntry.length = 4192 :=
  length_encodeLogEntry straddlingEntry_fits

/-- Its descriptor table ends before its sectors. -/
theorem tableFits_straddlingEntry : LogEntry.TableFits straddlingEntry := by
  rw [LogEntry.TableFits, LogEntry.dataSectorBase,
    descriptorCount_straddlingEntry, length_straddlingEntry]
  decide

/-- It writes a sector of ones. -/
theorem writes_straddlingEntry :
    LogEntry.writes straddlingEntry =
      [.sector straddlingOffset sectorOfOnes] := by
  have length := length_straddlingEntry
  have signed : LogEntry.isData straddlingEntry 0 = true := by
    rw [LogEntry.isData, LogEntry.descriptor, decide_eq_true_iff,
      window_window_of_le (by decide)]
    exact window_encodeLogEntry straddlingEntry_fits
      (by simp [logEntryPieces, straddlingPieces]) rfl (by decide) (by decide)
  have offset : leU64 (LogEntry.descriptor straddlingEntry 0) 24 =
      straddlingOffset := by
    rw [LogEntry.descriptor, leU64_window (by decide) (by omega)]
    exact le_encodeLogEntry straddlingEntry_fits
      (by simp [logEntryPieces, straddlingPieces])
      (by decide) (by decide) (by decide)
  have base : LogEntry.sectorOffset straddlingEntry 0 = 96 := by
    rw [LogEntry.sectorOffset, LogEntry.dataSectorBase,
      descriptorCount_straddlingEntry, LogEntry.sectorIndex_zero]
  have content : window straddlingEntry 96 4096 = sectorOfOnes :=
    window_encodeLogEntry straddlingEntry_fits
      (by simp [logEntryPieces, straddlingPieces]) length_sectorOfOnes
      (by decide) (by decide)
  have read : LogEntry.writeAt straddlingEntry 0 =
      some (.sector straddlingOffset sectorOfOnes) := by
    rw [LogEntry.writeAt, if_pos signed, base, if_pos (by omega), offset,
      content]
  rw [LogEntry.writes, descriptorCount_straddlingEntry]
  change List.filterMap _ [0] = _
  rw [List.filterMap_cons, read]
  rfl

/-- Replay in place drops the sector, the overlay keeps half of it. -/
theorem straddlingContainer_disagrees :
    ¬ OpeningsAgree straddlingContainer.bytes := by
  have offset : straddlingOffset = 0x24F800 := rfl
  have size : minContainerSize = 0x250000 := rfl
  apply not_openingsAgree_of_straddling replayedEntries_straddlingContainer
    tableFits_straddlingEntry writes_straddlingEntry
  · rw [straddlingContainer, length_dirtyContainer, length_sectorOfOnes,
      offset, size]
    omega
  · rw [length_sectorOfOnes, offset, wordCount]
    omega
  · apply getElem?_dirtyContainer
    · decide
    · rw [length_straddlingEntry]
      decide
    · decide
  · exact List.getElem?_replicate_of_lt (by decide)
  · decide

end VhdxReader
end VhdxForensic
