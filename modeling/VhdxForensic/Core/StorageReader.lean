import VhdxForensic.Core.OpenEquivalence
import VhdxForensic.Core.ReaderRequests

/-!
# Readers on containers with state

On a backing without state the computation that opens and reads is the reader.
A container that holds given bytes, behind whatever state, is opened and read
like the bytes in memory, and so are whole chains of images.
-/

namespace VhdxForensic

open Rust Rust.Bytes Rust.Exec Rust.Asking

namespace VhdxReader

variable {P : Type}

/-- What a reader has decoded. -/
def decoded (reader : VhdxReader P) : Decoded where
  overlay := reader.overlay
  metadata := reader.metadata
  bat := reader.bat

/-- The reader as a computation over its backing. -/
def stored (reader : VhdxReader P) : StorageReader Backing P where
  backing := reader.backing
  decoded := reader.decoded
  pos := reader.pos
  parent := reader.parent

/-! ## Opening -/

section Opening

variable {backing : Backing}

/-- A backing without state answers in a fixed way. -/
def openingAnswer (backing : Backing) (request : ContainerRequest) :
    Exec VhdxError Bytes :=
  raiseIo (Storage.answer backing request).1

theorem answerOpening_backing (request : ContainerRequest) :
    StorageReader.answerOpening backing request =
      (openingAnswer backing request, backing) := by
  cases request <;> rfl

theorem raiseIo_readExactAt (offset count : Nat) :
    raiseIo (backing.readExactAt offset count) =
      backing.readExactAt offset count := by
  unfold Backing.readExactAt zeroed
  split <;> rfl

@[simp] theorem openingAnswer_readAt (count offset : Nat) :
    openingAnswer backing (.readAt count offset) =
      .ok (backing.readAt count offset) := rfl

@[simp] theorem openingAnswer_readExactAt (offset count : Nat) :
    openingAnswer backing (.readExactAt offset count) =
      backing.readExactAt offset count :=
  raiseIo_readExactAt offset count

/-- The requests for a region read the region. -/
theorem eval_readRegion (overlay : LogOverlay) (fileOffset length : Nat) :
    (ReaderProgram.readRegion backing.len overlay fileOffset length).eval
        (openingAnswer backing) =
      readRegion backing overlay fileOffset length := by
  simp [ReaderProgram.readRegion, readRegion]

/-- The requests for the overlay build the overlay. -/
theorem eval_buildOverlay (header : VhdxHeader) :
    (ReaderProgram.buildOverlay backing.len header).eval
        (openingAnswer backing) =
      buildOverlay backing header := by
  unfold ReaderProgram.buildOverlay buildOverlay
  split
  · rfl
  · simp

/-- The requests for the regions assemble the reader. -/
theorem eval_assemble (overlay : LogOverlay) (parent : Option P) :
    assemble backing overlay parent =
      ((ReaderProgram.assemble backing.len overlay parent.isSome).eval
        (openingAnswer backing) >>= fun decoded => .ok
          { backing, overlay := decoded.overlay, bat := decoded.bat,
            metadata := decoded.metadata, pos := 0, parent }) := by
  have orphan : (parent.isNone = true) = (parent.isSome = false) := by
    cases parent <;> simp
  unfold ReaderProgram.assemble assemble
  simp only [eval_bind, eval_done, eval_send, eval_pure,
    openingAnswer_readExactAt, eval_readRegion, orphan, bind_assoc,
    ok_bind, pure_eq_ok]

/-- All requests of an opening together open the backing. -/
theorem eval_parseBacking (backing : Backing) (parent : Option P) :
    fromBacking backing parent =
      ((ReaderProgram.parseBacking backing.len parent.isSome).eval
        (openingAnswer backing) >>= fun decoded => .ok
          { backing, overlay := decoded.overlay, bat := decoded.bat,
            metadata := decoded.metadata, pos := 0, parent }) := by
  unfold ReaderProgram.parseBacking fromBacking parseBacking
  simp only [eval_bind, eval_done, eval_send, openingAnswer_readAt,
    openingAnswer_readExactAt, eval_buildOverlay, eval_assemble, bind_assoc,
    ok_bind]

/-- Opened over a backing without state, the computation is the reader. -/
theorem fromBacking_stored (allocated : backing.view.length ≤ isizeMax)
    (parent : Option P) :
    StorageReader.fromBacking backing parent =
      (fromBacking backing parent).map stored := by
  have small : backing.len ≤ isizeMax := by
    rwa [Backing.len_eq_length_view]
  have served := (ReaderProgram.obeys_parseBacking small
    parent.isSome).serve_eq_eval fun request _ =>
      @answerOpening_backing backing request
  rw [StorageReader.fromBacking, show Storage.len backing = backing.len from
    rfl, served, eval_parseBacking]
  cases (ReaderProgram.parseBacking backing.len parent.isSome).eval
    (openingAnswer backing) <;> rfl

end Opening

/-! ## Reading -/

section Reading

variable {reader : VhdxReader P}

/-- The answers of the container while a chunk is planned. -/
def planningAnswer (backing : Backing) : ReaderRequest → Exec IoError Bytes
  | .container request => (Storage.answer backing request).1
  | .parent _ _ => panicked

theorem planningAnswer_readAt (backing : Backing) (count offset : Nat) :
    planningAnswer backing (.container (.readAt count offset)) =
      .ok (backing.readAt count offset) := rfl

/-- The requests for a bitmap plan the chunk. -/
theorem eval_planChunk (virtualByte limit : Nat) :
    (ReaderProgram.planChunk reader.decoded virtualByte limit).eval
        (planningAnswer reader.backing) =
      reader.planChunk virtualByte limit := by
  unfold ReaderProgram.planChunk planChunk
  simp only [eval_bind, eval_done]
  refine bind_congr fun block => ?_
  refine bind_congr fun nextBlock => ?_
  refine bind_congr fun blockEnd => ?_
  refine bind_congr fun blockRest => ?_
  refine bind_congr fun target => ?_
  rcases target with e | target
  · rfl
  cases target with
  | file fileOffset => rfl
  | parent => rfl
  | zero => rfl
  | partialBlock fileOffset bitmapByteFileOffset bitmapBit =>
      simp only [eval_bind, eval_done, eval_send, planningAnswer_readAt,
        ok_bind]
      refine bind_congr fun _ => ?_
      refine bind_congr fun bitmap => ?_
      refine bind_congr fun sector => ?_
      refine bind_congr fun runEndSector => ?_
      refine bind_congr fun runEnd => ?_
      refine bind_congr fun runRest => ?_
      split <;> rfl

variable [ReadSeek IoError P]

/-- Planning leaves the container and the parent as they are. -/
theorem serve_planChunk (virtualByte limit : Nat) (parent : Option P) :
    (ReaderProgram.planChunk reader.decoded virtualByte limit).serve
        StorageReader.answerReading (reader.backing, parent) =
      (reader.planChunk virtualByte limit, reader.backing, parent) := by
  rw [← eval_planChunk]
  refine (ReaderProgram.obeys_planChunk _ _ _).serve_eq_eval ?_
  rintro request ⟨inner, -, rfl⟩
  cases inner <;> rfl

/-- A chunk is read from its source. -/
def chunkFrom (reader : VhdxReader P) (parent : Option P)
    (virtualByte count : Nat) :
    ChunkSource → Exec IoError Bytes × Option P
  | .file fileOffset => (reader.readFileChunk count fileOffset, parent)
  | .parent => readParentChunk parent count virtualByte
  | .zero => (.ok (List.replicate count 0), parent)

/-- Serving a chunk reads it from its source. -/
theorem serve_readSource (virtualByte count : Nat) (source : ChunkSource)
    (parent : Option P) :
    (ReaderProgram.readSource reader.decoded virtualByte count source).serve
        StorageReader.answerReading (reader.backing, parent) =
      ((reader.chunkFrom parent virtualByte count source).1, reader.backing,
        (reader.chunkFrom parent virtualByte count source).2) := by
  cases source with
  | file fileOffset =>
      unfold ReaderProgram.readSource chunkFrom readFileChunk
      rw [serve_bind, serve_send]
      dsimp only [StorageReader.answerReading, Storage.answer]
      rw [serve_bind, serve_done]
      cases failIf (ε := IoError)
        ((reader.backing.readAt count fileOffset).length < count)
        (.unexpectedEof "VHDX data truncated") <;> rfl
  | parent => rw [ReaderProgram.readSource, serve_send]; rfl
  | zero => rfl

/-- A chunk is as long as it was planned. -/
theorem length_chunkFrom (addressable : reader.Addressable)
    {parent : Option P} {virtualByte count : Nat} {source : ChunkSource}
    {chunk : Bytes}
    (found : (reader.chunkFrom parent virtualByte count source).1 =
      .ok chunk) :
    chunk.length = count := by
  cases source with
  | file fileOffset =>
      have atMost : (window reader.image fileOffset count).length ≤ count := by
        rw [length_window]
        exact min_le_left _ _
      rw [chunkFrom, readFileChunk_eq addressable] at found
      dsimp only at found
      split at found
      · cases found
      · cases found
        omega
  | parent =>
      cases parent with
      | none =>
          cases found
          exact List.length_replicate
      | some device =>
          rcases sought : ReadSeek.seek device (.start virtualByte) with
            ⟨(e | _ | _) | pos, after⟩ <;>
              rw [chunkFrom, readParentChunk, sought] at found
          · cases found
          · cases found
          · cases found
          · exact length_readExact found
  | zero =>
      cases found
      exact List.length_replicate

/-- One pass of the read loop reads what was planned. -/
theorem readChunk_eq (parent : Option P) (virtualByte limit : Nat) :
    reader.readChunk parent virtualByte limit =
      match reader.planChunk virtualByte limit with
      | .error stop => (.error stop, parent)
      | .ok (source, count) =>
          reader.chunkFrom parent virtualByte count source := by
  unfold readChunk chunkFrom
  rcases reader.planChunk virtualByte limit with stop | ⟨source, count⟩
  · rfl
  · cases source <;> rfl

/-- The computation over a backing without state reads as the reader does. -/
theorem serve_readLoop (addressable : reader.Addressable)
    (toRead written : Nat) (parent : Option P) :
    (ReaderProgram.readLoop reader.decoded reader.pos toRead written).serve
        StorageReader.answerReading (reader.backing, parent) =
      ((reader.readLoop toRead written parent).1, reader.backing,
        (reader.readLoop toRead written parent).2) := by
  -- A pass writes as many bytes as it has planned.
  induction remaining : toRead - written using Nat.strong_induction_on
    generalizing written parent with
  | _ remaining inductionHypothesis =>
      subst remaining
      rw [ReaderProgram.readLoop, readLoop]
      by_cases more : written < toRead
      case neg =>
        rw [dif_neg more, dif_neg more]
        rfl
      rw [dif_pos more, dif_pos more, serve_bind, serve_done]
      cases add (ε := IoError) reader.pos written with
      | error stop => rfl
      | ok virtualByte =>
          dsimp only
          rw [serve_bind, serve_planChunk, readChunk_eq]
          rcases reader.planChunk virtualByte (toRead - written) with
            stop | ⟨source, count⟩
          · rfl
          dsimp only
          rw [serve_bind, serve_readSource]
          rcases found : reader.chunkFrom parent virtualByte count source with
            ⟨stop | chunk, after⟩
          · rfl
          have chunkLength : chunk.length = count :=
            length_chunkFrom addressable (congrArg Prod.fst found)
          dsimp only
          rw [chunkLength]
          by_cases stuck : count = 0
          · rw [dif_pos stuck, dif_pos stuck]
            rfl
          rw [dif_neg stuck, dif_neg stuck, serve_bind,
            inductionHypothesis _ (by omega) _ _ rfl]
          rcases reader.readLoop toRead (written + count) after with
            ⟨stop | rest, final⟩ <;> rfl

end Reading
end VhdxReader

/-! ## Containers that hold the same bytes -/

/-- The bytes a request asks for. -/
def ContainerRequest.on (contents : Bytes) : ContainerRequest → Bytes
  | .readAt count offset => window contents offset count
  | .readExactAt offset count => window contents offset count

/-- The container answers typed requests from the given bytes, whatever it was
asked before. -/
def Storage.Serves {B : Type} [Storage B] (contents : Bytes) (backing : B) :
    Prop :=
  ∃ Holds : B → Prop, Holds backing ∧ ∀ backing, Holds backing →
    Storage.len backing = contents.length ∧
      ∀ request : ContainerRequest, request.Typed →
        (Storage.answer backing request).1 = .ok (request.on contents) ∧
          Holds (Storage.answer backing request).2

section Alike

variable {B P Q : Type} [Storage B] {contents : Bytes} {backing : B}

theorem Storage.Serves.len_eq (serves : Storage.Serves contents backing) :
    Storage.len backing = contents.length := by
  obtain ⟨Holds, holds, conforms⟩ := serves
  exact (conforms _ holds).1

/-- One answer is from the bytes, and so are the later ones. -/
theorem Storage.Serves.answer_eq (serves : Storage.Serves contents backing)
    {request : ContainerRequest} (typed : request.Typed) :
    (Storage.answer backing request).1 = .ok (request.on contents) ∧
      Storage.Serves contents (Storage.answer backing request).2 := by
  obtain ⟨Holds, holds, conforms⟩ := serves
  obtain ⟨answered, after⟩ := (conforms _ holds).2 request typed
  exact ⟨answered, Holds, after, conforms⟩

/-- A buffer in memory answers from its bytes. -/
theorem answer_mem {request : ContainerRequest} (typed : request.Typed) :
    Storage.answer (Backing.mem contents) request =
      (.ok (request.on contents), .mem contents) := by
  cases request with
  | readAt count offset =>
      have delivered := Backing.readAt_eq_window (.mem contents) count offset
      exact congrArg (fun bytes => (Except.ok bytes, Backing.mem contents))
        delivered
  | readExactAt offset count =>
      have delivered : (Backing.mem contents).readExactAt offset count =
          (.ok (window contents offset count) : Exec IoError Bytes) :=
        Backing.readExactAt_eq _ _ typed.1
      exact congrArg (fun result => (result, Backing.mem contents)) delivered

/-- The two containers hold the bytes, and the parents are related. -/
structure DevicesAlike (contents : Bytes) (related : Q → P → Prop)
    (left : B × Option Q) (right : Backing × Option P) : Prop where
  /-- The storage serves the contents. -/
  serves : Storage.Serves contents left.1
  /-- The other backing holds them in memory. -/
  memory : right.1 = .mem contents
  /-- The parents are related. -/
  parents : Option.Rel related left.2 right.2

variable [ReadSeek IoError P] [ReadSeek IoError Q] {related : Q → P → Prop}

/-- Related parents deliver the same chunk. -/
theorem readParentChunk_alike (alike : Bisimilar related)
    {left : Option Q} {right : Option P}
    (parents : Option.Rel related left right) {count : Nat}
    (allocated : count ≤ isizeMax) (virtualByte : Nat) :
    (VhdxReader.readParentChunk left count virtualByte).1 =
        (VhdxReader.readParentChunk right count virtualByte).1 ∧
      Option.Rel related (VhdxReader.readParentChunk left count virtualByte).2
        (VhdxReader.readParentChunk right count virtualByte).2 := by
  cases parents with
  | none => exact ⟨rfl, .none⟩
  | some holds =>
      rename_i device device'
      obtain ⟨same, stays⟩ := alike.seek_step (.start virtualByte) holds
      rw [VhdxReader.readParentChunk, VhdxReader.readParentChunk]
      rcases sought : ReadSeek.seek device (.start virtualByte) with
        ⟨result, after⟩
      rcases sought' : ReadSeek.seek device' (.start virtualByte) with
        ⟨result', after'⟩
      rw [sought, sought'] at same stays
      dsimp only at same stays
      subst same
      rcases result with (e | _ | _) | pos
      · exact ⟨rfl, .some stays⟩
      · exact ⟨rfl, .some stays⟩
      · exact ⟨rfl, .some stays⟩
      · obtain ⟨sameBytes, final⟩ :=
          alike.readExact_eq VhdxReader.readExactEof allocated stays
        exact ⟨sameBytes, .some final⟩

/-- Typed requests of the read loop are answered alike. -/
theorem DevicesAlike.answer_eq (alike : Bisimilar related)
    {left : B × Option Q} {right : Backing × Option P}
    {request : ReaderRequest}
    (devices : DevicesAlike contents related left right)
    (typed : request.Typed) :
    (StorageReader.answerReading left request).1 =
        (StorageReader.answerReading right request).1 ∧
      DevicesAlike contents related
        (StorageReader.answerReading left request).2
        (StorageReader.answerReading right request).2 := by
  obtain ⟨backing, parent⟩ := left
  obtain ⟨memory, parent'⟩ := right
  obtain ⟨serves, isMemory, parents⟩ := devices
  dsimp only at serves isMemory parents
  subst isMemory
  cases request with
  | container request =>
      obtain ⟨answered, stays⟩ := serves.answer_eq typed
      have fromMemory := @answer_mem contents request typed
      refine ⟨?_, ?_⟩
      · exact answered.trans (congrArg Prod.fst fromMemory).symm
      · exact ⟨stays, congrArg Prod.snd fromMemory, parents⟩
  | parent count virtualByte =>
      obtain ⟨same, stays⟩ :=
        readParentChunk_alike alike parents typed virtualByte
      exact ⟨same, serves, rfl, stays⟩

/-- The left reader works on a container that holds the bytes the right one
has in memory. They have decoded the same, stand at the same position and have
related parents. -/
structure AlikeOver (related : Q → P → Prop) (left : StorageReader B Q)
    (right : VhdxReader P) : Prop where
  /-- Both read the same contents. -/
  backing : ∃ contents, contents.length ≤ isizeMax ∧
    DevicesAlike contents related (left.backing, left.parent)
      (right.backing, right.parent)
  /-- Both have decoded the same. -/
  decoded : left.decoded = right.decoded
  /-- Both are at the same position. -/
  pos : left.pos = right.pos

/-- One read is answered alike. -/
theorem AlikeOver.read_step (parents : Bisimilar related)
    {left : StorageReader B Q} {right : VhdxReader P}
    (alike : AlikeOver related left right) {count : Nat}
    (allocated : count ≤ isizeMax) :
    (left.read count).1 = (right.read count).1 ∧
      AlikeOver related (left.read count).2 (right.read count).2 := by
  obtain ⟨⟨contents, fits, devices⟩, sameDecoded, samePos⟩ := alike
  have addressable : right.Addressable := by
    have memory : right.backing = .mem contents := devices.memory
    unfold VhdxReader.Addressable
    rw [memory]
    exact Buffer.length_lt ⟨contents, fits⟩
  have sameSize : left.decoded.metadata.virtualDiskSize =
      right.metadata.virtualDiskSize := by
    rw [sameDecoded]
    rfl
  rw [StorageReader.read, VhdxReader.read]
  dsimp only
  rw [sameSize, samePos]
  by_cases ended : right.pos ≥ right.metadata.virtualDiskSize
  · rw [if_pos ended, if_pos ended]
    exact ⟨rfl, ⟨contents, fits, devices⟩, sameDecoded, samePos⟩
  rw [if_neg ended, if_neg ended]
  obtain ⟨toRead, toReadEq⟩ : ∃ toRead,
    toRead = min count (right.metadata.virtualDiskSize - right.pos) := ⟨_, rfl⟩
  have loops := ReaderProgram.obeys_readLoop right.decoded right.pos
    (show toRead ≤ isizeMax by omega) 0
  have step : ∀ (first : B × Option Q) (second : Backing × Option P) request,
      DevicesAlike contents related first second →
        ReaderRequest.Typed request →
          (StorageReader.answerReading first request).1 =
              (StorageReader.answerReading second request).1 ∧
            DevicesAlike contents related
              (StorageReader.answerReading first request).2
              (StorageReader.answerReading second request).2 :=
    fun first second request holds typed => holds.answer_eq parents typed
  obtain ⟨same, after⟩ := loops.serve_related step devices
  rw [VhdxReader.serve_readLoop addressable] at same after
  rw [sameDecoded, ← toReadEq]
  rcases served : (ReaderProgram.readLoop right.decoded right.pos toRead
    0).serve StorageReader.answerReading (left.backing, left.parent) with
    ⟨result, backing, parent⟩
  rcases looped : right.readLoop toRead 0 right.parent with ⟨result', parent'⟩
  rw [served, looped] at same after
  dsimp only at same after
  subst same
  rcases result with stop | bytes
  · exact ⟨rfl, ⟨contents, fits, after⟩, rfl, rfl⟩
  · dsimp only
    cases add (ε := IoError) right.pos bytes.length with
    | error stop => exact ⟨rfl, ⟨contents, fits, after⟩, rfl, rfl⟩
    | ok pos => exact ⟨rfl, ⟨contents, fits, after⟩, rfl, rfl⟩

omit [ReadSeek IoError P] [ReadSeek IoError Q] in
/-- One seek is answered alike. -/
theorem AlikeOver.seek_step {left : StorageReader B Q}
    {right : VhdxReader P} (alike : AlikeOver related left right)
    (target : SeekFrom) :
    (left.seek target).1 = (right.seek target).1 ∧
      AlikeOver related (left.seek target).2 (right.seek target).2 := by
  obtain ⟨devices, sameDecoded, samePos⟩ := alike
  have sameSize : left.decoded.metadata.virtualDiskSize =
      right.metadata.virtualDiskSize := by
    rw [sameDecoded]
    rfl
  rw [StorageReader.seek, VhdxReader.seek, sameSize, samePos]
  cases seekTarget (ε := IoError) right.metadata.virtualDiskSize right.pos
      target with
  | error stop => exact ⟨rfl, devices, sameDecoded, samePos⟩
  | ok newPos =>
      dsimp only
      split
      · exact ⟨rfl, devices, sameDecoded, samePos⟩
      · exact ⟨rfl, devices, sameDecoded, rfl⟩

/-- Readers over related parents give the same results for ever. -/
theorem bisimilar_alikeOver (parents : Bisimilar related) :
    Bisimilar (AlikeOver (B := B) related) where
  read_step _ alike allocated := alike.read_step parents allocated
  seek_step target alike := alike.seek_step target

omit [ReadSeek IoError P] [ReadSeek IoError Q] in
/-- Opening a container that holds the bytes is opening the bytes. -/
theorem fromBacking_alike (serves : Storage.Serves contents backing)
    (allocated : contents.length ≤ isizeMax) {parent : Option Q}
    {parent' : Option P} (parents : Option.Rel related parent parent') :
    Agree (AlikeOver related) (StorageReader.fromBacking backing parent)
      (VhdxReader.fromBacking (.mem contents) parent') := by
  have presented : (Backing.mem contents).view.length ≤ isizeMax := allocated
  have attached : parent.isSome = parent'.isSome := by
    cases parents <;> rfl
  have lengths : Storage.len backing = Storage.len (Backing.mem contents) :=
    serves.len_eq
  have opens := ReaderProgram.obeys_parseBacking
    (show Storage.len (Backing.mem contents) ≤ isizeMax from allocated)
    parent'.isSome
  have step : ∀ (first : B) (second : Backing) (request : ContainerRequest),
      Storage.Serves contents first ∧ second = .mem contents →
        request.Typed →
          (StorageReader.answerOpening first request).1 =
              (StorageReader.answerOpening second request).1 ∧
            Storage.Serves contents
              (StorageReader.answerOpening first request).2 ∧
            (StorageReader.answerOpening second request).2 =
              .mem contents := by
    rintro first second request ⟨holds, rfl⟩ typed
    obtain ⟨answered, stays⟩ := holds.answer_eq typed
    have fromMemory := @answer_mem contents request typed
    unfold StorageReader.answerOpening
    refine ⟨?_, stays, ?_⟩
    · dsimp only
      rw [answered, fromMemory]
    · exact congrArg Prod.snd fromMemory
  obtain ⟨same, after, memory⟩ := opens.serve_related step ⟨serves, rfl⟩
  have stored := VhdxReader.fromBacking_stored presented parent'
  unfold StorageReader.fromBacking at stored ⊢
  rw [lengths, attached]
  rcases served : (ReaderProgram.parseBacking
      (Storage.len (Backing.mem contents)) parent'.isSome).serve
    StorageReader.answerOpening backing with ⟨result, final⟩
  rcases served' : (ReaderProgram.parseBacking
      (Storage.len (Backing.mem contents)) parent'.isSome).serve
    StorageReader.answerOpening (Backing.mem contents) with ⟨result', final'⟩
  rw [served, served'] at same
  rw [served] at after
  rw [served'] at memory stored
  dsimp only at same after memory stored
  subst same memory
  cases result with
  | error stop =>
      cases opened : VhdxReader.fromBacking (.mem contents) parent' with
      | error stop' =>
          rw [opened] at stored
          cases stored
          exact .stopped stop
      | ok reader =>
          rw [opened] at stored
          cases stored
  | ok decoded =>
      cases opened : VhdxReader.fromBacking (.mem contents) parent' with
      | error stop =>
          rw [opened] at stored
          cases stored
      | ok reader =>
          rw [opened] at stored
          have whole := Except.ok.inj stored
          have memory : Backing.mem contents = reader.backing :=
            congrArg StorageReader.backing whole
          have sameParent : parent' = reader.parent :=
            congrArg StorageReader.parent whole
          have samePos : 0 = reader.pos := congrArg StorageReader.pos whole
          refine .returned ⟨⟨contents, allocated, after, memory.symm, ?_⟩,
            congrArg StorageReader.decoded whole, samePos⟩
          rw [← sameParent]
          exact parents

end Alike

/-! ## Chains -/

/-- What may stand below a reader with at most `depth` ancestors, all of them
on containers of one kind. -/
def StorageParent (B : Type) : (depth : Nat) → Type
  | 0 => Empty
  | depth + 1 => StorageReader B (StorageParent B depth)

/-- A parent is itself a device over its own parent. -/
instance StorageParent.readSeek (B : Type) [Storage B] :
    (depth : Nat) → ReadSeek IoError (StorageParent B depth)
  | 0 => inferInstanceAs (ReadSeek IoError Empty)
  | depth + 1 =>
      have := StorageParent.readSeek B depth
      inferInstanceAs
        (ReadSeek IoError (StorageReader B (StorageParent B depth)))

section Chains

variable {B : Type} [Storage B]

/-- The parents are readers on containers that hold the same bytes. -/
def ParentsAlike : (depth : Nat) → StorageParent B depth → Parent depth → Prop
  | 0 => fun device _ => nomatch device
  | depth + 1 => AlikeOver (ParentsAlike depth)

/-- Parents over different storages answer alike. -/
theorem bisimilar_parentsAlike (depth : Nat) :
    Bisimilar (ParentsAlike (B := B) depth) := by
  induction depth with
  | zero =>
      constructor
      · intro device
        cases device
      · intro device
        cases device
  | succ depth inductionHypothesis =>
      exact bisimilar_alikeOver inductionHypothesis

end Chains

end VhdxForensic
