import VhdxForensic.Rust.Device

/-!
# Devices shared behind a mutex

Threads read a seekable device, each at offsets of its own. A request takes
the lock, seeks, reads in a loop until it has what it wants, and gives the
lock back; steps of different threads interleave in any order. A device that
refines its disk answers every request as the disk does.
-/

namespace Rust

open Exec PresentsDisk

/-- A request for `count` bytes at `offset`. -/
structure Request where
  /-- First byte that is asked for. -/
  offset : Nat
  /-- Number of bytes that are asked for. -/
  count : Nat
  deriving DecidableEq, Repr

/-- The answer of a disk to a request. -/
def ReferenceDisk.answer (disk : ReferenceDisk) (request : Request) : Reply :=
  match disk.read request.offset request.count with
  | some bytes => .bytes bytes
  | none => .failed

/-- Where a thread is in its request. The loop keeps what it has read; a dead
thread has panicked or never returns. -/
inductive Phase where
  | idle
  | waiting (request : Request)
  | seeking (request : Request)
  | reading (request : Request) (done : Bytes)
  | dead (request : Request)
  deriving DecidableEq, Repr

namespace Phase

/-- The request that is not answered yet. -/
def pending : Phase → List Request
  | .idle => []
  | .waiting request | .seeking request | .reading request _
  | .dead request => [request]

/-- The thread is between taking the lock and giving it back. -/
def InSection : Phase → Prop
  | .seeking _ | .reading _ _ => True
  | _ => False

/-- A bound on the steps that are left of a request on `len` bytes. -/
def work (len : Nat) : Phase → Nat
  | .idle | .dead _ => 0
  | .waiting request => min request.count (len - request.offset) + 3
  | .seeking request => min request.count (len - request.offset) + 2
  | .reading request done =>
      min request.count (len - request.offset) - done.length + 1

end Phase

/-- A device of `len` bytes behind a mutex, and the threads that use it. -/
structure SharedDevice (T P : Type) where
  /-- The device behind the lock. -/
  device : P
  /-- Length that requests are clipped to. -/
  len : Nat
  /-- The thread that holds the lock. -/
  holder : Option T
  /-- A thread has panicked in its section. -/
  poisoned : Bool
  /-- What every thread is doing. -/
  phase : T → Phase
  /-- What every thread has been answered, in order. -/
  answers : T → List (Request × Reply)

/-- One step of a thread: it makes a request, takes the lock, or goes on with
the lock held. -/
inductive ThreadStep (T : Type) where
  | call (thread : T) (request : Request)
  | lock (thread : T)
  | advance (thread : T)
  deriving DecidableEq, Repr

namespace ThreadStep

variable {T : Type}

/-- The request that a step makes for a thread. -/
def requestOf [DecidableEq T] (thread : T) : ThreadStep T → Option Request
  | .call caller request => if caller = thread then some request else none
  | _ => none

/-- The requests that a schedule makes for a thread. -/
def requestsOf [DecidableEq T] (thread : T) (actions : List (ThreadStep T)) :
    List Request :=
  actions.filterMap (requestOf thread)

/-- The step works on a request that was made before. -/
def Internal : ThreadStep T → Prop
  | .call _ _ => False
  | _ => True

end ThreadStep

namespace SharedDevice

section Machine

variable {ε T P : Type}

/-- A device that no thread has used yet. -/
def start (device : P) (len : Nat) : SharedDevice T P where
  device := device
  len := len
  holder := none
  poisoned := false
  phase _ := .idle
  answers _ := []

/-- Number of bytes that a request wants. -/
def wanted (shared : SharedDevice T P) (request : Request) : Nat :=
  min request.count (shared.len - request.offset)

variable [DecidableEq T]

/-- Move a thread to another phase. -/
def enter (shared : SharedDevice T P) (thread : T) (phase : Phase) :
    SharedDevice T P :=
  { shared with phase := Function.update shared.phase thread phase }

/-- Give the caller its answer. -/
def reply (shared : SharedDevice T P) (thread : T) (request : Request)
    (answer : Reply) : SharedDevice T P :=
  { shared.enter thread .idle with
    answers := Function.update shared.answers thread
      (shared.answers thread ++ [(request, answer)]) }

/-- Leave with the result of a failed step. A panic poisons the mutex when
the guard is dropped. -/
def stop (shared : SharedDevice T P) (thread : T) (request : Request) :
    Stop ε → SharedDevice T P
  | .error _ => { shared with holder := none }.reply thread request .failed
  | .panic =>
      { shared with holder := none, poisoned := true }.enter thread
        (.dead request)
  | .diverges => shared.enter thread (.dead request)

variable [ReadSeek ε P]

/-- One step with the lock held. -/
def advance (shared : SharedDevice T P) (thread : T) :
    Option (SharedDevice T P) :=
  match shared.phase thread with
  | .seeking request =>
      match ReadSeek.seek shared.device (.start request.offset) with
      | (.error why, device) =>
          some ({ shared with device }.stop thread request why)
      | (.ok _, device) =>
          some ({ shared with device }.enter thread (.reading request []))
  | .reading request done =>
      if done.length < shared.wanted request then
        match ReadSeek.read shared.device
            (shared.wanted request - done.length) with
        | (.error why, device) =>
            some ({ shared with device }.stop thread request why)
        | (.ok bytes, device) =>
            if bytes.length = 0 then
              some ({ shared with device, holder := none }.reply thread
                request (.bytes done))
            else
              some ({ shared with device }.enter thread
                (.reading request (done ++ bytes)))
      else
        some ({ shared with holder := none }.reply thread request
          (.bytes done))
  | _ => none

/-- One step of one thread. A request beyond the end is answered without the
lock, and a poisoned lock is taken like any other. -/
def step (shared : SharedDevice T P) :
    ThreadStep T → Option (SharedDevice T P)
  | .call thread request =>
      if shared.phase thread = .idle then
        if shared.len - request.offset = 0 then
          some (shared.reply thread request (.bytes []))
        else some (shared.enter thread (.waiting request))
      else none
  | .lock thread =>
      match shared.phase thread, shared.holder with
      | .waiting request, none =>
          some ({ shared with holder := some thread }.enter thread
            (.seeking request))
      | _, _ => none
  | .advance thread => shared.advance thread

/-- A run of steps in the order of a schedule. -/
def run : List (ThreadStep T) → SharedDevice T P → Option (SharedDevice T P)
  | [], shared => some shared
  | action :: actions, shared => (shared.step action).bind (run actions)

end Machine

/-! ## What a step can do -/

section Steps

variable {ε T P : Type} [DecidableEq T] [ReadSeek ε P]
  {shared after : SharedDevice T P} {thread other : T} {request : Request}

@[simp] theorem phase_enter_self (phase : Phase) :
    (shared.enter thread phase).phase thread = phase :=
  Function.update_self ..

/-- Entering a phase leaves the other threads alone. -/
theorem phase_enter_of_ne (different : other ≠ thread) (phase : Phase) :
    (shared.enter thread phase).phase other = shared.phase other :=
  Function.update_of_ne different ..

@[simp] theorem phase_reply_self (answer : Reply) :
    (shared.reply thread request answer).phase thread = .idle :=
  Function.update_self ..

/-- So does a reply. -/
theorem phase_reply_of_ne (different : other ≠ thread) (answer : Reply) :
    (shared.reply thread request answer).phase other = shared.phase other :=
  Function.update_of_ne different ..

@[simp] theorem answers_reply_self (answer : Reply) :
    (shared.reply thread request answer).answers thread =
      shared.answers thread ++ [(request, answer)] :=
  Function.update_self ..

/-- A reply is for one thread. -/
theorem answers_reply_of_ne (different : other ≠ thread) (answer : Reply) :
    (shared.reply thread request answer).answers other =
      shared.answers other :=
  Function.update_of_ne different ..

end Steps

/-! ## Steps on a device that refines its disk -/

section Refined

variable {ε T P : Type} [DecidableEq T] [ReadSeek ε P] [PresentsDisk P]
  {disk : ReferenceDisk} {shared after : SharedDevice T P} {thread : T}
  {request : Request} {action : ThreadStep T}

/-- What a phase says about the shared device. -/
def PhaseHolds (disk : ReferenceDisk) (shared : SharedDevice T P) :
    Phase → Prop
  | .idle => True
  | .waiting request | .seeking request => request.offset < disk.size
  | .reading request done =>
      request.offset < disk.size ∧
        position shared.device = request.offset + done.length ∧
        done.length ≤ shared.wanted request ∧
        disk.range request.offset done.length = some done
  | .dead _ => False

/-- The device presents the disk, the holder of the lock is the only thread
in its section, and all answers so far are those of the disk. -/
structure Consistent (disk : ReferenceDisk) (shared : SharedDevice T P) :
    Prop where
  /-- The device is in a sound state. -/
  sound : Sound shared.device
  /-- It still shows the disk. -/
  disk_eq : PresentsDisk.disk shared.device = disk
  /-- The length is that of the disk. -/
  len_eq : shared.len = disk.size
  /-- No thread has panicked. -/
  unpoisoned : shared.poisoned = false
  /-- The holder of the lock is the thread in its section. -/
  holder_iff : ∀ thread, shared.holder = some thread ↔
    (shared.phase thread).InSection
  /-- Every section is as far as its phase says. -/
  phases : ∀ thread, PhaseHolds disk shared (shared.phase thread)
  /-- Every answer is that of the disk. -/
  answered : ∀ thread, ∀ answer ∈ shared.answers thread,
    answer.2 = disk.answer answer.1

/-- A device after one successful call. -/
structure Moved (disk : ReferenceDisk) (pos : Nat) (device : P) : Prop where
  /-- The device is in a sound state. -/
  sound : Sound device
  /-- It still shows the disk. -/
  disk_eq : PresentsDisk.disk device = disk
  /-- It is at the new position. -/
  position_eq : position device = pos

/-- The steps of threads on a device that presents `disk`. -/
inductive DiskStep (disk : ReferenceDisk) (shared : SharedDevice T P) :
    ThreadStep T → SharedDevice T P → Prop
  | beyond {thread : T} {request : Request}
      (idle : shared.phase thread = .idle)
      (outside : disk.size ≤ request.offset) :
      DiskStep disk shared (.call thread request)
        (shared.reply thread request (.bytes []))
  | call {thread : T} {request : Request}
      (idle : shared.phase thread = .idle)
      (inside : request.offset < disk.size) :
      DiskStep disk shared (.call thread request)
        (shared.enter thread (.waiting request))
  | lock {thread : T} {request : Request}
      (waits : shared.phase thread = .waiting request)
      (free : shared.holder = none) :
      DiskStep disk shared (.lock thread)
        ({ shared with holder := some thread }.enter thread
          (.seeking request))
  | seek {thread : T} {request : Request} {device : P}
      (seeks : shared.phase thread = .seeking request)
      (moved : Moved disk request.offset device) :
      DiskStep disk shared (.advance thread)
        ({ shared with device }.enter thread (.reading request []))
  | read {thread : T} {request : Request} {done bytes : Bytes} {device : P}
      (reads : shared.phase thread = .reading request done)
      (short : done.length < shared.wanted request)
      (found : disk.range (request.offset + done.length)
        (shared.wanted request - done.length) = some bytes)
      (moved : Moved disk (request.offset + (done ++ bytes).length) device) :
      DiskStep disk shared (.advance thread)
        ({ shared with device }.enter thread
          (.reading request (done ++ bytes)))
  | fail {thread : T} {request : Request} {done : Bytes} {device : P}
      (reads : shared.phase thread = .reading request done)
      (short : done.length < shared.wanted request)
      (missing : disk.range (request.offset + done.length)
        (shared.wanted request - done.length) = none)
      (sound : Sound device) (disk_eq : PresentsDisk.disk device = disk) :
      DiskStep disk shared (.advance thread)
        ({ shared with device, holder := none }.reply thread request .failed)
  | finish {thread : T} {request : Request} {done : Bytes}
      (reads : shared.phase thread = .reading request done)
      (full : shared.wanted request ≤ done.length) :
      DiskStep disk shared (.advance thread)
        ({ shared with holder := none }.reply thread request (.bytes done))

variable [RefinesDisk ε P]

/-- With the lock held a consistent device makes the steps of its disk. -/
theorem Consistent.diskStep_advance (consistent : Consistent disk shared)
    (small : disk.size ≤ 2 ^ 63)
    (stepped : shared.advance thread = some after) :
    DiskStep disk shared (.advance thread) after := by
  obtain ⟨sound, diskEq, lenEq, -, -, phases, -⟩ := consistent
  have holds := phases thread
  unfold advance at stepped
  cases here : shared.phase thread with
  | idle => rw [here] at stepped; cases stepped
  | waiting request => rw [here] at stepped; cases stepped
  | dead request => rw [here] at stepped; cases stepped
  | seeking request =>
      rw [here] at stepped holds
      change request.offset < disk.size at holds
      obtain ⟨stays, sameDisk, answer⟩ := RefinesDisk.seek_step (ε := ε)
        shared.device (.start request.offset) sound
      have target : seekTarget (ε := ε) (PresentsDisk.disk shared.device).size
          (position shared.device) (.start request.offset) =
            .ok (request.offset : Int) := by
        rw [seekTarget, asI64, if_pos (by omega)]
      rw [target] at answer
      dsimp only at answer stepped
      rw [if_neg (by omega), Int.toNat_natCast] at answer
      rcases sought : ReadSeek.seek shared.device
        (SeekFrom.start request.offset) with ⟨result, device⟩
      rw [sought] at stays sameDisk answer stepped
      dsimp only at stays sameDisk answer
      obtain ⟨returned, placed⟩ := answer
      subst returned
      obtain rfl := Option.some.inj stepped
      exact .seek here ⟨stays, sameDisk.trans diskEq, placed⟩
  | reading request done =>
      rw [here] at stepped holds
      obtain ⟨inside, placed, atMost, found⟩ := holds
      dsimp only at stepped
      by_cases short : done.length < shared.wanted request
      case neg =>
        rw [if_neg short] at stepped
        obtain rfl := Option.some.inj stepped
        exact .finish here (by omega)
      rw [if_pos short] at stepped
      obtain ⟨stays, sameDisk, answer⟩ := RefinesDisk.read_step (ε := ε)
        shared.device (shared.wanted request - done.length) sound
      have clipped : min (shared.wanted request - done.length)
          (disk.size - (request.offset + done.length)) =
            shared.wanted request - done.length := by
        rw [wanted, lenEq]
        omega
      rw [ReferenceDisk.read, diskEq, placed, clipped] at answer
      rcases outcome : ReadSeek.read shared.device
        (shared.wanted request - done.length) with ⟨result, device⟩
      rw [outcome] at stays sameDisk answer stepped
      dsimp only at stays sameDisk answer
      cases next : disk.range (request.offset + done.length)
          (shared.wanted request - done.length) with
      | some bytes =>
          rw [next] at answer
          obtain ⟨returned, moved⟩ := answer
          subst returned
          have count := disk.length_of_range next
          dsimp only at stepped
          rw [if_neg (by omega)] at stepped
          obtain rfl := Option.some.inj stepped
          refine .read here short next ⟨stays, sameDisk.trans diskEq, ?_⟩
          rw [moved, List.length_append]
          omega
      | none =>
          rw [next] at answer
          obtain ⟨⟨e, failed⟩, -⟩ := answer
          subst failed
          obtain rfl := Option.some.inj stepped
          exact .fail here short next stays (sameDisk.trans diskEq)

/-- A consistent device makes the steps of its disk. -/
theorem Consistent.diskStep (consistent : Consistent disk shared)
    (small : disk.size ≤ 2 ^ 63) (stepped : shared.step action = some after) :
    DiskStep disk shared action after := by
  have lenEq := consistent.len_eq
  cases action with
  | call thread request =>
      rw [step] at stepped
      split_ifs at stepped with idle outside
      · obtain rfl := Option.some.inj stepped
        exact .beyond idle (by omega)
      · obtain rfl := Option.some.inj stepped
        exact .call idle (by omega)
  | lock thread =>
      rw [step] at stepped
      split at stepped
      · rename_i request waits free
        obtain rfl := Option.some.inj stepped
        exact .lock waits free
      · cases stepped
  | advance thread => exact consistent.diskStep_advance small stepped

end Refined

/-! ## Every run is consistent -/

section Runs

variable {ε T P : Type} [DecidableEq T] [ReadSeek ε P] [PresentsDisk P]
  {disk : ReferenceDisk} {shared after : SharedDevice T P} {thread : T}
  {request : Request} {action : ThreadStep T}

omit [DecidableEq T] [ReadSeek ε P] in
/-- Only the thread in the section depends on the device. -/
theorem PhaseHolds.of_outside {phase : Phase} (outside : ¬ phase.InSection)
    (holds : PhaseHolds disk shared phase) : PhaseHolds disk after phase := by
  cases phase with
  | idle => trivial
  | waiting request => exact holds
  | seeking request => exact absurd trivial outside
  | reading request done => exact absurd trivial outside
  | dead request => exact holds

omit [DecidableEq T] [ReadSeek ε P] in
/-- What a phase says is about the device only. -/
theorem PhaseHolds.of_sameDevice {phase : Phase}
    (sameDevice : after.device = shared.device)
    (sameLen : after.len = shared.len)
    (holds : PhaseHolds disk shared phase) : PhaseHolds disk after phase := by
  cases phase with
  | reading request done =>
      unfold PhaseHolds wanted at holds ⊢
      rwa [sameDevice, sameLen]
  | _ => exact holds

omit [DecidableEq T] [ReadSeek ε P] in
/-- A step of one thread keeps consistency if it keeps what the other threads
rely on. -/
theorem Consistent.of_step (consistent : Consistent disk shared)
    (sound : Sound after.device)
    (diskEq : PresentsDisk.disk after.device = disk)
    (sameLen : after.len = shared.len)
    (samePoison : after.poisoned = shared.poisoned)
    (others : ∀ other, other ≠ thread →
      after.phase other = shared.phase other ∧
        after.answers other = shared.answers other ∧
        (after.holder = some other ↔ shared.holder = some other))
    (own : after.holder = some thread ↔ (after.phase thread).InSection)
    (device : after.device = shared.device ∨ (shared.phase thread).InSection)
    (phase : PhaseHolds disk after (after.phase thread))
    (answers : ∀ answer ∈ after.answers thread,
      answer ∈ shared.answers thread ∨ answer.2 = disk.answer answer.1) :
    Consistent disk after where
  sound := sound
  disk_eq := diskEq
  len_eq := sameLen.trans consistent.len_eq
  unpoisoned := samePoison.trans consistent.unpoisoned
  holder_iff := by
    intro other
    by_cases same : other = thread
    · rw [same]
      exact own
    · obtain ⟨samePhase, -, sameHolder⟩ := others other same
      rw [samePhase, sameHolder]
      exact consistent.holder_iff other
  phases := by
    intro other
    by_cases same : other = thread
    · rw [same]
      exact phase
    · rw [(others other same).1]
      have holds := consistent.phases other
      rcases device with sameDevice | inSection
      · exact holds.of_sameDevice sameDevice sameLen
      · refine holds.of_outside fun otherIn => same ?_
        have first := (consistent.holder_iff other).mpr otherIn
        rw [(consistent.holder_iff thread).mpr inSection] at first
        exact (Option.some.inj first).symm
  answered := by
    intro other answer member
    by_cases same : other = thread
    · rw [same] at member
      exact (answers answer member).elim
        (consistent.answered thread answer) id
    · rw [(others other same).2.1] at member
      exact consistent.answered other answer member

omit [DecidableEq T] [ReadSeek ε P] in
/-- A full buffer holds the answer to a request. -/
theorem Consistent.answer_of_full (consistent : Consistent disk shared)
    {done : Bytes} (atMost : done.length ≤ shared.wanted request)
    (full : shared.wanted request ≤ done.length)
    (found : disk.range request.offset done.length = some done) :
    disk.answer request = .bytes done := by
  have count : min request.count (disk.size - request.offset) =
      done.length := by
    rw [← consistent.len_eq]
    exact le_antisymm full atMost
  rw [ReferenceDisk.answer, ReferenceDisk.read, count, found]

omit [DecidableEq T] [ReadSeek ε P] in
/-- A request fails if its rest has a byte without a value. -/
theorem Consistent.answer_of_missing (consistent : Consistent disk shared)
    {done : Bytes} (short : done.length < shared.wanted request)
    (missing : disk.range (request.offset + done.length)
      (shared.wanted request - done.length) = none) :
    disk.answer request = .failed := by
  have count : min request.count (disk.size - request.offset) =
      done.length + (shared.wanted request - done.length) := by
    rw [← consistent.len_eq]
    change shared.wanted request = _
    omega
  rw [ReferenceDisk.answer, ReferenceDisk.read, count, disk.range_append,
    missing]
  cases disk.range request.offset done.length <;> rfl

/-- The holder changes for one thread only. -/
def OthersKept (thread : T) (before after : Option T) : Prop :=
  ∀ other, other ≠ thread → (after = some other ↔ before = some other)

/-- A thread moves to another phase. -/
theorem Consistent.enter (consistent : Consistent disk shared) {device : P}
    {holder : Option T} {phase : Phase} (sound : Sound device)
    (diskEq : PresentsDisk.disk device = disk)
    (sole : device = shared.device ∨ (shared.phase thread).InSection)
    (others : OthersKept thread shared.holder holder)
    (own : holder = some thread ↔ phase.InSection)
    (holds : PhaseHolds disk { shared with device, holder } phase) :
    Consistent disk ({ shared with device, holder }.enter thread phase) := by
  refine @Consistent.of_step _ _ _ _ _ _ thread consistent sound diskEq rfl rfl
    ?_ ?_ sole
    ?_ ?_
  · exact fun other different =>
      ⟨phase_enter_of_ne different _, rfl, others other different⟩
  · rwa [phase_enter_self]
  · rw [phase_enter_self]
    exact holds.of_sameDevice rfl rfl
  · exact fun answer member => Or.inl member

/-- A thread gets the answer of the disk. -/
theorem Consistent.reply (consistent : Consistent disk shared) {device : P}
    {holder : Option T} {answer : Reply} (sound : Sound device)
    (diskEq : PresentsDisk.disk device = disk)
    (sole : device = shared.device ∨ (shared.phase thread).InSection)
    (others : OthersKept thread shared.holder holder)
    (own : holder ≠ some thread) (right : answer = disk.answer request) :
    Consistent disk
      ({ shared with device, holder }.reply thread request answer) := by
  refine @Consistent.of_step _ _ _ _ _ _ thread consistent sound diskEq rfl rfl
    ?_ ?_ sole
    ?_ ?_
  · exact fun other different => ⟨phase_reply_of_ne different _,
      answers_reply_of_ne different _, others other different⟩
  · rw [phase_reply_self]
    exact iff_of_false own id
  · rw [phase_reply_self]
    trivial
  · rw [answers_reply_self]
    refine fun earlier member => (List.mem_append.mp member).imp_right
      fun last => ?_
    rw [List.mem_singleton.mp last]
    exact right

/-- One step keeps consistency. -/
theorem Consistent.kept (consistent : Consistent disk shared)
    (stepped : DiskStep disk shared action after) :
    Consistent disk after := by
  have sound := consistent.sound
  have diskEq := consistent.disk_eq
  have holderIff := consistent.holder_iff
  have phases := consistent.phases
  -- A thread outside the section does not hold the lock.
  have outside : ∀ thread, ¬ (shared.phase thread).InSection →
      shared.holder ≠ some thread := fun thread out holds =>
    out ((holderIff thread).mp holds)
  have released : ∀ thread, (shared.phase thread).InSection →
      OthersKept thread shared.holder none := by
    intro thread inSection other different
    rw [(holderIff thread).mpr inSection]
    simpa using Ne.symm different
  cases stepped with
  | @beyond thread request idle beyond =>
      refine consistent.reply sound diskEq (Or.inl rfl)
        (fun _ _ => Iff.rfl) (outside thread (by rw [idle]; exact id)) ?_
      rw [ReferenceDisk.answer, ReferenceDisk.read,
        Nat.sub_eq_zero_of_le beyond, Nat.min_zero]
      rfl
  | @call thread request idle inside =>
      exact consistent.enter sound diskEq (Or.inl rfl) (fun _ _ => Iff.rfl)
        (iff_of_false (outside thread (by rw [idle]; exact id)) id) inside
  | @lock thread request waits free =>
      have inside := phases thread
      rw [waits] at inside
      refine consistent.enter sound diskEq (Or.inl rfl) ?_
        (iff_of_true rfl trivial) inside
      intro other different
      rw [free]
      simpa using Ne.symm different
  | @seek thread request device seeks moved =>
      have inSection : (shared.phase thread).InSection := by
        rw [seeks]
        trivial
      have inside := phases thread
      rw [seeks] at inside
      exact consistent.enter moved.sound moved.disk_eq (Or.inr inSection)
        (fun _ _ => Iff.rfl)
        (iff_of_true ((holderIff thread).mpr inSection) trivial)
        ⟨inside, moved.position_eq, Nat.zero_le _, rfl⟩
  | @read thread request done bytes device reads short found moved =>
      have inSection : (shared.phase thread).InSection := by
        rw [reads]
        trivial
      have holds := phases thread
      rw [reads] at holds
      obtain ⟨inside, -, -, foundFirst⟩ := holds
      have count := disk.length_of_range found
      refine consistent.enter moved.sound moved.disk_eq (Or.inr inSection)
        (fun _ _ => Iff.rfl)
        (iff_of_true ((holderIff thread).mpr inSection) trivial)
        ⟨inside, moved.position_eq, ?_, ?_⟩
      · rw [List.length_append, count]
        change _ ≤ shared.wanted request
        omega
      · rw [List.length_append, disk.range_append, foundFirst, count, found]
  | @fail thread request done device reads short missing deviceSound same =>
      have inSection : (shared.phase thread).InSection := by
        rw [reads]
        trivial
      exact consistent.reply deviceSound same (Or.inr inSection)
        (released thread inSection) (Option.some_ne_none thread).symm
        (consistent.answer_of_missing short missing).symm
  | @finish thread request done reads full =>
      have inSection : (shared.phase thread).InSection := by
        rw [reads]
        trivial
      have holds := phases thread
      rw [reads] at holds
      obtain ⟨-, -, atMost, found⟩ := holds
      exact consistent.reply sound diskEq (Or.inl rfl)
        (released thread inSection) (Option.some_ne_none thread).symm
        (consistent.answer_of_full atMost full found).symm

end Runs

/-! ## Requests and answers -/

section Requests

variable {ε T P : Type} [DecidableEq T] [ReadSeek ε P] [PresentsDisk P]
  {disk : ReferenceDisk} {shared after : SharedDevice T P}
  {action : ThreadStep T} {actions : List (ThreadStep T)}

/-- The answered requests of a thread, and the one in flight. -/
def accounted (shared : SharedDevice T P) (thread : T) : List Request :=
  (shared.answers thread).map Prod.fst ++ (shared.phase thread).pending

/-- No step loses or repeats a request. -/
theorem DiskStep.accounted_eq (stepped : DiskStep disk shared action after)
    (thread : T) :
    after.accounted thread =
      shared.accounted thread ++ (action.requestOf thread).toList := by
  -- The steps of another thread change neither answers nor phase.
  have entered : ∀ {mover : T} {before : SharedDevice T P} {phase : Phase},
      (mover = thread → phase.pending = (before.phase mover).pending) →
        (before.enter mover phase).accounted thread =
          before.accounted thread := by
    intro mover before phase kept
    by_cases same : thread = mover
    · subst same
      rw [accounted, phase_enter_self, kept rfl]
      rfl
    · rw [accounted, phase_enter_of_ne same]
      rfl
  have replied : ∀ {mover : T} {before : SharedDevice T P}
      {request : Request} {answer : Reply},
      (before.phase mover).pending = [request] →
        (before.reply mover request answer).accounted thread =
          before.accounted thread := by
    intro mover before request answer pending
    by_cases same : thread = mover
    · subst same
      rw [accounted, phase_reply_self, answers_reply_self, accounted, pending,
        List.map_append]
      exact List.append_nil _
    · rw [accounted, phase_reply_of_ne same, answers_reply_of_ne same]
      rfl
  cases stepped with
  | @beyond mover request idle outside =>
      by_cases same : mover = thread
      · subst same
        rw [accounted, phase_reply_self, answers_reply_self, accounted, idle,
          ThreadStep.requestOf, if_pos rfl, List.map_append]
        simp [Phase.pending]
      · rw [accounted, phase_reply_of_ne (Ne.symm same),
          answers_reply_of_ne (Ne.symm same), ThreadStep.requestOf,
          if_neg same]
        exact (List.append_nil _).symm
  | @call mover request idle inside =>
      by_cases same : mover = thread
      · subst same
        rw [accounted, phase_enter_self, accounted, idle,
          ThreadStep.requestOf, if_pos rfl]
        simp [Phase.pending, enter]
      · rw [ThreadStep.requestOf, if_neg same,
          entered fun again => absurd again same]
        exact (List.append_nil _).symm
  | lock waits free =>
      refine Eq.trans (entered fun _ => ?_) (List.append_nil _).symm
      change _ = (shared.phase _).pending
      rw [waits]
      rfl
  | seek seeks moved =>
      refine Eq.trans (entered fun _ => ?_) (List.append_nil _).symm
      change _ = (shared.phase _).pending
      rw [seeks]
      rfl
  | read reads short found moved =>
      refine Eq.trans (entered fun _ => ?_) (List.append_nil _).symm
      change _ = (shared.phase _).pending
      rw [reads]
      rfl
  | fail reads short missing sound same =>
      refine Eq.trans (replied ?_) (List.append_nil _).symm
      change (shared.phase _).pending = _
      rw [reads]
      rfl
  | finish reads full =>
      refine Eq.trans (replied ?_) (List.append_nil _).symm
      change (shared.phase _).pending = _
      rw [reads]
      rfl

variable [RefinesDisk ε P]

/-- A run keeps consistency and accounts for the requests it makes. -/
theorem Consistent.after_run (consistent : Consistent disk shared)
    (small : disk.size ≤ 2 ^ 63) (ran : run actions shared = some after) :
    Consistent disk after ∧ ∀ thread, after.accounted thread =
      shared.accounted thread ++ ThreadStep.requestsOf thread actions := by
  induction actions generalizing shared with
  | nil =>
      cases ran
      exact ⟨consistent, fun thread => (List.append_nil _).symm⟩
  | cons action actions inductionHypothesis =>
      obtain ⟨middle, stepped, rest⟩ := Option.bind_eq_some_iff.mp ran
      have moved := consistent.diskStep small stepped
      obtain ⟨kept, history⟩ := inductionHypothesis (consistent.kept moved) rest
      refine ⟨kept, fun thread => ?_⟩
      rw [history thread, moved.accounted_eq thread, List.append_assoc,
        ThreadStep.requestsOf, ThreadStep.requestsOf, List.filterMap_cons]
      cases action.requestOf thread <;> rfl

omit [DecidableEq T] in
/-- A sound device that no thread has used yet is consistent. -/
theorem consistent_start {device : P} (sound : Sound device) :
    Consistent (PresentsDisk.disk device)
      (start device (PresentsDisk.disk device).size : SharedDevice T P) where
  sound := sound
  disk_eq := rfl
  len_eq := rfl
  unpoisoned := rfl
  holder_iff _ := iff_of_false (Option.some_ne_none _).symm id
  phases _ := trivial
  answered _ _ member := absurd member List.not_mem_nil

omit [DecidableEq T] [ReadSeek ε P] [RefinesDisk ε P] in
/-- At most one thread is in its section. -/
theorem Consistent.exclusive (consistent : Consistent disk shared)
    {first second : T} (firstIn : (shared.phase first).InSection)
    (secondIn : (shared.phase second).InSection) : first = second := by
  have held := (consistent.holder_iff first).mpr firstIn
  rw [(consistent.holder_iff second).mpr secondIn] at held
  exact (Option.some.inj held).symm

end Requests

/-! ## Progress -/

section Progress

variable {ε T P : Type} [DecidableEq T] [ReadSeek ε P] [PresentsDisk P]
  {disk : ReferenceDisk} {shared after : SharedDevice T P}
  {action : ThreadStep T} {actions : List (ThreadStep T)}

/-- Unless all threads are idle, one of them can go on. -/
theorem Consistent.idle_of_stuck (consistent : Consistent disk shared)
    (stuck : ∀ action : ThreadStep T, action.Internal →
      shared.step action = none) (thread : T) :
    shared.phase thread = .idle := by
  -- A thread in its section is never blocked.
  have outside : ∀ thread, ¬ (shared.phase thread).InSection := by
    intro thread inSection
    have blocked := stuck (.advance thread) trivial
    rw [step, advance] at blocked
    cases here : shared.phase thread with
    | seeking request =>
        rw [here] at blocked
        dsimp only at blocked
        split at blocked <;> cases blocked
    | reading request done =>
        rw [here] at blocked
        dsimp only at blocked
        split_ifs at blocked
        split at blocked
        · cases blocked
        · split_ifs at blocked
    | _ =>
        rw [here] at inSection
        exact inSection
  have free : shared.holder = none := by
    cases held : shared.holder with
    | none => rfl
    | some holder =>
        exact absurd ((consistent.holder_iff holder).mp held) (outside holder)
  cases here : shared.phase thread with
  | idle => rfl
  | waiting request =>
      have blocked := stuck (.lock thread) trivial
      rw [step, here, free] at blocked
      cases blocked
  | dead request =>
      have holds := consistent.phases thread
      rw [here] at holds
      exact holds.elim
  | _ => exact absurd (by rw [here]; trivial) (outside thread)

variable [Fintype T]

/-- A bound on the steps that are left of all requests. -/
def work (shared : SharedDevice T P) : Nat :=
  ∑ thread, (shared.phase thread).work shared.len

omit [ReadSeek ε P] [PresentsDisk P] in
/-- Less work for one thread and no more for the others is less work. -/
theorem work_lt {thread : T} (sameLen : after.len = shared.len)
    (others : ∀ other, other ≠ thread →
      after.phase other = shared.phase other)
    (less : (after.phase thread).work shared.len <
      (shared.phase thread).work shared.len) : after.work < shared.work := by
  rw [work, work, sameLen]
  refine Finset.sum_lt_sum (fun other _ => ?_)
    ⟨thread, Finset.mem_univ thread, less⟩
  by_cases same : other = thread
  · rw [same]
    exact less.le
  · rw [others other same]

/-- Every step of a request leaves less to do. -/
theorem DiskStep.work_lt (stepped : DiskStep disk shared action after)
    (internal : action.Internal) : after.work < shared.work := by
  cases stepped with
  | beyond idle outside => exact internal.elim
  | call idle inside => exact internal.elim
  | @lock thread request waits free =>
      refine @SharedDevice.work_lt _ _ _ _ _ _ thread rfl
        (fun other different => phase_enter_of_ne different _) ?_
      rw [phase_enter_self, waits]
      exact Nat.lt_succ_self _
  | @seek thread request device seeks moved =>
      refine @SharedDevice.work_lt _ _ _ _ _ _ thread rfl
        (fun other different => phase_enter_of_ne different _) ?_
      rw [phase_enter_self, seeks]
      exact Nat.lt_succ_self _
  | @read thread request done bytes device reads short found moved =>
      refine @SharedDevice.work_lt _ _ _ _ _ _ thread rfl
        (fun other different => phase_enter_of_ne different _) ?_
      have count := disk.length_of_range found
      rw [phase_enter_self, reads]
      unfold wanted at short count
      simp only [Phase.work, List.length_append]
      omega
  | @fail thread request done device reads short missing sound same =>
      refine @SharedDevice.work_lt _ _ _ _ _ _ thread rfl
        (fun other different => phase_reply_of_ne different _) ?_
      rw [phase_reply_self, reads]
      exact Nat.succ_pos _
  | @finish thread request done reads full =>
      refine @SharedDevice.work_lt _ _ _ _ _ _ thread rfl
        (fun other different => phase_reply_of_ne different _) ?_
      rw [phase_reply_self, reads]
      exact Nat.succ_pos _

variable [RefinesDisk ε P]

/-- Without new requests a run is bounded by the work at its start. -/
theorem Consistent.length_le_work (consistent : Consistent disk shared)
    (small : disk.size ≤ 2 ^ 63) (ran : run actions shared = some after)
    (internal : ∀ action ∈ actions, action.Internal) :
    actions.length + after.work ≤ shared.work := by
  induction actions generalizing shared with
  | nil =>
      cases ran
      exact (Nat.zero_add _).le
  | cons action actions inductionHypothesis =>
      obtain ⟨middle, stepped, rest⟩ := Option.bind_eq_some_iff.mp ran
      have moved := consistent.diskStep small stepped
      have less := moved.work_lt (internal action List.mem_cons_self)
      have later := inductionHypothesis (consistent.kept moved) rest
        fun later member => internal later (List.mem_cons_of_mem _ member)
      rw [List.length_cons]
      omega

end Progress

end SharedDevice

end Rust
