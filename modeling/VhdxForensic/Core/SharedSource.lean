import VhdxForensic.Core.ReferenceDisk
import VhdxForensic.Rust.SharedDevice

/-!
# A source that threads share

Threads read one source of an opened reader at the same time. Its mutex
serializes their requests, so every thread gets what it would get alone.
-/

namespace VhdxForensic

open Rust PresentsDisk

namespace VhdxSource

/-- A source as threads find it behind its mutex. -/
def share {P : Type} (T : Type) (source : VhdxSource P) :
    SharedDevice T (VhdxReader P) :=
  .start source.inner source.len

section Share

variable {T P : Type} [DecidableEq T] [ReadSeek IoError P]
  {source : VhdxSource P} {actions : List (ThreadStep T)}
  {after : SharedDevice T (VhdxReader P)}

/-- The threads have been served: every answer is the one that the request
gets alone, no request is lost or repeated, and the lock has kept the threads
apart. -/
structure ServesThreads (source : VhdxSource P)
    (actions : List (ThreadStep T)) (after : SharedDevice T (VhdxReader P)) :
    Prop where
  /-- Every answer is what the request gets alone. -/
  answered : ∀ thread, ∀ answer ∈ after.answers thread,
    answer.2 = replyOf .bytes
      (source.readAt answer.1.offset answer.1.count).1
  /-- Answers and the open request are the requests in order. -/
  accounted : ∀ thread,
    (after.answers thread).map Prod.fst ++ (after.phase thread).pending =
      ThreadStep.requestsOf thread actions
  /-- At most one thread is in its section. -/
  exclusive : ∀ first second, (after.phase first).InSection →
    (after.phase second).InSection → first = second
  /-- The mutex is not poisoned. -/
  unpoisoned : after.poisoned = false

/-- All requests are answered, whatever the threads do, within a bounded
number of steps. -/
structure CompletesFrom [Fintype T] (actions : List (ThreadStep T))
    (after : SharedDevice T (VhdxReader P)) : Prop where
  /-- Without new requests the number of further steps is bounded. -/
  bounded : ∀ (more : List (ThreadStep T))
    (final : SharedDevice T (VhdxReader P)),
    (∀ action ∈ more, action.Internal) → after.run more = some final →
      more.length ≤ after.work
  /-- When no step is possible, all requests have their answers. -/
  completed : ∀ (more : List (ThreadStep T))
    (final : SharedDevice T (VhdxReader P)),
    (∀ action ∈ more, action.Internal) → after.run more = some final →
      (∀ action : ThreadStep T, action.Internal → final.step action = none) →
        ∀ thread, (final.answers thread).map Prod.fst =
          ThreadStep.requestsOf thread actions

end Share

section Opened

variable {T : Type} [DecidableEq T] {depth : Nat}
  {reader : VhdxReader (Parent depth)} {actions : List (ThreadStep T)}
  {after : SharedDevice T (VhdxReader (Parent depth))}

omit [DecidableEq T] in
/-- The disk of an opened reader is small, and its source starts
consistent. -/
theorem consistent_share (opened : reader.Opened depth) :
    (disk reader).size ≤ 2 ^ 63 ∧
      SharedDevice.Consistent (disk reader) ((new reader).share T) := by
  have sound : Sound reader :=
    VhdxReader.OpenedOver.sound (Parent.Opened.sound depth) opened
  have sizeLe := sound.1.sound.valid.disk_le_max
  rw [← sound.1.metadata_eq] at sizeLe
  unfold VhdxMetadata.virtualDiskSizeMax at sizeLe
  refine ⟨?_, SharedDevice.consistent_start sound⟩
  change reader.metadata.virtualDiskSize ≤ 2 ^ 63
  omega

/-- The answer of the disk is what a request gets alone. -/
theorem answer_eq_readAt (opened : reader.Opened depth) (request : Request) :
    (disk reader).answer request =
      replyOf .bytes
        ((new reader).readAt request.offset request.count).1 := by
  have sound : Sound reader :=
    VhdxReader.OpenedOver.sound (Parent.Opened.sound depth) opened
  obtain ⟨-, -, -, answer⟩ := @readAt_spec _ _ _ _ (new reader)
    request.offset request.count sound rfl
  exact answer.symm

/-- Threads that share an opened reader are served, in whichever order their
steps are taken. -/
theorem servesThreads (opened : reader.Opened depth)
    (ran : SharedDevice.run actions ((new reader).share T) = some after) :
    (new reader).ServesThreads actions after := by
  obtain ⟨small, start⟩ := consistent_share (T := T) opened
  obtain ⟨consistent, history⟩ := start.after_run small ran
  constructor
  · intro thread answer member
    rw [consistent.answered thread answer member]
    exact answer_eq_readAt opened answer.1
  · intro thread
    exact history thread
  · exact fun first second => consistent.exclusive
  · exact consistent.unpoisoned

/-- Their requests are all answered. -/
theorem completesFrom [Fintype T] (opened : reader.Opened depth)
    (ran : SharedDevice.run actions ((new reader).share T) = some after) :
    CompletesFrom actions after := by
  obtain ⟨small, start⟩ := consistent_share (T := T) opened
  obtain ⟨consistent, history⟩ := start.after_run small ran
  constructor
  · intro more final internal ranMore
    have bound := consistent.length_le_work small ranMore internal
    omega
  · intro more final internal ranMore stuck thread
    obtain ⟨finalConsistent, later⟩ := consistent.after_run small ranMore
    have idle := finalConsistent.idle_of_stuck stuck thread
    have nothing : ThreadStep.requestsOf thread more = [] := by
      refine List.filterMap_eq_nil_iff.mpr fun action member => ?_
      have works := internal action member
      cases action with
      | call caller request => exact works.elim
      | lock caller => rfl
      | advance caller => rfl
    have total := later thread
    rw [history thread, nothing, List.append_nil, SharedDevice.accounted,
      idle] at total
    exact (List.append_nil _).symm.trans total

end Opened

/-- Two threads ask for overlapping bytes; the first one holds the lock and
has sought while the other one waits. -/
def twoThreads : List (ThreadStep Bool) :=
  [.call false ⟨0, 1024⟩, .call true ⟨512, 1024⟩, .lock false, .advance false]

theorem servesThreads_twoThreads :
    ∃ after, SharedDevice.run twoThreads
        ((new VhdxReader.childReader).share Bool) = some after ∧
      (new VhdxReader.childReader).ServesThreads twoThreads after :=
  ⟨_, rfl, servesThreads VhdxReader.childReader_opened rfl⟩

theorem completesFrom_twoThreads :
    ∃ after, SharedDevice.run twoThreads
        ((new VhdxReader.childReader).share Bool) = some after ∧
      CompletesFrom twoThreads after :=
  ⟨_, rfl, completesFrom VhdxReader.childReader_opened rfl⟩

end VhdxSource

end VhdxForensic
