import VhdxForensic.Rust.Bytes

/-!
# Seekable byte devices

The `Read` and `Seek` traits as one class over an explicit device state, and
the abstract disk such a device may present: a fixed size and a value, or
none, for every byte. A device that refines its disk step by step answers
every finite sequence of calls as the disk would.
-/

namespace Rust

open Exec

/-- `std::io::SeekFrom`. -/
inductive SeekFrom where
  | start (offset : Nat)
  | current (offset : Int)
  | fromEnd (offset : Int)
  deriving DecidableEq, Repr

/-- `Read + Seek` over the state `P`. A read delivers the bytes written to
the front of the caller's buffer. -/
class ReadSeek (ε : outParam Type) (P : Type) where
  /-- Read up to a number of bytes from the current position. -/
  read : P → Nat → Exec ε Bytes × P
  /-- Move the position. -/
  seek : P → SeekFrom → Exec ε Nat × P

/-- `value as i64` for an unsigned 64-bit value. -/
def asI64 (value : Nat) : Int :=
  if value < 2 ^ 63 then value else (value : Int) - 2 ^ 64

/-- Overflow-checked addition of signed 64-bit integers. -/
def addI64 {ε : Type} (a b : Int) : Exec ε Int :=
  if -2 ^ 63 ≤ a + b ∧ a + b < 2 ^ 63 then .ok (a + b) else panicked

/-- The position a seek asks for, relative to the current position and the
size. -/
def seekTarget {ε : Type} (size pos : Nat) : SeekFrom → Exec ε Int
  | .start offset => .ok (asI64 offset)
  | .current offset => addI64 (asI64 pos) offset
  | .fromEnd offset => addI64 (asI64 size) offset

section Calls

variable {ε P : Type} [ReadSeek ε P]

/-- `Read::read_exact`: read until the buffer is full, failing with `eof`
when a read delivers nothing. -/
def readExact (eof : ε) (count : Nat) (device : P) : Exec ε Bytes × P :=
  if _wanted : count = 0 then (.ok [], device)
  else
    match ReadSeek.read device count with
    | (.error stop, device) => (.error stop, device)
    | (.ok bytes, device) =>
        if _ended : bytes.length = 0 then (fail eof, device)
        else if bytes.length > count then (panicked, device)
        else
          match readExact eof (count - bytes.length) device with
          | (.error stop, device) => (.error stop, device)
          | (.ok rest, device) => (.ok (bytes ++ rest), device)
termination_by count

/-- An error ends the loop. -/
theorem readExact_of_error {eof : ε} {count : Nat} {device after : P}
    {stop : Stop ε} (wanted : count ≠ 0)
    (stopped : ReadSeek.read device count = (.error stop, after)) :
    readExact eof count device = (.error stop, after) := by
  rw [readExact, dif_neg wanted, stopped]

/-- An empty read ends the loop. -/
theorem readExact_of_ended {eof : ε} {count : Nat} {device after : P}
    (wanted : count ≠ 0)
    (ended : ReadSeek.read device count = (.ok [], after)) :
    readExact eof count device = (fail eof, after) := by
  rw [readExact, dif_neg wanted, ended]
  rfl

/-- Otherwise the loop goes on behind what was read. -/
theorem readExact_of_read {eof : ε} {count : Nat} {device after : P}
    {bytes : Bytes} (progress : bytes.length ≠ 0)
    (atMost : bytes.length ≤ count)
    (delivered : ReadSeek.read device count = (.ok bytes, after)) :
    readExact eof count device =
      match readExact eof (count - bytes.length) after with
      | (.error stop, device) => (.error stop, device)
      | (.ok rest, device) => (.ok (bytes ++ rest), device) := by
  rw [readExact, dif_neg (by omega), delivered]
  simp only [progress, dite_false]
  rw [if_neg (by omega)]

/-- A buffer that has been read is full. -/
theorem length_readExact {eof : ε} {count : Nat} {device : P} {bytes : Bytes}
    (filled : (readExact eof count device).1 = .ok bytes) :
    bytes.length = count := by
  induction count using Nat.strong_induction_on generalizing device bytes with
  | _ count inductionHypothesis =>
      rw [readExact] at filled
      by_cases wanted : count = 0
      · rw [dif_pos wanted] at filled
        cases filled
        exact wanted.symm
      rw [dif_neg wanted] at filled
      rcases delivered : ReadSeek.read device count with ⟨stop | front, after⟩
      · rw [delivered] at filled
        cases filled
      rw [delivered] at filled
      dsimp only at filled
      by_cases ended : front.length = 0
      · rw [dif_pos ended] at filled
        cases filled
      rw [dif_neg ended] at filled
      by_cases past : front.length > count
      · rw [if_pos past] at filled
        cases filled
      rw [if_neg past] at filled
      rcases later : readExact eof (count - front.length) after with
        ⟨stop | rest, final⟩
      · rw [later] at filled
        cases filled
      · rw [later] at filled
        cases filled
        have restLength := inductionHypothesis (count - front.length)
          (by omega) (congrArg Prod.fst later)
        rw [List.length_append]
        omega

/-- A call on a device. -/
inductive Call where
  | read (count : Nat)
  | seek (target : SeekFrom)
  deriving DecidableEq, Repr

/-- What a caller sees of one call, up to the error value. -/
inductive Reply where
  | bytes (delivered : Bytes)
  | position (pos : Nat)
  | failed
  | crashed
  deriving DecidableEq, Repr

/-- The visible part of a result. -/
def replyOf {α : Type} (shown : α → Reply) : Exec ε α → Reply
  | .ok a => shown a
  | .error (.error _) => .failed
  | .error .panic => .crashed
  | .error .diverges => .crashed

/-- Perform one call. -/
def perform (device : P) : Call → Reply × P
  | .read count =>
      let (result, device) := ReadSeek.read device count
      (replyOf .bytes result, device)
  | .seek target =>
      let (result, device) := ReadSeek.seek device target
      (replyOf .position result, device)

/-- The replies to a sequence of calls, up to and including the first
crash. -/
def replies : List Call → P → List Reply
  | [], _ => []
  | call :: calls, device =>
      match perform device call with
      | (.crashed, _) => [.crashed]
      | (reply, device) => reply :: replies calls device

/-- The full result of one call. -/
inductive Outcome (ε : Type) where
  | read (result : Exec ε Bytes)
  | seek (result : Exec ε Nat)

/-- Perform one call and keep its full result. -/
def performFully (device : P) : Call → Outcome ε × P
  | .read count =>
      let (result, device) := ReadSeek.read device count
      (.read result, device)
  | .seek target =>
      let (result, device) := ReadSeek.seek device target
      (.seek result, device)

/-- The full results of a sequence of calls. -/
def outcomes : List Call → P → List (Outcome ε)
  | [], _ => []
  | call :: calls, device =>
      let (outcome, device) := performFully device call
      outcome :: outcomes calls device

/-- A map between device states that commutes with every call preserves the
results of all sequences of calls. -/
theorem outcomes_map {Q : Type} [ReadSeek ε Q] (translate : P → Q)
    (invariant : P → Prop)
    (step : ∀ device call, invariant device →
      invariant (performFully device call).2 ∧
        performFully (translate device) call =
          ((performFully device call).1,
            translate (performFully device call).2))
    (calls : List Call) (device : P) (holds : invariant device) :
    outcomes calls (translate device) = outcomes calls device := by
  induction calls generalizing device with
  | nil => rfl
  | cons call calls inductionHypothesis =>
      obtain ⟨kept, commutes⟩ := step device call holds
      rw [outcomes, outcomes, commutes]
      exact congrArg _ (inductionHypothesis _ kept)

/-- Related device states give the same results to every call, with buffers
that fit into memory, and stay related. -/
structure Bisimilar {Q : Type} [ReadSeek ε Q] (related : P → Q → Prop) :
    Prop where
  /-- Reads have the same outcome and keep the relation. -/
  read_step : ∀ {device : P} {device' : Q} (count : Nat),
    related device device' → count ≤ isizeMax →
      (ReadSeek.read device count).1 = (ReadSeek.read device' count).1 ∧
        related (ReadSeek.read device count).2
          (ReadSeek.read device' count).2
  /-- So have seeks. -/
  seek_step : ∀ {device : P} {device' : Q} (target : SeekFrom),
    related device device' →
      (ReadSeek.seek device target).1 = (ReadSeek.seek device' target).1 ∧
        related (ReadSeek.seek device target).2
          (ReadSeek.seek device' target).2

section Bisimilar

variable {Q : Type} [ReadSeek ε Q] {related : P → Q → Prop} {device : P}
  {device' : Q}

/-- Related devices give the same results to all sequences of calls. -/
theorem Bisimilar.outcomes_eq (alike : Bisimilar related) (calls : List Call)
    (fits : ∀ count, Call.read count ∈ calls → count ≤ isizeMax)
    (holds : related device device') :
    outcomes calls device = outcomes calls device' := by
  induction calls generalizing device device' with
  | nil => rfl
  | cons call calls inductionHypothesis =>
      have later : ∀ count, Call.read count ∈ calls → count ≤ isizeMax :=
        fun count member => fits count (List.mem_cons_of_mem _ member)
      cases call with
      | read count =>
          obtain ⟨same, stays⟩ :=
            alike.read_step count holds (fits count List.mem_cons_self)
          rw [outcomes, outcomes, performFully, performFully]
          dsimp only
          rw [same, inductionHypothesis later stays]
      | seek target =>
          obtain ⟨same, stays⟩ := alike.seek_step target holds
          rw [outcomes, outcomes, performFully, performFully]
          dsimp only
          rw [same, inductionHypothesis later stays]

/-- Related devices fill a buffer alike. -/
theorem Bisimilar.readExact_eq (alike : Bisimilar related) (eof : ε)
    {count : Nat} (fits : count ≤ isizeMax) (holds : related device device') :
    (readExact eof count device).1 = (readExact eof count device').1 ∧
      related (readExact eof count device).2
        (readExact eof count device').2 := by
  induction count using Nat.strong_induction_on generalizing device device' with
  | _ count inductionHypothesis =>
      obtain ⟨same, stays⟩ := alike.read_step count holds fits
      rw [readExact, readExact]
      by_cases wanted : count = 0
      · rw [dif_pos wanted, dif_pos wanted]
        exact ⟨rfl, holds⟩
      rw [dif_neg wanted, dif_neg wanted]
      rcases left : ReadSeek.read device count with ⟨result, after⟩
      rcases right : ReadSeek.read device' count with ⟨result', after'⟩
      rw [left, right] at same stays
      dsimp only at same stays
      subst same
      rcases result with stop | bytes
      · exact ⟨rfl, stays⟩
      dsimp only
      by_cases ended : bytes.length = 0
      · rw [dif_pos ended, dif_pos ended]
        exact ⟨rfl, stays⟩
      rw [dif_neg ended, dif_neg ended]
      by_cases past : bytes.length > count
      · rw [if_pos past, if_pos past]
        exact ⟨rfl, stays⟩
      rw [if_neg past, if_neg past]
      obtain ⟨sameRest, staysRest⟩ :=
        inductionHypothesis (count - bytes.length) (by omega) (by omega) stays
      rcases left : readExact eof (count - bytes.length) after with
        ⟨rest, final⟩
      rcases right : readExact eof (count - bytes.length) after' with
        ⟨rest', final'⟩
      rw [left, right] at sameRest staysRest
      dsimp only at sameRest staysRest
      subst sameRest
      cases rest <;> exact ⟨rfl, staysRest⟩

end Bisimilar

end Calls

/-! ## Abstract disks -/

/-- A disk image in the abstract: how many bytes it has and which of them
have a value. -/
structure ReferenceDisk where
  /-- Number of bytes. -/
  size : Nat
  /-- The byte at a position, if it has a value. -/
  byte : Nat → Option UInt8

namespace ReferenceDisk

variable (disk : ReferenceDisk)

/-- The bytes of a range, when all of them have a value. -/
def range : (off count : Nat) → Option Bytes
  | _, 0 => some []
  | off, count + 1 =>
      match disk.byte off, range (off + 1) count with
      | some byte, some rest => some (byte :: rest)
      | _, _ => none

/-- The answer to a read at `pos`: the range clipped to the disk. -/
def read (pos count : Nat) : Option Bytes :=
  disk.range pos (min count (disk.size - pos))

/-- One call at `pos`: the reply and the position after it. -/
def perform (pos : Nat) : Call → Reply × Nat
  | .read count =>
      match disk.read pos count with
      | some bytes => (.bytes bytes, pos + bytes.length)
      | none => (.failed, pos)
  | .seek target =>
      match seekTarget (ε := Unit) disk.size pos target with
      | .error _ => (.crashed, pos)
      | .ok newPos =>
          if newPos < 0 then (.failed, pos)
          else (.position newPos.toNat, newPos.toNat)

/-- The replies of the disk to a sequence of calls. -/
def replies : List Call → Nat → List Reply
  | [], _ => []
  | call :: calls, pos =>
      match disk.perform pos call with
      | (.crashed, _) => [.crashed]
      | (reply, pos) => reply :: replies calls pos

@[simp] theorem range_zero (off : Nat) : disk.range off 0 = some [] := rfl

/-- A range has as many bytes as were asked for. -/
theorem length_of_range {off count : Nat} {bytes : Bytes}
    (found : disk.range off count = some bytes) : bytes.length = count := by
  induction count generalizing off bytes with
  | zero =>
      cases found
      rfl
  | succ count inductionHypothesis =>
      unfold range at found
      split at found
      · rename_i byte rest _ restFound
        cases found
        simp [inductionHypothesis restFound]
      · cases found

/-- A range has a value exactly when each of its bytes does. -/
theorem range_eq_some_iff {off count : Nat} {bytes : Bytes} :
    disk.range off count = some bytes ↔
      bytes.length = count ∧
        ∀ index < count, disk.byte (off + index) = bytes[index]? := by
  induction count generalizing off bytes with
  | zero =>
      constructor
      · intro found
        cases found
        simp
      · rintro ⟨empty, -⟩
        rw [List.length_eq_zero_iff.mp empty, range_zero]
  | succ count inductionHypothesis =>
      constructor
      · intro found
        unfold range at found
        split at found
        · rename_i byte rest byteFound restFound
          cases found
          obtain ⟨restLength, restBytes⟩ := inductionHypothesis.mp restFound
          refine ⟨by simp [restLength], fun index indexLt => ?_⟩
          cases index with
          | zero => simpa using byteFound
          | succ index =>
              rw [List.getElem?_cons_succ, ← restBytes index (by omega)]
              congr 1
              omega
        · cases found
      · rintro ⟨total, values⟩
        cases bytes with
        | nil => simp at total
        | cons byte rest =>
            have byteFound : disk.byte off = some byte := by
              simpa using values 0 (by omega)
            have restFound : disk.range (off + 1) count = some rest := by
              apply inductionHypothesis.mpr
              refine ⟨by simpa using total, fun index indexLt => ?_⟩
              have := values (index + 1) (by omega)
              rw [List.getElem?_cons_succ] at this
              rw [← this]
              congr 1
              omega
            simp [range, byteFound, restFound]

/-- A range has no value exactly when one of its bytes has none. -/
theorem range_eq_none_iff {off count : Nat} :
    disk.range off count = none ↔
      ∃ index < count, disk.byte (off + index) = none := by
  induction count generalizing off with
  | zero => simp
  | succ count inductionHypothesis =>
      unfold range
      cases byteFound : disk.byte off with
      | none => simpa using ⟨0, by omega, by simpa using byteFound⟩
      | some byte =>
          cases restFound : disk.range (off + 1) count with
          | none =>
              obtain ⟨index, indexLt, missing⟩ :=
                inductionHypothesis.mp restFound
              rw [Nat.add_assoc, Nat.add_comm 1] at missing
              simpa using ⟨index + 1, by omega, missing⟩
          | some rest =>
              simp only [reduceCtorEq, false_iff, not_exists, not_and]
              intro index indexLt missing
              cases index with
              | zero => simp [byteFound] at missing
              | succ index =>
                  rw [Nat.add_comm index, ← Nat.add_assoc] at missing
                  have restMissing :=
                    inductionHypothesis.mpr ⟨index, by omega, missing⟩
                  simp [restFound] at restMissing

/-- A range splits into two consecutive ranges. -/
theorem range_append (off first second : Nat) :
    disk.range off (first + second) =
      match disk.range off first, disk.range (off + first) second with
      | some front, some back => some (front ++ back)
      | _, _ => none := by
  induction first generalizing off with
  | zero =>
      rw [Nat.zero_add, Nat.add_zero, range_zero]
      cases disk.range off second <;> rfl
  | succ first inductionHypothesis =>
      rw [show first + 1 + second = (first + second) + 1 by omega, range,
        inductionHypothesis, range,
        show off + 1 + first = off + (first + 1) by omega]
      cases disk.byte off <;> cases disk.range (off + 1) first <;>
        cases disk.range (off + (first + 1)) second <;> rfl

/-- A disk with more bytes answers the reads of the other one. -/
theorem read_mono {left right : ReferenceDisk} (size : right.size = left.size)
    {pos count : Nat} {bytes : Bytes}
    (found : left.read pos count = some bytes)
    (more : ∀ place byte, pos ≤ place → place < pos + bytes.length →
      left.byte place = some byte → right.byte place = some byte) :
    right.read pos count = some bytes := by
  rw [read, range_eq_some_iff] at found
  obtain ⟨lengthEq, held⟩ := found
  rw [read, range_eq_some_iff, size]
  refine ⟨lengthEq, fun index indexLt => ?_⟩
  have inside : index < bytes.length := by omega
  have byte := held index indexLt
  rw [List.getElem?_eq_getElem inside] at byte ⊢
  exact more _ _ (by omega) (by omega) byte

/-- A read is answered exactly if every byte that is asked for and lies on the
disk has a value. -/
theorem exists_read_iff {pos count : Nat} :
    (∃ bytes, disk.read pos count = some bytes) ↔
      ∀ place, pos ≤ place → place < pos + count → place < disk.size →
        (disk.byte place).isSome = true := by
  have missing : disk.read pos count = none ↔
      ∃ index < min count (disk.size - pos),
        disk.byte (pos + index) = none := range_eq_none_iff disk
  rw [← Option.isSome_iff_exists, Option.isSome_iff_ne_none, Ne, missing]
  push Not
  constructor
  · intro known place low high inside
    have value := known (place - pos) (by omega)
    rw [Nat.add_sub_cancel' low] at value
    exact Option.isSome_iff_ne_none.mpr value
  · intro known index indexLt
    exact Option.isSome_iff_ne_none.mp
      (known (pos + index) (by omega) (by omega) (by omega))

end ReferenceDisk

/-! ## Refinement -/

/-- The disk a device presents and where it is positioned. `Sound` holds of
the device states the refinement speaks of. -/
class PresentsDisk (P : Type) where
  /-- The disk that a device shows. -/
  disk : P → ReferenceDisk
  /-- Where its next read starts. -/
  position : P → Nat
  /-- The states for which this holds. -/
  Sound : P → Prop

/-- One step of the refinement: soundness and the disk are kept, the result
and the new position are those of the disk. -/
class RefinesDisk (ε : outParam Type) (P : Type) [ReadSeek ε P]
    [PresentsDisk P] : Prop where
  /-- A read keeps the disk and gives what the disk has. -/
  read_step : ∀ (device : P) (count : Nat), PresentsDisk.Sound device →
    PresentsDisk.Sound (ReadSeek.read device count).2 ∧
      PresentsDisk.disk (ReadSeek.read device count).2 =
        PresentsDisk.disk device ∧
      match (PresentsDisk.disk device).read
          (PresentsDisk.position device) count with
      | some bytes =>
          (ReadSeek.read device count).1 = .ok bytes ∧
            PresentsDisk.position (ReadSeek.read device count).2 =
              PresentsDisk.position device + bytes.length
      | none =>
          (∃ e, (ReadSeek.read device count).1 = fail e) ∧
            PresentsDisk.position (ReadSeek.read device count).2 =
              PresentsDisk.position device
  /-- A seek keeps the disk and moves as on the disk. -/
  seek_step : ∀ (device : P) (target : SeekFrom), PresentsDisk.Sound device →
    PresentsDisk.Sound (ReadSeek.seek device target).2 ∧
      PresentsDisk.disk (ReadSeek.seek device target).2 =
        PresentsDisk.disk device ∧
      match seekTarget (ε := ε) (PresentsDisk.disk device).size
          (PresentsDisk.position device) target with
      | .error stop =>
          (ReadSeek.seek device target).1 = .error stop ∧
            PresentsDisk.position (ReadSeek.seek device target).2 =
              PresentsDisk.position device
      | .ok newPos =>
          if newPos < 0 then
            (∃ e, (ReadSeek.seek device target).1 = fail e) ∧
              PresentsDisk.position (ReadSeek.seek device target).2 =
                PresentsDisk.position device
          else
            (ReadSeek.seek device target).1 = .ok newPos.toNat ∧
              PresentsDisk.position (ReadSeek.seek device target).2 =
                newPos.toNat

section Refinement

variable {ε P : Type} [ReadSeek ε P] [PresentsDisk P] [RefinesDisk ε P]

open PresentsDisk

/-- Seeking only stops in a panic. -/
theorem seekTarget_eq_panicked {size pos : Nat} {target : SeekFrom}
    {stop : Stop ε} (stopped : seekTarget size pos target = .error stop) :
    stop = .panic := by
  cases target with
  | start offset => cases stopped
  | current offset =>
      simp only [seekTarget, addI64] at stopped
      split at stopped <;> cases stopped
      rfl
  | fromEnd offset =>
      simp only [seekTarget, addI64] at stopped
      split at stopped <;> cases stopped
      rfl

/-- The target of a seek does not depend on the error type. -/
theorem seekTarget_ok_iff {ε' : Type} {size pos : Nat} {target : SeekFrom}
    {newPos : Int} :
    (seekTarget size pos target : Exec ε Int) = .ok newPos ↔
      (seekTarget size pos target : Exec ε' Int) = .ok newPos := by
  cases target with
  | start offset => simp [seekTarget]
  | current offset =>
      simp only [seekTarget, addI64]
      split <;> simp
  | fromEnd offset =>
      simp only [seekTarget, addI64]
      split <;> simp

/-- One call of a sound device is answered by its disk. -/
theorem perform_refines (device : P) (call : Call) (sound : Sound device) :
    Sound (perform device call).2 ∧
      disk (perform device call).2 = disk device ∧
      (perform device call).1 =
        ((disk device).perform (position device) call).1 ∧
      position (perform device call).2 =
        ((disk device).perform (position device) call).2 := by
  cases call with
  | read count =>
      obtain ⟨stays, sameDisk, answer⟩ :=
        RefinesDisk.read_step (ε := ε) device count sound
      refine ⟨stays, sameDisk, ?_⟩
      simp only [perform, ReferenceDisk.perform]
      split at answer
      · rename_i bytes found
        simp only [answer.1, replyOf, true_and]
        exact answer.2
      · rename_i missing
        obtain ⟨⟨e, failed⟩, unmoved⟩ := answer
        simp only [failed, fail, replyOf, true_and]
        exact unmoved
  | seek target =>
      obtain ⟨stays, sameDisk, answer⟩ :=
        RefinesDisk.seek_step (ε := ε) device target sound
      refine ⟨stays, sameDisk, ?_⟩
      simp only [perform, ReferenceDisk.perform]
      cases resolved : seekTarget (ε := ε) (disk device).size
          (position device) target with
      | error stop =>
          simp only [resolved] at answer
          have panics := seekTarget_eq_panicked resolved
          cases abstract : seekTarget (ε := Unit) (disk device).size
              (position device) target with
          | error abstractStop =>
              simp only [answer.1, panics, replyOf, true_and]
              exact answer.2
          | ok newPos =>
              rw [seekTarget_ok_iff.mp abstract] at resolved
              cases resolved
      | ok newPos =>
          simp only [resolved] at answer
          rw [seekTarget_ok_iff.mp resolved]
          by_cases negative : newPos < 0
          · rw [if_pos negative] at answer
            obtain ⟨⟨e, failed⟩, unmoved⟩ := answer
            simp only [failed, fail, replyOf, negative, if_true, true_and]
            exact unmoved
          · rw [if_neg negative] at answer
            simp only [answer.1, replyOf, negative, if_false, true_and]
            exact answer.2

/-- A sound device answers every finite sequence of calls as its disk. -/
theorem replies_refine (calls : List Call) (device : P)
    (sound : Sound device) :
    replies calls device =
      (disk device).replies calls (position device) := by
  induction calls generalizing device with
  | nil => rfl
  | cons call calls inductionHypothesis =>
      obtain ⟨stays, sameDisk, sameReply, samePosition⟩ :=
        perform_refines device call sound
      have next := inductionHypothesis (perform device call).2 stays
      rw [sameDisk, samePosition] at next
      unfold replies ReferenceDisk.replies
      rcases performed : perform device call with ⟨reply, after⟩
      rcases answered : (disk device).perform (position device) call with
        ⟨abstractReply, abstractPos⟩
      rw [performed, answered] at sameReply
      rw [performed, answered] at next
      simp only at sameReply next
      subst sameReply
      cases reply <;> simp [next]

/-- Reading a buffer full delivers the range of the disk, or fails when the
range leaves the disk or one of its bytes has no value. -/
theorem readExact_refines (eof : ε) (count : Nat) (device : P)
    (sound : Sound device) :
    Sound (readExact eof count device).2 ∧
      disk (readExact eof count device).2 = disk device ∧
      if position device + count ≤ (disk device).size ∨ count = 0 then
        match (disk device).range (position device) count with
        | some bytes => (readExact eof count device).1 = .ok bytes
        | none => ∃ e, (readExact eof count device).1 = fail e
      else ∃ e, (readExact eof count device).1 = fail e := by
  induction count using Nat.strong_induction_on generalizing device with
  | _ count inductionHypothesis =>
      by_cases wanted : count = 0
      · subst wanted
        rw [readExact]
        simp [sound]
      · obtain ⟨stays, sameDisk, answer⟩ :=
          RefinesDisk.read_step (ε := ε) device count sound
        rcases outcome : ReadSeek.read device count with ⟨delivered, after⟩
        rw [outcome] at stays sameDisk answer
        simp only at stays sameDisk answer
        unfold ReferenceDisk.read at answer
        split at answer
        · rename_i bytes found
          obtain ⟨returned, moved⟩ := answer
          subst returned
          have bytesLength := (disk device).length_of_range found
          by_cases ended : bytes = []
          · subst ended
            rw [readExact_of_ended wanted outcome]
            refine ⟨stays, sameDisk, ?_⟩
            have beyond : ¬ (position device + count ≤ (disk device).size ∨
                count = 0) := by
              simp only [List.length_nil] at bytesLength
              omega
            rw [if_neg beyond]
            exact ⟨eof, rfl⟩
          · have progress : bytes.length ≠ 0 := by simpa using ended
            rw [readExact_of_read progress (by omega) outcome]
            obtain ⟨restStays, restDisk, restAnswer⟩ :=
              inductionHypothesis (count - bytes.length) (by omega)
                after stays
            rw [sameDisk, moved] at restAnswer
            rw [sameDisk] at restDisk
            rcases restOutcome : readExact eof (count - bytes.length) after
              with ⟨restDelivered, final⟩
            rw [restOutcome] at restStays restDisk restAnswer
            simp only at restStays restDisk restAnswer
            by_cases inside :
                position device + count ≤ (disk device).size
            · -- One read delivered everything; the rest is empty.
              have whole : min count
                  ((disk device).size - position device) = count := by
                omega
              rw [whole] at found bytesLength
              rw [bytesLength, Nat.sub_self, if_pos (Or.inr rfl),
                ReferenceDisk.range_zero] at restAnswer
              subst restAnswer
              refine ⟨restStays, restDisk, ?_⟩
              rw [if_pos (Or.inl inside), found]
              simp
            · have beyond : ¬ (position device + count ≤ (disk device).size ∨
                  count = 0) := by
                omega
              rw [if_neg (by omega)] at restAnswer
              obtain ⟨e, failed⟩ := restAnswer
              subst failed
              refine ⟨restStays, restDisk, ?_⟩
              rw [if_neg beyond]
              exact ⟨e, rfl⟩
        · rename_i missing
          obtain ⟨⟨e, failed⟩, unmoved⟩ := answer
          subst failed
          rw [readExact_of_error wanted outcome]
          refine ⟨stays, sameDisk, ?_⟩
          split
          · have splitRange := (disk device).range_append (position device)
              (min count ((disk device).size - position device))
              (count - min count ((disk device).size - position device))
            rw [missing, show min count
              ((disk device).size - position device) + (count -
                min count ((disk device).size - position device)) =
                  count by omega] at splitRange
            rw [splitRange]
            exact ⟨e, rfl⟩
          · exact ⟨e, rfl⟩

end Refinement

end Rust
