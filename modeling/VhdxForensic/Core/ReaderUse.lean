import VhdxForensic.Core.ReferenceDisk

/-!
# Using an opened reader

An opened reader is read and moved by its caller in any order. Reads never
crash; a seek crashes when the sum of its base and its offset leaves the range
of `i64`. The condition is stated on the reader before each call and carried
through whole runs.
-/

namespace VhdxForensic

open Rust Rust.Exec

namespace VhdxReader

open PresentsDisk

variable {P : Type} {reader : VhdxReader P}

/-- The value is an `i64`. -/
def IsI64 (value : Int) : Prop := -2 ^ 63 ≤ value ∧ value < 2 ^ 63

/-- The sum that a seek computes is an `i64`. -/
def SeekFits (reader : VhdxReader P) : SeekFrom → Prop
  | .start _ => True
  | .current offset => IsI64 (asI64 reader.pos + offset)
  | .fromEnd offset =>
      IsI64 (asI64 reader.metadata.virtualDiskSize + offset)

/-- Only seeks carry a condition. -/
def CallFits (reader : VhdxReader P) : Call → Prop
  | .read _ => True
  | .seek target => reader.SeekFits target

/-- The target of a seek is computed exactly if its sum is an `i64`. -/
theorem seekTarget_eq_ok_iff (reader : VhdxReader P) (target : SeekFrom) :
    (∃ newPos, (seekTarget reader.metadata.virtualDiskSize reader.pos target :
        Exec IoError Int) = .ok newPos) ↔ reader.SeekFits target := by
  have sum_iff : ∀ a b : Int,
      (∃ sum, (addI64 a b : Exec IoError Int) = .ok sum) ↔ IsI64 (a + b) := by
    intro a b
    unfold addI64 IsI64
    split <;> simp_all
  cases target with
  | start offset => exact iff_of_true ⟨_, rfl⟩ trivial
  | current offset => exact sum_iff _ _
  | fromEnd offset => exact sum_iff _ _

variable [ReadSeek IoError P] [PresentsDisk P] [RefinesDisk IoError P]

/-- A read of a sound reader does not crash. -/
theorem read_reply_ne_crashed (sound : Sound reader) (count : Nat) :
    (perform reader (.read count)).1 ≠ .crashed := by
  rw [(perform_refines reader (.read count) sound).2.2.1]
  simp only [ReferenceDisk.perform]
  split <;> simp

omit [PresentsDisk P] [RefinesDisk IoError P] in
/-- A seek crashes exactly if its sum is not an `i64`. -/
theorem seek_reply_ne_crashed_iff (target : SeekFrom) :
    (perform reader (.seek target)).1 ≠ .crashed ↔
      reader.SeekFits target := by
  have outcome := seek_spec reader target
  rw [← seekTarget_eq_ok_iff]
  change replyOf .position (reader.seek target).1 ≠ .crashed ↔ _
  cases resolved : (seekTarget reader.metadata.virtualDiskSize reader.pos
      target : Exec IoError Int) with
  | error stop =>
      have panics := seekTarget_eq_panicked resolved
      rw [resolved] at outcome
      rw [outcome.1, panics]
      simp [replyOf]
  | ok newPos =>
      rw [resolved] at outcome
      dsimp only at outcome
      refine iff_of_true ?_ ⟨newPos, rfl⟩
      split at outcome
      · obtain ⟨⟨e, failed⟩, -⟩ := outcome
        rw [failed]
        simp [replyOf, fail]
      · rw [outcome.1]
        simp [replyOf]

omit [PresentsDisk P] [RefinesDisk IoError P] in
/-- A failing seek leaves the position. -/
theorem seek_failed_pos {target : SeekFrom}
    (failed : (perform reader (.seek target)).1 = .failed) :
    (perform reader (.seek target)).2.pos = reader.pos := by
  have outcome := seek_spec reader target
  change replyOf .position (reader.seek target).1 = .failed at failed
  change (reader.seek target).2.pos = reader.pos
  cases resolved : (seekTarget reader.metadata.virtualDiskSize reader.pos
      target : Exec IoError Int) with
  | error stop =>
      rw [resolved] at outcome
      exact outcome.2
  | ok newPos =>
      rw [resolved] at outcome
      dsimp only at outcome
      split at outcome
      · exact outcome.2
      · rw [outcome.1] at failed
        cases failed

/-- A call is safe: it does not crash, and a seek that fails leaves the
position. -/
def SafeCall (reader : VhdxReader P) (call : Call) : Prop :=
  (perform reader call).1 ≠ .crashed ∧
    ∀ target, call = .seek target → (perform reader call).1 = .failed →
      (perform reader call).2.pos = reader.pos

omit [PresentsDisk P] [RefinesDisk IoError P] in
/-- The condition holds of every call of a run, at the reader it is made
on. -/
def Throughout (condition : VhdxReader P → Call → Prop) :
    List Call → VhdxReader P → Prop
  | [], _ => True
  | call :: calls, reader =>
      condition reader call ∧
        Throughout condition calls (perform reader call).2

theorem safeCall_iff (sound : Sound reader) (call : Call) :
    reader.SafeCall call ↔ reader.CallFits call := by
  unfold SafeCall CallFits
  cases call with
  | read count =>
      refine iff_of_true ⟨read_reply_ne_crashed sound count, ?_⟩ trivial
      intro target isSeek
      cases isSeek
  | seek target =>
      rw [seek_reply_ne_crashed_iff]
      refine and_iff_left ?_
      intro target' same failed
      exact seek_failed_pos failed

/-- A run of a sound reader is safe exactly if the sums of its seeks fit. -/
theorem throughout_safeCall_iff (calls : List Call) (reader : VhdxReader P)
    (sound : Sound reader) :
    Throughout SafeCall calls reader ↔ Throughout CallFits calls reader := by
  induction calls generalizing reader with
  | nil => exact Iff.rfl
  | cons call calls inductionHypothesis =>
      have stays := (perform_refines reader call sound).1
      exact and_congr (safeCall_iff sound call)
        (inductionHypothesis (perform reader call).2 stays)

/-- A run of an opened reader is safe exactly if the sums of its seeks
fit. -/
theorem safe_use_iff {depth : Nat} {reader : VhdxReader (Parent depth)}
    (opened : reader.Opened depth) (calls : List Call) :
    Throughout SafeCall calls reader ↔ Throughout CallFits calls reader :=
  throughout_safeCall_iff calls reader
    (OpenedOver.sound (Parent.Opened.sound depth) opened)

theorem safe_use_childReader :
    Throughout SafeCall
        [.read 1024, .seek (.current (-1)), .read 1] childReader ↔
      Throughout CallFits
        [.read 1024, .seek (.current (-1)), .read 1] childReader :=
  safe_use_iff childReader_opened [.read 1024, .seek (.current (-1)), .read 1]

/-- A seek by the largest offset crashes unless the reader is at the
start. -/
theorem largest_seek_crashes :
    emptyReader.Opened 0 ∧
      ¬ Throughout SafeCall
        [.seek (.start 1), .seek (.current (2 ^ 63 - 1))] emptyReader := by
  refine ⟨emptyReader_opened, ?_⟩
  have sound : Sound emptyReader :=
    OpenedOver.sound (Parent.Opened.sound 0) emptyReader_opened
  rw [throughout_safeCall_iff _ _ sound]
  rintro ⟨-, fits, -⟩
  exact absurd fits.2 (by decide)

end VhdxReader

end VhdxForensic
