import VhdxForensic.Core.LogWrites

/-!
# Replaying a log

What `applyEntry` and `overlayEntry` compute for a whole entry, and what a
patched read sees: each replays the runs of the decoded writes.
-/

namespace VhdxForensic

open Rust Rust.Bytes Rust.Exec LogEntry

variable {ε : Type}

/-! ## Whole entries -/

namespace LogEntry

/-- In-place replay of the entry settles. -/
def ApplySafe (entry : Bytes) : Prop :=
  TableFits entry ∧ ∀ write ∈ writes entry, write.EndRepresentable

/-- Recording the entry in an overlay settles. -/
def OverlaySafe (entry : Bytes) : Prop :=
  TableFits entry ∧ ∀ write ∈ writes entry, write.Allocatable

instance (entry : Bytes) : Decidable (ApplySafe entry) :=
  inferInstanceAs (Decidable (_ ∧ _))

instance (entry : Bytes) : Decidable (OverlaySafe entry) :=
  inferInstanceAs (Decidable (_ ∧ _))

/-- A table of descriptors lies in an entry exactly when each of them
does. -/
theorem forall_descriptor_iff {entry : Bytes}
    (header : 64 ≤ entry.length) (property : LogWrite → Prop) :
    (∀ index < descriptorCount entry,
        64 + (index + 1) * 32 ≤ entry.length ∧
          ∀ write ∈ writeAt entry index, property write) ↔
      TableFits entry ∧ ∀ write ∈ writes entry, property write := by
  constructor
  · intro each
    constructor
    · unfold TableFits dataSectorBase
      by_cases empty : descriptorCount entry = 0
      · omega
      · have last := (each (descriptorCount entry - 1) (by omega)).1
        omega
    · intro write member
      obtain ⟨index, indexMember, decoded⟩ := List.mem_filterMap.mp member
      exact (each index (List.mem_range.mp indexMember)).2 write decoded
  · rintro ⟨fits, each⟩ index indexLt
    unfold TableFits dataSectorBase at fits
    refine ⟨by omega, fun write decoded => each write ?_⟩
    exact List.mem_filterMap.mpr
      ⟨index, List.mem_range.mpr indexLt, decoded⟩

theorem filterMap_range_succ (entry : Bytes) (index : Nat) :
    (List.range (index + 1)).filterMap (writeAt entry) =
      (List.range index).filterMap (writeAt entry) ++
        (writeAt entry index).toList := by
  rw [List.range_succ, List.filterMap_append]
  congr 1

/-- The loop of the replay in place applies the decoded writes. -/
theorem foldRange_applyStep (entry data : Bytes) (count : Nat) :
    foldRange (applyStep entry) count (data, 0) =
      (applyWrites data ((List.range count).filterMap (writeAt entry)),
        sectorIndex entry count) := by
  induction count with
  | zero => rfl
  | succ count inductionHypothesis =>
      rw [foldRange_succ, inductionHypothesis, filterMap_range_succ,
        sectorIndex_succ]
      simp [applyStep, applyWrites]

/-- The loop of the overlay records the decoded writes. -/
theorem foldRange_overlayStep (entry : Bytes) (overlay : LogOverlay)
    (count : Nat) :
    foldRange (overlayStep entry) count (overlay, 0) =
      (((List.range count).filterMap (writeAt entry)).foldl
        LogOverlay.record overlay, sectorIndex entry count) := by
  induction count with
  | zero => rfl
  | succ count inductionHypothesis =>
      rw [foldRange_succ, inductionHypothesis, filterMap_range_succ,
        sectorIndex_succ]
      simp [overlayStep]

end LogEntry

theorem dataSectorBase_lt (entry : Bytes) :
    64 + descriptorCount entry * 32 < wordCount := by
  have countLt := descriptorCount_lt entry
  unfold wordCount
  omega

/-- Applying an entry is a loop over its descriptors. -/
theorem applyEntry_eq_loop (data entry : Bytes) :
    (applyEntry data entry : Exec ε Bytes) =
      (forRange (descriptorCount entry)
        (applyDescriptor entry (dataSectorBase entry)) (data, 0) >>=
          fun state => .ok state.1) := by
  rw [applyEntry, add_eq_ok (show 64 + leU32 entry 24 * 32 < wordCount from
    dataSectorBase_lt entry)]
  rfl

/-- Recording an entry is a loop over its descriptors. -/
theorem overlayEntry_eq_loop (overlay : LogOverlay) (entry : Bytes) :
    (overlayEntry overlay entry : Exec ε LogOverlay) =
      (forRange (descriptorCount entry)
        (overlayDescriptor entry (dataSectorBase entry)) (overlay, 0) >>=
          fun state => .ok state.1) := by
  rw [overlayEntry, add_eq_ok (show 64 + leU32 entry 24 * 32 < wordCount from
    dataSectorBase_lt entry)]
  rfl

/-- The invariant of in-place replay before the descriptor at `index`. -/
def ApplyInvariant (entry : Bytes) (index : Nat) (state : Bytes × Nat) :
    Prop :=
  state.1.length < wordCount ∧ state.2 = sectorIndex entry index

/-- One descriptor keeps the invariant of the replay in place. -/
theorem applyStep_invariant {entry : Bytes} {index : Nat}
    {state : Bytes × Nat} (before : ApplyInvariant entry index state) :
    ApplyInvariant entry (index + 1) (applyStep entry index state) := by
  obtain ⟨small, consumed⟩ := before
  constructor
  · simp only [applyStep]
    cases writeAt entry index <;> simpa using small
  · rw [applyStep, sectorIndex_succ, consumed]

/-- In-place replay of an entry settles exactly when it is safe. -/
theorem settles_applyEntry_iff {data entry : Bytes}
    (dataSmall : data.length < wordCount) (header : 64 ≤ entry.length) :
    Settles (applyEntry data entry : Exec ε Bytes) ↔
      LogEntry.ApplySafe entry := by
  have loop : Settles (forRange (descriptorCount entry)
      (applyDescriptor (ε := ε) entry (dataSectorBase entry)) (data, 0)) ↔
        ∀ index < descriptorCount entry,
          VhdxForensic.ApplySafe entry index := by
    apply settles_forRange_iff (applyStep entry) (ApplyInvariant entry)
    · exact ⟨dataSmall, rfl⟩
    · intro index indexLt state before safe
      exact ⟨applyDescriptor_eq_ok before.1 indexLt before.2 safe,
        applyStep_invariant before⟩
    · intro index indexLt state before bad
      exact applyDescriptor_stops indexLt before.2 bad
  rw [applyEntry_eq_loop, LogEntry.ApplySafe, ← forall_descriptor_iff header]
  exact ⟨fun whole => loop.mp whole.of_bind,
    fun safe => (loop.mpr safe).bind fun state _ => settles_ok _⟩

/-- A safe entry is replayed by performing its writes in order. -/
theorem applyEntry_eq_ok {data entry : Bytes}
    (dataSmall : data.length < wordCount) (header : 64 ≤ entry.length)
    (safe : LogEntry.ApplySafe entry) :
    (applyEntry data entry : Exec ε Bytes) =
      .ok (applyWrites data (writes entry)) := by
  have each := (forall_descriptor_iff header _).mpr safe
  have loop : forRange (descriptorCount entry)
      (applyDescriptor (ε := ε) entry (dataSectorBase entry)) (data, 0) =
        .ok (foldRange (applyStep entry) (descriptorCount entry)
          (data, 0)) := by
    apply forRange_eq_fold (applyStep entry) (ApplyInvariant entry)
    · exact ⟨dataSmall, rfl⟩
    · intro index indexLt state before
      exact ⟨applyDescriptor_eq_ok before.1 indexLt before.2
        (each index indexLt), applyStep_invariant before⟩
  rw [applyEntry_eq_loop, loop, ok_bind, foldRange_applyStep]
  rfl

/-- The invariant of overlay construction before the descriptor at
`index`. -/
def OverlayInvariant (entry : Bytes) (index : Nat)
    (state : LogOverlay × Nat) : Prop :=
  state.2 = sectorIndex entry index

/-- One descriptor keeps the invariant of the overlay. -/
theorem overlayStep_invariant {entry : Bytes} {index : Nat}
    {state : LogOverlay × Nat} (before : OverlayInvariant entry index state) :
    OverlayInvariant entry (index + 1) (overlayStep entry index state) := by
  unfold OverlayInvariant at before
  rw [OverlayInvariant, overlayStep, sectorIndex_succ, before]

/-- Recording an entry settles exactly when it is safe. -/
theorem settles_overlayEntry_iff {overlay : LogOverlay} {entry : Bytes}
    (header : 64 ≤ entry.length) :
    Settles (overlayEntry overlay entry : Exec ε LogOverlay) ↔
      LogEntry.OverlaySafe entry := by
  have loop : Settles (forRange (descriptorCount entry)
      (overlayDescriptor (ε := ε) entry (dataSectorBase entry))
      (overlay, 0)) ↔
        ∀ index < descriptorCount entry,
          VhdxForensic.OverlaySafe entry index := by
    apply settles_forRange_iff (overlayStep entry) (OverlayInvariant entry)
    · rfl
    · intro index indexLt state before safe
      exact ⟨overlayDescriptor_eq_ok indexLt before safe,
        overlayStep_invariant before⟩
    · intro index indexLt state before bad
      exact overlayDescriptor_stops bad
  rw [overlayEntry_eq_loop, LogEntry.OverlaySafe,
    ← forall_descriptor_iff header]
  exact ⟨fun whole => loop.mp whole.of_bind,
    fun safe => (loop.mpr safe).bind fun state _ => settles_ok _⟩

/-- A safe entry is recorded by recording its writes in order. -/
theorem overlayEntry_eq_ok {overlay : LogOverlay} {entry : Bytes}
    (header : 64 ≤ entry.length) (safe : LogEntry.OverlaySafe entry) :
    (overlayEntry overlay entry : Exec ε LogOverlay) =
      .ok ((writes entry).foldl LogOverlay.record overlay) := by
  have each := (forall_descriptor_iff header _).mpr safe
  have loop : forRange (descriptorCount entry)
      (overlayDescriptor (ε := ε) entry (dataSectorBase entry))
      (overlay, 0) =
        .ok (foldRange (overlayStep entry) (descriptorCount entry)
          (overlay, 0)) := by
    apply forRange_eq_fold (overlayStep entry) (OverlayInvariant entry)
    · rfl
    · intro index indexLt state before
      exact ⟨overlayDescriptor_eq_ok indexLt before (each index indexLt),
        overlayStep_invariant before⟩
  rw [overlayEntry_eq_loop, loop, ok_bind, foldRange_overlayStep]
  rfl

/-! ## Patched reads -/

namespace LogOverlay

/-- The runs of a list of writes, without the empty ones. -/
theorem runs_foldl_record (list : List LogWrite) (overlay : LogOverlay) :
    (list.foldl record overlay).runs =
      overlay.runs ++ (list.map LogWrite.run).filter fun run =>
        decide (run.2 ≠ []) := by
  induction list generalizing overlay with
  | nil => simp
  | cons write list inductionHypothesis =>
      rw [List.foldl_cons, inductionHypothesis, record, push]
      by_cases empty : write.run.2 = []
      · rw [if_pos empty, List.map_cons,
          List.filter_cons_of_neg (by simpa using empty)]
      · rw [if_neg empty, List.map_cons,
          List.filter_cons_of_pos (by simpa using empty)]
        simp

/-- Patching with one run replays it over the buffer. -/
theorem patchRun_eq_ok {readOff : Nat} {buf : Bytes} (run : Run)
    (small : readOff + buf.length < wordCount) :
    (patchRun readOff (saturatingAdd readOff buf.length) buf run :
      Exec ε Bytes) = .ok (replayFrom readOff [run] buf) := by
  obtain ⟨runStart, bytes⟩ := run
  rw [saturatingAdd_eq small]
  have runEnd : min (saturatingAdd runStart bytes.length)
      (readOff + buf.length) =
        min (runStart + bytes.length) (readOff + buf.length) := by
    unfold saturatingAdd
    omega
  simp only [patchRun, runEnd]
  by_cases apart : max runStart readOff ≥
      min (runStart + bytes.length) (readOff + buf.length)
  · rw [if_pos apart]
    apply congrArg Except.ok
    refine Eq.symm (replayFrom_of_not_covers ?_)
    intro run member index indexLt
    rw [List.mem_singleton.mp member]
    rintro ⟨starts, ends⟩
    simp only at starts ends
    omega
  · rw [if_neg apart, sub_eq_ok (by omega), ok_bind, sub_eq_ok (by omega),
      ok_bind, sub_eq_ok (by omega), ok_bind, add_eq_ok (by omega), ok_bind,
      add_eq_ok (by omega), ok_bind, slice_eq_ok (by omega) (by omega),
      ok_bind, Nat.add_sub_cancel_left,
      copyInto_eq_ok (by omega) (by omega) (by
        rw [length_window_of_le (by omega)]
        omega)]
    apply congrArg Except.ok
    apply List.ext_getElem?
    intro index
    rw [getElem?_overwrite (by rw [length_window_of_le (by omega)]; omega),
      length_window_of_le (by omega), getElem?_window, getElem?_replayFrom]
    by_cases present : index < buf.length
    · rw [List.getElem?_eq_getElem present, Option.map_some, settle_cons,
        settle_nil]
      by_cases covers : Run.Covers (runStart, bytes) (readOff + index)
      · obtain ⟨starts, ends⟩ := covers
        simp only at starts ends
        rw [if_pos (by omega), if_pos (by omega),
          ← Run.put_of_covers _ ⟨starts, ends⟩]
        congr 1
        simp only
        omega
      · rw [Run.put_of_not_covers _ covers, if_neg]
        rintro ⟨starts, ends⟩
        apply covers
        constructor <;> simp only <;> omega
    · rw [if_neg (by omega), List.getElem?_eq_none (by omega)]
      rfl

/-- A patched buffer has every byte settled by the overlay's runs. -/
theorem patch_eq_ok (overlay : LogOverlay) {readOff : Nat} {buf : Bytes}
    (small : readOff + buf.length < wordCount) :
    (overlay.patch buf readOff : Exec ε Bytes) =
      .ok (replayFrom readOff overlay.runs buf) := by
  unfold patch
  by_cases trivial : overlay.runs = [] ∨ buf = []
  · rw [if_pos trivial]
    apply congrArg Except.ok
    rcases trivial with noRuns | noBytes
    · rw [noRuns, replayFrom_nil]
    · rw [noBytes]
      rfl
  · rw [if_neg trivial]
    rw [foldlM_eq_ok (fun state run => replayFrom readOff [run] state)
      (fun state => state.length = buf.length) rfl
      (fun run member state sameLength => by
        rw [← sameLength]
        exact ⟨patchRun_eq_ok run (by omega), by simp⟩)]
    apply congrArg Except.ok
    clear trivial small
    generalize overlay.runs = runs
    induction runs generalizing buf with
    | nil => simp
    | cons run runs inductionHypothesis =>
        rw [List.foldl_cons, inductionHypothesis,
          show run :: runs = [run] ++ runs from rfl, replayFrom_append]

/-- Empty runs settle nothing. -/
theorem settle_nonempty (runs : List Run) (pos : Nat) (old : UInt8) :
    settle (runs.filter fun run => decide (run.2 ≠ [])) pos old =
      settle runs pos old := by
  apply settle_filter
  rintro ⟨start, bytes⟩ member dropped ⟨starts, ends⟩
  have empty : bytes = [] := by simpa using dropped
  simp only [empty, List.length_nil] at starts ends
  omega

end LogOverlay
end VhdxForensic
