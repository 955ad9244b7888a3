import VhdxForensic.Core.Log
import VhdxForensic.Rust.Runs

/-!
# The writes of a log entry

The descriptors of an entry decode to sector writes and zero runs. Replay in
place performs those that end inside the container; the overlay records all
of them. Each path settles exactly when the descriptor table lies in the
entry and every write is one the path can represent.
-/

namespace VhdxForensic

open Rust Rust.Bytes Rust.Exec

/-- One decoded descriptor. -/
inductive LogWrite where
  | sector (fileOffset : Nat) (bytes : Bytes)
  | zeros (fileOffset count : Nat)
  deriving DecidableEq, Repr

namespace LogWrite

/-- The run of bytes a write stands for. -/
def run : LogWrite → Run
  | sector fileOffset bytes => (fileOffset, bytes)
  | zeros fileOffset count => (fileOffset, List.replicate count 0)

/-- In-place replay performs the write on a container of length `len`:
sectors that leave it are dropped as a whole. -/
def LandsIn (len : Nat) : LogWrite → Prop
  | sector fileOffset bytes => fileOffset + bytes.length ≤ len
  | zeros _ _ => True

instance (len : Nat) (write : LogWrite) : Decidable (write.LandsIn len) := by
  cases write <;> unfold LandsIn <;> infer_instance

/-- The end of a sector write is representable. -/
def EndRepresentable : LogWrite → Prop
  | sector fileOffset bytes => fileOffset + bytes.length < wordCount
  | zeros _ _ => True

/-- The bytes of a zero run can be allocated. -/
def Allocatable : LogWrite → Prop
  | sector _ _ => True
  | zeros _ count => count ≤ isizeMax

instance (write : LogWrite) : Decidable write.EndRepresentable := by
  cases write <;> unfold EndRepresentable <;> infer_instance

instance (write : LogWrite) : Decidable write.Allocatable := by
  cases write <;> unfold Allocatable <;> infer_instance

@[simp] theorem landsIn_sector {len fileOffset : Nat} {bytes : Bytes} :
    (sector fileOffset bytes).LandsIn len ↔
      fileOffset + bytes.length ≤ len := Iff.rfl

@[simp] theorem landsIn_zeros {len fileOffset count : Nat} :
    (zeros fileOffset count).LandsIn len := trivial

@[simp] theorem endRepresentable_sector {fileOffset : Nat} {bytes : Bytes} :
    (sector fileOffset bytes).EndRepresentable ↔
      fileOffset + bytes.length < wordCount := Iff.rfl

@[simp] theorem endRepresentable_zeros {fileOffset count : Nat} :
    (zeros fileOffset count).EndRepresentable := trivial

@[simp] theorem allocatable_sector {fileOffset : Nat} {bytes : Bytes} :
    (sector fileOffset bytes).Allocatable := trivial

@[simp] theorem allocatable_zeros {fileOffset count : Nat} :
    (zeros fileOffset count).Allocatable ↔ count ≤ isizeMax := Iff.rfl

end LogWrite

/-! ## Decoding -/

namespace LogEntry

def descriptorCount (entry : Bytes) : Nat := leU32 entry 24

/-- Where the data sectors are taken from. -/
def dataSectorBase (entry : Bytes) : Nat := 64 + descriptorCount entry * 32

def descriptor (entry : Bytes) (index : Nat) : Bytes :=
  window entry (64 + index * 32) 32

def isData (entry : Bytes) (index : Nat) : Bool :=
  window (descriptor entry index) 0 4 = dataDescriptorSignature

def isZero (entry : Bytes) (index : Nat) : Bool :=
  window (descriptor entry index) 0 4 = zeroDescriptorSignature

/-- Number of data descriptors before `index`. -/
def sectorIndex (entry : Bytes) (index : Nat) : Nat :=
  (List.range index).countP (isData entry)

/-- The sector a data descriptor at `index` is given. -/
def sectorOffset (entry : Bytes) (index : Nat) : Nat :=
  dataSectorBase entry + sectorIndex entry index * 4096

/-- The write the descriptor at `index` stands for. Data descriptors whose
sector lies outside the entry stand for none. -/
def writeAt (entry : Bytes) (index : Nat) : Option LogWrite :=
  if isData entry index then
    if sectorOffset entry index + 4096 ≤ entry.length then
      some (.sector (leU64 (descriptor entry index) 24)
        (window entry (sectorOffset entry index) 4096))
    else none
  else if isZero entry index then
    some (.zeros (leU64 (descriptor entry index) 16)
      (leU64 (descriptor entry index) 8))
  else none

/-- The writes of an entry in descriptor order. -/
def writes (entry : Bytes) : List LogWrite :=
  (List.range (descriptorCount entry)).filterMap (writeAt entry)

/-- The descriptor table lies inside the entry. -/
def TableFits (entry : Bytes) : Prop :=
  dataSectorBase entry ≤ entry.length

instance (entry : Bytes) : Decidable (TableFits entry) :=
  inferInstanceAs (Decidable (_ ≤ _))

/-- There are no more data descriptors than descriptors. -/
theorem sectorIndex_le (entry : Bytes) (index : Nat) :
    sectorIndex entry index ≤ index := by
  have bound := List.countP_le_length (p := isData entry)
    (l := List.range index)
  simpa [sectorIndex] using bound

@[simp] theorem sectorIndex_zero (entry : Bytes) :
    sectorIndex entry 0 = 0 := rfl

theorem sectorIndex_succ (entry : Bytes) (index : Nat) :
    sectorIndex entry (index + 1) =
      sectorIndex entry index + if isData entry index then 1 else 0 := by
  simp only [sectorIndex, List.range_succ, List.countP_append,
    List.countP_singleton]

theorem descriptorCount_lt (entry : Bytes) :
    descriptorCount entry < 2 ^ 32 := leU32_lt entry 24

end LogEntry

open LogEntry

/-! ## Replay in place, one descriptor at a time -/

/-- The effect of one write on the container. -/
def LogWrite.applyTo (data : Bytes) (write : LogWrite) : Bytes :=
  if write.LandsIn data.length then replayFrom 0 [write.run] data else data

/-- A write keeps the length of the container. -/
@[simp] theorem LogWrite.length_applyTo (data : Bytes) (write : LogWrite) :
    (write.applyTo data).length = data.length := by
  unfold LogWrite.applyTo
  split <;> simp

/-- The effect of a list of writes on the container. -/
def applyWrites (data : Bytes) (list : List LogWrite) : Bytes :=
  list.foldl LogWrite.applyTo data

/-- So do all writes. -/
@[simp] theorem length_applyWrites (data : Bytes) (list : List LogWrite) :
    (applyWrites data list).length = data.length := by
  induction list generalizing data with
  | nil => rfl
  | cons write list inductionHypothesis =>
      have := inductionHypothesis (write.applyTo data)
      simpa [applyWrites] using this

/-- Replaying writes replays the runs of those that land. -/
theorem applyWrites_eq_replayFrom (data : Bytes) (list : List LogWrite) :
    applyWrites data list =
      replayFrom 0 ((list.filter fun write =>
        write.LandsIn data.length).map LogWrite.run) data := by
  induction list generalizing data with
  | nil => simp [applyWrites]
  | cons write list inductionHypothesis =>
      have rest := inductionHypothesis (write.applyTo data)
      rw [LogWrite.length_applyTo] at rest
      change applyWrites (write.applyTo data) list = _
      rw [rest]
      by_cases lands : write.LandsIn data.length
      · rw [List.filter_cons_of_pos (by simpa using lands), List.map_cons,
          LogWrite.applyTo, if_pos lands, ← replayFrom_append]
        rfl
      · rw [List.filter_cons_of_neg (by simpa using lands),
          LogWrite.applyTo, if_neg lands]

/-- The state after the descriptor at `index`. -/
def applyStep (entry : Bytes) (index : Nat) (state : Bytes × Nat) :
    Bytes × Nat :=
  (((writeAt entry index).toList.foldl LogWrite.applyTo state.1),
    state.2 + if isData entry index then 1 else 0)

/-- Replay in place gets past the descriptor at `index`. -/
def ApplySafe (entry : Bytes) (index : Nat) : Prop :=
  64 + (index + 1) * 32 ≤ entry.length ∧
    ∀ write ∈ writeAt entry index, write.EndRepresentable

/-- The overlay gets past the descriptor at `index`. -/
def OverlaySafe (entry : Bytes) (index : Nat) : Prop :=
  64 + (index + 1) * 32 ≤ entry.length ∧
    ∀ write ∈ writeAt entry index, write.Allocatable

/-- The range fill of a zero descriptor replays its run. -/
theorem zeros_applyTo {data : Bytes} {fileOffset count : Nat}
    (dataSmall : data.length < wordCount) (starts : fileOffset < data.length) :
    overwrite data fileOffset (List.replicate
      (min (saturatingAdd fileOffset count) data.length - fileOffset) 0) =
        (LogWrite.zeros fileOffset count).applyTo data := by
  have reach : min (saturatingAdd fileOffset count) data.length =
      min (fileOffset + count) data.length := by
    unfold saturatingAdd
    omega
  rw [reach, overwrite_eq_replayFrom (by simp; omega), LogWrite.applyTo,
    if_pos LogWrite.landsIn_zeros]
  apply replayFrom_congr
  intro index byte present
  have indexLt : index < data.length :=
    (List.getElem?_eq_some_iff.mp present).1
  simp only [settle_cons, settle_nil, Run.put, Run.Covers, LogWrite.run,
    List.length_replicate, Nat.zero_add, List.getD_eq_getElem?_getD,
    List.getElem?_replicate]
  by_cases written : fileOffset ≤ index ∧ index < fileOffset + count
  · rw [if_pos (by omega), if_pos (by omega), if_pos (by omega),
      if_pos (by omega)]
  · rw [if_neg (by omega), if_neg (by omega)]

/-- A zero descriptor that starts past the container changes nothing. -/
theorem zeros_applyTo_of_past {data : Bytes} {fileOffset count : Nat}
    (past : data.length ≤ fileOffset) :
    (LogWrite.zeros fileOffset count).applyTo data = data := by
  rw [LogWrite.applyTo, if_pos LogWrite.landsIn_zeros]
  apply replayFrom_of_not_covers
  intro run member index indexLt
  rw [List.mem_singleton.mp member]
  rintro ⟨starts, -⟩
  change fileOffset ≤ 0 + index at starts
  omega

section Descriptor

variable {ε : Type} {entry : Bytes} {index : Nat}

/-- The slices that read a descriptor stay inside the entry exactly when the
descriptor does. -/
theorem descriptor_slice (inside : 64 + (index + 1) * 32 ≤ entry.length) :
    (slice entry (64 + index * 32) (64 + (index + 1) * 32) : Exec ε Bytes) =
        .ok (descriptor entry index) ∧
      (slice (descriptor entry index) 0 4 : Exec ε Bytes) =
        .ok (window (descriptor entry index) 0 4) := by
  constructor
  · rw [slice_eq_ok (by omega) inside,
      show 64 + (index + 1) * 32 - (64 + index * 32) = 32 by omega]
    rfl
  · rw [slice_eq_ok (by omega) (by
      rw [descriptor, length_window_of_le (by omega)]
      omega)]

theorem sectorOffset_lt (indexLt : index < descriptorCount entry) :
    sectorOffset entry index + 4096 < wordCount := by
  have countLt := descriptorCount_lt entry
  have indexBound := sectorIndex_le entry index
  unfold sectorOffset dataSectorBase wordCount
  omega

/-- A safe descriptor takes one step of in-place replay. -/
theorem applyDescriptor_eq_ok {state : Bytes × Nat}
    (dataSmall : state.1.length < wordCount)
    (indexLt : index < descriptorCount entry)
    (consumed : state.2 = sectorIndex entry index)
    (safe : ApplySafe entry index) :
    (applyDescriptor entry (dataSectorBase entry) index state :
      Exec ε _) = .ok (.yield (applyStep entry index state)) := by
  obtain ⟨data, sectorIdx⟩ := state
  obtain ⟨inside, representable⟩ := safe
  obtain ⟨wholeRead, signatureRead⟩ :=
    descriptor_slice (ε := ε) inside
  have sectorLt := sectorOffset_lt indexLt
  simp only at consumed dataSmall
  subst consumed
  simp only [applyDescriptor, wholeRead, signatureRead, ok_bind, pure_eq_ok,
    applyStep]
  by_cases data? : isData entry index = true
  · rw [if_pos (by simpa [isData] using data?),
      add_eq_ok (by unfold sectorOffset at sectorLt; omega), ok_bind,
      add_eq_ok (by unfold sectorOffset at sectorLt; omega), ok_bind]
    change (if sectorOffset entry index + 4096 ≤ entry.length then _
      else _) = _
    by_cases present : sectorOffset entry index + 4096 ≤ entry.length
    · have decoded : writeAt entry index =
          some (.sector (leU64 (descriptor entry index) 24)
            (window entry (sectorOffset entry index) 4096)) := by
        rw [writeAt, if_pos data?, if_pos present]
      have sectorLength := length_window_of_le present
      have ends := representable _ decoded
      rw [LogWrite.endRepresentable_sector, sectorLength] at ends
      rw [if_pos present, add_eq_ok ends, ok_bind, decoded, if_pos data?]
      simp only [Option.toList_some, List.foldl_cons, List.foldl_nil,
        LogWrite.applyTo, LogWrite.LandsIn, sectorLength]
      by_cases lands :
          leU64 (descriptor entry index) 24 + 4096 ≤ data.length
      · rw [if_pos lands, if_pos lands]
        change ((slice entry (sectorOffset entry index)
          (sectorOffset entry index + 4096) : Exec ε Bytes) >>= _) = _
        rw [slice_eq_ok (by omega) present, ok_bind, Nat.add_sub_cancel_left,
          copyInto_eq_ok (by omega) lands (by omega), ok_bind,
          overwrite_eq_replayFrom (by omega)]
        rfl
      · rw [if_neg lands, if_neg lands]
    · rw [if_neg present, writeAt, if_pos data?, if_neg present, if_pos data?]
      rfl
  · rw [if_neg (by simpa [isData] using data?)]
    by_cases zero? : isZero entry index = true
    · have decoded : writeAt entry index =
          some (.zeros (leU64 (descriptor entry index) 16)
            (leU64 (descriptor entry index) 8)) := by
        rw [writeAt, if_neg data?, if_pos zero?]
      rw [if_pos (by simpa [isZero] using zero?), decoded, if_neg data?]
      simp only [Option.toList_some, List.foldl_cons, List.foldl_nil]
      by_cases starts : leU64 (descriptor entry index) 16 < data.length
      · have ordered : leU64 (descriptor entry index) 16 ≤
            min (saturatingAdd (leU64 (descriptor entry index) 16)
              (leU64 (descriptor entry index) 8)) data.length := by
          unfold saturatingAdd
          omega
        rw [if_pos starts, fill_eq_ok 0 ordered (by omega), ok_bind,
          zeros_applyTo dataSmall starts, Nat.add_zero]
      · rw [if_neg starts, zeros_applyTo_of_past (by omega), Nat.add_zero]
    · rw [if_neg (by simpa [isZero] using zero?), writeAt, if_neg data?,
        if_neg zero?, if_neg data?]
      rfl

/-- An unsafe descriptor stops in-place replay. -/
theorem applyDescriptor_stops {state : Bytes × Nat}
    (indexLt : index < descriptorCount entry)
    (consumed : state.2 = sectorIndex entry index)
    (bad : ¬ ApplySafe entry index) :
    ¬ Settles (applyDescriptor entry (dataSectorBase entry) index state :
      Exec ε _) := by
  obtain ⟨data, sectorIdx⟩ := state
  simp only at consumed
  subst consumed
  intro settles
  by_cases inside : 64 + (index + 1) * 32 ≤ entry.length
  · obtain ⟨wholeRead, signatureRead⟩ := descriptor_slice (ε := ε) inside
    have sectorLt := sectorOffset_lt indexLt
    apply bad
    refine ⟨inside, fun write decoded => ?_⟩
    unfold writeAt at decoded
    split at decoded
    · rename_i data?
      split at decoded
      · rename_i present
        cases decoded
        rw [LogWrite.endRepresentable_sector, length_window_of_le present]
        simp only [applyDescriptor, wholeRead, signatureRead, ok_bind]
          at settles
        rw [if_pos (by simpa [isData] using data?),
          add_eq_ok (by unfold sectorOffset at sectorLt; omega), ok_bind,
          add_eq_ok (by unfold sectorOffset at sectorLt; omega), ok_bind,
          if_pos (show dataSectorBase entry + sectorIndex entry index * 4096 +
            4096 ≤ entry.length from present)] at settles
        exact settles_add.mp settles.of_bind
      · cases decoded
    · split at decoded
      · cases decoded
        trivial
      · cases decoded
  · have sliced := settles.of_bind
    rw [settles_slice] at sliced
    exact inside sliced.2

/-! ## The overlay, one descriptor at a time -/

/-- The overlay after one write. -/
def LogOverlay.record (overlay : LogOverlay) (write : LogWrite) :
    LogOverlay :=
  overlay.push write.run.1 write.run.2

/-- The overlay state after the descriptor at `index`. -/
def overlayStep (entry : Bytes) (index : Nat) (state : LogOverlay × Nat) :
    LogOverlay × Nat :=
  (((writeAt entry index).toList.foldl LogOverlay.record state.1),
    state.2 + if isData entry index then 1 else 0)

/-- A safe descriptor takes one step of overlay construction. -/
theorem overlayDescriptor_eq_ok {state : LogOverlay × Nat}
    (indexLt : index < descriptorCount entry)
    (consumed : state.2 = sectorIndex entry index)
    (safe : OverlaySafe entry index) :
    (overlayDescriptor entry (dataSectorBase entry) index state :
      Exec ε _) = .ok (.yield (overlayStep entry index state)) := by
  obtain ⟨overlay, sectorIdx⟩ := state
  obtain ⟨inside, allocatable⟩ := safe
  obtain ⟨wholeRead, signatureRead⟩ :=
    descriptor_slice (ε := ε) inside
  have sectorLt := sectorOffset_lt indexLt
  simp only at consumed
  subst consumed
  simp only [overlayDescriptor, wholeRead, signatureRead, ok_bind, pure_eq_ok,
    overlayStep]
  by_cases data? : isData entry index = true
  · rw [if_pos (by simpa [isData] using data?),
      add_eq_ok (by unfold sectorOffset at sectorLt; omega), ok_bind,
      add_eq_ok (by unfold sectorOffset at sectorLt; omega), ok_bind]
    change (if sectorOffset entry index + 4096 ≤ entry.length then _
      else _) = _
    by_cases present : sectorOffset entry index + 4096 ≤ entry.length
    · rw [if_pos present, writeAt, if_pos data?, if_pos present, if_pos data?]
      change ((slice entry (sectorOffset entry index)
        (sectorOffset entry index + 4096) : Exec ε Bytes) >>= _) = _
      rw [slice_eq_ok (by omega) present, ok_bind, Nat.add_sub_cancel_left]
      rfl
    · rw [if_neg present, writeAt, if_pos data?, if_neg present, if_pos data?]
      rfl
  · rw [if_neg (by simpa [isData] using data?)]
    by_cases zero? : isZero entry index = true
    · have decoded : writeAt entry index =
          some (.zeros (leU64 (descriptor entry index) 16)
            (leU64 (descriptor entry index) 8)) := by
        rw [writeAt, if_neg data?, if_pos zero?]
      have fits := allocatable _ decoded
      rw [LogWrite.allocatable_zeros] at fits
      rw [if_pos (by simpa [isZero] using zero?), decoded, if_neg data?]
      simp only [Option.toList_some, List.foldl_cons, List.foldl_nil,
        LogOverlay.record, LogWrite.run, Nat.add_zero]
      by_cases some? : leU64 (descriptor entry index) 8 > 0
      · rw [if_pos some?, zeroed_eq_ok fits, ok_bind]
      · rw [if_neg some?, show leU64 (descriptor entry index) 8 = 0 by omega]
        rfl
    · rw [if_neg (by simpa [isZero] using zero?), writeAt, if_neg data?,
        if_neg zero?, if_neg data?]
      rfl

/-- An unsafe descriptor stops overlay construction. -/
theorem overlayDescriptor_stops {state : LogOverlay × Nat}
    (bad : ¬ OverlaySafe entry index) :
    ¬ Settles (overlayDescriptor entry (dataSectorBase entry) index state :
      Exec ε _) := by
  obtain ⟨overlay, sectorIdx⟩ := state
  intro settles
  by_cases inside : 64 + (index + 1) * 32 ≤ entry.length
  · obtain ⟨wholeRead, signatureRead⟩ := descriptor_slice (ε := ε) inside
    apply bad
    refine ⟨inside, fun write decoded => ?_⟩
    unfold writeAt at decoded
    split at decoded
    · split at decoded <;> cases decoded
      trivial
    · rename_i data?
      split at decoded
      · rename_i zero?
        cases decoded
        rw [LogWrite.allocatable_zeros]
        by_cases some? : leU64 (descriptor entry index) 8 > 0
        · simp only [overlayDescriptor, wholeRead, signatureRead, ok_bind]
            at settles
          rw [if_neg (by simpa [isData] using data?),
            if_pos (by simpa [isZero] using zero?), if_pos some?] at settles
          exact settles_zeroed.mp settles.of_bind
        · omega
      · cases decoded
  · have sliced := settles.of_bind
    rw [settles_slice] at sliced
    exact inside sliced.2

end Descriptor

end VhdxForensic
