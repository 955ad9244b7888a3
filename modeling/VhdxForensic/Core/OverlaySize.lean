import VhdxForensic.Core.OpenEquivalence
import VhdxForensic.Core.OverlayBytes

/-!
# The size of the overlay

The sectors of the overlay are copied out of the log, so they never outgrow
it. A zero descriptor names its length in a free field, and the overlay holds
all of these zeros.
-/

namespace VhdxForensic

open Rust Rust.Bytes Rust.Exec LogEntry

/-- Number of bytes in all runs of the overlay. -/
def LogOverlay.size (overlay : LogOverlay) : Nat :=
  (overlay.runs.map fun run => run.2.length).sum

/-- Bytes that the sectors of a write take. -/
def LogWrite.sectorBytes : LogWrite → Nat
  | sector _ bytes => bytes.length
  | zeros _ _ => 0

/-- Bytes that a write clears. -/
def LogWrite.zeroBytes : LogWrite → Nat
  | sector _ _ => 0
  | zeros _ count => count

/-- The writes that the log of a header holds. -/
def logWrites (data : Bytes) (header : VhdxHeader) : List LogWrite :=
  if header.IsClean then []
  else entryWrites (logEntries (logRegion data header) header.logGuid)

def sectorBytes (list : List LogWrite) : Nat :=
  (list.map LogWrite.sectorBytes).sum

def zeroBytes (list : List LogWrite) : Nat :=
  (list.map LogWrite.zeroBytes).sum

/-! ## Sectors come out of the log -/

theorem LogWrite.length_run (write : LogWrite) :
    write.run.2.length = write.sectorBytes + write.zeroBytes := by
  cases write <;> simp [run, sectorBytes, zeroBytes]

/-- Empty runs do not count. -/
theorem sum_length_nonempty (runs : List Run) :
    ((runs.filter fun run => decide (run.2 ≠ [])).map
        fun run => run.2.length).sum =
      (runs.map fun run => run.2.length).sum := by
  induction runs with
  | nil => rfl
  | cons run rest inductionHypothesis =>
      by_cases empty : run.2 = []
      · rw [List.filter_cons_of_neg (by simpa using empty), List.map_cons,
          List.sum_cons, inductionHypothesis, empty, List.length_nil,
          Nat.zero_add]
      · rw [List.filter_cons_of_pos (by simpa using empty), List.map_cons,
          List.map_cons, List.sum_cons, List.sum_cons, inductionHypothesis]

theorem size_record (list : List LogWrite) :
    (list.foldl LogOverlay.record {}).size =
      sectorBytes list + zeroBytes list := by
  have lengths : (list.map fun write => write.run.2.length) =
      list.map fun write => write.sectorBytes + write.zeroBytes := by
    simp only [LogWrite.length_run]
  rw [LogOverlay.size, LogOverlay.runs_foldl_record, List.nil_append,
    sum_length_nonempty, List.map_map, Function.comp_def, lengths,
    List.sum_map_add]
  rfl

theorem sectorBytes_append (left right : List LogWrite) :
    sectorBytes (left ++ right) = sectorBytes left + sectorBytes right := by
  simp [sectorBytes]

/-- The sectors taken by the first descriptors are different sectors behind
the descriptor table. -/
theorem sectorBytes_filterMap_le (entry : Bytes) (count : Nat) :
    sectorBytes ((List.range count).filterMap (writeAt entry)) ≤
        sectorIndex entry count * 4096 ∧
      sectorBytes ((List.range count).filterMap (writeAt entry)) ≤
        entry.length - dataSectorBase entry := by
  induction count with
  | zero => simp [sectorBytes]
  | succ count inductionHypothesis =>
      obtain ⟨belowIndex, belowLength⟩ := inductionHypothesis
      rw [filterMap_range_succ, sectorBytes_append, sectorIndex_succ]
      by_cases data : isData entry count
      case neg =>
        have clears : sectorBytes (writeAt entry count).toList = 0 := by
          rw [writeAt, if_neg data]
          split <;> rfl
        rw [clears, if_neg data]
        exact ⟨by omega, by omega⟩
      rw [if_pos data]
      by_cases inside : sectorOffset entry count + 4096 ≤ entry.length
      · have taken : sectorBytes (writeAt entry count).toList = 4096 := by
          rw [writeAt, if_pos data, if_pos inside]
          simp only [Option.toList_some, sectorBytes, List.map_cons,
            List.map_nil, List.sum_cons, List.sum_nil, LogWrite.sectorBytes,
            length_window_of_le inside, Nat.add_zero]
        rw [taken]
        unfold sectorOffset at inside
        exact ⟨by omega, by omega⟩
      · have dropped : sectorBytes (writeAt entry count).toList = 0 := by
          rw [writeAt, if_pos data, if_neg inside]
          rfl
        rw [dropped, Nat.add_zero, Nat.add_mul]
        exact ⟨belowIndex.trans (Nat.le_add_right _ _), belowLength⟩

theorem sectorBytes_writes_le (entry : Bytes) :
    sectorBytes (writes entry) ≤ entry.length :=
  (sectorBytes_filterMap_le entry _).2.trans (Nat.sub_le _ _)

theorem sectorBytes_entryWrites_le (entries : List Bytes) :
    sectorBytes (entryWrites entries) ≤ (entries.map List.length).sum := by
  induction entries with
  | nil => rfl
  | cons entry rest inductionHypothesis =>
      have first := sectorBytes_writes_le entry
      rw [entryWrites, List.flatMap_cons, sectorBytes_append, List.map_cons,
        List.sum_cons]
      exact Nat.add_le_add first inductionHypothesis

/-- The entries of a log lie side by side in it. -/
theorem sum_logEntriesFrom_le (log expectedGuid : Bytes) (pos : Nat) :
    ((logEntriesFrom log expectedGuid pos).map fun item =>
      item.2.length).sum ≤ log.length - pos := by
  rw [logEntriesFrom_eq]
  induction pos using visitsFrom.induct log with
  | case1 pos entry inductionHypothesis =>
      obtain ⟨-, large, inside⟩ := id entry
      rw [visitsFrom_of_entry entry, List.filterMap_cons]
      unfold nextEntry at inductionHypothesis ⊢
      cases kept : keptEntry log expectedGuid pos with
      | none =>
          dsimp only
          omega
      | some item =>
          obtain ⟨-, rfl⟩ := keptEntry_eq_some_iff.mp kept
          dsimp only
          rw [List.map_cons, List.sum_cons, length_window_of_le inside]
          omega
  | case2 pos ended =>
      rw [visitsFrom_of_no_entry ended]
      exact Nat.zero_le _

theorem sectorBytes_logEntries_le (log expectedGuid : Bytes) :
    sectorBytes (entryWrites (logEntries log expectedGuid)) ≤ log.length := by
  refine (sectorBytes_entryWrites_le _).trans ?_
  rw [logEntries, List.map_map,
    ((List.mergeSort_perm (logEntriesFrom log expectedGuid 0) _).map
      (List.length ∘ Prod.snd)).sum_eq]
  exact sum_logEntriesFrom_le log expectedGuid 0

/-! ## Overlays that were built -/

section Built

variable {backing : Backing} {header : VhdxHeader} {overlay : LogOverlay}

/-- An overlay that was built records the writes of the log. -/
theorem overlay_of_built (built : buildOverlay backing header = .ok overlay) :
    overlay = (logWrites backing.view header).foldl LogOverlay.record {} ∧
      (¬ header.IsClean →
        (logRegion backing.view header).length = header.logLength) := by
  rw [buildOverlay] at built
  rw [logWrites]
  by_cases clean : header.IsClean
  · rw [if_pos clean] at built ⊢
    cases built
    exact ⟨rfl, absurd clean⟩
  rw [if_neg clean] at built ⊢
  dsimp only at built
  rw [failIf_bind] at built
  split at built
  · cases built
  -- A log that is read in full can be allocated.
  by_cases allocatable : header.logLength ≤ isizeMax
  case neg =>
    rw [Backing.readExactAt, zeroed, if_neg allocatable] at built
    cases built
  rw [Backing.readExactAt_eq backing _ allocatable, ok_bind, failIf_bind]
    at built
  change (if (logRegion backing.view header).length < header.logLength
    then _ else collectEntries (logRegion backing.view header) _ >>= _) = _
    at built
  split at built
  · cases built
  rename_i whole
  have atMost : (logRegion backing.view header).length ≤ header.logLength := by
    rw [logRegion, length_window]
    exact min_le_left _ _
  rw [collectEntries_eq _ (atMost.trans allocatable), ok_bind] at built
  have headers : ∀ entry ∈ logEntries (logRegion backing.view header)
      header.logGuid, 64 ≤ entry.length :=
    fun entry member => header_le_of_mem_logEntries member
  rw [foldlM_overlayEntry_eq_ok headers
    ((settles_foldlM_overlayEntry_iff {} headers).mp (.of_eq_ok built))]
    at built
  cases built
  exact ⟨rfl, fun _ => by omega⟩

/-- The overlay of a log inside the container is built when its entries are
safe. -/
theorem buildOverlay_eq_ok (dirty : ¬ header.IsClean)
    (small : header.logOffset + header.logLength < wordCount)
    (inside : header.logOffset + header.logLength ≤ backing.view.length)
    (allocatable : header.logLength ≤ isizeMax)
    (safe : ∀ entry ∈ logEntries (logRegion backing.view header)
      header.logGuid, LogEntry.OverlaySafe entry) :
    buildOverlay backing header =
      .ok ((logWrites backing.view header).foldl LogOverlay.record {}) := by
  have whole : (window backing.view header.logOffset
      header.logLength).length = header.logLength :=
    length_window_of_le inside
  rw [buildOverlay, if_neg dirty, logWrites, if_neg dirty,
    Backing.len_eq_length_view]
  dsimp only
  rw [saturatingAdd_eq small, failIf_bind, if_neg (by omega),
    Backing.readExactAt_eq backing _ allocatable, ok_bind, failIf_bind,
    if_neg (by omega), collectEntries_eq _ (by omega), ok_bind]
  exact foldlM_overlayEntry_eq_ok
    (fun entry member => header_le_of_mem_logEntries member) safe

/-- The sectors of the log fit into it. The overlay is no larger than the log
exactly when the zero runs fit into what the sectors leave. -/
theorem overlay_within_log_iff
    (built : buildOverlay backing header = .ok overlay) :
    sectorBytes (logWrites backing.view header) ≤ header.logLength ∧
      (overlay.size ≤ header.logLength ↔
        zeroBytes (logWrites backing.view header) ≤
          header.logLength - sectorBytes (logWrites backing.view header)) := by
  obtain ⟨rfl, whole⟩ := overlay_of_built built
  have sectors : sectorBytes (logWrites backing.view header) ≤
      header.logLength := by
    rw [logWrites]
    split
    · exact Nat.zero_le _
    · rename_i dirty
      exact (sectorBytes_logEntries_le _ _).trans_eq (whole dirty)
  rw [size_record]
  exact ⟨sectors, by omega⟩

end Built

/-! ## A container with a long zero run -/

/-- The smallest container with a log of 96 bytes that clears `count` bytes
at 2 MiB. -/
def clearingContainer (count : Nat) : Bytes :=
  dirtyContainer VhdxReader.minContainerSize (VhdxReader.dirtyHeader 96)
    (clearingEntry (List.replicate 16 1) 1 0x200000 count)

section Clearing

variable {count : Nat}

theorem clearingContainer_fits :
    DirtyContainerFits VhdxReader.minContainerSize (VhdxReader.dirtyHeader 96)
      (clearingEntry (List.replicate 16 1) 1 0x200000 count) := by
  have long : (clearingEntry (List.replicate 16 1) 1 0x200000 count).length =
      96 := length_clearingEntry rfl
  refine VhdxReader.dirtyHeader_fits (by decide) long.symm le_rfl ?_
    (by decide)
  rw [long]
  decide

theorem Backing.view_mem (bytes : Bytes) : (Backing.mem bytes).view = bytes :=
  rfl

theorem length_clearingContainer :
    (clearingContainer count).length = VhdxReader.minContainerSize :=
  length_dirtyContainer _ _ _

theorem logWrites_clearingContainer (countLt : count < 2 ^ 64) :
    logWrites (clearingContainer count) (VhdxReader.dirtyHeader 96) =
      [.zeros 0x200000 count] := by
  have named : (VhdxReader.dirtyHeader 96).logGuid = List.replicate 16 1 :=
    rfl
  have fits := @clearingContainer_fits count
  rw [logWrites, if_neg fits.dirty, clearingContainer, fits.logRegion_eq,
    named, logEntries_clearingEntry rfl, entryWrites, List.flatMap_singleton,
    writes_clearingEntry rfl (by decide) countLt]

/-- The overlay of the container holds all of the zeros. -/
theorem buildOverlay_clearingContainer (allocatable : count ≤ isizeMax) :
    buildOverlay (.mem (clearingContainer count))
        (VhdxReader.dirtyHeader 96) =
      .ok (LogOverlay.record {} (.zeros 0x200000 count)) := by
  have countLt : count < 2 ^ 64 := by
    unfold isizeMax at allocatable
    omega
  have fits := @clearingContainer_fits count
  have named : (VhdxReader.dirtyHeader 96).logGuid = List.replicate 16 1 :=
    rfl
  have inside : (VhdxReader.dirtyHeader 96).logOffset +
      (VhdxReader.dirtyHeader 96).logLength ≤
        (Backing.mem (clearingContainer count)).view.length := by
    rw [Backing.view_mem, length_clearingContainer]
    decide
  have safe : ∀ entry ∈ logEntries (logRegion (Backing.mem
      (clearingContainer count)).view (VhdxReader.dirtyHeader 96))
      (VhdxReader.dirtyHeader 96).logGuid, LogEntry.OverlaySafe entry := by
    intro entry member
    rw [Backing.view_mem, clearingContainer, fits.logRegion_eq, named,
      logEntries_clearingEntry rfl, List.mem_singleton] at member
    rw [member]
    refine ⟨tableFits_clearingEntry rfl, ?_⟩
    rw [writes_clearingEntry rfl (by decide) countLt]
    simpa using allocatable
  have small : (VhdxReader.dirtyHeader 96).logOffset +
      (VhdxReader.dirtyHeader 96).logLength < wordCount := by decide
  have logAllocatable : (VhdxReader.dirtyHeader 96).logLength ≤ isizeMax := by
    decide
  have built := buildOverlay_eq_ok fits.dirty small inside logAllocatable safe
  rw [Backing.view_mem, logWrites_clearingContainer countLt] at built
  exact built

end Clearing

/-- 4096 zeros from a log of 96 bytes. -/
theorem clearingContainer_outgrows_log :
    ∃ overlay, buildOverlay (.mem (clearingContainer 0x1000))
        (VhdxReader.dirtyHeader 96) = .ok overlay ∧
      ¬ overlay.size ≤ (VhdxReader.dirtyHeader 96).logLength := by
  refine ⟨_, buildOverlay_clearingContainer (by decide), ?_⟩
  have size := size_record [.zeros 0x200000 0x1000]
  rw [List.foldl_cons, List.foldl_nil] at size
  rw [size]
  decide

/-- A log of 96 bytes that clears as many. -/
theorem overlay_within_log_clearing :
    sectorBytes (logWrites (Backing.mem (clearingContainer 96)).view
        (VhdxReader.dirtyHeader 96)) ≤ (VhdxReader.dirtyHeader 96).logLength ∧
      ((LogOverlay.record {} (.zeros 0x200000 96)).size ≤
          (VhdxReader.dirtyHeader 96).logLength ↔
        zeroBytes (logWrites (Backing.mem (clearingContainer 96)).view
            (VhdxReader.dirtyHeader 96)) ≤
          (VhdxReader.dirtyHeader 96).logLength -
            sectorBytes (logWrites (Backing.mem (clearingContainer 96)).view
              (VhdxReader.dirtyHeader 96))) :=
  overlay_within_log_iff (@buildOverlay_clearingContainer 96 (by decide))

end VhdxForensic
