import VhdxForensic.Core.LogReplay
import VhdxForensic.Core.LogWalk

/-!
# The log a container carries

The entries that are pending in a container, as a function of its bytes. Both
ways of replay fetch exactly these entries, and replay in place ends with the
runs of all decoded writes that land in the container.
-/

namespace VhdxForensic

open Rust Rust.Bytes Rust.Exec

variable {ε : Type}

/-! ## Walking the log -/

/-- The valid entries from `pos` on with their sequence numbers, up to the
first position that holds no entry. -/
def logEntriesFrom (log expectedGuid : Bytes) (pos : Nat) :
    List (Nat × Bytes) :=
  let entryLen := leU32 log (pos + 8)
  if _ended : pos + 64 > log.length ∨
      window log pos 4 ≠ logEntrySignature ∨
      entryLen < 64 ∨ pos + entryLen > log.length then []
  else
    let rest := logEntriesFrom log expectedGuid (pos + entryLen)
    if LogEntryValid log expectedGuid pos entryLen then
      (leU64 log (pos + 16), window log pos entryLen) :: rest
    else rest
termination_by log.length - pos

/-- The valid entries of a log in the order of replay. -/
def logEntries (log expectedGuid : Bytes) : List Bytes :=
  ((logEntriesFrom log expectedGuid 0).mergeSort
    fun a b => decide (a.1 ≤ b.1)).map Prod.snd

/-- The valid entries are those that the walk keeps. -/
theorem logEntriesFrom_eq (log expectedGuid : Bytes) (pos : Nat) :
    logEntriesFrom log expectedGuid pos =
      (visitsFrom log pos).filterMap (keptEntry log expectedGuid) := by
  induction pos using visitsFrom.induct log with
  | case1 pos entry inductionHypothesis =>
      obtain ⟨signed, large, inside⟩ := id entry
      have goesOn : ¬ (pos + 64 > log.length ∨
          window log pos 4 ≠ logEntrySignature ∨
          leU32 log (pos + 8) < 64 ∨
          pos + leU32 log (pos + 8) > log.length) := by
        rintro (isEnd | unsigned | isShort)
        · omega
        · exact unsigned signed
        · omega
      rw [logEntriesFrom, dif_neg goesOn, visitsFrom_of_entry entry,
        List.filterMap_cons, ← inductionHypothesis]
      unfold keptEntry nextEntry
      dsimp only
      split <;> rfl
  | case2 pos ended =>
      rw [visitsFrom_of_no_entry ended, logEntriesFrom, dif_pos]
      · rfl
      · by_contra goesOn
        exact ended ⟨by simpa using (not_or.mp (not_or.mp goesOn).2).1,
          by omega, by omega⟩

/-- The walk from a position settles. -/
theorem collectFrom_eq {log : Bytes} (expectedGuid : Bytes)
    (allocated : log.length ≤ isizeMax) (pos : Nat)
    (posInside : pos ≤ log.length) :
    (collectFrom log expectedGuid pos : Exec ε (List (Nat × Bytes))) =
      .ok (logEntriesFrom log expectedGuid pos) := by
  rw [collectFrom_eq_trace, collectTrace_eq expectedGuid allocated pos
    posInside, ok_bind, logEntriesFrom_eq, List.filterMap_map]
  rfl

/-- Collecting the entries settles. -/
theorem collectEntries_eq {log : Bytes} (expectedGuid : Bytes)
    (allocated : log.length ≤ isizeMax) :
    (collectEntries log expectedGuid : Exec ε (List Bytes)) =
      .ok (logEntries log expectedGuid) := by
  rw [collectEntries, collectFrom_eq expectedGuid allocated 0 (by omega),
    ok_bind]
  rfl

/-- A collected entry has room for its header. -/
theorem header_le_of_mem_logEntriesFrom {log expectedGuid : Bytes}
    {pos : Nat} {item : Nat × Bytes}
    (member : item ∈ logEntriesFrom log expectedGuid pos) :
    64 ≤ item.2.length := by
  rw [logEntriesFrom_eq] at member
  obtain ⟨offset, visited, kept⟩ := List.mem_filterMap.mp member
  obtain ⟨-, large, inside⟩ := entry_of_mem_visitsFrom visited
  obtain ⟨-, rfl⟩ := keptEntry_eq_some_iff.mp kept
  exact large.trans_eq (length_window_of_le inside).symm

theorem header_le_of_mem_logEntries {log expectedGuid entry : Bytes}
    (member : entry ∈ logEntries log expectedGuid) : 64 ≤ entry.length := by
  obtain ⟨item, sorted, rfl⟩ := List.mem_map.mp member
  exact header_le_of_mem_logEntriesFrom (List.mem_mergeSort.mp sorted)

/-! ## Pending entries -/

/-- The log region of a header, clipped to the container. -/
def logRegion (data : Bytes) (header : VhdxHeader) : Bytes :=
  window data header.logOffset header.logLength

/-- The entries that replay starts from, or the error it ends with. -/
def pendingEntries (data : Bytes) : Exec VhdxError (List Bytes) :=
  match activeHeader data with
  | none => fail .noValidHeader
  | some header =>
      if header.IsClean then .ok []
      else if data.length < header.logOffset + header.logLength then
        fail .offsetOutOfBounds
      else .ok (logEntries (logRegion data header) header.logGuid)

theorem header_le_of_pendingEntries {data : Bytes} {entries : List Bytes}
    (pending : pendingEntries data = .ok entries) :
    ∀ entry ∈ entries, 64 ≤ entry.length := by
  unfold pendingEntries at pending
  split at pending
  · cases pending
  · split at pending
    · cases pending
      simp
    · split at pending
      · cases pending
      · cases pending
        exact fun entry => header_le_of_mem_logEntries

/-- Looking for pending entries settles. -/
theorem settles_pendingEntries (data : Bytes) :
    Settles (pendingEntries data) := by
  unfold pendingEntries
  split
  · exact settles_fail _
  · split
    · exact settles_ok _
    · split
      · exact settles_fail _
      · exact settles_ok _

/-- Replay in place applies the pending entries one after the other. -/
theorem apply_eq {data : Bytes} (allocated : data.length ≤ isizeMax) :
    apply data =
      (pendingEntries data >>= fun entries =>
        entries.foldlM applyEntry data) := by
  unfold isizeMax at allocated
  rw [apply, parseActiveHeader_eq, pendingEntries]
  cases active : activeHeader data with
  | none => rfl
  | some header =>
      obtain ⟨logOffsetLt, logLengthLt⟩ := activeHeader_bounds active
      simp only [okOr_some, ok_bind]
      by_cases clean : header.IsClean
      · rw [if_pos clean, if_pos clean]
        rfl
      · rw [if_neg clean, if_neg clean, failIf_bind]
        by_cases leaves : data.length < header.logOffset + header.logLength
        · rw [if_pos leaves, if_pos (by
            unfold saturatingAdd wordCount
            omega), fail_bind]
        · have logEnd : saturatingAdd header.logOffset header.logLength =
              header.logOffset + header.logLength :=
            saturatingAdd_eq (by unfold wordCount; omega)
          rw [logEnd, if_neg leaves, if_neg leaves,
            slice_eq_ok (by omega) (by omega), ok_bind,
            Nat.add_sub_cancel_left, collectEntries_eq _ (by
              rw [length_window, isizeMax]
              omega)]
          rfl

/-- The overlay records the pending entries one after the other. -/
theorem buildOverlay_eq {backing : Backing}
    (allocated : backing.view.length ≤ isizeMax) :
    (okOr (activeHeader backing.view) .noValidHeader >>=
        buildOverlay backing) =
      (pendingEntries backing.view >>= fun entries =>
        entries.foldlM overlayEntry {}) := by
  unfold isizeMax at allocated
  rw [pendingEntries]
  cases active : activeHeader backing.view with
  | none => rfl
  | some header =>
      obtain ⟨logOffsetLt, logLengthLt⟩ := activeHeader_bounds active
      simp only [okOr_some, ok_bind]
      rw [buildOverlay, Backing.len_eq_length_view]
      by_cases clean : header.IsClean
      · rw [if_pos clean, if_pos clean]
        rfl
      · rw [if_neg clean, if_neg clean, failIf_bind]
        by_cases leaves : backing.view.length <
            header.logOffset + header.logLength
        · rw [if_pos leaves, if_pos (by
            unfold saturatingAdd wordCount
            omega), fail_bind]
        · have logEnd : saturatingAdd header.logOffset header.logLength =
              header.logOffset + header.logLength :=
            saturatingAdd_eq (by unfold wordCount; omega)
          have logPresent : (window backing.view header.logOffset
              header.logLength).length = header.logLength :=
            length_window_of_le (by omega)
          rw [logEnd, if_neg leaves, if_neg leaves,
            Backing.readExactAt_eq backing _ (by rw [isizeMax]; omega),
            ok_bind, failIf_bind, if_neg (by omega),
            collectEntries_eq _ (by
              rw [logPresent, isizeMax]
              omega)]
          rfl

/-! ## Replaying a list of entries -/

/-- The writes of a list of entries in replay order. -/
def entryWrites (entries : List Bytes) : List LogWrite :=
  entries.flatMap LogEntry.writes

section Entries

variable {entries : List Bytes}

/-- Replay in place settles exactly when every entry is safe. -/
theorem settles_foldlM_applyEntry_iff {data : Bytes}
    (small : data.length < wordCount)
    (headers : ∀ entry ∈ entries, 64 ≤ entry.length) :
    Settles (entries.foldlM applyEntry data : Exec ε Bytes) ↔
      ∀ entry ∈ entries, LogEntry.ApplySafe entry :=
  settles_foldlM_iff
    (fun data entry => applyWrites data (LogEntry.writes entry))
    (fun data => data.length < wordCount) LogEntry.ApplySafe small
    (fun entry member data small safe =>
      ⟨applyEntry_eq_ok small (headers entry member) safe,
        by simpa using small⟩)
    (fun entry member data small bad settles =>
      bad ((settles_applyEntry_iff small (headers entry member)).mp settles))

/-- Safe entries are applied one after the other. -/
theorem foldlM_applyEntry_eq_ok {data : Bytes}
    (small : data.length < wordCount)
    (headers : ∀ entry ∈ entries, 64 ≤ entry.length)
    (safe : ∀ entry ∈ entries, LogEntry.ApplySafe entry) :
    (entries.foldlM applyEntry data : Exec ε Bytes) =
      .ok (applyWrites data (entryWrites entries)) := by
  rw [foldlM_eq_ok
    (fun data entry => applyWrites data (LogEntry.writes entry))
    (fun data => data.length < wordCount) small
    (fun entry member data small =>
      ⟨applyEntry_eq_ok small (headers entry member) (safe entry member), by
        simpa using small⟩)]
  apply congrArg Except.ok
  rw [entryWrites, applyWrites, List.foldl_flatMap]
  rfl

/-- Recording settles exactly when every entry is safe. -/
theorem settles_foldlM_overlayEntry_iff (overlay : LogOverlay)
    (headers : ∀ entry ∈ entries, 64 ≤ entry.length) :
    Settles (entries.foldlM overlayEntry overlay : Exec ε LogOverlay) ↔
      ∀ entry ∈ entries, LogEntry.OverlaySafe entry :=
  settles_foldlM_iff
    (fun overlay entry =>
      (LogEntry.writes entry).foldl LogOverlay.record overlay)
    (fun _ => True) LogEntry.OverlaySafe trivial
    (fun entry member _ _ safe =>
      ⟨overlayEntry_eq_ok (headers entry member) safe, trivial⟩)
    (fun entry member _ _ bad settles =>
      bad ((settles_overlayEntry_iff (headers entry member)).mp settles))

/-- Safe entries are recorded one after the other. -/
theorem foldlM_overlayEntry_eq_ok {overlay : LogOverlay}
    (headers : ∀ entry ∈ entries, 64 ≤ entry.length)
    (safe : ∀ entry ∈ entries, LogEntry.OverlaySafe entry) :
    (entries.foldlM overlayEntry overlay : Exec ε LogOverlay) =
      .ok ((entryWrites entries).foldl LogOverlay.record overlay) := by
  rw [foldlM_eq_ok
    (fun overlay entry =>
      (LogEntry.writes entry).foldl LogOverlay.record overlay)
    (fun _ => True) trivial
    (fun entry member _ _ =>
      ⟨overlayEntry_eq_ok (headers entry member) (safe entry member),
        trivial⟩)]
  apply congrArg Except.ok
  rw [entryWrites, List.foldl_flatMap]

end Entries

end VhdxForensic
