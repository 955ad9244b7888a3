import VhdxForensic.Core.OverlaySize

/-!
# Starting a replay again

A replay can be interrupted after any of its writes, and in the middle of one.
As long as the log does not write to the headers or to itself, replaying the
interrupted container gives what the replay would have given, and so does
replaying the finished one.
-/

namespace VhdxForensic

open Rust Rust.Bytes Rust.Exec

/-- The runs that replay in place writes. -/
def pendingRuns (data : Bytes) : List Run :=
  match pendingEntries data with
  | .ok entries => ((entryWrites entries).filter fun write =>
      write.LandsIn data.length).map LogWrite.run
  | .error _ => []

/-- The writes of the log spare the header copies and the log itself. -/
structure SparesLog (data : Bytes) : Prop where
  /-- No pending write covers a byte of a header copy. -/
  headers : ∀ run ∈ pendingRuns data, ∀ pos, run.Covers pos →
    ¬ (header1Offset ≤ pos ∧ pos < header1Offset + headerSize) ∧
      ¬ (header2Offset ≤ pos ∧ pos < header2Offset + headerSize)
  /-- No pending write covers a byte of the log. -/
  log : ∀ header ∈ activeHeader data, ∀ run ∈ pendingRuns data, ∀ pos,
    run.Covers pos → ¬ (header.logOffset ≤ pos ∧
      pos < header.logOffset + header.logLength)

/-- A container on the way from `data` to its replayed state, or beyond. -/
abbrev MidReplay (data middle : Bytes) : Prop :=
  DiffersUnder (pendingRuns data) 0 data middle

section Restart

variable {data middle : Bytes}

theorem headerValid_of_window {offset : Nat}
    (lengthEq : middle.length = data.length)
    (same : window middle offset headerSize = window data offset headerSize) :
    HeaderValid middle offset ↔ HeaderValid data offset := by
  by_cases inside : offset + headerSize ≤ data.length
  · exact blockValid_congr (by decide) (by omega) inside same
  · exact iff_of_false (fun valid => inside (lengthEq ▸ valid.1))
      fun valid => inside valid.1

/-- Which header is active shows in the two header copies. -/
theorem activeHeader_of_windows (lengthEq : middle.length = data.length)
    (first : window middle header1Offset headerSize =
      window data header1Offset headerSize)
    (second : window middle header2Offset headerSize =
      window data header2Offset headerSize) :
    activeHeader middle = activeHeader data := by
  have valid1 := headerValid_of_window lengthEq first
  have valid2 := headerValid_of_window lengthEq second
  have fields1 : HeaderValid data header1Offset →
      headerAt middle header1Offset = headerAt data header1Offset :=
    fun valid => headerAt_congr (by rw [lengthEq]; exact valid.1) valid.1 first
  have fields2 : HeaderValid data header2Offset →
      headerAt middle header2Offset = headerAt data header2Offset :=
    fun valid => headerAt_congr (by rw [lengthEq]; exact valid.1) valid.1 second
  have offsets : activeHeaderOffset middle = activeHeaderOffset data := by
    unfold activeHeaderOffset
    by_cases known1 : HeaderValid data header1Offset
    · by_cases known2 : HeaderValid data header2Offset
      · have sequence1 : leU64 middle (header1Offset + 8) =
            leU64 data (header1Offset + 8) :=
          congrArg VhdxHeader.sequenceNumber (fields1 known1)
        have sequence2 : leU64 middle (header2Offset + 8) =
            leU64 data (header2Offset + 8) :=
          congrArg VhdxHeader.sequenceNumber (fields2 known2)
        simp only [valid1, valid2, sequence1, sequence2]
      · simp only [valid1, valid2, known1, known2, if_true, if_false]
    · simp only [valid1, valid2, known1, if_false]
  rw [activeHeader, activeHeader, offsets]
  cases active : activeHeaderOffset data with
  | none => rfl
  | some offset =>
      obtain ⟨rfl | rfl, valid⟩ := activeHeaderOffset_cases active
      · rw [Option.map_some, Option.map_some, fields1 valid]
      · rw [Option.map_some, Option.map_some, fields2 valid]

/-- An interrupted replay does not change which entries are pending. -/
theorem MidReplay.pendingEntries_eq (mid : MidReplay data middle)
    (spares : SparesLog data) :
    pendingEntries middle = pendingEntries data := by
  have lengthEq := mid.length_eq
  have first : window middle header1Offset headerSize =
      window data header1Offset headerSize := mid.window_eq
    fun run member pos low high covers =>
      (spares.headers run member pos covers).1 ⟨low, high⟩
  have second : window middle header2Offset headerSize =
      window data header2Offset headerSize := mid.window_eq
    fun run member pos low high covers =>
      (spares.headers run member pos covers).2 ⟨low, high⟩
  rw [pendingEntries, pendingEntries, activeHeader_of_windows lengthEq first
    second, lengthEq]
  cases active : activeHeader data with
  | none => rfl
  | some header =>
      have log : logRegion middle header = logRegion data header :=
        mid.window_eq fun run member pos low high covers =>
          spares.log header active run member pos covers ⟨low, high⟩
      dsimp only
      rw [log]

/-- What a replay that completes has done. -/
theorem replayed_of_apply (allocated : data.length ≤ isizeMax)
    {out : Bytes} (applied : apply data = .ok out) :
    ∃ entries, pendingEntries data = .ok entries ∧
      (∀ entry ∈ entries, LogEntry.ApplySafe entry) ∧
      out = replayFrom 0 (pendingRuns data) data := by
  have small : data.length < wordCount := Buffer.length_lt ⟨data, allocated⟩
  rw [apply_eq allocated] at applied
  obtain ⟨entries, pending, replayed⟩ := bind_eq_ok.mp applied
  have headers := header_le_of_pendingEntries pending
  have safe := (settles_foldlM_applyEntry_iff small headers).mp
    (.of_eq_ok replayed)
  rw [foldlM_applyEntry_eq_ok small headers safe,
    applyWrites_eq_replayFrom] at replayed
  refine ⟨entries, pending, safe, ?_⟩
  rw [pendingRuns, pending]
  exact (Except.ok.inj replayed).symm

/-- The runs of an interrupted replay are those of the whole one. -/
theorem MidReplay.pendingRuns_eq (mid : MidReplay data middle)
    (spares : SparesLog data) : pendingRuns middle = pendingRuns data := by
  rw [pendingRuns, pendingRuns, mid.pendingEntries_eq spares, mid.length_eq]

/-- The runs that land in place are among those of the overlay. -/
theorem MidReplay.patchedView_eq (mid : MidReplay data middle)
    {entries : List Bytes} {overlay : LogOverlay}
    (headers : ∀ entry ∈ entries, 64 ≤ entry.length)
    (pending : pendingEntries data = .ok entries)
    (recorded : entries.foldlM overlayEntry ({} : LogOverlay) =
      (.ok overlay : Exec VhdxError LogOverlay)) :
    patchedView (.mem middle) overlay = patchedView (.mem data) overlay := by
  have safe := (settles_foldlM_overlayEntry_iff {} headers).mp
    (.of_eq_ok recorded)
  rw [foldlM_overlayEntry_eq_ok headers safe] at recorded
  obtain rfl := Except.ok.inj recorded
  have runs : (((entryWrites entries).foldl LogOverlay.record {}) :
      LogOverlay).runs = ((entryWrites entries).map LogWrite.run).filter
        fun run => decide (run.2 ≠ []) := by
    rw [LogOverlay.runs_foldl_record]
    rfl
  rw [patchedView, patchedView, runs]
  refine DiffersUnder.replayFrom_eq ⟨mid.length_eq, fun index missed => ?_⟩
  refine mid.agree index fun run member covers => ?_
  rw [pendingRuns, pending] at member
  obtain ⟨write, kept, rfl⟩ := List.mem_map.mp member
  have nonempty : write.run.2 ≠ [] := by
    intro empty
    have bounds := covers
    rw [Run.Covers, empty, List.length_nil] at bounds
    omega
  refine missed write.run (List.mem_filter.mpr ⟨?_, decide_eq_true nonempty⟩)
    covers
  exact List.mem_map_of_mem (List.mem_filter.mp kept).1

/-- The overlay of a container as it is opened. -/
def overlayOf (data : Bytes) : Exec VhdxError LogOverlay := do
  let header ← okOr (activeHeader data) .noValidHeader
  buildOverlay (.mem data) header

/-- Replaying the container again, after an interruption or after the end,
in place or through an overlay, ends with `out`. -/
structure Restarts (data out : Bytes) : Prop where
  /-- Every interrupted replay can be completed. -/
  resumed : ∀ middle, MidReplay data middle → apply middle = .ok out
  /-- Some writes in any order are an interrupted replay. -/
  interrupted : ∀ done ⊆ pendingRuns data,
    MidReplay data (replayFrom 0 done data)
  /-- A second replay changes nothing. -/
  again : apply out = .ok out
  /-- The overlay shows the replayed bytes over every interrupted replay. -/
  shown : ∀ middle overlay, MidReplay data middle →
    overlayOf data = .ok overlay →
      overlayOf middle = .ok overlay ∧
        patchedView (.mem middle) overlay = patchedView (.mem data) overlay

end Restart

/-- Replay can be started again at any time, unless the log writes to the
headers or to itself. -/
theorem replay_restarts (image : Buffer) {out : Bytes}
    (applied : apply image.bytes = .ok out) (spares : SparesLog image.bytes) :
    Restarts image.bytes out := by
  have allocated := image.allocated
  obtain ⟨entries, pending, safe, rfl⟩ := replayed_of_apply allocated applied
  have headers := header_le_of_pendingEntries pending
  have resumed : ∀ middle, MidReplay image.bytes middle → apply middle =
      .ok (replayFrom 0 (pendingRuns image.bytes) image.bytes) := by
    intro middle mid
    have middleAllocated : middle.length ≤ isizeMax := by
      rw [mid.length_eq]
      exact allocated
    have small : middle.length < wordCount :=
      Buffer.length_lt ⟨middle, middleAllocated⟩
    have runs := mid.pendingRuns_eq spares
    have samePending := mid.pendingEntries_eq spares
    rw [pending] at samePending
    rw [apply_eq middleAllocated, samePending, ok_bind,
      foldlM_applyEntry_eq_ok small headers safe, applyWrites_eq_replayFrom,
      ← mid.replayFrom_eq, ← runs, pendingRuns, samePending]
  refine ⟨resumed, fun done among => differsUnder_replayFrom among,
    resumed _ (differsUnder_replayFrom (List.Subset.refl _)), ?_⟩
  intro middle overlay mid built
  have middleAllocated : (Backing.mem middle).view.length ≤ isizeMax := by
    rw [Backing.view_mem, mid.length_eq]
    exact allocated
  have samePending := mid.pendingEntries_eq spares
  have recorded : overlayOf image.bytes =
      (pendingEntries image.bytes >>= fun entries =>
        entries.foldlM overlayEntry {}) :=
    @buildOverlay_eq (.mem image.bytes) allocated
  have recordedMiddle : overlayOf middle =
      (pendingEntries middle >>= fun entries =>
        entries.foldlM overlayEntry {}) :=
    @buildOverlay_eq (.mem middle) middleAllocated
  rw [recorded] at built
  refine ⟨by rw [recordedMiddle, samePending, built], ?_⟩
  rw [pending, ok_bind] at built
  exact mid.patchedView_eq headers pending built

/-! ## A log that clears a range -/

section Clearing

variable {count : Nat}

theorem pendingEntries_clearingContainer :
    pendingEntries (clearingContainer count) =
      .ok [clearingEntry (List.replicate 16 1) 1 0x200000 count] := by
  have fits := @clearingContainer_fits count
  have inside : (VhdxReader.dirtyHeader 96).logOffset +
      (VhdxReader.dirtyHeader 96).logLength ≤
        (clearingContainer count).length := by
    rw [length_clearingContainer]
    decide
  have active : activeHeader (clearingContainer count) =
      some (VhdxReader.dirtyHeader 96) := fits.activeHeader_eq
  have log : logRegion (clearingContainer count) (VhdxReader.dirtyHeader 96) =
      clearingEntry (List.replicate 16 1) 1 0x200000 count := fits.logRegion_eq
  rw [pendingEntries, active]
  dsimp only
  rw [if_neg fits.dirty, if_neg (by omega), log]
  exact congrArg Except.ok (logEntries_clearingEntry rfl)

theorem pendingRuns_clearingContainer (countLt : count < 2 ^ 64) :
    pendingRuns (clearingContainer count) =
      [(0x200000, List.replicate count 0)] := by
  rw [pendingRuns, pendingEntries_clearingContainer]
  dsimp only
  rw [entryWrites, List.flatMap_singleton,
    writes_clearingEntry rfl (by decide) countLt, List.filter_eq_self.mpr]
  · rfl
  · intro write member
    rw [List.mem_singleton.mp member]
    exact decide_eq_true LogWrite.landsIn_zeros

/-- The log of that container clears a range behind itself. -/
theorem sparesLog_clearingContainer (countLt : count < 2 ^ 64) :
    SparesLog (clearingContainer count) := by
  have behind : ∀ run ∈ pendingRuns (clearingContainer count), ∀ pos,
      run.Covers pos → 0x200000 ≤ pos := by
    intro run member pos covers
    rw [pendingRuns_clearingContainer countLt, List.mem_singleton] at member
    rw [member] at covers
    exact covers.1
  have numbers : header1Offset + headerSize ≤ 0x200000 ∧
      header2Offset + headerSize ≤ 0x200000 := by decide
  constructor
  · intro run member pos covers
    have low := behind run member pos covers
    omega
  · intro header active run member pos covers
    have low := behind run member pos covers
    have known : activeHeader (clearingContainer count) =
        some (VhdxReader.dirtyHeader 96) :=
      (@clearingContainer_fits count).activeHeader_eq
    obtain rfl := Option.some.inj (known.symm.trans active)
    have placed : (VhdxReader.dirtyHeader 96).logOffset +
        (VhdxReader.dirtyHeader 96).logLength ≤ 0x200000 := by decide
    omega

/-- The replay of such a log completes. -/
theorem apply_of_clearingEntry {data : Bytes} (countLt : count < 2 ^ 64)
    (allocated : data.length ≤ isizeMax)
    (pending : pendingEntries data =
      .ok [clearingEntry (List.replicate 16 1) 1 0x200000 count]) :
    ∃ out, apply data = .ok out := by
  have small : data.length < wordCount := Buffer.length_lt ⟨data, allocated⟩
  rw [apply_eq allocated, pending, ok_bind, foldlM_applyEntry_eq_ok small
    (header_le_of_pendingEntries pending)]
  · exact ⟨_, rfl⟩
  · intro entry member
    rw [List.mem_singleton.mp member]
    refine ⟨tableFits_clearingEntry rfl, ?_⟩
    rw [writes_clearingEntry rfl (by decide) countLt]
    intro write written
    rw [List.mem_singleton.mp written]
    trivial

end Clearing

theorem replay_restarts_clearing :
    ∃ (image : Buffer) (out : Bytes),
      image.bytes = clearingContainer 0x1000 ∧
        apply image.bytes = .ok out ∧ Restarts image.bytes out := by
  have countLt : 0x1000 < 2 ^ 64 := by decide
  have pending := @pendingEntries_clearingContainer 0x1000
  have spares := sparesLog_clearingContainer countLt
  have length := @length_clearingContainer 0x1000
  generalize clearingContainer 0x1000 = data at *
  have allocated : data.length ≤ isizeMax := by
    rw [length]
    decide
  obtain ⟨out, applied⟩ := apply_of_clearingEntry countLt allocated pending
  exact ⟨⟨data, allocated⟩, out, rfl, applied,
    replay_restarts ⟨data, allocated⟩ applied spares⟩

end VhdxForensic
