import VhdxForensic.Forensic.LogChecks
import VhdxForensic.Core.OpenEquivalence
import VhdxForensic.Core.OverlayBytes
import VhdxForensic.Rust.Sort

/-!
# The audit and the replay of the log

Both walks over the log visit the same entries, and the audit reports exactly
the entries that replay drops. A clean audit still does not mean that the log
is replayed in full: this module determines when it does.
-/

namespace VhdxForensic

open Rust Rust.Bytes Rust.Exec LogEntry

/-! ## Lock step -/

/-- The entries are the kept ones in ascending order of their sequence
numbers, and in the order of the log where these are equal. -/
def InReplayOrder (kept : List (Nat × Bytes)) (entries : List Bytes) : Prop :=
  ∃ sorted : List (Nat × Bytes), entries = sorted.map Prod.snd ∧
    sorted.Perm kept ∧ sorted.Pairwise (fun a b => a.1 ≤ b.1) ∧
    ∀ seq, sorted.filter (fun item => item.1 = seq) =
      kept.filter fun item => item.1 = seq

/-- An audit, the trace of a replay and its entries agree entry by entry. -/
structure WalkersAgree (log : Bytes) (logOffset : Nat) (audit : LogAudit)
    (trace : List (Nat × Option (Nat × Bytes))) (entries : List Bytes) :
    Prop where
  /-- Both walks visit the same offsets in the same order. -/
  sameVisits : audit.visits.map Prod.fst = trace.map Prod.fst
  /-- They go forward. -/
  ascending : (trace.map Prod.fst).Pairwise (· < ·)
  /-- Visited are the offsets that are reached and hold an entry. -/
  visits : ∀ pos, pos ∈ trace.map Prod.fst ↔ Visited log pos
  /-- An entry is dropped exactly if damage is reported for it. -/
  missing : ∀ pos kept, (pos, kept) ∈ trace →
    (kept = none ↔ DamageReported audit.issues (logOffset + pos))
  /-- An entry that is not dropped is taken whole. -/
  wholeEntries : ∀ pos seq entry, (pos, some (seq, entry)) ∈ trace →
    seq = sequenceAt log pos ∧
      entry = window log pos (leU32 log (pos + 8))
  /-- The result has all of these in the order of replay. -/
  replayed : InReplayOrder (trace.filterMap Prod.snd) entries

section LockStep

variable {log headerGuid : Bytes} {logOffset : Nat}

theorem inReplayOrder_logEntries (log headerGuid : Bytes) :
    InReplayOrder (logEntriesFrom log headerGuid 0)
      (logEntries log headerGuid) :=
  ⟨_, rfl, List.mergeSort_perm _ _, pairwise_mergeSort_key Prod.fst _,
    filter_mergeSort_key Prod.fst _⟩

/-- The audit of a log that is all zeros or is walked agrees with the
replay. -/
theorem walkersAgree_of_audit {audit : LogAudit}
    (visits : audit.visits.map Prod.fst = visitsFrom log 0)
    (damage : ∀ entryOffset, DamageReported audit.issues entryOffset ↔
      ∃ pos ∈ visitsFrom log 0, entryOffset = logOffset + pos ∧
        keptEntry log headerGuid pos = none) :
    WalkersAgree log logOffset audit
      ((visitsFrom log 0).map fun pos => (pos, keptEntry log headerGuid pos))
      (logEntries log headerGuid) := by
  have offsets : ((visitsFrom log 0).map fun pos =>
      (pos, keptEntry log headerGuid pos)).map Prod.fst =
        visitsFrom log 0 := by
    rw [List.map_map]
    exact List.map_id _
  constructor
  · rw [offsets, visits]
  · rw [offsets]
    exact visitsFrom_ascending log 0
  · intro pos
    rw [offsets, mem_visitsFrom_iff]
  · intro pos kept member
    obtain ⟨offset, visited, same⟩ := List.mem_map.mp member
    obtain ⟨rfl, rfl⟩ := Prod.mk.inj same
    rw [damage]
    constructor
    · exact fun dropped => ⟨offset, visited, rfl, dropped⟩
    · rintro ⟨other, -, sameOffset, dropped⟩
      rwa [show offset = other by omega]
  · intro pos seq entry member
    obtain ⟨offset, visited, same⟩ := List.mem_map.mp member
    obtain ⟨rfl, kept⟩ := Prod.mk.inj same
    exact Prod.mk.inj (keptEntry_eq_some_iff.mp kept).2
  · rw [List.filterMap_map]
    have collected := inReplayOrder_logEntries log headerGuid
    rwa [logEntriesFrom_eq] at collected

end LockStep

variable {header : VhdxHeader}

/-- On every container with a log to replay, the audit and the replay end,
visit the same entries, and the audit reports exactly the entries that the
replay drops. -/
theorem walkers_agree (image : Buffer)
    (active : activeHeader image.bytes = some header)
    (nonempty : header.logLength ≠ 0)
    (named : header.logGuid ≠ List.replicate 16 0)
    (inside : header.logOffset + header.logLength ≤ image.bytes.length) :
    ∃ audit trace entries,
      auditLog image.bytes = .ok audit ∧
      checkLog image.bytes = .ok audit.issues ∧
      (collectTrace (logRegion image.bytes header) header.logGuid 0 :
        Exec VhdxError _) = .ok trace ∧
      (collectEntries (logRegion image.bytes header) header.logGuid :
        Exec VhdxError _) = .ok entries ∧
      WalkersAgree (logRegion image.bytes header) header.logOffset audit trace
        entries := by
  have allocated := image.allocated
  have regionLength : (logRegion image.bytes header).length =
      header.logLength := length_window_of_le inside
  have audited := auditLog_eq allocated active nonempty named inside
  refine ⟨_, _, _, audited, ?_,
    collectTrace_eq header.logGuid (by omega) 0 (by omega),
    collectEntries_eq header.logGuid (by omega), ?_⟩
  · rw [checkLog, audited]
    rfl
  · apply walkersAgree_of_audit
    · split
      · rename_i zero
        rw [visitsFrom_of_no_entry (not_entry_of_zero zero)]
        rfl
      · exact map_fst_walkAudit none 0
    · intro entryOffset
      split
      · rename_i zero
        rw [visitsFrom_of_no_entry (not_entry_of_zero zero)]
        exact iff_of_false (by simp [DamageReported, LogAudit.issues])
          (by simp)
      · exact damageReported_walkAudit none

/-! ## Replay in full -/

/-- Replay applies entries that tile the log from its first byte until there
is no room for a header, in the order in which they lie there. -/
def ReplayedInFull (data : Bytes) (header : VhdxHeader) : Prop :=
  ∃ entries stop,
    (collectEntries (logRegion data header) header.logGuid :
      Exec VhdxError _) = .ok entries ∧
    apply data = entries.foldlM applyEntry data ∧
    Tiles (logRegion data header) header.logGuid 0 entries stop ∧
    (logRegion data header).length < stop + 64

/-- Wherever the walk finds room for a header, it finds a length in range. -/
def LengthsInRange (log : Bytes) : Prop :=
  ∀ pos, Reached log pos → pos + 64 ≤ log.length →
    64 ≤ leU32 log (pos + 8) ∧ pos + leU32 log (pos + 8) ≤ log.length

/-- The largest sequence number stands in the last entry only. -/
def NoSequenceWrap (log : Bytes) : Prop :=
  ∀ pos, Visited log pos → sequenceAt log pos = wordCount - 1 →
    ¬ LogEntryAt log (nextEntry log pos)

section Clean

variable {log headerGuid : Bytes} {logOffset : Nat}

/-- What a visit without findings says about the entry. -/
theorem of_visitFindings_eq_nil {prevSeq : Option Nat} {pos : Nat}
    (clean : visitFindings log headerGuid logOffset prevSeq pos = []) :
    LogEntryValid log headerGuid pos (leU32 log (pos + 8)) ∧
      lastSequence log prevSeq pos = some (sequenceAt log pos) ∧
      ∀ prev, prevSeq = some prev →
        sequenceAt log pos = wrappingAdd prev 1 := by
  unfold visitFindings at clean
  dsimp only at clean
  split at clean
  case isFalse => cases clean
  rename_i checked
  obtain ⟨guidClean, sequenceClean⟩ := List.append_eq_nil_iff.mp clean
  refine ⟨⟨checked, ?_⟩, if_pos checked, ?_⟩
  · by_contra foreign
    simp [guidFindings, foreign] at guidClean
  · rintro prev rfl
    by_contra gap
    simp [sequenceFindings, gap] at sequenceClean

/-- What a walk without findings says about the log. -/
structure CleanWalk (log headerGuid : Bytes) (start : Nat) : Prop where
  /-- Every visited entry is valid. -/
  valid : ∀ pos ∈ visitsFrom log start,
    LogEntryValid log headerGuid pos (leU32 log (pos + 8))
  /-- Sequence numbers go up by one. -/
  steps : ∀ pos ∈ visitsFrom log start,
    LogEntryAt log (nextEntry log pos) →
      sequenceAt log (nextEntry log pos) =
        wrappingAdd (sequenceAt log pos) 1
  /-- Where the walk ends before the end of the log there is a signature. -/
  signed : walkEnd log start + 64 ≤ log.length →
    window log (walkEnd log start) 4 = logEntrySignature

theorem cleanWalk_of_issues_eq_nil {prevSeq : Option Nat} {start : Nat}
    (clean : (walkAudit log headerGuid logOffset prevSeq start).issues = []) :
    CleanWalk log headerGuid start := by
  induction start using visitsFrom.induct log generalizing prevSeq with
  | case1 start entry inductionHypothesis =>
      rw [walkAudit_of_entry prevSeq entry, LogAudit.issues_visit] at clean
      obtain ⟨here, later⟩ := List.append_eq_nil_iff.mp clean
      obtain ⟨valid, last, -⟩ := of_visitFindings_eq_nil here
      rw [last] at later
      obtain ⟨laterValid, laterSteps, signed⟩ := inductionHypothesis later
      constructor
      · rw [visitsFrom_of_entry entry]
        exact List.forall_mem_cons.mpr ⟨valid, laterValid⟩
      · rw [visitsFrom_of_entry entry]
        refine List.forall_mem_cons.mpr ⟨fun next => ?_, laterSteps⟩
        -- The next visit compares its number with this one.
        rw [walkAudit_of_entry _ next, LogAudit.issues_visit] at later
        have compared := of_visitFindings_eq_nil
          (List.append_eq_nil_iff.mp later).1
        exact compared.2.2 _ rfl
      · rwa [walkEnd_of_entry entry]
  | case2 start ended =>
      rw [walkAudit_of_no_entry prevSeq ended] at clean
      constructor
      · simp [visitsFrom_of_no_entry ended]
      · simp [visitsFrom_of_no_entry ended]
      · rw [walkEnd_of_no_entry ended]
        intro room
        by_contra unsigned
        simp [LogAudit.issues, stopFindings, room, unsigned] at clean

/-- Without a wrap the sequence numbers ascend along the walk. -/
theorem CleanWalk.ascending {start : Nat}
    (clean : CleanWalk log headerGuid start) (reached : Reached log start)
    (noWrap : NoSequenceWrap log) :
    ((visitsFrom log start).map (sequenceAt log)).IsChain (· ≤ ·) := by
  induction start using visitsFrom.induct log with
  | case1 start entry inductionHypothesis =>
      have later : CleanWalk log headerGuid (nextEntry log start) := by
        have inWalk : ∀ pos ∈ visitsFrom log (nextEntry log start),
            pos ∈ visitsFrom log start := fun pos member => by
          rw [visitsFrom_of_entry entry]
          exact List.mem_cons_of_mem _ member
        refine ⟨fun pos member => clean.valid pos (inWalk pos member),
          fun pos member => clean.steps pos (inWalk pos member), ?_⟩
        rw [← walkEnd_of_entry entry]
        exact clean.signed
      have tail := inductionHypothesis later (reached.next entry)
      have here : start ∈ visitsFrom log start := by
        rw [visitsFrom_of_entry entry]
        exact List.mem_cons_self
      rw [visitsFrom_of_entry entry]
      by_cases next : LogEntryAt log (nextEntry log start)
      · have step := clean.steps start here next
        have notLast : sequenceAt log start ≠ wordCount - 1 :=
          fun last => noWrap start ⟨reached, entry⟩ last next
        have small : sequenceAt log start < wordCount := leU64_lt _ _
        have below : sequenceAt log start + 1 < wordCount := by omega
        rw [wrappingAdd, Nat.mod_eq_of_lt below] at step
        rw [visitsFrom_of_entry next] at tail ⊢
        exact List.IsChain.cons_cons (by omega) tail
      · rw [visitsFrom_of_no_entry next]
        exact List.isChain_singleton _
  | case2 start ended =>
      rw [visitsFrom_of_no_entry ended]
      exact List.isChain_nil

/-- On a clean walk everything visited is kept. -/
theorem CleanWalk.logEntriesFrom_eq {start : Nat}
    (clean : CleanWalk log headerGuid start) :
    logEntriesFrom log headerGuid start =
      (visitsFrom log start).map fun pos =>
        (sequenceAt log pos, entryBytes log pos) := by
  rw [VhdxForensic.logEntriesFrom_eq, ← List.filterMap_eq_map]
  apply List.filterMap_congr
  intro pos member
  exact keptEntry_eq_some_iff.mpr ⟨clean.valid pos member, rfl⟩

/-- A clean walk is replayed in the order of the log exactly if its sequence
numbers ascend. -/
theorem CleanWalk.logEntries_eq_iff (clean : CleanWalk log headerGuid 0) :
    logEntries log headerGuid = (visitsFrom log 0).map (entryBytes log) ↔
      ((visitsFrom log 0).map (sequenceAt log)).Pairwise (· ≤ ·) := by
  have kept := clean.logEntriesFrom_eq
  rw [logEntries, kept]
  generalize itemsEq : (visitsFrom log 0).map (fun pos =>
    (sequenceAt log pos, entryBytes log pos)) = items
  have keys : items.map Prod.fst = (visitsFrom log 0).map (sequenceAt log) := by
    rw [← itemsEq, List.map_map]
    rfl
  have bytes : items.map Prod.snd =
      (visitsFrom log 0).map (entryBytes log) := by
    rw [← itemsEq, List.map_map]
    rfl
  -- An entry carries its sequence number in its bytes.
  have carried : ∀ item ∈ items, leU64 item.2 16 = item.1 := by
    rw [← itemsEq]
    intro item member
    obtain ⟨pos, visited, rfl⟩ := List.mem_map.mp member
    obtain ⟨-, large, inside⟩ := entry_of_mem_visitsFrom visited
    exact leU64_window (by omega) inside
  rw [← keys, ← bytes, List.pairwise_map]
  constructor
  · intro same
    have sorted := pairwise_mergeSort_key Prod.fst items
    have numbers : ∀ list : List (Nat × Bytes),
        (∀ item ∈ list, leU64 item.2 16 = item.1) →
          list.map Prod.fst = (list.map Prod.snd).map (leU64 · 16) := by
      intro list carriedThere
      rw [List.map_map]
      exact List.map_congr_left fun item member =>
        (carriedThere item member).symm
    have sameKeys : (items.mergeSort fun a b => decide (a.1 ≤ b.1)).map
        Prod.fst = items.map Prod.fst := by
      rw [numbers _ carried, numbers _ fun item member =>
        carried item (List.mem_mergeSort.mp member), same]
    rw [← List.pairwise_map, ← sameKeys, List.pairwise_map]
    exact sorted
  · intro ascending
    rw [List.mergeSort_of_pairwise (ascending.imp fun le => by simpa using le)]

/-- A clean walk is replayed in full exactly if every length it meets is in
range and the sequence numbers do not wrap. -/
theorem CleanWalk.tiles_iff (clean : CleanWalk log headerGuid 0) :
    (∃ stop, Tiles log headerGuid 0 (logEntries log headerGuid) stop ∧
        log.length < stop + 64) ↔
      LengthsInRange log ∧ NoSequenceWrap log := by
  constructor
  · rintro ⟨stop, tiles, full⟩
    constructor
    · intro pos reached room
      obtain ⟨rest, tail⟩ := tiles.of_reached full reached
      cases tail with
      | nil => omega
      | cons entry _ _ => exact entry.2
    · rintro pos ⟨reached, entry⟩ last next
      have ascending := clean.logEntries_eq_iff.mp (tiles.entries_eq full)
      have there := reached.visits_suffix
      rw [visitsFrom_of_entry entry, visitsFrom_of_entry next] at there
      have step := clean.steps pos (there.subset List.mem_cons_self) next
      have inOrder := (ascending.sublist (there.sublist.map _))
      rw [List.map_cons, List.map_cons, List.pairwise_cons] at inOrder
      have le := inOrder.1 _ List.mem_cons_self
      rw [step, last] at le
      exact absurd le (by decide)
  · rintro ⟨lengths, noWrap⟩
    have ascending := (clean.ascending .start noWrap).pairwise
    have ordered := clean.logEntries_eq_iff.mpr ascending
    refine ⟨walkEnd log 0, ?_, ?_⟩
    · rw [ordered]
      exact tiles_visits clean.valid
    · by_contra room
      have reached : Reached log (walkEnd log 0) := Reached.start.walkEnd
      exact no_entry_walkEnd log 0 ⟨clean.signed (by omega),
        lengths _ reached (by omega)⟩

end Clean

variable {header : VhdxHeader}

/-- An audit without findings has walked the log cleanly. -/
theorem cleanWalk_of_checkLog {data : Bytes}
    (allocated : data.length ≤ isizeMax)
    (active : activeHeader data = some header)
    (named : header.logGuid ≠ List.replicate 16 0)
    (inside : header.logOffset + header.logLength ≤ data.length)
    (clean : checkLog data = .ok []) :
    CleanWalk (logRegion data header) header.logGuid 0 := by
  by_cases empty : header.logLength = 0
  · have nothing : logRegion data header = [] := by
      rw [logRegion, empty, window_empty]
    have ended : ¬ LogEntryAt (logRegion data header) 0 := by
      rw [nothing]
      rintro ⟨signed, -, -⟩
      exact absurd signed (by decide)
    constructor
    · simp [visitsFrom_of_no_entry ended]
    · simp [visitsFrom_of_no_entry ended]
    · rw [nothing]
      intro room
      simp at room
  · have audited := auditLog_eq allocated active empty named inside
    rw [checkLog, audited, ok_bind] at clean
    split at clean
    · cases clean
    · exact cleanWalk_of_issues_eq_nil (Except.ok.inj clean)

/-- A clean audit means that the log is replayed in full exactly if every
length that the walk meets is in range and no sequence number wraps. -/
theorem replayedInFull_iff (image : Buffer)
    (active : activeHeader image.bytes = some header)
    (named : header.logGuid ≠ List.replicate 16 0)
    (inside : header.logOffset + header.logLength ≤ image.bytes.length)
    (clean : checkLog image.bytes = .ok []) :
    ReplayedInFull image.bytes header ↔
      LengthsInRange (logRegion image.bytes header) ∧
        NoSequenceWrap (logRegion image.bytes header) := by
  have allocated := image.allocated
  have walked := cleanWalk_of_checkLog allocated active named inside clean
  have regionLength : (logRegion image.bytes header).length =
      header.logLength := length_window_of_le inside
  have collected : (collectEntries (logRegion image.bytes header)
      header.logGuid : Exec VhdxError _) =
        .ok (logEntries (logRegion image.bytes header) header.logGuid) :=
    collectEntries_eq header.logGuid (by omega)
  have applied : apply image.bytes =
      (logEntries (logRegion image.bytes header) header.logGuid).foldlM
        applyEntry image.bytes := by
    rw [apply_eq allocated, pendingEntries, active]
    dsimp only
    by_cases isClean : header.IsClean
    · have empty : header.logLength = 0 := isClean.resolve_right named
      have nothing : logRegion image.bytes header = [] := by
        rw [logRegion, empty, window_empty]
      rw [if_pos isClean, nothing, logEntries, logEntriesFrom, dif_pos
        (Or.inl (by simp)), List.mergeSort_nil]
      rfl
    · rw [if_neg isClean, if_neg (by omega), ok_bind]
  rw [← walked.tiles_iff, ReplayedInFull, collected, applied]
  constructor
  · rintro ⟨entries, stop, sameEntries, -, tiles, full⟩
    obtain rfl := Except.ok.inj sameEntries
    exact ⟨stop, tiles, full⟩
  · rintro ⟨stop, tiles, full⟩
    exact ⟨_, stop, rfl, rfl, tiles, full⟩

/-! ## Small logs -/

/-- A log that fits into the smallest container, behind its region tables. -/
structure SmallLog (size : Nat) (log : Bytes) : Prop where
  /-- The log is not empty. -/
  positive : 0 < size
  /-- It ends in the container. -/
  inside : 0x100000 + size ≤ VhdxReader.minContainerSize
  /-- It is as long as the header says. -/
  length_eq : log.length = size

/-- The smallest container with a given log of `size` bytes. -/
def smallLogContainer (size : Nat) (log : Bytes) : Buffer where
  bytes := dirtyContainer VhdxReader.minContainerSize
    (VhdxReader.dirtyHeader size) log
  allocated := by
    rw [length_dirtyContainer]
    decide

theorem bytes_smallLog (size : Nat) (log : Bytes) :
    (smallLogContainer size log).bytes =
      dirtyContainer VhdxReader.minContainerSize
        (VhdxReader.dirtyHeader size) log := by
  rw [smallLogContainer]

theorem dirtyHeader_named (size : Nat) :
    (VhdxReader.dirtyHeader size).logGuid ≠ List.replicate 16 0 :=
  show List.replicate 16 (1 : UInt8) ≠ List.replicate 16 0 by decide

namespace SmallLog

variable {size : Nat} {log : Bytes}

theorem fits (small : SmallLog size log) :
    DirtyContainerFits VhdxReader.minContainerSize
      (VhdxReader.dirtyHeader size) log := by
  have large : VhdxReader.minContainerSize < 2 ^ 32 := by decide
  have inside := small.inside
  refine VhdxReader.dirtyHeader_fits small.positive small.length_eq.symm
    le_rfl ?_ (by omega)
  rwa [small.length_eq]

theorem activeHeader_eq (small : SmallLog size log) :
    activeHeader (smallLogContainer size log).bytes =
      some (VhdxReader.dirtyHeader size) := by
  rw [bytes_smallLog, small.fits.activeHeader_eq]

theorem logRegion_eq (small : SmallLog size log) :
    logRegion (smallLogContainer size log).bytes
      (VhdxReader.dirtyHeader size) = log := by
  rw [bytes_smallLog, small.fits.logRegion_eq]

theorem region_inside (small : SmallLog size log) :
    (VhdxReader.dirtyHeader size).logOffset +
        (VhdxReader.dirtyHeader size).logLength ≤
      (smallLogContainer size log).bytes.length := by
  rw [bytes_smallLog, length_dirtyContainer]
  exact small.inside

/-- The audit of such a container is the walk over its log. -/
theorem checkLog_eq (small : SmallLog size log)
    (nonzero : log.all (· = 0) = false) :
    checkLog (smallLogContainer size log).bytes =
      .ok (walkAudit log (VhdxReader.dirtyHeader size).logGuid 0x100000 none
        0).issues := by
  rw [checkLog, auditLog_eq (smallLogContainer size log).allocated
    small.activeHeader_eq (Nat.pos_iff_ne_zero.mp small.positive)
    (dirtyHeader_named size) small.region_inside, ok_bind,
    small.logRegion_eq, if_neg (by rw [nonzero]; decide)]
  rfl

end SmallLog

/-- An entry of the log in use is only checked for its sequence number. -/
theorem visitFindings_of_window {log logGuid : Bytes} {pieces : List Run}
    {size pos logOffset : Nat} (prevSeq : Option Nat)
    (fits : LogEntryFits size logGuid pieces)
    (inside : pos + size ≤ log.length)
    (holds : window log pos size = encodeLogEntry size logGuid pieces) :
    visitFindings log logGuid logOffset prevSeq pos =
        sequenceFindings (logOffset + pos) prevSeq
          (leU64 (encodeLogEntry size logGuid pieces) 16) ∧
      lastSequence log prevSeq pos =
        some (leU64 (encodeLogEntry size logGuid pieces) 16) := by
  have header := fits.header_le
  have next := (logEntryAt_of_window fits inside holds).2
  have stored : leU32 log (pos + 8) = size := by
    rw [nextEntry] at next
    omega
  obtain ⟨sealed, named⟩ := logEntryValid_of_window fits inside holds
  have checked : LogEntryChecked log pos size := sealed
  have sequence : sequenceAt log pos =
      leU64 (encodeLogEntry size logGuid pieces) 16 := by
    rw [sequenceAt, ← holds, leU64_window (by omega) inside]
  constructor
  · rw [visitFindings, stored, if_pos checked, guidFindings, named,
      if_neg (not_not_intro rfl), sequence]
    rfl
  · rw [lastSequence, stored, if_pos checked, sequence]

/-- A log whose second entry belongs to another log. -/
def foreignLog : Bytes :=
  clearingEntry (List.replicate 16 1) 1 0x200000 0x1000 ++
    clearingEntry (List.replicate 16 2) 2 0x200800 0x1000

theorem foreignLog_small : SmallLog 192 foreignLog where
  positive := by decide
  inside := by decide
  length_eq := by
    rw [foreignLog, List.length_append, length_clearingEntry rfl,
      length_clearingEntry rfl]

theorem walkers_agree_foreignLog :
    ∃ audit trace entries,
      auditLog (smallLogContainer 192 foreignLog).bytes = .ok audit ∧
      checkLog (smallLogContainer 192 foreignLog).bytes = .ok audit.issues ∧
      (collectTrace (logRegion (smallLogContainer 192 foreignLog).bytes
        (VhdxReader.dirtyHeader 192)) (VhdxReader.dirtyHeader 192).logGuid 0 :
          Exec VhdxError _) = .ok trace ∧
      (collectEntries (logRegion (smallLogContainer 192 foreignLog).bytes
        (VhdxReader.dirtyHeader 192)) (VhdxReader.dirtyHeader 192).logGuid :
          Exec VhdxError _) = .ok entries ∧
      WalkersAgree (logRegion (smallLogContainer 192 foreignLog).bytes
        (VhdxReader.dirtyHeader 192)) (VhdxReader.dirtyHeader 192).logOffset
        audit trace entries :=
  walkers_agree (smallLogContainer 192 foreignLog)
    foreignLog_small.activeHeader_eq (show 192 ≠ 0 by decide)
    (dirtyHeader_named 192) foreignLog_small.region_inside

theorem overlappingLog_small : SmallLog 192 overlappingLog where
  positive := by decide
  inside := by decide
  length_eq := length_overlappingLog

/-- Two valid entries in sequence are audited without findings. -/
theorem checkLog_overlappingLog :
    checkLog (smallLogContainer 192 overlappingLog).bytes = .ok [] := by
  have fits := @clearingEntry_fits (List.replicate 16 1) 1 0x200000 0x1000 rfl
  have fits' :=
    @clearingEntry_fits (List.replicate 16 1) 2 0x200800 0x1000 rfl
  obtain ⟨long, first, second⟩ :=
    windows_pair fits fits' (show overlappingLog = _ from rfl)
  obtain ⟨entry, next⟩ := logEntryAt_of_window fits (by omega) first
  obtain ⟨entry', next'⟩ := logEntryAt_of_window fits' (by omega) second
  have nonzero : overlappingLog.all (· = 0) = false :=
    Bool.eq_false_iff.mpr fun zero => not_entry_of_zero zero entry
  have ended : ¬ LogEntryAt overlappingLog 192 := by
    rintro ⟨-, large, inside⟩
    omega
  have stop : stopFindings overlappingLog 0x100000 192 = [] :=
    if_neg fun both => absurd both.1 (by omega)
  obtain ⟨here, last⟩ := @visitFindings_of_window _ _ _ _ _ 0x100000 none fits
    (by omega) first
  obtain ⟨here', -⟩ := @visitFindings_of_window _ _ _ _ _ 0x100000 (some 1)
    fits' (by omega) second
  have number := @sequence_clearingEntry (List.replicate 16 1) 1 0x200000
    0x1000 rfl (by decide)
  have number' := @sequence_clearingEntry (List.replicate 16 1) 2 0x200800
    0x1000 rfl (by decide)
  rw [clearingEntry] at number number'
  rw [number] at last
  rw [number'] at here'
  rw [overlappingLog_small.checkLog_eq nonzero,
    show (VhdxReader.dirtyHeader 192).logGuid = List.replicate 16 1 from rfl,
    walkAudit_of_entry none entry, LogAudit.issues_visit, here, last, next,
    walkAudit_of_entry (some 1) entry', LogAudit.issues_visit, here', next',
    walkAudit_of_no_entry _ ended, stop]
  rfl

theorem replayedInFull_overlappingLog :
    ReplayedInFull (smallLogContainer 192 overlappingLog).bytes
        (VhdxReader.dirtyHeader 192) ↔
      LengthsInRange (logRegion (smallLogContainer 192 overlappingLog).bytes
        (VhdxReader.dirtyHeader 192)) ∧
      NoSequenceWrap (logRegion (smallLogContainer 192 overlappingLog).bytes
        (VhdxReader.dirtyHeader 192)) :=
  replayedInFull_iff (smallLogContainer 192 overlappingLog)
    overlappingLog_small.activeHeader_eq (dirtyHeader_named 192)
    overlappingLog_small.region_inside checkLog_overlappingLog

/-- An entry signature over a length of zero. -/
def lengthlessLog : Bytes := layout 64 [(0, logEntrySignature)]

theorem length_lengthlessLog : lengthlessLog.length = 64 := length_layout _ _

theorem lengthlessLog_small : SmallLog 64 lengthlessLog where
  positive := by decide
  inside := by decide
  length_eq := length_lengthlessLog

/-- The audit of this log is clean, and none of it is replayed. -/
theorem lengthlessLog_unreported :
    checkLog (smallLogContainer 64 lengthlessLog).bytes = .ok [] ∧
      ¬ ReplayedInFull (smallLogContainer 64 lengthlessLog).bytes
        (VhdxReader.dirtyHeader 64) := by
  have lengthEq := length_lengthlessLog
  have apart : [(0, logEntrySignature)].Pairwise Run.Apart :=
    List.pairwise_singleton _ _
  have signed : window lengthlessLog 0 4 = logEntrySignature :=
    window_layout apart (List.mem_singleton.mpr rfl) rfl (by decide)
  have stored : leU32 lengthlessLog (0 + 8) = 0 :=
    le_layout_gap (by decide) (by simp [logEntrySignature])
  have ended : ¬ LogEntryAt lengthlessLog 0 := by
    rintro ⟨-, large, -⟩
    omega
  have nonzero : lengthlessLog.all (· = 0) = false := by
    rw [Bool.eq_false_iff]
    intro zero
    have first : logEntrySignature[0]? = some 0x6C := rfl
    rw [← signed, getElem?_window, if_pos (by norm_num)] at first
    have value := List.all_eq_true.mp zero _ (List.mem_of_getElem? first)
    exact absurd value (by decide)
  constructor
  · rw [lengthlessLog_small.checkLog_eq nonzero, walkAudit_of_no_entry _ ended,
      stopFindings, if_neg fun both => both.2 signed]
    rfl
  · rintro ⟨entries, stop, collected, -, tiles, full⟩
    rw [lengthlessLog_small.logRegion_eq] at collected tiles full
    rw [tiles.entries_eq full, visitsFrom_of_no_entry ended] at tiles
    cases tiles
    omega

end VhdxForensic
