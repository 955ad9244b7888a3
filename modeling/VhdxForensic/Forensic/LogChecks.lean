import VhdxForensic.Core.LogEntries
import VhdxForensic.Forensic.HeaderChecks

/-!
# The audit of the log

The analyser walks the log on its own, with the conditions written out a
second time. Its walk is modelled together with its trace: what is found at
every visited entry and what is found where the walk ends.
-/

namespace VhdxForensic

open Rust Rust.Bytes Rust.Exec

/-- The findings of a walk over the log. -/
structure LogAudit where
  /-- Visited offsets with the findings at each. -/
  visits : List (Nat × Findings) := []
  /-- Findings at the offset where the walk ends. -/
  stop : Findings := []
  deriving DecidableEq, Repr

namespace LogAudit

/-- The findings in the order in which they are pushed. -/
def issues (audit : LogAudit) : Findings :=
  audit.visits.flatMap Prod.snd ++ audit.stop

/-- One visit before the rest of the walk. -/
def visit (audit : LogAudit) (pos : Nat) (found : Findings) : LogAudit :=
  { audit with visits := (pos, found) :: audit.visits }

@[simp] theorem visits_visit (audit : LogAudit) (pos : Nat)
    (found : Findings) :
    (audit.visit pos found).visits = (pos, found) :: audit.visits := rfl

@[simp] theorem stop_visit (audit : LogAudit) (pos : Nat)
    (found : Findings) : (audit.visit pos found).stop = audit.stop := rfl

@[simp] theorem issues_visit (audit : LogAudit) (pos : Nat)
    (found : Findings) :
    (audit.visit pos found).issues = found ++ audit.issues := by
  simp [issues]

end LogAudit

/-- Findings about the GUID of an entry. -/
def guidFindings (entryOffset : Nat) (entryGuid headerGuid : Bytes) :
    Findings :=
  if entryGuid ≠ headerGuid then
    [.logEntryGuidMismatch entryOffset entryGuid headerGuid]
  else []

/-- Findings about the step from the previous sequence number. -/
def sequenceFindings (entryOffset : Nat) (prevSeq : Option Nat) (seq : Nat) :
    Findings :=
  match prevSeq with
  | none => []
  | some prev =>
      if seq ≠ wrappingAdd prev 1 then
        [.logSequenceNumberGap entryOffset (wrappingAdd prev 1) seq]
      else []

/-- The loop of `check_log` from `pos` on. -/
def checkLogFrom (logData headerLogGuid : Bytes) (logOffset pos : Nat)
    (prevSeq : Option Nat) : Audit LogAudit := do
  let _ ← add pos 64
  if _atEnd : pos + 64 > logData.length then return {}
  else
    let entryOffset ← add logOffset pos
    let entry ← slice logData pos logData.length
    let signature ← slice entry 0 4
    if signature ≠ logEntrySignature then
      return { stop := [.logEntrySignatureMissing entryOffset] }
    else
      let entryLength := leU32 entry 8
      let entryEnd ← add pos entryLength
      if _badLength : entryLength < 64 ∨ entryEnd > logData.length then
        return {}
      else
        let storedCrc := leU32 entry 4
        let entryBuf ← slice logData pos entryEnd
        let entryBuf ← fill entryBuf 4 8 0
        let computedCrc := crc32c entryBuf
        if computedCrc ≠ storedCrc then
          let rest ← checkLogFrom logData headerLogGuid logOffset
            (pos + entryLength) prevSeq
          return rest.visit pos
            [.logEntryCrcMismatch entryOffset computedCrc storedCrc]
        else
          let entryGuid := leArr16 entry 32
          let seq := leU64 entry 16
          let rest ← checkLogFrom logData headerLogGuid logOffset
            (pos + entryLength) (some seq)
          return rest.visit pos
            (guidFindings entryOffset entryGuid headerLogGuid ++
              sequenceFindings entryOffset prevSeq seq)
termination_by logData.length - pos

/-- `check_log` with the trace of its walk. -/
def auditLog (data : Bytes) : Audit LogAudit := do
  match ← activeHeaderBlock data with
  | none => return {}
  | some active =>
      let logLength := leU32 active 68
      let logOffset := leU64 active 72
      let headerLogGuid := leArr16 active 48
      if logLength = 0 then return {}
      else if headerLogGuid = List.replicate 16 0 then return {}
      else
        let logEnd := saturatingAdd logOffset logLength
        if data.length < logEnd then return {}
        else
          let logData ← slice data logOffset logEnd
          if logData.all (· = 0) then
            return { stop := [.logZeroedButDirty logOffset logLength] }
          else checkLogFrom logData headerLogGuid logOffset 0 none

def checkLog (data : Bytes) : Audit Findings := do
  let audit ← auditLog data
  return audit.issues

/-! ## What the walk computes -/

/-- The entry of `entryLen` bytes at `pos` carries its checksum. -/
def LogEntryChecked (log : Bytes) (pos entryLen : Nat) : Prop :=
  crc32c (clearChecksum (window log pos entryLen)) = leU32 log (pos + 4)

instance (log : Bytes) (pos entryLen : Nat) :
    Decidable (LogEntryChecked log pos entryLen) :=
  inferInstanceAs (Decidable (_ = _))

/-- Sequence number of the entry at `pos`. -/
def sequenceAt (log : Bytes) (pos : Nat) : Nat := leU64 log (pos + 16)

section Walk

variable (log headerGuid : Bytes) (logOffset : Nat)

/-- Findings about the entry at `pos`. -/
def visitFindings (prevSeq : Option Nat) (pos : Nat) : Findings :=
  let entryLen := leU32 log (pos + 8)
  if LogEntryChecked log pos entryLen then
    guidFindings (logOffset + pos) (window log (pos + 32) 16) headerGuid ++
      sequenceFindings (logOffset + pos) prevSeq (sequenceAt log pos)
  else
    [.logEntryCrcMismatch (logOffset + pos)
      (crc32c (clearChecksum (window log pos entryLen)))
      (leU32 log (pos + 4))]

/-- The sequence number that the next entry is compared with. -/
def lastSequence (prevSeq : Option Nat) (pos : Nat) : Option Nat :=
  if LogEntryChecked log pos (leU32 log (pos + 8)) then
    some (sequenceAt log pos)
  else prevSeq

/-- Findings about the offset at which the walk ends. -/
def stopFindings (pos : Nat) : Findings :=
  if pos + 64 ≤ log.length ∧ window log pos 4 ≠ logEntrySignature then
    [.logEntrySignatureMissing (logOffset + pos)]
  else []

/-- The walk from `pos` on. -/
def walkAudit (prevSeq : Option Nat) (pos : Nat) : LogAudit :=
  if _entry : LogEntryAt log pos then
    (walkAudit (lastSequence log prevSeq pos) (nextEntry log pos)).visit pos
      (visitFindings log headerGuid logOffset prevSeq pos)
  else { stop := stopFindings log logOffset pos }
termination_by log.length - pos
decreasing_by
  obtain ⟨-, large, inside⟩ := _entry
  unfold nextEntry
  omega

variable {log headerGuid logOffset}

theorem walkAudit_of_entry {pos : Nat} (prevSeq : Option Nat)
    (entry : LogEntryAt log pos) :
    walkAudit log headerGuid logOffset prevSeq pos =
      (walkAudit log headerGuid logOffset (lastSequence log prevSeq pos)
        (nextEntry log pos)).visit pos
          (visitFindings log headerGuid logOffset prevSeq pos) := by
  rw [walkAudit, dif_pos entry]

theorem walkAudit_of_no_entry {pos : Nat} (prevSeq : Option Nat)
    (ended : ¬ LogEntryAt log pos) :
    walkAudit log headerGuid logOffset prevSeq pos =
      { stop := stopFindings log logOffset pos } := by
  rw [walkAudit, dif_neg ended]

/-- The analyser's walk meets no machine limit. -/
theorem checkLogFrom_eq (allocated : logOffset + log.length ≤ isizeMax)
    (prevSeq : Option Nat) (pos : Nat) (posInside : pos ≤ log.length) :
    checkLogFrom log headerGuid logOffset pos prevSeq =
      .ok (walkAudit log headerGuid logOffset prevSeq pos) := by
  have word : isizeMax + 2 ^ 32 + 64 < wordCount := by decide
  induction pos using visitsFrom.induct log generalizing prevSeq with
  | case1 pos entry inductionHypothesis =>
      obtain ⟨signed, large, inside⟩ := id entry
      have suffixLength : (window log pos (log.length - pos)).length =
          log.length - pos := length_window_of_le (by omega)
      have entryLength : (window log pos (leU32 log (pos + 8))).length =
          leU32 log (pos + 8) := length_window_of_le inside
      rw [checkLogFrom, walkAudit_of_entry prevSeq entry,
        add_eq_ok (by omega), ok_bind, dif_neg (by omega),
        add_eq_ok (by omega), ok_bind, slice_eq_ok (by omega) le_rfl,
        ok_bind, slice_eq_ok (by omega) (by omega), ok_bind,
        window_window_of_le (by omega), Nat.add_zero,
        if_neg (not_not_intro signed)]
      dsimp only
      rw [leU32_window (by omega) (by omega),
        add_eq_ok (by omega), ok_bind, dif_neg (by omega),
        slice_eq_ok (by omega) inside, ok_bind, Nat.add_sub_cancel_left,
        fill_eq_ok 0 (by omega) (by omega), ok_bind,
        leU32_window (by omega) (by omega),
        leU64_window (by omega) (by omega),
        leArr16_window (by omega) (by omega), leArr16_eq_window (by omega)]
      change (if ¬ LogEntryChecked log pos (leU32 log (pos + 8)) then _
        else _) = _
      unfold visitFindings lastSequence
      by_cases checked : LogEntryChecked log pos (leU32 log (pos + 8))
      · rw [if_neg (not_not_intro checked), if_pos checked, if_pos checked]
        have rest := inductionHypothesis (some (sequenceAt log pos)) inside
        unfold nextEntry sequenceAt at rest
        rw [rest, ok_bind]
        rfl
      · have rest := inductionHypothesis prevSeq inside
        unfold nextEntry at rest
        rw [if_pos checked, if_neg checked, if_neg checked, rest, ok_bind]
        rfl
  | case2 pos ended =>
      rw [checkLogFrom, walkAudit_of_no_entry prevSeq ended, stopFindings]
      rw [add_eq_ok (by omega), ok_bind]
      by_cases atEnd : pos + 64 > log.length
      · rw [dif_pos atEnd, if_neg (by omega)]
        rfl
      have suffixLength : (window log pos (log.length - pos)).length =
          log.length - pos := length_window_of_le (by omega)
      rw [dif_neg atEnd, add_eq_ok (by omega), ok_bind,
        slice_eq_ok (by omega) le_rfl, ok_bind,
        slice_eq_ok (by omega) (by omega), ok_bind,
        window_window_of_le (by omega), Nat.add_zero]
      by_cases signed : window log pos 4 = logEntrySignature
      case neg =>
        rw [if_pos signed, if_pos ⟨by omega, signed⟩]
        rfl
      have lengthLt := leU32_lt log (pos + 8)
      rw [if_neg (not_not_intro signed), if_neg fun both => both.2 signed]
      dsimp only
      rw [leU32_window (by omega) (by omega), add_eq_ok (by omega), ok_bind,
        dif_pos]
      · rfl
      · by_contra inRange
        exact ended ⟨signed, by omega, by omega⟩

/-- The analyser visits the offsets that the replay visits. -/
theorem map_fst_walkAudit (prevSeq : Option Nat) (pos : Nat) :
    (walkAudit log headerGuid logOffset prevSeq pos).visits.map Prod.fst =
      visitsFrom log pos := by
  induction pos using visitsFrom.induct log generalizing prevSeq with
  | case1 pos entry inductionHypothesis =>
      rw [walkAudit_of_entry prevSeq entry, visitsFrom_of_entry entry,
        LogAudit.visits_visit, List.map_cons, inductionHypothesis]
  | case2 pos ended =>
      rw [walkAudit_of_no_entry prevSeq ended, visitsFrom_of_no_entry ended]
      rfl

end Walk

/-! ## Reported damage -/

/-- A checksum or GUID mismatch is reported at the offset. -/
def DamageReported (findings : Findings) (entryOffset : Nat) : Prop :=
  (∃ computed stored,
    .logEntryCrcMismatch entryOffset computed stored ∈ findings) ∨
  ∃ entryGuid headerGuid,
    .logEntryGuidMismatch entryOffset entryGuid headerGuid ∈ findings

section Damage

variable {log headerGuid : Bytes} {logOffset : Nat}

theorem damageReported_append {first second : Findings} {entryOffset : Nat} :
    DamageReported (first ++ second) entryOffset ↔
      DamageReported first entryOffset ∨
        DamageReported second entryOffset := by
  simp only [DamageReported, List.mem_append, exists_or]
  exact or_or_or_comm

theorem not_damageReported_sequenceFindings {gapOffset entryOffset seq : Nat}
    (prevSeq : Option Nat) :
    ¬ DamageReported (sequenceFindings gapOffset prevSeq seq)
      entryOffset := by
  unfold DamageReported sequenceFindings
  cases prevSeq with
  | none => simp
  | some prev =>
      dsimp only
      split <;> simp

theorem not_damageReported_stopFindings {pos entryOffset : Nat} :
    ¬ DamageReported (stopFindings log logOffset pos) entryOffset := by
  unfold DamageReported stopFindings
  split <;> simp

theorem damageReported_guidFindings {pos entryOffset : Nat}
    {entryGuid : Bytes} :
    DamageReported (guidFindings pos entryGuid headerGuid) entryOffset ↔
      entryOffset = pos ∧ entryGuid ≠ headerGuid := by
  unfold DamageReported guidFindings
  split <;> simp_all

/-- Damage is reported at a visited entry exactly if replay drops it. -/
theorem damageReported_visitFindings {pos entryOffset : Nat}
    (prevSeq : Option Nat) :
    DamageReported (visitFindings log headerGuid logOffset prevSeq pos)
        entryOffset ↔
      entryOffset = logOffset + pos ∧
        keptEntry log headerGuid pos = none := by
  rw [keptEntry_eq_none_iff, visitFindings]
  by_cases checked : LogEntryChecked log pos (leU32 log (pos + 8))
  · rw [if_pos checked, damageReported_append, damageReported_guidFindings]
    constructor
    · rintro (⟨here, foreign⟩ | gap)
      · exact ⟨here, fun valid => foreign valid.2⟩
      · exact absurd gap (not_damageReported_sequenceFindings prevSeq)
    · rintro ⟨here, invalid⟩
      exact Or.inl ⟨here, fun named => invalid ⟨checked, named⟩⟩
  · rw [if_neg checked]
    have invalid : ¬ LogEntryValid log headerGuid pos
        (leU32 log (pos + 8)) := fun valid => checked valid.1
    simp [DamageReported, invalid]

/-- Damage reported on a walk lies at a visited entry that replay drops. -/
theorem damageReported_walkAudit {start entryOffset : Nat}
    (prevSeq : Option Nat) :
    DamageReported (walkAudit log headerGuid logOffset prevSeq start).issues
        entryOffset ↔
      ∃ pos ∈ visitsFrom log start, entryOffset = logOffset + pos ∧
        keptEntry log headerGuid pos = none := by
  induction start using visitsFrom.induct log generalizing prevSeq with
  | case1 start entry inductionHypothesis =>
      rw [walkAudit_of_entry prevSeq entry, visitsFrom_of_entry entry,
        LogAudit.issues_visit, damageReported_append,
        damageReported_visitFindings, inductionHypothesis]
      simp
  | case2 start ended =>
      rw [walkAudit_of_no_entry prevSeq ended, visitsFrom_of_no_entry ended]
      exact iff_of_false not_damageReported_stopFindings (by simp)

end Damage

/-! ## The audit of a container -/

section Container

variable {data : Bytes} {header : VhdxHeader}

/-- No entry stands at the start of a log of zeros. -/
theorem not_entry_of_zero {log : Bytes} (zero : log.all (· = 0) = true) :
    ¬ LogEntryAt log 0 := by
  rintro ⟨signed, -, -⟩
  have first : logEntrySignature[0]? = some 0x6C := rfl
  rw [← signed, getElem?_window, if_pos (by norm_num)] at first
  have member := List.mem_of_getElem? first
  have value := List.all_eq_true.mp zero _ member
  exact absurd value (by decide)

/-- The log of a container is walked unless it holds only zeros. -/
theorem auditLog_eq (allocated : data.length ≤ isizeMax)
    (active : activeHeader data = some header)
    (nonempty : header.logLength ≠ 0)
    (named : header.logGuid ≠ List.replicate 16 0)
    (inside : header.logOffset + header.logLength ≤ data.length) :
    auditLog data =
      .ok (if (logRegion data header).all (· = 0) then
        { stop := [.logZeroedButDirty header.logOffset header.logLength] }
      else walkAudit (logRegion data header) header.logGuid header.logOffset
        none 0) := by
  obtain ⟨block, found, logLength, logOffset, logGuid⟩ :=
    activeHeaderBlock_of_active active
  have word : isizeMax < wordCount := by decide
  have regionLength : (logRegion data header).length = header.logLength :=
    length_window_of_le inside
  rw [auditLog, found, ok_bind]
  dsimp only
  rw [logLength, logOffset, logGuid, if_neg nonempty, if_neg named,
    saturatingAdd_eq (by omega), if_neg (by omega),
    slice_eq_ok (by omega) inside, ok_bind, Nat.add_sub_cancel_left]
  change (if (logRegion data header).all (· = 0) = true then _ else
    checkLogFrom (logRegion data header) _ _ _ _) = _
  split
  · rfl
  · exact checkLogFrom_eq (by omega) none 0 (by omega)

theorem auditLog_of_empty (active : activeHeader data = some header)
    (empty : header.logLength = 0) : auditLog data = .ok {} := by
  obtain ⟨block, found, logLength, -, -⟩ := activeHeaderBlock_of_active active
  rw [auditLog, found, ok_bind]
  dsimp only
  rw [logLength, if_pos empty]
  rfl

/-- The audit of the log of the active header. -/
def logAuditOf (data : Bytes) : LogAudit :=
  match activeHeader data with
  | none => {}
  | some header =>
      if header.logLength = 0 ∨ header.logGuid = List.replicate 16 0 ∨
          data.length < header.logOffset + header.logLength then {}
      else if (logRegion data header).all (· = 0) then
        { stop := [.logZeroedButDirty header.logOffset header.logLength] }
      else walkAudit (logRegion data header) header.logGuid header.logOffset
        none 0

/-- The audit of a log meets no machine limit. -/
theorem auditLog_eq_ok (allocated : data.length ≤ isizeMax) :
    auditLog data = .ok (logAuditOf data) := by
  rw [logAuditOf]
  cases active : activeHeader data with
  | none =>
      rw [auditLog, activeHeaderBlock_of_none active]
      rfl
  | some header =>
      dsimp only
      by_cases empty : header.logLength = 0
      · rw [if_pos (Or.inl empty), auditLog_of_empty active empty]
      by_cases unnamed : header.logGuid = List.replicate 16 0
      · obtain ⟨block, found, logLength, -, logGuid⟩ :=
          activeHeaderBlock_of_active active
        rw [if_pos (Or.inr (Or.inl unnamed)), auditLog, found, ok_bind]
        dsimp only
        rw [logLength, logGuid, if_neg empty, if_pos unnamed]
        rfl
      by_cases inside : header.logOffset + header.logLength ≤ data.length
      · rw [if_neg fun gated => by
          rcases gated with zero | unnamed' | outside
          · exact empty zero
          · exact unnamed unnamed'
          · omega]
        exact auditLog_eq allocated active empty unnamed inside
      · obtain ⟨block, found, logLength, logOffset, logGuid⟩ :=
          activeHeaderBlock_of_active active
        have word : isizeMax < wordCount - 1 := by decide
        have ends := @saturatingAdd_le_iff header.logOffset header.logLength
          data.length (by omega)
        rw [if_pos (Or.inr (Or.inr (by omega))), auditLog, found, ok_bind]
        dsimp only
        rw [logLength, logOffset, logGuid, if_neg empty, if_neg unnamed,
          if_pos (by omega)]
        rfl

/-- Findings about the log. -/
def logFindings (data : Bytes) : Findings := (logAuditOf data).issues

theorem checkLog_eq (allocated : data.length ≤ isizeMax) :
    checkLog data = .ok (logFindings data) := by
  rw [checkLog, auditLog_eq_ok allocated]
  rfl

end Container

end VhdxForensic
