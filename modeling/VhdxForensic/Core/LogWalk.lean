import VhdxForensic.Core.Log

/-!
# The walk over the log

A log is walked from its first byte by adding entry lengths. The walk visits
the offsets at which an entry stands and keeps those entries that carry their
checksum and the expected GUID.
-/

namespace VhdxForensic

open Rust Rust.Bytes Rust.Exec

variable {ε : Type}

/-! ## Visited offsets -/

/-- An entry stands at `pos`: it is signed and its length is in range. -/
def LogEntryAt (log : Bytes) (pos : Nat) : Prop :=
  window log pos 4 = logEntrySignature ∧ 64 ≤ leU32 log (pos + 8) ∧
    pos + leU32 log (pos + 8) ≤ log.length

instance (log : Bytes) (pos : Nat) : Decidable (LogEntryAt log pos) :=
  inferInstanceAs (Decidable (_ ∧ _ ∧ _))

/-- The offset behind the entry at `pos`. -/
def nextEntry (log : Bytes) (pos : Nat) : Nat := pos + leU32 log (pos + 8)

/-- The offset is reached from the first byte by adding entry lengths. -/
inductive Reached (log : Bytes) : Nat → Prop where
  | start : Reached log 0
  | next {pos : Nat} (reached : Reached log pos)
      (entry : LogEntryAt log pos) : Reached log (nextEntry log pos)

/-- The offset is reached and holds an entry. -/
def Visited (log : Bytes) (pos : Nat) : Prop :=
  Reached log pos ∧ LogEntryAt log pos

/-- The entry offsets on the walk from `pos` on. -/
def visitsFrom (log : Bytes) (pos : Nat) : List Nat :=
  if _entry : LogEntryAt log pos then
    pos :: visitsFrom log (nextEntry log pos)
  else []
termination_by log.length - pos
decreasing_by
  obtain ⟨-, large, inside⟩ := _entry
  unfold nextEntry
  omega

/-- Where the walk from `pos` ends. -/
def walkEnd (log : Bytes) (pos : Nat) : Nat :=
  if _entry : LogEntryAt log pos then walkEnd log (nextEntry log pos) else pos
termination_by log.length - pos
decreasing_by
  obtain ⟨-, large, inside⟩ := _entry
  unfold nextEntry
  omega

section Visits

variable {log : Bytes}

theorem visitsFrom_of_entry {pos : Nat} (entry : LogEntryAt log pos) :
    visitsFrom log pos = pos :: visitsFrom log (nextEntry log pos) := by
  rw [visitsFrom, dif_pos entry]

theorem visitsFrom_of_no_entry {pos : Nat} (ended : ¬ LogEntryAt log pos) :
    visitsFrom log pos = [] := by
  rw [visitsFrom, dif_neg ended]

theorem walkEnd_of_entry {pos : Nat} (entry : LogEntryAt log pos) :
    walkEnd log pos = walkEnd log (nextEntry log pos) := by
  rw [walkEnd, dif_pos entry]

theorem walkEnd_of_no_entry {pos : Nat} (ended : ¬ LogEntryAt log pos) :
    walkEnd log pos = pos := by
  rw [walkEnd, dif_neg ended]

/-- No entry stands where the walk ends. -/
theorem no_entry_walkEnd (log : Bytes) (pos : Nat) :
    ¬ LogEntryAt log (walkEnd log pos) := by
  induction pos using visitsFrom.induct log with
  | case1 pos entry inductionHypothesis =>
      rwa [walkEnd_of_entry entry]
  | case2 pos ended => rwa [walkEnd_of_no_entry ended]

/-- Where the walk ends is reached. -/
theorem Reached.walkEnd {pos : Nat} (reached : Reached log pos) :
    Reached log (walkEnd log pos) := by
  induction pos using visitsFrom.induct log with
  | case1 pos entry inductionHypothesis =>
      rw [walkEnd_of_entry entry]
      exact inductionHypothesis (reached.next entry)
  | case2 pos ended => rwa [walkEnd_of_no_entry ended]

/-- The walk from a reached offset is the end of the whole walk. -/
theorem Reached.visits_suffix {pos : Nat} (reached : Reached log pos) :
    visitsFrom log pos <:+ visitsFrom log 0 := by
  induction reached with
  | start => exact List.suffix_refl _
  | next _ entry inductionHypothesis =>
      rw [visitsFrom_of_entry entry] at inductionHypothesis
      exact (List.suffix_cons _ _).trans inductionHypothesis

/-- Offsets on the walk from a reached one are visited. -/
theorem visited_of_mem_visitsFrom {start pos : Nat}
    (reached : Reached log start) (member : pos ∈ visitsFrom log start) :
    Visited log pos := by
  induction start using visitsFrom.induct log with
  | case1 start entry inductionHypothesis =>
      rw [visitsFrom_of_entry entry] at member
      rcases List.mem_cons.mp member with rfl | later
      · exact ⟨reached, entry⟩
      · exact inductionHypothesis (reached.next entry) later
  | case2 start ended =>
      rw [visitsFrom_of_no_entry ended] at member
      cases member

/-- The walk goes through the visited offsets. -/
theorem mem_visitsFrom_iff {pos : Nat} :
    pos ∈ visitsFrom log 0 ↔ Visited log pos := by
  constructor
  · exact visited_of_mem_visitsFrom .start
  · rintro ⟨reached, entry⟩
    apply reached.visits_suffix.subset
    rw [visitsFrom_of_entry entry]
    exact List.mem_cons_self

/-- There is an entry at every offset of the walk. -/
theorem entry_of_mem_visitsFrom {start pos : Nat}
    (member : pos ∈ visitsFrom log start) : LogEntryAt log pos := by
  induction start using visitsFrom.induct log with
  | case1 start entry inductionHypothesis =>
      rw [visitsFrom_of_entry entry] at member
      rcases List.mem_cons.mp member with rfl | later
      · exact entry
      · exact inductionHypothesis later
  | case2 start ended =>
      rw [visitsFrom_of_no_entry ended] at member
      cases member

/-- No offset of the walk lies before its start. -/
theorem le_of_mem_visitsFrom {start pos : Nat}
    (member : pos ∈ visitsFrom log start) : start ≤ pos := by
  induction start using visitsFrom.induct log with
  | case1 start entry inductionHypothesis =>
      rw [visitsFrom_of_entry entry] at member
      rcases List.mem_cons.mp member with rfl | later
      · exact le_rfl
      · have := inductionHypothesis later
        unfold nextEntry at this
        omega
  | case2 start ended =>
      rw [visitsFrom_of_no_entry ended] at member
      cases member

/-- The walk goes forward. -/
theorem visitsFrom_ascending (log : Bytes) (start : Nat) :
    (visitsFrom log start).Pairwise (· < ·) := by
  induction start using visitsFrom.induct log with
  | case1 start entry inductionHypothesis =>
      rw [visitsFrom_of_entry entry]
      refine List.Pairwise.cons (fun later member => ?_) inductionHypothesis
      have large := entry.2.1
      have behind := le_of_mem_visitsFrom member
      unfold nextEntry at behind
      omega
  | case2 start ended =>
      rw [visitsFrom_of_no_entry ended]
      exact List.Pairwise.nil

end Visits

/-! ## Kept entries -/

/-- The entry of `entryLen` bytes at `pos` carries its checksum and the
expected GUID. -/
def LogEntryValid (log expectedGuid : Bytes) (pos entryLen : Nat) : Prop :=
  crc32c (clearChecksum (window log pos entryLen)) = leU32 log (pos + 4) ∧
    window log (pos + 32) 16 = expectedGuid

instance (log expectedGuid : Bytes) (pos entryLen : Nat) :
    Decidable (LogEntryValid log expectedGuid pos entryLen) :=
  inferInstanceAs (Decidable (_ ∧ _))

/-- What replay keeps of the entry at `pos`: its sequence number and its
bytes. -/
def keptEntry (log expectedGuid : Bytes) (pos : Nat) :
    Option (Nat × Bytes) :=
  let entryLen := leU32 log (pos + 8)
  if LogEntryValid log expectedGuid pos entryLen then
    some (leU64 log (pos + 16), window log pos entryLen)
  else none

/-- A valid entry is kept whole. -/
theorem keptEntry_eq_some_iff {log expectedGuid : Bytes} {pos : Nat}
    {item : Nat × Bytes} :
    keptEntry log expectedGuid pos = some item ↔
      LogEntryValid log expectedGuid pos (leU32 log (pos + 8)) ∧
        item =
          (leU64 log (pos + 16), window log pos (leU32 log (pos + 8))) := by
  unfold keptEntry
  dsimp only
  split
  · rename_i valid
    simp [valid, eq_comm]
  · rename_i invalid
    simp [invalid]

/-- An entry is dropped exactly if it is not valid. -/
theorem keptEntry_eq_none_iff {log expectedGuid : Bytes} {pos : Nat} :
    keptEntry log expectedGuid pos = none ↔
      ¬ LogEntryValid log expectedGuid pos (leU32 log (pos + 8)) := by
  unfold keptEntry
  dsimp only
  split <;> simp_all

/-- Bytes of the entry at `pos`. -/
def entryBytes (log : Bytes) (pos : Nat) : Bytes :=
  window log pos (leU32 log (pos + 8))

/-- The entries lie side by side in the log from one offset to another, and
each of them is valid. -/
inductive Tiles (log expectedGuid : Bytes) : Nat → List Bytes → Nat → Prop
    where
  | nil (pos : Nat) : Tiles log expectedGuid pos [] pos
  | cons {pos stop : Nat} {rest : List Bytes} (entry : LogEntryAt log pos)
      (valid : LogEntryValid log expectedGuid pos (leU32 log (pos + 8)))
      (tail : Tiles log expectedGuid (nextEntry log pos) rest stop) :
      Tiles log expectedGuid pos (entryBytes log pos :: rest) stop

section Tiles

variable {log expectedGuid : Bytes}

/-- Visited entries that are all valid tile the log up to the end of the
walk. -/
theorem tiles_visits {start : Nat}
    (valid : ∀ pos ∈ visitsFrom log start,
      LogEntryValid log expectedGuid pos (leU32 log (pos + 8))) :
    Tiles log expectedGuid start ((visitsFrom log start).map (entryBytes log))
      (walkEnd log start) := by
  induction start using visitsFrom.induct log with
  | case1 start entry inductionHypothesis =>
      rw [visitsFrom_of_entry entry, List.forall_mem_cons] at valid
      rw [visitsFrom_of_entry entry, walkEnd_of_entry entry, List.map_cons]
      exact .cons entry valid.1 (inductionHypothesis valid.2)
  | case2 start ended =>
      rw [visitsFrom_of_no_entry ended, walkEnd_of_no_entry ended]
      exact .nil start

/-- A tiling that leaves no room for a header holds every entry that is
visited. -/
theorem Tiles.entries_eq {start stop : Nat} {entries : List Bytes}
    (tiles : Tiles log expectedGuid start entries stop)
    (full : log.length < stop + 64) :
    entries = (visitsFrom log start).map (entryBytes log) := by
  induction tiles with
  | nil pos =>
      rw [visitsFrom_of_no_entry]
      · rfl
      · rintro ⟨-, large, inside⟩
        omega
  | cons entry _ _ inductionHypothesis =>
      rw [visitsFrom_of_entry entry, List.map_cons, inductionHypothesis full]

/-- Every reached offset lies on such a tiling. -/
theorem Tiles.of_reached {stop pos : Nat} {entries : List Bytes}
    (tiles : Tiles log expectedGuid 0 entries stop)
    (full : log.length < stop + 64) (reached : Reached log pos) :
    ∃ rest, Tiles log expectedGuid pos rest stop := by
  induction reached with
  | start => exact ⟨entries, tiles⟩
  | next _ entry inductionHypothesis =>
      obtain ⟨rest, tail⟩ := inductionHypothesis
      cases tail with
      | nil =>
          obtain ⟨-, large, inside⟩ := entry
          omega
      | cons _ _ tail => exact ⟨_, tail⟩

end Tiles

/-- The walk of `collectFrom` with its trace: every entry offset next to what
is kept of the entry. -/
def collectTrace (log expectedGuid : Bytes) (pos : Nat) :
    Exec ε (List (Nat × Option (Nat × Bytes))) := do
  let _ ← add pos 64
  if _atEnd : pos + 64 > log.length then return []
  else
    let signature ← slice log pos (pos + 4)
    if signature ≠ logEntrySignature then return []
    else
      let entryLen := leU32 log (pos + 8)
      let entryEnd ← add pos entryLen
      if _tooShort : entryLen < 64 ∨ entryEnd > log.length then return []
      else
        let entryBytes ← slice log pos entryEnd
        let stored := leU32 entryBytes 4
        let tmp ← fill entryBytes 4 8 0
        if crc32c tmp ≠ stored then
          let rest ← collectTrace log expectedGuid (pos + entryLen)
          return (pos, none) :: rest
        else if leArr16 entryBytes 32 ≠ expectedGuid then
          let rest ← collectTrace log expectedGuid (pos + entryLen)
          return (pos, none) :: rest
        else
          let rest ← collectTrace log expectedGuid (pos + entryLen)
          return (pos, some (leU64 entryBytes 16, entryBytes)) :: rest
termination_by log.length - pos

/-- Forgetting the offsets leaves the walk as it is. -/
theorem collectFrom_eq_trace (log expectedGuid : Bytes) (pos : Nat) :
    (collectFrom log expectedGuid pos : Exec ε (List (Nat × Bytes))) =
      (collectTrace log expectedGuid pos >>= fun trace =>
        return trace.filterMap Prod.snd) := by
  induction remaining : log.length - pos using Nat.strong_induction_on
    generalizing pos with
  | _ remaining inductionHypothesis =>
      subst remaining
      rw [collectFrom, collectTrace, bind_assoc]
      refine bind_congr fun _ => ?_
      by_cases ended : pos + 64 > log.length
      · rw [dif_pos ended, dif_pos ended]
        rfl
      rw [dif_neg ended, dif_neg ended, bind_assoc]
      refine bind_congr fun signature => ?_
      by_cases unsigned : signature ≠ logEntrySignature
      · rw [if_pos unsigned, if_pos unsigned]
        rfl
      rw [if_neg unsigned, if_neg unsigned, bind_assoc]
      refine bind_congr fun entryEnd => ?_
      by_cases short : leU32 log (pos + 8) < 64 ∨ entryEnd > log.length
      · rw [dif_pos short, dif_pos short]
        rfl
      have rest := inductionHypothesis
        (log.length - (pos + leU32 log (pos + 8))) (by omega)
        (pos + leU32 log (pos + 8)) rfl
      rw [dif_neg short, dif_neg short, bind_assoc, rest]
      refine bind_congr fun entryBytes => ?_
      dsimp only
      rw [bind_assoc, bind_assoc]
      refine bind_congr fun tmp => ?_
      by_cases damaged : crc32c tmp ≠ leU32 entryBytes 4
      · rw [if_pos damaged, if_pos damaged, bind_assoc]
        rfl
      rw [if_neg damaged, if_neg damaged]
      by_cases foreign : leArr16 entryBytes 32 ≠ expectedGuid
      · rw [if_pos foreign, if_pos foreign, bind_assoc]
        rfl
      · rw [if_neg foreign, if_neg foreign, bind_assoc]
        rfl

/-- The walk visits the entry offsets and meets no machine limit. -/
theorem collectTrace_eq {log : Bytes} (expectedGuid : Bytes)
    (allocated : log.length ≤ isizeMax) (pos : Nat)
    (posInside : pos ≤ log.length) :
    (collectTrace log expectedGuid pos :
        Exec ε (List (Nat × Option (Nat × Bytes)))) =
      .ok ((visitsFrom log pos).map fun offset =>
        (offset, keptEntry log expectedGuid offset)) := by
  unfold isizeMax at allocated
  -- Every entry is at least 64 bytes long, so the rest of the log shrinks.
  induction pos using visitsFrom.induct log with
  | case1 pos entry inductionHypothesis =>
      obtain ⟨signed, large, inside⟩ := id entry
      have entryLength : (window log pos (leU32 log (pos + 8))).length =
          leU32 log (pos + 8) := length_window_of_le inside
      have rest := inductionHypothesis inside
      unfold nextEntry at rest
      rw [collectTrace, visitsFrom_of_entry entry, List.map_cons,
        add_eq_ok (by unfold wordCount; omega), ok_bind,
        dif_neg (by omega), slice_eq_ok (by omega) (by omega), ok_bind,
        Nat.add_sub_cancel_left, if_neg (not_not_intro signed)]
      dsimp only
      rw [add_eq_ok (by unfold wordCount; omega), ok_bind,
        dif_neg (by omega), slice_eq_ok (by omega) inside, ok_bind,
        Nat.add_sub_cancel_left, fill_eq_ok 0 (by omega) (by omega), ok_bind,
        leU32_window (by omega) inside, leArr16_window (by omega) inside,
        leU64_window (by omega) inside, leArr16_eq_window (by omega), rest,
        ok_bind, keptEntry]
      change (if crc32c (clearChecksum _) ≠ _ then _ else _) = _
      by_cases checked : crc32c (clearChecksum
          (window log pos (leU32 log (pos + 8)))) = leU32 log (pos + 4)
      · rw [if_neg (not_not_intro checked)]
        by_cases named : window log (pos + 32) 16 = expectedGuid
        · rw [if_neg (not_not_intro named), if_pos ⟨checked, named⟩]
          rfl
        · rw [if_pos named, if_neg fun valid => named valid.2]
          rfl
      · rw [if_pos checked, if_neg fun valid => checked valid.1]
        rfl
  | case2 pos ended =>
      rw [collectTrace, visitsFrom_of_no_entry ended,
        add_eq_ok (by unfold wordCount; omega), ok_bind]
      by_cases atEnd : pos + 64 > log.length
      · rw [dif_pos atEnd]
        rfl
      rw [dif_neg atEnd, slice_eq_ok (by omega) (by omega), ok_bind,
        Nat.add_sub_cancel_left]
      by_cases signed : window log pos 4 = logEntrySignature
      case neg =>
        rw [if_pos signed]
        rfl
      have lengthLt := leU32_lt log (pos + 8)
      rw [if_neg (not_not_intro signed)]
      dsimp only
      rw [add_eq_ok (by unfold wordCount; omega), ok_bind, dif_pos]
      · rfl
      · by_contra inRange
        exact ended ⟨signed, by omega, by omega⟩

end VhdxForensic
