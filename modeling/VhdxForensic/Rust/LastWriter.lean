import VhdxForensic.Rust.Runs

/-!
# The last writer

Runs that are replayed in the order of their keys leave every position with
the byte of the covering run that has the greatest key. What a covered
position held before does not matter, so replay can be started again at any
time. Patching the pieces of a buffer one by one comes to the same as patching
the whole.
-/

namespace Rust

variable {κ : Type} [LinearOrder κ]

/-- The item covers the position, and no item with a greater key does. -/
structure LastWriter (items : List (κ × Run)) (pos : Nat) (item : κ × Run) :
    Prop where
  /-- The item is one of the list. -/
  member : item ∈ items
  /-- It covers the position. -/
  covers : item.2.Covers pos
  /-- No item that covers the position has a greater key. -/
  greatest : ∀ other ∈ items, other.2.Covers pos → other.1 ≤ item.1

/-- A position is left alone or settled by its last writer. -/
theorem settle_lastWriter {items : List (κ × Run)}
    (sorted : items.Pairwise fun a b => a.1 < b.1) (pos : Nat) (old : UInt8) :
    (∀ item ∈ items, ¬ item.2.Covers pos) ∧
        settle (items.map Prod.snd) pos old = old ∨
      ∃ item, LastWriter items pos item ∧
        item.2.2[pos - item.2.1]? =
          some (settle (items.map Prod.snd) pos old) := by
  induction items using List.reverseRecOn with
  | nil => exact Or.inl ⟨by simp, rfl⟩
  | append_singleton items last inductionHypothesis =>
      obtain ⟨itemsSorted, -, below⟩ := List.pairwise_append.mp sorted
      have lastStep : settle ((items ++ [last]).map Prod.snd) pos old =
          last.2.put pos (settle (items.map Prod.snd) pos old) := by
        rw [List.map_append, settle_append]
        rfl
      rw [lastStep]
      by_cases covers : last.2.Covers pos
      · refine Or.inr ⟨last, ⟨by simp, covers, ?_⟩,
          Run.put_of_covers _ covers⟩
        intro other member _
        rcases List.mem_append.mp member with earlier | same
        · exact (below other earlier last (by simp)).le
        · rw [List.mem_singleton.mp same]
      rw [Run.put_of_not_covers _ covers]
      rcases inductionHypothesis itemsSorted with
        ⟨missed, unchanged⟩ | ⟨item, writer, byte⟩
      · refine Or.inl ⟨fun item member => ?_, unchanged⟩
        rcases List.mem_append.mp member with earlier | same
        · exact missed item earlier
        · rwa [List.mem_singleton.mp same]
      · refine Or.inr ⟨item, ⟨by simp [writer.member], writer.covers, ?_⟩,
          byte⟩
        intro other member otherCovers
        rcases List.mem_append.mp member with earlier | same
        · exact writer.greatest other earlier otherCovers
        · rw [List.mem_singleton.mp same] at otherCovers
          exact absurd otherCovers covers

/-! ## Replaying again -/

/-- A position that is covered does not show what it held before. -/
theorem settle_eq_of_covers {runs : List Run} {pos : Nat}
    (covered : ∃ run ∈ runs, run.Covers pos) (old old' : UInt8) :
    settle runs pos old = settle runs pos old' := by
  induction runs using List.reverseRecOn with
  | nil =>
      obtain ⟨run, member, -⟩ := covered
      cases member
  | append_singleton runs last inductionHypothesis =>
      rw [settle_append, settle_append]
      change last.put pos _ = last.put pos _
      by_cases covers : last.Covers pos
      · exact Option.some.inj ((Run.put_of_covers _ covers).symm.trans
          (Run.put_of_covers _ covers))
      · obtain ⟨run, member, runCovers⟩ := covered
        rw [Run.put_of_not_covers _ covers, Run.put_of_not_covers _ covers]
        refine inductionHypothesis ⟨run, ?_, runCovers⟩
        rcases List.mem_append.mp member with earlier | same
        · exact earlier
        · rw [List.mem_singleton.mp same] at runCovers
          exact absurd runCovers covers

/-- A buffer that differs from another one only where runs write. -/
structure DiffersUnder (runs : List Run) (base : Nat) (buf other : Bytes) :
    Prop where
  /-- Both buffers have one length. -/
  length_eq : other.length = buf.length
  /-- They agree where no run is. -/
  agree : ∀ index, (∀ run ∈ runs, ¬ run.Covers (base + index)) →
    other[index]? = buf[index]?

/-- Replay makes up for every difference under its runs. -/
theorem DiffersUnder.replayFrom_eq {runs : List Run} {base : Nat}
    {buf other : Bytes} (differs : DiffersUnder runs base buf other) :
    replayFrom base runs other = replayFrom base runs buf := by
  have lengthEq := differs.length_eq
  apply List.ext_getElem?
  intro index
  rw [getElem?_replayFrom, getElem?_replayFrom]
  by_cases covered : ∃ run ∈ runs, run.Covers (base + index)
  · by_cases inside : index < buf.length
    · rw [List.getElem?_eq_getElem inside,
        List.getElem?_eq_getElem (lengthEq ▸ inside),
        Option.map_some, Option.map_some, settle_eq_of_covers covered]
    · rw [List.getElem?_eq_none (by omega),
        List.getElem?_eq_none (by omega)]
  · rw [differs.agree index fun run member covers =>
      covered ⟨run, member, covers⟩]

/-- Replaying some of the runs, in any order, differs only under them. -/
theorem differsUnder_replayFrom {runs some : List Run} {base : Nat}
    {buf : Bytes} (among : some ⊆ runs) :
    DiffersUnder runs base buf (replayFrom base some buf) where
  length_eq := length_replayFrom _ _ _
  agree := by
    intro index missed
    rw [getElem?_replayFrom]
    cases present : buf[index]? with
    | none => rfl
    | some byte =>
        rw [Option.map_some, settle_of_not_covers byte fun run member =>
          missed run (among member)]

/-- Windows off the runs are the same. -/
theorem DiffersUnder.window_eq {runs : List Run} {buf other : Bytes}
    {off count : Nat} (differs : DiffersUnder runs 0 buf other)
    (missed : ∀ run ∈ runs, ∀ pos, off ≤ pos → pos < off + count →
      ¬ run.Covers pos) :
    Bytes.window other off count = Bytes.window buf off count := by
  apply Bytes.window_ext
  intro index indexLt
  apply differs.agree
  intro run member
  rw [Nat.zero_add]
  exact missed run member (off + index) (by omega) (by omega)

/-! ## Pieces of a buffer -/

/-- Replaying over consecutive pieces, each at its own position. -/
def replayPieces (runs : List Run) : Nat → List Bytes → List Bytes
  | _, [] => []
  | base, piece :: rest =>
      replayFrom base runs piece ::
        replayPieces runs (base + piece.length) rest

theorem replayFrom_flatten (runs : List Run) (base : Nat)
    (pieces : List Bytes) :
    (replayPieces runs base pieces).flatten =
      replayFrom base runs pieces.flatten := by
  induction pieces generalizing base with
  | nil => rfl
  | cons piece rest inductionHypothesis =>
      rw [replayPieces, List.flatten_cons, List.flatten_cons,
        inductionHypothesis]
      simp [replayFrom, List.mapIdx_append, Nat.add_assoc,
        Nat.add_comm piece.length]

end Rust
