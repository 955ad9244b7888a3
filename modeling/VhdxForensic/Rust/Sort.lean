import Mathlib

/-!
# Sorting

`slice::sort_by_key` keeps the order of items with equal keys.
`slice::sort_unstable_by_key` promises a permutation in the order of the keys
and leaves the order of equal keys open.
-/

namespace Rust

/-! ## Stable sorting -/

section Stable

variable {α : Type} {key : α → Nat}

/-- A stable sort puts the keys in order. -/
theorem pairwise_mergeSort_key (key : α → Nat) (items : List α) :
    (items.mergeSort fun a b => decide (key a ≤ key b)).Pairwise
      fun a b => key a ≤ key b := by
  have sorted := @List.pairwise_mergeSort α
    (fun a b => decide (key a ≤ key b))
    (fun a b c => by simpa using Nat.le_trans)
    (fun a b => by simpa using Nat.le_total _ _) items
  exact sorted.imp fun le => by simpa using le

/-- Items with one key stay in their order. -/
theorem filter_mergeSort_key (key : α → Nat) (items : List α) (value : Nat) :
    (items.mergeSort fun a b => decide (key a ≤ key b)).filter
        (fun a => key a = value) =
      items.filter fun a => key a = value := by
  have level : (items.filter fun a => key a = value).Pairwise
      fun a b => decide (key a ≤ key b) = true := by
    refine List.pairwise_of_forall_mem_list fun a aMember b bMember => ?_
    have aKey : key a = value := by simpa using (List.mem_filter.mp aMember).2
    have bKey : key b = value := by simpa using (List.mem_filter.mp bMember).2
    simp [aKey, bKey]
  -- The items of the level are a sublist of the result, and there are as many.
  have kept := List.sublist_mergeSort
    (fun a b c => by simpa using Nat.le_trans)
    (fun a b => by simpa using Nat.le_total _ _) level
    (List.filter_sublist (p := fun a => decide (key a = value)))
  have within := kept.filter fun a => decide (key a = value)
  rw [List.filter_filter] at within
  simp only [Bool.and_self] at within
  exact (within.eq_of_length ((List.mergeSort_perm items _).filter _
    |>.length_eq).symm).symm

/-- Sorting items that stand in the order of their positions puts them in the
order of keys and positions. -/
theorem pairwise_mergeSort_lex {position : α → Nat} {items : List α}
    (ascending : items.Pairwise fun a b => position a < position b) :
    (items.mergeSort fun a b => decide (key a ≤ key b)).Pairwise fun a b =>
      key a < key b ∨ key a = key b ∧ position a < position b := by
  rw [List.pairwise_iff_forall_sublist]
  intro a b neighbours
  have le := List.pairwise_iff_forall_sublist.mp
    (pairwise_mergeSort_key key items) neighbours
  rcases le.lt_or_eq with less | same
  · exact Or.inl less
  -- Two items of one level stay in their order.
  have level := neighbours.filter fun item => decide (key item = key a)
  rw [filter_mergeSort_key, List.filter_cons_of_pos (by simp),
    List.filter_cons_of_pos (by simp [same]), List.filter_nil] at level
  exact Or.inr ⟨same, List.pairwise_iff_forall_sublist.mp ascending
    (level.trans List.filter_sublist)⟩

end Stable

/-! ## Neighbours of a sorted list -/

/-- In a list sorted by its keys, equal keys are next to each other. -/
theorem nodup_map_key_iff {α : Type} {key : α → Nat} {items : List α}
    (sorted : items.Pairwise fun a b => key a ≤ key b) :
    (items.map key).Nodup ↔
      ∀ pair ∈ items.zip items.tail, key pair.1 ≠ key pair.2 := by
  induction items with
  | nil => simp
  | cons first rest inductionHypothesis =>
      obtain ⟨below, restSorted⟩ := List.pairwise_cons.mp sorted
      have restIff := inductionHypothesis restSorted
      cases rest with
      | nil => simp
      | cons second rest =>
          have fresh : key first ∉ (second :: rest).map key ↔
              key first ≠ key second := by
            constructor
            · intro absent same
              exact absent (by simp [same])
            · intro differs member
              obtain ⟨item, found, same⟩ := List.mem_map.mp member
              have lower := below second (by simp)
              have upper : key second ≤ key item := by
                rcases List.mem_cons.mp found with rfl | later
                · exact le_rfl
                · exact (List.pairwise_cons.mp restSorted).1 item later
              omega
          rw [List.map_cons, List.nodup_cons, restIff, fresh]
          have neighbours : (first :: second :: rest).zip
              (first :: second :: rest).tail =
                (first, second) :: (second :: rest).zip rest := rfl
          rw [neighbours, List.forall_mem_cons]
          rfl

/-! ## Unstable sorting -/

/-- An unstable sort by a key. -/
structure UnstableSort (α : Type) (key : α → Nat) where
  /-- The sorted list. -/
  run : List α → List α
  /-- It has the same items. -/
  perm : ∀ items, (run items).Perm items
  /-- Their keys do not go back. -/
  ordered : ∀ items, (run items).Pairwise fun a b => key a ≤ key b

namespace UnstableSort

variable {α : Type} {key : α → Nat}

theorem mem_run (sorting : UnstableSort α key) {items : List α} {item : α} :
    item ∈ sorting.run items ↔ item ∈ items :=
  (sorting.perm items).mem_iff

/-- Any order of equal keys is possible. -/
theorem exists_run_eq {items sorted : List α} (perm : sorted.Perm items)
    (ordered : sorted.Pairwise fun a b => key a ≤ key b) :
    ∃ sorting : UnstableSort α key, sorting.run items = sorted := by
  classical
  let run (others : List α) : List α :=
    if others = items then sorted
    else others.mergeSort fun a b => decide (key a ≤ key b)
  have runPerm (others : List α) : (run others).Perm others := by
    dsimp only [run]
    split
    · rename_i same
      exact same ▸ perm
    · exact List.mergeSort_perm others _
  have runOrdered (others : List α) :
      (run others).Pairwise fun a b => key a ≤ key b := by
    dsimp only [run]
    split
    · exact ordered
    · exact pairwise_mergeSort_key key others
  exact ⟨⟨run, runPerm, runOrdered⟩, if_pos rfl⟩

/-- A stable sort is one possible behaviour. -/
def stable (key : α → Nat) : UnstableSort α key where
  run items := items.mergeSort fun a b => decide (key a ≤ key b)
  perm items := List.mergeSort_perm items _
  ordered := pairwise_mergeSort_key key

end UnstableSort
end Rust
