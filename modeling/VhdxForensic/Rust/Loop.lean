import VhdxForensic.Rust.Exec

/-!
# Counting loops

`for index in 0..count` over a mutable state, where the body may `break`,
return an error or panic. The rules relate a loop whose body is understood
one step at a time to a fold over the indices it visits.
-/

namespace Rust

open Exec

variable {ε σ α : Type}

/-- Run `remaining` passes starting with index `index`. -/
def forFrom (body : Nat → σ → Exec ε (ForInStep σ)) :
    (remaining index : Nat) → σ → Exec ε σ
  | 0, _, state => .ok state
  | remaining + 1, index, state => do
      match ← body index state with
      | .done final => .ok final
      | .yield next => forFrom body remaining (index + 1) next

/-- `for index in 0..count { body }`. -/
def forRange (count : Nat) (body : Nat → σ → Exec ε (ForInStep σ))
    (init : σ) : Exec ε σ :=
  forFrom body count 0 init

/-- State after the first `count` steps. -/
def foldRange (step : Nat → σ → σ) (count : Nat) (init : σ) : σ :=
  (List.range count).foldl (fun state index => step index state) init

@[simp] theorem foldRange_zero (step : Nat → σ → σ) (init : σ) :
    foldRange step 0 init = init := rfl

@[simp] theorem foldRange_succ
    (step : Nat → σ → σ) (count : Nat) (init : σ) :
    foldRange step (count + 1) init =
      step count (foldRange step count init) := by
  simp [foldRange, List.range_succ]

/-- Appending one batch per index collects the batches in index order. -/
theorem foldRange_append (batch : Nat → List α) (count : Nat)
    (init : List α) :
    foldRange (fun index state => state ++ batch index) count init =
      init ++ (List.range count).flatMap batch := by
  induction count with
  | zero => simp
  | succ count inductionHypothesis =>
      rw [foldRange_succ, inductionHypothesis, List.range_succ,
        List.flatMap_append]
      simp

/-- An invariant of the steps holds after any number of them. -/
theorem foldRange_induction {step : Nat → σ → σ} {init : σ}
    (invariant : Nat → σ → Prop)
    (start : invariant 0 init)
    (count : Nat)
    (preserved : ∀ index < count, ∀ state, invariant index state →
      invariant (index + 1) (step index state)) :
    invariant count (foldRange step count init) := by
  induction count with
  | zero => exact start
  | succ count inductionHypothesis =>
      rw [foldRange_succ]
      apply preserved count (by omega)
      exact inductionHypothesis fun index indexLt =>
        preserved index (by omega)

/-- A projection that commutes with the steps commutes with the fold. -/
theorem foldRange_map {τ : Type} {step : Nat → σ → σ} {step' : Nat → τ → τ}
    (project : σ → τ) (count : Nat) (init : σ)
    (same : ∀ index state,
      project (step index state) = step' index (project state)) :
    project (foldRange step count init) =
      foldRange step' count (project init) := by
  induction count with
  | zero => rfl
  | succ count inductionHypothesis =>
      rw [foldRange_succ, foldRange_succ, same, inductionHypothesis]

/-- Two folds in step stay related. -/
theorem foldRange_rel {τ : Type} {step : Nat → σ → σ} {step' : Nat → τ → τ}
    {init : σ} {init' : τ} (relation : σ → τ → Prop)
    (start : relation init init') (count : Nat)
    (preserved : ∀ index < count, ∀ state state', relation state state' →
      relation (step index state) (step' index state')) :
    relation (foldRange step count init) (foldRange step' count init') := by
  induction count with
  | zero => exact start
  | succ count inductionHypothesis =>
      rw [foldRange_succ, foldRange_succ]
      exact preserved count (by omega) _ _ (inductionHypothesis
        fun index indexLt => preserved index (by omega))

/-- The last index below `count` that is accepted. -/
def lastAccepted (accepts : Nat → Prop) [DecidablePred accepts]
    (count : Nat) : Option Nat :=
  ((List.range count).filter accepts).getLast?

/-- A field that accepted indices set keeps the value of the last of them. -/
theorem foldRange_lastAccepted {β : Type} {step : Nat → σ → σ}
    {field : σ → β} {value : Nat → β} {accepts : Nat → Prop}
    [DecidablePred accepts]
    (sets : ∀ index state, field (step index state) =
      if accepts index then value index else field state)
    (count : Nat) (init : σ) :
    field (foldRange step count init) =
      ((lastAccepted accepts count).map value).getD (field init) := by
  induction count with
  | zero => rfl
  | succ count inductionHypothesis =>
      have last : lastAccepted accepts (count + 1) =
          if accepts count then some count
          else lastAccepted accepts count := by
        rw [lastAccepted, List.range_succ, List.filter_append]
        by_cases accepted : accepts count
        · simp [accepted]
        · simp [accepted, lastAccepted]
      rw [foldRange_succ, sets, inductionHypothesis, last]
      split
      · rfl
      · rfl

/-- The last accepted index is accepted. -/
theorem accepts_of_mem_lastAccepted {accepts : Nat → Prop}
    [DecidablePred accepts] {count index : Nat}
    (last : index ∈ lastAccepted accepts count) : accepts index :=
  of_decide_eq_true (List.mem_filter.mp (List.mem_of_getLast? last)).2

/-- An optional field that accepted indices set has the value of the last of
them, or none. -/
theorem foldRange_lastAccepted_some {β : Type} {step : Nat → σ → σ}
    (field : σ → Option β) {value : Nat → β} {accepts : Nat → Prop}
    [DecidablePred accepts] {init : σ}
    (sets : ∀ index state, field (step index state) =
      if accepts index then some (value index) else field state)
    (empty : field init = none) (count : Nat) :
    field (foldRange step count init) =
      (lastAccepted accepts count).map value := by
  rw [foldRange_lastAccepted sets, empty]
  cases lastAccepted accepts count <;> rfl

/-- Folds whose steps agree on every reachable state agree. -/
theorem foldRange_congr {first second : Nat → σ → σ} {count : Nat} {init : σ}
    (same : ∀ index < count, ∀ state, first index state = second index state) :
    foldRange first count init = foldRange second count init := by
  induction count with
  | zero => rfl
  | succ count inductionHypothesis =>
      rw [foldRange_succ, foldRange_succ, same count (by omega),
        inductionHypothesis fun index indexLt => same index (by omega)]

/-- A fold over the indices of a list is a fold over its elements. -/
theorem foldRange_eq_foldl {step : Nat → σ → σ} {record : σ → α → σ}
    (items : List α) (init : σ)
    (same : ∀ index item, items[index]? = some item →
      ∀ state, step index state = record state item) :
    foldRange step items.length init = items.foldl record init := by
  induction items using List.reverseRecOn with
  | nil => rfl
  | append_singleton items item inductionHypothesis =>
      rw [List.length_append, List.length_singleton, foldRange_succ,
        inductionHypothesis fun index earlier found =>
          same index earlier (List.getElem?_append_left (by
            exact (List.getElem?_eq_some_iff.mp found).1) ▸ found),
        same items.length item (by simp), List.foldl_append]
      rfl

/-- After `passed` regular passes the loop is at index `passed` with the
folded state. -/
theorem forFrom_prefix {body : Nat → σ → Exec ε (ForInStep σ)} {init : σ}
    (step : Nat → σ → σ) (passed remaining : Nat)
    (regular : ∀ index < passed,
      body index (foldRange step index init) =
        .ok (.yield (foldRange step (index + 1) init))) :
    forFrom body (passed + remaining) 0 init =
      forFrom body remaining passed (foldRange step passed init) := by
  induction passed generalizing remaining with
  | zero => simp
  | succ passed inductionHypothesis =>
      rw [show passed + 1 + remaining = passed + (remaining + 1) by omega,
        inductionHypothesis (remaining + 1)
          fun index indexLt => regular index (by omega),
        forFrom, regular passed (by omega), ok_bind]

/-- A loop whose passes are all regular returns the folded state. -/
theorem forRange_eq_fold {body : Nat → σ → Exec ε (ForInStep σ)}
    {init : σ} {count : Nat}
    (step : Nat → σ → σ)
    (invariant : Nat → σ → Prop)
    (start : invariant 0 init)
    (regular : ∀ index < count, ∀ state, invariant index state →
      body index state = .ok (.yield (step index state)) ∧
        invariant (index + 1) (step index state)) :
    forRange count body init = .ok (foldRange step count init) := by
  have holds : ∀ index ≤ count,
      invariant index (foldRange step index init) := by
    intro index indexLe
    apply foldRange_induction invariant start
    intro earlier earlierLt state before
    exact (regular earlier (by omega) state before).2
  have reached : forFrom body (count + 0) 0 init =
      forFrom body 0 count (foldRange step count init) := by
    apply forFrom_prefix
    intro index indexLt
    rw [foldRange_succ]
    exact (regular index indexLt _ (holds index (by omega))).1
  simpa [forRange, forFrom] using reached

/-- A loop that breaks at index `stop` returns the state folded so far. -/
theorem forRange_eq_fold_of_break {body : Nat → σ → Exec ε (ForInStep σ)}
    {init : σ} {count stop : Nat}
    (step : Nat → σ → σ)
    (stopLe : stop ≤ count)
    (regular : ∀ index < stop, ∀ state,
      body index state = .ok (.yield (step index state)))
    (breaks : stop < count → ∀ state, body stop state = .ok (.done state)) :
    forRange count body init = .ok (foldRange step stop init) := by
  obtain ⟨rest, rfl⟩ := Nat.exists_eq_add_of_le stopLe
  rw [forRange, forFrom_prefix step stop rest fun index indexLt => by
    rw [foldRange_succ]
    exact regular index indexLt _]
  cases rest with
  | zero => rfl
  | succ rest => rw [forFrom, breaks (by omega), ok_bind]

/-- A loop whose passes either are regular or fail with `e`, depending on
the index alone, folds when none of them fails. -/
theorem forRange_eq_fold_or_fail {body : Nat → σ → Exec ε (ForInStep σ)}
    {init : σ} {count : Nat} {e : ε}
    (step : Nat → σ → σ)
    (passes : Nat → Prop) [DecidablePred passes]
    (regular : ∀ index < count, passes index → ∀ state,
      body index state = .ok (.yield (step index state)))
    (fails : ∀ index < count, ¬ passes index → ∀ state,
      body index state = fail e) :
    forRange count body init =
      if ∀ index < count, passes index then .ok (foldRange step count init)
      else fail e := by
  split
  · rename_i all
    exact forRange_eq_fold step (fun _ _ => True) trivial
      fun index indexLt state _ =>
        ⟨regular index indexLt (all index indexLt) state, trivial⟩
  · rename_i notAll
    have someFails : ∃ index, index < count ∧ ¬ passes index := by
      by_contra none
      exact notAll fun index indexLt => by
        by_contra bad
        exact none ⟨index, indexLt, bad⟩
    -- All passes before the first failing one are regular.
    obtain ⟨firstLt, firstFails⟩ := Nat.find_spec someFails
    have before : ∀ index < Nat.find someFails, passes index := by
      intro index indexLt
      by_contra bad
      exact Nat.find_min someFails indexLt ⟨by omega, bad⟩
    obtain ⟨rest, total⟩ := Nat.exists_eq_add_of_lt firstLt
    rw [forRange, total, Nat.add_assoc, forFrom_prefix step
      (Nat.find someFails) (rest + 1) fun index indexLt => by
        rw [foldRange_succ]
        exact regular index (by omega) (before index indexLt) _,
      forFrom, fails _ firstLt firstFails, fail_bind]

/-- Loops whose bodies agree on the range are the same. -/
theorem forRange_congr {body other : Nat → σ → Exec ε (ForInStep σ)}
    {count : Nat} (same : ∀ index < count, body index = other index)
    (init : σ) : forRange count body init = forRange count other init := by
  have fromIndex : ∀ remaining index state, index + remaining ≤ count →
      forFrom body remaining index state =
        forFrom other remaining index state := by
    intro remaining
    induction remaining with
    | zero => exact fun index state _ => rfl
    | succ remaining inductionHypothesis =>
        intro index state inside
        rw [forFrom, forFrom, same index (by omega)]
        congr 1
        funext outcome
        cases outcome with
        | done final => rfl
        | yield next => exact inductionHypothesis _ next (by omega)
  exact fromIndex count 0 init (by omega)

/-- What every pass of a loop keeps holds of the state it returns. -/
theorem forRange_keeps {body : Nat → σ → Exec ε (ForInStep σ)}
    {keeps : σ → Prop}
    (step : ∀ index state next, keeps state →
      body index state = .ok (.yield next) ∨
        body index state = .ok (.done next) → keeps next)
    {count : Nat} {init final : σ} (start : keeps init)
    (returned : forRange count body init = .ok final) : keeps final := by
  have fromIndex : ∀ remaining index state, keeps state →
      forFrom body remaining index state = .ok final → keeps final := by
    intro remaining
    induction remaining with
    | zero =>
        intro index state holds returned
        cases returned
        exact holds
    | succ remaining inductionHypothesis =>
        intro index state holds returned
        obtain ⟨outcome, passed, rest⟩ := bind_eq_ok.mp returned
        cases outcome with
        | done next =>
            cases rest
            exact step index state _ holds (.inr passed)
        | yield next =>
            exact inductionHypothesis _ _
              (step index state next holds (.inl passed)) rest
  exact fromIndex count 0 init start returned

/-- A loop that settles has a first pass that settles. -/
theorem Settles.first_pass {body : Nat → σ → Exec ε (ForInStep σ)}
    {init : σ} {count : Nat} (settles : Settles (forRange count body init))
    (nonempty : 0 < count) : Settles (body 0 init) := by
  obtain ⟨rest, rfl⟩ := Nat.exists_eq_add_of_lt nonempty
  rw [Nat.zero_add, forRange, forFrom] at settles
  exact settles.of_bind

/-- When every pass is regular under a condition on its index alone and does
not settle without it, the loop settles exactly if all conditions hold. -/
theorem settles_forRange_iff {body : Nat → σ → Exec ε (ForInStep σ)}
    {init : σ} {count : Nat}
    (step : Nat → σ → σ)
    (invariant : Nat → σ → Prop)
    (safe : Nat → Prop)
    (start : invariant 0 init)
    (regular : ∀ index < count, ∀ state, invariant index state → safe index →
      body index state = .ok (.yield (step index state)) ∧
        invariant (index + 1) (step index state))
    (stopsOtherwise : ∀ index < count, ∀ state, invariant index state →
      ¬ safe index → ¬ Settles (body index state)) :
    Settles (forRange count body init) ↔ ∀ index < count, safe index := by
  constructor
  · intro settles index indexLt
    -- Strong induction: all earlier passes are safe, so this one is reached.
    induction index using Nat.strong_induction_on with
    | _ index inductionHypothesis =>
        by_contra bad
        have earlier : ∀ j ≤ index, invariant j (foldRange step j init) := by
          intro j jLe
          apply foldRange_induction invariant start
          intro k kLt state before
          exact (regular k (by omega) state before
            (inductionHypothesis k (by omega) (by omega))).2
        have reached : forFrom body (index + (count - index)) 0 init =
            forFrom body (count - index) index (foldRange step index init) := by
          apply forFrom_prefix
          intro j jLt
          rw [foldRange_succ]
          exact (regular j (by omega) _ (earlier j (by omega))
            (inductionHypothesis j jLt (by omega))).1
        rw [show index + (count - index) = count by omega] at reached
        rw [forRange, reached, show count - index =
          (count - index - 1) + 1 by omega, forFrom] at settles
        exact stopsOtherwise index indexLt _ (earlier index le_rfl) bad
          settles.of_bind
  · intro allSafe
    rw [forRange_eq_fold step invariant start fun index indexLt state holds =>
      regular index indexLt state holds (allSafe index indexLt)]
    exact settles_ok _

/-! ## Loops over a list -/

/-- Visiting all indices of a list visits its elements. -/
theorem filterMap_getElem?_range (items : List α) :
    ((List.range items.length).filterMap fun index => items[index]?) =
      items := by
  induction items with
  | nil => rfl
  | cons item items inductionHypothesis =>
      rw [List.length_cons, List.range_succ_eq_map, List.filterMap_cons,
        List.filterMap_map]
      exact congrArg (item :: ·) inductionHypothesis

/-- Two lists computed from their indices, side by side. -/
theorem zip_map_range {β : Type} (first : Nat → α) (second : Nat → β)
    (m n : Nat) :
    ((List.range m).map first).zip ((List.range n).map second) =
      (List.range (min m n)).map fun index => (first index, second index) := by
  apply List.ext_getElem
  · simp
  · intro index left right
    simp

/-- A loop over a list whose passes are all regular folds their results. -/
theorem foldlM_eq_ok {β : Type} {body : σ → β → Exec ε σ}
    {items : List β} {init : σ}
    (step : σ → β → σ)
    (invariant : σ → Prop)
    (start : invariant init)
    (regular : ∀ item ∈ items, ∀ state, invariant state →
      body state item = .ok (step state item) ∧
        invariant (step state item)) :
    items.foldlM body init = .ok (items.foldl step init) := by
  induction items generalizing init with
  | nil => rfl
  | cons item items inductionHypothesis =>
      obtain ⟨returned, kept⟩ := regular item (by simp) init start
      rw [List.foldlM_cons, returned, ok_bind, List.foldl_cons]
      exact inductionHypothesis kept fun later member =>
        regular later (by simp [member])

/-- When every pass is regular under a condition on its item alone and does
not settle without it, the loop settles exactly if all conditions hold. -/
theorem settles_foldlM_iff {β : Type} {body : σ → β → Exec ε σ}
    {items : List β} {init : σ}
    (step : σ → β → σ)
    (invariant : σ → Prop)
    (safe : β → Prop)
    (start : invariant init)
    (regular : ∀ item ∈ items, ∀ state, invariant state → safe item →
      body state item = .ok (step state item) ∧
        invariant (step state item))
    (stopsOtherwise : ∀ item ∈ items, ∀ state, invariant state →
      ¬ safe item → ¬ Settles (body state item)) :
    Settles (items.foldlM body init) ↔ ∀ item ∈ items, safe item := by
  induction items generalizing init with
  | nil => simp
  | cons item items inductionHypothesis =>
      rw [List.foldlM_cons, List.forall_mem_cons]
      by_cases itemSafe : safe item
      · obtain ⟨returned, kept⟩ := regular item (by simp) init start itemSafe
        rw [returned, ok_bind, inductionHypothesis kept
          (fun later member => regular later (by simp [member]))
          (fun later member => stopsOtherwise later (by simp [member]))]
        simp [itemSafe]
      · constructor
        · intro settles
          exact absurd settles.of_bind
            (stopsOtherwise item (by simp) init start itemSafe)
        · exact fun both => absurd both.1 itemSafe

end Rust
