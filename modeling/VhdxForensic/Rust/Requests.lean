import VhdxForensic.Rust.Exec

/-!
# Computations that send requests

A computation over a device is written down once, as the requests it sends and
what it does with each answer, and is then run on devices of different makes.
Devices that answer alike give it the same result. What it sends is bounded
over all answers, so for devices of any behaviour.
-/

namespace Rust

open Exec

/-- Both computations stop alike, or return related values. -/
inductive Agree {ε α β : Type} (related : α → β → Prop) :
    Exec ε α → Exec ε β → Prop
  | stopped (stop : Stop ε) : Agree related (.error stop) (.error stop)
  | returned {a : α} {b : β} (holds : related a b) :
      Agree related (.ok a) (.ok b)

section Agree

variable {ε α β α' β' : Type} {related : α → β → Prop}
  {related' : α' → β' → Prop} {left : Exec ε α} {right : Exec ε β}

/-- The rule of sequence. -/
theorem Agree.bind (agree : Agree related left right) {next : α → Exec ε α'}
    {next' : β → Exec ε β'}
    (after : ∀ a b, related a b → Agree related' (next a) (next' b)) :
    Agree related' (left >>= next) (right >>= next') := by
  cases agree with
  | stopped stop => exact .stopped stop
  | returned holds => exact after _ _ holds

/-- The rule of consequence. -/
theorem Agree.mono (agree : Agree related left right)
    {weaker : α → β → Prop} (weakens : ∀ a b, related a b → weaker a b) :
    Agree weaker left right := by
  cases agree with
  | stopped stop => exact .stopped stop
  | returned holds => exact .returned (weakens _ _ holds)

end Agree

/-- A computation that sends requests of type `Q`, which are answered by
values of type `R`. -/
inductive Asking (Q R ε α : Type) where
  | done (result : Exec ε α)
  | ask (request : Q) (next : R → Asking Q R ε α)

namespace Asking

variable {Q R ε α β : Type}

/-- Continue with the value of a computation. -/
def andThen : Asking Q R ε α → (α → Asking Q R ε β) → Asking Q R ε β
  | .done (.ok a), next => next a
  | .done (.error stop), _ => .done (.error stop)
  | .ask request answered, next =>
      .ask request fun answer => (answered answer).andThen next

instance : Monad (Asking Q R ε) where
  pure a := .done (.ok a)
  bind := andThen

/-- Send one request. -/
def send (request : Q) : Asking Q R ε R :=
  .ask request fun answer => .done (.ok answer)

theorem ask_bind (request : Q) (answered : R → Asking Q R ε α)
    (next : α → Asking Q R ε β) :
    (Asking.ask request answered >>= next) =
      .ask request fun answer => answered answer >>= next := rfl

/-! ## Answers that are fixed -/

/-- The result under fixed answers. -/
def eval (answers : Q → Exec ε R) : Asking Q R ε α → Exec ε α
  | .done result => result
  | .ask request next =>
      match answers request with
      | .error stop => .error stop
      | .ok answer => (next answer).eval answers

section Eval

variable (answers : Q → Exec ε R)

@[simp] theorem eval_done (result : Exec ε α) :
    (done result : Asking Q R ε α).eval answers = result := rfl

@[simp] theorem eval_pure (a : α) :
    (pure a : Asking Q R ε α).eval answers = .ok a := rfl

@[simp] theorem eval_send (request : Q) :
    (send request : Asking Q R ε R).eval answers = answers request := by
  rw [send, eval]
  cases answers request <;> rfl

/-- Running in sequence gives the results in sequence. -/
@[simp] theorem eval_bind (first : Asking Q R ε α)
    (next : α → Asking Q R ε β) :
    (first >>= next).eval answers =
      first.eval answers >>= fun a => (next a).eval answers := by
  induction first with
  | done result => cases result <;> rfl
  | ask request answered inductionHypothesis =>
      rw [ask_bind, eval, eval]
      cases answers request with
      | error stop => rfl
      | ok answer => exact inductionHypothesis answer

end Eval

/-! ## Devices -/

/-- Run a computation on a device. An error of the device ends it. -/
def serve {S : Type} (server : S → Q → Exec ε R × S) :
    Asking Q R ε α → S → Exec ε α × S
  | .done result, device => (result, device)
  | .ask request next, device =>
      match server device request with
      | (.error stop, device) => (.error stop, device)
      | (.ok answer, device) => (next answer).serve server device

/-- The requests that are sent on the way. -/
def sent {S : Type} (server : S → Q → Exec ε R × S) :
    Asking Q R ε α → S → List Q
  | .done _, _ => []
  | .ask request next, device =>
      request :: match server device request with
        | (.error _, _) => []
        | (.ok answer, device) => (next answer).sent server device

section Serve

variable {S : Type} (server : S → Q → Exec ε R × S)

@[simp] theorem serve_done (result : Exec ε α) (device : S) :
    (done result : Asking Q R ε α).serve server device = (result, device) :=
  rfl

@[simp] theorem serve_send (request : Q) (device : S) :
    (send request : Asking Q R ε R).serve server device =
      server device request := by
  rw [send, serve]
  rcases server device request with ⟨stop | answer, after⟩ <;> rfl

/-- Two programs are served one after the other. -/
theorem serve_bind (first : Asking Q R ε α) (next : α → Asking Q R ε β)
    (device : S) :
    (first >>= next).serve server device =
      match first.serve server device with
      | (.error stop, device) => (.error stop, device)
      | (.ok a, device) => (next a).serve server device := by
  induction first generalizing device with
  | done result => cases result <;> rfl
  | ask request answered inductionHypothesis =>
      rw [ask_bind, serve, serve]
      rcases server device request with ⟨stop | answer, after⟩
      · rfl
      · exact inductionHypothesis answer after

end Serve

/-! ## What is sent and returned -/

/-- Every request is allowed and every value has the property. -/
def Obeys (allowed : Q → Prop) (returns : α → Prop) : Asking Q R ε α → Prop
  | .done (.ok a) => returns a
  | .done (.error _) => True
  | .ask request next => allowed request ∧ ∀ answer,
      (next answer).Obeys allowed returns

section Obeys

variable {allowed : Q → Prop} {returns : α → Prop} {later : β → Prop}

/-- A result without a request obeys every rule. -/
theorem obeys_done {result : Exec ε α}
    (holds : ∀ a, result = .ok a → returns a) :
    (done result : Asking Q R ε α).Obeys allowed returns := by
  cases result with
  | error stop => trivial
  | ok a => exact holds a rfl

/-- Without requests there is nothing to allow. -/
theorem obeys_any (result : Exec ε α) :
    (done result : Asking Q R ε α).Obeys allowed fun _ => True :=
  obeys_done fun _ _ => trivial

/-- A single request obeys if it is allowed. -/
theorem obeys_send {request : Q} {returns : R → Prop}
    (admissible : allowed request) (holds : ∀ answer, returns answer) :
    (send request : Asking Q R ε R).Obeys allowed returns :=
  ⟨admissible, holds⟩

/-- The rule of sequence. -/
theorem Obeys.bind {first : Asking Q R ε α} {next : α → Asking Q R ε β}
    (before : first.Obeys allowed returns)
    (after : ∀ a, returns a → (next a).Obeys allowed later) :
    (first >>= next).Obeys allowed later := by
  induction first with
  | done result =>
      cases result with
      | error stop => trivial
      | ok a => exact after a before
  | ask request answered inductionHypothesis =>
      exact ⟨before.1,
        fun answer => inductionHypothesis answer (before.2 answer)⟩

/-- The rule of consequence. -/
theorem Obeys.mono {wider : Q → Prop} {run : Asking Q R ε α}
    (obeys : run.Obeys allowed returns)
    (weaker : ∀ request, allowed request → wider request) :
    run.Obeys wider returns := by
  induction run with
  | done result => cases result <;> exact obeys
  | ask request next inductionHypothesis =>
      exact ⟨weaker request obeys.1, fun answer =>
        inductionHypothesis answer (obeys.2 answer)⟩

/-- Related devices that answer allowed requests alike give a computation the
same result and stay related. -/
theorem Obeys.serve_related {S T : Type} {server : S → Q → Exec ε R × S}
    {server' : T → Q → Exec ε R × T} {related : S → T → Prop}
    (step : ∀ device device' request, related device device' →
      allowed request →
        (server device request).1 = (server' device' request).1 ∧
          related (server device request).2 (server' device' request).2)
    {run : Asking Q R ε α} (obeys : run.Obeys allowed returns)
    {device : S} {device' : T} (holds : related device device') :
    (run.serve server device).1 = (run.serve server' device').1 ∧
      related (run.serve server device).2 (run.serve server' device').2 := by
  induction run generalizing device device' with
  | done result => exact ⟨rfl, holds⟩
  | ask request next inductionHypothesis =>
      obtain ⟨same, after⟩ := step device device' request holds obeys.1
      rw [serve, serve]
      rcases left : server device request with ⟨result, final⟩
      rcases right : server' device' request with ⟨result', final'⟩
      rw [left, right] at same after
      dsimp only at same after
      subst same
      cases result with
      | error stop => exact ⟨rfl, after⟩
      | ok answer =>
          exact inductionHypothesis answer (obeys.2 answer) after

/-- A device that answers allowed requests in a fixed way and without a change
gives a computation its result under these answers. -/
theorem Obeys.serve_eq_eval {S : Type} {server : S → Q → Exec ε R × S}
    {answers : Q → Exec ε R} {device : S}
    (fixed : ∀ request, allowed request →
      server device request = (answers request, device))
    {run : Asking Q R ε α} (obeys : run.Obeys allowed returns) :
    run.serve server device = (run.eval answers, device) := by
  induction run with
  | done result => rfl
  | ask request next inductionHypothesis =>
      rw [serve, eval, fixed request obeys.1]
      cases answers request with
      | error stop => rfl
      | ok answer => exact inductionHypothesis answer (obeys.2 answer)

end Obeys

/-! ## What requests cost -/

/-- The requests cost at most the budget, and a value is returned with what is
left of it. -/
def Spends (cost : Q → Nat) (after : Nat → α → Prop) :
    Nat → Asking Q R ε α → Prop
  | budget, .done (.ok a) => after budget a
  | _, .done (.error _) => True
  | budget, .ask request next => cost request ≤ budget ∧ ∀ answer,
      (next answer).Spends cost after (budget - cost request)

section Spends

variable {cost : Q → Nat} {after : Nat → α → Prop} {later : Nat → β → Prop}
  {budget : Nat}

/-- A result without a request costs nothing. -/
theorem spends_done {result : Exec ε α}
    (holds : ∀ a, result = .ok a → after budget a) :
    (done result : Asking Q R ε α).Spends cost after budget := by
  cases result with
  | error stop => trivial
  | ok a => exact holds a rfl

/-- A single request costs its own price. -/
theorem spends_send {request : Q} {after : Nat → R → Prop}
    (affordable : cost request ≤ budget)
    (holds : ∀ answer, after (budget - cost request) answer) :
    (send request : Asking Q R ε R).Spends cost after budget :=
  ⟨affordable, holds⟩

/-- The rule of sequence. -/
theorem Spends.bind {first : Asking Q R ε α} {next : α → Asking Q R ε β}
    (before : first.Spends cost after budget)
    (rest : ∀ left a, after left a → (next a).Spends cost later left) :
    (first >>= next).Spends cost later budget := by
  induction first generalizing budget with
  | done result =>
      cases result with
      | error stop => trivial
      | ok a => exact rest budget a before
  | ask request answered inductionHypothesis =>
      exact ⟨before.1, fun answer =>
        inductionHypothesis answer (before.2 answer)⟩

/-- The rule of consequence. -/
theorem Spends.mono {run : Asking Q R ε α} {weaker : Nat → α → Prop}
    (spends : run.Spends cost after budget)
    (weakens : ∀ left a, after left a → weaker left a) :
    run.Spends cost weaker budget := by
  induction run generalizing budget with
  | done result =>
      cases result with
      | error stop => trivial
      | ok a => exact weakens budget a spends
  | ask request next inductionHypothesis =>
      exact ⟨spends.1, fun answer =>
        inductionHypothesis answer (spends.2 answer)⟩

/-- On a device of any behaviour the requests cost at most the budget. -/
theorem Spends.sent_le {S : Type} {run : Asking Q R ε α}
    (spends : run.Spends cost after budget)
    (server : S → Q → Exec ε R × S) (device : S) :
    ((run.sent server device).map cost).sum ≤ budget := by
  induction run generalizing budget device with
  | done result => exact Nat.zero_le _
  | ask request next inductionHypothesis =>
      rw [sent, List.map_cons, List.sum_cons]
      have affordable := spends.1
      rcases server device request with ⟨stop | answer, final⟩
      · simpa using affordable
      · have rest := inductionHypothesis answer (spends.2 answer) final
        dsimp only
        omega

end Spends

end Asking

end Rust
