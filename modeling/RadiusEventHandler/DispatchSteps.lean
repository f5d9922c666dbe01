import RadiusEventHandler.Dispatch
import RadiusEventHandler.Framework.Runs

/-!
# Dispatch while the workers pop

`handleRadiusEvent` taken apart at its calls of `try_push`, with workers that
pop between two of them. The messages are numbered in the order of dispatch.

A dispatch into which no worker pops does what `handleRadiusEvent` does
(`handleRadiusEvent_steps`).
-/

namespace RadiusEventHandler

open Cyclic

/-- Where the receiver is in `handleRadiusEvent`: not in it, before the first
`try_push`, or before one of the retry loop. -/
inductive Phase (α : Type*) where
  | idle
  | first (msg : α)
  | retry (msg : α) (numberOfTries : UInt8)

/-- A `try_push` that has been made. -/
structure TryPush (α : Type*) where
  msg : α
  queue : ℕ
  pushed : Bool

/-- The receiver and its queues. The fields from `dispatched` on are history. -/
structure DispatchState (α : Type*) where
  dispatcher : Dispatcher (ℕ × α)
  phase : Phase (ℕ × α)
  dispatched : List (ℕ × α)
  tries : List (TryPush (ℕ × α))
  taken : List (ℕ × (ℕ × α))
  dropped : List (ℕ × α)

inductive DispatchAction (α : Type*) where
  | handle (msg : α)
  | tryPush
  | pop (worker : ℕ)

/-- The message that is being dispatched. -/
def Phase.msg {α : Type*} : Phase α → Option α
  | .idle => none
  | .first msg => some msg
  | .retry msg _ => some msg

namespace DispatchState

variable {α : Type*}

/-- The state before the first dispatch. -/
def start (queues : List (BoundedQueue (ℕ × α))) (workerIndex : ℕ) : DispatchState α where
  dispatcher := ⟨queues, workerIndex⟩
  phase := .idle
  dispatched := []
  tries := []
  taken := []
  dropped := []

/-- The queues of `createQueues`, and the index of the constructor. -/
def init (capacities : List ℕ) : DispatchState α := start (capacities.map .empty) 0

/-- The test of the loop after a try, and what follows the loop. -/
def afterTry (s : DispatchState α) (msg : ℕ × α) (r : Dispatcher.Retry (ℕ × α)) :
    DispatchState α :=
  let s' := { s with
    dispatcher := r.dispatcher
    tries := s.tries ++ [TryPush.mk msg s.dispatcher.wrap.workerIndex r.pushed] }
  if Dispatcher.retryCond r then { s' with phase := .retry msg r.numberOfTries }
  else if r.pushed then { s' with phase := .idle }
  else { s' with phase := .idle, dropped := s.dropped ++ [msg] }

/-- One step: a message arrives, the receiver makes its next `try_push`, or a
worker pops a message. -/
def step (s : DispatchState α) : DispatchAction α → Option (DispatchState α)
  | .handle msg =>
      match s.phase with
      | .idle => some { s with
          phase := .first (s.dispatched.length, msg)
          dispatched := s.dispatched ++ [(s.dispatched.length, msg)] }
      | _ => none
  | .tryPush =>
      match s.phase with
      | .idle => none
      | .first msg =>
          match s.dispatcher.wrap.tryPushNext msg with
          | .ok (dispatcher, pushed) => some (s.afterTry msg ⟨dispatcher, pushed, 0⟩)
          | .error _ => none
      | .retry msg numberOfTries =>
          match Dispatcher.retryBody msg ⟨s.dispatcher, false, numberOfTries⟩ with
          | .ok r => some (s.afterTry msg r)
          | .error _ => none
  | .pop worker =>
      match s.dispatcher.workersInputQueues[worker]? with
      | some q =>
          match q.tryPop with
          | some (msg, q') => some { s with
              dispatcher := { s.dispatcher with
                workersInputQueues := s.dispatcher.workersInputQueues.set worker q' }
              taken := s.taken ++ [(worker, msg)] }
          | none => none
      | none => none

/-! ## The histories -/

/-- The messages a worker has taken, in their order. -/
def takenBy (s : DispatchState α) (worker : ℕ) : List (ℕ × α) :=
  (s.taken.filter fun t => t.1 == worker).map Prod.snd

/-- The messages that were pushed to a queue, in their order. -/
def pushedTo (s : DispatchState α) (queue : ℕ) : List (ℕ × α) :=
  (s.tries.filter fun t => t.pushed && t.queue == queue).map TryPush.msg

/-- The messages that were pushed to some queue. -/
def accepted (s : DispatchState α) : List (ℕ × α) :=
  (s.tries.filter fun t => t.pushed).map TryPush.msg

/-- The tries for the message with the number. -/
def triesOf (s : DispatchState α) (number : ℕ) : List (TryPush (ℕ × α)) :=
  s.tries.filter fun t => t.msg.1 == number

def inFlight (s : DispatchState α) : List (ℕ × α) := s.phase.msg.toList

variable {s s' : DispatchState α} {msg m : ℕ × α} {w : ℕ}

/-! ## What a step can do -/

/-- The next try of the phase: its message, and the counter after it. -/
def nextTry (s : DispatchState α) : Option ((ℕ × α) × UInt8) :=
  match s.phase with
  | .idle => none
  | .first msg => some (msg, 0)
  | .retry msg numberOfTries => some (msg, numberOfTries + 1)

/-- The queue of the next try. -/
def nextQueue (s : DispatchState α) : ℕ :=
  s.dispatcher.workerIndex % s.dispatcher.workersInputQueues.length

theorem nextTry_mem {tries : UInt8} (next : s.nextTry = some (m, tries)) : s.inFlight = [m] := by
  unfold nextTry at next
  unfold inFlight
  cases phase : s.phase with
  | idle => simp [phase] at next
  | first msg =>
      rw [phase] at next
      obtain ⟨rfl, -⟩ := Prod.mk.inj (Option.some.inj next)
      rfl
  | retry msg tries =>
      rw [phase] at next
      obtain ⟨rfl, -⟩ := Prod.mk.inj (Option.some.inj next)
      rfl

/-- The three ends of a try: the message is pushed, the loop goes on, or the
message is dropped. -/
theorem tryPush_cases (step : s.step .tryPush = some s') :
    ∃ msg tries q, s.nextTry = some (msg, tries) ∧
      s.dispatcher.workersInputQueues[s.nextQueue]? = some q ∧
      ((∃ q', q'.capacity = q.capacity ∧ q'.items = q.items ++ [msg] ∧ s' = { s with
          dispatcher := ⟨s.dispatcher.workersInputQueues.set s.nextQueue q', s.nextQueue + 1⟩
          tries := s.tries ++ [⟨msg, s.nextQueue, true⟩]
          phase := .idle }) ∨
        (q.Full ∧ tries.toNat < s.dispatcher.workersInputQueues.length - 1 ∧ s' = { s with
          dispatcher := { s.dispatcher with workerIndex := s.nextQueue + 1 }
          tries := s.tries ++ [⟨msg, s.nextQueue, false⟩]
          phase := .retry msg tries }) ∨
        (q.Full ∧ ¬ tries.toNat < s.dispatcher.workersInputQueues.length - 1 ∧ s' = { s with
          dispatcher := { s.dispatcher with workerIndex := s.nextQueue + 1 }
          tries := s.tries ++ [⟨msg, s.nextQueue, false⟩]
          phase := .idle
          dropped := s.dropped ++ [msg] })) := by
  have after : ∃ msg tries d pushed, s.nextTry = some (msg, tries) ∧
      s.dispatcher.wrap.tryPushNext msg = .ok (d, pushed) ∧
      s' = s.afterTry msg ⟨d, pushed, tries⟩ := by
    unfold DispatchState.step at step
    unfold nextTry
    cases phase : s.phase with
    | idle => simp [phase] at step
    | first msg =>
        simp only [phase] at step ⊢
        split at step
        · rename_i d pushed eq
          exact ⟨msg, 0, d, pushed, rfl, eq, (Option.some.inj step).symm⟩
        · cases step
    | retry msg tries =>
        simp only [phase] at step ⊢
        cases eq : s.dispatcher.wrap.tryPushNext msg with
        | error e => simp [Dispatcher.retryBody, eq, bind, Except.bind] at step
        | ok r =>
            refine ⟨msg, tries + 1, r.1, r.2, rfl, eq, ?_⟩
            simpa [Dispatcher.retryBody, eq, bind, Except.bind, pure, Except.pure] using step.symm
  obtain ⟨msg, tries, d, pushed, next, try_, rfl⟩ := after
  obtain ⟨q, there, ⟨rfl, q', capacity, items, rfl⟩ | ⟨rfl, full, rfl⟩⟩ :=
    Dispatcher.tryPushNext_cases try_
  · exact ⟨msg, tries, q, next, there, .inl ⟨q', capacity, items, rfl⟩⟩
  · refine ⟨msg, tries, q, next, there, .inr ?_⟩
    by_cases again : tries.toNat < s.dispatcher.workersInputQueues.length - 1
    · refine .inl ⟨full, again, ?_⟩
      simp [afterTry, Dispatcher.retryCond, Dispatcher.wrap, again, nextQueue]
    · refine .inr ⟨full, again, ?_⟩
      simp [afterTry, Dispatcher.retryCond, Dispatcher.wrap, again, nextQueue]

theorem handle_cases {msg : α} (step : s.step (.handle msg) = some s') :
    s.phase = .idle ∧ s' = { s with
      phase := .first (s.dispatched.length, msg)
      dispatched := s.dispatched ++ [(s.dispatched.length, msg)] } := by
  simp only [DispatchState.step] at step
  split at step
  · rename_i idle
    exact ⟨idle, (Option.some.inj step).symm⟩
  · cases step

theorem pop_cases (step : s.step (.pop w) = some s') :
    ∃ q q' m, s.dispatcher.workersInputQueues[w]? = some q ∧ q.items = m :: q'.items ∧
      s' = { s with
        dispatcher := { s.dispatcher with
          workersInputQueues := s.dispatcher.workersInputQueues.set w q' }
        taken := s.taken ++ [(w, m)] } := by
  simp only [DispatchState.step] at step
  split at step
  · rename_i q there
    split at step
    · rename_i m q' pop
      exact ⟨q, q', m, there, (BoundedQueue.tryPop_eq_some.mp pop).2, (Option.some.inj step).symm⟩
    · cases step
  · cases step

/-! ## The histories, step by step -/

theorem pushedTo_concat {t : TryPush (ℕ × α)} (tries : s'.tries = s.tries ++ [t]) (w : ℕ) :
    s'.pushedTo w = s.pushedTo w ++ if t.pushed ∧ t.queue = w then [t.msg] else [] := by
  rw [pushedTo, pushedTo, tries, List.filter_append, List.map_append]
  congr 1
  by_cases mine : t.pushed ∧ t.queue = w <;> simp [mine]

theorem accepted_concat {t : TryPush (ℕ × α)} (tries : s'.tries = s.tries ++ [t]) :
    s'.accepted = s.accepted ++ if t.pushed then [t.msg] else [] := by
  rw [accepted, accepted, tries, List.filter_append, List.map_append]
  congr 1
  cases pushed : t.pushed <;> simp [pushed]

theorem triesOf_concat {t : TryPush (ℕ × α)} (tries : s'.tries = s.tries ++ [t]) (k : ℕ) :
    s'.triesOf k = s.triesOf k ++ if t.msg.1 = k then [t] else [] := by
  rw [triesOf, triesOf, tries, List.filter_append]
  congr 1
  by_cases mine : t.msg.1 = k <;> simp [mine]

theorem takenBy_concat {t : ℕ × (ℕ × α)} (taken : s'.taken = s.taken ++ [t]) (w : ℕ) :
    s'.takenBy w = s.takenBy w ++ if t.1 = w then [t.2] else [] := by
  rw [takenBy, takenBy, taken, List.filter_append, List.map_append]
  congr 1
  by_cases mine : t.1 = w <;> simp [mine]

/-! ## Without pops -/

/-- From a test of the loop on, the steps do what the loop does. -/
theorem steps_of_loop {r r' : Dispatcher.Retry (ℕ × α)} {fuel : ℕ}
    (loop : Loop.run Dispatcher.retryCond (Dispatcher.retryBody msg) fuel r = some (.ok r')) :
    ∃ k u, Runs.run step (s.afterTry msg r) (List.replicate k .tryPush) = some u ∧
      u.phase = .idle ∧ u.dispatcher = r'.dispatcher ∧
      u.dropped = if r'.pushed then s.dropped else s.dropped ++ [msg] := by
  induction fuel generalizing s r with
  | zero => cases loop
  | succ fuel ih =>
      cases test : Dispatcher.retryCond r with
      | false =>
          rw [Loop.run_exit test] at loop
          cases loop
          refine ⟨0, _, rfl, ?_⟩
          cases pushed : r'.pushed <;> simp [afterTry, test, pushed]
      | true =>
          cases body : Dispatcher.retryBody msg r with
          | error e =>
              rw [Loop.run_throw test body] at loop
              cases loop
          | ok r₁ =>
              rw [Loop.run_again test body] at loop
              obtain ⟨k, u, run, idle, dispatcher, dropped⟩ := ih (s := s.afterTry msg r) loop
              have next : (s.afterTry msg r).step .tryPush =
                  some ((s.afterTry msg r).afterTry msg r₁) := by
                have body' : Dispatcher.retryBody msg ⟨r.dispatcher, false, r.numberOfTries⟩ =
                    .ok r₁ := body
                have phase : (s.afterTry msg r).phase = .retry msg r.numberOfTries := by
                  simp [afterTry, test]
                have same : (s.afterTry msg r).dispatcher = r.dispatcher := by
                  simp [afterTry, test]
                simp only [DispatchState.step, phase, same, body']
              refine ⟨k + 1, u, ?_, idle, dispatcher, ?_⟩
              · rw [List.replicate_succ, Runs.run, next]
                exact run
              · rw [dropped]
                simp [afterTry, test]

/-- A dispatch into which no worker pops is `handleRadiusEvent`. -/
theorem handleRadiusEvent_steps {msg : α} {d : Dispatcher (ℕ × α)} {pushed : Bool} {fuel : ℕ}
    (idle : s.phase = .idle)
    (handles : s.dispatcher.handleRadiusEvent (s.dispatched.length, msg) fuel =
      some (.ok (d, pushed))) :
    ∃ k u, Runs.run step s (.handle msg :: List.replicate k .tryPush) = some u ∧
      u.phase = .idle ∧ u.dispatcher = d ∧
      u.dropped = if pushed then s.dropped else s.dropped ++ [(s.dispatched.length, msg)] := by
  let t : DispatchState α := { s with
    phase := .first (s.dispatched.length, msg)
    dispatched := s.dispatched ++ [(s.dispatched.length, msg)] }
  have arrive : s.step (.handle msg) = some t := by
    simp only [DispatchState.step, idle]
    rfl
  -- the first try, and then the loop, which a success ends at once
  have first : ∃ d₁ pushed₁ r, s.dispatcher.wrap.tryPushNext (s.dispatched.length, msg) =
        .ok (d₁, pushed₁) ∧
      (∃ fuel, Loop.run Dispatcher.retryCond (Dispatcher.retryBody (s.dispatched.length, msg)) fuel
        ⟨d₁, pushed₁, 0⟩ = some (.ok r)) ∧ r.dispatcher = d ∧ r.pushed = pushed := by
    unfold Dispatcher.handleRadiusEvent at handles
    split at handles
    · cases handles
    · rename_i d₁ eq
      cases handles
      exact ⟨_, true, ⟨_, true, 0⟩, eq, ⟨1, rfl⟩, rfl, rfl⟩
    · rename_i d₁ eq
      obtain ⟨outcome, loop, result⟩ := Option.map_eq_some_iff.mp handles
      cases outcome with
      | error e => cases result
      | ok r =>
          cases result
          exact ⟨d₁, false, r, eq, ⟨fuel, loop⟩, rfl, rfl⟩
  obtain ⟨d₁, pushed₁, r, try_, ⟨fuel, loop⟩, rfl, rfl⟩ := first
  obtain ⟨k, u, run, idle', dispatcher, dropped⟩ := steps_of_loop (s := t) loop
  have next : t.step .tryPush = some (t.afterTry (s.dispatched.length, msg) ⟨d₁, pushed₁, 0⟩) := by
    show (match s.dispatcher.wrap.tryPushNext (s.dispatched.length, msg) with
      | .ok (dispatcher, pushed) =>
          some (t.afterTry (s.dispatched.length, msg) ⟨dispatcher, pushed, 0⟩)
      | .error _ => none) = _
    rw [try_]
  refine ⟨k + 1, u, ?_, idle', dispatcher, dropped⟩
  rw [Runs.run, arrive, List.replicate_succ, Option.bind_some, Runs.run, next]
  exact run

end DispatchState

end RadiusEventHandler
