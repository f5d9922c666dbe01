import RadiusEventHandler.DispatchSteps

/-!
# Round robin

While the first try of every dispatch succeeds, the messages go round the
queues, whatever the workers pop: the stored index, which is wrapped at the
next dispatch only, stays equal to the number of dispatches modulo the number
of queues.
-/

namespace RadiusEventHandler

open Cyclic

/-- The next try is the first one of its dispatch. -/
def Phase.isFirst {α : Type*} : Phase α → Bool
  | .idle => false
  | .first _ => true
  | .retry _ _ => false

namespace DispatchState

variable {α : Type*} {s s' : DispatchState α} {a : DispatchAction α} {n : ℕ}
  {acts : List (DispatchAction α)}

/-- The step is not a first try that is refused. -/
def FirstTrySucceeds (s : DispatchState α) : DispatchAction α → Prop
  | .tryPush => s.phase.isFirst = true →
      ∀ q ∈ s.dispatcher.workersInputQueues[s.nextQueue]?, ¬ q.Full
  | .handle _ => True
  | .pop _ => True

instance (s : DispatchState α) : DecidablePred s.FirstTrySucceeds
  | .tryPush => inferInstanceAs (Decidable (s.phase.isFirst = true →
      ∀ q ∈ s.dispatcher.workersInputQueues[s.nextQueue]?, ¬ q.Full))
  | .handle _ => isTrue trivial
  | .pop _ => isTrue trivial

/-- While every first try succeeds, the message with number `k` goes to queue
`k % n`. -/
structure RoundRobin (n : ℕ) (s : DispatchState α) : Prop where
  queues : s.dispatcher.workersInputQueues.length = n
  numbered : s.dispatched.map Prod.fst = List.range s.dispatched.length
  settled : s.tries.map TryPush.msg ++ s.inFlight = s.dispatched
  own : ∀ t ∈ s.tries, t.pushed = true ∧ t.queue = t.msg.1 % n
  turn : s.dispatcher.workerIndex % n = s.tries.length % n
  noRetry : ∀ m tries, s.phase ≠ .retry m tries

theorem roundRobin_start (queues : List (BoundedQueue (ℕ × α))) :
    (start queues 0).RoundRobin queues.length where
  queues := rfl
  numbered := rfl
  settled := rfl
  own := nofun
  turn := rfl
  noRetry := nofun

theorem RoundRobin.step (fair : s.RoundRobin n) (succeeds : s.FirstTrySucceeds a)
    (step : s.step a = some s') : s'.RoundRobin n := by
  cases a with
  | handle msg =>
      obtain ⟨idle, rfl⟩ := handle_cases step
      refine ⟨fair.queues, ?_, ?_, fair.own, fair.turn, fun _ _ phase => by cases phase⟩
      · rw [List.map_append, fair.numbered, List.length_append]
        exact List.range_succ.symm
      · have settled := fair.settled
        rw [inFlight, idle] at settled
        show s.tries.map TryPush.msg ++ [(s.dispatched.length, msg)] = _
        rw [← settled]
        simp [Phase.msg]
  | tryPush =>
      obtain ⟨m, tries, q, next, there, outcome⟩ := tryPush_cases step
      have room : ¬ q.Full := by
        cases phase : s.phase with
        | idle => simp [nextTry, phase] at next
        | first msg =>
            rw [FirstTrySucceeds, phase] at succeeds
            exact succeeds rfl q there
        | retry msg tries => exact absurd phase (fair.noRetry msg tries)
      rcases outcome with ⟨q', -, -, rfl⟩ | ⟨full, -⟩ | ⟨full, -⟩
      · -- the number of the message is the number of tries before it
        have settled := fair.settled
        rw [nextTry_mem next] at settled
        have number : m.1 = s.tries.length := by
          have numbers := congrArg (List.map Prod.fst) settled
          rw [fair.numbered, ← settled, List.length_append, List.length_singleton,
            List.range_succ, List.map_append, List.length_map] at numbers
          simpa using (List.append_inj' numbers rfl).2
        have queue : s.nextQueue = s.tries.length % n := by
          rw [nextQueue, fair.queues, fair.turn]
        refine ⟨List.length_set.trans fair.queues, fair.numbered, ?_, ?_, ?_,
          fun _ _ phase => by cases phase⟩
        · rw [List.map_append, ← settled]
          exact List.append_nil _
        · intro t mem
          rcases List.mem_append.mp mem with old | new
          · exact fair.own t old
          · rw [List.mem_singleton.mp new]
            exact ⟨rfl, by rw [queue, number]⟩
        · show (s.nextQueue + 1) % n = (s.tries ++ [_]).length % n
          rw [queue, Nat.mod_add_mod, List.length_append]
          rfl
      · exact absurd full room
      · exact absurd full room
  | pop w =>
      obtain ⟨q, q', m, there, -, rfl⟩ := pop_cases step
      exact ⟨List.length_set.trans fair.queues, fair.numbered, fair.settled, fair.own, fair.turn,
        fair.noRetry⟩

/-- How many messages have been pushed to a queue: the turns of the queue. -/
theorem RoundRobin.length_pushedTo (fair : s.RoundRobin n) (w : ℕ) :
    (s.pushedTo w).length = (List.range s.tries.length).countP fun k => k % n = w := by
  have numbers : s.tries.map (fun t => t.msg.1) = List.range s.tries.length := by
    have all := congrArg (List.map Prod.fst) fair.settled
    rw [fair.numbered, ← fair.settled, List.map_append, List.map_map, List.length_append,
      List.length_map] at all
    have front := congrArg (List.take s.tries.length) all
    rwa [List.take_left' (List.length_map _), List.take_range,
      Nat.min_eq_left (Nat.le_add_right _ _)] at front
  rw [pushedTo, List.length_map, ← List.countP_eq_length_filter, ← numbers, List.countP_map]
  apply List.countP_congr
  intro t mem
  obtain ⟨pushed, queue⟩ := fair.own t mem
  simp [pushed, queue]

/-- **Round robin.** -/
theorem dispatch_roundRobin (queues : List (BoundedQueue (ℕ × α)))
    (along : Runs.Along step FirstTrySucceeds (start queues 0) acts)
    (run : Runs.run step (start queues 0) acts = some s) :
    s.dispatched.map Prod.fst = List.range s.dispatched.length ∧
      s.tries.map TryPush.msg ++ s.inFlight = s.dispatched ∧
      (∀ t ∈ s.tries, t.pushed = true ∧ t.queue = t.msg.1 % queues.length) ∧
      ∀ i < queues.length, ∀ j < queues.length,
        (s.pushedTo i).length ≤ (s.pushedTo j).length + 1 := by
  have fair : s.RoundRobin queues.length :=
    Runs.invariant_along (I := fun t => t.RoundRobin queues.length) (roundRobin_start queues)
      (fun _ _ _ fair succeeds step => fair.step succeeds step) along run
  refine ⟨fair.numbered, fair.settled, fair.own, fun i hi j hj => ?_⟩
  rw [fair.length_pushedTo, fair.length_pushedTo]
  exact count_turns_le hi hj _

/-- Three messages over two queues, with a pop in the middle of the second
dispatch. -/
theorem dispatch_roundRobin_three :
    let acts : List (DispatchAction ℕ) := [.handle 7, .tryPush, .handle 8, .pop 0, .tryPush,
      .handle 9, .tryPush]
    ∃ s, Runs.run step (start [.empty 1, .empty 1] 0) acts = some s ∧
      s.tries.map TryPush.queue = [0, 1, 0] ∧
      s.dispatched.map Prod.fst = List.range s.dispatched.length ∧
      s.tries.map TryPush.msg ++ s.inFlight = s.dispatched ∧
      (∀ t ∈ s.tries, t.pushed = true ∧ t.queue = t.msg.1 % 2) ∧
      ∀ i < 2, ∀ j < 2, (s.pushedTo i).length ≤ (s.pushedTo j).length + 1 := by
  intro acts
  have reach : ∃ s, Runs.run step (start [.empty 1, .empty 1] 0) acts = some s ∧
      s.tries.map TryPush.queue = [0, 1, 0] := ⟨_, rfl, rfl⟩
  obtain ⟨s, run, queues⟩ := reach
  exact ⟨s, run, queues, dispatch_roundRobin [.empty 1, .empty 1] (by decide) run⟩

end DispatchState

end RadiusEventHandler
