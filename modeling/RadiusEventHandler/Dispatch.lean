import RadiusEventHandler.Framework.Cyclic
import RadiusEventHandler.PacketReceiver

/-!
# Overload dispatch

The first try and the retry loop of `handleRadiusEvent` go round the queues
once, from the queue whose turn it is, and stop at the first one that is not
full. The counter of the tries has eight bits, which is enough for 256 queues.
-/

namespace RadiusEventHandler

namespace Dispatcher

open Cyclic

variable {α : Type*} {d d' : Dispatcher α} {msg : α} {q q' : BoundedQueue α} {pushed : Bool}
  {j fuel : ℕ}

/-- The queue of try `j`, counted from 0. -/
def place (d : Dispatcher α) (j : ℕ) : ℕ :=
  turn d.workersInputQueues.length (d.workerIndex % d.workersInputQueues.length) j

/-- The queue of try `j`, if it is there, is full. -/
def FullAt (d : Dispatcher α) (j : ℕ) : Prop :=
  ∀ q, d.workersInputQueues[d.place j]? = some q → q.Full

theorem place_zero (pos : 0 < d.workersInputQueues.length) :
    d.place 0 = d.workerIndex % d.workersInputQueues.length :=
  turn_zero (Nat.mod_lt _ pos)

theorem place_lt (pos : 0 < d.workersInputQueues.length) (j : ℕ) :
    d.place j < d.workersInputQueues.length := turn_lt pos _ j

/-! ## One try -/

/-- What a try can do. -/
theorem tryPushNext_cases (step : d.tryPushNext msg = .ok (d', pushed)) :
    ∃ q, d.workersInputQueues[d.workerIndex]? = some q ∧
      ((pushed = true ∧ ∃ q', q'.capacity = q.capacity ∧ q'.items = q.items ++ [msg] ∧
          d' = { workersInputQueues := d.workersInputQueues.set d.workerIndex q'
                 workerIndex := d.workerIndex + 1 }) ∨
        (pushed = false ∧ q.Full ∧ d' = { d with workerIndex := d.workerIndex + 1 })) := by
  unfold tryPushNext at step
  split at step
  · cases step
  · rename_i q there
    refine ⟨q, there, ?_⟩
    split at step
    · rename_i q' push
      cases step
      exact .inl ⟨rfl, q', (BoundedQueue.tryPush_eq_some.mp push).2.1,
        (BoundedQueue.tryPush_eq_some.mp push).2.2, rfl⟩
    · rename_i refused
      cases step
      exact .inr ⟨rfl, BoundedQueue.tryPush_eq_none.mp refused, rfl⟩

theorem tryPushNext_of_push (there : d.workersInputQueues[d.workerIndex]? = some q)
    (push : q.tryPush msg = some q') :
    d.tryPushNext msg = .ok ({ workersInputQueues := d.workersInputQueues.set d.workerIndex q'
                               workerIndex := d.workerIndex + 1 }, true) := by
  simp only [tryPushNext, there, push]

theorem tryPushNext_of_full (there : d.workersInputQueues[d.workerIndex]? = some q)
    (full : q.Full) :
    d.tryPushNext msg = .ok ({ d with workerIndex := d.workerIndex + 1 }, false) := by
  simp only [tryPushNext, there, BoundedQueue.tryPush_eq_none.mpr full]

/-- A try does not miss the queues. -/
theorem tryPushNext_isOk (lt : d.workerIndex < d.workersInputQueues.length) (msg : α) :
    ∃ d' pushed, d.tryPushNext msg = .ok (d', pushed) := by
  have there := List.getElem?_eq_getElem lt
  cases push : (d.workersInputQueues[d.workerIndex]).tryPush msg with
  | some q' => exact ⟨_, true, tryPushNext_of_push there push⟩
  | none => exact ⟨_, false, tryPushNext_of_full there (BoundedQueue.tryPush_eq_none.mp push)⟩

/-! ## The retry loop -/

/-- The loop when try `j` and those before it have been refused. -/
def refusedTries (d : Dispatcher α) (j : ℕ) : Retry α where
  dispatcher := { d with workerIndex := d.place j + 1 }
  pushed := false
  numberOfTries := UInt8.ofNat j

/-- The counter does not overflow before all queues have been tried. -/
theorem retryCond_refusedTries (bound : d.workersInputQueues.length ≤ 256)
    (lt : j < d.workersInputQueues.length) :
    retryCond (d.refusedTries j) = decide (j < d.workersInputQueues.length - 1) := by
  have small : (UInt8.ofNat j).toNat = j :=
    UInt8.toNat_ofNat_of_lt' (Nat.lt_of_lt_of_le lt bound)
  simp [retryCond, refusedTries, small]

/-- The next try of the loop is at the next place. -/
theorem wrap_refusedTries (d : Dispatcher α) (j : ℕ) :
    (d.refusedTries j).dispatcher.wrap = { d with workerIndex := d.place (j + 1) } := by
  rw [wrap, refusedTries]
  exact congrArg _ (turn_succ _ _ j)

theorem numberOfTries_succ (j : ℕ) : UInt8.ofNat j + 1 = UInt8.ofNat (j + 1) :=
  (UInt8.ofNat_add j 1).symm

theorem retryBody_of_full (pos : 0 < d.workersInputQueues.length) (full : d.FullAt (j + 1)) :
    retryBody msg (d.refusedTries j) = .ok (d.refusedTries (j + 1)) := by
  have there := List.getElem?_eq_getElem (place_lt pos (j + 1))
  have refused : { d with workerIndex := d.place (j + 1) }.tryPushNext msg =
      .ok ({ d with workerIndex := d.place (j + 1) + 1 }, false) :=
    tryPushNext_of_full there (full _ there)
  rw [retryBody, wrap_refusedTries, refused, refusedTries, refusedTries, ← numberOfTries_succ]
  rfl

theorem retryBody_of_push (there : d.workersInputQueues[d.place (j + 1)]? = some q)
    (push : q.tryPush msg = some q') :
    retryBody msg (d.refusedTries j) = .ok
      { dispatcher :=
          { workersInputQueues := d.workersInputQueues.set (d.place (j + 1)) q'
            workerIndex := d.place (j + 1) + 1 }
        pushed := true
        numberOfTries := UInt8.ofNat (j + 1) } := by
  have pushes : { d with workerIndex := d.place (j + 1) }.tryPushNext msg =
      .ok ({ workersInputQueues := d.workersInputQueues.set (d.place (j + 1)) q'
             workerIndex := d.place (j + 1) + 1 }, true) :=
    tryPushNext_of_push there push
  rw [retryBody, wrap_refusedTries, pushes, refusedTries, ← numberOfTries_succ]
  rfl

/-- **The loop invariant.** While the queues are full, the loop goes on to the
next one. -/
theorem iterates_refusedTries (bound : d.workersInputQueues.length ≤ 256)
    (lt : j < d.workersInputQueues.length) (full : ∀ i ≤ j, d.FullAt i) :
    ∀ k ≤ j, Loop.Iterates retryCond (retryBody msg) (j - k) (d.refusedTries k)
      (d.refusedTries j) := by
  -- from the last of these tries backwards
  intro k le
  induction h : j - k generalizing k with
  | zero =>
      obtain rfl : k = j := Nat.le_antisymm le (Nat.le_of_sub_eq_zero h)
      exact .done _
  | succ m ih =>
      have below : k < j := Nat.lt_of_sub_eq_succ h
      refine .again ?_ (retryBody_of_full (Nat.zero_lt_of_lt lt) (full (k + 1) below))
        (ih (k + 1) below ?_)
      · rw [retryCond_refusedTries bound (below.trans lt), decide_eq_true_iff]
        exact Nat.lt_sub_of_add_lt (Nat.lt_of_le_of_lt below lt)
      · rw [Nat.sub_add_eq, h]
        rfl

/-! ## The whole dispatch -/

/-- The first try is refused: what follows is the loop. -/
theorem handleRadiusEvent_of_full (pos : 0 < d.workersInputQueues.length) (full : d.FullAt 0) :
    d.handleRadiusEvent msg fuel =
      (Loop.run retryCond (retryBody msg) fuel (d.refusedTries 0)).map
        (Except.map fun r => (r.dispatcher, r.pushed)) := by
  have there := List.getElem?_eq_getElem (place_lt pos 0)
  have first : d.wrap.tryPushNext msg = .ok ({ d with workerIndex := d.place 0 + 1 }, false) := by
    have wrapped : d.wrap = { d with workerIndex := d.place 0 } := by
      rw [wrap, place_zero pos]
    rw [wrapped]
    exact tryPushNext_of_full there (full _ there)
  rw [handleRadiusEvent, first]
  rfl

/-- The first queue that is not full, going round from the queue whose turn it
is, takes the message. -/
theorem handleRadiusEvent_of_first (bound : d.workersInputQueues.length ≤ 256)
    (enough : d.workersInputQueues.length ≤ fuel) (lt : j < d.workersInputQueues.length)
    (there : d.workersInputQueues[d.place j]? = some q) (push : q.tryPush msg = some q')
    (full : ∀ i < j, d.FullAt i) :
    d.handleRadiusEvent msg fuel = some (.ok
      ({ workersInputQueues := d.workersInputQueues.set (d.place j) q'
         workerIndex := d.place j + 1 }, true)) := by
  have pos : 0 < d.workersInputQueues.length := Nat.zero_lt_of_lt lt
  cases j with
  | zero =>
      have wrapped : d.wrap = { d with workerIndex := d.place 0 } := by
        rw [wrap, place_zero pos]
      rw [handleRadiusEvent, wrapped,
        tryPushNext_of_push (d := { d with workerIndex := d.place 0 }) there push]
  | succ j =>
      rw [handleRadiusEvent_of_full pos (full 0 (Nat.succ_pos j))]
      have before := Nat.lt_of_succ_lt lt
      -- `j` iterations lead to the one that pushes, and the test after it ends the loop
      have iterates : Loop.Iterates retryCond (retryBody msg) (j - 0) _ _ :=
        iterates_refusedTries bound before (fun i le => full i (Nat.lt_succ_of_le le)) 0
          (Nat.zero_le j)
      have again : retryCond (d.refusedTries j) = true := by
        rw [retryCond_refusedTries bound before, decide_eq_true_iff]
        exact Nat.lt_sub_of_add_lt lt
      obtain ⟨k, rfl⟩ := Nat.exists_eq_add_of_le (Nat.le_trans lt enough)
      rw [show j + 1 + 1 + k = j - 0 + (k + 1 + 1) by omega, iterates.run_add,
        Loop.run_again again (retryBody_of_push there push), Loop.run_exit rfl]
      rfl

/-- When all queues are full, the loop has tried each of them. -/
theorem handleRadiusEvent_of_all_full (pos : 0 < d.workersInputQueues.length)
    (bound : d.workersInputQueues.length ≤ 256) (enough : d.workersInputQueues.length ≤ fuel)
    (full : ∀ q ∈ d.workersInputQueues, q.Full) :
    d.handleRadiusEvent msg fuel = some (.ok
      ({ d with workerIndex := d.place (d.workersInputQueues.length - 1) + 1 }, false)) := by
  have fullAt : ∀ j, d.FullAt j := fun j q there => full q (List.mem_of_getElem? there)
  have last : d.workersInputQueues.length - 1 < d.workersInputQueues.length :=
    Nat.sub_lt pos Nat.one_pos
  have iterates : Loop.Iterates retryCond (retryBody msg)
      (d.workersInputQueues.length - 1 - 0) _ _ :=
    iterates_refusedTries bound last (fun i _ => fullAt i) 0 (Nat.zero_le _)
  have exit : retryCond (d.refusedTries (d.workersInputQueues.length - 1)) = false := by
    rw [retryCond_refusedTries bound last, decide_eq_false_iff_not]
    exact Nat.lt_irrefl _
  obtain ⟨k, rfl⟩ := Nat.exists_eq_add_of_le enough
  rw [handleRadiusEvent_of_full pos (fullAt 0),
    show d.workersInputQueues.length + k = d.workersInputQueues.length - 1 - 0 + (k + 1) by omega,
    iterates.run_add, Loop.run_exit exit]
  rfl

/-! ## Whatever the number of queues -/

/-- One of the queues has taken the message, or the queues are as before. -/
def Placed (d : Dispatcher α) (msg : α) (d' : Dispatcher α) (pushed : Bool) : Prop :=
  (pushed = true ∧ ∃ i q q', d.workersInputQueues[i]? = some q ∧ q'.items = q.items ++ [msg] ∧
    d'.workersInputQueues = d.workersInputQueues.set i q') ∨
  (pushed = false ∧ d'.workersInputQueues = d.workersInputQueues)

theorem placed_tryPushNext (step : d.tryPushNext msg = .ok (d', pushed)) :
    d.Placed msg d' pushed := by
  obtain ⟨q, there, ⟨pushes, q', -, items, rfl⟩ | ⟨refused, -, rfl⟩⟩ := tryPushNext_cases step
  · exact .inl ⟨pushes, _, q, q', there, items, rfl⟩
  · exact .inr ⟨refused, rfl⟩

/-- A dispatch that ends has pushed the message once or not at all. -/
theorem placed_handleRadiusEvent
    (dispatch : d.handleRadiusEvent msg fuel = some (.ok (d', pushed))) :
    d.Placed msg d' pushed := by
  unfold handleRadiusEvent at dispatch
  split at dispatch
  · cases dispatch
  · rename_i first
    cases dispatch
    exact placed_tryPushNext (d := d.wrap) first
  · rename_i d₁ first
    obtain ⟨outcome, loop, result⟩ := Option.map_eq_some_iff.mp dispatch
    cases outcome with
    | error e => cases result
    | ok r =>
        cases result
        refine Loop.run_invariant (I := fun r => d.Placed msg r.dispatcher r.pushed) ?_
          (placed_tryPushNext (d := d.wrap) first) loop
        intro r t placed test iteration
        obtain ⟨pushes, -⟩ | ⟨-, queues⟩ := placed
        · -- after a push the loop is left
          rw [retryCond, pushes] at test
          cases test
        · cases next : r.dispatcher.wrap.tryPushNext msg with
          | error e => simp [retryBody, next, bind, Except.bind] at iteration
          | ok result =>
              obtain ⟨d₂, pushed₂⟩ := result
              simp only [retryBody, next, bind, Except.bind, pure, Except.pure,
                Except.ok.injEq] at iteration
              cases iteration
              have placed := placed_tryPushNext next
              rw [Placed, show r.dispatcher.wrap.workersInputQueues = _ from queues] at placed
              exact placed

/-! ## First fit -/

/-- If some queue has room, one is the first to have it. -/
theorem exists_first_room (mem : q ∈ d.workersInputQueues) (room : ¬ q.Full) :
    ∃ j p, j < d.workersInputQueues.length ∧ d.workersInputQueues[d.place j]? = some p ∧
      ¬ p.Full ∧ ∀ i < j, d.FullAt i := by
  obtain ⟨i, lt, rfl⟩ := List.getElem_of_mem mem
  obtain ⟨j, below, ⟨p, found, free⟩, before⟩ := exists_first
    (p := fun i => ∃ q, d.workersInputQueues[i]? = some q ∧ ¬ q.Full) lt
    ⟨_, List.getElem?_eq_getElem lt, room⟩ (d.workerIndex % d.workersInputQueues.length)
  exact ⟨j, p, below, found, free, fun i lt q there =>
    not_not.mp fun room => before i lt ⟨q, there, room⟩⟩

/-- **Dispatch is a first-fit search.** The retry loop ends, the message goes
to the first queue with room, and to none if all are full. -/
theorem handleRadiusEvent_firstFit (d : Dispatcher α) (msg : α) {fuel : ℕ}
    (queues : 1 ≤ d.workersInputQueues.length ∧ d.workersInputQueues.length ≤ 256)
    (enough : d.workersInputQueues.length ≤ fuel) :
    let n := d.workersInputQueues.length
    let s := d.workerIndex % n
    ((∃ q ∈ d.workersInputQueues, ¬ q.Full) →
      ∃ j q q', j < n ∧ d.workersInputQueues[(s + j) % n]? = some q ∧ ¬ q.Full ∧
        (∀ i < j, ∀ p, d.workersInputQueues[(s + i) % n]? = some p → p.Full) ∧
        q'.capacity = q.capacity ∧ q'.items = q.items ++ [msg] ∧
        d.handleRadiusEvent msg fuel = some (.ok
          ({ workersInputQueues := d.workersInputQueues.set ((s + j) % n) q'
             workerIndex := (s + j) % n + 1 }, true))) ∧
      ((∀ q ∈ d.workersInputQueues, q.Full) →
        d.handleRadiusEvent msg fuel = some (.ok
          ({ d with workerIndex := (s + n - 1) % n + 1 }, false))) := by
  intro n s
  constructor
  · rintro ⟨q₀, mem, room⟩
    obtain ⟨j, q, below, found, room, full⟩ := exists_first_room mem room
    obtain ⟨q', push, capacity, items⟩ := BoundedQueue.tryPush_of_not_full msg room
    exact ⟨j, q, q', below, found, room, full, capacity, items,
      handleRadiusEvent_of_first queues.2 enough below found push full⟩
  · intro full
    rw [show s + n - 1 = s + (n - 1) from Nat.add_sub_assoc queues.1 s]
    exact handleRadiusEvent_of_all_full queues.1 queues.2 enough full

/-- Three queues, the one whose turn it is and the next one full. -/
theorem handleRadiusEvent_firstFit_three :
    let d : Dispatcher ℕ := ⟨[.empty 1, ⟨1, [5], by decide⟩, ⟨1, [6], by decide⟩], 1⟩
    ((∃ q ∈ d.workersInputQueues, ¬ q.Full) →
      ∃ j q q', j < 3 ∧ d.workersInputQueues[(1 + j) % 3]? = some q ∧ ¬ q.Full ∧
        (∀ i < j, ∀ p, d.workersInputQueues[(1 + i) % 3]? = some p → p.Full) ∧
        q'.capacity = q.capacity ∧ q'.items = q.items ++ [7] ∧
        d.handleRadiusEvent 7 3 = some (.ok
          ({ workersInputQueues := d.workersInputQueues.set ((1 + j) % 3) q'
             workerIndex := (1 + j) % 3 + 1 }, true))) ∧
      ((∀ q ∈ d.workersInputQueues, q.Full) →
        d.handleRadiusEvent 7 3 = some (.ok
          ({ d with workerIndex := (1 + 3 - 1) % 3 + 1 }, false))) :=
  handleRadiusEvent_firstFit _ 7 (by decide) (by decide)

end Dispatcher

end RadiusEventHandler
