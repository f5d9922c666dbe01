import RadiusEventHandler.DispatchSteps

/-!
# Dispatch neither loses nor duplicates

Whatever the workers pop in between, the tries for one message go round the
queues once (`Inv.flight`): the message is pushed once, or dropped after one
refusal by each queue. What was pushed to a queue has been taken by the worker
of the queue, in the order of dispatch, or is still in it (`Inv.fifo`).
-/

namespace RadiusEventHandler

open Cyclic

namespace DispatchState

variable {α : Type*}

/-- The places a dispatched message can be in. -/
inductive Place where
  | queued (queue : ℕ)
  | taken (worker : ℕ)
  | dispatching
  | dropped

/-- What is in a place. -/
def inPlace (s : DispatchState α) : Place → List (ℕ × α)
  | .queued queue =>
      match s.dispatcher.workersInputQueues[queue]? with
      | some q => q.items
      | none => []
  | .taken worker => s.takenBy worker
  | .dispatching => s.inFlight
  | .dropped => s.dropped

variable {s s' : DispatchState α} {msg m : ℕ × α} {a : DispatchAction α} {n k w : ℕ}
  {acts : List (DispatchAction α)} {capacities : List ℕ}

/-- `j` tries for a message, going round from `st`, all of them refused. -/
def refusals (m : ℕ × α) (n st j : ℕ) : List (TryPush (ℕ × α)) :=
  (List.range j).map fun i => ⟨m, turn n st i, false⟩

theorem refusals_succ (m : ℕ × α) (n st j : ℕ) :
    refusals m n st (j + 1) = refusals m n st j ++ [⟨m, turn n st j, false⟩] := by
  rw [refusals, List.range_succ, List.map_append]
  rfl

/-! ## The invariant -/

structure Inv (n : ℕ) (s : DispatchState α) : Prop where
  queues : s.dispatcher.workersInputQueues.length = n
  index : s.dispatcher.workerIndex ≤ n
  numbered : s.dispatched.map Prod.fst = List.range s.dispatched.length
  fifo : ∀ w q, s.dispatcher.workersInputQueues[w]? = some q →
    s.takenBy w ++ q.items = s.pushedTo w
  takers : ∀ t ∈ s.taken, t.1 < n
  places : (s.accepted ++ s.inFlight ++ s.dropped).Perm s.dispatched
  increasing : ((s.accepted ++ s.inFlight).map Prod.fst).Pairwise (· < ·)
  tried : ∀ t ∈ s.tries, t.queue < n ∧ t.msg.1 < s.dispatched.length
  flight : ∀ m tries, s.nextTry = some (m, tries) → ∃ st j, j < n ∧ tries = UInt8.ofNat j ∧
    s.nextQueue = turn n st j ∧ s.triesOf m.1 = refusals m n st j
  refused : ∀ m ∈ s.dropped, ∃ st, s.triesOf m.1 = refusals m n st n

theorem inv_init (capacities : List ℕ) :
    (init capacities : DispatchState α).Inv capacities.length where
  queues := List.length_map _
  index := Nat.zero_le _
  numbered := rfl
  fifo := by
    intro w q there
    obtain ⟨c, -, rfl⟩ := List.mem_map.mp (List.mem_of_getElem? there)
    rfl
  takers := nofun
  places := .nil
  increasing := .nil
  tried := nofun
  flight := nofun
  refused := nofun

theorem Inv.numbers (inv : s.Inv n) :
    ((s.accepted ++ s.inFlight ++ s.dropped).map Prod.fst).Perm
      (List.range s.dispatched.length) :=
  inv.numbered ▸ inv.places.map Prod.fst

theorem Inv.number_lt (inv : s.Inv n) (mem : m ∈ s.accepted ++ s.inFlight ++ s.dropped) :
    m.1 < s.dispatched.length :=
  List.mem_range.mp (inv.numbers.mem_iff.mp (List.mem_map_of_mem mem))

/-- A dropped message is not the one that is being dispatched. -/
theorem Inv.dropped_ne (inv : s.Inv n) (flies : s.inFlight = [msg]) (mem : m ∈ s.dropped) :
    msg.1 ≠ m.1 := by
  have nodup := inv.numbers.nodup_iff.mpr List.nodup_range
  rw [List.map_append] at nodup
  have apart := (List.nodup_append'.mp nodup).2.2
  have there : m.1 ∈ s.dropped.map Prod.fst := List.mem_map_of_mem mem
  intro same
  rw [← same] at there
  refine apart ?_ there
  rw [flies]
  simp

theorem Inv.handle (inv : s.Inv n) (pos : 0 < n) (idle : s.phase = .idle) (msg : α) :
    Inv n { s with
      phase := .first (s.dispatched.length, msg)
      dispatched := s.dispatched ++ [(s.dispatched.length, msg)] } := by
  have empty : s.inFlight = [] := by
    rw [inFlight, idle]
    rfl
  have places := inv.places
  have increasing := inv.increasing
  rw [empty, List.append_nil] at places increasing
  refine ⟨inv.queues, inv.index, ?_, inv.fifo, inv.takers, ?_, ?_, ?_, ?_, inv.refused⟩
  · rw [List.map_append, inv.numbered, List.length_append]
    exact List.range_succ.symm
  · -- the new message goes to the end of the dispatched ones
    have moved : (s.accepted ++ [(s.dispatched.length, msg)] ++ s.dropped).Perm
        (s.accepted ++ s.dropped ++ [(s.dispatched.length, msg)]) := by
      rw [List.append_assoc, List.append_assoc]
      exact List.perm_append_comm.append_left _
    exact moved.trans (places.append_right _)
  · show ((s.accepted ++ [(s.dispatched.length, msg)]).map Prod.fst).Pairwise (· < ·)
    rw [List.map_append, List.pairwise_append]
    refine ⟨increasing, List.pairwise_singleton _ _, ?_⟩
    intro k mem k' mem'
    obtain ⟨m, accepted, rfl⟩ := List.mem_map.mp mem
    rw [List.map_singleton, List.mem_singleton] at mem'
    rw [mem']
    exact inv.number_lt (by simp [accepted])
  · intro t mem
    obtain ⟨queue, number⟩ := inv.tried t mem
    exact ⟨queue, by simpa using Nat.lt_succ_of_lt number⟩
  · intro m tries next
    obtain ⟨rfl, rfl⟩ := Prod.mk.inj (Option.some.inj next)
    refine ⟨s.nextQueue, 0, pos, rfl, ?_, ?_⟩
    · have lt : s.nextQueue < n := inv.queues ▸ Nat.mod_lt _ (inv.queues ▸ pos)
      exact (turn_zero lt).symm
    · -- the number is new
      apply List.filter_eq_nil_iff.mpr
      intro t mem
      simpa using Nat.ne_of_lt (inv.tried t mem).2

theorem Inv.pop {q q' : BoundedQueue (ℕ × α)} (inv : s.Inv n)
    (there : s.dispatcher.workersInputQueues[w]? = some q) (items : q.items = m :: q'.items) :
    Inv n { s with
      dispatcher := { s.dispatcher with
        workersInputQueues := s.dispatcher.workersInputQueues.set w q' }
      taken := s.taken ++ [(w, m)] } := by
  have lt : w < s.dispatcher.workersInputQueues.length := (List.getElem?_eq_some_iff.mp there).1
  have length : (s.dispatcher.workersInputQueues.set w q').length = n :=
    List.length_set.trans inv.queues
  refine ⟨length, inv.index, inv.numbered, ?_, ?_, inv.places, inv.increasing, inv.tried, ?_,
    inv.refused⟩
  · intro v p at_v
    rw [takenBy_concat (s := s) rfl]
    by_cases same : w = v
    · subst same
      rw [List.getElem?_set_self lt] at at_v
      cases at_v
      rw [if_pos rfl, List.append_assoc, List.singleton_append, ← items]
      exact inv.fifo w q there
    · rw [List.getElem?_set_ne same] at at_v
      rw [if_neg same, List.append_nil]
      exact inv.fifo v p at_v
  · intro t mem
    rcases List.mem_append.mp mem with old | new
    · exact inv.takers t old
    · rw [List.mem_singleton.mp new]
      exact inv.queues ▸ lt
  · intro m tries next
    obtain ⟨st, j, lt, count, queue, before⟩ := inv.flight m tries next
    refine ⟨st, j, lt, count, ?_, before⟩
    rw [← queue, nextQueue, nextQueue, length, inv.queues]

/-- A refused try changes no queue. -/
theorem Inv.fifo_refused {u : DispatchState α} {t : TryPush (ℕ × α)} (inv : s.Inv n)
    (tries : u.tries = s.tries ++ [t]) (refused : t.pushed = false) (taken : u.taken = s.taken)
    (queues : u.dispatcher.workersInputQueues = s.dispatcher.workersInputQueues) :
    ∀ w q, u.dispatcher.workersInputQueues[w]? = some q →
      u.takenBy w ++ q.items = u.pushedTo w := by
  intro w q there
  have same : u.takenBy w = s.takenBy w := by rw [takenBy, takenBy, taken]
  rw [queues] at there
  rw [pushedTo_concat tries, same, refused]
  simpa using inv.fifo w q there

/-- A try of the message in flight adds nothing to the tries of a dropped message. -/
theorem Inv.refused_concat {u : DispatchState α} {t : TryPush (ℕ × α)} (inv : s.Inv n)
    (flies : s.inFlight = [t.msg]) (tries : u.tries = s.tries ++ [t]) (mem : m ∈ s.dropped) :
    ∃ st, u.triesOf m.1 = refusals m n st n := by
  obtain ⟨st, all⟩ := inv.refused m mem
  refine ⟨st, ?_⟩
  rw [triesOf_concat tries, if_neg (inv.dropped_ne flies mem), List.append_nil, all]

theorem Inv.pushed {q q' : BoundedQueue (ℕ × α)} {tries : UInt8} (inv : s.Inv n)
    (next : s.nextTry = some (m, tries))
    (there : s.dispatcher.workersInputQueues[s.nextQueue]? = some q)
    (items : q'.items = q.items ++ [m]) :
    Inv n { s with
      dispatcher := ⟨s.dispatcher.workersInputQueues.set s.nextQueue q', s.nextQueue + 1⟩
      tries := s.tries ++ [⟨m, s.nextQueue, true⟩]
      phase := .idle } := by
  have flies := nextTry_mem next
  have lt : s.nextQueue < s.dispatcher.workersInputQueues.length :=
    (List.getElem?_eq_some_iff.mp there).1
  obtain ⟨st, j, below, -, queue, before⟩ := inv.flight m tries next
  have accepted : ({ s with
      dispatcher := ⟨s.dispatcher.workersInputQueues.set s.nextQueue q', s.nextQueue + 1⟩
      tries := s.tries ++ [⟨m, s.nextQueue, true⟩]
      phase := .idle } : DispatchState α).accepted = s.accepted ++ [m] :=
    accepted_concat (s := s) (t := ⟨m, s.nextQueue, true⟩) rfl
  refine ⟨List.length_set.trans inv.queues, inv.queues ▸ lt, inv.numbered, ?_, inv.takers, ?_, ?_,
    ?_, nofun, ?_⟩
  · intro w p at_w
    rw [pushedTo_concat (s := s) rfl]
    show s.takenBy w ++ p.items = _
    by_cases same : s.nextQueue = w
    · subst same
      rw [List.getElem?_set_self lt] at at_w
      cases at_w
      rw [if_pos ⟨rfl, rfl⟩, items, ← List.append_assoc, inv.fifo _ q there]
    · rw [List.getElem?_set_ne same] at at_w
      rw [if_neg fun both => same both.2, List.append_nil]
      exact inv.fifo w p at_w
  · rw [accepted]
    have places := inv.places
    rw [flies] at places
    simpa [inFlight, Phase.msg] using places
  · rw [accepted]
    have increasing := inv.increasing
    rw [flies] at increasing
    simpa [inFlight, Phase.msg] using increasing
  · intro t mem
    rcases List.mem_append.mp mem with old | new
    · exact inv.tried t old
    · rw [List.mem_singleton.mp new]
      exact ⟨inv.queues ▸ lt, inv.number_lt (by simp [flies])⟩
  · intro m' mem
    exact inv.refused_concat (t := ⟨m, s.nextQueue, true⟩) flies rfl mem

/-- What the two ends of a refused try have in common. The counter has not
gone past the last queue. -/
theorem Inv.refusal {tries : UInt8} {q : BoundedQueue (ℕ × α)} (inv : s.Inv n)
    (bound : n ≤ 256) (next : s.nextTry = some (m, tries))
    (there : s.dispatcher.workersInputQueues[s.nextQueue]? = some q) :
    (∀ t ∈ s.tries ++ [TryPush.mk m s.nextQueue false],
        t.queue < n ∧ t.msg.1 < s.dispatched.length) ∧
      s.nextQueue + 1 ≤ n ∧
      ∃ st j, j < n ∧ (UInt8.ofNat j).toNat = j ∧ tries = UInt8.ofNat j ∧
        s.nextQueue = turn n st j ∧
        s.triesOf m.1 ++ [⟨m, s.nextQueue, false⟩] = refusals m n st (j + 1) := by
  have flies := nextTry_mem next
  have lt : s.nextQueue < n := inv.queues ▸ (List.getElem?_eq_some_iff.mp there).1
  refine ⟨fun t mem => ?_, lt, ?_⟩
  · rcases List.mem_append.mp mem with old | new
    · exact inv.tried t old
    · rw [List.mem_singleton.mp new]
      exact ⟨lt, inv.number_lt (by simp [flies])⟩
  · obtain ⟨st, j, below, count, queue, before⟩ := inv.flight m tries next
    have small : (UInt8.ofNat j).toNat = j :=
      UInt8.toNat_ofNat_of_lt' (Nat.lt_of_lt_of_le below bound)
    exact ⟨st, j, below, small, count, queue, by rw [refusals_succ, before, queue]⟩

theorem Inv.refusedAgain {tries : UInt8} {q : BoundedQueue (ℕ × α)} (inv : s.Inv n)
    (bound : n ≤ 256) (next : s.nextTry = some (m, tries))
    (there : s.dispatcher.workersInputQueues[s.nextQueue]? = some q)
    (again : tries.toNat < s.dispatcher.workersInputQueues.length - 1) :
    Inv n { s with
      dispatcher := { s.dispatcher with workerIndex := s.nextQueue + 1 }
      tries := s.tries ++ [⟨m, s.nextQueue, false⟩]
      phase := .retry m tries } := by
  have flies := nextTry_mem next
  obtain ⟨tried, index, st, j, -, small, rfl, queue, refusals⟩ :=
    inv.refusal bound next there
  have accepted : ({ s with
      dispatcher := { s.dispatcher with workerIndex := s.nextQueue + 1 }
      tries := s.tries ++ [⟨m, s.nextQueue, false⟩]
      phase := .retry m (UInt8.ofNat j) } : DispatchState α).accepted = s.accepted :=
    (accepted_concat (s := s) rfl).trans (List.append_nil _)
  refine ⟨inv.queues, index, inv.numbered, inv.fifo_refused rfl rfl rfl rfl, inv.takers, ?_, ?_,
    tried, ?_, ?_⟩
  · have places := inv.places
    rw [flies] at places
    rw [accepted]
    exact places
  · have increasing := inv.increasing
    rw [flies] at increasing
    rw [accepted]
    exact increasing
  · rintro m' tries' next'
    obtain ⟨rfl, rfl⟩ := Prod.mk.inj (Option.some.inj next')
    rw [small, inv.queues] at again
    refine ⟨st, j + 1, Nat.add_lt_of_lt_sub again, Dispatcher.numberOfTries_succ j, ?_, ?_⟩
    · show (s.nextQueue + 1) % s.dispatcher.workersInputQueues.length = turn n st (j + 1)
      rw [queue, inv.queues, turn_succ]
    · rw [triesOf_concat (s := s) rfl, if_pos rfl, refusals]
  · intro m' mem
    exact inv.refused_concat (t := ⟨m, s.nextQueue, false⟩) flies rfl mem

theorem Inv.refusedLast {tries : UInt8} {q : BoundedQueue (ℕ × α)} (inv : s.Inv n)
    (bound : n ≤ 256) (next : s.nextTry = some (m, tries))
    (there : s.dispatcher.workersInputQueues[s.nextQueue]? = some q)
    (last : ¬ tries.toNat < s.dispatcher.workersInputQueues.length - 1) :
    Inv n { s with
      dispatcher := { s.dispatcher with workerIndex := s.nextQueue + 1 }
      tries := s.tries ++ [⟨m, s.nextQueue, false⟩]
      phase := .idle
      dropped := s.dropped ++ [m] } := by
  have flies := nextTry_mem next
  obtain ⟨tried, index, st, j, below, small, rfl, queue, refusals⟩ :=
    inv.refusal bound next there
  have accepted : ({ s with
      dispatcher := { s.dispatcher with workerIndex := s.nextQueue + 1 }
      tries := s.tries ++ [⟨m, s.nextQueue, false⟩]
      phase := .idle
      dropped := s.dropped ++ [m] } : DispatchState α).accepted = s.accepted :=
    (accepted_concat (s := s) rfl).trans (List.append_nil _)
  have places := inv.places
  have increasing := inv.increasing
  rw [flies] at places increasing
  refine ⟨inv.queues, index, inv.numbered, inv.fifo_refused rfl rfl rfl rfl, inv.takers, ?_, ?_,
    tried, nofun, ?_⟩
  · rw [accepted]
    refine List.Perm.trans ?_ places
    show (s.accepted ++ [] ++ (s.dropped ++ [m])).Perm (s.accepted ++ [m] ++ s.dropped)
    rw [List.append_nil, List.append_assoc]
    exact List.perm_append_comm.append_left _
  · rw [accepted]
    have shorter : (s.accepted ++ []).Sublist (s.accepted ++ [m]) :=
      (List.nil_sublist _).append_left _
    exact List.Pairwise.sublist (shorter.map _) increasing
  · intro m' mem
    rcases List.mem_append.mp mem with old | new
    · exact inv.refused_concat (t := ⟨m, s.nextQueue, false⟩) flies rfl old
    · -- after the last try every queue has refused the message
      rw [List.mem_singleton.mp new]
      rw [small, inv.queues] at last
      have all : j + 1 = n := by omega
      refine ⟨st, ?_⟩
      rw [triesOf_concat (s := s) rfl, if_pos rfl, refusals, all]

theorem Inv.step (inv : s.Inv n) (pos : 0 < n) (bound : n ≤ 256) (step : s.step a = some s') :
    s'.Inv n := by
  cases a with
  | handle msg =>
      obtain ⟨idle, rfl⟩ := handle_cases step
      exact inv.handle pos idle msg
  | tryPush =>
      obtain ⟨m, tries, q, next, there, ⟨q', -, items, rfl⟩ | ⟨-, again, rfl⟩ | ⟨-, last, rfl⟩⟩ :=
        tryPush_cases step
      · exact inv.pushed next there items
      · exact inv.refusedAgain bound next there again
      · exact inv.refusedLast bound next there last
  | pop w =>
      obtain ⟨q, q', m, there, items, rfl⟩ := pop_cases step
      exact inv.pop there items

theorem inv_steps (pos : 0 < capacities.length) (bound : capacities.length ≤ 256)
    (run : Runs.run step (init capacities) acts = some s) : s.Inv capacities.length :=
  Runs.invariant_of_step (I := fun t => t.Inv capacities.length) (inv_init capacities)
    (fun _ _ _ inv step => inv.step pos bound step) run

/-! ## One place for each message -/

/-- How often the message with the number is in a place. -/
def copies (s : DispatchState α) (number : ℕ) (place : Place) : ℕ :=
  ((s.inPlace place).map Prod.fst).count number

theorem mem_pushedTo : m ∈ s.pushedTo w ↔
    ∃ t ∈ s.tries, t.pushed = true ∧ t.queue = w ∧ t.msg = m := by
  simp [pushedTo, and_assoc]

theorem mem_accepted : m ∈ s.accepted ↔ ∃ t ∈ s.tries, t.pushed = true ∧ t.msg = m := by
  simp [accepted, and_assoc]

theorem pushedTo_sublist (s : DispatchState α) (w : ℕ) : (s.pushedTo w).Sublist s.accepted := by
  apply List.Sublist.map
  apply List.monotone_filter_right
  intro t mine
  exact (Bool.and_eq_true_iff.mp mine).1

theorem Inv.accepted_increasing (inv : s.Inv n) :
    (s.accepted.map Prod.fst).Pairwise (· < ·) := by
  have increasing := inv.increasing
  rw [List.map_append] at increasing
  exact (List.pairwise_append.mp increasing).1

theorem Inv.pushedTo_increasing (inv : s.Inv n) (w : ℕ) :
    ((s.pushedTo w).map Prod.fst).Pairwise (· < ·) :=
  List.Pairwise.sublist ((s.pushedTo_sublist w).map _) inv.accepted_increasing

theorem Inv.accepted_nodup (inv : s.Inv n) : (s.accepted.map Prod.fst).Nodup :=
  inv.accepted_increasing.imp Nat.ne_of_lt

/-- A message that was pushed was pushed to one queue, and once. -/
theorem Inv.pushed_once (inv : s.Inv n) (mem : k ∈ s.accepted.map Prod.fst) :
    ∃ w, ∀ v, ((s.pushedTo v).map Prod.fst).count k = if v = w then 1 else 0 := by
  obtain ⟨m, accepted, rfl⟩ := List.mem_map.mp mem
  obtain ⟨t, made, pushed, rfl⟩ := mem_accepted.mp accepted
  have nodup := inv.accepted_nodup
  rw [DispatchState.accepted, List.map_map] at nodup
  refine ⟨t.queue, fun v => ?_⟩
  have distinct : ((s.pushedTo v).map Prod.fst).Nodup :=
    (inv.pushedTo_increasing v).imp Nat.ne_of_lt
  rw [distinct.count]
  by_cases same : v = t.queue
  · subst same
    rw [if_pos rfl, if_pos]
    exact List.mem_map_of_mem (mem_pushedTo.mpr ⟨t, made, pushed, rfl, rfl⟩)
  · rw [if_neg same, if_neg]
    intro elsewhere
    obtain ⟨m, there, number⟩ := List.mem_map.mp elsewhere
    obtain ⟨t', made', pushed', rfl, rfl⟩ := mem_pushedTo.mp there
    -- two pushes of one number are one
    have eq := List.inj_on_of_nodup_map nodup (List.mem_filter.mpr ⟨made', pushed'⟩)
      (List.mem_filter.mpr ⟨made, pushed⟩) number
    exact same (congrArg TryPush.queue eq)

/-- What was pushed to a queue has been taken by its worker or is still there. -/
theorem Inv.copies_queue (inv : s.Inv n) (k w : ℕ) :
    s.copies k (.taken w) + s.copies k (.queued w) = ((s.pushedTo w).map Prod.fst).count k := by
  rw [copies, copies, ← List.count_append, ← List.map_append]
  cases there : s.dispatcher.workersInputQueues[w]? with
  | some q =>
      rw [← inv.fifo w q there]
      simp only [inPlace, there]
  | none =>
      have outside : n ≤ w := inv.queues ▸ List.getElem?_eq_none_iff.mp there
      have taken : s.takenBy w = [] := by
        rw [takenBy, List.map_eq_nil_iff, List.filter_eq_nil_iff]
        intro t mem
        simpa using Nat.ne_of_lt (Nat.lt_of_lt_of_le (inv.takers t mem) outside)
      have pushed : s.pushedTo w = [] := by
        rw [List.eq_nil_iff_forall_not_mem]
        intro m mem
        obtain ⟨t, made, -, rfl, -⟩ := mem_pushedTo.mp mem
        exact absurd (inv.tried t made).1 (Nat.not_lt.mpr outside)
      simp only [inPlace, there, taken, pushed, List.append_nil]

theorem Inv.one_place (inv : s.Inv n) (lt : k < s.dispatched.length) :
    ∃ place, s.copies k place = 1 ∧ ∀ other, other ≠ place → s.copies k other = 0 := by
  have total : (s.accepted.map Prod.fst).count k + s.copies k .dispatching +
      s.copies k .dropped = 1 := by
    have count := inv.numbers.count_eq k
    rw [List.map_append, List.map_append, List.count_append, List.count_append,
      List.nodup_range.count, if_pos (List.mem_range.mpr lt)] at count
    exact count
  have queue := inv.copies_queue k
  by_cases pushed : k ∈ s.accepted.map Prod.fst
  · rw [inv.accepted_nodup.count, if_pos pushed] at total
    obtain ⟨w, once⟩ := inv.pushed_once pushed
    have here := (queue w).trans (once w)
    rw [if_pos rfl] at here
    have elsewhere : ∀ v, v ≠ w → s.copies k (.taken v) = 0 ∧ s.copies k (.queued v) = 0 := by
      intro v other
      have none := (queue v).trans (once v)
      rw [if_neg other] at none
      exact Nat.add_eq_zero_iff.mp none
    rcases Nat.add_eq_one_iff.mp here with ⟨free, there⟩ | ⟨there, free⟩
    · refine ⟨.queued w, there, fun other ne => ?_⟩
      cases other with
      | queued v => exact (elsewhere v fun eq => ne (eq ▸ rfl)).2
      | taken v =>
          by_cases same : v = w
          · rwa [same]
          · exact (elsewhere v same).1
      | dispatching => omega
      | dropped => omega
    · refine ⟨.taken w, there, fun other ne => ?_⟩
      cases other with
      | queued v =>
          by_cases same : v = w
          · rwa [same]
          · exact (elsewhere v same).2
      | taken v => exact (elsewhere v fun eq => ne (eq ▸ rfl)).1
      | dispatching => omega
      | dropped => omega
  · rw [inv.accepted_nodup.count, if_neg pushed, zero_add] at total
    have nowhere : ∀ v, s.copies k (.taken v) = 0 ∧ s.copies k (.queued v) = 0 := by
      intro v
      apply Nat.add_eq_zero_iff.mp
      rw [queue v, List.count_eq_zero]
      exact fun mem => pushed (((s.pushedTo_sublist v).map _).subset mem)
    rcases Nat.add_eq_one_iff.mp total with ⟨free, there⟩ | ⟨there, free⟩
    · refine ⟨.dropped, there, fun other ne => ?_⟩
      cases other with
      | queued v => exact (nowhere v).2
      | taken v => exact (nowhere v).1
      | dispatching => exact free
      | dropped => exact absurd rfl ne
    · refine ⟨.dispatching, there, fun other ne => ?_⟩
      cases other with
      | queued v => exact (nowhere v).2
      | taken v => exact (nowhere v).1
      | dispatching => exact absurd rfl ne
      | dropped => exact free

theorem Inv.inPlace_subset (inv : s.Inv n) (place : Place) : s.inPlace place ⊆ s.dispatched := by
  have all : ∀ m ∈ s.accepted ++ s.inFlight ++ s.dropped, m ∈ s.dispatched :=
    fun m => inv.places.mem_iff.mp
  intro m mem
  cases place with
  | queued w =>
      cases there : s.dispatcher.workersInputQueues[w]? with
      | none => simp [inPlace, there] at mem
      | some q =>
          rw [inPlace, there] at mem
          have pushed : m ∈ s.pushedTo w := inv.fifo w q there ▸ List.mem_append_right _ mem
          exact all m (by simp [(s.pushedTo_sublist w).subset pushed])
  | taken w =>
      have lt : w < s.dispatcher.workersInputQueues.length := by
        obtain ⟨t, mem, -⟩ := List.mem_map.mp mem
        obtain ⟨mem, mine⟩ := List.mem_filter.mp mem
        rw [inv.queues, ← beq_iff_eq.mp mine]
        exact inv.takers t mem
      have pushed : m ∈ s.pushedTo w :=
        inv.fifo w _ (List.getElem?_eq_getElem lt) ▸ List.mem_append_left _ mem
      exact all m (by simp [(s.pushedTo_sublist w).subset pushed])
  | dispatching => exact all m (by simp [show m ∈ s.inFlight from mem])
  | dropped => exact all m (by simp [show m ∈ s.dropped from mem])

/-- A try that is due does not miss the queues. -/
theorem tryPush_enabled (pos : 0 < s.dispatcher.workersInputQueues.length)
    (busy : s.phase ≠ .idle) : ∃ s', s.step .tryPush = some s' := by
  have next := fun msg => Dispatcher.tryPushNext_isOk (d := s.dispatcher.wrap)
    (Nat.mod_lt _ pos) msg
  cases phase : s.phase with
  | idle => exact absurd phase busy
  | first msg =>
      obtain ⟨d, pushed, eq⟩ := next msg
      simp only [DispatchState.step, phase, eq]
      exact ⟨_, rfl⟩
  | retry msg tries =>
      obtain ⟨d, pushed, eq⟩ := next msg
      simp only [DispatchState.step, phase, Dispatcher.retryBody, eq]
      exact ⟨_, rfl⟩

/-- **Dispatch neither loses nor duplicates a message.** -/
theorem dispatch_lossless (queues : 1 ≤ capacities.length ∧ capacities.length ≤ 256)
    (run : Runs.run step (init capacities) acts = some s) :
    let n := capacities.length
    s.dispatched.map Prod.fst = List.range s.dispatched.length ∧
      (∀ m ∈ s.dispatched, ∃ place, s.copies m.1 place = 1 ∧
        ∀ other, other ≠ place → s.copies m.1 other = 0) ∧
      (∀ place, s.inPlace place ⊆ s.dispatched) ∧
      (∀ w q, s.dispatcher.workersInputQueues[w]? = some q →
        s.takenBy w ++ q.items = s.pushedTo w ∧
          ((s.pushedTo w).map Prod.fst).Pairwise (· < ·)) ∧
      (∀ m ∈ s.dropped, (∀ t ∈ s.triesOf m.1, t.pushed = false) ∧
        ((s.triesOf m.1).map TryPush.queue).Perm (List.range n)) ∧
      (∀ t ∈ s.tries, t.queue < n) ∧
      s.dispatcher.workersInputQueues.length = n ∧ s.dispatcher.workerIndex ≤ n ∧
      (s.phase ≠ .idle → ∃ s', s.step .tryPush = some s') := by
  have inv := inv_steps queues.1 queues.2 run
  refine ⟨inv.numbered, fun m mem => inv.one_place ?_, inv.inPlace_subset,
    fun w q there => ⟨inv.fifo w q there, inv.pushedTo_increasing w⟩, ?_,
    fun t mem => (inv.tried t mem).1, inv.queues, inv.index, ?_⟩
  · have number := List.mem_map_of_mem (f := Prod.fst) mem
    rw [inv.numbered] at number
    exact List.mem_range.mp number
  · intro m mem
    obtain ⟨st, all⟩ := inv.refused m mem
    rw [all]
    constructor
    · intro t refused
      obtain ⟨j, -, rfl⟩ := List.mem_map.mp refused
      rfl
    · rw [refusals, List.map_map]
      exact turns_perm queues.1 st
  · exact tryPush_enabled (inv.queues ▸ queues.1)

/-- The fourth message finds both queues full and is dropped; the third was
refused by queue 0, from which its worker has popped nothing. -/
theorem dispatch_lossless_four :
    let acts : List (DispatchAction ℕ) := [.handle 7, .tryPush, .handle 8, .tryPush, .pop 1,
      .handle 9, .tryPush, .tryPush, .handle 10, .tryPush, .tryPush]
    ∃ s, Runs.run step (init [1, 1]) acts = some s ∧
      s.inPlace (.queued 0) = [(0, 7)] ∧ s.inPlace (.queued 1) = [(2, 9)] ∧
      s.inPlace (.taken 1) = [(1, 8)] ∧ s.dropped = [(3, 10)] ∧
      s.dispatched.map Prod.fst = List.range s.dispatched.length ∧
      (∀ m ∈ s.dispatched, ∃ place, s.copies m.1 place = 1 ∧
        ∀ other, other ≠ place → s.copies m.1 other = 0) ∧
      (∀ place, s.inPlace place ⊆ s.dispatched) ∧
      (∀ w q, s.dispatcher.workersInputQueues[w]? = some q →
        s.takenBy w ++ q.items = s.pushedTo w ∧
          ((s.pushedTo w).map Prod.fst).Pairwise (· < ·)) ∧
      (∀ m ∈ s.dropped, (∀ t ∈ s.triesOf m.1, t.pushed = false) ∧
        ((s.triesOf m.1).map TryPush.queue).Perm (List.range 2)) ∧
      (∀ t ∈ s.tries, t.queue < 2) ∧
      s.dispatcher.workersInputQueues.length = 2 ∧ s.dispatcher.workerIndex ≤ 2 ∧
      (s.phase ≠ .idle → ∃ s', s.step .tryPush = some s') := by
  intro acts
  have reach : ∃ s, Runs.run step (init [1, 1]) acts = some s ∧
      s.inPlace (.queued 0) = [(0, 7)] ∧ s.inPlace (.queued 1) = [(2, 9)] ∧
      s.inPlace (.taken 1) = [(1, 8)] ∧ s.dropped = [(3, 10)] := ⟨_, rfl, rfl, rfl, rfl, rfl⟩
  obtain ⟨s, run, first, second, taken, dropped⟩ := reach
  exact ⟨s, run, first, second, taken, dropped, dispatch_lossless (by decide) run⟩

end DispatchState

end RadiusEventHandler
