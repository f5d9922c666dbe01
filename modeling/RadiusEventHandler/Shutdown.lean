import RadiusEventHandler.Threads

/-!
# Shutdown (`stopModules`)

A thread leaves its loop at the first test after its flag has been set, whatever
its queue holds: nothing drains the queues. Nor is anything lost or done twice.
When `stopModules` returns, a queue holds what it held when the flag of its
thread was set, but for the element in front if the thread was then past its
test.
-/

namespace RadiusEventHandler

/-! ## The output queue -/

namespace Shared

/-- The sender has taken the pushed records in their order, up to those that
are in the queue. -/
def OutputInOrder (s : Shared) : Prop :=
  ∃ sent waits, s.pushed = sent ++ waits ∧ s.outputQueue.items = waits.map some ∧
    s.plainStructs.length = sent.length

variable {s u : Shared} {r : RecordId}

theorem OutputInOrder.congr (inOrder : s.OutputInOrder) (pushed : u.pushed = s.pushed)
    (outputQueue : u.outputQueue = s.outputQueue) (plainStructs : u.plainStructs = s.plainStructs) :
    u.OutputInOrder := by
  rw [OutputInOrder, pushed, outputQueue, plainStructs]
  exact inOrder

theorem OutputInOrder.push (inOrder : s.OutputInOrder)
    (pushed : u.pushed = if s.outputQueue.Full then s.pushed else s.pushed ++ [r])
    (outputQueue : u.outputQueue = (s.outputQueue.tryPush (some r)).getD s.outputQueue)
    (plainStructs : u.plainStructs = s.plainStructs) : u.OutputInOrder := by
  by_cases full : s.outputQueue.Full
  · rw [if_pos full] at pushed
    rw [BoundedQueue.tryPush_eq_none.mpr full] at outputQueue
    exact inOrder.congr pushed outputQueue plainStructs
  · obtain ⟨q, push, -, items⟩ := BoundedQueue.tryPush_of_not_full (some r) full
    obtain ⟨sent, waits, split, items', length⟩ := inOrder
    rw [if_neg full] at pushed
    rw [push] at outputQueue
    refine ⟨sent, waits ++ [r], ?_, ?_, ?_⟩
    · rw [pushed, split, List.append_assoc]
    · rw [outputQueue, Option.getD_some, items, items', List.map_append, List.map_singleton]
    · rw [plainStructs, length]

theorem OutputInOrder.hit (inOrder : s.OutputInOrder) (msg : DecodedMsg) (r : RecordId) :
    (s.hit msg r).OutputInOrder := by
  rw [hit_eq]
  exact inOrder.push (r := r) rfl rfl rfl

theorem OutputInOrder.store (inOrder : s.OutputInOrder) (msg : DecodedMsg) (r : RecordId) :
    (s.store msg r).OutputInOrder := by
  rw [store_eq]
  exact inOrder.congr rfl rfl rfl

theorem OutputInOrder.handleTimeout (inOrder : s.OutputInOrder) (owner : RecordId) (key : FlowKey)
    (operationAborted : Bool) : (s.handleTimeout owner key operationAborted).OutputInOrder := by
  unfold Shared.handleTimeout
  split
  · exact inOrder
  · split
    · rename_i r _
      rw [pushOutput_eq]
      exact inOrder.push (r := r) rfl rfl rfl
    · exact inOrder
    · exact inOrder

theorem OutputInOrder.envStep {e : EnvAction} (inOrder : s.OutputInOrder)
    (step : s.envStep e = some u) : u.OutputInOrder := by
  cases e with
  | expire r =>
      obtain ⟨key, -, rfl⟩ := expire_cases step
      exact inOrder.congr rfl rfl rfl
  | runHandler r =>
      obtain ⟨key, ⟨-, rfl⟩ | ⟨-, rfl⟩⟩ := runHandler_cases step
      · have waits : (s.setWait r (.completed key)).OutputInOrder := inOrder.congr rfl rfl rfl
        exact waits.handleTimeout r key false
      · exact inOrder.congr rfl rfl rfl
  | send applId now sendThrows =>
      obtain ⟨sent, waits, split, items, length⟩ := inOrder
      obtain ⟨r, rest, thrift, rfl, items', pushed, -, plain⟩ := send_front items step
      refine ⟨sent ++ [r], rest, ?_, items', ?_⟩
      · rw [pushed, split, List.append_assoc]
        rfl
      · rw [plain, List.length_append, List.length_append, length]
        rfl

end Shared

namespace Process

variable {s s' : Process}

/-! ## What polling does to the queues -/

/-- A datagram is put into one of the queues, or the queues are as before. -/
theorem receive_placed {datagram : Arrival} (step : s.receiveRaduisMessage datagram = some s') :
    s'.popped = s.popped ∧ s'.shared = s.shared ∧
      ((s'.accepted = s.accepted ∧
          s'.dispatcher.workersInputQueues = s.dispatcher.workersInputQueues) ∨
        ∃ p i q q', p.id = s.accepted.length ∧ s'.accepted = s.accepted ++ [p] ∧
          s.dispatcher.workersInputQueues[i]? = some q ∧ q'.items = q.items ++ [p] ∧
          s'.dispatcher.workersInputQueues = s.dispatcher.workersInputQueues.set i q') := by
  simp only [receiveRaduisMessage] at step
  split at step
  · split at step
    · split at step
      · rename_i dispatcher dispatch
        cases step
        rcases Dispatcher.placed_handleRadiusEvent dispatch with ⟨-, i, q, q', there, items, set⟩ |
          ⟨refused, -⟩
        · exact ⟨rfl, rfl, .inr ⟨_, i, q, q', rfl, rfl, there, items, set⟩⟩
        · cases refused
      · rename_i dispatcher dispatch
        cases step
        rcases Dispatcher.placed_handleRadiusEvent dispatch with ⟨pushed, -⟩ | ⟨-, same⟩
        · cases pushed
        · exact ⟨rfl, rfl, .inl ⟨rfl, same⟩⟩
      · cases step
    · cases step
      exact ⟨rfl, rfl, .inl ⟨rfl, rfl⟩⟩
  · cases step

/-- Polling pops nothing, and the rest of what it does is a receipt or a timer
handler. -/
theorem polled_cases {b : ProcessAction} (polled : b.isPolled = true)
    (step : s.step b = some s') :
    (∃ datagram, s.receiveRaduisMessage datagram = some s') ∨
    s' = { s with receiving := false } ∨
    (∃ e shared, s.shared.envStep e = some shared ∧ s' = { s with shared }) := by
  rcases step_cases step with ⟨datagram, -, receive⟩ | ⟨-, rfl⟩ | ⟨w, rfl, -⟩ |
    ⟨e, shared, -, env, rfl⟩
  · exact .inl ⟨datagram, receive⟩
  · exact .inr (.inl rfl)
  · cases polled
  · exact .inr (.inr ⟨e, shared, env, rfl⟩)

end Process

namespace Program

variable {s s' u t : Program} {a : ProgramAction} {w w' : ℕ} {m : ProgramModule}
  {acts post : List ProgramAction} {localEndpoint : Endpoint}
  {workersNumber workerQueueCapacity thriftQueueCapacity : ℕ}

/-! ## Messages in the workers' hands -/

/-- The messages the workers have popped and are not done with. -/
def inHands (s : Program) : List RadiusRawMsgPtr := s.workers.flatMap WorkerAt.inHand

theorem inHands_goto {at_w : WorkerAt} (there : s.workers[w]? = some at_w) (next : WorkerAt) :
    ∃ before after, s.inHands = before ++ at_w.inHand ++ after ∧
      (s.goto w next).inHands = before ++ next.inHand ++ after :=
  BoundedQueue.flatMap_set WorkerAt.inHand there next

theorem inHands_same {at_w next : WorkerAt} (there : s.workers[w]? = some at_w)
    (same : next.inHand = at_w.inHand) : (s.goto w next).inHands = s.inHands := by
  obtain ⟨before, after, old, new⟩ := inHands_goto there next
  rw [old, new, same]

theorem inHands_take {at_w next : WorkerAt} {p : RadiusRawMsgPtr}
    (there : s.workers[w]? = some at_w) (empty : at_w.inHand = []) (takes : next.inHand = [p]) :
    (s.goto w next).inHands.Perm (p :: s.inHands) := by
  obtain ⟨before, after, old, new⟩ := inHands_goto there next
  rw [old, new, empty, takes, List.append_nil, List.append_assoc]
  exact List.perm_middle

theorem inHands_done {at_w next : WorkerAt} {p : RadiusRawMsgPtr}
    (there : s.workers[w]? = some at_w) (takes : at_w.inHand = [p]) (empty : next.inHand = []) :
    s.inHands.Perm (p :: (s.goto w next).inHands) := by
  obtain ⟨before, after, old, new⟩ := inHands_goto there next
  rw [old, new, empty, takes, List.append_nil, List.append_assoc]
  exact List.perm_middle

/-! ## What is kept -/

/-- Every accepted message is in a queue or has been popped; a popped one is
handled, with what it decodes to, or in the hands of a worker. -/
structure Inv (s : Program) : Prop where
  ids : s.process.accepted.map RadiusRawMsgPtr.id = List.range s.process.accepted.length
  located : s.process.accepted.Perm
    (BoundedQueue.contents s.process.dispatcher.workersInputQueues ++ s.process.popped)
  handled : (s.process.popped.map RadiusRawMsgPtr.decoded?).Perm
    (s.process.shared.handled.map (fun h => some h.1) ++ s.inHands.map RadiusRawMsgPtr.decoded?)
  inOrder : s.process.shared.OutputInOrder

theorem inv_init : (init localEndpoint workersNumber workerQueueCapacity
    thriftQueueCapacity).Inv where
  ids := rfl
  located := Process.inv_init.located
  handled := by
    have idle : (init localEndpoint workersNumber workerQueueCapacity
        thriftQueueCapacity).inHands = [] := by
      rw [inHands, List.flatMap_eq_nil_iff]
      intro at_w mem
      rw [List.eq_of_mem_replicate mem]
      rfl
    rw [idle]
    exact .refl _
  inOrder := ⟨[], [], rfl, rfl, rfl⟩

/-- A step that leaves the messages alone. -/
theorem Inv.congr (inv : s.Inv) (accepted : s'.process.accepted = s.process.accepted)
    (queues : s'.process.dispatcher.workersInputQueues = s.process.dispatcher.workersInputQueues)
    (popped : s'.process.popped = s.process.popped)
    (handled : s'.process.shared.handled = s.process.shared.handled)
    (inHands : s'.inHands = s.inHands) (inOrder : s'.process.shared.OutputInOrder) : s'.Inv := by
  refine ⟨?_, ?_, ?_, inOrder⟩
  · rw [accepted, inv.ids]
  · rw [accepted, queues, popped]
    exact inv.located
  · rw [popped, handled, inHands]
    exact inv.handled

/-- A worker is done with its message. -/
theorem Inv.done {at_w : WorkerAt} {shared : Shared} {p : RadiusRawMsgPtr} {msg : DecodedMsg}
    {outcome : Outcome} (inv : s.Inv) (there : s.workers[w]? = some at_w)
    (takes : at_w.inHand = [p]) (decoded : p.decoded? = some msg)
    (handled : shared.handled = s.process.shared.handled ++ [(msg, outcome)])
    (inOrder : shared.OutputInOrder) : ((s.withShared shared).goto w .test).Inv := by
  refine ⟨inv.ids, inv.located, ?_, inOrder⟩
  have hands : (s.inHands.map RadiusRawMsgPtr.decoded?).Perm
      ((p :: ((s.withShared shared).goto w .test).inHands).map RadiusRawMsgPtr.decoded?) :=
    (inHands_done (s := s.withShared shared) there takes rfl).map _
  rw [List.map_cons, decoded] at hands
  show (s.process.popped.map RadiusRawMsgPtr.decoded?).Perm
    (shared.handled.map (fun h => some h.1) ++ _)
  rw [handled, List.map_append, List.map_singleton, List.append_assoc]
  exact inv.handled.trans (hands.append_left _)

theorem Inv.workerStep (inv : s.Inv) (step : s.workerStep w = some s') : s'.Inv := by
  rcases workerStep_cases step with ⟨there, rfl⟩ | ⟨q, there, -, -, rfl⟩ |
    ⟨q, p, q', there, queue, items, rfl⟩ | ⟨p, there, rfl⟩ | ⟨p, msg, r, there, decoded, rfl⟩ |
    ⟨p, msg, decoded, there, rfl⟩ | ⟨p, msg, decoded, there, rfl⟩ |
    ⟨p, msg, decoded, r, there, rfl⟩
  · refine inv.congr rfl rfl rfl rfl (inHands_same there ?_) inv.inOrder
    split <;> rfl
  · exact inv.congr rfl rfl rfl rfl (inHands_same there rfl) inv.inOrder
  · -- the message goes from the queue into the hands of the worker
    refine ⟨inv.ids, BoundedQueue.located_pop inv.located queue items, ?_, inv.inOrder⟩
    have hands : (((s.withPopped w p q').goto w (.decode p)).inHands.map
        RadiusRawMsgPtr.decoded?).Perm ((p :: s.inHands).map RadiusRawMsgPtr.decoded?) :=
      (inHands_take (s := s.withPopped w p q') there rfl rfl).map _
    show ((s.process.popped ++ [p]).map RadiusRawMsgPtr.decoded?).Perm
      (s.process.shared.handled.map (fun h => some h.1) ++ _)
    rw [List.map_append]
    refine (inv.handled.append_right _).trans ?_
    rw [List.append_assoc]
    apply List.Perm.append_left
    exact (List.perm_append_singleton p.decoded? _).trans hands.symm
  · exact inv.congr rfl rfl rfl rfl rfl inv.inOrder
  · refine inv.done there rfl decoded (Shared.hit_handled _ _ _) (Shared.OutputInOrder.hit ?_ _ _)
    exact inv.inOrder.congr rfl rfl rfl
  · exact inv.congr rfl rfl rfl rfl (inHands_same (s := s.withShared _) there rfl)
      (inv.inOrder.congr rfl rfl rfl)
  · exact inv.congr rfl rfl rfl rfl (inHands_same (s := s.withShared _) there rfl)
      (inv.inOrder.congr rfl rfl rfl)
  · exact inv.done there rfl decoded (congrArg Shared.handled (Shared.store_eq _ _ _))
      (inv.inOrder.store _ _)

theorem Inv.withShared {e : Shared.EnvAction} {shared : Shared} (inv : s.Inv)
    (env : s.process.shared.envStep e = some shared) : (s.withShared shared).Inv :=
  inv.congr rfl rfl rfl (Shared.envStep_frame env).2 rfl (inv.inOrder.envStep env)

theorem Inv.poll {b : ProcessAction} {process : Process} (inv : s.Inv)
    (polled : b.isPolled = true) (step : s.process.step b = some process) :
    ({ s with process } : Program).Inv := by
  rcases Process.polled_cases polled step with ⟨datagram, receive⟩ | rfl | ⟨e, shared, env, rfl⟩
  · obtain ⟨popped, shared, ⟨accepted, queues⟩ |
      ⟨p, i, q, q', id, accepted, there, items, queues⟩⟩ := Process.receive_placed receive
    · refine inv.congr accepted queues popped (by rw [shared]) rfl ?_
      rw [shared]
      exact inv.inOrder
    · refine ⟨?_, ?_, ?_, ?_⟩
      · show process.accepted.map RadiusRawMsgPtr.id = List.range process.accepted.length
        rw [accepted]
        exact BoundedQueue.numbered_concat inv.ids id
      · show process.accepted.Perm
          (BoundedQueue.contents process.dispatcher.workersInputQueues ++ process.popped)
        rw [accepted, popped, queues]
        exact BoundedQueue.located_push inv.located there items
      · show (process.popped.map _).Perm (process.shared.handled.map _ ++ _)
        rw [popped, shared]
        exact inv.handled
      · show process.shared.OutputInOrder
        rw [shared]
        exact inv.inOrder
  · exact inv.congr rfl rfl rfl rfl rfl inv.inOrder
  · exact inv.withShared env

theorem Inv.step (inv : s.Inv) (step : s.step a = some s') : s'.Inv := by
  rcases step_cases step with ⟨b, process, -, -, polled, next, rfl⟩ | ⟨r, shared, -, expire, rfl⟩ |
    ⟨-, -, rfl⟩ | ⟨m, rest, -, -, rfl⟩ | ⟨m, rest, -, -, -, rfl⟩ | ⟨w, -, worker⟩ |
    ⟨applId, now, sendThrows, -, sender⟩
  · exact inv.poll polled next
  · exact inv.withShared (e := .expire r) expire
  · exact { inv with }
  · exact { inv with }
  · exact { inv with }
  · exact inv.workerStep worker
  · rcases senderStep_cases sender with ⟨-, rfl⟩ | ⟨-, -, rfl⟩ | ⟨shared, -, send, rfl⟩
    · exact { inv with }
    · exact { inv with }
    · exact { inv.withShared (e := .send applId now sendThrows) send with }

/-! ## The order of stopping -/

theorem stop_cases (step : s.step .stop = some s') :
    ∃ m rest, s.main = .stopping (m :: rest) ∧
      s' = { s with
        stopThread := Function.update s.stopThread m true
        main := .joining m rest } := by
  unfold Program.step at step
  split at step
  · cases step
  · simp only at step
    split at step
    · rename_i m rest stopping
      exact ⟨m, rest, stopping, by simpa using step.symm⟩
    · cases step

/-- Flags are not taken back. -/
theorem update_flag {stopThread : ProgramModule → Bool} (m' : ProgramModule)
    (flag : stopThread m = true) : Function.update stopThread m' true m = true := by
  by_cases eq : m = m'
  · rw [eq]
    exact Function.update_self ..
  · exact (Function.update_of_ne eq ..).trans flag

/-- A worker changes its own place and its own queue only. -/
theorem workerStep_frame (step : s.workerStep w = some s') :
    s'.sender = s.sender ∧ s'.stopThread = s.stopThread ∧ s'.main = s.main ∧
      ¬ s.Stopped (.worker w) ∧ (∃ next, s'.workers = s.workers.set w next) ∧
      (s'.process.dispatcher.workersInputQueues = s.process.dispatcher.workersInputQueues ∨
        ∃ q, s'.process.dispatcher.workersInputQueues =
          s.process.dispatcher.workersInputQueues.set w q) := by
  have running : ∀ at_w : WorkerAt, s.workers[w]? = some at_w → at_w ≠ .stopped →
      ¬ s.Stopped (.worker w) := by
    intro at_w there ne stopped
    exact ne (Option.some.inj (there.symm.trans stopped))
  rcases workerStep_cases step with ⟨there, rfl⟩ | ⟨q, there, -, -, rfl⟩ |
    ⟨q, p, q', there, queue, items, rfl⟩ | ⟨p, there, rfl⟩ | ⟨p, msg, r, there, decoded, rfl⟩ |
    ⟨p, msg, decoded, there, rfl⟩ | ⟨p, msg, decoded, there, rfl⟩ |
    ⟨p, msg, decoded, r, there, rfl⟩
  · exact ⟨rfl, rfl, rfl, running _ there nofun, ⟨_, rfl⟩, .inl rfl⟩
  · exact ⟨rfl, rfl, rfl, running _ there nofun, ⟨_, rfl⟩, .inl rfl⟩
  · exact ⟨rfl, rfl, rfl, running _ there nofun, ⟨_, rfl⟩, .inr ⟨_, rfl⟩⟩
  · obtain ⟨lt, self⟩ := List.getElem?_eq_some_iff.mp there
    refine ⟨rfl, rfl, rfl, running _ there nofun, ⟨.decode p, ?_⟩, .inl rfl⟩
    rw [← self]
    exact (List.set_getElem_self lt).symm
  · exact ⟨rfl, rfl, rfl, running _ there nofun, ⟨_, rfl⟩, .inl rfl⟩
  · exact ⟨rfl, rfl, rfl, running _ there nofun, ⟨_, rfl⟩, .inl rfl⟩
  · exact ⟨rfl, rfl, rfl, running _ there nofun, ⟨_, rfl⟩, .inl rfl⟩
  · exact ⟨rfl, rfl, rfl, running _ there nofun, ⟨_, rfl⟩, .inl rfl⟩

/-- Where the main thread is, `stopModules` has joined the modules before, and
has set the flags of these and of the one it is joining. -/
structure Control (workersNumber : ℕ) (s : Program) : Prop where
  workers : s.workers.length = workersNumber
  polling : s.main = .polling → ∀ m, s.stopThread m = false
  stopping : ∀ rest, s.main = .stopping rest → ∃ joined, s.modulesArray.reverse = joined ++ rest ∧
    (∀ m, s.stopThread m = true ↔ m ∈ joined) ∧ ∀ m ∈ joined, s.Stopped m
  joining : ∀ m rest, s.main = .joining m rest → ∃ joined,
    s.modulesArray.reverse = joined ++ m :: rest ∧
    (∀ m', s.stopThread m' = true ↔ m' ∈ joined ++ [m]) ∧ ∀ m' ∈ joined, s.Stopped m'

theorem control_init : Control workersNumber (init localEndpoint workersNumber workerQueueCapacity
    thriftQueueCapacity) where
  workers := List.length_replicate
  polling := fun _ _ => rfl
  stopping := nofun
  joining := nofun

/-- A step of another thread. -/
theorem Control.congr (control : Control workersNumber s) (main : s'.main = s.main)
    (stopThread : s'.stopThread = s.stopThread) (length : s'.workers.length = s.workers.length)
    (stays : ∀ m, s.Stopped m → s'.Stopped m) : Control workersNumber s' := by
  have modules : s'.modulesArray = s.modulesArray := by
    rw [modulesArray, modulesArray, length]
  constructor
  · rw [length, control.workers]
  · rw [main, stopThread]
    exact control.polling
  · intro rest stopping
    obtain ⟨joined, split, flags, stopped⟩ := control.stopping rest (main ▸ stopping)
    exact ⟨joined, modules ▸ split, stopThread ▸ flags, fun m mem => stays m (stopped m mem)⟩
  · intro m rest joining
    obtain ⟨joined, split, flags, stopped⟩ := control.joining m rest (main ▸ joining)
    exact ⟨joined, modules ▸ split, stopThread ▸ flags, fun m mem => stays m (stopped m mem)⟩

theorem stopped_stays (step : s.step a = some s') (stopped : s.Stopped m) : s'.Stopped m := by
  rcases step_cases step with ⟨b, process, -, -, -, -, rfl⟩ | ⟨r, shared, -, -, rfl⟩ |
    ⟨-, -, rfl⟩ | ⟨m', rest, -, -, rfl⟩ | ⟨m', rest, -, -, -, rfl⟩ | ⟨w, -, worker⟩ |
    ⟨applId, now, sendThrows, -, sender⟩
  · exact stopped
  · exact stopped
  · exact stopped
  · exact stopped
  · exact stopped
  · obtain ⟨same, -, -, running, ⟨next, workers⟩, -⟩ := workerStep_frame worker
    cases m with
    | thriftSender => exact same.trans stopped
    | worker w' =>
        have ne : w ≠ w' := fun eq => running (eq ▸ stopped)
        show s'.workers[w']? = some .stopped
        rw [workers, List.getElem?_set_ne ne]
        exact stopped
  · cases m with
    | thriftSender =>
        have ended : s.sender = .stopped := stopped
        rcases senderStep_cases sender with ⟨there, -⟩ | ⟨there, -⟩ | ⟨shared, there, -⟩ <;>
          exact nomatch there.symm.trans ended
    | worker w' =>
        rcases senderStep_cases sender with ⟨-, rfl⟩ | ⟨-, -, rfl⟩ | ⟨shared, -, -, rfl⟩ <;>
          exact stopped

theorem Control.step (control : Control workersNumber s) (step : s.step a = some s') :
    Control workersNumber s' := by
  have stays : ∀ m, s.Stopped m → s'.Stopped m := fun m => stopped_stays step
  rcases step_cases step with ⟨b, process, -, -, -, -, rfl⟩ | ⟨r, shared, -, -, rfl⟩ |
    ⟨-, polling, rfl⟩ | ⟨m, rest, -, stopping, rfl⟩ | ⟨m, rest, -, joining, ended, rfl⟩ |
    ⟨w, -, worker⟩ | ⟨applId, now, sendThrows, -, sender⟩
  · exact control.congr rfl rfl rfl stays
  · exact control.congr rfl rfl rfl stays
  · refine ⟨control.workers, nofun, ?_, nofun⟩
    intro rest at_main
    cases at_main
    refine ⟨[], rfl, fun m => ?_, nofun⟩
    simp [control.polling polling m]
  · refine ⟨control.workers, nofun, nofun, ?_⟩
    intro m' rest' at_main
    cases at_main
    obtain ⟨joined, split, flags, stopped⟩ := control.stopping _ stopping
    refine ⟨joined, split, fun m' => ?_, stopped⟩
    rw [List.mem_append, List.mem_singleton, ← flags]
    by_cases eq : m' = m
    · simp [eq]
    · simp [eq]
  · refine ⟨control.workers, nofun, ?_, nofun⟩
    intro rest' at_main
    cases at_main
    obtain ⟨joined, split, flags, stopped⟩ := control.joining _ _ joining
    refine ⟨joined ++ [m], ?_, flags, fun m' mem => ?_⟩
    · rw [List.append_assoc]
      exact split
    · rcases List.mem_append.mp mem with before | last
      · exact stopped m' before
      · rw [List.mem_singleton.mp last]
        exact ended
  · obtain ⟨-, flags, main, -, ⟨next, workers⟩, -⟩ := workerStep_frame worker
    refine control.congr main flags ?_ stays
    rw [workers]
    exact List.length_set
  · rcases senderStep_cases sender with ⟨-, rfl⟩ | ⟨-, -, rfl⟩ | ⟨shared, -, -, rfl⟩ <;>
      exact control.congr rfl rfl rfl stays

/-! ## What a thread leaves in its queue -/

/-- The messages in the queue of a worker. -/
def inputItems (s : Program) (w : ℕ) : List RadiusRawMsgPtr :=
  (s.process.dispatcher.workersInputQueues[w]?).elim [] BoundedQueue.items

def outputItems (s : Program) : List ThriftPtr := s.process.shared.outputQueue.items

/-- What is left of the queue of a worker whose flag is set in this state: a
worker that is past its test takes one message more. -/
def inputLeft (s : Program) (w : ℕ) : List RadiusRawMsgPtr :=
  match s.workers[w]? with
  | some .tryPop => (s.inputItems w).tail
  | _ => s.inputItems w

def outputLeft (s : Program) : List ThriftPtr :=
  match s.sender with
  | .tryPop => s.outputItems.tail
  | _ => s.outputItems

theorem inputLeft_of_tryPop (there : s.workers[w]? = some .tryPop) :
    s.inputLeft w = (s.inputItems w).tail := by
  simp only [inputLeft, there]

theorem inputLeft_of_ne (elsewhere : s.workers[w]? ≠ some .tryPop) :
    s.inputLeft w = s.inputItems w := by
  unfold inputLeft
  split
  · rename_i there
    exact absurd there elsewhere
  · rfl

/-- After the flag of a worker was set in `u`: the worker is still before its
last `try_pop`, or does not come to one any more. -/
structure InputSettles (u : Program) (w : ℕ) (s : Program) : Prop where
  flag : s.stopThread (.worker w) = true
  main : s.main ≠ .polling
  items : (s.workers[w]? = some .tryPop ∧ s.inputItems w = u.inputItems w ∧
      u.inputLeft w = (u.inputItems w).tail) ∨
    (s.workers[w]? ≠ some .tryPop ∧ s.inputItems w = u.inputLeft w)

theorem inputSettles_stop (stop : u.step .stop = some s) {rest : List ProgramModule}
    (stopping : u.main = .stopping (.worker w :: rest)) : InputSettles u w s := by
  obtain ⟨m, rest', at_main, rfl⟩ := stop_cases stop
  cases stopping.symm.trans at_main
  refine ⟨Function.update_self .., nofun, ?_⟩
  by_cases there : u.workers[w]? = some .tryPop
  · exact .inl ⟨there, rfl, inputLeft_of_tryPop there⟩
  · exact .inr ⟨there, (inputLeft_of_ne there).symm⟩

/-- A step that does not move the worker and does not touch its queue. -/
theorem InputSettles.congr (settles : InputSettles u w s)
    (flag : s.stopThread (.worker w) = true → s'.stopThread (.worker w) = true)
    (main : s'.main ≠ .polling) (workers : s'.workers[w]? = s.workers[w]?)
    (queues : s'.process.dispatcher.workersInputQueues[w]? =
      s.process.dispatcher.workersInputQueues[w]?) : InputSettles u w s' := by
  refine ⟨flag settles.flag, main, ?_⟩
  rw [workers, show s'.inputItems w = s.inputItems w by rw [inputItems, inputItems, queues]]
  exact settles.items

/-- The worker itself goes from one point after its `try_pop` to another. -/
theorem InputSettles.goto {at_w next : WorkerAt} (settles : InputSettles u w s)
    (there : s.workers[w]? = some at_w) (after : at_w ≠ .tryPop) (after' : next ≠ .tryPop)
    (shared : Shared) : InputSettles u w ((s.withShared shared).goto w next) := by
  refine ⟨settles.flag, settles.main, .inr ⟨?_, ?_⟩⟩
  · rw [goto_at (s := s.withShared shared) there]
    exact fun h => after' (Option.some.inj h)
  · rcases settles.items with ⟨at_pop, -⟩ | ⟨-, left⟩
    · exact absurd (Option.some.inj (there.symm.trans at_pop)) after
    · exact left

theorem InputSettles.workerStep (settles : InputSettles u w s)
    (step : s.workerStep w = some s') : InputSettles u w s' := by
  -- a worker at its `try_pop` has not popped anything since
  have at_pop : s.workers[w]? = some .tryPop → u.inputLeft w = (s.inputItems w).tail := by
    intro there
    rcases settles.items with ⟨-, same, left⟩ | ⟨elsewhere, -⟩
    · rw [same, left]
    · exact absurd there elsewhere
  rcases workerStep_cases step with ⟨there, rfl⟩ | ⟨q, there, queue, items, rfl⟩ |
    ⟨q, p, q', there, queue, items, rfl⟩ | ⟨p, there, rfl⟩ | ⟨p, msg, r, there, decoded, rfl⟩ |
    ⟨p, msg, decoded, there, rfl⟩ | ⟨p, msg, decoded, there, rfl⟩ |
    ⟨p, msg, decoded, r, there, rfl⟩
  · rw [if_pos settles.flag]
    refine settles.goto there ?_ ?_ s.process.shared <;> nofun
  · refine ⟨settles.flag, settles.main, .inr ⟨?_, ?_⟩⟩
    · rw [goto_at there]
      nofun
    · have empty : s.inputItems w = [] := by
        rw [inputItems, queue]
        exact items
      rw [at_pop there, empty]
      exact empty
  · refine ⟨settles.flag, settles.main, .inr ⟨?_, ?_⟩⟩
    · rw [goto_at (s := s.withPopped w p q') there]
      nofun
    · rw [at_pop there, inputItems, inputItems, queue]
      show ((s.process.dispatcher.workersInputQueues.set w q')[w]?).elim [] BoundedQueue.items =
        q.items.tail
      rw [List.getElem?_set_self (List.getElem?_eq_some_iff.mp queue).1, items]
      rfl
  · exact settles.congr id settles.main rfl rfl
  · refine settles.goto there ?_ ?_ _ <;> nofun
  · refine settles.goto there ?_ ?_ _ <;> nofun
  · refine settles.goto there ?_ ?_ _ <;> nofun
  · refine settles.goto there ?_ ?_ _ <;> nofun

theorem InputSettles.step (settles : InputSettles u w s) (step : s.step a = some s') :
    InputSettles u w s' := by
  rcases step_cases step with ⟨b, process, -, polling, -⟩ | ⟨r, shared, -, -, rfl⟩ |
    ⟨-, polling, -⟩ | ⟨m, rest, -, -, rfl⟩ | ⟨m, rest, -, -, -, rfl⟩ | ⟨w', -, worker⟩ |
    ⟨applId, now, sendThrows, -, sender⟩
  · exact absurd polling settles.main
  · exact settles.congr id settles.main rfl rfl
  · exact absurd polling settles.main
  · exact settles.congr (update_flag m) nofun rfl rfl
  · exact settles.congr id nofun rfl rfl
  · by_cases eq : w' = w
    · subst eq
      exact settles.workerStep worker
    · obtain ⟨-, flags, main, -, ⟨next, workers⟩, queues⟩ := workerStep_frame worker
      refine settles.congr (fun flag => flags ▸ flag) (main ▸ settles.main) ?_ ?_
      · rw [workers, List.getElem?_set_ne eq]
      · rcases queues with same | ⟨q, set⟩
        · rw [same]
        · rw [set, List.getElem?_set_ne eq]
  · rcases senderStep_cases sender with ⟨-, rfl⟩ | ⟨-, -, rfl⟩ | ⟨shared, -, -, rfl⟩ <;>
      exact settles.congr id settles.main rfl rfl

/-- After the flag of the sender was set in `u`: no worker is left that could
push a record. -/
structure OutputSettles (u s : Program) : Prop where
  flag : s.stopThread .thriftSender = true
  main : s.main ≠ .polling
  workers : ∀ w < s.workers.length, s.Stopped (.worker w)
  items : (s.sender = .tryPop ∧ s.outputItems = u.outputItems ∧
      u.outputLeft = u.outputItems.tail) ∨
    (s.sender ≠ .tryPop ∧ s.outputItems = u.outputLeft)

/-- The sender is the last module to be stopped. -/
theorem Control.stopped_before_sender {rest : List ProgramModule}
    (control : Control workersNumber s) (stopping : s.main = .stopping (.thriftSender :: rest))
    (lt : w < s.workers.length) : s.Stopped (.worker w) := by
  obtain ⟨joined, split, -, stopped⟩ := control.stopping _ stopping
  have mem : ProgramModule.worker w ∈ s.modulesArray.reverse := by
    rw [List.mem_reverse, modulesArray]
    exact List.mem_cons_of_mem _ (List.mem_map.mpr ⟨w, List.mem_range.mpr lt, rfl⟩)
  have last : rest = [] := by
    rw [modulesArray, List.reverse_cons] at split
    rcases List.eq_nil_or_concat rest with none | ⟨rest', m, rfl⟩
    · exact none
    · -- the sender would be among the workers
      have before : ((List.range s.workers.length).map ProgramModule.worker).reverse =
          joined ++ .thriftSender :: rest' := by
        rw [List.concat_eq_append, ← List.cons_append, ← List.append_assoc] at split
        exact (List.append_inj' split rfl).1
      have among : ProgramModule.thriftSender ∈
          ((List.range s.workers.length).map ProgramModule.worker).reverse := by
        rw [before]
        exact List.mem_append_right _ List.mem_cons_self
      rw [List.mem_reverse, List.mem_map] at among
      obtain ⟨_, -, eq⟩ := among
      cases eq
  rw [split, last, List.mem_append, List.mem_singleton] at mem
  rcases mem with before | eq
  · exact stopped _ before
  · cases eq

theorem outputSettles_stop (control : Control workersNumber u) (stop : u.step .stop = some s)
    {rest : List ProgramModule} (stopping : u.main = .stopping (.thriftSender :: rest)) :
    OutputSettles u s := by
  obtain ⟨m, rest', at_main, rfl⟩ := stop_cases stop
  cases stopping.symm.trans at_main
  refine ⟨Function.update_self .thriftSender true u.stopThread, nofun,
    fun w lt => control.stopped_before_sender stopping lt, ?_⟩
  cases there : u.sender with
  | tryPop => exact .inl ⟨rfl, rfl, by rw [outputLeft, there]⟩
  | test => exact .inr ⟨nofun, by rw [outputLeft, there]; rfl⟩
  | stopped => exact .inr ⟨nofun, by rw [outputLeft, there]; rfl⟩

theorem OutputSettles.congr (settles : OutputSettles u s)
    (flag : s.stopThread .thriftSender = true → s'.stopThread .thriftSender = true)
    (main : s'.main ≠ .polling) (workers : s'.workers = s.workers) (sender : s'.sender = s.sender)
    (output : s'.outputItems = s.outputItems) : OutputSettles u s' := by
  refine ⟨flag settles.flag, main, ?_, ?_⟩
  · intro w lt
    have stopped := settles.workers w (workers ▸ lt)
    rw [Stopped] at stopped ⊢
    rw [workers, stopped]
  · rw [sender, output]
    exact settles.items

theorem OutputSettles.senderStep {applId : UInt16} {now : UInt64} {sendThrows : Bool}
    (settles : OutputSettles u s) (step : s.senderStep applId now sendThrows = some s') :
    OutputSettles u s' := by
  -- a sender at its `try_pop` has not popped anything since
  have at_pop : s.sender = .tryPop → u.outputLeft = s.outputItems.tail := by
    intro there
    rcases settles.items with ⟨-, same, left⟩ | ⟨elsewhere, -⟩
    · rw [same, left]
    · exact absurd there elsewhere
  rcases senderStep_cases step with ⟨there, rfl⟩ | ⟨there, empty, rfl⟩ | ⟨shared, there, send, rfl⟩
  · refine ⟨settles.flag, settles.main, settles.workers, .inr ⟨?_, ?_⟩⟩
    · rw [if_pos settles.flag]
      nofun
    · rcases settles.items with ⟨at_pop, -⟩ | ⟨-, left⟩
      · cases there.symm.trans at_pop
      · exact left
  · refine ⟨settles.flag, settles.main, settles.workers, .inr ⟨nofun, ?_⟩⟩
    rw [at_pop there, show s.outputItems = [] from empty]
    exact empty
  · refine ⟨settles.flag, settles.main, settles.workers, .inr ⟨nofun, ?_⟩⟩
    rw [at_pop there]
    show shared.outputQueue.items = s.process.shared.outputQueue.items.tail
    unfold Shared.sendThriftStructure at send
    split at send
    · cases send
    · rename_i pop
      cases send
      rw [(BoundedQueue.tryPop_eq_some.mp pop).2]
      rfl
    · rename_i pop
      cases send
      rw [(BoundedQueue.tryPop_eq_some.mp pop).2]
      rfl

theorem OutputSettles.step (settles : OutputSettles u s) (step : s.step a = some s') :
    OutputSettles u s' := by
  rcases step_cases step with ⟨b, process, -, polling, -⟩ | ⟨r, shared, -, expire, rfl⟩ |
    ⟨-, polling, -⟩ | ⟨m, rest, -, -, rfl⟩ | ⟨m, rest, -, -, -, rfl⟩ | ⟨w, -, worker⟩ |
    ⟨applId, now, sendThrows, -, sender⟩
  · exact absurd polling settles.main
  · obtain ⟨key, -, rfl⟩ := Shared.expire_cases expire
    exact settles.congr id settles.main rfl rfl rfl
  · exact absurd polling settles.main
  · exact settles.congr (update_flag m) nofun rfl rfl rfl
  · exact settles.congr id nofun rfl rfl rfl
  · -- no worker is left
    obtain ⟨-, -, -, running, -⟩ := workerStep_frame worker
    by_cases lt : w < s.workers.length
    · exact absurd (settles.workers w lt) running
    · rw [workerStep, List.getElem?_eq_none (Nat.le_of_not_lt lt)] at worker
      cases worker
  · exact settles.senderStep sender

/-! ## Whole runs -/

/-- In the run the stop flag of the module is set in this state. -/
def SetsFlagIn (start : Program) (acts : List ProgramAction) (m : ProgramModule) (u : Program) :
    Prop :=
  ∃ pre post rest, acts = pre ++ .stop :: post ∧ Runs.run step start pre = some u ∧
    u.main = .stopping (m :: rest)

theorem step_stopThread (step : s.step a = some s') :
    s'.stopThread = s.stopThread ∨
    ∃ m rest, a = .stop ∧ s.main = .stopping (m :: rest) ∧
      s'.stopThread = Function.update s.stopThread m true := by
  rcases step_cases step with ⟨b, process, -, -, -, -, rfl⟩ | ⟨r, shared, -, -, rfl⟩ |
    ⟨-, -, rfl⟩ | ⟨m, rest, rfl, stopping, rfl⟩ | ⟨m, rest, -, -, -, rfl⟩ | ⟨w, -, worker⟩ |
    ⟨applId, now, sendThrows, -, sender⟩
  · exact .inl rfl
  · exact .inl rfl
  · exact .inl rfl
  · exact .inr ⟨m, rest, rfl, stopping, rfl⟩
  · exact .inl rfl
  · exact .inl (workerStep_frame worker).2.1
  · rcases senderStep_cases sender with ⟨-, rfl⟩ | ⟨-, -, rfl⟩ | ⟨shared, -, -, rfl⟩ <;>
      exact .inl rfl

/-- A flag that is set has been set by `stop`. -/
theorem exists_setsFlagIn (run : Runs.run step s acts = some t) (before : s.stopThread m = false)
    (after : t.stopThread m = true) : ∃ u, SetsFlagIn s acts m u := by
  have keeps : ∀ (pre : List ProgramAction) (a : ProgramAction) (t v : Program),
      Runs.run step s pre = some t → t.step a = some v → t.stopThread m = true →
      v.stopThread m = true := by
    intro pre a t v _ next flag
    rcases step_stopThread next with same | ⟨m', rest, -, -, set⟩
    · rw [same, flag]
    · rw [set]
      exact update_flag m' flag
  obtain ⟨pre, ⟨a, u, v, ⟨post, split⟩, reach, next, unset, set⟩, -⟩ :=
    Runs.existsUnique_turn (P := fun t => t.stopThread m = true) run (by simp [before]) after keeps
  rcases step_stopThread next with same | ⟨m', rest, rfl, stopping, update⟩
  · rw [same] at set
    exact absurd set unset
  · -- the flag that is set here is that of `m`
    have eq : m = m' := by
      by_contra ne
      rw [update, Function.update_of_ne ne] at set
      exact unset set
    subst eq
    exact ⟨u, pre, post, rest, by rw [← split, List.append_assoc]; rfl, reach, stopping⟩

theorem SetsFlagIn.later (sets : SetsFlagIn s acts m u) (run : Runs.run step s acts = some t) :
    ∃ pre v post rest, Runs.run step s pre = some u ∧ u.main = .stopping (m :: rest) ∧
      u.step .stop = some v ∧ Runs.run step v post = some t := by
  obtain ⟨pre, post, rest, rfl, reach, stopping⟩ := sets
  obtain ⟨u', v, reach', stop, later⟩ := Runs.run_middle_eq_some.mp run
  cases reach.symm.trans reach'
  exact ⟨pre, v, post, rest, reach, stopping, stop, later⟩

/-- **What `stopModules` leaves.** -/
theorem stopModules_keeps
    (run : Runs.run step (init localEndpoint workersNumber workerQueueCapacity
      thriftQueueCapacity) acts = some s) (returned : s.main = .stopping []) :
    (∀ m ∈ s.modulesArray, s.Stopped m) ∧
    (s.process.accepted.map RadiusRawMsgPtr.id).Nodup ∧
    s.process.accepted.Perm
      (BoundedQueue.contents s.process.dispatcher.workersInputQueues ++ s.process.popped) ∧
    (s.process.popped.map RadiusRawMsgPtr.decoded?).Perm
      (s.process.shared.handled.map fun h => some h.1) ∧
    s.process.shared.OutputInOrder ∧
    (∀ w < workersNumber,
      (∃ u, SetsFlagIn (init localEndpoint workersNumber workerQueueCapacity thriftQueueCapacity)
        acts (.worker w) u) ∧
      ∀ u, SetsFlagIn (init localEndpoint workersNumber workerQueueCapacity thriftQueueCapacity)
        acts (.worker w) u → s.inputItems w = u.inputLeft w) ∧
    (∃ u, SetsFlagIn (init localEndpoint workersNumber workerQueueCapacity thriftQueueCapacity)
      acts .thriftSender u) ∧
    ∀ u, SetsFlagIn (init localEndpoint workersNumber workerQueueCapacity thriftQueueCapacity)
      acts .thriftSender u → s.outputItems = u.outputLeft := by
  have inv : s.Inv :=
    Runs.invariant_of_step (I := Inv) inv_init (fun _ _ _ inv step => inv.step step) run
  have controlled : ∀ {acts : List ProgramAction} {s : Program}, Runs.run step
      (init localEndpoint workersNumber workerQueueCapacity thriftQueueCapacity) acts = some s →
      Control workersNumber s := fun run =>
    Runs.invariant_of_step (I := Control workersNumber) control_init
      (fun _ _ _ control step => control.step step) run
  have control := controlled run
  obtain ⟨joined, all, flags, stopped⟩ := control.stopping _ returned
  have joined_all : ∀ m ∈ s.modulesArray, m ∈ joined := by
    intro m mem
    rwa [← List.mem_reverse, all, List.append_nil] at mem
  have module_worker : ∀ w < workersNumber, ProgramModule.worker w ∈ s.modulesArray := by
    intro w lt
    rw [modulesArray, control.workers]
    exact List.mem_cons_of_mem _ (List.mem_map.mpr ⟨w, List.mem_range.mpr lt, rfl⟩)
  have idle : s.inHands = [] := by
    rw [inHands, List.flatMap_eq_nil_iff]
    intro at_w mem
    obtain ⟨w, there⟩ := List.getElem?_of_mem mem
    have lt := (List.getElem?_eq_some_iff.mp there).1
    have ended := stopped _ (joined_all _ (module_worker w (control.workers ▸ lt)))
    cases there.symm.trans ended
    rfl
  refine ⟨fun m mem => stopped m (joined_all m mem), ?_, inv.located, ?_, inv.inOrder, ?_, ?_, ?_⟩
  · rw [inv.ids]
    exact List.nodup_range
  · have handled := inv.handled
    rwa [idle, List.map_nil, List.append_nil] at handled
  · intro w lt
    refine ⟨exists_setsFlagIn run rfl ((flags _).mpr (joined_all _ (module_worker w lt))), ?_⟩
    intro u sets
    obtain ⟨-, v, post, rest, -, stopping, stop, later⟩ := sets.later run
    have settles : InputSettles u w s :=
      Runs.invariant_of_step (I := InputSettles u w) (inputSettles_stop stop stopping)
        (fun _ _ _ settles step => settles.step step) later
    rcases settles.items with ⟨at_pop, -⟩ | ⟨-, left⟩
    · have ended := stopped _ (joined_all _ (module_worker w lt))
      cases at_pop.symm.trans ended
    · exact left
  · exact exists_setsFlagIn run rfl ((flags _).mpr (joined_all _ List.mem_cons_self))
  · intro u sets
    obtain ⟨pre, v, post, rest, reach, stopping, stop, later⟩ := sets.later run
    have settles : OutputSettles u s :=
      Runs.invariant_of_step (I := OutputSettles u)
        (outputSettles_stop (controlled reach) stop stopping)
        (fun _ _ _ settles step => settles.step step) later
    rcases settles.items with ⟨at_pop, -⟩ | ⟨-, left⟩
    · have ended : s.sender = .stopped := stopped _ (joined_all _ List.mem_cons_self)
      cases at_pop.symm.trans ended
    · exact left

/-- A request and its response are handled, and another request waits, when
SIGINT comes: every thread is at the head of its loop. -/
def interruptedRun : List ProgramAction :=
  [.poll (.receive ([4, 103, 0, 20] ++ List.replicate 16 0, radiusClient)),
    .poll (.receive ([5, 103, 0, 20] ++ List.replicate 16 0, radiusClient)),
    .poll (.receive ([4, 104, 0, 20] ++ List.replicate 16 0, radiusClient)),
    .worker 0, .worker 0, .worker 0, .worker 0, .worker 0, .worker 1, .worker 1, .worker 1,
    .sigint, .stop, .worker 3, .join, .stop, .worker 2, .join, .stop, .worker 1, .join,
    .stop, .worker 0, .join, .stop, .sender 7 1000 false, .join]

/-- **A shutdown that drains nothing.** The message stays in the queue of its
worker, and the record in the output queue. -/
theorem stopModules_leaves_behind :
    ∃ s, Runs.run step (createModules radiusMonitor) interruptedRun = some s ∧
      s.main = .stopping [] ∧
      (BoundedQueue.contents s.process.dispatcher.workersInputQueues).length = 1 ∧
      s.process.shared.outputQueue.items = [some 0] := by
  have facts : (Runs.run step (createModules radiusMonitor) interruptedRun).map (fun s =>
      decide (s.main = .stopping [] ∧
        (BoundedQueue.contents s.process.dispatcher.workersInputQueues).length = 1 ∧
        s.process.shared.outputQueue.items = [some 0])) = some true := by
    decide +kernel
  obtain ⟨s, run, facts⟩ := Option.map_eq_some_iff.mp facts
  exact ⟨s, run, of_decide_eq_true facts⟩

/-- The same run, seen from the worker that leaves a message. -/
theorem stopModules_keeps_interrupted :
    ∃ s u, Runs.run step (createModules radiusMonitor) interruptedRun = some s ∧
      SetsFlagIn (createModules radiusMonitor) interruptedRun (.worker 2) u ∧
      s.inputItems 2 = u.inputLeft 2 ∧
      (∀ m ∈ s.modulesArray, s.Stopped m) ∧
      (s.process.accepted.map RadiusRawMsgPtr.id).Nodup ∧
      s.process.accepted.Perm
        (BoundedQueue.contents s.process.dispatcher.workersInputQueues ++ s.process.popped) ∧
      (s.process.popped.map RadiusRawMsgPtr.decoded?).Perm
        (s.process.shared.handled.map fun h => some h.1) ∧
      s.process.shared.OutputInOrder ∧
      (∃ v, SetsFlagIn (createModules radiusMonitor) interruptedRun .thriftSender v) ∧
      ∀ v, SetsFlagIn (createModules radiusMonitor) interruptedRun .thriftSender v →
        s.outputItems = v.outputLeft := by
  have returns : (Runs.run step (createModules radiusMonitor) interruptedRun).map
      (fun s => decide (s.main = .stopping [])) = some true := by
    decide +kernel
  obtain ⟨s, run, returned⟩ := Option.map_eq_some_iff.mp returns
  obtain ⟨stopped, nodup, located, handled, order, inputs, sender, output⟩ :=
    stopModules_keeps run (of_decide_eq_true returned)
  obtain ⟨⟨u, sets⟩, left⟩ := inputs 2 (by decide)
  exact ⟨s, u, run, sets, left u sets, stopped, nodup, located, handled, order, sender, output⟩

end Program

end RadiusEventHandler
