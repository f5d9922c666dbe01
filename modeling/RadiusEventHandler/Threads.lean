import RadiusEventHandler.Dispatch
import RadiusEventHandler.Pipeline

/-!
# The threads and their stop flags (`RadiusEventHandler.cpp`)

The loops of the worker threads and of the sender thread, step by step, and the
main thread: its loop around `poll_one`, which receives datagrams and runs
timer handlers, and then `stopModules`, which sets the stop flag of a module and
joins its thread, one module after the other. Between these steps the other
threads take any steps of theirs.

A thread tests its flag at the head of its loop only. On a message whose
decoding does not end a worker takes no further step.
-/

namespace RadiusEventHandler

/-- Where a worker is in `Worker::handleRadiusMessage`: at `while(!stop_thread)`,
at `try_pop`, or at a message it has popped. -/
inductive WorkerAt where
  | test
  | tryPop
  | decode (p : RadiusRawMsgPtr)
  | missed (p : RadiusRawMsgPtr) (msg : DecodedMsg) (decoded : p.decoded? = some msg)
  | created (p : RadiusRawMsgPtr) (msg : DecodedMsg) (decoded : p.decoded? = some msg)
    (r : RecordId)
  | stopped

/-- The message that a worker has popped and is not done with. -/
def WorkerAt.inHand : WorkerAt → List RadiusRawMsgPtr
  | .decode p => [p]
  | .missed p _ _ => [p]
  | .created p _ _ _ => [p]
  | _ => []

def WorkerAt.isStopped : WorkerAt → Bool
  | .stopped => true
  | _ => false

theorem WorkerAt.isStopped_iff {at_w : WorkerAt} : at_w.isStopped = true ↔ at_w = .stopped := by
  cases at_w <;> simp [isStopped]

/-- Where the sender is in `ThriftSender::sendThriftStructures`. -/
inductive SenderAt where
  | test
  | tryPop
  | stopped
deriving DecidableEq

/-- An element of `m_modulesArray`. -/
inductive ProgramModule where
  | thriftSender
  | worker (w : ℕ)
deriving DecidableEq

/-- Where the main thread is: in the loop of `main`, or in `stopModules`, with
the modules that are still to be stopped. -/
inductive MainAt where
  | polling
  | stopping (rest : List ProgramModule)
  | joining (m : ProgramModule) (rest : List ProgramModule)
deriving DecidableEq

structure Program where
  process : Process
  workers : List WorkerAt
  sender : SenderAt
  stopThread : ProgramModule → Bool
  main : MainAt

/-- What `poll_one` can run. -/
def ProcessAction.isPolled : ProcessAction → Bool
  | .receive _ => true
  | .receiveError => true
  | .work _ => false
  | .env e => match e with
    | .expire _ => false
    | .runHandler _ => true
    | .send _ _ _ => false

inductive ProgramAction where
  | poll (a : ProcessAction)
  | expire (r : RecordId)
  | sigint
  | stop
  | join
  | worker (w : ℕ)
  | sender (applId : UInt16) (now : UInt64) (sendThrows : Bool)

namespace Program

/-- What `createModules` and `startModules` leave. -/
def init (localEndpoint : Endpoint) (workersNumber workerQueueCapacity thriftQueueCapacity : ℕ) :
    Program where
  process := .init localEndpoint workersNumber workerQueueCapacity thriftQueueCapacity
  workers := List.replicate workersNumber .test
  sender := .test
  stopThread := fun _ => false
  main := .polling

def createModules (localEndpoint : Endpoint) : Program :=
  init localEndpoint workersNumber workerQueueCapacity thriftQueueCapacity

/-- `m_modulesArray`: the sender, then the workers. -/
def modulesArray (s : Program) : List ProgramModule :=
  .thriftSender :: (List.range s.workers.length).map .worker

/-- The thread of the module has returned from its loop. -/
def Stopped (s : Program) : ProgramModule → Prop
  | .thriftSender => s.sender = .stopped
  | .worker w => s.workers[w]? = some .stopped

instance (s : Program) (m : ProgramModule) : Decidable (s.Stopped m) :=
  match m with
  | .thriftSender => inferInstanceAs (Decidable (s.sender = .stopped))
  | .worker w => decidable_of_iff ((s.workers[w]?).any WorkerAt.isStopped = true)
      (by simp [Option.any_eq_true, Stopped, WorkerAt.isStopped_iff])

/-- A worker goes on to another point of its loop. -/
def goto (s : Program) (w : ℕ) (at_w : WorkerAt) : Program :=
  { s with workers := s.workers.set w at_w }

def withShared (s : Program) (shared : Shared) : Program :=
  { s with process := { s.process with shared } }

/-- A message leaves the queue of a worker. -/
def withPopped (s : Program) (w : ℕ) (p : RadiusRawMsgPtr) (q : BoundedQueue RadiusRawMsgPtr) :
    Program :=
  { s with
    process := { s.process with
      dispatcher := { s.process.dispatcher with
        workersInputQueues := s.process.dispatcher.workersInputQueues.set w q }
      popped := s.process.popped ++ [p] } }

/-- A null pointer in the table is dereferenced by the worker that finds it:
there is no state afterwards. -/
def workerStep (s : Program) (w : ℕ) : Option Program :=
  match s.workers[w]? with
  | none => none
  | some .test => some (s.goto w (if s.stopThread (.worker w) then .stopped else .tryPop))
  | some .tryPop =>
      match s.process.dispatcher.workersInputQueues[w]? with
      | none => none
      | some q =>
          match q.tryPop with
          | none => some (s.goto w .test)
          | some (p, q') => some ((s.withPopped w p q').goto w (.decode p))
  | some (.decode p) =>
      match decode : p.decode with
      | none => none
      | some (.error _) => some { s with process := { s.process with terminated := true } }
      | some (.ok avpList) =>
          let msg := p.decoded avpList
          match s.process.shared.hashTable msg.flowKey with
          | some (some r) =>
              some ((s.withShared ((s.process.shared.take msg).hit msg r)).goto w .test)
          | some none => none
          | none => some ((s.withShared (s.process.shared.take msg)).goto w
              (.missed p msg (by simp [RadiusRawMsgPtr.decoded?, decode, msg])))
  | some (.missed p msg decoded) =>
      some ((s.withShared (s.process.shared.create msg)).goto w
        (.created p msg decoded s.process.shared.allocated))
  | some (.created _ msg _ r) => some ((s.withShared (s.process.shared.store msg r)).goto w .test)
  | some .stopped => none

def senderStep (s : Program) (applId : UInt16) (now : UInt64) (sendThrows : Bool) :
    Option Program :=
  match s.sender with
  | .test => some { s with sender := if s.stopThread .thriftSender then .stopped else .tryPop }
  | .tryPop =>
      match s.process.shared.sendThriftStructure applId now sendThrows with
      | none => some { s with sender := .test }
      | some shared => some { s.withShared shared with sender := .test }
  | .stopped => none

def step (s : Program) (a : ProgramAction) : Option Program :=
  if s.process.terminated then none
  else
    match a with
    | .poll a =>
        match s.main with
        | .polling =>
            if a.isPolled then (s.process.step a).map fun process => { s with process } else none
        | _ => none
    | .expire r => (s.process.shared.expire r).map s.withShared
    -- the loop of `main` ends, and the modules are stopped in reverse order
    | .sigint =>
        match s.main with
        | .polling => some { s with main := .stopping s.modulesArray.reverse }
        | _ => none
    | .stop =>
        match s.main with
        | .stopping (m :: rest) =>
            some { s with
              stopThread := Function.update s.stopThread m true
              main := .joining m rest }
        | _ => none
    | .join =>
        match s.main with
        | .joining m rest => if s.Stopped m then some { s with main := .stopping rest } else none
        | _ => none
    | .worker w => s.workerStep w
    | .sender applId now sendThrows => s.senderStep applId now sendThrows

variable {s s' : Program} {a : ProgramAction} {w : ℕ}

/-! ## What a step can do -/

theorem workerStep_cases (step : s.workerStep w = some s') :
    (s.workers[w]? = some .test ∧
      s' = s.goto w (if s.stopThread (.worker w) then .stopped else .tryPop)) ∨
    (∃ q, s.workers[w]? = some .tryPop ∧
      s.process.dispatcher.workersInputQueues[w]? = some q ∧ q.items = [] ∧ s' = s.goto w .test) ∨
    (∃ q p q', s.workers[w]? = some .tryPop ∧
      s.process.dispatcher.workersInputQueues[w]? = some q ∧ q.items = p :: q'.items ∧
      s' = (s.withPopped w p q').goto w (.decode p)) ∨
    (∃ p, s.workers[w]? = some (.decode p) ∧
      s' = { s with process := { s.process with terminated := true } }) ∨
    (∃ p msg r, s.workers[w]? = some (.decode p) ∧ p.decoded? = some msg ∧
      s' = (s.withShared ((s.process.shared.take msg).hit msg r)).goto w .test) ∨
    (∃ p msg decoded, s.workers[w]? = some (.decode p) ∧
      s' = (s.withShared (s.process.shared.take msg)).goto w (.missed p msg decoded)) ∨
    (∃ p msg decoded, s.workers[w]? = some (.missed p msg decoded) ∧
      s' = (s.withShared (s.process.shared.create msg)).goto w
        (.created p msg decoded s.process.shared.allocated)) ∨
    (∃ p msg decoded r, s.workers[w]? = some (.created p msg decoded r) ∧
      s' = (s.withShared (s.process.shared.store msg r)).goto w .test) := by
  unfold workerStep at step
  split at step
  · cases step
  · rename_i at_w
    exact .inl ⟨at_w, by simpa using step.symm⟩
  · rename_i at_w
    split at step
    · cases step
    · rename_i q there
      split at step
      · rename_i empty
        exact .inr (.inl ⟨q, at_w, there, BoundedQueue.tryPop_eq_none.mp empty,
          by simpa using step.symm⟩)
      · rename_i p q' pop
        exact .inr (.inr (.inl ⟨q, p, q', at_w, there, (BoundedQueue.tryPop_eq_some.mp pop).2,
          by simpa using step.symm⟩))
  · rename_i p at_w
    split at step
    · cases step
    · exact .inr (.inr (.inr (.inl ⟨p, at_w, by simpa using step.symm⟩)))
    · rename_i avpList returns
      have decoded : p.decoded? = some (p.decoded avpList) := by
        simp [RadiusRawMsgPtr.decoded?, returns]
      simp only at step
      split at step
      · rename_i r _
        exact .inr (.inr (.inr (.inr (.inl ⟨p, _, r, at_w, decoded, by simpa using step.symm⟩))))
      · cases step
      · exact .inr (.inr (.inr (.inr (.inr (.inl ⟨p, _, decoded, at_w,
          by simpa using step.symm⟩)))))
  · rename_i p msg decoded at_w
    exact .inr (.inr (.inr (.inr (.inr (.inr (.inl ⟨p, msg, decoded, at_w,
      by simpa using step.symm⟩))))))
  · rename_i p msg decoded r at_w
    exact .inr (.inr (.inr (.inr (.inr (.inr (.inr ⟨p, msg, decoded, r, at_w,
      by simpa using step.symm⟩))))))
  · cases step

theorem senderStep_cases {applId : UInt16} {now : UInt64} {sendThrows : Bool}
    (step : s.senderStep applId now sendThrows = some s') :
    (s.sender = .test ∧
      s' = { s with sender := if s.stopThread .thriftSender then .stopped else .tryPop }) ∨
    (s.sender = .tryPop ∧ s.process.shared.outputQueue.items = [] ∧
      s' = { s with sender := .test }) ∨
    (∃ shared, s.sender = .tryPop ∧
      s.process.shared.sendThriftStructure applId now sendThrows = some shared ∧
      s' = { s.withShared shared with sender := .test }) := by
  unfold senderStep at step
  split at step
  · rename_i at_test
    exact .inl ⟨at_test, by simpa using step.symm⟩
  · rename_i at_pop
    split at step
    · rename_i empty
      refine .inr (.inl ⟨at_pop, ?_, by simpa using step.symm⟩)
      unfold Shared.sendThriftStructure at empty
      split at empty
      · rename_i pop
        exact BoundedQueue.tryPop_eq_none.mp pop
      · cases empty
      · cases empty
    · rename_i shared sends
      exact .inr (.inr ⟨shared, at_pop, sends, by simpa using step.symm⟩)
  · cases step

/-- Steps of the main thread, an expiry, a step of a worker, one of the sender. -/
theorem step_cases (step : s.step a = some s') :
    (∃ b process, a = .poll b ∧ s.main = .polling ∧ b.isPolled = true ∧
      s.process.step b = some process ∧ s' = { s with process }) ∨
    (∃ r shared, a = .expire r ∧ s.process.shared.expire r = some shared ∧
      s' = s.withShared shared) ∨
    (a = .sigint ∧ s.main = .polling ∧ s' = { s with main := .stopping s.modulesArray.reverse }) ∨
    (∃ m rest, a = .stop ∧ s.main = .stopping (m :: rest) ∧
      s' = { s with stopThread := Function.update s.stopThread m true, main := .joining m rest }) ∨
    (∃ m rest, a = .join ∧ s.main = .joining m rest ∧ s.Stopped m ∧
      s' = { s with main := .stopping rest }) ∨
    (∃ w, a = .worker w ∧ s.workerStep w = some s') ∨
    (∃ applId now sendThrows, a = .sender applId now sendThrows ∧
      s.senderStep applId now sendThrows = some s') := by
  unfold Program.step at step
  split at step
  · cases step
  · cases a with
    | poll b =>
        simp only at step
        split at step
        · rename_i polling
          split at step
          · rename_i polled
            obtain ⟨process, next, rfl⟩ := Option.map_eq_some_iff.mp step
            exact .inl ⟨b, process, rfl, polling, polled, next, rfl⟩
          · cases step
        · cases step
    | expire r =>
        obtain ⟨shared, next, rfl⟩ := Option.map_eq_some_iff.mp step
        exact .inr (.inl ⟨r, shared, rfl, next, rfl⟩)
    | sigint =>
        simp only at step
        split at step
        · rename_i polling
          exact .inr (.inr (.inl ⟨rfl, polling, by simpa using step.symm⟩))
        · cases step
    | stop =>
        simp only at step
        split at step
        · rename_i m rest stopping
          exact .inr (.inr (.inr (.inl ⟨m, rest, rfl, stopping, by simpa using step.symm⟩)))
        · cases step
    | join =>
        simp only at step
        split at step
        · rename_i m rest joining
          split at step
          · rename_i stopped
            exact .inr (.inr (.inr (.inr (.inl ⟨m, rest, rfl, joining, stopped,
              by simpa using step.symm⟩))))
          · cases step
        · cases step
    | worker w => exact .inr (.inr (.inr (.inr (.inr (.inl ⟨w, rfl, step⟩)))))
    | sender applId now sendThrows =>
        exact .inr (.inr (.inr (.inr (.inr (.inr ⟨applId, now, sendThrows, rfl, step⟩)))))

/-! ## A message handled without interruption -/

theorem step_worker (alive : s.process.terminated = false) (w : ℕ) :
    s.step (.worker w) = s.workerStep w := by
  rw [Program.step, alive]
  rfl

theorem goto_at {at_w : WorkerAt} (at_w' : s.workers[w]? = some at_w) (next : WorkerAt) :
    (s.goto w next).workers[w]? = some next :=
  List.getElem?_set_self (List.getElem?_eq_some_iff.mp at_w').1

theorem workerStep_hit {p : RadiusRawMsgPtr} {avpList : AvpList} {r : RecordId}
    (at_w : s.workers[w]? = some (.decode p)) (returns : p.decode = some (.ok avpList))
    (found : s.process.shared.hashTable (p.decoded avpList).flowKey = some (some r)) :
    s.workerStep w = some ((s.withShared ((s.process.shared.take (p.decoded avpList)).hit
      (p.decoded avpList) r)).goto w .test) := by
  simp only [workerStep, at_w]
  split
  · simp_all
  · simp_all
  · rename_i returns'
    cases returns.symm.trans returns'
    simp only [found]

theorem workerStep_miss {p : RadiusRawMsgPtr} {avpList : AvpList}
    (at_w : s.workers[w]? = some (.decode p)) (returns : p.decode = some (.ok avpList))
    (absent : s.process.shared.hashTable (p.decoded avpList).flowKey = none) :
    ∃ decoded, s.workerStep w =
      some ((s.withShared (s.process.shared.take (p.decoded avpList))).goto w
        (.missed p (p.decoded avpList) decoded)) := by
  refine ⟨by simp [RadiusRawMsgPtr.decoded?, returns], ?_⟩
  simp only [workerStep, at_w]
  split
  · simp_all
  · simp_all
  · rename_i returns'
    cases returns.symm.trans returns'
    simp only [absent]

theorem run_worker {t u : Program} {k : ℕ} (alive : s.process.terminated = false)
    (first : s.workerStep w = some t)
    (rest : Runs.run step t (List.replicate k (.worker w)) = some u) :
    Runs.run step s (List.replicate (k + 1) (.worker w)) = some u := by
  rw [List.replicate_succ, Runs.run, step_worker alive, first]
  exact rest

/-- The steps from `try_pop` back to the head of the loop, with nothing in
between, do what `Process.work` does. -/
theorem workerSteps_work {process : Process} (alive : s.process.terminated = false)
    (at_w : s.workers[w]? = some .tryPop) (work : s.process.work w = some process)
    (returns : process.hung w = false) :
    ∃ k u, Runs.run step s (List.replicate k (.worker w)) = some u ∧ u.process = process ∧
      (process.terminated = false → u.workers = s.workers.set w .test) := by
  unfold Process.work at work
  split at work
  · cases work
  · split at work
    · cases work
    · rename_i q there
      split at work
      · cases work
      · rename_i p q' pop
        let s₁ := (s.withPopped w p q').goto w (.decode p)
        have first : s.workerStep w = some s₁ := by
          simp only [workerStep, at_w, there, pop]
          rfl
        have at₁ : s₁.workers[w]? = some (.decode p) :=
          goto_at (s := s.withPopped w p q') at_w _
        have alive₁ : s₁.process.terminated = false := alive
        simp only at work
        split at work
        · cases work
          simp at returns
        · rename_i e throws
          cases work
          have second : s₁.workerStep w =
              some { s₁ with process := { s₁.process with terminated := true } } := by
            simp only [workerStep, at₁]
            split <;> simp_all
          exact ⟨2, _, run_worker alive first (run_worker alive₁ second rfl), rfl,
            fun alive => nomatch alive⟩
        · rename_i avpList decodes
          obtain ⟨shared, handled, rfl⟩ := Option.map_eq_some_iff.mp work
          rcases Shared.handleRadiusMessage_cases handled with ⟨r, found, rfl⟩ | ⟨absent, rfl⟩
          · have second := workerStep_hit at₁ decodes found
            exact ⟨2, _, run_worker alive first (run_worker alive₁ second rfl), rfl,
              fun _ => List.set_set ..⟩
          · -- the record is created and stored by two more steps
            obtain ⟨decoded, second⟩ := workerStep_miss at₁ decodes absent
            let msg := p.decoded avpList
            let s₂ := (s₁.withShared (s₁.process.shared.take msg)).goto w (.missed p msg decoded)
            let r := s₂.process.shared.allocated
            let s₃ := (s₂.withShared (s₂.process.shared.create msg)).goto w
              (.created p msg decoded r)
            let s₄ := (s₃.withShared (s₃.process.shared.store msg r)).goto w .test
            have at₂ : s₂.workers[w]? = some (.missed p msg decoded) := goto_at at₁ _
            have at₃ : s₃.workers[w]? = some (.created p msg decoded r) := goto_at at₂ _
            have third : s₂.workerStep w = some s₃ := by
              simp only [workerStep, at₂]
              rfl
            have fourth : s₃.workerStep w = some s₄ := by
              simp only [workerStep, at₃]
              rfl
            refine ⟨4, s₄, run_worker alive first (run_worker alive₁ second
              (run_worker alive third (run_worker alive fourth rfl))), rfl, fun _ => ?_⟩
            simp [s₄, s₃, s₂, s₁, goto, withShared, withPopped]

end Program

end RadiusEventHandler
