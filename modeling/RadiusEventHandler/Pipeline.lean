import RadiusEventHandler.AvpClassification
import RadiusEventHandler.Sender

/-!
# The whole process (`RadiusEventHandler.cpp`)

Receiver, worker queues, workers, timers and sender. A step is the receipt of
one datagram with its admission and dispatch, the handling of one message by a
worker, the expiry of a wait, one timer handler, or one round of the sender.
A message on which `getAllAvps` does not return leaves its worker in the loop
for good, or ends the process by an exception that nobody catches.

The fields `accepted` and `popped` are history.
-/

namespace RadiusEventHandler

def workersNumber : ℕ := 4
def workerQueueCapacity : ℕ := 1024
def thriftQueueCapacity : ℕ := workerQueueCapacity * workersNumber

/-- `std::shared_ptr<RadiusRawMsg>` of an admitted message: its number, the
message, and what its admission says about its code. -/
structure RadiusRawMsgPtr where
  id : ℕ
  msg : RadiusRawMsg
  accounting : charToUInt16 (msg.radiusMsgData.get radAccMsgCodeOffset) = accountingRequest ∨
    charToUInt16 (msg.radiusMsgData.get radAccMsgCodeOffset) = accountingResponse

namespace RadiusRawMsgPtr

def radMsgCode (p : RadiusRawMsgPtr) : UInt16 :=
  charToUInt16 (p.msg.radiusMsgData.get radAccMsgCodeOffset)

/-- The call of `getAllAvps`, `none` if it never leaves its loop
(`getAllAvps_bufferSize`). -/
def decode (p : RadiusRawMsgPtr) : Option (Except CppError AvpList) :=
  getAllAvps p.msg.radiusMsgData radiusMsgMaxSize

/-- What a worker holds of the message when `getAllAvps` has returned. -/
def decoded (p : RadiusRawMsgPtr) (avpList : AvpList) : DecodedMsg :=
  ⟨p.id, p.msg.key, p.radMsgCode, avpList, p.accounting⟩

/-- The decoded message, if `getAllAvps` returns. -/
def decoded? (p : RadiusRawMsgPtr) : Option DecodedMsg :=
  match p.decode with
  | some (.ok avpList) => some (p.decoded avpList)
  | _ => none

end RadiusRawMsgPtr

theorem isRadAccMsg_accounting (msg : RadiusRawMsg) (rEndpoint lEndpoint : Endpoint)
    (bytesNum : ℕ) (admitted : isRadAccMsg msg rEndpoint lEndpoint bytesNum = true) :
    charToUInt16 (msg.radiusMsgData.get radAccMsgCodeOffset) = accountingRequest ∨
      charToUInt16 (msg.radiusMsgData.get radAccMsgCodeOffset) = accountingResponse := by
  obtain ⟨-, -, code⟩ := isRadAccMsg_iff.mp admitted
  exact code.imp charToUInt16_eq_request.mpr charToUInt16_eq_response.mpr

/-- The bytes of a datagram are received into the buffer of the message. -/
def RadiusRawMsg.receive (msg : RadiusRawMsg) (datagram : List UInt8) : RadiusRawMsg :=
  { msg with radiusMsgData := msg.radiusMsgData.receive datagram }

structure Process where
  localEndpoint : Endpoint
  receiving : Bool
  tmpRadiusRawMsg : RadiusRawMsg
  dispatcher : Dispatcher RadiusRawMsgPtr
  hung : ℕ → Bool
  terminated : Bool
  shared : Shared
  accepted : List RadiusRawMsgPtr
  popped : List RadiusRawMsgPtr

/-- A datagram and the endpoint it came from. -/
abbrev Arrival := List UInt8 × Endpoint

inductive ProcessAction where
  | receive (datagram : Arrival)
  | receiveError
  | work (w : ℕ)
  | env (a : Shared.EnvAction)

def ProcessAction.arrival : ProcessAction → Option Arrival
  | .receive datagram => some datagram
  | _ => none

def ProcessAction.isExpire : ProcessAction → Bool
  | .env e => e.isExpire
  | _ => false

namespace Process

/-- The state `createQueues` and the constructors of the modules leave. -/
def init (localEndpoint : Endpoint) (workersNumber workerQueueCapacity thriftQueueCapacity : ℕ) :
    Process where
  localEndpoint := localEndpoint
  receiving := true
  tmpRadiusRawMsg := .new
  dispatcher := ⟨List.replicate workersNumber (.empty workerQueueCapacity), 0⟩
  hung := fun _ => false
  terminated := false
  shared := .init thriftQueueCapacity
  accepted := []
  popped := []

/-- The process with the number of workers and the capacities it is built with. -/
def createModules (localEndpoint : Endpoint) : Process :=
  init localEndpoint workersNumber workerQueueCapacity thriftQueueCapacity

/-- `PacketReceiver::receiveRaduisMessage` without error. Where the index of a
queue is out of range, or the retry loop goes on for good, there is no state. -/
def receiveRaduisMessage (s : Process) (datagram : Arrival) : Option Process :=
  if s.receiving then
    let radiusRawMsg := s.tmpRadiusRawMsg.receive datagram.1
    let bytesReceived := (datagram.1.take radiusMsgMaxSize).length
    let s := { s with tmpRadiusRawMsg := .new }
    if admitted : isRadAccMsg radiusRawMsg datagram.2 s.localEndpoint bytesReceived = true then
      let p : RadiusRawMsgPtr :=
        { id := s.accepted.length
          msg := setFlowKey (radiusRawMsg.setLength (UInt16.ofNat bytesReceived)) datagram.2
            s.localEndpoint
          accounting := isRadAccMsg_accounting radiusRawMsg datagram.2 s.localEndpoint
            bytesReceived admitted }
      match s.dispatcher.handleRadiusEvent p (s.dispatcher.workersInputQueues.length + 1) with
      | some (.ok (dispatcher, true)) => some { s with dispatcher, accepted := s.accepted ++ [p] }
      -- all queues are full: the message is dropped
      | some (.ok (dispatcher, false)) => some { s with dispatcher }
      | _ => none
    else some s
  else none

/-- `Worker::handleRadiusMessage`, from `try_pop` on. -/
def work (s : Process) (w : ℕ) : Option Process :=
  if s.hung w then none
  else
    match s.dispatcher.workersInputQueues[w]? with
    | none => none
    | some q =>
        match q.tryPop with
        | none => none
        | some (p, q') =>
            let s := { s with
              dispatcher := { s.dispatcher with
                workersInputQueues := s.dispatcher.workersInputQueues.set w q' }
              popped := s.popped ++ [p] }
            match p.decode with
            -- the loop of `getAllAvps` is never left: the worker pops nothing any more
            | none => some { s with hung := Function.update s.hung w true }
            | some (.error _) => some { s with terminated := true }
            | some (.ok avpList) =>
                (s.shared.handleRadiusMessage (p.decoded avpList)).map fun shared =>
                  { s with shared }

def step (s : Process) (a : ProcessAction) : Option Process :=
  if s.terminated then none
  else
    match a with
    | .receive datagram => s.receiveRaduisMessage datagram
    | .receiveError => if s.receiving then some { s with receiving := false } else none
    | .work w => s.work w
    | .env e => (s.shared.envStep e).map fun shared => { s with shared }

/-- No queue is full, and no timer expires. -/
structure Uneventful (s : Process) (a : ProcessAction) : Prop where
  workers : ∀ q ∈ s.dispatcher.workersInputQueues, ¬ q.Full
  output : ¬ s.shared.outputQueue.Full
  notExpire : a.isExpire = false

instance (s : Process) (a : ProcessAction) : Decidable (s.Uneventful a) :=
  decidable_of_iff ((∀ q ∈ s.dispatcher.workersInputQueues, ¬ q.Full) ∧
    ¬ s.shared.outputQueue.Full ∧ a.isExpire = false)
    ⟨fun ⟨h, h', h''⟩ => ⟨h, h', h''⟩, fun ⟨h, h', h''⟩ => ⟨h, h', h''⟩⟩

/-- The message that an admitted datagram becomes. -/
def admittedMsg (localEndpoint : Endpoint) (datagram : Arrival) : RadiusRawMsg :=
  setFlowKey ((RadiusRawMsg.received datagram.1).setLength
    (UInt16.ofNat (datagram.1.take radiusMsgMaxSize).length)) datagram.2 localEndpoint

/-- The receiver lets the datagram through. -/
def Admits (localEndpoint : Endpoint) (datagram : Arrival) : Prop :=
  isRadAccMsg (.received datagram.1) datagram.2 localEndpoint
    (datagram.1.take radiusMsgMaxSize).length = true

instance (localEndpoint : Endpoint) (datagram : Arrival) :
    Decidable (Admits localEndpoint datagram) := inferInstanceAs (Decidable (_ = true))

variable {s s' : Process} {a : ProcessAction} {acts : List ProcessAction}

/-! ## What a step can do -/

/-- A message goes to the queue whose turn it is. -/
theorem dispatch_of_room {d d' : Dispatcher RadiusRawMsgPtr} {p : RadiusRawMsgPtr} {fuel : ℕ}
    {pushed : Bool} (room : ∀ q ∈ d.workersInputQueues, ¬ q.Full)
    (dispatch : d.handleRadiusEvent p fuel = some (.ok (d', pushed))) :
    pushed = true ∧ ∃ i q q', d.workersInputQueues[i]? = some q ∧ q'.items = q.items ++ [p] ∧
      d'.workersInputQueues = d.workersInputQueues.set i q' := by
  cases turn : d.workersInputQueues[d.workerIndex % d.workersInputQueues.length]? with
  | none => simp [Dispatcher.handleRadiusEvent, Dispatcher.tryPushNext, Dispatcher.wrap, turn]
      at dispatch
  | some q =>
      have free := room q (List.mem_of_getElem? turn)
      obtain ⟨q', push, goes⟩ := Dispatcher.handleRadiusEvent_of_room p fuel turn free
      rw [goes] at dispatch
      simp only [Option.some.injEq, Except.ok.injEq, Prod.mk.injEq] at dispatch
      obtain ⟨rfl, rfl⟩ := dispatch
      exact ⟨rfl, _, q, q', turn, (BoundedQueue.tryPush_eq_some.mp push).2.2, rfl⟩

theorem receive_cases {datagram : Arrival} (new : s.tmpRadiusRawMsg = .new)
    (room : ∀ q ∈ s.dispatcher.workersInputQueues, ¬ q.Full)
    (step : s.receiveRaduisMessage datagram = some s') :
    (¬ Admits s.localEndpoint datagram ∧ s' = { s with tmpRadiusRawMsg := .new }) ∨
    ∃ p dispatcher i q q', Admits s.localEndpoint datagram ∧ p.id = s.accepted.length ∧
      p.msg = admittedMsg s.localEndpoint datagram ∧
      s.dispatcher.workersInputQueues[i]? = some q ∧ q'.items = q.items ++ [p] ∧
      dispatcher.workersInputQueues = s.dispatcher.workersInputQueues.set i q' ∧
      s' = { s with tmpRadiusRawMsg := .new, dispatcher, accepted := s.accepted ++ [p] } := by
  have received : s.tmpRadiusRawMsg.receive datagram.1 = .received datagram.1 := by
    rw [new]
    rfl
  simp only [receiveRaduisMessage, received] at step
  split at step
  · split at step
    · rename_i admitted
      split at step
      · rename_i dispatcher dispatch
        obtain ⟨-, i, q, q', turn, items, queues⟩ := dispatch_of_room room dispatch
        cases step
        exact .inr ⟨_, dispatcher, i, q, q', admitted, rfl, rfl, turn, items, queues, rfl⟩
      · rename_i dispatcher dispatch
        exact absurd (dispatch_of_room room dispatch).1 (by decide)
      · cases step
    · rename_i refused
      cases step
      exact .inl ⟨refused, rfl⟩
  · cases step

/-- A worker takes the message at the front of its queue; if `getAllAvps`
returns, the message is handled. -/
theorem work_cases {w : ℕ} (step : s.work w = some s') :
    ∃ q p q', s.dispatcher.workersInputQueues[w]? = some q ∧ q.tryPop = some (p, q') ∧
      s'.localEndpoint = s.localEndpoint ∧ s'.tmpRadiusRawMsg = s.tmpRadiusRawMsg ∧
      s'.accepted = s.accepted ∧ s'.popped = s.popped ++ [p] ∧
      s'.dispatcher = { s.dispatcher with
        workersInputQueues := s.dispatcher.workersInputQueues.set w q' } ∧
      ((p.decoded? = none ∧ s'.shared = s.shared) ∨
        ∃ msg, p.decoded? = some msg ∧ s.shared.handleRadiusMessage msg = some s'.shared) := by
  unfold work at step
  split at step
  · cases step
  · split at step
    · cases step
    · rename_i q turn
      split at step
      · cases step
      · rename_i p q' pop
        refine ⟨q, p, q', turn, pop, ?_⟩
        simp only at step
        split at step
        · rename_i hangs
          cases step
          exact ⟨rfl, rfl, rfl, rfl, rfl, .inl ⟨by simp [RadiusRawMsgPtr.decoded?, hangs], rfl⟩⟩
        · rename_i e throws
          cases step
          exact ⟨rfl, rfl, rfl, rfl, rfl, .inl ⟨by simp [RadiusRawMsgPtr.decoded?, throws], rfl⟩⟩
        · rename_i avpList returns
          obtain ⟨shared, handled, rfl⟩ := Option.map_eq_some_iff.mp step
          exact ⟨rfl, rfl, rfl, rfl, rfl,
            .inr ⟨_, by simp [RadiusRawMsgPtr.decoded?, returns], handled⟩⟩

end Process

namespace Process

variable {s s' : Process} {a : ProcessAction} {acts : List ProcessAction} {localEndpoint : Endpoint}
  {workersNumber workerQueueCapacity thriftQueueCapacity : ℕ}

/-! ## The invariant of uneventful runs -/

/-- Every accepted message is in a queue or has been popped, and what the
workers have handled is what `getAllAvps` returned for, in the order of
popping. -/
structure Inv (s : Process) : Prop where
  new : s.tmpRadiusRawMsg = .new
  ids : s.accepted.map RadiusRawMsgPtr.id = List.range s.accepted.length
  located : s.accepted.Perm
    (BoundedQueue.contents s.dispatcher.workersInputQueues ++ s.popped)
  taken : s.shared.taken = s.popped.filterMap RadiusRawMsgPtr.decoded?
  shared : s.shared.Inv Shared.nobody
  quiet : s.shared.Quiet
  refines : s.shared.Refines (paired s.shared.taken)
  sent : s.shared.Sent
  unmatched : s.shared.unmatchedReqsNum = 0

theorem inv_init : (init localEndpoint workersNumber workerQueueCapacity
    thriftQueueCapacity).Inv where
  new := rfl
  ids := rfl
  located := by
    have empty : BoundedQueue.contents (List.replicate workersNumber
        (.empty workerQueueCapacity : BoundedQueue RadiusRawMsgPtr)) = [] := by
      rw [BoundedQueue.contents_eq_nil]
      intro q mem
      rw [List.eq_of_mem_replicate mem]
      rfl
    exact .of_eq (by simp [init, empty])
  taken := rfl
  shared := Shared.inv_init _
  quiet := Shared.quiet_init _
  refines := Shared.refines_init _
  sent := Shared.sent_init _
  unmatched := rfl

/-- Receiving touches neither the messages that were popped nor what the
workers share. -/
theorem Inv.receive {datagram : Arrival} (inv : s.Inv)
    (room : ∀ q ∈ s.dispatcher.workersInputQueues, ¬ q.Full)
    (step : s.receiveRaduisMessage datagram = some s') : s'.Inv := by
  rcases receive_cases inv.new room step with ⟨-, rfl⟩ |
    ⟨p, dispatcher, i, q, q', -, id, -, turn, items, queues, rfl⟩
  · exact { inv with new := rfl }
  · -- the number of the new message is that of the messages before it
    refine { inv with new := rfl, ids := BoundedQueue.numbered_concat inv.ids id, located := ?_ }
    rw [queues]
    exact BoundedQueue.located_push inv.located turn items

theorem Inv.work {w : ℕ} (inv : s.Inv) (room : ¬ s.shared.outputQueue.Full)
    (step : s.work w = some s') : s'.Inv := by
  obtain ⟨q, p, q', turn, pop, -, tmp, accepted, popped, queues, handled⟩ := work_cases step
  have items := (BoundedQueue.tryPop_eq_some.mp pop).2
  have located : s'.accepted.Perm
      (BoundedQueue.contents s'.dispatcher.workersInputQueues ++ s'.popped) := by
    rw [accepted, popped, queues]
    exact BoundedQueue.located_pop inv.located turn items
  have new : s'.tmpRadiusRawMsg = .new := tmp.trans inv.new
  have ids : s'.accepted.map RadiusRawMsgPtr.id = List.range s'.accepted.length := by
    rw [accepted, inv.ids]
  rcases handled with ⟨left, same⟩ | ⟨msg, decoded, handles⟩
  · -- `getAllAvps` did not return, and the shared state is as before
    refine ⟨new, ids, located, ?_, ?_, ?_, ?_, ?_, ?_⟩ <;> rw [same]
    · rw [inv.taken, popped, List.filterMap_append]
      simp [left]
    · exact inv.shared
    · exact inv.quiet
    · exact inv.refines
    · exact inv.sent
    · exact inv.unmatched
  · obtain ⟨taken, unmatched, -⟩ := Shared.handleRadiusMessage_frame handles
    refine ⟨new, ids, located, ?_, inv.shared.handleRadiusMessage handles,
      inv.quiet.handleRadiusMessage handles, ?_,
      inv.sent.handleRadiusMessage inv.shared room handles, unmatched.trans inv.unmatched⟩
    · rw [taken, inv.taken, popped, List.filterMap_append]
      simp [decoded]
    · rw [taken, paired_concat]
      exact inv.refines.handleRadiusMessage inv.shared (fun _ => room) handles

theorem Inv.env {e : Shared.EnvAction} {shared : Shared} (inv : s.Inv)
    (notExpire : e.isExpire = false) (step : s.shared.envStep e = some shared) :
    ({ s with shared } : Process).Inv := by
  obtain ⟨quiet, table, pushed, -, unmatched, lists⟩ := inv.quiet.envStep notExpire step
  have taken := (Shared.envStep_frame step).1
  refine ⟨inv.new, inv.ids, inv.located, taken.trans inv.taken, inv.shared.envStep step, quiet, ?_,
    inv.sent.envStep inv.quiet notExpire step, unmatched.trans inv.unmatched⟩
  rw [taken]
  exact inv.refines.congr inv.shared (fun r _ => lists r) table pushed

/-- The steps of a process that has not ended. -/
theorem step_cases (step : s.step a = some s') :
    (∃ datagram, a = .receive datagram ∧ s.receiveRaduisMessage datagram = some s') ∨
    (a = .receiveError ∧ s' = { s with receiving := false }) ∨
    (∃ w, a = .work w ∧ s.work w = some s') ∨
    (∃ e shared, a = .env e ∧ s.shared.envStep e = some shared ∧ s' = { s with shared }) := by
  unfold Process.step at step
  split at step
  · cases step
  · cases a with
    | receive datagram => exact .inl ⟨datagram, rfl, step⟩
    | receiveError =>
        simp only at step
        split at step
        · exact .inr (.inl ⟨rfl, by simpa using step.symm⟩)
        · cases step
    | work w => exact .inr (.inr (.inl ⟨w, rfl, step⟩))
    | env e =>
        obtain ⟨shared, env, rfl⟩ := Option.map_eq_some_iff.mp step
        exact .inr (.inr (.inr ⟨e, shared, rfl, env, rfl⟩))

theorem Inv.step (inv : s.Inv) (fine : s.Uneventful a) (step : s.step a = some s') : s'.Inv := by
  rcases step_cases step with ⟨datagram, rfl, receive⟩ | ⟨rfl, rfl⟩ | ⟨w, rfl, work⟩ |
    ⟨e, shared, rfl, env, rfl⟩
  · exact inv.receive fine.workers receive
  · exact { inv with }
  · exact inv.work fine.output work
  · exact inv.env fine.notExpire env

theorem inv_of_uneventful
    (run : Runs.run step (init localEndpoint workersNumber workerQueueCapacity
      thriftQueueCapacity) acts = some s)
    (uneventful : Runs.Along step Uneventful (init localEndpoint workersNumber
      workerQueueCapacity thriftQueueCapacity) acts) : s.Inv :=
  Runs.invariant_along (I := Inv) inv_init (fun _ _ _ inv fine step => inv.step fine step)
    uneventful run

end Process

end RadiusEventHandler
