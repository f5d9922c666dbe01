import RadiusEventHandler.Framework.BoundedQueue
import RadiusEventHandler.Framework.Loop
import RadiusEventHandler.Utils

/-!
# The receiver (`PacketReceiver.cpp`)

Admission of a datagram (`isRadAccMsg`), its flow key (`setFlowKey`) and the
dispatch of an admitted message to one of the worker queues
(`handleRadiusEvent`). The dispatcher does not look into the messages, so it
is stated for queues of any element type.
-/

namespace RadiusEventHandler

/-- A `udp::endpoint` with an IPv4 address. -/
structure Endpoint where
  address : UInt32
  port : UInt16
deriving DecidableEq

/-- The number of received bytes is a parameter that the body does not use. -/
def isRadAccMsg (msg : RadiusRawMsg) (rEndpoint lEndpoint : Endpoint) (_bytesNum : ℕ) : Bool :=
  let radMsgLen := msg.radiusMsgData.lengthField
  if radiusHeaderLen ≤ radMsgLen.toNat ∧ radiusMsgMaxSize > radMsgLen.toNat then
    if radiusAccountingPort = lEndpoint.port ∨ radiusAccountingPort = rEndpoint.port then
      match msg.radiusMsgData.byteAt radAccMsgCodeOffset with
      | .ok radMsgCode =>
          charToUInt16 radMsgCode == accountingRequest ||
            charToUInt16 radMsgCode == accountingResponse
      | .error _ => false
    else false
  else false

/-- Addresses and ports are sorted independently of each other. -/
def setFlowKey (msg : RadiusRawMsg) (remoteEndpoint localEndpoint : Endpoint) : RadiusRawMsg :=
  let dstIp := localEndpoint.address
  let dstPort := localEndpoint.port
  let srcIp := remoteEndpoint.address
  let srcPort := remoteEndpoint.port
  let (portSrv, portClnt) := if srcPort ≥ dstPort then (srcPort, dstPort) else (dstPort, srcPort)
  let (ipSrv, ipClnt) := if srcIp ≥ dstIp then (srcIp, dstIp) else (dstIp, srcIp)
  let identifier := msg.radiusMsgData.get radAccIdOffset
  msg.initFlowKey ipSrv ipClnt portSrv portClnt identifier

/-! ## Admission -/

theorem isRadAccMsg_iff {msg : RadiusRawMsg} {rEndpoint lEndpoint : Endpoint} {bytesNum : ℕ} :
    isRadAccMsg msg rEndpoint lEndpoint bytesNum = true ↔
      (20 ≤ msg.radiusMsgData.lengthField.toNat ∧ msg.radiusMsgData.lengthField.toNat ≤ 4095) ∧
      (lEndpoint.port = 1813 ∨ rEndpoint.port = 1813) ∧
      (msg.radiusMsgData.get 0 = 4 ∨ msg.radiusMsgData.get 0 = 5) := by
  have code : msg.radiusMsgData.byteAt radAccMsgCodeOffset = .ok (msg.radiusMsgData.get 0) :=
    RawDataArray.byteAt_of_lt (by decide)
  simp only [isRadAccMsg, code, radiusHeaderLen_eq, radiusMsgMaxSize_eq, radiusAccountingPort,
    gt_iff_lt, Nat.lt_succ_iff, eq_comm (a := (1813 : UInt16))]
  by_cases len : 20 ≤ msg.radiusMsgData.lengthField.toNat ∧
      msg.radiusMsgData.lengthField.toNat ≤ 4095
  · by_cases port : lEndpoint.port = 1813 ∨ rEndpoint.port = 1813
    · simp [len, port, charToUInt16_eq_request, charToUInt16_eq_response]
    · simp [port]
  · simp [len]

/-! ## Flow keys -/

/-- With one end of the two fixed, the sorted pair determines the other end. -/
theorem sortedPorts_cancel {a b l : UInt16}
    (h : (if a ≥ l then (a, l) else (l, a)) = if b ≥ l then (b, l) else (l, b)) : a = b := by
  grind

theorem sortedAddresses_cancel {a b l : UInt32}
    (h : (if a ≥ l then (a, l) else (l, a)) = if b ≥ l then (b, l) else (l, b)) : a = b := by
  grind

theorem setFlowKey_key (msg : RadiusRawMsg) (r l : Endpoint) :
    (setFlowKey msg r l).key =
      { ipServer := (if r.address ≥ l.address then (r.address, l.address)
          else (l.address, r.address)).1
        ipClient := (if r.address ≥ l.address then (r.address, l.address)
          else (l.address, r.address)).2
        portServer := (if r.port ≥ l.port then (r.port, l.port) else (l.port, r.port)).1
        portClient := (if r.port ≥ l.port then (r.port, l.port) else (l.port, r.port)).2
        protoField := msg.radiusMsgData.get 1 } := rfl

/-- For one local endpoint, the flow key determines the remote endpoint and
the identifier. -/
theorem setFlowKey_cancel {msg msg' : RadiusRawMsg} {r r' l : Endpoint}
    (h : (setFlowKey msg r l).key = (setFlowKey msg' r' l).key) :
    r = r' ∧ msg.radiusMsgData.get 1 = msg'.radiusMsgData.get 1 := by
  rw [setFlowKey_key, setFlowKey_key, FlowKey.mk.injEq] at h
  obtain ⟨ipServer, ipClient, portServer, portClient, identifier⟩ := h
  have address := sortedAddresses_cancel (Prod.ext ipServer ipClient)
  have port := sortedPorts_cancel (Prod.ext portServer portClient)
  cases r
  cases r'
  exact ⟨by simp_all, identifier⟩

theorem sortedPorts_comm (a l : UInt16) :
    (if a ≥ l then (a, l) else (l, a)) = if l ≥ a then (l, a) else (a, l) := by
  grind

theorem sortedAddresses_comm (a l : UInt32) :
    (if a ≥ l then (a, l) else (l, a)) = if l ≥ a then (l, a) else (a, l) := by
  grind

/-- The key does not tell the two ends apart. -/
theorem setFlowKey_comm (msg : RadiusRawMsg) (r l : Endpoint) :
    (setFlowKey msg r l).key = (setFlowKey msg l r).key := by
  rw [setFlowKey_key, setFlowKey_key, sortedAddresses_comm r.address l.address,
    sortedPorts_comm r.port l.port]

/-- **Flow keys identify flows.** -/
theorem setFlowKey_identifies :
    (∀ (msg : RadiusRawMsg) (remote loc : Endpoint),
      (setFlowKey msg remote loc).key = (setFlowKey msg loc remote).key) ∧
    ∀ (loc r r' : Endpoint) (msg msg' : RadiusRawMsg),
      (setFlowKey msg r loc).key.equal (setFlowKey msg' r' loc).key = true ↔
        r.address = r'.address ∧ r.port = r'.port ∧
          msg.radiusMsgData.get radAccIdOffset = msg'.radiusMsgData.get radAccIdOffset := by
  refine ⟨setFlowKey_comm, fun loc r r' msg msg' => ?_⟩
  rw [FlowKey.equal_iff]
  constructor
  · intro same
    obtain ⟨rfl, identifier⟩ := setFlowKey_cancel same
    exact ⟨rfl, rfl, identifier⟩
  · rintro ⟨address, port, identifier⟩
    rw [setFlowKey_key, setFlowKey_key, address, port,
      show msg.radiusMsgData.get 1 = msg'.radiusMsgData.get 1 from identifier]

/-! ## Dispatch -/

/-- The queues of the workers and the index of the next one. -/
structure Dispatcher (α : Type*) where
  workersInputQueues : List (BoundedQueue α)
  workerIndex : ℕ

namespace Dispatcher

variable {α : Type*}

/-- `m_workerIndex = m_workerIndex % numQueues`. -/
def wrap (d : Dispatcher α) : Dispatcher α :=
  { d with workerIndex := d.workerIndex % d.workersInputQueues.length }

/-- `m_workersInputQueuesRef[m_workerIndex++]->try_push(msg)`. -/
def tryPushNext (d : Dispatcher α) (msg : α) : Except CppError (Dispatcher α × Bool) :=
  match d.workersInputQueues[d.workerIndex]? with
  | none => .error .undefinedBehaviour
  | some q =>
      match q.tryPush msg with
      | some q' =>
          .ok ({ workersInputQueues := d.workersInputQueues.set d.workerIndex q'
                 workerIndex := d.workerIndex + 1 }, true)
      | none => .ok ({ d with workerIndex := d.workerIndex + 1 }, false)

/-- The variables of the retry loop. -/
structure Retry (α : Type*) where
  dispatcher : Dispatcher α
  pushed : Bool
  numberOfTries : UInt8

/-- `!pushed && numberOfTries < (numQueues - 1)`. -/
def retryCond (s : Retry α) : Bool :=
  !s.pushed && decide (s.numberOfTries.toNat < s.dispatcher.workersInputQueues.length - 1)

def retryBody (msg : α) (s : Retry α) : Except CppError (Retry α) := do
  let (dispatcher, pushed) ← s.dispatcher.wrap.tryPushNext msg
  pure { dispatcher, pushed, numberOfTries := s.numberOfTries + 1 }

/-- `PacketReceiver::handleRadiusEvent`: the dispatcher afterwards, and whether
a queue took the message. The retry loop has a bound on its tests. -/
def handleRadiusEvent (d : Dispatcher α) (msg : α) (fuel : ℕ) :
    Option (Except CppError (Dispatcher α × Bool)) :=
  match d.wrap.tryPushNext msg with
  | .error e => some (.error e)
  | .ok (d, true) => some (.ok (d, true))
  | .ok (d, false) =>
      (Loop.run retryCond (retryBody msg) fuel ⟨d, false, 0⟩).map
        (Except.map fun s => (s.dispatcher, s.pushed))

/-- When the queue whose turn it is has room, it takes the message. -/
theorem handleRadiusEvent_of_room {d : Dispatcher α} {q : BoundedQueue α} (msg : α) (fuel : ℕ)
    (turn : d.workersInputQueues[d.workerIndex % d.workersInputQueues.length]? = some q)
    (room : ¬ q.Full) :
    ∃ q', q.tryPush msg = some q' ∧ d.handleRadiusEvent msg fuel = some (.ok
      ({ workersInputQueues := d.workersInputQueues.set
          (d.workerIndex % d.workersInputQueues.length) q'
         workerIndex := d.workerIndex % d.workersInputQueues.length + 1 }, true)) := by
  obtain ⟨q', push, -⟩ := BoundedQueue.tryPush_of_not_full msg room
  refine ⟨q', push, ?_⟩
  simp [handleRadiusEvent, tryPushNext, wrap, turn, push]

end Dispatcher

end RadiusEventHandler
