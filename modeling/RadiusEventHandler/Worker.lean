import Mathlib.Data.Int.Notation
import Mathlib.Logic.Function.Basic
import RadiusEventHandler.Framework.BoundedQueue
import RadiusEventHandler.Utils

/-!
# Workers, timers and the sender (`Worker.cpp`, `ThriftSender.cpp`)

The state the worker threads, the timer handlers and the sender share: the
records (`ThriftStruct`) behind their pointers, the hash table, the output
queue and the counter of unmatched messages. The functions of this file are
the critical sections of the source, one after the other: the hit branch under
the entry's lock, the creation of a record with its timer, the insertion under
the lock, the timer handler and one round of the sender.

The fields from `taken` on are history: no function reads them. The counters are
of type `std::atomic<int>` in the source; that they overflow is left out.
-/

namespace RadiusEventHandler

/-! ## Records -/

/-- `std::shared_ptr<AvpList>` as `getAllAvps` returns it: the list, and the
message whose decoding allocated it. -/
structure AvpListPtr where
  msgId : ℕ
  avpList : AvpList
deriving DecidableEq

/-- A message as a worker holds it when it turns to the hash table: its flow
key, its code and the list `getAllAvps` returned. Every message has a number of
its own; the receiver admits no other codes. -/
structure DecodedMsg where
  id : ℕ
  flowKey : FlowKey
  radMsgCode : UInt16
  avpList : AvpList
  accounting : radMsgCode = accountingRequest ∨ radMsgCode = accountingResponse
deriving DecidableEq

def DecodedMsg.avpListPtr (msg : DecodedMsg) : AvpListPtr := ⟨msg.id, msg.avpList⟩

/-- The asynchronous wait of a timer. The handler has its flow key bound; it is
queued with success when the wait expires and with `operation_aborted` when it
is cancelled before. -/
inductive Wait where
  | none
  | pending (key : FlowKey)
  | expired (key : FlowKey)
  | aborted (key : FlowKey)
  | completed (key : FlowKey)
deriving DecidableEq

/-- `boost::asio::deadline_timer`. -/
structure DeadlineTimer where
  seconds : ℕ
  wait : Wait
deriving DecidableEq

namespace DeadlineTimer

def new : DeadlineTimer := ⟨0, .none⟩

/-- `expires_from_now`, then `async_wait` with the key bound to the handler. -/
def start (_timer : DeadlineTimer) (seconds : ℕ) (key : FlowKey) : DeadlineTimer :=
  ⟨seconds, .pending key⟩

/-- `cancel()`: a wait that has expired already is not affected. -/
def cancel (timer : DeadlineTimer) : DeadlineTimer :=
  match timer.wait with
  | .pending key => { timer with wait := .aborted key }
  | _ => timer

end DeadlineTimer

structure ThriftStruct where
  captureTimeStamp : UInt64
  applId : UInt16
  reqAvpListPtr : Option AvpListPtr
  respAvpListPtr : Option AvpListPtr
  timer : DeadlineTimer
deriving DecidableEq

namespace ThriftStruct

/-- `ThriftStruct::ThriftStruct(io)`. -/
def new : ThriftStruct := ⟨0, 0, none, none, .new⟩

def setTimeStamp (t : ThriftStruct) (captureTimeStamp : UInt64) : ThriftStruct :=
  { t with captureTimeStamp }

def setApplId (t : ThriftStruct) (applId : UInt16) : ThriftStruct := { t with applId }

def setReqAvpListPtr (t : ThriftStruct) (avpListPtr : AvpListPtr) : ThriftStruct :=
  { t with reqAvpListPtr := some avpListPtr }

def setRespAvpListPtr (t : ThriftStruct) (avpListPtr : AvpListPtr) : ThriftStruct :=
  { t with respAvpListPtr := some avpListPtr }

/-- `getTimer()`, for the operation that is called on it. -/
def onTimer (t : ThriftStruct) (f : DeadlineTimer → DeadlineTimer) : ThriftStruct :=
  { t with timer := f t.timer }

/-- The two lists of a record. -/
def lists (t : ThriftStruct) : Option AvpListPtr × Option AvpListPtr :=
  (t.reqAvpListPtr, t.respAvpListPtr)

/-- Exactly one of the two lists is set. -/
def HasOneList (t : ThriftStruct) : Prop :=
  t.reqAvpListPtr.isSome = !t.respAvpListPtr.isSome

instance (t : ThriftStruct) : Decidable t.HasOneList :=
  inferInstanceAs (Decidable (_ = _))

@[simp] theorem onTimer_lists (t : ThriftStruct) (f : DeadlineTimer → DeadlineTimer) :
    (t.onTimer f).lists = t.lists := rfl

@[simp] theorem onTimer_reqAvpListPtr (t : ThriftStruct) (f : DeadlineTimer → DeadlineTimer) :
    (t.onTimer f).reqAvpListPtr = t.reqAvpListPtr := rfl

@[simp] theorem onTimer_respAvpListPtr (t : ThriftStruct) (f : DeadlineTimer → DeadlineTimer) :
    (t.onTimer f).respAvpListPtr = t.respAvpListPtr := rfl

@[simp] theorem onTimer_timer (t : ThriftStruct) (f : DeadlineTimer → DeadlineTimer) :
    (t.onTimer f).timer = f t.timer := rfl

@[simp] theorem setReqAvpListPtr_timer (t : ThriftStruct) (a : AvpListPtr) :
    (t.setReqAvpListPtr a).timer = t.timer := rfl

@[simp] theorem setRespAvpListPtr_timer (t : ThriftStruct) (a : AvpListPtr) :
    (t.setRespAvpListPtr a).timer = t.timer := rfl

/-- Being a one-list record depends on the lists only. -/
theorem hasOneList_congr {t t' : ThriftStruct} (h : t.lists = t'.lists) :
    t.HasOneList ↔ t'.HasOneList := by
  obtain ⟨req, resp⟩ := Prod.ext_iff.mp h
  simp only [lists] at req resp
  rw [HasOneList, HasOneList, req, resp]

end ThriftStruct

/-- The structure that is serialised and sent. -/
structure PlainThriftStruct where
  captureTimeStamp : UInt64
  applId : UInt16
  reqAvpList : AvpList
  respAvpList : AvpList
deriving DecidableEq

/-- `ThriftSender::fillPlainThriftStructure`. -/
def fillPlainThriftStructure (thrift : ThriftStruct) : PlainThriftStruct where
  captureTimeStamp := thrift.captureTimeStamp
  applId := thrift.applId
  reqAvpList := match thrift.reqAvpListPtr with
    | some avpListPtr => avpListPtr.avpList
    | none => []
  respAvpList := match thrift.respAvpListPtr with
    | some avpListPtr => avpListPtr.avpList
    | none => []

/-! ## The shared state -/

/-- Which record a pointer points to. -/
abbrev RecordId := ℕ

/-- `std::shared_ptr<ThriftStruct>`, which may be null. -/
abbrev ThriftPtr := Option RecordId

/-- `tbb::concurrent_hash_map<FlowKey, ThriftPtr, FlowKeyHashCompare>`. -/
abbrev ThriftHashTable := FlowKey → Option ThriftPtr

/-- Which branch handled a message, and the record it used there. -/
inductive Outcome where
  | stored (r : RecordId)
  | overwrote (r : RecordId)
  | merged (r : RecordId)
  | logicalError (r : RecordId)
deriving DecidableEq

structure Shared where
  thriftStructs : RecordId → ThriftStruct
  allocated : ℕ
  hashTable : ThriftHashTable
  outputQueue : BoundedQueue ThriftPtr
  unmatchedReqsNum : ℤ
  plainStructs : List PlainThriftStruct
  thriftStructsSent : ℤ
  taken : List DecodedMsg
  handled : List (DecodedMsg × Outcome)
  pushed : List RecordId
  refused : List RecordId
  evicted : List (RecordId × RecordId)

namespace Shared

/-- The state `createQueues` and the constructors leave. -/
def init (thriftQueueCapacity : ℕ) : Shared where
  thriftStructs := fun _ => .new
  allocated := 0
  hashTable := fun _ => none
  outputQueue := .empty thriftQueueCapacity
  unmatchedReqsNum := 0
  plainStructs := []
  thriftStructsSent := 0
  taken := []
  handled := []
  pushed := []
  refused := []
  evicted := []

/-- Writing through a pointer. -/
def write (s : Shared) (r : RecordId) (t : ThriftStruct) : Shared :=
  { s with thriftStructs := Function.update s.thriftStructs r t }

/-- `m_outputQueuePtr->try_push(thriftPtr)`; the result is not used. -/
def pushOutput (s : Shared) (r : RecordId) : Shared :=
  match s.outputQueue.tryPush (some r) with
  | some q => { s with outputQueue := q, pushed := s.pushed ++ [r] }
  | none => { s with refused := s.refused ++ [r] }

/-- `m_hashTable.erase(hashTableAccessor)`. -/
def erase (s : Shared) (key : FlowKey) : Shared :=
  { s with hashTable := Function.update s.hashTable key none }

/-- `m_hashTable.insert(hashTableAccessor, key)`: a new entry is a null pointer;
the result, whether there was an entry already, is not used. -/
def insert (s : Shared) (key : FlowKey) : Shared :=
  match s.hashTable key with
  | some _ => s
  | none => { s with hashTable := Function.update s.hashTable key (some none) }

/-- `hashTableAccessor->second = thriftPtr`. -/
def assign (s : Shared) (key : FlowKey) (r : RecordId) : Shared :=
  { s with hashTable := Function.update s.hashTable key (some (some r)) }

/-- A worker has popped and decoded a message. -/
def take (s : Shared) (msg : DecodedMsg) : Shared := { s with taken := s.taken ++ [msg] }

/-- A worker is done with a message. -/
def note (s : Shared) (msg : DecodedMsg) (outcome : Outcome) : Shared :=
  { s with handled := s.handled ++ [(msg, outcome)] }

/-! ## The worker's critical sections -/

/-- The mate of a message has been found: what becomes of its record. -/
def merge (msg : DecodedMsg) (r : RecordId) (thrift : ThriftStruct) : ThriftStruct × Outcome :=
  if msg.radMsgCode = accountingRequest ∧ thrift.respAvpListPtr.isSome then
    (thrift.setReqAvpListPtr msg.avpListPtr, .merged r)
  else if msg.radMsgCode = accountingResponse ∧ thrift.reqAvpListPtr.isSome then
    (thrift.setRespAvpListPtr msg.avpListPtr, .merged r)
  else (thrift, .logicalError r)

/-- The hit branch, all of it under the lock of the entry. -/
def hit (s : Shared) (msg : DecodedMsg) (r : RecordId) : Shared :=
  let (thrift, outcome) := merge msg r ((s.thriftStructs r).onTimer .cancel)
  (((s.write r thrift).pushOutput r).erase msg.flowKey).note msg outcome

/-- The record that is created for a message without mate, its timer started. -/
def fresh (msg : DecodedMsg) : ThriftStruct :=
  let thrift :=
    if msg.radMsgCode = accountingRequest then
      ThriftStruct.new.setReqAvpListPtr msg.avpListPtr
    else ThriftStruct.new.setRespAvpListPtr msg.avpListPtr
  thrift.onTimer fun timer => timer.start timeoutValue msg.flowKey

/-- `thriftPtr.reset(new ThriftStruct(m_io))`, with the list and the timer. -/
def create (s : Shared) (msg : DecodedMsg) : Shared :=
  { s.write s.allocated (fresh msg) with allocated := s.allocated + 1 }

/-- Insertion and assignment under the lock of the entry. -/
def store (s : Shared) (msg : DecodedMsg) (r : RecordId) : Shared :=
  ((s.insert msg.flowKey).assign msg.flowKey r).note msg
    (if (s.hashTable msg.flowKey).isSome then .overwrote r else .stored r)

/-- `Worker::handleRadiusMessage` for one decoded message, without interruption;
`none` where a null pointer is dereferenced. -/
def handleRadiusMessage (s : Shared) (msg : DecodedMsg) : Option Shared :=
  match s.hashTable msg.flowKey with
  | some (some r) => some ((s.take msg).hit msg r)
  | some none => none
  | none => some (((s.take msg).create msg).store msg s.allocated)

/-! ## Timers and sender -/

/-- `Worker::handleTimeout` with the key and the error code bound to the
handler; `owner` is the record whose wait it belongs to. -/
def handleTimeout (s : Shared) (owner : RecordId) (key : FlowKey) (operationAborted : Bool) :
    Shared :=
  if operationAborted then s
  else
    match s.hashTable key with
    | some (some r) =>
        { (s.pushOutput r).erase key with
          unmatchedReqsNum := s.unmatchedReqsNum + 1
          evicted := s.evicted ++ [(owner, r)] }
    | some none => s
    | none => s

def setWait (s : Shared) (r : RecordId) (wait : Wait) : Shared :=
  s.write r ((s.thriftStructs r).onTimer fun timer => { timer with wait })

/-- What happens besides the workers: a wait expires, `poll_one` runs a queued
handler, the sender takes a record (with the application id of the
configuration, the time, and whether `send_to` throws). -/
inductive EnvAction where
  | expire (r : RecordId)
  | runHandler (r : RecordId)
  | send (applId : UInt16) (now : UInt64) (sendThrows : Bool)

/-- A pending wait expires. In the source a record that nothing points to any
more is destroyed with its timer, and a wait that is pending then is aborted.
Here it stays pending: it may still expire, which adds runs, and no schedule has
to let it expire. -/
def expire (s : Shared) (r : RecordId) : Option Shared :=
  match (s.thriftStructs r).timer.wait with
  | .pending key => some (s.setWait r (.expired key))
  | _ => none

def runHandler (s : Shared) (r : RecordId) : Option Shared :=
  match (s.thriftStructs r).timer.wait with
  | .expired key => some ((s.setWait r (.completed key)).handleTimeout r key false)
  | .aborted key => some ((s.setWait r (.completed key)).handleTimeout r key true)
  | _ => none

/-- One round of `ThriftSender::sendThriftStructures` that pops a record. -/
def sendThriftStructure (s : Shared) (applId : UInt16) (now : UInt64) (sendThrows : Bool) :
    Option Shared :=
  match s.outputQueue.tryPop with
  | none => none
  | some (none, q) => some { s with outputQueue := q }
  | some (some r, q) =>
      let thrift := ((s.thriftStructs r).setApplId applId).setTimeStamp now
      some { s.write r thrift with
        outputQueue := q
        plainStructs := s.plainStructs ++ [fillPlainThriftStructure thrift]
        thriftStructsSent := if sendThrows then s.thriftStructsSent else s.thriftStructsSent + 1 }

def envStep (s : Shared) : EnvAction → Option Shared
  | .expire r => s.expire r
  | .runHandler r => s.runHandler r
  | .send applId now sendThrows => s.sendThriftStructure applId now sendThrows

end Shared

end RadiusEventHandler
