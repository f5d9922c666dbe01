import RadiusEventHandler.Delivery
import RadiusEventHandler.Reports
import RadiusEventHandler.StrandedEntries

/-!
# What becomes of a message that is accepted

Under a fair schedule every accepted message is handled, and the record that
keeps its list gets to the sender, unless the output queue refuses it, another
worker's insertion overwrites its entry or the handler of its timer has run too
early. A record goes one way, from the worker that creates it through the table
to the queue; each part of the way has an action that brings the record on.
-/

namespace RadiusEventHandler

namespace Shared

/-- The record has the list of the message on the message's side. -/
def Keeps (s : Shared) (msg : DecodedMsg) (r : RecordId) : Prop :=
  (msg.radMsgCode = accountingRequest ∧ (s.thriftStructs r).reqAvpListPtr = some msg.avpListPtr) ∨
  (msg.radMsgCode = accountingResponse ∧
    (s.thriftStructs r).respAvpListPtr = some msg.avpListPtr)

/-- The keeper of a handled message has been created and has its list. -/
def ListsKept (s : Shared) : Prop :=
  ∀ msg outcome r, (msg, outcome) ∈ s.handled → outcome.keeper = some r →
    r < s.allocated ∧ s.Keeps msg r

variable {s u : Shared} {msg : DecodedMsg} {r : RecordId}

theorem handleTimeout_sent (s : Shared) (owner : RecordId) (key : FlowKey) :
    (s.handleTimeout owner key false).plainStructs = s.plainStructs ∧
      (s.handleTimeout owner key false).thriftStructsSent = s.thriftStructsSent := by
  unfold handleTimeout
  simp only [Bool.false_eq_true, if_false]
  split
  · rw [pushOutput_eq]
    exact ⟨rfl, rfl⟩
  · exact ⟨rfl, rfl⟩
  · exact ⟨rfl, rfl⟩

theorem Keeps.congr (keeps : s.Keeps msg r)
    (lists : (u.thriftStructs r).lists = (s.thriftStructs r).lists) : u.Keeps msg r := by
  obtain ⟨req, resp⟩ := Prod.ext_iff.mp lists
  simp only [ThriftStruct.lists] at req resp
  rw [Keeps, req, resp]
  exact keeps

theorem HeldFor.keeps (mine : s.HeldFor msg r) : s.Keeps msg r := by
  have one := mine.oneList
  unfold ThriftStruct.HasOneList at one
  cases req : (s.thriftStructs r).reqAvpListPtr with
  | some a =>
      obtain ⟨rfl, code⟩ := mine.request a req
      exact .inl ⟨code, req⟩
  | none =>
      cases resp : (s.thriftStructs r).respAvpListPtr with
      | some b =>
          obtain ⟨rfl, code⟩ := mine.response b resp
          exact .inr ⟨code, resp⟩
      | none => simp [req, resp] at one

/-- Merging leaves the list that is there. -/
theorem Keeps.merge {msg' : DecodedMsg} (keeps : s.Keeps msg r)
    (one : (s.thriftStructs r).HasOneList)
    (merged : u.thriftStructs r =
      (Shared.merge msg' r ((s.thriftStructs r).onTimer .cancel)).1) : u.Keeps msg r := by
  have one' : ((s.thriftStructs r).onTimer .cancel).HasOneList :=
    (ThriftStruct.hasOneList_congr (ThriftStruct.onTimer_lists _ _)).mpr one
  rcases merge_cases msg' r one' with ⟨-, free, -, eq⟩ | ⟨-, free, -, eq⟩ | ⟨-, -, -, eq⟩ |
    ⟨-, -, -, eq⟩ <;> rw [eq] at merged
  · rcases keeps with ⟨-, set⟩ | ⟨code, set⟩
    · rw [ThriftStruct.onTimer_reqAvpListPtr, set] at free
      cases free
    · exact .inr ⟨code, by rw [merged]; exact set⟩
  · rcases keeps with ⟨code, set⟩ | ⟨-, set⟩
    · exact .inl ⟨code, by rw [merged]; exact set⟩
    · rw [ThriftStruct.onTimer_respAvpListPtr, set] at free
      cases free
  · exact keeps.congr (by rw [merged]; rfl)
  · exact keeps.congr (by rw [merged]; rfl)

/-- Nothing is handled, and the records that there are keep their lists. -/
theorem ListsKept.congr (kept : s.ListsKept) (handled : u.handled = s.handled)
    (allocated : s.allocated ≤ u.allocated)
    (lists : ∀ r < s.allocated, (u.thriftStructs r).lists = (s.thriftStructs r).lists) :
    u.ListsKept := by
  intro msg outcome r mem keeper
  rw [handled] at mem
  obtain ⟨lt, keeps⟩ := kept msg outcome r mem keeper
  exact ⟨Nat.lt_of_lt_of_le lt allocated, keeps.congr (lists r lt)⟩

end Shared

namespace Matcher

variable {m m' : Matcher} {a : MatcherAction} {msg : DecodedMsg} {r : RecordId} {key : FlowKey}
  {w : ℕ} {acts : List MatcherAction} {capacity : ℕ}

/-! ## Records go one way -/

theorem Inv.allocated_le (inv : m.Inv) (step : m.step a = some m') :
    m.shared.allocated ≤ m'.shared.allocated := by
  cases inv.moves step with
  | stay _ allocated => exact allocated.ge
  | wait _ _ _ allocated => exact allocated.ge
  | create _ _ _ _ allocated => exact allocated.ge.trans' (Nat.le_succ _)
  | insert _ _ _ _ _ allocated => exact allocated.ge
  | leave _ _ _ _ _ _ allocated => exact allocated.ge

/-- No worker has the record in its hands, now or later. -/
structure Released (m : Matcher) (r : RecordId) : Prop where
  lt : r < m.shared.allocated
  free : ∀ w msg, m.held w ≠ some (msg, r)

theorem Released.step (released : m.Released r) (inv : m.Inv) (step : m.step a = some m') :
    m'.Released r := by
  refine ⟨Nat.lt_of_lt_of_le released.lt (inv.allocated_le step), fun w msg => ?_⟩
  have same : m'.held = m.held → m'.held w ≠ some (msg, r) := fun held => held ▸ released.free w msg
  cases inv.moves step with
  | stay _ _ held => exact same held
  | wait _ _ _ _ held => exact same held
  | create w' msg' _ _ _ held =>
      intro holds
      rw [held] at holds
      rcases update_eq_cases holds with ⟨-, eq⟩ | ⟨-, old⟩
      · cases eq
        exact Nat.lt_irrefl _ released.lt
      · exact released.free w msg old
  | insert w' msg' _ _ _ _ held =>
      intro holds
      rw [held] at holds
      rcases update_eq_cases holds with ⟨-, eq⟩ | ⟨-, old⟩
      · cases eq
      · exact released.free w msg old
  | leave _ _ _ _ _ _ _ held => exact same held

end Matcher

namespace Program

variable {s s' : Program} {a : ProgramAction} {w i n k : ℕ} {p : RadiusRawMsgPtr}
  {msg : DecodedMsg} {outcome : Outcome} {r : RecordId} {key : FlowKey}
  {acts : List ProgramAction} {sched : ℕ → ProgramAction}
  {localEndpoint : Endpoint} {workersNumber workerQueueCapacity thriftQueueCapacity : ℕ}

/-! ## What is known of every state -/

/-- What is known of the shared state in every state that is reached. -/
structure Known (s : Program) : Prop where
  inv : s.Inv
  looked : s.LookedUp
  matcher : s.matcher.Inv
  waits : ∃ late, s.matcher.WaitsKnown late
  sent : s.process.shared.Sent
  lists : s.process.shared.ListsKept

/-- Seen from the matcher a step is a step or none. -/
theorem Known.matched (known : s.Known) (step : s.step a = some s') :
    s'.matcher = s.matcher ∨ ∃ b, s.matcher.step b = some s'.matcher := by
  obtain ⟨b, matched⟩ := matcher_step known.inv known.looked step
  cases b with
  | none => exact .inl (Option.some.inj matched).symm
  | some b =>
      rw [Option.toList_some, Runs.run, Option.bind_eq_some_iff] at matched
      obtain ⟨m, next, eq⟩ := matched
      cases eq
      exact .inr ⟨b, next⟩

/-- What a step of the matcher keeps, a turn of the program keeps. -/
theorem Known.turn {P : Matcher → Prop} (known : (Runs.exec step s sched n).Known)
    (keeps : ∀ b m', (Runs.exec step s sched n).matcher.step b = some m' → P m')
    (holds : P (Runs.exec step s sched n).matcher) :
    P (Runs.exec step s sched (n + 1)).matcher := by
  rcases Runs.exec_cases step s sched n with taken | passed
  · rcases known.matched taken with same | ⟨b, next⟩
    · exact same ▸ holds
    · exact keeps b _ next
  · exact passed ▸ holds

/-! ## From the worker through the table -/

/-- Only the sender sends, and no other thread changes where it is. -/
theorem sender_other (step : s.step a = some s') (other : a.thread ≠ some .thriftSender) :
    s'.process.shared.plainStructs = s.process.shared.plainStructs ∧
      s'.process.shared.thriftStructsSent = s.process.shared.thriftStructsSent ∧
      s'.sender = s.sender := by
  rcases step_cases step with ⟨b, process, rfl, -, polled, next, rfl⟩ |
    ⟨r, shared, rfl, expire, rfl⟩ | ⟨rfl, -, rfl⟩ | ⟨m', rest, rfl, -, rfl⟩ |
    ⟨m', rest, rfl, -, -, rfl⟩ | ⟨w, rfl, worker⟩ | ⟨applId, now, sendThrows, rfl, sender⟩
  · rcases Process.step_cases next with ⟨datagram, -, receive⟩ | ⟨-, rfl⟩ | ⟨w, rfl, -⟩ |
      ⟨e, shared, rfl, env, rfl⟩
    · have same := (Process.receive_placed receive).2.1
      exact ⟨congrArg Shared.plainStructs same, congrArg Shared.thriftStructsSent same, rfl⟩
    · exact ⟨rfl, rfl, rfl⟩
    · cases polled
    · cases e with
      | expire r => cases polled
      | runHandler r =>
          obtain ⟨key, ⟨-, rfl⟩ | ⟨-, rfl⟩⟩ := Shared.runHandler_cases env
          · obtain ⟨plain, sent⟩ := Shared.handleTimeout_sent
              (s.process.shared.setWait r (.completed key)) r key
            exact ⟨plain, sent, rfl⟩
          · exact ⟨rfl, rfl, rfl⟩
      | send applId now sendThrows => cases polled
  · obtain ⟨key, -, rfl⟩ := Shared.expire_cases expire
    exact ⟨rfl, rfl, rfl⟩
  · exact ⟨rfl, rfl, rfl⟩
  · exact ⟨rfl, rfl, rfl⟩
  · exact ⟨rfl, rfl, rfl⟩
  · have still := (workerStep_frame worker).1
    rcases workerStep_cases worker with ⟨-, rfl⟩ | ⟨q, -, -, -, rfl⟩ | ⟨q, p, q', -, -, -, rfl⟩ |
      ⟨p, -, rfl⟩ | ⟨p, msg, r, -, -, rfl⟩ | ⟨p, msg, decoded, -, rfl⟩ |
      ⟨p, msg, decoded, -, rfl⟩ | ⟨p, msg, decoded, r, -, rfl⟩
    · exact ⟨rfl, rfl, still⟩
    · exact ⟨rfl, rfl, still⟩
    · exact ⟨rfl, rfl, still⟩
    · exact ⟨rfl, rfl, still⟩
    · refine ⟨?_, ?_, still⟩
      · show ((s.process.shared.take msg).hit msg r).plainStructs = _
        rw [Shared.hit_eq]
        rfl
      · show ((s.process.shared.take msg).hit msg r).thriftStructsSent = _
        rw [Shared.hit_eq]
        rfl
    · exact ⟨rfl, rfl, still⟩
    · exact ⟨rfl, rfl, still⟩
    · refine ⟨?_, ?_, still⟩
      · show (s.process.shared.store msg r).plainStructs = _
        rw [Shared.store_eq]
      · show (s.process.shared.store msg r).thriftStructsSent = _
        rw [Shared.store_eq]
  · exact absurd rfl other

/-- A structure that is sent has the list of the message on the message's side. -/
def Carries (plain : PlainThriftStruct) (msg : DecodedMsg) : Prop :=
  (msg.radMsgCode = accountingRequest ∧ plain.reqAvpList = msg.avpList) ∨
  (msg.radMsgCode = accountingResponse ∧ plain.respAvpList = msg.avpList)

end Program

end RadiusEventHandler
