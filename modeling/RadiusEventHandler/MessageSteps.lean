import RadiusEventHandler.Framework.Runs
import RadiusEventHandler.Matching

/-!
# Messages handled one at a time, with timers

Runs in which a worker handles a message as one step, between the expiry of
waits, the handlers that `poll_one` runs and the sender.

A handler has only the flow key of the record whose wait it belongs to. While
every handler that is queued with success belongs to the record of its key, or
to none, it evicts its own record (`Timely`); a message that is stored while
such a handler is queued for its key is the one way out of this.
-/

namespace RadiusEventHandler

inductive MessageAction where
  | handle (msg : DecodedMsg)
  | env (a : Shared.EnvAction)

namespace Shared

/-- One step. A message is handled once: its number is not used again. -/
def messageStep (s : Shared) : MessageAction → Option Shared
  | .handle msg =>
      if msg.id ∈ s.taken.map DecodedMsg.id then none else s.handleRadiusMessage msg
  | .env a => s.envStep a

variable {s s' t u : Shared} {msg : DecodedMsg} {r : RecordId} {key : FlowKey}
  {acts : List MessageAction} {capacity : ℕ}

theorem messageStep_handle :
    s.messageStep (.handle msg) = some s' ↔
      msg.id ∉ s.taken.map DecodedMsg.id ∧ s.handleRadiusMessage msg = some s' := by
  unfold messageStep
  split <;> simp_all

theorem Inv.messageStep {a : MessageAction} (inv : s.Inv nobody)
    (step : s.messageStep a = some s') : s'.Inv nobody := by
  cases a with
  | handle msg => exact inv.handleRadiusMessage (messageStep_handle.mp step).2
  | env a => exact inv.envStep step

theorem inv_messageSteps (run : Runs.run messageStep (init capacity) acts = some s) :
    s.Inv nobody :=
  Runs.invariant_of_step (I := fun t => t.Inv nobody) (inv_init capacity)
    (fun _ _ _ inv step => inv.messageStep step) run

/-! ## What timers and sender do -/

def waitOf (s : Shared) (r : RecordId) : Wait := (s.thriftStructs r).timer.wait

theorem expire_cases (step : s.expire r = some s') :
    ∃ key, s.waitOf r = .pending key ∧ s' = s.setWait r (.expired key) := by
  unfold expire at step
  split at step
  · rename_i key wait
    exact ⟨key, wait, by simpa using step.symm⟩
  · cases step

theorem runHandler_cases (step : s.runHandler r = some s') :
    ∃ key, (s.waitOf r = .expired key ∧
        s' = (s.setWait r (.completed key)).handleTimeout r key false) ∨
      (s.waitOf r = .aborted key ∧ s' = s.setWait r (.completed key)) := by
  unfold runHandler at step
  split at step
  · rename_i key wait
    exact ⟨key, .inl ⟨wait, by simpa using step.symm⟩⟩
  · rename_i key wait
    exact ⟨key, .inr ⟨wait, by simpa [handleTimeout_aborted] using step.symm⟩⟩
  · cases step

/-- A handler that is queued with success, by what it finds. -/
theorem timeout_cases (inv : s.Inv nobody) (owner : RecordId) (key : FlowKey) :
    (s.hashTable key = none ∧ s.handleTimeout owner key false = s) ∨
    ∃ r, s.hashTable key = some (some r) ∧ s.handleTimeout owner key false = { s with
      hashTable := Function.update s.hashTable key none
      outputQueue := (s.outputQueue.tryPush (some r)).getD s.outputQueue
      pushed := if s.outputQueue.Full then s.pushed else s.pushed ++ [r]
      refused := if s.outputQueue.Full then s.refused ++ [r] else s.refused
      unmatchedReqsNum := s.unmatchedReqsNum + 1
      evicted := s.evicted ++ [(owner, r)] } := by
  cases entry : s.hashTable key with
  | none => exact .inl ⟨rfl, handleTimeout_no_entry entry⟩
  | some p =>
      obtain ⟨r, rfl, -⟩ := inv.entry key p entry
      exact .inr ⟨r, rfl, handleTimeout_eq entry⟩

theorem send_cases {applId : UInt16} {now : UInt64} {sendThrows : Bool}
    (step : s.sendThriftStructure applId now sendThrows = some s') :
    s'.hashTable = s.hashTable ∧ s'.allocated = s.allocated ∧ s'.pushed = s.pushed ∧
      s'.refused = s.refused ∧ s'.taken = s.taken ∧ s'.handled = s.handled ∧
      s'.unmatchedReqsNum = s.unmatchedReqsNum ∧
      (∀ r, s'.waitOf r = s.waitOf r) ∧
      ∀ r, (s'.thriftStructs r).lists = (s.thriftStructs r).lists := by
  unfold sendThriftStructure at step
  split at step
  · cases step
  · cases step
    exact ⟨rfl, rfl, rfl, rfl, rfl, rfl, rfl, fun _ => rfl, fun _ => rfl⟩
  · rename_i r q _
    cases step
    refine ⟨rfl, rfl, rfl, rfl, rfl, rfl, rfl, fun r' => ?_, fun r' => ?_⟩ <;>
      by_cases same : r' = r
    · subst same
      simp [waitOf, write, ThriftStruct.setApplId, ThriftStruct.setTimeStamp]
    · simp [waitOf, write, same]
    · subst same
      simp [write, ThriftStruct.lists, ThriftStruct.setApplId, ThriftStruct.setTimeStamp]
    · simp [write, same]

theorem setWait_waitOf (s : Shared) (r : RecordId) (wait : Wait) :
    (s.setWait r wait).waitOf = Function.update s.waitOf r wait := by
  funext r'
  by_cases same : r' = r
  · subst same
    simp [waitOf, setWait_eq]
  · simp [waitOf, setWait_eq, same]

theorem merge_timer (msg : DecodedMsg) (r : RecordId) (thrift : ThriftStruct) :
    (merge msg r thrift).1.timer = thrift.timer := by
  unfold merge
  split
  · rfl
  · split <;> rfl

theorem hit_waitOf (s : Shared) (msg : DecodedMsg) (r : RecordId) :
    (s.hit msg r).waitOf =
      Function.update s.waitOf r (s.thriftStructs r).timer.cancel.wait := by
  funext r'
  by_cases same : r' = r
  · subst same
    simp [waitOf, hit_eq, merge_timer]
  · simp [waitOf, hit_eq, same]

theorem create_waitOf (s : Shared) (msg : DecodedMsg) :
    (s.create msg).waitOf = Function.update s.waitOf s.allocated (.pending msg.flowKey) := by
  have started : (fresh msg).timer.wait = .pending msg.flowKey := by
    unfold fresh
    split <;> rfl
  funext r'
  by_cases same : r' = s.allocated
  · subst same
    simp [waitOf, create_eq, started]
  · simp [waitOf, create_eq, same]

theorem store_waitOf (s : Shared) (msg : DecodedMsg) (r : RecordId) :
    (s.store msg r).waitOf = s.waitOf := by
  rw [store_eq]
  rfl

/-- Cancelling never leaves a wait pending, and never makes one expire. -/
theorem cancel_wait (timer : DeadlineTimer) :
    (∀ key, timer.cancel.wait ≠ .pending key) ∧
      ∀ key, timer.cancel.wait = .expired key → timer.wait = .expired key := by
  obtain ⟨seconds, wait⟩ := timer
  cases wait <;> simp [DeadlineTimer.cancel]

theorem handleTimeout_frame (s : Shared) (owner : RecordId) (key : FlowKey)
    (operationAborted : Bool) :
    (s.handleTimeout owner key operationAborted).taken = s.taken ∧
      (s.handleTimeout owner key operationAborted).handled = s.handled := by
  cases operationAborted with
  | true => exact ⟨rfl, rfl⟩
  | false =>
      unfold handleTimeout
      split
      · exact ⟨rfl, rfl⟩
      · split
        · rw [pushOutput_eq]
          exact ⟨rfl, rfl⟩
        · exact ⟨rfl, rfl⟩
        · exact ⟨rfl, rfl⟩

/-- Timers and sender leave the history of the messages alone. -/
theorem envStep_frame {e : EnvAction} (step : s.envStep e = some s') :
    s'.taken = s.taken ∧ s'.handled = s.handled := by
  cases e with
  | expire r =>
      obtain ⟨key, -, rfl⟩ := expire_cases step
      exact ⟨rfl, rfl⟩
  | runHandler r =>
      obtain ⟨key, ⟨-, rfl⟩ | ⟨-, rfl⟩⟩ := runHandler_cases step
      · exact handleTimeout_frame _ _ _ _
      · exact ⟨rfl, rfl⟩
  | send applId now sendThrows =>
      obtain ⟨-, -, -, -, taken, handled, -⟩ := send_cases step
      exact ⟨taken, handled⟩

/-! ## Without expiries -/

/-- No handler is queued with success. -/
def Quiet (s : Shared) : Prop := ∀ r key, s.waitOf r ≠ .expired key

/-- A wait expires. -/
def EnvAction.isExpire : EnvAction → Bool
  | .expire _ => true
  | .runHandler _ => false
  | .send _ _ _ => false

theorem quiet_init (capacity : ℕ) : (init capacity).Quiet := fun _ _ wait => nomatch wait

theorem Quiet.hit (quiet : s.Quiet) (msg : DecodedMsg) (r : RecordId) : (s.hit msg r).Quiet := by
  intro r' key wait
  rw [hit_waitOf] at wait
  rcases update_eq_cases wait with ⟨-, cancelled⟩ | ⟨-, old⟩
  · exact quiet r key ((cancel_wait _).2 key cancelled)
  · exact quiet r' key old

theorem Quiet.create (quiet : s.Quiet) (msg : DecodedMsg) : (s.create msg).Quiet := by
  intro r' key wait
  rw [create_waitOf] at wait
  rcases update_eq_cases wait with ⟨-, started⟩ | ⟨-, old⟩
  · cases started
  · exact quiet r' key old

theorem Quiet.store (quiet : s.Quiet) (msg : DecodedMsg) (r : RecordId) :
    (s.store msg r).Quiet := by
  intro r' key wait
  rw [store_waitOf] at wait
  exact quiet r' key wait

theorem handleRadiusMessage_frame (step : s.handleRadiusMessage msg = some s') :
    s'.taken = s.taken ++ [msg] ∧ s'.unmatchedReqsNum = s.unmatchedReqsNum ∧
      s'.plainStructs = s.plainStructs := by
  rcases handleRadiusMessage_cases step with ⟨r, -, rfl⟩ | ⟨-, rfl⟩
  · rw [hit_eq]
    exact ⟨rfl, rfl, rfl⟩
  · rw [store_eq]
    exact ⟨rfl, rfl, rfl⟩

theorem Quiet.handleRadiusMessage (quiet : s.Quiet)
    (step : s.handleRadiusMessage msg = some s') : s'.Quiet := by
  rcases handleRadiusMessage_cases step with ⟨r, -, rfl⟩ | ⟨-, rfl⟩
  · exact Quiet.hit (s := s.take msg) quiet msg r
  · exact (Quiet.create (s := s.take msg) quiet msg).store msg _

/-- Cancelled handlers and the sender change nothing that the workers see. -/
theorem Quiet.envStep {e : EnvAction} (quiet : s.Quiet) (notExpire : e.isExpire = false)
    (step : s.envStep e = some s') :
    s'.Quiet ∧ s'.hashTable = s.hashTable ∧ s'.pushed = s.pushed ∧ s'.refused = s.refused ∧
      s'.unmatchedReqsNum = s.unmatchedReqsNum ∧
      ∀ r, (s'.thriftStructs r).lists = (s.thriftStructs r).lists := by
  cases e with
  | expire r => cases notExpire
  | runHandler r =>
      obtain ⟨key, ⟨wait, -⟩ | ⟨wait, rfl⟩⟩ := runHandler_cases step
      · exact absurd wait (quiet r key)
      · refine ⟨fun r' key' wait' => ?_, rfl, rfl, rfl, rfl, fun r' => ?_⟩
        · rw [setWait_waitOf] at wait'
          rcases update_eq_cases wait' with ⟨-, completed⟩ | ⟨-, old⟩
          · cases completed
          · exact quiet r' key' old
        · rw [setWait_eq]
          by_cases same : r' = r
          · subst same
            simp
          · simp [same]
  | send applId now sendThrows =>
      obtain ⟨table, -, pushed, refused, -, -, unmatched, waits, lists⟩ := send_cases step
      exact ⟨fun r key wait => quiet r key (by rwa [waits] at wait), table, pushed, refused,
        unmatched, lists⟩

/-! ## Handlers and their records -/

/-- Records that have not been created have no wait. -/
def Unborn (s : Shared) : Prop := ∀ r, s.allocated ≤ r → s.waitOf r = .none

/-- A pending wait belongs to the record in the table under its key; a handler
that is queued with success finds that record or none. -/
structure Timely (s : Shared) : Prop where
  pending : ∀ r key, s.waitOf r = .pending key → s.hashTable key = some (some r)
  expired : ∀ r key, s.waitOf r = .expired key →
    s.hashTable key = none ∨ s.hashTable key = some (some r)

/-- No message is stored under a key for which a handler is queued with success. -/
def NoStaleHandler (s : Shared) : MessageAction → Prop
  | .handle msg => s.hashTable msg.flowKey = none → ∀ r, s.waitOf r ≠ .expired msg.flowKey
  | .env _ => True

theorem Timely.hit (timely : s.Timely) (found : s.hashTable msg.flowKey = some (some r)) :
    (s.hit msg r).Timely := by
  have table : (s.hit msg r).hashTable = Function.update s.hashTable msg.flowKey none := by
    rw [hit_eq]
  constructor
  · intro r' key wait
    rw [hit_waitOf] at wait
    rcases update_eq_cases wait with ⟨-, cancelled⟩ | ⟨same, old⟩
    · exact absurd cancelled ((cancel_wait _).1 key)
    · have entry := timely.pending r' key old
      have other : key ≠ msg.flowKey := by
        rintro rfl
        exact same (by simpa [entry] using found)
      rwa [table, Function.update_of_ne other]
  · intro r' key wait
    rw [hit_waitOf] at wait
    have before : s.waitOf r' = .expired key := by
      rcases update_eq_cases wait with ⟨rfl, cancelled⟩ | ⟨-, old⟩
      · exact (cancel_wait _).2 key cancelled
      · exact old
    rw [table]
    by_cases same : key = msg.flowKey
    · subst same
      simp
    · rw [Function.update_of_ne same]
      exact timely.expired r' key before

/-- The new record's wait is pending, and it is the entry of its key. -/
theorem Timely.create_store (timely : s.Timely) (absent : s.hashTable msg.flowKey = none)
    (noStale : ∀ r, s.waitOf r ≠ .expired msg.flowKey) :
    ((s.create msg).store msg s.allocated).Timely := by
  have table : ((s.create msg).store msg s.allocated).hashTable =
      Function.update s.hashTable msg.flowKey (some (some s.allocated)) := by
    rw [store_eq]
    rfl
  constructor
  · intro r' key wait
    rw [store_waitOf, create_waitOf] at wait
    rw [table]
    rcases update_eq_cases wait with ⟨rfl, started⟩ | ⟨-, old⟩
    · cases started
      simp
    · have entry := timely.pending r' key old
      have other : key ≠ msg.flowKey := by
        rintro rfl
        rw [absent] at entry
        cases entry
      rwa [Function.update_of_ne other]
  · intro r' key wait
    rw [store_waitOf, create_waitOf] at wait
    rw [table]
    rcases update_eq_cases wait with ⟨-, started⟩ | ⟨-, old⟩
    · cases started
    · -- an entry under the key of a queued handler would be a new one
      have other : key ≠ msg.flowKey := by
        rintro rfl
        exact noStale r' old
      rw [Function.update_of_ne other]
      exact timely.expired r' key old

theorem Timely.expire (timely : s.Timely) (wait : s.waitOf r = .pending key) :
    (s.setWait r (.expired key)).Timely := by
  constructor
  · intro r' key' pending
    rw [setWait_waitOf] at pending
    rcases update_eq_cases pending with ⟨-, eq⟩ | ⟨-, old⟩
    · cases eq
    · exact timely.pending r' key' old
  · intro r' key' expired
    rw [setWait_waitOf] at expired
    rcases update_eq_cases expired with ⟨rfl, eq⟩ | ⟨-, old⟩
    · cases eq
      exact .inr (timely.pending r' key wait)
    · exact timely.expired r' key' old

theorem Timely.complete (timely : s.Timely) : (s.setWait r (.completed key)).Timely := by
  constructor
  · intro r' key' wait
    rw [setWait_waitOf] at wait
    rcases update_eq_cases wait with ⟨-, eq⟩ | ⟨-, old⟩
    · cases eq
    · exact timely.pending r' key' old
  · intro r' key' wait
    rw [setWait_waitOf] at wait
    rcases update_eq_cases wait with ⟨-, eq⟩ | ⟨-, old⟩
    · cases eq
    · exact timely.expired r' key' old

/-- A handler that has run takes its own record out of the table. -/
theorem Timely.timeout (timely : s.Timely) (inv : s.Inv nobody)
    (entry : s.hashTable key = none ∨ s.hashTable key = some (some r))
    (done : s.waitOf r = .completed key) : (s.handleTimeout r key false).Timely := by
  rcases timeout_cases inv r key with ⟨-, eq⟩ | ⟨r₀, found, eq⟩
  · rwa [eq]
  · -- the entry that the handler finds is its own record
    have own : r₀ = r := by
      rcases entry with absent | own
      · rw [absent] at found
        cases found
      · simpa [own] using found.symm
    subst own
    rw [eq]
    constructor
    · intro r' key' wait
      have there := timely.pending r' key' wait
      have other : key' ≠ key := by
        rintro rfl
        rw [found, Option.some.injEq, Option.some.injEq] at there
        subst there
        rw [show s.waitOf r₀ = .pending key' from wait] at done
        cases done
      simpa [other] using there
    · intro r' key' wait
      by_cases same : key' = key
      · subst same
        simp
      · simpa [same] using timely.expired r' key' wait

theorem Timely.messageStep {a : MessageAction} (timely : s.Timely) (inv : s.Inv nobody)
    (fine : s.NoStaleHandler a) (step : s.messageStep a = some s') : s'.Timely := by
  cases a with
  | handle msg =>
      have taken : (s.take msg).Timely := ⟨timely.pending, timely.expired⟩
      rcases handleRadiusMessage_cases (messageStep_handle.mp step).2 with
        ⟨r, found, rfl⟩ | ⟨absent, rfl⟩
      · exact taken.hit found
      · exact taken.create_store absent (fine absent)
  | env a =>
      cases a with
      | expire r =>
          obtain ⟨key, wait, rfl⟩ := expire_cases step
          exact timely.expire wait
      | runHandler r =>
          obtain ⟨key, ⟨wait, rfl⟩ | ⟨wait, rfl⟩⟩ := runHandler_cases step
          · exact timely.complete.timeout (inv.setWait r _) (timely.expired r key wait)
              (by rw [setWait_waitOf, Function.update_self])
          · exact timely.complete
      | send applId now sendThrows =>
          obtain ⟨table, -, -, -, -, -, -, waits, -⟩ := send_cases step
          constructor
          · intro r key wait
            rw [waits] at wait
            rw [table]
            exact timely.pending r key wait
          · intro r key wait
            rw [waits] at wait
            rw [table]
            exact timely.expired r key wait

theorem timely_init (capacity : ℕ) : (init capacity).Timely := by
  constructor <;> intro r key wait <;> cases wait

/-! ## Records are created with their waits -/

theorem Unborn.handleTimeout (unborn : s.Unborn) (inv : s.Inv nobody) :
    (s.handleTimeout r key false).Unborn := by
  rcases timeout_cases inv r key with ⟨-, eq⟩ | ⟨r₀, -, eq⟩ <;> rw [eq] <;> exact unborn

theorem Unborn.setWait {wait : Wait} (unborn : s.Unborn) (started : s.waitOf r ≠ .none) :
    (s.setWait r wait).Unborn := by
  intro r' le
  have other : r' ≠ r := by
    rintro rfl
    exact started (unborn r' le)
  rw [setWait_waitOf, Function.update_of_ne other]
  exact unborn r' le

theorem Unborn.messageStep {a : MessageAction} (unborn : s.Unborn) (inv : s.Inv nobody)
    (step : s.messageStep a = some s') : s'.Unborn := by
  cases a with
  | handle msg =>
      rcases handleRadiusMessage_cases (messageStep_handle.mp step).2 with
        ⟨r, found, rfl⟩ | ⟨absent, rfl⟩
      · obtain ⟨r₀, eq, stored, -⟩ := inv.entry _ _ found
        cases eq
        intro r' le
        have le' : s.allocated ≤ r' := by rwa [hit_eq] at le
        have other : r' ≠ r := fun same =>
          absurd (inv.stored_lt r _ stored) (Nat.not_lt.mpr (same ▸ le'))
        rw [hit_waitOf, Function.update_of_ne other]
        exact unborn r' le'
      · intro r' le
        have le' : s.allocated + 1 ≤ r' := by rwa [store_eq] at le
        have other : r' ≠ (s.take msg).allocated := Nat.ne_of_gt le'
        rw [store_waitOf, create_waitOf, Function.update_of_ne other]
        exact unborn r' (Nat.le_of_succ_le le')
  | env a =>
      cases a with
      | expire r =>
          obtain ⟨key, wait, rfl⟩ := expire_cases step
          exact unborn.setWait (by simp [wait])
      | runHandler r =>
          obtain ⟨key, ⟨wait, rfl⟩ | ⟨wait, rfl⟩⟩ := runHandler_cases step
          · exact (unborn.setWait (by simp [wait])).handleTimeout (inv.setWait r _)
          · exact unborn.setWait (by simp [wait])
      | send applId now sendThrows =>
          obtain ⟨-, allocated, -, -, -, -, -, waits, -⟩ := send_cases step
          intro r le
          rw [waits]
          exact unborn r (by rwa [allocated] at le)

theorem unborn_messageSteps (run : Runs.run messageStep (init capacity) acts = some s) :
    s.Unborn := by
  have both : s.Inv nobody ∧ s.Unborn :=
    Runs.invariant_of_step (I := fun t => t.Inv nobody ∧ t.Unborn)
      ⟨inv_init capacity, fun _ _ => rfl⟩
      (fun _ _ _ inv step => ⟨inv.1.messageStep step, inv.2.messageStep inv.1 step⟩) run
  exact both.2

/-! ## Whose record a timeout evicts -/

/-- Whichever handler runs next, an entry it removes is that of the record
whose own wait has expired. -/
def EvictsOwn (s : Shared) : Prop :=
  ∀ owner u, s.runHandler owner = some u → ∀ key r, s.hashTable key = some (some r) →
    u.hashTable key ≠ some (some r) → r = owner ∧ s.waitOf r = .expired key

theorem Timely.evictsOwn (timely : s.Timely) (inv : s.Inv nobody) : s.EvictsOwn := by
  intro owner u step key r entry removed
  obtain ⟨key', ⟨wait, rfl⟩ | ⟨-, rfl⟩⟩ := runHandler_cases step
  · rcases timeout_cases (inv.setWait owner (.completed key')) owner key' with
      ⟨-, eq⟩ | ⟨r₀, found, eq⟩
    · rw [eq] at removed
      exact absurd entry removed
    · rw [eq] at removed
      have same : key = key' := by
        by_contra other
        exact removed (by simpa [other, setWait_eq] using entry)
      subst same
      rcases timely.expired owner key wait with absent | own
      · rw [absent] at entry
        cases entry
      · have : r = owner := by simpa [own] using entry.symm
        subst this
        exact ⟨rfl, wait⟩
  · exact absurd entry removed

/-- A handler evicts whatever record is in the table under its key. -/
theorem expired_evicts (owner : RecordId) (key : FlowKey)
    (expired : s.waitOf owner = .expired key) (entry : s.hashTable key = some (some r))
    (other : r ≠ owner) : ¬ s.EvictsOwn := by
  intro own
  have runs : s.runHandler owner =
      some ((s.setWait owner (.completed key)).handleTimeout owner key false) := by
    unfold waitOf at expired
    simp [runHandler, expired]
  refine absurd (own owner _ runs key r entry ?_).1 other
  rw [handleTimeout_eq (s := s.setWait owner (.completed key)) entry]
  simp

/-- A handler that is queued for the key under which a message is stored evicts
the new record. -/
theorem stale_handler_evicts (unborn : s.Unborn) (absent : s.hashTable msg.flowKey = none)
    (stale : s.waitOf r = .expired msg.flowKey) (step : s.handleRadiusMessage msg = some s') :
    ¬ s'.EvictsOwn := by
  rcases handleRadiusMessage_cases step with ⟨r₀, found, -⟩ | ⟨-, rfl⟩
  · rw [absent] at found
    cases found
  · have old : r ≠ s.allocated := by
      rintro rfl
      rw [unborn s.allocated (Nat.le_refl _)] at stale
      cases stale
    refine expired_evicts r msg.flowKey ?_ ?_ old.symm
    · rw [store_waitOf, create_waitOf]
      exact (Function.update_of_ne old _ _).trans stale
    · rw [store_eq]
      simp

theorem timeout_evicts_own_iff (run : Runs.run messageStep (init capacity) acts = some s) :
    (∀ t, Runs.Visits messageStep (init capacity) acts t → t.EvictsOwn) ↔
      Runs.Along messageStep NoStaleHandler (init capacity) acts := by
  constructor
  · intro own pre a post split t reach
    cases a with
    | env a => trivial
    | handle msg =>
        intro absent r stale
        have cut : pre ++ [.handle msg] <+: acts := ⟨post, by simp [split]⟩
        obtain ⟨t', u, before, step, -⟩ := Runs.run_middle_eq_some.mp (split ▸ run)
        cases reach.symm.trans before
        -- the state after the step breaks what holds of every state visited
        apply stale_handler_evicts (unborn_messageSteps reach) absent stale
          (messageStep_handle.mp step).2
        exact own u ⟨_, cut, Runs.run_concat_eq_some.mpr ⟨t, reach, step⟩⟩
  · rintro along t ⟨pre, cut, reach⟩
    have both : t.Inv nobody ∧ t.Timely :=
      Runs.invariant_along (I := fun t => t.Inv nobody ∧ t.Timely)
        ⟨inv_init capacity, timely_init capacity⟩
        (fun _ _ _ inv fine step =>
          ⟨inv.1.messageStep step, inv.2.messageStep inv.1 fine step⟩)
        (along.cut cut) reach
    exact both.2.evictsOwn both.1

/-- The first request is answered in time; the next one under the key waits until
its own timeout, while the aborted handler of the first one runs, and a response
of another flow is waiting. -/
theorem timeout_evicts_own_iff_reinserted :
    let key : FlowKey := ⟨2, 1, 40000, 1813, 7⟩
    let other : FlowKey := ⟨3, 1, 40000, 1813, 7⟩
    let acts := [.handle (.request 0 key []), .handle (.response 1 other []),
      .handle (.response 2 key []), .handle (.request 3 key []), .env (.runHandler 0),
      .env (.expire 2), .env (.runHandler 2)]
    ∃ s, Runs.run messageStep (init 4) acts = some s ∧ s.pushed = [0, 2] ∧
      s.evicted = [(2, 2)] ∧ s.hashTable key = none ∧ s.hashTable other = some (some 1) ∧
      ((∀ t, Runs.Visits messageStep (init 4) acts t → t.EvictsOwn) ↔
        Runs.Along messageStep NoStaleHandler (init 4) acts) :=
  ⟨_, rfl, rfl, rfl, rfl, rfl, timeout_evicts_own_iff rfl⟩

/-- The wait of request 0 expires; before its handler runs, the response takes
record 0 away and the next request under the key is stored as record 1. The
handler then evicts record 1, whose wait is pending. -/
theorem stale_handler_run :
    let key : FlowKey := ⟨2, 1, 40000, 1813, 7⟩
    ∃ s u, Runs.run messageStep (init 4)
        [.handle (.request 0 key []), .env (.expire 0), .handle (.response 1 key []),
          .handle (.request 2 key [])] = some s ∧
      s.hashTable key = some (some 1) ∧ s.waitOf 1 = .pending key ∧
      s.messageStep (.env (.runHandler 0)) = some u ∧
      u.hashTable key = none ∧ u.pushed = [0, 1] ∧ u.unmatchedReqsNum = 1 ∧
      u.evicted = [(0, 1)] ∧ ¬ s.EvictsOwn := by
  refine ⟨_, _, rfl, rfl, rfl, rfl, rfl, rfl, rfl, rfl, ?_⟩
  exact expired_evicts 0 ⟨2, 1, 40000, 1813, 7⟩ (r := 1) rfl rfl (by decide)

end Shared

end RadiusEventHandler
