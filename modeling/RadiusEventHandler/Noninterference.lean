import RadiusEventHandler.Dispatch
import RadiusEventHandler.Pipeline
import RadiusEventHandler.ReceivedBytes

/-!
# What the queues depend on

The receiver and its queues, with the workers reduced to their pops. Two runs
on datagrams that differ in rejected ones, in authenticators and behind the
message length leave the same messages in the same queues, up to bytes that
neither the key, nor the code, nor `getAllAvps` depends on.
-/

namespace RadiusEventHandler

/-! ## What decoding depends on -/

section Decoding

variable {data data' : RawDataArray} {len : UInt16} {s : AvpCursor}

/-- An iteration reads nothing before the header's end and nothing beyond the
message length. -/
theorem getAllAvpsBody_congr (le : len.toNat ≤ 4095)
    (agree : ∀ i, 20 ≤ i → i < len.toNat → data.get i = data'.get i)
    (behind : 20 ≤ s.offset.toNat) : getAllAvpsBody data len s = getAllAvpsBody data' len s := by
  by_cases long : s.offset.toNat + 2 < len.toNat
  · have type := agree s.offset.toNat behind (by omega)
    have lenByte := agree (s.offset.toNat + 1) (by omega) (by omega)
    rw [getAllAvpsBody_long long le, getAllAvpsBody_long long le, type, lenByte]
    by_cases fits : s.offset.toNat + (data'.get (s.offset.toNat + 1)).toNat ≤ len.toNat
    · rw [if_pos fits, if_pos fits]
      congr 1
      have lt := (data'.get (s.offset.toNat + 1)).toNat_lt
      by_cases small : (data'.get (s.offset.toNat + 1)).toNat < 2
      · rw [stringAssign_negative small, stringAssign_negative small]
      · rw [show ((data'.get (s.offset.toNat + 1)).toNat : ℤ) - 2 =
            ((data'.get (s.offset.toNat + 1)).toNat - 2 : ℕ) by omega,
          stringAssign_eq (by omega) (by omega), stringAssign_eq (by omega) (by omega),
          ← RawDataArray.map_get_range' (by omega), ← RawDataArray.map_get_range' (by omega)]
        congr 1
        apply List.map_congr_left
        intro i mem
        rw [List.mem_range'_1] at mem
        exact agree i (by omega) (by omega)
    · rw [if_neg fits, if_neg fits]
  · rw [getAllAvpsBody_short (Nat.le_of_not_lt long), getAllAvpsBody_short (Nat.le_of_not_lt long)]

/-- `getAllAvps` depends on the length field and the bytes behind the header. -/
theorem getAllAvps_congr (field : data.lengthField = data'.lengthField)
    (high : data.lengthField.toNat ≤ 4095)
    (agree : ∀ i, 20 ≤ i → i < data.lengthField.toNat → data.get i = data'.get i) (fuel : ℕ) :
    getAllAvps data fuel = getAllAvps data' fuel := by
  unfold getAllAvps
  rw [← field]
  split
  · rfl
  · congr 1
    refine Loop.run_congr (I := fun s => 20 ≤ s.offset.toNat) ?_
      (fun s behind _ => getAllAvpsBody_congr high agree behind) (Nat.le_refl 20) fuel
    intro s t behind _ iteration
    rcases getAllAvpsBody_cases high iteration with rfl | ⟨-, -, -, -, next, -⟩
    · exact behind
    · rw [next]
      exact behind.trans (Nat.le_add_right _ _)

end Decoding

/-! ## Related dispatchers -/

namespace Dispatcher

variable {α β : Type*} {R : α → β → Prop} {d : Dispatcher α} {d' : Dispatcher β} {msg : α}
  {msg' : β} {fuel j : ℕ}

structure Related (R : α → β → Prop) (d : Dispatcher α) (d' : Dispatcher β) : Prop where
  workerIndex : d.workerIndex = d'.workerIndex
  queues : List.Forall₂ (BoundedQueue.Related R) d.workersInputQueues d'.workersInputQueues

theorem Related.refl {R : α → α → Prop} (same : ∀ a, R a a) (d : Dispatcher α) :
    d.Related R d :=
  ⟨rfl, List.forall₂_same.mpr fun q _ => .refl same q⟩

theorem Related.place_eq (related : d.Related R d') (j : ℕ) : d.place j = d'.place j := by
  rw [place, place, related.workerIndex, related.queues.length_eq]

theorem Related.fullAt (related : d.Related R d') (full : d.FullAt j) : d'.FullAt j := by
  intro q' there'
  rw [← related.place_eq] at there'
  obtain ⟨q, there, same⟩ := BoundedQueue.related_getElem? related.queues.flip there'
  exact same.full_iff.mp (full q there)

/-- Related messages go to the same queue, or both are dropped. -/
theorem Related.handleRadiusEvent (related : d.Related R d') (new : R msg msg')
    (pos : 0 < d.workersInputQueues.length) (bound : d.workersInputQueues.length ≤ 256)
    (enough : d.workersInputQueues.length ≤ fuel) :
    ∃ e e' pushed, d.handleRadiusEvent msg fuel = some (.ok (e, pushed)) ∧
      d'.handleRadiusEvent msg' fuel = some (.ok (e', pushed)) ∧ e.Related R e' ∧
      e.workersInputQueues.length = d.workersInputQueues.length := by
  have length := related.queues.length_eq
  by_cases room : ∃ q ∈ d.workersInputQueues, ¬ q.Full
  · obtain ⟨q₀, mem, free⟩ := room
    obtain ⟨j, q, below, there, free, full⟩ := exists_first_room mem free
    obtain ⟨q', there', same⟩ := BoundedQueue.related_getElem? related.queues there
    obtain ⟨p, push, -⟩ := BoundedQueue.tryPush_of_not_full msg free
    obtain ⟨p', push', -⟩ :=
      BoundedQueue.tryPush_of_not_full msg' (mt same.full_iff.mpr free)
    rw [related.place_eq] at there'
    refine ⟨_, _, true, handleRadiusEvent_of_first bound enough below there push full,
      handleRadiusEvent_of_first (length ▸ bound) (length ▸ enough) (length ▸ below) there' push'
        fun i lt => related.fullAt (full i lt), ?_, List.length_set⟩
    constructor
    · show d.place j + 1 = d'.place j + 1
      rw [related.place_eq]
    · show List.Forall₂ _ (d.workersInputQueues.set (d.place j) p)
        (d'.workersInputQueues.set (d'.place j) p')
      rw [related.place_eq]
      exact BoundedQueue.related_set related.queues (same.push new push push') _
  · push Not at room
    have full' : ∀ q ∈ d'.workersInputQueues, q.Full := by
      intro q' mem
      obtain ⟨i, there'⟩ := List.getElem?_of_mem mem
      obtain ⟨q, there, same⟩ := BoundedQueue.related_getElem? related.queues.flip there'
      exact same.full_iff.mp (room q (List.mem_of_getElem? there))
    refine ⟨_, _, false, handleRadiusEvent_of_all_full pos bound enough room,
      handleRadiusEvent_of_all_full (length ▸ pos) (length ▸ bound) (length ▸ enough) full', ?_,
      rfl⟩
    constructor
    · show d.place _ + 1 = d'.place _ + 1
      rw [related.place_eq, length]
    · exact related.queues

end Dispatcher

/-! ## The receiver -/

/-- The members of `PacketReceiver` that a run changes, and the endpoint of its
socket. -/
structure Receiver where
  localEndpoint : Endpoint
  tmpRadiusRawMsg : RadiusRawMsg
  dispatcher : Dispatcher RadiusRawMsg

inductive ReceiverAction where
  | receive (datagram : Arrival)
  | pop (worker : ℕ)

namespace Receiver

/-- `PacketReceiver::receiveRaduisMessage` without error. -/
def receiveRaduisMessage (s : Receiver) (datagram : Arrival) : Option Receiver :=
  let radiusRawMsg := s.tmpRadiusRawMsg.receive datagram.1
  let bytesReceived := (datagram.1.take radiusMsgMaxSize).length
  let s := { s with tmpRadiusRawMsg := .new }
  if isRadAccMsg radiusRawMsg datagram.2 s.localEndpoint bytesReceived = true then
    match s.dispatcher.handleRadiusEvent
        (setFlowKey (radiusRawMsg.setLength (UInt16.ofNat bytesReceived)) datagram.2
          s.localEndpoint) (s.dispatcher.workersInputQueues.length + 1) with
    | some (.ok (dispatcher, _)) => some { s with dispatcher }
    | _ => none
  else some s

/-- The `try_pop` of a worker, which may find its queue empty. -/
def pop (s : Receiver) (worker : ℕ) : Receiver :=
  match s.dispatcher.workersInputQueues[worker]? with
  | none => s
  | some q =>
      match q.tryPop with
      | none => s
      | some (_, q') => { s with
          dispatcher := { s.dispatcher with
            workersInputQueues := s.dispatcher.workersInputQueues.set worker q' } }

def step (s : Receiver) : ReceiverAction → Option Receiver
  | .receive datagram => s.receiveRaduisMessage datagram
  | .pop worker => some (s.pop worker)

/-- The action is not the receipt of a datagram that is rejected. -/
def Keeps (localEndpoint : Endpoint) : ReceiverAction → Bool
  | .receive datagram => decide (Process.Admits localEndpoint datagram)
  | .pop _ => true

/-- The datagrams, each extended with zeros to the size of the buffer, agree on
the remote endpoint, on code, identifier and length field, and on the bytes
between the header and the message length. -/
structure Agrees (d d' : Arrival) : Prop where
  remote : d.2 = d'.2
  front : ∀ i < 4, (RadiusRawMsg.received d.1).radiusMsgData.get i =
    (RadiusRawMsg.received d'.1).radiusMsgData.get i
  avps : ∀ i, radiusHeaderLen ≤ i →
    i < (RadiusRawMsg.received d.1).radiusMsgData.lengthField.toNat →
    (RadiusRawMsg.received d.1).radiusMsgData.get i =
      (RadiusRawMsg.received d'.1).radiusMsgData.get i

/-- Datagrams that agree, or pops of the same worker. -/
inductive Corresponds : ReceiverAction → ReceiverAction → Prop where
  | receive {d d' : Arrival} (agree : Agrees d d') : Corresponds (.receive d) (.receive d')
  | pop (worker : ℕ) : Corresponds (.pop worker) (.pop worker)

/-- The messages have the same key, the same code byte, and `getAllAvps` does
the same on them: it returns the same list or throws the same exception after
as many loop tests, or never leaves its loop on either. -/
structure SameMessage (m m' : RadiusRawMsg) : Prop where
  key : m.key = m'.key
  code : m.radiusMsgData.get radAccMsgCodeOffset = m'.radiusMsgData.get radAccMsgCodeOffset
  outcome : ∀ fuel, getAllAvps m.radiusMsgData fuel = getAllAvps m'.radiusMsgData fuel

variable {s s' u : Receiver} {d d' : Arrival} {w : ℕ} {acts acts' : List ReceiverAction}

theorem keeps_receive {l : Endpoint} : Keeps l (.receive d) = true ↔ Process.Admits l d :=
  decide_eq_true_iff

theorem Agrees.lengthField (agree : Agrees d d') :
    (RadiusRawMsg.received d.1).radiusMsgData.lengthField =
      (RadiusRawMsg.received d'.1).radiusMsgData.lengthField := by
  rw [RawDataArray.lengthField, RawDataArray.lengthField,
    agree.front radAccMsgLenOffset (by decide), agree.front (radAccMsgLenOffset + 1) (by decide)]

theorem Agrees.admits {l : Endpoint} (agree : Agrees d d') (admits : Process.Admits l d) :
    Process.Admits l d' := by
  rw [Process.Admits, isRadAccMsg_iff] at admits ⊢
  rw [← agree.lengthField, ← agree.remote, ← agree.front 0 (by decide)]
  exact admits

theorem Agrees.sameMessage {l : Endpoint} (agree : Agrees d d') (admits : Process.Admits l d) :
    SameMessage (Process.admittedMsg l d) (Process.admittedMsg l d') := by
  obtain ⟨⟨-, high⟩, -⟩ := isRadAccMsg_iff.mp admits
  refine ⟨?_, agree.front 0 (by decide), fun fuel => ?_⟩
  · rw [Process.admittedMsg, Process.admittedMsg, setFlowKey_key, setFlowKey_key, agree.remote]
    exact congrArg _ (agree.front 1 (by decide))
  · exact getAllAvps_congr agree.lengthField high agree.avps fuel

/-! ## One step -/

/-- What a receipt does, when the buffer is a new one. -/
theorem receive_of_fresh (fresh : s.tmpRadiusRawMsg = .new) (d : Arrival) :
    s.receiveRaduisMessage d =
      if Process.Admits s.localEndpoint d then
        match s.dispatcher.handleRadiusEvent (Process.admittedMsg s.localEndpoint d)
            (s.dispatcher.workersInputQueues.length + 1) with
        | some (.ok (dispatcher, _)) => some { s with dispatcher }
        | _ => none
      else some s := by
  obtain ⟨localEndpoint, tmp, dispatcher⟩ := s
  cases fresh
  rfl

/-- A rejected datagram leaves no trace. -/
theorem receive_rejected (fresh : s.tmpRadiusRawMsg = .new)
    (rejected : ¬ Process.Admits s.localEndpoint d) : s.receiveRaduisMessage d = some s := by
  rw [receive_of_fresh fresh, if_neg rejected]

theorem pop_fresh (s : Receiver) (w : ℕ) : (s.pop w).tmpRadiusRawMsg = s.tmpRadiusRawMsg ∧
    (s.pop w).localEndpoint = s.localEndpoint ∧
    (s.pop w).dispatcher.workersInputQueues.length = s.dispatcher.workersInputQueues.length := by
  unfold pop
  split
  · exact ⟨rfl, rfl, rfl⟩
  · split
    · exact ⟨rfl, rfl, rfl⟩
    · exact ⟨rfl, rfl, List.length_set⟩

/-- Two receivers on the same endpoint, between two receipts, with related
messages in their queues. -/
structure Twins (s s' : Receiver) : Prop where
  localEndpoint : s.localEndpoint = s'.localEndpoint
  fresh : s.tmpRadiusRawMsg = .new
  fresh' : s'.tmpRadiusRawMsg = .new
  pos : 1 ≤ s.dispatcher.workersInputQueues.length
  bound : s.dispatcher.workersInputQueues.length ≤ 256
  related : s.dispatcher.Related SameMessage s'.dispatcher

theorem Twins.receive (twins : Twins s s') (agree : Agrees d d')
    (admits : Process.Admits s.localEndpoint d) :
    ∃ u u', s.receiveRaduisMessage d = some u ∧ s'.receiveRaduisMessage d' = some u' ∧
      Twins u u' := by
  obtain ⟨e, e', pushed, dispatch, dispatch', related, length⟩ :=
    twins.related.handleRadiusEvent (agree.sameMessage admits) twins.pos twins.bound
      (Nat.le_succ _)
  have admits' := agree.admits admits
  rw [twins.localEndpoint] at admits' dispatch'
  rw [twins.related.queues.length_eq] at dispatch'
  refine ⟨{ s with dispatcher := e }, { s' with dispatcher := e' }, ?_, ?_, ?_⟩
  · rw [receive_of_fresh twins.fresh, if_pos admits, dispatch]
  · rw [receive_of_fresh twins.fresh', if_pos admits', dispatch']
  · exact ⟨twins.localEndpoint, twins.fresh, twins.fresh', length ▸ twins.pos,
      length ▸ twins.bound, related⟩

theorem Twins.pop (twins : Twins s s') (w : ℕ) : Twins (s.pop w) (s'.pop w) := by
  obtain ⟨fresh, endpoint, length⟩ := s.pop_fresh w
  obtain ⟨fresh', endpoint', -⟩ := s'.pop_fresh w
  refine ⟨?_, fresh.trans twins.fresh, fresh'.trans twins.fresh', length ▸ twins.pos,
    length ▸ twins.bound, ?_⟩
  · rw [endpoint, endpoint', twins.localEndpoint]
  · have queues := twins.related.queues
    unfold Receiver.pop
    cases there : s.dispatcher.workersInputQueues[w]? with
    | none =>
        have there' : s'.dispatcher.workersInputQueues[w]? = none := by
          rw [List.getElem?_eq_none_iff] at there ⊢
          rwa [← queues.length_eq]
        simp only [there']
        exact twins.related
    | some q =>
        obtain ⟨q', there', same⟩ := BoundedQueue.related_getElem? queues there
        simp only [there']
        rcases same.pop with ⟨empty, empty'⟩ | ⟨m, m', p, p', taken, taken', -, rest⟩
        · simp only [empty, empty']
          exact twins.related
        · simp only [taken, taken']
          exact ⟨twins.related.workerIndex, BoundedQueue.related_set queues rest w⟩

/-! ## Whole runs -/

/-- Rejected datagrams can be left out of a run. -/
theorem run_filter (fresh : s.tmpRadiusRawMsg = .new) :
    Runs.run step s acts = Runs.run step s (acts.filter (Keeps s.localEndpoint)) := by
  induction acts generalizing s with
  | nil => rfl
  | cons a acts ih =>
      cases a with
      | receive d =>
          by_cases admits : Process.Admits s.localEndpoint d
          · rw [List.filter_cons_of_pos (keeps_receive.mpr admits), Runs.run, Runs.run]
            cases step : s.step (.receive d) with
            | none => rfl
            | some u =>
                have after : u.tmpRadiusRawMsg = .new ∧ u.localEndpoint = s.localEndpoint := by
                  rw [Receiver.step, receive_of_fresh fresh, if_pos admits] at step
                  split at step
                  · cases step
                    exact ⟨fresh, rfl⟩
                  · cases step
                rw [Option.bind_some, Option.bind_some, ih after.1, after.2]
          · rw [List.filter_cons_of_neg (mt keeps_receive.mp admits), Runs.run,
              show s.step (.receive d) = some s from receive_rejected fresh admits]
            exact ih fresh
      | pop w =>
          obtain ⟨after, endpoint, -⟩ := s.pop_fresh w
          rw [List.filter_cons_of_pos rfl, Runs.run, Runs.run]
          show Runs.run step (s.pop w) acts = _
          rw [ih (after.trans fresh), endpoint]
          rfl

/-- Corresponding actions keep twins. -/
theorem Twins.run (twins : Twins s s') (same : List.Forall₂ Corresponds acts acts')
    (kept : ∀ a ∈ acts, Keeps s.localEndpoint a = true) :
    ∃ u u', Runs.run step s acts = some u ∧ Runs.run step s' acts' = some u' ∧ Twins u u' := by
  induction same generalizing s s' with
  | nil => exact ⟨s, s', rfl, rfl, twins⟩
  | @cons a a' acts acts' head _ ih =>
      have next : ∃ t t', s.step a = some t ∧ s'.step a' = some t' ∧ Twins t t' ∧
          t.localEndpoint = s.localEndpoint := by
        cases head with
        | @receive d d' agree =>
            have admits := keeps_receive.mp (kept _ List.mem_cons_self)
            obtain ⟨t, t', step, step', after⟩ := twins.receive agree admits
            refine ⟨t, t', step, step', after, ?_⟩
            rw [receive_of_fresh twins.fresh, if_pos admits] at step
            split at step
            · cases step
              rfl
            · cases step
        | pop w => exact ⟨_, _, rfl, rfl, twins.pop w, (s.pop_fresh w).2.1⟩
      obtain ⟨t, t', step, step', after, endpoint⟩ := next
      obtain ⟨u, u', run, run', last⟩ := ih after fun b mem =>
        endpoint ▸ kept b (List.mem_cons_of_mem _ mem)
      refine ⟨u, u', ?_, ?_, last⟩
      · rw [Runs.run, step]
        exact run
      · rw [Runs.run, step']
        exact run'

/-- **Noninterference.** Rejected datagrams, authenticators and bytes behind the
message length do not show in the queues. -/
theorem noninterference (s : Receiver) (acts acts' : List ReceiverAction)
    (queues : 1 ≤ s.dispatcher.workersInputQueues.length ∧
      s.dispatcher.workersInputQueues.length ≤ 256)
    (fresh : s.tmpRadiusRawMsg = .new)
    (same : List.Forall₂ Corresponds (acts.filter (Keeps s.localEndpoint))
      (acts'.filter (Keeps s.localEndpoint))) :
    ∃ u u', Runs.run step s acts = some u ∧ Runs.run step s acts' = some u' ∧
      u.dispatcher.workerIndex = u'.dispatcher.workerIndex ∧
      List.Forall₂ (fun q q' => q.items.length = q'.items.length ∧
          List.Forall₂ SameMessage q.items q'.items)
        u.dispatcher.workersInputQueues u'.dispatcher.workersInputQueues := by
  have twins : Twins s s := ⟨rfl, fresh, fresh, queues.1, queues.2,
    .refl (fun m => ⟨rfl, rfl, fun _ => rfl⟩) s.dispatcher⟩
  obtain ⟨u, u', run, run', last⟩ := twins.run same fun a mem => (List.mem_filter.mp mem).2
  refine ⟨u, u', ?_, ?_, last.related.workerIndex, ?_⟩
  · rw [run_filter fresh, run]
  · rw [run_filter fresh, run']
  · exact last.related.queues.imp fun q q' related => ⟨related.items.length_eq, related.items⟩

/-- A rejected datagram, another authenticator and a byte behind the message,
which has one AVP. -/
theorem noninterference_two :
    let s : Receiver := ⟨radiusMonitor, .new, ⟨[.empty 1, .empty 1], 0⟩⟩
    let d : Arrival := ([4, 103, 0, 23] ++ List.replicate 16 0 ++ [1, 3, 115], radiusClient)
    let d' : Arrival := ([4, 103, 0, 23] ++ List.replicate 16 1 ++ [1, 3, 115, 9], radiusClient)
    let noise : Arrival := ([9], radiusClient)
    ∃ u u', Runs.run step s [.receive d, .pop 1] = some u ∧
      Runs.run step s [.receive noise, .receive d', .pop 1] = some u' ∧
      (u.dispatcher.workersInputQueues.map fun q =>
          q.items.map fun m => getAllAvps m.radiusMsgData 2) =
        [[some (.ok [⟨1, [115]⟩])], []] ∧
      u.dispatcher.workerIndex = u'.dispatcher.workerIndex ∧
      List.Forall₂ (fun q q' => q.items.length = q'.items.length ∧
          List.Forall₂ SameMessage q.items q'.items)
        u.dispatcher.workersInputQueues u'.dispatcher.workersInputQueues := by
  intro s d d' noise
  have admits : Process.Admits radiusMonitor d := by decide +kernel
  have admits' : Process.Admits radiusMonitor d' := by decide +kernel
  have rejected : ¬ Process.Admits radiusMonitor noise := by decide +kernel
  have field : (RadiusRawMsg.received d.1).radiusMsgData.lengthField.toNat = 23 := by
    decide +kernel
  have avp : ∀ i < 3, (RadiusRawMsg.received d.1).radiusMsgData.get (20 + i) =
      (RadiusRawMsg.received d'.1).radiusMsgData.get (20 + i) := by
    decide +kernel
  have agree : Agrees d d' := by
    refine ⟨rfl, by decide +kernel, fun i low high => ?_⟩
    rw [field] at high
    obtain ⟨k, rfl⟩ := Nat.exists_eq_add_of_le low
    exact avp k (Nat.lt_of_add_lt_add_left high)
  have facts : (Runs.run step s [.receive d, .pop 1]).map (fun u => decide
      ((u.dispatcher.workersInputQueues.map fun q =>
          q.items.map fun m => getAllAvps m.radiusMsgData 2) =
        [[some (.ok [⟨1, [115]⟩])], []])) = some true := by
    decide +kernel
  obtain ⟨v, reach, facts⟩ := Option.map_eq_some_iff.mp facts
  have same : List.Forall₂ Corresponds
      ([.receive d, .pop 1].filter (Keeps radiusMonitor))
      ([.receive noise, .receive d', .pop 1].filter (Keeps radiusMonitor)) := by
    rw [List.filter_cons_of_pos (keeps_receive.mpr admits),
      List.filter_cons_of_neg (mt keeps_receive.mp rejected),
      List.filter_cons_of_pos (keeps_receive.mpr admits')]
    exact .cons (.receive agree) (.cons (.pop 1) .nil)
  obtain ⟨u, u', run, run', index, queues⟩ :=
    noninterference s _ _ ⟨by decide, by decide⟩ rfl same
  cases reach.symm.trans run
  exact ⟨v, u', run, run', of_decide_eq_true facts, index, queues⟩

end Receiver

/-! ## The receiver inside the process -/

namespace Process

/-- What a step of the process is for its receiver. -/
def toReceiver : ProcessAction → Option ReceiverAction
  | .receive datagram => some (.receive datagram)
  | .work w => some (.pop w)
  | .receiveError => none
  | .env _ => none

/-- The process has this receiver: in the queues are pointers to its messages. -/
structure HasReceiver (p : Process) (r : Receiver) : Prop where
  localEndpoint : p.localEndpoint = r.localEndpoint
  tmpRadiusRawMsg : p.tmpRadiusRawMsg = r.tmpRadiusRawMsg
  pos : 1 ≤ p.dispatcher.workersInputQueues.length
  bound : p.dispatcher.workersInputQueues.length ≤ 256
  related : p.dispatcher.Related (fun ptr msg => ptr.msg = msg) r.dispatcher

variable {p p' : Process} {r : Receiver} {w : ℕ} {acts : List ProcessAction}

theorem HasReceiver.receive {datagram : Arrival} (has : p.HasReceiver r)
    (step : p.receiveRaduisMessage datagram = some p') :
    ∃ r', r.receiveRaduisMessage datagram = some r' ∧ p'.HasReceiver r' := by
  obtain ⟨l, tmp, d⟩ := r
  obtain ⟨rfl, rfl, pos, bound, related⟩ := has
  have length : p.dispatcher.workersInputQueues.length = d.workersInputQueues.length :=
    related.queues.length_eq
  simp only [receiveRaduisMessage] at step
  split at step
  · split at step
    · rename_i admitted
      -- whichever queue takes the pointer takes the message
      let ptr : RadiusRawMsgPtr := ⟨p.accepted.length,
        setFlowKey ((p.tmpRadiusRawMsg.receive datagram.1).setLength
          (UInt16.ofNat (datagram.1.take radiusMsgMaxSize).length)) datagram.2 p.localEndpoint,
        isRadAccMsg_accounting _ _ _
          (datagram.1.take radiusMsgMaxSize).length admitted⟩
      obtain ⟨e, e', pushed, dispatch, dispatch', after, same⟩ :=
        related.handleRadiusEvent (show ptr.msg = _ from rfl) pos bound (Nat.le_succ _)
      rw [length] at dispatch'
      refine ⟨⟨p.localEndpoint, .new, e'⟩, ?_, ?_⟩
      · simp only [Receiver.receiveRaduisMessage, if_pos admitted]
        rw [dispatch']
      · split at step
        · rename_i dispatched
          cases dispatched.symm.trans dispatch
          cases step
          exact ⟨rfl, rfl, same ▸ pos, same ▸ bound, after⟩
        · rename_i dispatched
          cases dispatched.symm.trans dispatch
          cases step
          exact ⟨rfl, rfl, same ▸ pos, same ▸ bound, after⟩
        · cases step
    · rename_i rejected
      cases step
      refine ⟨⟨p.localEndpoint, .new, d⟩, ?_, rfl, rfl, pos, bound, related⟩
      simp only [Receiver.receiveRaduisMessage, if_neg rejected]
  · cases step

theorem HasReceiver.work (has : p.HasReceiver r) (step : p.work w = some p') :
    p'.HasReceiver (r.pop w) := by
  obtain ⟨q, ptr, q', there, pop, endpoint, tmp, -, -, dispatcher, -⟩ := work_cases step
  obtain ⟨rq, there', same⟩ := BoundedQueue.related_getElem? has.related.queues there
  obtain ⟨after, endpoint', -⟩ := r.pop_fresh w
  have length : p'.dispatcher.workersInputQueues.length =
      p.dispatcher.workersInputQueues.length := by
    rw [dispatcher]
    exact List.length_set
  refine ⟨?_, ?_, length ▸ has.pos, length ▸ has.bound, ?_⟩
  · rw [endpoint, endpoint', has.localEndpoint]
  · rw [tmp, after, has.tmpRadiusRawMsg]
  · rcases same.pop with ⟨empty, -⟩ | ⟨m, m', rest, rest', taken, taken', -, left⟩
    · rw [pop] at empty
      cases empty
    · rw [pop] at taken
      cases taken
      rw [dispatcher]
      simp only [Receiver.pop, there', taken']
      exact ⟨has.related.workerIndex, BoundedQueue.related_set has.related.queues left w⟩

/-- **The process runs its receiver.** -/
theorem HasReceiver.run (has : p.HasReceiver r) (run : Runs.run step p acts = some p') :
    ∃ r', Runs.run Receiver.step r (acts.filterMap toReceiver) = some r' ∧ p'.HasReceiver r' := by
  induction acts generalizing p r with
  | nil =>
      cases run
      exact ⟨r, rfl, has⟩
  | cons a acts ih =>
      obtain ⟨t, first, rest⟩ := Option.bind_eq_some_iff.mp run
      rcases step_cases first with ⟨datagram, rfl, receive⟩ | ⟨rfl, rfl⟩ | ⟨w, rfl, work⟩ |
        ⟨e, shared, rfl, -, rfl⟩
      · obtain ⟨u, received, has'⟩ := has.receive receive
        obtain ⟨r', run', last⟩ := ih has' rest
        refine ⟨r', ?_, last⟩
        rw [show (ProcessAction.receive datagram :: acts).filterMap toReceiver =
          .receive datagram :: acts.filterMap toReceiver from rfl, Runs.run, Receiver.step,
          received]
        exact run'
      · have has' : HasReceiver { p with receiving := false } r := { has with }
        exact ih has' rest
      · obtain ⟨r', run', last⟩ := ih (has.work work) rest
        refine ⟨r', ?_, last⟩
        rw [show (ProcessAction.work w :: acts).filterMap toReceiver =
          .pop w :: acts.filterMap toReceiver from rfl, Runs.run]
        exact run'
      · have has' : HasReceiver { p with shared } r := { has with }
        exact ih has' rest

end Process

end RadiusEventHandler
