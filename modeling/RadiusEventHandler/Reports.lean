import RadiusEventHandler.RecordPlaces
import RadiusEventHandler.ThreadRefinement

/-!
# What is reported to the Thrift server

Whatever the interleaving, with timers, full queues, failing sends and a
shutdown at any time: a structure that is sent has the lists of one accepted
datagram, or of a request and a response with one flow key, and no datagram is
reported twice.
-/

namespace RadiusEventHandler

namespace Shared

variable {s u : Shared} {msg : DecodedMsg} {r : RecordId}

/-- What leaves the table is pushed with the lists it has then, or refused. -/
theorem Sent.leave (sent : s.Sent) (fresh : r ∉ s.pushed)
    (lists : ∀ r', r' ≠ r → (u.thriftStructs r').lists = (s.thriftStructs r').lists)
    (pushed : u.pushed = if s.outputQueue.Full then s.pushed else s.pushed ++ [r])
    (outputQueue : u.outputQueue = (s.outputQueue.tryPush (some r)).getD s.outputQueue)
    (plainStructs : u.plainStructs = s.plainStructs) : u.Sent := by
  have old : ∀ r' ∈ s.pushed, (u.thriftStructs r').lists = (s.thriftStructs r').lists :=
    fun r' mem => lists r' (ne_of_mem_of_not_mem mem fresh)
  by_cases full : s.outputQueue.Full
  · rw [if_pos full] at pushed
    rw [BoundedQueue.tryPush_eq_none.mpr full] at outputQueue
    exact sent.congr old pushed outputQueue plainStructs
  · obtain ⟨done, waits, split, items, plain⟩ := sent
    obtain ⟨q, push, -, items'⟩ := BoundedQueue.tryPush_of_not_full (some r) full
    rw [if_neg full] at pushed
    rw [push] at outputQueue
    refine ⟨done, waits ++ [r], ?_, ?_, ?_⟩
    · rw [pushed, split, List.append_assoc]
    · rw [outputQueue, Option.getD_some, items', items, List.map_append, List.map_singleton]
    · rw [plainStructs, plain]
      apply List.map_congr_left
      intro r' mem
      have before : r' ∈ s.pushed := by
        rw [split]
        exact List.mem_append_left _ mem
      rw [old r' before]

/-- A round of the sender. -/
theorem Sent.send {applId : UInt16} {now : UInt64} {sendThrows : Bool} (sent : s.Sent)
    (step : s.sendThriftStructure applId now sendThrows = some u) : u.Sent := by
  have lists := (send_cases step).2.2.2.2.2.2.2.2
  obtain ⟨done, waits, split, items, plain⟩ := sent
  obtain ⟨r, rest, thrift, rfl, items', pushed, same, plain'⟩ := send_front items step
  have kept : ∀ r', plainLists (u.thriftStructs r').lists =
      plainLists (s.thriftStructs r').lists := fun r' => by rw [lists r']
  refine ⟨done ++ [r], rest, ?_, items', ?_⟩
  · rw [pushed, split, List.append_assoc]
    rfl
  · simp only [kept, plain', List.map_append, plain, List.map_singleton,
      fillPlainThriftStructure_lists, same]

theorem handleTimeout_thriftStructs (s : Shared) (owner : RecordId) (key : FlowKey) :
    (s.handleTimeout owner key false).thriftStructs = s.thriftStructs := by
  unfold handleTimeout
  simp only [Bool.false_eq_true, if_false]
  split
  · rw [pushOutput_eq]
    rfl
  · rfl
  · rfl

end Shared

namespace Matcher

variable {m m' : Matcher} {a : MatcherAction} {msg : DecodedMsg} {r : RecordId} {w : ℕ}
  {acts : List MatcherAction} {capacity : ℕ}

/-! ## Sent in the order of the pushes -/

theorem sent_env (sent : m.shared.Sent) (inv : m.Inv) {e : Shared.EnvAction} {shared : Shared}
    (env : m.shared.envStep e = some shared) : shared.Sent := by
  cases e with
  | expire r =>
      obtain ⟨key, -, rfl⟩ := Shared.expire_cases env
      exact sent.congr (fun r' _ => Shared.lists_setWait _ _ _ _) rfl rfl rfl
  | runHandler r =>
      obtain ⟨key, ⟨-, rfl⟩ | ⟨-, rfl⟩⟩ := Shared.runHandler_cases env
      · have lists := fun r' => Shared.lists_setWait m.shared r r' (.completed key)
        cases entry : m.shared.hashTable key with
        | none =>
            have absent : (m.shared.setWait r (.completed key)).hashTable key = none := entry
            rw [Shared.handleTimeout_no_entry absent]
            exact sent.congr (fun r' _ => lists r') rfl rfl rfl
        | some p =>
            obtain ⟨r₀, rfl, -⟩ := inv.shared.entry key p entry
            have found : (m.shared.setWait r (.completed key)).hashTable key = some (some r₀) :=
              entry
            rw [Shared.handleTimeout_eq found]
            exact sent.leave (inv.table_at entry).2.1 (fun r' _ => lists r') rfl rfl rfl
      · exact sent.congr (fun r' _ => Shared.lists_setWait _ _ _ _) rfl rfl rfl
  | send applId now sendThrows => exact sent.send env

theorem sent_step (sent : m.shared.Sent) (inv : m.Inv) (step : m.step a = some m') :
    m'.shared.Sent := by
  rcases step_cases step with ⟨w, msg, r, -, -, -, found, rfl⟩ | ⟨w, msg, -, -, -, -, rfl⟩ |
    ⟨w, msg, -, missed, rfl⟩ | ⟨w, msg, r, -, created, rfl⟩ | ⟨e, shared, -, env, rfl⟩
  · show ((m.shared.take msg).hit msg r).Sent
    rw [Shared.hit_eq]
    refine Shared.Sent.leave (s := m.shared.take msg) sent (inv.table_at found).2.1 ?_ rfl rfl rfl
    exact fun r' other => congrArg ThriftStruct.lists (Function.update_of_ne other _ _)
  · exact sent.congr (fun _ _ => rfl) rfl rfl rfl
  · -- the new record has not been pushed
    refine sent.congr (fun r mem => ?_) rfl rfl rfl
    obtain ⟨key, stored⟩ := (inv.shared.pushed r mem).1.stored
    exact congrArg ThriftStruct.lists
      (Function.update_of_ne (Nat.ne_of_lt (inv.shared.stored_lt r key stored)) _ _)
  · show (m.shared.store msg r).Sent
    rw [Shared.store_eq]
    exact sent.congr (fun _ _ => rfl) rfl rfl rfl
  · exact sent_env sent inv env

/-! ## No list in two records -/

/-- The record has the list, as its request or as its response. -/
def Has (m : Matcher) (r : RecordId) (ptr : AvpListPtr) : Prop :=
  (m.shared.thriftStructs r).reqAvpListPtr = some ptr ∨
    (m.shared.thriftStructs r).respAvpListPtr = some ptr

/-- Timers and sender write no list. -/
theorem env_lists {e : Shared.EnvAction} {shared : Shared}
    (env : m.shared.envStep e = some shared) (r : RecordId) :
    (shared.thriftStructs r).lists = (m.shared.thriftStructs r).lists := by
  cases e with
  | expire r₀ =>
      obtain ⟨key, -, rfl⟩ := Shared.expire_cases env
      exact Shared.lists_setWait _ _ _ _
  | runHandler r₀ =>
      obtain ⟨key, ⟨-, rfl⟩ | ⟨-, rfl⟩⟩ := Shared.runHandler_cases env
      · rw [Shared.handleTimeout_thriftStructs]
        exact Shared.lists_setWait _ _ _ _
      · exact Shared.lists_setWait _ _ _ _
  | send applId now sendThrows => exact (Shared.send_cases env).2.2.2.2.2.2.2.2 r

theorem env_has {e : Shared.EnvAction} {shared : Shared} {ptr : AvpListPtr}
    (env : m.shared.envStep e = some shared) :
    (Matcher.mk shared m.phase).Has r ptr ↔ m.Has r ptr := by
  obtain ⟨req, resp⟩ := Prod.ext_iff.mp (env_lists env r)
  simp only [ThriftStruct.lists] at req resp
  simp only [Has, req, resp]

/-- Messages are taken once, each list is in one record at most, and a message
in the hands of a worker that has no record yet is in none. -/
structure Once (m : Matcher) : Prop where
  ids : (m.shared.taken.map DecodedMsg.id).Nodup
  records : ∀ r r' ptr, m.Has r ptr → m.Has r' ptr → r = r'
  missed : ∀ w msg r, m.phase w = .missed msg → ¬ m.Has r msg.avpListPtr
  apart : ∀ w w' msg msg', m.phase w = .missed msg → m.phase w' = .missed msg' →
    msg.id = msg'.id → w = w'

theorem once_init (capacity : ℕ) : (init capacity).Once := by
  refine ⟨List.nodup_nil, fun r r' ptr has => ?_, nofun, nofun⟩
  rcases has with set | set <;> cases set

/-- The list of a record was decoded from a message that was taken. -/
theorem Inv.has_taken (inv : m.Inv) {ptr : AvpListPtr} (has : m.Has r ptr) :
    ∃ msg ∈ m.shared.taken, msg.avpListPtr = ptr := by
  rcases has with set | set
  · obtain ⟨msg, mem, eq, -⟩ := inv.shared.request r ptr set
    exact ⟨msg, mem, eq⟩
  · obtain ⟨msg, mem, eq, -⟩ := inv.shared.response r ptr set
    exact ⟨msg, mem, eq⟩

/-- A message that has not been taken yet is in no record. -/
theorem Inv.not_has (inv : m.Inv) (unused : msg.id ∉ m.shared.taken.map DecodedMsg.id) :
    ¬ m.Has r msg.avpListPtr := by
  intro has
  obtain ⟨msg', mem, eq⟩ := inv.has_taken has
  have same : msg'.id = msg.id := congrArg AvpListPtr.msgId eq
  exact unused (same ▸ List.mem_map_of_mem mem)

/-- No record gets a list. -/
theorem Once.congr (once : m.Once) (taken : m'.shared.taken = m.shared.taken)
    (has : ∀ r ptr, m'.Has r ptr → m.Has r ptr)
    (missed : ∀ w msg, m'.phase w = .missed msg → m.phase w = .missed msg) : m'.Once := by
  refine ⟨by rw [taken]; exact once.ids, fun r r' ptr hr hr' => ?_, fun w msg r there hr => ?_, ?_⟩
  · exact once.records r r' ptr (has r ptr hr) (has r' ptr hr')
  · exact once.missed w msg r (missed w msg there) (has r _ hr)
  · intro w w' msg msg' there there' same
    exact once.apart w w' msg msg' (missed w msg there) (missed w' msg' there') same

/-- One record gets a list that none had. -/
theorem Once.give (r₀ : RecordId) (once : m.Once)
    (taken : (m'.shared.taken.map DecodedMsg.id).Nodup) {new : AvpListPtr}
    (absent : ∀ r, ¬ m.Has r new)
    (has : ∀ r ptr, m'.Has r ptr → m.Has r ptr ∨ (r = r₀ ∧ ptr = new))
    (missed : ∀ w msg, m'.phase w = .missed msg →
      m.phase w = .missed msg ∧ msg.avpListPtr ≠ new) : m'.Once := by
  refine ⟨taken, fun r r' ptr hr hr' => ?_, fun w msg r there hr => ?_, ?_⟩
  · rcases has r ptr hr with old | ⟨rfl, rfl⟩ <;> rcases has r' ptr hr' with old' | ⟨rfl, eq⟩
    · exact once.records r r' ptr old old'
    · exact absurd (eq ▸ old) (absent r)
    · exact absurd old' (absent r')
    · rfl
  · obtain ⟨before, other⟩ := missed w msg there
    rcases has r _ hr with old | ⟨-, eq⟩
    · exact once.missed w msg r before old
    · exact other eq
  · intro w w' msg msg' there there' same
    exact once.apart w w' msg msg' (missed w msg there).1 (missed w' msg' there').1 same

theorem ids_take (ids : (m.shared.taken.map DecodedMsg.id).Nodup)
    (unused : msg.id ∉ m.shared.taken.map DecodedMsg.id) :
    ((m.shared.taken ++ [msg]).map DecodedMsg.id).Nodup := by
  rw [List.map_append, List.map_singleton]
  exact ids.append (List.nodup_singleton _) (List.disjoint_singleton.mpr unused)

/-- A message in the hands of a worker is not a new one. -/
theorem Inv.missed_ne (inv : m.Inv) (unused : msg.id ∉ m.shared.taken.map DecodedMsg.id)
    {msg' : DecodedMsg} (missed : m.phase w = .missed msg') : msg'.id ≠ msg.id := by
  intro same
  have mem := inv.inHand w msg' (by rw [Matcher.inHand, missed]; rfl)
  exact unused (same ▸ List.mem_map_of_mem mem)

theorem Once.step (once : m.Once) (inv : m.Inv) (step : m.step a = some m') : m'.Once := by
  rcases step_cases step with ⟨w, msg, r, -, idle, unused, found, rfl⟩ |
    ⟨w, msg, -, idle, unused, absent, rfl⟩ | ⟨w, msg, -, missed, rfl⟩ |
    ⟨w, msg, r, -, created, rfl⟩ | ⟨e, shared, -, env, rfl⟩
  · refine once.give r ?_ (fun r => inv.not_has unused) ?_ fun w' msg' there =>
      ⟨there, fun eq => inv.missed_ne unused there (congrArg AvpListPtr.msgId eq)⟩
    · show (((m.shared.take msg).hit msg r).taken.map DecodedMsg.id).Nodup
      rw [Shared.hit_eq]
      exact ids_take once.ids unused
    · intro r' ptr has
      simp only [Has, Shared.hit_eq] at has
      by_cases same : r' = r
      · subst same
        rw [Function.update_self] at has
        rcases has with set | set
        · exact (Shared.merge_request set).imp .inl fun new => ⟨rfl, new.1⟩
        · exact (Shared.merge_response set).imp .inr fun new => ⟨rfl, new.1⟩
      · rw [Function.update_of_ne same] at has
        exact .inl has
  · refine ⟨ids_take once.ids unused, once.records, fun w' msg' r there has => ?_, ?_⟩
    · rcases update_eq_cases there with ⟨-, eq⟩ | ⟨-, old⟩
      · cases eq
        exact inv.not_has unused has
      · exact once.missed w' msg' r old has
    · intro w₁ w₂ msg₁ msg₂ there₁ there₂ same
      rcases update_eq_cases there₁ with ⟨rfl, eq₁⟩ | ⟨-, old₁⟩ <;>
        rcases update_eq_cases there₂ with ⟨rfl, eq₂⟩ | ⟨-, old₂⟩
      · rfl
      · cases eq₁
        exact absurd same.symm (inv.missed_ne unused old₂)
      · cases eq₂
        exact absurd same (inv.missed_ne unused old₁)
      · exact once.apart w₁ w₂ msg₁ msg₂ old₁ old₂ same
  · refine once.give m.shared.allocated once.ids (fun r => once.missed w msg r missed) ?_ ?_
    · intro r ptr has
      simp only [Has, Shared.create_eq] at has
      by_cases same : r = m.shared.allocated
      · subst same
        rw [Function.update_self] at has
        rcases has with set | set
        · exact .inr ⟨rfl, (Shared.fresh_request set).1⟩
        · exact .inr ⟨rfl, (Shared.fresh_response set).1⟩
      · rw [Function.update_of_ne same] at has
        exact .inl has
    · intro w' msg' there
      rcases update_eq_cases there with ⟨-, eq⟩ | ⟨other, old⟩
      · cases eq
      · exact ⟨old, fun eq => other (once.apart w' w msg' msg old missed
          (congrArg AvpListPtr.msgId eq))⟩
  · refine once.congr ?_ (fun r' ptr has => ?_) fun w' msg' there => ?_
    · show (m.shared.store msg r).taken = m.shared.taken
      rw [Shared.store_eq]
    · simpa only [Has, Shared.store_eq] using has
    · rcases update_eq_cases there with ⟨-, eq⟩ | ⟨-, old⟩
      · cases eq
      · exact old
  · exact once.congr (Shared.envStep_frame env).1 (fun r ptr => (env_has env).mp) fun _ _ => id

/-- The messages whose lists a record has. -/
def listIds (m : Matcher) (r : RecordId) : List ℕ :=
  ((m.shared.thriftStructs r).reqAvpListPtr.toList ++
    (m.shared.thriftStructs r).respAvpListPtr.toList).map AvpListPtr.msgId

theorem mem_listIds {n : ℕ} : n ∈ m.listIds r ↔ ∃ ptr, m.Has r ptr ∧ ptr.msgId = n := by
  simp only [listIds, List.mem_map, List.mem_append, Option.mem_toList, Has]

/-- Messages that were taken are equal if they have one number. -/
theorem Once.taken_inj (once : m.Once) {msg msg' : DecodedMsg} (mem : msg ∈ m.shared.taken)
    (mem' : msg' ∈ m.shared.taken) (same : msg.id = msg'.id) : msg = msg' :=
  List.inj_on_of_nodup_map once.ids mem mem' same

/-- No message is in two records, nor twice in one. -/
theorem Once.listIds_nodup (once : m.Once) (inv : m.Inv) {rs : List RecordId} (nodup : rs.Nodup) :
    (rs.flatMap m.listIds).Nodup := by
  rw [List.nodup_flatMap]
  constructor
  · -- a request and a response are two messages
    intro r _
    rw [listIds, List.map_append, List.nodup_append]
    refine ⟨?_, ?_, ?_⟩
    · cases (m.shared.thriftStructs r).reqAvpListPtr <;> simp
    · cases (m.shared.thriftStructs r).respAvpListPtr <;> simp
    · intro n there n' there' same
      obtain ⟨a, set, rfl⟩ := List.mem_map.mp there
      obtain ⟨b, set', rfl⟩ := List.mem_map.mp there'
      obtain ⟨q, memq, rfl, codeq, -⟩ := inv.shared.request r a (Option.mem_toList.mp set)
      obtain ⟨p, memp, rfl, codep, -⟩ := inv.shared.response r b (Option.mem_toList.mp set')
      have eq : q = p := once.taken_inj memq memp same
      rw [eq, codep] at codeq
      exact accountingResponse_ne codeq
  · refine nodup.imp ?_
    intro r r' ne n there there'
    obtain ⟨ptr, has, rfl⟩ := mem_listIds.mp there
    obtain ⟨ptr', has', same⟩ := mem_listIds.mp there'
    obtain ⟨msg, mem, rfl⟩ := inv.has_taken has
    obtain ⟨msg', mem', rfl⟩ := inv.has_taken has'
    rw [once.taken_inj mem' mem same] at has'
    exact ne (once.records r r' _ has has')

/-- All of it, in every reachable state. -/
theorem reachable (run : Runs.run step (init capacity) acts = some m) :
    m.Inv ∧ m.Accounted ∧ m.Once ∧ m.shared.Sent :=
  Runs.invariant_of_step (I := fun t => t.Inv ∧ t.Accounted ∧ t.Once ∧ t.shared.Sent)
    ⟨inv_init capacity, accounted_init capacity, once_init capacity, Shared.sent_init capacity⟩
    (fun _ _ _ ⟨inv, accounted, once, sent⟩ step =>
      ⟨inv.step step, accounted.step inv step, once.step inv step, sent_step sent inv step⟩) run

end Matcher

/-! ## What the receiver accepts -/

def ProgramAction.arrival : ProgramAction → Option Arrival
  | .poll a => a.arrival
  | _ => none

namespace Process

variable {s s' : Process} {a : ProcessAction}

/-- An admitted datagram is accepted as what it becomes, or is dropped. -/
theorem receive_accepts {datagram : Arrival} (new : s.tmpRadiusRawMsg = .new)
    (step : s.receiveRaduisMessage datagram = some s') :
    s'.tmpRadiusRawMsg = .new ∧ s'.localEndpoint = s.localEndpoint ∧
      (s'.accepted = s.accepted ∨ (Admits s.localEndpoint datagram ∧
        ∃ p, p.msg = admittedMsg s.localEndpoint datagram ∧
          s'.accepted = s.accepted ++ [p])) := by
  have received : s.tmpRadiusRawMsg.receive datagram.1 = .received datagram.1 := by
    rw [new]
    rfl
  simp only [receiveRaduisMessage, received] at step
  split at step
  · split at step
    · rename_i admitted
      split at step
      · cases step
        exact ⟨rfl, rfl, .inr ⟨admitted, _, rfl, rfl⟩⟩
      · cases step
        exact ⟨rfl, rfl, .inl rfl⟩
      · cases step
    · cases step
      exact ⟨rfl, rfl, .inl rfl⟩
  · cases step

/-- What has been accepted so far, of these arrivals. -/
structure Accepts (s : Process) (localEndpoint : Endpoint) (arrivals : List Arrival) : Prop where
  new : s.tmpRadiusRawMsg = .new
  endpoint : s.localEndpoint = localEndpoint
  accepted : (s.accepted.map RadiusRawMsgPtr.msg).Sublist
    ((arrivals.filter (Admits localEndpoint ·)).map (admittedMsg localEndpoint))

theorem Accepts.congr {localEndpoint : Endpoint} {arrivals : List Arrival}
    (accepts : s.Accepts localEndpoint arrivals) (new : s'.tmpRadiusRawMsg = s.tmpRadiusRawMsg)
    (endpoint : s'.localEndpoint = s.localEndpoint) (accepted : s'.accepted = s.accepted) :
    s'.Accepts localEndpoint arrivals :=
  ⟨new.trans accepts.new, endpoint.trans accepts.endpoint, accepted ▸ accepts.accepted⟩

theorem Accepts.receive {localEndpoint : Endpoint} {arrivals : List Arrival} {datagram : Arrival}
    (accepts : s.Accepts localEndpoint arrivals)
    (step : s.receiveRaduisMessage datagram = some s') :
    s'.Accepts localEndpoint (arrivals ++ [datagram]) := by
  obtain ⟨new, rfl, sublist⟩ := accepts
  obtain ⟨new', endpoint, same | ⟨admitted, p, msg, accepted⟩⟩ := receive_accepts new step
  · refine ⟨new', endpoint, ?_⟩
    rw [same, List.filter_append, List.map_append]
    exact sublist.trans (List.sublist_append_left _ _)
  · refine ⟨new', endpoint, ?_⟩
    rw [accepted, List.filter_append, List.map_append, List.map_append, List.map_singleton, msg,
      List.filter_singleton, decide_eq_true admitted, cond_true]
    exact sublist.append (.refl _)

end Process

namespace Program

variable {s s' : Program} {a : ProgramAction} {w : ℕ} {acts : List ProgramAction}
  {localEndpoint : Endpoint} {workersNumber workerQueueCapacity thriftQueueCapacity : ℕ}

theorem workerStep_accepts {arrivals : List Arrival}
    (accepts : s.process.Accepts localEndpoint arrivals) (step : s.workerStep w = some s') :
    s'.process.Accepts localEndpoint arrivals := by
  rcases workerStep_cases step with ⟨-, rfl⟩ | ⟨q, -, -, -, rfl⟩ | ⟨q, p, q', -, -, -, rfl⟩ |
    ⟨p, -, rfl⟩ | ⟨p, msg, r, -, -, rfl⟩ | ⟨p, msg, decoded, -, rfl⟩ |
    ⟨p, msg, decoded, -, rfl⟩ | ⟨p, msg, decoded, r, -, rfl⟩ <;>
  exact accepts.congr rfl rfl rfl

/-- The accepted messages are admitted datagrams, in the order of their arrival. -/
theorem accepts_arrivals
    (run : Runs.run step (init localEndpoint workersNumber workerQueueCapacity
      thriftQueueCapacity) acts = some s) :
    s.process.Accepts localEndpoint (acts.filterMap ProgramAction.arrival) := by
  induction acts using List.reverseRecOn generalizing s with
  | nil =>
      cases run
      exact ⟨rfl, rfl, .refl _⟩
  | append_singleton acts a ih =>
      obtain ⟨t, reach, last⟩ := Runs.run_concat_eq_some.mp run
      have accepts := ih reach
      rw [List.filterMap_append]
      rcases step_cases last with ⟨b, process, rfl, -, polled, next, rfl⟩ |
        ⟨r, shared, rfl, -, rfl⟩ | ⟨rfl, -, rfl⟩ | ⟨m, rest, rfl, -, rfl⟩ |
        ⟨m, rest, rfl, -, -, rfl⟩ | ⟨w, rfl, worker⟩ | ⟨applId, now, sendThrows, rfl, sender⟩
      · rcases Process.step_cases next with ⟨datagram, rfl, receive⟩ | ⟨rfl, rfl⟩ | ⟨w, rfl, -⟩ |
          ⟨e, shared, rfl, -, rfl⟩
        · exact accepts.receive receive
        · exact (List.append_nil _).symm ▸ accepts.congr rfl rfl rfl
        · cases polled
        · exact (List.append_nil _).symm ▸ accepts.congr rfl rfl rfl
      · exact (List.append_nil _).symm ▸ accepts.congr rfl rfl rfl
      · exact (List.append_nil _).symm ▸ accepts.congr rfl rfl rfl
      · exact (List.append_nil _).symm ▸ accepts.congr rfl rfl rfl
      · exact (List.append_nil _).symm ▸ accepts.congr rfl rfl rfl
      · exact (List.append_nil _).symm ▸ workerStep_accepts accepts worker
      · rcases senderStep_cases sender with ⟨-, rfl⟩ | ⟨-, -, rfl⟩ | ⟨shared, -, -, rfl⟩ <;>
          exact (List.append_nil _).symm ▸ accepts.congr rfl rfl rfl

end Program

/-! ## Reports -/

/-- The list that a message decodes to. -/
def RadiusRawMsgPtr.avpList (p : RadiusRawMsgPtr) : AvpList :=
  p.decoded?.elim [] DecodedMsg.avpList

/-- The messages that a structure is sent for. -/
structure Report where
  request : Option RadiusRawMsgPtr
  response : Option RadiusRawMsgPtr

namespace Report

def messages (rep : Report) : List RadiusRawMsgPtr := rep.request.toList ++ rep.response.toList

def lists (rep : Report) : AvpList × AvpList :=
  (rep.request.elim [] RadiusRawMsgPtr.avpList, rep.response.elim [] RadiusRawMsgPtr.avpList)

/-- One message, or a request and a response of one flow key; both decode. -/
structure Sound (rep : Report) : Prop where
  nonempty : rep.messages ≠ []
  decodes : ∀ p ∈ rep.messages, p.decoded?.isSome = true
  request : ∀ p ∈ rep.request, p.radMsgCode = accountingRequest
  response : ∀ p ∈ rep.response, p.radMsgCode = accountingResponse
  key : ∀ p ∈ rep.request, ∀ q ∈ rep.response, p.msg.key = q.msg.key

end Report

/-- What a worker holds of a message agrees with the message. -/
theorem RadiusRawMsgPtr.decoded?_eq {p : RadiusRawMsgPtr} {msg : DecodedMsg}
    (decoded : p.decoded? = some msg) :
    msg.id = p.id ∧ msg.flowKey = p.msg.key ∧ msg.radMsgCode = p.radMsgCode ∧
      msg.avpList = p.avpList := by
  rw [avpList, decoded]
  refine ⟨decoded?_id decoded, ?_, ?_, rfl⟩ <;> unfold RadiusRawMsgPtr.decoded? at decoded <;>
    split at decoded <;> cases decoded <;> rfl

namespace Program

variable {s : Program} {r : RecordId} {acts : List ProgramAction}
  {localEndpoint : Endpoint} {workersNumber workerQueueCapacity thriftQueueCapacity : ℕ}

/-- The record was made from these messages. -/
def MadeFrom (s : Program) (r : RecordId) (rep : Report) : Prop :=
  plainLists (s.process.shared.thriftStructs r).lists = rep.lists ∧ rep.Sound ∧
    rep.messages.map RadiusRawMsgPtr.id = s.matcher.listIds r ∧
    ∀ p ∈ rep.messages, p ∈ s.process.accepted

/-- The message that a list of a record was decoded from. -/
theorem exists_message (refines : RefinesMatcher s s.matcher) {code : UInt16} {a : AvpListPtr}
    (decoded : s.process.shared.DecodedFrom code r a) :
    ∃ p ∈ s.process.accepted, p.decoded?.isSome = true ∧ p.id = a.msgId ∧ p.avpList = a.avpList ∧
      p.radMsgCode = code ∧ ∀ key, s.process.shared.StoredUnder r key → p.msg.key = key := by
  obtain ⟨inv, looked, -⟩ := refines
  obtain ⟨msg, mem, rfl, code, keys⟩ := decoded
  obtain ⟨p, accepted, eq⟩ := looked.accepted inv mem
  obtain ⟨id, key, radMsgCode, avpList⟩ := RadiusRawMsgPtr.decoded?_eq eq
  refine ⟨p, accepted, by rw [eq]; rfl, id.symm, avpList.symm, radMsgCode.symm.trans code, ?_⟩
  intro k stored
  rw [← key]
  exact keys k stored

/-- Every record with a list was made from accepted messages. -/
theorem exists_report (refines : RefinesMatcher s s.matcher) (inv : s.matcher.Inv)
    (some_list : (s.process.shared.thriftStructs r).reqAvpListPtr.isSome = true ∨
      (s.process.shared.thriftStructs r).respAvpListPtr.isSome = true) :
    ∃ rep, s.MadeFrom r rep := by
  have shared : s.process.shared.Inv s.matcher.held := inv.shared
  cases req : (s.process.shared.thriftStructs r).reqAvpListPtr with
  | none =>
      cases resp : (s.process.shared.thriftStructs r).respAvpListPtr with
      | none => simp [req, resp] at some_list
      | some b =>
          obtain ⟨q, accepted, decodes, id, avpList, code, -⟩ :=
            exists_message refines (shared.response r b resp)
          refine ⟨⟨none, some q⟩, ?_, ⟨by simp [Report.messages], ?_, by simp, ?_, by simp⟩, ?_, ?_⟩
          · simp [plainLists, ThriftStruct.lists, req, resp, Report.lists, avpList]
          · simpa [Report.messages] using decodes
          · simpa using code
          · simp [Report.messages, Matcher.listIds, matcher, req, resp, id]
          · simpa [Report.messages] using accepted
  | some a =>
      obtain ⟨p, accepted, decodes, id, avpList, code, keys⟩ :=
        exists_message refines (shared.request r a req)
      cases resp : (s.process.shared.thriftStructs r).respAvpListPtr with
      | none =>
          refine ⟨⟨some p, none⟩, ?_, ⟨by simp [Report.messages], ?_, ?_, by simp, by simp⟩, ?_, ?_⟩
          · simp [plainLists, ThriftStruct.lists, req, resp, Report.lists, avpList]
          · simpa [Report.messages] using decodes
          · simpa using code
          · simp [Report.messages, Matcher.listIds, matcher, req, resp, id]
          · simpa [Report.messages] using accepted
      | some b =>
          obtain ⟨q, accepted', decodes', id', avpList', code', keys'⟩ :=
            exists_message refines (shared.response r b resp)
          obtain ⟨key, stored⟩ := shared.both r (by simp [req]) (by simp [resp])
          refine ⟨⟨some p, some q⟩, ?_, ⟨by simp [Report.messages], ?_, ?_, ?_, ?_⟩, ?_, ?_⟩
          · simp [plainLists, ThriftStruct.lists, req, resp, Report.lists, avpList, avpList']
          · simpa [Report.messages] using ⟨decodes, decodes'⟩
          · simpa using code
          · simpa using code'
          · simpa using (keys key stored).trans (keys' key stored).symm
          · simp [Report.messages, Matcher.listIds, matcher, req, resp, id, id']
          · simpa [Report.messages] using ⟨accepted, accepted'⟩

/-- The messages that structures are sent for. -/
theorem exists_reports {plains : List PlainThriftStruct}
    (run : Runs.run step (init localEndpoint workersNumber workerQueueCapacity
      thriftQueueCapacity) acts = some s)
    (among : plains.Sublist s.process.shared.plainStructs) :
    ∃ reports : List Report,
      plains.map PlainThriftStruct.lists = reports.map Report.lists ∧
      (∀ rep ∈ reports, rep.Sound) ∧
      ((reports.flatMap Report.messages).map RadiusRawMsgPtr.id).Nodup ∧
      ∀ p ∈ reports.flatMap Report.messages, p ∈ s.process.accepted := by
  obtain ⟨macts, -, matched, refines⟩ := reaches_matcher run
  obtain ⟨inv, accounted, once, all, waits, split, -, plain⟩ := Matcher.reachable matched
  -- the records that were sent as these structures
  obtain ⟨done, part, lists⟩ := List.sublist_map_iff.mp
    (plain ▸ among.map PlainThriftStruct.lists)
  have made : ∀ r ∈ done, ∃ rep, s.MadeFrom r rep := by
    intro r mem
    have pushed : r ∈ s.matcher.shared.pushed := by
      rw [split]
      exact List.mem_append_left _ (part.subset mem)
    exact exists_report refines inv (inv.shared.pushed r pushed).2
  have sent_once : done.Nodup := by
    have once := (List.nodup_append.mp accounted.left_once).1
    rw [split] at once
    exact (List.nodup_append.mp once).1.sublist part
  have : Nonempty Report := ⟨⟨none, none⟩⟩
  choose! report same sound ids accepted using made
  refine ⟨done.map report, ?_, ?_, ?_, ?_⟩
  · rw [List.map_map]
    exact lists.trans (List.map_congr_left same)
  · intro rep mem
    obtain ⟨r, there, rfl⟩ := List.mem_map.mp mem
    exact sound r there
  · have listed : ((done.map report).flatMap Report.messages).map RadiusRawMsgPtr.id =
        done.flatMap s.matcher.listIds := by
      rw [List.flatMap_map, List.map_flatMap]
      exact List.flatMap_congr ids
    rw [listed]
    exact once.listIds_nodup inv sent_once
  · intro p mem
    obtain ⟨rep, there, mem⟩ := List.mem_flatMap.mp mem
    obtain ⟨r, sent, rfl⟩ := List.mem_map.mp there
    exact accepted r sent p mem

/-- **What is sent is what was received, and no datagram twice.** -/
theorem reports_received
    (run : Runs.run step (init localEndpoint workersNumber workerQueueCapacity
      thriftQueueCapacity) acts = some s) :
    ∃ reports : List Report,
      s.process.shared.plainStructs.map PlainThriftStruct.lists = reports.map Report.lists ∧
      (∀ rep ∈ reports, rep.Sound) ∧
      ((reports.flatMap Report.messages).map RadiusRawMsgPtr.id).Nodup ∧
      (∀ p ∈ reports.flatMap Report.messages, p ∈ s.process.accepted) ∧
      (s.process.accepted.map RadiusRawMsgPtr.msg).Sublist
        (((acts.filterMap ProgramAction.arrival).filter (Process.Admits localEndpoint ·)).map
          (Process.admittedMsg localEndpoint)) := by
  obtain ⟨reports, lists, sound, ids, accepted⟩ := exists_reports run (List.Sublist.refl _)
  exact ⟨reports, lists, sound, ids, accepted, (accepts_arrivals run).accepted⟩

/-- A request and its response are handled by two workers, and their record is
sent. -/
def reportingRun : List ProgramAction :=
  [.poll (.receive ([4, 103, 0, 20] ++ List.replicate 16 0, radiusClient)),
    .poll (.receive ([5, 103, 0, 20] ++ List.replicate 16 0, radiusClient)),
    .worker 0, .worker 0, .worker 0, .worker 0, .worker 0, .worker 1, .worker 1, .worker 1,
    .sender 7 1000 false, .sender 7 1000 false]

theorem reports_received_pair :
    ∃ s, Runs.run step (createModules radiusMonitor) reportingRun = some s ∧
      ∃ reports : List Report, reports.length = 1 ∧
        s.process.shared.plainStructs.map PlainThriftStruct.lists = reports.map Report.lists ∧
        (∀ rep ∈ reports, rep.Sound) ∧
        ((reports.flatMap Report.messages).map RadiusRawMsgPtr.id).Nodup ∧
        (∀ p ∈ reports.flatMap Report.messages, p ∈ s.process.accepted) ∧
        (s.process.accepted.map RadiusRawMsgPtr.msg).Sublist
          (((reportingRun.filterMap ProgramAction.arrival).filter
            (Process.Admits radiusMonitor ·)).map (Process.admittedMsg radiusMonitor)) := by
  have facts : (Runs.run step (createModules radiusMonitor) reportingRun).map (fun s =>
      s.process.shared.plainStructs.length) = some 1 := by
    decide +kernel
  obtain ⟨s, run, length⟩ := Option.map_eq_some_iff.mp facts
  obtain ⟨reports, lists, sound, nodup, accepted, admitted⟩ := reports_received run
  refine ⟨s, run, reports, ?_, lists, sound, nodup, accepted, admitted⟩
  have same := congrArg List.length lists
  rw [List.length_map, List.length_map, length] at same
  exact same.symm

end Program

end RadiusEventHandler
