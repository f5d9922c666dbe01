import RadiusEventHandler.Pipeline

/-!
# From datagrams to plain structures

Each flow has one request and one response, as datagrams of the wire format.
Whatever the order of their arrival and the schedule of the workers, an
uneventful run that has emptied its queues has built one plain structure per
flow, with the AVPs of its two datagrams.
-/

namespace RadiusEventHandler

/-! ## Datagrams -/

/-- What follows the code and the identifier of a datagram. -/
structure AccountingBody where
  authenticator : List UInt8
  avps : AvpList
  authenticator_length : authenticator.length = radiusAuthLen
  sized : WireSized avps
  lastNonEmpty : LastNonEmpty avps
  fits : radiusHeaderLen + (encodeAll avps).length ≤ 4095

namespace AccountingBody

def length (b : AccountingBody) : ℕ := radiusHeaderLen + (encodeAll b.avps).length

/-- Code, identifier, length, authenticator, AVPs. -/
def datagram (b : AccountingBody) (code identifier : UInt8) : List UInt8 :=
  [code, identifier, UInt8.ofNat (b.length / 256), UInt8.ofNat (b.length % 256)] ++
    b.authenticator ++ encodeAll b.avps

variable (b : AccountingBody) (code identifier : UInt8)

theorem datagram_length : (b.datagram code identifier).length = b.length := by
  simp only [datagram, length, List.length_append, List.length_cons, List.length_nil,
    b.authenticator_length]
  rfl

theorem length_le : b.length ≤ 4095 := b.fits

theorem le_length : 20 ≤ b.length := Nat.le_add_right _ _

theorem received_get {i : ℕ} (front : i < 20) :
    (RadiusRawMsg.received (b.datagram code identifier)).radiusMsgData.get i =
      (b.datagram code identifier).getD i 0 := by
  have short : (b.datagram code identifier).length ≤ 4096 := by
    have := b.length_le
    rw [b.datagram_length]
    omega
  have inside : i < (b.datagram code identifier).length := by
    have := b.le_length
    rw [b.datagram_length]
    omega
  rw [RadiusRawMsg.received, RawDataArray.get_receive short, if_pos inside]

theorem received_lengthField :
    (RadiusRawMsg.received (b.datagram code identifier)).radiusMsgData.lengthField.toNat =
      b.length := by
  have le := b.length_le
  rw [RawDataArray.lengthField_toNat, b.received_get _ _ (by decide),
    b.received_get _ _ (by decide)]
  simp only [datagram, List.cons_append, List.getD_cons_succ, List.getD_cons_zero,
    UInt8.toNat_ofNat']
  omega

theorem received_region :
    (RadiusRawMsg.received (b.datagram code identifier)).radiusMsgData.region =
      encodeAll b.avps := by
  have short : (b.datagram code identifier).length ≤ 4096 := by
    have := b.length_le
    rw [b.datagram_length]
    omega
  have header : ([code, identifier, UInt8.ofNat (b.length / 256), UInt8.ofNat (b.length % 256)] ++
      b.authenticator).length = radiusHeaderLen := by
    simp [b.authenticator_length, radiusAuthLen]
  rw [RawDataArray.region, received_lengthField, RadiusRawMsg.received,
    RawDataArray.window_receive short (by rw [b.datagram_length]), datagram,
    List.drop_left' header]
  exact List.take_of_length_le (by simp [length])

theorem received_decodes :
    getAllAvps (RadiusRawMsg.received (b.datagram code identifier)).radiusMsgData
      radiusMsgMaxSize = some (.ok b.avps) := by
  have high := b.received_lengthField code identifier ▸ b.length_le
  have decomposition : Decomposes
      (RadiusRawMsg.received (b.datagram code identifier)).radiusMsgData.region b.avps [] :=
    ⟨by rw [received_region, List.append_nil], b.sized, .inl ⟨rfl, b.lastNonEmpty⟩⟩
  apply getAllAvps_mono (getAllAvps_returns high decomposition)
  have few := length_le_encodeAll b.avps
  have le := b.length_le
  simp only [length, radiusHeaderLen_eq] at le
  rw [radiusMsgMaxSize_eq]
  omega

theorem received_admitted {remote localEndpoint : Endpoint} {bytesNum : ℕ}
    (accounting : code = 4 ∨ code = 5)
    (port : localEndpoint.port = radiusAccountingPort ∨ remote.port = radiusAccountingPort) :
    isRadAccMsg (.received (b.datagram code identifier)) remote localEndpoint bytesNum = true := by
  rw [isRadAccMsg_iff, b.received_lengthField, b.received_get _ _ (by decide)]
  exact ⟨⟨b.le_length, b.length_le⟩, port, accounting⟩

end AccountingBody

/-! ## Flows -/

/-- One request and one response of a remote endpoint, with one identifier. -/
structure Flow where
  remote : Endpoint
  identifier : UInt8
  request : AccountingBody
  response : AccountingBody

/-- Flow key, code and AVPs. -/
abbrev Content := FlowKey × UInt16 × AvpList

def DecodedMsg.content (msg : DecodedMsg) : Content := (msg.flowKey, msg.radMsgCode, msg.avpList)

/-- What a worker gets out of a message, if `getAllAvps` returns. -/
def RadiusRawMsg.content? (msg : RadiusRawMsg) : Option Content :=
  match getAllAvps msg.radiusMsgData radiusMsgMaxSize with
  | some (.ok avps) =>
      some (msg.key, charToUInt16 (msg.radiusMsgData.get radAccMsgCodeOffset), avps)
  | _ => none

theorem RadiusRawMsgPtr.decoded?_content (p : RadiusRawMsgPtr) :
    p.decoded?.map DecodedMsg.content = p.msg.content? := by
  unfold RadiusRawMsgPtr.decoded? RadiusRawMsg.content? RadiusRawMsgPtr.decode
  cases getAllAvps p.msg.radiusMsgData radiusMsgMaxSize with
  | none => rfl
  | some outcome => cases outcome <;> rfl

theorem AccountingBody.admitted_content (b : AccountingBody) (code identifier : UInt8)
    (remote localEndpoint : Endpoint) :
    (Process.admittedMsg localEndpoint (b.datagram code identifier, remote)).content? =
      some ((Process.admittedMsg localEndpoint (b.datagram code identifier, remote)).key,
        charToUInt16 code, b.avps) := by
  have first : (Process.admittedMsg localEndpoint
      (b.datagram code identifier, remote)).radiusMsgData.get radAccMsgCodeOffset = code :=
    b.received_get code identifier (show 0 < 20 by decide)
  have decodes : getAllAvps (Process.admittedMsg localEndpoint
      (b.datagram code identifier, remote)).radiusMsgData radiusMsgMaxSize =
        some (.ok b.avps) := b.received_decodes code identifier
  rw [RadiusRawMsg.content?, decodes, first]

namespace Flow

/-- The two datagrams of a flow. -/
def arrivals (f : Flow) : List Arrival :=
  [(f.request.datagram 4 f.identifier, f.remote), (f.response.datagram 5 f.identifier, f.remote)]

variable (f : Flow) (localEndpoint : Endpoint)

def key : FlowKey :=
  (Process.admittedMsg localEndpoint (f.request.datagram 4 f.identifier, f.remote)).key

def contents : List Content :=
  [(f.key localEndpoint, accountingRequest, f.request.avps),
    (f.key localEndpoint, accountingResponse, f.response.avps)]

/-- The two datagrams of a flow get one flow key. -/
theorem response_key :
    (Process.admittedMsg localEndpoint
      (f.response.datagram 5 f.identifier, f.remote)).key = f.key localEndpoint := by
  have request := f.request.received_get 4 f.identifier (show 1 < 20 by decide)
  have response := f.response.received_get 5 f.identifier (show 1 < 20 by decide)
  rw [key, Process.admittedMsg, Process.admittedMsg, setFlowKey_key, setFlowKey_key,
    FlowKey.mk.injEq]
  exact ⟨rfl, rfl, rfl, rfl, response.trans request.symm⟩

theorem arrivals_content :
    f.arrivals.filterMap (fun a => (Process.admittedMsg localEndpoint a).content?) =
      f.contents localEndpoint := by
  simp only [arrivals, List.filterMap_cons, List.filterMap_nil,
    AccountingBody.admitted_content, response_key]
  rfl

/-- For one local endpoint, flows with one key are one in remote endpoint and
identifier. -/
theorem key_inj {f g : Flow} (same : f.key localEndpoint = g.key localEndpoint) :
    (f.remote, f.identifier) = (g.remote, g.identifier) := by
  obtain ⟨remote, identifier⟩ := setFlowKey_cancel same
  have hf := f.request.received_get 4 f.identifier (show 1 < 20 by decide)
  have hg := g.request.received_get 4 g.identifier (show 1 < 20 by decide)
  exact Prod.ext remote (hf.symm.trans (identifier.trans hg))

theorem arrivals_admitted {a : Arrival} (mem : a ∈ f.arrivals)
    (port : localEndpoint.port = radiusAccountingPort ∨ f.remote.port = radiusAccountingPort) :
    Process.Admits localEndpoint a := by
  rcases List.mem_pair.mp mem with rfl | rfl
  · exact f.request.received_admitted 4 f.identifier (.inl rfl) port
  · exact f.response.received_admitted 5 f.identifier (.inr rfl) port

end Flow

/-! ## What the receiver accepts -/

namespace Process

variable {s : Process} {acts : List ProcessAction} {localEndpoint : Endpoint}
  {workersNumber workerQueueCapacity thriftQueueCapacity : ℕ}

/-- In an uneventful run every admitted datagram gets into a queue. -/
theorem accepted_eq
    (run : Runs.run step (init localEndpoint workersNumber workerQueueCapacity
      thriftQueueCapacity) acts = some s)
    (uneventful : Runs.Along step Uneventful (init localEndpoint workersNumber
      workerQueueCapacity thriftQueueCapacity) acts) :
    s.localEndpoint = localEndpoint ∧
      s.accepted.map RadiusRawMsgPtr.msg =
        ((acts.filterMap ProcessAction.arrival).filter (Admits localEndpoint ·)).map
          (admittedMsg localEndpoint) := by
  induction acts using List.reverseRecOn generalizing s with
  | nil =>
      cases run
      exact ⟨rfl, rfl⟩
  | append_singleton acts a ih =>
      obtain ⟨before, last⟩ := Runs.along_concat.mp uneventful
      obtain ⟨t, reach, step⟩ := Runs.run_concat_eq_some.mp run
      obtain ⟨endpoint, accepted⟩ := ih reach before
      have fine := last t reach
      rw [List.filterMap_append, List.filter_append, List.map_append, ← accepted]
      rcases step_cases step with ⟨datagram, rfl, receive⟩ | ⟨rfl, rfl⟩ | ⟨w, rfl, work⟩ |
        ⟨e, shared, rfl, -, rfl⟩
      · have new := (inv_of_uneventful reach before).new
        rcases receive_cases new fine.workers receive with ⟨refused, rfl⟩ |
          ⟨p, dispatcher, i, q, q', admitted, -, msg, -, -, -, rfl⟩
        · rw [endpoint] at refused
          exact ⟨endpoint, by simp [ProcessAction.arrival, refused]⟩
        · rw [endpoint] at admitted msg
          exact ⟨endpoint, by simp [ProcessAction.arrival, admitted, msg]⟩
      · exact ⟨endpoint, (List.append_nil _).symm⟩
      · obtain ⟨q, p, q', -, -, same, -, accepted', -⟩ := work_cases work
        refine ⟨same.trans endpoint, ?_⟩
        rw [accepted']
        exact (List.append_nil _).symm
      · exact ⟨endpoint, (List.append_nil _).symm⟩

/-- All queues are empty. -/
def Drained (s : Process) : Prop :=
  (∀ q ∈ s.dispatcher.workersInputQueues, q.items = []) ∧ s.shared.outputQueue.items = []

instance (s : Process) : Decidable s.Drained :=
  decidable_of_iff ((∀ q ∈ s.dispatcher.workersInputQueues, q.items.isEmpty = true) ∧
    s.shared.outputQueue.items.isEmpty = true) (by simp [Drained])

/-- With empty queues, the workers have handled what was accepted. -/
theorem Inv.taken_content (inv : s.Inv) (drained : s.Drained) :
    (s.shared.taken.map DecodedMsg.content).Perm
      ((s.accepted.map RadiusRawMsgPtr.msg).filterMap RadiusRawMsg.content?) := by
  have located := inv.located
  rw [BoundedQueue.contents_eq_nil.mpr drained.1, List.nil_append] at located
  have contents : s.shared.taken.map DecodedMsg.content =
      (s.popped.map RadiusRawMsgPtr.msg).filterMap RadiusRawMsg.content? := by
    rw [inv.taken, List.map_filterMap, List.filterMap_map]
    exact List.filterMap_congr fun p _ => p.decoded?_content
  rw [contents]
  exact (located.symm.map _).filterMap _

/-- With an empty output queue, every pushed record has been sent. -/
theorem Inv.plainStructs (inv : s.Inv) (drained : s.Drained) :
    s.shared.plainStructs.map PlainThriftStruct.lists =
      (paired s.shared.taken).emitted.map fun e => plainLists (emissionLists e) := by
  obtain ⟨sent, waits, split, items, plain⟩ := inv.sent
  have none_waits : waits = [] := List.map_eq_nil_iff.mp (items.symm.trans drained.2)
  rw [none_waits, List.append_nil] at split
  have pushed := inv.refines.pushed
  rw [Shared.pushedView, split] at pushed
  calc s.shared.plainStructs.map PlainThriftStruct.lists
      = (sent.map fun r => (s.shared.thriftStructs r).lists).map plainLists := by
        rw [plain, List.map_map]
        rfl
    _ = (paired s.shared.taken).emitted.map fun e => plainLists (emissionLists e) := by
        rw [pushed, List.map_map]
        rfl

end Process

/-! ## Flow after flow -/

/-- A request and then a response of one key, when no slot is taken. -/
theorem feed_pair {t : Pairing.Table FlowKey AvpListPtr} {q p : DecodedMsg}
    (free : ∀ key, t.slots key = none) (keys : p.flowKey = q.flowKey)
    (request : q.radMsgCode = accountingRequest) (response : p.radMsgCode = accountingResponse) :
    (∀ key, (Pairing.feed (Pairing.feed t q.item) p.item).slots key = none) ∧
      (Pairing.feed (Pairing.feed t q.item) p.item).emitted =
        t.emitted ++ [.pair q.flowKey q.avpListPtr p.avpListPtr] := by
  have left : q.item.half = (.left, q.avpListPtr) :=
    Prod.ext (DecodedMsg.side_eq_left.mpr request) rfl
  have right : p.item.half = (.right, p.avpListPtr) :=
    Prod.ext (DecodedMsg.side_eq_right.mpr response) rfl
  have same : p.item.key = q.item.key := keys
  have slot : (Pairing.feed t q.item).slots p.item.key = some q.item.half := by
    rw [Pairing.feed_of_none (free _), same]
    exact Function.update_self _ _ _
  rw [Pairing.feed_of_some slot, Pairing.feed_of_none (free _), left, right, same]
  refine ⟨fun key => ?_, rfl⟩
  by_cases here : key = q.item.key
  · subst here
    simp
  · simp [here, free]

/-- Handled flow after flow, every request leaves with its response. -/
theorem paired_flows (localEndpoint : Endpoint) (flows : List Flow) (msgs : List DecodedMsg)
    (contents : msgs.map DecodedMsg.content = flows.flatMap (Flow.contents · localEndpoint)) :
    (∀ key, (paired msgs).slots key = none) ∧
      ((paired msgs).emitted.map fun e => plainLists (emissionLists e)) =
        flows.map fun f => (f.request.avps, f.response.avps) := by
  induction flows using List.reverseRecOn generalizing msgs with
  | nil =>
      rw [List.flatMap_nil, List.map_eq_nil_iff] at contents
      subst contents
      exact ⟨fun _ => rfl, rfl⟩
  | append_singleton flows f ih =>
      -- the messages of the flows before `f` leave no slot taken
      rw [List.flatMap_append, List.map_eq_append_iff] at contents
      obtain ⟨before, last, rfl, front, back⟩ := contents
      obtain ⟨free, emitted⟩ := ih before front
      -- the last two messages are those of `f`
      obtain ⟨q, rest, rfl, hq, back⟩ := List.map_eq_cons_iff.mp
        (back.trans (List.flatMap_singleton _ _))
      obtain ⟨p, rest, rfl, hp, back⟩ := List.map_eq_cons_iff.mp back
      obtain rfl := List.map_eq_nil_iff.mp back
      simp only [DecodedMsg.content, Prod.mk.injEq] at hq hp
      obtain ⟨keyq, codeq, avpsq⟩ := hq
      obtain ⟨keyp, codep, avpsp⟩ := hp
      obtain ⟨free', emitted'⟩ := feed_pair free (keyp.trans keyq.symm) codeq codep
      have split : before ++ [q, p] = (before ++ [q]) ++ [p] := by simp
      rw [split, paired_concat, paired_concat]
      refine ⟨free', ?_⟩
      rw [emitted', List.map_append, List.map_append, emitted]
      simp [plainLists, emissionLists, DecodedMsg.avpListPtr, avpsq, avpsp]

/-! ## End to end -/

/-- No flow has two messages of one code. -/
theorem flows_once {localEndpoint : Endpoint} {flows : List Flow}
    (distinct : (flows.map fun f => (f.remote, f.identifier)).Nodup) :
    ((flows.flatMap (Flow.contents · localEndpoint)).map fun c => (c.1, c.2.1)).Nodup := by
  rw [List.map_flatMap, List.nodup_flatMap]
  constructor
  · intro f mem
    simp [Flow.contents]
  · refine (List.pairwise_map.mp distinct).imp fun {f g} differ => ?_
    have keys : g.key localEndpoint ≠ f.key localEndpoint :=
      fun same => differ (Flow.key_inj localEndpoint same).symm
    simp [Function.onFun, Flow.contents, keys]

/-- Messages with the contents of some others in another order. -/
theorem exists_perm_of_content {msgs : List DecodedMsg} {contents : List Content}
    (perm : (msgs.map DecodedMsg.content).Perm contents) :
    ∃ others : List DecodedMsg, others.Perm msgs ∧
      others.map DecodedMsg.content = contents := by
  have pointwise : List.Forall₂ (fun c m => c = DecodedMsg.content m)
      (msgs.map DecodedMsg.content) msgs := by
    rw [← List.forall₂_map_right_iff, List.forall₂_eq_eq_eq]
  obtain ⟨others, same, perm'⟩ := List.perm_comp_forall₂ perm.symm pointwise
  rw [← List.forall₂_map_right_iff, List.forall₂_eq_eq_eq] at same
  exact ⟨others, perm', same.symm⟩

open Process in
/-- **End-to-end pairing.** -/
theorem end_to_end_pairing {localEndpoint : Endpoint}
    {workersNumber workerQueueCapacity thriftQueueCapacity : ℕ} {flows : List Flow}
    {acts : List ProcessAction} {s : Process}
    (distinct : (flows.map fun f => (f.remote, f.identifier)).Nodup)
    (port : ∀ f ∈ flows, localEndpoint.port = radiusAccountingPort ∨
      f.remote.port = radiusAccountingPort)
    (arrivals : (acts.filterMap ProcessAction.arrival).Perm (flows.flatMap Flow.arrivals))
    (run : Runs.run Process.step (Process.init localEndpoint workersNumber workerQueueCapacity
      thriftQueueCapacity) acts = some s)
    (uneventful : Runs.Along Process.step Uneventful (Process.init localEndpoint workersNumber
      workerQueueCapacity thriftQueueCapacity) acts)
    (drained : s.Drained) :
    (s.shared.plainStructs.map PlainThriftStruct.lists).Perm
        (flows.map fun f => (f.request.avps, f.response.avps)) ∧
      (∀ key, s.shared.hashTable key = none) ∧ s.shared.unmatchedReqsNum = 0 := by
  have inv := inv_of_uneventful run uneventful
  -- what has been handled is, in some order, what the flows contain
  have admitted : ∀ a ∈ acts.filterMap ProcessAction.arrival, Admits localEndpoint a := by
    intro a mem
    obtain ⟨f, memf, mem⟩ := List.mem_flatMap.mp (arrivals.mem_iff.mp mem)
    exact f.arrivals_admitted localEndpoint mem (port f memf)
  have contents : (s.shared.taken.map DecodedMsg.content).Perm
      (flows.flatMap (Flow.contents · localEndpoint)) := by
    apply (inv.taken_content drained).trans
    rw [(accepted_eq run uneventful).2, List.filter_eq_self.mpr (by simpa using admitted),
      List.filterMap_map]
    refine (arrivals.filterMap _).trans (.of_eq ?_)
    rw [List.filterMap_flatMap]
    exact List.flatMap_congr fun f _ => f.arrivals_content localEndpoint
  -- the order of handling is compared with the one that goes flow after flow
  obtain ⟨msgs, perm, inOrder⟩ := exists_perm_of_content contents
  obtain ⟨free, emitted⟩ := paired_flows localEndpoint flows msgs inOrder
  have once : (s.shared.taken.map fun msg => (msg.flowKey, msg.radMsgCode)).Nodup := by
    have := (contents.map fun c => (c.1, c.2.1)).nodup_iff.mpr (flows_once distinct)
    rwa [List.map_map] at this
  obtain ⟨slots, emissions⟩ :=
    Pairing.order_independence (distinct_items once) (perm.map DecodedMsg.item)
  refine ⟨?_, fun key => ?_, inv.unmatched⟩
  · rw [inv.plainStructs drained, ← emitted]
    exact (emissions.symm.map _)
  · have slot : (paired s.shared.taken).slots key = none := by
      rw [← free key]
      exact congrFun slots.symm key
    have view := inv.refines.table key
    rw [slot] at view
    simpa [Shared.tableView] using view

/-- One flow from `radiusClient`, its identifier 0x67. -/
def sampleFlow : Flow where
  remote := radiusClient
  identifier := 0x67
  request := ⟨List.replicate 16 0, [⟨1, [115]⟩], by decide, by decide, by decide, by decide⟩
  response := ⟨List.replicate 16 0, [], by decide, by decide, by decide, by decide⟩

/-- The response comes first, and another worker handles it. -/
def sampleRun : List ProcessAction :=
  [.receive (sampleFlow.response.datagram 5 0x67, radiusClient),
    .receive (sampleFlow.request.datagram 4 0x67, radiusClient),
    .work 1, .work 0, .env (.runHandler 0), .env (.send 7 1000 false)]

theorem end_to_end_pairing_sample :
    ∃ s, Runs.run Process.step (Process.init radiusMonitor 2 4 4) sampleRun = some s ∧
      (s.shared.plainStructs.map PlainThriftStruct.lists).Perm
        ([sampleFlow].map fun f => (f.request.avps, f.response.avps)) ∧
      (∀ key, s.shared.hashTable key = none) ∧ s.shared.unmatchedReqsNum = 0 := by
  have drains : (Runs.run Process.step (Process.init radiusMonitor 2 4 4) sampleRun).map
      (fun s => decide s.Drained) = some true := by
    decide +kernel
  obtain ⟨s, run, drained⟩ := Option.map_eq_some_iff.mp drains
  have uneventful : Runs.Along Process.step Process.Uneventful (Process.init radiusMonitor 2 4 4)
      sampleRun := by
    decide +kernel
  exact ⟨s, run, end_to_end_pairing (by decide) (by decide) (by decide +kernel) run uneventful
    (of_decide_eq_true drained)⟩

end RadiusEventHandler
