import RadiusEventHandler.Pipeline

/-!
# Transactions of one flow

Identifiers are reused, so a flow key is that of one transaction after the
other. The dispatcher spreads the messages of a flow over the workers, and the
workers may handle them in another order than that of their arrival: a record
can hold the lists of a request and of a response of different transactions.
When no message of the flow is handled while another transaction of the flow is
half handled, the lists of a record are of one transaction.
-/

namespace RadiusEventHandler

namespace Process

/-- The accepted messages of a flow, in the order of their arrival. -/
def acceptedOn (s : Process) (key : FlowKey) : List RadiusRawMsgPtr :=
  s.accepted.filter fun p => p.msg.key = key

/-- The handled messages of a flow, in the order of their handling. -/
def takenOn (s : Process) (key : FlowKey) : List DecodedMsg :=
  s.shared.taken.filter fun msg => msg.flowKey = key

/-- The messages of the flow are a request, its response, the next request,
its response, and so on. -/
def Alternates (s : Process) (key : FlowKey) : Prop :=
  ∀ i p, (s.acceptedOn key)[i]? = some p →
    p.radMsgCode = if i % 2 = 0 then accountingRequest else accountingResponse

/-- Which transaction of the flow the message with this number is of. -/
def transactionOf (s : Process) (key : FlowKey) (id : ℕ) : ℕ :=
  ((s.acceptedOn key).map RadiusRawMsgPtr.id).idxOf id / 2

/-- The handled messages of the flow whose transactions are half handled: the
other message of the transaction has not been handled. -/
def halfHandled (s : Process) (key : FlowKey) : List DecodedMsg :=
  (s.takenOn key).filter fun msg => ∀ e ∈ s.takenOn key,
    s.transactionOf key e.id = s.transactionOf key msg.id → e.id = msg.id

/-- What the worker handles next. -/
def nextOf (s : Process) (w : ℕ) : Option DecodedMsg := do
  let q ← s.dispatcher.workersInputQueues[w]?
  let p ← q.items.head?
  p.decoded?

/-- No message of the flow is handled while another transaction of the flow is
half handled. -/
def KeepsApart (key : FlowKey) (s : Process) (a : ProcessAction) : Prop :=
  match a with
  | .work w => ∀ msg ∈ s.nextOf w, msg.flowKey = key → ∀ e ∈ s.halfHandled key,
      s.transactionOf key e.id = s.transactionOf key msg.id
  | _ => True

/-- The handled messages of the flow, taken two by two, are of one transaction. -/
def TwoByTwo (s : Process) (key : FlowKey) : Prop :=
  ∀ j m n, (s.takenOn key)[2 * j]? = some m → (s.takenOn key)[2 * j + 1]? = some n →
    s.transactionOf key m.id = s.transactionOf key n.id

variable {s s' : Process} {a : ProcessAction} {acts : List ProcessAction} {key : FlowKey}
  {localEndpoint : Endpoint} {workersNumber workerQueueCapacity thriftQueueCapacity : ℕ}

theorem alternates_iff : s.Alternates key ↔ ∀ i : Fin (s.acceptedOn key).length,
    (s.acceptedOn key)[i].radMsgCode =
      if i.val % 2 = 0 then accountingRequest else accountingResponse := by
  constructor
  · intro alternates i
    exact alternates i _ (List.getElem?_eq_getElem i.isLt)
  · intro each i p place
    obtain ⟨inside, rfl⟩ := List.getElem?_eq_some_iff.mp place
    exact each ⟨i, inside⟩

instance : Decidable (s.Alternates key) := decidable_of_iff _ alternates_iff.symm

instance : Decidable (s.KeepsApart key a) :=
  match a with
  | .work w => inferInstanceAs (Decidable (∀ msg ∈ s.nextOf w, msg.flowKey = key →
      ∀ e ∈ s.halfHandled key, s.transactionOf key e.id = s.transactionOf key msg.id))
  | .receive _ => .isTrue trivial
  | .receiveError => .isTrue trivial
  | .env _ => .isTrue trivial

/-! ## Numbers -/

theorem decoded?_eq_some {p : RadiusRawMsgPtr} {msg : DecodedMsg} (h : p.decoded? = some msg) :
    msg.id = p.id ∧ msg.flowKey = p.msg.key ∧ msg.radMsgCode = p.radMsgCode := by
  unfold RadiusRawMsgPtr.decoded? at h
  split at h
  · cases h
    exact ⟨rfl, rfl, rfl⟩
  · cases h

theorem Inv.accepted_nodup (inv : s.Inv) : (s.accepted.map RadiusRawMsgPtr.id).Nodup := by
  rw [inv.ids]
  exact List.nodup_range

theorem Inv.acceptedOn_nodup (inv : s.Inv) (key : FlowKey) :
    ((s.acceptedOn key).map RadiusRawMsgPtr.id).Nodup :=
  inv.accepted_nodup.sublist (List.filter_sublist.map _)

theorem getElem?_inj_of_nodup {α : Type} {f : α → ℕ} {l : List α} {i j : ℕ} {x y : α}
    (nodup : (l.map f).Nodup) (at_i : l[i]? = some x) (at_j : l[j]? = some y)
    (same : f x = f y) : i = j := by
  have inside : i < (l.map f).length := by
    rw [List.length_map]
    exact (List.getElem?_eq_some_iff.mp at_i).1
  have mapped : (l.map f)[i]? = (l.map f)[j]? := by
    rw [List.getElem?_map, List.getElem?_map, at_i, at_j, Option.map_some, Option.map_some, same]
  exact (List.getElem?_inj inside nodup).mp mapped

theorem Inv.popped_nodup (inv : s.Inv) :
    ((BoundedQueue.contents s.dispatcher.workersInputQueues ++ s.popped).map
      RadiusRawMsgPtr.id).Nodup :=
  (inv.located.map _).nodup_iff.mp inv.accepted_nodup

/-- A handled message was popped. -/
theorem Inv.exists_popped (inv : s.Inv) {msg : DecodedMsg} (mem : msg ∈ s.shared.taken) :
    ∃ p ∈ s.popped, p.decoded? = some msg := by
  rw [inv.taken] at mem
  exact List.mem_filterMap.mp mem

theorem Inv.taken_nodup (inv : s.Inv) : (s.shared.taken.map DecodedMsg.id).Nodup := by
  have popped : (s.popped.map RadiusRawMsgPtr.id).Nodup := by
    have := inv.popped_nodup
    rw [List.map_append] at this
    exact (List.nodup_append.mp this).2.1
  rw [inv.taken, List.Nodup, List.pairwise_map, List.pairwise_filterMap]
  refine (List.pairwise_map.mp popped).imp fun {p e} differ m decoded m' decoded' same => differ ?_
  rw [← (decoded?_eq_some decoded).1, ← (decoded?_eq_some decoded').1, same]

theorem mem_acceptedOn {p : RadiusRawMsgPtr} (mem : p ∈ s.accepted) (flow : p.msg.key = key) :
    ∃ i : ℕ, (s.acceptedOn key)[i]? = some p :=
  List.mem_iff_getElem?.mp (List.mem_filter.mpr ⟨mem, by simpa using flow⟩)

theorem mem_takenOn {msg : DecodedMsg} :
    msg ∈ s.takenOn key ↔ msg ∈ s.shared.taken ∧ msg.flowKey = key := by
  simp [takenOn]

/-- Where a handled message of the flow was accepted. -/
theorem Inv.exists_accepted (inv : s.Inv) {msg : DecodedMsg} (mem : msg ∈ s.takenOn key) :
    ∃ (i : ℕ) (p : RadiusRawMsgPtr), (s.acceptedOn key)[i]? = some p ∧
      p.decoded? = some msg := by
  obtain ⟨taken, flow⟩ := mem_takenOn.mp mem
  obtain ⟨p, popped, decoded⟩ := inv.exists_popped taken
  have accepted : p ∈ s.accepted := inv.located.mem_iff.mpr (List.mem_append_right _ popped)
  obtain ⟨i, place⟩ := mem_acceptedOn accepted ((decoded?_eq_some decoded).2.1.symm.trans flow)
  exact ⟨i, p, place, decoded⟩

theorem Inv.takenOn_nodup (inv : s.Inv) (key : FlowKey) :
    ((s.takenOn key).map DecodedMsg.id).Nodup :=
  inv.taken_nodup.sublist (List.filter_sublist.map _)

/-- A message is handled once. -/
theorem takenOn_position (inv : s.Inv) {i j : ℕ} {m n : DecodedMsg}
    (at_i : (s.takenOn key)[i]? = some m) (at_j : (s.takenOn key)[j]? = some n)
    (same : m.id = n.id) : i = j :=
  getElem?_inj_of_nodup (inv.takenOn_nodup key) at_i at_j same

/-! ## Transactions -/

theorem Inv.transactionOf_eq (inv : s.Inv) {i : ℕ} {p : RadiusRawMsgPtr}
    (place : (s.acceptedOn key)[i]? = some p) : s.transactionOf key p.id = i / 2 := by
  obtain ⟨inside, rfl⟩ := List.getElem?_eq_some_iff.mp place
  have index := (inv.acceptedOn_nodup key).idxOf_getElem i (by rwa [List.length_map])
  rw [List.getElem_map] at index
  rw [transactionOf, index]

/-- A transaction has two messages. -/
theorem Inv.two_of_transaction (inv : s.Inv) {i j k : ℕ} {l m n : DecodedMsg}
    (at_i : (s.takenOn key)[i]? = some l) (at_j : (s.takenOn key)[j]? = some m)
    (at_k : (s.takenOn key)[k]? = some n)
    (first : s.transactionOf key l.id = s.transactionOf key m.id)
    (second : s.transactionOf key m.id = s.transactionOf key n.id) : i = j ∨ j = k ∨ i = k := by
  obtain ⟨x, p, at_x, decodedp⟩ := inv.exists_accepted (List.mem_of_getElem? at_i)
  obtain ⟨y, q, at_y, decodedq⟩ := inv.exists_accepted (List.mem_of_getElem? at_j)
  obtain ⟨z, e, at_z, decodede⟩ := inv.exists_accepted (List.mem_of_getElem? at_k)
  have idp := (decoded?_eq_some decodedp).1
  have idq := (decoded?_eq_some decodedq).1
  have ide := (decoded?_eq_some decodede).1
  rw [idp, idq, inv.transactionOf_eq at_x, inv.transactionOf_eq at_y] at first
  rw [idq, ide, inv.transactionOf_eq at_y, inv.transactionOf_eq at_z] at second
  have among : x = y ∨ y = z ∨ x = z := by omega
  rcases among with rfl | rfl | rfl
  · obtain rfl : p = q := Option.some.inj (at_x.symm.trans at_y)
    exact .inl (takenOn_position inv at_i at_j (idp.trans idq.symm))
  · obtain rfl : q = e := Option.some.inj (at_y.symm.trans at_z)
    exact .inr (.inl (takenOn_position inv at_j at_k (idq.trans ide.symm)))
  · obtain rfl : p = e := Option.some.inj (at_x.symm.trans at_z)
    exact .inr (.inr (takenOn_position inv at_i at_k (idp.trans ide.symm)))

/-- When the number of handled messages is odd, the transaction of the last one
is half handled: the others have their places two by two. -/
theorem TwoByTwo.last_half (pairs : s.TwoByTwo key) (inv : s.Inv) {j : ℕ} {msg : DecodedMsg}
    (odd : (s.takenOn key).length = 2 * j + 1) (last : (s.takenOn key)[2 * j]? = some msg) :
    msg ∈ s.halfHandled key := by
  refine List.mem_filter.mpr ⟨List.mem_of_getElem? last, decide_eq_true fun e mem same => ?_⟩
  obtain ⟨k, at_k⟩ := List.mem_iff_getElem?.mp mem
  have inside := (List.getElem?_eq_some_iff.mp at_k).1
  by_contra other
  have before : k ≠ 2 * j := by
    rintro rfl
    rw [at_k, Option.some.injEq] at last
    exact other (last ▸ rfl)
  obtain ⟨m, at_m⟩ : ∃ m, (s.takenOn key)[2 * (k / 2)]? = some m :=
    ⟨_, List.getElem?_eq_getElem (by omega)⟩
  obtain ⟨n, at_n⟩ : ∃ n, (s.takenOn key)[2 * (k / 2) + 1]? = some n :=
    ⟨_, List.getElem?_eq_getElem (by omega)⟩
  have pair := pairs (k / 2) m n at_m at_n
  have here : k = 2 * (k / 2) ∨ k = 2 * (k / 2) + 1 := by omega
  rcases here with eq | eq
  · rw [eq, at_m, Option.some.injEq] at at_k
    subst at_k
    have := inv.two_of_transaction at_n at_m last pair.symm same
    omega
  · rw [eq, at_n, Option.some.injEq] at at_k
    subst at_k
    have := inv.two_of_transaction at_m at_n last pair same
    omega

/-! ## Along a run -/

theorem twoByTwo_init : (init localEndpoint workersNumber workerQueueCapacity
    thriftQueueCapacity).TwoByTwo key := by
  intro j m n at_m
  simp [takenOn, init, Shared.init] at at_m

/-- Steps that handle no message of the flow. -/
theorem TwoByTwo.congr (pairs : s.TwoByTwo key) (inv : s.Inv)
    (taken : s'.takenOn key = s.takenOn key) (accepted : s.acceptedOn key <+: s'.acceptedOn key) :
    s'.TwoByTwo key := by
  obtain ⟨later, split⟩ := accepted
  have still : ∀ {i : ℕ} {msg : DecodedMsg}, (s.takenOn key)[i]? = some msg →
      s'.transactionOf key msg.id = s.transactionOf key msg.id := by
    intro i msg at_i
    obtain ⟨x, p, at_x, decoded⟩ := inv.exists_accepted (List.mem_of_getElem? at_i)
    have mem : msg.id ∈ (s.acceptedOn key).map RadiusRawMsgPtr.id :=
      List.mem_map.mpr ⟨p, List.mem_of_getElem? at_x, (decoded?_eq_some decoded).1.symm⟩
    rw [transactionOf, transactionOf, ← split, List.map_append, List.idxOf_append_of_mem mem]
  intro j m n at_m at_n
  rw [taken] at at_m at_n
  rw [still at_m, still at_n]
  exact pairs j m n at_m at_n

/-- A message of the flow is handled. -/
theorem TwoByTwo.concat {msg : DecodedMsg} (pairs : s.TwoByTwo key) (inv : s.Inv)
    (grown : s'.takenOn key = s.takenOn key ++ [msg]) (same : s'.acceptedOn key = s.acceptedOn key)
    (apart : ∀ e ∈ s.halfHandled key, s.transactionOf key e.id = s.transactionOf key msg.id) :
    s'.TwoByTwo key := by
  intro j m n at_m at_n
  rw [transactionOf, transactionOf, same]
  rw [grown] at at_m at_n
  have inside := (List.getElem?_eq_some_iff.mp at_n).1
  rw [List.length_append, List.length_singleton] at inside
  rw [List.getElem?_append_left (by omega)] at at_m
  rcases Nat.lt_or_ge (2 * j + 1) (s.takenOn key).length with before | last
  · rw [List.getElem?_append_left before] at at_n
    exact pairs j m n at_m at_n
  · have odd : (s.takenOn key).length = 2 * j + 1 := by omega
    rw [← odd, List.getElem?_concat_length, Option.some.injEq] at at_n
    subst at_n
    exact apart m (pairs.last_half inv odd at_m)

theorem TwoByTwo.step (pairs : s.TwoByTwo key) (inv : s.Inv) (fine : s.Uneventful a)
    (apart : s.KeepsApart key a) (step : s.step a = some s') : s'.TwoByTwo key := by
  rcases step_cases step with ⟨datagram, rfl, receive⟩ | ⟨rfl, rfl⟩ | ⟨w, rfl, work⟩ |
    ⟨e, shared, rfl, env, rfl⟩
  · rcases receive_cases inv.new fine.workers receive with ⟨-, rfl⟩ |
      ⟨p, dispatcher, i, q, q', -, -, -, -, -, -, rfl⟩
    · exact pairs
    · refine pairs.congr inv rfl ?_
      rw [acceptedOn, acceptedOn, List.filter_append]
      exact List.prefix_append _ _
  · exact pairs
  · obtain ⟨q, p, q', turn, pop, -, -, accepted, -, -, handled⟩ := work_cases work
    have items := (BoundedQueue.tryPop_eq_some.mp pop).2
    have same : s'.acceptedOn key = s.acceptedOn key := by rw [acceptedOn, accepted, acceptedOn]
    rcases handled with ⟨-, shared⟩ | ⟨msg, decoded, handles⟩
    · refine pairs.congr inv ?_ (by rw [same])
      rw [takenOn, shared, takenOn]
    · have taken := (Shared.handleRadiusMessage_frame handles).1
      by_cases flow : msg.flowKey = key
      · have grown : s'.takenOn key = s.takenOn key ++ [msg] := by
          rw [takenOn, taken, List.filter_append, takenOn]
          simp [flow]
        have next : msg ∈ s.nextOf w := by simp [nextOf, turn, items, decoded]
        exact pairs.concat inv grown same (apart msg next flow)
      · refine pairs.congr inv ?_ (by rw [same])
        rw [takenOn, taken, List.filter_append, takenOn]
        simp [flow]
  · refine pairs.congr inv ?_ (List.prefix_refl _)
    rw [takenOn, takenOn, (Shared.envStep_frame env).1]

/-! ## Records with two lists -/

/-- The lists of a record that was pushed with both are those of the handled
messages number 2j and 2j + 1 of one key. -/
theorem Inv.pushed_pair (inv : s.Inv) {r : RecordId} {a b : AvpListPtr}
    (pushed : r ∈ s.shared.pushed)
    (request : (s.shared.thriftStructs r).reqAvpListPtr = some a)
    (response : (s.shared.thriftStructs r).respAvpListPtr = some b) :
    ∃ key j m n, (s.takenOn key)[2 * j]? = some m ∧ (s.takenOn key)[2 * j + 1]? = some n ∧
      ((m.avpListPtr = a ∧ n.avpListPtr = b) ∨ (m.avpListPtr = b ∧ n.avpListPtr = a)) := by
  have view : (some a, some b) ∈ s.shared.pushedView := by
    refine List.mem_map.mpr ⟨r, pushed, ?_⟩
    rw [ThriftStruct.lists, request, response]
  rw [inv.refines.pushed] at view
  obtain ⟨e, emitted, lists⟩ := List.mem_map.mp view
  obtain ⟨key, rfl⟩ : ∃ key, e = .pair key a b := by
    cases e with
    | pair key x y =>
        simp only [emissionLists, Prod.mk.injEq, Option.some.injEq] at lists
        exact ⟨key, by rw [lists.1, lists.2]⟩
    | lone key side x => cases side <;> simp [emissionLists, halfLists] at lists
  have halves : Pairing.halves key (s.shared.taken.map DecodedMsg.item) =
      (s.takenOn key).map fun msg => msg.item.half := by
    rw [Pairing.halves, List.filter_map, List.map_map, takenOn]
    rfl
  obtain ⟨j, x, y, left, right, sides⟩ := Pairing.exists_of_pair_mem emitted
  rw [halves, List.getElem?_map, Option.map_eq_some_iff] at left right
  obtain ⟨m, at_m, rfl⟩ := left
  obtain ⟨n, at_n, rfl⟩ := right
  refine ⟨key, j, m, n, at_m, at_n, ?_⟩
  rcases sides with ⟨hm, hn⟩ | ⟨hm, hn⟩
  · exact .inl ⟨congrArg Prod.snd hm, congrArg Prod.snd hn⟩
  · exact .inr ⟨congrArg Prod.snd hm, congrArg Prod.snd hn⟩

/-- A list that a record of the flow holds is that of an accepted message of
the flow with the list's code. -/
theorem Inv.list_accepted (inv : s.Inv) {r : RecordId} {code : UInt16} {a : AvpListPtr}
    (from_ : s.shared.DecodedFrom code r a) (stored : s.shared.StoredUnder r key) :
    ∃ (i : ℕ) (p : RadiusRawMsgPtr), (s.acceptedOn key)[i]? = some p ∧ p.radMsgCode = code ∧
      p.decoded?.map DecodedMsg.avpListPtr = some a := by
  obtain ⟨msg, mem, ptr, code, keys⟩ := from_
  obtain ⟨i, p, place, decoded⟩ := inv.exists_accepted (mem_takenOn.mpr ⟨mem, keys key stored⟩)
  exact ⟨i, p, place, (decoded?_eq_some decoded).2.2.symm.trans code, by rw [decoded]; simp [ptr]⟩

/-- The list of an accepted message of the flow is that of no other message. -/
theorem Inv.handled_of_list (inv : s.Inv) {i : ℕ} {p : RadiusRawMsgPtr} {a : AvpListPtr}
    {msg : DecodedMsg} (place : (s.acceptedOn key)[i]? = some p)
    (list : p.decoded?.map DecodedMsg.avpListPtr = some a) (taken : msg ∈ s.shared.taken)
    (ptr : msg.avpListPtr = a) : p.id = msg.id ∧ msg.flowKey = key := by
  obtain ⟨mem, flow⟩ := List.mem_filter.mp (List.mem_of_getElem? place)
  obtain ⟨m, decoded, ptr'⟩ := Option.map_eq_some_iff.mp list
  obtain ⟨e, popped, decoded'⟩ := inv.exists_popped taken
  have accepted : e ∈ s.accepted := inv.located.mem_iff.mpr (List.mem_append_right _ popped)
  have ids : e.id = p.id := by
    rw [← (decoded?_eq_some decoded').1, ← (decoded?_eq_some decoded).1]
    exact congrArg AvpListPtr.msgId (ptr.trans ptr'.symm)
  obtain rfl : e = p := List.inj_on_of_nodup_map inv.accepted_nodup accepted mem ids
  rw [(decoded?_eq_some decoded').1, (decoded?_eq_some decoded').2.1]
  exact ⟨rfl, by simpa using flow⟩

/-- The transaction of the message whose list a handled message brought. -/
theorem Inv.transaction_of_list (inv : s.Inv) {i n : ℕ} {p : RadiusRawMsgPtr} {a : AvpListPtr}
    {msg : DecodedMsg} (place : (s.acceptedOn key)[i]? = some p)
    (list : p.decoded?.map DecodedMsg.avpListPtr = some a)
    (at_n : (s.takenOn key)[n]? = some msg) (ptr : msg.avpListPtr = a) :
    s.transactionOf key msg.id = i / 2 := by
  have taken := (mem_takenOn.mp (List.mem_of_getElem? at_n)).1
  rw [← (inv.handled_of_list place list taken ptr).1]
  exact inv.transactionOf_eq place

/-- The position parity of an alternating flow. -/
theorem Alternates.even {i : ℕ} {p : RadiusRawMsgPtr} (alternates : s.Alternates key)
    (place : (s.acceptedOn key)[i]? = some p) (code : p.radMsgCode = accountingRequest) :
    i % 2 = 0 := by
  have := alternates i p place
  by_contra odd
  rw [if_neg odd, code] at this
  exact absurd this (by decide)

theorem Alternates.odd {i : ℕ} {p : RadiusRawMsgPtr} (alternates : s.Alternates key)
    (place : (s.acceptedOn key)[i]? = some p) (code : p.radMsgCode = accountingResponse) :
    i % 2 = 1 := by
  have := alternates i p place
  by_contra even
  rw [if_pos (by omega), code] at this
  exact absurd this (by decide)

/-- **Transactions of one flow.** A record of the flow with two lists holds
those of a request and of a response of the flow; when no message is handled
while another transaction is half handled, both are of one transaction. -/
theorem flow_transactions
    (run : Runs.run step (init localEndpoint workersNumber workerQueueCapacity
      thriftQueueCapacity) acts = some s)
    (uneventful : Runs.Along step Uneventful (init localEndpoint workersNumber
      workerQueueCapacity thriftQueueCapacity) acts)
    (alternates : s.Alternates key) {r : RecordId} {a b : AvpListPtr}
    (pushed : r ∈ s.shared.pushed) (stored : s.shared.StoredUnder r key)
    (request : (s.shared.thriftStructs r).reqAvpListPtr = some a)
    (response : (s.shared.thriftStructs r).respAvpListPtr = some b) :
    ∃ i k q p, (s.acceptedOn key)[2 * i]? = some q ∧ (s.acceptedOn key)[2 * k + 1]? = some p ∧
      q.decoded?.map DecodedMsg.avpListPtr = some a ∧
      p.decoded?.map DecodedMsg.avpListPtr = some b ∧
      (Runs.Along step (KeepsApart key) (init localEndpoint workersNumber
        workerQueueCapacity thriftQueueCapacity) acts → i = k) := by
  have inv := inv_of_uneventful run uneventful
  obtain ⟨i, q, at_q, codeq, decodedq⟩ :=
    inv.list_accepted (inv.shared.request r a request) stored
  obtain ⟨k, p, at_p, codep, decodedp⟩ :=
    inv.list_accepted (inv.shared.response r b response) stored
  have even := alternates.even at_q codeq
  have odd := alternates.odd at_p codep
  refine ⟨i / 2, k / 2, q, p, by rwa [show 2 * (i / 2) = i by omega],
    by rwa [show 2 * (k / 2) + 1 = k by omega], decodedq, decodedp, fun apart => ?_⟩
  have pairs : s.TwoByTwo key := by
    have both : s.Inv ∧ s.TwoByTwo key :=
      Runs.invariant_along (I := fun s => s.Inv ∧ s.TwoByTwo key)
        (P := fun s a => s.Uneventful a ∧ s.KeepsApart key a) ⟨inv_init, twoByTwo_init⟩
        (fun _ _ _ inv fine step =>
          ⟨inv.1.step fine.1 step, inv.2.step inv.1 fine.1 fine.2 step⟩)
        (fun pre a post split t before =>
          ⟨uneventful pre a post split t before, apart pre a post split t before⟩) run
    exact both.2
  obtain ⟨key', j, m, n, at_m, at_n, lists⟩ := inv.pushed_pair pushed request response
  have taken_m := mem_takenOn.mp (List.mem_of_getElem? at_m)
  have flow : key' = key := by
    rw [← taken_m.2]
    rcases lists with ⟨ptr, -⟩ | ⟨ptr, -⟩
    · exact (inv.handled_of_list at_q decodedq taken_m.1 ptr).2
    · exact (inv.handled_of_list at_p decodedp taken_m.1 ptr).2
  subst flow
  have pair := pairs j m n at_m at_n
  rcases lists with ⟨ptrm, ptrn⟩ | ⟨ptrm, ptrn⟩
  · rwa [inv.transaction_of_list at_q decodedq at_m ptrm,
      inv.transaction_of_list at_p decodedp at_n ptrn] at pair
  · rw [inv.transaction_of_list at_p decodedp at_m ptrm,
      inv.transaction_of_list at_q decodedq at_n ptrn] at pair
    exact pair.symm

/-- A request (code 4) or a response (code 5) of the flow from `radiusClient`
with the identifier 0x67, its one AVP of the given value. -/
def reusedIdentifier (code value : UInt8) : ProcessAction :=
  .receive ([code, 0x67, 0, 23] ++ List.replicate 16 0 ++ [1, 3, value], radiusClient)

def reusedKey : FlowKey :=
  (setFlowKey (.received [4, 0x67]) radiusClient radiusMonitor).key

/-- Two transactions; the second one is handled first, its response before its
request, and then the first one. -/
def apartRun : List ProcessAction :=
  [reusedIdentifier 4 1, reusedIdentifier 5 2, reusedIdentifier 4 3, reusedIdentifier 5 4,
    .work 3, .work 2, .work 0, .work 1]

theorem flow_transactions_apart :
    ∃ s, Runs.run step (createModules radiusMonitor) apartRun = some s ∧
      s.shared.pushed = [0, 1] ∧
      (s.shared.thriftStructs 0).lists = (some ⟨2, [⟨1, [3]⟩]⟩, some ⟨3, [⟨1, [4]⟩]⟩) ∧
      ∃ i k q p, (s.acceptedOn reusedKey)[2 * i]? = some q ∧
        (s.acceptedOn reusedKey)[2 * k + 1]? = some p ∧
        q.decoded?.map DecodedMsg.avpListPtr = some ⟨2, [⟨1, [3]⟩]⟩ ∧
        p.decoded?.map DecodedMsg.avpListPtr = some ⟨3, [⟨1, [4]⟩]⟩ ∧ i = k := by
  have facts : (Runs.run step (createModules radiusMonitor) apartRun).map (fun s =>
      decide (s.shared.pushed = [0, 1] ∧ s.Alternates reusedKey ∧
        s.shared.StoredUnder 0 reusedKey ∧
        (s.shared.thriftStructs 0).lists = (some ⟨2, [⟨1, [3]⟩]⟩, some ⟨3, [⟨1, [4]⟩]⟩))) =
      some true := by
    decide +kernel
  obtain ⟨s, run, facts⟩ := Option.map_eq_some_iff.mp facts
  obtain ⟨pushed, alternates, stored, lists⟩ := of_decide_eq_true facts
  obtain ⟨request, response⟩ := Prod.mk.inj lists
  have uneventful : Runs.Along step Uneventful (createModules radiusMonitor) apartRun := by
    decide +kernel
  have apart : Runs.Along step (KeepsApart reusedKey) (createModules radiusMonitor) apartRun := by
    decide +kernel
  obtain ⟨i, k, q, p, at_q, at_p, listq, listp, same⟩ :=
    flow_transactions run uneventful alternates (by rw [pushed]; decide) stored request response
  exact ⟨s, run, pushed, lists, i, k, q, p, at_q, at_p, listq, listp, same apart⟩

/-- The second worker and the third are faster than the first: record 0 leaves
with the request of the second transaction and the response of the first. -/
theorem transactions_mixed :
    let acts := [reusedIdentifier 4 1, reusedIdentifier 5 2, reusedIdentifier 4 3,
      reusedIdentifier 5 4, .work 1, .work 2]
    Runs.Along step Uneventful (createModules radiusMonitor) acts ∧
      ∃ s, Runs.run step (createModules radiusMonitor) acts = some s ∧
        s.Alternates reusedKey ∧ s.shared.pushed = [0] ∧ s.shared.StoredUnder 0 reusedKey ∧
        (s.shared.thriftStructs 0).lists = (some ⟨2, [⟨1, [3]⟩]⟩, some ⟨1, [⟨1, [2]⟩]⟩) ∧
        ¬ ∃ i q p, (s.acceptedOn reusedKey)[2 * i]? = some q ∧
          (s.acceptedOn reusedKey)[2 * i + 1]? = some p ∧
          (s.shared.thriftStructs 0).lists =
            (q.decoded?.map DecodedMsg.avpListPtr, p.decoded?.map DecodedMsg.avpListPtr) := by
  intro acts
  have facts : (Runs.run step (createModules radiusMonitor) acts).map (fun s =>
      decide (s.Alternates reusedKey ∧ s.shared.pushed = [0] ∧
        s.shared.StoredUnder 0 reusedKey ∧
        (s.shared.thriftStructs 0).lists = (some ⟨2, [⟨1, [3]⟩]⟩, some ⟨1, [⟨1, [2]⟩]⟩) ∧
        (s.acceptedOn reusedKey).length = 4 ∧
        ∀ i < 2, (s.shared.thriftStructs 0).lists ≠
          ((s.acceptedOn reusedKey)[2 * i]?.bind fun q => q.decoded?.map DecodedMsg.avpListPtr,
            (s.acceptedOn reusedKey)[2 * i + 1]?.bind fun p =>
              p.decoded?.map DecodedMsg.avpListPtr))) = some true := by
    decide +kernel
  obtain ⟨s, run, facts⟩ := Option.map_eq_some_iff.mp facts
  obtain ⟨alternates, pushed, stored, lists, length, differ⟩ := of_decide_eq_true facts
  refine ⟨by decide +kernel, s, run, alternates, pushed, stored, lists, ?_⟩
  rintro ⟨i, q, p, at_q, at_p, same⟩
  have inside := (List.getElem?_eq_some_iff.mp at_p).1
  apply differ i (by omega)
  rw [at_q, at_p]
  exact same

end Process

end RadiusEventHandler
