import RadiusEventHandler.Framework.Pairing
import RadiusEventHandler.WorkerInvariant

/-!
# Matching requests with responses

What the hash table and the output queue look like from outside: the lists
under every key and the lists of every pushed record. Seen so, handling a
message is one `feed` of the pairing table (`Refines`): requests are its left
side, responses its right side, and the branch for logical errors is the
lone emission. From this follows that the order in which messages are handled
does not matter as long as no key has two messages of one code.
-/

namespace RadiusEventHandler

/-! ## Views -/

/-- The request list and the response list of a record. -/
abbrev Lists := Option AvpListPtr × Option AvpListPtr

namespace Shared

/-- The table as a map from keys to lists; a null pointer has no lists. -/
def tableView (s : Shared) (key : FlowKey) : Option Lists :=
  (s.hashTable key).map fun p =>
    match p with
    | some r => (s.thriftStructs r).lists
    | none => (none, none)

def pushedView (s : Shared) : List Lists := s.pushed.map fun r => (s.thriftStructs r).lists

end Shared

def DecodedMsg.request (id : ℕ) (flowKey : FlowKey) (avpList : AvpList) : DecodedMsg :=
  ⟨id, flowKey, accountingRequest, avpList, .inl rfl⟩

def DecodedMsg.response (id : ℕ) (flowKey : FlowKey) (avpList : AvpList) : DecodedMsg :=
  ⟨id, flowKey, accountingResponse, avpList, .inr rfl⟩

/-- A request is on the left side, a response on the right side. -/
def DecodedMsg.side (msg : DecodedMsg) : Pairing.Side :=
  if msg.radMsgCode = accountingRequest then .left else .right

def DecodedMsg.item (msg : DecodedMsg) : Pairing.Item FlowKey AvpListPtr :=
  ⟨msg.flowKey, msg.side, msg.avpListPtr⟩

/-- The lists of a record that waits for its mate. -/
def halfLists : Pairing.Side × AvpListPtr → Lists
  | (.left, a) => (some a, none)
  | (.right, b) => (none, some b)

/-- The lists of a record that has been pushed. -/
def emissionLists : Pairing.Emission FlowKey AvpListPtr → Lists
  | .pair _ a b => (some a, some b)
  | .lone _ side a => halfLists (side, a)

namespace Shared

/-- **Refinement.** The table and the pushed records are those of a pairing
table. -/
structure Refines (s : Shared) (t : Pairing.Table FlowKey AvpListPtr) : Prop where
  table : ∀ key, s.tableView key = (t.slots key).map halfLists
  pushed : s.pushedView = t.emitted.map emissionLists

theorem refines_init (capacity : ℕ) : (init capacity).Refines .empty := ⟨fun _ => rfl, rfl⟩

variable {s s' : Shared} {t : Pairing.Table FlowKey AvpListPtr} {msg : DecodedMsg}
  {held : ℕ → Option (DecodedMsg × RecordId)} {r : RecordId} {key : FlowKey}

/-! ## The branches on lists -/

theorem fresh_lists (msg : DecodedMsg) : (fresh msg).lists = halfLists msg.item.half := by
  unfold fresh DecodedMsg.item DecodedMsg.side Pairing.Item.half
  split <;> rfl

/-- Merging joins the half in the record with the newcomer. -/
theorem merge_lists (msg : DecodedMsg) (r : RecordId) {thrift : ThriftStruct}
    {h : Pairing.Side × AvpListPtr} (lists : thrift.lists = halfLists h) :
    (merge msg r thrift).1.lists =
      emissionLists (Pairing.join msg.flowKey h msg.item.half) := by
  obtain ⟨req, resp⟩ := Prod.ext_iff.mp lists
  simp only [ThriftStruct.lists] at req resp
  obtain ⟨_ | _, a⟩ := h <;> rcases msg.accounting with code | code <;>
    simp_all [merge, halfLists, Pairing.join, Pairing.Item.half, DecodedMsg.item,
      DecodedMsg.side, emissionLists, ThriftStruct.lists, ThriftStruct.setReqAvpListPtr,
      ThriftStruct.setRespAvpListPtr]

/-- What a record in a worker's hands looks like. -/
theorem HeldFor.lists (mine : s.HeldFor msg r) :
    (s.thriftStructs r).lists = halfLists msg.item.half := by
  have one := mine.oneList
  have request := mine.request
  have response := mine.response
  unfold ThriftStruct.HasOneList at one
  cases req : (s.thriftStructs r).reqAvpListPtr <;>
    cases resp : (s.thriftStructs r).respAvpListPtr <;>
    simp_all [ThriftStruct.lists, halfLists, Pairing.Item.half, DecodedMsg.item, DecodedMsg.side]

/-! ## The refinement, branch by branch -/

theorem tableView_entry (found : s.hashTable key = some (some r)) :
    s.tableView key = some (s.thriftStructs r).lists := by
  simp [tableView, found]

/-- A slot is taken exactly when there is an entry. -/
theorem Refines.slot_of_entry (ref : s.Refines t) (found : s.hashTable key = some (some r)) :
    ∃ h, t.slots key = some h ∧ (s.thriftStructs r).lists = halfLists h := by
  have view := ref.table key
  rw [tableView_entry found] at view
  obtain ⟨h, slot, lists⟩ := Option.map_eq_some_iff.mp view.symm
  exact ⟨h, slot, lists.symm⟩

theorem Refines.slot_of_absent (ref : s.Refines t) (absent : s.hashTable key = none) :
    t.slots key = none := by
  have view := ref.table key
  rw [tableView, absent] at view
  exact Option.map_eq_none_iff.mp view.symm

/-- Steps that leave the table, the pushed records and all their lists. -/
theorem Refines.congr {u : Shared} (ref : s.Refines t) (inv : s.Inv held)
    (lists : ∀ r, r < s.allocated → (u.thriftStructs r).lists = (s.thriftStructs r).lists)
    (hashTable : u.hashTable = s.hashTable) (pushed : u.pushed = s.pushed) :
    u.Refines t := by
  constructor
  · intro key
    rw [← ref.table key, tableView, tableView, hashTable]
    cases entry : s.hashTable key with
    | none => rfl
    | some p =>
        obtain ⟨r, rfl, stored, -⟩ := inv.entry key p entry
        simp [lists r (inv.stored_lt r key stored)]
  · rw [← ref.pushed, pushedView, pushedView, pushed]
    apply List.map_congr_left
    intro r mem
    obtain ⟨key, stored⟩ := (inv.pushed r mem).1.stored
    exact lists r (inv.stored_lt r key stored)

/-- A record that is not in the table yet does not show. -/
theorem Refines.create (ref : s.Refines t) (inv : s.Inv held) (msg : DecodedMsg) :
    (s.create msg).Refines t := by
  refine ref.congr (u := s.create msg) inv (fun r lt => ?_) rfl rfl
  rw [create_eq]
  simp [Nat.ne_of_lt lt]

theorem Refines.hit (ref : s.Refines t) (inv : s.Inv held)
    (found : s.hashTable msg.flowKey = some (some r)) (room : ¬ s.outputQueue.Full) :
    (s.hit msg r).Refines (Pairing.feed t msg.item) := by
  obtain ⟨h, slot, lists⟩ := ref.slot_of_entry found
  obtain ⟨r₀, eq, stored, -⟩ := inv.entry _ _ found
  cases eq
  have slot' : t.slots msg.item.key = some h := slot
  -- cancelling the timer does not touch the lists
  have joined : (merge msg r ((s.thriftStructs r).onTimer .cancel)).1.lists =
      emissionLists (Pairing.join msg.flowKey h msg.item.half) := merge_lists msg r lists
  rw [Pairing.feed_of_some slot']
  constructor
  · intro key
    simp only [tableView, hit_eq]
    by_cases same : key = msg.flowKey
    · subst same
      simp [DecodedMsg.item]
    · rw [Function.update_of_ne same, Function.update_of_ne (by exact same), ← ref.table key]
      cases entry : s.hashTable key with
      | none => simp [tableView, entry]
      | some p =>
          obtain ⟨r', rfl, stored', -⟩ := inv.entry key p entry
          have other : r' ≠ r := by
            rintro rfl
            exact same (inv.stored_key r' _ _ stored' stored)
          simp [tableView, entry, other]
  · have others : ∀ r' ∈ s.pushed, (s.hit msg r).thriftStructs r' = s.thriftStructs r' := by
      intro r' mem
      rw [hit_eq]
      exact Function.update_of_ne ((inv.pushed r' mem).1.ne found) _ _
    have last : (s.hit msg r).thriftStructs r =
        (merge msg r ((s.thriftStructs r).onTimer .cancel)).1 := by
      rw [hit_eq]
      exact Function.update_self _ _ _
    have grown : (s.hit msg r).pushed = s.pushed ++ [r] := by
      rw [hit_eq]
      exact if_neg room
    rw [pushedView, grown, List.map_append, List.map_append, ← ref.pushed, pushedView,
      List.map_congr_left fun r' mem => congrArg ThriftStruct.lists (others r' mem)]
    simp only [List.map_cons, List.map_nil, last, joined]
    rfl

theorem Refines.store (ref : s.Refines t) (absent : s.hashTable msg.flowKey = none)
    (lists : (s.thriftStructs r).lists = halfLists msg.item.half) :
    (s.store msg r).Refines (Pairing.feed t msg.item) := by
  have slot : t.slots msg.item.key = none := ref.slot_of_absent absent
  rw [Pairing.feed_of_none slot]
  constructor
  · intro key
    simp only [tableView, store_eq]
    by_cases same : key = msg.flowKey
    · subst same
      simp [DecodedMsg.item, lists]
    · rw [Function.update_of_ne same, Function.update_of_ne (by exact same)]
      exact ref.table key
  · rw [← ref.pushed, pushedView, pushedView, store_eq]

/-- **Handling a message is one `feed`.** -/
theorem Refines.handleRadiusMessage (ref : s.Refines t) (inv : s.Inv nobody)
    (room : s.hashTable msg.flowKey ≠ none → ¬ s.outputQueue.Full)
    (step : s.handleRadiusMessage msg = some s') :
    s'.Refines (Pairing.feed t msg.item) := by
  have taken := ref.congr (u := s.take msg) inv (fun _ _ => rfl) rfl rfl
  rcases handleRadiusMessage_cases step with ⟨r, found, rfl⟩ | ⟨absent, rfl⟩
  · exact taken.hit (inv.take msg) found (room (by simp [found]))
  · apply (taken.create (inv.take msg) msg).store absent
    rw [← fresh_lists, create_eq]
    simp [take]

/-! ## Handling messages one after another -/

/-- The messages are handled one after another, each without interruption. -/
def handleAll (s : Shared) (msgs : List DecodedMsg) : Option Shared :=
  msgs.foldlM Shared.handleRadiusMessage s

theorem handleAll_concat (s : Shared) (msgs : List DecodedMsg) (msg : DecodedMsg) :
    s.handleAll (msgs ++ [msg]) =
      (s.handleAll msgs).bind fun t => t.handleRadiusMessage msg := by
  simp [handleAll, List.foldlM_append]

end Shared

/-- The pairing table after some messages. -/
def paired (msgs : List DecodedMsg) : Pairing.Table FlowKey AvpListPtr :=
  Pairing.feedAll (msgs.map DecodedMsg.item)

theorem paired_concat (msgs : List DecodedMsg) (msg : DecodedMsg) :
    paired (msgs ++ [msg]) = Pairing.feed (paired msgs) msg.item := by
  rw [paired, List.map_append]
  exact Pairing.feedAll_concat _ _

namespace Shared

/-- **Sequential handling.** While nothing is taken from the output queue, it
holds what has been pushed; with room for that the messages are handled as the
pairing table says. -/
theorem handleAll_refines {capacity : ℕ} {msgs : List DecodedMsg}
    (room : (paired msgs).emitted.length ≤ capacity) :
    ∃ s, (init capacity).handleAll msgs = some s ∧ s.Inv nobody ∧ s.Refines (paired msgs) ∧
      s.outputQueue.capacity = capacity ∧ s.outputQueue.items.length = s.pushed.length ∧
      s.unmatchedReqsNum = 0 := by
  induction msgs using List.reverseRecOn with
  | nil => exact ⟨_, rfl, inv_init capacity, refines_init capacity, rfl, rfl, rfl⟩
  | append_singleton msgs msg ih =>
      have grows : (paired msgs).emitted.length ≤ (paired (msgs ++ [msg])).emitted.length := by
        rw [paired_concat]
        exact (Pairing.emitted_feed _ _).length_le
      obtain ⟨s, run, inv, ref, cap, items, unmatched⟩ := ih (Nat.le_trans grows room)
      obtain ⟨s', step⟩ := inv.handleRadiusMessage_isSome msg
      have pushedLength : s.pushed.length = (paired msgs).emitted.length := by
        simpa [pushedView] using congrArg List.length ref.pushed
      -- a hit makes one emission more, for which there is room
      have notFull : s.hashTable msg.flowKey ≠ none → ¬ s.outputQueue.Full := by
        intro entry
        obtain ⟨p, found⟩ := Option.ne_none_iff_exists'.mp entry
        obtain ⟨r, rfl, -⟩ := inv.entry _ p found
        obtain ⟨h, slot, -⟩ := ref.slot_of_entry found
        rw [paired_concat, Pairing.feed_of_some (i := msg.item) slot] at room
        simp only [List.length_append, List.length_singleton] at room
        unfold BoundedQueue.Full
        omega
      refine ⟨s', ?_, inv.handleRadiusMessage step, ?_, ?_⟩
      · rw [handleAll_concat, run]
        exact step
      · rw [paired_concat]
        exact ref.handleRadiusMessage inv notFull step
      · rcases handleRadiusMessage_cases step with ⟨r, found, rfl⟩ | ⟨-, rfl⟩
        · have free := notFull (by simp [found])
          obtain ⟨q, push, cap', items'⟩ := BoundedQueue.tryPush_of_not_full (some r) free
          have queue : ((s.take msg).hit msg r).outputQueue = q := by
            rw [hit_eq]
            simp [take, push]
          have pushed : ((s.take msg).hit msg r).pushed = s.pushed ++ [r] := by
            rw [hit_eq]
            exact if_neg free
          refine ⟨by rw [queue, cap', cap], ?_, by rw [hit_eq]; exact unmatched⟩
          rw [queue, items', pushed, List.length_append, List.length_append, items]
          rfl
        · rw [store_eq]
          exact ⟨cap, items, unmatched⟩

end Shared

/-! ## At most one message per key and code -/

/-- The list of the message of a key with a code. -/
def listOf (msgs : List DecodedMsg) (key : FlowKey) (code : UInt16) : Option AvpListPtr :=
  (msgs.find? fun msg => msg.flowKey = key ∧ msg.radMsgCode = code).map DecodedMsg.avpListPtr

/-- A record with both lists for every key that has both codes. -/
def completed (msgs : List DecodedMsg) : List Lists :=
  msgs.filterMap fun msg =>
    if msg.radMsgCode = accountingRequest then
      (listOf msgs msg.flowKey accountingResponse).map fun b => (some msg.avpListPtr, some b)
    else none

/-- The entry of a key that has one code only. -/
def waiting (msgs : List DecodedMsg) (key : FlowKey) : Option Lists :=
  match listOf msgs key accountingRequest, listOf msgs key accountingResponse with
  | some a, none => some (some a, none)
  | none, some b => some (none, some b)
  | _, _ => none

theorem DecodedMsg.side_eq_left {msg : DecodedMsg} :
    msg.side = .left ↔ msg.radMsgCode = accountingRequest := by
  unfold DecodedMsg.side
  split <;> simp_all

theorem DecodedMsg.side_eq_right {msg : DecodedMsg} :
    msg.side = .right ↔ msg.radMsgCode = accountingResponse := by
  unfold DecodedMsg.side
  rcases msg.accounting with code | code <;> simp [code]

theorem valOn_left (msgs : List DecodedMsg) (key : FlowKey) :
    Pairing.valOn (msgs.map DecodedMsg.item) key .left = listOf msgs key accountingRequest := by
  unfold Pairing.valOn listOf
  rw [List.find?_map, Option.map_map]
  simp only [Function.comp_def, DecodedMsg.item, DecodedMsg.side_eq_left]

theorem valOn_right (msgs : List DecodedMsg) (key : FlowKey) :
    Pairing.valOn (msgs.map DecodedMsg.item) key .right =
      listOf msgs key accountingResponse := by
  unfold Pairing.valOn listOf
  rw [List.find?_map, Option.map_map]
  simp only [Function.comp_def, DecodedMsg.item, DecodedMsg.side_eq_right]

theorem distinct_items {msgs : List DecodedMsg}
    (once : (msgs.map fun msg => (msg.flowKey, msg.radMsgCode)).Nodup) :
    Pairing.Distinct (msgs.map DecodedMsg.item) := by
  unfold Pairing.Distinct
  rw [List.map_map, List.Nodup, List.pairwise_map]
  refine (List.pairwise_map.mp once).imp fun {x y} differ same => differ ?_
  obtain ⟨key, side⟩ : x.flowKey = y.flowKey ∧ x.side = y.side := Prod.mk.inj same
  have code : x.radMsgCode = y.radMsgCode := by
    rcases x.accounting with request | response
    · rw [request, DecodedMsg.side_eq_left.mp
        (side.symm.trans (DecodedMsg.side_eq_left.mpr request))]
    · rw [response, DecodedMsg.side_eq_right.mp
        (side.symm.trans (DecodedMsg.side_eq_right.mpr response))]
  exact Prod.ext key code

theorem matched_items (msgs : List DecodedMsg) :
    (Pairing.matched (msgs.map DecodedMsg.item)).map emissionLists = completed msgs := by
  unfold Pairing.matched completed
  rw [List.filterMap_map, List.map_filterMap]
  congr 1
  funext msg
  by_cases code : msg.radMsgCode = accountingRequest
  · have left : msg.item.side = .left := DecodedMsg.side_eq_left.mpr code
    simp only [Function.comp_apply, left, code, if_true, valOn_right, Option.map_map]
    rfl
  · have right : msg.item.side = .right :=
      DecodedMsg.side_eq_right.mpr (msg.accounting.resolve_left code)
    simp only [Function.comp_apply, right, code, if_false, Option.map_none]

theorem slots_paired {msgs : List DecodedMsg}
    (once : (msgs.map fun msg => (msg.flowKey, msg.radMsgCode)).Nodup) (key : FlowKey) :
    ((paired msgs).slots key).map halfLists = waiting msgs key := by
  rw [paired, Pairing.slots_of_distinct (distinct_items once), valOn_left, valOn_right, waiting]
  cases listOf msgs key accountingRequest <;> cases listOf msgs key accountingResponse <;> rfl

theorem emitted_paired {msgs : List DecodedMsg}
    (once : (msgs.map fun msg => (msg.flowKey, msg.radMsgCode)).Nodup) :
    ((paired msgs).emitted.map emissionLists).Perm (completed msgs) := by
  rw [← matched_items]
  exact (Pairing.emitted_perm_matched (distinct_items once)).map _

theorem handleAll_order_independent {msgs msgs' : List DecodedMsg} {capacity : ℕ}
    (once : (msgs.map fun msg => (msg.flowKey, msg.radMsgCode)).Nodup)
    (perm : msgs'.Perm msgs) (room : (completed msgs).length ≤ capacity) :
    ∃ s s', (Shared.init capacity).handleAll msgs = some s ∧
      (Shared.init capacity).handleAll msgs' = some s' ∧
      s'.tableView = s.tableView ∧ s'.pushedView.Perm s.pushedView ∧
      s'.unmatchedReqsNum = s.unmatchedReqsNum ∧
      s.tableView = waiting msgs ∧ s.pushedView.Perm (completed msgs) := by
  have items : (msgs'.map DecodedMsg.item).Perm (msgs.map DecodedMsg.item) := perm.map _
  obtain ⟨slots, emitted⟩ := Pairing.order_independence (distinct_items once) items
  have enough : (paired msgs).emitted.length ≤ capacity := by
    simpa using (emitted_paired once).length_eq.trans_le room
  have enough' : (paired msgs').emitted.length ≤ capacity := emitted.length_eq.trans_le enough
  obtain ⟨s, run, -, ref, -, -, unmatched⟩ := Shared.handleAll_refines enough
  obtain ⟨s', run', -, ref', -, -, unmatched'⟩ := Shared.handleAll_refines enough'
  refine ⟨s, s', run, run', ?_, ?_, by rw [unmatched, unmatched'], ?_, ?_⟩
  · funext key
    rw [ref'.table, ref.table]
    exact congrArg (fun slots => (slots key).map halfLists) slots
  · rw [ref'.pushed, ref.pushed]
    exact emitted.map _
  · funext key
    rw [ref.table, slots_paired once]
  · rw [ref.pushed]
    exact emitted_paired once

/-- Response first on one key, and a request on another. -/
theorem handleAll_order_independent_two_keys :
    let req := DecodedMsg.request 0 ⟨2, 1, 40000, 1813, 7⟩ [⟨1, [65]⟩]
    let resp := DecodedMsg.response 1 ⟨2, 1, 40000, 1813, 7⟩ []
    let alone := DecodedMsg.request 2 ⟨2, 1, 40000, 1813, 8⟩ []
    ∃ s s', (Shared.init 1).handleAll [req, resp, alone] = some s ∧
      (Shared.init 1).handleAll [resp, alone, req] = some s' ∧
      s'.tableView = s.tableView ∧ s'.pushedView.Perm s.pushedView ∧
      s'.unmatchedReqsNum = s.unmatchedReqsNum ∧
      s.tableView = waiting [req, resp, alone] ∧
      s.pushedView.Perm (completed [req, resp, alone]) :=
  handleAll_order_independent (by decide) (by decide) (by decide)

end RadiusEventHandler
