import Mathlib.Data.Nat.Count
import RadiusEventHandler.Reports
import RadiusEventHandler.StrandedEntries

/-!
# Flows do not disturb each other

What concerns one flow key is cut out of a run: its messages, the records made
for them with their timers, its entry, and what is pushed and sent for it. The
records are numbered anew. As long as the output queue refuses nothing, the part
is a run of the matcher of its own, in which there is no other flow.
-/

namespace RadiusEventHandler

def Outcome.map (f : RecordId → RecordId) : Outcome → Outcome
  | .stored r => .stored (f r)
  | .overwrote r => .overwrote (f r)
  | .merged r => .merged (f r)
  | .logicalError r => .logicalError (f r)

namespace Shared

section Numbering

variable (flows : RecordId → FlowKey) (key : FlowKey)

/-- The number of a record among those of the flow. -/
def number (r : RecordId) : RecordId := Nat.count (flows · = key) r

def own (rs : List RecordId) : List RecordId :=
  (rs.filter (flows · = key)).map (number flows key)

variable {flows key} {r r' : RecordId}

theorem number_inj (mine : flows r = key) (mine' : flows r' = key)
    (same : number flows key r = number flows key r') : r = r' :=
  Nat.count_injective mine mine' same

theorem number_succ (mine : flows r = key) : number flows key (r + 1) = number flows key r + 1 := by
  rw [number, Nat.count_succ, if_pos mine]
  rfl

theorem number_succ_other (other : flows r ≠ key) :
    number flows key (r + 1) = number flows key r := by
  rw [number, Nat.count_succ, if_neg other]
  rfl

theorem own_concat (rs : List RecordId) (mine : flows r = key) :
    own flows key (rs ++ [r]) = own flows key rs ++ [number flows key r] := by
  simp [own, List.filter_append, mine]

theorem own_concat_other (rs : List RecordId) (other : flows r ≠ key) :
    own flows key (rs ++ [r]) = own flows key rs := by
  simp [own, List.filter_append, other]

theorem own_cons (rs : List RecordId) (mine : flows r = key) :
    own flows key (r :: rs) = number flows key r :: own flows key rs := by
  simp [own, mine]

theorem own_cons_other (rs : List RecordId) (other : flows r ≠ key) :
    own flows key (r :: rs) = own flows key rs := by
  simp [own, other]

theorem length_own (rs : List RecordId) : (own flows key rs).length ≤ rs.length := by
  rw [own, List.length_map]
  exact List.length_filter_le _ _

end Numbering

/-- The output queue and what has been sent: of the records pushed and the
structures sent, those of the flow. -/
def SentPart (flows : RecordId → FlowKey) (key : FlowKey) (s part : Shared) : Prop :=
  ∃ done waits, s.pushed = done ++ waits ∧ s.outputQueue.items = waits.map some ∧
    done.length = s.plainStructs.length ∧
    part.pushed = own flows key done ++ own flows key waits ∧
    part.outputQueue.items = (own flows key waits).map some ∧
    part.plainStructs = ((done.zip s.plainStructs).filter (flows ·.1 = key)).map Prod.snd

/-- The one state is what the other has of a flow. `flows` tells the flow that a
record belongs to. -/
structure PartOf (flows : RecordId → FlowKey) (key : FlowKey) (part s : Shared) : Prop where
  allocated : part.allocated = number flows key s.allocated
  record : ∀ r, flows r = key → part.thriftStructs (number flows key r) = s.thriftStructs r
  entry : part.hashTable key = (s.hashTable key).map (Option.map (number flows key))
  noEntry : ∀ k, k ≠ key → part.hashTable k = none
  capacity : part.outputQueue.capacity = s.outputQueue.capacity
  sent : s.SentPart flows key part
  refused : part.refused = []
  taken : part.taken = s.taken.filter (·.flowKey = key)
  handled : part.handled = (s.handled.filter (·.1.flowKey = key)).map
    fun h => (h.1, h.2.map (number flows key))
  evicted : part.evicted = (s.evicted.filter (flows ·.2 = key)).map
    (Prod.map (number flows key) (number flows key))
  unmatched : part.unmatchedReqsNum = part.evicted.length

variable {flows : RecordId → FlowKey} {key k : FlowKey} {part s : Shared} {msg : DecodedMsg}
  {r owner : RecordId}

theorem partOf_init (flows : RecordId → FlowKey) (key : FlowKey) (capacity : ℕ) :
    PartOf flows key (init capacity) (init capacity) where
  allocated := (Nat.count_zero _).symm
  record := fun _ _ => rfl
  entry := rfl
  noEntry := fun _ _ => rfl
  capacity := rfl
  sent := ⟨[], [], rfl, rfl, rfl, rfl, rfl, rfl⟩
  refused := rfl
  taken := rfl
  handled := rfl
  evicted := rfl
  unmatched := rfl

/-! ## The functions, once more -/

theorem merge_map (f : RecordId → RecordId) (msg : DecodedMsg) (r : RecordId)
    (thrift : ThriftStruct) :
    merge msg (f r) thrift = ((merge msg r thrift).1, (merge msg r thrift).2.map f) := by
  unfold merge
  split
  · rfl
  · split <;> rfl

theorem pushOutput_evicted (s : Shared) (r : RecordId) :
    (s.pushOutput r).evicted = s.evicted ∧
      (s.pushOutput r).unmatchedReqsNum = s.unmatchedReqsNum := by
  rw [pushOutput_eq]
  exact ⟨rfl, rfl⟩

/-- The sender takes the record in front. -/
theorem send_eq {s s' : Shared} {waits : List RecordId} {applId : UInt16} {now : UInt64}
    {sendThrows : Bool} (items : s.outputQueue.items = waits.map some) :
    s.sendThriftStructure applId now sendThrows = some s' ↔
      ∃ r rest, ∃ q : BoundedQueue ThriftPtr, waits = r :: rest ∧ q.items = rest.map some ∧
        q.capacity = s.outputQueue.capacity ∧
        s' = { s.write r (((s.thriftStructs r).setApplId applId).setTimeStamp now) with
          outputQueue := q
          plainStructs := s.plainStructs ++ [fillPlainThriftStructure
            (((s.thriftStructs r).setApplId applId).setTimeStamp now)]
          thriftStructsSent :=
            if sendThrows then s.thriftStructsSent else s.thriftStructsSent + 1 } := by
  constructor
  · intro step
    unfold sendThriftStructure at step
    split at step
    · cases step
    · next q pop =>
        have front := (BoundedQueue.tryPop_eq_some.mp pop).2
        rw [items] at front
        obtain ⟨r, rest, -, null, -⟩ := List.map_eq_cons_iff.mp front
        cases null
    · next r q pop =>
        obtain ⟨capacity, front⟩ := BoundedQueue.tryPop_eq_some.mp pop
        rw [items] at front
        obtain ⟨r', rest, rfl, same, left⟩ := List.map_eq_cons_iff.mp front
        cases same
        cases step
        exact ⟨r, rest, q, rfl, left.symm, capacity, rfl⟩
  · rintro ⟨r, rest, q, rfl, left, capacity, rfl⟩
    have pop : s.outputQueue.tryPop = some (some r, q) :=
      BoundedQueue.tryPop_eq_some.mpr ⟨capacity, by rw [items, left]; rfl⟩
    simp only [sendThriftStructure, pop]

namespace PartOf

/-! ## What is of the flow is done in both, what is not in one -/

theorem take_own (h : PartOf flows key part s) (mine : msg.flowKey = key) :
    PartOf flows key (part.take msg) (s.take msg) :=
  { h with taken := by simp [take, h.taken, List.filter_append, mine] }

theorem take_other (h : PartOf flows key part s) (other : msg.flowKey ≠ key) :
    PartOf flows key part (s.take msg) :=
  { h with taken := by simp [take, h.taken, List.filter_append, other] }

theorem write_own (h : PartOf flows key part s) (mine : flows r = key) (t : ThriftStruct) :
    PartOf flows key (part.write (number flows key r) t) (s.write r t) :=
  { h with
    record := by
      intro r' mine'
      by_cases same : r' = r
      · subst same
        simp [write]
      · have ne : number flows key r' ≠ number flows key r :=
          fun eq => same (number_inj mine' mine eq)
        simp [write, same, ne, h.record r' mine'] }

theorem write_other (h : PartOf flows key part s) (other : flows r ≠ key) (t : ThriftStruct) :
    PartOf flows key part (s.write r t) :=
  { h with
    record := by
      intro r' mine'
      have ne : r' ≠ r := fun eq => other (eq ▸ mine')
      simp [write, ne, h.record r' mine'] }

theorem create_own (h : PartOf flows key part s) (mine : flows s.allocated = key) :
    PartOf flows key (part.create msg) (s.create msg) := by
  have written := h.write_own mine (fresh msg)
  rw [← h.allocated] at written
  exact { written with
    allocated := by
      show part.allocated + 1 = number flows key (s.allocated + 1)
      rw [number_succ mine, h.allocated] }

theorem create_other (h : PartOf flows key part s) (other : flows s.allocated ≠ key) :
    PartOf flows key part (s.create msg) :=
  { h.write_other other (fresh msg) with
    allocated := by
      show part.allocated = number flows key (s.allocated + 1)
      rw [number_succ_other other, h.allocated] }

/-- Where there is room for all there is room for the flow. -/
theorem room (h : PartOf flows key part s) (room : ¬ s.outputQueue.Full) :
    ¬ part.outputQueue.Full := by
  obtain ⟨done, waits, -, items, -, -, items', -⟩ := h.sent
  have shorter : (own flows key waits).length ≤ waits.length := length_own waits
  simp only [BoundedQueue.Full, items, items', h.capacity, List.length_map] at room ⊢
  omega

theorem push_own (h : PartOf flows key part s) (room : ¬ s.outputQueue.Full)
    (mine : flows r = key) :
    PartOf flows key (part.pushOutput (number flows key r)) (s.pushOutput r) := by
  obtain ⟨q, push, capacity, front⟩ := BoundedQueue.tryPush_of_not_full (some r) room
  obtain ⟨q', push', capacity', front'⟩ :=
    BoundedQueue.tryPush_of_not_full (some (number flows key r)) (h.room room)
  obtain ⟨done, waits, pushed, items, sent, pushed', items', plain⟩ := h.sent
  simp only [pushOutput, push, push']
  exact { h with
    capacity := by
      rw [capacity, capacity', h.capacity]
    sent := by
      refine ⟨done, waits ++ [r], ?_, ?_, sent, ?_, ?_, plain⟩
      · simp [pushed]
      · simp [front, items]
      · simp [pushed', own_concat waits mine]
      · simp [front', items', own_concat waits mine] }

theorem push_other (h : PartOf flows key part s) (room : ¬ s.outputQueue.Full)
    (other : flows r ≠ key) : PartOf flows key part (s.pushOutput r) := by
  obtain ⟨q, push, capacity, front⟩ := BoundedQueue.tryPush_of_not_full (some r) room
  obtain ⟨done, waits, pushed, items, sent, pushed', items', plain⟩ := h.sent
  simp only [pushOutput, push]
  exact { h with
    capacity := by
      rw [capacity, h.capacity]
    sent := by
      refine ⟨done, waits ++ [r], ?_, ?_, sent, ?_, ?_, plain⟩
      · simp [pushed]
      · simp [front, items]
      · simp [pushed', own_concat_other waits other]
      · simp [items', own_concat_other waits other] }

theorem erase_own (h : PartOf flows key part s) :
    PartOf flows key (part.erase key) (s.erase key) :=
  { h with
    entry := by simp [erase]
    noEntry := fun k other => by simp [erase, other, h.noEntry k other] }

theorem erase_other (h : PartOf flows key part s) (other : k ≠ key) :
    PartOf flows key part (s.erase k) :=
  { h with entry := by simp [erase, Ne.symm other, h.entry] }

theorem note_own (h : PartOf flows key part s) (mine : msg.flowKey = key) (outcome : Outcome) :
    PartOf flows key (part.note msg (outcome.map (number flows key))) (s.note msg outcome) :=
  { h with handled := by simp [note, h.handled, List.filter_append, mine] }

theorem note_other (h : PartOf flows key part s) (other : msg.flowKey ≠ key) (outcome : Outcome) :
    PartOf flows key part (s.note msg outcome) :=
  { h with handled := by simp [note, h.handled, List.filter_append, other] }

theorem assign_own (h : PartOf flows key part s) (r : RecordId) :
    PartOf flows key (part.assign key (number flows key r)) (s.assign key r) :=
  { h with
    entry := by simp [assign]
    noEntry := fun k other => by simp [assign, other, h.noEntry k other] }

theorem assign_other (h : PartOf flows key part s) (other : k ≠ key) (r : RecordId) :
    PartOf flows key part (s.assign k r) :=
  { h with entry := by simp [assign, Ne.symm other, h.entry] }

theorem insert_own (h : PartOf flows key part s) :
    PartOf flows key (part.insert key) (s.insert key) := by
  have entry := h.entry
  unfold insert
  cases found : s.hashTable key with
  | none =>
      rw [found, Option.map_none] at entry
      rw [entry]
      exact { h with
        entry := by simp
        noEntry := fun k other => by simp [other, h.noEntry k other] }
  | some p =>
      rw [found, Option.map_some] at entry
      rw [entry]
      exact h

theorem insert_other (h : PartOf flows key part s) (other : k ≠ key) :
    PartOf flows key part (s.insert k) := by
  unfold insert
  cases s.hashTable k with
  | none => exact { h with entry := by simp [Ne.symm other, h.entry] }
  | some p => exact h

theorem setWait_own (h : PartOf flows key part s) (mine : flows r = key) (wait : Wait) :
    PartOf flows key (part.setWait (number flows key r) wait) (s.setWait r wait) := by
  unfold setWait
  rw [h.record r mine]
  exact h.write_own mine _

theorem setWait_other (h : PartOf flows key part s) (other : flows r ≠ key) (wait : Wait) :
    PartOf flows key part (s.setWait r wait) := h.write_other other _

/-! ## The critical sections -/

theorem store_own (h : PartOf flows key part s) (mine : msg.flowKey = key) (r : RecordId) :
    PartOf flows key (part.store msg (number flows key r)) (s.store msg r) := by
  have outcome : (if (part.hashTable msg.flowKey).isSome then
        Outcome.overwrote (number flows key r) else .stored (number flows key r)) =
      (if (s.hashTable msg.flowKey).isSome then Outcome.overwrote r else .stored r).map
        (number flows key) := by
    rw [mine, h.entry, Option.isSome_map]
    split <;> rfl
  unfold store
  rw [outcome]
  rw [mine]
  exact ((h.insert_own).assign_own r).note_own mine _

theorem store_other (h : PartOf flows key part s) (other : msg.flowKey ≠ key) (r : RecordId) :
    PartOf flows key part (s.store msg r) :=
  ((h.insert_other other).assign_other other r).note_other other _

theorem hit_own (h : PartOf flows key part s) (room : ¬ s.outputQueue.Full)
    (mine : msg.flowKey = key) (own : flows r = key) :
    PartOf flows key (part.hit msg (number flows key r)) (s.hit msg r) := by
  have written := h.write_own own (merge msg r ((s.thriftStructs r).onTimer .cancel)).1
  have erased := (written.push_own room own).erase_own
  simp only [hit, h.record r own, merge_map, mine]
  exact erased.note_own mine _

theorem hit_other (h : PartOf flows key part s) (room : ¬ s.outputQueue.Full)
    (other : msg.flowKey ≠ key) (own : flows r ≠ key) :
    PartOf flows key part (s.hit msg r) := by
  have written := h.write_other own (merge msg r ((s.thriftStructs r).onTimer .cancel)).1
  exact (((written.push_other room own).erase_other other).note_other other _)

theorem evict_own (h : PartOf flows key part s) (owner : RecordId) (own : flows r = key)
    (n : ℤ) :
    PartOf flows key
      { part with
        unmatchedReqsNum := part.unmatchedReqsNum + 1
        evicted := part.evicted ++ [(number flows key owner, number flows key r)] }
      { s with
        unmatchedReqsNum := n
        evicted := s.evicted ++ [(owner, r)] } :=
  { h with
    evicted := by simp [h.evicted, List.filter_append, own]
    unmatched := by simp [h.unmatched] }

theorem evict_other (h : PartOf flows key part s) (owner : RecordId) (other : flows r ≠ key)
    (n : ℤ) :
    PartOf flows key part
      { s with
        unmatchedReqsNum := n
        evicted := s.evicted ++ [(owner, r)] } :=
  { h with evicted := by simp [h.evicted, List.filter_append, other] }

theorem timeout_own (h : PartOf flows key part s)
    (room : ∀ r, s.hashTable key = some (some r) → ¬ s.outputQueue.Full)
    (own : ∀ r, s.hashTable key = some (some r) → flows r = key) :
    PartOf flows key (part.handleTimeout (number flows key owner) key false)
      (s.handleTimeout owner key false) := by
  have entry := h.entry
  unfold handleTimeout
  simp only [Bool.false_eq_true, if_false]
  cases found : s.hashTable key with
  | none =>
      rw [found, Option.map_none] at entry
      rw [entry]
      exact h
  | some p =>
      rw [found, Option.map_some] at entry
      rw [entry]
      cases p with
      | none => exact h
      | some r =>
          have erased := (h.push_own (room r found) (own r found)).erase_own
          have evicted := erased.evict_own owner (own r found) (s.unmatchedReqsNum + 1)
          simp only [erase, (pushOutput_evicted _ _).1, (pushOutput_evicted _ _).2] at evicted
          exact evicted

theorem timeout_other (h : PartOf flows key part s) (other : k ≠ key)
    (room : ∀ r, s.hashTable k = some (some r) → ¬ s.outputQueue.Full)
    (own : ∀ r, s.hashTable k = some (some r) → flows r = k) :
    PartOf flows key part (s.handleTimeout owner k false) := by
  unfold handleTimeout
  simp only [Bool.false_eq_true, if_false]
  cases found : s.hashTable k with
  | none => exact h
  | some p =>
      cases p with
      | none => exact h
      | some r =>
          have foreign : flows r ≠ key := by
            rw [own r found]
            exact other
          have erased := (h.push_other (room r found) foreign).erase_other other
          have evicted := erased.evict_other owner foreign (s.unmatchedReqsNum + 1)
          simp only [erase, (pushOutput_evicted _ _).1] at evicted
          exact evicted

/-- A round of the sender is one for the flow, or none. -/
theorem send (h : PartOf flows key part s) {s' : Shared} {applId : UInt16} {now : UInt64}
    {sendThrows : Bool} (step : s.sendThriftStructure applId now sendThrows = some s') :
    (∃ part', part.sendThriftStructure applId now sendThrows = some part' ∧
      PartOf flows key part' s') ∨ PartOf flows key part s' := by
  obtain ⟨done, waits, pushed, items, sent, pushed', items', plain⟩ := h.sent
  obtain ⟨r, rest, q, rfl, left, capacity, rfl⟩ := (send_eq items).mp step
  have split : s.pushed = (done ++ [r]) ++ rest := by rw [pushed, List.append_assoc]; rfl
  have longer : ∀ plain, (done ++ [r]).length = (s.plainStructs ++ [plain]).length := by simp [sent]
  have zip : ∀ plain, (done ++ [r]).zip (s.plainStructs ++ [plain]) =
      done.zip s.plainStructs ++ [(r, plain)] := fun plain => List.zip_append sent
  by_cases mine : flows r = key
  · rw [own_cons rest mine] at items' pushed'
    have room : (own flows key rest).length < part.outputQueue.capacity := by
      have within := part.outputQueue.within
      rw [items'] at within
      simpa using within
    let q' : BoundedQueue ThriftPtr :=
      ⟨part.outputQueue.capacity, (own flows key rest).map some, by
        rw [List.length_map]
        exact Nat.le_of_lt room⟩
    refine .inl ⟨_, (send_eq items').mpr ⟨_, _, q', rfl, rfl, rfl, rfl⟩, ?_⟩
    have written := h.write_own mine (((s.thriftStructs r).setApplId applId).setTimeStamp now)
    rw [h.record r mine]
    exact { written with
      capacity := h.capacity.trans capacity.symm
      sent := by
        refine ⟨done ++ [r], rest, split, left, longer _, ?_, rfl, ?_⟩
        · rw [own_concat done mine, List.append_assoc]
          exact pushed'
        · simp [zip, List.filter_append, mine, plain] }
  · rw [own_cons_other rest mine] at items' pushed'
    have written := h.write_other mine (((s.thriftStructs r).setApplId applId).setTimeStamp now)
    exact .inr { written with
      capacity := h.capacity.trans capacity.symm
      sent := by
        refine ⟨done ++ [r], rest, split, left, longer _, ?_, items', ?_⟩
        · rw [own_concat_other done mine]
          exact pushed'
        · simp [zip, List.filter_append, mine, plain] }

end PartOf

end Shared

/-! ## The flow of a record -/

namespace Wait

/-- The key bound to the handler. -/
def key? : Wait → Option FlowKey
  | .none => Option.none
  | .pending key => some key
  | .expired key => some key
  | .aborted key => some key
  | .completed key => some key

theorem key?_cancel (timer : DeadlineTimer) : timer.cancel.wait.key? = timer.wait.key? := by
  obtain ⟨seconds, wait⟩ := timer
  cases wait <;> rfl

end Wait

namespace Matcher

variable {m m' part : Matcher} {a : MatcherAction} {msg : DecodedMsg} {r : RecordId} {w : ℕ}
  {key k : FlowKey} {flows : RecordId → FlowKey} {acts : List MatcherAction} {capacity : ℕ}
  {late : RecordId → Prop}

def flowOf (m : Matcher) (r : RecordId) : Option FlowKey := (m.waitOf r).key?

theorem OnTime.key? {late : Prop} {wait : Wait} (onTime : OnTime late wait key) :
    wait.key? = some key := by
  rcases onTime with ⟨-, rfl | rfl⟩ | ⟨-, rfl⟩ <;> rfl

/-- No timer has been started that has not been made. -/
def Unborn (m : Matcher) : Prop := ∀ r, m.shared.allocated ≤ r → m.waitOf r = .none

theorem unborn_init (capacity : ℕ) : (init capacity).Unborn := fun _ _ => rfl

theorem Unborn.step (unborn : m.Unborn) (inv : m.Inv) (step : m.step a = some m') :
    m'.Unborn := by
  -- a wait that goes on has been started
  have started : ∀ {r₀ wait'}, m'.shared.allocated = m.shared.allocated →
      m'.waitOf = Function.update m.waitOf r₀ wait' → r₀ < m.shared.allocated → m'.Unborn := by
    intro r₀ wait' allocated waits lt r le
    rw [allocated] at le
    rw [waits, Function.update_of_ne (Nat.ne_of_gt (Nat.lt_of_lt_of_le lt le))]
    exact unborn r le
  have born : ∀ {r₀}, m.waitOf r₀ ≠ .none → r₀ < m.shared.allocated := by
    intro r₀ going
    by_contra ge
    exact going (unborn r₀ (Nat.le_of_not_lt ge))
  cases inv.moves step with
  | stay _ allocated _ _ _ _ _ waits | insert _ _ _ _ _ allocated _ _ _ _ _ waits =>
      intro r le
      rw [waits]
      exact unborn r (allocated ▸ le)
  | wait r₀ wait' turn allocated _ _ _ _ _ waits =>
      refine started allocated waits (born ?_)
      rcases turn with ⟨k, pending, -⟩ | ⟨k, ⟨expired, -⟩ | aborted, -⟩
      · rw [pending]
        simp
      · rw [expired]
        simp
      · rw [aborted]
        simp
  | create w msg _ _ allocated _ _ _ _ _ waits =>
      intro r le
      rw [allocated] at le
      rw [waits, Function.update_of_ne (Nat.ne_of_gt le)]
      exact unborn r (Nat.le_of_succ_le le)
  | leave k r owner wait' found cause allocated _ _ _ _ waits =>
      refine started allocated waits ?_
      rcases cause with ⟨-, expired, -⟩ | ⟨-, rfl⟩
      · exact born (by rw [expired]; simp)
      · exact inv.at_lt (p := .table k) found

/-- The flow of a record does not change. -/
theorem flowOf_step (unborn : m.Unborn) (step : m.step a = some m') (flow : m.flowOf r = some k) :
    m'.flowOf r = some k := by
  have update : ∀ {r₀ wait'}, m'.waitOf = Function.update m.waitOf r₀ wait' →
      wait'.key? = (m.waitOf r₀).key? → m'.flowOf r = some k := by
    intro r₀ wait' waits same
    rw [flowOf, waits]
    by_cases here : r = r₀
    · subst here
      rw [Function.update_self, same]
      exact flow
    · rw [Function.update_of_ne here]
      exact flow
  rcases step_cases step with ⟨w, msg, r₀, -, -, -, -, rfl⟩ | ⟨w, msg, -, -, -, -, rfl⟩ |
    ⟨w, msg, -, -, rfl⟩ | ⟨w, msg, r₀, -, -, rfl⟩ | ⟨e, shared, -, env, rfl⟩
  · exact update (Shared.hit_waitOf (m.shared.take msg) msg r₀) (Wait.key?_cancel _)
  · exact flow
  · have old : r ≠ m.shared.allocated := by
      rintro rfl
      rw [flowOf, unborn _ (Nat.le_refl _)] at flow
      cases flow
    show ((m.shared.create msg).waitOf r).key? = some k
    rw [Shared.create_waitOf, Function.update_of_ne old]
    exact flow
  · show ((m.shared.store msg r₀).waitOf r).key? = some k
    rw [Shared.store_waitOf]
    exact flow
  · cases e with
    | expire r₀ =>
        obtain ⟨k₀, wait, rfl⟩ := Shared.expire_cases env
        exact update (Shared.setWait_waitOf _ _ _) (by rw [waitOf, wait]; rfl)
    | runHandler r₀ =>
        obtain ⟨k₀, ⟨wait, rfl⟩ | ⟨wait, rfl⟩⟩ := Shared.runHandler_cases env
        · have same : ((m.shared.setWait r₀ (.completed k₀)).handleTimeout r₀ k₀ false).waitOf =
              (m.shared.setWait r₀ (.completed k₀)).waitOf := by
            funext r'
            rw [Shared.waitOf, Shared.handleTimeout_thriftStructs]
            rfl
          exact update (same.trans (Shared.setWait_waitOf _ _ _)) (by rw [waitOf, wait]; rfl)
        · exact update (Shared.setWait_waitOf _ _ _) (by rw [waitOf, wait]; rfl)
    | send applId now sendThrows =>
        have waits := (Shared.send_cases env).2.2.2.2.2.2.2.1 r
        show (shared.waitOf r).key? = some k
        rw [waits]
        exact flow

/-! ## A step of the matcher -/

/-- A worker that is busy with a message of another flow has nothing to do. -/
def phaseOf (flows : RecordId → FlowKey) (key : FlowKey) : WorkerPhase → WorkerPhase
  | .idle => .idle
  | .missed msg => if msg.flowKey = key then .missed msg else .idle
  | .created msg r =>
      if msg.flowKey = key then .created msg (Shared.number flows key r) else .idle

structure PartOf (flows : RecordId → FlowKey) (key : FlowKey) (part m : Matcher) : Prop where
  shared : part.shared.PartOf flows key m.shared
  phase : ∀ w, part.phase w = phaseOf flows key (m.phase w)

theorem partOf_init (flows : RecordId → FlowKey) (key : FlowKey) (capacity : ℕ) :
    PartOf flows key (init capacity) (init capacity) :=
  ⟨Shared.partOf_init flows key capacity, fun _ => rfl⟩

/-- Worker `w` goes on in both. -/
theorem phaseOf_update (h : PartOf flows key part m) (w : ℕ) {p q : WorkerPhase}
    (same : phaseOf flows key q = p) (w' : ℕ) :
    Function.update part.phase w p w' = phaseOf flows key (Function.update m.phase w q w') := by
  by_cases here : w' = w
  · subst here
    rw [Function.update_self, Function.update_self, same]
  · rw [Function.update_of_ne here, Function.update_of_ne here, h.phase]

/-- Worker `w` goes on with a message of another flow. -/
theorem phaseOf_update_other (h : PartOf flows key part m) {w : ℕ} {q : WorkerPhase}
    (idle : part.phase w = .idle) (nothing : phaseOf flows key q = .idle) (w' : ℕ) :
    part.phase w' = phaseOf flows key (Function.update m.phase w q w') := by
  by_cases here : w' = w
  · subst here
    rw [Function.update_self, nothing, idle]
  · rw [Function.update_of_ne here, h.phase]

/-- The step is done for the flow as well, or is not of the flow. -/
def Matched (flows : RecordId → FlowKey) (key : FlowKey) (part m' : Matcher) : Prop :=
  ∃ (b : Option MatcherAction) (part' : Matcher),
    Runs.run step part b.toList = some part' ∧ PartOf flows key part' m'

theorem matched_step {b : MatcherAction} {part' : Matcher} (step : part.step b = some part')
    (h : PartOf flows key part' m') : Matched flows key part m' :=
  ⟨some b, part', by simp [Runs.run, step], h⟩

theorem matched_none (h : PartOf flows key part m') : Matched flows key part m' :=
  ⟨none, part, rfl, h⟩

theorem PartOf.idle (h : PartOf flows key part m) (idle : m.phase w = .idle) :
    part.phase w = .idle := by
  rw [h.phase, idle]
  rfl

theorem PartOf.unused (h : PartOf flows key part m)
    (unused : msg.id ∉ m.shared.taken.map DecodedMsg.id) :
    msg.id ∉ part.shared.taken.map DecodedMsg.id := by
  rw [h.shared.taken]
  intro mem
  apply unused
  exact (List.filter_sublist.map _).subset mem

theorem PartOf.hit (h : PartOf flows key part m) (idle : m.phase w = .idle)
    (unused : msg.id ∉ m.shared.taken.map DecodedMsg.id)
    (found : m.shared.hashTable msg.flowKey = some (some r)) (own : flows r = msg.flowKey)
    (room : ¬ m.shared.outputQueue.Full) :
    Matched flows key part ⟨(m.shared.take msg).hit msg r, m.phase⟩ := by
  by_cases mine : msg.flowKey = key
  · have entry : part.shared.hashTable msg.flowKey = some (some (Shared.number flows key r)) := by
      rw [mine, h.shared.entry, ← mine, found]
      rfl
    have step : part.step (.find w msg) = some
        ⟨(part.shared.take msg).hit msg (Shared.number flows key r), part.phase⟩ := by
      simp only [Matcher.step, h.idle idle, entry, if_neg (h.unused unused)]
    exact matched_step step
      ⟨(h.shared.take_own mine).hit_own room mine (own.trans mine), h.phase⟩
  · exact matched_none
      ⟨(h.shared.take_other mine).hit_other room mine (by rw [own]; exact mine), h.phase⟩

theorem PartOf.miss (h : PartOf flows key part m) (idle : m.phase w = .idle)
    (unused : msg.id ∉ m.shared.taken.map DecodedMsg.id)
    (absent : m.shared.hashTable msg.flowKey = none) :
    Matched flows key part ⟨m.shared.take msg, Function.update m.phase w (.missed msg)⟩ := by
  by_cases mine : msg.flowKey = key
  · have entry : part.shared.hashTable msg.flowKey = none := by
      rw [mine, h.shared.entry, ← mine, absent]
      rfl
    have step : part.step (.find w msg) = some
        ⟨part.shared.take msg, Function.update part.phase w (.missed msg)⟩ := by
      simp only [Matcher.step, h.idle idle, entry, if_neg (h.unused unused)]
    exact matched_step step
      ⟨h.shared.take_own mine, phaseOf_update h w (by rw [phaseOf, if_pos mine])⟩
  · exact matched_none ⟨h.shared.take_other mine,
      phaseOf_update_other h (h.idle idle) (by rw [phaseOf, if_neg mine])⟩

theorem PartOf.create (h : PartOf flows key part m) (missed : m.phase w = .missed msg)
    (own : flows m.shared.allocated = msg.flowKey) :
    Matched flows key part ⟨m.shared.create msg,
      Function.update m.phase w (.created msg m.shared.allocated)⟩ := by
  have phase := h.phase w
  rw [missed, phaseOf] at phase
  by_cases mine : msg.flowKey = key
  · rw [if_pos mine] at phase
    have step : part.step (.create w) = some ⟨part.shared.create msg,
        Function.update part.phase w (.created msg part.shared.allocated)⟩ := by
      simp only [Matcher.step, phase]
    refine matched_step step ⟨h.shared.create_own (own.trans mine), phaseOf_update h w ?_⟩
    rw [phaseOf, if_pos mine, h.shared.allocated]
  · rw [if_neg mine] at phase
    exact matched_none ⟨h.shared.create_other (by rw [own]; exact mine),
      phaseOf_update_other h phase (by rw [phaseOf, if_neg mine])⟩

theorem PartOf.store (h : PartOf flows key part m) (created : m.phase w = .created msg r) :
    Matched flows key part ⟨m.shared.store msg r, Function.update m.phase w .idle⟩ := by
  have phase := h.phase w
  rw [created, phaseOf] at phase
  by_cases mine : msg.flowKey = key
  · rw [if_pos mine] at phase
    have step : part.step (.store w) = some ⟨part.shared.store msg (Shared.number flows key r),
        Function.update part.phase w .idle⟩ := by
      simp only [Matcher.step, phase]
    exact matched_step step ⟨h.shared.store_own mine r, phaseOf_update h w rfl⟩
  · rw [if_neg mine] at phase
    exact matched_none ⟨h.shared.store_other mine r, phaseOf_update_other h phase rfl⟩

theorem matched_env {e : Shared.EnvAction} {shared shared' : Shared} (h : PartOf flows key part m)
    (env : part.shared.envStep e = some shared') (related : shared'.PartOf flows key shared) :
    Matched flows key part ⟨shared, m.phase⟩ := by
  have step : part.step (.env e) = some ⟨shared', part.phase⟩ := by simp [Matcher.step, env]
  exact matched_step step ⟨related, h.phase⟩

theorem PartOf.expire (h : PartOf flows key part m) (wait : m.shared.waitOf r = .pending k) :
    Matched flows key part ⟨m.shared.setWait r (.expired k), m.phase⟩ := by
  by_cases mine : flows r = key
  · have env : part.shared.envStep (.expire (Shared.number flows key r)) =
        some (part.shared.setWait (Shared.number flows key r) (.expired k)) := by
      rw [Shared.waitOf] at wait
      simp [Shared.envStep, Shared.expire, h.shared.record r mine, wait]
    exact matched_env h env (h.shared.setWait_own mine _)
  · exact matched_none ⟨h.shared.setWait_other mine _, h.phase⟩

theorem PartOf.runHandler (h : PartOf flows key part m) (wait : m.shared.waitOf r = .expired k)
    (own : flows r = k)
    (room : ∀ r', m.shared.hashTable k = some (some r') → ¬ m.shared.outputQueue.Full)
    (owns : ∀ r', m.shared.hashTable k = some (some r') → flows r' = k) :
    Matched flows key part
      ⟨(m.shared.setWait r (.completed k)).handleTimeout r k false, m.phase⟩ := by
  by_cases mine : flows r = key
  · obtain rfl : k = key := own.symm.trans mine
    have env : part.shared.envStep (.runHandler (Shared.number flows k r)) =
        some ((part.shared.setWait (Shared.number flows k r) (.completed k)).handleTimeout
          (Shared.number flows k r) k false) := by
      rw [Shared.waitOf] at wait
      simp [Shared.envStep, Shared.runHandler, h.shared.record r mine, wait]
    exact matched_env h env ((h.shared.setWait_own mine _).timeout_own room owns)
  · exact matched_none
      ⟨(h.shared.setWait_other mine _).timeout_other (by rw [← own]; exact mine) room owns, h.phase⟩

theorem PartOf.runAborted (h : PartOf flows key part m) (wait : m.shared.waitOf r = .aborted k) :
    Matched flows key part ⟨m.shared.setWait r (.completed k), m.phase⟩ := by
  by_cases mine : flows r = key
  · have env : part.shared.envStep (.runHandler (Shared.number flows key r)) =
        some (part.shared.setWait (Shared.number flows key r) (.completed k)) := by
      rw [Shared.waitOf] at wait
      simp [Shared.envStep, Shared.runHandler, h.shared.record r mine, wait,
        Shared.handleTimeout_aborted]
    exact matched_env h env (h.shared.setWait_own mine _)
  · exact matched_none ⟨h.shared.setWait_other mine _, h.phase⟩

/-- What has not been refused has been pushed. -/
theorem room_of_hit {s : Shared} (refused : (s.hit msg r).refused = []) :
    ¬ s.outputQueue.Full := by
  intro full
  rw [Shared.hit_eq] at refused
  simp [full] at refused

theorem room_of_timeout {s : Shared} {owner : RecordId} (found : s.hashTable k = some (some r))
    (refused : (s.handleTimeout owner k false).refused = []) : ¬ s.outputQueue.Full := by
  intro full
  rw [Shared.handleTimeout_eq found] at refused
  simp [full] at refused

/-- **The step lemma of this file.** -/
theorem PartOf.step (h : PartOf flows key part m) (known : m.WaitsKnown late)
    (unborn : m.Unborn) (step : m.step a = some m') (refused : m'.shared.refused = [])
    (agree : ∀ r k, m'.flowOf r = some k → flows r = k) : Matched flows key part m' := by
  have before : ∀ r k, m.flowOf r = some k → flows r = k :=
    fun r k flow => agree r k (flowOf_step unborn step flow)
  have entries : ∀ k r, m.shared.hashTable k = some (some r) → flows r = k :=
    fun k r found => before r k (known.entry k r found).key?
  rcases step_cases step with ⟨w, msg, r, -, idle, unused, found, rfl⟩ |
    ⟨w, msg, -, idle, unused, absent, rfl⟩ | ⟨w, msg, -, missed, rfl⟩ |
    ⟨w, msg, r, -, created, rfl⟩ | ⟨e, shared, -, env, rfl⟩
  · exact h.hit idle unused found (entries _ r found)
      (room_of_hit (s := m.shared.take msg) refused)
  · exact h.miss idle unused absent
  · refine h.create missed (agree _ _ ?_)
    show ((m.shared.create msg).waitOf m.shared.allocated).key? = _
    rw [Shared.create_waitOf, Function.update_self]
    rfl
  · exact h.store created
  · cases e with
    | expire r =>
        obtain ⟨k, wait, rfl⟩ := Shared.expire_cases env
        exact h.expire wait
    | runHandler r =>
        obtain ⟨k, ⟨wait, rfl⟩ | ⟨wait, rfl⟩⟩ := Shared.runHandler_cases env
        · have own : flows r = k := before r k (by rw [flowOf, waitOf, wait]; rfl)
          exact h.runHandler wait own (fun r' found =>
            room_of_timeout (s := m.shared.setWait r (.completed k)) found refused) (entries k)
        · exact h.runAborted wait
    | send applId now sendThrows =>
        rcases h.shared.send env with ⟨shared', sent, related⟩ | related
        · exact matched_env (e := .send applId now sendThrows) h sent related
        · exact matched_none ⟨related, h.phase⟩

/-! ## Runs -/

/-- What has been refused stays refused. -/
theorem Moves.refused (moves : m.Moves a m') (nothing : m'.shared.refused = []) :
    m.shared.refused = [] := by
  cases moves with
  | stay _ _ _ _ _ refused => rw [← refused, nothing]
  | wait _ _ _ _ _ _ _ refused => rw [← refused, nothing]
  | create _ _ _ _ _ _ _ _ refused => rw [← refused, nothing]
  | insert _ _ _ _ _ _ _ _ _ refused => rw [← refused, nothing]
  | leave _ _ _ _ _ _ _ _ _ place =>
      rcases place with ⟨-, refused⟩ | ⟨-, refused⟩
      · rw [← refused, nothing]
      · rw [refused] at nothing
        simp at nothing

theorem unborn_of_run (run : Runs.run step (init capacity) acts = some m) : m.Inv ∧ m.Unborn :=
  Runs.invariant_of_step (I := fun t => t.Inv ∧ t.Unborn)
    ⟨inv_init capacity, unborn_init capacity⟩
    (fun _ _ _ ⟨inv, unborn⟩ step => ⟨inv.step step, unborn.step inv step⟩) run

/-- The matcher simulates its runs on the messages of one flow. -/
theorem simulates_part (flows : RecordId → FlowKey) (key : FlowKey) (capacity : ℕ) :
    Runs.Simulates step step fun m part =>
      (∃ acts, Runs.run step (init capacity) acts = some m) ∧
        (m.shared.refused = [] → (∀ r k, m.flowOf r = some k → flows r = k) →
          PartOf flows key part m) := by
  rintro m part a m' ⟨⟨acts, run⟩, related⟩ step
  have reach : ∃ acts, Runs.run Matcher.step (init capacity) acts = some m' :=
    ⟨acts ++ [a], Runs.run_concat_eq_some.mpr ⟨m, run, step⟩⟩
  obtain ⟨inv, unborn⟩ := unborn_of_run run
  obtain ⟨-, known⟩ := waitsKnown run
  by_cases agree : m'.shared.refused = [] ∧ ∀ r k, m'.flowOf r = some k → flows r = k
  · obtain ⟨refused, agree⟩ := agree
    have h := related ((inv.moves step).refused refused)
      fun r k flow => agree r k (flowOf_step unborn step flow)
    obtain ⟨b, part', matched, h'⟩ := h.step known unborn step refused agree
    exact ⟨b, part', matched, reach, fun _ _ => h'⟩
  · exact ⟨none, part, rfl, reach, fun refused own => absurd ⟨refused, own⟩ agree⟩

theorem exists_part (run : Runs.run step (init capacity) acts = some m)
    (refused : m.shared.refused = []) (key : FlowKey) :
    ∃ part bs, bs.length ≤ acts.length ∧ Runs.run step (init capacity) bs = some part ∧
      PartOf (fun r => (m.flowOf r).getD key) key part m := by
  have start := partOf_init (fun r => (m.flowOf r).getD key) key capacity
  obtain ⟨bs, part, short, matched, -, related⟩ :=
    (simulates_part (fun r => (m.flowOf r).getD key) key capacity).run
      ⟨⟨[], rfl⟩, fun _ _ => start⟩ run
  refine ⟨part, bs, short, matched, related refused fun r k flow => ?_⟩
  rw [flow]
  rfl

end Matcher

namespace Program

variable {s : Program} {acts : List ProgramAction} {localEndpoint : Endpoint}
  {workersNumber workerQueueCapacity thriftQueueCapacity : ℕ}

/-- **Flows do not disturb each other.** Whatever the program receives for other
flows, and whatever its threads and timers do for them: what it has of a flow is
what a run of the matcher leads to in which only the messages of this flow are
handled, as long as no record has been refused by the output queue. -/
theorem flow_isolated
    (run : Runs.run step (init localEndpoint workersNumber workerQueueCapacity
      thriftQueueCapacity) acts = some s) (refused : s.process.shared.refused = [])
    (key : FlowKey) :
    ∃ part macts, macts.length ≤ acts.length ∧
      Runs.run Matcher.step (Matcher.init thriftQueueCapacity) macts = some part ∧
      (∀ msg ∈ part.shared.taken, msg.flowKey = key) ∧
      Matcher.PartOf (fun r => (s.matcher.flowOf r).getD key) key part s.matcher := by
  obtain ⟨acts', short, matched, -⟩ := reaches_matcher run
  obtain ⟨part, macts, shorter, reach, related⟩ := Matcher.exists_part matched refused key
  refine ⟨part, macts, shorter.trans short, reach, fun msg mem => ?_, related⟩
  rw [related.shared.taken] at mem
  simpa using List.of_mem_filter mem

/-- Two requests with different identifiers, each in the hands of a worker. -/
def twoFlowsRun : List ProgramAction :=
  [.poll (.receive ([4, 103, 0, 20] ++ List.replicate 16 0, radiusClient)),
    .poll (.receive ([4, 104, 0, 20] ++ List.replicate 16 0, radiusClient)),
    .worker 0, .worker 1, .worker 0, .worker 1, .worker 1, .worker 0, .worker 0, .worker 1]

theorem flow_isolated_two_flows :
    let key : FlowKey := ⟨0x7f000001, 0x7f000001, 30001, 1813, 103⟩
    ∃ s, Runs.run step (createModules radiusMonitor) twoFlowsRun = some s ∧
      s.process.shared.taken.length = 2 ∧
      ∃ part macts, macts.length ≤ twoFlowsRun.length ∧
        Runs.run Matcher.step (Matcher.init RadiusEventHandler.thriftQueueCapacity) macts =
          some part ∧
        part.shared.taken.length = 1 ∧ (∀ msg ∈ part.shared.taken, msg.flowKey = key) ∧
        Matcher.PartOf (fun r => (s.matcher.flowOf r).getD key) key part s.matcher := by
  intro key
  have facts : (Runs.run step (createModules radiusMonitor) twoFlowsRun).map (fun s =>
      (s.process.shared.taken.length, s.process.shared.refused,
        (s.process.shared.taken.filter (·.flowKey = key)).length)) = some (2, [], 1) := by
    decide +kernel
  obtain ⟨s, run, counts⟩ := Option.map_eq_some_iff.mp facts
  simp only [Prod.mk.injEq] at counts
  obtain ⟨two, refused, one⟩ := counts
  obtain ⟨part, macts, short, reach, own, related⟩ := flow_isolated run refused key
  exact ⟨s, run, two, part, macts, short, reach,
    (congrArg List.length related.shared.taken).trans one, own, related⟩

end Program

end RadiusEventHandler
