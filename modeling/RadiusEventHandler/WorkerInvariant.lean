import Mathlib.Tactic.Tauto
import RadiusEventHandler.Worker

/-!
# The invariant of the shared state

`Inv s held` is kept by every critical section, whatever is interleaved with
it. `held` tells which worker holds a record that it has created for a message
and not stored yet. The entries of the table are records with one list, each
under the key it was stored under; a record that has been pushed has left the
table; every list of a record was decoded from a message of its own code and
of the record's key; records that workers hold are in no other place.
-/

namespace RadiusEventHandler

/-- A value of an updated function is the new one, or an old one elsewhere. -/
theorem update_eq_cases {α β : Type*} [DecidableEq α] {f : α → β} {a x : α} {v w : β}
    (h : Function.update f a v x = w) : (x = a ∧ v = w) ∨ (x ≠ a ∧ f x = w) := by
  by_cases here : x = a
  · subst here
    rw [Function.update_self] at h
    exact .inl ⟨rfl, h⟩
  · rw [Function.update_of_ne here] at h
    exact .inr ⟨here, h⟩

/-- The record a branch stored in the table, if it did. -/
def Outcome.storedRecord : Outcome → Option RecordId
  | .stored r => some r
  | .overwrote r => some r
  | .merged _ => none
  | .logicalError _ => none

namespace Shared

/-- A worker has stored the record under the key. -/
def StoredUnder (s : Shared) (r : RecordId) (key : FlowKey) : Prop :=
  ∃ msg outcome, (msg, outcome) ∈ s.handled ∧ outcome.storedRecord = some r ∧ msg.flowKey = key

instance (s : Shared) (r : RecordId) (key : FlowKey) : Decidable (s.StoredUnder r key) :=
  decidable_of_iff (∃ h ∈ s.handled, h.2.storedRecord = some r ∧ h.1.flowKey = key)
    ⟨fun ⟨h, stored⟩ => ⟨h.1, h.2, stored⟩, fun ⟨msg, outcome, stored⟩ => ⟨(msg, outcome), stored⟩⟩

/-- The record has been in the table and is not there any more. -/
structure Gone (s : Shared) (r : RecordId) : Prop where
  stored : ∃ key, s.StoredUnder r key
  absent : ∀ key, s.hashTable key ≠ some (some r)

/-- The list was decoded from a message with the code, whose flow key is the
one the record was stored under. -/
def DecodedFrom (s : Shared) (code : UInt16) (r : RecordId) (a : AvpListPtr) : Prop :=
  ∃ msg ∈ s.taken, msg.avpListPtr = a ∧ msg.radMsgCode = code ∧
    ∀ key, s.StoredUnder r key → msg.flowKey = key

/-- A record that a worker holds between its creation and its insertion. -/
structure HeldFor (s : Shared) (msg : DecodedMsg) (r : RecordId) : Prop where
  lt : r < s.allocated
  fresh : ∀ key, ¬ s.StoredUnder r key
  mem : msg ∈ s.taken
  oneList : (s.thriftStructs r).HasOneList
  request : ∀ a, (s.thriftStructs r).reqAvpListPtr = some a →
    a = msg.avpListPtr ∧ msg.radMsgCode = accountingRequest
  response : ∀ a, (s.thriftStructs r).respAvpListPtr = some a →
    a = msg.avpListPtr ∧ msg.radMsgCode = accountingResponse

structure Inv (s : Shared) (held : ℕ → Option (DecodedMsg × RecordId)) : Prop where
  entry : ∀ key p, s.hashTable key = some p →
    ∃ r, p = some r ∧ s.StoredUnder r key ∧ (s.thriftStructs r).HasOneList
  stored_lt : ∀ r key, s.StoredUnder r key → r < s.allocated
  stored_key : ∀ r key key', s.StoredUnder r key → s.StoredUnder r key' → key = key'
  pushed : ∀ r ∈ s.pushed, s.Gone r ∧
    ((s.thriftStructs r).reqAvpListPtr.isSome ∨ (s.thriftStructs r).respAvpListPtr.isSome)
  refused : ∀ r ∈ s.refused, s.Gone r
  evicted : ∀ owner r, (owner, r) ∈ s.evicted → s.Gone r ∧ (s.thriftStructs r).HasOneList
  request : ∀ r a, (s.thriftStructs r).reqAvpListPtr = some a →
    s.DecodedFrom accountingRequest r a
  response : ∀ r a, (s.thriftStructs r).respAvpListPtr = some a →
    s.DecodedFrom accountingResponse r a
  both : ∀ r, (s.thriftStructs r).reqAvpListPtr.isSome → (s.thriftStructs r).respAvpListPtr.isSome →
    ∃ key, s.StoredUnder r key
  held_record : ∀ w msg r, held w = some (msg, r) → s.HeldFor msg r
  held_inj : ∀ w w' msg msg' r, held w = some (msg, r) → held w' = some (msg', r) → w = w'

/-- No worker holds a record. -/
def nobody : ℕ → Option (DecodedMsg × RecordId) := fun _ => none

/-! ## The functions, field by field -/

theorem pushOutput_eq (s : Shared) (r : RecordId) :
    s.pushOutput r = { s with
      outputQueue := (s.outputQueue.tryPush (some r)).getD s.outputQueue
      pushed := if s.outputQueue.Full then s.pushed else s.pushed ++ [r]
      refused := if s.outputQueue.Full then s.refused ++ [r] else s.refused } := by
  unfold pushOutput
  cases push : s.outputQueue.tryPush (some r) with
  | none => simp [BoundedQueue.tryPush_eq_none.mp push]
  | some q => simp [(BoundedQueue.tryPush_eq_some.mp push).1]

theorem hit_eq (s : Shared) (msg : DecodedMsg) (r : RecordId) :
    s.hit msg r = { s with
      thriftStructs := Function.update s.thriftStructs r
        (merge msg r ((s.thriftStructs r).onTimer .cancel)).1
      hashTable := Function.update s.hashTable msg.flowKey none
      outputQueue := (s.outputQueue.tryPush (some r)).getD s.outputQueue
      pushed := if s.outputQueue.Full then s.pushed else s.pushed ++ [r]
      refused := if s.outputQueue.Full then s.refused ++ [r] else s.refused
      handled := s.handled ++
        [(msg, (merge msg r ((s.thriftStructs r).onTimer .cancel)).2)] } := by
  simp only [hit, pushOutput_eq]
  rfl

theorem store_eq (s : Shared) (msg : DecodedMsg) (r : RecordId) :
    s.store msg r = { s with
      hashTable := Function.update s.hashTable msg.flowKey (some (some r))
      handled := s.handled ++
        [(msg, if (s.hashTable msg.flowKey).isSome then .overwrote r else .stored r)] } := by
  unfold store insert
  cases s.hashTable msg.flowKey <;> simp [assign, note]

theorem hit_handled (s : Shared) (msg : DecodedMsg) (r : RecordId) :
    (s.hit msg r).handled =
      s.handled ++ [(msg, (merge msg r ((s.thriftStructs r).onTimer .cancel)).2)] := by
  rw [hit_eq]

theorem store_handled {s : Shared} {msg : DecodedMsg} (absent : s.hashTable msg.flowKey = none)
    (r : RecordId) : (s.store msg r).handled = s.handled ++ [(msg, .stored r)] := by
  rw [store_eq]
  simp [absent]

theorem create_eq (s : Shared) (msg : DecodedMsg) :
    s.create msg = { s with
      thriftStructs := Function.update s.thriftStructs s.allocated (fresh msg)
      allocated := s.allocated + 1 } := rfl

theorem setWait_eq (s : Shared) (r : RecordId) (wait : Wait) :
    s.setWait r wait = { s with
      thriftStructs := Function.update s.thriftStructs r
        ((s.thriftStructs r).onTimer fun timer => { timer with wait }) } := rfl

/-- What a handler does when its wait expired and there is an entry. -/
theorem handleTimeout_eq {s : Shared} {owner r : RecordId} {key : FlowKey}
    (found : s.hashTable key = some (some r)) :
    s.handleTimeout owner key false = { s with
      hashTable := Function.update s.hashTable key none
      outputQueue := (s.outputQueue.tryPush (some r)).getD s.outputQueue
      pushed := if s.outputQueue.Full then s.pushed else s.pushed ++ [r]
      refused := if s.outputQueue.Full then s.refused ++ [r] else s.refused
      unmatchedReqsNum := s.unmatchedReqsNum + 1
      evicted := s.evicted ++ [(owner, r)] } := by
  simp only [handleTimeout, found, pushOutput_eq]
  rfl

theorem handleTimeout_aborted (s : Shared) (owner : RecordId) (key : FlowKey) :
    s.handleTimeout owner key true = s := rfl

theorem handleTimeout_no_entry {s : Shared} {owner : RecordId} {key : FlowKey}
    (absent : s.hashTable key = none) : s.handleTimeout owner key false = s := by
  simp [handleTimeout, absent]

/-! ## Merging -/

/-- The three branches on a one-list record, by what the record holds. -/
theorem merge_cases (msg : DecodedMsg) (r : RecordId) {t : ThriftStruct} (one : t.HasOneList) :
    (msg.radMsgCode = accountingRequest ∧ t.reqAvpListPtr = none ∧
      (∃ b, t.respAvpListPtr = some b) ∧
      merge msg r t = (t.setReqAvpListPtr msg.avpListPtr, .merged r)) ∨
    (msg.radMsgCode = accountingResponse ∧ t.respAvpListPtr = none ∧
      (∃ a, t.reqAvpListPtr = some a) ∧
      merge msg r t = (t.setRespAvpListPtr msg.avpListPtr, .merged r)) ∨
    (msg.radMsgCode = accountingRequest ∧ t.respAvpListPtr = none ∧
      (∃ a, t.reqAvpListPtr = some a) ∧ merge msg r t = (t, .logicalError r)) ∨
    (msg.radMsgCode = accountingResponse ∧ t.reqAvpListPtr = none ∧
      (∃ b, t.respAvpListPtr = some b) ∧ merge msg r t = (t, .logicalError r)) := by
  unfold ThriftStruct.HasOneList at one
  rcases msg.accounting with code | code <;>
    cases req : t.reqAvpListPtr <;> cases resp : t.respAvpListPtr <;>
    simp_all [merge]

theorem merge_storedRecord (msg : DecodedMsg) (r : RecordId) (t : ThriftStruct) :
    (merge msg r t).2.storedRecord = none := by
  unfold merge
  split
  · rfl
  · split <;> rfl

/-- Merging sets a list of the message's own code and keeps the others. -/
theorem merge_request {msg : DecodedMsg} {r : RecordId} {t : ThriftStruct} {a : AvpListPtr}
    (h : (merge msg r t).1.reqAvpListPtr = some a) :
    t.reqAvpListPtr = some a ∨
      (a = msg.avpListPtr ∧ msg.radMsgCode = accountingRequest) := by
  unfold merge at h
  split at h
  · rename_i branch
    exact .inr ⟨by simpa [ThriftStruct.setReqAvpListPtr] using h.symm, branch.1⟩
  · split at h <;> exact .inl h

theorem merge_response {msg : DecodedMsg} {r : RecordId} {t : ThriftStruct} {a : AvpListPtr}
    (h : (merge msg r t).1.respAvpListPtr = some a) :
    t.respAvpListPtr = some a ∨
      (a = msg.avpListPtr ∧ msg.radMsgCode = accountingResponse) := by
  unfold merge at h
  split at h
  · exact .inl h
  · split at h
    · rename_i branch
      exact .inr ⟨by simpa [ThriftStruct.setRespAvpListPtr] using h.symm, branch.1⟩
    · exact .inl h

theorem merge_nonempty (msg : DecodedMsg) (r : RecordId) {t : ThriftStruct} (one : t.HasOneList) :
    (merge msg r t).1.reqAvpListPtr.isSome ∨ (merge msg r t).1.respAvpListPtr.isSome := by
  rcases merge_cases msg r one with ⟨-, -, ⟨b, h⟩, eq⟩ | ⟨-, -, ⟨a, h⟩, eq⟩ | ⟨-, -, ⟨a, h⟩, eq⟩ |
    ⟨-, -, ⟨b, h⟩, eq⟩ <;> rw [eq]
  · exact .inl rfl
  · exact .inr rfl
  · exact .inl (by simp [h])
  · exact .inr (by simp [h])

theorem fresh_hasOneList (msg : DecodedMsg) : (fresh msg).HasOneList := by
  unfold fresh
  split <;> rfl

theorem fresh_request {msg : DecodedMsg} {a : AvpListPtr}
    (h : (fresh msg).reqAvpListPtr = some a) :
    a = msg.avpListPtr ∧ msg.radMsgCode = accountingRequest := by
  unfold fresh at h
  split at h
  · rename_i code
    exact ⟨by simpa [ThriftStruct.setReqAvpListPtr] using h.symm, code⟩
  · cases h

theorem fresh_response {msg : DecodedMsg} {a : AvpListPtr}
    (h : (fresh msg).respAvpListPtr = some a) :
    a = msg.avpListPtr ∧ msg.radMsgCode = accountingResponse := by
  unfold fresh at h
  split at h
  · cases h
  · rename_i code
    exact ⟨by simpa [ThriftStruct.setRespAvpListPtr] using h.symm,
      msg.accounting.resolve_left code⟩

/-! ## Preservation -/

variable {s s' : Shared} {held : ℕ → Option (DecodedMsg × RecordId)} {msg : DecodedMsg}
  {r r' : RecordId} {key : FlowKey} {w : ℕ}

theorem inv_init (capacity : ℕ) : (init capacity).Inv nobody where
  entry := by simp [init]
  stored_lt := by simp [init, StoredUnder]
  stored_key := by simp [init, StoredUnder]
  pushed := by simp [init]
  refused := by simp [init]
  evicted := by simp [init]
  request := by simp [init, ThriftStruct.new]
  response := by simp [init, ThriftStruct.new]
  both := by simp [init, ThriftStruct.new]
  held_record := by simp [nobody]
  held_inj := by simp [nobody]

/-- A record in the table is not one that has left it. -/
theorem Gone.ne (gone : s.Gone r') (found : s.hashTable key = some (some r)) : r' ≠ r := by
  rintro rfl
  exact gone.absent key found

theorem Gone.mono {u : Shared} (gone : s.Gone r)
    (stored : ∀ key, s.StoredUnder r key → u.StoredUnder r key)
    (table : ∀ key, u.hashTable key = some (some r) → s.hashTable key = some (some r)) :
    u.Gone r := by
  obtain ⟨⟨key, under⟩, absent⟩ := gone
  exact ⟨⟨key, stored key under⟩, fun key found => absent key (table key found)⟩

theorem DecodedFrom.mono {u : Shared} {code : UInt16} {a : AvpListPtr}
    (decoded : s.DecodedFrom code r a) (taken : ∀ msg ∈ s.taken, msg ∈ u.taken)
    (stored : ∀ key, u.StoredUnder r key → s.StoredUnder r key) : u.DecodedFrom code r a := by
  obtain ⟨msg, mem, ptr, code, keys⟩ := decoded
  exact ⟨msg, taken msg mem, ptr, code, fun key under => keys key (stored key under)⟩

/-- A step that leaves the table, the lists and the history alone. -/
theorem Inv.congr {u : Shared} (inv : s.Inv held) (lists : ∀ r, (u.thriftStructs r).lists =
      (s.thriftStructs r).lists)
    (allocated : u.allocated = s.allocated) (hashTable : u.hashTable = s.hashTable)
    (taken : u.taken = s.taken) (handled : u.handled = s.handled)
    (pushed : u.pushed = s.pushed) (refused : u.refused = s.refused)
    (evicted : u.evicted = s.evicted) : u.Inv held := by
  have req : ∀ r, (u.thriftStructs r).reqAvpListPtr = (s.thriftStructs r).reqAvpListPtr :=
    fun r => congrArg Prod.fst (lists r)
  have resp : ∀ r, (u.thriftStructs r).respAvpListPtr = (s.thriftStructs r).respAvpListPtr :=
    fun r => congrArg Prod.snd (lists r)
  have one : ∀ r, (u.thriftStructs r).HasOneList ↔ (s.thriftStructs r).HasOneList :=
    fun r => ThriftStruct.hasOneList_congr (lists r)
  have storedUnder : ∀ r key, u.StoredUnder r key ↔ s.StoredUnder r key := by
    intro r key
    rw [StoredUnder, StoredUnder, handled]
  have gone : ∀ r, s.Gone r → u.Gone r := fun r gone =>
    gone.mono (fun key => (storedUnder r key).mpr) (by simp [hashTable])
  have decodedFrom : ∀ code r a, s.DecodedFrom code r a → u.DecodedFrom code r a :=
    fun code r a decoded => decoded.mono (by simp [taken]) fun key => (storedUnder r key).mp
  refine ⟨?_, ?_, ?_, ?_, ?_, ?_, ?_, ?_, ?_, ?_, inv.held_inj⟩
  · intro key p found
    rw [hashTable] at found
    obtain ⟨r, rfl, stored, list⟩ := inv.entry key p found
    exact ⟨r, rfl, (storedUnder r key).mpr stored, (one r).mpr list⟩
  · intro r key stored
    rw [allocated]
    exact inv.stored_lt r key ((storedUnder r key).mp stored)
  · intro r key key' stored stored'
    exact inv.stored_key r key key' ((storedUnder r key).mp stored)
      ((storedUnder r key').mp stored')
  · intro r mem
    rw [pushed] at mem
    rw [req, resp]
    exact ⟨gone r (inv.pushed r mem).1, (inv.pushed r mem).2⟩
  · intro r mem
    rw [refused] at mem
    exact gone r (inv.refused r mem)
  · intro owner r mem
    rw [evicted] at mem
    exact ⟨gone r (inv.evicted owner r mem).1, (one r).mpr (inv.evicted owner r mem).2⟩
  · intro r a set
    rw [req] at set
    exact decodedFrom _ r a (inv.request r a set)
  · intro r a set
    rw [resp] at set
    exact decodedFrom _ r a (inv.response r a set)
  · intro r
    rw [req, resp]
    intro hasReq hasResp
    obtain ⟨key, stored⟩ := inv.both r hasReq hasResp
    exact ⟨key, (storedUnder r key).mpr stored⟩
  · intro w msg r holds
    obtain ⟨lt, fresh, mem, oneList, request, response⟩ := inv.held_record w msg r holds
    refine ⟨by rwa [allocated], fun key stored => fresh key ((storedUnder r key).mp stored),
      by rwa [taken], (one r).mpr oneList, ?_, ?_⟩
    · rwa [req]
    · rwa [resp]

theorem Inv.take (inv : s.Inv held) (msg : DecodedMsg) : (s.take msg).Inv held := by
  have wider : ∀ m ∈ s.taken, m ∈ (s.take msg).taken := fun m mem =>
    List.mem_append_left _ mem
  have gone : ∀ r, s.Gone r → (s.take msg).Gone r := fun r gone =>
    gone.mono (fun _ stored => stored) (fun _ found => found)
  refine { inv with request := ?_, response := ?_, held_record := ?_, pushed := ?_,
                    refused := ?_, evicted := ?_ }
  · exact fun r mem => ⟨gone r (inv.pushed r mem).1, (inv.pushed r mem).2⟩
  · exact fun r mem => gone r (inv.refused r mem)
  · exact fun owner r mem => ⟨gone r (inv.evicted owner r mem).1, (inv.evicted owner r mem).2⟩
  · exact fun r a set => (inv.request r a set).mono wider fun _ stored => stored
  · exact fun r a set => (inv.response r a set).mono wider fun _ stored => stored
  · intro w m r holds
    obtain ⟨lt, fresh, mem, oneList, request, response⟩ := inv.held_record w m r holds
    exact ⟨lt, fresh, wider m mem, oneList, request, response⟩

/-- A record leaves the table: what is common to a hit and to a timeout. The
record may get new lists, of which `request` and `response` account for. -/
theorem Inv.leave {u : Shared} (inv : s.Inv held) (found : s.hashTable key = some (some r))
    (structs : ∀ r', r' ≠ r → u.thriftStructs r' = s.thriftStructs r')
    (allocated : u.allocated = s.allocated)
    (hashTable : u.hashTable = Function.update s.hashTable key none)
    (taken : u.taken = s.taken)
    (storedUnder : ∀ r key, u.StoredUnder r key ↔ s.StoredUnder r key)
    (pushed : ∀ r' ∈ u.pushed, r' ∈ s.pushed ∨ r' = r)
    (refused : ∀ r' ∈ u.refused, r' ∈ s.refused ∨ r' = r)
    (evicted : ∀ owner r', (owner, r') ∈ u.evicted → (owner, r') ∈ s.evicted ∨
      (r' = r ∧ (u.thriftStructs r).HasOneList))
    (nonempty : (u.thriftStructs r).reqAvpListPtr.isSome ∨
      (u.thriftStructs r).respAvpListPtr.isSome)
    (request : ∀ a, (u.thriftStructs r).reqAvpListPtr = some a →
      s.DecodedFrom accountingRequest r a)
    (response : ∀ a, (u.thriftStructs r).respAvpListPtr = some a →
      s.DecodedFrom accountingResponse r a) : u.Inv held := by
  obtain ⟨r₀, eq, stored, -⟩ := inv.entry key _ found
  cases eq
  have decodedFrom : ∀ code r' a, s.DecodedFrom code r' a → u.DecodedFrom code r' a :=
    fun code r' a decoded => decoded.mono (by simp [taken]) fun k => (storedUnder r' k).mp
  -- the record that leaves is under no other key
  have leaves : u.Gone r := by
    refine ⟨⟨key, (storedUnder r key).mpr stored⟩, fun k => ?_⟩
    rw [hashTable]
    by_cases same : k = key
    · subst same
      simp
    · rw [Function.update_of_ne same]
      intro elsewhere
      obtain ⟨r₁, eq, stored', -⟩ := inv.entry k _ elsewhere
      cases eq
      exact same (inv.stored_key r k key stored' stored)
  have stays : ∀ r', s.Gone r' → u.Gone r' := by
    intro r' gone
    apply gone.mono fun k => (storedUnder r' k).mpr
    intro k elsewhere
    rw [hashTable] at elsewhere
    rcases update_eq_cases elsewhere with ⟨-, eq⟩ | ⟨-, entry⟩
    · cases eq
    · exact entry
  refine ⟨?_, ?_, ?_, ?_, ?_, ?_, ?_, ?_, ?_, ?_, inv.held_inj⟩
  · intro k p entry
    rw [hashTable] at entry
    rcases update_eq_cases entry with ⟨-, eq⟩ | ⟨same, entry⟩
    · cases eq
    · obtain ⟨r', rfl, st, one⟩ := inv.entry k p entry
      have other : r' ≠ r := by
        rintro rfl
        exact same (inv.stored_key r' k key st stored)
      exact ⟨r', rfl, (storedUnder r' k).mpr st, by rwa [structs r' other]⟩
  · intro r' k st
    rw [allocated]
    exact inv.stored_lt r' k ((storedUnder r' k).mp st)
  · intro r' k k' st st'
    exact inv.stored_key r' k k' ((storedUnder r' k).mp st) ((storedUnder r' k').mp st')
  · intro r' mem
    rcases pushed r' mem with old | rfl
    · obtain ⟨gone, lists⟩ := inv.pushed r' old
      rw [structs r' (gone.ne found)]
      exact ⟨stays r' gone, lists⟩
    · exact ⟨leaves, nonempty⟩
  · intro r' mem
    rcases refused r' mem with old | rfl
    · exact stays r' (inv.refused r' old)
    · exact leaves
  · intro owner r' mem
    rcases evicted owner r' mem with old | ⟨rfl, one⟩
    · obtain ⟨gone, list⟩ := inv.evicted owner r' old
      rw [structs r' (gone.ne found)]
      exact ⟨stays r' gone, list⟩
    · exact ⟨leaves, one⟩
  · intro r' a set
    by_cases same : r' = r
    · subst same
      exact decodedFrom _ _ _ (request a set)
    · rw [structs r' same] at set
      exact decodedFrom _ _ _ (inv.request r' a set)
  · intro r' a set
    by_cases same : r' = r
    · subst same
      exact decodedFrom _ _ _ (response a set)
    · rw [structs r' same] at set
      exact decodedFrom _ _ _ (inv.response r' a set)
  · intro r' hasReq hasResp
    by_cases same : r' = r
    · subst same
      exact leaves.stored
    · rw [structs r' same] at hasReq hasResp
      obtain ⟨k, st⟩ := inv.both r' hasReq hasResp
      exact ⟨k, (storedUnder r' k).mpr st⟩
  · intro w m r' holds
    obtain ⟨lt, fresh, mem, oneList, req, resp⟩ := inv.held_record w m r' holds
    have other : r' ≠ r := by
      rintro rfl
      exact fresh key stored
    refine ⟨by rwa [allocated], fun k st => fresh k ((storedUnder r' k).mp st), by rwa [taken],
      ?_, ?_, ?_⟩
    · rwa [structs r' other]
    · rwa [structs r' other]
    · rwa [structs r' other]

theorem mem_pushed_cases {full : Prop} [Decidable full] {l : List RecordId}
    (mem : r' ∈ if full then l else l ++ [r]) : r' ∈ l ∨ r' = r := by
  split at mem
  · exact .inl mem
  · simpa using mem

theorem mem_refused_cases {full : Prop} [Decidable full] {l : List RecordId}
    (mem : r' ∈ if full then l ++ [r] else l) : r' ∈ l ∨ r' = r := by
  split at mem
  · simpa using mem
  · exact .inl mem

theorem hit_storedUnder : (s.hit msg r).StoredUnder r' key ↔ s.StoredUnder r' key := by
  rw [StoredUnder, hit_eq]
  simp [StoredUnder, or_and_right, exists_or, merge_storedRecord]

theorem Inv.hit (inv : s.Inv held) (found : s.hashTable msg.flowKey = some (some r))
    (mem : msg ∈ s.taken) : (s.hit msg r).Inv held := by
  obtain ⟨r₀, eq, stored, one⟩ := inv.entry _ _ found
  cases eq
  have own : ∀ k, s.StoredUnder r k → msg.flowKey = k :=
    fun k st => inv.stored_key r _ _ stored st
  have structs : (s.hit msg r).thriftStructs = Function.update s.thriftStructs r
      (merge msg r ((s.thriftStructs r).onTimer .cancel)).1 := by rw [hit_eq]
  have at_r : (s.hit msg r).thriftStructs r =
      (merge msg r ((s.thriftStructs r).onTimer .cancel)).1 := by
    rw [structs, Function.update_self]
  refine inv.leave found ?_ (by rw [hit_eq]) (by rw [hit_eq]) (by rw [hit_eq])
    (fun _ _ => hit_storedUnder) ?_ ?_ ?_ ?_ ?_ ?_
  · intro r' other
    rw [structs, Function.update_of_ne other]
  · rw [hit_eq]
    exact fun r' h => mem_pushed_cases h
  · rw [hit_eq]
    exact fun r' h => mem_refused_cases h
  · rw [hit_eq]
    exact fun owner r' h => .inl h
  · rw [at_r]
    exact merge_nonempty msg r ((ThriftStruct.hasOneList_congr (by simp)).mpr one)
  · intro a set
    rw [at_r] at set
    rcases merge_request set with old | ⟨rfl, code⟩
    · exact inv.request r a old
    · exact ⟨msg, mem, rfl, code, own⟩
  · intro a set
    rw [at_r] at set
    rcases merge_response set with old | ⟨rfl, code⟩
    · exact inv.response r a old
    · exact ⟨msg, mem, rfl, code, own⟩

theorem Inv.handleTimeout (inv : s.Inv held) (owner : RecordId) (key : FlowKey)
    (operationAborted : Bool) : (s.handleTimeout owner key operationAborted).Inv held := by
  cases operationAborted with
  | true => exact inv
  | false =>
      cases found : s.hashTable key with
      | none => rwa [handleTimeout_no_entry found]
      | some p =>
          obtain ⟨r, rfl, -, one⟩ := inv.entry key p found
          refine inv.leave (u := s.handleTimeout owner key false) found ?_ ?_ ?_ ?_ ?_
            ?_ ?_ ?_ ?_ ?_ ?_ <;> rw [handleTimeout_eq found]
          · exact fun r' _ => rfl
          · exact fun r' k => Iff.rfl
          · exact fun r' h => mem_pushed_cases h
          · exact fun r' h => mem_refused_cases h
          · intro own r' h
            rcases List.mem_append.mp h with old | new
            · exact .inl old
            · obtain ⟨rfl, rfl⟩ := Prod.mk.inj (List.mem_singleton.mp new)
              exact .inr ⟨rfl, one⟩
          · unfold ThriftStruct.HasOneList at one
            cases req : (s.thriftStructs r).reqAvpListPtr <;> simp_all
          · exact fun a set => inv.request r a set
          · exact fun a set => inv.response r a set

theorem Inv.create (inv : s.Inv held) (mem : msg ∈ s.taken) :
    (s.create msg).Inv (Function.update held w (some (msg, s.allocated))) := by
  have unstored : ∀ k, ¬ s.StoredUnder s.allocated k :=
    fun k stored => absurd (inv.stored_lt _ k stored) (Nat.lt_irrefl _)
  have other : ∀ {r k}, s.StoredUnder r k →
      (s.create msg).thriftStructs r = s.thriftStructs r := by
    intro r k stored
    have ne : r ≠ s.allocated := by
      rintro rfl
      exact unstored k stored
    exact Function.update_of_ne ne _ _
  have gone : ∀ r, s.Gone r → (s.create msg).Gone r := fun r gone =>
    gone.mono (fun _ stored => stored) (fun _ found => found)
  refine ⟨?_, ?_, inv.stored_key, ?_, ?_, ?_, ?_, ?_, ?_, ?_, ?_⟩
  · intro k p found
    obtain ⟨r, rfl, stored, one⟩ := inv.entry k p found
    exact ⟨r, rfl, stored, by rwa [other stored]⟩
  · intro r k stored
    exact Nat.lt_succ_of_lt (inv.stored_lt r k stored)
  · intro r h
    obtain ⟨left, lists⟩ := inv.pushed r h
    obtain ⟨k, stored⟩ := left.stored
    exact ⟨gone r left, by rwa [other stored]⟩
  · exact fun r h => gone r (inv.refused r h)
  · intro owner r h
    obtain ⟨left, one⟩ := inv.evicted owner r h
    obtain ⟨k, stored⟩ := left.stored
    exact ⟨gone r left, by rwa [other stored]⟩
  · intro r a set
    by_cases new : r = s.allocated
    · subst new
      obtain ⟨rfl, code⟩ := fresh_request (by simpa [create_eq] using set)
      exact ⟨msg, mem, rfl, code, fun k stored => absurd stored (unstored k)⟩
    · exact inv.request r a (by simpa [create_eq, new] using set)
  · intro r a set
    by_cases new : r = s.allocated
    · subst new
      obtain ⟨rfl, code⟩ := fresh_response (by simpa [create_eq] using set)
      exact ⟨msg, mem, rfl, code, fun k stored => absurd stored (unstored k)⟩
    · exact inv.response r a (by simpa [create_eq, new] using set)
  · intro r hasReq hasResp
    by_cases new : r = s.allocated
    · subst new
      have one := fresh_hasOneList msg
      simp_all [create_eq, ThriftStruct.HasOneList]
    · exact inv.both r (by simpa [create_eq, new] using hasReq)
        (by simpa [create_eq, new] using hasResp)
  · intro w' m r holds
    rcases update_eq_cases holds with ⟨rfl, eq⟩ | ⟨-, holds⟩
    · cases eq
      have new : (s.create msg).thriftStructs s.allocated = fresh msg :=
        Function.update_self _ _ _
      refine ⟨Nat.lt_succ_self _, unstored, mem, ?_, fun a set => ?_, fun a set => ?_⟩
      · rw [new]
        exact fresh_hasOneList msg
      · rw [new] at set
        exact fresh_request set
      · rw [new] at set
        exact fresh_response set
    · obtain ⟨lt, unst, mem', oneList, req, resp⟩ := inv.held_record w' m r holds
      have old : (s.create msg).thriftStructs r = s.thriftStructs r :=
        Function.update_of_ne (Nat.ne_of_lt lt) _ _
      exact ⟨Nat.lt_succ_of_lt lt, unst, mem', by rwa [old], by rwa [old], by rwa [old]⟩
  · intro w₁ w₂ m₁ m₂ r h₁ h₂
    -- the new record is above every record that was held before
    have below : ∀ w' m, held w' = some (m, r) → r < s.allocated :=
      fun w' m h => (inv.held_record w' m r h).lt
    rcases update_eq_cases h₁ with ⟨here₁, eq₁⟩ | ⟨-, old₁⟩ <;>
      rcases update_eq_cases h₂ with ⟨here₂, eq₂⟩ | ⟨-, old₂⟩
    · rw [here₁, here₂]
    · cases eq₁
      exact absurd (below w₂ m₂ old₂) (Nat.lt_irrefl _)
    · cases eq₂
      exact absurd (below w₁ m₁ old₁) (Nat.lt_irrefl _)
    · exact inv.held_inj w₁ w₂ m₁ m₂ r old₁ old₂

theorem store_storedUnder : (s.store msg r).StoredUnder r' key ↔
    s.StoredUnder r' key ∨ (r' = r ∧ msg.flowKey = key) := by
  have stores : (if (s.hashTable msg.flowKey).isSome then Outcome.overwrote r
      else Outcome.stored r).storedRecord = some r := by
    split <;> rfl
  rw [StoredUnder, store_eq]
  simp only [List.mem_append, List.mem_singleton, Prod.mk.injEq, StoredUnder]
  constructor
  · rintro ⟨m, o, old | ⟨rfl, rfl⟩, record, k⟩
    · exact .inl ⟨m, o, old, record, k⟩
    · rw [stores, Option.some.injEq] at record
      exact .inr ⟨record.symm, k⟩
  · rintro (⟨m, o, old, record, k⟩ | ⟨rfl, k⟩)
    · exact ⟨m, o, .inl old, record, k⟩
    · exact ⟨msg, _, .inr ⟨rfl, rfl⟩, stores, k⟩

/-- Storing a record, whose lists are those of the message, makes no list of
another message one of the record's key. -/
theorem DecodedFrom.store {code : UInt16} {a : AvpListPtr} (decoded : s.DecodedFrom code r' a)
    (mine : s.HeldFor msg r) (own : r' = r → a = msg.avpListPtr ∧ msg.radMsgCode = code) :
    (s.store msg r).DecodedFrom code r' a := by
  have taken : (s.store msg r).taken = s.taken := by rw [store_eq]
  by_cases same : r' = r
  · subst same
    obtain ⟨rfl, code⟩ := own rfl
    refine ⟨msg, ?_, rfl, code, fun k stored => ?_⟩
    · rw [taken]
      exact mine.mem
    · rcases store_storedUnder.mp stored with old | ⟨-, eq⟩
      · exact absurd old (mine.fresh k)
      · exact eq
  · apply decoded.mono (by simp [taken])
    intro k stored
    rcases store_storedUnder.mp stored with old | ⟨eq, -⟩
    · exact old
    · exact absurd eq same

theorem Inv.store (inv : s.Inv held) (holds : held w = some (msg, r)) :
    (s.store msg r).Inv (Function.update held w none) := by
  have mine := inv.held_record w msg r holds
  have structs : (s.store msg r).thriftStructs = s.thriftStructs := by rw [store_eq]
  have taken : (s.store msg r).taken = s.taken := by rw [store_eq]
  have table : (s.store msg r).hashTable =
      Function.update s.hashTable msg.flowKey (some (some r)) := by rw [store_eq]
  have other : ∀ {r' k}, s.StoredUnder r' k → r' ≠ r := by
    rintro r' k stored rfl
    exact mine.fresh k stored
  have gone : ∀ r', s.Gone r' → (s.store msg r).Gone r' := by
    intro r' gone
    apply gone.mono fun k stored => store_storedUnder.mpr (.inl stored)
    intro k found
    rw [table] at found
    rcases update_eq_cases found with ⟨-, eq⟩ | ⟨-, entry⟩
    · -- the entry is the held record, which nobody has stored before
      cases eq
      obtain ⟨k, stored⟩ := gone.stored
      exact absurd rfl (other stored)
    · exact entry
  refine ⟨?_, ?_, ?_, ?_, ?_, ?_, ?_, ?_, ?_, ?_, ?_⟩
  · intro k p found
    rw [table] at found
    rcases update_eq_cases found with ⟨rfl, eq⟩ | ⟨-, entry⟩
    · refine ⟨r, (Option.some.inj eq).symm, store_storedUnder.mpr (.inr ⟨rfl, rfl⟩), ?_⟩
      rw [structs]
      exact mine.oneList
    · obtain ⟨r', rfl, stored, one⟩ := inv.entry k p entry
      exact ⟨r', rfl, store_storedUnder.mpr (.inl stored), by rwa [structs]⟩
  · intro r' k stored
    have lt : r' < s.allocated := by
      rcases store_storedUnder.mp stored with old | ⟨rfl, -⟩
      · exact inv.stored_lt r' k old
      · exact mine.lt
    rwa [show (s.store msg r).allocated = s.allocated by rw [store_eq]]
  · intro r' k k' stored stored'
    rcases store_storedUnder.mp stored with old | ⟨rfl, eq⟩ <;>
      rcases store_storedUnder.mp stored' with old' | ⟨same, eq'⟩
    · exact inv.stored_key r' k k' old old'
    · exact absurd same (other old)
    · exact absurd rfl (other old')
    · rw [← eq, ← eq']
  · intro r' h
    rw [show (s.store msg r).pushed = s.pushed by rw [store_eq]] at h
    rw [structs]
    exact ⟨gone r' (inv.pushed r' h).1, (inv.pushed r' h).2⟩
  · intro r' h
    rw [show (s.store msg r).refused = s.refused by rw [store_eq]] at h
    exact gone r' (inv.refused r' h)
  · intro owner r' h
    rw [show (s.store msg r).evicted = s.evicted by rw [store_eq]] at h
    rw [structs]
    exact ⟨gone r' (inv.evicted owner r' h).1, (inv.evicted owner r' h).2⟩
  · intro r' a set
    rw [structs] at set
    exact (inv.request r' a set).store mine fun same => mine.request a (same ▸ set)
  · intro r' a set
    rw [structs] at set
    exact (inv.response r' a set).store mine fun same => mine.response a (same ▸ set)
  · intro r' hasReq hasResp
    rw [structs] at hasReq hasResp
    obtain ⟨k, stored⟩ := inv.both r' hasReq hasResp
    exact ⟨k, store_storedUnder.mpr (.inl stored)⟩
  · intro w' m r' holds'
    rcases update_eq_cases holds' with ⟨-, eq⟩ | ⟨same, holds'⟩
    · cases eq
    · have their := inv.held_record w' m r' holds'
      have ne : r' ≠ r := by
        rintro rfl
        exact same (inv.held_inj w' w m msg r' holds' holds)
      constructor
      · rw [store_eq]
        exact their.lt
      · intro k stored
        rcases store_storedUnder.mp stored with old | ⟨eq, -⟩
        · exact their.fresh k old
        · exact ne eq
      · rw [taken]
        exact their.mem
      · rw [structs]
        exact their.oneList
      · rw [structs]
        exact their.request
      · rw [structs]
        exact their.response
  · intro w₁ w₂ m₁ m₂ r' h₁ h₂
    have keep : ∀ w' m, Function.update held w none w' = some (m, r') →
        held w' = some (m, r') := by
      intro w' m h
      rcases update_eq_cases h with ⟨-, eq⟩ | ⟨-, old⟩
      · cases eq
      · exact old
    exact inv.held_inj w₁ w₂ m₁ m₂ r' (keep w₁ m₁ h₁) (keep w₂ m₂ h₂)

theorem Inv.setWait (inv : s.Inv held) (r : RecordId) (wait : Wait) :
    (s.setWait r wait).Inv held := by
  refine inv.congr (u := s.setWait r wait) (fun r' => ?_) rfl rfl rfl rfl rfl rfl rfl
  rw [setWait_eq]
  by_cases same : r' = r
  · subst same
    simp
  · simp [same]

/-! ## One message as one step -/

/-- The two ways to handle a message. -/
theorem handleRadiusMessage_cases (step : s.handleRadiusMessage msg = some s') :
    (∃ r, s.hashTable msg.flowKey = some (some r) ∧ s' = (s.take msg).hit msg r) ∨
    (s.hashTable msg.flowKey = none ∧
      s' = ((s.take msg).create msg).store msg s.allocated) := by
  unfold handleRadiusMessage at step
  split at step
  · rename_i r found
    exact .inl ⟨r, found, by simpa using step.symm⟩
  · cases step
  · rename_i absent
    exact .inr ⟨absent, by simpa using step.symm⟩

theorem mem_take (s : Shared) (msg : DecodedMsg) : msg ∈ (s.take msg).taken :=
  List.mem_append_right _ (List.mem_singleton.mpr rfl)

/-- A worker that holds nothing handles a message. -/
theorem Inv.create_store (inv : s.Inv nobody) (mem : msg ∈ s.taken) :
    ((s.create msg).store msg s.allocated).Inv nobody := by
  have created := inv.create (w := 0) mem
  have free : Function.update (Function.update nobody 0 (some (msg, s.allocated))) 0 none =
      nobody := by
    rw [Function.update_idem]
    exact Function.update_eq_self 0 nobody
  rw [← free]
  exact created.store (Function.update_self _ _ _)

theorem Inv.handleRadiusMessage (inv : s.Inv nobody)
    (step : s.handleRadiusMessage msg = some s') : s'.Inv nobody := by
  rcases handleRadiusMessage_cases step with ⟨r, found, rfl⟩ | ⟨-, rfl⟩
  · exact (inv.take msg).hit found (mem_take s msg)
  · exact (inv.take msg).create_store (mem_take s msg)

/-- No null pointer is dereferenced. -/
theorem Inv.handleRadiusMessage_isSome (inv : s.Inv held) (msg : DecodedMsg) :
    ∃ s', s.handleRadiusMessage msg = some s' := by
  unfold Shared.handleRadiusMessage
  cases entry : s.hashTable msg.flowKey with
  | none => exact ⟨_, rfl⟩
  | some p =>
      obtain ⟨r, rfl, -⟩ := inv.entry _ p entry
      exact ⟨_, rfl⟩

/-- Timers and sender keep the invariant. -/
theorem Inv.envStep (inv : s.Inv held) {a : EnvAction} (step : s.envStep a = some s') :
    s'.Inv held := by
  cases a with
  | expire r =>
      simp only [Shared.envStep, expire] at step
      split at step
      · cases step
        exact inv.setWait r _
      · cases step
  | runHandler r =>
      simp only [Shared.envStep, runHandler] at step
      split at step
      · cases step
        exact (inv.setWait r _).handleTimeout r _ _
      · cases step
        exact (inv.setWait r _).handleTimeout r _ _
      · cases step
  | send applId now sendThrows =>
      simp only [Shared.envStep, sendThriftStructure] at step
      split at step
      · cases step
      · cases step
        exact inv.congr (fun _ => rfl) rfl rfl rfl rfl rfl rfl rfl
      · rename_i r q _
        cases step
        refine inv.congr (fun r' => ?_) rfl rfl rfl rfl rfl rfl rfl
        by_cases same : r' = r
        · subst same
          simp [write, ThriftStruct.lists, ThriftStruct.setApplId, ThriftStruct.setTimeStamp]
        · simp [write, same]

end Shared

end RadiusEventHandler
