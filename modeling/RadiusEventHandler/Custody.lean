import RadiusEventHandler.MessageSteps

/-!
# Where the list of a message is

Every record that has been created is in the table or has been pushed, unless
the output queue refused it, and a record holds the lists of the messages that
were stored with it or merged into it (`Custody`). A message that finds a
record with a list of its own code is the exception: the branch for logical
errors drops its list.
-/

namespace RadiusEventHandler

/-- The record that has got the list of a message. -/
def Outcome.keeper : Outcome → Option RecordId
  | .stored r => some r
  | .overwrote r => some r
  | .merged r => some r
  | .logicalError _ => none

namespace Shared

def HoldsList (s : Shared) (r : RecordId) (a : AvpListPtr) : Prop :=
  (s.thriftStructs r).reqAvpListPtr = some a ∨ (s.thriftStructs r).respAvpListPtr = some a

/-- The record is in the hash table or has been pushed. -/
def Kept (s : Shared) (r : RecordId) : Prop :=
  (∃ key, s.hashTable key = some (some r)) ∨ r ∈ s.pushed

/-- The message finds a record that has a list of the message's own code. -/
def MeetsSameCode (s : Shared) (msg : DecodedMsg) : Prop :=
  ∃ r, s.hashTable msg.flowKey = some (some r) ∧
    ((msg.radMsgCode = accountingRequest ∧ (s.thriftStructs r).reqAvpListPtr.isSome) ∨
      (msg.radMsgCode = accountingResponse ∧ (s.thriftStructs r).respAvpListPtr.isSome))

structure Custody (s : Shared) : Prop where
  kept : ∀ r, r < s.allocated → s.Kept r ∨ r ∈ s.refused
  holds : ∀ r a, s.HoldsList r a ↔
    ∃ msg outcome, (msg, outcome) ∈ s.handled ∧ msg.avpListPtr = a ∧ outcome.keeper = some r
  keeper_lt : ∀ msg outcome r, (msg, outcome) ∈ s.handled → outcome.keeper = some r →
    r < s.allocated
  handled : s.handled.map Prod.fst = s.taken
  once : (s.taken.map DecodedMsg.id).Nodup

variable {s s' t : Shared} {msg : DecodedMsg} {r : RecordId} {key : FlowKey} {a : AvpListPtr}
  {acts : List MessageAction} {capacity : ℕ} {outcome : Outcome}

/-! ## The two branches -/

/-- Merging adds the message's list and loses none. -/
theorem merge_holds {thrift : ThriftStruct} (one : thrift.HasOneList) :
    (merge msg r thrift).1.reqAvpListPtr = some a ∨
        (merge msg r thrift).1.respAvpListPtr = some a ↔
      (thrift.reqAvpListPtr = some a ∨ thrift.respAvpListPtr = some a) ∨
        (msg.avpListPtr = a ∧ (merge msg r thrift).2.keeper = some r) := by
  rcases merge_cases msg r one with ⟨-, free, -, eq⟩ | ⟨-, free, -, eq⟩ | ⟨-, -, -, eq⟩ |
    ⟨-, -, -, eq⟩ <;> rw [eq]
  · simp [ThriftStruct.setReqAvpListPtr, Outcome.keeper, free, or_comm]
  · simp [ThriftStruct.setRespAvpListPtr, Outcome.keeper, free]
  · simp [Outcome.keeper]
  · simp [Outcome.keeper]

theorem merge_keeper {thrift : ThriftStruct} {r' : RecordId}
    (keeper : (merge msg r thrift).2.keeper = some r') : r' = r := by
  unfold merge at keeper
  split at keeper
  · simpa [Outcome.keeper] using keeper.symm
  · split at keeper
    · simpa [Outcome.keeper] using keeper.symm
    · cases keeper

theorem fresh_holds (msg : DecodedMsg) :
    (fresh msg).reqAvpListPtr = some a ∨ (fresh msg).respAvpListPtr = some a ↔
      msg.avpListPtr = a := by
  unfold fresh
  split <;> simp [ThriftStruct.new, ThriftStruct.setReqAvpListPtr, ThriftStruct.setRespAvpListPtr]

/-! ## Custody is kept -/

/-- One more message has been handled, and its keeper holds its list. -/
theorem Custody.holds_concat (custody : s.Custody)
    (handled : s'.handled = s.handled ++ [(msg, outcome)])
    (holds : ∀ r a, s'.HoldsList r a ↔
      s.HoldsList r a ∨ (msg.avpListPtr = a ∧ outcome.keeper = some r)) (r : RecordId)
    (a : AvpListPtr) :
    s'.HoldsList r a ↔ ∃ msg outcome, (msg, outcome) ∈ s'.handled ∧ msg.avpListPtr = a ∧
      outcome.keeper = some r := by
  rw [holds, custody.holds, handled]
  simp only [List.mem_append, List.mem_singleton, Prod.mk.injEq]
  constructor
  · rintro (⟨m, o, mem, rest⟩ | ⟨ptr, keeper⟩)
    · exact ⟨m, o, .inl mem, rest⟩
    · exact ⟨msg, outcome, .inr ⟨rfl, rfl⟩, ptr, keeper⟩
  · rintro ⟨m, o, mem | ⟨rfl, rfl⟩, rest⟩
    · exact .inl ⟨m, o, mem, rest⟩
    · exact .inr rest

theorem Custody.once_take (custody : s.Custody) (unused : msg.id ∉ s.taken.map DecodedMsg.id) :
    ((s.take msg).taken.map DecodedMsg.id).Nodup := by
  rw [take, List.map_append, List.map_singleton, ← List.concat_eq_append]
  exact List.Nodup.concat unused custody.once

/-- A record leaves the table for the output queue, or is refused there. -/
theorem kept_of_leave (found : s.hashTable key = some (some r))
    (kept : ∀ r', r' < s.allocated → s.Kept r' ∨ r' ∈ s.refused)
    (allocated : s'.allocated = s.allocated)
    (hashTable : s'.hashTable = Function.update s.hashTable key none)
    (pushed : s'.pushed = if s.outputQueue.Full then s.pushed else s.pushed ++ [r])
    (refused : s'.refused = if s.outputQueue.Full then s.refused ++ [r] else s.refused) :
    ∀ r', r' < s'.allocated → s'.Kept r' ∨ r' ∈ s'.refused := by
  intro r' lt
  rw [allocated] at lt
  by_cases same : r' = r
  · -- the record that leaves: whether it was pushed is up to the queue
    subst same
    by_cases full : s.outputQueue.Full
    · exact .inr (by rw [refused, if_pos full]; simp)
    · exact .inl (.inr (by rw [pushed, if_neg full]; simp))
  · rcases kept r' lt with (⟨key', entry⟩ | mem) | mem
    · have other : key' ≠ key := by
        rintro rfl
        exact same (by simpa [found] using entry.symm)
      exact .inl (.inl ⟨key', by rw [hashTable, Function.update_of_ne other, entry]⟩)
    · exact .inl (.inr (by rw [pushed]; split <;> simp [mem]))
    · exact .inr (by rw [refused]; split <;> simp [mem])

theorem Custody.hit (custody : s.Custody) (inv : s.Inv nobody)
    (found : s.hashTable msg.flowKey = some (some r))
    (unused : msg.id ∉ s.taken.map DecodedMsg.id) : ((s.take msg).hit msg r).Custody := by
  obtain ⟨r₀, eq, stored, one⟩ := inv.entry _ _ found
  cases eq
  have handled : ((s.take msg).hit msg r).handled =
      s.handled ++ [(msg, (merge msg r ((s.thriftStructs r).onTimer .cancel)).2)] :=
    hit_handled (s.take msg) msg r
  refine ⟨?_, custody.holds_concat handled ?_, ?_, ?_, ?_⟩
  · refine kept_of_leave found custody.kept ?_ ?_ ?_ ?_ <;> rw [hit_eq] <;> rfl
  · -- only the record that was found gets a list
    intro r' a
    by_cases same : r' = r
    · subst same
      have at_r : ((s.take msg).hit msg r').thriftStructs r' =
          (merge msg r' ((s.thriftStructs r').onTimer .cancel)).1 := by
        rw [hit_eq]
        exact Function.update_self _ _ _
      rw [HoldsList, at_r]
      exact merge_holds ((ThriftStruct.hasOneList_congr (by simp)).mpr one)
    · have at_r' : ((s.take msg).hit msg r).thriftStructs r' = s.thriftStructs r' := by
        rw [hit_eq]
        exact Function.update_of_ne same _ _
      rw [HoldsList, at_r']
      exact ⟨.inl, fun h => h.resolve_right fun new => same (merge_keeper new.2)⟩
  · intro m o r' mem keeper
    have lt : r' < s.allocated := by
      rw [handled] at mem
      rcases List.mem_append.mp mem with old | new
      · exact custody.keeper_lt m o r' old keeper
      · obtain ⟨-, rfl⟩ := Prod.mk.inj (List.mem_singleton.mp new)
        rw [merge_keeper keeper]
        exact inv.stored_lt r _ stored
    rwa [hit_eq]
  · rw [handled, List.map_append, custody.handled, hit_eq]
    rfl
  · rw [hit_eq]
    exact custody.once_take unused

theorem Custody.create_store (custody : s.Custody) (absent : s.hashTable msg.flowKey = none)
    (unused : msg.id ∉ s.taken.map DecodedMsg.id) :
    (((s.take msg).create msg).store msg s.allocated).Custody := by
  have handled : (((s.take msg).create msg).store msg s.allocated).handled =
      s.handled ++ [(msg, .stored s.allocated)] :=
    store_handled (s := (s.take msg).create msg) absent s.allocated
  have structs : (((s.take msg).create msg).store msg s.allocated).thriftStructs =
      Function.update s.thriftStructs s.allocated (fresh msg) := by
    rw [store_eq]
    rfl
  have table : (((s.take msg).create msg).store msg s.allocated).hashTable =
      Function.update s.hashTable msg.flowKey (some (some s.allocated)) := by
    rw [store_eq]
    rfl
  refine ⟨?_, custody.holds_concat handled ?_, ?_, ?_, ?_⟩
  · intro r lt
    have lt' : r < s.allocated + 1 := by rwa [store_eq] at lt
    rcases Nat.lt_succ_iff_lt_or_eq.mp lt' with old | rfl
    · rcases custody.kept r old with (⟨key, entry⟩ | mem) | mem
      · have other : key ≠ msg.flowKey := by
          rintro rfl
          rw [absent] at entry
          cases entry
        exact .inl (.inl ⟨key, by rw [table, Function.update_of_ne other, entry]⟩)
      · exact .inl (.inr (by rwa [store_eq]))
      · exact .inr (by rwa [store_eq])
    · exact .inl (.inl ⟨msg.flowKey, by rw [table, Function.update_self]⟩)
  · intro r a
    rw [HoldsList, structs]
    by_cases new : r = s.allocated
    · subst new
      -- no list was held there before
      have none_held : ¬ s.HoldsList s.allocated a := by
        intro held
        obtain ⟨m, o, mem, -, keeper⟩ := (custody.holds _ a).mp held
        exact absurd (custody.keeper_lt m o _ mem keeper) (Nat.lt_irrefl _)
      rw [Function.update_self, fresh_holds]
      simp [Outcome.keeper, none_held]
    · rw [Function.update_of_ne new]
      exact ⟨.inl, fun h => h.resolve_right fun kept => new (by
        simpa [Outcome.keeper] using kept.2.symm)⟩
  · intro m o r mem keeper
    rw [handled] at mem
    have lt : r < s.allocated + 1 := by
      rcases List.mem_append.mp mem with old | new
      · exact Nat.lt_succ_of_lt (custody.keeper_lt m o r old keeper)
      · obtain ⟨-, rfl⟩ := Prod.mk.inj (List.mem_singleton.mp new)
        rw [Outcome.keeper, Option.some.injEq] at keeper
        rw [← keeper]
        exact Nat.lt_succ_self _
    rwa [store_eq]
  · rw [handled, List.map_append, custody.handled, store_eq]
    rfl
  · rw [store_eq]
    exact custody.once_take unused

/-- Steps that leave the lists, the table and the history of messages alone. -/
theorem Custody.congr {u : Shared} (custody : s.Custody)
    (lists : ∀ r, (u.thriftStructs r).lists = (s.thriftStructs r).lists)
    (kept : ∀ r, r < u.allocated → u.Kept r ∨ r ∈ u.refused)
    (allocated : u.allocated = s.allocated) (taken : u.taken = s.taken)
    (handled : u.handled = s.handled) : u.Custody := by
  refine ⟨kept, ?_, ?_, ?_, ?_⟩
  · intro r a
    obtain ⟨req, resp⟩ := Prod.ext_iff.mp (lists r)
    simp only [ThriftStruct.lists] at req resp
    rw [HoldsList, req, resp, handled]
    exact custody.holds r a
  · rw [handled, allocated]
    exact custody.keeper_lt
  · rw [handled, taken]
    exact custody.handled
  · rw [taken]
    exact custody.once

theorem Custody.setWait (custody : s.Custody) (r : RecordId) (wait : Wait) :
    (s.setWait r wait).Custody := by
  refine custody.congr (u := s.setWait r wait) (fun r' => ?_) custody.kept rfl rfl rfl
  rw [setWait_eq]
  by_cases same : r' = r
  · subst same
    simp
  · simp [same]

theorem Custody.timeout (custody : s.Custody) (inv : s.Inv nobody) (owner : RecordId)
    (key : FlowKey) : (s.handleTimeout owner key false).Custody := by
  rcases timeout_cases inv owner key with ⟨-, eq⟩ | ⟨r, found, eq⟩
  · rwa [eq]
  · rw [eq]
    exact custody.congr (fun _ => rfl) (kept_of_leave found custody.kept rfl rfl rfl rfl)
      rfl rfl rfl

theorem Custody.messageStep {a : MessageAction} (custody : s.Custody) (inv : s.Inv nobody)
    (step : s.messageStep a = some s') : s'.Custody := by
  cases a with
  | handle msg =>
      obtain ⟨unused, step⟩ := messageStep_handle.mp step
      rcases handleRadiusMessage_cases step with ⟨r, found, rfl⟩ | ⟨absent, rfl⟩
      · exact custody.hit inv found unused
      · exact custody.create_store absent unused
  | env a =>
      cases a with
      | expire r =>
          obtain ⟨key, -, rfl⟩ := expire_cases step
          exact custody.setWait r _
      | runHandler r =>
          obtain ⟨key, ⟨-, rfl⟩ | ⟨-, rfl⟩⟩ := runHandler_cases step
          · exact (custody.setWait r _).timeout (inv.setWait r _) r key
          · exact custody.setWait r _
      | send applId now sendThrows =>
          obtain ⟨table, allocated, pushed, refused, taken, handled, -, -, lists⟩ :=
            send_cases step
          refine custody.congr lists ?_ allocated taken handled
          intro r lt
          rw [allocated] at lt
          unfold Kept
          rw [table, pushed, refused]
          exact custody.kept r lt

theorem custody_init (capacity : ℕ) : (init capacity).Custody := by
  refine ⟨fun r lt => absurd lt (Nat.not_lt_zero r), ?_, ?_, rfl, List.nodup_nil⟩ <;>
    simp [init, HoldsList, ThriftStruct.new]

theorem custody_messageSteps (run : Runs.run messageStep (init capacity) acts = some s) :
    s.Custody := by
  have both : s.Inv nobody ∧ s.Custody :=
    Runs.invariant_of_step (I := fun t => t.Inv nobody ∧ t.Custody)
      ⟨inv_init capacity, custody_init capacity⟩
      (fun _ _ _ inv step => ⟨inv.1.messageStep step, inv.2.messageStep inv.1 step⟩) run
  exact both.2

/-! ## The list of a handled message -/

theorem avpListPtr_id {m m' : DecodedMsg} (same : m.avpListPtr = m'.avpListPtr) : m.id = m'.id :=
  congrArg AvpListPtr.msgId same

/-- The list of a handled message is in its keeper and nowhere else. -/
theorem Custody.holdsList_iff (custody : s.Custody) (mem : (msg, outcome) ∈ s.handled)
    (r : RecordId) : s.HoldsList r msg.avpListPtr ↔ outcome.keeper = some r := by
  rw [custody.holds]
  constructor
  · rintro ⟨m, o, mem', same, keeper⟩
    have ids : (s.handled.map fun h => h.1.id).Nodup := by
      have := custody.once
      rwa [← custody.handled, List.map_map] at this
    obtain ⟨rfl, rfl⟩ := Prod.mk.inj (List.inj_on_of_nodup_map ids mem' mem (avpListPtr_id same))
    exact keeper
  · exact fun keeper => ⟨msg, outcome, mem, rfl, keeper⟩

/-- What a message's step adds to the history. -/
theorem handled_outcome (inv : s.Inv nobody) (step : s.handleRadiusMessage msg = some s') :
    ∃ outcome, s'.handled = s.handled ++ [(msg, outcome)] ∧
      (outcome.keeper = none ↔ s.MeetsSameCode msg) := by
  rcases handleRadiusMessage_cases step with ⟨r, found, rfl⟩ | ⟨absent, rfl⟩
  · obtain ⟨r₀, eq, -, one⟩ := inv.entry _ _ found
    cases eq
    refine ⟨_, hit_handled (s.take msg) msg r, ?_⟩
    have one' : ((s.thriftStructs r).onTimer .cancel).HasOneList :=
      (ThriftStruct.hasOneList_congr (by simp)).mpr one
    have meets : s.MeetsSameCode msg ↔
        (msg.radMsgCode = accountingRequest ∧ (s.thriftStructs r).reqAvpListPtr.isSome) ∨
          (msg.radMsgCode = accountingResponse ∧ (s.thriftStructs r).respAvpListPtr.isSome) := by
      simp [MeetsSameCode, found]
    rw [meets]
    rcases merge_cases msg r one' with ⟨code, free, -, eq⟩ | ⟨code, free, -, eq⟩ |
      ⟨code, -, ⟨a, set⟩, eq⟩ | ⟨code, -, ⟨a, set⟩, eq⟩ <;>
      simp only [take, eq] <;> simp_all [Outcome.keeper]
  · refine ⟨_, store_handled (s := (s.take msg).create msg) absent s.allocated, ?_⟩
    simp [Outcome.keeper, MeetsSameCode, absent]

theorem handled_grows {a : MessageAction} (inv : s.Inv nobody)
    (step : s.messageStep a = some s') : s.handled <+: s'.handled := by
  cases a with
  | handle msg =>
      obtain ⟨outcome, grown, -⟩ := handled_outcome inv (messageStep_handle.mp step).2
      exact ⟨_, grown.symm⟩
  | env a => exact (envStep_frame step).2 ▸ List.prefix_refl _

/-- A queue that is never full refuses nothing. -/
theorem refused_eq_nil
    (room : Runs.Along messageStep (fun t _ => ¬ t.outputQueue.Full) (init capacity) acts)
    (run : Runs.run messageStep (init capacity) acts = some s) : s.refused = [] := by
  have both : s.Inv nobody ∧ s.refused = [] := by
    refine Runs.invariant_along (I := fun t => t.Inv nobody ∧ t.refused = [])
      ⟨inv_init capacity, rfl⟩ (fun t a u inv free step => ?_) room run
    refine ⟨inv.1.messageStep step, ?_⟩
    cases a with
    | handle msg =>
        rcases handleRadiusMessage_cases (messageStep_handle.mp step).2 with
          ⟨r, -, rfl⟩ | ⟨-, rfl⟩
        · rw [hit_eq]
          exact (if_neg free).trans inv.2
        · rw [store_eq]
          exact inv.2
    | env a =>
        cases a with
        | expire r =>
            obtain ⟨key, -, rfl⟩ := expire_cases step
            exact inv.2
        | runHandler r =>
            obtain ⟨key, ⟨-, rfl⟩ | ⟨-, rfl⟩⟩ := runHandler_cases step
            · rcases timeout_cases (inv.1.setWait r (.completed key)) r key with
                ⟨-, eq⟩ | ⟨r, -, eq⟩ <;> rw [eq]
              · exact inv.2
              · exact (if_neg free).trans inv.2
            · exact inv.2
        | send applId now sendThrows =>
            obtain ⟨-, -, -, refused, -⟩ := send_cases step
            rw [refused]
            exact inv.2
  exact both.2

/-- **No list is lost, but in the branch for logical errors.** -/
theorem handled_list_kept (run : Runs.run messageStep (init capacity) acts = some s)
    (room : Runs.Along messageStep (fun t _ => ¬ t.outputQueue.Full) (init capacity) acts)
    {pre post : List MessageAction} (handles : acts = pre ++ .handle msg :: post)
    (reach : Runs.run messageStep (init capacity) pre = some t) :
    (¬ t.MeetsSameCode msg → ∃! r, s.Kept r ∧ s.HoldsList r msg.avpListPtr) ∧
      (t.MeetsSameCode msg → ∀ r, ¬ s.HoldsList r msg.avpListPtr) := by
  have custody := custody_messageSteps run
  obtain ⟨t', u, before, step, rest⟩ := Runs.run_middle_eq_some.mp (handles ▸ run)
  cases reach.symm.trans before
  have reach' : Runs.run messageStep (init capacity) (pre ++ [.handle msg]) = some u :=
    Runs.run_concat_eq_some.mpr ⟨t, reach, step⟩
  obtain ⟨outcome, handled, errs⟩ :=
    handled_outcome (inv_messageSteps reach) (messageStep_handle.mp step).2
  -- the history only grows from there
  have grown : u.handled <+: s.handled := by
    have both : s.Inv nobody ∧ u.handled <+: s.handled :=
      Runs.invariant_of_step (I := fun t => t.Inv nobody ∧ u.handled <+: t.handled)
        ⟨inv_messageSteps reach', List.prefix_refl _⟩
        (fun _ _ _ inv step =>
          ⟨inv.1.messageStep step, inv.2.trans (handled_grows inv.1 step)⟩) rest
    exact both.2
  have mem : (msg, outcome) ∈ s.handled := grown.subset (by simp [handled])
  constructor
  · intro ok
    obtain ⟨r, keeper⟩ := Option.ne_none_iff_exists'.mp (fun none => ok (errs.mp none))
    have kept : s.Kept r := by
      have := custody.kept r (custody.keeper_lt msg outcome r mem keeper)
      rwa [refused_eq_nil room run, List.mem_nil_iff, or_false] at this
    refine ⟨r, ⟨kept, (custody.holdsList_iff mem r).mpr keeper⟩, ?_⟩
    rintro r' ⟨-, holds⟩
    have keeper' := (custody.holdsList_iff mem r').mp holds
    rw [keeper, Option.some.injEq] at keeper'
    exact keeper'.symm
  · intro error r holds
    have keeper := (custody.holdsList_iff mem r).mp holds
    rw [errs.mpr error] at keeper
    cases keeper

/-- A request and its response. -/
theorem handled_list_kept_pair :
    let req := DecodedMsg.request 0 ⟨2, 1, 40000, 1813, 7⟩ []
    let resp := DecodedMsg.response 1 ⟨2, 1, 40000, 1813, 7⟩ []
    ∃ s t, Runs.run messageStep (init 4) [.handle req, .handle resp] = some s ∧
      Runs.run messageStep (init 4) [.handle req] = some t ∧
      (¬ t.MeetsSameCode resp → ∃! r, s.Kept r ∧ s.HoldsList r resp.avpListPtr) ∧
        (t.MeetsSameCode resp → ∀ r, ¬ s.HoldsList r resp.avpListPtr) :=
  ⟨_, _, rfl, rfl, handled_list_kept rfl (by decide)
    (show [_, _] = [MessageAction.handle _] ++ _ :: [] from rfl) rfl⟩

/-- A request that is sent again: record 0 is pushed with the first list, and
no record holds the second. -/
theorem repeated_request_dropped :
    let req := DecodedMsg.request 0 ⟨2, 1, 40000, 1813, 7⟩ []
    let again := DecodedMsg.request 1 ⟨2, 1, 40000, 1813, 7⟩ []
    ∃ s, Runs.run messageStep (init 4) [.handle req, .handle again] = some s ∧
      again ∈ s.handled.map Prod.fst ∧ s.refused = [] ∧ s.pushed = [0] ∧
      ∀ r, ¬ s.HoldsList r again.avpListPtr := by
  intro req again
  have run : ∃ s, Runs.run messageStep (init 4) [.handle req, .handle again] = some s ∧
      s.handled = [(req, .stored 0), (again, .logicalError 0)] ∧ s.refused = [] ∧
      s.pushed = [0] := ⟨_, rfl, rfl, rfl, rfl⟩
  obtain ⟨s, run, handled, refused, pushed⟩ := run
  have mem : (again, Outcome.logicalError 0) ∈ s.handled := by simp [handled]
  refine ⟨s, run, by simp [handled], refused, pushed, fun r holds => ?_⟩
  have keeper := ((custody_messageSteps run).holdsList_iff mem r).mp holds
  cases keeper

end Shared

end RadiusEventHandler
