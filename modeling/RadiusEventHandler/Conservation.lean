import Mathlib.Data.Set.Card
import RadiusEventHandler.Custody

/-!
# Where the records are

A record enters the table when it is created and leaves it once, for the
output queue or, when that is full, for nowhere. What a step does to the places
of the records is said once (`Moves`); the invariants of this file follow from
it.

The counter of unmatched messages counts the records that leave with one list
through a timeout. Those that leave with one list through the branch for
logical errors are not counted.
-/

namespace RadiusEventHandler

namespace Shared

/-- The record is in exactly one of three places, and there once: in the table,
in the history of successful pushes, or among the refused ones. -/
def InOnePlace (s : Shared) (r : RecordId) : Prop :=
  ((∃! key, s.hashTable key = some (some r)) ∧ r ∉ s.pushed ∧ r ∉ s.refused) ∨
  ((∀ key, s.hashTable key ≠ some (some r)) ∧ s.pushed.count r = 1 ∧ r ∉ s.refused) ∨
  ((∀ key, s.hashTable key ≠ some (some r)) ∧ r ∉ s.pushed ∧ s.refused.count r = 1)

/-- The record is nowhere. -/
def Nowhere (s : Shared) (r : RecordId) : Prop :=
  (∀ key, s.hashTable key ≠ some (some r)) ∧ r ∉ s.pushed ∧ r ∉ s.refused

/-- The records created so far, in their order: one for each message that was
stored because it found no mate. -/
def storedRecords (s : Shared) : List RecordId :=
  s.handled.filterMap fun h => h.2.storedRecord

/-- How many messages went through the branch for logical errors. -/
def logicalErrors (s : Shared) : ℕ := s.handled.countP fun h => h.2.keeper.isNone

/-- The records that have left the table with one list. -/
def removedUnmatched (s : Shared) : Set RecordId :=
  {r | s.Gone r ∧ (s.thriftStructs r).HasOneList}

/-- A record has left the table with one list, counted or not. -/
def removals (s : Shared) : ℤ := s.unmatchedReqsNum + s.logicalErrors

/-- What a step can do to the places of the records. -/
inductive Moves (s s' : Shared) : Prop where
  | stay (allocated : s'.allocated = s.allocated) (table : s'.hashTable = s.hashTable)
      (pushed : s'.pushed = s.pushed) (refused : s'.refused = s.refused)
      (stored : s'.storedRecords = s.storedRecords) (removals : s'.removals = s.removals)
      (lists : ∀ r, (s'.thriftStructs r).lists = (s.thriftStructs r).lists)
  | enter (key : FlowKey) (absent : s.hashTable key = none)
      (allocated : s'.allocated = s.allocated + 1)
      (table : s'.hashTable = Function.update s.hashTable key (some (some s.allocated)))
      (pushed : s'.pushed = s.pushed) (refused : s'.refused = s.refused)
      (stored : s'.storedRecords = s.storedRecords ++ [s.allocated])
      (removals : s'.removals = s.removals)
      (lists : ∀ r, r ≠ s.allocated → (s'.thriftStructs r).lists = (s.thriftStructs r).lists)
  | leave (key : FlowKey) (r : RecordId) (found : s.hashTable key = some (some r))
      (allocated : s'.allocated = s.allocated)
      (table : s'.hashTable = Function.update s.hashTable key none)
      (place : (s'.pushed = s.pushed ++ [r] ∧ s'.refused = s.refused) ∨
        (s'.pushed = s.pushed ∧ s'.refused = s.refused ++ [r]))
      (stored : s'.storedRecords = s.storedRecords)
      (removals : s'.removals = s.removals +
        if (s'.thriftStructs r).HasOneList then 1 else 0)
      (lists : ∀ r', r' ≠ r → (s'.thriftStructs r').lists = (s.thriftStructs r').lists)

variable {s s' t : Shared} {msg : DecodedMsg} {r : RecordId} {key : FlowKey}
  {acts : List MessageAction} {capacity : ℕ}

/-! ## What a step can do -/

/-- The output queue takes a record, or refuses it. -/
theorem pushOutput_place {pushed refused pushed' refused' : List RecordId}
    {q : BoundedQueue ThriftPtr} (hp : pushed' = if q.Full then pushed else pushed ++ [r])
    (hr : refused' = if q.Full then refused ++ [r] else refused) :
    (pushed' = pushed ++ [r] ∧ refused' = refused) ∨
      (pushed' = pushed ∧ refused' = refused ++ [r]) := by
  by_cases full : q.Full
  · rw [if_pos full] at hp hr
    exact .inr ⟨hp, hr⟩
  · rw [if_neg full] at hp hr
    exact .inl ⟨hp, hr⟩

/-- Merging completes the record, or else leaves it as it was: a logical error. -/
theorem merge_hasOneList (msg : DecodedMsg) (r : RecordId) {thrift : ThriftStruct}
    (one : thrift.HasOneList) :
    (merge msg r thrift).1.HasOneList ↔ (merge msg r thrift).2.keeper = none := by
  rcases merge_cases msg r one with ⟨-, free, ⟨b, set⟩, eq⟩ | ⟨-, free, ⟨a, set⟩, eq⟩ |
    ⟨-, -, -, eq⟩ | ⟨-, -, -, eq⟩ <;> rw [eq]
  · simp [ThriftStruct.HasOneList, ThriftStruct.setReqAvpListPtr, Outcome.keeper, set]
  · simp [ThriftStruct.HasOneList, ThriftStruct.setRespAvpListPtr, Outcome.keeper, set]
  · simp [one, Outcome.keeper]
  · simp [one, Outcome.keeper]

theorem Inv.moves_hit (inv : s.Inv nobody) (found : s.hashTable msg.flowKey = some (some r)) :
    s.Moves ((s.take msg).hit msg r) := by
  obtain ⟨r₀, eq, -, one⟩ := inv.entry _ _ found
  cases eq
  have one' : ((s.thriftStructs r).onTimer .cancel).HasOneList :=
    (ThriftStruct.hasOneList_congr (by simp)).mpr one
  have handled : ((s.take msg).hit msg r).handled =
      s.handled ++ [(msg, (merge msg r ((s.thriftStructs r).onTimer .cancel)).2)] :=
    hit_handled (s.take msg) msg r
  have at_r : ((s.take msg).hit msg r).thriftStructs r =
      (merge msg r ((s.thriftStructs r).onTimer .cancel)).1 := by
    rw [hit_eq]
    exact Function.update_self _ _ _
  refine .leave msg.flowKey r found ?_ ?_ ?_ ?_ ?_ ?_
  · rw [hit_eq]
    rfl
  · rw [hit_eq]
    rfl
  · apply pushOutput_place (q := s.outputQueue) <;> rw [hit_eq] <;> rfl
  · rw [storedRecords, handled, List.filterMap_append]
    simp [storedRecords, merge_storedRecord]
  · have unmatched : ((s.take msg).hit msg r).unmatchedReqsNum = s.unmatchedReqsNum := by
      rw [hit_eq]
      rfl
    rw [removals, removals, logicalErrors, handled, List.countP_append, unmatched, at_r]
    by_cases error : (merge msg r ((s.thriftStructs r).onTimer .cancel)).2.keeper = none
    · rw [if_pos ((merge_hasOneList msg r one').mpr error)]
      simp [logicalErrors, error, add_assoc]
    · rw [if_neg fun h => error ((merge_hasOneList msg r one').mp h)]
      simp [logicalErrors, error]
  · intro r' other
    rw [hit_eq]
    exact congrArg ThriftStruct.lists (Function.update_of_ne other _ _)

theorem moves_create_store (absent : s.hashTable msg.flowKey = none) :
    s.Moves (((s.take msg).create msg).store msg s.allocated) := by
  have handled : (((s.take msg).create msg).store msg s.allocated).handled =
      s.handled ++ [(msg, .stored s.allocated)] :=
    store_handled (s := (s.take msg).create msg) absent s.allocated
  refine .enter msg.flowKey absent ?_ ?_ ?_ ?_ ?_ ?_ ?_
  · rw [store_eq]
    rfl
  · rw [store_eq]
    rfl
  · rw [store_eq]
    rfl
  · rw [store_eq]
    rfl
  · rw [storedRecords, handled, List.filterMap_append]
    rfl
  · have unmatched : (((s.take msg).create msg).store msg s.allocated).unmatchedReqsNum =
        s.unmatchedReqsNum := by
      rw [store_eq]
      rfl
    rw [removals, logicalErrors, handled, List.countP_append, unmatched]
    rfl
  · intro r other
    rw [store_eq]
    exact congrArg ThriftStruct.lists (Function.update_of_ne other _ _)

theorem lists_setWait (s : Shared) (r r' : RecordId) (wait : Wait) :
    ((s.setWait r wait).thriftStructs r').lists = (s.thriftStructs r').lists := by
  rw [setWait_eq]
  by_cases same : r' = r
  · subst same
    simp
  · simp [same]

theorem Inv.moves_timeout (inv : s.Inv nobody) (owner : RecordId) (key : FlowKey) :
    s.Moves ((s.setWait owner (.completed key)).handleTimeout owner key false) := by
  have lists := fun r' => lists_setWait s owner r' (.completed key)
  rcases timeout_cases (inv.setWait owner (.completed key)) owner key with
    ⟨-, eq⟩ | ⟨r, found, eq⟩
  · rw [eq]
    exact .stay rfl rfl rfl rfl rfl rfl lists
  · obtain ⟨r₀, eq₀, -, one⟩ := inv.entry key _ found
    cases eq₀
    rw [eq]
    refine .leave key r found rfl rfl (pushOutput_place rfl rfl) rfl ?_ fun r' _ => lists r'
    -- what a timeout removes has one list, and is counted
    rw [if_pos ((ThriftStruct.hasOneList_congr (lists r)).mpr one)]
    exact add_right_comm _ _ _

/-- **The step lemma of this file.** -/
theorem Inv.moves {a : MessageAction} (inv : s.Inv nobody) (step : s.messageStep a = some s') :
    s.Moves s' := by
  cases a with
  | handle msg =>
      rcases handleRadiusMessage_cases (messageStep_handle.mp step).2 with
        ⟨r, found, rfl⟩ | ⟨absent, rfl⟩
      · exact inv.moves_hit found
      · exact moves_create_store absent
  | env a =>
      cases a with
      | expire r =>
          obtain ⟨key, -, rfl⟩ := expire_cases step
          exact .stay rfl rfl rfl rfl rfl rfl fun r' => lists_setWait s r r' _
      | runHandler r =>
          obtain ⟨key, ⟨-, rfl⟩ | ⟨-, rfl⟩⟩ := runHandler_cases step
          · exact inv.moves_timeout r key
          · exact .stay rfl rfl rfl rfl rfl rfl fun r' => lists_setWait s r r' _
      | send applId now sendThrows =>
          obtain ⟨table, allocated, pushed, refused, -, handled, unmatched, -, lists⟩ :=
            send_cases step
          refine .stay allocated table pushed refused ?_ ?_ lists
          · rw [storedRecords, handled]
            rfl
          · rw [removals, logicalErrors, handled, unmatched]
            rfl

/-! ## Conservation -/

/-- A record is in the table under one key at most. -/
theorem Inv.unique_key {key' : FlowKey} (inv : s.Inv nobody)
    (entry : s.hashTable key = some (some r)) (entry' : s.hashTable key' = some (some r)) :
    key = key' := by
  obtain ⟨r₁, eq₁, stored, -⟩ := inv.entry key _ entry
  obtain ⟨r₂, eq₂, stored', -⟩ := inv.entry key' _ entry'
  cases eq₁
  cases eq₂
  exact inv.stored_key r key key' stored stored'

/-- No record has left the table twice, and the records are numbered in the
order in which they were stored. -/
structure Conserved (s : Shared) : Prop where
  left_once : (s.pushed ++ s.refused).Nodup
  records : s.storedRecords = List.range s.allocated

theorem conserved_init (capacity : ℕ) : (init capacity).Conserved := ⟨List.nodup_nil, rfl⟩

theorem Conserved.step (conserved : s.Conserved) (inv : s.Inv nobody) (moves : s.Moves s') :
    s'.Conserved := by
  cases moves with
  | stay allocated _ pushed refused stored =>
      constructor
      · rw [pushed, refused]
        exact conserved.left_once
      · rw [stored, allocated]
        exact conserved.records
  | enter _ _ allocated _ pushed refused stored =>
      constructor
      · rw [pushed, refused]
        exact conserved.left_once
      · rw [stored, allocated, List.range_succ, conserved.records]
  | leave key r found allocated _ place stored =>
      have new : r ∉ s.pushed ++ s.refused := by
        intro mem
        rcases List.mem_append.mp mem with pushed | refused
        · exact (inv.pushed r pushed).1.absent key found
        · exact (inv.refused r refused).absent key found
      constructor
      · have more : (s'.pushed ++ s'.refused).Perm (r :: (s.pushed ++ s.refused)) := by
          rcases place with ⟨pushed, refused⟩ | ⟨pushed, refused⟩ <;> rw [pushed, refused]
          · rw [List.append_assoc, List.singleton_append]
            exact List.perm_middle
          · rw [← List.append_assoc]
            exact List.perm_append_singleton r _
        exact more.nodup_iff.mpr (List.nodup_cons.mpr ⟨new, conserved.left_once⟩)
      · rw [stored, allocated]
        exact conserved.records

theorem conserved_messageSteps (run : Runs.run messageStep (init capacity) acts = some s) :
    s.Conserved := by
  have both : s.Inv nobody ∧ s.Conserved :=
    Runs.invariant_of_step (I := fun t => t.Inv nobody ∧ t.Conserved)
      ⟨inv_init capacity, conserved_init capacity⟩
      (fun _ _ _ inv step =>
        ⟨inv.1.messageStep step, inv.2.step inv.1 (inv.1.moves step)⟩) run
  exact both.2

theorem Conserved.inOnePlace (conserved : s.Conserved) (inv : s.Inv nobody)
    (kept : s.Kept r ∨ r ∈ s.refused) : s.InOnePlace r := by
  obtain ⟨pushedOnce, refusedOnce, apart⟩ := List.nodup_append'.mp conserved.left_once
  rcases kept with (⟨key, entry⟩ | pushed) | refused
  · refine .inl ⟨⟨key, entry, fun k other => inv.unique_key other entry⟩, ?_, ?_⟩
    · exact fun mem => (inv.pushed r mem).1.absent key entry
    · exact fun mem => (inv.refused r mem).absent key entry
  · exact .inr (.inl ⟨(inv.pushed r pushed).1.absent,
      List.count_eq_one_of_mem pushedOnce pushed, apart pushed⟩)
  · exact .inr (.inr ⟨(inv.refused r refused).absent, fun mem => apart mem refused,
      List.count_eq_one_of_mem refusedOnce refused⟩)

/-- **Every record is in exactly one place.** -/
theorem records_conserved (run : Runs.run messageStep (init capacity) acts = some s) :
    s.storedRecords = List.range s.allocated ∧
      (∀ r, r < s.allocated → s.InOnePlace r) ∧
      ∀ r, s.allocated ≤ r → s.Nowhere r := by
  have inv := inv_messageSteps run
  have conserved := conserved_messageSteps run
  refine ⟨conserved.records, fun r lt => ?_, fun r le => ?_⟩
  · exact conserved.inOnePlace inv ((custody_messageSteps run).kept r lt)
  · have unstored : ∀ key, ¬ s.StoredUnder r key := fun key stored =>
      absurd (inv.stored_lt r key stored) (Nat.not_lt.mpr le)
    refine ⟨fun key entry => ?_, fun mem => ?_, fun mem => ?_⟩
    · obtain ⟨r₀, eq, stored, -⟩ := inv.entry key _ entry
      cases eq
      exact unstored key stored
    · obtain ⟨key, stored⟩ := (inv.pushed r mem).1.stored
      exact unstored key stored
    · obtain ⟨key, stored⟩ := (inv.refused r mem).stored
      exact unstored key stored

/-- Room for one record: record 0 is pushed, record 1 is refused, and record 2
is in the table. -/
theorem records_conserved_three :
    let key : UInt8 → FlowKey := fun identifier => ⟨2, 1, 40000, 1813, identifier⟩
    let acts := [.handle (.request 0 (key 7) []), .handle (.response 1 (key 7) []),
      .handle (.request 2 (key 8) []), .env (.expire 1), .env (.runHandler 1),
      .handle (.response 3 (key 9) [])]
    ∃ s, Runs.run messageStep (init 1) acts = some s ∧ s.allocated = 3 ∧
      s.pushed = [0] ∧ s.refused = [1] ∧ s.hashTable (key 9) = some (some 2) ∧
      s.storedRecords = List.range s.allocated ∧ (∀ r, r < s.allocated → s.InOnePlace r) ∧
      ∀ r, s.allocated ≤ r → s.Nowhere r := by
  intro key acts
  have reach : ∃ s, Runs.run messageStep (init 1) acts = some s ∧ s.allocated = 3 ∧
      s.pushed = [0] ∧ s.refused = [1] ∧ s.hashTable (key 9) = some (some 2) :=
    ⟨_, rfl, rfl, rfl, rfl, rfl⟩
  obtain ⟨s, run, created, pushed, refused, entry⟩ := reach
  exact ⟨s, run, created, pushed, refused, entry, records_conserved run⟩

/-! ## The counter of unmatched messages -/

/-- The message of the step, if it handles one, finds no record with a list of
its own code. -/
def NoLogicalError (s : Shared) : MessageAction → Prop
  | .handle msg => ¬ s.MeetsSameCode msg
  | .env _ => True

/-- A record that was created is in the table or has left it. -/
theorem Inv.gone_iff (inv : s.Inv nobody) (custody : s.Custody) (r : RecordId) :
    s.Gone r ↔ r < s.allocated ∧ ∀ key, s.hashTable key ≠ some (some r) := by
  constructor
  · intro gone
    obtain ⟨key, stored⟩ := gone.stored
    exact ⟨inv.stored_lt r key stored, gone.absent⟩
  · rintro ⟨lt, absent⟩
    rcases custody.kept r lt with (⟨key, entry⟩ | pushed) | refused
    · exact absurd entry (absent key)
    · exact (inv.pushed r pushed).1
    · exact inv.refused r refused

theorem Inv.removedUnmatched_finite (inv : s.Inv nobody) : s.removedUnmatched.Finite := by
  apply (Set.finite_lt_nat s.allocated).subset
  rintro r ⟨gone, -⟩
  obtain ⟨key, stored⟩ := gone.stored
  exact inv.stored_lt r key stored

/-- What has left the table with one list is the same as before. -/
theorem removedUnmatched_congr (gone : ∀ r, s'.Gone r ↔ s.Gone r)
    (lists : ∀ r, s.Gone r → (s'.thriftStructs r).lists = (s.thriftStructs r).lists) :
    s'.removedUnmatched = s.removedUnmatched := by
  ext r
  constructor
  · rintro ⟨left, one⟩
    have left' := (gone r).mp left
    exact ⟨left', (ThriftStruct.hasOneList_congr (lists r left')).mp one⟩
  · rintro ⟨left, one⟩
    exact ⟨(gone r).mpr left, (ThriftStruct.hasOneList_congr (lists r left)).mpr one⟩

/-- A record leaves the table, with one list or with two. -/
theorem removedUnmatched_leave (found : s.hashTable key = some (some r))
    (gone : ∀ r', s'.Gone r' ↔ s.Gone r' ∨ r' = r)
    (lists : ∀ r', r' ≠ r → (s'.thriftStructs r').lists = (s.thriftStructs r').lists)
    (finite : s.removedUnmatched.Finite) :
    (s'.removedUnmatched.ncard : ℤ) =
      s.removedUnmatched.ncard + if (s'.thriftStructs r).HasOneList then 1 else 0 := by
  have new : r ∉ s.removedUnmatched := fun mem => mem.1.absent key found
  have others : ∀ r', r' ≠ r → (r' ∈ s'.removedUnmatched ↔ r' ∈ s.removedUnmatched) := by
    intro r' other
    refine and_congr ?_ (ThriftStruct.hasOneList_congr (lists r' other))
    exact (gone r').trans (or_iff_left other)
  by_cases one : (s'.thriftStructs r).HasOneList
  · have grown : s'.removedUnmatched = Insert.insert r s.removedUnmatched := by
      ext r'
      by_cases same : r' = r
      · subst same
        exact iff_of_true ⟨(gone r').mpr (.inr rfl), one⟩ (Set.mem_insert _ _)
      · rw [others r' same, Set.mem_insert_iff]
        exact (or_iff_right same).symm
    rw [if_pos one, grown, Set.ncard_insert_of_notMem new finite]
    exact Nat.cast_succ _
  · have same : s'.removedUnmatched = s.removedUnmatched := by
      ext r'
      by_cases same : r' = r
      · subst same
        exact iff_of_false (fun mem => one mem.2) new
      · exact others r' same
    rw [if_neg one, same, add_zero]

/-- One step adds to the removed one-list records what it adds to the counter
and to the logical errors. -/
theorem Moves.removedUnmatched (inv : s.Inv nobody) (inv' : s'.Inv nobody)
    (custody : s.Custody) (custody' : s'.Custody) (moves : s.Moves s') :
    (s'.removedUnmatched.ncard : ℤ) - s'.removals = s.removedUnmatched.ncard - s.removals := by
  have gone' := inv'.gone_iff custody'
  have gone := inv.gone_iff custody
  cases moves with
  | stay allocated table _ _ _ removals lists =>
      rw [removals, removedUnmatched_congr (fun r => ?_) fun r _ => lists r]
      rw [gone', gone, allocated, table]
  | enter key absent allocated table _ _ _ removals lists =>
      -- the new record is in the table, the others are where they were
      have entry_iff : ∀ r, r ≠ s.allocated → ∀ k,
          s'.hashTable k = some (some r) ↔ s.hashTable k = some (some r) := by
        intro r other k
        rw [table]
        by_cases same : k = key
        · subst same
          rw [Function.update_self, absent]
          exact iff_of_false (fun eq => other (by simpa using eq.symm)) nofun
        · rw [Function.update_of_ne same]
      rw [removals, removedUnmatched_congr (fun r => ?_) fun r left => lists r ?_]
      · rw [gone', gone]
        by_cases new : r = s.allocated
        · subst new
          refine iff_of_false (fun left => left.2 key ?_) fun left => Nat.lt_irrefl _ left.1
          rw [table, Function.update_self]
        · rw [allocated, Nat.lt_succ_iff_lt_or_eq, or_iff_left new]
          exact and_congr_right fun _ => forall_congr' fun k => not_congr (entry_iff r new k)
      · exact Nat.ne_of_lt ((gone r).mp left).1
  | leave key r found allocated table _ _ removals lists =>
      rw [removals, removedUnmatched_leave found (fun r' => ?_) lists
        inv.removedUnmatched_finite, add_sub_add_right_eq_sub]
      rw [gone', gone, allocated, table]
      by_cases same : r' = r
      · subst same
        obtain ⟨r₀, eq, stored, -⟩ := inv.entry key _ found
        cases eq
        refine iff_of_true ⟨inv.stored_lt r' key stored, fun k entry => ?_⟩ (.inr rfl)
        rcases update_eq_cases entry with ⟨-, eq⟩ | ⟨other, entry⟩
        · cases eq
        · exact other (inv.unique_key entry found)
      · rw [or_iff_left same]
        refine and_congr_right fun _ => forall_congr' fun k => not_congr ?_
        by_cases here : k = key
        · subst here
          rw [Function.update_self, found]
          exact iff_of_false nofun fun eq => same (by simpa using eq.symm)
        · rw [Function.update_of_ne here]

/-- The records removed with one list are those that were counted and those
of the logical errors. -/
theorem removedUnmatched_eq (run : Runs.run messageStep (init capacity) acts = some s) :
    (s.removedUnmatched.ncard : ℤ) = s.unmatchedReqsNum + s.logicalErrors := by
  have all : s.Inv nobody ∧ s.Custody ∧
      (s.removedUnmatched.ncard : ℤ) - s.removals = 0 := by
    refine Runs.invariant_of_step
      (I := fun t => t.Inv nobody ∧ t.Custody ∧ (t.removedUnmatched.ncard : ℤ) - t.removals = 0)
      ⟨inv_init capacity, custody_init capacity, ?_⟩ (fun t a u inv step => ?_) run
    · have none : (init capacity).removedUnmatched = ∅ := by
        ext r
        refine iff_of_false (fun mem => ?_) (Set.notMem_empty r)
        obtain ⟨key, msg, outcome, mem, -⟩ := mem.1.stored
        exact absurd mem List.not_mem_nil
      rw [none, Set.ncard_empty]
      rfl
    · obtain ⟨inv, custody, count⟩ := inv
      have inv' := inv.messageStep step
      have custody' := custody.messageStep inv step
      refine ⟨inv', custody', ?_⟩
      rw [(inv.moves step).removedUnmatched inv inv' custody custody', count]
  exact sub_eq_zero.mp all.2.2

/-- The number of logical errors is zero in exactly the runs that meet none. -/
theorem logicalErrors_eq_zero_iff (run : Runs.run messageStep (init capacity) acts = some s) :
    s.logicalErrors = 0 ↔ Runs.Along messageStep NoLogicalError (init capacity) acts := by
  induction acts using List.reverseRecOn generalizing s with
  | nil =>
      cases run
      exact iff_of_true rfl Runs.along_nil
  | append_singleton acts a ih =>
      obtain ⟨t, before, step⟩ := Runs.run_concat_eq_some.mp run
      have last : Runs.Along messageStep NoLogicalError (init capacity) (acts ++ [a]) ↔
          t.logicalErrors = 0 ∧ t.NoLogicalError a := by
        rw [Runs.along_concat, ih before]
        refine and_congr_right fun _ => ⟨fun h => h t before, fun h u reach => ?_⟩
        cases before.symm.trans reach
        exact h
      rw [last]
      cases a with
      | handle msg =>
          obtain ⟨outcome, handled, errs⟩ :=
            handled_outcome (inv_messageSteps before) (messageStep_handle.mp step).2
          have meets : t.NoLogicalError (.handle msg) ↔ outcome.keeper ≠ none :=
            not_congr errs.symm
          rw [meets, logicalErrors, handled, List.countP_append, Nat.add_eq_zero_iff]
          refine and_congr_right fun _ => ?_
          cases keeper : outcome.keeper <;> simp [keeper]
      | env e =>
          rw [logicalErrors, (envStep_frame step).2]
          exact (and_iff_left trivial).symm

/-- **The counter counts the unmatched records exactly where no message has met
a record with a list of its own code.** -/
theorem unmatchedReqsNum_eq_iff (run : Runs.run messageStep (init capacity) acts = some s) :
    s.unmatchedReqsNum = s.removedUnmatched.ncard ↔
      Runs.Along messageStep NoLogicalError (init capacity) acts := by
  rw [removedUnmatched_eq run, ← logicalErrors_eq_zero_iff run]
  exact left_eq_add.trans Nat.cast_eq_zero

/-- A request that waits until its own timeout. -/
theorem unmatchedReqsNum_eq_iff_timeout :
    let acts := [.handle (.request 0 ⟨2, 1, 40000, 1813, 7⟩ []), .env (.expire 0),
      .env (.runHandler 0)]
    ∃ s, Runs.run messageStep (init 4) acts = some s ∧ s.unmatchedReqsNum = 1 ∧
      (s.unmatchedReqsNum = s.removedUnmatched.ncard ↔
        Runs.Along messageStep NoLogicalError (init 4) acts) :=
  ⟨_, rfl, rfl, unmatchedReqsNum_eq_iff rfl⟩

/-- A request that is sent again takes record 0 out of the table with one list,
and the counter stays at 0. -/
theorem repeated_request_uncounted :
    let req := DecodedMsg.request 0 ⟨2, 1, 40000, 1813, 7⟩ []
    let again := DecodedMsg.request 1 ⟨2, 1, 40000, 1813, 7⟩ []
    ∃ s, Runs.run messageStep (init 4) [.handle req, .handle again] = some s ∧
      s.unmatchedReqsNum = 0 ∧ s.removedUnmatched.ncard = 1 := by
  intro req again
  have run : ∃ s, Runs.run messageStep (init 4) [.handle req, .handle again] = some s ∧
      s.unmatchedReqsNum = 0 ∧ s.logicalErrors = 1 := ⟨_, rfl, rfl, rfl⟩
  obtain ⟨s, run, counter, errors⟩ := run
  refine ⟨s, run, counter, ?_⟩
  have count := removedUnmatched_eq run
  rw [counter, errors] at count
  exact_mod_cast count

end Shared

end RadiusEventHandler
