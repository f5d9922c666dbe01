import RadiusEventHandler.Interleaving

/-!
# Is the matcher linearizable?

A sequential order of the messages of a run explains it when handling the
messages in that order, each without interruption, leads to the same table and
to the same pushed records. If every insertion of the run finds its key absent,
the order in which the messages were finished is such an order, because the
run then refines the pairing table of that order. If an insertion overwrites
an entry there is none: the record of that entry is neither in the table nor
pushed, and a count of the lists (`Balanced`) shows that they do not add up.
-/

namespace RadiusEventHandler

/-- The insertion found an entry under its key. -/
def Outcome.isOverwrite : Outcome → Bool
  | .overwrote _ => true
  | _ => false

@[simp] theorem Outcome.isOverwrite_overwrote (r : RecordId) :
    (Outcome.overwrote r).isOverwrite = true := rfl

@[simp] theorem Outcome.isOverwrite_stored (r : RecordId) :
    (Outcome.stored r).isOverwrite = false := rfl

/-- The message a worker finds in its queue. -/
def MatcherAction.found : MatcherAction → Option DecodedMsg
  | .find _ msg => some msg
  | _ => none

def MatcherAction.isExpire : MatcherAction → Bool
  | .env e => e.isExpire
  | _ => false

namespace Matcher

/-- No timer expires, and the output queue has room. -/
def Uneventful (m : Matcher) (a : MatcherAction) : Prop :=
  ¬ m.shared.outputQueue.Full ∧ a.isExpire = false

instance (m : Matcher) (a : MatcherAction) : Decidable (m.Uneventful a) :=
  inferInstanceAs (Decidable (_ ∧ _))

/-- A record is stored under a key that is still absent. -/
def InsertsFresh (m : Matcher) (a : MatcherAction) : Prop :=
  ∀ w msg r, a = .store w → m.phase w = .created msg r → m.shared.hashTable msg.flowKey = none

variable {m m' : Matcher} {msg : DecodedMsg} {w : ℕ} {r : RecordId} {key : FlowKey}
  {acts : List MatcherAction} {capacity : ℕ}

/-! ## Which messages are where -/

/-- Every message that was found is finished or in the hand of one worker. -/
def Progress (m : Matcher) : Prop :=
  ∃ busy : List ℕ, busy.Nodup ∧ (∀ w, w ∈ busy ↔ m.inHand w ≠ none) ∧
    m.shared.taken.Perm (m.shared.handled.map Prod.fst ++ busy.filterMap m.inHand)

theorem filterMap_update {f : ℕ → Option DecodedMsg} {busy : List ℕ} {x : Option DecodedMsg}
    (out : w ∉ busy) : busy.filterMap (Function.update f w x) = busy.filterMap f := by
  apply List.filterMap_congr
  intro w' mem
  have other : w' ≠ w := by
    rintro rfl
    exact out mem
  exact Function.update_of_ne other _ _

theorem progress_init (capacity : ℕ) : (init capacity).Progress :=
  ⟨[], List.nodup_nil, by simp [init, inHand, WorkerPhase.inHand], List.Perm.nil⟩

theorem Progress.step {a : MatcherAction} (progress : m.Progress) (step : m.step a = some m') :
    m'.Progress := by
  obtain ⟨busy, nodup, mem, perm⟩ := progress
  rcases step_cases step with ⟨w, msg, r, -, idle, -, found, rfl⟩ |
    ⟨w, msg, -, idle, -, absent, rfl⟩ | ⟨w, msg, -, missed, rfl⟩ | ⟨w, msg, r, -, created, rfl⟩ |
    ⟨e, shared, -, env, rfl⟩
  · -- the message is taken and finished at once
    refine ⟨busy, nodup, mem, ?_⟩
    rw [Shared.hit_handled, Shared.hit_eq, List.map_append, List.append_assoc]
    apply (perm.append_right [msg]).trans
    rw [List.append_assoc]
    exact List.perm_append_comm.append_left _
  · have out : w ∉ busy := by simp [mem, Matcher.inHand, idle, WorkerPhase.inHand]
    refine ⟨w :: busy, List.nodup_cons.mpr ⟨out, nodup⟩, fun w' => ?_, ?_⟩
    · rw [inHand_update _ m.shared, List.mem_cons, mem]
      by_cases same : w' = w
      · subst same
        simp [WorkerPhase.inHand]
      · simp [same]
    · rw [inHand_update _ m.shared, List.filterMap_cons, Function.update_self,
        filterMap_update out]
      apply (perm.append_right [msg]).trans
      rw [List.append_assoc]
      exact (List.perm_append_singleton _ _).append_left _
  · have same : (WorkerPhase.created msg m.shared.allocated).inHand = m.inHand w := by
      rw [Matcher.inHand, missed]
      rfl
    rw [Progress, inHand_update _ m.shared, same, Function.update_eq_self]
    exact ⟨busy, nodup, mem, perm⟩
  · have hand : m.inHand w = some msg := by
      rw [Matcher.inHand, created]
      rfl
    -- the worker's message moves from its hand to the finished ones
    have there : w ∈ busy := by simp [mem, hand]
    have out : w ∉ busy.erase w := nodup.not_mem_erase
    refine ⟨busy.erase w, nodup.erase w, fun w' => ?_, ?_⟩
    · rw [inHand_update _ m.shared, nodup.mem_erase_iff, mem]
      by_cases same : w' = w
      · subst same
        simp [WorkerPhase.inHand]
      · simp [same]
    · have split : (busy.filterMap m.inHand).Perm
          (msg :: (busy.erase w).filterMap m.inHand) := by
        have := (List.perm_cons_erase there).filterMap m.inHand
        rwa [List.filterMap_cons, hand] at this
      have handled : (m.shared.store msg r).handled.map Prod.fst =
          m.shared.handled.map Prod.fst ++ [msg] := by
        rw [Shared.store_eq]
        simp
      rw [inHand_update _ m.shared, filterMap_update out, handled, List.append_assoc,
        Shared.store_eq]
      exact perm.trans (split.append_left _)
  · obtain ⟨taken, handled⟩ := Shared.envStep_frame env
    refine ⟨busy, nodup, mem, ?_⟩
    rw [taken, handled]
    exact perm

/-- When all workers are idle, the finished messages are those that were found. -/
theorem Progress.perm (progress : m.Progress) (idle : ∀ w, m.phase w = .idle) :
    (m.shared.handled.map Prod.fst).Perm m.shared.taken := by
  obtain ⟨busy, -, mem, perm⟩ := progress
  have none_busy : busy = [] := by
    rw [List.eq_nil_iff_forall_not_mem]
    intro w
    simp [mem, inHand, idle, WorkerPhase.inHand]
  rw [none_busy, List.filterMap_nil, List.append_nil] at perm
  exact perm.symm

theorem handled_mono {a : MatcherAction} {h : DecodedMsg × Outcome}
    (step : m.step a = some m') (mem : h ∈ m.shared.handled) : h ∈ m'.shared.handled := by
  rcases step_cases step with ⟨w, msg, r, -, -, -, -, rfl⟩ | ⟨w, msg, -, -, -, -, rfl⟩ |
    ⟨w, msg, -, -, rfl⟩ | ⟨w, msg, r, -, -, rfl⟩ | ⟨e, shared, -, env, rfl⟩
  · rw [Shared.hit_handled]
    exact List.mem_append_left _ mem
  · exact mem
  · exact mem
  · rw [Shared.store_eq]
    exact List.mem_append_left _ mem
  · rwa [(Shared.envStep_frame env).2]

theorem taken_eq (run : Runs.run step (init capacity) acts = some m) :
    m.shared.taken = acts.filterMap MatcherAction.found := by
  induction acts using List.reverseRecOn generalizing m with
  | nil =>
      cases run
      rfl
  | append_singleton acts a ih =>
      obtain ⟨t, before, last⟩ := Runs.run_concat_eq_some.mp run
      rw [List.filterMap_append, ← ih before]
      rcases step_cases last with ⟨w, msg, r, rfl, -, -, -, rfl⟩ |
        ⟨w, msg, rfl, -, -, -, rfl⟩ | ⟨w, msg, rfl, -, rfl⟩ | ⟨w, msg, r, rfl, -, rfl⟩ |
        ⟨e, shared, rfl, env, rfl⟩
      · rw [Shared.hit_eq]
        rfl
      · rfl
      · exact (List.append_nil _).symm
      · rw [Shared.store_eq]
        exact (List.append_nil _).symm
      · rw [(Shared.envStep_frame env).1]
        exact (List.append_nil _).symm

/-! ## Runs whose insertions find their keys absent -/

/-- The pairing table of the messages in the order they were finished. -/
structure Linear (m : Matcher) : Prop where
  inv : m.Inv
  quiet : m.shared.Quiet
  refines : m.shared.Refines (paired (m.shared.handled.map Prod.fst))

theorem linear_init (capacity : ℕ) : (init capacity).Linear :=
  ⟨inv_init capacity, Shared.quiet_init capacity, Shared.refines_init capacity⟩

theorem Linear.step {a : MatcherAction} (linear : m.Linear)
    (fine : m.Uneventful a ∧ m.InsertsFresh a) (step : m.step a = some m') : m'.Linear := by
  obtain ⟨inv, quiet, refines⟩ := linear
  obtain ⟨uneventful, fresh⟩ := fine
  have inv' := inv.step step
  rcases step_cases step with ⟨w, msg, r, -, idle, -, found, rfl⟩ |
    ⟨w, msg, -, idle, -, absent, rfl⟩ | ⟨w, msg, -, missed, rfl⟩ |
    ⟨w, msg, r, rfl, created, rfl⟩ | ⟨e, shared, rfl, env, rfl⟩
  · refine ⟨inv', Shared.Quiet.hit (s := m.shared.take msg) quiet msg r, ?_⟩
    have taken := refines.congr (u := m.shared.take msg) inv.shared (fun _ _ => rfl) rfl rfl
    rw [Shared.hit_handled, List.map_append, List.map_singleton, paired_concat]
    exact taken.hit (inv.shared.take msg) found uneventful.1
  · exact ⟨inv', quiet,
      refines.congr (u := m.shared.take msg) inv.shared (fun _ _ => rfl) rfl rfl⟩
  · exact ⟨inv', quiet.create msg, refines.create inv.shared msg⟩
  · refine ⟨inv', quiet.store msg r, ?_⟩
    have absent := fresh w msg r rfl created
    have mine : m.shared.HeldFor msg r :=
      inv.shared.held_record w msg r (by rw [held, created]; rfl)
    rw [Shared.store_handled absent, List.map_append, List.map_singleton, paired_concat]
    exact refines.store absent mine.lists
  · obtain ⟨quiet', table, pushed, -, -, lists⟩ := quiet.envStep uneventful.2 env
    refine ⟨inv', quiet', ?_⟩
    rw [(Shared.envStep_frame env).2]
    exact refines.congr inv.shared (fun r _ => lists r) table pushed

/-! ## Counting lists -/

def overwrites (m : Matcher) : ℕ := m.shared.handled.countP fun h => h.2.isOverwrite

/-- Every finished message has an entry, or left with another message, or
overwrote an entry. -/
structure Balanced (m : Matcher) : Prop where
  inv : m.Inv
  quiet : m.shared.Quiet
  sum : m.shared.handled.length =
    {key | m.shared.hashTable key ≠ none}.ncard + 2 * m.shared.pushed.length + m.overwrites

theorem balanced_init (capacity : ℕ) : (init capacity).Balanced :=
  ⟨inv_init capacity, Shared.quiet_init capacity, by simp [init, Shared.init, overwrites]⟩

theorem occupied_erase (table : ThriftHashTable) (key : FlowKey) :
    {k | Function.update table key none k ≠ none} = {k | table k ≠ none} \ {key} := by
  ext k
  by_cases same : k = key
  · subst same
    simp
  · simp [same]

theorem occupied_insert (table : ThriftHashTable) (key : FlowKey) (p : ThriftPtr) :
    {k | Function.update table key (some p) k ≠ none} = insert key {k | table k ≠ none} := by
  ext k
  by_cases same : k = key
  · subst same
    simp
  · simp [same]

theorem merge_isOverwrite (msg : DecodedMsg) (r : RecordId) (thrift : ThriftStruct) :
    (Shared.merge msg r thrift).2.isOverwrite = false := by
  unfold Shared.merge
  split
  · rfl
  · split <;> rfl

theorem Balanced.step {a : MatcherAction} (balanced : m.Balanced) (fine : m.Uneventful a)
    (step : m.step a = some m') : m'.Balanced := by
  obtain ⟨inv, quiet, sum⟩ := balanced
  have inv' := inv.step step
  rcases step_cases step with ⟨w, msg, r, -, idle, -, found, rfl⟩ |
    ⟨w, msg, -, idle, -, absent, rfl⟩ | ⟨w, msg, -, missed, rfl⟩ |
    ⟨w, msg, r, rfl, created, rfl⟩ | ⟨e, shared, rfl, env, rfl⟩
  · refine ⟨inv', Shared.Quiet.hit (s := m.shared.take msg) quiet msg r, ?_⟩
    -- one entry less, one record with two lists more
    have there : msg.flowKey ∈ {key | m.shared.hashTable key ≠ none} := by simp [found]
    have card := Set.ncard_sdiff_singleton_add_one there
    have table : ((m.shared.take msg).hit msg r).hashTable =
        Function.update m.shared.hashTable msg.flowKey none := by
      rw [Shared.hit_eq]
      rfl
    have pushed : ((m.shared.take msg).hit msg r).pushed = m.shared.pushed ++ [r] := by
      rw [Shared.hit_eq]
      exact if_neg fine.1
    rw [overwrites, table, occupied_erase, pushed, Shared.hit_handled, List.length_append,
      List.length_append, List.countP_append, List.countP_singleton, merge_isOverwrite]
    simp only [Shared.take, overwrites, List.length_singleton] at sum ⊢
    simp only [Bool.false_eq_true, if_false]
    omega
  · exact ⟨inv', quiet, sum⟩
  · exact ⟨inv', quiet.create msg, sum⟩
  · refine ⟨inv', quiet.store msg r, ?_⟩
    rw [overwrites, Shared.store_eq]
    simp only [occupied_insert, List.length_append, List.countP_append, List.countP_singleton,
      List.length_singleton]
    cases entry : m.shared.hashTable msg.flowKey with
    | none =>
        rw [Set.ncard_insert_of_notMem (by simp [entry])]
        simp only [overwrites] at sum
        simp only [Option.isSome_none, Bool.false_eq_true, if_false, Outcome.isOverwrite_stored]
        omega
    | some p =>
        rw [Set.insert_eq_of_mem (by simp [entry])]
        simp only [overwrites] at sum
        simp only [Option.isSome_some, if_true, Outcome.isOverwrite_overwrote]
        omega
  · obtain ⟨quiet', table, pushed, -⟩ := quiet.envStep fine.2 env
    refine ⟨inv', quiet', ?_⟩
    rw [overwrites, table, pushed, (Shared.envStep_frame env).2]
    exact sum

/-- An insertion that finds an entry is counted. -/
theorem overwrites_pos {pre post : List MatcherAction} {t : Matcher}
    (split : acts = pre ++ .store w :: post) (before : Runs.run step (init capacity) pre = some t)
    (created : t.phase w = .created msg r) (entry : t.shared.hashTable msg.flowKey ≠ none)
    (run : Runs.run step (init capacity) acts = some m) : 0 < m.overwrites := by
  obtain ⟨t', u, before', last, rest⟩ := Runs.run_middle_eq_some.mp (split ▸ run)
  cases before.symm.trans before'
  have overwrote : (msg, Outcome.overwrote r) ∈ u.shared.handled := by
    simp only [Matcher.step, created, Option.some.injEq] at last
    subst last
    obtain ⟨p, found⟩ := Option.ne_none_iff_exists'.mp entry
    rw [Shared.store_eq, found]
    simp
  have there : (msg, Outcome.overwrote r) ∈ m.shared.handled :=
    Runs.invariant_of_step (I := fun t => (msg, Outcome.overwrote r) ∈ t.shared.handled)
      overwrote (fun t a t' mem step => handled_mono step mem) rest
  exact List.countP_pos_iff.mpr ⟨_, there, rfl⟩

/-! ## Linearizability -/

/-- Handling the messages in the order, one after another, leads to the same
table and the same pushed records. The reference has an output queue of its
own, with room for all messages. -/
def Explains (order : List DecodedMsg) (m : Matcher) : Prop :=
  ∃ s, (Shared.init order.length).handleAll order = some s ∧
    s.tableView = m.shared.tableView ∧ s.pushedView.Perm m.shared.pushedView

theorem reference_room (order : List DecodedMsg) :
    (paired order).emitted.length ≤ order.length := by
  simpa [paired] using Pairing.emitted_length_le (order.map DecodedMsg.item)

theorem Linear.explains (linear : m.Linear) :
    Explains (m.shared.handled.map Prod.fst) m := by
  obtain ⟨s, run, -, ref, -⟩ := Shared.handleAll_refines (reference_room _)
  refine ⟨s, run, ?_, ?_⟩
  · funext key
    rw [ref.table, linear.refines.table]
  · rw [ref.pushed, linear.refines.pushed]

theorem tableView_ne_none {s : Shared} : s.tableView key ≠ none ↔ s.hashTable key ≠ none := by
  simp [Shared.tableView]

/-- An explained run has as many entries and pushed records as the explanation,
so no list is missing. -/
theorem Balanced.no_overwrite (balanced : m.Balanced) {order : List DecodedMsg}
    (length : order.length = m.shared.handled.length) (explains : Explains order m) :
    m.overwrites = 0 := by
  obtain ⟨s, run, table, pushed⟩ := explains
  obtain ⟨s', run', -, ref, -⟩ := Shared.handleAll_refines (reference_room order)
  cases run.symm.trans run'
  have entries : {key | m.shared.hashTable key ≠ none} = (paired order).occupied := by
    ext key
    have view : m.shared.tableView key = ((paired order).slots key).map halfLists := by
      rw [← table, ref.table]
    have : m.shared.tableView key ≠ none ↔ (paired order).slots key ≠ none := by simp [view]
    exact tableView_ne_none.symm.trans this
  have emitted : m.shared.pushed.length = (paired order).emitted.length := by
    have := pushed.length_eq
    rw [ref.pushed] at this
    simpa [Shared.pushedView] using this.symm
  have count := Pairing.length_eq_occupied_add_emitted (order.map DecodedMsg.item)
  rw [List.length_map] at count
  have sum := balanced.sum
  rw [entries, emitted] at sum
  unfold paired at sum
  omega

/-- **A run is linearizable exactly when no insertion overwrites an entry.** -/
theorem linearizable_iff (run : Runs.run step (init capacity) acts = some m)
    (uneventful : Runs.Along step Uneventful (init capacity) acts)
    (idle : ∀ w, m.phase w = .idle) :
    (∃ order, order.Perm (acts.filterMap MatcherAction.found) ∧ Explains order m) ↔
      Runs.Along step InsertsFresh (init capacity) acts := by
  have progress : m.Progress := Runs.invariant_of_step (I := Progress)
    (progress_init capacity) (fun _ _ _ progress step => progress.step step) run
  have perm := (progress.perm idle).trans (.of_eq (taken_eq run))
  constructor
  · -- an insertion that overwrites would show in the count of the lists
    rintro ⟨order, orders, explains⟩ pre a post split t before w msg r rfl created
    have balanced : m.Balanced := Runs.invariant_along (I := Balanced)
      (balanced_init capacity) (fun _ _ _ balanced fine step => balanced.step fine step)
      uneventful run
    have length : order.length = m.shared.handled.length := by
      rw [orders.length_eq, ← perm.length_eq, List.length_map]
    have none_overwritten := balanced.no_overwrite length explains
    by_contra entry
    exact absurd none_overwritten
      (Nat.ne_of_gt (overwrites_pos split before created entry run))
  · -- the order in which the messages were finished explains the run
    intro fresh
    have linear : m.Linear := Runs.invariant_along (I := Linear)
      (P := fun m a => m.Uneventful a ∧ m.InsertsFresh a) (linear_init capacity)
      (fun _ _ _ linear fine step => linear.step fine step)
      (fun pre a post split t before =>
        ⟨uneventful pre a post split t before, fresh pre a post split t before⟩) run
    exact ⟨_, perm, linear.explains⟩

/-- Three workers, step by step between each other: the response finds its
request, and a request of another flow is stored. -/
theorem linearizable_iff_interleaved :
    let req := DecodedMsg.request 0 ⟨2, 1, 40000, 1813, 7⟩ []
    let other := DecodedMsg.request 1 ⟨2, 1, 40000, 1813, 8⟩ []
    let resp := DecodedMsg.response 2 ⟨2, 1, 40000, 1813, 7⟩ []
    let acts := [.find 0 req, .find 1 other, .create 1, .create 0, .store 0, .find 2 resp, .store 1]
    ∃ m, Runs.run step (init 4) acts = some m ∧ m.shared.pushed = [1] ∧
      m.shared.tableView ⟨2, 1, 40000, 1813, 7⟩ = none ∧
      m.shared.tableView ⟨2, 1, 40000, 1813, 8⟩ = some (some other.avpListPtr, none) ∧
      ((∃ order, order.Perm (acts.filterMap MatcherAction.found) ∧ Explains order m) ↔
        Runs.Along step InsertsFresh (init 4) acts) := by
  refine ⟨_, rfl, rfl, rfl, rfl, linearizable_iff rfl (by decide) fun w => ?_⟩
  by_cases first : w = 0 <;> by_cases second : w = 1 <;> by_cases third : w = 2 <;>
    simp [init, first, second, third]

/-- Two workers take a request and its response; both finds miss, and both
records are stored. The request is lost: neither order of the two leaves the
table so. -/
theorem request_overwritten_by_response :
    let req := DecodedMsg.request 0 ⟨2, 1, 40000, 1813, 7⟩ []
    let resp := DecodedMsg.response 1 ⟨2, 1, 40000, 1813, 7⟩ []
    let acts := [.find 0 req, .find 1 resp, .create 0, .create 1, .store 0, .store 1]
    ∃ m, Runs.run step (init 4) acts = some m ∧
      Runs.Along step Uneventful (init 4) acts ∧ (∀ w, m.phase w = .idle) ∧
      m.shared.tableView ⟨2, 1, 40000, 1813, 7⟩ = some (none, some resp.avpListPtr) ∧
      m.shared.pushed = [] ∧
      ¬ ∃ order, order.Perm (acts.filterMap MatcherAction.found) ∧ Explains order m := by
  intro req resp acts
  have uneventful : Runs.Along step Uneventful (init 4) acts := by decide
  refine ⟨_, rfl, uneventful, fun w => ?_, rfl, rfl, ?_⟩
  · by_cases first : w = 0 <;> by_cases second : w = 1 <;> simp [init, first, second]
  · rintro ⟨order, orders, explains⟩
    have balanced : Balanced _ := Runs.invariant_along (I := Balanced) (balanced_init 4)
      (fun _ _ _ balanced fine step => balanced.step fine step) uneventful rfl
    have overwrites := balanced.no_overwrite orders.length_eq explains
    exact absurd overwrites (by decide)

end Matcher

end RadiusEventHandler
