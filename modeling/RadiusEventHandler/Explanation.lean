import RadiusEventHandler.Framework.LossyPairing
import RadiusEventHandler.Reports

/-!
# What any run amounts to

With timers, a full output queue and insertions that meet an entry a run is no
longer what the pairing table makes of its messages. It still is what the
pairing table with expiries and losses makes of them (`Shows`): a handler that
finds an entry is an expiry, an insertion that meets one loses it, and a push
that is refused leaves the table like any other. So nothing else can happen to
a message, and a run has as many losses as insertions that met an entry, in
whatever order its messages are thought to be handled.
-/

namespace RadiusEventHandler

namespace Shared

def refusedView (s : Shared) : List Lists := s.refused.map fun r => (s.thriftStructs r).lists

/-- The table, and the records that have left it, are those of a pairing table. -/
structure Shows (s : Shared) (t : Pairing.Table FlowKey AvpListPtr) : Prop where
  table : ∀ key, s.tableView key = (t.slots key).map halfLists
  left : (s.pushedView ++ s.refusedView).Perm (t.emitted.map emissionLists)
  pushed : s.pushedView.Sublist (t.emitted.map emissionLists)
  refused : s.refusedView.Sublist (t.emitted.map emissionLists)

/-- What the events lead to is what the state shows. -/
def ExplainedBy (s : Shared) (events : List (Pairing.Event FlowKey AvpListPtr)) : Prop :=
  ∃ t, Runs.run Pairing.advance .empty events = some t ∧ s.Shows t

variable {s s' : Shared} {t : Pairing.Table FlowKey AvpListPtr} {msg : DecodedMsg}
  {held : ℕ → Option (DecodedMsg × RecordId)} {r : RecordId} {key : FlowKey}

theorem shows_init (capacity : ℕ) : (init capacity).Shows .empty :=
  ⟨fun _ => rfl, List.Perm.nil, List.Sublist.slnil, List.Sublist.slnil⟩

/-! ## The steps -/

theorem Shows.slot_of_entry (shows : s.Shows t) (found : s.hashTable key = some (some r)) :
    ∃ h, t.slots key = some h ∧ (s.thriftStructs r).lists = halfLists h := by
  have view := shows.table key
  rw [tableView_entry found] at view
  obtain ⟨h, slot, lists⟩ := Option.map_eq_some_iff.mp view.symm
  exact ⟨h, slot, lists.symm⟩

theorem Shows.slot_of_absent (shows : s.Shows t) (absent : s.hashTable key = none) :
    t.slots key = none := by
  have view := shows.table key
  rw [tableView, absent] at view
  exact Option.map_eq_none_iff.mp view.symm

theorem Shows.congr (shows : s.Shows t) (inv : s.Inv held)
    (lists : ∀ r, r < s.allocated → (s'.thriftStructs r).lists = (s.thriftStructs r).lists)
    (hashTable : s'.hashTable = s.hashTable) (pushed : s'.pushed = s.pushed)
    (refused : s'.refused = s.refused) : s'.Shows t := by
  have gone : ∀ r, s.Gone r → (s'.thriftStructs r).lists = (s.thriftStructs r).lists := by
    intro r gone
    obtain ⟨key, stored⟩ := gone.stored
    exact lists r (inv.stored_lt r key stored)
  have pushedView : s'.pushedView = s.pushedView := by
    rw [Shared.pushedView, pushed]
    exact List.map_congr_left fun r mem => gone r (inv.pushed r mem).1
  have refusedView : s'.refusedView = s.refusedView := by
    rw [Shared.refusedView, refused]
    exact List.map_congr_left fun r mem => gone r (inv.refused r mem)
  refine ⟨fun key => ?_, ?_, ?_, ?_⟩
  · rw [← shows.table key, tableView, tableView, hashTable]
    cases entry : s.hashTable key with
    | none => rfl
    | some p =>
        obtain ⟨r, rfl, stored, -⟩ := inv.entry key p entry
        simp [lists r (inv.stored_lt r key stored)]
  · rw [pushedView, refusedView]
    exact shows.left
  · rw [pushedView]
    exact shows.pushed
  · rw [refusedView]
    exact shows.refused

/-- A record leaves the table, and what it has then is emitted. -/
theorem Shows.leave (shows : s.Shows t) (inv : s.Inv held)
    (found : s.hashTable key = some (some r))
    (table : s'.hashTable = Function.update s.hashTable key none)
    (place : (s'.pushed = s.pushed ++ [r] ∧ s'.refused = s.refused) ∨
      (s'.pushed = s.pushed ∧ s'.refused = s.refused ++ [r]))
    (others : ∀ r', r' ≠ r → (s'.thriftStructs r').lists = (s.thriftStructs r').lists)
    {e : Pairing.Emission FlowKey AvpListPtr}
    (last : (s'.thriftStructs r).lists = emissionLists e) :
    s'.Shows ⟨Function.update t.slots key none, t.emitted ++ [e]⟩ := by
  obtain ⟨r₀, eq, stored, -⟩ := inv.entry key _ found
  cases eq
  have pushed : (s.pushed.map fun r => (s'.thriftStructs r).lists) = s.pushedView :=
    List.map_congr_left fun r' mem => others r' ((inv.pushed r' mem).1.ne found)
  have refused : (s.refused.map fun r => (s'.thriftStructs r).lists) = s.refusedView :=
    List.map_congr_left fun r' mem => others r' ((inv.refused r' mem).ne found)
  have slots : ∀ k, s'.tableView k = (Function.update t.slots key none k).map halfLists := by
    intro k
    rw [tableView, table]
    by_cases same : k = key
    · subst same
      rw [Function.update_self, Function.update_self]
      rfl
    · rw [Function.update_of_ne same, Function.update_of_ne same, ← shows.table k, tableView]
      cases entry : s.hashTable k with
      | none => rfl
      | some p =>
          obtain ⟨r', rfl, stored', -⟩ := inv.entry k p entry
          have other : r' ≠ r := by
            rintro rfl
            exact same (inv.stored_key r' _ _ stored' stored)
          exact congrArg some (others r' other)
  have more : (t.emitted ++ [e]).map emissionLists =
      t.emitted.map emissionLists ++ [emissionLists e] := by simp
  rcases place with ⟨isPushed, notRefused⟩ | ⟨notPushed, isRefused⟩
  · have pushedView : s'.pushedView = s.pushedView ++ [emissionLists e] := by
      rw [Shared.pushedView, isPushed, List.map_append, pushed, List.map_singleton, last]
    have refusedView : s'.refusedView = s.refusedView := by
      rw [Shared.refusedView, notRefused, refused]
    refine ⟨slots, ?_, ?_, ?_⟩ <;> simp only [more, pushedView, refusedView]
    · rw [List.append_assoc]
      exact (List.perm_append_comm.append_left _).trans
        ((List.append_assoc _ _ _ ▸ shows.left.append_right _))
    · exact shows.pushed.append_right _
    · exact shows.refused.trans (List.sublist_append_left _ _)
  · have pushedView : s'.pushedView = s.pushedView := by
      rw [Shared.pushedView, notPushed, pushed]
    have refusedView : s'.refusedView = s.refusedView ++ [emissionLists e] := by
      rw [Shared.refusedView, isRefused, List.map_append, refused, List.map_singleton, last]
    refine ⟨slots, ?_, ?_, ?_⟩ <;> simp only [more, pushedView, refusedView]
    · rw [← List.append_assoc]
      exact shows.left.append_right _
    · exact shows.pushed.trans (List.sublist_append_left _ _)
    · exact shows.refused.append_right _

/-- A find that hits feeds the message. -/
theorem Shows.hit (shows : s.Shows t) (inv : s.Inv held)
    (found : s.hashTable msg.flowKey = some (some r)) :
    (s.hit msg r).Shows (Pairing.feed t msg.item) := by
  obtain ⟨h, slot, lists⟩ := shows.slot_of_entry found
  have slot' : t.slots msg.item.key = some h := slot
  rw [Pairing.feed_of_some slot']
  refine shows.leave inv found ?_ ?_ ?_ ?_
  · rw [hit_eq]
  · apply pushOutput_place (q := s.outputQueue) <;> rw [hit_eq]
  · intro r' other
    rw [hit_eq]
    exact congrArg ThriftStruct.lists (Function.update_of_ne other _ _)
  · have merged : (s.hit msg r).thriftStructs r =
        (merge msg r ((s.thriftStructs r).onTimer .cancel)).1 := by
      rw [hit_eq]
      exact Function.update_self _ _ _
    rw [merged]
    exact merge_lists msg r lists

/-- A handler that finds an entry is an expiry of its key. -/
theorem Shows.timeout (shows : s.Shows t) (inv : s.Inv held) (owner : RecordId)
    (found : s.hashTable key = some (some r)) {h : Pairing.Side × AvpListPtr}
    (lists : (s.thriftStructs r).lists = halfLists h) :
    (s.handleTimeout owner key false).Shows (Pairing.release t key h) := by
  refine shows.leave inv found ?_ ?_ ?_ (e := .lone key h.1 h.2) ?_ <;>
    rw [handleTimeout_eq found]
  · exact pushOutput_place rfl rfl
  · exact fun _ _ => rfl
  · exact lists

/-- An insertion puts the message under its key, whatever is there. -/
theorem Shows.store (shows : s.Shows t)
    (lists : (s.thriftStructs r).lists = halfLists msg.item.half) :
    (s.store msg r).Shows
      { t with slots := Function.update t.slots msg.flowKey (some msg.item.half) } := by
  have pushedView : (s.store msg r).pushedView = s.pushedView := by
    rw [Shared.pushedView, store_eq]
    rfl
  have refusedView : (s.store msg r).refusedView = s.refusedView := by
    rw [Shared.refusedView, store_eq]
    rfl
  refine ⟨fun key => ?_, ?_, ?_, ?_⟩
  · rw [tableView, store_eq]
    by_cases same : key = msg.flowKey
    · subst same
      simp [lists]
    · dsimp only
      rw [Function.update_of_ne same, Function.update_of_ne same, ← shows.table key]
      rfl
  · rw [pushedView, refusedView]
    exact shows.left
  · rw [pushedView]
    exact shows.pushed
  · rw [refusedView]
    exact shows.refused

end Shared

namespace Matcher

/-! ## Runs -/

/-- Events that explain the state: the messages in the order in which they were
finished, an expiry for every unmatched record, a loss for every overwriting. -/
structure Course (m : Matcher) (events : List (Pairing.Event FlowKey AvpListPtr)) : Prop where
  explained : m.shared.ExplainedBy events
  items : Pairing.items events = m.shared.handled.map fun h => h.1.item
  expiries : ((Pairing.expiries events).length : ℤ) = m.shared.unmatchedReqsNum
  losses : (Pairing.losses events).length = m.overwrites

variable {m m' : Matcher} {events : List (Pairing.Event FlowKey AvpListPtr)} {msg : DecodedMsg}
  {w : ℕ} {r : RecordId} {key : FlowKey} {acts : List MatcherAction} {capacity : ℕ}

theorem course_init (capacity : ℕ) : (init capacity).Course [] :=
  ⟨⟨.empty, rfl, Shared.shows_init capacity⟩, rfl, rfl, rfl⟩

/-- A step without events. -/
theorem Course.congr (course : m.Course events) (inv : m.Inv)
    (lists : ∀ r, r < m.shared.allocated →
      (m'.shared.thriftStructs r).lists = (m.shared.thriftStructs r).lists)
    (table : m'.shared.hashTable = m.shared.hashTable)
    (pushed : m'.shared.pushed = m.shared.pushed) (refused : m'.shared.refused = m.shared.refused)
    (handled : m'.shared.handled = m.shared.handled)
    (unmatched : m'.shared.unmatchedReqsNum = m.shared.unmatchedReqsNum) : m'.Course events := by
  obtain ⟨⟨t, run, shows⟩, items, expiries, losses⟩ := course
  refine ⟨⟨t, run, shows.congr inv.shared lists table pushed refused⟩, ?_, ?_, ?_⟩
  · rw [handled, items]
  · rw [unmatched, expiries]
  · rw [overwrites, handled, losses, overwrites]

/-- A step with events. -/
theorem Course.extend {more : List (Pairing.Event FlowKey AvpListPtr)}
    {t t' : Pairing.Table FlowKey AvpListPtr} (course : m.Course events)
    (run : Runs.run Pairing.advance .empty events = some t)
    (next : Runs.run Pairing.advance t more = some t') (shows : m'.shared.Shows t')
    (items : (m'.shared.handled.map fun h => h.1.item) =
      (m.shared.handled.map fun h => h.1.item) ++ Pairing.items more)
    (expiries : m'.shared.unmatchedReqsNum =
      m.shared.unmatchedReqsNum + (Pairing.expiries more).length)
    (losses : m'.overwrites = m.overwrites + (Pairing.losses more).length) :
    m'.Course (events ++ more) := by
  refine ⟨⟨t', Runs.run_append_eq_some.mpr ⟨t, run, next⟩, shows⟩, ?_, ?_, ?_⟩
  · rw [Pairing.items_append, course.items, items]
  · rw [Pairing.expiries_append, List.length_append, Nat.cast_add, course.expiries, expiries]
  · rw [Pairing.losses_append, List.length_append, course.losses, losses]

theorem Course.hit (course : m.Course events) (inv : m.Inv)
    (found : m.shared.hashTable msg.flowKey = some (some r)) (phase : ℕ → WorkerPhase) :
    (⟨(m.shared.take msg).hit msg r, phase⟩ : Matcher).Course (events ++ [.item msg.item]) := by
  obtain ⟨t, run, shows⟩ := course.explained
  have taken : (m.shared.take msg).Shows t :=
    shows.congr inv.shared (fun _ _ => rfl) rfl rfl rfl
  refine course.extend run rfl (taken.hit (inv.shared.take msg) found) ?_ ?_ ?_
  · rw [Shared.hit_handled, List.map_append]
    rfl
  · rw [Shared.hit_eq]
    exact (add_zero _).symm
  · rw [overwrites, Shared.hit_handled, List.countP_append, List.countP_singleton,
      merge_isOverwrite]
    rfl

/-- An insertion is the arrival of its message, after the loss of the entry it
meets. -/
theorem Course.store (course : m.Course events) (inv : m.Inv)
    (created : m.phase w = .created msg r) (phase : ℕ → WorkerPhase) :
    ∃ more, (⟨m.shared.store msg r, phase⟩ : Matcher).Course (events ++ more) := by
  obtain ⟨t, run, shows⟩ := course.explained
  have mine : m.shared.HeldFor msg r :=
    inv.shared.held_record w msg r (by rw [held, created]; rfl)
  have stored := shows.store mine.lists
  have finished : ((m.shared.store msg r).handled.map fun h => h.1.item) =
      (m.shared.handled.map fun h => h.1.item) ++ [msg.item] := by
    rw [Shared.store_eq, List.map_append]
    rfl
  have unmatched : (m.shared.store msg r).unmatchedReqsNum = m.shared.unmatchedReqsNum := by
    rw [Shared.store_eq]
  cases entry : m.shared.hashTable msg.flowKey with
  | none =>
      have slot : t.slots msg.item.key = none := shows.slot_of_absent entry
      refine ⟨[.item msg.item], course.extend run rfl ?_ finished ?_ ?_⟩
      · rw [Pairing.feed_of_none slot]
        exact stored
      · exact unmatched.trans (add_zero _).symm
      · rw [overwrites, Shared.store_handled entry, List.countP_append]
        rfl
  | some p =>
      obtain ⟨r₀, rfl, -⟩ := inv.shared.entry _ p entry
      obtain ⟨h, slot, -⟩ := shows.slot_of_entry entry
      have slot' : t.slots msg.item.key = some h := slot
      have next : Runs.run Pairing.advance t [.lose msg.item.key, .item msg.item] =
          some (Pairing.feed (Pairing.forget t msg.item.key) msg.item) := by
        rw [Runs.run, Pairing.advance_lose slot']
        rfl
      refine ⟨[.lose msg.item.key, .item msg.item], course.extend run next ?_ finished ?_ ?_⟩
      · rw [Pairing.feed_forget]
        exact stored
      · exact unmatched.trans (add_zero _).symm
      · rw [overwrites, Shared.store_eq, List.countP_append, entry]
        rfl

theorem Course.timeout (course : m.Course events) (inv : m.Inv) (owner : RecordId)
    (key : FlowKey) :
    ∃ more, (⟨(m.shared.setWait owner (.completed key)).handleTimeout owner key false,
      m.phase⟩ : Matcher).Course (events ++ more) := by
  have waited := inv.shared.setWait owner (.completed key)
  have lists := fun r => Shared.lists_setWait m.shared owner r (.completed key)
  obtain ⟨t, run, shows⟩ := course.explained
  have shows' : (m.shared.setWait owner (.completed key)).Shows t :=
    shows.congr inv.shared (fun r _ => lists r) rfl rfl rfl
  cases entry : m.shared.hashTable key with
  | none =>
      have nothing : (m.shared.setWait owner (.completed key)).handleTimeout owner key false =
          m.shared.setWait owner (.completed key) := Shared.handleTimeout_no_entry entry
      refine ⟨[], ?_⟩
      rw [nothing, List.append_nil]
      exact course.congr inv (fun r _ => lists r) rfl rfl rfl rfl rfl
  | some p =>
      obtain ⟨r, rfl, -⟩ := inv.shared.entry key p entry
      have found : (m.shared.setWait owner (.completed key)).hashTable key = some (some r) := entry
      obtain ⟨h, slot, half⟩ := shows'.slot_of_entry found
      have next : Runs.run Pairing.advance t [.expire key] = some (Pairing.release t key h) := by
        rw [Runs.run, Pairing.advance_expire slot]
        rfl
      refine ⟨[.expire key], course.extend run next (shows'.timeout waited owner found half)
        ?_ ?_ ?_⟩ <;> rw [Shared.handleTimeout_eq found]
      · exact (List.append_nil _).symm
      · rfl
      · rfl

theorem Course.env (course : m.Course events) (inv : m.Inv) {e : Shared.EnvAction}
    {shared : Shared} (env : m.shared.envStep e = some shared) :
    ∃ more, (⟨shared, m.phase⟩ : Matcher).Course (events ++ more) := by
  have quiet : ∀ r wait, (⟨m.shared.setWait r wait, m.phase⟩ : Matcher).Course (events ++ []) := by
    intro r wait
    rw [List.append_nil]
    exact course.congr inv (fun r' _ => Shared.lists_setWait m.shared r r' wait) rfl rfl rfl rfl rfl
  cases e with
  | expire r =>
      obtain ⟨key, -, rfl⟩ := Shared.expire_cases env
      exact ⟨[], quiet r _⟩
  | runHandler r =>
      obtain ⟨key, ⟨-, rfl⟩ | ⟨-, rfl⟩⟩ := Shared.runHandler_cases env
      · exact course.timeout inv r key
      · exact ⟨[], quiet r _⟩
  | send applId now sendThrows =>
      obtain ⟨table, -, pushed, refused, -, handled, unmatched, -, lists⟩ := Shared.send_cases env
      refine ⟨[], ?_⟩
      rw [List.append_nil]
      exact course.congr inv (fun r _ => lists r) table pushed refused handled unmatched

/-- **The step lemma of this file.** -/
theorem Course.step {a : MatcherAction} (course : m.Course events) (inv : m.Inv)
    (step : m.step a = some m') : ∃ more, m'.Course (events ++ more) := by
  rcases step_cases step with ⟨w, msg, r, -, -, -, found, rfl⟩ | ⟨w, msg, -, -, -, -, rfl⟩ |
    ⟨w, msg, -, -, rfl⟩ | ⟨w, msg, r, -, created, rfl⟩ | ⟨e, shared, -, env, rfl⟩
  · exact ⟨[.item msg.item], course.hit inv found m.phase⟩
  · refine ⟨[], ?_⟩
    rw [List.append_nil]
    exact course.congr inv (fun _ _ => rfl) rfl rfl rfl rfl rfl
  · refine ⟨[], ?_⟩
    rw [List.append_nil]
    refine course.congr inv (fun r lt => ?_) rfl rfl rfl rfl rfl
    rw [Shared.create_eq]
    exact congrArg ThriftStruct.lists (Function.update_of_ne (Nat.ne_of_lt lt) _ _)
  · exact course.store inv created _
  · exact course.env inv env

theorem exists_course (run : Runs.run step (init capacity) acts = some m) :
    ∃ events, m.Course events := by
  have both : m.Inv ∧ ∃ events, m.Course events :=
    Runs.invariant_of_step (I := fun t : Matcher => t.Inv ∧ ∃ events, t.Course events)
      ⟨inv_init capacity, [], course_init capacity⟩
      (fun t a u ⟨inv, events, course⟩ step => by
        obtain ⟨more, course'⟩ := course.step inv step
        exact ⟨inv.step step, events ++ more, course'⟩) run
  exact both.2

/-- Whoever explains the state has the same number of losses. -/
theorem Course.losses_eq (course : m.Course events)
    {events' : List (Pairing.Event FlowKey AvpListPtr)} (explained : m.shared.ExplainedBy events')
    (items : (Pairing.items events').Perm (m.shared.handled.map fun h => h.1.item))
    (expiries : ((Pairing.expiries events').length : ℤ) = m.shared.unmatchedReqsNum) :
    (Pairing.losses events').length = m.overwrites := by
  obtain ⟨t, run, shows⟩ := course.explained
  obtain ⟨t', run', shows'⟩ := explained
  rw [← course.losses]
  apply Pairing.losses_eq run run'
  · ext key
    have view : (t.slots key).map halfLists = (t'.slots key).map halfLists := by
      rw [← shows.table key, ← shows'.table key]
    rw [Pairing.Table.occupied, Pairing.Table.occupied, Set.mem_ofPred_eq, Set.mem_ofPred_eq,
      ← Option.isSome_iff_ne_none, ← Option.isSome_iff_ne_none, ← Option.isSome_map, ← view,
      Option.isSome_map]
  · have left := (shows'.left.symm.trans shows.left).length_eq
    rwa [List.length_map, List.length_map] at left
  · rw [items.length_eq, course.items]
  · have same := expiries.trans course.expiries.symm
    exact_mod_cast same

end Matcher

namespace Program

variable {s : Program} {localEndpoint : Endpoint} {acts : List ProgramAction}
  {workersNumber workerQueueCapacity thriftQueueCapacity : ℕ}

/-- **What any run amounts to.** The messages in the order in which they were
finished, with an expiry for every unmatched record and a loss for every
overwritten entry, explain the table and the records that have left it. In any
other order of these messages, with as many expiries, as many are lost. -/
theorem run_explained
    (run : Runs.run step (init localEndpoint workersNumber workerQueueCapacity
      thriftQueueCapacity) acts = some s) :
    (∃ events, s.matcher.Course events) ∧
    ∀ events, s.process.shared.ExplainedBy events →
      (Pairing.items events).Perm (s.process.shared.handled.map fun h => h.1.item) →
      ((Pairing.expiries events).length : ℤ) = s.process.shared.unmatchedReqsNum →
      (Pairing.losses events).length = s.matcher.overwrites := by
  obtain ⟨macts, -, matched, -⟩ := reaches_matcher run
  obtain ⟨events, course⟩ := Matcher.exists_course matched
  exact ⟨⟨events, course⟩, fun _ explained items expiries =>
    course.losses_eq explained items expiries⟩

/-- A request and its response are with two workers that both find nothing; the
second insertion meets the entry of the first, and the timer of the first record
evicts the second. -/
def collisionRun : List ProgramAction :=
  [.poll (.receive ([4, 103, 0, 20] ++ List.replicate 16 0, radiusClient)),
    .poll (.receive ([5, 103, 0, 20] ++ List.replicate 16 0, radiusClient)),
    .worker 0, .worker 0, .worker 0, .worker 1, .worker 1, .worker 1,
    .worker 0, .worker 0, .worker 1, .worker 1, .expire 0, .poll (.env (.runHandler 0))]

theorem run_explained_collision :
    ∃ s, Runs.run step (createModules radiusMonitor) collisionRun = some s ∧
      s.matcher.overwrites = 1 ∧ s.process.shared.unmatchedReqsNum = 1 ∧
      (∃ events, s.matcher.Course events ∧ (Pairing.losses events).length = 1) ∧
      ∀ events, s.process.shared.ExplainedBy events →
        (Pairing.items events).Perm (s.process.shared.handled.map fun h => h.1.item) →
        ((Pairing.expiries events).length : ℤ) = 1 → (Pairing.losses events).length = 1 := by
  have facts : (Runs.run step (createModules radiusMonitor) collisionRun).map (fun s =>
      (s.matcher.overwrites, s.process.shared.unmatchedReqsNum)) = some (1, 1) := by
    decide +kernel
  obtain ⟨s, run, counts⟩ := Option.map_eq_some_iff.mp facts
  obtain ⟨overwrites, unmatched⟩ := Prod.mk.inj counts
  obtain ⟨⟨events, course⟩, forced⟩ := run_explained run
  rw [overwrites, unmatched] at forced
  exact ⟨s, run, overwrites, unmatched, ⟨events, course, course.losses.trans overwrites⟩, forced⟩

end Program

end RadiusEventHandler
