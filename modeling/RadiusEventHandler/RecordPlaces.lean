import Mathlib.Data.Set.Card
import RadiusEventHandler.Linearizability
import RadiusEventHandler.Waits

/-!
# Where the records are while workers are interleaved

Between its creation and its insertion a record is in the hands of a worker. A
step of the matcher creates a record, puts one into the table or takes one out
of it; `Moves` says so once for all the invariants that follow. An insertion
that meets an entry throws the record of that entry away: nothing else in any
run loses a record, and nothing has a record in two places.
-/

namespace RadiusEventHandler

namespace Matcher

/-- The wait of a record. -/
def waitOf (m : Matcher) (r : RecordId) : Wait := m.shared.waitOf r

/-- What a step does to the places and to the waits of the records. -/
inductive Moves (m : Matcher) (a : MatcherAction) (m' : Matcher) : Prop where
  | stay (quiet : ∀ r, a ≠ .env (.runHandler r)) (allocated : m'.shared.allocated =
        m.shared.allocated) (held : m'.held = m.held)
      (table : m'.shared.hashTable = m.shared.hashTable)
      (pushed : m'.shared.pushed = m.shared.pushed)
      (refused : m'.shared.refused = m.shared.refused) (overwrites : m'.overwrites = m.overwrites)
      (waits : m'.waitOf = m.waitOf)
  | wait (r : RecordId) (wait' : Wait)
      (turn : (∃ key, m.waitOf r = .pending key ∧ wait' = .expired key ∧
          ∀ r', a ≠ .env (.runHandler r')) ∨
        ∃ key, ((m.waitOf r = .expired key ∧ m.shared.hashTable key = none) ∨
            m.waitOf r = .aborted key) ∧ wait' = .completed key ∧ a = .env (.runHandler r))
      (allocated : m'.shared.allocated = m.shared.allocated) (held : m'.held = m.held)
      (table : m'.shared.hashTable = m.shared.hashTable)
      (pushed : m'.shared.pushed = m.shared.pushed)
      (refused : m'.shared.refused = m.shared.refused) (overwrites : m'.overwrites = m.overwrites)
      (waits : m'.waitOf = Function.update m.waitOf r wait')
  | create (w : ℕ) (msg : DecodedMsg) (quiet : ∀ r, a ≠ .env (.runHandler r))
      (free : m.held w = none) (allocated : m'.shared.allocated = m.shared.allocated + 1)
      (held : m'.held = Function.update m.held w (some (msg, m.shared.allocated)))
      (table : m'.shared.hashTable = m.shared.hashTable)
      (pushed : m'.shared.pushed = m.shared.pushed)
      (refused : m'.shared.refused = m.shared.refused) (overwrites : m'.overwrites = m.overwrites)
      (waits : m'.waitOf = Function.update m.waitOf m.shared.allocated (.pending msg.flowKey))
  | insert (w : ℕ) (msg : DecodedMsg) (r : RecordId) (quiet : ∀ r, a ≠ .env (.runHandler r))
      (holds : m.held w = some (msg, r)) (allocated : m'.shared.allocated = m.shared.allocated)
      (held : m'.held = Function.update m.held w none)
      (table : m'.shared.hashTable =
        Function.update m.shared.hashTable msg.flowKey (some (some r)))
      (pushed : m'.shared.pushed = m.shared.pushed)
      (refused : m'.shared.refused = m.shared.refused)
      (overwrites : m'.overwrites =
        m.overwrites + if (m.shared.hashTable msg.flowKey).isSome then 1 else 0)
      (waits : m'.waitOf = m.waitOf)
  | leave (key : FlowKey) (r owner : RecordId) (wait' : Wait)
      (found : m.shared.hashTable key = some (some r))
      (cause : (a = .env (.runHandler owner) ∧ m.waitOf owner = .expired key ∧
          wait' = .completed key) ∨
        ((∀ r', a ≠ .env (.runHandler r')) ∧ owner = r))
      (allocated : m'.shared.allocated = m.shared.allocated) (held : m'.held = m.held)
      (table : m'.shared.hashTable = Function.update m.shared.hashTable key none)
      (place : (m'.shared.pushed = m.shared.pushed ++ [r] ∧
          m'.shared.refused = m.shared.refused) ∨
        (m'.shared.pushed = m.shared.pushed ∧ m'.shared.refused = m.shared.refused ++ [r]))
      (overwrites : m'.overwrites = m.overwrites)
      (waits : m'.waitOf = Function.update m.waitOf owner wait')

variable {m m' t : Matcher} {a : MatcherAction} {msg : DecodedMsg} {r : RecordId} {key : FlowKey}
  {w : ℕ} {acts : List MatcherAction} {capacity : ℕ}

/-! ## What a step can do -/

theorem moves_find_hit (found : m.shared.hashTable msg.flowKey = some (some r)) :
    m.Moves (.find w msg) ⟨(m.shared.take msg).hit msg r, m.phase⟩ := by
  refine .leave msg.flowKey r r _ found (.inr ⟨by rintro _ ⟨⟩, rfl⟩) ?_ rfl ?_ ?_ ?_
    (Shared.hit_waitOf (m.shared.take msg) msg r)
  · show ((m.shared.take msg).hit msg r).allocated = m.shared.allocated
    rw [Shared.hit_eq]
    rfl
  · show ((m.shared.take msg).hit msg r).hashTable = _
    rw [Shared.hit_eq]
    rfl
  · apply Shared.pushOutput_place (q := m.shared.outputQueue) <;> simp only [Shared.hit_eq] <;> rfl
  · rw [overwrites, Shared.hit_handled, List.countP_append, List.countP_singleton,
      merge_isOverwrite]
    simp [overwrites, Shared.take]

theorem moves_create (missed : m.phase w = .missed msg) :
    m.Moves (.create w) ⟨m.shared.create msg,
      Function.update m.phase w (.created msg m.shared.allocated)⟩ := by
  refine .create w msg (by rintro _ ⟨⟩) ?_ rfl (held_update _ m.shared _ _ _) rfl rfl rfl rfl
    (Shared.create_waitOf m.shared msg)
  rw [held, missed]
  rfl

theorem moves_store (created : m.phase w = .created msg r) :
    m.Moves (.store w) ⟨m.shared.store msg r, Function.update m.phase w .idle⟩ := by
  have holds : m.held w = some (msg, r) := by
    rw [held, created]
    rfl
  refine .insert w msg r (by rintro _ ⟨⟩) holds ?_ (held_update _ m.shared _ _ _) ?_ ?_ ?_ ?_
    (Shared.store_waitOf m.shared msg r)
  · simp only [Shared.store_eq]
  · simp only [Shared.store_eq]
  · simp only [Shared.store_eq]
  · simp only [Shared.store_eq]
  · rw [overwrites, overwrites, Shared.store_eq]
    simp only [List.countP_append, List.countP_singleton]
    split <;> rfl

/-- A handler that is queued with success takes out what it finds under its key. -/
theorem Inv.moves_timeout (inv : m.Inv) {owner : RecordId}
    (wait : m.waitOf owner = .expired key) :
    m.Moves (.env (.runHandler owner))
      ⟨(m.shared.setWait owner (.completed key)).handleTimeout owner key false, m.phase⟩ := by
  have waits := Shared.setWait_waitOf m.shared owner (.completed key)
  cases entry : m.shared.hashTable key with
  | none =>
      have same : (m.shared.setWait owner (.completed key)).handleTimeout owner key false =
          m.shared.setWait owner (.completed key) := Shared.handleTimeout_no_entry entry
      rw [same]
      exact .wait owner (.completed key) (.inr ⟨key, .inl ⟨wait, entry⟩, rfl, rfl⟩) rfl rfl rfl rfl
        rfl rfl waits
  | some p =>
      obtain ⟨r, rfl, -⟩ := inv.shared.entry key p entry
      have found : (m.shared.setWait owner (.completed key)).hashTable key = some (some r) := entry
      rw [Shared.handleTimeout_eq found]
      exact .leave key r owner (.completed key) entry (.inl ⟨rfl, wait, rfl⟩) rfl rfl rfl
        (Shared.pushOutput_place rfl rfl) rfl waits

theorem Inv.moves_env (inv : m.Inv) {e : Shared.EnvAction} {shared : Shared}
    (env : m.shared.envStep e = some shared) : m.Moves (.env e) ⟨shared, m.phase⟩ := by
  cases e with
  | expire r =>
      obtain ⟨key, wait, rfl⟩ := Shared.expire_cases env
      exact .wait r (.expired key) (.inl ⟨key, wait, rfl, by rintro _ ⟨⟩⟩) rfl rfl rfl rfl rfl rfl
        (Shared.setWait_waitOf m.shared r _)
  | runHandler r =>
      obtain ⟨key, ⟨wait, rfl⟩ | ⟨wait, rfl⟩⟩ := Shared.runHandler_cases env
      · exact inv.moves_timeout wait
      · exact .wait r (.completed key) (.inr ⟨key, .inr wait, rfl, rfl⟩) rfl rfl rfl rfl rfl rfl
          (Shared.setWait_waitOf m.shared r _)
  | send applId now sendThrows =>
      obtain ⟨table, allocated, pushed, refused, -, handled, -, waits, -⟩ := Shared.send_cases env
      refine .stay (by rintro _ ⟨⟩) allocated rfl table pushed refused ?_ (funext waits)
      rw [overwrites, overwrites, handled]

/-- **The step lemma of this file.** -/
theorem Inv.moves (inv : m.Inv) (step : m.step a = some m') : m.Moves a m' := by
  rcases step_cases step with ⟨w, msg, r, rfl, -, -, found, rfl⟩ |
    ⟨w, msg, rfl, idle, -, -, rfl⟩ | ⟨w, msg, rfl, missed, rfl⟩ | ⟨w, msg, r, rfl, created, rfl⟩ |
    ⟨e, shared, rfl, env, rfl⟩
  · exact moves_find_hit found
  · have held : (Matcher.mk (m.shared.take msg)
        (Function.update m.phase w (.missed msg))).held = m.held := by
      have free : (WorkerPhase.missed msg).held = m.held w := by
        rw [held, idle]
        rfl
      rw [held_update _ m.shared, free, Function.update_eq_self]
    exact .stay (by rintro _ ⟨⟩) rfl held rfl rfl rfl rfl rfl
  · exact moves_create missed
  · exact moves_store created
  · exact inv.moves_env env

/-! ## Places -/

/-- Where a record can be: under a key of the table, in the hands of a worker,
at a position of the history of pushes, or at one of the refused pushes. -/
inductive Place where
  | table (key : FlowKey)
  | worker (w : ℕ)
  | pushed (i : ℕ)
  | refused (i : ℕ)
deriving DecidableEq

def At (m : Matcher) (r : RecordId) : Place → Prop
  | .table key => m.shared.hashTable key = some (some r)
  | .worker w => ∃ msg, m.held w = some (msg, r)
  | .pushed i => m.shared.pushed[i]? = some r
  | .refused i => m.shared.refused[i]? = some r

/-- The records that have been created and are in no place. -/
def lost (m : Matcher) : Set RecordId := {r | r < m.shared.allocated ∧ ∀ p, ¬ m.At r p}

theorem lost_finite (m : Matcher) : m.lost.Finite :=
  (Set.finite_lt_nat m.shared.allocated).subset fun _ mem => mem.1

theorem mem_lost : r ∈ m.lost ↔ r < m.shared.allocated ∧
    (∀ key, m.shared.hashTable key ≠ some (some r)) ∧ (∀ w msg, m.held w ≠ some (msg, r)) ∧
    r ∉ m.shared.pushed ∧ r ∉ m.shared.refused := by
  constructor
  · rintro ⟨lt, nowhere⟩
    refine ⟨lt, fun key => nowhere (.table key),
      fun w msg holds => nowhere (.worker w) ⟨msg, holds⟩,
      fun mem => ?_, fun mem => ?_⟩
    · obtain ⟨i, at_i⟩ := List.getElem?_of_mem mem
      exact nowhere (.pushed i) at_i
    · obtain ⟨i, at_i⟩ := List.getElem?_of_mem mem
      exact nowhere (.refused i) at_i
  · rintro ⟨lt, table, held, pushed, refused⟩
    refine ⟨lt, fun p there => ?_⟩
    cases p with
    | table key => exact table key there
    | worker w =>
        obtain ⟨msg, holds⟩ := there
        exact held w msg holds
    | pushed i => exact pushed (List.mem_of_getElem? there)
    | refused i => exact refused (List.mem_of_getElem? there)

/-! ## One record, one place -/

/-- What is known of a record in each kind of place. -/
theorem Inv.table_at (inv : m.Inv) (entry : m.shared.hashTable key = some (some r)) :
    m.shared.StoredUnder r key ∧ r ∉ m.shared.pushed ∧ r ∉ m.shared.refused ∧
      ∀ w msg, m.held w ≠ some (msg, r) := by
  obtain ⟨r₀, eq, stored, -⟩ := inv.shared.entry key _ entry
  cases eq
  refine ⟨stored, fun mem => (inv.shared.pushed r mem).1.absent key entry,
    fun mem => (inv.shared.refused r mem).absent key entry, fun w msg holds => ?_⟩
  exact (inv.shared.held_record w msg r holds).fresh key stored

theorem Inv.held_at (inv : m.Inv) (holds : m.held w = some (msg, r)) :
    r < m.shared.allocated ∧ (∀ key, m.shared.hashTable key ≠ some (some r)) ∧
      r ∉ m.shared.pushed ∧ r ∉ m.shared.refused := by
  have mine := inv.shared.held_record w msg r holds
  refine ⟨mine.lt, fun key entry => ?_, fun mem => ?_, fun mem => ?_⟩
  · exact mine.fresh key (inv.table_at entry).1
  · obtain ⟨key, stored⟩ := (inv.shared.pushed r mem).1.stored
    exact mine.fresh key stored
  · obtain ⟨key, stored⟩ := (inv.shared.refused r mem).stored
    exact mine.fresh key stored

/-- Only records that have been created are in a place. -/
theorem Inv.at_lt (inv : m.Inv) {p : Place} (there : m.At r p) : r < m.shared.allocated := by
  cases p with
  | table key => exact inv.shared.stored_lt r key (inv.table_at there).1
  | worker w =>
      obtain ⟨msg, holds⟩ := there
      exact (inv.held_at holds).1
  | pushed i =>
      obtain ⟨key, stored⟩ := (inv.shared.pushed r (List.mem_of_getElem? there)).1.stored
      exact inv.shared.stored_lt r key stored
  | refused i =>
      obtain ⟨key, stored⟩ := (inv.shared.refused r (List.mem_of_getElem? there)).stored
      exact inv.shared.stored_lt r key stored

/-- A record has left the table once at most, and what is lost are records of
overwritten entries. -/
structure Accounted (m : Matcher) : Prop where
  left_once : (m.shared.pushed ++ m.shared.refused).Nodup
  lost : m.lost.ncard = m.overwrites

theorem Inv.table_unique (inv : m.Inv) (there : m.At r (.table key)) {p : Place}
    (there' : m.At r p) : .table key = p := by
  obtain ⟨stored, pushed, refused, held⟩ := inv.table_at there
  cases p with
  | table key' =>
      obtain ⟨stored', -⟩ := inv.table_at there'
      rw [inv.shared.stored_key r _ _ stored stored']
  | worker w =>
      obtain ⟨msg, holds⟩ := there'
      exact absurd holds (held w msg)
  | pushed i => exact absurd (List.mem_of_getElem? there') pushed
  | refused i => exact absurd (List.mem_of_getElem? there') refused

theorem accounted_init (capacity : ℕ) : (init capacity).Accounted := by
  have none_lost : (init capacity).lost = ∅ := by
    ext r
    exact iff_of_false (fun mem => Nat.not_lt_zero r mem.1) id
  exact ⟨List.nodup_nil, by rw [none_lost, Set.ncard_empty]; rfl⟩

/-- A step that leaves the places alone. -/
theorem lost_congr (allocated : m'.shared.allocated = m.shared.allocated)
    (held : m'.held = m.held) (table : m'.shared.hashTable = m.shared.hashTable)
    (pushed : m'.shared.pushed = m.shared.pushed)
    (refused : m'.shared.refused = m.shared.refused) : m'.lost = m.lost := by
  ext r
  rw [mem_lost, mem_lost, allocated, held, table, pushed, refused]

/-- A new record is in the hands of its worker. -/
theorem lost_create (free : m.held w = none)
    (allocated : m'.shared.allocated = m.shared.allocated + 1)
    (held : m'.held = Function.update m.held w (some (msg, m.shared.allocated)))
    (table : m'.shared.hashTable = m.shared.hashTable)
    (pushed : m'.shared.pushed = m.shared.pushed)
    (refused : m'.shared.refused = m.shared.refused) : m'.lost = m.lost := by
  ext r
  rw [mem_lost, mem_lost, allocated, held, table, pushed, refused]
  constructor
  · rintro ⟨lt, noKey, nobody, rest⟩
    have old : r ≠ m.shared.allocated := by
      rintro rfl
      exact nobody w msg (Function.update_self _ _ _)
    refine ⟨Nat.lt_of_le_of_ne (Nat.le_of_lt_succ lt) old, noKey, fun w' msg' holds => ?_, rest⟩
    apply nobody w' msg'
    rw [Function.update_of_ne, holds]
    rintro rfl
    rw [free] at holds
    cases holds
  · rintro ⟨lt, noKey, nobody, rest⟩
    refine ⟨Nat.lt_succ_of_lt lt, noKey, fun w' msg' holds => ?_, rest⟩
    rcases update_eq_cases holds with ⟨-, eq⟩ | ⟨-, old⟩
    · cases eq
      exact Nat.lt_irrefl _ lt
    · exact nobody w' msg' old

/-- The record of the entry that an insertion meets is lost, and no other. -/
theorem lost_insert (inv : m.Inv) (holds : m.held w = some (msg, r))
    (allocated : m'.shared.allocated = m.shared.allocated)
    (held : m'.held = Function.update m.held w none)
    (table : m'.shared.hashTable =
      Function.update m.shared.hashTable msg.flowKey (some (some r)))
    (pushed : m'.shared.pushed = m.shared.pushed)
    (refused : m'.shared.refused = m.shared.refused) :
    m'.lost = m.lost ∪ {r' | m.shared.hashTable msg.flowKey = some (some r')} := by
  obtain ⟨lt, absent, notPushed, notRefused⟩ := inv.held_at holds
  ext r'
  rw [Set.mem_union, Set.mem_ofPred_eq, mem_lost, mem_lost, allocated, held, table, pushed, refused]
  constructor
  · rintro ⟨lt', noKey, nobody, rest⟩
    have other : r' ≠ r := by
      rintro rfl
      exact noKey msg.flowKey (Function.update_self _ _ _)
    by_cases entry : m.shared.hashTable msg.flowKey = some (some r')
    · exact .inr entry
    · refine .inl ⟨lt', fun key found => ?_, fun w' msg' holds' => ?_, rest⟩
      · apply noKey key
        rw [Function.update_of_ne, found]
        rintro rfl
        exact entry found
      · apply nobody w' msg'
        rw [Function.update_of_ne, holds']
        rintro rfl
        cases holds.symm.trans holds'
        exact other rfl
  · rintro (⟨lt', noKey, nobody, rest⟩ | entry)
    · refine ⟨lt', fun key found => ?_, fun w' msg' holds' => ?_, rest⟩
      · rcases update_eq_cases found with ⟨-, eq⟩ | ⟨-, old⟩
        · cases eq
          exact nobody w msg holds
        · exact noKey key old
      · rcases update_eq_cases holds' with ⟨-, eq⟩ | ⟨-, old⟩
        · cases eq
        · exact nobody w' msg' old
    · obtain ⟨stored, out⟩ := inv.table_at entry
      have other : r' ≠ r := by
        rintro rfl
        exact absent msg.flowKey entry
      refine ⟨inv.shared.stored_lt r' _ stored, fun key found => ?_, fun w' msg' holds' => ?_,
        out.1, out.2.1⟩
      · rcases update_eq_cases found with ⟨-, eq⟩ | ⟨elsewhere, old⟩
        · cases eq
          exact other rfl
        · exact elsewhere (inv.shared.stored_key r' _ _ (inv.table_at old).1 stored)
      · rcases update_eq_cases holds' with ⟨-, eq⟩ | ⟨-, old⟩
        · cases eq
        · exact out.2.2 w' msg' old

/-- A record that leaves the table is pushed or refused. -/
theorem lost_leave (found : m.shared.hashTable key = some (some r))
    (allocated : m'.shared.allocated = m.shared.allocated) (held : m'.held = m.held)
    (table : m'.shared.hashTable = Function.update m.shared.hashTable key none)
    (place : (m'.shared.pushed = m.shared.pushed ++ [r] ∧
        m'.shared.refused = m.shared.refused) ∨
      (m'.shared.pushed = m.shared.pushed ∧ m'.shared.refused = m.shared.refused ++ [r])) :
    m'.lost = m.lost := by
  have out : ∀ r', (r' ∉ m'.shared.pushed ∧ r' ∉ m'.shared.refused) ↔
      r' ≠ r ∧ r' ∉ m.shared.pushed ∧ r' ∉ m.shared.refused := by
    intro r'
    rcases place with ⟨pushed, refused⟩ | ⟨pushed, refused⟩ <;> rw [pushed, refused] <;> simp
    · tauto
    · tauto
  ext r'
  rw [mem_lost, mem_lost, allocated, held, table, out]
  constructor
  · rintro ⟨lt, noKey, nobody, other, rest⟩
    refine ⟨lt, fun key' entry => noKey key' ?_, nobody, rest⟩
    rw [Function.update_of_ne, entry]
    rintro rfl
    cases found.symm.trans entry
    exact other rfl
  · rintro ⟨lt, noKey, nobody, rest⟩
    refine ⟨lt, fun key' entry => ?_, nobody, ?_, rest⟩
    · rcases update_eq_cases entry with ⟨-, eq⟩ | ⟨-, old⟩
      · cases eq
      · exact noKey key' old
    · rintro rfl
      exact noKey key found

theorem Accounted.step (accounted : m.Accounted) (inv : m.Inv) (step : m.step a = some m') :
    m'.Accounted := by
  obtain ⟨once, lost⟩ := accounted
  cases inv.moves step with
  | stay _ allocated held table pushed refused overwrites =>
      exact ⟨by rwa [pushed, refused],
        by rw [lost_congr allocated held table pushed refused, lost, overwrites]⟩
  | wait _ _ _ allocated held table pushed refused overwrites =>
      exact ⟨by rwa [pushed, refused],
        by rw [lost_congr allocated held table pushed refused, lost, overwrites]⟩
  | create w msg _ free allocated held table pushed refused overwrites =>
      exact ⟨by rwa [pushed, refused],
        by rw [lost_create free allocated held table pushed refused, lost, overwrites]⟩
  | insert w msg r _ holds allocated held table pushed refused overwrites =>
      refine ⟨by rwa [pushed, refused], ?_⟩
      rw [lost_insert inv holds allocated held table pushed refused, overwrites, ← lost]
      cases entry : m.shared.hashTable msg.flowKey with
      | none => simp
      | some p =>
          -- the record of the entry was not lost before
          obtain ⟨r₀, rfl, -⟩ := inv.shared.entry _ p entry
          have new : r₀ ∉ m.lost := fun mem => (mem_lost.mp mem).2.1 _ entry
          have single : {r' | (some (some r₀) : Option ThriftPtr) = some (some r')} = {r₀} := by
            ext r'
            simp [eq_comm]
          rw [single, Set.union_singleton, Set.ncard_insert_of_notMem new m.lost_finite]
          rfl
  | leave key r owner wait' found _ allocated held table place overwrites =>
      constructor
      · have new : r ∉ m.shared.pushed ++ m.shared.refused := by
          obtain ⟨-, pushed, refused, -⟩ := inv.table_at found
          simp [pushed, refused]
        have more : (m'.shared.pushed ++ m'.shared.refused).Perm
            (r :: (m.shared.pushed ++ m.shared.refused)) := by
          rcases place with ⟨pushed, refused⟩ | ⟨pushed, refused⟩ <;> rw [pushed, refused]
          · rw [List.append_assoc, List.singleton_append]
            exact List.perm_middle
          · rw [← List.append_assoc]
            exact List.perm_append_singleton r _
        exact more.nodup_iff.mpr (List.nodup_cons.mpr ⟨new, once⟩)
      · rw [lost_leave found allocated held table place, lost, overwrites]

end Matcher

end RadiusEventHandler
