import RadiusEventHandler.Conservation

/-!
# The wait of an entry

The wait of a record is started once, by the step that creates the record, and
goes on from there: it expires or is cancelled, and its handler runs. A record
is in the table only until its handler has run and until it is cancelled, so
that a handler is always due that will look under the key of an entry.
-/

namespace RadiusEventHandler

namespace Wait

/-- The wait has been cancelled in time, or its handler has run. -/
def Over : Wait → Prop
  | .none => False
  | .pending _ => False
  | .expired _ => False
  | .aborted _ => True
  | .completed _ => True

/-- The handler has still to run, with success and with the key bound to it. -/
def Due (wait : Wait) (key : FlowKey) : Prop := wait = .pending key ∨ wait = .expired key

/-- How a wait that has been started goes on. -/
inductive Next : Wait → Wait → Prop where
  | expire (key : FlowKey) : Next (.pending key) (.expired key)
  | cancel (key : FlowKey) : Next (.pending key) (.aborted key)
  | cancelLate (wait : Wait) : Next wait wait
  | handler (key : FlowKey) : Next (.expired key) (.completed key)
  | abortedHandler (key : FlowKey) : Next (.aborted key) (.completed key)

theorem next_cancel (timer : DeadlineTimer) : timer.wait.Next timer.cancel.wait := by
  obtain ⟨seconds, wait⟩ := timer
  cases wait with
  | pending key => exact .cancel key
  | none => exact .cancelLate _
  | expired key => exact .cancelLate _
  | aborted key => exact .cancelLate _
  | completed key => exact .cancelLate _

theorem Next.over {wait wait' : Wait} (next : wait.Next wait') (isOver : wait.Over) :
    wait'.Over := by
  cases next with
  | expire key => exact isOver.elim
  | cancel key => exact isOver.elim
  | cancelLate => exact isOver
  | handler key => exact trivial
  | abortedHandler key => exact trivial

theorem Due.not_over {wait : Wait} {key : FlowKey} (due : wait.Due key) : ¬ wait.Over := by
  rcases due with rfl | rfl <;> exact id

end Wait

namespace Shared

/-- The wait of the record is pending after the step, and was not before. -/
def StartsWait (s s' : Shared) (r : RecordId) : Prop :=
  (¬ ∃ key, s.waitOf r = .pending key) ∧ ∃ key, s'.waitOf r = .pending key

/-- What a step can do to the waits, and what it leaves in the table. -/
inductive WaitMoves (s s' : Shared) : Prop where
  | start (key : FlowKey) (allocated : s'.allocated = s.allocated + 1)
      (waits : s'.waitOf = Function.update s.waitOf s.allocated (.pending key))
      (table : s'.hashTable = Function.update s.hashTable key (some (some s.allocated)))
  | next (r : RecordId) (wait' : Wait) (next : (s.waitOf r).Next wait')
      (allocated : s'.allocated = s.allocated)
      (waits : s'.waitOf = Function.update s.waitOf r wait')
      (table : ∀ k p, s'.hashTable k = some p → s.hashTable k = some p)
      (due : ∀ k, s'.hashTable k = some (some r) → (s.waitOf r).Due k → wait'.Due k)

variable {s s' t : Shared} {a : MessageAction} {msg : DecodedMsg} {r : RecordId} {key : FlowKey}
  {p : ThriftPtr} {acts : List MessageAction} {capacity : ℕ}

/-! ## What a step can do -/

/-- Nothing is under a key whose entry has been erased. -/
theorem of_erased (entry : Function.update s.hashTable key none = s'.hashTable) {k : FlowKey}
    (there : s'.hashTable k = some p) : k ≠ key ∧ s.hashTable k = some p := by
  rw [← entry] at there
  rcases update_eq_cases there with ⟨-, eq⟩ | there
  · cases eq
  · exact there

theorem Inv.waitMoves_hit (inv : s.Inv nobody) (found : s.hashTable msg.flowKey = some (some r)) :
    s.WaitMoves ((s.take msg).hit msg r) := by
  have table : Function.update s.hashTable msg.flowKey none =
      ((s.take msg).hit msg r).hashTable := by
    rw [hit_eq]
    rfl
  refine .next r _ (Wait.next_cancel (s.thriftStructs r).timer) ?_
    (hit_waitOf (s.take msg) msg r) (fun k p there => (of_erased table there).2) ?_
  · rw [hit_eq]
    rfl
  · -- the record has left the only key it was under
    intro k there
    obtain ⟨other, there⟩ := of_erased table there
    exact absurd (inv.unique_key there found) other

theorem waitMoves_create_store (s : Shared) (msg : DecodedMsg) :
    s.WaitMoves (((s.take msg).create msg).store msg s.allocated) := by
  refine .start msg.flowKey ?_ ?_ ?_
  · rw [store_eq]
    rfl
  · rw [store_waitOf, create_waitOf]
    rfl
  · rw [store_eq]
    rfl

theorem Inv.waitMoves_timeout (inv : s.Inv nobody) (wait : s.waitOf r = .expired key) :
    s.WaitMoves ((s.setWait r (.completed key)).handleTimeout r key false) := by
  have waits := setWait_waitOf s r (.completed key)
  have next : (s.waitOf r).Next (.completed key) := wait ▸ .handler key
  -- whether there was an entry under the key or not, there is none now
  have table : Function.update s.hashTable key none =
      ((s.setWait r (.completed key)).handleTimeout r key false).hashTable := by
    rcases timeout_cases (inv.setWait r (.completed key)) r key with ⟨absent, eq⟩ | ⟨_, -, eq⟩
    · rw [eq]
      exact Function.update_eq_self_iff.mpr absent.symm
    · rw [eq]
      rfl
  refine .next r (.completed key) next ?_ ?_
    (fun k p there => (of_erased table there).2) ?_
  · rcases timeout_cases (inv.setWait r (.completed key)) r key with ⟨-, eq⟩ | ⟨_, -, eq⟩ <;>
      rw [eq] <;> rfl
  · rcases timeout_cases (inv.setWait r (.completed key)) r key with ⟨-, eq⟩ | ⟨_, -, eq⟩ <;>
      rw [eq] <;> exact waits
  · intro k there due
    obtain ⟨other, -⟩ := of_erased table there
    rw [wait] at due
    rcases due with eq | eq
    · cases eq
    · exact absurd (Wait.expired.inj eq).symm other

/-- **The step lemma of this file.** -/
theorem Inv.waitMoves (inv : s.Inv nobody) (step : s.messageStep a = some s') :
    s.WaitMoves s' := by
  cases a with
  | handle msg =>
      rcases handleRadiusMessage_cases (messageStep_handle.mp step).2 with
        ⟨r, found, rfl⟩ | ⟨-, rfl⟩
      · exact inv.waitMoves_hit found
      · exact waitMoves_create_store s msg
  | env e =>
      cases e with
      | expire r =>
          obtain ⟨key, wait, rfl⟩ := expire_cases step
          refine .next r (.expired key) (wait ▸ .expire key) rfl
            (setWait_waitOf s r _) (fun _ _ => id) fun k _ due => ?_
          rw [wait] at due
          rcases due with eq | eq
          · exact .inr (congrArg Wait.expired (Wait.pending.inj eq))
          · cases eq
      | runHandler r =>
          obtain ⟨key, ⟨wait, rfl⟩ | ⟨wait, rfl⟩⟩ := runHandler_cases step
          · exact inv.waitMoves_timeout wait
          · refine .next r (.completed key) (wait ▸ .abortedHandler key) rfl
              (setWait_waitOf s r _) (fun _ _ => id) fun k _ due => ?_
            rw [wait] at due
            exact absurd trivial due.not_over
      | send applId now sendThrows =>
          obtain ⟨table, allocated, -, -, -, -, -, waits, -⟩ := send_cases step
          refine .next 0 (s.waitOf 0) (.cancelLate _) allocated ?_ ?_ fun _ _ => id
          · rw [Function.update_eq_self]
            exact funext waits
          · rw [table]
            exact fun _ _ => id

/-! ## The course of a wait -/

/-- A wait that is over stays over. -/
theorem WaitMoves.over (unborn : s.Unborn) (moves : s.WaitMoves s')
    (isOver : (s.waitOf r).Over) : (s'.waitOf r).Over := by
  cases moves with
  | start key _ waits =>
      have old : r ≠ s.allocated := by
        rintro rfl
        rw [unborn s.allocated (Nat.le_refl _)] at isOver
        exact isOver
      rwa [waits, Function.update_of_ne old]
  | next r' wait' next _ waits =>
      rw [waits]
      by_cases same : r = r'
      · subst same
        rw [Function.update_self]
        exact next.over isOver
      · rwa [Function.update_of_ne same]

/-- No step makes the wait of an old record a pending one. -/
theorem WaitMoves.pending (moves : s.WaitMoves s') (pending : s'.waitOf r = .pending key) :
    s.waitOf r = .pending key ∨ (r = s.allocated ∧ s'.allocated = s.allocated + 1) := by
  cases moves with
  | start _ allocated waits =>
      rw [waits] at pending
      rcases update_eq_cases pending with ⟨new, -⟩ | ⟨-, old⟩
      · exact .inr ⟨new, allocated⟩
      · exact .inl old
  | next r' wait' next _ waits =>
      rw [waits] at pending
      rcases update_eq_cases pending with ⟨rfl, rfl⟩ | ⟨-, old⟩
      · left
        generalize s.waitOf r = wait at next
        cases next
        rfl
      · exact .inl old

/-- The step that starts the wait of a record is the one that creates it. -/
theorem WaitMoves.starts_iff (moves : s.WaitMoves s') (unborn : s.Unborn) :
    s.StartsWait s' r ↔ ¬ r < s.allocated ∧ r < s'.allocated := by
  constructor
  · rintro ⟨before, key, pending⟩
    rcases moves.pending pending with old | ⟨rfl, allocated⟩
    · exact absurd ⟨key, old⟩ before
    · rw [allocated]
      exact ⟨Nat.lt_irrefl _, Nat.lt_succ_self _⟩
  · rintro ⟨new, created⟩
    cases moves with
    | start key allocated waits =>
        rw [allocated] at created
        obtain rfl : r = s.allocated :=
          Nat.le_antisymm (Nat.le_of_lt_succ created) (Nat.le_of_not_lt new)
        refine ⟨?_, key, ?_⟩
        · rintro ⟨key', pending⟩
          rw [unborn s.allocated (Nat.le_refl _)] at pending
          cases pending
        · rw [waits, Function.update_self]
    | next _ _ _ allocated =>
        rw [allocated] at created
        exact absurd created new

/-! ## Entries -/

/-- The handler of every entry is due, with the key of the entry. -/
def Awaited (s : Shared) : Prop :=
  ∀ key r, s.hashTable key = some (some r) → (s.waitOf r).Due key

theorem Awaited.step (awaited : s.Awaited) (inv : s.Inv nobody) (moves : s.WaitMoves s') :
    s'.Awaited := by
  intro k r entry
  cases moves with
  | start key _ waits table =>
      rw [table] at entry
      rw [waits]
      rcases update_eq_cases entry with ⟨rfl, eq⟩ | ⟨-, old⟩
      · cases eq
        rw [Function.update_self]
        exact .inl rfl
      · obtain ⟨r₀, eq, stored, -⟩ := inv.entry k _ old
        cases eq
        rw [Function.update_of_ne (Nat.ne_of_lt (inv.stored_lt r k stored))]
        exact awaited k r old
  | next r' wait' _ _ waits table due =>
      have old := awaited k r (table k _ entry)
      rw [waits]
      by_cases same : r = r'
      · subst same
        rw [Function.update_self]
        exact due k entry old
      · rwa [Function.update_of_ne same]

theorem awaited_messageSteps (run : Runs.run messageStep (init capacity) acts = some s) :
    s.Awaited := by
  have both : s.Inv nobody ∧ s.Awaited :=
    Runs.invariant_of_step (I := fun t => t.Inv nobody ∧ t.Awaited)
      ⟨inv_init capacity, fun _ _ entry => nomatch entry⟩
      (fun _ _ _ inv step =>
        ⟨inv.1.messageStep step, inv.2.step inv.1 (inv.1.waitMoves step)⟩) run
  exact both.2

/-- The wait of a record is started once. -/
theorem started_once (run : Runs.run messageStep (init capacity) acts = some s)
    (created : r < s.allocated) :
    ∃! pre, ∃ a t t', pre ++ [a] <+: acts ∧ Runs.run messageStep (init capacity) pre = some t ∧
      t.messageStep a = some t' ∧ t.StartsWait t' r := by
  have turn := Runs.existsUnique_turn (P := fun t => r < t.allocated) run
    (Nat.not_lt_zero r) created fun pre a t v reach step already => by
      cases (inv_messageSteps reach).waitMoves step with
      | start _ allocated =>
          rw [allocated]
          exact Nat.lt_succ_of_lt already
      | next _ _ _ allocated => rwa [allocated]
  have starts : ∀ {pre a t t'}, Runs.run messageStep (init capacity) pre = some t →
      t.messageStep a = some t' → (t.StartsWait t' r ↔ ¬ r < t.allocated ∧ r < t'.allocated) :=
    fun reach step =>
      ((inv_messageSteps reach).waitMoves step).starts_iff (unborn_messageSteps reach)
  refine (existsUnique_congr fun pre => ?_).mp turn
  constructor
  · rintro ⟨a, t, t', cut, reach, step, turns⟩
    exact ⟨a, t, t', cut, reach, step, (starts reach step).mpr turns⟩
  · rintro ⟨a, t, t', cut, reach, step, here⟩
    exact ⟨a, t, t', cut, reach, step, (starts reach step).mp here⟩

/-- A wait that is not over has never been. -/
theorem never_over (run : Runs.run messageStep (init capacity) acts = some s)
    (goesOn : ¬ (s.waitOf r).Over) (visit : Runs.Visits messageStep (init capacity) acts t) :
    ¬ (t.waitOf r).Over := by
  intro isOver
  obtain ⟨pre, ⟨post, rfl⟩, reach⟩ := visit
  obtain ⟨t', reach', rest⟩ := Runs.run_append_eq_some.mp run
  cases reach.symm.trans reach'
  have all : s.Inv nobody ∧ s.Unborn ∧ (s.waitOf r).Over :=
    Runs.invariant_of_step (I := fun u => u.Inv nobody ∧ u.Unborn ∧ (u.waitOf r).Over)
      ⟨inv_messageSteps reach, unborn_messageSteps reach, isOver⟩
      (fun _ _ _ inv step => ⟨inv.1.messageStep step, inv.2.1.messageStep inv.1 step,
        (inv.1.waitMoves step).over inv.2.1 inv.2.2⟩) rest
  exact goesOn all.2.2

/-- **No entry is stranded.** The wait of an entry's record was started by one
step of the run, it has not been cancelled, and its handler has not run. -/
theorem entry_awaited (run : Runs.run messageStep (init capacity) acts = some s)
    (entry : s.hashTable key = some p) :
    ∃ r, p = some r ∧ (s.waitOf r = .pending key ∨ s.waitOf r = .expired key) ∧
      (∃! pre, ∃ a t t', pre ++ [a] <+: acts ∧
        Runs.run messageStep (init capacity) pre = some t ∧ t.messageStep a = some t' ∧
        t.StartsWait t' r) ∧
      ∀ t, Runs.Visits messageStep (init capacity) acts t → ¬ (t.waitOf r).Over := by
  have inv := inv_messageSteps run
  obtain ⟨r, rfl, stored, -⟩ := inv.entry key p entry
  have due := awaited_messageSteps run key r entry
  exact ⟨r, rfl, due, started_once run (inv.stored_lt r key stored),
    fun t visit => never_over run due.not_over visit⟩

/-- A request and its response have gone, with the wait cancelled; the next
request is under the same key and its wait has expired, while a response of
another flow is waiting. -/
theorem entry_awaited_reinserted :
    let key : FlowKey := ⟨2, 1, 40000, 1813, 7⟩
    let other : FlowKey := ⟨3, 1, 40000, 1813, 7⟩
    let acts := [.handle (.request 0 key []), .handle (.response 1 other []),
      .handle (.response 2 key []), .handle (.request 3 key []), .env (.expire 2),
      .env (.runHandler 0)]
    ∃ s, Runs.run messageStep (init 4) acts = some s ∧ s.pushed = [0] ∧
      s.waitOf 0 = .completed key ∧ s.waitOf 1 = .pending other ∧ s.waitOf 2 = .expired key ∧
      s.hashTable other = some (some 1) ∧ s.hashTable key = some (some 2) ∧
      ∃ r, some 2 = some r ∧ (s.waitOf r = .pending key ∨ s.waitOf r = .expired key) ∧
        (∃! pre, ∃ a t t', pre ++ [a] <+: acts ∧
          Runs.run messageStep (init 4) pre = some t ∧ t.messageStep a = some t' ∧
          t.StartsWait t' r) ∧
        ∀ t, Runs.Visits messageStep (init 4) acts t → ¬ (t.waitOf r).Over :=
  ⟨_, rfl, rfl, rfl, rfl, rfl, rfl, rfl, entry_awaited rfl rfl⟩

end Shared

end RadiusEventHandler
