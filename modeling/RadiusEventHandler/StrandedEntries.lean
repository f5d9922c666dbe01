import RadiusEventHandler.RecordPlaces

/-!
# Entries that no timer removes

The timer of a record is started when the record is created, and the record is
put into the table by a later step. If the timer's handler runs in between it
finds no entry of its own, and it does not run again: the entry that is made
afterwards waits for a mate, or for the handler of some other record of its
key. In every interleaving these are the only entries that no handler is due
for.
-/

namespace RadiusEventHandler

namespace Matcher

variable {m m' : Matcher} {a : MatcherAction} {msg : DecodedMsg} {r : RecordId} {key : FlowKey}
  {w : ℕ} {acts : List MatcherAction} {capacity : ℕ} {late late' : RecordId → Prop}

/-- In the run the handler of the record ran while a worker held the record. -/
def RanWhileHeld (start : Matcher) (acts : List MatcherAction) (r : RecordId) : Prop :=
  ∃ pre post t w msg, acts = pre ++ .env (.runHandler r) :: post ∧
    Runs.run step start pre = some t ∧ t.held w = some (msg, r)

/-- The wait of a record that is in the table or will be, under this key. -/
def OnTime (late : Prop) (wait : Wait) (key : FlowKey) : Prop :=
  (¬ late ∧ wait.Due key) ∨ (late ∧ wait = .completed key)

/-- The waits of the records that workers hold and of those in the table. -/
structure WaitsKnown (m : Matcher) (late : RecordId → Prop) : Prop where
  created : ∀ r, late r → r < m.shared.allocated
  held : ∀ w msg r, m.held w = some (msg, r) → OnTime (late r) (m.waitOf r) msg.flowKey
  entry : ∀ key r, m.shared.hashTable key = some (some r) → OnTime (late r) (m.waitOf r) key

theorem OnTime.expire {late : Prop} {k : FlowKey} (onTime : OnTime late (.pending k) key) :
    OnTime late (.expired k) key := by
  rcases onTime with ⟨early, eq | eq⟩ | ⟨-, eq⟩ <;> cases eq
  exact .inl ⟨early, .inr rfl⟩

theorem OnTime.key_eq {late : Prop} {k : FlowKey} (onTime : OnTime late (.expired k) key) :
    k = key := by
  rcases onTime with ⟨-, eq | eq⟩ | ⟨-, eq⟩ <;> cases eq
  rfl

theorem not_onTime_aborted {late : Prop} {k : FlowKey} : ¬ OnTime late (.aborted k) key := by
  rintro (⟨-, eq | eq⟩ | ⟨-, eq⟩) <;> cases eq

theorem WaitsKnown.step (known : m.WaitsKnown late) (inv : m.Inv) (step : m.step a = some m')
    (later : ∀ r, late' r ↔
      late r ∨ (a = .env (.runHandler r) ∧ ∃ w msg, m.held w = some (msg, r))) :
    m'.WaitsKnown late' := by
  have fresh : ∀ w msg r, m.held w = some (msg, r) → r < m.shared.allocated :=
    fun w msg r holds => (inv.held_at holds).1
  have unchanged : ∀ r, a ≠ .env (.runHandler r) → (late' r ↔ late r) := by
    intro r other
    rw [later]
    exact or_iff_left fun both => other both.1
  have created : m.shared.allocated ≤ m'.shared.allocated →
      ∀ r, late' r → r < m'.shared.allocated := by
    intro le r ran
    rcases (later r).mp ran with before | ⟨-, w, msg, holds⟩
    · exact Nat.lt_of_lt_of_le (known.created r before) le
    · exact Nat.lt_of_lt_of_le (fresh w msg r holds) le
  cases inv.moves step with
  | stay quiet allocated held table _ _ _ waits =>
      refine ⟨created allocated.ge, fun w msg r holds => ?_, fun key r entry => ?_⟩
      · rw [held] at holds
        rw [waits, unchanged r (quiet r)]
        exact known.held w msg r holds
      · rw [table] at entry
        rw [waits, unchanged r (quiet r)]
        exact known.entry key r entry
  | wait r₀ wait' turn allocated held table _ _ _ waits =>
      -- a record whose wait does not go on
      have others : ∀ r k, r ≠ r₀ → OnTime (late r) (m.waitOf r) k →
          OnTime (late' r) (m'.waitOf r) k := by
        intro r k other onTime
        have noHandler : a ≠ .env (.runHandler r) := by
          rcases turn with ⟨-, -, -, quiet⟩ | ⟨-, -, -, rfl⟩
          · exact quiet r
          · intro eq
            cases eq
            exact other rfl
        rwa [waits, Function.update_of_ne other, unchanged r noHandler]
      have goes : m'.waitOf r₀ = wait' := by
        rw [waits, Function.update_self]
      refine ⟨created allocated.ge, fun w msg r holds => ?_, fun key r entry => ?_⟩
      · rw [held] at holds
        have onTime := known.held w msg r holds
        by_cases same : r = r₀
        · subst same
          rw [goes]
          rcases turn with ⟨k, pending, rfl, quiet⟩ | ⟨k, ⟨expired, -⟩ | aborted, rfl, rfl⟩
          · rw [unchanged r (quiet r)]
            exact (pending ▸ onTime).expire
          · -- the handler runs while the worker holds the record
            rw [expired] at onTime
            rw [← onTime.key_eq]
            exact .inr ⟨(later r).mpr (.inr ⟨rfl, w, msg, holds⟩), rfl⟩
          · exact absurd (aborted ▸ onTime) not_onTime_aborted
        · exact others r _ same onTime
      · rw [table] at entry
        have onTime := known.entry key r entry
        by_cases same : r = r₀
        · subst same
          rw [goes]
          rcases turn with ⟨k, pending, rfl, quiet⟩ | ⟨k, ⟨expired, absent⟩ | aborted, rfl, rfl⟩
          · rw [unchanged r (quiet r)]
            exact (pending ▸ onTime).expire
          · rw [expired] at onTime
            rw [onTime.key_eq, entry] at absent
            cases absent
          · exact absurd (aborted ▸ onTime) not_onTime_aborted
        · exact others r _ same onTime
  | create w msg quiet free allocated held table _ _ _ waits =>
      refine ⟨created (by rw [allocated]; exact Nat.le_succ _), fun w' msg' r holds => ?_,
        fun key r entry => ?_⟩
      · rw [held] at holds
        rcases update_eq_cases holds with ⟨-, eq⟩ | ⟨-, old⟩
        · cases eq
          rw [waits, Function.update_self, unchanged _ (quiet _)]
          exact .inl ⟨fun ran => Nat.lt_irrefl _ (known.created _ ran), .inl rfl⟩
        · rw [waits, Function.update_of_ne (Nat.ne_of_lt (fresh w' msg' r old)),
            unchanged r (quiet r)]
          exact known.held w' msg' r old
      · rw [table] at entry
        have old : r < m.shared.allocated := inv.at_lt (p := .table key) entry
        rw [waits, Function.update_of_ne (Nat.ne_of_lt old), unchanged r (quiet r)]
        exact known.entry key r entry
  | insert w msg r quiet holds allocated held table _ _ _ waits =>
      refine ⟨created allocated.ge, fun w' msg' r' holds' => ?_, fun key r' entry => ?_⟩
      · rw [held] at holds'
        rw [waits, unchanged r' (quiet r')]
        rcases update_eq_cases holds' with ⟨-, eq⟩ | ⟨-, old⟩
        · cases eq
        · exact known.held w' msg' r' old
      · rw [table] at entry
        rw [waits, unchanged r' (quiet r')]
        rcases update_eq_cases entry with ⟨rfl, eq⟩ | ⟨-, old⟩
        · cases eq
          exact known.held w msg r holds
        · exact known.entry key r' old
  | leave key r owner wait' found cause allocated held table _ _ waits =>
      have others : ∀ r' k, r' ≠ owner → OnTime (late r') (m.waitOf r') k →
          OnTime (late' r') (m'.waitOf r') k := by
        intro r' k other onTime
        have noHandler : a ≠ .env (.runHandler r') := by
          rcases cause with ⟨rfl, -⟩ | ⟨quiet, -⟩
          · intro eq
            cases eq
            exact other rfl
          · exact quiet r'
        rwa [waits, Function.update_of_ne other, unchanged r' noHandler]
      refine ⟨created allocated.ge, fun w msg r' holds => ?_, fun k r' entry => ?_⟩
      · rw [held] at holds
        have onTime := known.held w msg r' holds
        by_cases same : r' = owner
        · subst same
          rcases cause with ⟨rfl, expired, rfl⟩ | ⟨-, rfl⟩
          · -- the handler runs while the worker holds the record
            rw [expired] at onTime
            rw [waits, Function.update_self, ← onTime.key_eq]
            exact .inr ⟨(later r').mpr (.inr ⟨rfl, w, msg, holds⟩), rfl⟩
          · exact absurd found ((inv.held_at holds).2.1 key)
        · exact others r' _ same onTime
      · rw [table] at entry
        rcases update_eq_cases entry with ⟨-, eq⟩ | ⟨elsewhere, old⟩
        · cases eq
        · have onTime := known.entry k r' old
          by_cases same : r' = owner
          · subst same
            rcases cause with ⟨rfl, expired, rfl⟩ | ⟨-, rfl⟩
            · rw [expired] at onTime
              exact absurd onTime.key_eq.symm elsewhere
            · exact absurd (Place.table.inj (inv.table_unique (p := .table key) old found))
                elsewhere
          · exact others r' _ same onTime

theorem ranWhileHeld_concat {start : Matcher} (run : Runs.run step start acts = some m) :
    RanWhileHeld start (acts ++ [a]) r ↔ RanWhileHeld start acts r ∨
      (a = .env (.runHandler r) ∧ ∃ w msg, m.held w = some (msg, r)) := by
  constructor
  · rintro ⟨pre, post, t, w, msg, split, reach, holds⟩
    rcases List.eq_nil_or_concat post with rfl | ⟨post, b, rfl⟩
    · obtain ⟨rfl, eq⟩ := List.append_inj' split rfl
      cases reach.symm.trans run
      exact .inr ⟨List.singleton_inj.mp eq, w, msg, holds⟩
    · rw [List.concat_eq_append, ← List.cons_append, ← List.append_assoc] at split
      obtain ⟨rfl, -⟩ := List.append_inj' split rfl
      exact .inl ⟨pre, post, t, w, msg, rfl, reach, holds⟩
  · rintro (⟨pre, post, t, w, msg, rfl, reach, holds⟩ | ⟨rfl, w, msg, holds⟩)
    · exact ⟨pre, post ++ [a], t, w, msg, by simp, reach, holds⟩
    · exact ⟨acts, [], m, w, msg, rfl, run, holds⟩

theorem waitsKnown (run : Runs.run step (init capacity) acts = some m) :
    m.Inv ∧ m.WaitsKnown (RanWhileHeld (init capacity) acts) := by
  induction acts using List.reverseRecOn generalizing m with
  | nil =>
      cases run
      refine ⟨inv_init capacity, fun r ran => ?_, nofun, nofun⟩
      obtain ⟨pre, post, -, -, -, split, -⟩ := ran
      simp at split
  | append_singleton acts a ih =>
      obtain ⟨t, before, last⟩ := Runs.run_concat_eq_some.mp run
      obtain ⟨inv, known⟩ := ih before
      exact ⟨inv.step last, known.step inv last fun r => ranWhileHeld_concat before⟩

/-- **When an entry is stranded.** In every interleaving, the handler of an
entry's record is due under the key of the entry, unless it has run while a
worker held the record; then it is over and the entry stays. -/
theorem entry_stranded_iff (run : Runs.run step (init capacity) acts = some m)
    (entry : m.shared.hashTable key = some (some r)) :
    ((m.waitOf r).Due key ∨ m.waitOf r = .completed key) ∧
      (m.waitOf r = .completed key ↔ RanWhileHeld (init capacity) acts r) := by
  rcases (waitsKnown run).2.entry key r entry with ⟨early, due⟩ | ⟨late, spent⟩
  · refine ⟨.inl due, iff_of_false ?_ early⟩
    intro spent
    rcases due with eq | eq <;> cases spent.symm.trans eq
  · exact ⟨.inr spent, iff_of_true spent late⟩

/-- The worker is slow, and the two seconds are over before it inserts. -/
theorem entry_stranded_slow_worker :
    let key : FlowKey := ⟨2, 1, 40000, 1813, 7⟩
    let acts := [.find 0 (.request 0 key []), .create 0, .env (.expire 0), .env (.runHandler 0),
      .store 0]
    ∃ m, Runs.run step (init 4) acts = some m ∧ m.shared.hashTable key = some (some 0) ∧
      m.waitOf 0 = .completed key ∧ ((m.waitOf 0).Due key ∨ m.waitOf 0 = .completed key) ∧
      RanWhileHeld (init 4) acts 0 := by
  intro key acts
  have run : ∃ m, Runs.run step (init 4) acts = some m ∧ m.shared.hashTable key = some (some 0) ∧
      m.waitOf 0 = .completed key := ⟨_, rfl, by decide, by decide⟩
  obtain ⟨m, run, entry, spent⟩ := run
  obtain ⟨due, stranded⟩ := entry_stranded_iff run entry
  exact ⟨m, run, entry, spent, due, stranded.mp spent⟩

end Matcher

end RadiusEventHandler
