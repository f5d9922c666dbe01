import Mathlib.Data.Nat.Init
import Mathlib.Data.Nat.Pairing
import RadiusEventHandler.Framework.Runs

/-!
# Schedules

A schedule gives actions their turns, one after the other and without end; an
action that cannot be taken when its turn comes is passed over. Fairness is a
condition on the schedule: actions of some kind have their turn again and
again. What must happen sooner or later is proved with a rank that no step
raises and that the actions of this kind lower (`leadsTo_of_rank`).
-/

namespace Runs

variable {σ α : Type*}

/-- The state after `n` turns. -/
def exec (step : σ → α → Option σ) (s : σ) (sched : ℕ → α) : ℕ → σ
  | 0 => s
  | n + 1 => (step (exec step s sched n) (sched n)).getD (exec step s sched n)

/-- Actions of this kind have their turn again and again. -/
def Recurs (sched : ℕ → α) (A : α → Prop) : Prop := ∀ n, ∃ k, n ≤ k ∧ A (sched k)

/-- Whenever the one holds, the other holds then or later. -/
def LeadsTo (states : ℕ → σ) (P Q : σ → Prop) : Prop :=
  ∀ n, P (states n) → ∃ k, n ≤ k ∧ Q (states k)

variable {step : σ → α → Option σ} {s s₀ t : σ} {sched : ℕ → α} {states : ℕ → σ} {n k : ℕ}
  {acts : List α} {I P Q R : σ → Prop} {A : α → Prop}

/-! ## States of a schedule -/

theorem exec_succ (taken : step (exec step s sched n) (sched n) = some t) :
    exec step s sched (n + 1) = t := by
  rw [exec, taken, Option.getD_some]

/-- A turn is a step, or it is passed over. -/
theorem exec_cases (step : σ → α → Option σ) (s : σ) (sched : ℕ → α) (n : ℕ) :
    step (exec step s sched n) (sched n) = some (exec step s sched (n + 1)) ∨
      exec step s sched (n + 1) = exec step s sched n := by
  cases turn : step (exec step s sched n) (sched n) with
  | none => exact .inr (by rw [exec, turn, Option.getD_none])
  | some t => exact .inl (by rw [exec_succ turn])

/-- Every state of a schedule is reached by a run. -/
theorem exec_reached (sched : ℕ → α) (reach : run step s₀ acts = some s) (n : ℕ) :
    ∃ acts', run step s₀ acts' = some (exec step s sched n) := by
  induction n with
  | zero => exact ⟨acts, reach⟩
  | succ n ih =>
      obtain ⟨before, ih⟩ := ih
      rcases exec_cases step s sched n with taken | passed
      · exact ⟨before ++ [sched n], run_concat_eq_some.mpr ⟨_, ih, taken⟩⟩
      · exact ⟨before, passed ▸ ih⟩

/-- What no turn undoes holds from then on. -/
theorem stays_from (states : ℕ → σ) (keeps : ∀ n, P (states n) → P (states (n + 1))) (le : n ≤ k)
    (holds : P (states n)) : P (states k) := by
  induction k, le using Nat.le_induction with
  | base => exact holds
  | succ k _ ih => exact keeps k ih

/-- What no step undoes holds from then on. -/
theorem exec_stays (step : σ → α → Option σ) (s : σ) (sched : ℕ → α)
    (keeps : ∀ t a u, I t → step t a = some u → I u) (le : n ≤ k)
    (holds : I (exec step s sched n)) : I (exec step s sched k) := by
  refine stays_from (exec step s sched) (fun j here => ?_) le holds
  rcases exec_cases step s sched j with taken | passed
  · exact keeps _ _ _ here taken
  · exact passed ▸ here

/-! ## Leading to -/

theorem leadsTo_of_imp (imp : ∀ n, P (states n) → Q (states n)) : LeadsTo states P Q :=
  fun n holds => ⟨n, Nat.le_refl n, imp n holds⟩

theorem LeadsTo.trans (first : LeadsTo states P Q) (second : LeadsTo states Q R) :
    LeadsTo states P R := by
  intro n holds
  obtain ⟨k, le, between⟩ := first n holds
  obtain ⟨j, le', last⟩ := second k between
  exact ⟨j, Nat.le_trans le le', last⟩

/-- What holds until the goal is met. -/
theorem until_goal (states : ℕ → σ) (stays : ∀ n, P (states n) → ¬ Q (states n) →
      Q (states (n + 1)) ∨ P (states (n + 1))) (le : n ≤ k) (holds : P (states n)) :
    (∃ j, n ≤ j ∧ Q (states j)) ∨ P (states k) := by
  induction k, le using Nat.le_induction with
  | base => exact .inr holds
  | succ k le ih =>
      rcases ih with done | here
      · exact .inl done
      · by_cases goal : Q (states k)
        · exact .inl ⟨k, le, goal⟩
        · exact (stays k here goal).imp_left fun done => ⟨k + 1, Nat.le_succ_of_le le, done⟩

/-- **Progress by a rank.** Until the goal is met no turn raises the rank, and
the turns of the actions that recur lower it. -/
theorem leadsTo_of_rank (rank : σ → ℕ) (recurs : Recurs sched A)
    (stays : ∀ n, P (states n) → ¬ Q (states n) → Q (states (n + 1)) ∨
      (P (states (n + 1)) ∧ rank (states (n + 1)) ≤ rank (states n)))
    (helps : ∀ n, P (states n) → ¬ Q (states n) → A (sched n) → Q (states (n + 1)) ∨
      (P (states (n + 1)) ∧ rank (states (n + 1)) < rank (states n))) : LeadsTo states P Q := by
  intro n holds
  induction rank_eq : rank (states n) using Nat.strong_induction_on generalizing n with
  | _ bound ih =>
      obtain ⟨k, le, turn⟩ := recurs n
      have upto := until_goal (P := fun t => P t ∧ rank t ≤ bound) (Q := Q) states
        (fun j here goal =>
          (stays j here.1 goal).imp_right fun next => ⟨next.1, next.2.trans here.2⟩)
        le ⟨holds, Nat.le_of_eq rank_eq⟩
      rcases upto with done | ⟨here, small⟩
      · exact done
      · by_cases goal : Q (states k)
        · exact ⟨k, le, goal⟩
        · rcases helps k here goal turn with done | ⟨next, lower⟩
          · exact ⟨k + 1, Nat.le_succ_of_le le, done⟩
          · obtain ⟨j, le', done⟩ := ih _ (Nat.lt_of_lt_of_le lower small) (k + 1) next rfl
            exact ⟨j, Nat.le_trans (Nat.le_succ_of_le le) le', done⟩

/-- One turn `T` is enough, if it comes unless what waits for it has gone. -/
theorem leadsTo_of_awaited {T : ℕ → Prop}
    (comes : ∀ n, P (states n) → ∃ k, n ≤ k ∧ (T k ∨ ¬ P (states k)))
    (stays : ∀ n, P (states n) → ¬ Q (states n) → Q (states (n + 1)) ∨ P (states (n + 1)))
    (helps : ∀ n, P (states n) → ¬ Q (states n) → T n → Q (states (n + 1))) :
    LeadsTo states P Q := by
  intro n holds
  obtain ⟨k, le, comes⟩ := comes n holds
  rcases until_goal states stays le holds with done | here
  · exact done
  · by_cases goal : Q (states k)
    · exact ⟨k, le, goal⟩
    · rcases comes with turn | gone
      · exact ⟨k + 1, Nat.le_succ_of_le le, helps k here goal turn⟩
      · exact absurd here gone

/-- One turn of an action that recurs is enough. -/
theorem leadsTo_of_turn (recurs : Recurs sched A)
    (stays : ∀ n, P (states n) → ¬ Q (states n) → Q (states (n + 1)) ∨ P (states (n + 1)))
    (helps : ∀ n, P (states n) → ¬ Q (states n) → A (sched n) → Q (states (n + 1))) :
    LeadsTo states P Q := by
  refine leadsTo_of_awaited (T := fun n => A (sched n)) (fun n _ => ?_) stays helps
  obtain ⟨k, le, turn⟩ := recurs n
  exact ⟨k, le, .inl turn⟩

/-! ## A schedule of countably many actions -/

/-- Every action of a sequence, again and again. -/
def dovetail (acts : ℕ → α) (n : ℕ) : α := acts (Nat.unpair n).2

theorem recurs_dovetail (acts : ℕ → α) (i : ℕ) : Recurs (dovetail acts) (· = acts i) := by
  intro n
  refine ⟨Nat.pair n i, Nat.left_le_pair n i, ?_⟩
  rw [dovetail, Nat.unpair_pair]

end Runs
