import Mathlib.Tactic.Common
import Mathlib.Data.List.Induction

/-!
# Runs of a partial step function

A transition system is a function `step : σ → α → Option σ`: the state after
an action, or `none` where the action cannot be taken. A run is a list of
actions. Invariants are proved for one step and hold after every run
(`invariant_of_step`); a condition on the steps of a run is `Along`.
-/

namespace Runs

variable {σ α : Type*} (step : σ → α → Option σ)

/-- The state after a list of actions, if all of them can be taken in turn. -/
def run : σ → List α → Option σ
  | s, [] => some s
  | s, a :: as => (step s a).bind fun t => run t as

/-- Every action of the run meets the condition in the state it is taken in. -/
def Along (P : σ → α → Prop) (s : σ) (acts : List α) : Prop :=
  ∀ pre a post, acts = pre ++ a :: post → ∀ t, run step s pre = some t → P t a

/-- The run passes through the state (its first and last state included). -/
def Visits (s : σ) (acts : List α) (t : σ) : Prop :=
  ∃ pre, pre <+: acts ∧ run step s pre = some t

variable {step} {s t u : σ} {a : α} {as bs acts : List α}

@[simp] theorem run_nil : run step s [] = some s := rfl

theorem run_append : run step s (as ++ bs) = (run step s as).bind fun t => run step t bs := by
  induction as generalizing s with
  | nil => rfl
  | cons a as ih =>
      simp only [List.cons_append, run]
      cases step s a with
      | none => rfl
      | some t => exact ih

theorem run_concat : run step s (as ++ [a]) = (run step s as).bind fun t => step t a := by
  rw [run_append]
  congr 1
  funext t
  simp [run]

/-- The last step of a run, taken apart. -/
theorem run_concat_eq_some :
    run step s (as ++ [a]) = some u ↔ ∃ t, run step s as = some t ∧ step t a = some u := by
  rw [run_concat, Option.bind_eq_some_iff]

/-- Cutting a run in two. -/
theorem run_append_eq_some :
    run step s (as ++ bs) = some u ↔ ∃ t, run step s as = some t ∧ run step t bs = some u := by
  rw [run_append, Option.bind_eq_some_iff]

/-- A run taken apart at one of its steps. -/
theorem run_middle_eq_some :
    run step s (as ++ a :: bs) = some u ↔
      ∃ t t', run step s as = some t ∧ step t a = some t' ∧ run step t' bs = some u := by
  simp only [run_append_eq_some, run, Option.bind_eq_some_iff, exists_and_left]

/-! ## Invariants -/

/-- What holds at the start and is kept by every step holds after every run. -/
theorem invariant_of_step {I : σ → Prop} (start : I s)
    (keeps : ∀ t a u, I t → step t a = some u → I u)
    (h : run step s acts = some u) : I u := by
  induction acts using List.reverseRecOn generalizing u with
  | nil =>
      cases h
      exact start
  | append_singleton acts a ih =>
      obtain ⟨t, before, last⟩ := run_concat_eq_some.mp h
      exact keeps t a u (ih before) last

/-- The same for runs whose steps all meet a condition. -/
theorem invariant_along {I : σ → Prop} {P : σ → α → Prop} (start : I s)
    (keeps : ∀ t a u, I t → P t a → step t a = some u → I u)
    (along : Along step P s acts) (h : run step s acts = some u) : I u := by
  induction acts using List.reverseRecOn generalizing u with
  | nil =>
      cases h
      exact start
  | append_singleton acts a ih =>
      obtain ⟨t, before, last⟩ := run_concat_eq_some.mp h
      have meets : P t a := along acts a [] rfl t before
      refine keeps t a u (ih ?_ before) meets last
      intro pre b post split
      exact along pre b (post ++ [a]) (by simp [split])

/-- What comes to hold in a run, and is kept from then on, does so at one step. -/
theorem existsUnique_turn {P : σ → Prop} (h : run step s acts = some u) (before : ¬ P s)
    (after : P u)
    (keeps : ∀ pre a t v, run step s pre = some t → step t a = some v → P t → P v) :
    ∃! pre, ∃ a t v, pre ++ [a] <+: acts ∧ run step s pre = some t ∧ step t a = some v ∧
      ¬ P t ∧ P v := by
  have exist : ∃ pre a t v, pre ++ [a] <+: acts ∧ run step s pre = some t ∧
      step t a = some v ∧ ¬ P t ∧ P v := by
    induction acts using List.reverseRecOn generalizing u with
    | nil =>
        cases h
        exact absurd after before
    | append_singleton acts a ih =>
        obtain ⟨t, reach, last⟩ := run_concat_eq_some.mp h
        by_cases already : P t
        · obtain ⟨pre, b, t', v, cut, rest⟩ := ih reach already
          exact ⟨pre, b, t', v, cut.trans (List.prefix_append _ _), rest⟩
        · exact ⟨acts, a, t, u, List.prefix_refl _, reach, last, already, after⟩
  -- after the turn it holds, so that a later step is none
  have not_before : ∀ {pre pre' : List α} {a t v t'}, pre ++ [a] <+: acts → pre' <+: acts →
      run step s pre = some t → step t a = some v → P v → run step s pre' = some t' → ¬ P t' →
      pre'.length ≤ pre.length := by
    intro pre pre' a t v t' cut cut' reach turn holds reach' fails
    by_contra longer
    have shorter : (pre ++ [a]).length ≤ pre'.length := by
      rw [List.length_append]
      exact Nat.lt_of_not_le longer
    obtain ⟨rest, rfl⟩ := List.prefix_of_prefix_length_le cut cut' shorter
    obtain ⟨v', turned, rest⟩ := run_append_eq_some.mp reach'
    have same : v' = v := by
      obtain ⟨t₀, reach₀, turn₀⟩ := run_concat_eq_some.mp turned
      cases reach.symm.trans reach₀
      exact Option.some.inj (turn₀.symm.trans turn)
    subst same
    have both : (∃ pre, run step s pre = some t') ∧ P t' :=
      invariant_of_step (I := fun w => (∃ pre, run step s pre = some w) ∧ P w)
        ⟨⟨_, turned⟩, holds⟩
        (fun w b w' ⟨⟨p, there⟩, kept⟩ next =>
          ⟨⟨p ++ [b], run_concat_eq_some.mpr ⟨w, there, next⟩⟩,
            keeps p b w w' there next kept⟩) rest
    exact fails both.2
  obtain ⟨pre, a, t, v, cut, reach, turn, fails, holds⟩ := exist
  refine ⟨pre, ⟨a, t, v, cut, reach, turn, fails, holds⟩, ?_⟩
  rintro pre' ⟨a', t', v', cut', reach', turn', fails', holds'⟩
  have shorter : pre <+: acts := (List.prefix_append _ _).trans cut
  have shorter' : pre' <+: acts := (List.prefix_append _ _).trans cut'
  have length : pre'.length = pre.length := Nat.le_antisymm
    (not_before cut shorter' reach turn holds reach' fails')
    (not_before cut' shorter reach' turn' holds' reach fails)
  exact (List.prefix_of_prefix_length_le shorter' shorter (Nat.le_of_eq length)).eq_of_length length

/-! ## Conditions along a run -/

theorem along_nil {P : σ → α → Prop} : Along step P s [] := by
  intro pre a post split
  simp at split

/-- The condition, step after step. -/
theorem along_cons {P : σ → α → Prop} :
    Along step P s (a :: as) ↔ P s a ∧ ∀ t, step s a = some t → Along step P t as := by
  constructor
  · intro along
    refine ⟨along [] a as rfl s rfl, fun t first pre b post split u reach => ?_⟩
    apply along (a :: pre) b post (by simp [split]) u
    simp [run, first, reach]
  · rintro ⟨head, tail⟩ pre b post split t reach
    cases pre with
    | nil =>
        obtain ⟨rfl, rfl⟩ := List.cons.inj split
        cases reach
        exact head
    | cons c pre =>
        obtain ⟨rfl, rfl⟩ := List.cons.inj split
        obtain ⟨u, first, reach⟩ := Option.bind_eq_some_iff.mp reach
        exact tail u first pre b post rfl t reach

theorem along_concat {P : σ → α → Prop} :
    Along step P s (as ++ [a]) ↔
      Along step P s as ∧ ∀ t, run step s as = some t → P t a := by
  constructor
  · intro along
    refine ⟨fun pre b post split => ?_, along as a [] rfl⟩
    exact along pre b (post ++ [a]) (by simp [split])
  · rintro ⟨along, last⟩ pre b post split
    rcases List.eq_nil_or_concat post with rfl | ⟨post, c, rfl⟩
    · obtain ⟨rfl, eq⟩ := List.append_inj' split rfl
      cases eq
      exact last
    · rw [List.concat_eq_append, ← List.cons_append, ← List.append_assoc] at split
      obtain ⟨rfl, -⟩ := List.append_inj' split rfl
      exact along pre b post rfl

/-- A condition that can be computed can be computed along a run. -/
instance decidableAlong {P : σ → α → Prop} [∀ s a, Decidable (P s a)] :
    ∀ s acts, Decidable (Along step P s acts)
  | _, [] => isTrue along_nil
  | s, a :: as =>
      haveI : DecidablePred fun t => Along step P t as := fun t => decidableAlong t as
      decidable_of_iff (P s a ∧ ∀ t ∈ step s a, Along step P t as) along_cons.symm

theorem Along.cut {P : σ → α → Prop} (along : Along step P s acts) {pre : List α}
    (cut : pre <+: acts) : Along step P s pre := by
  obtain ⟨post, rfl⟩ := cut
  intro before a after split
  exact along before a (after ++ post) (by simp [split])

theorem Along.mono {P Q : σ → α → Prop} (along : Along step P s acts)
    (weaken : ∀ t a, P t a → Q t a) : Along step Q s acts :=
  fun pre a post split t reach => weaken t a (along pre a post split t reach)

end Runs
