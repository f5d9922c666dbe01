import Mathlib.Tactic.Common
import Mathlib.Order.Basic

/-!
# While loops

The meaning of `while (cond) body` for a body that can throw. A loop is run
with a bound on the number of times its condition is tested, and bounds that
suffice agree on the outcome (`run_unique`); a loop that no bound suffices
for is never left (`Diverges`).

A loop that repeats a state diverges (`diverges_of_repeat`), and a finite
number of iterations can be cut off the front of a loop (`Iterates`).
-/

namespace Loop

variable {σ ε : Type*}

/-- `while (cond) body` with at most `n` tests of the condition; `none` when
the loop has not been left by then. -/
def run (cond : σ → Bool) (body : σ → Except ε σ) : ℕ → σ → Option (Except ε σ)
  | 0, _ => none
  | n + 1, s =>
      if cond s then
        match body s with
        | .ok t => run cond body n t
        | .error e => some (.error e)
      else some (.ok s)

/-- The loop started in `s` is never left. -/
def Diverges (cond : σ → Bool) (body : σ → Except ε σ) (s : σ) : Prop :=
  ∀ n, run cond body n s = none

/-- `k` complete iterations lead from one state to the other. -/
inductive Iterates (cond : σ → Bool) (body : σ → Except ε σ) : ℕ → σ → σ → Prop where
  | done (s : σ) : Iterates cond body 0 s s
  | again {k : ℕ} {s t u : σ} (test : cond s = true) (iteration : body s = .ok t)
      (rest : Iterates cond body k t u) : Iterates cond body (k + 1) s u

variable {cond : σ → Bool} {body : σ → Except ε σ}

/-! ## One test of the condition -/

theorem run_exit {n : ℕ} {s : σ} (test : cond s = false) :
    run cond body (n + 1) s = some (.ok s) := by
  simp [run, test]

theorem run_throw {n : ℕ} {s : σ} {e : ε} (test : cond s = true) (raised : body s = .error e) :
    run cond body (n + 1) s = some (.error e) := by
  simp [run, test, raised]

theorem run_again {n : ℕ} {s t : σ} (test : cond s = true) (iteration : body s = .ok t) :
    run cond body (n + 1) s = run cond body n t := by
  simp [run, test, iteration]

/-- A loop that has been left stays left with a larger bound. -/
theorem run_mono {n m : ℕ} {s : σ} {r : Except ε σ} (left : run cond body n s = some r)
    (le : n ≤ m) : run cond body m s = some r := by
  induction n generalizing m s with
  | zero => simp [run] at left
  | succ n ih =>
      obtain ⟨m, rfl⟩ : ∃ m', m = m' + 1 := ⟨m - 1, by omega⟩
      cases test : cond s with
      | false =>
          rw [run_exit test] at left ⊢
          exact left
      | true =>
          cases iteration : body s with
          | error e =>
              rw [run_throw test iteration] at left ⊢
              exact left
          | ok t =>
              rw [run_again test iteration] at left ⊢
              exact ih left (by omega)

/-- Two bounds that both suffice give the same outcome. -/
theorem run_unique {n m : ℕ} {s : σ} {r r' : Except ε σ} (h : run cond body n s = some r)
    (h' : run cond body m s = some r') : r = r' := by
  have left := run_mono h (Nat.le_max_left n m)
  have right := run_mono h' (Nat.le_max_right n m)
  exact Option.some.inj (left.symm.trans right)

/-! ## Loops that are never left -/

/-- A loop state seen twice in a row is seen forever. -/
theorem diverges_of_repeat {s : σ} (test : cond s = true) (same : body s = .ok s) :
    Diverges cond body s := by
  intro n
  induction n with
  | zero => rfl
  | succ n ih => rw [run_again test same, ih]

/-! ## Cutting iterations off the front -/

theorem Iterates.run_add {k : ℕ} {s t : σ} (h : Iterates cond body k s t) (n : ℕ) :
    run cond body (k + n) s = run cond body n t := by
  induction h with
  | done s => rw [Nat.zero_add]
  | again test iteration rest ih =>
      rw [Nat.add_right_comm, run_again test iteration, ih]

theorem Iterates.diverges {k : ℕ} {s t : σ} (h : Iterates cond body k s t)
    (later : Diverges cond body t) : Diverges cond body s := by
  intro n
  cases left : run cond body n s with
  | none => rfl
  | some r =>
      have longer := run_mono left (Nat.le_add_left n k)
      rw [h.run_add, later n] at longer
      cases longer

/-- The last iteration, taken apart. -/
theorem Iterates.last {k : ℕ} {s u : σ} (h : Iterates cond body (k + 1) s u) :
    ∃ t, Iterates cond body k s t ∧ cond t = true ∧ body t = .ok u := by
  generalize eq : k + 1 = m at h
  induction h generalizing k with
  | done s => cases eq
  | again test iteration rest ih =>
      obtain rfl := Nat.succ.inj eq
      cases rest with
      | done => exact ⟨_, .done _, test, iteration⟩
      | again test' iteration' rest' =>
          obtain ⟨t, before, last⟩ := ih rfl
          exact ⟨t, .again test iteration before, last⟩

/-- Every state that iterations reach satisfies what one iteration keeps. -/
theorem Iterates.invariant {I : σ → Prop}
    (keeps : ∀ s t, I s → cond s = true → body s = .ok t → I t)
    {k : ℕ} {s t : σ} (h : Iterates cond body k s t) (start : I s) : I t := by
  induction h with
  | done s => exact start
  | again test iteration rest ih => exact ih (keeps _ _ start test iteration)

/-- What one iteration keeps holds of the state in which the loop is left. -/
theorem run_invariant {I : σ → Prop} (keeps : ∀ s t, I s → cond s = true → body s = .ok t → I t)
    {n : ℕ} {s u : σ} (start : I s) (left : run cond body n s = some (.ok u)) : I u := by
  induction n generalizing s with
  | zero => cases left
  | succ n ih =>
      cases test : cond s with
      | false =>
          rw [run_exit test] at left
          cases left
          exact start
      | true =>
          cases iteration : body s with
          | error e =>
              rw [run_throw test iteration] at left
              cases left
          | ok t =>
              rw [run_again test iteration] at left
              exact ih (keeps s t start test iteration) left

/-- Bodies that agree on the states a loop can be in have the same loop. -/
theorem run_congr {body' : σ → Except ε σ} {I : σ → Prop}
    (keeps : ∀ s t, I s → cond s = true → body s = .ok t → I t)
    (agree : ∀ s, I s → cond s = true → body s = body' s) {s : σ} (start : I s) (n : ℕ) :
    run cond body n s = run cond body' n s := by
  induction n generalizing s with
  | zero => rfl
  | succ n ih =>
      cases test : cond s with
      | false => rw [run_exit test, run_exit test]
      | true =>
          have same := agree s start test
          cases iteration : body s with
          | error e => rw [run_throw test iteration, run_throw test (same ▸ iteration)]
          | ok t =>
              rw [run_again test iteration, run_again test (same ▸ iteration)]
              exact ih (keeps s t start test iteration)

end Loop
