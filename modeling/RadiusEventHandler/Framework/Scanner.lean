import Mathlib.Tactic.Common
import Mathlib.Order.Basic

/-!
# Greedy scanning

A scanner takes one token off the front of its input as long as it can:
`next s = some (a, t)` takes the token `a` and leaves `t`, `next s = none`
stops. `Scans next s as t` says that scanning `s` yields the tokens `as` and
stops with `t`. The result is unique, and it exists when every token makes
the input smaller.
-/

namespace Scanner

variable {σ α : Type*}

inductive Scans (next : σ → Option (α × σ)) : σ → List α → σ → Prop where
  | stop {s : σ} (end_of_input : next s = none) : Scans next s [] s
  | more {s t u : σ} {a : α} {as : List α} (token : next s = some (a, t))
      (rest : Scans next t as u) : Scans next s (a :: as) u

variable {next : σ → Option (α × σ)}

/-- Scanning is deterministic: tokens and rest are determined by the input. -/
theorem Scans.unique {s t t' : σ} {as as' : List α} (h : Scans next s as t)
    (h' : Scans next s as' t') : as = as' ∧ t = t' := by
  induction h generalizing as' t' with
  | stop stops =>
      cases h' with
      | stop _ => exact ⟨rfl, rfl⟩
      | more token _ => rw [stops] at token; cases token
  | more token rest ih =>
      cases h' with
      | stop stops => rw [stops] at token; cases token
      | more token' rest' =>
          rw [token] at token'
          cases token'
          obtain ⟨rfl, rfl⟩ := ih rest'
          exact ⟨rfl, rfl⟩

/-- Scanning ends when every token makes the input smaller. -/
theorem exists_scan (size : σ → ℕ)
    (smaller : ∀ s a t, next s = some (a, t) → size t < size s) (s : σ) :
    ∃ as t, Scans next s as t := by
  induction h : size s using Nat.strongRecOn generalizing s with
  | ind n ih =>
      cases token : next s with
      | none => exact ⟨[], s, .stop token⟩
      | some p =>
          obtain ⟨a, t⟩ := p
          have lt := smaller s a t token
          obtain ⟨as, u, rest⟩ := ih (size t) (by omega) t rfl
          exact ⟨a :: as, u, .more token rest⟩

end Scanner
