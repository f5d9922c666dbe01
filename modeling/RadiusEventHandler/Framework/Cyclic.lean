import Mathlib.Data.Int.CardIntervalMod
import Mathlib.Data.List.Nodup
import Mathlib.Tactic.Common

/-!
# Going round

`n` places in a circle, visited one after the other from a start. In `n` turns
every place is visited once (`turns_perm`); a search that takes the first place
with a property finds one if there is one (`exists_first`); and in any number
of turns no place is visited more than once more than another
(`count_turns_le`).
-/

namespace Cyclic

/-- The place of turn `j`, from the start `s`. -/
def turn (n s j : ℕ) : ℕ := (s + j) % n

variable {n s i j : ℕ}

theorem turn_lt (pos : 0 < n) (s j : ℕ) : turn n s j < n := Nat.mod_lt _ pos

theorem turn_zero (lt : s < n) : turn n s 0 = s := Nat.mod_eq_of_lt lt

/-- The next turn is at the next place. -/
theorem turn_succ (n s j : ℕ) : (turn n s j + 1) % n = turn n s (j + 1) := by
  rw [turn, Nat.mod_add_mod]
  rfl

/-- No place has two turns in one round. -/
theorem turn_inj (hi : i < n) (hj : j < n) (same : turn n s i = turn n s j) : i = j :=
  (Nat.ModEq.add_left_cancel' s same).eq_of_lt_of_lt hi hj

/-- In one round every place has its turn once. -/
theorem turns_perm (pos : 0 < n) (s : ℕ) :
    ((List.range n).map (turn n s)).Perm (List.range n) := by
  have nodup : ((List.range n).map (turn n s)).Nodup := by
    apply List.Nodup.map_on _ List.nodup_range
    intro i hi j hj
    exact turn_inj (List.mem_range.mp hi) (List.mem_range.mp hj)
  have inside : (List.range n).map (turn n s) ⊆ List.range n := by
    intro k mem
    obtain ⟨j, -, rfl⟩ := List.mem_map.mp mem
    exact List.mem_range.mpr (turn_lt pos s j)
  refine (List.subperm_of_subset nodup inside).perm_of_length_le ?_
  rw [List.length_map]

/-- Every place has a turn. -/
theorem exists_turn (lt : i < n) (s : ℕ) : ∃ j < n, turn n s j = i := by
  have mem := (turns_perm (Nat.zero_lt_of_lt lt) s).mem_iff.mpr (List.mem_range.mpr lt)
  obtain ⟨j, below, eq⟩ := List.mem_map.mp mem
  exact ⟨j, List.mem_range.mp below, eq⟩

/-- The search finds a place with the property if there is one. -/
theorem exists_first {p : ℕ → Prop} (lt : i < n) (holds : p i) (s : ℕ) :
    ∃ j < n, p (turn n s j) ∧ ∀ k < j, ¬ p (turn n s k) := by
  classical
  obtain ⟨j, below, rfl⟩ := exists_turn lt s
  have found : ∃ j, p (turn n s j) := ⟨j, holds⟩
  have first : Nat.find found ≤ j := Nat.find_min' found holds
  exact ⟨Nat.find found, first.trans_lt below, Nat.find_spec found, fun k => Nat.find_min found⟩

/-! ## Balance -/

/-- How often a place has had its turn in the first `m` turns from place 0. -/
theorem count_turns (lt : i < n) (m : ℕ) :
    (List.range m).countP (fun k => k % n = i) = m / n + if i < m % n then 1 else 0 := by
  have count := m.count_modEq_card (Nat.zero_lt_of_lt lt) i
  rw [Nat.mod_eq_of_lt lt] at count
  rw [← count, Nat.count]
  apply List.countP_congr
  intro k _
  rw [decide_eq_true_iff, decide_eq_true_iff, Nat.ModEq, Nat.mod_eq_of_lt lt]

/-- Two places differ by one at most. -/
theorem count_turns_le (hi : i < n) (hj : j < n) (m : ℕ) :
    (List.range m).countP (fun k => k % n = i) ≤
      (List.range m).countP (fun k => k % n = j) + 1 := by
  rw [count_turns hi, count_turns hj]
  split <;> split <;> omega

end Cyclic
