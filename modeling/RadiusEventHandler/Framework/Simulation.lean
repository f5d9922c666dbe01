import RadiusEventHandler.Framework.Runs

/-!
# Simulation between transition systems

A relation between the states of two systems simulates if every step of the
lower system is matched by at most one step of the upper one. Runs are then
matched by runs, and what holds of every state the upper system reaches holds,
through the relation, of every state the lower one reaches.
-/

namespace Runs

variable {σ τ α β : Type*}

/-- Every step from related states is matched, by one step or by none. -/
def Simulates (low : σ → α → Option σ) (high : τ → β → Option τ) (R : σ → τ → Prop) : Prop :=
  ∀ s t a s', R s t → low s a = some s' →
    ∃ (b : Option β) (t' : τ), run high t b.toList = some t' ∧ R s' t'

variable {low : σ → α → Option σ} {high : τ → β → Option τ} {R : σ → τ → Prop}
  {s s' : σ} {t : τ} {acts : List α}

/-- Runs are matched by runs, which are not longer. -/
theorem Simulates.run (sim : Simulates low high R) (start : R s t)
    (reach : Runs.run low s acts = some s') :
    ∃ (bs : List β) (t' : τ), bs.length ≤ acts.length ∧ Runs.run high t bs = some t' ∧ R s' t' := by
  induction acts using List.reverseRecOn generalizing s' with
  | nil =>
      cases reach
      exact ⟨[], t, Nat.le_refl _, rfl, start⟩
  | append_singleton acts a ih =>
      obtain ⟨u, before, last⟩ := run_concat_eq_some.mp reach
      obtain ⟨bs, t₁, short, matched, related⟩ := ih before
      obtain ⟨b, t', next, related'⟩ := sim u t₁ a s' related last
      refine ⟨bs ++ b.toList, t', ?_, run_append_eq_some.mpr ⟨t₁, matched, next⟩, related'⟩
      have one : b.toList.length ≤ 1 := by cases b <;> simp
      rw [List.length_append, List.length_append, List.length_singleton]
      omega

end Runs
