import Mathlib.Tactic.Common

/-!
# One description for saving and for restoring

A description of how a value is archived is run twice: once to write, with the
value at hand, and once to read, with whatever was there before. Both ways carry
what the archive knows so far. `Restores` says that reading undoes writing in
front of every text in which a token may end, and is kept by sequencing.
-/

namespace Archiving

variable {γ τ α β : Type}

/-- Writing: the value, what is known afterwards, and the text written. -/
def Saver (γ τ α : Type) : Type := γ → α × γ × List τ

/-- Reading: the value, what is known afterwards, and the text left. -/
def Loader (γ τ α : Type) : Type := γ × List τ → Option (α × γ × List τ)

instance : Monad (Saver γ τ) where
  pure a := fun g => (a, g, [])
  bind save next := fun g =>
    let saved := save g
    let more := next saved.1 saved.2.1
    (more.1, more.2.1, saved.2.2 ++ more.2.2)

instance : Monad (Loader γ τ) where
  pure a := fun s => some (a, s)
  bind load next := fun s => (load s).bind fun loaded => next loaded.1 loaded.2

/-- Saving is done on the value, and what has been written is read as the value
in front of every text that `ends` allows. In front of such a text, what is
written is one of these texts itself. -/
structure Restores (ends : List τ → Prop) (save : Saver γ τ α) (load : Loader γ τ α) (a : α) :
    Prop where
  returns : ∀ g, (save g).1 = a
  loads : ∀ g rest, ends rest → load (g, (save g).2.2 ++ rest) = some (a, (save g).2.1, rest)
  ends : ∀ g rest, ends rest → ends ((save g).2.2 ++ rest)

variable {ends : List τ → Prop} {save : Saver γ τ α} {load : Loader γ τ α} {a : α} {b : β}
  {saveNext : α → Saver γ τ β} {loadNext : α → Loader γ τ β}

/-! ## Sequencing -/

theorem restores_pure (a : α) : Restores ends (pure a : Saver γ τ α) (pure a) a :=
  ⟨fun _ => rfl, fun _ _ _ => rfl, fun _ _ allowed => allowed⟩

theorem Restores.bind (first : Restores ends save load a)
    (next : Restores ends (saveNext a) (loadNext a) b) :
    Restores ends (save >>= saveNext) (load >>= loadNext) b := by
  constructor
  · intro g
    show (saveNext (save g).1 (save g).2.1).1 = b
    rw [first.returns g]
    exact next.returns _
  · intro g rest allowed
    have later := next.ends (save g).2.1 rest allowed
    show (load (g, ((save g).2.2 ++ (saveNext (save g).1 _).2.2) ++ rest)).bind _ =
      some (b, (saveNext (save g).1 _).2.1, rest)
    rw [first.returns g, List.append_assoc, first.loads g _ later, Option.bind_some]
    exact next.loads (save g).2.1 rest allowed
  · intro g rest allowed
    show ends (((save g).2.2 ++ (saveNext (save g).1 _).2.2) ++ rest)
    rw [first.returns g, List.append_assoc]
    exact first.ends g _ (next.ends (save g).2.1 rest allowed)

/-! ## Lists, with their length known -/

section Lists

variable {saveItem : α → Saver γ τ α} {loadItem : Loader γ τ α}

def saveAll (saveItem : α → Saver γ τ α) : List α → Saver γ τ (List α)
  | [] => pure []
  | x :: xs => do
      let y ← saveItem x
      let ys ← saveAll saveItem xs
      return y :: ys

def loadAll (loadItem : Loader γ τ α) : ℕ → Loader γ τ (List α)
  | 0 => pure []
  | n + 1 => do
      let y ← loadItem
      let ys ← loadAll loadItem n
      return y :: ys

theorem restores_all (item : ∀ x, Restores ends (saveItem x) loadItem x) (xs : List α) :
    Restores ends (saveAll saveItem xs) (loadAll loadItem xs.length) xs := by
  induction xs with
  | nil => exact restores_pure []
  | cons x xs ih => exact (item x).bind (ih.bind (restores_pure (x :: xs)))

end Lists

end Archiving
