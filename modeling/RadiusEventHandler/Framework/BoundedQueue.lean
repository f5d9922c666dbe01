import Mathlib.Tactic.Common
import Mathlib.Data.List.Basic
import Mathlib.Data.List.Perm.Basic
import Mathlib.Data.List.Forall2

/-!
# Bounded FIFO queues

A queue carries the proof that it holds no more than its capacity. `tryPush`
refuses when the queue is full and `tryPop` when it is empty; neither waits.
A list of queues is a bank, whose elements are `contents`. Operations on related
queues have related results.
-/

structure BoundedQueue (α : Type*) where
  capacity : ℕ
  items : List α
  within : items.length ≤ capacity

namespace BoundedQueue

variable {α : Type*}

@[ext] theorem ext {q q' : BoundedQueue α} (capacity : q.capacity = q'.capacity)
    (items : q.items = q'.items) : q = q' := by
  cases q
  cases q'
  simp only at capacity items
  subst capacity items
  rfl

/-- A new queue after `set_capacity`. -/
def empty (capacity : ℕ) : BoundedQueue α := ⟨capacity, [], Nat.zero_le capacity⟩

/-- The queue has no room for another element. -/
def Full (q : BoundedQueue α) : Prop := q.capacity ≤ q.items.length

instance (q : BoundedQueue α) : Decidable q.Full :=
  inferInstanceAs (Decidable (q.capacity ≤ q.items.length))

def tryPush (q : BoundedQueue α) (a : α) : Option (BoundedQueue α) :=
  if room : q.items.length < q.capacity then
    some ⟨q.capacity, q.items ++ [a], by
      rw [List.length_append]
      exact room⟩
  else none

def tryPop : BoundedQueue α → Option (α × BoundedQueue α)
  | ⟨_, [], _⟩ => none
  | ⟨capacity, a :: rest, within⟩ => some (a, ⟨capacity, rest, Nat.le_of_succ_le within⟩)

theorem tryPush_eq_some {q q' : BoundedQueue α} {a : α} :
    q.tryPush a = some q' ↔
      ¬ q.Full ∧ q'.capacity = q.capacity ∧ q'.items = q.items ++ [a] := by
  unfold tryPush Full
  by_cases room : q.items.length < q.capacity
  · rw [dif_pos room, Option.some.injEq, BoundedQueue.ext_iff]
    constructor
    · rintro ⟨cap, items⟩
      exact ⟨by omega, cap.symm, items.symm⟩
    · rintro ⟨-, cap, items⟩
      exact ⟨cap.symm, items.symm⟩
  · rw [dif_neg room]
    constructor
    · intro h; cases h
    · rintro ⟨notFull, -⟩
      omega

theorem tryPush_eq_none {q : BoundedQueue α} {a : α} : q.tryPush a = none ↔ q.Full := by
  unfold tryPush Full
  by_cases room : q.items.length < q.capacity
  · simp [room]
  · simp [room]
    omega

theorem tryPush_of_not_full {q : BoundedQueue α} (a : α) (room : ¬ q.Full) :
    ∃ q', q.tryPush a = some q' ∧ q'.capacity = q.capacity ∧ q'.items = q.items ++ [a] := by
  cases push : q.tryPush a with
  | none => exact absurd (tryPush_eq_none.mp push) room
  | some q' => exact ⟨q', rfl, (tryPush_eq_some.mp push).2⟩

theorem tryPop_eq_some {q q' : BoundedQueue α} {a : α} :
    q.tryPop = some (a, q') ↔ q'.capacity = q.capacity ∧ q.items = a :: q'.items := by
  obtain ⟨capacity, items, within⟩ := q
  cases items with
  | nil => simp [tryPop]
  | cons b rest =>
      simp only [tryPop, Option.some.injEq, Prod.mk.injEq, BoundedQueue.ext_iff, List.cons.injEq]
      constructor
      · rintro ⟨rfl, cap, items⟩
        exact ⟨cap.symm, rfl, items⟩
      · rintro ⟨cap, rfl, items⟩
        exact ⟨rfl, cap.symm, items⟩

theorem tryPop_eq_none {q : BoundedQueue α} : q.tryPop = none ↔ q.items = [] := by
  obtain ⟨capacity, items, within⟩ := q
  cases items <;> simp [tryPop]

/-! ## Banks of queues -/

/-- The elements of all the queues, queue by queue. -/
def contents (bank : List (BoundedQueue α)) : List α := bank.flatMap items

/-- Replacing one element of a list replaces its part of the whole. -/
theorem flatMap_set {β : Type*} (f : β → List α) {l : List β} {i : ℕ} {b : β}
    (at_i : l[i]? = some b) (c : β) :
    ∃ before after, l.flatMap f = before ++ f b ++ after ∧
      (l.set i c).flatMap f = before ++ f c ++ after := by
  obtain ⟨lt, rfl⟩ := List.getElem?_eq_some_iff.mp at_i
  refine ⟨(l.take i).flatMap f, (l.drop (i + 1)).flatMap f, ?_, ?_⟩
  · have split : l = l.take i ++ l[i] :: l.drop (i + 1) := by
      rw [← List.drop_eq_getElem_cons lt, List.take_append_drop]
    calc l.flatMap f = (l.take i ++ l[i] :: l.drop (i + 1)).flatMap f := by rw [← split]
      _ = (l.take i).flatMap f ++ f l[i] ++ (l.drop (i + 1)).flatMap f := by
        rw [List.flatMap_append, List.flatMap_cons, List.append_assoc]
  · rw [List.set_eq_take_append_cons_drop, if_pos lt]
    simp

theorem contents_set {bank : List (BoundedQueue α)} {i : ℕ} {q : BoundedQueue α}
    (at_i : bank[i]? = some q) (q' : BoundedQueue α) :
    ∃ before after, contents bank = before ++ q.items ++ after ∧
      contents (bank.set i q') = before ++ q'.items ++ after :=
  flatMap_set items at_i q'

theorem contents_push {bank : List (BoundedQueue α)} {i : ℕ} {q q' : BoundedQueue α} {a : α}
    (at_i : bank[i]? = some q) (items : q'.items = q.items ++ [a]) :
    (contents (bank.set i q')).Perm (a :: contents bank) := by
  obtain ⟨before, after, old, new⟩ := contents_set at_i q'
  rw [old, new, items]
  have shape : before ++ (q.items ++ [a]) ++ after = (before ++ q.items) ++ a :: after := by simp
  rw [shape]
  exact List.perm_middle

theorem contents_pop {bank : List (BoundedQueue α)} {i : ℕ} {q q' : BoundedQueue α} {a : α}
    (at_i : bank[i]? = some q) (items : q.items = a :: q'.items) :
    (contents bank).Perm (a :: contents (bank.set i q')) := by
  obtain ⟨before, after, old, new⟩ := contents_set at_i q'
  rw [old, new, items]
  have shape : before ++ (a :: q'.items) ++ after = before ++ a :: (q'.items ++ after) := by simp
  rw [shape, List.append_assoc]
  exact List.perm_middle

theorem contents_eq_nil {bank : List (BoundedQueue α)} :
    contents bank = [] ↔ ∀ q ∈ bank, q.items = [] := by
  simp [contents, List.flatMap_eq_nil_iff]

/-! ## What went into a bank and what came out -/

section History

variable {bank : List (BoundedQueue α)} {i : ℕ} {q q' : BoundedQueue α} {a : α} {put out : List α}

theorem located_push (located : put.Perm (contents bank ++ out)) (at_i : bank[i]? = some q)
    (items : q'.items = q.items ++ [a]) :
    (put ++ [a]).Perm (contents (bank.set i q') ++ out) := by
  refine (located.append_right [a]).trans ((List.perm_append_singleton a _).trans ?_)
  exact (contents_push at_i items).symm.append_right out

theorem located_pop (located : put.Perm (contents bank ++ out)) (at_i : bank[i]? = some q)
    (items : q.items = a :: q'.items) :
    put.Perm (contents (bank.set i q') ++ (out ++ [a])) := by
  rw [← List.append_assoc]
  refine located.trans (((contents_pop at_i items).append_right out).trans ?_)
  exact (List.perm_append_singleton a _).symm

/-- Elements that are numbered in the order of their arrival. -/
theorem numbered_concat {number : α → ℕ} (numbered : put.map number = List.range put.length)
    (new : number a = put.length) :
    (put ++ [a]).map number = List.range (put ++ [a]).length := by
  rw [List.map_append, numbered, List.map_singleton, new, List.length_append,
    List.length_singleton, List.range_succ]

end History

/-! ## Related queues -/

section Related

variable {β : Type*} {R : α → β → Prop} {q : BoundedQueue α} {q' : BoundedQueue β}
  {a : α} {b : β}

/-- The same capacity, and related elements at the same positions. -/
structure Related (R : α → β → Prop) (q : BoundedQueue α) (q' : BoundedQueue β) : Prop where
  capacity : q.capacity = q'.capacity
  items : List.Forall₂ R q.items q'.items

theorem Related.refl {R : α → α → Prop} (same : ∀ a, R a a) (q : BoundedQueue α) :
    q.Related R q :=
  ⟨rfl, List.forall₂_same.mpr fun a _ => same a⟩

theorem Related.full_iff (related : q.Related R q') : q.Full ↔ q'.Full := by
  rw [Full, Full, related.capacity, related.items.length_eq]

theorem Related.push {p : BoundedQueue α} {p' : BoundedQueue β} (related : q.Related R q')
    (new : R a b) (push : q.tryPush a = some p) (push' : q'.tryPush b = some p') :
    p.Related R p' := by
  obtain ⟨-, capacity, items⟩ := tryPush_eq_some.mp push
  obtain ⟨-, capacity', items'⟩ := tryPush_eq_some.mp push'
  constructor
  · rw [capacity, capacity', related.capacity]
  · rw [items, items']
    exact List.rel_append related.items (.cons new .nil)

/-- Both queues are empty, or both give up related elements. -/
theorem Related.pop (related : q.Related R q') :
    (q.tryPop = none ∧ q'.tryPop = none) ∨
    ∃ a b p p', q.tryPop = some (a, p) ∧ q'.tryPop = some (b, p') ∧ R a b ∧ p.Related R p' := by
  obtain ⟨capacity, items, within⟩ := q
  obtain ⟨capacity', items', within'⟩ := q'
  obtain ⟨rfl, same⟩ := related
  cases same with
  | nil => exact .inl ⟨rfl, rfl⟩
  | cons head tail => exact .inr ⟨_, _, _, _, rfl, rfl, head, rfl, tail⟩

end Related

section Banks

variable {β γ : Type*} {S : β → γ → Prop} {bank : List β} {bank' : List γ} {i : ℕ} {b : β} {c : γ}

/-- Related lists have related elements at each position. -/
theorem related_getElem? (related : List.Forall₂ S bank bank') (there : bank[i]? = some b) :
    ∃ c, bank'[i]? = some c ∧ S b c := by
  induction related generalizing i with
  | nil => cases there
  | cons head _ ih =>
      cases i with
      | zero =>
          cases there
          exact ⟨_, rfl, head⟩
      | succ i => exact ih there

theorem related_set (related : List.Forall₂ S bank bank') (new : S b c) (i : ℕ) :
    List.Forall₂ S (bank.set i b) (bank'.set i c) := by
  induction related generalizing i with
  | nil => exact .nil
  | cons head rest ih =>
      cases i with
      | zero => exact .cons new rest
      | succ i => exact .cons head (ih i)

end Banks

end BoundedQueue
