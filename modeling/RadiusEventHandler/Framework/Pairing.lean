import Mathlib.Tactic.Common
import Mathlib.Logic.Function.Basic
import Mathlib.Data.List.Induction
import Mathlib.Data.List.Perm.Basic
import Mathlib.Data.List.Nodup
import Mathlib.Data.List.Permutation
import Mathlib.Data.Set.Card

/-!
# Pairing two sides by key

Items arrive one at a time, each on a key and on one of two sides. A slot per
key remembers an item that found nobody there; the next item of that key
takes the remembered one away with it: as a pair when the two are on
different sides, and as a lone item when they are on the same side (the
newcomer is then dropped).

`slots_feedAll` and `emittedOn_feedAll` say what any sequence of items leads
to, key by key: the items of a key leave two by two, in order. When no key
has two items on one side this does not depend on the order of arrival
(`order_independence`).
-/

namespace Pairing

inductive Side where
  | left
  | right
deriving DecidableEq

structure Item (κ ν : Type*) where
  key : κ
  side : Side
  val : ν

/-- What leaves a slot: a matched pair, or an item that met its own side. -/
inductive Emission (κ ν : Type*) where
  | pair (key : κ) (left right : ν)
  | lone (key : κ) (side : Side) (val : ν)

structure Table (κ ν : Type*) where
  slots : κ → Option (Side × ν)
  emitted : List (Emission κ ν)

variable {κ ν : Type*}

def Emission.key : Emission κ ν → κ
  | .pair key _ _ => key
  | .lone key _ _ => key

def Item.half (i : Item κ ν) : Side × ν := (i.side, i.val)

/-- The remembered half and the newcomer leave together. -/
def join (key : κ) : Side × ν → Side × ν → Emission κ ν
  | (.left, a), (.right, b) => .pair key a b
  | (.right, b), (.left, a) => .pair key a b
  | (.left, a), (.left, _) => .lone key .left a
  | (.right, b), (.right, _) => .lone key .right b

@[simp] theorem join_key (key : κ) (x y : Side × ν) : (join key x y).key = key := by
  obtain ⟨_ | _, x⟩ := x <;> obtain ⟨_ | _, y⟩ := y <;> rfl

def Table.empty : Table κ ν := ⟨fun _ => none, []⟩

variable [DecidableEq κ]

def feed (t : Table κ ν) (i : Item κ ν) : Table κ ν :=
  match t.slots i.key with
  | none => { t with slots := Function.update t.slots i.key (some i.half) }
  | some h =>
      { slots := Function.update t.slots i.key none
        emitted := t.emitted ++ [join i.key h i.half] }

def feedAll (items : List (Item κ ν)) : Table κ ν := items.foldl feed .empty

theorem feedAll_concat (items : List (Item κ ν)) (i : Item κ ν) :
    feedAll (items ++ [i]) = feed (feedAll items) i := by
  simp [feedAll]

theorem feed_of_none {t : Table κ ν} {i : Item κ ν} (free : t.slots i.key = none) :
    feed t i = { t with slots := Function.update t.slots i.key (some i.half) } := by
  simp [feed, free]

theorem feed_of_some {t : Table κ ν} {i : Item κ ν} {h : Side × ν}
    (taken : t.slots i.key = some h) :
    feed t i = { slots := Function.update t.slots i.key none
                 emitted := t.emitted ++ [join i.key h i.half] } := by
  simp [feed, taken]

/-! ## One key: the items leave two by two -/

/-- The halves of the items of one key, in order of arrival. -/
def halves (k : κ) (items : List (Item κ ν)) : List (Side × ν) :=
  (items.filter (fun i => i.key = k)).map Item.half

/-- The last item of an odd number of items. -/
def leftover {β : Type*} : List β → Option β
  | [] => none
  | [x] => some x
  | _ :: _ :: rest => leftover rest

/-- First with second, third with fourth, and so on. -/
def pairUp (k : κ) : List (Side × ν) → List (Emission κ ν)
  | [] => []
  | [_] => []
  | x :: y :: rest => join k x y :: pairUp k rest

/-- The emissions of one key. -/
def emittedOn (k : κ) (t : Table κ ν) : List (Emission κ ν) :=
  t.emitted.filter (fun e => e.key = k)

theorem leftover_concat {β : Type*} (xs : List β) (x : β) :
    leftover (xs ++ [x]) = match leftover xs with
      | none => some x
      | some _ => none := by
  induction xs using leftover.induct with
  | case1 => rfl
  | case2 y => rfl
  | case3 y z rest ih => exact ih

omit [DecidableEq κ] in
theorem pairUp_concat (k : κ) (xs : List (Side × ν)) (x : Side × ν) :
    pairUp k (xs ++ [x]) = match leftover xs with
      | none => pairUp k xs
      | some y => pairUp k xs ++ [join k y x] := by
  induction xs using leftover.induct with
  | case1 => rfl
  | case2 y => rfl
  | case3 y z rest ih =>
      simp only [List.cons_append, pairUp, ih, leftover]
      cases leftover rest <;> rfl

theorem halves_concat_self (items : List (Item κ ν)) (i : Item κ ν) :
    halves i.key (items ++ [i]) = halves i.key items ++ [i.half] := by
  simp [halves, List.filter_append]

theorem halves_concat_other {k : κ} (items : List (Item κ ν)) {i : Item κ ν} (h : i.key ≠ k) :
    halves k (items ++ [i]) = halves k items := by
  simp [halves, List.filter_append, h]

/-- **Slots.** A slot holds the item left over when the items of its key have
left two by two. -/
theorem slots_feedAll (items : List (Item κ ν)) (k : κ) :
    (feedAll items).slots k = leftover (halves k items) := by
  induction items using List.reverseRecOn with
  | nil => rfl
  | append_singleton items i ih =>
      rw [feedAll_concat]
      by_cases same : i.key = k
      · subst same
        rw [halves_concat_self, leftover_concat, ← ih]
        cases slot : (feedAll items).slots i.key with
        | none => simp [feed_of_none slot]
        | some h => simp [feed_of_some slot]
      · rw [halves_concat_other items same, ← ih]
        cases slot : (feedAll items).slots i.key with
        | none => simp [feed_of_none slot, Function.update_of_ne (Ne.symm same)]
        | some h => simp [feed_of_some slot, Function.update_of_ne (Ne.symm same)]

/-- **Emissions.** The emissions of a key are its items, two by two. -/
theorem emittedOn_feedAll (items : List (Item κ ν)) (k : κ) :
    emittedOn k (feedAll items) = pairUp k (halves k items) := by
  induction items using List.reverseRecOn with
  | nil => rfl
  | append_singleton items i ih =>
      rw [feedAll_concat]
      by_cases same : i.key = k
      · subst same
        rw [halves_concat_self, pairUp_concat, ← slots_feedAll, ← ih]
        cases slot : (feedAll items).slots i.key with
        | none => simp [feed_of_none slot, emittedOn]
        | some h => simp [feed_of_some slot, emittedOn, List.filter_append]
      · rw [halves_concat_other items same, ← ih]
        cases slot : (feedAll items).slots i.key with
        | none => simp [feed_of_none slot, emittedOn]
        | some h => simp [feed_of_some slot, emittedOn, List.filter_append, same]

omit [DecidableEq κ] in
theorem exists_of_mem_pairUp {k : κ} {xs : List (Side × ν)} {e : Emission κ ν}
    (mem : e ∈ pairUp k xs) :
    ∃ j x y, xs[2 * j]? = some x ∧ xs[2 * j + 1]? = some y ∧ e = join k x y := by
  induction xs using leftover.induct with
  | case1 => cases mem
  | case2 x => cases mem
  | case3 x y rest ih =>
      rcases List.mem_cons.mp mem with rfl | later
      · exact ⟨0, x, y, rfl, rfl, rfl⟩
      · obtain ⟨j, x', y', left, right, eq⟩ := ih later
        exact ⟨j + 1, x', y', left, right, eq⟩

/-- A pair that has left a key is its items number 2j and 2j + 1, for some j. -/
theorem exists_of_pair_mem {items : List (Item κ ν)} {k : κ} {a b : ν}
    (mem : .pair k a b ∈ (feedAll items).emitted) :
    ∃ j x y, (halves k items)[2 * j]? = some x ∧ (halves k items)[2 * j + 1]? = some y ∧
      ((x = (.left, a) ∧ y = (.right, b)) ∨ (x = (.right, b) ∧ y = (.left, a))) := by
  have on_key : .pair k a b ∈ emittedOn k (feedAll items) :=
    List.mem_filter.mpr ⟨mem, by simp [Emission.key]⟩
  rw [emittedOn_feedAll] at on_key
  obtain ⟨j, x, y, left, right, eq⟩ := exists_of_mem_pairUp on_key
  refine ⟨j, x, y, left, right, ?_⟩
  obtain ⟨_ | _, x⟩ := x <;> obtain ⟨_ | _, y⟩ := y <;> simp_all [join]

/-! ## At most one item per key and side: the order does not matter -/

/-- No key has two items on one side. -/
def Distinct (items : List (Item κ ν)) : Prop :=
  (items.map fun i => (i.key, i.side)).Nodup

/-- The item of a key on a side. -/
def valOn (items : List (Item κ ν)) (k : κ) (side : Side) : Option ν :=
  (items.find? fun i => i.key = k ∧ i.side = side).map Item.val

/-- The pairs of the keys that have items on both sides. -/
def matched (items : List (Item κ ν)) : List (Emission κ ν) :=
  items.filterMap fun i =>
    match i.side with
    | .left => (valOn items i.key .right).map fun b => .pair i.key i.val b
    | .right => none

omit [DecidableEq κ] in
theorem join_comm (k : κ) {x y : Side × ν} (h : x.1 ≠ y.1) : join k x y = join k y x := by
  obtain ⟨_ | _, x⟩ := x <;> obtain ⟨_ | _, y⟩ := y <;> first | rfl | exact absurd rfl h

theorem Distinct.filter_key {items : List (Item κ ν)} (h : Distinct items) (k : κ) :
    items.filter (fun i => i.key = k) = [] ∨
    (∃ i, items.filter (fun i => i.key = k) = [i]) ∨
    ∃ i j, items.filter (fun i => i.key = k) = [i, j] ∧ i.side ≠ j.side := by
  have keys : ∀ i ∈ items.filter (fun i => i.key = k), i.key = k := by
    intro i hi
    simpa using (List.mem_filter.mp hi).2
  have nodup : ((items.filter (fun i => i.key = k)).map fun i => (i.key, i.side)).Nodup :=
    h.sublist (List.filter_sublist.map _)
  -- two items of one key are on different sides, so there is no room for a third
  match eq : items.filter (fun i => i.key = k) with
  | [] => exact .inl eq
  | [i] => exact .inr (.inl ⟨i, eq⟩)
  | [i, j] =>
      refine .inr (.inr ⟨i, j, eq, fun same => ?_⟩)
      rw [eq] at keys nodup
      have hi := keys i (by simp)
      have hj := keys j (by simp)
      simp [hi, hj, same] at nodup
  | i :: j :: l :: rest =>
      rw [eq] at keys nodup
      have hi := keys i (by simp)
      have hj := keys j (by simp)
      have hl := keys l (by simp)
      cases si : i.side <;> cases sj : j.side <;> cases sl : l.side <;>
        simp [hi, hj, hl, si, sj, sl] at nodup

theorem halves_length_le {items : List (Item κ ν)} (h : Distinct items) (k : κ) :
    halves k items = [] ∨ (∃ x, halves k items = [x]) ∨
    ∃ x y, halves k items = [x, y] ∧ x.1 ≠ y.1 := by
  unfold halves
  rcases h.filter_key k with eq | ⟨i, eq⟩ | ⟨i, j, eq, sides⟩
  · exact .inl (by rw [eq]; rfl)
  · exact .inr (.inl ⟨i.half, by rw [eq]; rfl⟩)
  · exact .inr (.inr ⟨i.half, j.half, by rw [eq]; rfl, sides⟩)

omit [DecidableEq κ] in
/-- Two lists that agree key by key are permutations of each other. -/
theorem perm_of_filter_key [DecidableEq κ] {β : Type*} (key : β → κ) {l l' : List β}
    (h : ∀ k, l.filter (fun e => key e = k) = l'.filter (fun e => key e = k)) : l.Perm l' := by
  classical
  rw [List.perm_iff_count]
  intro e
  have on_key : ∀ xs : List β, (xs.filter (fun e' => key e' = key e)).count e = xs.count e :=
    fun xs => List.count_filter (by simp)
  rw [← on_key l, ← on_key l', h]

theorem halves_perm {items items' : List (Item κ ν)} (perm : items'.Perm items) (k : κ) :
    (halves k items').Perm (halves k items) :=
  (perm.filter _).map _

/-- One key of two orders of arrival: same left over item, same emissions. -/
theorem leftover_pairUp_perm {items items' : List (Item κ ν)} (h : Distinct items)
    (perm : items'.Perm items) (k : κ) :
    leftover (halves k items') = leftover (halves k items) ∧
      pairUp k (halves k items') = pairUp k (halves k items) := by
  have same := halves_perm perm k
  rcases halves_length_le h k with eq | ⟨x, eq⟩ | ⟨x, y, eq, sides⟩
  · rw [eq] at same ⊢
    rw [same.eq_nil]
    exact ⟨rfl, rfl⟩
  · rw [eq] at same ⊢
    rw [List.perm_singleton.mp same]
    exact ⟨rfl, rfl⟩
  · rw [eq] at same ⊢
    rcases List.perm_pair.mp same with eq' | eq'
    · rw [eq']
      exact ⟨rfl, rfl⟩
    · rw [eq']
      simp [leftover, pairUp, join_comm k sides]

/-- **Order independence.** -/
theorem order_independence {items items' : List (Item κ ν)} (h : Distinct items)
    (perm : items'.Perm items) :
    (feedAll items').slots = (feedAll items).slots ∧
      (feedAll items').emitted.Perm (feedAll items).emitted := by
  constructor
  · funext k
    rw [slots_feedAll, slots_feedAll, (leftover_pairUp_perm h perm k).1]
  · apply perm_of_filter_key Emission.key
    intro k
    exact (emittedOn_feedAll items' k).trans
      ((leftover_pairUp_perm h perm k).2.trans (emittedOn_feedAll items k).symm)

theorem valOn_filter (items : List (Item κ ν)) (k : κ) (side : Side) :
    valOn items k side =
      ((items.filter fun i => i.key = k).find? fun i => i.side = side).map Item.val := by
  unfold valOn
  rw [List.find?_filter]
  simp

/-- A slot holds the item of a key that has no item on the other side. -/
theorem slots_of_distinct {items : List (Item κ ν)} (h : Distinct items) (k : κ) :
    (feedAll items).slots k =
      match valOn items k .left, valOn items k .right with
      | some a, none => some (.left, a)
      | none, some b => some (.right, b)
      | _, _ => none := by
  rw [slots_feedAll, valOn_filter, valOn_filter]
  unfold halves
  rcases h.filter_key k with eq | ⟨i, eq⟩ | ⟨i, j, eq, sides⟩
  · simp [eq, leftover]
  · rw [eq]
    cases side : i.side <;> simp [leftover, side, Item.half]
  · rw [eq]
    cases si : i.side <;> cases sj : j.side <;> simp_all [leftover]

theorem matched_filter (items : List (Item κ ν)) (k : κ) :
    (matched items).filter (fun e => e.key = k) =
      (items.filter (fun i => i.key = k)).filterMap fun i =>
        match i.side with
        | .left => (valOn items k .right).map fun b => .pair k i.val b
        | .right => none := by
  unfold matched
  rw [List.filter_filterMap, List.filterMap_filter]
  congr 1
  funext i
  cases i.side with
  | right => simp
  | left =>
      by_cases same : i.key = k
      · subst same
        cases valOn items i.key .right <;> simp [Emission.key, Option.filter]
      · cases valOn items i.key .right <;> simp [Emission.key, Option.filter, same]

/-- The emissions are the pairs of the keys that have both sides. -/
theorem emitted_perm_matched {items : List (Item κ ν)} (h : Distinct items) :
    (feedAll items).emitted.Perm (matched items) := by
  apply perm_of_filter_key Emission.key
  intro k
  apply (emittedOn_feedAll items k).trans
  rw [matched_filter, valOn_filter]
  unfold halves
  rcases h.filter_key k with eq | ⟨i, eq⟩ | ⟨i, j, eq, sides⟩
  · simp [eq, pairUp]
  · rw [eq]
    cases side : i.side <;> simp [pairUp, side]
  · rw [eq]
    cases si : i.side <;> cases sj : j.side <;>
      simp_all [pairUp, join, Item.half]

/-! ## How much leaves -/

/-- What has left stays out. -/
theorem emitted_feed (t : Table κ ν) (i : Item κ ν) : t.emitted <+: (feed t i).emitted := by
  unfold feed
  cases t.slots i.key with
  | none => exact List.prefix_refl _
  | some h => exact List.prefix_append _ _

theorem emitted_length_le (items : List (Item κ ν)) :
    (feedAll items).emitted.length ≤ items.length := by
  induction items using List.reverseRecOn with
  | nil => exact Nat.le_refl 0
  | append_singleton items i ih =>
      rw [feedAll_concat, List.length_append]
      unfold feed
      cases (feedAll items).slots i.key with
      | none => exact Nat.le_succ_of_le ih
      | some h =>
          rw [List.length_append]
          exact Nat.add_le_add_right ih 1

/-- The keys that remember an item. -/
def Table.occupied (t : Table κ ν) : Set κ := {k | t.slots k ≠ none}

/-- Every item is remembered, or has left with another one. -/
theorem length_eq_occupied_add_emitted [Finite κ] (items : List (Item κ ν)) :
    items.length = (feedAll items).occupied.ncard + 2 * (feedAll items).emitted.length := by
  induction items using List.reverseRecOn with
  | nil => simp [feedAll, Table.empty, Table.occupied]
  | append_singleton items i ih =>
      rw [feedAll_concat, List.length_append, List.length_singleton, ih]
      cases slot : (feedAll items).slots i.key with
      | none =>
          have grown : (feed (feedAll items) i).occupied =
              insert i.key (feedAll items).occupied := by
            ext k
            by_cases same : k = i.key
            · subst same
              simp [feed_of_none slot, Table.occupied]
            · simp [feed_of_none slot, Table.occupied, same]
          rw [grown, Set.ncard_insert_of_notMem (by simp [Table.occupied, slot]),
            feed_of_none slot]
          dsimp only
          omega
      | some h =>
          have shrunk : (feed (feedAll items) i).occupied =
              (feedAll items).occupied \ {i.key} := by
            ext k
            by_cases same : k = i.key
            · subst same
              simp [feed_of_some slot, Table.occupied]
            · simp [feed_of_some slot, Table.occupied, same]
          have there : i.key ∈ (feedAll items).occupied := by simp [Table.occupied, slot]
          have card := Set.ncard_sdiff_singleton_add_one there
          rw [shrunk, feed_of_some slot, List.length_append, List.length_singleton]
          omega

end Pairing
