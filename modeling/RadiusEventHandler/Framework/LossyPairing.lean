import RadiusEventHandler.Framework.Pairing
import RadiusEventHandler.Framework.Runs

/-!
# Pairing with expiries and losses

Besides being fed a pairing table can give up what a key remembers: as a lone
emission when the item's time is over (`expire`), or without a trace (`lose`).
Neither is possible on a key that remembers nothing.

Nothing else happens to an item: those that came are remembered, have left two
by two or alone, or are lost (`items_accounted`). So the number of losses
follows from what is visible from outside (`losses_eq`), whatever the order of
the events was.
-/

namespace Pairing

inductive Event (κ ν : Type*) where
  | item (i : Item κ ν)
  | expire (key : κ)
  | lose (key : κ)

section
variable {κ ν : Type*}

def Event.item? : Event κ ν → Option (Item κ ν)
  | .item i => some i
  | .expire _ => none
  | .lose _ => none

def Event.expired? : Event κ ν → Option κ
  | .item _ => none
  | .expire key => some key
  | .lose _ => none

def Event.lost? : Event κ ν → Option κ
  | .item _ => none
  | .expire _ => none
  | .lose key => some key

/-- The items that arrive, in their order. -/
def items (events : List (Event κ ν)) : List (Item κ ν) := events.filterMap Event.item?

/-- The keys whose item leaves alone. -/
def expiries (events : List (Event κ ν)) : List κ := events.filterMap Event.expired?

/-- The keys whose item disappears. -/
def losses (events : List (Event κ ν)) : List κ := events.filterMap Event.lost?

@[simp] theorem items_append (es es' : List (Event κ ν)) :
    items (es ++ es') = items es ++ items es' :=
  List.filterMap_append

@[simp] theorem expiries_append (es es' : List (Event κ ν)) :
    expiries (es ++ es') = expiries es ++ expiries es' :=
  List.filterMap_append

@[simp] theorem losses_append (es es' : List (Event κ ν)) :
    losses (es ++ es') = losses es ++ losses es' :=
  List.filterMap_append

@[simp] theorem items_item (i : Item κ ν) : items [.item i] = [i] := rfl

@[simp] theorem expiries_item (i : Item κ ν) : expiries [Event.item i] = [] := rfl

@[simp] theorem losses_item (i : Item κ ν) : losses [Event.item i] = [] := rfl

@[simp] theorem items_expire (key : κ) : items [(.expire key : Event κ ν)] = [] := rfl

@[simp] theorem expiries_expire (key : κ) : expiries [(.expire key : Event κ ν)] = [key] := rfl

@[simp] theorem losses_expire (key : κ) : losses [(.expire key : Event κ ν)] = [] := rfl

@[simp] theorem items_lose (key : κ) : items [(.lose key : Event κ ν)] = [] := rfl

@[simp] theorem expiries_lose (key : κ) : expiries [(.lose key : Event κ ν)] = [] := rfl

@[simp] theorem losses_lose (key : κ) : losses [(.lose key : Event κ ν)] = [key] := rfl

end

variable {κ ν : Type*} [DecidableEq κ] {t t' u : Table κ ν} {key : κ} {h : Side × ν}
  {events events' : List (Event κ ν)}

/-- The item of a key leaves alone. -/
def release (t : Table κ ν) (key : κ) (h : Side × ν) : Table κ ν where
  slots := Function.update t.slots key none
  emitted := t.emitted ++ [.lone key h.1 h.2]

/-- The item of a key disappears. -/
def forget (t : Table κ ν) (key : κ) : Table κ ν :=
  { t with slots := Function.update t.slots key none }

def advance (t : Table κ ν) : Event κ ν → Option (Table κ ν)
  | .item i => some (feed t i)
  | .expire key => (t.slots key).map fun h => release t key h
  | .lose key => (t.slots key).map fun _ => forget t key

theorem advance_expire (taken : t.slots key = some h) :
    advance t (.expire key) = some (release t key h) := by
  simp [advance, taken]

theorem advance_lose (taken : t.slots key = some h) :
    advance t (.lose key) = some (forget t key) := by
  simp [advance, taken]

/-- An item that takes the place of a lost one. -/
theorem feed_forget (t : Table κ ν) (i : Item κ ν) :
    feed (forget t i.key) i =
      { t with slots := Function.update t.slots i.key (some i.half) } := by
  rw [feed_of_none (Function.update_self _ _ _), forget, Function.update_idem]

/-! ## Where the items are -/

theorem occupied_update_some (slots : t'.slots = Function.update t.slots key (some h)) :
    t'.occupied = insert key t.occupied := by
  ext k
  by_cases same : k = key
  · subst same
    simp [Table.occupied, slots]
  · simp [Table.occupied, slots, same]

theorem occupied_update_none (slots : t'.slots = Function.update t.slots key none) :
    t'.occupied = t.occupied \ {key} := by
  ext k
  by_cases same : k = key
  · subst same
    simp [Table.occupied, slots]
  · simp [Table.occupied, slots, same]

/-- One key remembers nothing any more. -/
theorem ncard_occupied_update_none [Finite κ] (taken : t.slots key = some h)
    (slots : t'.slots = Function.update t.slots key none) :
    t'.occupied.ncard + 1 = t.occupied.ncard := by
  have there : key ∈ t.occupied := by simp [Table.occupied, taken]
  rw [occupied_update_none slots]
  exact Set.ncard_sdiff_singleton_add_one there

/-- What a table has accounted for: an item for every key that remembers one,
two for every emission. -/
noncomputable def Table.weight (t : Table κ ν) : ℕ := t.occupied.ncard + 2 * t.emitted.length

theorem weight_feed [Finite κ] (t : Table κ ν) (i : Item κ ν) :
    (feed t i).weight = t.weight + 1 := by
  cases slot : t.slots i.key with
  | none =>
      have out : i.key ∉ t.occupied := by simp [Table.occupied, slot]
      rw [feed_of_none slot, Table.weight, Table.weight, occupied_update_some (h := i.half) rfl,
        Set.ncard_insert_of_notMem out]
      dsimp only
      omega
  | some h =>
      have fewer : (feed t i).occupied.ncard + 1 = t.occupied.ncard :=
        ncard_occupied_update_none slot (by rw [feed_of_some slot])
      have more : (feed t i).emitted.length = t.emitted.length + 1 := by
        rw [feed_of_some slot, List.length_append, List.length_singleton]
      rw [Table.weight, Table.weight, more]
      omega

theorem weight_release [Finite κ] (taken : t.slots key = some h) :
    (release t key h).weight = t.weight + 1 := by
  have fewer : (release t key h).occupied.ncard + 1 = t.occupied.ncard :=
    ncard_occupied_update_none taken rfl
  rw [Table.weight, Table.weight, release, List.length_append, List.length_singleton, ← fewer]
  dsimp only [release]
  omega

theorem weight_forget [Finite κ] (taken : t.slots key = some h) :
    (forget t key).weight + 1 = t.weight := by
  have fewer : (forget t key).occupied.ncard + 1 = t.occupied.ncard :=
    ncard_occupied_update_none taken rfl
  rw [Table.weight, Table.weight, ← fewer]
  dsimp only [forget]
  omega

/-- **Items are remembered, emitted or lost.** An expiry empties a key with one
item only, so that it counts for another one. -/
theorem items_accounted [Finite κ] (run : Runs.run advance Table.empty events = some t) :
    (items events).length + (expiries events).length = t.weight + (losses events).length := by
  induction events using List.reverseRecOn generalizing t with
  | nil =>
      cases run
      simp [items, expiries, losses, Table.weight, Table.occupied, Table.empty]
  | append_singleton events e ih =>
      obtain ⟨u, before, last⟩ := Runs.run_concat_eq_some.mp run
      have counted := ih before
      rw [items_append, expiries_append, losses_append, List.length_append, List.length_append,
        List.length_append]
      cases e with
      | item i =>
          cases last
          have heavier := weight_feed u i
          simp only [items_item, expiries_item, losses_item, List.length_singleton, List.length_nil]
          omega
      | expire key =>
          obtain ⟨h, taken, rfl⟩ := Option.map_eq_some_iff.mp last
          have heavier := weight_release taken
          simp only [items_expire, expiries_expire, losses_expire, List.length_singleton,
            List.length_nil]
          omega
      | lose key =>
          obtain ⟨h, taken, rfl⟩ := Option.map_eq_some_iff.mp last
          have lighter := weight_forget taken
          simp only [items_lose, expiries_lose, losses_lose, List.length_singleton,
            List.length_nil]
          omega

/-- Two courses that look alike from outside have as many losses. -/
theorem losses_eq [Finite κ] (run : Runs.run advance Table.empty events = some t)
    (run' : Runs.run advance Table.empty events' = some t')
    (occupied : t'.occupied = t.occupied) (emitted : t'.emitted.length = t.emitted.length)
    (same_items : (items events').length = (items events).length)
    (same_expiries : (expiries events').length = (expiries events).length) :
    (losses events').length = (losses events).length := by
  have counted := items_accounted run
  have counted' := items_accounted run'
  have weight : t'.weight = t.weight := by rw [Table.weight, Table.weight, occupied, emitted]
  omega

end Pairing
