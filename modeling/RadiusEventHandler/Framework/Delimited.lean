import Mathlib.Tactic.Common
import Mathlib.Data.List.Basic

/-!
# Delimited text

A text made of fields each of which a delimiter ends, the last one possibly
by the end of the text. Unlike `List.splitOn`, which puts a field on either
side of every delimiter, nothing follows a delimiter at the very end, and the
empty text has no field.
-/

namespace Delimited

variable {α : Type*}

/-- A joined text is made of its parts and delimiters. -/
theorem mem_intercalate {c d : α} {ps : List (List α)} (mem : c ∈ [d].intercalate ps) :
    c = d ∨ ∃ p ∈ ps, c ∈ p := by
  induction ps with
  | nil => simp at mem
  | cons p ps ih =>
      cases ps with
      | nil =>
          rw [List.intercalate_singleton] at mem
          exact .inr ⟨p, List.mem_cons_self, mem⟩
      | cons q qs =>
          simp only [List.intercalate_cons_cons, List.mem_append, List.mem_singleton] at mem
          rcases mem with (here | rfl) | later
          · exact .inr ⟨p, List.mem_cons_self, here⟩
          · exact .inl rfl
          · rcases ih later with rfl | ⟨r, r_mem, c_mem⟩
            · exact .inl rfl
            · exact .inr ⟨r, List.mem_cons_of_mem p r_mem, c_mem⟩

variable [DecidableEq α]

/-- The fields of the text `s`: the parts of `List.splitOn`, without an empty last one. -/
def fields (d : α) (s : List α) : List (List α) :=
  if (s.splitOn d).getLast? = some [] then (s.splitOn d).dropLast else s.splitOn d

variable {d : α} {s a p : List α} {as : List (List α)}

/-! ## One field off the front -/

@[simp] theorem fields_nil : fields d [] = [] := by
  simp [fields]

theorem fields_of_not_mem (free : d ∉ a) (ne : a ≠ []) : fields d a = [a] := by
  simp [fields, List.splitOn_eq_singleton free, ne]

theorem fields_append (free : d ∉ a) (r : List α) : fields d (a ++ d :: r) = a :: fields d r := by
  have parts := List.splitOn_append_cons_self_of_not_mem free r
  have ne : r.splitOn d ≠ [] := List.splitOn_ne_nil d r
  obtain ⟨b, bs, eq⟩ := List.exists_cons_of_ne_nil ne
  simp only [fields, parts, eq, List.getLast?_cons_cons, List.dropLast_cons_cons]
  split <;> rfl

/-- A text is empty, or one unended field, or an ended field with a text behind it. -/
@[elab_as_elim] theorem induction {motive : List α → Prop} (nil : motive [])
    (last : ∀ a, d ∉ a → a ≠ [] → motive a)
    (field : ∀ a r, d ∉ a → motive r → motive (a ++ d :: r)) (s : List α) : motive s := by
  induction h : s.length using Nat.strongRecOn generalizing s with
  | ind n ih =>
      by_cases mem : d ∈ s
      · obtain ⟨a, r, rfl, free⟩ := List.eq_append_cons_of_mem mem
        apply field a r free
        refine ih r.length ?_ r rfl
        rw [← h, List.length_append, List.length_cons]
        omega
      · by_cases ne : s = []
        · rw [ne]
          exact nil
        · exact last s mem ne

/-! ## Joining undoes splitting -/

theorem not_mem_of_mem_fields (field : a ∈ fields d s) : d ∉ a := by
  induction s using induction (d := d) with
  | nil => simp at field
  | last b free ne =>
      rw [fields_of_not_mem free ne, List.mem_singleton] at field
      rw [field]
      exact free
  | field b r free ih =>
      rw [fields_append free, List.mem_cons] at field
      rcases field with rfl | later
      · exact free
      · exact ih later

theorem fields_eq_nil_iff : fields d s = [] ↔ s = [] := by
  induction s using induction (d := d) with
  | nil => simp
  | last b free ne => simp [fields_of_not_mem free ne, ne]
  | field b r free ih => simp [fields_append free]

/-- The fields joined by the delimiter are the text without a delimiter at its end. -/
theorem intercalate_fields (d : α) (s : List α) :
    [d].intercalate (fields d s) ++ (if s.getLast? = some d then [d] else []) = s := by
  induction s using induction (d := d) with
  | nil => simp
  | last b free ne =>
      have no_end : b.getLast? ≠ some d := fun ends => free (List.mem_of_getLast? ends)
      simp [fields_of_not_mem free ne, no_end]
  | field b r free ih =>
      rw [fields_append free]
      by_cases none_left : r = []
      · subst none_left
        simp
      · obtain ⟨c, cs, eq⟩ := List.exists_cons_of_ne_nil (mt fields_eq_nil_iff.mp none_left)
        have same_end : (b ++ d :: r).getLast? = r.getLast? := by
          obtain ⟨x, xs, rfl⟩ := List.exists_cons_of_ne_nil none_left
          rw [List.getLast?_append_of_ne_nil _ (by simp), List.getLast?_cons_cons]
        rw [same_end, eq, List.intercalate_cons_cons, ← eq]
        simp only [List.append_assoc, List.cons_append, List.nil_append]
        rw [ih]

/-! ## Texts with a given number of fields -/

theorem fields_eq_cons_iff : fields d s = a :: as ↔
    d ∉ a ∧ (s = a ∧ a ≠ [] ∧ as = [] ∨ ∃ r, s = a ++ d :: r ∧ fields d r = as) := by
  constructor
  · intro eq
    refine ⟨not_mem_of_mem_fields (s := s) (by simp [eq]), ?_⟩
    induction s using induction (d := d) with
    | nil => simp at eq
    | last b free ne =>
        rw [fields_of_not_mem free ne] at eq
        cases eq
        exact .inl ⟨rfl, ne, rfl⟩
    | field b r free ih =>
        rw [fields_append free] at eq
        cases eq
        exact .inr ⟨r, rfl, rfl⟩
  · rintro ⟨free, ⟨rfl, ne, rfl⟩ | ⟨r, rfl, rfl⟩⟩
    · exact fields_of_not_mem free ne
    · exact fields_append free r

theorem fields_eq_singleton_iff :
    fields d s = [a] ↔ d ∉ a ∧ (s = a ∧ a ≠ [] ∨ s = a ++ [d]) := by
  simp [fields_eq_cons_iff, fields_eq_nil_iff]

theorem fields_eq_pair_iff : fields d s = [a, p] ↔
    d ∉ a ∧ d ∉ p ∧ (s = a ++ d :: p ∧ p ≠ [] ∨ s = a ++ d :: (p ++ [d])) := by
  rw [fields_eq_cons_iff]
  simp only [fields_eq_singleton_iff]
  constructor
  · rintro ⟨free, ⟨-, -, none⟩ | ⟨r, rfl, free', ⟨rfl, ne⟩ | rfl⟩⟩
    · cases none
    · exact ⟨free, free', .inl ⟨rfl, ne⟩⟩
    · exact ⟨free, free', .inr rfl⟩
  · rintro ⟨free, free', ⟨rfl, ne⟩ | rfl⟩
    · exact ⟨free, .inr ⟨p, rfl, free', .inl ⟨rfl, ne⟩⟩⟩
    · exact ⟨free, .inr ⟨p ++ [d], rfl, free', .inr rfl⟩⟩

end Delimited
