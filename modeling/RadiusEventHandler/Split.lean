import Mathlib.Tactic.Common
import RadiusEventHandler.Framework.Delimited
import RadiusEventHandler.Text

/-!
# Splitting a string (`utils::split`)

The `getline` loop over a string stream, with the stream's state flags: a
`getline` that meets the end of the input sets `eofbit`, one that extracts
nothing sets `failbit`, and one that starts on a stream that is not good only
sets `failbit`. The loop is left on `failbit`.

The tokens are the delimited fields of the string (`split_eq_fields`).
-/

namespace RadiusEventHandler

/-! ## `std::getline` -/

/-- `std::stringstream`: the characters not read yet and the state flags. -/
structure StringStream where
  rest : StdString
  eofbit : Bool
  failbit : Bool

namespace StringStream

/-- `std::stringstream ss(s)`. -/
def new (s : StdString) : StringStream := ⟨s, false, false⟩

def good (ss : StringStream) : Bool := !ss.eofbit && !ss.failbit

end StringStream

/-- The characters up to the delimiter, and what is left behind it; `none`
when the end of the input comes first. -/
def extractUntil (delim : UInt8) : StdString → StdString × Option StdString
  | [] => ([], none)
  | c :: cs =>
      if c = delim then ([], some cs)
      else (c :: (extractUntil delim cs).1, (extractUntil delim cs).2)

/-- `std::getline(ss, item, delim)`: the delimiter is extracted but not stored. -/
def getline (ss : StringStream) (item : StdString) (delim : UInt8) : StringStream × StdString :=
  if ss.good then
    match extractUntil delim ss.rest with
    | (item, some rest) => ({ ss with rest := rest }, item)
    | (item, none) => (⟨[], true, item.isEmpty⟩, item)
  else ({ ss with failbit := true }, item)

theorem extractUntil_of_not_mem {delim : UInt8} {s : StdString} (free : delim ∉ s) :
    extractUntil delim s = (s, none) := by
  induction s with
  | nil => rfl
  | cons c cs ih =>
      rw [List.mem_cons, not_or] at free
      simp only [extractUntil, if_neg (Ne.symm free.1), ih free.2]

theorem extractUntil_append {delim : UInt8} {a : StdString} (free : delim ∉ a) (r : StdString) :
    extractUntil delim (a ++ delim :: r) = (a, some r) := by
  induction a with
  | nil => simp [extractUntil]
  | cons c cs ih =>
      rw [List.mem_cons, not_or] at free
      simp only [List.cons_append, extractUntil, if_neg (Ne.symm free.1), ih free.2]

/-- A `getline` that does not fail leaves less to read. -/
theorem getline_shorter {ss : StringStream} {item : StdString} {delim : UInt8}
    (fetched : (getline ss item delim).1.failbit = false) :
    (getline ss item delim).1.rest.length < ss.rest.length := by
  unfold getline at fetched ⊢
  by_cases good : ss.good
  · simp only [if_pos good] at fetched ⊢
    by_cases mem : delim ∈ ss.rest
    · obtain ⟨a, r, eq, free⟩ := List.eq_append_cons_of_mem mem
      simp only [eq, extractUntil_append free, List.length_append, List.length_cons]
      omega
    · simp only [extractUntil_of_not_mem mem, List.isEmpty_eq_false_iff] at fetched ⊢
      exact List.length_pos_iff.mpr fetched
  · simp only [if_neg good] at fetched
    cases fetched

/-! ## The loop -/

/-- `while (std::getline(ss, item, delim)) elems.push_back(std::move(item))`.
What the move leaves in `item` is never read. -/
def splitLoop (delim : UInt8) (ss : StringStream) (item : StdString) (elems : List StdString) :
    List StdString :=
  if (getline ss item delim).1.failbit then elems
  else splitLoop delim (getline ss item delim).1 [] (elems ++ [(getline ss item delim).2])
termination_by ss.rest.length
decreasing_by exact getline_shorter (Bool.eq_false_iff.mpr ‹_›)

/-- `utils::split`. -/
def split (s : StdString) (delim : UInt8) : List StdString :=
  splitLoop delim (.new s) [] []

theorem splitLoop_left {delim : UInt8} {ss : StringStream} {item : StdString}
    {elems : List StdString} (left : (getline ss item delim).1.failbit = true) :
    splitLoop delim ss item elems = elems := by
  rw [splitLoop, if_pos left]

theorem splitLoop_again {delim : UInt8} {ss : StringStream} {item : StdString}
    {elems : List StdString} (fetched : (getline ss item delim).1.failbit = false) :
    splitLoop delim ss item elems =
      splitLoop delim (getline ss item delim).1 [] (elems ++ [(getline ss item delim).2]) := by
  rw [splitLoop, if_neg (by simp [fetched])]

/-- From a good stream the loop appends the fields of what is left to read. -/
theorem splitLoop_eq {delim : UInt8} (s item : StdString) (elems : List StdString) :
    splitLoop delim ⟨s, false, false⟩ item elems = elems ++ Delimited.fields delim s := by
  induction s using Delimited.induction (d := delim) generalizing item elems with
  | nil =>
      rw [splitLoop_left (by rfl), Delimited.fields_nil, List.append_nil]
  | last a free ne =>
      -- the last field is fetched with `eofbit`, and the next `getline` finds the stream not good
      have fetch : getline ⟨a, false, false⟩ item delim = (⟨[], true, false⟩, a) := by
        simp [getline, StringStream.good, extractUntil_of_not_mem free, ne]
      rw [splitLoop_again (by rw [fetch]), fetch, splitLoop_left (by rfl),
        Delimited.fields_of_not_mem free ne]
  | field a r free ih =>
      have fetch : getline ⟨a ++ delim :: r, false, false⟩ item delim = (⟨r, false, false⟩, a) := by
        simp [getline, StringStream.good, extractUntil_append free]
      rw [splitLoop_again (by rw [fetch]), fetch, ih, Delimited.fields_append free,
        List.append_assoc, List.singleton_append]

theorem split_eq_fields (s : StdString) (delim : UInt8) :
    split s delim = Delimited.fields delim s := by
  rw [split, StringStream.new, splitLoop_eq, List.nil_append]

/-! ## Joining the tokens -/

/-- Exactly the strings with one delimiter inside, and possibly one more at
the end, have two tokens. -/
theorem split_eq_pair_iff {s a p : StdString} {delim : UInt8} : split s delim = [a, p] ↔
    delim ∉ a ∧ delim ∉ p ∧ (s = a ++ delim :: p ∧ p ≠ [] ∨ s = a ++ delim :: (p ++ [delim])) := by
  rw [split_eq_fields, Delimited.fields_eq_pair_iff]

/-- Splitting is undone by joining, up to one delimiter at the end of the string. -/
theorem split_join (s : StdString) (delim : UInt8) :
    (∀ token ∈ split s delim, delim ∉ token) ∧
    (split s delim = [] ↔ s = []) ∧
    (s ≠ [] → s.getLast? ≠ some delim → [delim].intercalate (split s delim) = s) ∧
    (s.getLast? = some delim → [delim].intercalate (split s delim) ++ [delim] = s) ∧
    ((split s delim).length = 2 ↔
      (∃ a p, s = a ++ [delim] ++ p ∧ delim ∉ a ∧ delim ∉ p ∧ p ≠ []) ∨
      ∃ a p, s = a ++ [delim] ++ p ++ [delim] ∧ delim ∉ a ∧ delim ∉ p) := by
  have join := Delimited.intercalate_fields delim s
  rw [split_eq_fields]
  refine ⟨fun _ => Delimited.not_mem_of_mem_fields, Delimited.fields_eq_nil_iff, ?_, ?_, ?_⟩
  · intro _ no_end
    rwa [if_neg no_end, List.append_nil] at join
  · intro ends
    rwa [if_pos ends] at join
  · rw [List.length_eq_two]
    constructor
    · rintro ⟨a, p, pair⟩
      obtain ⟨free, free', ⟨eq, ne⟩ | eq⟩ := Delimited.fields_eq_pair_iff.mp pair
      · exact .inl ⟨a, p, by simpa using eq, free, free', ne⟩
      · exact .inr ⟨a, p, by simpa using eq, free, free'⟩
    · rintro (⟨a, p, eq, free, free', ne⟩ | ⟨a, p, eq, free, free'⟩)
      · exact ⟨a, p, Delimited.fields_eq_pair_iff.mpr
          ⟨free, free', .inl ⟨by simpa using eq, ne⟩⟩⟩
      · exact ⟨a, p, Delimited.fields_eq_pair_iff.mpr ⟨free, free', .inr (by simpa using eq)⟩⟩

end RadiusEventHandler
