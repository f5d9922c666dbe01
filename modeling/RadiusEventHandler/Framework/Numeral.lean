import Mathlib.Tactic.Common
import Mathlib.Data.List.TakeWhile

/-!
# Numerals at the front of a text

Leading spaces, an optional sign and as many digits as there are, whatever
comes behind them. `Alphabet` says which characters are which; its fields keep
the three kinds apart, so a text is read in one way only (`read_eq_some_iff`).
-/

namespace Numeral

/-- The characters a numeral is written in. -/
structure Alphabet (α : Type*) where
  space : α → Bool
  digit : α → Bool
  value : α → ℕ
  plus : α
  minus : α
  digit_of_space : ∀ c, space c = true → digit c = false
  space_plus : space plus = false
  space_minus : space minus = false
  digit_plus : digit plus = false
  digit_minus : digit minus = false
  plus_ne_minus : plus ≠ minus

inductive Sign where
  | none
  | plus
  | minus
deriving DecidableEq

/-- A numeral read off the front of a text, and what is behind it. -/
structure Reading (α : Type*) where
  sign : Sign
  digits : List α
  rest : List α

variable {α : Type*}

namespace Alphabet

variable (A : Alphabet α)

/-- The value of some digits, the most significant first. -/
def ofDigits (digits : List α) : ℕ := digits.foldl (fun n c => 10 * n + A.value c) 0

def signText : Sign → List α
  | .none => []
  | .plus => [A.plus]
  | .minus => [A.minus]

section Read

variable [DecidableEq α]

def readSign : List α → Sign × List α
  | [] => (.none, [])
  | c :: cs =>
      if c = A.plus then (.plus, cs)
      else if c = A.minus then (.minus, cs)
      else (.none, c :: cs)

/-- The numeral at the front of a text; `none` when it has no digits. -/
def read (s : List α) : Option (Reading α) :=
  let unspaced := A.readSign (s.dropWhile A.space)
  if unspaced.2.takeWhile A.digit = [] then none
  else some ⟨unspaced.1, unspaced.2.takeWhile A.digit, unspaced.2.dropWhile A.digit⟩

end Read

/-- The value of a numeral. -/
def valueOf (r : Reading α) : ℤ :=
  match r.sign with
  | .minus => -(A.ofDigits r.digits : ℤ)
  | _ => (A.ofDigits r.digits : ℤ)

end Alphabet

/-! ## The run of characters of one kind -/

section Run

variable {p : α → Bool} {a r : List α}

/-- A run that cannot be continued is what `takeWhile` takes and `dropWhile` drops. -/
theorem takeWhile_dropWhile_run (run : ∀ c ∈ a, p c = true)
    (stop : ∀ c, r.head? = some c → p c = false) :
    (a ++ r).takeWhile p = a ∧ (a ++ r).dropWhile p = r := by
  rw [List.takeWhile_append_of_pos run, List.dropWhile_append_of_pos run]
  cases r with
  | nil => simp
  | cons c cs => simp [stop c rfl]

theorem head_dropWhile (s : List α) : ∀ c, (s.dropWhile p).head? = some c → p c = false := by
  intro c head
  have stop := List.head?_dropWhile_not p s
  rw [head] at stop
  exact stop

end Run

/-! ## What is read -/

namespace Alphabet

variable {A : Alphabet α}

theorem valueOf_nonpos {r : Reading α} (minus : r.sign = .minus) : A.valueOf r ≤ 0 := by
  simp [valueOf, minus]

theorem valueOf_of_ne_minus {r : Reading α} (sign : r.sign ≠ .minus) :
    A.valueOf r = A.ofDigits r.digits := by
  unfold valueOf
  split
  · next minus => exact absurd minus sign
  · rfl

/-- Neither a sign nor a digit is a space. -/
theorem space_of_head (sign : Sign) {digits : List α} (rest : List α) (ne : digits ≠ [])
    (all : ∀ c ∈ digits, A.digit c = true) :
    ∀ c, (A.signText sign ++ (digits ++ rest)).head? = some c → A.space c = false := by
  intro c head
  cases sign with
  | plus =>
      cases head
      exact A.space_plus
  | minus =>
      cases head
      exact A.space_minus
  | none =>
      obtain ⟨b, bs, rfl⟩ := List.exists_cons_of_ne_nil ne
      cases head
      have digit : A.digit c = true := all c List.mem_cons_self
      by_contra space
      rw [A.digit_of_space c (by simpa using space)] at digit
      cases digit

variable [DecidableEq α]

theorem readSign_text (s : List α) : A.signText (A.readSign s).1 ++ (A.readSign s).2 = s := by
  cases s with
  | nil => rfl
  | cons c cs =>
      by_cases plus : c = A.plus
      · simp [readSign, signText, plus]
      · by_cases minus : c = A.minus
        · simp [readSign, signText, minus, Ne.symm A.plus_ne_minus]
        · simp [readSign, signText, plus, minus]

/-- Digits behind an optional sign are not mistaken for a sign. -/
theorem readSign_signText (sign : Sign) {digits rest : List α} (ne : digits ≠ [])
    (all : ∀ c ∈ digits, A.digit c = true) :
    A.readSign (A.signText sign ++ (digits ++ rest)) = (sign, digits ++ rest) := by
  cases sign with
  | plus => simp [readSign, signText]
  | minus => simp [readSign, signText, Ne.symm A.plus_ne_minus]
  | none =>
      obtain ⟨c, cs, rfl⟩ := List.exists_cons_of_ne_nil ne
      have digit : A.digit c = true := all c List.mem_cons_self
      have not_plus : c ≠ A.plus := fun eq => by simp [eq, A.digit_plus] at digit
      have not_minus : c ≠ A.minus := fun eq => by simp [eq, A.digit_minus] at digit
      simp [readSign, signText, not_plus, not_minus]

/-- The reading of a text is its decomposition into spaces, a sign, all the
digits that follow, and the rest. -/
theorem read_eq_some_iff {s : List α} {sign : Sign} {digits rest : List α} :
    A.read s = some ⟨sign, digits, rest⟩ ↔ ∃ spaces,
      s = spaces ++ (A.signText sign ++ (digits ++ rest)) ∧ (∀ c ∈ spaces, A.space c = true) ∧
      digits ≠ [] ∧ (∀ c ∈ digits, A.digit c = true) ∧
      ∀ c, rest.head? = some c → A.digit c = false := by
  constructor
  · intro read
    have signed := readSign_text (A := A) (s.dropWhile A.space)
    simp only [Alphabet.read] at read
    generalize A.readSign (s.dropWhile A.space) = unspaced at read signed
    split at read
    · cases read
    · next ne =>
        cases read
        refine ⟨s.takeWhile A.space, ?_, ?_, ne, ?_, head_dropWhile _⟩
        · rw [List.takeWhile_append_dropWhile, signed, List.takeWhile_append_dropWhile]
        · intro c mem
          exact List.mem_takeWhile_imp mem
        · intro c mem
          exact List.mem_takeWhile_imp mem
  · rintro ⟨spaces, rfl, all_spaces, ne, all_digits, stop⟩
    have unspaced := (takeWhile_dropWhile_run all_spaces (space_of_head sign rest ne all_digits)).2
    obtain ⟨taken, dropped⟩ := takeWhile_dropWhile_run all_digits stop
    simp only [Alphabet.read, unspaced, readSign_signText sign ne all_digits, taken, dropped,
      if_neg ne]

end Alphabet

end Numeral
