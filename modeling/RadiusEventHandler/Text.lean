import Mathlib.Tactic.Common
import Mathlib.Data.List.TakeWhile
import RadiusEventHandler.Framework.Numeral

/-!
# Strings, and numbers in strings

`std::string` is a sequence of bytes; a `char*` ends at its first NUL, so what
it points to has none. Numbers are read as in the "C" locale.
-/

namespace RadiusEventHandler

/-- `std::string`, a sequence of bytes. -/
abbrev StdString := List UInt8

/-- A string literal. -/
def literal (s : String) : StdString := s.toList.map Char.toUInt8

/-- What a `char*` points to, up to the NUL. -/
structure CString where
  bytes : StdString
  nul_free : 0 ∉ bytes
deriving DecidableEq

/-- `std::string::c_str()`, as read up to its first NUL. -/
def StdString.cStr (s : StdString) : CString where
  bytes := s.takeWhile (· != 0)
  nul_free := fun mem => by simpa using List.mem_takeWhile_imp mem

theorem cStr_eq {s : StdString} (free : 0 ∉ s) : StdString.cStr s = ⟨s, free⟩ := by
  have whole : s.takeWhile (· != 0) = s := by
    rw [List.takeWhile_eq_self_iff]
    intro c mem
    simpa using fun zero : c = 0 => free (zero ▸ mem)
  simp only [StdString.cStr, whole]

/-! ## Numbers -/

/-- `std::isspace` in the "C" locale. -/
def isspace (c : UInt8) : Bool := c.toNat = 32 ∨ 9 ≤ c.toNat ∧ c.toNat ≤ 13

def isdigit (c : UInt8) : Bool := 48 ≤ c.toNat ∧ c.toNat ≤ 57

/-- Numerals of the "C" locale. -/
def cLocale : Numeral.Alphabet UInt8 where
  space := isspace
  digit := isdigit
  value := fun c => c.toNat - 48
  plus := 43
  minus := 45
  digit_of_space := by
    intro c space
    simp only [isspace, isdigit, decide_eq_true_eq, decide_eq_false_iff_not] at space ⊢
    omega
  space_plus := by decide
  space_minus := by decide
  digit_plus := by decide
  digit_minus := by decide
  plus_ne_minus := by decide

/-- What `std::stoi` throws. -/
inductive ConversionError where
  | invalidArgument
  | outOfRange
deriving DecidableEq

def intMin : ℤ := -2147483648

def intMax : ℤ := 2147483647

@[simp] theorem intMin_eq : intMin = -2147483648 := rfl

@[simp] theorem intMax_eq : intMax = 2147483647 := rfl

/-- `std::stoi`: what stands behind the numeral is not looked at. -/
def stoi (s : StdString) : Except ConversionError ℤ :=
  match cLocale.read s with
  | none => .error .invalidArgument
  | some numeral =>
      if cLocale.valueOf numeral < intMin ∨ intMax < cLocale.valueOf numeral then
        .error .outOfRange
      else .ok (cLocale.valueOf numeral)

theorem stoi_eq_ok_iff {s : StdString} {n : ℤ} : stoi s = .ok n ↔
    ∃ numeral, cLocale.read s = some numeral ∧ cLocale.valueOf numeral = n ∧
      intMin ≤ n ∧ n ≤ intMax := by
  unfold stoi
  cases cLocale.read s with
  | none => simp
  | some numeral =>
      simp only [Option.some.injEq, exists_eq_left']
      split
      · next outside =>
          simp only [reduceCtorEq, false_iff]
          rintro ⟨rfl, low, high⟩
          omega
      · next inside =>
          simp only [Except.ok.injEq]
          constructor
          · rintro rfl
            exact ⟨rfl, by omega⟩
          · rintro ⟨rfl, -⟩
            rfl

end RadiusEventHandler
