import Mathlib.Tactic.Common
import Mathlib.Data.List.Basic
import RadiusEventHandler.Configuration

/-!
# The address options

Which texts pass as `own-addr` and `thrift-addr`, and what is stored for
them. The checks are wider than the format `A:P`: `getline` drops a delimiter
at the end, `stoi` skips spaces, takes a sign and stops at the first
character it cannot use, and the port is only compared from below before it
is cut to 16 bits.
-/

namespace RadiusEventHandler

open Numeral (Sign)

/-- A dotted IPv4 address that `inet_pton` accepts, a colon, and the digits of
a port number. -/
def WellFormed (inetPton : CString → Option UInt32) (address : StdString) : Prop :=
  ∃ (ip : CString) (digits : StdString), address = ip.bytes ++ [colon] ++ digits ∧
    (inetPton ip).isSome ∧ digits ≠ [] ∧ (∀ c ∈ digits, isdigit c = true) ∧
    1024 ≤ cLocale.ofDigits digits ∧ cLocale.ofDigits digits ≤ 65535

/-- An address option is accepted exactly when it is well formed, and then
stored as written. -/
def Faithful (inetPton : CString → Option UInt32) (address : StdString) (ret : Bool)
    (storedIp : StdString) (storedPort : UInt16) : Prop :=
  (ret = true ↔ WellFormed inetPton address) ∧
  (ret = true → ∃ digits, address = storedIp ++ [colon] ++ digits ∧ digits ≠ [] ∧
    (∀ c ∈ digits, isdigit c = true) ∧ storedPort.toNat = cLocale.ofDigits digits)

/-! ## The texts that pass -/

/-- The parts of a text that passes all checks. -/
structure Spelled (inetPton : CString → Option UInt32) (address : StdString) (ip : CString)
    (spaces : StdString) (sign : Sign) (digits junk tail : StdString) : Prop where
  text : address =
    ip.bytes ++ colon :: (spaces ++ (cLocale.signText sign ++ (digits ++ junk)) ++ tail)
  resolves : (inetPton ip).isSome
  all_spaces : ∀ c ∈ spaces, isspace c = true
  sign_ne : sign ≠ .minus
  digits_ne : digits ≠ []
  all_digits : ∀ c ∈ digits, isdigit c = true
  junk_stops : ∀ c, junk.head? = some c → isdigit c = false
  junk_free : colon ∉ junk
  low : 1024 ≤ cLocale.ofDigits digits
  high : cLocale.ofDigits digits ≤ 2147483647
  tail_eq : tail = [] ∨ tail = [colon]

/-- A text that passes although it is not of the form `A:P`: with spaces or a
plus sign before the digits, other characters behind them, a second colon at
the end, or a number above 65535. -/
def Slips (inetPton : CString → Option UInt32) (address : StdString) : Prop :=
  ∃ ip spaces sign digits junk tail, Spelled inetPton address ip spaces sign digits junk tail ∧
    (spaces ≠ [] ∨ sign ≠ .none ∨ junk ≠ [] ∨ tail ≠ [] ∨ 65535 < cLocale.ofDigits digits)

theorem addressTokens_eq_ok_iff {address front : StdString} {port : ℤ} :
    addressTokens address = .ok (front, port) ↔
      ∃ back, split address colon = [front, back] ∧ stoi back = .ok port ∧ 1024 ≤ port := by
  constructor
  · intro passed
    unfold addressTokens at passed
    split at passed
    · next front' back tokens =>
        split at passed
        · cases passed
        · next n number =>
            split at passed
            · cases passed
            · next high =>
                cases passed
                exact ⟨back, tokens, number, by simpa using high⟩
    · cases passed
  · rintro ⟨back, tokens, number, high⟩
    have not_low : ¬ port < sockPortHighBound := by simpa using high
    simp only [addressTokens, tokens, number, if_neg not_low]

/-- A number that `stoi` reads and the lower bound lets through. -/
theorem stoi_high_iff {s : StdString} {port : ℤ} (high : 1024 ≤ port) : stoi s = .ok port ↔
    ∃ spaces sign digits junk, s = spaces ++ (cLocale.signText sign ++ (digits ++ junk)) ∧
      (∀ c ∈ spaces, isspace c = true) ∧ sign ≠ .minus ∧ digits ≠ [] ∧
      (∀ c ∈ digits, isdigit c = true) ∧ (∀ c, junk.head? = some c → isdigit c = false) ∧
      port = cLocale.ofDigits digits ∧ cLocale.ofDigits digits ≤ 2147483647 := by
  rw [stoi_eq_ok_iff]
  constructor
  · rintro ⟨⟨sign, digits, junk⟩, read, value, -, in_range⟩
    obtain ⟨spaces, text, all_spaces, ne, all_digits, stop⟩ :=
      Numeral.Alphabet.read_eq_some_iff.mp read
    have sign_ne : sign ≠ .minus := by
      intro minus
      have nonpos := cLocale.valueOf_nonpos (r := ⟨sign, digits, junk⟩) minus
      omega
    have eq : port = cLocale.ofDigits digits :=
      value.symm.trans (Numeral.Alphabet.valueOf_of_ne_minus sign_ne)
    simp only [intMax_eq] at in_range
    exact ⟨spaces, sign, digits, junk, text, all_spaces, sign_ne, ne, all_digits, stop, eq,
      by omega⟩
  · rintro ⟨spaces, sign, digits, junk, text, all_spaces, sign_ne, ne, all_digits, stop, rfl, le⟩
    refine ⟨⟨sign, digits, junk⟩, ?_, Numeral.Alphabet.valueOf_of_ne_minus sign_ne, ?_, ?_⟩
    · exact Numeral.Alphabet.read_eq_some_iff.mpr
        ⟨spaces, text, all_spaces, ne, all_digits, stop⟩
    · simp only [intMin_eq]
      omega
    · simp only [intMax_eq]
      omega

section Accepted

variable {inetPton : CString → Option UInt32} {address : StdString}

theorem not_mem_of_all {s : StdString} {p : UInt8 → Bool} {c : UInt8}
    (all : ∀ c ∈ s, p c = true) (no : p c = false) : c ∉ s := by
  intro mem
  rw [all c mem] at no
  cases no

theorem colon_not_mem_signText (sign : Sign) : colon ∉ cLocale.signText sign := by
  cases sign <;> decide

/-- The second token has no colon. -/
theorem Spelled.colon_free {ip : CString} {spaces digits junk tail : StdString} {sign : Sign}
    (spelled : Spelled inetPton address ip spaces sign digits junk tail) :
    colon ∉ spaces ++ (cLocale.signText sign ++ (digits ++ junk)) := by
  simp only [List.mem_append, not_or]
  have spaces_free : colon ∉ spaces := not_mem_of_all spelled.all_spaces (by decide)
  have digits_free : colon ∉ digits := not_mem_of_all spelled.all_digits (by decide)
  exact ⟨spaces_free, colon_not_mem_signText sign, digits_free, spelled.junk_free⟩

/-- The texts that pass, and what they are taken for. -/
theorem takes_iff (free : 0 ∉ address) {front : StdString} {port : ℤ} {addr : UInt32} :
    Takes inetPton address front port addr ↔ ∃ ip spaces sign digits junk tail,
      Spelled inetPton address ip spaces sign digits junk tail ∧ colon ∉ ip.bytes ∧
      front = ip.bytes ∧ port = cLocale.ofDigits digits ∧ inetPton ip = some addr := by
  constructor
  · rintro ⟨tokens, resolved⟩
    obtain ⟨back, pair, number, high⟩ := addressTokens_eq_ok_iff.mp tokens
    obtain ⟨front_free, back_free, cut⟩ := split_eq_pair_iff.mp pair
    obtain ⟨spaces, sign, digits, junk, rfl, all_spaces, sign_ne, ne, all_digits, stop, eq, le⟩ :=
      (stoi_high_iff high).mp number
    obtain ⟨tail, tail_eq, text⟩ : ∃ tail, (tail = [] ∨ tail = [colon]) ∧ address =
        front ++ colon :: (spaces ++ (cLocale.signText sign ++ (digits ++ junk)) ++ tail) := by
      rcases cut with ⟨text, -⟩ | text
      · exact ⟨[], .inl rfl, by rw [text, List.append_nil]⟩
      · exact ⟨[colon], .inr rfl, text⟩
    have nul_free : 0 ∉ front := by
      intro zero
      rw [text] at free
      exact free (List.mem_append_left _ zero)
    rw [cStr_eq nul_free] at resolved
    refine ⟨⟨front, nul_free⟩, spaces, sign, digits, junk, tail, ?_, front_free, rfl, eq, resolved⟩
    exact {
      text := text
      resolves := by rw [resolved]; rfl
      all_spaces := all_spaces
      sign_ne := sign_ne
      digits_ne := ne
      all_digits := all_digits
      junk_stops := stop
      junk_free := fun mem => back_free
        (List.mem_append_right _ (List.mem_append_right _ (List.mem_append_right _ mem)))
      low := by omega
      high := le
      tail_eq := tail_eq }
  · rintro ⟨ip, spaces, sign, digits, junk, tail, spelled, ip_free, rfl, rfl, resolved⟩
    have low : (1024 : ℤ) ≤ cLocale.ofDigits digits := by
      have := spelled.low
      omega
    have number := (stoi_high_iff low).mpr ⟨spaces, sign, digits, junk, rfl, spelled.all_spaces,
      spelled.sign_ne, spelled.digits_ne, spelled.all_digits, spelled.junk_stops, rfl,
      spelled.high⟩
    have pair : split address colon =
        [ip.bytes, spaces ++ (cLocale.signText sign ++ (digits ++ junk))] := by
      refine split_eq_pair_iff.mpr ⟨ip_free, spelled.colon_free, ?_⟩
      rw [spelled.text]
      rcases spelled.tail_eq with rfl | rfl
      · exact .inl ⟨by rw [List.append_nil], by simp [spelled.digits_ne]⟩
      · exact .inr rfl
    refine ⟨addressTokens_eq_ok_iff.mpr ⟨_, pair, number, low⟩, ?_⟩
    rw [cStr_eq ip.nul_free]
    exact resolved

/-! ## Well-formed texts and texts that slip through -/

theorem toUnsignedShort_of_le {n : ℕ} (le : n ≤ 65535) : (toUnsignedShort n).toNat = n := by
  simp only [toUnsignedShort, UInt16.toNat_ofNat']
  omega

theorem spelled_of_wellFormed {ip : CString} {digits : StdString}
    (text : address = ip.bytes ++ [colon] ++ digits) (resolves : (inetPton ip).isSome)
    (ne : digits ≠ []) (all_digits : ∀ c ∈ digits, isdigit c = true)
    (low : 1024 ≤ cLocale.ofDigits digits) (high : cLocale.ofDigits digits ≤ 65535) :
    Spelled inetPton address ip [] .none digits [] [] where
  text := by simp [text, Numeral.Alphabet.signText]
  resolves := resolves
  all_spaces := fun _ mem => absurd mem List.not_mem_nil
  sign_ne := by decide
  digits_ne := ne
  all_digits := all_digits
  junk_stops := fun _ head => by cases head
  junk_free := List.not_mem_nil
  low := low
  high := by omega
  tail_eq := .inl rfl

section Dotted

variable (dotted : ∀ ip addr, inetPton ip = some addr → ∀ c ∈ ip.bytes, isdigit c = true ∨ c = 46)

include dotted

theorem colon_free_of_dotted {ip : CString} (resolves : (inetPton ip).isSome) :
    colon ∉ ip.bytes := by
  intro mem
  obtain ⟨addr, resolved⟩ := Option.isSome_iff_exists.mp resolves
  rcases dotted ip addr resolved colon mem with digit | dot
  · revert digit
    decide
  · revert dot
    decide

/-- A text does not pass in both ways: cut at its first colon, it has digits
only behind it or not. -/
theorem not_slips_of_wellFormed (good : WellFormed inetPton address) :
    ¬ Slips inetPton address := by
  obtain ⟨ip, digits, text, resolves, -, all_digits, -, le⟩ := good
  rintro ⟨ip', spaces, sign, digits', junk, tail, spelled, odd⟩
  have not_digit : colon ∉ digits := not_mem_of_all all_digits (by decide)
  have cut := spelled.text
  rw [text, List.append_assoc, List.singleton_append,
    List.append_cons_inj_of_notMem (colon_free_of_dotted dotted resolves) not_digit] at cut
  obtain ⟨-, -, rfl⟩ := cut
  -- the digits are all there is behind the colon, and nothing else is a digit
  have no_spaces : spaces = [] := by
    by_contra ne
    obtain ⟨c, cs, rfl⟩ := List.exists_cons_of_ne_nil ne
    have space := spelled.all_spaces c List.mem_cons_self
    apply not_mem_of_all all_digits (cLocale.digit_of_space c space)
    simp
  have no_sign : sign = .none := by
    cases sign with
    | none => rfl
    | plus =>
        have no_digit : isdigit cLocale.plus = false := cLocale.digit_plus
        exfalso
        apply not_mem_of_all all_digits no_digit
        simp [Numeral.Alphabet.signText]
    | minus => exact absurd rfl spelled.sign_ne
  have no_junk : junk = [] := by
    by_contra ne
    obtain ⟨c, cs, rfl⟩ := List.exists_cons_of_ne_nil ne
    apply not_mem_of_all all_digits (spelled.junk_stops c rfl)
    simp
  have no_tail : tail = [] := by
    rcases spelled.tail_eq with none | rfl
    · exact none
    · exfalso
      apply not_digit
      simp
  subst no_spaces no_sign no_junk no_tail
  simp only [Numeral.Alphabet.signText, List.nil_append, List.append_nil, ne_eq,
    not_true_eq_false, false_or] at le odd
  omega

theorem takes_of_wellFormed (free : 0 ∉ address) (good : WellFormed inetPton address) :
    ∃ ip digits addr, Takes inetPton address ip (cLocale.ofDigits digits : ℕ) addr ∧
      address = ip ++ [colon] ++ digits ∧ digits ≠ [] ∧ (∀ c ∈ digits, isdigit c = true) ∧
      cLocale.ofDigits digits ≤ 65535 := by
  obtain ⟨ip, digits, text, resolves, ne, all_digits, low, high⟩ := good
  obtain ⟨addr, resolved⟩ := Option.isSome_iff_exists.mp resolves
  have spelled := spelled_of_wellFormed text resolves ne all_digits low high
  refine ⟨ip.bytes, digits, addr, (takes_iff free).mpr ?_, text, ne, all_digits, high⟩
  exact ⟨ip, [], .none, digits, [], [], spelled, colon_free_of_dotted dotted resolves, rfl, rfl,
    resolved⟩

/-- What passes is well formed or slips through. -/
theorem accepted_iff (free : 0 ∉ address) :
    (∃ front port addr, Takes inetPton address front port addr) ↔
      WellFormed inetPton address ∨ Slips inetPton address := by
  constructor
  · rintro ⟨front, port, addr, takes⟩
    obtain ⟨ip, spaces, sign, digits, junk, tail, spelled, -⟩ := (takes_iff free).mp takes
    by_cases odd : spaces ≠ [] ∨ sign ≠ .none ∨ junk ≠ [] ∨ tail ≠ [] ∨
        65535 < cLocale.ofDigits digits
    · exact .inr ⟨ip, spaces, sign, digits, junk, tail, spelled, odd⟩
    · simp only [ne_eq, not_or, not_not, Nat.not_lt] at odd
      obtain ⟨rfl, rfl, rfl, rfl, le⟩ := odd
      refine .inl ⟨ip, digits, ?_, spelled.resolves, spelled.digits_ne, spelled.all_digits,
        spelled.low, le⟩
      simpa [Numeral.Alphabet.signText] using spelled.text
  · rintro (good | ⟨ip, spaces, sign, digits, junk, tail, spelled, -⟩)
    · obtain ⟨ip, digits, addr, takes, -⟩ := takes_of_wellFormed dotted free good
      exact ⟨_, _, _, takes⟩
    · obtain ⟨addr, resolved⟩ := Option.isSome_iff_exists.mp spelled.resolves
      refine ⟨ip.bytes, cLocale.ofDigits digits, addr, (takes_iff free).mpr ?_⟩
      exact ⟨ip, spaces, sign, digits, junk, tail, spelled,
        colon_free_of_dotted dotted spelled.resolves, rfl, rfl, resolved⟩

/-- A function that returns true when the text passes and then stores what it
was taken for is faithful to the texts that do not slip through. -/
theorem faithful_iff (free : 0 ∉ address) {ret : Bool} {storedIp : StdString}
    {storedPort : UInt16}
    (accepted : ret = true ↔ ∃ front port addr, Takes inetPton address front port addr)
    (stored : ∀ {front port addr}, Takes inetPton address front port addr →
      storedIp = front ∧ storedPort = toUnsignedShort port) :
    Faithful inetPton address ret storedIp storedPort ↔ ¬ Slips inetPton address := by
  rw [accepted_iff dotted free] at accepted
  constructor
  · intro faithful slips
    have good := faithful.1.mp (accepted.mpr (.inr slips))
    exact not_slips_of_wellFormed dotted good slips
  · intro no_slip
    have ret_iff : ret = true ↔ WellFormed inetPton address :=
      accepted.trans (or_iff_left no_slip)
    refine ⟨ret_iff, fun ret_true => ?_⟩
    obtain ⟨ip, digits, addr, takes, text, ne, all_digits, le⟩ :=
      takes_of_wellFormed dotted free (ret_iff.mp ret_true)
    obtain ⟨rfl, rfl⟩ := stored takes
    exact ⟨digits, text, ne, all_digits, toUnsignedShort_of_le le⟩

end Dotted

end Accepted

/-! ## The options of the program -/

/-- Either address option is accepted exactly when well formed and stored
faithfully, the other being well formed, unless its text slips through. -/
theorem address_options_faithful_iff (inetPton : CString → Option UInt32)
    (dotted : ∀ ip addr, inetPton ip = some addr → ∀ c ∈ ip.bytes, isdigit c = true ∨ c = 46)
    (c : Configuration) {args : List CString} {id : UInt16} {own thrift : StdString}
    (given : Gives args id own thrift) :
    (WellFormed inetPton thrift →
      (Faithful inetPton own (getConfigFromProgramOptions inetPton args c).1
          (getConfigFromProgramOptions inetPton args c).2.ownIpaddr
          (getConfigFromProgramOptions inetPton args c).2.ownPort ↔ ¬ Slips inetPton own)) ∧
    (WellFormed inetPton own →
      (Faithful inetPton thrift (getConfigFromProgramOptions inetPton args c).1
          (getConfigFromProgramOptions inetPton args c).2.thriftIpAddr
          (getConfigFromProgramOptions inetPton args c).2.thriftPort ↔
        ¬ Slips inetPton thrift)) := by
  obtain ⟨own_free, thrift_free⟩ := given.nul_free
  constructor
  · intro good
    obtain ⟨ip, digits, addr, thrift_takes, -⟩ := takes_of_wellFormed dotted thrift_free good
    refine faithful_iff dotted own_free ?_ ?_
    · rw [getConfig_true_iff given]
      exact and_iff_left ⟨_, _, _, thrift_takes⟩
    · intro front port addr own_takes
      rw [getConfig_of_takes given own_takes thrift_takes]
      exact ⟨rfl, rfl⟩
  · intro good
    obtain ⟨ip, digits, addr, own_takes, -⟩ := takes_of_wellFormed dotted own_free good
    refine faithful_iff dotted thrift_free ?_ ?_
    · rw [getConfig_true_iff given]
      exact and_iff_right ⟨_, _, _, own_takes⟩
    · intro front port addr thrift_takes
      rw [getConfig_of_takes given own_takes thrift_takes]
      exact ⟨rfl, rfl⟩

/-! ### With `inet_pton` for dotted addresses -/

/-- One to three digits without a leading zero, with a value up to 255. -/
def isOctet (part : StdString) : Bool :=
  part ≠ [] ∧ part.length ≤ 3 ∧ part.all isdigit ∧ cLocale.ofDigits part ≤ 255 ∧
    (part.head? = some 48 → part = [48])

/-- `inet_pton` for `AF_INET`: `ddd.ddd.ddd.ddd`, the four bytes as one number. -/
def dottedQuad (ip : CString) : Option UInt32 :=
  let parts := ip.bytes.splitOn 46
  if parts.length = 4 ∧ parts.all isOctet then
    some (UInt32.ofNat (parts.foldl (fun addr part => 256 * addr + cLocale.ofDigits part) 0))
  else none

theorem dottedQuad_dotted (ip : CString) (addr : UInt32) (accepted : dottedQuad ip = some addr) :
    ∀ c ∈ ip.bytes, isdigit c = true ∨ c = 46 := by
  intro c mem
  simp only [dottedQuad] at accepted
  split at accepted
  · next octets =>
      have joined : [46].intercalate (ip.bytes.splitOn 46) = ip.bytes :=
        List.intercalate_splitOn 46
      rw [← joined] at mem
      rcases Delimited.mem_intercalate mem with dot | ⟨part, part_mem, c_mem⟩
      · exact .inr dot
      · have octet := List.all_eq_true.mp octets.2 part part_mem
        simp only [isOctet, decide_eq_true_eq, List.all_eq_true] at octet
        exact .inl (octet.2.2.1 c c_mem)
  · cases accepted

def ownText : CString := (literal "127.0.0.1:30001").cStr

def thriftText : CString := (literal "10.10.10.10:7777").cStr

theorem wellFormed_ownText : WellFormed dottedQuad ownText.bytes :=
  ⟨(literal "127.0.0.1").cStr, literal "30001", by decide +kernel, by decide +kernel,
    by decide +kernel, by decide +kernel, by decide +kernel, by decide +kernel⟩

theorem wellFormed_thriftText : WellFormed dottedQuad thriftText.bytes :=
  ⟨(literal "10.10.10.10").cStr, literal "7777", by decide +kernel, by decide +kernel,
    by decide +kernel, by decide +kernel, by decide +kernel, by decide +kernel⟩

/-- The command line of `ownText` and `thriftText`. -/
def plainArgs : List CString := Options.commandLine ownText thriftText

theorem address_options_faithful_plain :
    (Faithful dottedQuad ownText.bytes
        (getConfigFromProgramOptions dottedQuad plainArgs (.new 0 0)).1
        (getConfigFromProgramOptions dottedQuad plainArgs (.new 0 0)).2.ownIpaddr
        (getConfigFromProgramOptions dottedQuad plainArgs (.new 0 0)).2.ownPort ↔
      ¬ Slips dottedQuad ownText.bytes) ∧
    (Faithful dottedQuad thriftText.bytes
        (getConfigFromProgramOptions dottedQuad plainArgs (.new 0 0)).1
        (getConfigFromProgramOptions dottedQuad plainArgs (.new 0 0)).2.thriftIpAddr
        (getConfigFromProgramOptions dottedQuad plainArgs (.new 0 0)).2.thriftPort ↔
      ¬ Slips dottedQuad thriftText.bytes) := by
  obtain ⟨own, thrift⟩ := address_options_faithful_iff dottedQuad dottedQuad_dotted (.new 0 0)
    (gives_commandLine ownText thriftText)
  exact ⟨own wellFormed_thriftText, thrift wellFormed_ownText⟩

/-- A port number above 65535. -/
def highText : CString := (literal "127.0.0.1:65616").cStr

def highArgs : List CString := Options.commandLine highText thriftText

/-- Port 65616 is accepted, and port 80 is stored. -/
theorem not_faithful_highText : WellFormed dottedQuad thriftText.bytes ∧
    (getConfigFromProgramOptions dottedQuad highArgs (.new 0 0)).1 = true ∧
    (getConfigFromProgramOptions dottedQuad highArgs (.new 0 0)).2.ownPort = 80 ∧
    ¬ Faithful dottedQuad highText.bytes
      (getConfigFromProgramOptions dottedQuad highArgs (.new 0 0)).1
      (getConfigFromProgramOptions dottedQuad highArgs (.new 0 0)).2.ownIpaddr
      (getConfigFromProgramOptions dottedQuad highArgs (.new 0 0)).2.ownPort := by
  have ret : (getConfigFromProgramOptions dottedQuad highArgs (.new 0 0)).1 = true := by
    decide +kernel
  have spelled : Spelled dottedQuad highText.bytes (literal "127.0.0.1").cStr [] .none
      (literal "65616") [] [] := by
    constructor <;> decide +kernel
  refine ⟨wellFormed_thriftText, ret, by decide +kernel, fun faithful => ?_⟩
  refine not_slips_of_wellFormed dottedQuad_dotted (faithful.1.mp ret) ?_
  exact ⟨_, _, _, _, _, _, spelled, by decide +kernel⟩

/-! ## The binary addresses -/

/-- The address option names this IPv4 address before its first colon. -/
def Names (inetPton : CString → Option UInt32) (address : StdString) (addr : UInt32) : Prop :=
  ∃ ip port, address = ip ++ [colon] ++ port ∧ colon ∉ ip ∧ inetPton ip.cStr = some addr

/-- Either binary address is the one named and agrees with the string beside it. -/
structure Separate (inetPton : CString → Option UInt32) (c : Configuration) (a b : UInt32) :
    Prop where
  own : c.ownAddress.sinAddr = a
  own_agrees : inetPton c.ownIpaddr.cStr = some c.ownAddress.sinAddr
  thrift : c.thriftServerAddress.sinAddr = b
  thrift_agrees : inetPton c.thriftIpAddr.cStr = some c.thriftServerAddress.sinAddr

section Binary

variable {inetPton : CString → Option UInt32} {address front : StdString} {port : ℤ}
  {addr a : UInt32}

/-- What passes resolves to the address named. -/
theorem Takes.addr_eq (takes : Takes inetPton address front port addr)
    (names : Names inetPton address a) : addr = a := by
  obtain ⟨back, pair, -⟩ := addressTokens_eq_ok_iff.mp takes.1
  obtain ⟨ip, port', text, free, resolved⟩ := names
  rw [split_eq_fields, text, List.append_assoc, List.singleton_append,
    Delimited.fields_append free] at pair
  obtain ⟨rfl, -⟩ := List.cons.inj pair
  rw [takes.2] at resolved
  exact Option.some.inj resolved

theorem Takes.names (takes : Takes inetPton address front port addr) :
    Names inetPton address addr := by
  obtain ⟨back, pair, -⟩ := addressTokens_eq_ok_iff.mp takes.1
  obtain ⟨free, -, ⟨text, -⟩ | text⟩ := split_eq_pair_iff.mp pair
  · exact ⟨front, back, by rw [text, List.append_assoc, List.singleton_append], free, takes.2⟩
  · exact ⟨front, back ++ [colon], by rw [text, List.append_assoc, List.singleton_append], free,
      takes.2⟩

variable {args : List CString} {id : UInt16} {own thrift : StdString} {b : UInt32}

/-- A command line on which true is returned names two addresses. -/
theorem names_of_getConfig {c : Configuration}
    (ret : (getConfigFromProgramOptions inetPton args c).1 = true) :
    ∃ id own thrift a b, Gives args id own thrift ∧ Names inetPton own a ∧
      Names inetPton thrift b := by
  obtain ⟨id, own, thrift, given⟩ := gives_of_getConfig ret
  obtain ⟨⟨_, _, a, own_takes⟩, _, _, b, thrift_takes⟩ := takes_of_getConfig given ret
  exact ⟨id, own, thrift, a, b, given, own_takes.names, thrift_takes.names⟩

/-- After a successful call `m_ownAddress` holds the Thrift address. -/
theorem getConfig_addresses {c : Configuration} (given : Gives args id own thrift)
    (own_names : Names inetPton own a) (thrift_names : Names inetPton thrift b)
    (ret : (getConfigFromProgramOptions inetPton args c).1 = true) :
    let c' := (getConfigFromProgramOptions inetPton args c).2
    c'.ownAddress = { c.ownAddress with sinAddr := b } ∧
      inetPton c'.ownIpaddr.cStr = some a ∧ inetPton c'.thriftIpAddr.cStr = some b := by
  obtain ⟨⟨front, port, addr, own_takes⟩, front', port', addr', thrift_takes⟩ :=
    takes_of_getConfig given ret
  obtain rfl := own_takes.addr_eq own_names
  obtain rfl := thrift_takes.addr_eq thrift_names
  rw [getConfig_of_takes given own_takes thrift_takes]
  exact ⟨rfl, own_takes.2, thrift_takes.2⟩

end Binary

/-- The two addresses keep apart only when both are 0.0.0.0, and a change of
the Thrift address alone changes the own address. -/
theorem addresses_separate_iff (inetPton : CString → Option UInt32) (ownPort thriftPort : UInt16)
    {args : List CString} {id : UInt16} {own thrift : StdString} {a b : UInt32}
    (given : Gives args id own thrift) (own_names : Names inetPton own a)
    (thrift_names : Names inetPton thrift b)
    (ret : (getConfigFromProgramOptions inetPton args (.new ownPort thriftPort)).1 = true) :
    (Separate inetPton (getConfigFromProgramOptions inetPton args (.new ownPort thriftPort)).2 a b ↔
      a = 0 ∧ b = 0) ∧
    ∀ (ownPort' thriftPort' : UInt16) (args' : List CString) (thrift' : StdString) (b' : UInt32),
      Gives args' id own thrift' → Names inetPton thrift' b' →
      (getConfigFromProgramOptions inetPton args' (.new ownPort' thriftPort')).1 = true →
      ((getConfigFromProgramOptions inetPton args' (.new ownPort' thriftPort')).2.ownAddress =
        (getConfigFromProgramOptions inetPton args (.new ownPort thriftPort)).2.ownAddress ↔
          b' = b) := by
  obtain ⟨own_eq, own_ip, thrift_ip⟩ := getConfig_addresses given own_names thrift_names ret
  have thrift_eq := getConfig_thriftServerAddress inetPton args (.new ownPort thriftPort)
  constructor
  · constructor
    · intro separate
      have own_addr := separate.own
      have thrift_addr := separate.thrift
      rw [own_eq] at own_addr
      rw [thrift_eq] at thrift_addr
      exact ⟨own_addr.symm.trans thrift_addr.symm, thrift_addr.symm⟩
    · rintro ⟨rfl, rfl⟩
      exact {
        own := by rw [own_eq]
        own_agrees := by rw [own_eq, own_ip]
        thrift := by rw [thrift_eq]; rfl
        thrift_agrees := by rw [thrift_eq, thrift_ip]; rfl }
  · intro ownPort' thriftPort' args' thrift' b' given' thrift_names' ret'
    obtain ⟨own_eq', -⟩ := getConfig_addresses given' own_names thrift_names' ret'
    rw [own_eq, own_eq']
    simp [Configuration.new]

theorem names_ownText : Names dottedQuad ownText.bytes 2130706433 :=
  ⟨literal "127.0.0.1", literal "30001", by decide +kernel, by decide +kernel, by decide +kernel⟩

theorem names_thriftText : Names dottedQuad thriftText.bytes 168430090 :=
  ⟨literal "10.10.10.10", literal "7777", by decide +kernel, by decide +kernel,
    by decide +kernel⟩

/-- The command line of `plainArgs`, but for another Thrift address. -/
def movedArgs : List CString := Options.commandLine ownText (literal "10.10.10.11:7777").cStr

theorem addresses_separate_plain :
    (Separate dottedQuad (getConfigFromProgramOptions dottedQuad plainArgs (.new 0 0)).2
      2130706433 168430090 ↔ (2130706433 : UInt32) = 0 ∧ (168430090 : UInt32) = 0) ∧
    ((getConfigFromProgramOptions dottedQuad movedArgs (.new 0 0)).2.ownAddress =
      (getConfigFromProgramOptions dottedQuad plainArgs (.new 0 0)).2.ownAddress ↔
        (168430091 : UInt32) = 168430090) := by
  have names : Names dottedQuad (literal "10.10.10.11:7777").cStr.bytes 168430091 :=
    ⟨literal "10.10.10.11", literal "7777", by decide +kernel, by decide +kernel,
      by decide +kernel⟩
  obtain ⟨separate, moved⟩ := addresses_separate_iff dottedQuad 0 0
    (gives_commandLine ownText thriftText) names_ownText names_thriftText (by decide +kernel)
  exact ⟨separate, moved 0 0 movedArgs _ _ (gives_commandLine ownText _) names
    (by decide +kernel)⟩

/-- With 127.0.0.1 as own and 10.10.10.10 as Thrift address, the own binary
address is 10.10.10.10 and the binary Thrift address is still zero. -/
theorem not_separate_plain :
    (getConfigFromProgramOptions dottedQuad plainArgs (.new 0 0)).1 = true ∧
    (getConfigFromProgramOptions dottedQuad plainArgs (.new 0 0)).2.ownAddress.sinAddr =
      168430090 ∧
    (getConfigFromProgramOptions dottedQuad plainArgs (.new 0 0)).2.thriftServerAddress.sinAddr =
      0 ∧
    ¬ Separate dottedQuad (getConfigFromProgramOptions dottedQuad plainArgs (.new 0 0)).2
      2130706433 168430090 := by
  have own : (getConfigFromProgramOptions dottedQuad plainArgs (.new 0 0)).2.ownAddress.sinAddr =
      168430090 := by
    decide +kernel
  refine ⟨by decide +kernel, own, by decide +kernel, fun separate => ?_⟩
  have same := own.symm.trans separate.own
  revert same
  decide

end RadiusEventHandler
