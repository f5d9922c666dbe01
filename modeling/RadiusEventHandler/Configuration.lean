import Mathlib.Tactic.Common
import RadiusEventHandler.Split
import RadiusEventHandler.ProgramOptions

/-!
# The configuration (`Configuration.hpp`, `Configuration.cpp`)

`Configuration::getConfigFromProgramOptions` and the members it writes. A
refusal is a `return result` or an exception caught at the end of the
function; members written before it keep what was written.

`inet_pton` is a parameter. It gets the characters up to the first NUL, and
on success the binary address.
-/

namespace RadiusEventHandler

/-- `struct sockaddr_in`. -/
structure IpV4Address where
  sinFamily : UInt16
  sinPort : UInt16
  sinAddr : UInt32
deriving DecidableEq

structure Configuration where
  applId : UInt16
  ownPort : UInt16
  ownIpaddr : StdString
  thriftPort : UInt16
  thriftIpAddr : StdString
  ownAddress : IpV4Address
  thriftServerAddress : IpV4Address
deriving DecidableEq

/-- `Configuration::Configuration()`; the two ports are not initialised. -/
def Configuration.new (ownPort thriftPort : UInt16) : Configuration :=
  ⟨0, ownPort, [], thriftPort, [], ⟨0, 0, 0⟩, ⟨0, 0, 0⟩⟩

/-- `SOCK_PORT_HIGH_BOUND`. -/
def sockPortHighBound : ℤ := 1024

@[simp] theorem sockPortHighBound_eq : sockPortHighBound = 1024 := rfl

/-- The delimiter of address and port. -/
def colon : UInt8 := 58

/-- `(unsigned short)i`. -/
def toUnsignedShort (i : ℤ) : UInt16 := UInt16.ofNat (i % 65536).toNat

/-- Why the command line gives no configuration. -/
inductive Refusal where
  | optionError (e : OptionException)
  | helpRequested
  | parameterMissing
  | wrongFormat
  | portError (e : ConversionError)
  | wrongPort
  | wrongAddress (ip : StdString)
deriving DecidableEq

/-! ## The function -/

/-- The checks of either address before `inet_pton`: two tokens, and a number
not below the bound in the second. -/
def addressTokens (address : StdString) : Except Refusal (StdString × ℤ) :=
  match split address colon with
  | [front, back] =>
      match stoi back with
      | .error e => .error (.portError e)
      | .ok port => if port < sockPortHighBound then .error .wrongPort else .ok (front, port)
  | _ => .error .wrongFormat

section Function

variable (inetPton : CString → Option UInt32)

/-- "Get own IP address and port". -/
def readOwnAddress (ownAddress : StdString) (c : Configuration) :
    Option Refusal × Configuration :=
  match addressTokens ownAddress with
  | .error e => (some e, c)
  | .ok (front, ownPort) =>
      match inetPton front.cStr with
      | none => (some (.wrongAddress front), c)
      | some addr =>
          (none, { c with
            ownAddress := { c.ownAddress with sinAddr := addr }
            ownPort := toUnsignedShort ownPort
            ownIpaddr := front })

/-- "Get Thrift IP address and port". -/
def readThriftAddress (thriftAddress : StdString) (c : Configuration) :
    Option Refusal × Configuration :=
  match addressTokens thriftAddress with
  | .error e => (some e, c)
  | .ok (front, thriftPort) =>
      match inetPton front.cStr with
      | none => (some (.wrongAddress front), { c with thriftPort := toUnsignedShort thriftPort })
      | some addr =>
          -- here too the source passes `&(m_ownAddress.sin_addr)` to `inet_pton`
          (none, { c with
            ownAddress := { c.ownAddress with sinAddr := addr }
            thriftPort := toUnsignedShort thriftPort
            thriftIpAddr := front })

def readProgramOptions (args : List CString) (c : Configuration) :
    Option Refusal × Configuration :=
  match Options.new.parse args with
  | .error e => (some (.optionError e), c)
  | .ok options =>
      if options.help.count ≠ 0 then (some .helpRequested, c)
      else if options.id.count = 0 ∨ options.ownAddr.count = 0 ∨ options.thriftAddr.count = 0 then
        (some .parameterMissing, c)
      else
        let c := { c with applId := options.id.value }
        match readOwnAddress inetPton options.ownAddr.value c with
        | (some e, c) => (some e, c)
        | (none, c) => readThriftAddress inetPton options.thriftAddr.value c

/-- `Configuration::getConfigFromProgramOptions`, on the arguments behind the
name of the program. -/
def getConfigFromProgramOptions (args : List CString) (c : Configuration) :
    Bool × Configuration :=
  ((readProgramOptions inetPton args c).1.isNone, (readProgramOptions inetPton args c).2)

end Function

/-! ## Command lines that give all parameters -/

/-- The command line is parsed, asks for no help and gives all mandatory
parameters, with these values. -/
def Gives (args : List CString) (id : UInt16) (own thrift : StdString) : Prop :=
  ∃ options, Options.new.parse args = .ok options ∧ options.help.count = 0 ∧
    options.id.count ≠ 0 ∧ options.ownAddr.count ≠ 0 ∧ options.thriftAddr.count ≠ 0 ∧
    options.id.value = id ∧ options.ownAddr.value = own ∧ options.thriftAddr.value = thrift

/-- Any two texts can be given as the addresses. -/
theorem gives_commandLine (own thrift : CString) :
    Gives (Options.commandLine own thrift) 1 own.bytes thrift.bytes :=
  ⟨_, Options.parse_commandLine own thrift, rfl, by simp, by simp, by simp, rfl, rfl, rfl⟩

theorem Gives.nul_free {args : List CString} {id : UInt16} {own thrift : StdString}
    (given : Gives args id own thrift) : 0 ∉ own ∧ 0 ∉ thrift := by
  obtain ⟨options, parsed, -, -, -, -, -, rfl, rfl⟩ := given
  exact Options.parse_nulFree parsed

/-! ## When the function returns true -/

section Returns

variable {inetPton : CString → Option UInt32} {args : List CString} {id : UInt16}
  {own thrift front : StdString} {port : ℤ} {addr : UInt32} {c : Configuration}

/-- An address passes all checks, with these results. -/
def Takes (inetPton : CString → Option UInt32) (address front : StdString) (port : ℤ)
    (addr : UInt32) : Prop :=
  addressTokens address = .ok (front, port) ∧ inetPton front.cStr = some addr

theorem Takes.own_eq (takes : Takes inetPton own front port addr) :
    readOwnAddress inetPton own c = (none, { c with
      ownAddress := { c.ownAddress with sinAddr := addr }
      ownPort := toUnsignedShort port
      ownIpaddr := front }) := by
  simp only [readOwnAddress, takes.1, takes.2]

theorem Takes.thrift_eq (takes : Takes inetPton thrift front port addr) :
    readThriftAddress inetPton thrift c = (none, { c with
      ownAddress := { c.ownAddress with sinAddr := addr }
      thriftPort := toUnsignedShort port
      thriftIpAddr := front }) := by
  simp only [readThriftAddress, takes.1, takes.2]

theorem takes_of_own (passed : (readOwnAddress inetPton own c).1 = none) :
    ∃ front port addr, Takes inetPton own front port addr := by
  unfold readOwnAddress at passed
  split at passed
  · cases passed
  · next front port tokens =>
      split at passed
      · cases passed
      · next addr resolved => exact ⟨front, port, addr, tokens, resolved⟩

/-- Both blocks refuse the same texts for the same reasons. -/
theorem readThriftAddress_fst (address : StdString) (c c' : Configuration) :
    (readThriftAddress inetPton address c).1 = (readOwnAddress inetPton address c').1 := by
  unfold readThriftAddress readOwnAddress
  cases addressTokens address with
  | error e => rfl
  | ok tokens =>
      dsimp only
      cases inetPton (StdString.cStr tokens.1) <;> rfl

theorem takes_of_thrift (passed : (readThriftAddress inetPton thrift c).1 = none) :
    ∃ front port addr, Takes inetPton thrift front port addr := by
  rw [readThriftAddress_fst thrift c c] at passed
  exact takes_of_own passed

theorem readProgramOptions_eq (given : Gives args id own thrift) :
    readProgramOptions inetPton args c =
      match readOwnAddress inetPton own { c with applId := id } with
      | (some e, c) => (some e, c)
      | (none, c) => readThriftAddress inetPton thrift c := by
  obtain ⟨options, parsed, help, id_given, own_given, thrift_given, rfl, rfl, rfl⟩ := given
  simp [readProgramOptions, parsed, help, id_given, own_given, thrift_given]

/-- What two addresses that pass all checks leave in the members. -/
theorem getConfig_of_takes {front' : StdString} {port' : ℤ} {addr' : UInt32}
    (given : Gives args id own thrift) (own_takes : Takes inetPton own front port addr)
    (thrift_takes : Takes inetPton thrift front' port' addr') :
    getConfigFromProgramOptions inetPton args c = (true, { c with
      applId := id
      ownAddress := { c.ownAddress with sinAddr := addr' }
      ownPort := toUnsignedShort port
      ownIpaddr := front
      thriftPort := toUnsignedShort port'
      thriftIpAddr := front' }) := by
  simp only [getConfigFromProgramOptions, readProgramOptions_eq given, own_takes.own_eq,
    thrift_takes.thrift_eq, Option.isNone_none]

/-- True is returned for addresses that pass all checks only. -/
theorem takes_of_getConfig (given : Gives args id own thrift)
    (ret : (getConfigFromProgramOptions inetPton args c).1 = true) :
    (∃ front port addr, Takes inetPton own front port addr) ∧
      ∃ front port addr, Takes inetPton thrift front port addr := by
  simp only [getConfigFromProgramOptions, readProgramOptions_eq given, Option.isNone_iff_eq_none]
    at ret
  split at ret
  · cases ret
  · next c' passed => exact ⟨takes_of_own (by rw [passed]), takes_of_thrift ret⟩

/-- True is returned for command lines that give all parameters only. -/
theorem gives_of_getConfig (ret : (getConfigFromProgramOptions inetPton args c).1 = true) :
    ∃ id own thrift, Gives args id own thrift := by
  simp only [getConfigFromProgramOptions, readProgramOptions, Option.isNone_iff_eq_none] at ret
  cases parsed : Options.new.parse args with
  | error e =>
      rw [parsed] at ret
      cases ret
  | ok options =>
      simp only [parsed] at ret
      split at ret
      · cases ret
      · next no_help =>
          split at ret
          · cases ret
          · next all_given =>
              simp only [ne_eq, not_not] at no_help
              simp only [not_or] at all_given
              exact ⟨_, _, _, options, parsed, no_help, all_given.1, all_given.2.1,
                all_given.2.2, rfl, rfl, rfl⟩

theorem getConfig_true_iff (given : Gives args id own thrift) :
    (getConfigFromProgramOptions inetPton args c).1 = true ↔
      (∃ front port addr, Takes inetPton own front port addr) ∧
        ∃ front port addr, Takes inetPton thrift front port addr := by
  constructor
  · exact takes_of_getConfig given
  · rintro ⟨⟨_, _, _, own_takes⟩, _, _, _, thrift_takes⟩
    rw [getConfig_of_takes given own_takes thrift_takes]

/-! ## What a refusal leaves -/

theorem readOwnAddress_refused {e : Refusal}
    (refused : (readOwnAddress inetPton own c).1 = some e) :
    (readOwnAddress inetPton own c).2 = c := by
  unfold readOwnAddress at refused ⊢
  split
  · rfl
  · next front port tokens =>
      simp only [tokens] at refused
      split
      · rfl
      · next addr resolved =>
          simp only [resolved] at refused
          cases refused

/-- The Thrift port is stored before the address is checked. -/
theorem readThriftAddress_refused {e : Refusal}
    (refused : (readThriftAddress inetPton thrift c).1 = some e) :
    ∃ port, (readThriftAddress inetPton thrift c).2 = { c with thriftPort := port } := by
  unfold readThriftAddress at refused ⊢
  split
  · exact ⟨c.thriftPort, rfl⟩
  · next front port tokens =>
      simp only [tokens] at refused
      split
      · exact ⟨toUnsignedShort port, rfl⟩
      · next addr resolved =>
          simp only [resolved] at refused
          cases refused

theorem readOwnAddress_thriftServerAddress (inetPton : CString → Option UInt32)
    (own : StdString) (c : Configuration) :
    (readOwnAddress inetPton own c).2.thriftServerAddress = c.thriftServerAddress := by
  cases passed : (readOwnAddress inetPton own c).1 with
  | none =>
      obtain ⟨front, port, addr, takes⟩ := takes_of_own passed
      rw [takes.own_eq]
  | some e => rw [readOwnAddress_refused passed]

theorem readThriftAddress_thriftServerAddress (inetPton : CString → Option UInt32)
    (thrift : StdString) (c : Configuration) :
    (readThriftAddress inetPton thrift c).2.thriftServerAddress = c.thriftServerAddress := by
  cases passed : (readThriftAddress inetPton thrift c).1 with
  | none =>
      obtain ⟨front, port, addr, takes⟩ := takes_of_thrift passed
      rw [takes.thrift_eq]
  | some e =>
      obtain ⟨port, eq⟩ := readThriftAddress_refused passed
      rw [eq]

/-- Whatever the command line, the binary Thrift address is not written. -/
theorem getConfig_thriftServerAddress (inetPton : CString → Option UInt32) (args : List CString)
    (c : Configuration) :
    (getConfigFromProgramOptions inetPton args c).2.thriftServerAddress =
      c.thriftServerAddress := by
  simp only [getConfigFromProgramOptions, readProgramOptions]
  cases Options.new.parse args with
  | error e => rfl
  | ok options =>
      dsimp only
      split
      · rfl
      · split
        · rfl
        · have kept := readOwnAddress_thriftServerAddress inetPton options.ownAddr.value
            { c with applId := options.id.value }
          split
          · next e c' eq =>
              rw [eq] at kept
              exact kept
          · next c' eq =>
              rw [eq] at kept
              exact (readThriftAddress_thriftServerAddress inetPton _ c').trans kept

end Returns

end RadiusEventHandler
