import Mathlib.Tactic.Common
import RadiusEventHandler.Text

/-!
# Program options (`cxxopts.hpp`)

The options of the program and `cxxopts::Options::parse`. No option of the
program has a default or an implicit value and there are no positional
options, so an argument that is no flag is stepped over and what follows a
`--` is not looked at.
-/

namespace RadiusEventHandler

/-- What `cxxopts::Options::parse` throws. -/
inductive OptionException where
  | optionNotExists (option : StdString)
  | missingArgument (option : StdString)
  | optionRequiresArgument (option : StdString)
  | optionNotHasArgument (option arg : StdString)
  | argumentIncorrectType (arg : StdString)
deriving DecidableEq

/-- `cxxopts::OptionDetails`: the value stored last and the number of times
the option was parsed. -/
structure OptionDetails (α : Type) where
  value : α
  count : ℕ

/-- The options added in `Configuration::getConfigFromProgramOptions`. -/
structure Options where
  help : OptionDetails Bool
  id : OptionDetails UInt16
  ownAddr : OptionDetails StdString
  thriftAddr : OptionDetails StdString

inductive OptionKey where
  | help
  | id
  | ownAddr
  | thriftAddr
deriving DecidableEq

/-- `value_has_arg`, false for `bool` only. -/
def OptionKey.hasArg : OptionKey → Bool
  | .help => false
  | _ => true

/-- `m_options.find(name)`. -/
def findOption (name : StdString) : Option OptionKey :=
  if name = literal "h" ∨ name = literal "help" then some .help
  else if name = literal "id" then some .id
  else if name = literal "own-addr" then some .ownAddr
  else if name = literal "thrift-addr" then some .thriftAddr
  else none

/-- `parse_value` for `uint16_t`: `is >> value`, and nothing may be left. A
minus sign negates modulo 2^16. -/
def parseUInt16 (text : StdString) : Option UInt16 :=
  match cLocale.read text with
  | some ⟨sign, digits, []⟩ =>
      if cLocale.ofDigits digits < 65536 then
        let value := UInt16.ofNat (cLocale.ofDigits digits)
        some (if sign = .minus then -value else value)
      else none
  | _ => none

/-! ## Arguments that are flags -/

def isalnum (c : UInt8) : Bool :=
  isdigit c ∨ 65 ≤ c.toNat ∧ c.toNat ≤ 90 ∨ 97 ≤ c.toNat ∧ c.toNat ≤ 122

/-- `[-_[:alnum:]]`. -/
def isNameChar (c : UInt8) : Bool := isalnum c ∨ c = 45 ∨ c = 95

/-- `.` in a regular expression: anything but a line terminator. -/
def isAnyChar (c : UInt8) : Bool := c ≠ 10 ∧ c ≠ 13

/-- The groups of `option_matcher`. -/
inductive Flag where
  | short (cluster : StdString)
  | long (name value : StdString)
deriving DecidableEq

/-- `([[:alnum:]][-_[:alnum:]]+)(=(.*))?`. -/
def matchLong (s : StdString) : Option Flag :=
  let name := s.takeWhile isNameChar
  if name.length < 2 ∨ name.head?.any isalnum = false then none
  else
    match s.dropWhile isNameChar with
    | [] => some (.long name [])
    | c :: value => if c = 61 ∧ value.all isAnyChar then some (.long name value) else none

/-- `std::regex_match` with `option_matcher`,
`--([[:alnum:]][-_[:alnum:]]+)(=(.*))?|-([[:alnum:]]+)`. -/
def optionMatcher : StdString → Option Flag
  | [] => none
  | c :: cs =>
      if c ≠ 45 then none
      else if cs.head? = some 45 then matchLong cs.tail
      else if cs ≠ [] ∧ cs.all isalnum then some (.short cs)
      else none

/-! ## Parsing -/

namespace Options

/-- `cxxopts::Options options(...)` with the options added. -/
def new : Options := ⟨⟨false, 0⟩, ⟨0, 0⟩, ⟨[], 0⟩, ⟨[], 0⟩⟩

/-- `Options::parse_option`. -/
def parseOption (o : Options) (key : OptionKey) (arg : StdString) :
    Except OptionException Options :=
  match key with
  | .help => .ok { o with help := ⟨true, o.help.count + 1⟩ }
  | .id =>
      match parseUInt16 arg with
      | some value => .ok { o with id := ⟨value, o.id.count + 1⟩ }
      | none => .error (.argumentIncorrectType arg)
  | .ownAddr => .ok { o with ownAddr := ⟨arg, o.ownAddr.count + 1⟩ }
  | .thriftAddr => .ok { o with thriftAddr := ⟨arg, o.thriftAddr.count + 1⟩ }

/-- `Options::checked_parse_arg`. With the options comes the number of
arguments by which `current` was advanced. -/
def checkedParseArg (o : Options) (key : OptionKey) (name : StdString) (next : Option CString) :
    Except OptionException (Options × ℕ) :=
  match next with
  | none => .error (.missingArgument name)
  | some arg => (o.parseOption key arg.bytes).map fun o => (o, 1)

/-- The loop over the characters of a cluster of short options. -/
def parseCluster (o : Options) (next : Option CString) :
    StdString → Except OptionException (Options × ℕ)
  | [] => .ok (o, 0)
  | c :: cs =>
      match findOption [c] with
      | none => .error (.optionNotExists [c])
      | some key =>
          if key.hasArg = false then
            match o.parseOption key [] with
            | .ok o => parseCluster o next cs
            | .error e => .error e
          else if cs = [] then o.checkedParseArg key [c] next
          else .error (.optionRequiresArgument [c])

/-- A long option, with what was given behind its equals sign. -/
def parseLong (o : Options) (next : Option CString) (name value : StdString) :
    Except OptionException (Options × ℕ) :=
  match findOption name with
  | none => .error (.optionNotExists name)
  | some key =>
      if value ≠ [] then
        if key.hasArg = false then .error (.optionNotHasArgument name value)
        else (o.parseOption key value).map fun o => (o, 0)
      else if key.hasArg then o.checkedParseArg key name next
      else (o.parseOption key []).map fun o => (o, 0)

/-- One iteration of the loop of `Options::parse`. -/
def parseArgument (o : Options) (arg : CString) (next : Option CString) :
    Except OptionException (Options × ℕ) :=
  match optionMatcher arg.bytes with
  | none => .ok (o, 0)
  | some (.short cluster) => o.parseCluster next cluster
  | some (.long name value) => o.parseLong next name value

/-- `Options::parse`, on the arguments behind the name of the program. -/
def parse (o : Options) (args : List CString) : Except OptionException Options :=
  match args with
  | [] => .ok o
  | arg :: rest =>
      if arg.bytes = literal "--" then .ok o
      else
        match o.parseArgument arg rest.head? with
        | .error e => .error e
        | .ok (o, advance) => parse o (rest.drop advance)
termination_by args.length
decreasing_by
  simp only [List.length_drop, List.length_cons]
  omega

end Options

/-! ## What parsing keeps

Everything is stored by `parseOption`, with a text that is an argument, a part
of one or empty. -/

/-- The value behind an equals sign is a part of the argument. -/
theorem mem_of_matchLong {s name value : StdString} (long : matchLong s = some (.long name value))
    {c : UInt8} (mem : c ∈ value) : c ∈ s := by
  unfold matchLong at long
  dsimp only at long
  split at long
  · cases long
  · split at long
    · cases long
      cases mem
    · next e given eq =>
        split at long
        · cases long
          apply (List.dropWhile_sublist isNameChar).subset
          rw [eq]
          exact List.mem_cons_of_mem e mem
        · cases long

theorem mem_of_optionMatcher {s name value : StdString}
    (long : optionMatcher s = some (.long name value)) {c : UInt8} (mem : c ∈ value) : c ∈ s := by
  cases s with
  | nil => cases long
  | cons d ds =>
      simp only [optionMatcher] at long
      split at long
      · cases long
      · split at long
        · exact List.mem_cons_of_mem d (List.mem_of_mem_tail (mem_of_matchLong long mem))
        · split at long <;> cases long

namespace Options

theorem stored_of_map {o o' : Options} {key : OptionKey} {arg : StdString} {advance k : ℕ}
    (parsed : (o.parseOption key arg).map (fun o => (o, advance)) = .ok (o', k)) :
    o.parseOption key arg = .ok o' := by
  cases stored : o.parseOption key arg with
  | error e =>
      rw [stored] at parsed
      cases parsed
  | ok o₁ =>
      rw [stored] at parsed
      cases parsed
      rfl

section Preserves

variable {P : Options → Prop}
  (keeps : ∀ {o o' key arg}, P o → 0 ∉ arg → parseOption o key arg = .ok o' → P o')

include keeps

theorem checkedParseArg_preserves {o o' : Options} {key : OptionKey} {name : StdString}
    {next : Option CString} {k : ℕ} (before : P o)
    (parsed : o.checkedParseArg key name next = .ok (o', k)) : P o' := by
  cases next with
  | none => cases parsed
  | some arg => exact keeps before arg.nul_free (stored_of_map parsed)

theorem parseCluster_preserves {o o' : Options} {next : Option CString} {cluster : StdString}
    {k : ℕ} (before : P o) (parsed : o.parseCluster next cluster = .ok (o', k)) : P o' := by
  induction cluster generalizing o with
  | nil =>
      cases parsed
      exact before
  | cons c cs ih =>
      simp only [parseCluster] at parsed
      split at parsed
      · cases parsed
      · next key _ =>
          split at parsed
          · split at parsed
            · next o₁ stored => exact ih (keeps before List.not_mem_nil stored) parsed
            · cases parsed
          · split at parsed
            · exact checkedParseArg_preserves keeps before parsed
            · cases parsed

theorem parseLong_preserves {o o' : Options} {next : Option CString} {name value : StdString}
    {k : ℕ} (before : P o) (free : 0 ∉ value)
    (parsed : o.parseLong next name value = .ok (o', k)) : P o' := by
  unfold parseLong at parsed
  split at parsed
  · cases parsed
  · split at parsed
    · split at parsed
      · cases parsed
      · exact keeps before free (stored_of_map parsed)
    · split at parsed
      · exact checkedParseArg_preserves keeps before parsed
      · exact keeps before List.not_mem_nil (stored_of_map parsed)

theorem parseArgument_preserves {o o' : Options} {arg : CString} {next : Option CString} {k : ℕ}
    (before : P o) (parsed : o.parseArgument arg next = .ok (o', k)) : P o' := by
  unfold parseArgument at parsed
  split at parsed
  · cases parsed
    exact before
  · exact parseCluster_preserves keeps before parsed
  · next name value long =>
      have free : 0 ∉ value := fun zero => arg.nul_free (mem_of_optionMatcher long zero)
      exact parseLong_preserves keeps before free parsed

/-- What every stored option keeps, parsing keeps. -/
theorem parse_preserves {o o' : Options} {args : List CString} (before : P o)
    (parsed : o.parse args = .ok o') : P o' := by
  induction o, args using Options.parse.induct with
  | case1 o =>
      rw [parse] at parsed
      cases parsed
      exact before
  | case2 o arg rest stop =>
      rw [parse, if_pos stop] at parsed
      cases parsed
      exact before
  | case3 o arg rest go e failed =>
      rw [parse, if_neg go, failed] at parsed
      cases parsed
  | case4 o arg rest go o₁ advance step ih =>
      rw [parse, if_neg go, step] at parsed
      exact ih (parseArgument_preserves keeps before step) parsed

end Preserves

/-- The stored addresses are parts of arguments. -/
def NulFree (o : Options) : Prop := 0 ∉ o.ownAddr.value ∧ 0 ∉ o.thriftAddr.value

theorem parseOption_nulFree {o o' : Options} {key : OptionKey} {arg : StdString}
    (before : o.NulFree) (free : 0 ∉ arg) (stored : o.parseOption key arg = .ok o') :
    o'.NulFree := by
  cases key with
  | help =>
      cases stored
      exact before
  | id =>
      simp only [parseOption] at stored
      split at stored
      · cases stored
        exact before
      · cases stored
  | ownAddr =>
      cases stored
      exact ⟨free, before.2⟩
  | thriftAddr =>
      cases stored
      exact ⟨before.1, free⟩

theorem parse_nulFree {o : Options} {args : List CString} (parsed : new.parse args = .ok o) :
    o.NulFree :=
  parse_preserves parseOption_nulFree ⟨List.not_mem_nil, List.not_mem_nil⟩ parsed

/-! ## Any two addresses can be given -/

/-- `--id 1 --own-addr own --thrift-addr thrift`. -/
def commandLine (own thrift : CString) : List CString :=
  [StdString.cStr (literal "--id"), StdString.cStr (literal "1"),
    StdString.cStr (literal "--own-addr"), own,
    StdString.cStr (literal "--thrift-addr"), thrift]

/-- The argument behind a long option that takes one is stored, whatever it looks like. -/
theorem parse_long_cons {o o' : Options} {flag text : CString} {rest : List CString}
    {name : StdString} {key : OptionKey}
    (long : optionMatcher flag.bytes = some (.long name [])) (found : findOption name = some key)
    (takes : key.hasArg = true) (stored : o.parseOption key text.bytes = .ok o') :
    o.parse (flag :: text :: rest) = o'.parse rest := by
  have go : flag.bytes ≠ literal "--" := by
    intro stop
    have no_flag : optionMatcher (literal "--") = none := by decide +kernel
    rw [stop, no_flag] at long
    cases long
  rw [parse, if_neg go]
  simp [parseArgument, long, parseLong, found, takes, checkedParseArg, stored, Except.map]

theorem parse_commandLine (own thrift : CString) : new.parse (commandLine own thrift) =
    .ok ⟨⟨false, 0⟩, ⟨1, 1⟩, ⟨own.bytes, 1⟩, ⟨thrift.bytes, 1⟩⟩ := by
  have id_stored : new.parseOption .id (StdString.cStr (literal "1")).bytes =
      .ok { new with id := ⟨1, 1⟩ } := by
    have one : parseUInt16 (StdString.cStr (literal "1")).bytes = some 1 := by decide +kernel
    simp only [parseOption, one, new]
  have id_long : optionMatcher (StdString.cStr (literal "--id")).bytes =
      some (.long (literal "id") []) := by decide +kernel
  have own_long : optionMatcher (StdString.cStr (literal "--own-addr")).bytes =
      some (.long (literal "own-addr") []) := by decide +kernel
  have thrift_long : optionMatcher (StdString.cStr (literal "--thrift-addr")).bytes =
      some (.long (literal "thrift-addr") []) := by decide +kernel
  have id_found : findOption (literal "id") = some .id := by decide +kernel
  have own_found : findOption (literal "own-addr") = some .ownAddr := by decide +kernel
  have thrift_found : findOption (literal "thrift-addr") = some .thriftAddr := by decide +kernel
  rw [commandLine, parse_long_cons id_long id_found rfl id_stored,
    parse_long_cons own_long own_found rfl rfl,
    parse_long_cons thrift_long thrift_found rfl rfl, parse]
  rfl

end Options

end RadiusEventHandler
