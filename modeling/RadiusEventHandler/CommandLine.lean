import Mathlib.Data.List.Induction
import RadiusEventHandler.AddressOptions

/-!
# Command lines

The loop of `Options::parse` against a grammar of its arguments. A command line
is read from the left as a sequence of settings, up to its end, a `--`, or the
first argument with a fault. What the options hold afterwards is what has been
set last, and how often.
-/

namespace RadiusEventHandler

/-! ## Flags

45 is the hyphen, 61 the equals sign and 104 the letter of the only short option. -/

/-- `[[:alnum:]][-_[:alnum:]]+`. -/
def IsName (name : StdString) : Prop :=
  ∃ c cs, name = c :: cs ∧ isalnum c = true ∧ cs ≠ [] ∧ ∀ d ∈ cs, isNameChar d = true

/-- The language of `option_matcher`, with the groups of a match. -/
inductive IsFlag : StdString → Flag → Prop where
  | short {cluster : StdString} (ne : cluster ≠ []) (all : ∀ c ∈ cluster, isalnum c = true) :
      IsFlag (45 :: cluster) (.short cluster)
  | long {name : StdString} (isName : IsName name) : IsFlag (45 :: 45 :: name) (.long name [])
  | valued {name value : StdString} (isName : IsName name)
      (all : ∀ c ∈ value, isAnyChar c = true) :
      IsFlag (45 :: 45 :: (name ++ 61 :: value)) (.long name value)

theorem isNameChar_of_isalnum {c : UInt8} (alnum : isalnum c = true) : isNameChar c = true := by
  simp [isNameChar, alnum]

theorem IsName.all {name : StdString} (isName : IsName name) :
    ∀ c ∈ name, isNameChar c = true := by
  obtain ⟨c, cs, rfl, alnum, -, all⟩ := isName
  intro d mem
  rcases List.mem_cons.mp mem with rfl | mem
  · exact isNameChar_of_isalnum alnum
  · exact all d mem

theorem isName_iff {name : StdString} (all : ∀ c ∈ name, isNameChar c = true) :
    IsName name ↔ ¬ (name.length < 2 ∨ name.head?.any isalnum = false) := by
  rcases name with _ | ⟨c, _ | ⟨d, ds⟩⟩
  · simp [IsName]
  · simp [IsName]
  · simp only [IsName, List.cons.injEq, List.length_cons, List.head?_cons, Option.any_some]
    constructor
    · rintro ⟨_, _, ⟨rfl, rfl⟩, alnum, -, -⟩
      simp [alnum]
    · intro passed
      have alnum : isalnum c = true := by
        simp only [not_or, Bool.not_eq_false] at passed
        exact passed.2
      exact ⟨c, d :: ds, ⟨rfl, rfl⟩, alnum, by simp, fun x mem => all x (.tail c mem)⟩

theorem matchLong_iff {s : StdString} {flag : Flag} :
    matchLong s = some flag ↔ IsFlag (45 :: 45 :: s) flag := by
  constructor
  · intro long
    have all : ∀ c ∈ s.takeWhile isNameChar, isNameChar c = true :=
      fun c mem => List.mem_takeWhile_imp mem
    have text := List.takeWhile_append_dropWhile (p := isNameChar) (l := s)
    unfold matchLong at long
    dsimp only at long
    split at long
    · cases long
    · next named =>
        have isName := (isName_iff all).mpr named
        rw [← text]
        split at long
        · next ends =>
            cases long
            rw [ends, List.append_nil]
            exact .long isName
        · next e value rest =>
            split at long
            · next equals =>
                cases long
                rw [rest, equals.1]
                exact .valued isName (List.all_eq_true.mp equals.2)
            · cases long
  · intro isFlag
    generalize given : 45 :: 45 :: s = text at isFlag
    cases isFlag with
    | short ne all =>
        cases given
        have hyphen : isalnum 45 = true := all 45 List.mem_cons_self
        cases hyphen
    | @long name isName =>
        cases given
        obtain ⟨taken, dropped⟩ := Numeral.takeWhile_dropWhile_run (r := []) isName.all (by simp)
        rw [List.append_nil] at taken dropped
        simp only [matchLong, taken, dropped, if_neg ((isName_iff isName.all).mp isName)]
    | @valued name value isName all =>
        cases given
        -- a name ends where the equals sign stands
        obtain ⟨taken, dropped⟩ := Numeral.takeWhile_dropWhile_run (r := 61 :: value) isName.all
          (by rintro _ ⟨⟩; decide)
        simp only [matchLong, taken, dropped, if_neg ((isName_iff isName.all).mp isName), true_and]
        rw [if_pos (List.all_eq_true.mpr all)]

/-- `std::regex_match` finds the language. -/
theorem optionMatcher_iff {s : StdString} {flag : Flag} :
    optionMatcher s = some flag ↔ IsFlag s flag := by
  rcases s with _ | ⟨c, cs⟩
  · constructor <;> rintro ⟨⟩
  · by_cases hyphen : c = 45
    · subst hyphen
      by_cases long : cs.head? = some 45
      · obtain ⟨ds, rfl⟩ : ∃ ds, cs = 45 :: ds := by
          rcases cs with _ | ⟨d, ds⟩
          · cases long
          · cases long
            exact ⟨ds, rfl⟩
        exact matchLong_iff
      · simp only [optionMatcher, ne_eq, not_true_eq_false, if_false, if_neg long]
        constructor
        · intro short
          split at short
          · next cluster =>
              cases short
              exact .short cluster.1 (List.all_eq_true.mp cluster.2)
          · cases short
        · intro isFlag
          cases isFlag with
          | short ne all => rw [if_pos ⟨ne, List.all_eq_true.mpr all⟩]
          | long isName => exact absurd rfl long
          | valued isName all => exact absurd rfl long
    · simp only [optionMatcher, ne_eq, hyphen, not_false_eq_true, if_true]
      constructor
      · rintro ⟨⟩
      · intro isFlag
        cases isFlag <;> exact absurd rfl hyphen

theorem IsFlag.ne_stop {s : StdString} {flag : Flag} (isFlag : IsFlag s flag) :
    s ≠ literal "--" := by
  rintro rfl
  have no_flag : optionMatcher (literal "--") = none := by decide +kernel
  rw [optionMatcher_iff.mpr isFlag] at no_flag
  cases no_flag

/-! ## The grammar -/

/-- The long name of an option. -/
def OptionKey.name : OptionKey → StdString
  | .help => literal "help"
  | .id => literal "id"
  | .ownAddr => literal "own-addr"
  | .thriftAddr => literal "thrift-addr"

/-- One use of an option. -/
inductive Setting where
  | help
  | id (value : UInt16)
  | ownAddr (address : StdString)
  | thriftAddr (address : StdString)
deriving DecidableEq

namespace Setting

def id? : Setting → Option UInt16
  | .id value => some value
  | _ => none

def ownAddr? : Setting → Option StdString
  | .ownAddr address => some address
  | _ => none

def thriftAddr? : Setting → Option StdString
  | .thriftAddr address => some address
  | _ => none

end Setting

/-- What an option is set to by an argument. -/
def OptionKey.setting? : OptionKey → StdString → Option Setting
  | .help, _ => some .help
  | .id, text => (parseUInt16 text).map .id
  | .ownAddr, text => some (.ownAddr text)
  | .thriftAddr, text => some (.thriftAddr text)

/-- `--name` or `--name=`. -/
def NamesOption (arg : CString) (key : OptionKey) : Prop :=
  arg.bytes = 45 :: 45 :: key.name ∨ arg.bytes = 45 :: 45 :: (key.name ++ [61])

/-- An option that takes an argument stands in front, with this argument. -/
inductive Carries : List CString → OptionKey → StdString → List CString → Prop where
  | joined {arg : CString} {key : OptionKey} {value : StdString} {rest : List CString}
      (takes : key.hasArg = true) (ne : value ≠ []) (all : ∀ c ∈ value, isAnyChar c = true)
      (text : arg.bytes = 45 :: 45 :: (key.name ++ 61 :: value)) :
      Carries (arg :: rest) key value rest
  | separate {arg next : CString} {key : OptionKey} {rest : List CString}
      (takes : key.hasArg = true) (names : NamesOption arg key) :
      Carries (arg :: next :: rest) key next.bytes rest

/-- What is in front sets these options. -/
inductive Argument : List CString → List Setting → List CString → Prop where
  | operand {arg : CString} {rest : List CString} (go : arg.bytes ≠ literal "--")
      (no_flag : ∀ flag, ¬ IsFlag arg.bytes flag) : Argument (arg :: rest) [] rest
  | cluster {arg : CString} {rest : List CString} (n : ℕ)
      (text : arg.bytes = 45 :: List.replicate (n + 1) 104) :
      Argument (arg :: rest) (List.replicate (n + 1) .help) rest
  | help {arg : CString} {rest : List CString} (names : NamesOption arg .help) :
      Argument (arg :: rest) [.help] rest
  | value {args rest : List CString} {key : OptionKey} {text : StdString} {setting : Setting}
      (carries : Carries args key text rest) (set : key.setting? text = some setting) :
      Argument args [setting] rest

/-- What is in front is refused. -/
inductive Fault : List CString → OptionException → Prop where
  | short {arg : CString} {rest : List CString} {n : ℕ} {c : UInt8} {cs : StdString}
      (text : arg.bytes = 45 :: (List.replicate n 104 ++ c :: cs))
      (all : ∀ d ∈ c :: cs, isalnum d = true) (unknown : c ≠ 104) :
      Fault (arg :: rest) (.optionNotExists [c])
  | long {arg : CString} {rest : List CString} {name value : StdString}
      (isFlag : IsFlag arg.bytes (.long name value))
      (unknown : ∀ key : OptionKey, name ≠ key.name) :
      Fault (arg :: rest) (.optionNotExists name)
  | helpValue {arg : CString} {rest : List CString} {value : StdString} (ne : value ≠ [])
      (all : ∀ c ∈ value, isAnyChar c = true)
      (text : arg.bytes = 45 :: 45 :: (OptionKey.help.name ++ 61 :: value)) :
      Fault (arg :: rest) (.optionNotHasArgument OptionKey.help.name value)
  | missing {arg : CString} {key : OptionKey} (takes : key.hasArg = true)
      (names : NamesOption arg key) : Fault [arg] (.missingArgument key.name)
  | type {args rest : List CString} {key : OptionKey} {text : StdString}
      (carries : Carries args key text rest) (unset : key.setting? text = none) :
      Fault args (.argumentIncorrectType text)

/-- The arguments set these options before the rest is reached. -/
inductive CommandLine : List CString → List Setting → List CString → Prop where
  | refl (args : List CString) : CommandLine args [] args
  | step {args mid rest : List CString} {settings more : List Setting}
      (first : Argument args settings mid) (reads : CommandLine mid more rest) :
      CommandLine args (settings ++ more) rest

/-- There are no arguments left, or a `--` is next. -/
def Ended (rest : List CString) : Prop :=
  ∀ arg, rest.head? = some arg → arg.bytes = literal "--"

namespace Options

/-- `OptionDetails::parse`: the value is stored and the use is counted. -/
def set (o : Options) : Setting → Options
  | .help => { o with help := ⟨true, o.help.count + 1⟩ }
  | .id value => { o with id := ⟨value, o.id.count + 1⟩ }
  | .ownAddr address => { o with ownAddr := ⟨address, o.ownAddr.count + 1⟩ }
  | .thriftAddr address => { o with thriftAddr := ⟨address, o.thriftAddr.count + 1⟩ }

theorem parseOption_eq (o : Options) (key : OptionKey) (text : StdString) :
    o.parseOption key text =
      match key.setting? text with
      | some setting => .ok (o.set setting)
      | none => .error (.argumentIncorrectType text) := by
  cases key with
  | id => cases found : parseUInt16 text <;> simp [parseOption, OptionKey.setting?, found, set]
  | _ => rfl

end Options

/-! ## One argument -/

theorem OptionKey.isName (key : OptionKey) : IsName key.name := by
  have all : ∀ c ∈ key.name, isNameChar c = true := by cases key <;> decide +kernel
  rw [isName_iff all]
  cases key <;> decide +kernel

theorem findOption_name (key : OptionKey) : findOption key.name = some key := by
  cases key <;> decide +kernel

theorem findOption_eq_some {name : StdString} {key : OptionKey} (isName : IsName name)
    (found : findOption name = some key) : name = key.name := by
  obtain ⟨c, cs, rfl, -, ne, -⟩ := isName
  unfold findOption at found
  split at found
  · next help =>
      cases found
      rcases help with short | long
      · cases short
        exact absurd rfl ne
      · exact long
  · split at found
    · next text =>
        cases found
        exact text
    · split at found
      · next text =>
          cases found
          exact text
      · split at found
        · next text =>
            cases found
            exact text
        · cases found

theorem findOption_char (c : UInt8) : findOption [c] = if c = 104 then some .help else none := by
  have help : literal "h" = [104] := by decide +kernel
  have long : ∀ key : OptionKey, [c] ≠ key.name := by
    intro key same
    have length := congrArg List.length same
    cases key <;> cases length
  have names : [c] ≠ literal "help" ∧ [c] ≠ literal "id" ∧ [c] ≠ literal "own-addr" ∧
      [c] ≠ literal "thrift-addr" := ⟨long .help, long .id, long .ownAddr, long .thriftAddr⟩
  obtain ⟨no_help, no_id, no_own, no_thrift⟩ := names
  simp [findOption, help, no_help, no_id, no_own, no_thrift]

theorem NamesOption.isFlag {arg : CString} {key : OptionKey} (names : NamesOption arg key) :
    IsFlag arg.bytes (.long key.name []) := by
  rcases names with text | text
  · rw [text]
    exact .long key.isName
  · rw [text]
    exact .valued key.isName (by simp)

theorem namesOption_of_isFlag {arg : CString} {key : OptionKey}
    (isFlag : IsFlag arg.bytes (.long key.name [])) : NamesOption arg key := by
  generalize given : arg.bytes = text at isFlag
  cases isFlag with
  | long _ => exact .inl given
  | valued _ _ => exact .inr given

namespace Options

variable {o o' : Options} {arg : CString} {args rest : List CString}

/-- One iteration of the loop. -/
theorem parse_cons {k : ℕ} (go : arg.bytes ≠ literal "--")
    (parsed : o.parseArgument arg rest.head? = .ok (o', k)) :
    o.parse (arg :: rest) = o'.parse (rest.drop k) := by
  rw [parse, if_neg go, parsed]

theorem parse_cons_error {e : OptionException} (go : arg.bytes ≠ literal "--")
    (failed : o.parseArgument arg rest.head? = .error e) : o.parse (arg :: rest) = .error e := by
  rw [parse, if_neg go, failed]

theorem parseArgument_long {name value : StdString} {next : Option CString}
    (isFlag : IsFlag arg.bytes (.long name value)) :
    o.parseArgument arg next = o.parseLong next name value := by
  rw [parseArgument, optionMatcher_iff.mpr isFlag]

theorem parseArgument_short {cluster : StdString} {next : Option CString}
    (text : arg.bytes = 45 :: cluster) (ne : cluster ≠ []) (all : ∀ c ∈ cluster, isalnum c = true) :
    o.parseArgument arg next = o.parseCluster next cluster := by
  have isFlag : IsFlag arg.bytes (.short cluster) := by
    rw [text]
    exact .short ne all
  rw [parseArgument, optionMatcher_iff.mpr isFlag]

/-- Every `h` of a cluster asks for help. -/
theorem parseCluster_help (n : ℕ) (cs : StdString) (o : Options) (next : Option CString) :
    o.parseCluster next (List.replicate n 104 ++ cs) =
      ((List.replicate n Setting.help).foldl set o).parseCluster next cs := by
  induction n generalizing o with
  | zero => rfl
  | succ n ih =>
      have known : findOption [104] = some .help := by rw [findOption_char, if_pos rfl]
      rw [List.replicate_succ, List.replicate_succ, List.cons_append, parseCluster, known]
      exact ih (o.set .help)

/-- An option that takes an argument, with the argument it is given. -/
theorem parse_carries {key : OptionKey} {text : StdString} (carries : Carries args key text rest) :
    o.parse args = (o.parseOption key text).bind fun o => o.parse rest := by
  cases carries with
  | @joined arg _ _ _ takes ne all given =>
      have isFlag : IsFlag arg.bytes (.long key.name text) := by
        rw [given]
        exact .valued key.isName all
      have long : o.parseArgument arg rest.head? =
          (o.parseOption key text).map fun o => (o, 0) := by
        simp [parseArgument_long isFlag, parseLong, findOption_name, ne, takes]
      cases stored : o.parseOption key text with
      | error e => exact parse_cons_error isFlag.ne_stop (by rw [long, stored]; rfl)
      | ok o' => exact parse_cons isFlag.ne_stop (by rw [long, stored]; rfl)
  | @separate arg next _ _ takes names =>
      have long : o.parseArgument arg (next :: rest).head? =
          (o.parseOption key next.bytes).map fun o => (o, 1) := by
        simp [parseArgument_long names.isFlag, parseLong, findOption_name, takes, checkedParseArg]
      cases stored : o.parseOption key next.bytes with
      | error e => exact parse_cons_error names.isFlag.ne_stop (by rw [long, stored]; rfl)
      | ok o' => exact parse_cons names.isFlag.ne_stop (by rw [long, stored]; rfl)

/-- What is in front of the rest sets its options, and the rest is parsed. -/
theorem parse_argument {settings : List Setting} (argument : Argument args settings rest) :
    o.parse args = (settings.foldl set o).parse rest := by
  cases argument with
  | @operand arg _ go no_flag =>
      have unmatched : optionMatcher arg.bytes = none := by
        cases matched : optionMatcher arg.bytes with
        | none => rfl
        | some flag => exact absurd (optionMatcher_iff.mp matched) (no_flag flag)
      exact parse_cons go (by rw [parseArgument, unmatched])
  | @cluster arg _ n text =>
      have all : ∀ c ∈ List.replicate (n + 1) (104 : UInt8), isalnum c = true := by
        intro c mem
        rw [List.eq_of_mem_replicate mem]
        decide
      have ne : List.replicate (n + 1) (104 : UInt8) ≠ [] := by simp
      have isFlag : IsFlag arg.bytes (.short (List.replicate (n + 1) 104)) := by
        rw [text]
        exact .short ne all
      apply parse_cons isFlag.ne_stop (k := 0)
      have cluster := parseCluster_help (n + 1) [] o rest.head?
      rw [List.append_nil] at cluster
      rw [parseArgument_short text ne all, cluster]
      rfl
  | @help arg _ names =>
      apply parse_cons names.isFlag.ne_stop (k := 0)
      rw [parseArgument_long names.isFlag]
      simp [parseLong, findOption_name, OptionKey.hasArg, parseOption, Except.map, set]
  | @value _ _ key text setting carries given =>
      rw [parse_carries carries, parseOption_eq, given]
      rfl

theorem parse_fault {e : OptionException} (fault : Fault args e) : o.parse args = .error e := by
  cases fault with
  | @short arg rest n c cs text all unknown =>
      have alnum : ∀ d ∈ List.replicate n 104 ++ c :: cs, isalnum d = true := by
        intro d mem
        rcases List.mem_append.mp mem with help | mem
        · rw [List.eq_of_mem_replicate help]
          decide
        · exact all d mem
      have ne : List.replicate n 104 ++ c :: cs ≠ [] := by simp
      have isFlag : IsFlag arg.bytes (.short (List.replicate n 104 ++ c :: cs)) := by
        rw [text]
        exact .short ne alnum
      apply parse_cons_error isFlag.ne_stop
      rw [parseArgument_short text ne alnum, parseCluster_help, parseCluster, findOption_char,
        if_neg unknown]
  | @long arg rest name value isFlag unknown =>
      have isName : IsName name := by
        generalize arg.bytes = text at isFlag
        cases isFlag with
        | long isName => exact isName
        | valued isName _ => exact isName
      have not_found : findOption name = none := by
        cases found : findOption name with
        | none => rfl
        | some key => exact absurd (findOption_eq_some isName found) (unknown key)
      apply parse_cons_error isFlag.ne_stop
      rw [parseArgument_long isFlag, parseLong, not_found]
  | @helpValue arg rest value ne all text =>
      have isFlag : IsFlag arg.bytes (.long OptionKey.help.name value) := by
        rw [text]
        exact .valued OptionKey.help.isName all
      apply parse_cons_error isFlag.ne_stop
      rw [parseArgument_long isFlag]
      simp [parseLong, findOption_name, ne, OptionKey.hasArg]
  | @missing arg key takes names =>
      apply parse_cons_error names.isFlag.ne_stop
      rw [parseArgument_long names.isFlag]
      simp [parseLong, findOption_name, takes, checkedParseArg]
  | @type _ rest key text carries unset =>
      rw [parse_carries carries, parseOption_eq, unset]
      rfl

end Options

/-! ## All arguments -/

/-- A cluster is all `h`, or has a first other letter. -/
theorem exists_unknown {cluster : StdString} (ne : cluster ≠ []) :
    (∃ n, cluster = List.replicate (n + 1) 104) ∨
      ∃ n c cs, cluster = List.replicate n 104 ++ c :: cs ∧ c ≠ 104 := by
  induction cluster with
  | nil => exact absurd rfl ne
  | cons c cs ih =>
      by_cases letter : c = 104
      · subst letter
        by_cases last : cs = []
        · exact .inl ⟨0, by rw [last]; rfl⟩
        · rcases ih last with ⟨n, all⟩ | ⟨n, d, ds, text, unknown⟩
          · exact .inl ⟨n + 1, by rw [all]; rfl⟩
          · exact .inr ⟨n + 1, d, ds, by rw [text]; rfl, unknown⟩
      · exact .inr ⟨0, c, cs, rfl, letter⟩

/-- With an argument, an option is set or refused. -/
theorem Carries.argument_or_fault {args rest : List CString} {key : OptionKey} {text : StdString}
    (carries : Carries args key text rest) :
    (∃ settings, Argument args settings rest) ∨ ∃ e, Fault args e := by
  cases given : key.setting? text with
  | some setting => exact .inl ⟨[setting], .value carries given⟩
  | none => exact .inr ⟨_, .type carries given⟩

theorem Carries.length_lt {args rest : List CString} {key : OptionKey} {text : StdString}
    (carries : Carries args key text rest) : rest.length < args.length := by
  cases carries with
  | joined => exact Nat.lt_succ_self _
  | separate => exact Nat.lt_succ_of_lt (Nat.lt_succ_self _)

/-- What is in front can be read or is refused. -/
theorem argument_or_fault {arg : CString} (rest : List CString) (go : arg.bytes ≠ literal "--") :
    (∃ settings left, Argument (arg :: rest) settings left ∧ left.length ≤ rest.length) ∨
      ∃ e, Fault (arg :: rest) e := by
  have carried : ∀ {key text left}, Carries (arg :: rest) key text left →
      (∃ settings left, Argument (arg :: rest) settings left ∧ left.length ≤ rest.length) ∨
        ∃ e, Fault (arg :: rest) e := by
    intro key text left carries
    have shorter := carries.length_lt
    exact carries.argument_or_fault.imp
      (fun ⟨settings, argument⟩ => ⟨settings, left, argument, Nat.lt_succ_iff.mp shorter⟩) id
  by_cases no_flag : ∀ flag, ¬ IsFlag arg.bytes flag
  · exact .inl ⟨[], rest, .operand go no_flag, le_rfl⟩
  · simp only [not_forall, not_not] at no_flag
    obtain ⟨flag, isFlag⟩ := no_flag
    cases flag with
    | short cluster =>
        generalize given : arg.bytes = text at isFlag
        cases isFlag with
        | short ne all =>
            rcases exists_unknown ne with ⟨n, rfl⟩ | ⟨n, c, cs, rfl, unknown⟩
            · exact .inl ⟨_, rest, .cluster n given, le_rfl⟩
            · have alnum : ∀ d ∈ c :: cs, isalnum d = true :=
                fun d mem => all d (List.mem_append_right _ mem)
              exact .inr ⟨_, .short given alnum unknown⟩
    | long name value =>
        by_cases known : ∃ key : OptionKey, name = key.name
        · obtain ⟨key, rfl⟩ := known
          by_cases bare : value = []
          · subst bare
            have names := namesOption_of_isFlag isFlag
            by_cases takes : key.hasArg = true
            · rcases rest with _ | ⟨next, rest⟩
              · exact .inr ⟨_, .missing takes names⟩
              · exact carried (.separate takes names)
            · cases key with
              | help => exact .inl ⟨_, rest, .help names, le_rfl⟩
              | _ => exact absurd rfl takes
          · generalize given : arg.bytes = text at isFlag
            cases isFlag with
            | long _ => exact absurd rfl bare
            | valued _ all =>
                by_cases takes : key.hasArg = true
                · exact carried (.joined takes bare all given)
                · cases key with
                  | help => exact .inr ⟨_, .helpValue bare all given⟩
                  | _ => exact absurd rfl takes
        · exact .inr ⟨_, .long isFlag (fun key same => known ⟨key, same⟩)⟩

/-- Every command line is read up to its end or to a fault. -/
theorem exists_reads (args : List CString) :
    ∃ settings rest, CommandLine args settings rest ∧ (Ended rest ∨ ∃ e, Fault rest e) := by
  induction shorter : args.length using Nat.strong_induction_on generalizing args with
  | _ n ih =>
      subst shorter
      rcases args with _ | ⟨arg, args⟩
      · exact ⟨[], [], .refl [], .inl (by rintro _ ⟨⟩)⟩
      · by_cases stop : arg.bytes = literal "--"
        · exact ⟨[], arg :: args, .refl _, .inl (by rintro _ ⟨⟩; exact stop)⟩
        · rcases argument_or_fault args stop with ⟨settings, left, argument, le⟩ | fault
          · obtain ⟨more, rest, reads, ends⟩ := ih left.length (Nat.lt_succ_of_le le) left rfl
            exact ⟨settings ++ more, rest, .step argument reads, ends⟩
          · exact ⟨[], arg :: args, .refl _, .inr fault⟩

namespace Options

variable {o : Options} {args rest : List CString} {settings : List Setting}

theorem parse_reads (reads : CommandLine args settings rest) :
    o.parse args = (settings.foldl set o).parse rest := by
  induction reads generalizing o with
  | refl args => rfl
  | step first _ ih => rw [parse_argument first, ih, List.foldl_append]

theorem parse_ended (ended : Ended rest) : o.parse rest = .ok o := by
  rcases rest with _ | ⟨arg, rest⟩
  · rw [parse]
  · rw [parse, if_pos (ended arg rfl)]

/-! ## What the options hold -/

def ids (settings : List Setting) : List UInt16 := settings.filterMap Setting.id?

def ownAddrs (settings : List Setting) : List StdString := settings.filterMap Setting.ownAddr?

def thriftAddrs (settings : List Setting) : List StdString :=
  settings.filterMap Setting.thriftAddr?

/-- Of each option the value given last, and the number of its uses. -/
def ofSettings (settings : List Setting) : Options where
  help := ⟨decide (.help ∈ settings), settings.count .help⟩
  id := ⟨(ids settings).getLastD 0, (ids settings).length⟩
  ownAddr := ⟨(ownAddrs settings).getLastD [], (ownAddrs settings).length⟩
  thriftAddr := ⟨(thriftAddrs settings).getLastD [], (thriftAddrs settings).length⟩

theorem foldl_set (settings : List Setting) : settings.foldl set new = ofSettings settings := by
  induction settings using List.reverseRecOn with
  | nil => rfl
  | append_singleton settings setting ih =>
      rw [List.foldl_concat, ih]
      cases setting <;>
        simp [set, ofSettings, ids, ownAddrs, thriftAddrs, Setting.id?, Setting.ownAddr?,
          Setting.thriftAddr?]

theorem parse_of_ended (reads : CommandLine args settings rest) (ends : Ended rest) :
    new.parse args = .ok (ofSettings settings) := by
  rw [parse_reads reads, parse_ended ends, foldl_set]

theorem parse_of_fault {e : OptionException} (reads : CommandLine args settings rest)
    (fault : Fault rest e) : new.parse args = .error e := by
  rw [parse_reads reads, parse_fault fault]

theorem parse_ok_iff : new.parse args = .ok o ↔
    ∃ settings rest, CommandLine args settings rest ∧ Ended rest ∧ o = ofSettings settings := by
  constructor
  · intro parsed
    obtain ⟨settings, rest, reads, ends | ⟨e, fault⟩⟩ := exists_reads args
    · rw [parse_of_ended reads ends] at parsed
      exact ⟨settings, rest, reads, ends, (Except.ok.inj parsed).symm⟩
    · rw [parse_of_fault reads fault] at parsed
      cases parsed
  · rintro ⟨settings, rest, reads, ends, rfl⟩
    exact parse_of_ended reads ends

theorem parse_error_iff {e : OptionException} : new.parse args = .error e ↔
    ∃ settings rest, CommandLine args settings rest ∧ Fault rest e := by
  constructor
  · intro thrown
    obtain ⟨settings, rest, reads, ends | ⟨e', fault⟩⟩ := exists_reads args
    · rw [parse_of_ended reads ends] at thrown
      cases thrown
    · rw [parse_of_fault reads fault] at thrown
      cases thrown
      exact ⟨settings, rest, reads, fault⟩
  · rintro ⟨settings, rest, reads, fault⟩
    exact parse_of_fault reads fault

/-- **The loop reads the grammar.** The options are parsed exactly when the
arguments can be read to the end, and hold of each option what was given last;
and an exception is thrown exactly for the first argument with a fault. -/
theorem parse_reads_iff (args : List CString) :
    (∀ o, new.parse args = .ok o ↔
      ∃ settings rest, CommandLine args settings rest ∧ Ended rest ∧ o = ofSettings settings) ∧
    ∀ e, new.parse args = .error e ↔
      ∃ settings rest, CommandLine args settings rest ∧ Fault rest e :=
  ⟨fun _ => parse_ok_iff, fun _ => parse_error_iff⟩

end Options

/-! ## Configurations -/

section Configurations

open Options

variable {inetPton : CString → Option UInt32} {args : List CString} {id : UInt16}
  {own thrift : StdString}

theorem getLastD_eq_iff {α : Type} {xs : List α} {a x : α} :
    xs.length ≠ 0 ∧ xs.getLastD a = x ↔ xs.getLast? = some x := by
  rw [List.getLastD_eq_getLast?]
  rcases List.eq_nil_or_concat xs with rfl | ⟨ys, y, rfl⟩ <;> simp

/-- All parameters are given when they are among the settings. -/
theorem gives_iff : Gives args id own thrift ↔
    ∃ settings rest, CommandLine args settings rest ∧ Ended rest ∧ Setting.help ∉ settings ∧
      (ids settings).getLast? = some id ∧ (ownAddrs settings).getLast? = some own ∧
      (thriftAddrs settings).getLast? = some thrift := by
  constructor
  · rintro ⟨options, parsed, no_help, id_given, own_given, thrift_given, rfl, rfl, rfl⟩
    obtain ⟨settings, rest, reads, ended, rfl⟩ := parse_ok_iff.mp parsed
    exact ⟨settings, rest, reads, ended, List.count_eq_zero.mp no_help,
      getLastD_eq_iff.mp ⟨id_given, rfl⟩, getLastD_eq_iff.mp ⟨own_given, rfl⟩,
      getLastD_eq_iff.mp ⟨thrift_given, rfl⟩⟩
  · rintro ⟨settings, rest, reads, ended, no_help, id_last, own_last, thrift_last⟩
    obtain ⟨id_given, id_eq⟩ := (getLastD_eq_iff (a := 0)).mpr id_last
    obtain ⟨own_given, own_eq⟩ := (getLastD_eq_iff (a := [])).mpr own_last
    obtain ⟨thrift_given, thrift_eq⟩ := (getLastD_eq_iff (a := [])).mpr thrift_last
    exact ⟨ofSettings settings, parse_ok_iff.mpr ⟨settings, rest, reads, ended, rfl⟩,
      List.count_eq_zero.mpr no_help, id_given, own_given, thrift_given, id_eq, own_eq, thrift_eq⟩

/-- A text is taken for this address and port. -/
def Address (inetPton : CString → Option UInt32) (text : StdString) (ip : CString) (port : ℕ)
    (addr : UInt32) : Prop :=
  ∃ spaces sign digits junk tail, Spelled inetPton text ip spaces sign digits junk tail ∧
    colon ∉ ip.bytes ∧ port = cLocale.ofDigits digits ∧ inetPton ip = some addr

theorem Address.takes {text : StdString} {ip : CString} {port : ℕ} {addr : UInt32}
    (free : 0 ∉ text) (address : Address inetPton text ip port addr) :
    Takes inetPton text ip.bytes port addr := by
  obtain ⟨spaces, sign, digits, junk, tail, spelled, ip_free, rfl, resolved⟩ := address
  exact (takes_iff free).mpr
    ⟨ip, spaces, sign, digits, junk, tail, spelled, ip_free, rfl, rfl, resolved⟩

theorem address_of_takes {text front : StdString} {port : ℤ} {addr : UInt32} (free : 0 ∉ text)
    (takes : Takes inetPton text front port addr) :
    ∃ (ip : CString) (n : ℕ), front = ip.bytes ∧ port = n ∧ Address inetPton text ip n addr := by
  obtain ⟨ip, spaces, sign, digits, junk, tail, spelled, ip_free, rfl, rfl, resolved⟩ :=
    (takes_iff free).mp takes
  exact ⟨ip, _, rfl, rfl, spaces, sign, digits, junk, tail, spelled, ip_free, rfl, resolved⟩

/-- **The configuration of a command line.** It is accepted exactly when it can
be read to the end, asks for no help and gives every parameter, the last values
of which are the id and two addresses; and then nothing else decides what the
members hold. -/
theorem getConfig_commandLine_iff (inetPton : CString → Option UInt32) (args : List CString)
    (c c' : Configuration) :
    getConfigFromProgramOptions inetPton args c = (true, c') ↔
      ∃ settings rest, CommandLine args settings rest ∧ Ended rest ∧ Setting.help ∉ settings ∧
        ∃ id own thrift, (ids settings).getLast? = some id ∧
          (ownAddrs settings).getLast? = some own ∧
          (thriftAddrs settings).getLast? = some thrift ∧
          ∃ ip port addr ip' port' addr', Address inetPton own ip port addr ∧
            Address inetPton thrift ip' port' addr' ∧
            c' = { c with
              applId := id
              ownAddress := { c.ownAddress with sinAddr := addr' }
              ownPort := toUnsignedShort port
              ownIpaddr := ip.bytes
              thriftPort := toUnsignedShort port'
              thriftIpAddr := ip'.bytes } := by
  constructor
  · intro accepted
    have ret : (getConfigFromProgramOptions inetPton args c).1 = true := by rw [accepted]
    obtain ⟨id, own, thrift, given⟩ := gives_of_getConfig ret
    obtain ⟨own_free, thrift_free⟩ := given.nul_free
    obtain ⟨⟨_, _, addr, own_takes⟩, _, _, addr', thrift_takes⟩ := takes_of_getConfig given ret
    rw [getConfig_of_takes given own_takes thrift_takes] at accepted
    obtain ⟨ip, port, rfl, rfl, own_address⟩ := address_of_takes own_free own_takes
    obtain ⟨ip', port', rfl, rfl, thrift_address⟩ := address_of_takes thrift_free thrift_takes
    obtain ⟨settings, rest, reads, ended, no_help, id_last, own_last, thrift_last⟩ :=
      gives_iff.mp given
    exact ⟨settings, rest, reads, ended, no_help, id, own, thrift, id_last, own_last, thrift_last,
      ip, port, addr, ip', port', addr', own_address, thrift_address,
      (Prod.mk.inj accepted).2.symm⟩
  · rintro ⟨settings, rest, reads, ended, no_help, id, own, thrift, id_last, own_last,
      thrift_last, ip, port, addr, ip', port', addr', own_address, thrift_address, rfl⟩
    have given : Gives args id own thrift :=
      gives_iff.mpr ⟨settings, rest, reads, ended, no_help, id_last, own_last, thrift_last⟩
    obtain ⟨own_free, thrift_free⟩ := given.nul_free
    exact getConfig_of_takes given (own_address.takes own_free) (thrift_address.takes thrift_free)

end Configurations

end RadiusEventHandler
