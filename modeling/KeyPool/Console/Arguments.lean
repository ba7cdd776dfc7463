import KeyPool.Decimal

/-!
The command line: options of the program, then a command with options of its own. Each option is given
at most once, and what is not known is refused.
-/

namespace KeyPool.Console

/-! ## Options -/

structure OptionSpec where
  long : String
  short : Option Char
  /-- The test that its value must pass; a flag has no value. -/
  accepts : Option (String → Bool)
  /-- Whether nothing after it counts. -/
  isFinal : Bool

namespace OptionSpec

def flag (long : String) : OptionSpec := ⟨long, none, none, false⟩

def taking (long : String) (short : Option Char) (accepts : String → Bool) : OptionSpec :=
  ⟨long, short, some accepts, false⟩

end OptionSpec

inductive Token where
  | word
  /-- From here on there are no options. -/
  | endOfOptions
  /-- An option, with its value if that is in the same argument. -/
  | given (spec : OptionSpec) (attached : Option String)

namespace Token

/-- A long option, whose value may follow an equals sign. -/
def long? (specs : List OptionSpec) (cs : List Char) : Option Token := do
  let spec ← specs.find? (·.long = String.ofList (cs.takeWhile (· ≠ '=')))
  match cs.dropWhile (· ≠ '=') with
  | [] => return .given spec none
  | _ :: value =>
    guard spec.accepts.isSome
    return .given spec (some (String.ofList value))

/-- A short option, whose value may follow at once or after an equals sign. -/
def short? (specs : List OptionSpec) (c : Char) (cs : List Char) : Option Token := do
  let spec ← specs.find? (·.short = some c)
  if spec.accepts.isNone then
    guard (cs = [] ∨ spec.isFinal)
    return .given spec none
  else
    match cs with
    | [] => return .given spec none
    | '=' :: value => return .given spec (some (String.ofList value))
    | value => return .given spec (some (String.ofList value))

/-- A single dash is a word. -/
def ofArgument? (specs : List OptionSpec) (argument : String) : Option Token :=
  match argument.toList with
  | ['-', '-'] => some .endOfOptions
  | '-' :: '-' :: cs => long? specs cs
  | '-' :: c :: cs => short? specs c cs
  | _ => some .word

end Token

/-- Whether an argument can be the value of the option before it. -/
def standsAsValue (argument : String) : Bool :=
  argument = "-" || argument.toList.head? ≠ some '-'

/-- The options that were given, by long name, with their values. -/
abbrev Given := List (String × String)

/-- The value of an option, read from its own argument or the next, and the arguments after it. -/
def takeValue? (accepts : Option (String → Bool)) (attached : Option String) (rest : List String) :
    Option (String × List String) :=
  match accepts, attached, rest with
  | none, _, _ => some ("", rest)
  | some accepts, some v, _ => if accepts v then some (v, rest) else none
  | some accepts, none, v :: rest => if standsAsValue v && accepts v then some (v, rest) else none
  | some _, none, [] => none

theorem length_le_of_takeValue? {accepts : Option (String → Bool)} {attached : Option String}
    {rest after : List String} {v : String}
    (h : takeValue? accepts attached rest = some (v, after)) : after.length ≤ rest.length := by
  unfold takeValue? at h
  split at h <;> grind

/-- Reads options up to the first word. Past the end of options no argument may follow. -/
def readOptions (specs : List OptionSpec) (given : Given) (arguments : List String) :
    Option (Given × List String) :=
  match arguments with
  | [] => some (given, [])
  | argument :: rest =>
    match Token.ofArgument? specs argument with
    | none => none
    | some .word => some (given, argument :: rest)
    | some .endOfOptions => if rest = [] then some (given, []) else none
    | some (.given spec attached) =>
      if given.any (·.1 = spec.long) then none
      else
        match h : takeValue? spec.accepts attached rest with
        | none => none
        | some (v, after) =>
          if spec.isFinal then some (given ++ [(spec.long, v)], [])
          else
            have : after.length < rest.length + 1 :=
              Nat.lt_succ_of_le (length_le_of_takeValue? h)
            readOptions specs (given ++ [(spec.long, v)]) after
termination_by arguments.length

/-! ## Commands -/

inductive Command where
  | status
  /-- Lists the keys of one component, or all. -/
  | list (component : Option String)
  /-- Shows one key with its chain. -/
  | detail (id : Int)
  | clear (confirmed : Bool)
  | purgeExpiring (withinSeconds : Option Nat)
  | badWindow
  deriving DecidableEq, Repr

structure Invocation where
  config : String
  /-- The path of the store, if it is not to be taken from the settings. -/
  database : Option String
  command : Command
  deriving DecidableEq, Repr

inductive Request where
  | version
  | run (invocation : Invocation)
  deriving DecidableEq, Repr

/-- An integer of sixty-four bits with a sign. -/
def integer64? (text : String) : Option Int := do
  let n ← Decimal.int? text.toList
  guard (-9223372036854775808 ≤ n ∧ n < 9223372036854775808)
  return n

/-- An integer of sixty-four bits that is not negative; a plus sign may stand before it. -/
def natural64? (text : String) : Option Nat := do
  let n ← match text.toList with
    | '+' :: cs => Decimal.nat? cs
    | cs => Decimal.nat? cs
  guard (n < 18446744073709551616)
  return n

namespace Command

/-- The options of a command that leave no argument over. -/
def options? (specs : List OptionSpec) (arguments : List String) : Option Given :=
  match readOptions specs [] arguments with
  | some (given, []) => some given
  | _ => none

/-- Reads a command from its name and the arguments after it. -/
def ofArguments? (name : String) (arguments : List String) : Option Command :=
  match name with
  | "status" => (options? [] arguments).map fun _ => status
  | "list" => do
    let given ← options? [.taking "component" (some 'p') fun _ => true] arguments
    return list (given.lookup "component")
  | "show" => do
    let given ← options? [.taking "id" (some 'i') fun v => (integer64? v).isSome] arguments
    return detail (← integer64? (← given.lookup "id"))
  | "clear" => do
    let given ← options? [.flag "yes"] arguments
    return clear (given.lookup "yes").isSome
  | "purge-expiring" => do
    let accepts (v : String) : Bool := (natural64? v).isSome
    let given ← options? [.taking "within-secs" none accepts] arguments
    return purgeExpiring ((given.lookup "within-secs").bind natural64?)
  | "bad-window" => (options? [] arguments).map fun _ => badWindow
  | _ => none

end Command

namespace Request

/-- The options that stand before the command. -/
def specs : List OptionSpec := [
  .taking "config" (some 'c') fun _ => true,
  .taking "db" none (· ≠ ""),
  ⟨"version", some 'V', none, true⟩]

def defaultConfig : String := "config/rkpd.toml"

def ofArguments? (arguments : List String) : Option Request := do
  let (given, rest) ← readOptions specs [] arguments
  if (given.lookup "version").isSome then return version
  else
    match rest with
    | [] => none
    | name :: rest =>
      let command ← Command.ofArguments? name rest
      return run ⟨(given.lookup "config").getD defaultConfig, given.lookup "db", command⟩

end Request

end KeyPool.Console
