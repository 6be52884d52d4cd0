/-!
# Arguments

A command takes one **operand** and **options**, in any order. An option is given by its
long name behind two dashes or its letter behind one dash; letters may stand together.
The value of an option stands behind an equals sign, behind the letter, or in the next
argument. Two dashes alone make operands of all arguments behind them, and one dash alone
is an operand.

Arguments are read from left to right, and the first one that does not fit decides what is
wrong. A question for help ends the reading.

## Main definitions

* `OptionSpec`, `CommandSpec`: what a command takes.
* `Arguments`, `CommandSpec.read`: what a command was given.
* `UsageError`, `UsageError.message`: what can be wrong with arguments.
-/

namespace AgentPipeline

/-- Which values an option or an operand takes. -/
inductive ValueRule where
  /-- no value -/
  | absent
  /-- any text -/
  | text
  /-- a text that is not empty -/
  | path
  deriving Repr, DecidableEq

/-- Whether a text is a value by a rule. -/
def ValueRule.admits : ValueRule → String → Bool
  | .absent, _ => false
  | .text, _ => true
  | .path, value => value != ""

/-- An option of a command. -/
structure OptionSpec where
  /-- the long name -/
  long : String
  /-- the letter -/
  short : Option Char
  rule : ValueRule
  deriving Repr, DecidableEq

/-- What a command takes. -/
structure CommandSpec where
  options : List OptionSpec
  /-- the values of its operand -/
  operand : ValueRule
  deriving Repr, DecidableEq

/-- What a command was given. -/
structure Arguments where
  /-- the values of options, by their long names -/
  options : List (String × String)
  operand : Option String
  deriving Repr, DecidableEq, Inhabited

/-- What can be wrong with arguments. -/
inductive UsageError where
  | missingCommand
  | unknownCommand (name : String)
  | unexpectedArgument (argument : String)
  | missingOperand
  | missingValue (option : String)
  | needlessValue (option value : String)
  | emptyValue
  | repeatedOption (option : String)
  deriving Repr, DecidableEq, Inhabited

/-- The text of an error in arguments. -/
def UsageError.message : UsageError → String
  | .missingCommand => "a command is required but none was given"
  | .unknownCommand name => "unrecognized subcommand '" ++ name ++ "'"
  | .unexpectedArgument argument => "unexpected argument '" ++ argument ++ "' found"
  | .missingOperand => "the following required arguments were not provided"
  | .missingValue option => "a value is required for '--" ++ option ++ "' but none was supplied"
  | .needlessValue option value =>
    "unexpected value '" ++ value ++ "' for '--" ++ option ++ "' found; no more were expected"
  | .emptyValue => "a value is required but none was supplied"
  | .repeatedOption option => "the argument '--" ++ option ++ "' cannot be used multiple times"

/-- Why the reading of arguments ended early. -/
inductive Interruption where
  /-- help was asked for -/
  | help
  /-- the arguments are wrong -/
  | misuse (e : UsageError)
  deriving Repr, DecidableEq, Inhabited

/-! ### Single arguments -/

/-- The form of an argument. -/
inductive ArgumentForm where
  /-- two dashes alone -/
  | separator
  /-- a long name, with what is behind an equals sign -/
  | long (name : String) (value : Option String)
  /-- letters behind a dash -/
  | short (letters : List Char)
  /-- anything else -/
  | operand (text : String)
  deriving Repr, DecidableEq

/-- The form of an argument. -/
def ArgumentForm.of (argument : String) : ArgumentForm :=
  match argument.toList with
  | ['-', '-'] => .separator
  | '-' :: '-' :: cs =>
    let name := cs.takeWhile (· != '=')
    .long (String.ofList name)
      (match cs.drop name.length with
        | [] => none
        | _ :: value => some (String.ofList value))
  | '-' :: c :: cs => .short (c :: cs)
  | _ => .operand argument

namespace Arguments

/-- The arguments with a value for an option. -/
def give (a : Arguments) (spec : OptionSpec) (value : String) :
    Except Interruption Arguments :=
  if a.options.any (·.1 == spec.long) then .error (.misuse (.repeatedOption spec.long))
  else if spec.rule.admits value then
    .ok { a with options := a.options ++ [(spec.long, value)] }
  else .error (.misuse .emptyValue)

/-- The arguments with an option that takes no value. -/
def set (a : Arguments) (spec : OptionSpec) : Except Interruption Arguments :=
  if a.options.any (·.1 == spec.long) then .error (.misuse (.repeatedOption spec.long))
  else .ok { a with options := a.options ++ [(spec.long, "")] }

/-- The value of an option. -/
def value? (a : Arguments) (long : String) : Option String :=
  a.options.lookup long

/-- Whether an option was given. -/
def has (a : Arguments) (long : String) : Bool :=
  (a.value? long).isSome

end Arguments

/-! ### Lists of arguments -/

namespace CommandSpec

/-- The arguments with an operand. -/
def addOperand (spec : CommandSpec) (a : Arguments) (text : String) :
    Except Interruption Arguments :=
  if a.operand.isSome then .error (.misuse (.unexpectedArgument text))
  else if spec.operand.admits text then .ok { a with operand := some text }
  else .error (.misuse .emptyValue)

/-- Take an option by its long name. The option is returned if its value is still to come. -/
def takeLong (spec : CommandSpec) (a : Arguments) (name : String) (value : Option String) :
    Except Interruption (Arguments × Option OptionSpec) :=
  match name, value with
  | "help", none => .error .help
  | "help", some value => .error (.misuse (.needlessValue name value))
  | name, value =>
    match spec.options.find? (·.long == name), value with
    | none, _ => .error (.misuse (.unexpectedArgument ("--" ++ name)))
    | some ⟨_, _, .absent⟩, some value => .error (.misuse (.needlessValue name value))
    | some option, none =>
      if option.rule = .absent then (a.set option).map (·, none) else .ok (a, some option)
    | some option, some value => (a.give option value).map (·, none)

/-- Take options by their letters. The last one is returned if its value is still to come. -/
def takeShort (spec : CommandSpec) (a : Arguments) :
    List Char → Except Interruption (Arguments × Option OptionSpec)
  | [] => .ok (a, none)
  | c :: cs =>
    if c = 'h' then .error .help
    else
      match spec.options.find? (·.short == some c) with
      | none => .error (.misuse (.unexpectedArgument (String.ofList ['-', c])))
      | some option =>
        if option.rule = .absent then do spec.takeShort (← a.set option) cs
        else
          match cs with
          | [] => .ok (a, some option)
          | '=' :: value => (a.give option (String.ofList value)).map (·, none)
          | value => (a.give option (String.ofList value)).map (·, none)

/-- Read arguments behind those that have been read; `awaiting` is the option whose value
is the next one. -/
def readFrom (spec : CommandSpec) (a : Arguments) (awaiting : Option OptionSpec) :
    List String → Except Interruption Arguments
  | [] =>
    match awaiting with
    | some option => .error (.misuse (.missingValue option.long))
    | none => .ok a
  | argument :: rest =>
    match awaiting, ArgumentForm.of argument with
    | some option, .operand value => do spec.readFrom (← a.give option value) none rest
    | some option, _ => .error (.misuse (.missingValue option.long))
    | none, .separator => rest.foldlM spec.addOperand a
    | none, .long name value => do
      let (a, awaiting) ← spec.takeLong a name value
      spec.readFrom a awaiting rest
    | none, .short letters => do
      let (a, awaiting) ← spec.takeShort a letters
      spec.readFrom a awaiting rest
    | none, .operand text => do spec.readFrom (← spec.addOperand a text) none rest

/-- Read the arguments of a command: its operand, and its options. -/
def read (spec : CommandSpec) (arguments : List String) :
    Except Interruption (String × Arguments) := do
  let a ← spec.readFrom ⟨[], none⟩ none arguments
  match a.operand with
  | some operand => pure (operand, a)
  | none => .error (.misuse .missingOperand)

end CommandSpec

end AgentPipeline
