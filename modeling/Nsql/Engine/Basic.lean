/-
  File:      Nsql/Engine/Basic.lean
  Subject:   The engine: which validator checks a text.

  An engine has a configuration and may have a validator of any kind put into it. If it has none,
  the parser of its configuration checks the text as long as it is installed, and the built-in
  validator otherwise. Whether it is installed is looked up for every text.
-/
import Nsql.Engine.Program
import Nsql.Scan.Basic

namespace Nsql

/-- The parser to use and how many milliseconds to wait for it. -/
structure Config where
  parserPath : Option String
  timeout : Nat
  deriving DecidableEq, Repr

/-- How long a parser may take if nothing is said: ten seconds. -/
def defaultTimeout : Nat := 10000

/-- No parser. -/
def Config.default : Config := ⟨none, defaultTimeout⟩

/-- The parser of a configuration, if it is installed. -/
def Config.parser? (config : Config) (host : Host) : Option Program :=
  config.parserPath.bind host.program?

/-- A validator that can be put into an engine, by what it finds in a text and how many
    milliseconds it waits before it answers, if it waits at all. -/
structure Provider where
  name : String
  diagnose : Text → List Diagnostic
  delay : Text → Option Nat

/-- What checks a text. -/
inductive Validator where
  | builtIn
  | external (parser : Program) (timeout : Nat)
  | given (provider : Provider)

/-- The name of a validator. -/
def Validator.name : Validator → String
  | .builtIn => "built-in"
  | .external _ _ => "external parser"
  | .given provider => provider.name

/-- The findings of a validator about a text. -/
def Validator.check (host : Host) : Validator → Text → List Diagnostic
  | .builtIn, t => scan t
  | .external parser timeout, t => parser.check host timeout t
  | .given provider, t => provider.diagnose t

/-- How many milliseconds a validator waits before it answers; `none` if it answers at once. -/
def Validator.delay (host : Host) : Validator → Text → Option Nat
  | .builtIn, _ => none
  | .external parser timeout, t => parser.delay host timeout t
  | .given provider, t => provider.delay t

/-- A configuration, and the validator that was put in. -/
structure Engine where
  config : Config
  provider : Option Provider

namespace Engine

/-- The engine of a configuration. -/
def ofConfig (config : Config) : Engine := ⟨config, none⟩

/-- The engine that always uses a validator. -/
def ofProvider (provider : Provider) : Engine := ⟨.default, some provider⟩

/-- The validator that checks a text now. -/
def validator (host : Host) (e : Engine) : Validator :=
  match e.provider with
  | some provider => .given provider
  | none =>
    match e.config.parser? host with
    | some parser => .external parser e.config.timeout
    | none => .builtIn

/-- The findings of an engine about a text. -/
def check (host : Host) (e : Engine) (t : Text) : List Diagnostic := (e.validator host).check host t

/-- How many milliseconds an engine waits before it answers; `none` if it answers at once. -/
def delay (host : Host) (e : Engine) (t : Text) : Option Nat := (e.validator host).delay host t

end Engine

/-! ## The text of an engine -/

/-- A number of milliseconds in the largest fitting unit. -/
def durationText (ms : Nat) : String :=
  if ms = 0 then "0ns"
  else if ms < 1000 then toString ms ++ "ms"
  else
    let digits := Nat.toDigits 10 (1000 + ms % 1000)
    let fraction := ((digits.drop 1).reverse.dropWhile (· == '0')).reverse
    let tail := if fraction.isEmpty then "" else "." ++ String.ofList fraction
    toString (ms / 1000) ++ tail ++ "s"

/-- An optional string as it is shown inside a message. -/
def optionText : Option String → String
  | none => "None"
  | some s => "Some(" ++ Quoted.text s ++ ")"

/-- An engine as it is shown in a log. -/
def Engine.text (e : Engine) : String :=
  "ValidationEngine \x7b config: ValidationConfig \x7b parser_path: " ++
    optionText e.config.parserPath ++ ", parser_timeout: " ++ durationText e.config.timeout ++
    " \x7d, provider: " ++ optionText (e.provider.map Provider.name) ++ " \x7d"

end Nsql
