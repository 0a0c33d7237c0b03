/-
  File:      Nsql/Engine/Settings.lean
  Subject:   The configuration that a client's settings ask for.

  The settings of a client may have a section for this server; without one they say nothing. What
  the section leaves open is filled in: the parser from the environment, the timeout by the usual
  one. A configuration is accepted if its path is not empty and its timeout is not zero.
-/
import Nsql.Engine.Basic
import Nsql.Json.Form

namespace Nsql

/-- Why settings were not accepted. -/
inductive SettingsError where
  | emptyParserPath
  | zeroTimeout
  | invalid (m : Mismatch)
  deriving DecidableEq, Repr

/-- The words for an error. -/
def SettingsError.message : SettingsError → String
  | .emptyParserPath => "Parser path must not be empty"
  | .zeroTimeout => "Parser timeout must be greater than zero"
  | .invalid m => "Invalid nsql settings: " ++ m.message

/-- The section of the settings that is for this server. -/
def settingsSection : String := "nsql"

/-- What the section may say. -/
structure Settings where
  parserPath : Option String
  timeout : Option Nat
  deriving DecidableEq, Repr

namespace Settings

/-- How the section is written. -/
def form : Form :=
  .record "NsqlSettings" [.may "parserPath" .string, .may "parserTimeoutMs" .nat64]

/-- The settings that a value of their form stands for. -/
def ofJson (v : Json) : Settings :=
  ⟨(v.get? "parserPath").map Json.asString, (v.get? "parserTimeoutMs").map Json.asNat⟩

/-- Reads the section. -/
def decode : Json → Json.Decoded Settings := form.decode ofJson

end Settings

namespace Config

/-- The path that the environment gives: an empty value gives none. -/
def environmentPath (env : Option String) : Option String :=
  env.filter fun s => s ≠ ""

/-- The configuration of a server that has been told nothing. -/
def ofEnvironment (env : Option String) : Config := ⟨environmentPath env, defaultTimeout⟩

/-- The configuration that settings ask for, if they have a section for this server. -/
def ofSettings (env : Option String) (settings : Json) : Except SettingsError (Option Config) :=
  match settings.get? settingsSection with
  | none => .ok none
  | some v =>
    match Settings.decode v with
    | .error m => .error (.invalid m)
    | .ok s => .ok (some ⟨s.parserPath.or (environmentPath env), s.timeout.getD defaultTimeout⟩)

/-- Whether a configuration can be used. -/
def verdict (c : Config) : Except SettingsError Unit :=
  if c.parserPath = some "" then .error .emptyParserPath
  else if c.timeout = 0 then .error .zeroTimeout
  else .ok ()

/-! ## When two configurations are the same -/

/-- The parts of a path: whether it starts at the root, and the names on the way. Repeated and
    trailing slashes do not count, nor does a dot that is not the start of a relative path. -/
def pathParts (path : String) : Bool × List (List Char) :=
  let segments := path.toList.splitOn '/'
  let rooted := path.toList.head? == some '/'
  let dot := !rooted && segments.head? == some ['.']
  let names := segments.filter fun s => s ≠ [] ∧ s ≠ ['.']
  (rooted, if dot then ['.'] :: names else names)

/-- Whether two configurations name the same path and the same timeout. -/
def same (a b : Config) : Bool :=
  a.parserPath.map pathParts == b.parserPath.map pathParts && a.timeout == b.timeout

end Config

end Nsql
