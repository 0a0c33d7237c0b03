/-
  File:      Nsql/Engine/Program.lean
  Subject:   External parsers: programs that are run on a text.

  A program is known by what happens when it is started on a file with a given text: the system
  refuses to start it, or it runs for a while, writes to its two outputs and ends. `Program.run`
  waits no longer than the timeout and accepts only a successful end; each way to fail is a
  `Failure`.
-/
import Nsql.Json.Form
import Nsql.Report.Reader
import Nsql.Text.Blank
import Nsql.Text.Decode

namespace Nsql

/-! ## 1. How a program ends -/

/-- How a process ended, or that it did not. -/
inductive ExitStatus where
  | exited (code : Nat)
  | signaled (signal : Nat) (coreDumped : Bool)
  | stopped (signal : Nat)
  | continued
  | unknown (status : Int)
  deriving DecidableEq, Repr

namespace ExitStatus

/-- The status in the form in which the system reports it: seven bits for a signal, one for a
    core dump, eight for an exit code. -/
def ofWait (status : Int) : ExitStatus :=
  let bits := (status % 4294967296).toNat
  let signal := bits % 128
  let code := bits / 256 % 256
  if signal = 0 then .exited code
  else if signal ≠ 127 then .signaled signal (bits / 128 % 2 = 1)
  else if bits % 256 = 127 then .stopped code
  else if bits = 65535 then .continued
  else .unknown status

/-- Whether the process ended well. -/
def isSuccess (s : ExitStatus) : Bool := s == .exited 0

/-- The names of the signals, from the first one on. -/
def signalNames : List String :=
  ["SIGHUP", "SIGINT", "SIGQUIT", "SIGILL", "SIGTRAP", "SIGABRT", "SIGBUS", "SIGFPE", "SIGKILL",
    "SIGUSR1", "SIGSEGV", "SIGUSR2", "SIGPIPE", "SIGALRM", "SIGTERM", "SIGSTKFLT", "SIGCHLD",
    "SIGCONT", "SIGSTOP", "SIGTSTP", "SIGTTIN", "SIGTTOU", "SIGURG", "SIGXCPU", "SIGXFSZ",
    "SIGVTALRM", "SIGPROF", "SIGWINCH", "SIGIO", "SIGPWR", "SIGSYS"]

/-- A signal by its number, and by its name if it has one. -/
def signalText (signal : Nat) : String :=
  match signalNames[signal - 1]? with
  | some name => if signal = 0 then "0" else toString signal ++ " (" ++ name ++ ")"
  | none => toString signal

/-- The words for a status. -/
def text : ExitStatus → String
  | .exited code => "exit status: " ++ toString code
  | .signaled signal false => "signal: " ++ signalText signal
  | .signaled signal true => "signal: " ++ signalText signal ++ " (core dumped)"
  | .stopped signal => "stopped (not terminated) by signal: " ++ signalText signal
  | .continued => "continued (WIFCONTINUED)"
  | .unknown status =>
    "unrecognised wait status: " ++ toString status ++ " 0x" ++
      String.ofList (Nat.toDigits 16 (status % 4294967296).toNat)

end ExitStatus

/-! ## 2. Programs -/

/-- What happens when a program is started. -/
inductive Launch where
  /-- The system does not start it, for this reason. -/
  | refused (reason : String)
  /-- It runs for so many milliseconds, ends with this status and has written these bytes. -/
  | ran (elapsed : Nat) (status : ExitStatus) (stdout stderr : List UInt8)
  deriving DecidableEq, Repr

/-- A program, by what happens when it is started on a file with a given text. -/
structure Program where
  launch : Text → Launch

/-- The system around the server. -/
structure Host where
  /-- The programs that are installed, by path. -/
  programs : List (String × Program)
  /-- Why no temporary file can be written, if so. -/
  tempFault : Option String := none
  /-- The parser that the environment names. -/
  parserVariable : Option String := none
  /-- How URIs are read. -/
  uris : UriReader

/-- The program at a path. -/
def Host.program? (host : Host) (path : String) : Option Program := host.programs.lookup path

/-! ## 3. Running a parser -/

/-- Why a parser gave no report. -/
inductive Failure where
  | tempFile (reason : String)
  | spawn (reason : String)
  | io (reason : String)
  | timeout (milliseconds : Nat)
  | exit (status : ExitStatus) (stderr : String)
  deriving DecidableEq, Repr

/-- The words for a failure. -/
def Failure.message : Failure → String
  | .tempFile reason => "failed to write temporary file: " ++ reason
  | .spawn reason => "failed to start parser: " ++ reason
  | .io reason => "I/O error while running parser: " ++ reason
  | .timeout ms => "parser timed out after " ++ toString ms ++ " ms"
  | .exit status stderr => "parser exited with " ++ status.text ++ ": " ++ stderr

/-- Runs a parser on a text: what it wrote to its standard output, as text. -/
def Program.run (host : Host) (timeout : Nat) (p : Program) (t : Text) : Except Failure Text :=
  match host.tempFault with
  | some reason => .error (.tempFile reason)
  | none =>
    match p.launch t with
    | .refused reason => .error (.spawn reason)
    | .ran elapsed status stdout stderr =>
      if timeout ≤ elapsed then .error (.timeout timeout)
      else if status.isSuccess then .ok (Text.decode stdout)
      else .error (.exit status (String.ofList (Text.trimBlanks (Text.decode stderr))))

/-- How many milliseconds are spent waiting for a parser; `none` if it is not even started. -/
def Program.delay (host : Host) (timeout : Nat) (p : Program) (t : Text) : Option Nat :=
  match host.tempFault, p.launch t with
  | none, .ran elapsed _ _ _ => some (min timeout elapsed)
  | _, _ => none

/-! ## 4. What a run says about a document -/

/-- Width of the stretch at the top of a document where a failure is shown. -/
def failureWidth : Nat := 10

/-- The diagnostic for a parser that gave no report. -/
def Failure.diagnostic (f : Failure) : Diagnostic :=
  ⟨.error, .inLine 0 0 failureWidth, "NSQL parser failed: " ++ f.message, some .parserFailure,
    .server⟩

/-- The diagnostic for a report that cannot be read. -/
def Report.Malformed.diagnostic (m : Report.Malformed) : Diagnostic :=
  ⟨.warning, .inLine 0 0 failureWidth, "NSQL parser returned unreadable output: " ++ m.message,
    some .parserOutput, .server⟩

/-- The diagnostics of a parser for a text. -/
def Program.check (host : Host) (timeout : Nat) (p : Program) (t : Text) : List Diagnostic :=
  match p.run host timeout t with
  | .error f => [f.diagnostic]
  | .ok report =>
    match Report.read report with
    | .ok records => Report.diagnostics records t
    | .error m => [m.diagnostic]

end Nsql
