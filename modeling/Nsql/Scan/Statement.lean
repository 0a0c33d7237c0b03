/-
  File:      Nsql/Scan/Statement.lean
  Subject:   Statements, collected line by line.

  A statement is a run of lines. `Pending` is the statement that is being collected, if any:
  pushing a line opens one or extends it, and taking it hands it over and leaves nothing behind.
-/
import Nsql.Scan.Keyword

namespace Nsql.Scan

/-- A run of lines and the index of the first one. -/
structure Statement where
  startLine : Nat
  lines : List Text
  deriving DecidableEq, Repr

/-- Whether some line of a statement holds a word that begins a query. -/
def Statement.hasQueryWord (s : Statement) : Bool := s.lines.any holdsQueryWord

/-- The statement that is being collected. -/
inductive Pending where
  | idle
  | collecting (statement : Statement)
  deriving DecidableEq, Repr

namespace Pending

/-- One more line; `index` matters only if it is the first one. -/
def push (index : Nat) (line : Text) : Pending → Pending
  | .idle => .collecting ⟨index, [line]⟩
  | .collecting s => .collecting ⟨s.startLine, s.lines ++ [line]⟩

/-- What has been collected. -/
def statement? : Pending → Option Statement
  | .idle => none
  | .collecting s => some s

/-- Hands over what has been collected and starts anew. -/
def take (p : Pending) : Option Statement × Pending := (p.statement?, .idle)

/-- Whether a line collected so far holds a word that begins a query. -/
def hasQueryWord (p : Pending) : Bool := p.statement?.any Statement.hasQueryWord

/-- Index of the first line collected. -/
def startLine? (p : Pending) : Option Nat := p.statement?.map Statement.startLine

end Pending

end Nsql.Scan
