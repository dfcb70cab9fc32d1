import WindowFold.Operator

/-! A source that acts out a script and counts how it is called. -/
namespace WindowFold

inductive ScriptLine where
  | answer (answer : Answer)
  | failure (text : String)
  deriving DecidableEq

structure Script where
  name : String
  schema : Schema
  lines : List ScriptLine
  /-- What closing fails with, every time. -/
  closeFailure : Option Failure
  /-- Answered that it has nothing yet, and was not asked for its readiness since. -/
  awaiting : Bool
  pulls : Nat
  readinessChecks : Nat
  closes : Nat
  deriving DecidableEq

namespace Script

def create (name : String) (schema : Schema) (lines : List ScriptLine)
    (closeFailure : Option Failure) : Script :=
  ⟨name, schema, lines, closeFailure, false, 0, 0, 0⟩

/-- A pull that comes too early is refused and changes nothing. -/
def next (s : Script) : Attempt Script Answer :=
  if s.awaiting then (.error (.protocolViolation "scripted" .pulledTwice), s)
  else
    let s := { s with pulls := s.pulls + 1 }
    match s.lines with
    | [] => (.ok .endOfStream, s)
    | .answer answer :: rest =>
      (.ok answer, { s with lines := rest, awaiting := answer = .notReady })
    | .failure text :: rest => (.error (.unsupported (.other text)), { s with lines := rest })

def close (s : Script) : Attempt Script Unit :=
  let s := { s with closes := s.closes + 1 }
  match s.closeFailure with
  | some e => (.error e, s)
  | none => (.ok (), s)

instance : Operator Script where
  schema := schema
  hasNext s := .ok (!s.lines.isEmpty)
  readiness s := (.ready, { s with awaiting := false, readinessChecks := s.readinessChecks + 1 })
  next := next
  close := close
  poll _ s := (true, s)
  isComplete _ _ := true
  release _ s := s
  work s := s.lines.length

end Script
end WindowFold
