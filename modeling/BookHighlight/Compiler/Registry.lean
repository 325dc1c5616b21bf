namespace BookHighlight.Compiler

variable {α : Type} [DecidableEq α]

/-- The processes to be killed when work is broken off. A closed registry takes no more. -/
structure Registry (α : Type) where
  tracked : List α
  closed : Bool
  deriving DecidableEq, Repr

namespace Registry

def empty : Registry α := ⟨[], false⟩

def track (r : Registry α) (p : α) : Registry α :=
  if r.closed ∨ p ∈ r.tracked then r else { r with tracked := r.tracked ++ [p] }

def discard (r : Registry α) (p : α) : Registry α := { r with tracked := r.tracked.erase p }

def close (r : Registry α) : Registry α × List α := (⟨[], true⟩, r.tracked)

end Registry

/-- What has become of processes. One that is not listed as ended is running. -/
structure Fates (α : Type) where
  ended : List α
  killed : List α
  deriving DecidableEq, Repr

namespace Fates

def none : Fates α := ⟨[], []⟩

def isRunning (f : Fates α) (p : α) : Bool := p ∉ f.ended

def exit (f : Fates α) (p : α) : Fates α :=
  if p ∈ f.ended then f else { f with ended := p :: f.ended }

def kill (f : Fates α) (p : α) : Fates α :=
  if p ∈ f.ended then f else ⟨p :: f.ended, f.killed ++ [p]⟩

end Fates

structure Supervision (α : Type) where
  registry : Registry α
  fates : Fates α
  deriving DecidableEq, Repr

namespace Supervision

def empty : Supervision α := ⟨.empty, .none⟩

def kill (s : Supervision α) (p : α) : Supervision α := { s with fates := s.fates.kill p }

def add (s : Supervision α) (p : α) : Supervision α :=
  if s.registry.closed then s.kill p else { s with registry := s.registry.track p }

def discard (s : Supervision α) (p : α) : Supervision α :=
  { s with registry := s.registry.discard p }

def exit (s : Supervision α) (p : α) : Supervision α := { s with fates := s.fates.exit p }

def terminateAll (s : Supervision α) : Supervision α × Nat :=
  let (registry, processes) := s.registry.close
  (⟨registry, processes.foldl Fates.kill s.fates⟩, processes.length)

end Supervision

inductive Event (α : Type) where
  | add (p : α)
  | discard (p : α)
  | exit (p : α)
  | terminate
  deriving DecidableEq, Repr

def Supervision.handle (s : Supervision α) : Event α → Supervision α × Option Nat
  | .add p => (s.add p, none)
  | .discard p => (s.discard p, none)
  | .exit p => (s.exit p, none)
  | .terminate =>
    let (s, count) := s.terminateAll
    (s, some count)

end BookHighlight.Compiler
