import BookHighlight.Compiler.Registry

namespace BookHighlight.Compiler

inductive Stage where
  | idle
  /-- the process runs, and the registry has not been asked for it yet -/
  | spawned
  /-- the registry was found closed, and the process is still to be killed -/
  | refused
  | waiting
  /-- the process has been made to end, and is still to be discarded -/
  | ending
  | finished
  deriving DecidableEq, Repr

def Stage.isAdded : Stage → Bool
  | .waiting | .ending | .finished => true
  | .idle | .spawned | .refused => false

inductive Termination (α : Type) where
  | notCalled
  | killing (rest : List α)
  | returned
  deriving DecidableEq, Repr

def Termination.snapshot {α : Type} : Termination α → List α
  | .killing rest => rest
  | .notCalled | .returned => []

/-- Compilations at work beside a main thread. Each has its own process, by which it is named. -/
structure Pool (α : Type) where
  supervision : Supervision α
  stage : α → Stage
  termination : Termination α

variable {α : Type} [DecidableEq α]

namespace Pool

def start : Pool α := ⟨.empty, fun _ => .idle, .notCalled⟩

def tracked (s : Pool α) : List α := s.supervision.registry.tracked

def closed (s : Pool α) : Bool := s.supervision.registry.closed

def Runs (s : Pool α) (p : α) : Prop := s.stage p ≠ .idle ∧ s.supervision.fates.isRunning p = true

def track (s : Pool α) (p : α) : Pool α :=
  { s with supervision.registry := s.supervision.registry.track p }

def kill (s : Pool α) (p : α) : Pool α := { s with supervision := s.supervision.kill p }

def exit (s : Pool α) (p : α) : Pool α := { s with supervision := s.supervision.exit p }

def discard (s : Pool α) (p : α) : Pool α := { s with supervision := s.supervision.discard p }

def moveTo (s : Pool α) (p : α) (stage : Stage) : Pool α :=
  { s with stage := fun q => if q = p then stage else s.stage q }

def proceed (s : Pool α) (termination : Termination α) : Pool α := { s with termination }

def close (s : Pool α) : Pool α :=
  let (registry, processes) := s.supervision.registry.close
  { s with supervision.registry := registry, termination := .killing processes }

@[simp] theorem stage_moveTo (s : Pool α) (p : α) (stage : Stage) :
    (s.moveTo p stage).stage p = stage := if_pos rfl

theorem stage_moveTo_of_ne {p q : α} (h : q ≠ p) (s : Pool α) (stage : Stage) :
    (s.moveTo p stage).stage q = s.stage q := if_neg h

/-- The atomic steps. A compilation starts its process, has it tracked or else killed, waits, makes
    it end and discards it; the main thread closes the registry and kills what it tracked, in any
    order. What is done under the registry's lock is one step, and so is each kill. -/
inductive Step : Pool α → Pool α → Prop where
  | spawn {s p} : s.stage p = .idle → Step s (s.moveTo p .spawned)
  | track {s p} : s.stage p = .spawned → s.closed = false →
      Step s ((s.track p).moveTo p .waiting)
  | refuse {s p} : s.stage p = .spawned → s.closed = true → Step s (s.moveTo p .refused)
  | killRefused {s p} : s.stage p = .refused → Step s ((s.kill p).moveTo p .waiting)
  | exit {s p} : s.stage p ≠ .idle → Step s (s.exit p)
  /-- the time limit has passed -/
  | killOverdue {s p} : s.stage p = .waiting → Step s (s.kill p)
  /-- the wait is over, for whatever reason -/
  | finish {s p} : s.stage p = .waiting → Step s ((s.kill p).moveTo p .ending)
  | discard {s p} : s.stage p = .ending → Step s ((s.discard p).moveTo p .finished)
  | close {s} : s.termination = .notCalled ∨ s.termination = .returned → Step s s.close
  | killTracked {s rest p} : s.termination = .killing rest → p ∈ rest →
      Step s ((s.kill p).proceed (.killing (rest.erase p)))
  | conclude {s} : s.termination = .killing [] → Step s (s.proceed .returned)

end Pool

end BookHighlight.Compiler
