import BookHighlight.Transform.Outcome

namespace BookHighlight

open Markdown (Construct)

def Response.result : Response → RenderResult
  | .notStarted reason => .failed (.notStarted reason)
  | .timedOut _ => .failed .timedOut
  | .interrupted => .raised .interrupt
  | .overflow => .raised .overflow
  | .exited status stderr artifact =>
    if status = 0 then artifact.read else .failed (.exited status (stderrExcerpt stderr))

namespace Compiler

def obstacle? (compiler : Compiler) : Option RenderFailure :=
  if !compiler.found then some .notFound
  else compiler.workspaceError.map RenderFailure.noWorkspace

def Supervision.release (s : Supervision Nat) (process : Nat) (response : Response) :
    Supervision Nat :=
  let s := match response with
    | .timedOut none => s.kill process
    | .timedOut (some _) => (s.exit process).kill process
    | .exited .. => s.exit process
    | .notStarted _ | .interrupted | .overflow => s
  (s.kill process).discard process

end Compiler

namespace Workshop

def hand (workshop : Workshop) (document : List Char) : Workshop :=
  { workshop with compiled := document :: workshop.compiled }

def start (workshop : Workshop) : Workshop :=
  { workshop with
    supervision := workshop.supervision.add workshop.started
    started := workshop.started + 1 }

def release (workshop : Workshop) (process : Nat) (response : Response) : Workshop :=
  { workshop with supervision := workshop.supervision.release process response }

end Workshop

inductive Progress where
  | unsubmitted
  | queued
  /-- a worker has taken the call -/
  | begun
  /-- a worker waits for the process, which will respond like this -/
  | compiling (process : Nat) (response : Response)
  /-- the future of the call holds the outcome -/
  | done (outcome : Outcome)
  deriving DecidableEq, Repr

def Progress.isBusy : Progress → Bool
  | .begun | .compiling .. => true
  | .unsubmitted | .queued | .done _ => false

structure Call where
  construct : Construct
  progress : Progress
  deriving DecidableEq, Repr

structure Crew where
  workshop : Workshop
  calls : List Call
  joined : List Outcome

namespace Crew

def start (workshop : Workshop) (cs : List Construct) : Crew where
  workshop := workshop
  calls := cs.map fun c => ⟨c, .unsubmitted⟩
  joined := []

def busy (s : Crew) : Nat := s.calls.countP fun call => call.progress.isBusy

def Submitted (s : Crew) : Prop := ∀ call ∈ s.calls, call.progress ≠ .unsubmitted

def Returned (s : Crew) : Prop :=
  s.joined.length = s.calls.length ∧ ∀ call ∈ s.calls, ∃ outcome, call.progress = .done outcome

end Crew

namespace Transformer

def document (t : Transformer) (c : Construct) : List Char :=
  t.renderer.compose c.code (t.policyFor c).usePrelude

def treatment (t : Transformer) (c : Construct) : RenderResult → Except Disruption Treatment
  | .image bytes => .ok (.rendered (t.html c) (imageHtml bytes))
  | .failed failure => .ok (.renderFailed (t.html c) (failure.reason t.renderer))
  | .raised disruption => .error disruption

def outcome (t : Transformer) (c : Construct) (result : RenderResult) :
    Except Disruption Outcome :=
  (t.treatment c result).map fun treatment => ⟨c, t.policyFor c, treatment⟩

def direct? (t : Transformer) (c : Construct) : Option Treatment :=
  if !(t.policyFor c).highlight then some .unchanged
  else if !(t.policyFor c).render then some (.highlighted (t.html c))
  else t.compiler.obstacle?.map fun failure =>
    .renderFailed (t.html c) (failure.reason t.renderer)

/-- The steps of a worker that has taken the call for a piece of code. Only the start of a process
    and the end of the wait for it touch what workers have in common. -/
inductive Works (t : Transformer) (c : Construct) :
    Workshop → Progress → Workshop → Progress → Prop where
  | settle {w treatment} : t.direct? c = some treatment →
      Works t c w .begun w (.done ⟨c, t.policyFor c, treatment⟩)
  | refuse {w reason outcome} : t.direct? c = none → t.compiler.writes (t.document c) = true →
      t.compiler.respond t.config.timeout w.compiled (t.document c) = .notStarted reason →
      t.outcome c (.failed (.notStarted reason)) = .ok outcome →
      Works t c w .begun (w.hand (t.document c)) (.done outcome)
  | compile {w response} : t.direct? c = none → t.compiler.writes (t.document c) = true →
      t.compiler.respond t.config.timeout w.compiled (t.document c) = response →
      (∀ reason, response ≠ .notStarted reason) →
      Works t c w .begun (w.hand (t.document c)).start (.compiling w.started response)
  | finish {w process response outcome} : t.outcome c response.result = .ok outcome →
      Works t c w (.compiling process response) (w.release process response) (.done outcome)

end Transformer

namespace Crew

/-- The steps of a pool that is not broken off. Calls are submitted and joined in order; a worker
    that is free takes any call that is submitted, and each works at its own pace. -/
inductive Step (t : Transformer) : Crew → Crew → Prop where
  | submit {s c after} (before : List Call) : s.calls = before ++ ⟨c, .unsubmitted⟩ :: after →
      (∀ call ∈ before, call.progress ≠ .unsubmitted) →
      Step t s { s with calls := before ++ ⟨c, .queued⟩ :: after }
  | take {s c after} (before : List Call) : s.calls = before ++ ⟨c, .queued⟩ :: after →
      s.busy < t.config.jobs →
      Step t s { s with calls := before ++ ⟨c, .begun⟩ :: after }
  | work {s c progress after workshop progress'} (before : List Call) :
      s.calls = before ++ ⟨c, progress⟩ :: after →
      t.Works c s.workshop progress workshop progress' →
      Step t s { s with workshop, calls := before ++ ⟨c, progress'⟩ :: after }
  | join {s c outcome after} (before : List Call) : s.Submitted →
      s.calls = before ++ ⟨c, .done outcome⟩ :: after → before.length = s.joined.length →
      Step t s { s with joined := s.joined ++ [outcome] }

end Crew

end BookHighlight
