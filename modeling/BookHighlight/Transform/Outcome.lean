import BookHighlight.Compiler.Rendering
import BookHighlight.Grammar.Typst
import BookHighlight.Log
import BookHighlight.Markdown.Construct
import BookHighlight.Markup.Fragment
import BookHighlight.Policy
import BookHighlight.Text.Base64

namespace BookHighlight

open Markdown (Construct)

inductive Treatment where
  | unchanged
  | highlighted (html : List Char)
  | rendered (html image : List Char)
  | renderFailed (html : List Char) (reason : String)
  deriving DecidableEq, Repr

structure Outcome where
  construct : Construct
  policy : Policy
  treatment : Treatment
  deriving DecidableEq, Repr

inductive State where
  | unchanged
  | highlighted
  | rendered
  | renderFailed
  deriving DecidableEq, Repr

namespace State

def all : List State := [.unchanged, .highlighted, .rendered, .renderFailed]

def name : State → String
  | .unchanged => "unchanged"
  | .highlighted => "highlighted-only"
  | .rendered => "highlighted-and-rendered"
  | .renderFailed => "highlighted-render-failed"

end State

namespace Treatment

def state : Treatment → State
  | .unchanged => .unchanged
  | .highlighted _ => .highlighted
  | .rendered _ _ => .rendered
  | .renderFailed _ _ => .renderFailed

def replacement? : Treatment → Option (List Char)
  | .unchanged => none
  | .highlighted html | .renderFailed html _ => some html
  | .rendered html image => some (html ++ image)

def reason? : Treatment → Option String
  | .renderFailed _ reason => some reason
  | _ => none

end Treatment

namespace Outcome

def state (o : Outcome) : State := o.treatment.state

end Outcome

def imageHtml (bytes : List UInt8) : List Char :=
  "<div class=\"typst-render\"><img src=\"data:image/svg+xml;base64,".toList ++
    Text.toBase64 bytes ++ "\" alt=\"Rendered Typst\"></div>".toList

structure Transformer where
  config : Config
  grammar : Grammar := Grammar.typst
  theme : Theme
  compiler : Compiler := .absent

namespace Transformer

def renderer (t : Transformer) : Renderer where
  binary := t.config.typstBinary
  timeout := t.config.timeout
  prelude := t.config.prelude.toList

def policyFor (t : Transformer) : Construct → Policy
  | .span _ => .inline t.config
  | .block ⟨.indented, _, _, _, _⟩ => .block t.config none
  | .block ⟨.fenced _ tag, _, _, _, _⟩ => .block t.config tag

def html (t : Transformer) : Construct → List Char
  | .span s => Markup.highlight t.grammar t.theme true s.code
  | .block b => b.lead ++ Markup.highlight t.grammar t.theme false b.code

def process (t : Transformer) (workshop : Workshop) (c : Construct) :
    Except Disruption Outcome × Workshop :=
  let policy := t.policyFor c
  let outcome := fun treatment => .ok (⟨c, policy, treatment⟩ : Outcome)
  if !policy.highlight then (outcome .unchanged, workshop)
  else
    let html := t.html c
    if !policy.render then (outcome (.highlighted html), workshop)
    else
      match t.renderer.render t.compiler workshop c.code policy.usePrelude with
      | (.image bytes, workshop) => (outcome (.rendered html (imageHtml bytes)), workshop)
      | (.failed failure, workshop) =>
        (outcome (.renderFailed html (failure.reason t.renderer)), workshop)
      | (.raised disruption, workshop) => (.error disruption, workshop)

def processAll (t : Transformer) :
    Workshop → List Construct → Except Disruption (List Outcome) × Workshop
  | workshop, [] => (.ok [], workshop)
  | workshop, c :: rest =>
    match t.process workshop c with
    | (.error disruption, workshop) => (.error disruption, workshop)
    | (.ok outcome, workshop) =>
      match processAll t workshop rest with
      | (.error disruption, workshop) => (.error disruption, workshop)
      | (.ok outcomes, workshop) => (.ok (outcome :: outcomes), workshop)

end Transformer

end BookHighlight
