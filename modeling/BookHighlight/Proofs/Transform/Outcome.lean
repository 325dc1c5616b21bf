import BookHighlight.Transform.Schedule
import BookHighlight.Proofs.Compiler.Rendering
import BookHighlight.Proofs.Markup.Fragment
import BookHighlight.Proofs.Text.Base64

namespace BookHighlight.Transformer

open Markdown (Construct)

inductive Treats (t : Transformer) (workshop : Workshop) (c : Construct) :
    Treatment → Workshop → Prop where
  | skipped : (t.policyFor c).highlight = false → Treats t workshop c .unchanged workshop
  | highlighted : (t.policyFor c).highlight = true → (t.policyFor c).render = false →
      Treats t workshop c (.highlighted (t.html c)) workshop
  | rendered {bytes after} : (t.policyFor c).highlight = true → (t.policyFor c).render = true →
      t.renderer.render t.compiler workshop c.code (t.policyFor c).usePrelude =
        (.image bytes, after) →
      Treats t workshop c (.rendered (t.html c) (imageHtml bytes)) after
  | renderFailed {failure after} : (t.policyFor c).highlight = true →
      (t.policyFor c).render = true →
      t.renderer.render t.compiler workshop c.code (t.policyFor c).usePrelude =
        (.failed failure, after) →
      Treats t workshop c (.renderFailed (t.html c) (failure.reason t.renderer)) after

inductive Processes (t : Transformer) :
    Workshop → List Construct → List Outcome → Workshop → Prop where
  | nil {workshop} : Processes t workshop [] [] workshop
  | cons {workshop between after c treatment rest outcomes} :
      Treats t workshop c treatment between → Processes t between rest outcomes after →
      Processes t workshop (c :: rest) (⟨c, t.policyFor c, treatment⟩ :: outcomes) after

variable {t : Transformer} {workshop after : Workshop} {c : Construct} {treatment : Treatment}

structure BreaksOff (t : Transformer) (earlier : List (List Char)) (c : Construct)
    (disruption : Disruption) : Prop where
  highlight : (t.policyFor c).highlight = true
  render : (t.policyFor c).render = true
  disrupts : t.compiler.Disrupts t.config.timeout earlier (t.document c) disruption

def Completes (t : Transformer) (c : Construct) : Prop :=
  ∀ earlier disruption, ¬ t.BreaksOff earlier c disruption

theorem completes_of_undisturbed (undisturbed : t.compiler.Undisturbed) (c : Construct) :
    t.Completes c :=
  fun _ _ breaks => undisturbed.not_disrupts _ _ _ _ breaks.disrupts

theorem process_cases (t : Transformer) (workshop : Workshop) (c : Construct) :
    (∃ treatment after, t.process workshop c = (.ok ⟨c, t.policyFor c, treatment⟩, after) ∧
      Treats t workshop c treatment after) ∨
    ∃ disruption after, t.process workshop c = (.error disruption, after) ∧
      t.BreaksOff workshop.compiled c disruption := by
  cases highlight : (t.policyFor c).highlight with
  | false => exact .inl ⟨_, _, by simp [process, highlight], .skipped highlight⟩
  | true =>
    cases render : (t.policyFor c).render with
    | false =>
      exact .inl ⟨_, _, by simp [process, highlight, render], .highlighted highlight render⟩
    | true =>
      match result : t.renderer.render t.compiler workshop c.code (t.policyFor c).usePrelude with
      | (.image bytes, after) =>
        exact .inl ⟨_, _, by simp [process, highlight, render, result],
          .rendered highlight render result⟩
      | (.failed failure, after) =>
        exact .inl ⟨_, _, by simp [process, highlight, render, result],
          .renderFailed highlight render result⟩
      | (.raised disruption, after) =>
        have disrupts := t.renderer.render_eq_raised_iff.mp (congrArg Prod.fst result)
        exact .inr ⟨_, after, by simp [process, highlight, render, result],
          highlight, render, disrupts⟩

inductive Stops (t : Transformer) (disruption : Disruption) : Workshop → List Construct → Prop where
  | here {workshop c rest} : t.BreaksOff workshop.compiled c disruption →
      Stops t disruption workshop (c :: rest)
  | later {workshop between c treatment rest} : Treats t workshop c treatment between →
      Stops t disruption between rest → Stops t disruption workshop (c :: rest)

theorem Stops.exists_breaksOff {disruption : Disruption} {cs : List Construct}
    (h : Stops t disruption workshop cs) :
    ∃ c ∈ cs, ∃ earlier, t.BreaksOff earlier c disruption := by
  induction h with
  | here breaks => exact ⟨_, List.mem_cons_self, _, breaks⟩
  | later _ _ ih =>
    obtain ⟨c, member, breaks⟩ := ih
    exact ⟨c, List.mem_cons_of_mem _ member, breaks⟩

theorem Treats.process_eq (h : Treats t workshop c treatment after) :
    t.process workshop c = (.ok ⟨c, t.policyFor c, treatment⟩, after) := by
  cases h with
  | skipped highlight => simp [process, highlight]
  | highlighted highlight render => simp [process, highlight, render]
  | rendered highlight render result => simp [process, highlight, render, result]
  | renderFailed highlight render result => simp [process, highlight, render, result]

theorem BreaksOff.process_eq {disruption : Disruption}
    (h : t.BreaksOff workshop.compiled c disruption) :
    ∃ after, t.process workshop c = (.error disruption, after) := by
  have raised : (t.renderer.render t.compiler workshop c.code (t.policyFor c).usePrelude).1 =
      .raised disruption := t.renderer.render_eq_raised_iff.mpr h.disrupts
  match result : t.renderer.render t.compiler workshop c.code (t.policyFor c).usePrelude with
  | (_, after) =>
    rw [result] at raised
    cases raised
    exact ⟨after, by simp [process, h.highlight, h.render, result]⟩

theorem Stops.processAll_eq {disruption : Disruption} {cs : List Construct}
    (h : Stops t disruption workshop cs) :
    ∃ after, t.processAll workshop cs = (.error disruption, after) := by
  induction h with
  | here breaks =>
    obtain ⟨after, stops⟩ := breaks.process_eq
    exact ⟨after, by simp [processAll, stops]⟩
  | later treats _ ih =>
    obtain ⟨after, stops⟩ := ih
    exact ⟨after, by simp [processAll, treats.process_eq, stops]⟩

/-- All pieces of code get their outcomes, or the compilation of one of them is broken off. -/
theorem processAll_cases (t : Transformer) (workshop : Workshop) (cs : List Construct) :
    (∃ outcomes after, t.processAll workshop cs = (.ok outcomes, after) ∧
      Processes t workshop cs outcomes after) ∨
    ∃ disruption after, t.processAll workshop cs = (.error disruption, after) ∧
      Stops t disruption workshop cs := by
  induction cs generalizing workshop with
  | nil => exact .inl ⟨[], workshop, rfl, .nil⟩
  | cons c rest ih =>
    rcases t.process_cases workshop c with
      ⟨treatment, between, first, treats⟩ | ⟨disruption, after, stops, breaks⟩
    · rcases ih between with
        ⟨outcomes, after, others, processes⟩ | ⟨disruption, after, stopped, stops⟩
      · exact .inl ⟨_, after, by simp [processAll, first, others], .cons treats processes⟩
      · exact .inr ⟨_, after, by simp [processAll, first, stopped], .later treats stops⟩
    · exact .inr ⟨_, after, by simp [processAll, stops], .here breaks⟩

theorem exists_treats (workshop : Workshop) (completes : t.Completes c) : ∃ treatment after,
    t.process workshop c = (.ok ⟨c, t.policyFor c, treatment⟩, after) ∧
      Treats t workshop c treatment after := by
  rcases t.process_cases workshop c with treats | ⟨disruption, _, _, breaks⟩
  · exact treats
  · exact absurd breaks (completes _ disruption)

theorem exists_processes (workshop : Workshop) {cs : List Construct}
    (completes : ∀ c ∈ cs, t.Completes c) : ∃ outcomes after,
      t.processAll workshop cs = (.ok outcomes, after) ∧
        Processes t workshop cs outcomes after := by
  rcases t.processAll_cases workshop cs with processes | ⟨disruption, _, _, stops⟩
  · exact processes
  · obtain ⟨c, member, _, breaks⟩ := stops.exists_breaksOff
    exact absurd breaks (completes c member _ disruption)

theorem Processes.of_eq_ok {cs : List Construct} {outcomes : List Outcome}
    (h : t.processAll workshop cs = (.ok outcomes, after)) :
    Processes t workshop cs outcomes after := by
  rcases t.processAll_cases workshop cs with ⟨_, _, ran, processes⟩ | ⟨_, _, stops, _⟩
  · cases ran.symm.trans h
    exact processes
  · cases stops.symm.trans h

namespace Treats

theorem isSome_replacement? (h : Treats t workshop c treatment after) :
    treatment.replacement?.isSome = (t.policyFor c).highlight := by
  cases h with
  | skipped highlight => exact highlight.symm
  | highlighted highlight _ => exact highlight.symm
  | rendered highlight _ _ => exact highlight.symm
  | renderFailed highlight _ _ => exact highlight.symm

theorem replacement_eq (h : Treats t workshop c treatment after) :
    ∀ text ∈ treatment.replacement?,
      text = t.html c ∨ ∃ bytes, text = t.html c ++ imageHtml bytes := by
  intro text replaced
  cases h with
  | skipped _ => cases replaced
  | highlighted _ _ => exact .inl (Option.some.inj replaced).symm
  | rendered _ _ _ => exact .inr ⟨_, (Option.some.inj replaced).symm⟩
  | renderFailed _ _ _ => exact .inl (Option.some.inj replaced).symm

end Treats

theorem lf_not_mem_imageHtml (bytes : List UInt8) : '\n' ∉ imageHtml bytes := by
  unfold imageHtml
  simp only [List.mem_append, not_or]
  exact ⟨⟨by decide, Text.lf_not_mem_toBase64 bytes⟩, by decide⟩

theorem not_mem_html {char : Char} (masked : Markup.Masked char) (colours : t.theme.Lacks char)
    (lead : ∀ block, c = .block block → char ∉ block.lead) : char ∉ t.html c := by
  cases c with
  | span span => exact Markup.not_mem_highlight masked t.grammar colours true span.code
  | block block =>
    have code := Markup.not_mem_highlight masked t.grammar colours false block.code
    simp [html, lead block rfl, code]

namespace Processes

variable {cs : List Construct} {outcomes : List Outcome}

theorem constructs_eq (h : Processes t workshop cs outcomes after) :
    outcomes.map (·.construct) = cs := by
  induction h with
  | nil => rfl
  | cons _ _ ih => rw [List.map_cons, ih]

theorem exists_treats (h : Processes t workshop cs outcomes after) :
    ∀ outcome ∈ outcomes, outcome.policy = t.policyFor outcome.construct ∧
      ∃ before later, Treats t before outcome.construct outcome.treatment later := by
  induction h with
  | nil => simp
  | cons treats _ ih => exact List.forall_mem_cons.mpr ⟨⟨rfl, _, _, treats⟩, ih⟩

end Processes

end BookHighlight.Transformer
