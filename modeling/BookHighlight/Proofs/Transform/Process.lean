import BookHighlight.Proofs.Compiler.Exit
import BookHighlight.Proofs.Transform.Illustration

namespace BookHighlight

open Markdown (Construct)

theorem Policy.block_eq_skip_or (config : Config) (tag : Option Tag) :
    Policy.block config tag = skip ∨ (Policy.block config tag).highlight = true := by
  cases tag with
  | none =>
    by_cases on : config.typstDefault = true
    · exact .inr (congrArg highlight (if_pos on))
    · exact .inl (if_neg on)
  | some tag =>
    by_cases on : (if tag.base.isEmpty then config.typstDefault else tag.isTarget) = true
    · exact .inr (congrArg highlight (if_pos on))
    · exact .inl (if_neg on)

theorem Policy.highlight_of_render {config : Config} {tag : Option Tag}
    (h : (Policy.block config tag).render = true) : (Policy.block config tag).highlight = true := by
  rcases Policy.block_eq_skip_or config tag with skipped | highlights
  · rw [skipped] at h
    cases h
  · exact highlights

namespace Transformer

variable {t : Transformer} {c : Construct}

theorem highlight_of_render (h : (t.policyFor c).render = true) :
    (t.policyFor c).highlight = true := by
  unfold policyFor at h ⊢
  split at h
  · rw [Policy.render_inline] at h
    cases h
  · exact Policy.highlight_of_render h
  · exact Policy.highlight_of_render h

theorem direct?_eq_none_iff : t.direct? c = none ↔
    (t.policyFor c).render = true ∧ t.compiler.obstacle? = none := by
  unfold direct?
  cases render : (t.policyFor c).render with
  | false => cases (t.policyFor c).highlight <;> simp
  | true =>
    rw [highlight_of_render render]
    cases t.compiler.obstacle? <;> simp

theorem process_render {result : RenderResult} {workshop after : Workshop}
    (render : (t.policyFor c).render = true)
    (rendered : t.renderer.render t.compiler workshop c.code (t.policyFor c).usePrelude =
      (result, after)) : t.process workshop c = (t.outcome c result, after) := by
  unfold process
  simp only [highlight_of_render render, render, rendered]
  cases result <;> rfl

theorem process_direct {treatment : Treatment} (direct : t.direct? c = some treatment)
    (workshop : Workshop) :
    t.process workshop c = (.ok ⟨c, t.policyFor c, treatment⟩, workshop) := by
  unfold direct? at direct
  split at direct
  · rename_i skips
    cases direct
    simp [process, skips]
  · split at direct
    · rename_i highlights plain
      cases direct
      simp [process, highlights, plain]
    · rename_i render
      obtain ⟨failure, obstacle, rfl⟩ := Option.map_eq_some_iff.mp direct
      have render : (t.policyFor c).render = true := by simpa using render
      exact process_render render (t.renderer.render_obstacle obstacle)

theorem process_unwritten {workshop : Workshop} (indirect : t.direct? c = none)
    (unwritten : t.compiler.writes (t.document c) = false) :
    t.process workshop c = (.error .encoding, workshop) := by
  obtain ⟨render, clear⟩ := direct?_eq_none_iff.mp indirect
  exact process_render render (t.renderer.render_unwritten clear unwritten)

section

variable (indirect : t.direct? c = none) (written : t.compiler.writes (t.document c) = true)

include indirect written

theorem receives_document : t.compiler.Receives (t.document c) := by
  obtain ⟨_, clear⟩ := direct?_eq_none_iff.mp indirect
  obtain ⟨found, workspace⟩ := Compiler.clear_iff.mp clear
  exact ⟨found, workspace, written⟩

theorem process_refused {workshop : Workshop} {reason : String}
    (refused : t.compiler.respond t.config.timeout workshop.compiled (t.document c) =
      .notStarted reason) :
    t.process workshop c =
      (t.outcome c (.failed (.notStarted reason)), workshop.hand (t.document c)) :=
  process_render (direct?_eq_none_iff.mp indirect).1
    (t.renderer.render_refused (receives_document indirect written) refused)

theorem process_started {workshop : Workshop} {response : Response}
    (responds : t.compiler.respond t.config.timeout workshop.compiled (t.document c) = response)
    (started : ∀ reason, response ≠ .notStarted reason) :
    t.process workshop c = (t.outcome c response.result,
      ((workshop.hand (t.document c)).start).release workshop.started response) :=
  process_render (direct?_eq_none_iff.mp indirect).1
    (t.renderer.render_started (receives_document indirect written) responds started)

end

theorem process_left (t : Transformer) (c : Construct) {workshop : Workshop}
    (orderly : workshop.Orderly) (opened : workshop.supervision.registry.closed = false) :
    workshop.Left (t.process workshop c).2 := by
  cases direct : t.direct? c with
  | some treatment =>
    rw [process_direct direct]
    exact .refl workshop
  | none =>
    obtain ⟨render, _⟩ := direct?_eq_none_iff.mp direct
    rw [process_render render rfl]
    exact t.renderer.render_left t.compiler c.code (t.policyFor c).usePrelude orderly opened

/-- Also when a compilation is interrupted, none of the processes runs on. -/
theorem processAll_left (t : Transformer) (cs : List Construct) {workshop : Workshop}
    (orderly : workshop.Orderly) (opened : workshop.supervision.registry.closed = false) :
    workshop.Left (t.processAll workshop cs).2 := by
  induction cs generalizing workshop with
  | nil => exact .refl workshop
  | cons c rest ih =>
    have first := t.process_left c orderly opened
    have later := ih (first.orderly orderly) (first.opened opened)
    rw [processAll]
    rcases processed : t.process workshop c with ⟨stops | outcome, between⟩
    · rw [processed] at first
      exact first
    · rw [processed] at first later
      rcases remaining : t.processAll between rest with ⟨stops | outcomes, last⟩
      · simp only [remaining] at later ⊢
        exact first.trans later
      · simp only [remaining] at later ⊢
        exact first.trans later

theorem outcome_eq_rendered {result : RenderResult} {outcome : Outcome} {html image : List Char}
    (h : t.outcome c result = .ok outcome) (rendered : outcome.treatment = .rendered html image) :
    ∃ bytes, result = .image bytes ∧ image = imageHtml bytes := by
  cases result with
  | image bytes =>
    cases h
    cases rendered
    exact ⟨bytes, rfl, rfl⟩
  | failed failure =>
    cases h
    cases rendered
  | raised disruption => cases h

theorem direct?_ne_rendered {treatment : Treatment} (h : t.direct? c = some treatment)
    (html image : List Char) : treatment ≠ .rendered html image := by
  rintro rfl
  unfold direct? at h
  split at h
  · cases h
  · split at h
    · cases h
    · obtain ⟨failure, _, treats⟩ := Option.map_eq_some_iff.mp h
      cases treats

theorem process_rendered {workshop after : Workshop} {outcome : Outcome} {html image : List Char}
    (h : t.process workshop c = (.ok outcome, after))
    (rendered : outcome.treatment = .rendered html image) : ∃ stderr bytes,
      t.compiler.respond t.config.timeout workshop.compiled (t.document c) =
          .exited 0 stderr (.file bytes) ∧
        image = imageHtml bytes := by
  cases direct : t.direct? c with
  | some treatment =>
    rw [process_direct direct] at h
    cases h
    exact absurd rendered (direct?_ne_rendered direct html image)
  | none =>
    cases written : t.compiler.writes (t.document c) with
    | false =>
      rw [process_unwritten direct written] at h
      cases h
    | true =>
      by_cases started : ∀ reason,
          t.compiler.respond t.config.timeout workshop.compiled (t.document c) ≠ .notStarted reason
      · rw [process_started direct written rfl started] at h
        obtain ⟨bytes, result, same⟩ := outcome_eq_rendered (Prod.mk.inj h).1 rendered
        obtain ⟨stderr, exited, _⟩ := Response.result_eq_image_iff.mp result
        exact ⟨stderr, bytes, exited, same⟩
      · push Not at started
        obtain ⟨reason, refused⟩ := started
        rw [process_refused direct written refused] at h
        obtain ⟨bytes, result, _⟩ := outcome_eq_rendered (Prod.mk.inj h).1 rendered
        cases result

end Transformer

end BookHighlight
