import BookHighlight.Theme.Bundled
import BookHighlight.Transform.Document
import BookHighlight.Proofs.Markdown.Construct
import BookHighlight.Proofs.Transform.Outcome
import BookHighlight.Proofs.Transform.Splice

namespace BookHighlight

open Markdown (slice constructs)

variable {t : Transformer} {content : List Char} {outcomes : List Outcome}

theorem exists_outcome {edit : Edit} (h : edit ∈ editsOf outcomes) : ∃ outcome ∈ outcomes,
    ∃ text ∈ outcome.treatment.replacement?,
      edit = ⟨outcome.construct.start, outcome.construct.stop, text⟩ := by
  obtain ⟨outcome, member, made⟩ := List.mem_filterMap.mp h
  obtain ⟨text, replaced, rfl⟩ := Option.map_eq_some_iff.mp made
  exact ⟨outcome, member, text, replaced, rfl⟩

/-- The edits are those of the constructs that are highlighted, in their order. -/
theorem editsOf_eq (replaced : ∀ outcome ∈ outcomes,
      outcome.treatment.replacement?.isSome = (t.policyFor outcome.construct).highlight) :
    (editsOf outcomes).map (fun edit => (edit.start, edit.stop, some edit.replacement)) =
      (outcomes.filter fun outcome => (t.policyFor outcome.construct).highlight).map
        fun outcome => (outcome.construct.start, outcome.construct.stop,
          outcome.treatment.replacement?) := by
  induction outcomes with
  | nil => rfl
  | cons outcome rest ih =>
    obtain ⟨here, later⟩ := List.forall_mem_cons.mp replaced
    have others := ih later
    unfold editsOf at others ⊢
    cases text : outcome.treatment.replacement? with
    | none => simp_all
    | some text => simp_all

theorem inOrder_editsOf (placed : Markdown.Placed content 0 (outcomes.map (·.construct))) :
    InOrder content 0 (editsOf outcomes) := by
  apply inOrder_of_pairwise (Nat.zero_le _)
  · intro edit member
    obtain ⟨outcome, inOutcomes, _, _, rfl⟩ := exists_outcome member
    have bounds := placed.bounds outcome.construct (List.mem_map_of_mem inOutcomes)
    simp only
    omega
  · have sorted := List.pairwise_map.mp placed.sorted
    refine List.Pairwise.filterMap _ (fun left right apart => ?_) sorted
    intro before inLeft after inRight
    obtain ⟨_, _, rfl⟩ := Option.map_eq_some_iff.mp inLeft
    obtain ⟨_, _, rfl⟩ := Option.map_eq_some_iff.mp inRight
    exact apart

/-- A transformed document against the one that it comes from: the highlighted constructs are
    replaced, each by one line, and everything around them is kept. -/
structure Rewrites (t : Transformer) (content : List Char) (result : Transformed) : Prop where
  constructs_eq : result.outcomes.map (·.construct) = constructs content
  edits_eq : (editsOf result.outcomes).map
      (fun edit => (edit.start, edit.stop, some edit.replacement)) =
    (result.outcomes.filter fun outcome => (t.policyFor outcome.construct).highlight).map
      fun outcome => (outcome.construct.start, outcome.construct.stop,
        outcome.treatment.replacement?)
  inOrder : InOrder content 0 (editsOf result.outcomes)
  text_eq : result.text = interleave (gaps content (editsOf result.outcomes))
    ((editsOf result.outcomes).map (·.replacement))
  content_eq : content = interleave (gaps content (editsOf result.outcomes))
    ((editsOf result.outcomes).map fun edit => slice content edit.start edit.stop)
  oneLine : ∀ edit ∈ editsOf result.outcomes, '\n' ∉ edit.replacement
  unchanged : (∀ c ∈ constructs content, (t.policyFor c).highlight = false) →
    result.text = content
  sequential : result.text = (editsOf result.outcomes).foldr Edit.apply content

theorem lf_not_mem_replacement {workshop after : Workshop}
    (colours : t.theme.Lacks '\n')
    (processes : t.Processes workshop (constructs content) outcomes after) :
    ∀ edit ∈ editsOf outcomes, '\n' ∉ edit.replacement := by
  intro edit member
  obtain ⟨outcome, inOutcomes, text, replaced, rfl⟩ := exists_outcome member
  obtain ⟨_, _, _, treats⟩ := processes.exists_treats outcome inOutcomes
  have inDocument : outcome.construct ∈ constructs content := by
    rw [← processes.constructs_eq]
    exact List.mem_map_of_mem inOutcomes
  have html : '\n' ∉ t.html outcome.construct := by
    apply Transformer.not_mem_html (by decide) colours
    intro block same
    rw [same] at inDocument
    exact Markdown.lf_not_mem_lead content block (Markdown.mem_constructsFrom_block inDocument)
  rcases treats.replacement_eq text replaced with plain | ⟨bytes, image⟩
  · rw [plain]
    exact html
  · rw [image, List.mem_append, not_or]
    exact ⟨html, Transformer.lf_not_mem_imageHtml bytes⟩

namespace Transformer

def assembled (content : List Char) (chapter : String) (outcomes : List Outcome) : Transformed where
  text := splice content (editsOf outcomes)
  outcomes := outcomes
  log := failureLog chapter content outcomes

def treated (treat : Markdown.Construct → Outcome) (content : List Char) (chapter : String) :
    Transformed :=
  assembled content chapter ((constructs content).map treat)

theorem transform_of_processAll {workshop after : Workshop} (chapter : String)
    (processed : t.processAll workshop (constructs content) = (.ok outcomes, after)) :
    t.transform workshop content chapter = (.ok (assembled content chapter outcomes), after) := by
  simp [transform, processOrStop, processed, assembled]

theorem transform_of_broken_off {workshop between : Workshop} {cause : Disruption}
    (chapter : String)
    (stopped : t.processAll workshop (constructs content) = (.error cause, between)) :
    ∃ killed after, t.transform workshop content chapter = (.error ⟨cause, killed⟩, after) :=
  ⟨_, _, by simp only [transform, processOrStop, stopped]; rfl⟩

theorem transform_eq_ok {workshop after : Workshop} {chapter : String} {result : Transformed}
    (h : t.transform workshop content chapter = (.ok result, after)) : ∃ outcomes,
      result = assembled content chapter outcomes ∧
        Processes t workshop (constructs content) outcomes after := by
  rcases t.processAll_cases workshop (constructs content) with
    ⟨outcomes, _, processed, processes⟩ | ⟨_, _, stops, _⟩
  · cases (transform_of_processAll chapter processed).symm.trans h
    exact ⟨outcomes, rfl, processes⟩
  · simp [transform, processOrStop, stops] at h

end Transformer

theorem Transformer.Processes.rewrites {workshop after : Workshop} {chapter : String}
    (colours : t.theme.Lacks '\n')
    (processes : t.Processes workshop (constructs content) outcomes after) :
    Rewrites t content (assembled content chapter outcomes) := by
  have constructs_eq := processes.constructs_eq
  have replaced : ∀ outcome ∈ outcomes,
      outcome.treatment.replacement?.isSome = (t.policyFor outcome.construct).highlight := by
    intro outcome member
    obtain ⟨_, _, _, treats⟩ := processes.exists_treats outcome member
    exact treats.isSome_replacement?
  have edits_eq := editsOf_eq replaced
  have inOrder : InOrder content 0 (editsOf outcomes) := by
    apply inOrder_editsOf
    rw [constructs_eq]
    exact Markdown.placed_constructs content
  refine ⟨constructs_eq, edits_eq, inOrder, splice_eq_interleave content _,
    inOrder.interleave_gaps.symm, lf_not_mem_replacement colours processes, ?_,
    inOrder.splice_eq_foldr⟩
  intro skipped
  have none : (outcomes.filter fun outcome => (t.policyFor outcome.construct).highlight) = [] := by
    rw [List.filter_eq_nil_iff]
    intro outcome member
    rw [← constructs_eq] at skipped
    simp [skipped outcome.construct (List.mem_map_of_mem member)]
  rw [none, List.map_nil, List.map_eq_nil_iff] at edits_eq
  change splice content (editsOf outcomes) = content
  rw [edits_eq, splice_nil]

/-- A document that is transformed changes in the highlighted constructs only, and unless the
    compilation of one of them is broken off it is transformed. -/
theorem transform_rewrites (t : Transformer) (workshop : Workshop) (content : List Char)
    (chapter : String) (colours : t.theme.Lacks '\n') :
    (∀ result after, t.transform workshop content chapter = (.ok result, after) →
      Rewrites t content result) ∧
    ((∀ c ∈ constructs content, t.Completes c) →
      ∃ result after, t.transform workshop content chapter = (.ok result, after)) := by
  constructor
  · intro result after transformed
    obtain ⟨outcomes, rfl, processes⟩ := Transformer.transform_eq_ok transformed
    exact processes.rewrites colours
  · intro completes
    obtain ⟨outcomes, after, processed, _⟩ := Transformer.exists_processes workshop completes
    exact ⟨_, after, Transformer.transform_of_processAll chapter processed⟩

theorem transform_rewrites_solarized :
    let t : Transformer := {
      config := { jobs := 1, render := true }
      theme := Theme.solarizedDark
      compiler := {
        found := true
        writes := fun _ => true
        respond := fun _ _ _ => .exited 0 [] (.file "<svg/>".toUTF8.toList) } }
    let content := "- ```typ\n  #let x = 1\n  ```\n\nHere `x` is one.\n".toList
    t.theme.Lacks '\n' ∧ t.compiler.Undisturbed ∧
      ((constructs content).map fun c => (c.start, c.stop)) = [(0, 27), (34, 37)] ∧
      ∃ result after, t.transform .empty content "intro" = (.ok result, after) ∧
        Rewrites t content result := by
  intro t content
  have colours : t.theme.Lacks '\n' := by decide
  have undisturbed : t.compiler.Undisturbed :=
    ⟨fun _ => rfl, fun _ _ _ => Response.exited_ne_raised _ _ _⟩
  obtain ⟨rewrites, completes⟩ := transform_rewrites t .empty content "intro" colours
  obtain ⟨result, after, transformed⟩ :=
    completes fun c _ => Transformer.completes_of_undisturbed undisturbed c
  exact ⟨colours, undisturbed, by decide, result, after, transformed,
    rewrites result after transformed⟩

end BookHighlight
