import BookHighlight.Proofs.Transform.Again
import Mathlib.Data.List.Forall2

namespace BookHighlight

open Markdown (Construct constructs)

/-- An outcome with rendering on, beside the outcome of the same code with rendering off. -/
structure Illustrates (plain rendered : Outcome) : Prop where
  construct_eq : rendered.construct = plain.construct
  unchanged_iff : rendered.state = .unchanged ↔ plain.state = .unchanged
  image_iff : rendered.state = .rendered ↔ ∃ html bytes,
    plain.treatment.replacement? = some html ∧
      rendered.treatment.replacement? = some (html ++ imageHtml bytes)
  kept : rendered.state ≠ .rendered →
    rendered.treatment.replacement? = plain.treatment.replacement?
  reason_iff : rendered.treatment.reason?.isSome = true ↔ rendered.state = .renderFailed
  span : ∀ s, rendered.construct = .span s →
    rendered.state = .unchanged ∨ rendered.state = .highlighted

theorem imageHtml_ne_nil (bytes : List UInt8) : imageHtml bytes ≠ [] := by
  intro none
  have closing := (List.append_eq_nil_iff.mp none).2
  exact absurd closing (by decide)

theorem Policy.render_inline (config : Config) : (Policy.inline config).render = false := by
  unfold inline
  split <;> rfl

theorem Policy.highlight_block (config : Config) (on : Bool) (tag : Option Tag) :
    (Policy.block { config with render := on } tag).highlight =
      (Policy.block config tag).highlight := by
  unfold block
  dsimp only
  split
  · split <;> rfl
  · split <;> split <;> rfl

namespace Transformer

variable {t : Transformer} {c : Construct}

/-- Whatever the compiler does, the HTML of a piece of code is the one that it has without. -/
theorem Treats.illustrates {before after : Workshop} {treatment : Treatment} {plain : Outcome}
    (same : plain.construct = c)
    (off : plain.treatment =
      if (t.policyFor c).highlight then .highlighted (t.html c) else .unchanged)
    (h : Treats t before c treatment after) : Illustrates plain ⟨c, t.policyFor c, treatment⟩ := by
  have noSpan : (t.policyFor c).render = true → ∀ s, c ≠ .span s := by
    rintro render s rfl
    exact Bool.false_ne_true ((Policy.render_inline _).symm.trans render)
  cases h with
  | skipped skips =>
    have off : plain.treatment = .unchanged := by simpa [skips] using off
    constructor <;> simp [same, off, Outcome.state, Treatment.state, Treatment.replacement?,
      Treatment.reason?]
  | highlighted highlights _ =>
    have off : plain.treatment = .highlighted (t.html c) := by simpa [highlights] using off
    constructor <;> simp [same, off, Outcome.state, Treatment.state, Treatment.replacement?,
      Treatment.reason?, imageHtml_ne_nil]
  | rendered highlights render _ =>
    have off : plain.treatment = .highlighted (t.html c) := by simpa [highlights] using off
    constructor <;> simp [same, off, Outcome.state, Treatment.state, Treatment.replacement?,
      Treatment.reason?, noSpan render]
  | renderFailed highlights render _ =>
    have off : plain.treatment = .highlighted (t.html c) := by simpa [highlights] using off
    constructor <;> simp [same, off, Outcome.state, Treatment.state, Treatment.replacement?,
      Treatment.reason?, noSpan render, imageHtml_ne_nil]

def rendering (t : Transformer) (on : Bool) : Transformer :=
  { t with config := { t.config with render := on } }

theorem highlight_rendering (t : Transformer) (on : Bool) (c : Construct) :
    ((t.rendering on).policyFor c).highlight = (t.policyFor c).highlight := by
  unfold policyFor
  split
  · rfl
  · exact Policy.highlight_block ..
  · exact Policy.highlight_block ..

theorem html_rendering (t : Transformer) (on : Bool) (c : Construct) :
    (t.rendering on).html c = t.html c := by
  cases c <;> rfl

theorem treatment_plain_rendering (t : Transformer) (on off : Bool) (c : Construct) :
    ((t.rendering off).plain c).treatment =
      if ((t.rendering on).policyFor c).highlight then .highlighted ((t.rendering on).html c)
      else .unchanged := by
  rw [highlight_rendering, html_rendering, ← highlight_rendering t off, ← html_rendering t off]
  rfl

end Transformer

/-- Rendering a document puts images behind the HTML of some of its blocks and changes nothing else,
    whatever the compiler makes of the others. Where a document cannot be written or the time limit
    is too long, the run is broken off. -/
theorem rendering_adds_images (t : Transformer) (workshop : Workshop) (content : List Char)
    (chapter : String) (uninterrupted : t.compiler.Uninterrupted) : ∃ plain,
      (t.rendering false).transform workshop content chapter = (.ok plain, workshop) ∧
      ((∀ cause, ¬ (t.rendering true).Stops cause workshop (constructs content)) →
        ∃ rendered after,
          (t.rendering true).transform workshop content chapter = (.ok rendered, after) ∧
          List.Forall₂ Illustrates plain.outcomes rendered.outcomes) ∧
      ∀ cause, (t.rendering true).Stops cause workshop (constructs content) →
        cause ≠ .interrupt ∧ ∃ killed after,
          (t.rendering true).transform workshop content chapter =
            (.error ⟨cause, killed⟩, after) := by
  refine ⟨_, Transformer.transform_plain rfl workshop content chapter, fun undisturbed => ?_,
    fun cause stops => ⟨?_, ?_⟩⟩
  · rcases (t.rendering true).processAll_cases workshop (constructs content) with
      ⟨outcomes, after, processed, processes⟩ | ⟨cause, _, _, stops⟩
    · refine ⟨_, after, Transformer.transform_of_processAll chapter processed, ?_⟩
      change List.Forall₂ Illustrates ((constructs content).map (t.rendering false).plain) outcomes
      rw [← processes.constructs_eq, List.map_map, List.forall₂_map_left_iff, List.forall₂_same]
      rintro ⟨c, policy, treatment⟩ member
      obtain ⟨same, _, _, treats⟩ := processes.exists_treats _ member
      obtain rfl : policy = (t.rendering true).policyFor c := same
      exact treats.illustrates rfl (t.treatment_plain_rendering true false c)
    · exact absurd stops (undisturbed cause)
  · rintro rfl
    obtain ⟨c, _, earlier, breaks⟩ := stops.exists_breaksOff
    exact uninterrupted.not_disrupts breaks.disrupts
  · obtain ⟨_, stopped⟩ := stops.processAll_eq
    exact Transformer.transform_of_broken_off chapter stopped

theorem rendering_adds_images_beside_failure :
    let compiler : Compiler := {
      found := true
      writes := fun _ => true
      respond := fun _ _ document =>
        if Compiler.holds "oops".toList document then .exited 1 [] .missing
        else .exited 0 [] (.file [60, 62]) }
    let t : Transformer := { config := { jobs := 1 }, theme := Theme.solarizedDark, compiler }
    let content := "```typ\n#oops\n```\nNow `x`:\n~~~typst\n#x\n~~~\n".toList
    compiler.Uninterrupted ∧
      (constructs content).map (fun c => (c.start, c.stop)) = [(0, 16), (21, 24), (26, 41)] ∧
      ∃ plain rendered after,
        (t.rendering false).transform .empty content "" = (.ok plain, .empty) ∧
        (t.rendering true).transform .empty content "" = (.ok rendered, after) ∧
        List.Forall₂ Illustrates plain.outcomes rendered.outcomes := by
  intro compiler t content
  have uninterrupted : compiler.Uninterrupted := by
    intro limit earlier document
    dsimp only [compiler]
    split <;> exact nofun
  have undisturbed : compiler.Undisturbed := by
    refine ⟨fun _ => rfl, fun limit earlier document => ?_⟩
    dsimp only [compiler]
    split <;> exact Response.exited_ne_raised _ _ _
  obtain ⟨plain, ran, renders, _⟩ := rendering_adds_images t .empty content "" uninterrupted
  obtain ⟨rendered, after, illustrated⟩ := renders fun cause stops => by
    obtain ⟨c, _, earlier, breaks⟩ := stops.exists_breaksOff
    exact undisturbed.not_disrupts _ _ _ cause breaks.disrupts
  exact ⟨uninterrupted, by decide, plain, rendered, after, ran, illustrated⟩

/-- Half of a surrogate pair in the prelude, and a time limit that is too long: with rendering on
    the run is broken off, although nothing interrupts it. -/
theorem rendering_raises_uninterrupted :
    let compiler : Compiler := {
      found := true
      respond := fun limit _ _ =>
        if limit = .infinite false then .overflow else .exited 0 [] (.file [60, 62]) }
    let halved : Transformer := {
      config := { jobs := 1, prelude := String.ofList [Text.ofCode 0xD800] }
      theme := Theme.solarizedDark
      compiler }
    let unlimited : Transformer := {
      config := { jobs := 1, timeout := .infinite false }
      theme := Theme.solarizedDark
      compiler }
    let content := "```typ\nx\n```\n".toList
    compiler.Uninterrupted ∧
      (∃ killed after, (halved.rendering true).transform .empty content "" =
        (.error ⟨.encoding, killed⟩, after)) ∧
      ∃ killed after, (unlimited.rendering true).transform .empty content "" =
        (.error ⟨.overflow, killed⟩, after) := by
  intro compiler halved unlimited content
  have uninterrupted : compiler.Uninterrupted := by
    intro limit earlier document
    dsimp only [compiler]
    split <;> exact nofun
  have unwritten : (halved.rendering true).Stops .encoding .empty (constructs content) :=
    .here ⟨by decide, by decide, .encoding rfl rfl (by decide)⟩
  have endless : (unlimited.rendering true).Stops .overflow .empty (constructs content) :=
    .here ⟨by decide, by decide, .overflow ⟨rfl, rfl, by decide⟩ rfl⟩
  obtain ⟨_, first⟩ := unwritten.processAll_eq
  obtain ⟨_, second⟩ := endless.processAll_eq
  exact ⟨uninterrupted, Transformer.transform_of_broken_off "" first,
    Transformer.transform_of_broken_off "" second⟩

end BookHighlight
