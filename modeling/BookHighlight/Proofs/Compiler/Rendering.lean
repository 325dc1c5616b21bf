import BookHighlight.Transform.Schedule

namespace BookHighlight

structure Compiler.Undisturbed (compiler : Compiler) : Prop where
  writes : ∀ document, compiler.writes document = true
  completes : ∀ limit earlier document disruption,
    (compiler.respond limit earlier document).result ≠ .raised disruption

theorem Compiler.clear_iff {compiler : Compiler} :
    compiler.obstacle? = none ↔ compiler.found = true ∧ compiler.workspaceError = none := by
  unfold obstacle?
  cases compiler.found <;> simp

def asciiBlanks : List UInt8 := [0x09, 0x0A, 0x0B, 0x0C, 0x0D, 0x20]

theorem isBlankByte_iff {b : UInt8} : isBlankByte b = true ↔ b ∈ asciiBlanks := by
  simp only [isBlankByte, asciiBlanks, Bool.or_eq_true, beq_iff_eq, decide_eq_true_eq,
    Bool.and_eq_true, UInt8.le_iff_toNat_le, ← UInt8.toNat_inj, UInt8.reduceToNat, List.mem_cons,
    List.not_mem_nil, or_false]
  omega

theorem all_isBlankByte_iff {bytes : List UInt8} :
    bytes.all isBlankByte = true ↔ ¬ ∃ b ∈ bytes, b ∉ asciiBlanks := by
  simp [isBlankByte_iff]

theorem Artifact.read_eq_image_iff {artifact : Artifact} {bytes : List UInt8} :
    artifact.read = .image bytes ↔
      artifact = .file bytes ∧ ∃ b ∈ bytes, b ∉ asciiBlanks := by
  cases artifact with
  | missing | unreadable => simp [read]
  | file content =>
    by_cases blank : content.all isBlankByte = true
    · rw [read, if_pos blank]
      refine iff_of_false nofun ?_
      rintro ⟨⟨⟩, shows⟩
      exact all_isBlankByte_iff.mp blank shows
    · have shows : ∃ b ∈ content, b ∉ asciiBlanks :=
        Classical.not_not.mp (mt all_isBlankByte_iff.mpr blank)
      rw [read, if_neg blank, RenderResult.image.injEq, Artifact.file.injEq]
      constructor
      · rintro rfl
        exact ⟨rfl, shows⟩
      · exact fun same => same.1

theorem Artifact.read_ne_raised (artifact : Artifact) (disruption : Disruption) :
    artifact.read ≠ .raised disruption := by
  intro read
  cases artifact with
  | missing => cases read
  | unreadable => cases read
  | file bytes =>
    simp only [Artifact.read] at read
    split at read <;> cases read

theorem Response.result_eq_image_iff {response : Response} {bytes : List UInt8} :
    response.result = .image bytes ↔ ∃ stderr, response = .exited 0 stderr (.file bytes) ∧
      ∃ b ∈ bytes, b ∉ asciiBlanks := by
  cases response with
  | notStarted | timedOut | interrupted | overflow => simp [result]
  | exited status stderr artifact =>
    by_cases success : status = 0
    · rw [result, if_pos success, Artifact.read_eq_image_iff]
      simp [success]
    · rw [result, if_neg success]
      simp [success]

theorem Response.exited_ne_raised (status : Int) (stderr : List UInt8) (artifact : Artifact)
    (disruption : Disruption) :
    (Response.exited status stderr artifact).result ≠ .raised disruption := by
  rw [Response.result]
  split
  · exact artifact.read_ne_raised disruption
  · exact nofun

def Disruption.response? : Disruption → Option Response
  | .interrupt => some .interrupted
  | .overflow => some .overflow
  | .encoding => none

theorem Response.result_eq_raised_iff {response : Response} {disruption : Disruption} :
    response.result = .raised disruption ↔ disruption.response? = some response := by
  cases response with
  | notStarted | timedOut | interrupted | overflow =>
    cases disruption <;> simp [result, Disruption.response?]
  | exited status stderr artifact =>
    refine iff_of_false (exited_ne_raised status stderr artifact disruption) ?_
    cases disruption <;> simp [Disruption.response?]

namespace Compiler

variable (compiler : Compiler) (limit : Binary64) (earlier : List (List Char))
  (document : List Char)

structure Receives : Prop where
  found : compiler.found = true
  workspace : compiler.workspaceError = none
  writes : compiler.writes document = true

structure Succeeds (bytes : List UInt8) : Prop extends compiler.Receives document where
  exited : ∃ stderr, compiler.respond limit earlier document = .exited 0 stderr (.file bytes)
  shows : ∃ b ∈ bytes, b ∉ asciiBlanks

/-- The compilation of a document is broken off: the document cannot be written, or the wait for the
    process ends in an interrupt or cannot be as long as it may last. -/
inductive Disrupts : Disruption → Prop where
  | encoding : compiler.found = true → compiler.workspaceError = none →
      compiler.writes document = false → Disrupts .encoding
  | interrupt : compiler.Receives document →
      compiler.respond limit earlier document = .interrupted → Disrupts .interrupt
  | overflow : compiler.Receives document →
      compiler.respond limit earlier document = .overflow → Disrupts .overflow

def Uninterrupted : Prop := ∀ limit earlier document,
  compiler.respond limit earlier document ≠ .interrupted

structure Starts : Prop extends compiler.Receives document where
  responds : ∀ reason, compiler.respond limit earlier document ≠ .notStarted reason

variable {compiler limit earlier document}

theorem Uninterrupted.not_disrupts (h : compiler.Uninterrupted) :
    ¬ compiler.Disrupts limit earlier document .interrupt := by
  intro disrupts
  cases disrupts with
  | interrupt _ responds => exact h limit earlier document responds

end Compiler

namespace Renderer

variable {compiler : Compiler} {workshop : Workshop} {source : List Char} {usePrelude : Bool}

theorem render_obstacle (renderer : Renderer) {failure : RenderFailure}
    (obstacle : compiler.obstacle? = some failure) :
    renderer.render compiler workshop source usePrelude = (.failed failure, workshop) := by
  unfold Compiler.obstacle? at obstacle
  unfold render
  split at obstacle
  · rename_i missing
    cases obstacle
    rw [if_pos missing]
  · rename_i found
    obtain ⟨reason, error, rfl⟩ := Option.map_eq_some_iff.mp obstacle
    rw [if_neg found, error]

theorem render_unwritten (renderer : Renderer) (clear : compiler.obstacle? = none)
    (unwritten : compiler.writes (renderer.compose source usePrelude) = false) :
    renderer.render compiler workshop source usePrelude = (.raised .encoding, workshop) := by
  obtain ⟨found, workspace⟩ := Compiler.clear_iff.mp clear
  simp [render, found, workspace, unwritten]

theorem render_refused (renderer : Renderer)
    (receives : compiler.Receives (renderer.compose source usePrelude)) {reason : String}
    (refused : compiler.respond renderer.timeout workshop.compiled
      (renderer.compose source usePrelude) = .notStarted reason) :
    renderer.render compiler workshop source usePrelude =
      (.failed (.notStarted reason), workshop.hand (renderer.compose source usePrelude)) := by
  simp [render, receives.found, receives.workspace, receives.writes, refused, Workshop.hand]

theorem render_started (renderer : Renderer)
    (receives : compiler.Receives (renderer.compose source usePrelude)) {response : Response}
    (responds : compiler.respond renderer.timeout workshop.compiled
      (renderer.compose source usePrelude) = response)
    (started : ∀ reason, response ≠ .notStarted reason) :
    renderer.render compiler workshop source usePrelude = (response.result,
      ((workshop.hand (renderer.compose source usePrelude)).start).release workshop.started
        response) := by
  unfold render
  simp only [receives.found, receives.workspace, receives.writes, responds]
  cases response with
  | notStarted reason => exact absurd rfl (started reason)
  | timedOut ended => cases ended <;> rfl
  | interrupted | overflow | exited => rfl

/-- A compilation ends at an obstacle or at a document that cannot be written, is refused, or starts
    a process. -/
inductive Renders (renderer : Renderer) (compiler : Compiler) (workshop : Workshop)
    (document : List Char) : RenderResult × Workshop → Prop where
  | obstacle {failure} : compiler.obstacle? = some failure →
      Renders renderer compiler workshop document (.failed failure, workshop)
  | unwritten : compiler.obstacle? = none → compiler.writes document = false →
      Renders renderer compiler workshop document (.raised .encoding, workshop)
  | refused {reason} : compiler.Receives document →
      compiler.respond renderer.timeout workshop.compiled document = .notStarted reason →
      Renders renderer compiler workshop document
        (.failed (.notStarted reason), workshop.hand document)
  | started {response} : compiler.Receives document →
      compiler.respond renderer.timeout workshop.compiled document = response →
      (∀ reason, response ≠ .notStarted reason) →
      Renders renderer compiler workshop document
        (response.result, (workshop.hand document).start.release workshop.started response)

theorem renders_render (renderer : Renderer) (compiler : Compiler) (workshop : Workshop)
    (source : List Char) (usePrelude : Bool) :
    Renders renderer compiler workshop (renderer.compose source usePrelude)
      (renderer.render compiler workshop source usePrelude) := by
  cases obstacle : compiler.obstacle? with
  | some failure =>
    rw [renderer.render_obstacle obstacle]
    exact .obstacle obstacle
  | none =>
    obtain ⟨found, workspace⟩ := Compiler.clear_iff.mp obstacle
    cases written : compiler.writes (renderer.compose source usePrelude) with
    | false =>
      rw [renderer.render_unwritten obstacle written]
      exact .unwritten obstacle written
    | true =>
      have receives : compiler.Receives (renderer.compose source usePrelude) :=
        ⟨found, workspace, written⟩
      by_cases refused : ∃ reason, compiler.respond renderer.timeout workshop.compiled
          (renderer.compose source usePrelude) = .notStarted reason
      · obtain ⟨reason, refused⟩ := refused
        rw [renderer.render_refused receives refused]
        exact .refused receives refused
      · have started := not_exists.mp refused
        rw [renderer.render_started receives rfl started]
        exact .started receives rfl started

section

variable {renderer : Renderer} {document : List Char} {result : RenderResult} {after : Workshop}

theorem Renders.result_eq (h : Renders renderer compiler workshop document (result, after))
    (receives : compiler.Receives document) :
    result = (compiler.respond renderer.timeout workshop.compiled document).result := by
  cases h with
  | obstacle obstacle =>
    rw [Compiler.clear_iff.mpr ⟨receives.found, receives.workspace⟩] at obstacle
    cases obstacle
  | unwritten _ unwritten =>
    rw [receives.writes] at unwritten
    cases unwritten
  | refused _ responds => rw [responds, Response.result]
  | started _ responds _ => rw [responds]

theorem Renders.eq_image_iff (h : Renders renderer compiler workshop document (result, after))
    {bytes : List UInt8} : result = .image bytes ↔
      compiler.Succeeds renderer.timeout workshop.compiled document bytes := by
  constructor
  · intro same
    cases h with
    | obstacle | unwritten | refused => cases same
    | started receives responds _ =>
      obtain ⟨stderr, exited, shows⟩ := Response.result_eq_image_iff.mp same
      exact ⟨receives, ⟨stderr, responds.trans exited⟩, shows⟩
  · intro succeeds
    rw [h.result_eq succeeds.toReceives]
    exact Response.result_eq_image_iff.mpr <|
      succeeds.exited.imp fun _ exited => ⟨exited, succeeds.shows⟩

theorem Renders.eq_raised_iff (h : Renders renderer compiler workshop document (result, after))
    {disruption : Disruption} : result = .raised disruption ↔
      compiler.Disrupts renderer.timeout workshop.compiled document disruption := by
  constructor
  · intro same
    cases h with
    | obstacle | refused => cases same
    | unwritten clear unwritten =>
      cases same
      obtain ⟨found, workspace⟩ := Compiler.clear_iff.mp clear
      exact .encoding found workspace unwritten
    | started receives responds _ =>
      have broken := Response.result_eq_raised_iff.mp same
      cases disruption with
      | encoding => cases broken
      | interrupt => exact .interrupt receives (responds.trans (Option.some.inj broken).symm)
      | overflow => exact .overflow receives (responds.trans (Option.some.inj broken).symm)
  · intro disrupts
    cases disrupts with
    | encoding found workspace unwritten =>
      cases h with
      | obstacle obstacle =>
        rw [Compiler.clear_iff.mpr ⟨found, workspace⟩] at obstacle
        cases obstacle
      | unwritten => rfl
      | refused receives | started receives =>
        rw [receives.writes] at unwritten
        cases unwritten
    | interrupt receives responds | overflow receives responds =>
      rw [h.result_eq receives, responds, Response.result]

end

theorem render_eq_image_iff (renderer : Renderer) {bytes : List UInt8} :
    (renderer.render compiler workshop source usePrelude).1 = .image bytes ↔
      compiler.Succeeds renderer.timeout workshop.compiled (renderer.compose source usePrelude)
        bytes :=
  (renderer.renders_render compiler workshop source usePrelude).eq_image_iff

theorem render_eq_raised_iff (renderer : Renderer) {disruption : Disruption} :
    (renderer.render compiler workshop source usePrelude).1 = .raised disruption ↔
      compiler.Disrupts renderer.timeout workshop.compiled (renderer.compose source usePrelude)
        disruption :=
  (renderer.renders_render compiler workshop source usePrelude).eq_raised_iff

end Renderer

theorem Compiler.Undisturbed.not_disrupts {compiler : Compiler} (h : compiler.Undisturbed)
    (limit : Binary64) (earlier : List (List Char)) (document : List Char)
    (disruption : Disruption) : ¬ compiler.Disrupts limit earlier document disruption := by
  intro disrupts
  cases disrupts with
  | encoding _ _ unwritten =>
    rw [h.writes] at unwritten
    cases unwritten
  | interrupt _ responds | overflow _ responds =>
    have completes := h.completes limit earlier document
    rw [responds] at completes
    exact completes _ rfl

end BookHighlight
