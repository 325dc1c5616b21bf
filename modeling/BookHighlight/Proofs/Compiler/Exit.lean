import BookHighlight.Proofs.Compiler.Interleaving
import BookHighlight.Proofs.Compiler.Rendering

namespace BookHighlight

theorem RenderFailure.reason_ne_empty (failure : RenderFailure) (renderer : Renderer) :
    failure.reason renderer ≠ "" := by
  have front : ∀ {text : String}, text ≠ "" → ∀ more, text ++ more ≠ "" := by
    intro text shows more
    simp [shows]
  unfold reason
  split
  · exact front (front (by decide) _) _
  · exact front (by decide) _
  · exact front (front (front (by decide) _) _) _
  · exact front (front (front (front (by decide) _) _) _) _
  · exact front (front (front (front (by decide) _) _) _) _
  · decide
  · exact front (by decide) _
  · decide

namespace Compiler

variable {α : Type} [DecidableEq α] {p q : α}

theorem Registry.discard_track {r : Registry α} (opened : r.closed = false) (new : p ∉ r.tracked) :
    (r.track p).discard p = r := by
  have tracks : r.track p = { r with tracked := r.tracked ++ [p] } := by
    rw [track, if_neg]
    simp [opened, new]
  rw [tracks, discard, List.erase_append_right _ new, List.erase_cons_head, List.append_nil]

namespace Fates

theorem isRunning_kill_of_ne (other : q ≠ p) (f : Fates α) :
    (f.kill p).isRunning q = f.isRunning q := by
  unfold kill
  split
  · rfl
  · simp [isRunning, other]

theorem isRunning_exit_of_ne (other : q ≠ p) (f : Fates α) :
    (f.exit p).isRunning q = f.isRunning q := by
  unfold exit
  split
  · rfl
  · simp [isRunning, other]

end Fates

namespace Supervision

variable {s : Supervision Nat} {p q : Nat} (response : Response)

theorem registry_release : (s.release p response).registry = s.registry.discard p := by
  cases response with
  | timedOut ended => cases ended <;> rfl
  | notStarted | interrupted | overflow | exited => rfl

theorem not_isRunning_release : (s.release p response).fates.isRunning p = false := by
  cases response with
  | timedOut ended => cases ended <;> exact Fates.not_isRunning_kill _ p
  | notStarted | interrupted | overflow | exited => exact Fates.not_isRunning_kill _ p

theorem isRunning_release_of_ne (other : q ≠ p) :
    (s.release p response).fates.isRunning q = s.fates.isRunning q := by
  have kills : ∀ f : Fates Nat, (f.kill p).isRunning q = f.isRunning q :=
    Fates.isRunning_kill_of_ne other
  have exits : ∀ f : Fates Nat, (f.exit p).isRunning q = f.isRunning q :=
    Fates.isRunning_exit_of_ne other
  cases response with
  | notStarted | interrupted | overflow => exact kills _
  | timedOut ended =>
    cases ended with
    | none => exact (kills _).trans (kills _)
    | some status => exact (kills _).trans ((kills _).trans (exits _))
  | exited => exact (kills _).trans (exits _)

end Supervision

end Compiler

namespace Workshop

def Orderly (w : Workshop) : Prop := ∀ p ∈ w.supervision.registry.tracked, p < w.started

/-- After a compilation everything is as before, but that processes may have come and gone. -/
structure Left (w w' : Workshop) : Prop where
  registry_eq : w'.supervision.registry = w.supervision.registry
  started_le : w.started ≤ w'.started
  /-- what was started does not run on -/
  ended : ∀ p, w.started ≤ p → p < w'.started → w'.supervision.fates.isRunning p = false
  /-- what runs beside the compilation is left alone -/
  others : ∀ p, p < w.started →
    w'.supervision.fates.isRunning p = w.supervision.fates.isRunning p

theorem supervision_busy (n : Nat) :
    (busy n).supervision = ⟨⟨List.range n, false⟩, Compiler.Fates.none⟩ := by
  induction n with
  | zero => rfl
  | succ n ih =>
    have adds : (busy (n + 1)).supervision = (busy n).supervision.add n := by
      simp [busy, List.range_succ]
    rw [adds, ih, List.range_succ]
    simp [Compiler.Supervision.add, Compiler.Registry.track]

theorem orderly_busy (n : Nat) : (busy n).Orderly := by
  intro p tracked
  rw [supervision_busy] at tracked
  exact List.mem_range.mp tracked

variable {w w' w'' : Workshop}

theorem Left.refl (w : Workshop) : w.Left w where
  registry_eq := rfl
  started_le := Nat.le_refl _
  ended _ old new := absurd new (Nat.not_lt.mpr old)
  others _ _ := rfl

theorem Left.trans (first : w.Left w') (second : w'.Left w'') : w.Left w'' where
  registry_eq := second.registry_eq.trans first.registry_eq
  started_le := Nat.le_trans first.started_le second.started_le
  ended p old new := by
    by_cases early : p < w'.started
    · rw [second.others p early, first.ended p old early]
    · exact second.ended p (Nat.not_lt.mp early) new
  others p old := by
    rw [second.others p (Nat.lt_of_lt_of_le old first.started_le), first.others p old]

theorem Left.orderly (left : w.Left w') (orderly : w.Orderly) : w'.Orderly := by
  intro p tracked
  rw [left.registry_eq] at tracked
  exact Nat.lt_of_lt_of_le (orderly p tracked) left.started_le

theorem Left.opened (left : w.Left w') (opened : w.supervision.registry.closed = false) :
    w'.supervision.registry.closed = false := by
  rw [left.registry_eq, opened]

theorem left_hand (w : Workshop) (document : List Char) : w.Left (w.hand document) :=
  { Left.refl w with }

theorem left_release (orderly : w.Orderly) (opened : w.supervision.registry.closed = false)
    (response : Response) : w.Left (w.start.release w.started response) where
  registry_eq := by
    have new : w.started ∉ w.supervision.registry.tracked :=
      fun tracked => Nat.lt_irrefl _ (orderly _ tracked)
    have adds : w.start.supervision.registry = w.supervision.registry.track w.started := by
      simp [start, Compiler.Supervision.add, opened]
    change (w.start.supervision.release w.started response).registry = _
    rw [Compiler.Supervision.registry_release, adds, Compiler.Registry.discard_track opened new]
  started_le := Nat.le_succ _
  ended p old new := by
    obtain rfl : p = w.started := Nat.le_antisymm (Nat.le_of_lt_succ new) old
    exact Compiler.Supervision.not_isRunning_release response
  others p old := by
    have fates : w.start.supervision.fates = w.supervision.fates := by
      simp [start, Compiler.Supervision.add, opened]
    change (w.start.supervision.release w.started response).fates.isRunning p = _
    rw [Compiler.Supervision.isRunning_release_of_ne response (Nat.ne_of_lt old), fates]

end Workshop

/-- What is handed to the compiler: the source, behind the prelude if that is asked for, which then
    ends its line. -/
inductive Composed (prelude source : List Char) : (usePrelude : Bool) → List Char → Prop where
  | bare : Composed prelude source false source
  | ended : prelude = [] ∨ prelude.getLast? = some '\n' →
      Composed prelude source true (prelude ++ source)
  | completed : prelude ≠ [] → prelude.getLast? ≠ some '\n' →
      Composed prelude source true (prelude ++ ['\n'] ++ source)

namespace Renderer

variable {compiler : Compiler} {workshop : Workshop} {source : List Char} {usePrelude : Bool}

theorem composed_compose (renderer : Renderer) (source : List Char) (usePrelude : Bool) :
    Composed renderer.prelude source usePrelude (renderer.compose source usePrelude) := by
  cases usePrelude with
  | false => exact .bare
  | true =>
    by_cases ends : (renderer.prelude.isEmpty || renderer.prelude.getLast? == some '\n') = true
    · have composed : renderer.compose source true = renderer.prelude ++ source := if_pos ends
      rw [composed]
      exact .ended (by simpa using ends)
    · have composed : renderer.compose source true = renderer.prelude ++ '\n' :: source :=
        if_neg ends
      rw [composed, List.append_cons]
      simp only [Bool.or_eq_true, List.isEmpty_iff, beq_iff_eq, not_or] at ends
      exact .completed ends.1 ends.2

theorem render_left (renderer : Renderer) (compiler : Compiler) (source : List Char)
    (usePrelude : Bool) (orderly : workshop.Orderly)
    (opened : workshop.supervision.registry.closed = false) :
    workshop.Left (renderer.render compiler workshop source usePrelude).2 := by
  have handed := workshop.left_hand (renderer.compose source usePrelude)
  have renders := renderer.renders_render compiler workshop source usePrelude
  generalize renderer.render compiler workshop source usePrelude = rendered at renders ⊢
  cases renders with
  | obstacle | unwritten => exact .refl workshop
  | refused => exact handed
  | started _ _ _ =>
    exact handed.trans (Workshop.left_release (handed.orderly orderly) opened _)

theorem render_starts (renderer : Renderer)
    (starts : compiler.Starts renderer.timeout workshop.compiled
      (renderer.compose source usePrelude)) :
    let after := (renderer.render compiler workshop source usePrelude).2
    after.started = workshop.started + 1 ∧
      after.compiled = renderer.compose source usePrelude :: workshop.compiled := by
  rw [renderer.render_started starts.toReceives rfl starts.responds]
  exact ⟨rfl, rfl⟩

/-- Whatever the compiler does, the result is exact: an image, what broke the compilation off, or in
    all other cases a failure with a reason. The process that was started, if any, neither runs on
    nor is tracked. -/
theorem render_exact_and_clean (renderer : Renderer) (compiler : Compiler) (source : List Char)
    (usePrelude : Bool) (orderly : workshop.Orderly)
    (opened : workshop.supervision.registry.closed = false) :
    let document := renderer.compose source usePrelude
    let result := (renderer.render compiler workshop source usePrelude).1
    let after := (renderer.render compiler workshop source usePrelude).2
    Composed renderer.prelude source usePrelude document ∧
      (∀ bytes, result = .image bytes ↔
        compiler.Succeeds renderer.timeout workshop.compiled document bytes) ∧
      (∀ disruption, result = .raised disruption ↔
        compiler.Disrupts renderer.timeout workshop.compiled document disruption) ∧
      ((∀ bytes, ¬ compiler.Succeeds renderer.timeout workshop.compiled document bytes) →
        (∀ disruption,
          ¬ compiler.Disrupts renderer.timeout workshop.compiled document disruption) →
        ∃ failure, result = .failed failure ∧ failure.reason renderer ≠ "") ∧
      (compiler.Starts renderer.timeout workshop.compiled document →
        after.started = workshop.started + 1 ∧ after.compiled = document :: workshop.compiled) ∧
      workshop.Left after := by
  intro document result after
  have image : ∀ bytes, result = .image bytes ↔
      compiler.Succeeds renderer.timeout workshop.compiled document bytes :=
    fun _ => renderer.render_eq_image_iff
  have raised : ∀ disruption, result = .raised disruption ↔
      compiler.Disrupts renderer.timeout workshop.compiled document disruption :=
    fun _ => renderer.render_eq_raised_iff
  refine ⟨renderer.composed_compose source usePrelude, image, raised, ?_,
    renderer.render_starts, renderer.render_left compiler source usePrelude orderly opened⟩
  intro fails undisturbed
  cases obtained : result with
  | image bytes => exact absurd ((image bytes).mp obtained) (fails bytes)
  | raised disruption => exact absurd ((raised disruption).mp obtained) (undisturbed disruption)
  | failed failure => exact ⟨failure, rfl, failure.reason_ne_empty renderer⟩

theorem render_exact_and_clean_interrupted :
    let renderer : Renderer := { prelude := "#let x = 1".toList }
    let compiler : Compiler := { found := true, respond := fun _ _ _ => .interrupted }
    let workshop := Workshop.busy 2
    let rendered := renderer.render compiler workshop "#x".toList true
    workshop.Orderly ∧ workshop.supervision.registry.closed = false ∧
      rendered.1 = .raised .interrupt ∧ rendered.2.compiled = ["#let x = 1\n#x".toList] ∧
      rendered.2.supervision.registry.tracked = [0, 1] ∧
      rendered.2.supervision.fates.isRunning 2 = false ∧
      rendered.2.supervision.fates.isRunning 1 = true := by
  intro renderer compiler workshop rendered
  have orderly : workshop.Orderly := Workshop.orderly_busy 2
  have opened : workshop.supervision.registry.closed = false := rfl
  obtain ⟨_, _, raised, _, starts, left⟩ :=
    renderer.render_exact_and_clean compiler "#x".toList true orderly opened
  have receives : compiler.Receives "#let x = 1\n#x".toList := ⟨rfl, rfl, rfl⟩
  obtain ⟨started, compiled⟩ := starts ⟨receives, nofun⟩
  have new : 2 < rendered.2.started := started ▸ Nat.lt_succ_self 2
  exact ⟨orderly, opened, (raised .interrupt).mpr (.interrupt receives rfl), compiled,
    congrArg Compiler.Registry.tracked left.registry_eq, left.ended 2 (Nat.le_refl 2) new,
    left.others 1 (by decide)⟩

/-- Half of a surrogate pair in the prelude, and a time limit that is too long: without an interrupt
    there is neither an image nor a failure. -/
theorem render_raises_uninterrupted :
    let compiler : Compiler := {
      found := true
      respond := fun limit _ _ =>
        if limit = .infinite false then .overflow else .exited 0 [] (.file [60, 62]) }
    let halved : Renderer := { prelude := [Text.ofCode 0xD800] }
    let unlimited : Renderer := { timeout := .infinite false }
    (halved.render compiler .empty "#x".toList true).1 = .raised .encoding ∧
      (unlimited.render compiler .empty "#x".toList true).1 = .raised .overflow := by
  intro compiler halved unlimited
  refine ⟨halved.render_eq_raised_iff.mpr (.encoding rfl rfl (by decide)), ?_⟩
  exact unlimited.render_eq_raised_iff.mpr (.overflow ⟨rfl, rfl, by decide⟩ rfl)

end Renderer

end BookHighlight
