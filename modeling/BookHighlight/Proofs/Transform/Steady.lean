import BookHighlight.Proofs.Transform.Document
import Mathlib.Tactic.Choose

namespace BookHighlight

open Markdown (Construct constructs)

def Compiler.Steady (compiler : Compiler) : Prop := ∀ limit earlier later document,
  compiler.respond limit earlier document = compiler.respond limit later document

theorem mapM_eq_ok {α β ε : Type} {f : α → Except ε β} {xs : List α} {ys : List β}
    (h : xs.map f = ys.map .ok) : xs.mapM f = .ok ys := by
  have same := congrArg (List.mapM id) h
  rw [List.mapM_map, List.mapM_map] at same
  change xs.mapM f = ys.mapM fun y => pure y at same
  rw [same, List.mapM_pure, List.map_id']
  rfl

namespace Renderer

theorem render_result {compiler : Compiler} (steady : compiler.Steady) (renderer : Renderer)
    (workshop workshop' : Workshop) (source : List Char) (usePrelude : Bool) :
    (renderer.render compiler workshop source usePrelude).1 =
      (renderer.render compiler workshop' source usePrelude).1 := by
  cases obstacle : compiler.obstacle? with
  | some failure => rw [renderer.render_obstacle obstacle, renderer.render_obstacle obstacle]
  | none =>
    cases written : compiler.writes (renderer.compose source usePrelude) with
    | false =>
      rw [renderer.render_unwritten obstacle written, renderer.render_unwritten obstacle written]
    | true =>
      obtain ⟨found, workspace⟩ := Compiler.clear_iff.mp obstacle
      have result : ∀ workshop, (renderer.render compiler workshop source usePrelude).1 =
          (compiler.respond renderer.timeout workshop.compiled
            (renderer.compose source usePrelude)).result := fun workshop =>
        (renderer.renders_render compiler workshop source usePrelude).result_eq
          ⟨found, workspace, written⟩
      rw [result workshop, result workshop', steady _ workshop.compiled workshop'.compiled]

end Renderer

namespace Transformer

variable {t : Transformer}

theorem process_outcome (steady : t.compiler.Steady) (workshop workshop' : Workshop)
    (c : Construct) : (t.process workshop c).1 = (t.process workshop' c).1 := by
  have same := t.renderer.render_result steady workshop workshop' c.code (t.policyFor c).usePrelude
  unfold process
  dsimp only
  split
  · rfl
  · split
    · rfl
    · generalize t.renderer.render t.compiler workshop c.code _ = rendered at same ⊢
      generalize t.renderer.render t.compiler workshop' c.code _ = rendered' at same ⊢
      obtain ⟨result, after⟩ := rendered
      obtain ⟨result', after'⟩ := rendered'
      obtain rfl : result = result' := same
      cases result <;> rfl

def alone (t : Transformer) (c : Construct) : Except Disruption Outcome := (t.process .empty c).1

theorem process_alone (steady : t.compiler.Steady) (workshop : Workshop) (c : Construct) :
    (t.process workshop c).1 = t.alone c :=
  process_outcome steady workshop .empty c

/-- With a steady compiler, each piece of code comes to its own outcome, whatever else is
    processed. -/
theorem processAll_alone (steady : t.compiler.Steady) (workshop : Workshop)
    (cs : List Construct) : (t.processAll workshop cs).1 = cs.mapM t.alone := by
  induction cs generalizing workshop with
  | nil => rfl
  | cons c rest ih =>
    have first := process_alone steady workshop c
    rw [processAll, List.mapM_cons]
    rcases processed : t.process workshop c with ⟨stops | outcome, between⟩
    · rw [processed] at first
      rw [← first]
      rfl
    · rw [processed] at first
      rw [← first]
      have others := ih between
      rcases remaining : t.processAll between rest with ⟨stops | outcomes, last⟩
      · rw [remaining] at others
        simp only [remaining, ← others]
        rfl
      · rw [remaining] at others
        simp only [remaining, ← others]
        rfl

theorem completes_iff (steady : t.compiler.Steady) {c : Construct} :
    t.Completes c ↔ ∃ outcome, t.alone c = .ok outcome := by
  constructor
  · intro completes
    obtain ⟨_, _, processed, _⟩ := exists_treats .empty completes
    exact ⟨_, congrArg Prod.fst processed⟩
  · rintro ⟨outcome, settled⟩ earlier disruption breaks
    let workshop : Workshop := { Workshop.empty with compiled := earlier }
    have here : t.BreaksOff workshop.compiled c disruption := breaks
    obtain ⟨after, stops⟩ := here.process_eq
    have same := process_alone steady workshop c
    rw [stops, settled] at same
    cases same

theorem exists_treat (steady : t.compiler.Steady) :
    ∃ treat : Construct → Outcome, ∀ c, t.Completes c → t.alone c = .ok (treat c) := by
  have each : ∀ c, ∃ outcome, t.Completes c → t.alone c = .ok outcome := by
    intro c
    cases settled : t.alone c with
    | ok outcome => exact ⟨outcome, fun _ => rfl⟩
    | error cause =>
      refine ⟨⟨c, t.policyFor c, .unchanged⟩, fun completes => ?_⟩
      obtain ⟨_, settles⟩ := (completes_iff steady).mp completes
      cases settled.symm.trans settles
  choose treat treats using each
  exact ⟨treat, treats⟩

theorem processAll_of_completes (steady : t.compiler.Steady) {treat : Construct → Outcome}
    (treats : ∀ c, t.Completes c → t.alone c = .ok (treat c)) {cs : List Construct}
    (completes : ∀ c ∈ cs, t.Completes c) (workshop : Workshop) :
    ∃ after, t.processAll workshop cs = (.ok (cs.map treat), after) := by
  have each : cs.map t.alone = (cs.map treat).map .ok := by
    rw [List.map_map]
    exact List.map_congr_left fun c member => treats c (completes c member)
  exact ⟨_, Prod.ext ((processAll_alone steady workshop cs).trans (mapM_eq_ok each)) rfl⟩

theorem processAll_of_not_completes (steady : t.compiler.Steady) {c : Construct}
    {cs : List Construct} (member : c ∈ cs) (breaks : ¬ t.Completes c) (workshop : Workshop) :
    ∃ cause after, t.processAll workshop cs = (.error cause, after) := by
  rcases processed : t.processAll workshop cs with ⟨cause | outcomes, after⟩
  · exact ⟨cause, after, rfl⟩
  · have processes := Processes.of_eq_ok processed
    rw [← processes.constructs_eq] at member
    obtain ⟨outcome, inside, rfl⟩ := List.mem_map.mp member
    obtain ⟨_, before, _, treats⟩ := processes.exists_treats outcome inside
    have settles := process_alone steady before outcome.construct
    rw [treats.process_eq] at settles
    exact absurd ((completes_iff steady).mpr ⟨_, settles.symm⟩) breaks

end Transformer

end BookHighlight
