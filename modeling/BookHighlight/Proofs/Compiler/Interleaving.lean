import BookHighlight.Compiler.Interleaving
import BookHighlight.Compiler.Rendering
import Mathlib.Logic.Relation

namespace BookHighlight.Compiler

variable {α : Type} [DecidableEq α] {s t : Pool α} {p q : α}

namespace Fates

theorem not_isRunning_kill (f : Fates α) (p : α) : (f.kill p).isRunning p = false := by
  unfold kill
  split
  · rename_i ended
    simp [isRunning, ended]
  · simp [isRunning]

theorem isRunning_of_kill {f : Fates α} (h : (f.kill p).isRunning q = true) :
    f.isRunning q = true := by
  unfold kill at h
  split at h
  · exact h
  · simp only [isRunning, List.mem_cons, not_or, decide_eq_true_eq] at h ⊢
    exact h.2

theorem isRunning_of_exit {f : Fates α} (h : (f.exit p).isRunning q = true) :
    f.isRunning q = true := by
  unfold exit at h
  split at h
  · exact h
  · simp only [isRunning, List.mem_cons, not_or, decide_eq_true_eq] at h ⊢
    exact h.2

end Fates

namespace Pool

abbrev Leads : Pool α → Pool α → Prop := Relation.ReflTransGen Step

structure Supervised (s : Pool α) : Prop where
  /-- a running process will be killed if the work is broken off -/
  covered : ∀ p, s.Runs p → p ∈ s.tracked ∨ p ∈ s.termination.snapshot ∨
    s.stage p = .spawned ∨ s.stage p = .refused
  /-- a process is discarded only after its end -/
  ended : ∀ p, s.stage p = .ending ∨ s.stage p = .finished → ¬ s.Runs p
  emptied : s.closed = true → s.tracked = []
  called : s.termination ≠ .notCalled → s.closed = true

theorem supervised_start : (start : Pool α).Supervised where
  covered p runs := absurd rfl runs.1
  ended p stage := by rcases stage with stage | stage <;> cases stage
  emptied closed := by cases closed
  called called := absurd rfl called

theorem not_runs_kill (s : Pool α) (p : α) : ¬ (s.kill p).Runs p := by
  intro runs
  have stopped := s.supervision.fates.not_isRunning_kill p
  exact Bool.false_ne_true (stopped.symm.trans runs.2)

theorem closed_track (s : Pool α) (p : α) : (s.track p).closed = s.closed := by
  change (s.supervision.registry.track p).closed = s.supervision.registry.closed
  unfold Registry.track
  split <;> rfl

theorem mem_tracked_track (opened : s.closed = false) : q ∈ (s.track p).tracked ↔
    q = p ∨ q ∈ s.tracked := by
  change q ∈ (s.supervision.registry.track p).tracked ↔ _
  have opened : s.supervision.registry.closed = false := opened
  unfold Registry.track
  split
  · rename_i known
    have known : p ∈ s.tracked := known.resolve_left (by simp [opened])
    constructor
    · exact .inr
    · rintro (rfl | member)
      · exact known
      · exact member
  · simp [tracked, or_comm]

namespace Supervised

variable {stage : Stage}

theorem kill (h : s.Supervised) (p : α) : (s.kill p).Supervised where
  covered q runs := h.covered q ⟨runs.1, Fates.isRunning_of_kill runs.2⟩
  ended q stage runs := h.ended q stage ⟨runs.1, Fates.isRunning_of_kill runs.2⟩
  emptied := h.emptied
  called := h.called

theorem exit (h : s.Supervised) (p : α) : (s.exit p).Supervised where
  covered q runs := h.covered q ⟨runs.1, Fates.isRunning_of_exit runs.2⟩
  ended q stage runs := h.ended q stage ⟨runs.1, Fates.isRunning_of_exit runs.2⟩
  emptied := h.emptied
  called := h.called

theorem track (h : s.Supervised) (opened : s.closed = false) : (s.track p).Supervised where
  covered q runs := by
    rw [mem_tracked_track opened]
    rcases h.covered q runs with member | other
    · exact .inl (.inr member)
    · exact .inr other
  ended := h.ended
  emptied closed := by
    rw [closed_track, opened] at closed
    cases closed
  called called := by
    rw [h.called called] at opened
    cases opened

theorem discard (h : s.Supervised) (gone : ¬ s.Runs p) : (s.discard p).Supervised where
  covered q runs := by
    rcases h.covered q runs with member | other
    · refine .inl ((List.mem_erase_of_ne ?_).mpr member)
      rintro rfl
      exact gone runs
    · exact .inr other
  ended := h.ended
  emptied closed := by
    have none : s.tracked = [] := h.emptied closed
    change s.tracked.erase p = []
    rw [none, List.erase_nil]
  called := h.called

theorem moveTo (h : s.Supervised)
    (guarded : s.supervision.fates.isRunning p = true →
      p ∈ s.tracked ∨ p ∈ s.termination.snapshot ∨ stage = .spawned ∨ stage = .refused)
    (gone : stage = .ending ∨ stage = .finished → s.supervision.fates.isRunning p = false) :
    (s.moveTo p stage).Supervised where
  covered q runs := by
    by_cases same : q = p
    · subst same
      rw [stage_moveTo]
      exact guarded runs.2
    · rw [stage_moveTo_of_ne same]
      exact h.covered q ⟨stage_moveTo_of_ne same s stage ▸ runs.1, runs.2⟩
  ended q now runs := by
    by_cases same : q = p
    · subst same
      rw [stage_moveTo] at now
      exact Bool.false_ne_true ((gone now).symm.trans runs.2)
    · rw [stage_moveTo_of_ne same] at now
      exact h.ended q now ⟨stage_moveTo_of_ne same s stage ▸ runs.1, runs.2⟩
  emptied := h.emptied
  called := h.called

theorem proceed (h : s.Supervised) {termination : Termination α} (closed : s.closed = true)
    (kept : ∀ p, s.Runs p → p ∈ s.termination.snapshot → p ∈ termination.snapshot) :
    (s.proceed termination).Supervised where
  covered p runs := by
    rcases h.covered p runs with member | snapshot | other
    · exact .inl member
    · exact .inr (.inl (kept p runs snapshot))
    · exact .inr (.inr other)
  ended := h.ended
  emptied := h.emptied
  called _ := closed

theorem close (h : s.Supervised) (idle : s.termination.snapshot = []) : s.close.Supervised where
  covered q runs := by
    rcases h.covered q runs with member | snapshot | other
    · exact .inr (.inl member)
    · rw [idle] at snapshot
      cases snapshot
    · exact .inr (.inr other)
  ended := h.ended
  emptied _ := rfl
  called _ := rfl

end Supervised

/-- Every atomic step keeps the processes supervised. -/
theorem Step.supervised (h : Step s t) (before : s.Supervised) : t.Supervised := by
  cases h with
  | spawn => exact before.moveTo (fun _ => .inr (.inr (.inl rfl))) (by simp)
  | @track p _ opened =>
    have member : p ∈ (s.track p).tracked := (mem_tracked_track opened).mpr (.inl rfl)
    exact (before.track opened).moveTo (fun _ => .inl member) (by simp)
  | refuse => exact before.moveTo (fun _ => .inr (.inr (.inr rfl))) (by simp)
  | @killRefused p =>
    have gone := s.supervision.fates.not_isRunning_kill p
    exact (before.kill p).moveTo (fun running => absurd (gone.symm.trans running) (by simp))
      (by simp)
  | @exit p => exact before.exit p
  | @killOverdue p => exact before.kill p
  | @finish p =>
    have gone := s.supervision.fates.not_isRunning_kill p
    exact (before.kill p).moveTo (fun running => absurd (gone.symm.trans running) (by simp))
      (fun _ => gone)
  | @discard p ending =>
    have gone := before.ended p (.inl ending)
    have ended : s.supervision.fates.isRunning p = false := by
      rw [Bool.eq_false_iff]
      exact fun running => gone ⟨by simp [ending], running⟩
    exact (before.discard gone).moveTo (fun running => absurd (ended.symm.trans running) (by simp))
      (fun _ => ended)
  | close idle =>
    apply before.close
    rcases idle with idle | idle <;> rw [idle] <;> rfl
  | @killTracked rest p killing member =>
    have closed := before.called (by simp [killing])
    refine (before.kill p).proceed closed fun q runs snapshot => ?_
    have other : q ≠ p := by
      rintro rfl
      exact not_runs_kill s q runs
    have snapshot : q ∈ s.termination.snapshot := snapshot
    rw [killing] at snapshot
    exact (List.mem_erase_of_ne other).mpr snapshot
  | conclude killing =>
    have closed := before.called (by simp [killing])
    refine before.proceed closed fun p _ snapshot => ?_
    rw [killing] at snapshot
    exact snapshot

theorem Leads.supervised (h : Leads s t) (before : s.Supervised) : t.Supervised := by
  induction h with
  | refl => exact before
  | tail _ step ih => exact step.supervised ih

theorem Step.closed (h : Step s t) (closed : s.closed = true) : t.closed = true := by
  cases h with
  | track =>
    change (s.track _).closed = true
    rwa [closed_track]
  | close => rfl
  | spawn | refuse | killRefused | exit | killOverdue | finish | discard | killTracked | conclude =>
    exact closed

theorem Leads.closed (h : Leads s t) (closed : s.closed = true) : t.closed = true := by
  induction h with
  | refl => exact closed
  | tail _ step ih => exact step.closed ih

theorem Step.snapshot_eq_nil (h : Step s t) (emptied : s.tracked = [])
    (idle : s.termination.snapshot = []) : t.termination.snapshot = [] := by
  cases h with
  | close => exact emptied
  | @killTracked rest p killing member =>
    rw [killing] at idle
    have none : rest = [] := idle
    rw [none] at member
    cases member
  | conclude => rfl
  | spawn | track | refuse | killRefused | exit | killOverdue | finish | discard => exact idle

theorem Leads.snapshot_eq_nil (h : Leads s t) (before : s.Supervised) (closed : s.closed = true)
    (idle : s.termination.snapshot = []) : t.termination.snapshot = [] := by
  induction h with
  | refl => exact idle
  | tail reached step ih =>
    have emptied := (Leads.supervised reached before).emptied (Leads.closed reached closed)
    exact step.snapshot_eq_nil emptied ih

/-- However compilations and main thread interleave, what runs is tracked, or about to be killed, or
    has not yet come past the registry; a closed registry stays empty; and once termination has
    returned, no process runs that has come past the registry. -/
theorem no_process_survives (h : Leads start s) :
    (s.closed = true → ∀ t, Leads s t → t.closed = true ∧ t.tracked = []) ∧
    (∀ p, s.Runs p → p ∈ s.tracked ∨ p ∈ s.termination.snapshot ∨
      s.stage p = .spawned ∨ s.stage p = .refused) ∧
    (s.termination = .returned → ∀ t, Leads s t →
      ∀ p, (t.stage p).isAdded = true → ¬ t.Runs p) := by
  have supervised := h.supervised supervised_start
  refine ⟨fun closed t later => ?_, supervised.covered, fun returned t later p added runs => ?_⟩
  · have stays := later.closed closed
    exact ⟨stays, (later.supervised supervised).emptied stays⟩
  · have closed := supervised.called (by simp [returned])
    have after := later.supervised supervised
    have idle := later.snapshot_eq_nil supervised closed (by rw [returned]; rfl)
    rcases after.covered p runs with member | snapshot | spawned | refused
    · simp [after.emptied (later.closed closed)] at member
    · simp [idle] at snapshot
    · simp [spawned, Stage.isAdded] at added
    · simp [refused, Stage.isAdded] at added

theorem no_process_survives_latecomer :
    let opened : Pool Nat := ((start.moveTo 0 .spawned).track 0).moveTo 0 .waiting
    let closed := (opened.moveTo 1 .spawned).close.moveTo 1 .refused
    let s := ((closed.kill 0).proceed (.killing [])).proceed .returned
    Leads start s ∧ s.Runs 1 ∧
      ∀ t, Leads s t → t.tracked = [] ∧ ∀ p, (t.stage p).isAdded = true → ¬ t.Runs p := by
  intro opened closed s
  have tracking : Leads start opened := .tail (.tail .refl (.spawn rfl)) (.track rfl rfl)
  have closing : Leads opened closed :=
    .tail (.tail (.tail .refl (.spawn rfl)) (.close (.inl rfl))) (.refuse rfl rfl)
  have snapshot : closed.termination = .killing [0] := rfl
  have killing : Leads closed s :=
    .tail (.tail .refl (.killTracked snapshot (by decide))) (.conclude rfl)
  have reached := (tracking.trans closing).trans killing
  obtain ⟨empty, _, gone⟩ := no_process_survives reached
  exact ⟨reached, ⟨by decide, by decide⟩, fun t later => ⟨(empty rfl t later).2, gone rfl t later⟩⟩

/-! What runs without interleaving is a run of the steps that nothing comes between. -/

theorem moveTo_moveTo (s : Pool α) (p : α) (first second : Stage) :
    (s.moveTo p first).moveTo p second = s.moveTo p second := by
  unfold moveTo
  congr 1
  funext q
  by_cases same : q = p <;> simp [same]

theorem leads_add (spawned : s.stage p = .spawned) :
    Leads s ({ s with supervision := s.supervision.add p }.moveTo p .waiting) := by
  cases closed : s.closed with
  | false =>
    have tracks : { s with supervision := s.supervision.add p } = s.track p := by
      have opened : s.supervision.registry.closed = false := closed
      simp [Supervision.add, opened, Pool.track]
    rw [tracks]
    exact .single (.track spawned closed)
  | true =>
    have kills : { s with supervision := s.supervision.add p } = s.kill p := by
      have closed : s.supervision.registry.closed = true := closed
      simp [Supervision.add, closed, Pool.kill]
    rw [kills, ← moveTo_moveTo _ p .refused]
    exact .tail (.single (.refuse spawned closed)) (.killRefused (stage_moveTo ..))

theorem leads_finish (waiting : s.stage p = .waiting) :
    Leads s ({ s with supervision := (s.supervision.kill p).discard p }.moveTo p .finished) := by
  have step : Step ((s.kill p).moveTo p .ending) _ := .discard (stage_moveTo ..)
  have same : (((s.kill p).moveTo p .ending).discard p).moveTo p .finished =
      ((s.kill p).discard p).moveTo p .finished :=
    moveTo_moveTo ((s.kill p).discard p) p .ending .finished
  rw [same] at step
  exact .tail (.single (.finish waiting)) step

theorem leads_await {s : Pool Nat} {p : Nat} (spawned : s.stage p = .spawned)
    {response : Response} (started : ∀ reason, response ≠ .notStarted reason) :
    Leads s ({ s with supervision := (Renderer.await p s.supervision response).2 }.moveTo p
      .finished) := by
  have exits : ∀ s : Pool Nat, s.stage p = .waiting → Step s (s.exit p) :=
    fun s waiting => .exit (by simp [waiting])
  let added : Pool Nat := { s with supervision := s.supervision.add p }.moveTo p .waiting
  have waiting : added.stage p = .waiting := stage_moveTo ..
  have start : Leads s added := leads_add spawned
  rw [← moveTo_moveTo _ p .waiting .finished]
  cases response with
  | notStarted reason => exact absurd rfl (started reason)
  | interrupted | overflow => exact start.trans (leads_finish waiting)
  | timedOut ended =>
    cases ended with
    | none =>
      have overdue : Step added (added.kill p) := .killOverdue waiting
      exact (start.tail overdue).trans (leads_finish waiting)
    | some status =>
      have overdue : Step (added.exit p) ((added.exit p).kill p) := .killOverdue waiting
      exact ((start.tail (exits added waiting)).tail overdue).trans (leads_finish waiting)
  | exited status stderr artifact =>
    exact (start.tail (exits added waiting)).trans (leads_finish waiting)

theorem leads_killTracked {rest : List α} (killing : s.termination = .killing rest) :
    Leads s ({ s with supervision.fates := rest.foldl Fates.kill s.supervision.fates }.proceed
      (.killing [])) := by
  induction rest generalizing s with
  | nil =>
    have same : s.proceed (.killing []) = s := by
      rw [← killing]
      rfl
    exact same ▸ .refl
  | cons p rest ih =>
    have step : Step s _ := .killTracked killing (List.mem_cons_self ..)
    rw [List.erase_cons_head] at step
    exact .head step (ih rfl)

theorem leads_terminateAll
    (idle : s.termination = .notCalled ∨ s.termination = .returned) :
    Leads s ({ s with supervision := s.supervision.terminateAll.1 }.proceed .returned) :=
  .tail (.head (.close idle) (leads_killTracked rfl)) (.conclude rfl)

end Pool

end BookHighlight.Compiler
