import BookHighlight.Proofs.Transform.Schedule

/-! A pool whose workers take one call after the other does what is done without a pool. -/

namespace BookHighlight.Crew

open Markdown (Construct)

variable {t : Transformer} {cs : List Construct}

def finished (call : Construct × Outcome) : Call := ⟨call.1, .done call.2⟩

theorem leads_submit (w : Workshop) (cs : List Construct) (before : List Call)
    (submitted : ∀ call ∈ before, call.progress ≠ .unsubmitted) :
    Leads t ⟨w, before ++ cs.map (⟨·, .unsubmitted⟩), []⟩
      ⟨w, before ++ cs.map (⟨·, .queued⟩), []⟩ := by
  induction cs generalizing before with
  | nil => exact .refl
  | cons c rest ih =>
    have further : ∀ call ∈ before ++ [⟨c, .queued⟩], call.progress ≠ .unsubmitted := by
      intro call member
      rcases List.mem_append.mp member with earlier | here
      · exact submitted call earlier
      · rw [List.mem_singleton.mp here]
        exact nofun
    have others := ih (before ++ [⟨c, .queued⟩]) further
    simp only [List.append_assoc, List.singleton_append] at others
    exact .head (.submit before rfl submitted) others

theorem leads_call (jobs : 0 < t.config.jobs) {w w' : Workshop} {c : Construct}
    {outcome : Outcome} (processed : t.process w c = (.ok outcome, w')) {before after : List Call}
    (idle : ∀ call ∈ before ++ after, call.progress.isBusy = false) (joined : List Outcome) :
    Leads t ⟨w, before ++ ⟨c, .queued⟩ :: after, joined⟩
      ⟨w', before ++ finished (c, outcome) :: after, joined⟩ := by
  have free : busy ⟨w, before ++ ⟨c, .queued⟩ :: after, joined⟩ = 0 := by
    simp only [busy, List.countP_append, List.countP_cons]
    have others : (before ++ after).countP (fun call => call.progress.isBusy) = 0 :=
      List.countP_eq_zero.mpr fun call member => by simp [idle call member]
    rw [List.countP_append] at others
    simpa [Progress.isBusy] using others
  refine .head (.take before rfl (by omega)) ?_
  cases direct : t.direct? c with
  | some treatment =>
    rw [Transformer.process_direct direct] at processed
    cases processed
    exact .single (.work before rfl (.settle direct))
  | none =>
    cases written : t.compiler.writes (t.document c) with
    | false =>
      rw [Transformer.process_unwritten direct written] at processed
      cases processed
    | true =>
      by_cases started : ∀ reason,
          t.compiler.respond t.config.timeout w.compiled (t.document c) ≠ .notStarted reason
      · rw [Transformer.process_started direct written rfl started] at processed
        obtain ⟨result, rfl⟩ := Prod.mk.inj processed
        refine .head (.work before rfl (.compile direct written rfl started)) ?_
        exact .single (.work before rfl (.finish result))
      · push Not at started
        obtain ⟨reason, refused⟩ := started
        rw [Transformer.process_refused direct written refused] at processed
        obtain ⟨result, rfl⟩ := Prod.mk.inj processed
        exact .single (.work before rfl (.refuse direct written refused result))

theorem leads_calls (jobs : 0 < t.config.jobs) {w w' : Workshop} {cs : List Construct}
    {outcomes : List Outcome} (processes : t.Processes w cs outcomes w') (before : List Call)
    (idle : ∀ call ∈ before, call.progress.isBusy = false) :
    Leads t ⟨w, before ++ cs.map (⟨·, .queued⟩), []⟩
      ⟨w', before ++ (cs.zip outcomes).map finished, []⟩ := by
  induction processes generalizing before with
  | nil => exact .refl
  | @cons w between w' c treatment rest others treats _ ih =>
    let outcome : Outcome := ⟨c, t.policyFor c, treatment⟩
    have queued : ∀ call ∈ rest.map fun c => (⟨c, .queued⟩ : Call),
        call.progress.isBusy = false := by
      intro call member
      obtain ⟨c, _, rfl⟩ := List.mem_map.mp member
      rfl
    have idle_rest := List.forall_mem_append.mpr ⟨idle, queued⟩
    have further : ∀ call ∈ before ++ [finished (c, outcome)], call.progress.isBusy = false := by
      refine List.forall_mem_append.mpr ⟨idle, ?_⟩
      intro call member
      rw [List.mem_singleton.mp member]
      rfl
    have follows := ih (before ++ [finished (c, outcome)]) further
    simp only [List.append_assoc, List.singleton_append] at follows
    exact (leads_call jobs treats.process_eq idle_rest []).trans follows

theorem leads_join (w : Workshop) {cs : List Construct} {outcomes : List Outcome}
    (same : cs.length = outcomes.length) (before : List Call) (joined : List Outcome)
    (submitted : ∀ call ∈ before ++ (cs.zip outcomes).map finished, call.progress ≠ .unsubmitted)
    (next : before.length = joined.length) :
    Leads t ⟨w, before ++ (cs.zip outcomes).map finished, joined⟩
      ⟨w, before ++ (cs.zip outcomes).map finished, joined ++ outcomes⟩ := by
  induction cs generalizing outcomes before joined with
  | nil =>
    obtain rfl : outcomes = [] := List.length_eq_zero_iff.mp same.symm
    rw [List.append_nil joined]
  | cons c rest ih =>
    obtain ⟨outcome, others, rfl⟩ := List.exists_cons_of_length_eq_add_one same.symm
    have fewer : rest.length = others.length := Nat.succ.inj same
    have whole : before ++ ((c :: rest).zip (outcome :: others)).map finished =
        before ++ [finished (c, outcome)] ++ (rest.zip others).map finished := by simp
    have step : Step t ⟨w, before ++ ((c :: rest).zip (outcome :: others)).map finished, joined⟩
        ⟨w, before ++ ((c :: rest).zip (outcome :: others)).map finished, joined ++ [outcome]⟩ :=
      .join before submitted rfl next
    -- the calls stay; what moves is the border between those that are joined and the others
    rw [whole] at step submitted ⊢
    have further : (before ++ [finished (c, outcome)]).length = (joined ++ [outcome]).length := by
      simp [next]
    have follows := ih fewer _ _ submitted further
    rw [List.append_assoc joined, List.singleton_append] at follows
    exact .head step follows

/-- What is processed without a pool is what a pool delivers in one of the ways it can go. -/
theorem leads_processAll (jobs : 0 < t.config.jobs) {workshop after : Workshop}
    {outcomes : List Outcome} (processed : t.processAll workshop cs = (.ok outcomes, after)) :
    ∃ s, Leads t (start workshop cs) s ∧ s.Returned ∧ s.workshop = after ∧
      s.joined = outcomes := by
  have processes := Transformer.Processes.of_eq_ok processed
  have same : cs.length = outcomes.length := by rw [← processes.constructs_eq, List.length_map]
  have done : ∀ call ∈ (cs.zip outcomes).map finished,
      ∃ outcome, call.progress = .done outcome := by
    intro call member
    obtain ⟨⟨c, outcome⟩, _, rfl⟩ := List.mem_map.mp member
    exact ⟨outcome, rfl⟩
  have submitted : ∀ call ∈ (cs.zip outcomes).map finished, call.progress ≠ .unsubmitted := by
    intro call member
    obtain ⟨outcome, progress⟩ := done call member
    rw [progress]
    exact nofun
  have submits := leads_submit (t := t) workshop cs [] (by simp)
  have works := leads_calls jobs processes [] (by simp)
  have joins := leads_join (t := t) after same [] [] submitted rfl
  refine ⟨_, (submits.trans works).trans joins, ⟨?_, done⟩, rfl, rfl⟩
  simp [same]

end BookHighlight.Crew
