import BookHighlight.Proofs.Transform.Process
import BookHighlight.Proofs.Transform.Steady
import Mathlib.Data.List.Forall2
import Mathlib.Logic.Relation

namespace BookHighlight

open Markdown (Construct)

section

variable (t : Transformer)

def Transformer.documents (c : Construct) : List (List Char) :=
  match t.direct? c with
  | some _ => []
  | none => [t.document c]

def Call.handed (call : Call) : List (List Char) :=
  match call.progress with
  | .unsubmitted | .queued | .begun => []
  | .compiling .. | .done _ => t.documents call.construct

def Call.Sound (call : Call) : Prop :=
  match call.progress with
  | .unsubmitted | .queued | .begun => True
  | .compiling _ response => t.outcome call.construct response.result = t.alone call.construct
  | .done outcome => .ok outcome = t.alone call.construct

structure Crew.Sound (workshop : Workshop) (cs : List Construct) (s : Crew) : Prop where
  constructs_eq : s.calls.map (·.construct) = cs
  calls : ∀ call ∈ s.calls, call.Sound t
  /-- no document was handed over twice, or for nothing -/
  handed : ∃ handed, s.workshop.compiled = handed ++ workshop.compiled ∧
    handed.Perm (s.calls.flatMap (Call.handed t))
  joined : s.joined.map .ok <+: cs.map t.alone

end

variable {t : Transformer}

theorem Transformer.Works.sound {c : Construct} {w w' : Workshop} {p p' : Progress}
    (h : t.Works c w p w' p') (steady : t.compiler.Steady) (before : Call.Sound t ⟨c, p⟩) :
    Call.Sound t ⟨c, p'⟩ ∧ ∃ more, w'.compiled = more ++ w.compiled ∧
      Call.handed t ⟨c, p'⟩ = more ++ Call.handed t ⟨c, p⟩ := by
  have alone := process_alone steady w c
  cases h with
  | settle direct =>
    rw [process_direct direct] at alone
    exact ⟨alone, [], rfl, by simp [Call.handed, documents, direct]⟩
  | refuse indirect written refused result =>
    rw [process_refused indirect written refused, result] at alone
    exact ⟨alone, [t.document c], rfl, by simp [Call.handed, documents, indirect]⟩
  | compile indirect written responds started =>
    rw [process_started indirect written responds started] at alone
    exact ⟨alone, [t.document c], rfl, by simp [Call.handed, documents, indirect]⟩
  | finish result =>
    have same : _ = t.alone c := before
    rw [result] at same
    exact ⟨same, [], rfl, rfl⟩

namespace Crew

abbrev Leads (t : Transformer) : Crew → Crew → Prop := Relation.ReflTransGen (Step t)

variable {workshop : Workshop} {cs : List Construct} {s s' : Crew}

theorem sound_start (t : Transformer) (workshop : Workshop) (cs : List Construct) :
    Sound t workshop cs (start workshop cs) where
  constructs_eq := by simp [start, Function.comp_def]
  calls := by
    intro call member
    obtain ⟨c, _, rfl⟩ := List.mem_map.mp member
    exact trivial
  handed := ⟨[], rfl, by simp [start, Call.handed, List.flatMap_map]⟩
  joined := List.nil_prefix

theorem Sound.call (h : Sound t workshop cs s) {before after : List Call} {call : Call}
    (placed : s.calls = before ++ call :: after) : call.Sound t :=
  h.calls call (by simp [placed])

/-- One call gets on, and hands over what it is due to; the others stay where they are. -/
theorem Sound.advance {before after : List Call} {c : Construct} {p p' : Progress}
    {later : Workshop} (h : Sound t workshop cs s)
    (placed : s.calls = before ++ ⟨c, p⟩ :: after) (sound : Call.Sound t ⟨c, p'⟩)
    (more : List (List Char)) (compiled : later.compiled = more ++ s.workshop.compiled)
    (handed : Call.handed t ⟨c, p'⟩ = more ++ Call.handed t ⟨c, p⟩) :
    Sound t workshop cs
      { s with workshop := later, calls := before ++ ⟨c, p'⟩ :: after } where
  constructs_eq := by
    have constructs := h.constructs_eq
    rw [placed] at constructs
    simpa using constructs
  calls := by
    intro call member
    rcases List.mem_append.mp member with earlier | here
    · exact h.calls call (by simp [placed, earlier])
    · rcases List.mem_cons.mp here with rfl | later
      · exact sound
      · exact h.calls call (by simp [placed, later])
  handed := by
    obtain ⟨already, whole, perm⟩ := h.handed
    refine ⟨more ++ already, by simp [compiled, whole], ?_⟩
    -- what is handed over now is the newest, wherever its call stands among the others
    simp only [placed, List.flatMap_append, List.flatMap_cons] at perm
    simp only [List.flatMap_append, List.flatMap_cons, handed, List.append_assoc]
    exact (perm.append_left more).trans (List.perm_append_comm_assoc ..)
  joined := h.joined

theorem Step.sound (h : Step t s s') (steady : t.compiler.Steady)
    (before : Sound t workshop cs s) : Sound t workshop cs s' := by
  cases h with
  | submit _ placed _ => exact before.advance placed trivial [] rfl rfl
  | take _ placed _ => exact before.advance placed trivial [] rfl rfl
  | work _ placed works =>
    obtain ⟨sound, more, compiled, handed⟩ := works.sound steady (before.call placed)
    exact before.advance placed sound more compiled handed
  | @join c outcome rest first _ placed next =>
    -- as many outcomes are joined as there are calls before this one, so its own comes next
    let alone := fun call : Call => t.alone call.construct
    have own : .ok outcome = t.alone c := before.call placed
    have whole : cs.map t.alone = first.map alone ++ .ok outcome :: rest.map alone := by
      rw [← before.constructs_eq, placed, own]
      simp [alone, Function.comp_def]
    have taken := List.prefix_iff_eq_take.mp before.joined
    have length : (s.joined.map (@Except.ok Disruption Outcome)).length =
        (first.map alone).length := by
      rw [List.length_map, List.length_map, next]
    rw [length, whole, List.take_left] at taken
    have joined : (s.joined ++ [outcome]).map .ok <+: cs.map t.alone := by
      rw [List.map_append, taken, whole]
      exact ⟨rest.map alone, by simp⟩
    exact { before with joined }

theorem Leads.sound (h : Leads t s s') (steady : t.compiler.Steady)
    (before : Sound t workshop cs s) : Sound t workshop cs s' := by
  induction h with
  | refl => exact before
  | tail _ step ih => exact step.sound steady ih

end Crew

/-! The steps come to an end, and not before all outcomes are joined. -/

def Progress.left : Progress → Nat
  | .unsubmitted => 4
  | .queued => 3
  | .begun => 2
  | .compiling .. => 1
  | .done _ => 0

theorem Transformer.Works.left_lt {c : Construct} {w w' : Workshop} {p p' : Progress}
    (h : t.Works c w p w' p') : p'.left < p.left := by
  cases h <;> simp [Progress.left]

theorem Transformer.exists_works {c : Construct} {p : Progress} (steady : t.compiler.Steady)
    (completes : t.Completes c) (sound : Call.Sound t ⟨c, p⟩) (busy : p.isBusy = true)
    (w : Workshop) : ∃ w' p', t.Works c w p w' p' := by
  obtain ⟨outcome, settles⟩ := (completes_iff steady).mp completes
  cases p with
  | unsubmitted | queued | done => cases busy
  | compiling process response =>
    have result : _ = t.alone c := sound
    exact ⟨_, _, .finish (result.trans settles)⟩
  | begun =>
    cases direct : t.direct? c with
    | some treatment => exact ⟨_, _, .settle direct⟩
    | none =>
      cases written : t.compiler.writes (t.document c) with
      | false =>
        have alone := process_alone steady w c
        rw [process_unwritten direct written, settles] at alone
        cases alone
      | true =>
        cases responds : t.compiler.respond t.config.timeout w.compiled (t.document c) with
        | notStarted reason => exact ⟨_, _, .refuse direct written responds rfl⟩
        | timedOut | interrupted | overflow | exited =>
          exact ⟨_, _, .compile direct written responds nofun⟩

namespace Crew

variable {workshop : Workshop} {cs : List Construct} {s s' : Crew}

def leftFor : List Call → Nat
  | [] => 0
  | call :: rest => call.progress.left + leftFor rest

theorem leftFor_append (before after : List Call) :
    leftFor (before ++ after) = leftFor before + leftFor after := by
  induction before with
  | nil => simp [leftFor]
  | cons call rest ih =>
    simp only [List.cons_append, leftFor, ih]
    omega

def left (s : Crew) : Nat := leftFor s.calls + (s.calls.length - s.joined.length)

theorem left_advance {before after : List Call} {c : Construct} {p p' : Progress}
    (placed : s.calls = before ++ ⟨c, p⟩ :: after) (less : p'.left < p.left) (later : Workshop) :
    ({ s with workshop := later, calls := before ++ ⟨c, p'⟩ :: after } : Crew).left < s.left := by
  simp only [left, placed, leftFor_append, leftFor, List.length_append, List.length_cons]
  omega

theorem Step.left_lt (h : Step t s s') : s'.left < s.left := by
  cases h with
  | submit _ placed _ => exact left_advance placed (by decide) _
  | take _ placed _ => exact left_advance placed (by decide) _
  | work _ placed works => exact left_advance placed works.left_lt _
  | join _ _ placed next =>
    have inside : s.joined.length < s.calls.length := by
      rw [placed, ← next]
      simp
    simp only [left, List.length_append, List.length_singleton]
    omega

theorem wellFounded_step (t : Transformer) : WellFounded fun s' s => Step t s s' :=
  Subrelation.wf Step.left_lt (measure left).wf

theorem exists_first_unsubmitted (h : ¬ s.Submitted) : ∃ before c after,
    s.calls = before ++ ⟨c, .unsubmitted⟩ :: after ∧
      ∀ call ∈ before, call.progress ≠ .unsubmitted := by
  unfold Submitted at h
  push Not at h
  obtain ⟨call, member, pending⟩ := h
  have found : (s.calls.find? fun call => call.progress = .unsubmitted).isSome = true :=
    List.find?_isSome.mpr ⟨call, member, decide_eq_true pending⟩
  obtain ⟨⟨c, progress⟩, first⟩ := Option.isSome_iff_exists.mp found
  obtain ⟨pending, before, after, placed, others⟩ := List.find?_eq_some_iff_append.mp first
  obtain rfl : progress = .unsubmitted := of_decide_eq_true pending
  exact ⟨before, c, after, placed, fun call member => by simpa using others call member⟩

theorem Sound.construct_mem (h : Sound t workshop cs s) {call : Call} (member : call ∈ s.calls) :
    call.construct ∈ cs := by
  rw [← h.constructs_eq]
  exact List.mem_map_of_mem member

theorem Sound.done_or_step (h : Sound t workshop cs s) (steady : t.compiler.Steady)
    (jobs : 0 < t.config.jobs) (completes : ∀ c ∈ cs, t.Completes c) (submitted : s.Submitted) :
    (∀ call ∈ s.calls, ∃ outcome, call.progress = .done outcome) ∨ ∃ s', Step t s s' := by
  by_cases working : ∃ call ∈ s.calls, call.progress.isBusy = true
  · obtain ⟨⟨c, p⟩, member, busy⟩ := working
    obtain ⟨before, after, placed⟩ := List.append_of_mem member
    have complete := completes c (h.construct_mem member)
    obtain ⟨w, p', works⟩ :=
      Transformer.exists_works steady complete (h.calls _ member) busy s.workshop
    exact .inr ⟨_, .work before placed works⟩
  · by_cases waiting : ∃ c, (⟨c, .queued⟩ : Call) ∈ s.calls
    · obtain ⟨c, member⟩ := waiting
      obtain ⟨before, after, placed⟩ := List.append_of_mem member
      have idle : s.busy = 0 := List.countP_eq_zero.mpr fun call member busy =>
        working ⟨call, member, busy⟩
      exact .inr ⟨_, .take before placed (by omega)⟩
    · left
      rintro ⟨c, p⟩ member
      cases p with
      | unsubmitted => exact absurd rfl (submitted _ member)
      | queued => exact absurd ⟨c, member⟩ waiting
      | begun => exact absurd ⟨_, member, rfl⟩ working
      | compiling => exact absurd ⟨_, member, rfl⟩ working
      | done outcome => exact ⟨outcome, rfl⟩

theorem Sound.returned_or_join (h : Sound t workshop cs s) (submitted : s.Submitted)
    (done : ∀ call ∈ s.calls, ∃ outcome, call.progress = .done outcome) :
    s.Returned ∨ ∃ s', Step t s s' := by
  by_cases all : s.joined.length = s.calls.length
  · exact .inl ⟨all, done⟩
  · have fewer : s.joined.length < s.calls.length := by
      have bound := h.joined.length_le
      rw [List.length_map, List.length_map, ← h.constructs_eq, List.length_map] at bound
      omega
    -- the next call to be joined is the one with as many calls before it as outcomes are joined
    obtain ⟨outcome, fetched⟩ := done _ (List.getElem_mem fewer)
    have placed : s.calls = s.calls.take s.joined.length ++
        ⟨s.calls[s.joined.length].construct, .done outcome⟩ ::
          s.calls.drop (s.joined.length + 1) := by
      rw [← fetched, ← List.drop_eq_getElem_cons fewer, List.take_append_drop]
    exact .inr ⟨_, .join _ submitted placed (by rw [List.length_take]; omega)⟩

/-- Until it has returned, a pool with at least one worker is never stuck. -/
theorem Sound.exists_step (h : Sound t workshop cs s) (steady : t.compiler.Steady)
    (jobs : 0 < t.config.jobs) (completes : ∀ c ∈ cs, t.Completes c) :
    s.Returned ∨ ∃ s', Step t s s' := by
  by_cases submitted : s.Submitted
  · rcases h.done_or_step steady jobs completes submitted with done | step
    · exact h.returned_or_join submitted done
    · exact .inr step
  · obtain ⟨before, c, after, placed, first⟩ := exists_first_unsubmitted submitted
    exact .inr ⟨_, .submit before placed first⟩

structure Delivers (t : Transformer) (workshop : Workshop) (cs : List Construct) (s : Crew) :
    Prop where
  /-- each outcome is the one that its own piece of code has, whatever was compiled before -/
  own : List.Forall₂ (fun c outcome => ∀ workshop, (t.process workshop c).1 = .ok outcome)
    cs s.joined
  sequential : (t.processAll workshop cs).1 = .ok s.joined
  handed : t.compiler.found = true → t.compiler.workspaceError = none →
    ∃ handed, s.workshop.compiled = handed ++ workshop.compiled ∧
      handed.Perm ((cs.filter fun c => (t.policyFor c).render).map fun c =>
        t.renderer.compose c.code (t.policyFor c).usePrelude)
  unhanded : t.compiler.found = false ∨ t.compiler.workspaceError ≠ none →
    s.workshop.compiled = workshop.compiled
  images : ∀ outcome ∈ s.joined, ∀ html image, outcome.treatment = .rendered html image →
    ∃ stderr bytes payload,
      (∀ earlier, t.compiler.respond t.config.timeout earlier
        (t.renderer.compose outcome.construct.code outcome.policy.usePrelude) =
          .exited 0 stderr (.file bytes)) ∧
      image = "<div class=\"typst-render\"><img src=\"data:image/svg+xml;base64,".toList ++
        payload ++ "\" alt=\"Rendered Typst\"></div>".toList ∧
      Text.ofBase64? payload = some bytes

theorem Sound.joined_eq (h : Sound t workshop cs s) (returned : s.Returned) :
    s.joined.map .ok = cs.map t.alone := by
  refine h.joined.eq_of_length ?_
  rw [List.length_map, returned.1, List.length_map, ← h.constructs_eq, List.length_map]

theorem Sound.handed_returned (h : Sound t workshop cs s) (returned : s.Returned) :
    ∃ handed, s.workshop.compiled = handed ++ workshop.compiled ∧
      handed.Perm (cs.flatMap t.documents) := by
  obtain ⟨handed, whole, perm⟩ := h.handed
  refine ⟨handed, whole, ?_⟩
  have each : s.calls.flatMap (Call.handed t) =
      s.calls.flatMap fun call => t.documents call.construct := by
    refine List.flatMap_congr fun call member => ?_
    obtain ⟨outcome, done⟩ := returned.2 call member
    simp [Call.handed, done]
  rw [each] at perm
  rwa [← h.constructs_eq, List.flatMap_map]

end Crew

theorem Transformer.documents_eq_nil {c : Construct} (direct : t.direct? c ≠ none) :
    t.documents c = [] := by
  obtain ⟨treatment, settled⟩ := Option.ne_none_iff_exists'.mp direct
  simp [documents, settled]

theorem Transformer.flatMap_documents (clear : t.compiler.obstacle? = none) (cs : List Construct) :
    cs.flatMap t.documents = (cs.filter fun c => (t.policyFor c).render).map t.document := by
  induction cs with
  | nil => rfl
  | cons c rest ih =>
    rw [List.flatMap_cons, ih]
    cases render : (t.policyFor c).render with
    | true =>
      have indirect : t.direct? c = none := direct?_eq_none_iff.mpr ⟨render, clear⟩
      simp [documents, indirect, render]
    | false =>
      have direct : t.direct? c ≠ none := fun none =>
        absurd (direct?_eq_none_iff.mp none).1 (by simp [render])
      simp [documents_eq_nil direct, render]

theorem Transformer.flatMap_documents_obstacle (obstacle : t.compiler.obstacle? ≠ none)
    (cs : List Construct) : cs.flatMap t.documents = [] := by
  refine List.flatMap_eq_nil_iff.mpr fun c _ => documents_eq_nil ?_
  exact fun none => obstacle (direct?_eq_none_iff.mp none).2

namespace Crew

variable {workshop : Workshop} {cs : List Construct} {s s' : Crew}

theorem Sound.delivers (h : Sound t workshop cs s) (steady : t.compiler.Steady)
    (returned : s.Returned) : Delivers t workshop cs s where
  own := by
    have each := (h.joined_eq returned).symm
    rw [← List.forall₂_eq_eq_eq, List.forall₂_map_left_iff, List.forall₂_map_right_iff] at each
    exact each.imp fun c outcome alone workshop =>
      (Transformer.process_alone steady workshop c).trans alone
  sequential := (Transformer.processAll_alone steady workshop cs).trans
    (mapM_eq_ok (h.joined_eq returned).symm)
  handed := by
    intro found workspace
    have clear := Compiler.clear_iff.mpr ⟨found, workspace⟩
    obtain ⟨handed, whole, perm⟩ := h.handed_returned returned
    rw [Transformer.flatMap_documents clear] at perm
    exact ⟨handed, whole, perm⟩
  unhanded := by
    intro missing
    have obstacle : t.compiler.obstacle? ≠ none := by
      intro clear
      obtain ⟨found, workspace⟩ := Compiler.clear_iff.mp clear
      rcases missing with missing | failed
      · exact Bool.false_ne_true (missing.symm.trans found)
      · exact failed workspace
    obtain ⟨handed, whole, perm⟩ := h.handed_returned returned
    rw [Transformer.flatMap_documents_obstacle obstacle] at perm
    rw [whole, perm.eq_nil, List.nil_append]
  images := by
    intro outcome member html image rendered
    have settled : .ok outcome ∈ cs.map t.alone := by
      rw [← h.joined_eq returned]
      exact List.mem_map_of_mem member
    obtain ⟨c, _, alone⟩ := List.mem_map.mp settled
    rcases t.process_cases .empty c with
      ⟨treatment, after, processed, _⟩ | ⟨disruption, after, stops, _⟩
    · obtain rfl : ⟨c, t.policyFor c, treatment⟩ = outcome :=
        Except.ok.inj ((congrArg Prod.fst processed).symm.trans alone)
      obtain ⟨stderr, bytes, responds, rfl⟩ := Transformer.process_rendered processed rendered
      refine ⟨stderr, bytes, Text.toBase64 bytes, fun earlier => ?_, rfl,
        Text.ofBase64?_toBase64 bytes⟩
      rw [steady _ earlier []]
      exact responds
    · cases (congrArg Prod.fst stops).symm.trans alone

/-- Whatever order the workers take the calls in and however they interleave, the pool comes to an
    end, and each piece of code gets what the compiler made of it. -/
theorem every_schedule_delivers (t : Transformer) (workshop : Workshop) (cs : List Construct)
    (steady : t.compiler.Steady) (jobs : 0 < t.config.jobs) :
    (WellFounded fun s' s => Step t s s') ∧ ∀ s, Leads t (start workshop cs) s →
      ((∀ c ∈ cs, t.Completes c) → s.Returned ∨ ∃ s', Step t s s') ∧
      (s.Returned → Delivers t workshop cs s) := by
  refine ⟨wellFounded_step t, fun s leads => ?_⟩
  have sound := leads.sound steady (sound_start t workshop cs)
  exact ⟨sound.exists_step steady jobs, sound.delivers steady⟩

theorem every_schedule_delivers_crosswise :
    let compiler : Compiler := {
      found := true
      writes := fun _ => true
      respond := fun _ _ document =>
        .exited 0 [] (.file (document.map fun c => UInt8.ofNat c.toNat)) }
    let t : Transformer := {
      config := { jobs := 2, render := true, prelude := "" }
      theme := Theme.solarizedDark
      compiler }
    let a : Construct := .block ⟨.fenced [] (Tag.ofInfo? "typ".toList), 0, 14, "#a\n".toList, []⟩
    let b : Construct := .block ⟨.fenced [] (Tag.ofInfo? "typ".toList), 15, 29, "#b\n".toList, []⟩
    compiler.Steady ∧ compiler.Undisturbed ∧ 0 < t.config.jobs ∧
      ∃ s, Leads t (start .empty [a, b]) s ∧ s.Returned ∧
        s.workshop.compiled = ["#a\n".toList, "#b\n".toList] ∧ Delivers t .empty [a, b] s := by
  intro compiler t a b
  have steady : compiler.Steady := fun _ _ _ _ => rfl
  have undisturbed : compiler.Undisturbed :=
    ⟨fun _ => rfl, fun _ _ _ => Response.exited_ne_raised _ _ _⟩
  let bytes := fun c => (t.document c).map fun c => UInt8.ofNat c.toNat
  let response := fun c => Response.exited 0 [] (.file (bytes c))
  let outcome := fun c =>
    (⟨c, t.policyFor c, .rendered (t.html c) (imageHtml (bytes c))⟩ : Outcome)
  have clear : t.compiler.obstacle? = none := rfl
  have compiles : ∀ c, (t.policyFor c).render = true → t.direct? c = none := fun c render =>
    Transformer.direct?_eq_none_iff.mpr ⟨render, clear⟩
  have succeeds : ∀ c, (response c).result = .image (bytes c) →
      t.outcome c (response c).result = .ok (outcome c) := by
    intro c result
    rw [result]
    rfl
  let first := (Workshop.empty.hand (t.document b)).start
  let both := (first.hand (t.document a)).start
  let last := (both.release 1 (response a)).release 0 (response b)
  let done : List Call := [⟨a, .done (outcome a)⟩, ⟨b, .done (outcome b)⟩]
  have submits : Leads t (start .empty [a, b]) ⟨.empty, [⟨a, .queued⟩, ⟨b, .queued⟩], []⟩ :=
    .tail (.single (.submit [] rfl (by simp))) (.submit [⟨a, .queued⟩] rfl (by simp))
  have starts : Leads t ⟨.empty, [⟨a, .queued⟩, ⟨b, .queued⟩], []⟩
      ⟨both, [⟨a, .compiling 1 (response a)⟩, ⟨b, .compiling 0 (response b)⟩], []⟩ := by
    refine .head (.take [⟨a, .queued⟩] rfl (by decide)) ?_
    refine .head (.work [⟨a, .queued⟩] rfl (.compile (compiles b (by decide)) rfl rfl nofun)) ?_
    refine .head (.take [] rfl (by decide)) ?_
    exact .single (.work [] rfl (.compile (compiles a (by decide)) rfl rfl nofun))
  have finishes : Leads t
      ⟨both, [⟨a, .compiling 1 (response a)⟩, ⟨b, .compiling 0 (response b)⟩], []⟩
      ⟨last, done, []⟩ := by
    refine .head (.work [] rfl (.finish (succeeds a (by decide)))) ?_
    exact .single (.work [⟨a, .done (outcome a)⟩] rfl (.finish (succeeds b (by decide))))
  have joins : Leads t ⟨last, done, []⟩ ⟨last, done, [outcome a, outcome b]⟩ := by
    refine .head (.join [] (by simp [Submitted, done]) rfl rfl) ?_
    exact .single (.join [⟨a, .done (outcome a)⟩] (by simp [Submitted, done]) rfl rfl)
  have leads := ((submits.trans starts).trans finishes).trans joins
  have returned : Returned ⟨last, done, [outcome a, outcome b]⟩ := ⟨rfl, by simp [done]⟩
  obtain ⟨_, always⟩ := every_schedule_delivers t .empty [a, b] steady (by decide)
  exact ⟨steady, undisturbed, by decide, _, leads, returned, by decide, (always _ leads).2 returned⟩

end Crew

end BookHighlight
