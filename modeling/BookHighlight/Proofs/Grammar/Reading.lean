import BookHighlight.Proofs.Grammar.Include
import BookHighlight.Proofs.Grammar.Variables
import Mathlib.Data.List.Forall2

namespace BookHighlight.Grammar

open Data Relation

theorem metaScopeOf_eq_ok {context : String} {items : List Value} {scope : Option String} :
    metaScopeOf context items = .ok scope ↔
      scope.map Value.text = items.findSome? (·.get? "meta_scope") := by
  induction items with
  | nil =>
    cases scope with
    | none => exact ⟨fun _ => rfl, fun _ => rfl⟩
    | some scope =>
      constructor
      · rintro ⟨⟩
      · rintro ⟨⟩
  | cons entry rest ih =>
    rw [metaScopeOf, List.findSome?_cons]
    cases entry.get? "meta_scope" with
    | none => exact ih
    | some value =>
      cases value with
      | text own => cases scope <;> simp [eq_comm]
      | _ => cases scope <;> simp

section

variable {size : Nat}

structure Reads (dialect : Pattern.Dialect) (contexts : Entries) (values : Values)
    (called : Fin size → Key) (name : Key) (items : List Value) (context : Context size) :
    Prop where
  name : context.name = name
  metaScope : context.metaScope.map Value.text = items.findSome? (·.get? "meta_scope")
  rules : Flattens dialect contexts values called items context.rules

theorem context_name {names : Names size} {name : Key} {value : Value} {context : Context size}
    (h : names.context name value = .ok context) : context.name = name := by
  cases value with
  | list items =>
    simp only [Names.context, bind_eq_ok] at h
    obtain ⟨_, _, _, _, ⟨⟩⟩ := h
    rfl
  | _ => cases h

theorem context_eq_ok {names : Names size} {called : Fin size → Key}
    (orderly : Orderly names.contexts) (agrees : names.Agrees called) {name : Key} {value : Value}
    (listed : (name, value) ∈ names.contexts) {context : Context size} :
    names.context name value = .ok context ↔
      ∃ items, value = .list items ∧
        Reads names.dialect names.contexts names.values called name items context := by
  obtain ⟨items, rfl, _⟩ := orderly.listed _ listed
  simp only [Names.context, bind_eq_ok]
  constructor
  · rintro ⟨scope, own, rules, expanded, ⟨⟩⟩
    exact ⟨items, rfl, rfl, metaScopeOf_eq_ok.mp own,
      (rules_eq_ok orderly agrees listed).mp expanded⟩
  · rintro ⟨_, ⟨⟩, rfl, own, expanded⟩
    exact ⟨_, metaScopeOf_eq_ok.mpr own, _, (rules_eq_ok orderly agrees listed).mpr expanded, rfl⟩

end

theorem forEach_eq_ok {α β ε : Type} {f : α → Except ε β} {r : α → β → Prop} {items : List α}
    (each : ∀ item ∈ items, ∀ result, f item = .ok result ↔ r item result)
    (results : { results : List β // results.length = items.length }) :
    forEach f items = .ok results ↔ List.Forall₂ r items results.1 := by
  induction items with
  | nil =>
    obtain ⟨results, sized⟩ := results
    obtain rfl := List.length_eq_zero_iff.mp sized
    exact ⟨fun _ => .nil, fun _ => rfl⟩
  | cons item rest ih =>
    obtain ⟨one, others⟩ := List.forall_mem_cons.mp each
    simp only [forEach, bind_eq_ok]
    constructor
    · rintro ⟨first, here, later, behind, ⟨⟩⟩
      exact .cons ((one first).mp here) ((ih others later).mp behind)
    · obtain ⟨results, sized⟩ := results
      rintro (_ | ⟨here, behind⟩)
      exact ⟨_, (one _).mpr here, ⟨_, Nat.succ.inj sized⟩, (ih others _).mpr behind, rfl⟩

theorem map_eq_of_forall₂ {α β γ : Type} {f : α → γ} {g : β → γ} {items : List α}
    {results : List β} (h : List.Forall₂ (fun item result => g result = f item) items results) :
    results.map g = items.map f := by
  induction h with
  | nil => rfl
  | cons here _ ih => rw [List.map_cons, List.map_cons, here, ih]

theorem exists_of_forall₂ {α β : Type} {r : α → β → Prop} {items : List α} {results : List β}
    (h : List.Forall₂ r items results) {item : α} (member : item ∈ items) :
    ∃ result, r item result := by
  induction h with
  | nil => cases member
  | cons here _ ih =>
    rcases List.mem_cons.mp member with rfl | behind
    · exact ⟨_, here⟩
    · exact ih behind

theorem indexIn_eq_some {keys : List Key}
    (distinct : keys.Pairwise fun left right => left.same right = false) {name : String}
    {i : Fin keys.length} : indexIn keys (.text name) = some i ↔ keys.get i = .text name := by
  rw [indexIn, List.findFinIdx?_eq_some_iff]
  constructor
  · exact fun found => Key.eq_text_of_same found.1
  · intro here
    change keys[i] = _ at here
    refine ⟨by rw [here]; exact beq_self_eq_true name, fun j before same => ?_⟩
    have differ := List.pairwise_iff_getElem.mp distinct j i j.2 i.2 before
    change keys[j].same keys[i] = false at differ
    rw [here, same] at differ
    cases differ

structure Flattened (dialect : Pattern.Dialect) (payload contexts : Entries) (g : Grammar) :
    Prop where
  name : g.name = textField payload "name" "grammar"
  scope : g.scope = textField payload "scope" "source"
  main : (g.context g.main).name = .text "main"
  contexts : ∃ values, variablesOf payload = .ok values ∧
    List.Forall₂ (fun entry context => ∃ items, entry.2 = .list items ∧
      Reads dialect contexts values (fun i => (g.context i).name) entry.1 items context)
      contexts g.contexts

theorem called_eq {keys : List Key} {compiled : List (Context keys.length)}
    (sized : compiled.length = keys.length) (named : compiled.map (·.name) = keys) :
    (fun i => (compiled.get (i.cast sized.symm)).name) = keys.get := by
  funext i
  have bound : i.val < compiled.length := sized.symm ▸ i.isLt
  have here : (compiled.map (·.name))[i.val]? = keys[i.val]? := by rw [named]
  rw [List.getElem?_map, List.getElem?_eq_getElem bound, List.getElem?_eq_getElem i.isLt] at here
  exact Option.some.inj here

theorem names_agree {keys : List Key}
    (distinct : keys.Pairwise fun left right => left.same right = false) (contexts : Entries)
    (values : Values) (dialect : Pattern.Dialect) :
    ({ contexts, index := indexIn keys, values, dialect } : Names keys.length).Agrees keys.get :=
  fun _ _ => indexIn_eq_some distinct

section

variable {dialect : Pattern.Dialect} {payload contexts : Entries} {g : Grammar}

theorem ofEntries_unnamed (given : Entries.text? payload "contexts" = some (.table contexts))
    (missing : indexIn (Entries.keys contexts) (.text "main") = none) :
    ofEntries dialect payload = .error (.defect .noMainContext) := by
  simp only [ofEntries, given, missing]
  rfl

theorem ofEntries_named (given : Entries.text? payload "contexts" = some (.table contexts))
    {main : Fin (Entries.keys contexts).length}
    (found : indexIn (Entries.keys contexts) (.text "main") = some main) :
    ofEntries dialect payload = variablesOf payload >>= fun values =>
      ofContexts dialect payload contexts values (Entries.keys contexts) (List.length_map ..).symm
        main := by
  simp only [ofEntries, given, found]

theorem Flattened.of_read (given : Entries.text? payload "contexts" = some (.table contexts))
    (orderly : Orderly contexts) (read : ofEntries dialect payload = .ok g) :
    Flattened dialect payload contexts g := by
  cases found : indexIn (Entries.keys contexts) (.text "main") with
  | none =>
    rw [ofEntries_unnamed given found] at read
    cases read
  | some main =>
    rw [ofEntries_named given found, bind_eq_ok] at read
    obtain ⟨values, expanded, read⟩ := read
    obtain ⟨⟨compiled, sized⟩, each, ⟨⟩⟩ := bind_eq_ok.mp read
    have related := (forEach_eq_ok (fun _ _ _ => Iff.rfl) _).mp each
    have named : compiled.map (·.name) = Entries.keys contexts :=
      map_eq_of_forall₂ (related.imp fun _ _ => context_name)
    have called := called_eq (sized.trans (List.length_map ..).symm) named
    have agrees := names_agree orderly.distinct contexts values dialect
    refine ⟨rfl, rfl, ?_, values, expanded, ?_⟩
    · exact (congrFun called main).trans ((indexIn_eq_some orderly.distinct).mp found)
    · change List.Forall₂ (fun entry context => ∃ items, entry.2 = .list items ∧
        Reads dialect contexts values (fun i => (compiled.get (i.cast _)).name) entry.1 items
          context) contexts compiled
      rw [called]
      exact (forEach_eq_ok (fun _ listed _ => context_eq_ok orderly agrees listed) _).mp each

theorem Flattened.parts (h : Flattened dialect payload contexts g) {keys : List Key}
    (same : Entries.keys contexts = keys) :
    ∃ (compiled : List (Context keys.length)) (sized : compiled.length = keys.length)
      (main : Fin keys.length) (values : Values),
      g = ⟨textField payload "name" "grammar", textField payload "scope" "source", keys.length,
        compiled, sized, main⟩ ∧ keys.get main = .text "main" ∧ variablesOf payload = .ok values ∧
      List.Forall₂ (fun entry context => ∃ items, entry.2 = .list items ∧
        Reads dialect contexts values keys.get entry.1 items context) contexts compiled := by
  obtain ⟨name, scope, isMain, values, expanded, related⟩ := h
  obtain ⟨_, _, size, compiled, sized, main⟩ := g
  have aligned : size = keys.length := by
    rw [← same, Entries.keys, List.length_map, related.length_eq]
    exact sized.symm
  subst aligned
  have alike : List.Forall₂ (fun entry context => context.name = entry.1) contexts compiled := by
    refine related.imp ?_
    rintro entry context ⟨_, _, reads⟩
    exact reads.name
  have named : compiled.map (·.name) = keys := (map_eq_of_forall₂ alike).trans same
  have called := called_eq sized named
  cases name
  cases scope
  exact ⟨compiled, sized, main, values, rfl, (congrFun called main).symm.trans isMain, expanded,
    called ▸ related⟩

theorem Flattened.read (given : Entries.text? payload "contexts" = some (.table contexts))
    (orderly : Orderly contexts) (h : Flattened dialect payload contexts g) :
    ofEntries dialect payload = .ok g := by
  obtain ⟨compiled, _, main, values, rfl, isMain, expanded, related⟩ := h.parts rfl
  have found := (indexIn_eq_some orderly.distinct).mpr isMain
  have agrees := names_agree orderly.distinct contexts values dialect
  have each := (forEach_eq_ok (fun _ listed _ => context_eq_ok orderly agrees listed)
    ⟨compiled, related.length_eq.symm⟩).mpr related
  rw [ofEntries_named given found]
  exact bind_eq_ok.mpr ⟨values, expanded, bind_eq_ok.mpr ⟨_, each, rfl⟩⟩

end

end BookHighlight.Grammar
