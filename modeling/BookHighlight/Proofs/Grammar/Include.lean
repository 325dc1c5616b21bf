import BookHighlight.Proofs.Grammar.Rule
import BookHighlight.Proofs.Grammar.Trail

namespace BookHighlight.Grammar

open Data Relation

def kinds : List String := ["include", "meta_scope", "match"]

def Single (entry : Value) : Prop :=
  ∃ kind ∈ kinds, ∀ name ∈ kinds, (entry.get? name).isSome = (name == kind)

/-- Contexts under names that differ, each of them a list of entries of one kind each. -/
structure Orderly (contexts : Entries) : Prop where
  distinct : contexts.Distinct
  listed : ∀ context ∈ contexts, ∃ items, context.2 = .list items ∧ ∀ item ∈ items, Single item

def Includes (contexts : Entries) (outer inner : Key) : Prop :=
  ∃ items item target, (outer, .list items) ∈ contexts ∧ item ∈ items ∧
    item.get? "include" = some (.text target) ∧ inner = .text target

/-- Some context includes itself, directly or through others, or one that is not there. -/
def Astray (contexts : Entries) : Prop :=
  (∃ name, TransGen (Includes contexts) name name) ∨
    ∃ outer inner, Includes contexts outer inner ∧ inner ∉ Entries.keys contexts

section

variable {size : Nat} (dialect : Pattern.Dialect) (contexts : Entries) (values : Values)
  (called : Fin size → Key)

/-- The rules that entries expand to, in their order: an `include` stands for what the entries of
    its target expand to, and a `meta_scope` for nothing. -/
inductive Flattens : List Value → List (Rule size) → Prop where
  | nil : Flattens [] []
  | including {entry target inner rest first later} :
      entry.get? "include" = some (.text target) → (.text target, .list inner) ∈ contexts →
      Flattens inner first → Flattens rest later → Flattens (entry :: rest) (first ++ later)
  | metaScope {entry rest later} : (entry.get? "meta_scope").isSome = true →
      Flattens rest later → Flattens (entry :: rest) later
  | rule {fields source rule rest later} :
      Value.get? (.table fields) "match" = some (.text source) →
      Compiles dialect values called source fields rule → Flattens rest later →
      Flattens (.table fields :: rest) (rule :: later)

end

theorem Single.elsewhere {entry : Value} (h : Single entry) {name other : String}
    (has : (entry.get? name).isSome = true) (named : name ∈ kinds) (among : other ∈ kinds)
    (differ : other ≠ name) : entry.get? other = none := by
  obtain ⟨kind, _, only⟩ := h
  rw [only name named, beq_iff_eq] at has
  rw [← Option.not_isSome_iff_eq_none, only other among, ← has, beq_iff_eq]
  exact differ

theorem Single.no_include {entry : Value} (h : Single entry) {name : String}
    (has : (entry.get? name).isSome = true) (named : name ∈ kinds) (differ : name ≠ "include") :
    entry.get? "include" = none := h.elsewhere has named (by decide) differ.symm

theorem ofValue_including {entry : Value} {target : String} :
    Entry.ofValue entry = .including target ↔ entry.get? "include" = some (.text target) := by
  constructor
  · unfold Entry.ofValue
    split
    · split
      · rintro ⟨⟩
        assumption
      all_goals rintro ⟨⟩
    · rintro ⟨⟩
  · intro has
    cases entry with
    | table fields =>
      change Entries.text? fields "include" = _ at has
      simp only [Entry.ofValue, has]
    | _ => cases has

theorem ofValue_metaScope {entry : Value} (h : Entry.ofValue entry = .metaScope) :
    (entry.get? "meta_scope").isSome = true := by
  unfold Entry.ofValue at h
  split at h
  · split at h
    · cases h
    · exact Option.isSome_of_eq_some ‹_›
    · cases h
    · cases h
  · cases h

theorem ofValue_rule {entry : Value} {source : String} {fields : Entries}
    (h : Entry.ofValue entry = .rule source fields) :
    entry = .table fields ∧ entry.get? "match" = some (.text source) := by
  unfold Entry.ofValue at h
  split at h
  · split at h
    · cases h
    · cases h
    · cases h
      exact ⟨rfl, ‹_›⟩
    · cases h
  · cases h

namespace Single

variable {entry : Value} {fields : Entries} {source : String}

theorem ofValue_metaScope (h : Single entry) (has : (entry.get? "meta_scope").isSome = true) :
    Entry.ofValue entry = .metaScope := by
  have absent := h.no_include has (by decide) (by decide)
  cases entry with
  | table fields =>
    obtain ⟨scope, found⟩ := Option.isSome_iff_exists.mp has
    change Entries.text? fields _ = _ at found absent
    simp only [Entry.ofValue, absent, found]
  | _ => cases has

theorem ofValue_rule (h : Single (.table fields))
    (has : Value.get? (.table fields) "match" = some (.text source)) :
    Entry.ofValue (.table fields) = .rule source fields := by
  have some := Option.isSome_of_eq_some has
  have inclusion := h.no_include some (by decide) (by decide)
  have metaScope := h.elsewhere some (by decide) (show "meta_scope" ∈ kinds by decide) (by decide)
  change Entries.text? fields _ = _ at has inclusion metaScope
  simp only [Entry.ofValue, inclusion, metaScope, has]

end Single

section

variable {size : Nat} {names : Names size} {called : Fin size → Key} {depth : Nat}
  {trail : List Key} {name : Key} {value : Value} {items : List Value}

def Names.entryRules (names : Names size) (depth : Nat) (trail : List Key) (name : Key)
    (entry : Value) : Except Error (List (Rule size)) :=
  match Entry.ofValue entry with
  | .including target =>
    match Entries.text? names.contexts target with
    | some value => names.rules depth trail (.text target) value
    | none => .error (.defect (.unknownContext target))
  | .metaScope => .ok []
  | .rule source fields => do return [← names.rule name.plain source fields]
  | .unsupported => .error (.defect (.unsupportedRule name.plain entry))

theorem rules_cycle (within : trail.any name.same = true) :
    names.rules (depth + 1) trail name value = .error (.cycle .includeCycle (trail ++ [name])) := by
  simp only [Names.rules, within, if_true]

theorem rules_new (new : trail.any name.same = false) :
    names.rules (depth + 1) trail name value =
      entriesOf value >>= gather (names.entryRules depth (trail ++ [name]) name) := by
  simp only [Names.rules, new, Bool.false_eq_true, if_false]
  rfl

theorem rules_items (new : trail.any name.same = false) :
    names.rules (depth + 1) trail name (.list items) =
      gather (names.entryRules depth (trail ++ [name]) name) items := rules_new new

theorem gather_cons {α β ε : Type} {f : α → Except ε (List β)} {item : α} {rest : List α}
    {all : List β} : gather f (item :: rest) = .ok all ↔
      ∃ first later, f item = .ok first ∧ gather f rest = .ok later ∧ first ++ later = all := by
  simp only [gather, bind_eq_ok]
  constructor
  · rintro ⟨first, here, later, behind, ⟨⟩⟩
    exact ⟨first, later, here, behind, rfl⟩
  · rintro ⟨first, later, here, behind, rfl⟩
    exact ⟨first, here, later, behind, rfl⟩

/-- Depth beyond what the trail can use up changes nothing. -/
theorem rules_deeper (more : Nat) (listed : name ∈ Entries.keys names.contexts)
    (told : name ∈ trail → trail.any name.same = true)
    (room : Room (Entries.keys names.contexts) depth trail) :
    names.rules (depth + more) trail name value = names.rules depth trail name value := by
  induction depth generalizing trail name value with
  | zero => exact absurd rfl room.depth_ne_zero
  | succ depth ih =>
    rw [Nat.add_right_comm]
    cases new : trail.any name.same with
    | true => rw [rules_cycle new, rules_cycle new]
    | false =>
      have entered := room.enter listed fun again => by simp [told again] at new
      have same : names.entryRules (depth + more) (trail ++ [name]) name =
          names.entryRules depth (trail ++ [name]) name := by
        funext entry
        unfold Names.entryRules
        split
        · split
          · rename_i found
            have listed := List.mem_map_of_mem (f := Prod.fst) (Entries.mem_of_text? found)
            exact ih listed Key.any_same_text.mpr entered
          · rfl
        all_goals rfl
      rw [rules_new new, rules_new new, same]

theorem rules_settled (more : Nat) (listed : (name, value) ∈ names.contexts) :
    names.rules (names.contexts.length + 1 + more) [] name value =
      names.rules (names.contexts.length + 1) [] name value :=
  rules_deeper more (List.mem_map_of_mem (f := Prod.fst) listed) (by simp) (.start _ names.contexts)

theorem entryRules_eq_ok {entry : Value} {rules : List (Rule size)}
    (agrees : names.Agrees called) (h : names.entryRules depth trail name entry = .ok rules) :
    (∃ target value, entry.get? "include" = some (.text target) ∧
      (.text target, value) ∈ names.contexts ∧
      names.rules depth trail (.text target) value = .ok rules) ∨
    ((entry.get? "meta_scope").isSome = true ∧ rules = []) ∨
    ∃ fields source rule, entry = .table fields ∧ entry.get? "match" = some (.text source) ∧
      Compiles names.dialect names.values called source fields rule ∧ rules = [rule] := by
  unfold Names.entryRules at h
  split at h
  · rename_i target including
    split at h
    · rename_i value found
      exact .inl ⟨target, value, ofValue_including.mp including, Entries.mem_of_text? found, h⟩
    · cases h
  · cases h
    exact .inr (.inl ⟨ofValue_metaScope ‹_›, rfl⟩)
  · rename_i source fields isRule
    obtain ⟨rule, compiled, ⟨⟩⟩ := bind_eq_ok.mp h
    obtain ⟨table, pattern⟩ := ofValue_rule isRule
    exact .inr (.inr ⟨fields, source, rule, table, pattern, (rule_eq_ok agrees).mp compiled, rfl⟩)
  · cases h

theorem rules_sound (orderly : Orderly names.contexts) (agrees : names.Agrees called)
    {rules : List (Rule size)} (h : names.rules depth trail name (.list items) = .ok rules) :
    Flattens names.dialect names.contexts names.values called items rules := by
  induction depth generalizing trail name items rules with
  | zero => cases h
  | succ depth ih =>
    cases new : trail.any name.same with
    | true =>
      rw [rules_cycle new] at h
      cases h
    | false =>
      rw [rules_items new] at h
      induction items generalizing rules with
      | nil =>
        cases h
        exact .nil
      | cons entry rest onward =>
        obtain ⟨first, later, here, behind, rfl⟩ := gather_cons.mp h
        have after := onward behind
        rcases entryRules_eq_ok agrees here with inclusion | ⟨metaScope, rfl⟩ | isRule
        · obtain ⟨target, value, included, member, inner⟩ := inclusion
          obtain ⟨_, rfl, _⟩ := orderly.listed _ member
          exact .including included member (ih inner) after
        · exact .metaScope metaScope after
        · obtain ⟨fields, source, rule, rfl, pattern, compiles, rfl⟩ := isRule
          exact .rule pattern compiles after

end

namespace Flattens

variable {size : Nat} {dialect : Pattern.Dialect} {contexts : Entries} {values : Values}
  {called : Fin size → Key} {items others : List Value} {rules more : List (Rule size)}

theorem append (left : Flattens dialect contexts values called items rules)
    (right : Flattens dialect contexts values called others more) :
    Flattens dialect contexts values called (items ++ others) (rules ++ more) := by
  induction left with
  | nil => exact right
  | including included member inner _ _ ih =>
    rw [List.append_assoc]
    exact .including included member inner ih
  | metaScope has _ ih => exact .metaScope has ih
  | rule pattern compiles _ ih => exact .rule pattern compiles ih

theorem append_inv (h : Flattens dialect contexts values called (items ++ others) rules) :
    ∃ first later, Flattens dialect contexts values called items first ∧
      Flattens dialect contexts values called others later ∧ rules = first ++ later := by
  induction items generalizing rules with
  | nil => exact ⟨[], rules, .nil, h, rfl⟩
  | cons entry rest ih =>
    cases h with
    | including included member inner after =>
      obtain ⟨first, later, left, right, rfl⟩ := ih after
      exact ⟨_, later, .including included member inner left, right,
        (List.append_assoc ..).symm⟩
    | metaScope has after =>
      obtain ⟨first, later, left, right, rfl⟩ := ih after
      exact ⟨first, later, .metaScope has left, right, rfl⟩
    | rule pattern compiles after =>
      obtain ⟨first, later, left, right, rfl⟩ := ih after
      exact ⟨_, later, .rule pattern compiles left, right, rfl⟩

theorem included (orderly : Orderly contexts)
    (h : Flattens dialect contexts values called items rules) (single : ∀ item ∈ items, Single item)
    {item : Value} {target : String} (member : item ∈ items)
    (has : item.get? "include" = some (.text target)) :
    .text target ∈ Entries.keys contexts ∧
      Acc (fun inner outer => Includes contexts outer inner) (.text target) := by
  induction h generalizing item target with
  | nil => cases member
  | including here listed _ _ ihInner ih =>
    obtain ⟨_, others⟩ := List.forall_mem_cons.mp single
    rcases List.mem_cons.mp member with rfl | behind
    · rw [here] at has
      cases has
      refine ⟨List.mem_map_of_mem (f := Prod.fst) listed, ⟨_, fun key includes => ?_⟩⟩
      obtain ⟨items, entry, next, opens, among, follows, rfl⟩ := includes
      obtain ⟨_, ⟨⟩, singles⟩ := orderly.listed _ opens
      cases orderly.distinct.unique opens listed
      exact (ihInner singles among follows).2
    · exact ih others behind has
  | metaScope some _ ih =>
    obtain ⟨one, others⟩ := List.forall_mem_cons.mp single
    rcases List.mem_cons.mp member with rfl | behind
    · rw [one.no_include some (by decide) (by decide)] at has
      cases has
    · exact ih others behind has
  | rule pattern _ _ ih =>
    obtain ⟨one, others⟩ := List.forall_mem_cons.mp single
    rcases List.mem_cons.mp member with rfl | behind
    · rw [one.no_include (Option.isSome_of_eq_some pattern) (by decide) (by decide)] at has
      cases has
    · exact ih others behind has

theorem no_return (orderly : Orderly contexts)
    (h : Flattens dialect contexts values called items rules) (single : ∀ item ∈ items, Single item)
    {item : Value} {target : String} (member : item ∈ items)
    (has : item.get? "include" = some (.text target)) :
    ¬ TransGen (Includes contexts) (.text target) (.text target) := fun cycle =>
  not_self_of_acc (h.included orderly single member has).2 (transGen_swap.mp cycle)

theorem not_astray (orderly : Orderly contexts)
    (expand : ∀ name items, (name, .list items) ∈ contexts →
      ∃ rules, Flattens dialect contexts values called items rules) : ¬ Astray contexts := by
  have single : ∀ name items, (name, .list items) ∈ contexts → ∀ item ∈ items, Single item := by
    intro name items listed
    obtain ⟨_, ⟨⟩, single⟩ := orderly.listed _ listed
    exact single
  rintro (⟨name, cycle⟩ | ⟨outer, inner, includes, missing⟩)
  · obtain ⟨inner, first, onward⟩ := TransGen.head'_iff.mp cycle
    have around := TransGen.tail' onward first
    obtain ⟨items, item, target, listed, member, has, rfl⟩ := first
    obtain ⟨rules, h⟩ := expand name items listed
    exact h.no_return orderly (single name items listed) member has around
  · obtain ⟨items, item, target, listed, member, has, rfl⟩ := includes
    obtain ⟨rules, h⟩ := expand outer items listed
    exact missing (h.included orderly (single outer items listed) member has).1

end Flattens

section

variable {size : Nat} {names : Names size} {called : Fin size → Key} {depth : Nat}
  {trail : List Key} {name : Key} {items : List Value} {rules : List (Rule size)}

def LeadsTo (contexts : Entries) (items : List Value) (name : Key) : Prop :=
  ∃ item ∈ items, ∃ target, item.get? "include" = some (.text target) ∧
    ReflTransGen (Includes contexts) (.text target) name

section

variable {contexts : Entries} {entry : Value} {inner : List Value} {target : String}

theorem leadsTo_cons : LeadsTo contexts (entry :: items) name ↔
    LeadsTo contexts [entry] name ∨ LeadsTo contexts items name := by
  simp only [LeadsTo, List.exists_mem_cons_iff, List.not_mem_nil, false_and, exists_false, or_false]

theorem apart_rest {trail : List Key}
    (apart : ∀ outer ∈ trail, ¬ LeadsTo contexts (entry :: items) outer) :
    ∀ outer ∈ trail, ¬ LeadsTo contexts items outer := fun outer passed leads =>
  apart outer passed (leadsTo_cons.mpr (.inr leads))

theorem leadsTo_single (has : entry.get? "include" = some (.text target)) :
    LeadsTo contexts [entry] name ↔ ReflTransGen (Includes contexts) (.text target) name := by
  simp [LeadsTo, has]

theorem not_leadsTo_single (has : entry.get? "include" = none) :
    ¬ LeadsTo contexts [entry] name := by
  simp [LeadsTo, has]

theorem leadsTo_iff (orderly : Orderly contexts) (listed : (.text target, .list inner) ∈ contexts) :
    LeadsTo contexts inner name ↔ TransGen (Includes contexts) (.text target) name := by
  rw [TransGen.head'_iff]
  constructor
  · rintro ⟨item, member, next, has, leads⟩
    exact ⟨.text next, ⟨inner, item, next, listed, member, has, rfl⟩, leads⟩
  · rintro ⟨_, ⟨items, item, next, opens, member, has, rfl⟩, leads⟩
    cases orderly.distinct.unique opens listed
    exact ⟨item, member, next, has, leads⟩

theorem apart_inner (orderly : Orderly contexts) (listed : (.text target, .list inner) ∈ contexts)
    (ends : ¬ TransGen (Includes contexts) (.text target) (.text target))
    (apart : ∀ outer ∈ trail, ¬ ReflTransGen (Includes contexts) (.text target) outer) :
    ∀ outer ∈ trail ++ [.text target], ¬ LeadsTo contexts inner outer := by
  intro outer passed leads
  have onward := (leadsTo_iff orderly listed).mp leads
  rcases List.mem_append.mp passed with earlier | here
  · exact apart outer earlier onward.to_reflTransGen
  · rw [List.mem_singleton.mp here] at onward
    exact ends onward

end

def Names.Finds (names : Names size) (contexts : Entries) (stray : Key → Prop) : Prop :=
  ∀ target inner, (.text target, .list inner) ∈ contexts → ∃ value,
    Entries.text? names.contexts target = some value ∧
      (stray (.text target) ∧ entriesOf value = .error (.misuse .noItems) ∨
        ¬ stray (.text target) ∧ value = .list inner)

/-- What comes of entries that expand to rules: these are found unless includes lead astray. -/
def Outcome (contexts : Entries) (stray : Key → Prop) (items : List Value)
    (rules : List (Rule size)) (x : Except Error (List (Rule size))) : Prop :=
  (∃ inner, stray inner ∧ LeadsTo contexts items inner) ∧ x = .error (.misuse .noItems) ∨
    (∀ inner, stray inner → ¬ LeadsTo contexts items inner) ∧ x = .ok rules

theorem outcome_gather {contexts : Entries} {stray : Key → Prop} {entry : Value}
    {first later : List (Rule size)} {f : Value → Except Error (List (Rule size))}
    (here : Outcome contexts stray [entry] first (f entry))
    (behind : Outcome contexts stray items later (gather f items)) :
    Outcome contexts stray (entry :: items) (first ++ later) (gather f (entry :: items)) := by
  rw [gather]
  rcases here with ⟨⟨inner, astray, leads⟩, fails⟩ | ⟨apart, found⟩
  · rw [fails]
    exact .inl ⟨⟨inner, astray, leadsTo_cons.mpr (.inl leads)⟩, rfl⟩
  · rw [found]
    rcases behind with ⟨⟨inner, astray, leads⟩, fails⟩ | ⟨apart', found'⟩
    · rw [fails]
      exact .inl ⟨⟨inner, astray, leadsTo_cons.mpr (.inr leads)⟩, rfl⟩
    · rw [found']
      refine .inr ⟨fun inner astray leads => ?_, rfl⟩
      rcases leadsTo_cons.mp leads with first | later
      · exact apart inner astray first
      · exact apart' inner astray later

theorem outcome_including {contexts : Entries} (orderly : Orderly contexts)
    {stray : Key → Prop} (finds : names.Finds contexts stray) {entry : Value} {target : String}
    {inner : List Value} (has : entry.get? "include" = some (.text target))
    (listed : (.text target, .list inner) ∈ contexts)
    (new : trail.any (Key.text target).same = false)
    (inward : Outcome contexts stray inner rules
      (gather (names.entryRules depth (trail ++ [.text target]) (.text target)) inner)) :
    Outcome contexts stray [entry] rules (names.entryRules (depth + 1) trail name entry) := by
  obtain ⟨value, found, ⟨astray, nothing⟩ | ⟨known, rfl⟩⟩ := finds target inner listed
  · refine .inl ⟨⟨_, astray, (leadsTo_single has).mpr .refl⟩, ?_⟩
    simp only [Names.entryRules, ofValue_including.mpr has, found]
    rw [rules_new new, nothing]
    rfl
  · have leads : ∀ key, stray key →
        (LeadsTo contexts [entry] key ↔ LeadsTo contexts inner key) := by
      intro key astray
      rw [leadsTo_single has, leadsTo_iff orderly listed, reflTransGen_iff_eq_or_transGen]
      refine or_iff_right fun same => known ?_
      rwa [← same]
    simp only [Names.entryRules, ofValue_including.mpr has, found]
    rw [rules_items new]
    rcases inward with ⟨⟨key, astray, onward⟩, fails⟩ | ⟨nowhere, finds⟩
    · exact .inl ⟨⟨key, astray, (leads key astray).mpr onward⟩, fails⟩
    · exact .inr ⟨fun key astray => mt (leads key astray).mp (nowhere key astray), finds⟩

/-- If nothing that the entries include leads back into the trail, no context is taken for part of
    a cycle. -/
theorem outcome_entries {contexts : Entries} (orderly : Orderly contexts)
    (agrees : names.Agrees called) {stray : Key → Prop} (finds : names.Finds contexts stray)
    (h : Flattens names.dialect contexts names.values called items rules)
    (single : ∀ item ∈ items, Single item) (room : Room (Entries.keys contexts) depth trail)
    (apart : ∀ outer ∈ trail, ¬ LeadsTo contexts items outer) :
    Outcome contexts stray items rules (gather (names.entryRules depth trail name) items) := by
  -- the trail grows towards the included contexts only, so the entries behind keep it
  induction h generalizing depth trail name with
  | nil => exact .inr ⟨by simp [LeadsTo], rfl⟩
  | @including entry target inner rest first later has listed inside after ihInner ih =>
    have behind := @ih depth trail name (List.forall_mem_cons.mp single).2 room (apart_rest apart)
    refine outcome_gather ?_ behind
    obtain ⟨depth, rfl⟩ := Nat.exists_eq_succ_of_ne_zero room.depth_ne_zero
    have clear : ∀ outer ∈ trail, ¬ ReflTransGen (Includes contexts) (.text target) outer :=
      fun outer passed leads =>
        apart outer passed (leadsTo_cons.mpr (.inl ((leadsTo_single has).mpr leads)))
    have fresh : Key.text target ∉ trail := fun passed => clear _ passed .refl
    have new : trail.any (Key.text target).same = false := by
      rwa [← Bool.not_eq_true, Key.any_same_text]
    have entered := room.enter (List.mem_map_of_mem (f := Prod.fst) listed) fresh
    have ends := (Flattens.including has listed inside after).no_return orderly single
      List.mem_cons_self has
    obtain ⟨_, ⟨⟩, singles⟩ := orderly.listed _ listed
    exact outcome_including orderly finds has listed new
      (ihInner singles entered (apart_inner orderly listed ends clear))
  | @metaScope entry rest later has _ ih =>
    obtain ⟨one, others⟩ := List.forall_mem_cons.mp single
    have behind := @ih depth trail name others room (apart_rest apart)
    have includes := one.no_include has (by decide) (by decide)
    have here : Outcome contexts stray [entry] [] (names.entryRules depth trail name entry) := by
      refine .inr ⟨fun inner _ => not_leadsTo_single includes, ?_⟩
      simp only [Names.entryRules, one.ofValue_metaScope has]
    exact outcome_gather here behind
  | @rule fields source rule rest later has compiles _ ih =>
    obtain ⟨one, others⟩ := List.forall_mem_cons.mp single
    have behind := @ih depth trail name others room (apart_rest apart)
    have includes := one.no_include (Option.isSome_of_eq_some has) (by decide) (by decide)
    have here : Outcome contexts stray [.table fields] [rule]
        (names.entryRules depth trail name (.table fields)) := by
      refine .inr ⟨fun inner _ => not_leadsTo_single includes, ?_⟩
      simp only [Names.entryRules, one.ofValue_rule has, (rule_eq_ok agrees).mpr compiles]
      rfl
    exact outcome_gather here behind

theorem outcome_rules {contexts : Entries} (orderly : Orderly contexts)
    (agrees : names.Agrees called) {stray : Key → Prop} (finds : names.Finds contexts stray)
    (h : Flattens names.dialect contexts names.values called items rules)
    (listed : (name, .list items) ∈ contexts) : Outcome contexts stray items rules
      (names.rules (contexts.length + 1) [] name (.list items)) := by
  obtain ⟨_, ⟨⟩, single⟩ := orderly.listed _ listed
  have start : Room (Entries.keys contexts) (contexts.length + 1) [] := .start _ contexts
  have entered := start.enter (List.mem_map_of_mem (f := Prod.fst) listed) List.not_mem_nil
  rw [rules_items rfl]
  refine outcome_entries orderly agrees finds h single entered ?_
  rintro outer passed ⟨item, member, target, has, leads⟩
  rw [List.mem_singleton.mp passed] at leads
  exact h.no_return orderly single member has
    (.tail' leads ⟨items, item, target, listed, member, has, rfl⟩)

theorem rules_eq_ok (orderly : Orderly names.contexts) (agrees : names.Agrees called)
    (listed : (name, .list items) ∈ names.contexts) :
    names.rules (names.contexts.length + 1) [] name (.list items) = .ok rules ↔
      Flattens names.dialect names.contexts names.values called items rules := by
  refine ⟨rules_sound orderly agrees, fun h => ?_⟩
  have finds : names.Finds names.contexts fun _ => False := fun target inner listed =>
    ⟨_, (Entries.text?_eq_some_iff orderly.distinct).mpr listed, .inr ⟨id, rfl⟩⟩
  rcases outcome_rules orderly agrees finds h listed with ⟨⟨_, astray, _⟩, _⟩ | found
  · exact astray.elim
  · exact found.2

end

end BookHighlight.Grammar
