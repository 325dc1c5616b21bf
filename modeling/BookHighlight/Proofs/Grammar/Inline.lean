import BookHighlight.Pattern.Reader
import BookHighlight.Proofs.Grammar.Reading

namespace BookHighlight.Grammar

open Data Relation

def carries (entry : Value) : Bool :=
  (entry.get? "include").isSome || (entry.get? "match").isSome

theorem Single.carries_or {entry : Value} (h : Single entry) :
    carries entry = true ∧ entry.get? "meta_scope" = none ∨
      carries entry = false ∧ (entry.get? "meta_scope").isSome = true := by
  obtain ⟨kind, named, only⟩ := h
  have inclusion := only "include" (by decide)
  have metaScope := only "meta_scope" (by decide)
  have pattern := only "match" (by decide)
  simp only [kinds, List.mem_cons, List.not_mem_nil, or_false] at named
  rcases named with rfl | rfl | rfl
  · exact .inl ⟨by simp [carries, inclusion], by simpa using metaScope⟩
  · exact .inr ⟨by simp [carries, inclusion, pattern], by simpa using metaScope⟩
  · exact .inl ⟨by simp [carries, pattern], by simpa using metaScope⟩

structure Inclusion (contexts : Entries) where
  earlier : Entries
  name : Key
  before : List Value
  entry : Value
  after : List Value
  later : Entries
  target : String
  inner : List Value
  whole : contexts = earlier ++ (name, .list (before ++ entry :: after)) :: later
  has : entry.get? "include" = some (.text target)
  listed : (.text target, .list inner) ∈ contexts

namespace Inclusion

section

variable {contexts : Entries} (i : Inclusion contexts)

/-- The entries of the context, with those of the target that carry over in place of the
    `include`. -/
def inlined : List Value := i.before ++ i.inner.filter carries ++ i.after

def result : Entries := i.earlier ++ (i.name, .list i.inlined) :: i.later

theorem mem_iff {context : Key × Value} : context ∈ contexts ↔ context ∈ i.earlier ∨
    context = (i.name, .list (i.before ++ i.entry :: i.after)) ∨ context ∈ i.later := by
  obtain ⟨_, _, _, _, _, _, _, _, rfl, _, _⟩ := i
  rw [List.mem_append, List.mem_cons]

theorem mem_result_iff {context : Key × Value} : context ∈ i.result ↔ context ∈ i.earlier ∨
    context = (i.name, .list i.inlined) ∨ context ∈ i.later := by
  rw [result, List.mem_append, List.mem_cons]

theorem mem_contexts : (i.name, .list (i.before ++ i.entry :: i.after)) ∈ contexts :=
  i.mem_iff.mpr (.inr (.inl rfl))

theorem inlined_mem_result : (i.name, .list i.inlined) ∈ i.result :=
  i.mem_result_iff.mpr (.inr (.inl rfl))

theorem mem_result {context : Key × Value} (h : context ∈ contexts) :
    context = (i.name, .list (i.before ++ i.entry :: i.after)) ∨ context ∈ i.result := by
  rcases i.mem_iff.mp h with earlier | same | later
  · exact .inr (i.mem_result_iff.mpr (.inl earlier))
  · exact .inl same
  · exact .inr (i.mem_result_iff.mpr (.inr (.inr later)))

theorem keys_result : Entries.keys i.result = Entries.keys contexts := by
  obtain ⟨_, _, _, _, _, _, _, _, rfl, _, _⟩ := i
  simp [result, Entries.keys]

theorem includes : Includes contexts i.name (.text i.target) :=
  ⟨_, i.entry, i.target, i.mem_contexts, by simp, i.has, rfl⟩

theorem target_mem_result (acyclic : ∀ name, ¬ TransGen (Includes contexts) name name) :
    (.text i.target, .list i.inner) ∈ i.result := by
  rcases i.mem_result i.listed with same | kept
  · have key : Key.text i.target = i.name := congrArg Prod.fst same
    have own := i.includes
    rw [key] at own
    exact absurd (.single own) (acyclic i.name)
  · exact kept

end

section

variable {contexts : Entries} (i : Inclusion contexts) (orderly : Orderly contexts)

include orderly

theorem singles : ∀ item ∈ i.before ++ i.entry :: i.after, Single item := by
  obtain ⟨_, ⟨⟩, single⟩ := orderly.listed _ i.mem_contexts
  exact single

theorem single_inner : ∀ item ∈ i.inner, Single item := by
  obtain ⟨_, ⟨⟩, single⟩ := orderly.listed _ i.listed
  exact single

theorem absent {name : String} (named : name ∈ kinds) (differ : name ≠ "include") :
    i.entry.get? name = none :=
  (i.singles orderly i.entry (by simp)).elsewhere (Option.isSome_of_eq_some i.has) (by decide) named
    differ

theorem orderly_result : Orderly i.result where
  distinct := by
    rw [Entries.Distinct, i.keys_result]
    exact orderly.distinct
  listed := by
    intro context member
    rcases i.mem_result_iff.mp member with earlier | rfl | later
    · exact orderly.listed context (i.mem_iff.mpr (.inl earlier))
    · refine ⟨_, rfl, fun item within => ?_⟩
      simp only [inlined, List.mem_append] at within
      rcases within with (before | filtered) | after
      · exact i.singles orderly item (List.mem_append_left _ before)
      · exact i.single_inner orderly item (List.mem_of_mem_filter filtered)
      · exact i.singles orderly item (List.mem_append_right _ (List.mem_cons_of_mem _ after))
    · exact orderly.listed context (i.mem_iff.mpr (.inr (.inr later)))

theorem metaScope_inlined : i.inlined.findSome? (·.get? "meta_scope") =
    (i.before ++ i.entry :: i.after).findSome? (·.get? "meta_scope") := by
  have none : (i.inner.filter carries).findSome? (·.get? "meta_scope") = none := by
    rw [List.findSome?_eq_none_iff]
    intro entry member
    obtain ⟨among, carried⟩ := List.mem_filter.mp member
    rcases (i.single_inner orderly entry among).carries_or with ⟨_, missing⟩ | ⟨dropped, _⟩
    · exact missing
    · rw [dropped] at carried
      cases carried
  have own : i.entry.get? "meta_scope" = .none := i.absent orderly (by decide) (by decide)
  simp [inlined, List.findSome?_append, none, own]

end

end Inclusion

namespace Flattens

variable {size : Nat} {dialect : Pattern.Dialect} {contexts : Entries} {values : Values}
  {called : Fin size → Key} {items : List Value} {rules : List (Rule size)}

theorem filter (h : Flattens dialect contexts values called items rules)
    (single : ∀ item ∈ items, Single item) :
    Flattens dialect contexts values called (items.filter carries) rules := by
  induction h with
  | nil => exact .nil
  | including has member inside _ _ ih =>
    obtain ⟨_, rest⟩ := List.forall_mem_cons.mp single
    rw [List.filter_cons_of_pos (by simp [carries, has])]
    exact .including has member inside (ih rest)
  | metaScope has _ ih =>
    obtain ⟨one, rest⟩ := List.forall_mem_cons.mp single
    rcases one.carries_or with ⟨_, missing⟩ | ⟨dropped, _⟩
    · rw [missing] at has
      cases has
    · rw [List.filter_cons_of_neg (by simp [dropped])]
      exact ih rest
  | rule has compiles _ ih =>
    obtain ⟨_, rest⟩ := List.forall_mem_cons.mp single
    rw [List.filter_cons_of_pos (by simp [carries, has])]
    exact .rule has compiles (ih rest)

theorem including_inv {entry : Value} {target : String} (one : Single entry)
    (has : entry.get? "include" = some (.text target))
    (h : Flattens dialect contexts values called (entry :: items) rules) :
    ∃ inner first later, (.text target, .list inner) ∈ contexts ∧
      Flattens dialect contexts values called inner first ∧
      Flattens dialect contexts values called items later ∧ rules = first ++ later := by
  have included : (entry.get? "include").isSome = true := Option.isSome_of_eq_some has
  cases h with
  | including follows listed inside behind =>
    rw [has] at follows
    cases follows
    exact ⟨_, _, _, listed, inside, behind, rfl⟩
  | metaScope some _ =>
    rw [one.elsewhere included (by decide) (by decide) (by decide)] at some
    cases some
  | rule pattern _ _ =>
    rw [one.elsewhere included (by decide) (by decide) (by decide)] at pattern
    cases pattern

variable (i : Inclusion contexts) (orderly : Orderly contexts)
  (acyclic : ∀ name, ¬ TransGen (Includes contexts) name name)

include orderly acyclic

/-- Where the target stays as it is, its entries expand to the same rules as the `include`. -/
theorem inlined
    (h : Flattens dialect i.result values called (i.before ++ i.entry :: i.after) rules) :
    Flattens dialect i.result values called i.inlined rules := by
  obtain ⟨first, rest, left, right, rfl⟩ := h.append_inv
  obtain ⟨inner, first', later, listed, inside, behind, rfl⟩ :=
    right.including_inv (i.singles orderly i.entry (by simp)) i.has
  have target := i.target_mem_result acyclic
  cases (i.orderly_result orderly).distinct.unique listed target
  have spliced := (inside.filter (i.single_inner orderly)).append behind
  rw [Inclusion.inlined, List.append_assoc]
  exact left.append spliced

/-- All entries expand to the same rules after one `include` is replaced. -/
theorem result (h : Flattens dialect contexts values called items rules) :
    Flattens dialect i.result values called items rules := by
  induction h with
  | nil => exact .nil
  | including follows member _ _ ihInner ih =>
    rcases i.mem_result member with same | kept
    · obtain ⟨key, own⟩ := Prod.mk.inj same
      obtain rfl := Value.list.inj own
      exact .including follows (key ▸ i.inlined_mem_result) (ihInner.inlined i orderly acyclic) ih
    · exact .including follows kept ihInner ih
  | metaScope has _ ih => exact .metaScope has ih
  | rule pattern compiles _ ih => exact .rule pattern compiles ih

end Flattens

theorem forall₂_replace {α β : Type} {r s : α → β → Prop} {items earlier later : List α}
    {one other : α} {results : List β} (whole : items = earlier ++ one :: later)
    (h : List.Forall₂ r items results) (same : ∀ item result, r item result → s item result)
    (replaced : ∀ result, r one result → s other result) :
    List.Forall₂ s (earlier ++ other :: later) results := by
  subst whole
  induction earlier generalizing results with
  | nil =>
    obtain _ | ⟨here, behind⟩ := h
    exact .cons (replaced _ here) (behind.imp same)
  | cons first rest ih =>
    obtain _ | ⟨here, behind⟩ := h
    exact .cons (same _ _ here) (ih behind)

section

variable {dialect : Pattern.Dialect} {payload contexts : Entries} {g : Grammar}

theorem Flattened.not_astray (orderly : Orderly contexts)
    (h : Flattened dialect payload contexts g) : ¬ Astray contexts := by
  obtain ⟨values, _, related⟩ := h.contexts
  have expand : ∀ name items, (name, .list items) ∈ contexts →
      ∃ rules, Flattens dialect contexts values (fun i => (g.context i).name) items rules := by
    intro name items listed
    obtain ⟨context, _, ⟨⟩, reads⟩ := exists_of_forall₂ related listed
    exact ⟨context.rules, reads.rules⟩
  exact Flattens.not_astray orderly expand

def withContexts (payload contexts : Entries) : Entries :=
  Entries.modify (fun _ => .table contexts) payload "contexts"

theorem text?_withContexts {value : Value} (given : Entries.text? payload "contexts" = some value) :
    Entries.text? (withContexts payload contexts) "contexts" = some (.table contexts) := by
  rw [withContexts, Entries.text?_modify, given]
  rfl

theorem textField_withContexts {name : String} (differ : name ≠ "contexts") (absent : String) :
    textField (withContexts payload contexts) name absent = textField payload name absent := by
  rw [textField, withContexts, Entries.text?_modify_of_ne differ, textField]

theorem variablesOf_withContexts :
    variablesOf (withContexts payload contexts) = variablesOf payload := by
  rw [variablesOf, withContexts, Entries.text?_modify_of_ne (by decide), variablesOf]

theorem Flattened.result (orderly : Orderly contexts) (i : Inclusion contexts)
    (h : Flattened dialect payload contexts g) :
    Flattened dialect (withContexts payload i.result) i.result g where
  name := by rw [textField_withContexts (by decide), h.name]
  scope := by rw [textField_withContexts (by decide), h.scope]
  main := h.main
  contexts := by
    obtain ⟨values, expanded, related⟩ := h.contexts
    refine ⟨values, by rw [variablesOf_withContexts, expanded], ?_⟩
    have acyclic : ∀ name, ¬ TransGen (Includes contexts) name name :=
      fun name cycle => h.not_astray orderly (.inl ⟨name, cycle⟩)
    refine forall₂_replace i.whole related ?_ ?_
    · rintro entry context ⟨items, own, reads⟩
      exact ⟨items, own, reads.name, reads.metaScope, reads.rules.result i orderly acyclic⟩
    · rintro context ⟨_, ⟨⟩, reads⟩
      have expands := reads.rules.result i orderly acyclic
      exact ⟨_, rfl, reads.name, by rw [reads.metaScope, i.metaScope_inlined orderly],
        expands.inlined i orderly acyclic⟩

/-- Reading a grammar whose contexts are lists of entries of one kind each comes to an end, and
    gives the contexts with every `include` replaced, in place and in order, by the rules of its
    target. If some context includes itself or one that is not there, it fails. An `include` can be
    replaced by hand with the same result. -/
theorem includes_flattened (dialect : Pattern.Dialect) (payload contexts : Entries)
    (given : Entries.text? payload "contexts" = some (.table contexts))
    (orderly : Orderly contexts) :
    (∀ g, ofEntries dialect payload = .ok g ↔ Flattened dialect payload contexts g) ∧
    (Astray contexts → ∃ e, ofEntries dialect payload = .error e) ∧
    (∀ (i : Inclusion contexts) g, ofEntries dialect payload = .ok g →
      ofEntries dialect (withContexts payload i.result) = .ok g) ∧
    (∀ definitions more, expandWithin definitions (definitions.length + 1 + more) =
      expandWithin definitions (definitions.length + 1)) ∧
    ∀ size (names : Names size) name value more, names.contexts = contexts →
      (name, value) ∈ contexts →
      names.rules (contexts.length + 1 + more) [] name value =
        names.rules (contexts.length + 1) [] name value := by
  refine ⟨fun g => ⟨.of_read given orderly, Flattened.read given orderly⟩, fun astray => ?_,
    fun i g read => ?_, expandWithin_deeper, ?_⟩
  · cases done : ofEntries dialect payload with
    | error e => exact ⟨e, rfl⟩
    | ok g => exact absurd astray ((Flattened.of_read given orderly done).not_astray orderly)
  · have flattened := Flattened.of_read given orderly read
    exact (flattened.result orderly i).read (text?_withContexts given) (i.orderly_result orderly)
  · rintro size names name value more rfl listed
    exact rules_settled more listed

end

def tailEntries : List Value := [.table [(.text "meta_scope", .text "end")],
  .table [(.text "match", .text "{{v}}y"), (.text "pop", .bool true)]]

def borrowing : Entries := [
  (.text "main", .list [.table [(.text "include", .text "tail")],
    .table [(.text "match", .text "x"), (.text "push", .text "tail")]]),
  (.text "tail", .list tailEntries)]

def borrowingPayload : Entries :=
  [(.text "variables", .table [(.text "v", .text "a")]), (.text "contexts", .table borrowing)]

def borrowed : Inclusion borrowing where
  earlier := []
  name := .text "main"
  before := []
  entry := .table [(.text "include", .text "tail")]
  after := [.table [(.text "match", .text "x"), (.text "push", .text "tail")]]
  later := [(.text "tail", .list tailEntries)]
  target := "tail"
  inner := tailEntries
  whole := rfl
  has := rfl
  listed := List.mem_cons_of_mem _ List.mem_cons_self

theorem includes_flattened_borrowing :
    Entries.text? borrowingPayload "contexts" = some (.table borrowing) ∧ Orderly borrowing ∧
      ∃ g, ofEntries Pattern.compile borrowingPayload = .ok g ∧
        Flattened Pattern.compile borrowingPayload borrowing g ∧
        ofEntries Pattern.compile (withContexts borrowingPayload borrowed.result) = .ok g := by
  have given : Entries.text? borrowingPayload "contexts" = some (.table borrowing) := rfl
  have orderly : Orderly borrowing := by
    refine ⟨by decide, fun context member => ?_⟩
    simp only [borrowing, List.mem_cons, List.not_mem_nil, or_false] at member
    rcases member with rfl | rfl
    · refine ⟨_, rfl, List.forall_mem_cons.mpr ⟨⟨"include", by decide, by decide⟩, ?_⟩⟩
      exact List.forall_mem_singleton.mpr ⟨"match", by decide, by decide⟩
    · refine ⟨_, rfl, List.forall_mem_cons.mpr ⟨⟨"meta_scope", by decide, by decide⟩, ?_⟩⟩
      exact List.forall_mem_singleton.mpr ⟨"match", by decide, by decide⟩
  have read : (ofEntries Pattern.compile borrowingPayload).isOk = true := by decide +kernel
  obtain ⟨flattened, _, inlined, _⟩ :=
    includes_flattened Pattern.compile borrowingPayload borrowing given orderly
  cases done : ofEntries Pattern.compile borrowingPayload with
  | error e =>
    rw [done] at read
    cases read
  | ok g => exact ⟨given, orderly, g, rfl, (flattened g).mp done, inlined borrowed g done⟩

end BookHighlight.Grammar
