import BookHighlight.Proofs.Grammar.Inline

namespace BookHighlight.Grammar

open Data Relation

def Reports (odd : Error → Prop) {α : Type} (x : Except Error α) : Prop :=
  ∀ e, x = .error e → (∃ defect, e = .defect defect) ∨ odd e

section

variable {odd : Error → Prop} {α β : Type}

theorem reports_ok (a : α) : Reports odd (.ok a : Except Error α) := nofun

theorem reports_defect (defect : Defect) :
    Reports odd (.error (.defect defect) : Except Error α) := by
  rintro _ ⟨⟩
  exact .inl ⟨defect, rfl⟩

theorem reports_odd {e : Error} (h : odd e) : Reports odd (.error e : Except Error α) := by
  rintro _ ⟨⟩
  exact .inr h

theorem Reports.bind_ok {x : Except Error α} {f : α → Except Error β} (first : Reports odd x)
    (next : ∀ a, x = .ok a → Reports odd (f a)) : Reports odd (x >>= f) := by
  cases x with
  | error e =>
    rintro _ ⟨⟩
    exact first e rfl
  | ok a => exact next a rfl

theorem Reports.bind {x : Except Error α} {f : α → Except Error β} (first : Reports odd x)
    (next : ∀ a, Reports odd (f a)) : Reports odd (x >>= f) := first.bind_ok fun a _ => next a

theorem Reports.map {x : Except Error α} (h : Reports odd x) (f : α → β) :
    Reports odd (x.map f) := by
  cases x with
  | error e =>
    rintro _ ⟨⟩
    exact h e rfl
  | ok a => exact reports_ok (f a)

theorem reports_gather {f : α → Except Error (List β)} {items : List α}
    (each : ∀ item ∈ items, Reports odd (f item)) : Reports odd (gather f items) := by
  induction items with
  | nil => exact reports_ok []
  | cons item rest ih =>
    obtain ⟨first, later⟩ := List.forall_mem_cons.mp each
    exact first.bind fun _ => (ih later).bind fun _ => reports_ok _

theorem reports_forEach {f : α → Except Error β} {items : List α}
    (each : ∀ item ∈ items, Reports odd (f item)) : Reports odd (forEach f items) := by
  induction items with
  | nil => exact reports_ok _
  | cons item rest ih =>
    obtain ⟨first, later⟩ := List.forall_mem_cons.mp each
    exact first.bind fun _ => (ih later).bind fun _ => reports_ok _

theorem reports_foldlM {f : β → α → Except Error β} {items : List α}
    (each : ∀ item ∈ items, ∀ state, Reports odd (f state item)) (state : β) :
    Reports odd (items.foldlM f state) := by
  induction items generalizing state with
  | nil => exact reports_ok state
  | cons item rest ih =>
    obtain ⟨first, later⟩ := List.forall_mem_cons.mp each
    rw [List.foldlM_cons]
    exact (first state).bind fun state => ih later state

theorem reports_cycle {defect : List String → Defect} {trail : List Key}
    (told : odd (.misuse .noItems) ∨ Textual trail) :
    Reports odd (.error (.cycle defect trail) : Except Error α) := by
  rcases told with h | texts
  · unfold Error.cycle
    split
    · exact reports_defect _
    · exact reports_odd h
  · obtain ⟨names, rfl⟩ := texts.exists_texts
    rw [cycle_texts]
    exact reports_defect _

end

section

variable {odd : Error → Prop} {definitions : Definitions}

theorem reports_replaced {value : String → StateT Values (Except Error) (List Char)}
    (each : ∀ name values, Reports odd ((value name).run values)) (ps : List Piece)
    (values : Values) : Reports odd ((fill value ps).run values) := by
  induction ps generalizing values with
  | nil => exact reports_ok _
  | cons piece rest ih =>
    rcases piece with c | name
    · rw [fill_char]
      exact (ih values).bind fun _ => reports_ok _
    · rw [fill_variable]
      exact (each name values).bind fun first => (ih first.2).bind fun _ => reports_ok _

theorem reports_resolve (given : ∀ entry ∈ definitions, Reports odd entry.2) {depth : Nat}
    {trail : List Key} {name : Key} {written : Except Error String} (own : Reports odd written)
    (told : odd (.misuse .noItems) ∨ Textual (trail ++ [name])) (values : Values) :
    Reports odd ((resolve definitions depth trail name written).run values) := by
  induction depth generalizing trail name written values with
  | zero => exact reports_cycle told
  | succ depth ih =>
    cases known : values.get? name with
    | some value =>
      rw [resolve_known known]
      exact reports_ok _
    | none =>
      cases new : trail.any name.same with
      | true =>
        rw [resolve_cycle known new]
        exact reports_cycle told
      | false =>
        cases written with
        | error e =>
          rw [resolve_unreadable known new]
          rintro _ ⟨⟩
          exact own e rfl
        | ok text =>
          rw [resolve_new known new]
          refine (reports_replaced (fun inner values => ?_) _ values).bind fun _ => reports_ok _
          unfold valueInside
          cases found : definitions.find? (·.1.same (.text inner)) with
          | none => exact reports_defect _
          | some entry =>
            refine ih (given entry (List.mem_of_find?_eq_some found)) (told.imp_right ?_) values
            exact fun texts => List.forall_mem_append.mpr
              ⟨texts, List.forall_mem_singleton.mpr ⟨inner, rfl⟩⟩

theorem reports_expandWithin (given : ∀ entry ∈ definitions, Reports odd entry.2)
    (told : odd (.misuse .noItems) ∨ Textual (definitions.map (·.1))) (depth : Nat) :
    Reports odd (expandWithin definitions depth) := by
  refine reports_foldlM (fun entry member values => ?_) []
  refine (reports_resolve given (given entry member) (told.imp_right fun texts => ?_) values).map _
  exact List.forall_mem_singleton.mpr (texts entry.1 (List.mem_map_of_mem member))

end

def Untabled (payload : Entries) : Prop :=
  ∃ written, Entries.text? payload "variables" = some written ∧ written.isTruthy = true ∧
    ∀ entries, written ≠ .table entries

theorem reports_expandVariables {odd : Error → Prop} {written : Value} (json : written.IsJson)
    (h : (∀ entries, written ≠ .table entries) → odd (.misuse .noItems)) :
    Reports odd (expandVariables written) := by
  cases json with
  | table texts _ =>
    rename_i entries
    refine reports_expandWithin (fun entry member => ?_) (.inr fun key member => ?_) _
    · obtain ⟨_, _, rfl⟩ := List.mem_map.mp member
      exact reports_ok _
    · rw [List.map_map] at member
      exact texts key member
  | @list items _ =>
    have untabled := h (by simp)
    refine reports_expandWithin (fun entry member => ?_) (.inl untabled) _
    obtain ⟨item, _, rfl⟩ := List.mem_map.mp member
    split
    · split
      · exact reports_ok _
      · exact reports_odd untabled
    · exact reports_odd untabled
  | _ => exact reports_odd (h (by simp))

theorem reports_variablesOf {payload : Entries} (json : (Value.table payload).IsJson) :
    Reports (fun e => e = .misuse .noItems ∧ Untabled payload) (variablesOf payload) := by
  unfold variablesOf
  cases given : Entries.text? payload "variables" with
  | none => exact reports_ok _
  | some written =>
    obtain _ | _ | _ | _ | _ | _ | ⟨_, each⟩ := json
    have member := Entries.mem_of_text? given
    dsimp only
    split
    · exact reports_expandVariables (each _ member) fun noTable =>
        ⟨rfl, written, given, ‹_›, noTable⟩
    · exact reports_ok _

def isBare : Value → Bool
  | .null | .bool _ | .int _ | .float _ => true
  | _ => false

theorem entriesOf_bare {value : Value} (h : isBare value = true) :
    entriesOf value = .error (.misuse .noItems) := by
  cases value with
  | null | bool | int | float => rfl
  | text | list | table => cases h

def Stray (contexts : Entries) (name : Key) : Prop :=
  ∃ value, (name, value) ∈ contexts ∧ isBare value = true

inductive Breaks (dialect : Pattern.Dialect) (values : Values) : Value → Error → Prop where
  | intro {fields source text} : Entries.text? fields "match" = some (.text source) →
      substitute (fun name => values.get? (.text name)) source.toList = some text →
      dialect text = .broken →
      Breaks dialect values (.table fields) (.brokenPattern (String.ofList text))

section

variable {odd : Error → Prop} {size : Nat} {names : Names size}

theorem reports_filled {value : String → Except Error (List Char)}
    (each : ∀ name, Reports odd (value name)) (ps : List Piece) : Reports odd (fill value ps) := by
  induction ps with
  | nil => exact reports_ok _
  | cons piece rest ih =>
    rcases piece with c | name
    · exact ih.bind fun _ => reports_ok _
    · exact (each name).bind fun _ => ih.bind fun _ => reports_ok _

theorem reports_target {context : String} {field : Option Value} :
    Reports odd (names.target context field) := by
  unfold Names.target
  split
  · exact reports_ok _
  · exact reports_ok _
  · split
    · exact reports_ok _
    · exact reports_defect _
  · exact reports_defect _

theorem reports_scopeOf {context : String} {field : Option Value} :
    Reports odd (scopeOf context field) := by
  unfold scopeOf
  split
  · exact reports_ok _
  · exact reports_ok _
  · exact reports_ok _
  · exact reports_defect _

theorem reports_compile {context source : String} {fields : Entries}
    (pattern : Entries.text? fields "match" = some (.text source))
    (breaks : ∀ e, Breaks names.dialect names.values (.table fields) e → odd e) :
    Reports odd (names.compile context source fields) := by
  have filled : Reports odd (substitute (names.variable context) source.toList) := by
    refine reports_filled (fun name => ?_) _
    unfold Names.variable
    split
    · exact reports_ok _
    · exact reports_defect _
  refine filled.bind_ok fun text replaced => ?_
  cases compiled : names.dialect text with
  | invalid => exact reports_defect _
  | broken =>
    have known := (fill_eq_ok fun _ _ => variable_eq_ok).mp replaced
    exact reports_odd (breaks _ (.intro pattern known compiled))
  | pattern pattern =>
    exact reports_scopeOf.bind fun _ => reports_target.bind fun _ => reports_target.bind fun _ =>
      reports_ok _

theorem sortedKeys_texts {keys : List Key} (texts : Textual keys) :
    ∃ sorted, sortedKeys keys = .ok sorted := by
  obtain ⟨names, rfl⟩ := texts.exists_texts
  unfold sortedKeys
  rw [mapM_texts fun _ => rfl]
  exact ⟨_, rfl⟩

theorem reports_rule {context source : String} {fields : Entries}
    (texts : Textual (Entries.keys fields))
    (pattern : Entries.text? fields "match" = some (.text source))
    (breaks : ∀ e, Breaks names.dialect names.values (.table fields) e → odd e) :
    Reports odd (names.rule context source fields) := by
  have unknown : Textual (unknownKeys fields) := fun key member =>
    texts key (List.mem_of_mem_filter member)
  obtain ⟨sorted, sorts⟩ := sortedKeys_texts unknown
  unfold Names.rule
  split
  · exact reports_compile pattern breaks
  · rw [sorts]
    exact reports_defect _

theorem reports_entryRules {depth : Nat} {trail : List Key} {name : Key} {entry : Value}
    (json : entry.IsJson) (breaks : ∀ e, Breaks names.dialect names.values entry e → odd e)
    (inside : ∀ target value, entry.get? "include" = some (.text target) →
      (.text target, value) ∈ names.contexts →
        Reports odd (names.rules depth trail (.text target) value)) :
    Reports odd (names.entryRules depth trail name entry) := by
  unfold Names.entryRules
  split
  · rename_i target including
    split
    · exact inside target _ (ofValue_including.mp including) (Entries.mem_of_text? ‹_›)
    · exact reports_defect _
  · exact reports_ok _
  · rename_i source fields isRule
    obtain ⟨rfl, pattern⟩ := ofValue_rule isRule
    cases json with
    | table texts _ => exact (reports_rule texts pattern breaks).bind fun _ => reports_ok _
  · exact reports_defect _

theorem reports_metaScopeOf {context : String} {items : List Value} :
    Reports odd (metaScopeOf context items) := by
  induction items with
  | nil => exact reports_ok _
  | cons entry rest ih =>
    unfold metaScopeOf
    split
    · exact reports_ok _
    · exact reports_defect _
    · exact ih

section

variable (json : (Value.table names.contexts).IsJson)
  (stray : ∀ outer inner, Includes names.contexts outer inner → Stray names.contexts inner →
    odd (.misuse .noItems))
  (breaks : ∀ context items, (context, .list items) ∈ names.contexts → ∀ entry ∈ items, ∀ e,
    Breaks names.dialect names.values entry e → odd e)

include json stray breaks

theorem reports_rules {depth : Nat} {trail : List Key} {name : Key} {value : Value}
    (told : odd (.misuse .noItems) ∨ Textual (trail ++ [name]))
    (listed : (name, value) ∈ names.contexts) (h : isBare value = true → odd (.misuse .noItems)) :
    Reports odd (names.rules depth trail name value) := by
  obtain _ | _ | _ | _ | _ | _ | ⟨texts, each⟩ := json
  induction depth generalizing trail name value with
  | zero => exact reports_cycle told
  | succ depth ih =>
    cases new : trail.any name.same with
    | true =>
      rw [rules_cycle new]
      exact reports_cycle told
    | false =>
      rw [rules_new new]
      cases value with
      | list items =>
        cases each _ listed with
        | list jsons =>
          refine reports_gather fun entry member => reports_entryRules (jsons entry member)
            (breaks name items listed entry member) fun target inner has among => ?_
          refine ih (told.imp_right fun texts => ?_) among ?_
          · exact List.forall_mem_append.mpr
              ⟨texts, List.forall_mem_singleton.mpr ⟨target, rfl⟩⟩
          · exact fun bare => stray name _ ⟨items, entry, target, listed, member, has, rfl⟩
              ⟨inner, among, bare⟩
      | text s =>
        refine reports_gather fun entry member => ?_
        obtain ⟨c, _, rfl⟩ := List.mem_map.mp member
        exact reports_defect _
      | table fields =>
        cases each _ listed with
        | table keys _ =>
          refine reports_gather fun entry member => ?_
          obtain ⟨field, among, rfl⟩ := List.mem_map.mp member
          obtain ⟨key, same⟩ := keys field.1 (List.mem_map_of_mem among)
          rw [same]
          exact reports_defect _
      | null | bool | int | float => exact reports_odd (h rfl)

theorem reports_context {name : Key} {value : Value} (listed : (name, value) ∈ names.contexts) :
    Reports odd (names.context name value) := by
  cases value with
  | list items =>
    have texts : Textual [name] := by
      obtain _ | _ | _ | _ | _ | _ | ⟨texts, _⟩ := json
      exact List.forall_mem_singleton.mpr (texts name (List.mem_map_of_mem listed))
    refine reports_metaScopeOf.bind fun _ => Reports.bind ?_ fun _ => reports_ok _
    exact reports_rules json stray breaks (.inr texts) listed nofun
  | _ => exact reports_defect _

end

end

/-- Where another error than a reported defect comes from: variables that are no table, an `include`
    of a context that cannot be gone through, or a pattern that breaks its compilation down. -/
inductive Escapes (dialect : Pattern.Dialect) (payload contexts : Entries) : Error → Prop where
  | untabled : Untabled payload → Escapes dialect payload contexts (.misuse .noItems)
  | stray {outer inner} : Includes contexts outer inner → Stray contexts inner →
      Escapes dialect payload contexts (.misuse .noItems)
  | pattern {values name items entry e} : variablesOf payload = .ok values →
      (name, .list items) ∈ contexts → entry ∈ items → Breaks dialect values entry e →
      Escapes dialect payload contexts e

section

variable {odd other : Error → Prop} {dialect : Pattern.Dialect} {payload contexts : Entries}

theorem Reports.mono {α : Type} {x : Except Error α} (h : Reports odd x)
    (implies : ∀ e, odd e → other e) : Reports other x := fun e failed =>
  (h e failed).imp_right (implies e)

theorem isJson_text? {name : String} {value : Value} (json : (Value.table payload).IsJson)
    (h : Entries.text? payload name = some value) : value.IsJson := by
  obtain _ | _ | _ | _ | _ | _ | ⟨_, each⟩ := json
  exact each _ (Entries.mem_of_text? h)

theorem reports_ofEntries (json : (Value.table payload).IsJson)
    (given : Entries.text? payload "contexts" = some (.table contexts)) :
    Reports (Escapes dialect payload contexts) (ofEntries dialect payload) := by
  cases found : indexIn (Entries.keys contexts) (.text "main") with
  | none =>
    rw [ofEntries_unnamed given found]
    exact reports_defect _
  | some main =>
    rw [ofEntries_named given found]
    have typed : ∀ e, e = .misuse .noItems ∧ Untabled payload →
        Escapes dialect payload contexts e := by
      rintro _ ⟨rfl, untabled⟩
      exact .untabled untabled
    refine ((reports_variablesOf json).mono typed).bind_ok fun values expanded => ?_
    refine Reports.bind (reports_forEach fun entry listed => ?_) fun _ => reports_ok _
    refine reports_context (isJson_text? json given) ?_ ?_ listed
    · exact fun outer inner includes stray => .stray includes stray
    · exact fun context items listed entry member e breaks =>
        .pattern expanded listed member breaks

theorem ofEntries_without_contexts
    (missing : ∀ contexts, Entries.text? payload "contexts" ≠ some (.table contexts)) :
    ofEntries dialect payload = .error (.defect .noMainContext) := by
  unfold ofEntries
  split
  · exact absurd ‹_› (missing _)
  · rfl

theorem variablesOf_bare {written : Value} (h : Entries.text? payload "variables" = some written)
    (truthy : written.isTruthy = true) (odd : isBare written = true ∨ ∃ s, written = .text s) :
    variablesOf payload = .error (.misuse .noItems) := by
  simp only [variablesOf, h, truthy, if_true]
  rcases odd with bare | ⟨s, rfl⟩
  · cases written with
    | null | bool | int | float => rfl
    | text | list | table => cases bare
  · rfl

end

def mended (contexts : Entries) : Entries :=
  contexts.map fun (name, value) => (name, if isBare value then .list [] else value)

section

variable {contexts : Entries}

theorem keys_mended : Entries.keys (mended contexts) = Entries.keys contexts := by
  simp [mended, Entries.keys]

theorem mem_mended {name : Key} {items : List Value}
    (h : (name, .list items) ∈ mended contexts) :
    items = [] ∧ Stray contexts name ∨ (name, .list items) ∈ contexts := by
  obtain ⟨⟨name, value⟩, member, same⟩ := List.mem_map.mp h
  dsimp only at same
  split at same
  · cases same
    exact .inl ⟨rfl, value, member, ‹_›⟩
  · cases same
    exact .inr member

theorem includes_mended : Includes (mended contexts) = Includes contexts := by
  funext outer inner
  refine propext ⟨?_, ?_⟩
  · rintro ⟨items, item, target, listed, member, rest⟩
    rcases mem_mended listed with ⟨rfl, _⟩ | listed
    · cases member
    · exact ⟨items, item, target, listed, member, rest⟩
  · rintro ⟨items, item, target, listed, rest⟩
    exact ⟨items, item, target, List.mem_map.mpr ⟨_, listed, rfl⟩, rest⟩

theorem finds_mended {size : Nat} {names : Names size} (distinct : names.contexts.Distinct) :
    names.Finds (mended names.contexts) (Stray names.contexts) := by
  intro target inner listed
  obtain ⟨⟨name, value⟩, member, same⟩ := List.mem_map.mp listed
  dsimp only at same
  split at same
  · cases same
    exact ⟨value, (Entries.text?_eq_some_iff distinct).mpr member,
      .inl ⟨⟨value, member, ‹_›⟩, entriesOf_bare ‹_›⟩⟩
  · cases same
    refine ⟨_, (Entries.text?_eq_some_iff distinct).mpr member, .inr ⟨?_, rfl⟩⟩
    rintro ⟨other, among, bare⟩
    cases distinct.unique among member
    cases bare

def LeadsAstray (contexts : Entries) (name : Key) : Prop :=
  ∃ inner, Stray contexts inner ∧ TransGen (Includes contexts) name inner

theorem context_outcome {size : Nat} {names : Names size} {called : Fin size → Key}
    (orderly : Orderly (mended names.contexts)) (agrees : names.Agrees called) {name : String}
    {items : List Value} (listed : (.text name, .list items) ∈ names.contexts)
    {context : Context size}
    (reads : Reads names.dialect (mended names.contexts) names.values called (.text name) items
      context) :
    LeadsAstray names.contexts (.text name) ∧
        names.context (.text name) (.list items) = .error (.misuse .noItems) ∨
      ¬ LeadsAstray names.contexts (.text name) ∧
        ∃ result, names.context (.text name) (.list items) = .ok result := by
  have distinct : names.contexts.Distinct := by
    rw [Entries.Distinct, ← keys_mended]
    exact orderly.distinct
  have listed' : (.text name, .list items) ∈ mended names.contexts :=
    List.mem_map.mpr ⟨_, listed, rfl⟩
  have leads : ∀ inner, LeadsTo (mended names.contexts) items inner ↔
      TransGen (Includes names.contexts) (.text name) inner := by
    intro inner
    rw [leadsTo_iff orderly listed', includes_mended]
  have sized : (mended names.contexts).length = names.contexts.length := List.length_map ..
  have outcome := outcome_rules orderly agrees (finds_mended distinct) reads.rules listed'
  rw [sized] at outcome
  simp only [Names.context, metaScopeOf_eq_ok.mpr reads.metaScope]
  rcases outcome with ⟨⟨inner, stray, onward⟩, fails⟩ | ⟨nowhere, found⟩
  · refine .inl ⟨⟨inner, stray, (leads inner).mp onward⟩, ?_⟩
    rw [fails]
    rfl
  · have apart : ¬ LeadsAstray names.contexts (.text name) := by
      rintro ⟨inner, stray, onward⟩
      exact nowhere inner stray ((leads inner).mpr onward)
    rw [found]
    exact .inr ⟨apart, _, rfl⟩

theorem forEach_error {α β ε : Type} {f : α → Except ε β} {p : α → Prop} {earlier later : List α}
    {item : α} {e e' : ε} (here : f item = .error e')
    (each : ∀ item ∈ earlier, p item ∧ f item = .error e ∨ ¬ p item ∧ ∃ r, f item = .ok r) :
    (∃ item ∈ earlier, p item) ∧ forEach f (earlier ++ item :: later) = .error e ∨
      (¬ ∃ item ∈ earlier, p item) ∧ forEach f (earlier ++ item :: later) = .error e' := by
  induction earlier with
  | nil =>
    refine .inr ⟨by simp, ?_⟩
    rw [List.nil_append, forEach, here]
    rfl
  | cons first rest ih =>
    obtain ⟨one, others⟩ := List.forall_mem_cons.mp each
    rw [List.cons_append, forEach, List.exists_mem_cons_iff]
    rcases one with ⟨holds, fails⟩ | ⟨fails, result, found⟩
    · rw [fails]
      exact .inl ⟨.inl holds, rfl⟩
    · rw [found]
      rcases ih others with ⟨behind, stops⟩ | ⟨none, stops⟩
      · refine .inl ⟨.inr behind, ?_⟩
        change (forEach f _ >>= _) = _
        rw [stops]
        rfl
      · refine .inr ⟨fun some => some.elim fails none, ?_⟩
        change (forEach f _ >>= _) = _
        rw [stops]
        rfl

variable {dialect : Pattern.Dialect} {payload earlier later : Entries} {name : Key} {value : Value}
  {g : Grammar}

theorem context_bare {size : Nat} {names : Names size} (bare : isBare value = true) :
    names.context name value = .error (.defect (.contextNotAList name.plain)) := by
  cases value with
  | null | bool | int | float => rfl
  | text | list | table => cases bare

theorem ofContexts_error {values : Values} {keys : List Key}
    (aligned : contexts.length = keys.length) {main : Fin keys.length} {e : Error}
    (fails : forEach (fun entry => ({ contexts, index := indexIn keys, values, dialect } :
      Names keys.length).context entry.1 entry.2) contexts = .error e) :
    ofContexts dialect payload contexts values keys aligned main = .error e := by
  unfold ofContexts
  dsimp only
  rw [fails]
  rfl

/-- A context that is no list is found out in its turn, unless one of the contexts before it leads
    to such a context. -/
theorem ofEntries_stray (json : (Value.table payload).IsJson)
    (given : Entries.text? payload "contexts" = some (.table contexts))
    (orderly : Orderly (mended contexts))
    (read : ofEntries dialect (withContexts payload (mended contexts)) = .ok g)
    (whole : contexts = earlier ++ (name, value) :: later) (bare : isBare value = true)
    (lists : ∀ context ∈ earlier, isBare context.2 = false) :
    (∃ context ∈ earlier, LeadsAstray contexts context.1) ∧
        ofEntries dialect payload = .error (.misuse .noItems) ∨
      (¬ ∃ context ∈ earlier, LeadsAstray contexts context.1) ∧
        ofEntries dialect payload = .error (.defect (.contextNotAList name.plain)) := by
  have distinct : contexts.Distinct := by
    rw [Entries.Distinct, ← keys_mended]
    exact orderly.distinct
  obtain ⟨compiled, _, main, values, rfl, isMain, expanded, related⟩ :=
    (Flattened.of_read (text?_withContexts given) orderly read).parts keys_mended
  rw [variablesOf_withContexts] at expanded
  have found := (indexIn_eq_some distinct).mpr isMain
  let names : Names (Entries.keys contexts).length :=
    { contexts, index := indexIn (Entries.keys contexts), values, dialect }
  let readContext := fun entry : Key × Value => names.context entry.1 entry.2
  have each : ∀ context ∈ earlier,
      LeadsAstray contexts context.1 ∧ readContext context = .error (.misuse .noItems) ∨
        ¬ LeadsAstray contexts context.1 ∧ ∃ result, readContext context = .ok result := by
    rintro ⟨key, value⟩ member
    have listed : (key, value) ∈ contexts := whole ▸ List.mem_append_left _ member
    have kept : (key, value) ∈ mended contexts :=
      List.mem_map.mpr ⟨_, listed, by simp [lists _ member]⟩
    obtain ⟨context, items, rfl, reads⟩ := exists_of_forall₂ related kept
    obtain ⟨text, rfl⟩ : ∃ text, key = .text text := by
      cases isJson_text? json given with
      | table texts _ => exact texts key (List.mem_map_of_mem (f := Prod.fst) listed)
    have agrees := names_agree distinct contexts values dialect
    exact @context_outcome _ names _ orderly agrees _ _ listed _ reads
  have turn : readContext (name, value) = .error (.defect (.contextNotAList name.plain)) :=
    context_bare bare
  have stops : ∀ e, forEach readContext (earlier ++ (name, value) :: later) = .error e →
      ofEntries dialect payload = .error e := by
    intro e fails
    rw [← whole] at fails
    rw [ofEntries_named given found, expanded]
    exact ofContexts_error (List.length_map ..).symm fails
  rcases forEach_error turn each with ⟨some, fails⟩ | ⟨none, fails⟩
  · exact .inl ⟨some, stops _ fails⟩
  · exact .inr ⟨none, stops _ fails⟩

theorem exists_main (listed : .text "main" ∈ Entries.keys contexts) :
    ∃ main, indexIn (Entries.keys contexts) (.text "main") = some main := by
  rw [← Option.isSome_iff_exists, indexIn, List.isSome_findFinIdx?, List.any_eq_true]
  exact ⟨_, listed, beq_self_eq_true "main"⟩

end

/-- From JSON one gets a grammar, a reported defect or, for one of three reasons, another error. It
    is that of a value taken for another type whenever the variables are a text or count as true and
    have no items. If contexts that cannot be gone through are all that is wrong, it is that error
    just if such a context is included, directly or through others, from a context in front of the
    first of them. -/
theorem malformed_reported (dialect : Pattern.Dialect) (payload : Entries)
    (json : (Value.table payload).IsJson) :
    ((∃ g, ofEntries dialect payload = .ok g) ∨
      (∃ defect, ofEntries dialect payload = .error (.defect defect)) ∨
      ∃ e contexts, ofEntries dialect payload = .error e ∧
        Entries.text? payload "contexts" = some (.table contexts) ∧
        Escapes dialect payload contexts e) ∧
    ∀ contexts, Entries.text? payload "contexts" = some (.table contexts) →
      (∀ written, .text "main" ∈ Entries.keys contexts →
        Entries.text? payload "variables" = some written → written.isTruthy = true →
        (isBare written = true ∨ ∃ s, written = .text s) →
        ofEntries dialect payload = .error (.misuse .noItems)) ∧
      (Orderly (mended contexts) →
        (∃ g, ofEntries dialect (withContexts payload (mended contexts)) = .ok g) →
        ∀ earlier name value later, contexts = earlier ++ (name, value) :: later →
        isBare value = true → (∀ context ∈ earlier, isBare context.2 = false) →
        ((∃ context ∈ earlier, LeadsAstray contexts context.1) →
          ofEntries dialect payload = .error (.misuse .noItems)) ∧
        ((¬ ∃ context ∈ earlier, LeadsAstray contexts context.1) →
          ofEntries dialect payload = .error (.defect (.contextNotAList name.plain)))) := by
  refine ⟨?_, fun contexts given => ⟨fun written listed has truthy odd => ?_, ?_⟩⟩
  · by_cases given : ∃ contexts, Entries.text? payload "contexts" = some (.table contexts)
    · obtain ⟨contexts, given⟩ := given
      have reports : Reports _ (ofEntries dialect payload) := reports_ofEntries json given
      cases done : ofEntries dialect payload with
      | ok g => exact .inl ⟨g, rfl⟩
      | error e =>
        rcases reports e done with ⟨defect, rfl⟩ | escapes
        · exact .inr (.inl ⟨defect, rfl⟩)
        · exact .inr (.inr ⟨e, contexts, rfl, given, escapes⟩)
    · rw [ofEntries_without_contexts fun contexts has => given ⟨contexts, has⟩]
      exact .inr (.inl ⟨_, rfl⟩)
  · obtain ⟨main, found⟩ := exists_main listed
    rw [ofEntries_named given found, variablesOf_bare has truthy odd]
    rfl
  · rintro orderly ⟨g, read⟩ earlier name value later whole bare lists
    rcases ofEntries_stray json given orderly read whole bare lists with ⟨some, ends⟩ | ⟨none, ends⟩
    · exact ⟨fun _ => ends, fun none => absurd some none⟩
    · exact ⟨fun some => absurd some none, fun _ => ends⟩

def includesNull : Entries := [
  (.text "main", .list [.table [(.text "include", .text "b")]]), (.text "b", .null)]

def includesNullPayload : Entries := [(.text "contexts", .table includesNull)]

theorem isJson_includesNull : (Value.table includesNullPayload).IsJson := by
  have single : ∀ {name : String} {value : Value}, value.IsJson →
      (Value.table [(.text name, value)]).IsJson := fun json =>
    .table (List.forall_mem_singleton.mpr ⟨_, rfl⟩) (List.forall_mem_singleton.mpr json)
  have main : (Value.list [.table [(.text "include", .text "b")]]).IsJson :=
    .list (List.forall_mem_singleton.mpr (single (.text "b")))
  refine single (.table ?_ ?_)
  · exact List.forall_mem_cons.mpr ⟨⟨_, rfl⟩, List.forall_mem_singleton.mpr ⟨_, rfl⟩⟩
  · exact List.forall_mem_cons.mpr ⟨main, List.forall_mem_singleton.mpr .null⟩

theorem malformed_reported_null : (Value.table includesNullPayload).IsJson ∧
    ofEntries Pattern.compile includesNullPayload = .error (.misuse .noItems) := by
  have given : Entries.text? includesNullPayload "contexts" = some (.table includesNull) := rfl
  have orderly : Orderly (mended includesNull) := by
    refine ⟨by decide, List.forall_mem_cons.mpr ⟨⟨_, rfl, ?_⟩, ?_⟩⟩
    · exact List.forall_mem_singleton.mpr ⟨"include", by decide, by decide⟩
    · exact List.forall_mem_singleton.mpr ⟨[], rfl, by simp⟩
  have read : ∃ g, ofEntries Pattern.compile
      (withContexts includesNullPayload (mended includesNull)) = .ok g := ⟨_, rfl⟩
  have step : Includes includesNull (.text "main") (.text "b") :=
    ⟨_, _, "b", List.mem_cons_self, List.mem_cons_self, rfl, rfl⟩
  have astray : LeadsAstray includesNull (.text "main") :=
    ⟨.text "b", ⟨.null, by simp [includesNull], rfl⟩, .single step⟩
  have reported := malformed_reported Pattern.compile includesNullPayload isJson_includesNull
  have ends := (reported.2 _ given).2 orderly read [_] (.text "b") .null [] rfl rfl
    (List.forall_mem_singleton.mpr rfl)
  exact ⟨isJson_includesNull, ends.1 ⟨_, List.mem_singleton_self _, astray⟩⟩

theorem null_context_escapes : (Value.table includesNullPayload).IsJson ∧
    (∀ g, ofEntries Pattern.compile includesNullPayload ≠ .ok g) ∧
      ∀ defect, ofEntries Pattern.compile includesNullPayload ≠ .error (.defect defect) := by
  have ends : ofEntries Pattern.compile includesNullPayload = .error (.misuse .noItems) := rfl
  rw [ends]
  exact ⟨isJson_includesNull, nofun, nofun⟩

end BookHighlight.Grammar
