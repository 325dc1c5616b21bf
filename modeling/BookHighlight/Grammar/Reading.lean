import BookHighlight.Grammar.Basic
import BookHighlight.Grammar.Error
import BookHighlight.Grammar.Variables
import BookHighlight.Pattern.Basic

namespace BookHighlight.Grammar

open Data

def variablesOf (payload : Entries) : Except Error Values :=
  match Entries.text? payload "variables" with
  | some written => if written.isTruthy then expandVariables written else .ok []
  | none => .ok []

/-- The entries that a context is read as: the items of a list, the names of a table or the
    characters of a text. -/
def entriesOf : Value → Except Error (List Value)
  | .list items => .ok items
  | .table entries => .ok (entries.map fun entry => Value.ofKey entry.1)
  | .text s => .ok (s.toList.map fun c => .text (String.ofList [c]))
  | _ => .error (.misuse .noItems)

inductive Entry where
  | including (target : String)
  | metaScope
  | rule (source : String) (fields : Entries)
  | unsupported

def Entry.ofValue : Value → Entry
  | .table fields =>
    match Entries.text? fields "include", Entries.text? fields "meta_scope",
        Entries.text? fields "match" with
    | some (.text target), _, _ => .including target
    | _, some _, _ => .metaScope
    | _, _, some (.text source) => .rule source fields
    | _, _, _ => .unsupported
  | _ => .unsupported

def ruleKeys : List Key := ["match", "scope", "push", "pop", "set"].map .text

/-- Keys in ascending order, if they are all texts or all whole numbers or there is but one. -/
def sortedKeys (keys : List Key) : Except Error (List Key) :=
  let texts := keys.mapM fun | .text s => some s | _ => none
  let numbers := keys.mapM fun key => key.whole?.map fun n => (n, key)
  match texts, numbers with
  | some names, _ => .ok ((names.mergeSort fun a b => a < b || a == b).map .text)
  | none, some numbers => .ok ((numbers.mergeSort fun a b => a.1 ≤ b.1).map (·.2))
  | none, none => if keys.length ≤ 1 then .ok keys else .error (.misuse .noItems)

def gather {α β ε : Type} (f : α → Except ε (List β)) : List α → Except ε (List β)
  | [] => .ok []
  | item :: rest => do
    let first ← f item
    let later ← gather f rest
    return first ++ later

section

variable {size : Nat}

structure Names (size : Nat) where
  contexts : Entries
  index : Key → Option (Fin size)
  values : Values
  dialect : Pattern.Dialect

def Names.variable (names : Names size) (context name : String) : Except Error (List Char) :=
  match names.values.get? (.text name) with
  | some value => .ok value
  | none => .error (.defect (.unknownVariableIn context name))

def Names.target (names : Names size) (context : String) :
    Option Value → Except Error (Option (Fin size))
  | none | some .null => .ok none
  | some (.text name) =>
    match names.index (.text name) with
    | some i => .ok (some i)
    | none => .error (.defect (.unknownTarget context (.text name)))
  | some value => .error (.defect (.unknownTarget context value))

def scopeOf (context : String) : Option Value → Except Error (Option String)
  | none | some .null => .ok none
  | some (.text scope) => .ok (some scope)
  | some _ => .error (.defect (.scopeNotText context))

def Names.compile (names : Names size) (context source : String) (fields : Entries) :
    Except Error (Rule size) := do
  let text ← substitute (names.variable context) source.toList
  match names.dialect text with
  | .invalid => .error (.defect (.invalidPattern context (String.ofList text)))
  | .broken => .error (.brokenPattern (String.ofList text))
  | .pattern pattern =>
    let scope ← scopeOf context (Entries.text? fields "scope")
    let push ← names.target context (Entries.text? fields "push")
    let set ← names.target context (Entries.text? fields "set")
    let pop := (Entries.text? fields "pop").any Value.isTruthy
    return { source := String.ofList text, pattern, scope, push, pop, set }

def unknownKeys (fields : Entries) : List Key :=
  (Entries.keys fields).filter fun key => !ruleKeys.any key.same

def Names.rule (names : Names size) (context source : String) (fields : Entries) :
    Except Error (Rule size) :=
  match unknownKeys fields with
  | [] => names.compile context source fields
  | unknown => do throw (.defect (.unknownKeys context (← sortedKeys unknown)))

/-- The rules of a context, those of included contexts in place of the entries that include them.
    `trail` names the contexts around it; as no name comes twice in it, one step of depth per
    context is enough. -/
def Names.rules (names : Names size) :
    (depth : Nat) → (trail : List Key) → Key → Value → Except Error (List (Rule size))
  | 0, trail, name, _ => .error (.cycle .includeCycle (trail ++ [name]))
  | depth + 1, trail, name, value =>
    if trail.any name.same then .error (.cycle .includeCycle (trail ++ [name]))
    else do
      gather (fun entry =>
        match Entry.ofValue entry with
        | .including target =>
          match Entries.text? names.contexts target with
          | some value => names.rules depth (trail ++ [name]) (.text target) value
          | none => .error (.defect (.unknownContext target))
        | .metaScope => .ok []
        | .rule source fields => do return [← names.rule name.plain source fields]
        | .unsupported => .error (.defect (.unsupportedRule name.plain entry)))
        (← entriesOf value)

def metaScopeOf (context : String) : List Value → Except Error (Option String)
  | [] => .ok none
  | entry :: rest =>
    match entry.get? "meta_scope" with
    | some (.text scope) => .ok (some scope)
    | some _ => .error (.defect (.metaScopeNotText context))
    | none => metaScopeOf context rest

def Names.context (names : Names size) (name : Key) (value : Value) :
    Except Error (Context size) :=
  match value with
  | .list entries => do
    let metaScope ← metaScopeOf name.plain entries
    let rules ← names.rules (names.contexts.length + 1) [] name value
    return { name, rules, metaScope }
  | _ => .error (.defect (.contextNotAList name.plain))

end

def forEach {α β ε : Type} (f : α → Except ε β) :
    (items : List α) → Except ε { results : List β // results.length = items.length }
  | [] => .ok ⟨[], rfl⟩
  | item :: rest => do
    let result ← f item
    let ⟨results, sized⟩ ← forEach f rest
    return ⟨result :: results, by simp [sized]⟩

def textField (payload : Entries) (name absent : String) : String :=
  match Entries.text? payload name with
  | some value => value.plain
  | none => absent

def indexIn (keys : List Key) (key : Key) : Option (Fin keys.length) :=
  keys.findFinIdx? (·.same key)

section

variable (dialect : Pattern.Dialect)

def ofContexts (payload contexts : Entries) (values : Values) (keys : List Key)
    (aligned : contexts.length = keys.length) (main : Fin keys.length) :
    Except Error Grammar := do
  let names : Names keys.length := { contexts, index := indexIn keys, values, dialect }
  let ⟨compiled, sized⟩ ← forEach (fun (name, value) => names.context name value) contexts
  return {
    name := textField payload "name" "grammar"
    scope := textField payload "scope" "source"
    size := keys.length
    contexts := compiled
    sized := sized.trans aligned
    main }

def ofEntries (payload : Entries) : Except Error Grammar := do
  let some (.table contexts) := Entries.text? payload "contexts"
    | throw (.defect .noMainContext)
  let some main := indexIn (Entries.keys contexts) (.text "main")
    | throw (.defect .noMainContext)
  let values ← variablesOf payload
  ofContexts dialect payload contexts values (Entries.keys contexts) (List.length_map ..).symm main

def ofValue : Value → Except Error Grammar
  | .table payload => ofEntries dialect payload
  | _ => .error (.misuse .noMember)

end

end BookHighlight.Grammar
