import BookHighlight.Grammar.Reading
import BookHighlight.Proofs.Data.Table

namespace BookHighlight.Grammar

open Data

inductive Told : Option Value → Option String → Prop where
  | absent : Told none none
  | null : Told (some .null) none
  | text (s : String) : Told (some (.text s)) (some s)

section

variable {size : Nat}

def Targets (called : Fin size → Key) (field : Option Value) (target : Option (Fin size)) : Prop :=
  ∃ name, Told field name ∧ target.map called = name.map .text

structure Compiles (dialect : Pattern.Dialect) (values : Values) (called : Fin size → Key)
    (source : String) (fields : Entries) (rule : Rule size) : Prop where
  keys : ∀ key ∈ Entries.keys fields, ruleKeys.any key.same = true
  source : substitute (fun name => values.get? (.text name)) source.toList =
    some rule.source.toList
  pattern : dialect rule.source.toList = .pattern rule.pattern
  scope : Told (Entries.text? fields "scope") rule.scope
  push : Targets called (Entries.text? fields "push") rule.push
  set : Targets called (Entries.text? fields "set") rule.set
  pop : rule.pop = (Entries.text? fields "pop").any Value.isTruthy

def Names.Agrees (names : Names size) (called : Fin size → Key) : Prop :=
  ∀ name i, names.index (.text name) = some i ↔ called i = .text name

theorem unknownKeys_eq_nil {fields : Entries} :
    unknownKeys fields = [] ↔ ∀ key ∈ Entries.keys fields, ruleKeys.any key.same = true := by
  simp [unknownKeys, List.filter_eq_nil_iff]

theorem scopeOf_eq_ok {context : String} {field : Option Value} {scope : Option String} :
    scopeOf context field = .ok scope ↔ Told field scope := by
  constructor
  · unfold scopeOf
    split <;> rintro ⟨⟩ <;> constructor
  · rintro (_ | _ | _) <;> rfl

theorem target_eq_ok {names : Names size} {called : Fin size → Key} (agrees : names.Agrees called)
    {context : String} {field : Option Value} {target : Option (Fin size)} :
    names.target context field = .ok target ↔ Targets called field target := by
  constructor
  · unfold Names.target
    split
    · rintro ⟨⟩
      exact ⟨none, .absent, rfl⟩
    · rintro ⟨⟩
      exact ⟨none, .null, rfl⟩
    · split
      · rintro ⟨⟩
        rename_i name _ i found
        exact ⟨name, .text name, congrArg some ((agrees name i).mp found)⟩
      · rintro ⟨⟩
    · rintro ⟨⟩
  · rintro ⟨name, told, named⟩
    cases told with
    | absent | null =>
      rw [Option.map_none, Option.map_eq_none_iff] at named
      rw [named]
      rfl
    | text name =>
      obtain ⟨i, rfl, called⟩ := Option.map_eq_some_iff.mp named
      simp only [Names.target, (agrees name i).mpr called]

theorem variable_eq_ok {names : Names size} {context name : String} {value : List Char} :
    names.variable context name = .ok value ↔ names.values.get? (.text name) = some value := by
  unfold Names.variable
  cases names.values.get? (.text name) <;> simp

theorem fill_eq_ok {value : String → Except Error (List Char)} {known : String → Option (List Char)}
    (same : ∀ name s, value name = .ok s ↔ known name = some s) {ps : List Piece} {s : List Char} :
    fill value ps = .ok s ↔ fill known ps = some s := by
  induction ps generalizing s with
  | nil => exact ⟨fun | rfl => rfl, fun | rfl => rfl⟩
  | cons piece rest ih =>
    cases piece with
    | char c =>
      simp only [fill, bind_eq_ok, Option.bind_eq_bind, Option.bind_eq_some_iff, ih]
      exact exists_congr fun _ => and_congr_right fun _ => ⟨fun | rfl => rfl, fun | rfl => rfl⟩
    | «variable» name =>
      simp only [fill, bind_eq_ok, Option.bind_eq_bind, Option.bind_eq_some_iff, ih, same]
      exact exists_congr fun _ => and_congr_right fun _ => exists_congr fun _ =>
        and_congr_right fun _ => ⟨fun | rfl => rfl, fun | rfl => rfl⟩

theorem compile_eq_ok {names : Names size} {called : Fin size → Key} (agrees : names.Agrees called)
    {context source : String} {fields : Entries} {rule : Rule size}
    (known : unknownKeys fields = []) :
    names.compile context source fields = .ok rule ↔
      Compiles names.dialect names.values called source fields rule := by
  have filled : ∀ text, substitute (names.variable context) source.toList = .ok text ↔
      substitute (fun name => names.values.get? (.text name)) source.toList = some text :=
    fun _ => fill_eq_ok fun _ _ => variable_eq_ok
  unfold Names.compile
  rw [bind_eq_ok]
  constructor
  · rintro ⟨text, substituted, read⟩
    cases parsed : names.dialect text with
    | invalid | broken =>
      rw [parsed] at read
      cases read
    | pattern pattern =>
      rw [parsed] at read
      simp only [bind_eq_ok] at read
      obtain ⟨scope, given, push, pushed, set, follows, ⟨⟩⟩ := read
      exact {
        keys := unknownKeys_eq_nil.mp known
        source := by
          rw [String.toList_ofList]
          exact (filled text).mp substituted
        pattern := by rwa [String.toList_ofList]
        scope := scopeOf_eq_ok.mp given
        push := (target_eq_ok agrees).mp pushed
        set := (target_eq_ok agrees).mp follows
        pop := rfl }
  · intro compiles
    refine ⟨rule.source.toList, (filled _).mpr compiles.source, ?_⟩
    rw [compiles.pattern]
    simp only [bind_eq_ok]
    refine ⟨_, scopeOf_eq_ok.mpr compiles.scope, _, (target_eq_ok agrees).mpr compiles.push, _,
      (target_eq_ok agrees).mpr compiles.set, ?_⟩
    rw [String.ofList_toList, ← compiles.pop]
    rfl

theorem rule_eq_ok {names : Names size} {called : Fin size → Key} (agrees : names.Agrees called)
    {context source : String} {fields : Entries} {rule : Rule size} :
    names.rule context source fields = .ok rule ↔
      Compiles names.dialect names.values called source fields rule := by
  unfold Names.rule
  split
  · exact compile_eq_ok agrees ‹_›
  · constructor
    · cases sortedKeys (unknownKeys fields) <;> rintro ⟨⟩
    · exact fun compiles => absurd (unknownKeys_eq_nil.mpr compiles.keys) ‹_›

end

end BookHighlight.Grammar
