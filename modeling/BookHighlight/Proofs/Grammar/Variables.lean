import BookHighlight.Grammar.Variables
import BookHighlight.Proofs.Data.Table
import BookHighlight.Proofs.Grammar.Trail

namespace BookHighlight.Grammar

open Data Relation

def valueInside (definitions : Definitions) (depth : Nat) (trail : List Key) (inner : String) :
    StateT Values (Except Error) (List Char) :=
  match definitions.find? (·.1.same (.text inner)) with
  | some (_, written) => resolve definitions depth trail (.text inner) written
  | none => throw (.defect (.unknownVariable inner))

section

variable {definitions : Definitions} {depth : Nat} {trail : List Key} {name : Key}
  {written : Except Error String} {values : Values}

theorem resolve_known {value : List Char} (h : values.get? name = some value) :
    (resolve definitions (depth + 1) trail name written).run values = .ok (value, values) := by
  simp only [resolve, StateT.run_bind, StateT.run_get, pure_bind, h]
  rfl

theorem resolve_cycle (h : values.get? name = none) (within : trail.any name.same = true) :
    (resolve definitions (depth + 1) trail name written).run values =
      .error (.cycle .variableCycle (trail ++ [name])) := by
  simp only [resolve, StateT.run_bind, StateT.run_get, pure_bind, h, within, if_true]
  rfl

theorem resolve_new (h : values.get? name = none) (new : trail.any name.same = false)
    (text : String) :
    (resolve definitions (depth + 1) trail name (.ok text)).run values =
      (substitute (valueInside definitions depth (trail ++ [name])) text.toList).run values >>=
        fun result => .ok (result.1, result.2 ++ [(name, result.1)]) := by
  simp only [resolve, StateT.run_bind, StateT.run_get, pure_bind, h, new, Bool.false_eq_true,
    if_false]
  rfl

theorem resolve_unreadable (h : values.get? name = none) (new : trail.any name.same = false)
    (e : Error) : (resolve definitions (depth + 1) trail name (.error e)).run values =
      .error e := by
  simp only [resolve, StateT.run_bind, StateT.run_get, pure_bind, h, new, Bool.false_eq_true,
    if_false]
  rfl

/-- Depth beyond what the trail can use up changes nothing. -/
theorem resolve_deeper (more : Nat) (listed : name ∈ definitions.map (·.1))
    (told : name ∈ trail → trail.any name.same = true)
    (room : Room (definitions.map (·.1)) depth trail) :
    resolve definitions (depth + more) trail name written =
      resolve definitions depth trail name written := by
  induction depth generalizing trail name written with
  | zero => exact absurd rfl room.depth_ne_zero
  | succ depth ih =>
    rw [Nat.add_right_comm]
    refine StateT.ext fun values => ?_
    cases known : values.get? name with
    | some value => rw [resolve_known known, resolve_known known]
    | none =>
      cases new : trail.any name.same with
      | true => rw [resolve_cycle known new, resolve_cycle known new]
      | false =>
        cases written with
        | error e => rw [resolve_unreadable known new, resolve_unreadable known new]
        | ok text =>
          rw [resolve_new known new, resolve_new known new]
          have entered := room.enter listed fun again => by simp [told again] at new
          have inside : valueInside definitions (depth + more) (trail ++ [name]) =
              valueInside definitions depth (trail ++ [name]) := by
            funext inner
            unfold valueInside
            cases found : definitions.find? (·.1.same (.text inner)) with
            | none => rfl
            | some entry =>
              have same := List.find?_some found
              have key : entry.1 = .text inner := Key.eq_text_of_same same
              have listed := List.mem_map_of_mem (f := Prod.fst) (List.mem_of_find?_eq_some found)
              rw [key] at listed
              exact ih listed Key.any_same_text.mpr entered
          rw [inside]

theorem expandWithin_deeper (definitions : Definitions) (more : Nat) :
    expandWithin definitions (definitions.length + 1 + more) =
      expandWithin definitions (definitions.length + 1) := by
  have room : Room (definitions.map (·.1)) (definitions.length + 1) [] := .start _ definitions
  have each : ∀ rest, rest ⊆ definitions → ∀ values,
      rest.foldlM (findValue definitions (definitions.length + 1 + more)) values =
        rest.foldlM (findValue definitions (definitions.length + 1)) values := by
    intro rest
    induction rest with
    | nil => exact fun _ _ => rfl
    | cons first rest ih =>
      intro among values
      obtain ⟨listed, others⟩ := List.cons_subset.mp among
      have same : resolve definitions (definitions.length + 1 + more) [] first.1 first.2 =
          resolve definitions (definitions.length + 1) [] first.1 first.2 :=
        resolve_deeper more (List.mem_map_of_mem listed) (by simp) room
      rw [List.foldlM_cons, List.foldlM_cons]
      simp only [findValue, same]
      exact congrArg _ (funext (ih others))
  exact each definitions (List.Subset.refl _) []

theorem fill_char {value : String → StateT Values (Except Error) (List Char)} (c : Char)
    (rest : List Piece) : (fill value (.char c :: rest)).run values =
      (fill value rest).run values >>= fun result => .ok (c :: result.1, result.2) := rfl

theorem fill_variable {value : String → StateT Values (Except Error) (List Char)} (name : String)
    (rest : List Piece) : (fill value (.variable name :: rest)).run values =
      (value name).run values >>= fun first =>
        (fill value rest).run first.2 >>= fun later => .ok (first.1 ++ later.1, later.2) := rfl

end

section

variable (definitions : List (String × String))

def textTable : Value := .table (definitions.map fun (name, text) => (.text name, .text text))

def textDefinitions : Definitions := definitions.map fun (name, text) => (.text name, .ok text)

def Refers (name target : String) : Prop :=
  ∃ text, (name, text) ∈ definitions ∧ .variable target ∈ pieces text.toList

def Faulty : Prop :=
  ∃ name target, TransGen (Refers definitions) name target ∧
    (target = name ∨ target ∉ definitions.map (·.1))

/-- What pieces spell out: each variable stands for what the pieces of its own text do. -/
inductive Spells : List Piece → List Char → Prop where
  | nil : Spells [] []
  | char {c rest s} : Spells rest s → Spells (.char c :: rest) (c :: s)
  | reference {name text value rest s} : (name, text) ∈ definitions →
      Spells (pieces text.toList) value → Spells rest s →
      Spells (.variable name :: rest) (value ++ s)

def Sound (values : Values) : Prop :=
  ∀ entry ∈ values, ∃ name text, entry.1 = .text name ∧ (name, text) ∈ definitions ∧
    Spells definitions (pieces text.toList) entry.2

/-- What may come of pieces when some values are known: the text that they spell out and more
    values, or an error that tells of a fault. -/
def Replaces (values : Values) (ps : List Piece) : Except Error (List Char × Values) → Prop
  | .ok (s, later) => Spells definitions ps s ∧ Sound definitions later ∧ values <+: later
  | .error e => Faulty definitions ∧ ∃ defect, e = .defect defect

end

namespace Spells

variable {definitions : List (String × String)} {ps qs : List Piece} {s t : List Char}

theorem append (hp : Spells definitions ps s) (hq : Spells definitions qs t) :
    Spells definitions (ps ++ qs) (s ++ t) := by
  induction hp with
  | nil => exact hq
  | char _ ih => exact .char ih
  | reference listed own _ _ ih =>
    rw [List.append_assoc]
    exact .reference listed own ih

theorem single {name text : String} (listed : (name, text) ∈ definitions)
    (own : Spells definitions (pieces text.toList) s) : Spells definitions [.variable name] s := by
  rw [← List.append_nil s]
  exact .reference listed own .nil

theorem text_eq (distinct : (definitions.map (·.1)).Nodup) {name text other : String}
    (left : (name, text) ∈ definitions) (right : (name, other) ∈ definitions) : text = other :=
  congrArg Prod.snd (List.inj_on_of_nodup_map distinct left right rfl)

theorem unique (distinct : (definitions.map (·.1)).Nodup) (h : Spells definitions ps s)
    (other : Spells definitions ps t) : s = t := by
  induction h generalizing t with
  | nil => cases other; rfl
  | char _ ih =>
    cases other with
    | char rest => rw [ih rest]
  | reference listed _ _ ihOwn ihRest =>
    cases other with
    | reference listed' own rest =>
      rw [text_eq distinct listed listed'] at ihOwn
      rw [ihOwn own, ihRest rest]

theorem own (h : Spells definitions ps s) {name : String} (within : .variable name ∈ ps) :
    ∃ text value, (name, text) ∈ definitions ∧ Spells definitions (pieces text.toList) value := by
  induction h with
  | nil => cases within
  | char _ ih =>
    rcases List.mem_cons.mp within with same | later
    · cases same
    · exact ih later
  | reference listed own _ _ ih =>
    rcases List.mem_cons.mp within with same | later
    · cases same
      exact ⟨_, _, listed, own⟩
    · exact ih later

theorem acc (distinct : (definitions.map (·.1)).Nodup) (h : Spells definitions ps s) {name : String}
    (within : .variable name ∈ ps) :
    Acc (fun target name => Refers definitions name target) name := by
  induction h generalizing name with
  | nil => cases within
  | char _ ih =>
    rcases List.mem_cons.mp within with same | later
    · cases same
    · exact ih later
  | reference listed _ _ ihOwn ih =>
    rcases List.mem_cons.mp within with same | later
    · cases same
      refine ⟨_, fun target refers => ?_⟩
      obtain ⟨text, listed', inside⟩ := refers
      rw [text_eq distinct listed' listed] at inside
      exact ihOwn inside
    · exact ih later

end Spells

theorem not_faulty {definitions : List (String × String)}
    (distinct : (definitions.map (·.1)).Nodup)
    (h : ∀ name text, (name, text) ∈ definitions →
      ∃ value, Spells definitions (pieces text.toList) value) : ¬ Faulty definitions := by
  rintro ⟨name, target, leads, fault⟩
  have listed : target ∈ definitions.map (·.1) := by
    obtain ⟨last, _, text, member, inside⟩ := TransGen.tail'_iff.mp leads
    obtain ⟨value, spells⟩ := h last text member
    obtain ⟨own, _, found, _⟩ := spells.own inside
    exact List.mem_map_of_mem found
  rcases fault with rfl | missing
  · obtain ⟨⟨name, text⟩, member, rfl⟩ := List.mem_map.mp listed
    obtain ⟨value, spells⟩ := h name text member
    have settled := (Spells.single member spells).acc distinct (List.mem_singleton_self _)
    exact not_self_of_acc settled (transGen_swap.mp leads)
  · exact missing listed

theorem get?_append {values more : Values} {name : Key} :
    Values.get? (values ++ more) name = (values.get? name).or (Values.get? more name) := by
  unfold Values.get?
  rw [List.find?_append]
  cases values.find? (·.1.same name) <;> rfl

theorem Sound.get? {definitions : List (String × String)} {values : Values}
    (h : Sound definitions values) {name : String} {value : List Char}
    (found : values.get? (.text name) = some value) :
    Spells definitions [.variable name] value := by
  obtain ⟨entry, here, rfl⟩ := Option.map_eq_some_iff.mp found
  obtain ⟨own, text, key, listed, spells⟩ := h entry (List.mem_of_find?_eq_some here)
  have same := List.find?_some here
  rw [key, Key.same_text, beq_iff_eq] at same
  exact .single (same ▸ listed) spells

section

variable {definitions : List (String × String)} {values : Values}

theorem Replaces.bind {start : Values} {ps qs : List Piece}
    {x : Except Error (List Char × Values)}
    {next : List Char × Values → Except Error (List Char × Values)}
    (h : Replaces definitions values ps x)
    (each : ∀ s later, Spells definitions ps s → Sound definitions later → values <+: later →
      Replaces definitions start qs (next (s, later))) :
    Replaces definitions start qs (x >>= next) := by
  cases x with
  | error e => exact h
  | ok result => exact each result.1 result.2 h.1 h.2.1 h.2.2

/-- If each variable among them is replaced as it should be, so are the pieces. -/
theorem fill_replaces {value : String → StateT Values (Except Error) (List Char)} {ps : List Piece}
    (step : ∀ name, .variable name ∈ ps → ∀ values, Sound definitions values →
      Replaces definitions values [.variable name] ((value name).run values))
    (sound : Sound definitions values) :
    Replaces definitions values ps ((fill value ps).run values) := by
  induction ps generalizing values with
  | nil => exact ⟨.nil, sound, List.prefix_rfl⟩
  | cons piece rest ih =>
    have behind := fun values =>
      @ih values fun name member => step name (List.mem_cons_of_mem _ member)
    rcases piece with c | name
    · rw [fill_char]
      exact (behind values sound).bind fun s later spells sound kept => ⟨.char spells, sound, kept⟩
    · rw [fill_variable]
      refine (step name List.mem_cons_self values sound).bind fun first middle own sound kept => ?_
      exact (behind middle sound).bind fun s later spells sound kept' =>
        ⟨own.append spells, sound, kept.trans kept'⟩

theorem find?_listed (distinct : (definitions.map (·.1)).Nodup) {name text : String}
    (listed : (name, text) ∈ definitions) :
    (textDefinitions definitions).find? (·.1.same (.text name)) = some (.text name, .ok text) := by
  induction definitions with
  | nil => cases listed
  | cons first rest ih =>
    rw [List.map_cons, List.nodup_cons] at distinct
    change List.find? _ (_ :: textDefinitions rest) = _
    rw [List.find?_cons, Key.same_text]
    rcases List.mem_cons.mp listed with rfl | later
    · rw [beq_self_eq_true]
    · have other : first.1 ≠ name := fun same =>
        distinct.1 (same ▸ List.mem_map_of_mem (f := Prod.fst) later)
      rw [beq_eq_false_iff_ne.mpr other]
      exact ih distinct.2 later

theorem find?_missing {name : String} (missing : name ∉ definitions.map (·.1)) :
    (textDefinitions definitions).find? (·.1.same (.text name)) = none := by
  rw [List.find?_eq_none]
  intro entry member
  obtain ⟨⟨other, text⟩, listed, rfl⟩ := List.mem_map.mp member
  rw [Key.same_text, beq_iff_eq]
  rintro rfl
  exact missing (List.mem_map_of_mem listed)

theorem Sound.concat (sound : Sound definitions values) {name text : String} {value : List Char}
    (listed : (name, text) ∈ definitions) (spells : Spells definitions (pieces text.toList) value) :
    Sound definitions (values ++ [(.text name, value)]) := by
  intro entry member
  rcases List.mem_append.mp member with earlier | here
  · exact sound entry earlier
  · rw [List.mem_singleton.mp here]
    exact ⟨name, text, rfl, listed, spells⟩

theorem valueInside_replaces (distinct : (definitions.map (·.1)).Nodup) {depth : Nat}
    {trail : List Key} {name inner : String} (refers : Refers definitions name inner)
    (own : ∀ text, (inner, text) ∈ definitions → Replaces definitions values [.variable inner]
      ((resolve (textDefinitions definitions) depth trail (.text inner) (.ok text)).run values)) :
    Replaces definitions values [.variable inner]
      ((valueInside (textDefinitions definitions) depth trail inner).run values) := by
  unfold valueInside
  by_cases known : inner ∈ definitions.map (·.1)
  · obtain ⟨⟨inner, text⟩, member, rfl⟩ := List.mem_map.mp known
    rw [find?_listed distinct member]
    exact own text member
  · rw [find?_missing known]
    exact ⟨⟨name, inner, .single refers, .inr known⟩, _, rfl⟩

theorem resolve_replaces (distinct : (definitions.map (·.1)).Nodup) {depth : Nat}
    {trail : List String} {name text : String} (listed : (name, text) ∈ definitions)
    (leads : ∀ outer ∈ trail, TransGen (Refers definitions) outer name)
    (room : Room (definitions.map (·.1)) depth trail) (sound : Sound definitions values) :
    Replaces definitions values [.variable name]
      ((resolve (textDefinitions definitions) depth (trail.map .text) (.text name) (.ok text)).run
        values) := by
  induction depth generalizing trail name text values with
  | zero => exact absurd rfl room.depth_ne_zero
  | succ depth ih =>
    have extended : trail.map Key.text ++ [.text name] = (trail ++ [name]).map .text := by simp
    cases known : values.get? (.text name) with
    | some value =>
      -- known values come before the trail, and are sound whatever the trail is
      rw [resolve_known known]
      exact ⟨sound.get? known, sound, List.prefix_rfl⟩
    | none =>
      by_cases cycle : name ∈ trail
      · rw [resolve_cycle known (Key.any_same_texts.mpr cycle), extended, cycle_texts]
        exact ⟨⟨name, name, leads name cycle, .inl rfl⟩, _, rfl⟩
      · have new : (trail.map Key.text).any (Key.text name).same = false := by
          rwa [← Bool.not_eq_true, Key.any_same_texts]
        have entered := room.enter (List.mem_map_of_mem listed) cycle
        have inside : ∀ inner, .variable inner ∈ pieces text.toList → ∀ values,
            Sound definitions values → Replaces definitions values [.variable inner]
              ((valueInside (textDefinitions definitions) depth ((trail ++ [name]).map .text)
                inner).run values) := by
          intro inner occurs values sound
          have refers : Refers definitions name inner := ⟨text, listed, occurs⟩
          exact valueInside_replaces distinct refers fun own member =>
            ih member (leads_concat leads refers) entered sound
        rw [resolve_new known new, extended]
        exact (fill_replaces inside sound).bind fun value later spells sound kept =>
          ⟨.single listed spells, sound.concat listed spells, kept.trans (List.prefix_append _ _)⟩

theorem resolve_keeps {depth : Nat} {trail : List Key} {name text : String}
    {result : List Char × Values}
    (h : (resolve (textDefinitions definitions) depth trail (.text name) (.ok text)).run values =
      .ok result) : (result.2.get? (.text name)).isSome = true := by
  cases depth with
  | zero => cases h
  | succ depth =>
    cases known : values.get? (.text name) with
    | some value =>
      rw [resolve_known known] at h
      cases h
      rw [known]
      rfl
    | none =>
      cases new : trail.any (Key.text name).same with
      | true =>
        rw [resolve_cycle known new] at h
        cases h
      | false =>
        rw [resolve_new known new] at h
        obtain ⟨⟨value, later⟩, _, ⟨⟩⟩ := bind_eq_ok.mp h
        rw [get?_append, Option.isSome_or]
        simp [Values.get?]

def Expands (definitions rest : List (String × String)) (values : Values) :
    Except Error Values → Prop
  | .ok later => Sound definitions later ∧ values <+: later ∧
    ∀ name text, (name, text) ∈ rest → (later.get? (.text name)).isSome = true
  | .error e => Faulty definitions ∧ ∃ defect, e = .defect defect

theorem findValue_expands (distinct : (definitions.map (·.1)).Nodup) {name text : String}
    (listed : (name, text) ∈ definitions) (sound : Sound definitions values) :
    Expands definitions [(name, text)] values
      (findValue (textDefinitions definitions) (definitions.length + 1) values
        (.text name, .ok text)) := by
  have replaces : Replaces definitions values [.variable name]
      ((resolve (textDefinitions definitions) (definitions.length + 1) [] (.text name)
        (.ok text)).run values) :=
    resolve_replaces distinct listed (by simp) (.start _ definitions) sound
  change Expands _ _ _ (Except.map _ _)
  cases done : (resolve (textDefinitions definitions) (definitions.length + 1) [] (.text name)
      (.ok text)).run values with
  | error e =>
    rw [done] at replaces
    exact replaces
  | ok result =>
    rw [done] at replaces
    refine ⟨replaces.2.1, replaces.2.2, fun other own member => ?_⟩
    cases List.mem_singleton.mp member
    exact resolve_keeps done

theorem Expands.bind {first : String × String} {rest : List (String × String)}
    {x : Except Error Values} {next : Values → Except Error Values}
    (h : Expands definitions [first] values x)
    (each : ∀ later, Sound definitions later → Expands definitions rest later (next later)) :
    Expands definitions (first :: rest) values (x >>= next) := by
  cases x with
  | error e => exact h
  | ok middle =>
    obtain ⟨sound, kept, known⟩ := h
    have behind := each middle sound
    change Expands _ _ _ (next middle)
    cases done : next middle with
    | error e =>
      rw [done] at behind
      exact behind
    | ok later =>
      rw [done] at behind
      obtain ⟨sound, ⟨more, rfl⟩, others⟩ := behind
      refine ⟨sound, kept.trans (List.prefix_append _ _), fun name text member => ?_⟩
      rcases List.mem_cons.mp member with same | behind
      · rw [get?_append, Option.isSome_or, known name text (List.mem_singleton.mpr same)]
        rfl
      · exact others name text behind

theorem foldlM_expands (distinct : (definitions.map (·.1)).Nodup)
    {rest : List (String × String)} (among : rest ⊆ definitions)
    (sound : Sound definitions values) :
    Expands definitions rest values ((textDefinitions rest).foldlM
      (findValue (textDefinitions definitions) (definitions.length + 1)) values) := by
  induction rest generalizing values with
  | nil => exact ⟨sound, List.prefix_rfl, by simp⟩
  | cons first rest ih =>
    obtain ⟨listed, others⟩ := List.cons_subset.mp among
    change Expands _ _ _ (List.foldlM _ _ (_ :: textDefinitions rest))
    rw [List.foldlM_cons]
    exact (findValue_expands distinct listed sound).bind fun later sound => ih others sound

theorem Spells.subset {others : List (String × String)} {ps : List Piece} {s : List Char}
    (h : Spells definitions ps s) (among : definitions ⊆ others) : Spells others ps s := by
  induction h with
  | nil => exact .nil
  | char _ ih => exact .char ih
  | reference listed _ _ ihOwn ih => exact .reference (among listed) ihOwn ih

theorem Faulty.perm {others : List (String × String)} (h : Faulty definitions)
    (same : definitions.Perm others) : Faulty others := by
  obtain ⟨name, target, leads, fault⟩ := h
  have refers : ∀ name target, Refers definitions name target → Refers others name target :=
    fun _ _ ⟨text, listed, occurs⟩ => ⟨text, same.mem_iff.mp listed, occurs⟩
  exact ⟨name, target, TransGen.mono refers _ _ leads, fault.imp_right
    fun missing listed => missing ((same.map _).mem_iff.mpr listed)⟩

theorem definitionsOf_textTable :
    definitionsOf (textTable definitions) = .ok (textDefinitions definitions) := by
  simp [definitionsOf, textTable, textDefinitions, Value.plain]

theorem expandVariables_textTable : expandVariables (textTable definitions) =
    expandWithin (textDefinitions definitions) (definitions.length + 1) := by
  unfold expandVariables
  rw [definitionsOf_textTable]
  change expandWithin _ ((textDefinitions definitions).length + 1) = _
  rw [textDefinitions, List.length_map]

/-- The values that plain recursion gives: there is one for each variable, it is what the text of
    the variable spells out, and there are no others. -/
structure Plain (definitions : List (String × String)) (values : Values) : Prop where
  value : ∀ name text, (name, text) ∈ definitions → ∃ value,
    values.get? (.text name) = some value ∧
      ∀ s, Spells definitions (pieces text.toList) s ↔ s = value
  only : ∀ key, (values.get? key).isSome = true → ∃ name ∈ definitions.map (·.1), key = .text name

theorem Sound.plain (distinct : (definitions.map (·.1)).Nodup) (sound : Sound definitions values)
    (known : ∀ name text, (name, text) ∈ definitions →
      (values.get? (.text name)).isSome = true) : Plain definitions values where
  value name text listed := by
    obtain ⟨value, found⟩ := Option.isSome_iff_exists.mp (known name text listed)
    have spells : Spells definitions (pieces text.toList) value := by
      cases sound.get? found with
      | reference listed' own rest =>
        cases rest
        rwa [Spells.text_eq distinct listed listed', List.append_nil]
    exact ⟨value, found, fun s =>
      ⟨fun other => other.unique distinct spells, fun same => same ▸ spells⟩⟩
  only key found := by
    obtain ⟨value, found⟩ := Option.isSome_iff_exists.mp found
    obtain ⟨entry, here, _⟩ := Option.map_eq_some_iff.mp found
    obtain ⟨name, text, own, listed, _⟩ := sound entry (List.mem_of_find?_eq_some here)
    have same := List.find?_some here
    rw [own] at same
    cases key with
    | text other =>
      rw [Key.same_text, beq_iff_eq] at same
      exact ⟨name, List.mem_map_of_mem listed, by rw [same]⟩
    | _ => cases same

theorem expandVariables_cases (distinct : (definitions.map (·.1)).Nodup) :
    (Faulty definitions ∧ ∃ defect,
      expandVariables (textTable definitions) = .error (.defect defect)) ∨
    ¬ Faulty definitions ∧ ∃ values,
      expandVariables (textTable definitions) = .ok values ∧ Plain definitions values := by
  have outcome : Expands definitions definitions [] (expandVariables (textTable definitions)) := by
    rw [expandVariables_textTable]
    exact foldlM_expands distinct (List.Subset.refl _) (by simp [Sound])
  cases done : expandVariables (textTable definitions) with
  | error e =>
    rw [done] at outcome
    obtain ⟨faulty, defect, rfl⟩ := outcome
    exact .inl ⟨faulty, defect, rfl⟩
  | ok values =>
    rw [done] at outcome
    have plain := outcome.1.plain distinct outcome.2.2
    refine .inr ⟨not_faulty distinct fun name text listed => ?_, values, rfl, plain⟩
    obtain ⟨value, _, spells⟩ := plain.value name text listed
    exact ⟨value, (spells value).mpr rfl⟩

theorem Plain.get?_eq_some {others : List (String × String)} {left right : Values}
    (hl : Plain definitions left) (hr : Plain others right) (same : definitions.Perm others)
    {key : Key} {value : List Char} (found : left.get? key = some value) :
    right.get? key = some value := by
  obtain ⟨name, listed, rfl⟩ := hl.only key (by rw [found]; rfl)
  obtain ⟨⟨name, text⟩, member, rfl⟩ := List.mem_map.mp listed
  obtain ⟨own, here, spells⟩ := hl.value name text member
  obtain ⟨other, there, unique⟩ := hr.value name text (same.mem_iff.mp member)
  have equal : own = other := (unique own).mp (((spells own).mpr rfl).subset same.subset)
  rw [there, ← equal, ← here, found]

/-- Whatever the order of the names, and whatever is known when one is met again, variables are
    replaced as by plain recursion. An error tells that one of them leads to itself or to a name
    that is not there, and without such a variable there is no error. The depth never runs out. -/
theorem variables_by_recursion (definitions : List (String × String))
    (distinct : (definitions.map (·.1)).Nodup) :
    (Faulty definitions → ∃ defect,
      expandVariables (textTable definitions) = .error (.defect defect)) ∧
    (¬ Faulty definitions → ∃ values,
      expandVariables (textTable definitions) = .ok values ∧ Plain definitions values) ∧
    (∀ others, definitions.Perm others →
      (∃ defect defect', expandVariables (textTable definitions) = .error (.defect defect) ∧
        expandVariables (textTable others) = .error (.defect defect')) ∨
      ∃ values values', expandVariables (textTable definitions) = .ok values ∧
        expandVariables (textTable others) = .ok values' ∧
          ∀ key, values.get? key = values'.get? key) ∧
    ∀ more, expandWithin (textDefinitions definitions) (definitions.length + 1 + more) =
      expandWithin (textDefinitions definitions) (definitions.length + 1) := by
  refine ⟨fun faulty => ?_, fun sound => ?_, fun others same => ?_, fun more => ?_⟩
  · rcases expandVariables_cases distinct with ⟨_, stops⟩ | ⟨sound, _⟩
    · exact stops
    · exact absurd faulty sound
  · rcases expandVariables_cases distinct with ⟨faulty, _⟩ | ⟨_, expands⟩
    · exact absurd faulty sound
    · exact expands
  · have distinct' : (others.map (·.1)).Nodup := (same.map _).nodup_iff.mp distinct
    rcases expandVariables_cases distinct with ⟨faulty, defect, stops⟩ | ⟨sound, values, ok, plain⟩
    · rcases expandVariables_cases distinct' with ⟨_, defect', stops'⟩ | ⟨sound', _⟩
      · exact .inl ⟨defect, defect', stops, stops'⟩
      · exact absurd (faulty.perm same) sound'
    · rcases expandVariables_cases distinct' with ⟨faulty', _⟩ | ⟨_, values', ok', plain'⟩
      · exact absurd (faulty'.perm same.symm) sound
      · refine .inr ⟨values, values', ok, ok', fun key => Option.ext fun value => ?_⟩
        exact ⟨plain.get?_eq_some plain' same, plain'.get?_eq_some plain same.symm⟩
  · have deeper := expandWithin_deeper (textDefinitions definitions) more
    rwa [textDefinitions, List.length_map] at deeper

def sharing : List (String × String) := [("a", "{{b}}{{c}}"), ("b", "{{c}}x"), ("c", "y")]

theorem variables_by_recursion_sharing : (sharing.map (·.1)).Nodup ∧
    ∃ values, expandVariables (textTable sharing) = .ok values ∧ Plain sharing values ∧
      values.get? (.text "a") = some ['y', 'x', 'y'] := by
  have distinct : (sharing.map (·.1)).Nodup := by decide
  have c : Spells sharing (pieces "y".toList) ['y'] := .char .nil
  have b : Spells sharing (pieces "{{c}}x".toList) ['y', 'x'] :=
    .reference (by decide) c (.char .nil)
  have a : Spells sharing (pieces "{{b}}{{c}}".toList) ['y', 'x', 'y'] :=
    .reference (by decide) b (.reference (by decide) c .nil)
  have sound : ¬ Faulty sharing := by
    refine not_faulty distinct fun name text listed => ?_
    simp only [sharing, List.mem_cons, Prod.mk.injEq, List.not_mem_nil, or_false] at listed
    rcases listed with ⟨rfl, rfl⟩ | ⟨rfl, rfl⟩ | ⟨rfl, rfl⟩
    · exact ⟨_, a⟩
    · exact ⟨_, b⟩
    · exact ⟨_, c⟩
  obtain ⟨values, ok, plain⟩ := (variables_by_recursion sharing distinct).2.1 sound
  obtain ⟨value, found, spells⟩ := plain.value "a" "{{b}}{{c}}" (by decide)
  exact ⟨distinct, values, ok, plain, by rw [found, (spells _).mp a]⟩

end

end BookHighlight.Grammar
