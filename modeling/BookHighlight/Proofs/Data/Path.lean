import BookHighlight.Data.Path

namespace BookHighlight.Data

def Diverge (p q : List Step) : Prop := ¬ p <+: q ∧ ¬ q <+: p

namespace Diverge

variable {p q : List Step} {a b : Step}

theorem symm (h : Diverge p q) : Diverge q p := ⟨h.2, h.1⟩

theorem append (h : Diverge p q) (x y : List Step) : Diverge (p ++ x) (q ++ y) := by
  have apart : ∀ {p q : List Step}, Diverge p q → ∀ x y, ¬ p ++ x <+: q ++ y := by
    intro p q h x y meets
    have left : p <+: q ++ y := (List.prefix_append p x).trans meets
    rcases List.prefix_or_prefix_of_prefix left (List.prefix_append q y) with within | within
    · exact h.1 within
    · exact h.2 within
  exact ⟨apart h x y, apart h.symm y x⟩

theorem of_ne (differ : a ≠ b) (p x y : List Step) : Diverge (p ++ a :: x) (p ++ b :: y) := by
  constructor
  · rw [List.prefix_append_right_inj, List.cons_prefix_cons]
    exact fun same => differ same.1
  · rw [List.prefix_append_right_inj, List.cons_prefix_cons]
    exact fun same => differ same.1.symm

theorem ne_nil (h : Diverge p q) : p ≠ [] := by
  rintro rfl
  exact h.1 List.nil_prefix

theorem of_cons (h : Diverge (a :: p) (a :: q)) : Diverge p q :=
  ⟨fun within => h.1 (List.cons_prefix_cons.mpr ⟨rfl, within⟩),
    fun within => h.2 (List.cons_prefix_cons.mpr ⟨rfl, within⟩)⟩

end Diverge

theorem Key.eq_text_of_same {key : Key} {name : String} (h : key.same (.text name) = true) :
    key = .text name := by
  cases key with
  | text s => exact congrArg Key.text (beq_iff_eq.mp h)
  | null => cases h
  | bool b => cases h
  | int n => cases h
  | float x => cases h

namespace Entries

def modify (f : Value → Value) (entries : Entries) (name : String) : Entries :=
  entries.map fun (key, value) => (key, if key.same (.text name) then f value else value)

theorem text?_cons (entry : Key × Value) (rest : Entries) (name : String) :
    text? (entry :: rest) name =
      if entry.1.same (.text name) then some entry.2 else text? rest name := by
  unfold text? get?
  rw [List.find?_cons]
  split <;> simp_all

theorem text?_modify (f : Value → Value) (entries : Entries) (name : String) :
    text? (modify f entries name) name = (text? entries name).map f := by
  induction entries with
  | nil => rfl
  | cons entry rest ih =>
    change text? (_ :: modify f rest name) name = _
    rw [text?_cons, text?_cons]
    by_cases here : entry.1.same (.text name) = true
    · simp [here]
    · simp [here, ih]

theorem text?_modify_of_ne {name other : String} (differ : other ≠ name) (f : Value → Value)
    (entries : Entries) : text? (modify f entries name) other = text? entries other := by
  induction entries with
  | nil => rfl
  | cons entry rest ih =>
    change text? (_ :: modify f rest name) other = _
    rw [text?_cons, text?_cons, ih]
    by_cases here : entry.1.same (.text other) = true
    · have elsewhere : entry.1.same (.text name) = false := by
        rw [Key.eq_text_of_same here]
        exact beq_eq_false_iff_ne.mpr differ
      simp [elsewhere]
    · simp [here]

end Entries

namespace Value

theorem modifyAt_entry (f : Value → Value) (name : String) (p : List Step) (entries : Entries) :
    modifyAt f (.entry name :: p) (.table entries) =
      .table (Entries.modify (modifyAt f p) entries name) := rfl

theorem at?_append (p q : List Step) (v : Value) : at? (p ++ q) v = (at? p v).bind (at? q) := by
  induction p generalizing v with
  | nil => rfl
  | cons step p ih =>
    cases step with
    | entry name =>
      simp only [List.cons_append, at?]
      rw [Option.bind_assoc]
      exact congrArg _ (funext ih)
    | item index =>
      cases v with
      | list items =>
        simp only [List.cons_append, at?]
        rw [Option.bind_assoc]
        exact congrArg _ (funext ih)
      | _ => rfl

theorem at?_modifyAt (f : Value → Value) (p : List Step) (v : Value) :
    at? p (modifyAt f p v) = (at? p v).map f := by
  induction p generalizing v with
  | nil => rfl
  | cons step p ih =>
    cases step with
    | entry name =>
      cases v with
      | table entries =>
        have found := Entries.text?_modify (modifyAt f p) entries name
        rw [modifyAt_entry, at?, get?, found, Option.bind_map, at?, get?, Option.map_bind]
        exact congrArg _ (funext ih)
      | _ => rfl
    | item index =>
      cases v with
      | list items =>
        rw [modifyAt, at?, List.getElem?_modify_eq, Option.map_eq_map, Option.bind_map, at?,
          Option.map_bind]
        exact congrArg _ (funext ih)
      | _ => rfl

theorem at?_modifyAt_of_diverge {p q : List Step} (apart : Diverge p q) (f : Value → Value)
    (v : Value) : at? q (modifyAt f p v) = at? q v := by
  induction p generalizing q v with
  | nil => exact absurd rfl apart.ne_nil
  | cons step p ih =>
    cases q with
    | nil => exact absurd rfl apart.symm.ne_nil
    | cons other q =>
      cases step with
      | entry name =>
        cases v with
        | table entries =>
          cases other with
          | item => rfl
          | entry other =>
            rw [modifyAt_entry, at?, get?, at?, get?]
            by_cases same : other = name
            · subst same
              rw [Entries.text?_modify, Option.bind_map]
              exact congrArg _ (funext fun v => ih apart.of_cons v)
            · rw [Entries.text?_modify_of_ne same]
        | _ => rfl
      | item index =>
        cases v with
        | list items =>
          cases other with
          | entry => rfl
          | item other =>
            rw [modifyAt, at?, at?]
            by_cases same : index = other
            · subst same
              rw [List.getElem?_modify_eq, Option.map_eq_map, Option.bind_map]
              exact congrArg _ (funext fun v => ih apart.of_cons v)
            · rw [List.getElem?_modify_ne _ _ same]
        | _ => rfl

end Value

/-- Two values that are the same but for what stands at some places. Tables agree in the order of
    their keys, lists in their length. -/
inductive AlikeBut : (places : List Step → Prop) → Value → Value → Prop where
  | same {places v} : AlikeBut places v v
  | place {places v w} : places [] → AlikeBut places v w
  | list {places} {vs ws : List Value} : vs.length = ws.length →
      (∀ i v w, vs[i]? = some v → ws[i]? = some w →
        AlikeBut (fun path => places (.item i :: path)) v w) →
      AlikeBut places (.list vs) (.list ws)
  | table {places} {vs ws : Entries} : vs.map (·.1) = ws.map (·.1) →
      (∀ (i : Nat) (k : Key) v w, vs[i]? = some (k, v) → ws[i]? = some (k, w) →
        AlikeBut (fun path => ∃ name, k = .text name ∧ places (.entry name :: path)) v w) →
      AlikeBut places (.table vs) (.table ws)

namespace AlikeBut

variable {places others : List Step → Prop} {u v w : Value}

theorem mono (h : AlikeBut places v w) (more : ∀ path, places path → others path) :
    AlikeBut others v w := by
  induction h generalizing others with
  | same => exact .same
  | place here => exact .place (more [] here)
  | list length _ ih =>
    exact .list length fun i v w left right => ih i v w left right fun _ => more _
  | table keys _ ih =>
    refine .table keys fun i k v w left right => ih i k v w left right ?_
    rintro path ⟨name, key, within⟩
    exact ⟨name, key, more _ within⟩

theorem trans (first : AlikeBut places u v) (second : AlikeBut places v w) :
    AlikeBut places u w := by
  induction first generalizing w with
  | same => exact second
  | place here => exact .place here
  | @list places us vs length alike ih =>
    cases second with
    | same => exact .list length alike
    | place here => exact .place here
    | @list _ _ ws length' alike' =>
      refine .list (length.trans length') fun i u w left right => ?_
      have inside : i < vs.length := length ▸ (List.getElem?_eq_some_iff.mp left).1
      have middle := List.getElem?_eq_getElem inside
      exact ih i u vs[i] left middle (alike' i vs[i] w middle right)
  | @table places us vs keys alike ih =>
    cases second with
    | same => exact .table keys alike
    | place here => exact .place here
    | @table _ _ ws keys' alike' =>
      refine .table (keys.trans keys') fun i k u w left right => ?_
      have key : (vs.map (·.1))[i]? = some k := by
        rw [keys', List.getElem?_map, right]
        rfl
      rw [List.getElem?_map] at key
      obtain ⟨⟨k, v⟩, middle, rfl⟩ := Option.map_eq_some_iff.mp key
      exact ih i k u v left middle (alike' i k v w middle right)

theorem modifyAt (f : Value → Value) (p : List Step) (v : Value) :
    AlikeBut (· = p) v (Value.modifyAt f p v) := by
  induction p generalizing v with
  | nil => exact .place rfl
  | cons step p ih =>
    cases step with
    | entry name =>
      cases v with
      | table entries =>
        rw [Value.modifyAt_entry]
        refine .table (by simp [Entries.modify]) fun i k v w left right => ?_
        simp only [Entries.modify, List.getElem?_map, left, Option.map_some, Option.some.injEq,
          Prod.mk.injEq, true_and] at right
        subst right
        split
        · rename_i here
          exact (ih v).mono fun path same => ⟨name, Key.eq_text_of_same here, by rw [same]⟩
        · exact .same
      | _ => exact .same
    | item index =>
      cases v with
      | list items =>
        refine .list (by simp) fun i v w left right => ?_
        by_cases same : index = i
        · subst same
          rw [List.getElem?_modify_eq, left, Option.map_eq_map, Option.map_some] at right
          rw [← Option.some.inj right]
          exact (ih v).mono fun path same => by rw [same]
        · rw [List.getElem?_modify_ne _ _ same, left] at right
          rw [← Option.some.inj right]
          exact .same
      | _ => exact .same

end AlikeBut

end BookHighlight.Data
