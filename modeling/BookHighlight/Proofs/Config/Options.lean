import BookHighlight.Config.Reading

namespace BookHighlight.Config

open Data

def concluded {α : Type} (fault : Option Error) (a : α) : Except Error α :=
  match fault with
  | some e => .error e
  | none => .ok a

def Yields {α : Type} (x : Reader α) (fault : Option Error) (a : α) : Prop :=
  ∀ log, ∃ warnings : List LogLine, (∀ line ∈ warnings, line.level = .warning) ∧
    x.run log = match fault with
      | some e => .error e (log ++ warnings)
      | none => .ok a (log ++ warnings)

section

variable {α β : Type} {x : Reader α} {fault : Option Error} {a : α}

theorem Yields.run (h : Yields x fault a) : ∃ warnings : List LogLine,
    (∀ line ∈ warnings, line.level = .warning) ∧ run x = (concluded fault a, warnings) := by
  obtain ⟨warnings, warn, ran⟩ := h []
  refine ⟨warnings, warn, ?_⟩
  rw [Config.run, ran]
  cases fault <;> rfl

theorem yields_pure (a : α) : Yields (pure a) none a :=
  fun log => ⟨[], by simp, by rw [List.append_nil]; rfl⟩

theorem yields_throw (e : Error) (a : α) : Yields (throw e) (some e) a :=
  fun log => ⟨[], by simp, by rw [List.append_nil]; rfl⟩

theorem yields_warn (message : String) : Yields (warn message) none () :=
  fun log => ⟨[.warning .configuration message], by simp [LogLine.warning], rfl⟩

theorem Yields.bind {f : α → Reader β} {later : Option Error} {b : β} (first : Yields x fault a)
    (next : Yields (f a) later b) : Yields (x >>= f) (fault <|> later) b := by
  intro log
  obtain ⟨warnings, warn, ran⟩ := first log
  rw [EStateM.run_bind, ran]
  cases fault with
  | some e => exact ⟨warnings, warn, rfl⟩
  | none =>
    obtain ⟨more, warnMore, ranMore⟩ := next (log ++ warnings)
    refine ⟨warnings ++ more, List.forall_mem_append.mpr ⟨warn, warnMore⟩, ?_⟩
    dsimp only
    rw [ranMore, List.append_assoc]
    rfl

theorem Yields.bind_pure (h : Yields x fault a) (f : α → β) :
    Yields (x >>= fun a => pure (f a)) fault (f a) := by
  have both : Yields (x >>= fun a => pure (f a)) (fault <|> none) (f a) :=
    h.bind (yields_pure (f a))
  cases fault <;> exact both

theorem yields_forM_warn (text : String → String) (keys : List String) :
    Yields (keys.forM fun key => warn (text key)) none () := by
  induction keys with
  | nil => exact yields_pure ()
  | cons key keys ih => exact (yields_warn (text key)).bind ih

end

section

variable (key : String)

def textFault? : Value → Option Error
  | .text _ => none
  | value => some (.defect (.notText key value))

def switchFault? : Value → Option Error
  | .bool _ => none
  | value => some (.defect (.notBoolean key value))

def nameFault? : Value → Option Error
  | .text s => if Text.isBlankText s.toList then some (.defect (.emptyText key (.text s))) else none
  | value => some (.defect (.emptyText key value))

def numberFault? : Value → Option Error
  | .float x => if x.isPositive then none else some (.defect (.notPositive key (.float x)))
  | .int n =>
    if 0 < n then if (Binary64.ofInt? n).isSome then none else some .timeoutTooLarge
    else some (.defect (.notPositive key (.int n)))
  | value => some (.defect (.notPositive key value))

def countFault? : Value → Option Error
  | .int n => if 0 < n then none else some (.defect (.notPositiveInteger key (.int n)))
  | value => some (.defect (.notPositiveInteger key value))

end

def textOr (absent : String) : Option Value → String
  | some (.text s) => s
  | _ => absent

def switchOr (absent : Bool) : Option Value → Bool
  | some (.bool b) => b
  | _ => absent

def numberOr (absent : Binary64) : Option Value → Binary64
  | some (.float x) => x
  | some (.int n) => (Binary64.ofInt? n).getD absent
  | _ => absent

def countOr (absent : Nat) : Option Value → Nat
  | some (.int n) => n.toNat
  | _ => absent

section

variable (entries : Entries) (key : String)

theorem yields_string (absent : String) :
    Yields (string entries key absent) ((Entries.text? entries key).bind (textFault? key))
      (textOr absent (Entries.text? entries key)) := by
  unfold string
  cases Entries.text? entries key with
  | none => exact yields_pure absent
  | some value => cases value <;> first | exact yields_pure _ | exact yields_throw _ _

theorem yields_boolean (absent : Bool) :
    Yields (boolean entries key absent) ((Entries.text? entries key).bind (switchFault? key))
      (switchOr absent (Entries.text? entries key)) := by
  unfold boolean
  cases Entries.text? entries key with
  | none => exact yields_pure absent
  | some value => cases value <;> first | exact yields_pure _ | exact yields_throw _ _

theorem yields_filledString (absent : String) :
    Yields (filledString entries key absent) ((Entries.text? entries key).bind (nameFault? key))
      (textOr absent (Entries.text? entries key)) := by
  unfold filledString
  cases Entries.text? entries key with
  | none => exact yields_pure absent
  | some value =>
    cases value with
    | text s =>
      dsimp only [Option.bind_some, nameFault?]
      split
      · exact yields_throw _ _
      · exact yields_pure _
    | _ => exact yields_throw _ _

theorem yields_positiveNumber (absent : Binary64) :
    Yields (positiveNumber entries key absent)
      ((Entries.text? entries key).bind (numberFault? key))
      (numberOr absent (Entries.text? entries key)) := by
  unfold positiveNumber
  cases Entries.text? entries key with
  | none => exact yields_pure absent
  | some value =>
    cases value with
    | float x =>
      dsimp only [Option.bind_some, numberFault?]
      split
      · exact yields_pure _
      · exact yields_throw _ _
    | int n =>
      dsimp only [Option.bind_some, numberFault?, numberOr]
      split
      · cases Binary64.ofInt? n with
        | some x => exact yields_pure x
        | none => exact yields_throw _ _
      · exact yields_throw _ _
    | _ => exact yields_throw _ _

theorem yields_positiveInteger (absent : Nat) :
    Yields (positiveInteger entries key absent)
      ((Entries.text? entries key).bind (countFault? key))
      (countOr absent (Entries.text? entries key)) := by
  unfold positiveInteger
  cases Entries.text? entries key with
  | none => exact yields_pure absent
  | some value =>
    cases value with
    | int n =>
      dsimp only [Option.bind_some, countFault?]
      split
      · exact yields_pure _
      · exact yields_throw _ _
    | _ => exact yields_throw _ _

end

def renamed (entries : Entries) : Entries :=
  match Entries.text? entries "highlight_without_lang" with
  | none => entries
  | some value =>
    let entries := if Entries.has entries "typst_default" then entries
      else Entries.put entries (.text "typst_default") value
    Entries.erase entries "highlight_without_lang"

theorem yields_renameFormer (entries : Entries) :
    Yields (renameFormer entries) none (renamed entries) := by
  unfold renameFormer renamed
  cases Entries.text? entries "highlight_without_lang" with
  | none => exact yields_pure entries
  | some value => exact (yields_warn _).bind (yields_pure _)

def faultAt (entries : Entries) (key : String) (fault? : String → Value → Option Error) :
    Option Error := (Entries.text? entries key).bind (fault? key)

def firstFault? (entries : Entries) : Option Error :=
  faultAt entries "prelude" textFault? <|>
  faultAt entries "disable_inline" switchFault? <|>
  faultAt entries "typst_default" switchFault? <|>
  faultAt entries "render" switchFault? <|>
  faultAt entries "theme" nameFault? <|>
  faultAt entries "typst_binary" nameFault? <|>
  faultAt entries "timeout" numberFault? <|>
  faultAt entries "jobs" countFault?

def chosen (processors : Option Nat) (entries : Entries) : Config :=
  let standard := Config.standard processors
  let at? := Entries.text? entries
  { prelude := textOr standard.prelude (at? "prelude")
    disableInline := switchOr standard.disableInline (at? "disable_inline")
    typstDefault := switchOr standard.typstDefault (at? "typst_default")
    render := switchOr standard.render (at? "render")
    theme := textOr standard.theme (at? "theme")
    typstBinary := textOr standard.typstBinary (at? "typst_binary")
    timeout := numberOr standard.timeout (at? "timeout")
    jobs := countOr standard.jobs (at? "jobs") }

theorem yields_ofEntries (processors : Option Nat) (entries : Entries) :
    Yields (ofEntries processors entries) (firstFault? (renamed entries))
      (chosen processors (renamed entries)) := by
  have last : firstFault? (renamed entries) = (none <|> none <|> firstFault? (renamed entries)) :=
    rfl
  rw [last]
  refine (yields_renameFormer entries).bind ((yields_forM_warn _ _).bind ?_)
  refine (yields_string _ _ _).bind ((yields_boolean _ _ _).bind ?_)
  refine (yields_boolean _ _ _).bind ((yields_boolean _ _ _).bind ?_)
  refine (yields_filledString _ _ _).bind ((yields_filledString _ _ _).bind ?_)
  exact (yields_positiveNumber _ _ _).bind ((yields_positiveInteger _ _ _).bind_pure _)

def tableOf : Option Value → Entries
  | some (.table entries) => entries
  | _ => []

def tableFault? (place : String) : Option Value → Option Error
  | none | some .null | some (.table _) => none
  | some value => some (.defect (.notATable place value))

theorem yields_tableAt (place : String) (value : Option Value) :
    Yields (tableAt place value) (tableFault? place value) (tableOf value) := by
  cases value with
  | none => exact yields_pure []
  | some value => cases value <;> first | exact yields_pure _ | exact yields_throw _ _

section

variable (context : Entries)

def bookTable? : Option Value := Entries.text? context "config"

def preprocessorTable? : Option Value :=
  Entries.text? (tableOf (bookTable? context)) "preprocessor"

def optionTable? : Option Value :=
  Entries.text? (tableOf (preprocessorTable? context)) preprocessorName

def options : Entries := renamed (tableOf (optionTable? context))

def contextFault? : Option Error :=
  tableFault? "context.config" (bookTable? context) <|>
  tableFault? "preprocessor" (preprocessorTable? context) <|>
  tableFault? ("preprocessor." ++ preprocessorName) (optionTable? context) <|>
  firstFault? (options context)

theorem yields_ofContext (processors : Option Nat) :
    Yields (ofContext processors (.table context)) (contextFault? context)
      (chosen processors (options context)) := by
  refine (yields_tableAt _ _).bind ((yields_tableAt _ _).bind ((yields_tableAt _ _).bind ?_))
  exact yields_ofEntries processors _

end

def Ordinary (e : Error) : Prop := (∃ defect, e = .defect defect) ∨ e = .timeoutTooLarge

theorem ordinary_defect (defect : Defect) : Ordinary (.defect defect) := .inl ⟨defect, rfl⟩

theorem ordinary_orElse {first later : Option Error} (h : ∀ e ∈ first, Ordinary e)
    (next : ∀ e ∈ later, Ordinary e) : ∀ e ∈ (first <|> later), Ordinary e := by
  cases first with
  | none => exact next
  | some e => exact h

theorem ordinary_faultAt {fault? : String → Value → Option Error}
    (h : ∀ key v, ∀ e ∈ fault? key v, Ordinary e) (entries : Entries) (key : String) :
    ∀ e ∈ faultAt entries key fault?, Ordinary e := by
  intro e found
  obtain ⟨v, _, fault⟩ := Option.bind_eq_some_iff.mp found
  exact h key v e fault

theorem ordinary_textFault (key : String) (v : Value) : ∀ e ∈ textFault? key v, Ordinary e := by
  cases v <;> simp [textFault?, ordinary_defect]

theorem ordinary_switchFault (key : String) (v : Value) :
    ∀ e ∈ switchFault? key v, Ordinary e := by
  cases v <;> simp [switchFault?, ordinary_defect]

theorem ordinary_nameFault (key : String) (v : Value) : ∀ e ∈ nameFault? key v, Ordinary e := by
  cases v <;> simp [nameFault?, ordinary_defect]

theorem ordinary_numberFault (key : String) (v : Value) :
    ∀ e ∈ numberFault? key v, Ordinary e := by
  cases v with
  | int n =>
    dsimp only [numberFault?]
    split
    · split
      · exact nofun
      · rintro _ ⟨⟩
        exact .inr rfl
    · simp [ordinary_defect]
  | _ => simp [numberFault?, ordinary_defect]

theorem ordinary_countFault (key : String) (v : Value) : ∀ e ∈ countFault? key v, Ordinary e := by
  cases v <;> simp [countFault?, ordinary_defect]

theorem ordinary_tableFault (place : String) (v : Option Value) :
    ∀ e ∈ tableFault? place v, Ordinary e := by
  cases v with
  | none => simp [tableFault?]
  | some v => cases v <;> simp [tableFault?, ordinary_defect]

theorem ordinary_contextFault (context : Entries) : ∀ e ∈ contextFault? context, Ordinary e := by
  refine ordinary_orElse (ordinary_tableFault _ _) (ordinary_orElse (ordinary_tableFault _ _) ?_)
  refine ordinary_orElse (ordinary_tableFault _ _) ?_
  refine ordinary_orElse (ordinary_faultAt ordinary_textFault _ _) ?_
  iterate 3 refine ordinary_orElse (ordinary_faultAt ordinary_switchFault _ _) ?_
  iterate 2 refine ordinary_orElse (ordinary_faultAt ordinary_nameFault _ _) ?_
  exact ordinary_orElse (ordinary_faultAt ordinary_numberFault _ _)
    (ordinary_faultAt ordinary_countFault _ _)

end BookHighlight.Config
