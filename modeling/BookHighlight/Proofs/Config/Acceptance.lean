import BookHighlight.Proofs.Config.Options
import BookHighlight.Proofs.Data.Table
import BookHighlight.Proofs.Number.Reach

namespace BookHighlight.Config

open Data

inductive Form where
  | text
  | switch
  | name
  | duration
  | count
  deriving DecidableEq, Repr

namespace Form

inductive Admits : Form → Value → Prop where
  | text (s : String) : Admits .text (.text s)
  | switch (b : Bool) : Admits .switch (.bool b)
  | name {s : String} {c : Char} : c ∈ s.toList → Text.isBlank c = false → Admits .name (.text s)
  | whole {n : Int} : 0 < n → Admits .duration (.int n)
  | fraction {x : Binary64} : x.isPositive = true → Admits .duration (.float x)
  | count {n : Int} : 0 < n → Admits .count (.int n)

def words : Form → String
  | text => "a string"
  | switch => "a boolean"
  | name => "a non-empty string"
  | duration => "a positive number"
  | count => "a positive integer"

def complaint (form : Form) (key : String) (v : Value) : String :=
  "Incorrect argument at " ++ key ++ ": expected " ++ form.words ++ ", got " ++ v.shown

def fault? : Form → String → Value → Option Error
  | text => textFault?
  | switch => switchFault?
  | name => nameFault?
  | duration => numberFault?
  | count => countFault?

inductive Judges (form : Form) (key : String) (v : Value) : Option Error → Prop where
  | admitted : form.Admits v → Judges form key v none
  | refused {defect : Defect} : ¬ form.Admits v → defect.message = form.complaint key v →
      Judges form key v (some (.defect defect))

variable (key : String) (v : Value)

theorem judges_text : text.Judges key v (textFault? key v) := by
  cases v with
  | text s => exact .admitted (.text s)
  | _ => exact .refused (by rintro ⟨⟩) rfl

theorem judges_switch : switch.Judges key v (switchFault? key v) := by
  cases v with
  | bool b => exact .admitted (.switch b)
  | _ => exact .refused (by rintro ⟨⟩) rfl

theorem judges_name : name.Judges key v (nameFault? key v) := by
  cases v with
  | text s =>
    by_cases blank : Text.isBlankText s.toList = true
    · rw [nameFault?, if_pos blank]
      refine .refused (fun admits => ?_) rfl
      cases admits with
      | name member shows =>
        exact Bool.false_ne_true (shows.symm.trans (List.all_eq_true.mp blank _ member))
    · rw [nameFault?, if_neg blank]
      obtain ⟨c, member, shows⟩ := List.all_eq_false.mp (Bool.eq_false_iff.mpr blank)
      exact .admitted (.name member (Bool.eq_false_iff.mpr shows))
  | _ => exact .refused (by rintro ⟨⟩) rfl

theorem judges_duration (near : ∀ n, v = .int n → n < Binary64.reach) :
    duration.Judges key v (numberFault? key v) := by
  cases v with
  | int n =>
    by_cases positive : 0 < n
    · have isNear := Option.isSome_iff_exists.mpr (Binary64.exists_ofInt? positive (near n rfl))
      rw [numberFault?, if_pos positive, if_pos isNear]
      exact .admitted (.whole positive)
    · rw [numberFault?, if_neg positive]
      refine .refused (fun admits => ?_) rfl
      cases admits with
      | whole h => exact positive h
  | float x =>
    by_cases positive : x.isPositive = true
    · rw [numberFault?, if_pos positive]
      exact .admitted (.fraction positive)
    · rw [numberFault?, if_neg positive]
      refine .refused (fun admits => ?_) rfl
      cases admits with
      | fraction h => exact positive h
  | _ => exact .refused (by rintro ⟨⟩) rfl

theorem judges_count : count.Judges key v (countFault? key v) := by
  cases v with
  | int n =>
    by_cases positive : 0 < n
    · rw [countFault?, if_pos positive]
      exact .admitted (.count positive)
    · rw [countFault?, if_neg positive]
      refine .refused (fun admits => ?_) rfl
      cases admits with
      | count h => exact positive h
  | _ => exact .refused (by rintro ⟨⟩) rfl

theorem judges_fault (form : Form)
    (near : form = .duration → ∀ n, v = .int n → n < Binary64.reach) :
    form.Judges key v (form.fault? key v) := by
  cases form with
  | text => exact judges_text key v
  | switch => exact judges_switch key v
  | name => exact judges_name key v
  | duration => exact judges_duration key v (near rfl)
  | count => exact judges_count key v

end Form

def forms : List (String × Form) :=
  [("prelude", .text), ("disable_inline", .switch), ("typst_default", .switch),
    ("render", .switch), ("theme", .name), ("typst_binary", .name), ("timeout", .duration),
    ("jobs", .count)]

/-- The value given for an option. One of them has a former name, that counts where the present one
    is missing. -/
def given? (entries : Entries) (key : String) : Option Value :=
  if key = "typst_default" then
    Entries.text? entries key <|> Entries.text? entries "highlight_without_lang"
  else Entries.text? entries key

theorem text?_renamed {key : String} (own : key ≠ "highlight_without_lang") (entries : Entries) :
    Entries.text? (renamed entries) key = given? entries key := by
  unfold renamed given?
  cases former : Entries.text? entries "highlight_without_lang" with
  | none => simp
  | some value =>
    dsimp only
    rw [Entries.text?_erase_of_ne own]
    by_cases present : Entries.has entries "typst_default" = true
    · rw [if_pos present]
      split
      · rename_i here
        obtain ⟨given, found⟩ := Option.isSome_iff_exists.mp present
        rw [here, found]
        rfl
      · rfl
    · rw [if_neg present, Entries.text?_put]
      have missing : Entries.text? entries "typst_default" = none :=
        Option.not_isSome_iff_eq_none.mp present
      split
      · rename_i here
        rw [here, missing]
        rfl
      · rfl

theorem findSome?_cons_orElse {α β : Type} (f : α → Option β) (a : α) (rest : List α) :
    (a :: rest).findSome? f = (f a <|> rest.findSome? f) := by
  rw [List.findSome?_cons]
  cases f a <;> rfl

theorem firstFault?_renamed (entries : Entries) : firstFault? (renamed entries) =
    forms.findSome? fun option => (given? entries option.1).bind (option.2.fault? option.1) := by
  have last : ∀ fault : Option Error, (fault <|> none) = fault := by
    intro fault
    cases fault <;> rfl
  simp only [forms, findSome?_cons_orElse, List.findSome?_nil, last, firstFault?, faultAt,
    Form.fault?]
  repeat rw [text?_renamed (by decide)]

def outcome (processors : Option Nat) (entries : Entries) : Except Error Config :=
  (run (ofOptions processors (.table entries))).1

theorem outcome_eq (processors : Option Nat) (entries : Entries) : outcome processors entries =
    concluded (firstFault? (renamed entries)) (chosen processors (renamed entries)) := by
  have yields : Yields (ofOptions processors (.table entries)) (firstFault? (renamed entries))
      (chosen processors (renamed entries)) :=
    (yields_tableAt _ (some (.table entries))).bind (yields_ofEntries processors entries)
  obtain ⟨warnings, _, ran⟩ := yields.run
  rw [outcome, ran]

def Accepted (entries : Entries) : Prop :=
  ∀ option ∈ forms, ∀ v ∈ given? entries option.1, option.2.Admits v

/-- The first option, in the order of `forms`, that is given a value not of its form. -/
structure Offends (entries : Entries) (key : String) (form : Form) (v : Value) : Prop where
  given : given? entries key = some v
  stray : ¬ form.Admits v
  first : ∃ before after, forms = before ++ (key, form) :: after ∧
    ∀ option ∈ before, ∀ w ∈ given? entries option.1, option.2.Admits w

def Stands {α : Type} (means : Value → α → Prop) (standard : α) : Option Value → α → Prop
  | none, a => a = standard
  | some v, a => means v a

structure Follows (processors : Option Nat) (entries : Entries) (config : Config) : Prop where
  prelude : Stands (fun v s => v = .text s) (standard processors).prelude
    (given? entries "prelude") config.prelude
  disableInline : Stands (fun v b => v = .bool b) (standard processors).disableInline
    (given? entries "disable_inline") config.disableInline
  typstDefault : Stands (fun v b => v = .bool b) (standard processors).typstDefault
    (given? entries "typst_default") config.typstDefault
  render : Stands (fun v b => v = .bool b) (standard processors).render
    (given? entries "render") config.render
  theme : Stands (fun v s => v = .text s) (standard processors).theme
    (given? entries "theme") config.theme
  typstBinary : Stands (fun v s => v = .text s) (standard processors).typstBinary
    (given? entries "typst_binary") config.typstBinary
  /-- whole seconds become the nearest double -/
  timeout : Stands (fun v x => v = .float x ∨ ∃ n, v = .int n ∧ Binary64.ofInt? n = some x)
    (standard processors).timeout (given? entries "timeout") config.timeout
  jobs : Stands (fun v n => v = .int (n : Nat)) (standard processors).jobs
    (given? entries "jobs") config.jobs

section

variable {given : Option Value}

theorem stands_textOr (absent : String) (texts : ∀ v ∈ given, ∃ s, v = .text s) :
    Stands (fun v s => v = .text s) absent given (textOr absent given) := by
  cases given with
  | none => exact rfl
  | some v =>
    obtain ⟨s, rfl⟩ := texts v rfl
    exact rfl

theorem stands_switchOr (absent : Bool) (admitted : ∀ v ∈ given, Form.switch.Admits v) :
    Stands (fun v b => v = .bool b) absent given (switchOr absent given) := by
  cases given with
  | none => exact rfl
  | some v =>
    cases admitted v rfl with
    | switch b => exact rfl

theorem stands_countOr (absent : Nat) (admitted : ∀ v ∈ given, Form.count.Admits v) :
    Stands (fun v n => v = .int (n : Nat)) absent given (countOr absent given) := by
  cases given with
  | none => exact rfl
  | some v =>
    cases admitted v rfl with
    | count positive => exact congrArg Value.int (Int.toNat_of_nonneg (Int.le_of_lt positive)).symm

theorem stands_numberOr (absent : Binary64) (admitted : ∀ v ∈ given, Form.duration.Admits v)
    (near : ∀ n, given = some (.int n) → n < Binary64.reach) :
    Stands (fun v x => v = .float x ∨ ∃ n, v = .int n ∧ Binary64.ofInt? n = some x) absent given
      (numberOr absent given) := by
  cases given with
  | none => exact rfl
  | some v =>
    cases admitted v rfl with
    | fraction _ => exact .inl rfl
    | @whole n positive =>
      obtain ⟨x, found⟩ := Binary64.exists_ofInt? positive (near n rfl)
      exact .inr ⟨n, rfl, by rw [numberOr, found, Option.getD_some]⟩

end

section

variable {entries : Entries}
  (near : ∀ n, Entries.text? entries "timeout" = some (.int n) → n < Binary64.reach)

include near

theorem judges_given {option : String × Form} (listed : option ∈ forms) :
    ∀ v ∈ given? entries option.1, option.2.Judges option.1 v (option.2.fault? option.1 v) := by
  intro v given
  apply Form.judges_fault
  rintro duration n rfl
  have single : ∀ option ∈ forms, option.2 = .duration → option.1 = "timeout" := by decide
  rw [single option listed duration, given?, if_neg (by decide)] at given
  exact near n given

theorem bind_fault_eq_none {option : String × Form} (listed : option ∈ forms) :
    (given? entries option.1).bind (option.2.fault? option.1) = none ↔
      ∀ v ∈ given? entries option.1, option.2.Admits v := by
  have judges := judges_given near listed
  cases given : given? entries option.1 with
  | none => simp
  | some v =>
    have judged := judges v given
    rw [Option.bind_some]
    generalize option.2.fault? option.1 v = fault at judged ⊢
    cases judged with
    | admitted admits => simpa using admits
    | refused stray _ => simpa using stray

theorem firstFault?_eq_none_iff : firstFault? (renamed entries) = none ↔ Accepted entries := by
  rw [firstFault?_renamed, List.findSome?_eq_none_iff]
  exact forall₂_congr fun option listed => bind_fault_eq_none near listed

theorem offends_of_fault {e : Error} (fault : firstFault? (renamed entries) = some e) :
    ∃ key form v defect, Offends entries key form v ∧ e = .defect defect ∧
      defect.message = form.complaint key v := by
  rw [firstFault?_renamed, List.findSome?_eq_some_iff] at fault
  obtain ⟨before, ⟨key, form⟩, after, whole, found, earlier⟩ := fault
  have listed : ∀ option ∈ before ++ (key, form) :: after, option ∈ forms := by simp [whole]
  have first : ∀ option ∈ before, ∀ w ∈ given? entries option.1, option.2.Admits w :=
    fun option member => (bind_fault_eq_none near
      (listed option (List.mem_append_left _ member))).mp (earlier option member)
  obtain ⟨v, given, fault⟩ := Option.bind_eq_some_iff.mp found
  have judged := judges_given near (listed (key, form) (by simp)) v given
  rw [fault] at judged
  cases judged with
  | refused stray message =>
    exact ⟨key, form, v, _, ⟨given, stray, before, after, whole, first⟩, rfl, message⟩

theorem follows_chosen (processors : Option Nat) (accepted : Accepted entries) :
    Follows processors entries (chosen processors (renamed entries)) := by
  have texts : ∀ {key}, (key, Form.text) ∈ forms → ∀ v ∈ given? entries key, ∃ s, v = .text s := by
    intro key listed v given
    cases accepted _ listed v given with
    | text s => exact ⟨s, rfl⟩
  have names : ∀ {key}, (key, Form.name) ∈ forms → ∀ v ∈ given? entries key, ∃ s, v = .text s := by
    intro key listed v given
    cases accepted _ listed v given with
    | @name s _ _ _ => exact ⟨s, rfl⟩
  unfold chosen
  dsimp only
  repeat rw [text?_renamed (by decide)]
  constructor
  · exact stands_textOr _ (texts (by decide))
  · exact stands_switchOr _ (accepted ("disable_inline", .switch) (by decide))
  · exact stands_switchOr _ (accepted ("typst_default", .switch) (by decide))
  · exact stands_switchOr _ (accepted ("render", .switch) (by decide))
  · exact stands_textOr _ (names (by decide))
  · exact stands_textOr _ (names (by decide))
  · exact stands_numberOr _ (accepted ("timeout", .duration) (by decide)) near
  · exact stands_countOr _ (accepted ("jobs", .count) (by decide))

end

def heededKeys : List String := "highlight_without_lang" :: ownKeys

theorem outcome_congr {entries others : Entries}
    (same : ∀ key ∈ heededKeys, Entries.text? others key = Entries.text? entries key)
    (processors : Option Nat) : outcome processors others = outcome processors entries := by
  have given : ∀ key ∈ ownKeys, given? others key = given? entries key := by
    intro key own
    have here := same key (List.mem_cons_of_mem _ own)
    have former := same "highlight_without_lang" (List.mem_cons_self ..)
    rw [given?, given?, here, former]
  have renamed : ∀ key ∈ ownKeys,
      Entries.text? (renamed others) key = Entries.text? (renamed entries) key := by
    intro key own
    have present : key ≠ "highlight_without_lang" := by
      rintro rfl
      exact absurd own (by decide)
    rw [text?_renamed present, text?_renamed present, given key own]
  simp only [ownKeys, List.forall_mem_cons] at renamed
  rw [outcome_eq, outcome_eq]
  simp only [firstFault?, faultAt, chosen, renamed]

/-- Options are accepted just when each that is given has its form, and then make up the
    configuration together with the standard one; otherwise the first that has not is named. No
    other key has a part in it. -/
theorem outcome_of_options (processors : Option Nat) {entries : Entries}
    (near : ∀ n, Entries.text? entries "timeout" = some (.int n) → n < Binary64.reach) :
    ((∃ config, outcome processors entries = .ok config) ↔ Accepted entries) ∧
    (∀ config, outcome processors entries = .ok config → Follows processors entries config) ∧
    (¬ Accepted entries → ∃ key form v defect, Offends entries key form v ∧
      outcome processors entries = .error (.defect defect) ∧
      defect.message = form.complaint key v) ∧
    ∀ others, (∀ key ∈ heededKeys, Entries.text? others key = Entries.text? entries key) →
      outcome processors others = outcome processors entries := by
  have accepted := firstFault?_eq_none_iff near
  rw [outcome_eq]
  cases fault : firstFault? (renamed entries) with
  | none =>
    have accepts := accepted.mp fault
    refine ⟨iff_of_true ⟨_, rfl⟩ accepts, ?_, absurd accepts, fun others same => ?_⟩
    · rintro config ⟨⟩
      exact follows_chosen near processors accepts
    · rw [outcome_congr same, outcome_eq, fault]
  | some e =>
    have refuses : ¬ Accepted entries := by
      rw [← accepted, fault]
      exact nofun
    obtain ⟨key, form, v, defect, offends, rfl, message⟩ := offends_of_fault near fault
    refine ⟨iff_of_false (by rintro ⟨_, ⟨⟩⟩) refuses, nofun, fun _ => ?_, fun others same => ?_⟩
    · exact ⟨key, form, v, defect, offends, rfl, message⟩
    · rw [outcome_congr same, outcome_eq, fault]

theorem outcome_of_options_former :
    let entries : Entries := [(.text "jobs", .int 3), (.text "command", .list []),
      (.text "highlight_without_lang", .bool true), (.text "timeout", .int 60)]
    (∀ n, Entries.text? entries "timeout" = some (.int n) → n < Binary64.reach) ∧
      Accepted entries ∧ ∃ config, outcome none entries = .ok config ∧
        Follows none entries config ∧ config.typstDefault = true ∧ config.jobs = 3 := by
  intro entries
  have near : ∀ n, Entries.text? entries "timeout" = some (.int n) → n < Binary64.reach := by
    rintro n ⟨⟩
    decide +kernel
  have accepted : Accepted entries := by
    simp only [Accepted, forms, List.forall_mem_cons]
    refine ⟨nofun, nofun, ?_, nofun, nofun, nofun, ?_, ?_, nofun⟩
    · rintro v ⟨⟩
      exact .switch true
    · rintro v ⟨⟩
      exact .whole (by decide)
    · rintro v ⟨⟩
      exact .count (by decide)
  obtain ⟨accepts, follows, _⟩ := outcome_of_options none near
  obtain ⟨config, read⟩ := accepts.mpr accepted
  have made := follows config read
  have former : Value.bool true = .bool config.typstDefault := made.typstDefault
  have jobs : Value.int 3 = .int (config.jobs : Nat) := made.jobs
  exact ⟨near, accepted, config, read, made, (Value.bool.inj former).symm,
    Int.ofNat.inj (Value.int.inj jobs).symm⟩

end BookHighlight.Config
