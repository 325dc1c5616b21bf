import BookHighlight.Preprocessor
import BookHighlight.Theme.Bundled
import Mathlib.Control.Basic

namespace BookHighlight.Preprocessor

open Data

variable {α β : Type} {x : Run α} {f : α → Run β}

def final : EStateM.Result Failure State α → State
  | .ok _ s | .error _ s => s

def Keeps (x : Run α) : Prop := ∀ s, (final (x.run s)).book = s.book

def Succeeds (x : Run α) : Prop := ∀ s, ∃ a after, x.run s = .ok a after

def Spares (x : Run α) : Prop :=
  ∀ s failure after, x.run s = .error failure after → after.book = s.book

theorem Succeeds.spares (h : Succeeds x) : Spares x := by
  intro s failure after failed
  obtain ⟨a, other, succeeded⟩ := h s
  rw [succeeded] at failed
  cases failed

theorem Keeps.bind (first : Keeps x) (next : ∀ a, Keeps (f a)) : Keeps (x >>= f) := by
  intro s
  have kept := first s
  rw [EStateM.run_bind]
  cases result : x.run s with
  | ok a between =>
    rw [result] at kept
    exact (next a between).trans kept
  | error failure after =>
    rw [result] at kept
    exact kept

/-- What follows a run that leaves the book alone may write to it only if it does not fail. -/
theorem Keeps.bind_spares (first : Keeps x) (next : ∀ a, Spares (f a)) : Spares (x >>= f) := by
  intro s failure after failed
  have kept := first s
  rw [EStateM.run_bind] at failed
  cases result : x.run s with
  | ok a between =>
    rw [result] at kept failed
    exact (next a between failure after failed).trans kept
  | error failure' after' =>
    rw [result] at kept failed
    cases failed
    exact kept

theorem Spares.bind_succeeds (first : Spares x) (next : ∀ a, Succeeds (f a)) :
    Spares (x >>= f) := by
  intro s failure after failed
  rw [EStateM.run_bind] at failed
  cases result : x.run s with
  | ok a between =>
    obtain ⟨b, later, succeeded⟩ := next a between
    rw [result] at failed
    dsimp only at failed
    rw [succeeded] at failed
    cases failed
  | error failure' after' =>
    rw [result] at failed
    cases failed
    exact first s _ _ result

theorem keeps_record (lines : List LogLine) : Keeps (record lines) := fun _ => rfl

theorem keeps_attempt (result : Except Misuse α) : Keeps (attempt result) := by
  intro s
  cases result <;> rfl

theorem keeps_configure (reader : Config.Reader α) : Keeps (configure reader) := by
  unfold configure
  obtain ⟨result, log⟩ := Config.run reader
  refine (keeps_record log).bind fun _ s => ?_
  cases result <;> rfl

theorem keeps_process (t : Transformer) (constructs : List Markdown.Construct) :
    Keeps (process t constructs) := by
  intro s
  unfold process
  rw [EStateM.run_bind, EStateM.run_get]
  dsimp only
  obtain ⟨result, workshop⟩ := t.processOrStop s.workshop constructs
  cases result <;> rfl

theorem succeeds_fill (pages : List Page) (outcomes : List Outcome) :
    Succeeds (fill pages outcomes) := by
  induction pages generalizing outcomes with
  | nil => exact fun s => ⟨_, _, rfl⟩
  | cons page rest ih =>
    intro s
    unfold fill
    split
    · exact ih outcomes s
    · obtain ⟨here, later⟩ := outcomes.splitAt page.constructs.length
      let written : State := {
        s with
        log := s.log ++ failureLog page.label page.content here
        book := page.chapter.setContent (splice page.content (editsOf here)) s.book }
      obtain ⟨report, after, filled⟩ := ih later written
      refine ⟨here.map (page.label, ·) ++ report, after, ?_⟩
      change (fill rest later >>= fun report =>
        pure (here.map (page.label, ·) ++ report) : Run Report).run written = _
      rw [EStateM.run_bind, filled]
      rfl

/-- Everything that can fail comes before the first change. -/
theorem spares_transformBook (t : Transformer) : Spares (transformBook t) := by
  have reads : Keeps (get : Run State) := fun _ => rfl
  refine reads.bind_spares fun s => (keeps_attempt (pages s.book)).bind_spares fun pages => ?_
  exact (keeps_process t _).bind_spares fun outcomes => (succeeds_fill pages outcomes).spares

/-- A run that fails, at whatever step, has not changed the book. -/
theorem failed_run_keeps_book (themes : Theme.Library) (compiler : Compiler)
    (reader : Config.Reader Config) (s : State) {failure : Failure} {after : State}
    (h : (runWith themes compiler reader).run s = .error failure after) : after.book = s.book := by
  have spares : Spares (runWith themes compiler reader) := by
    refine (keeps_configure reader).bind_spares fun config => ?_
    cases Transformer.ofConfig themes compiler config with
    | error e => exact fun _ _ _ failed => by cases failed; rfl
    | ok t =>
      exact (spares_transformBook t).bind_succeeds fun report s => ⟨_, _, rfl⟩
  exact spares s failure after h

set_option maxRecDepth 10000 in
theorem failed_run_keeps_book_interrupted :
    let chapter := fun content : String =>
      Value.table [(.text "Chapter", .table [(.text "content", .text content)])]
    let book := Value.table [(.text "items", .list [chapter "```typ\n#a\n```\n",
      .text "Separator", chapter "- ```typst\n  #b\n  ```\n"])]
    let context := Value.table [(.text "config", .table [(.text "preprocessor", .table [
      (.text "typst-highlight", .table [(.text "render", .bool true)])])])]
    let compiler : Compiler := {
      found := true
      respond := fun _ earlier document =>
        if earlier.isEmpty then .exited 0 [] (.file (document.map fun c => c.toNat.toUInt8))
        else .interrupted }
    let themes := Theme.Library.withPalettes []
    ∃ failure after,
      (runWith themes compiler (Config.ofContext (some 2) context)).run (start book) =
        .error failure after ∧ after.workshop.started = 2 ∧ after.book = book := by
  intro chapter book context compiler themes
  have read : (Config.ofContext (some 2) context).run [] =
      .ok { jobs := 2, render := true } [] := by
    have known : Config.unknownKeys [(.text "render", .bool true)] = [] := List.mergeSort_nil
    change Config.ofEntries (some 2) [(.text "render", .bool true)] [] = _
    unfold Config.ofEntries
    change (pure _ >>= _ : Config.Reader Config) [] = _
    rw [pure_bind, known]
    rfl
  have configured : (configure (Config.ofContext (some 2) context)).run (start book) =
      .ok { jobs := 2, render := true } (start book) := by
    rw [configure, Config.run, read]
    rfl
  let document := fun source : String => standardPrelude.toList ++ source.toList
  let left : State := ⟨book, [],
    ⟨⟨⟨[], true⟩, ⟨[1, 0], [1]⟩⟩, 2, [document "#b\n", document "#a\n"]⟩⟩
  have failed : (runWith themes compiler (Config.ofContext (some 2) context)).run (start book) =
      .error (.interrupted ⟨.interrupt, 0⟩) left := by
    unfold runWith
    rw [EStateM.run_bind, configured]
    unfold left document compiler book chapter
    rfl
  exact ⟨_, left, failed, rfl, failed_run_keeps_book themes compiler _ (start book) failed⟩

end BookHighlight.Preprocessor
