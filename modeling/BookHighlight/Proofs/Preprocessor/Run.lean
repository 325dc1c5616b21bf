import BookHighlight.Proofs.Book.Walk
import BookHighlight.Proofs.Preprocessor.Failure
import BookHighlight.Proofs.Transform.Outcome

namespace BookHighlight

open Data

theorem mapM_fails_iff {α β ε : Type} {f : α → Except ε β} {xs : List α} :
    (∃ e, xs.mapM f = .error e) ↔ ∃ x ∈ xs, ∃ e, f x = .error e := by
  induction xs with
  | nil => simp [pure, Except.pure]
  | cons x rest ih =>
    simp only [List.mapM_cons, List.mem_cons, exists_eq_or_imp]
    rw [← ih]
    cases first : f x with
    | error e => simp [bind, Except.bind]
    | ok y => cases later : rest.mapM f <;> simp [bind, Except.bind, pure, Except.pure]

namespace Preprocessor

def readPage (entry : Book.Chapter × Nat) : Except Misuse Page :=
  entry.1.content.map fun content =>
    ⟨entry.1, entry.1.id entry.2, content, Markdown.constructs content⟩

theorem readPage_fails_iff {entry : Book.Chapter × Nat} :
    (∃ misuse, readPage entry = .error misuse) ↔
      ∃ v ∈ Entries.text? entry.1.fields "content", Book.Contentless v := by
  rw [← Book.Chapter.content_fails_iff]
  unfold readPage
  cases entry.1.content <;> simp [Except.map]

theorem pages_eq_mapM {book : Value} {cs : List Book.Chapter}
    (walked : Book.chapters book = .ok cs) : pages book = cs.zipIdx.mapM readPage := by
  rw [pages, walked]
  rfl

theorem pages_fails_iff {entries : Entries} : (∃ misuse, pages (.table entries) = .error misuse) ↔
    ∃ fields, Book.InBook (.table entries) fields ∧ Book.Amiss fields := by
  have unwalked := @Book.chapters_fails_iff entries
  cases walked : Book.chapters (.table entries) with
  | error misuse =>
    obtain ⟨fields, inBook, v, found, itemless⟩ := unwalked.mp ⟨misuse, walked⟩
    refine iff_of_true ⟨misuse, ?_⟩ ⟨fields, inBook, .items found itemless⟩
    rw [pages, walked]
    rfl
  | ok cs =>
    rw [pages_eq_mapM walked, mapM_fails_iff]
    constructor
    · rintro ⟨⟨c, position⟩, member, fails⟩
      obtain ⟨v, found, contentless⟩ := readPage_fails_iff.mp fails
      have inBook := (Book.chapters_fields_iff walked c.fields).mpr
        ⟨c, List.fst_mem_of_mem_zipIdx member, rfl⟩
      exact ⟨c.fields, inBook, .content found contentless⟩
    · rintro ⟨fields, inBook, amiss⟩
      -- the walk has not failed, so no chapter's `sub_items` are at fault
      cases amiss with
      | items found itemless =>
        obtain ⟨misuse, fails⟩ := unwalked.mpr ⟨fields, inBook, _, found, itemless⟩
        cases walked.symm.trans fails
      | content found contentless =>
        obtain ⟨c, member, rfl⟩ := (Book.chapters_fields_iff walked fields).mp inBook
        obtain ⟨index, bound, rfl⟩ := List.mem_iff_getElem.mp member
        refine ⟨(cs[index], index), ?_, readPage_fails_iff.mpr ⟨_, found, contentless⟩⟩
        exact List.mem_zipIdx_iff_getElem?.mpr (List.getElem?_eq_getElem bound)

theorem transformBook_misuse {t : Transformer} {s : State} {misuse : Misuse}
    (fails : pages s.book = .error misuse) :
    (transformBook t).run s = .error (.misuse misuse) s := by
  unfold transformBook
  rw [EStateM.run_bind, EStateM.run_get]
  dsimp only
  rw [fails]
  rfl

theorem transformBook_eq_fill {t : Transformer} {s : State} {ps : List Page}
    {outcomes : List Outcome} {workshop : Workshop} (read : pages s.book = .ok ps)
    (processed : t.processAll s.workshop (ps.flatMap (·.constructs)) = (.ok outcomes, workshop)) :
    (transformBook t).run s = (fill ps outcomes).run { s with workshop } := by
  have done : (process t (ps.flatMap (·.constructs))).run s =
      .ok outcomes { s with workshop } := by
    unfold process
    rw [EStateM.run_bind, EStateM.run_get]
    simp only [Transformer.processOrStop, processed]
    rfl
  unfold transformBook
  rw [EStateM.run_bind, EStateM.run_get]
  dsimp only
  rw [read]
  change (process t (ps.flatMap (·.constructs)) >>= fill ps).run s = _
  rw [EStateM.run_bind, done]

theorem transformBook_broken_off {t : Transformer} {s : State} {ps : List Page} {cause : Disruption}
    {workshop : Workshop} (read : pages s.book = .ok ps)
    (stops : t.processAll s.workshop (ps.flatMap (·.constructs)) = (.error cause, workshop)) :
    ∃ killed after, (transformBook t).run s = .error (.interrupted ⟨cause, killed⟩) after := by
  have fails : ∃ killed after, (process t (ps.flatMap (·.constructs))).run s =
      .error (.interrupted ⟨cause, killed⟩) after := by
    unfold process
    rw [EStateM.run_bind, EStateM.run_get]
    simp only [Transformer.processOrStop, stops]
    exact ⟨_, _, rfl⟩
  obtain ⟨killed, after, fails⟩ := fails
  refine ⟨killed, after, ?_⟩
  unfold transformBook
  rw [EStateM.run_bind, EStateM.run_get]
  dsimp only
  rw [read]
  change (process t (ps.flatMap (·.constructs)) >>= fill ps).run s = _
  rw [EStateM.run_bind, fails]

/-- Once the book is read, its transformation stops only where a compilation is broken off. -/
theorem transformBook_cases (t : Transformer) {s : State} {ps : List Page}
    (read : pages s.book = .ok ps) :
    (∃ report after, (transformBook t).run s = .ok report after) ∨
    ∃ cause killed after, (transformBook t).run s = .error (.interrupted ⟨cause, killed⟩) after ∧
      t.Stops cause s.workshop (ps.flatMap (·.constructs)) := by
  rcases t.processAll_cases s.workshop (ps.flatMap (·.constructs)) with
    ⟨outcomes, workshop, processed, _⟩ | ⟨cause, workshop, stopped, stops⟩
  · obtain ⟨report, after, filled⟩ := succeeds_fill ps outcomes { s with workshop }
    exact .inl ⟨report, after, (transformBook_eq_fill read processed).trans filled⟩
  · obtain ⟨killed, after, fails⟩ := transformBook_broken_off read stopped
    exact .inr ⟨cause, killed, after, fails, stops⟩

section

variable {themes : Theme.Library} {compiler : Compiler} {reader : Config.Reader Config}
  {warnings : List LogLine} {s : State}

theorem runWith_fault {e : Config.Error} (read : Config.run reader = (.error e, warnings)) :
    (runWith themes compiler reader).run s =
      .error (.configuration e) { s with log := s.log ++ warnings } := by
  unfold runWith configure
  rw [read]
  rfl

variable {config : Config} (read : Config.run reader = (.ok config, warnings))

include read

theorem configure_run :
    (configure reader).run s = .ok config { s with log := s.log ++ warnings } := by
  unfold configure
  rw [read]
  rfl

theorem runWith_without_theme {e : Config.Error}
    (unknown : Transformer.ofConfig themes compiler config = .error e) :
    (runWith themes compiler reader).run s =
      .error (.configuration e) { s with log := s.log ++ warnings } := by
  unfold runWith
  rw [EStateM.run_bind, configure_run read]
  dsimp only
  rw [unknown]
  rfl

variable {t : Transformer} (known : Transformer.ofConfig themes compiler config = .ok t)

include known

theorem runWith_failure {failure : Failure} {after : State}
    (fails : (transformBook t).run { s with log := s.log ++ warnings } = .error failure after) :
    (runWith themes compiler reader).run s = .error failure after := by
  unfold runWith
  rw [EStateM.run_bind, configure_run read]
  dsimp only
  rw [known]
  dsimp only
  rw [EStateM.run_bind, fails]

theorem runWith_success {report : Report} {after : State}
    (done : (transformBook t).run { s with log := s.log ++ warnings } = .ok report after) :
    ∃ summary, (runWith themes compiler reader).run s =
      .ok report { after with log := after.log ++ [summary] } := by
  unfold runWith
  rw [EStateM.run_bind, configure_run read]
  dsimp only
  rw [known]
  dsimp only
  rw [EStateM.run_bind, done]
  exact ⟨_, rfl⟩

end

theorem ofConfig_ok {themes : Theme.Library} (compiler : Compiler) {config : Config} {theme : Theme}
    (known : themes.load config.theme = .ok theme) :
    Transformer.ofConfig themes compiler config = .ok { config, theme, compiler } := by
  rw [Transformer.ofConfig, known]

theorem ofConfig_refused {themes : Theme.Library} (compiler : Compiler) {config : Config}
    {reason : Theme.Error} (unknown : themes.load config.theme = .error (.refused reason)) :
    Transformer.ofConfig themes compiler config = .error (.defect (.noTheme reason)) := by
  rw [Transformer.ofConfig, unknown]

theorem ofConfig_broken {themes : Theme.Library} (compiler : Compiler) {config : Config}
    (broken : themes.load config.theme = .error .broken) :
    Transformer.ofConfig themes compiler config = .error .brokenTheme := by
  rw [Transformer.ofConfig, broken]

end Preprocessor

end BookHighlight
