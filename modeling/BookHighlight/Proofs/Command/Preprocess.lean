import BookHighlight.Command.Run
import BookHighlight.Proofs.Config.Options
import BookHighlight.Proofs.Preprocessor.Run
import BookHighlight.Proofs.Text.Utf8

namespace BookHighlight

open Data

namespace Book

variable {loads : Loader} {payload : Payload}

theorem readInput_of_broken (broken : loads payload = .error .broken) :
    readInput loads payload = .error .broken := by
  rw [readInput, broken]

theorem readInput_cases (loads : Loader) (payload : Payload) :
    loads payload = .error .broken ∨
      (∃ e, e ≠ .broken ∧ readInput loads payload = .error e) ∨
      ∃ context book, readInput loads payload = .ok (.table context, .table book) := by
  unfold readInput
  split
  · exact .inr (.inr ⟨_, _, rfl⟩)
  · exact .inr (.inl ⟨.notAPair, nofun, rfl⟩)
  · exact .inr (.inl ⟨.notJson _, nofun, rfl⟩)
  · rename_i broken
    exact .inl broken

theorem readInput_toUtf8 {text : List Char} {context book : Entries}
    (detected : Text.detectEncoding (Text.toUtf8 text) = .utf8 false)
    (read : Json.readAll text = .ok (.list [.table context, .table book])) :
    readInput load (.bytes (Text.toUtf8 text)) = .ok (.table context, .table book) := by
  have loaded : load (.bytes (Text.toUtf8 text)) = .ok (.list [.table context, .table book]) := by
    unfold load
    dsimp only
    rw [Text.decode?_toUtf8 detected]
    dsimp only
    rw [read]
    rfl
  rw [readInput, loaded]

end Book

namespace Command

open Config (contextFault? chosen options)
open Preprocessor (pages start transformBook)

section

variable (around : Surroundings)

/-- The input is read and its options are good: the transformation of its book begins. -/
inductive Begins : Transformer → Preprocessor.State → Prop where
  | intro {context book warnings theme} :
      Book.readInput around.loads (.bytes around.input) = .ok (.table context, .table book) →
      contextFault? context = none →
      Config.run (Config.ofContext around.processors (.table context)) =
        (.ok (chosen around.processors (options context)), warnings) →
      around.themes.load (chosen around.processors (options context)).theme = .ok theme →
      Begins
        { config := chosen around.processors (options context)
          theme
          compiler := around.compiler }
        { start (.table book) with log := warnings }

def Delivers : Prop :=
  ∃ t s report after diagnostics, Begins around t s ∧
    (transformBook t).run s = .ok report after ∧
    run around .preprocess = .ok (.success (Json.write after.book) diagnostics)

/-- Nothing is written out, and after warnings at most one error is logged. -/
def Refuses : Prop :=
  ∃ warnings message, (∀ line ∈ warnings, line.level = .warning) ∧
    run around .preprocess = .ok (.reported around.severity warnings message)

inductive Unforeseen : Prop where
  /-- reading the input breaks down -/
  | input : around.loads (.bytes around.input) = .error .broken → Unforeseen
  /-- the first fault of the options is a number of seconds beyond the largest double -/
  | timeout {context book} :
      Book.readInput around.loads (.bytes around.input) = .ok (.table context, .table book) →
      contextFault? context = some .timeoutTooLarge → Unforeseen
  /-- looking for the theme breaks down -/
  | theme {context book} :
      Book.readInput around.loads (.bytes around.input) = .ok (.table context, .table book) →
      contextFault? context = none →
      around.themes.load (chosen around.processors (options context)).theme = .error .broken →
      Unforeseen
  /-- the fields of a chapter are amiss -/
  | chapter {t s fields} : Begins around t s → Book.InBook s.book fields → Book.Amiss fields →
      Unforeseen
  /-- a compilation is broken off, because its document cannot be written or its time limit is too
      long -/
  | compilation {t s ps cause} : Begins around t s → pages s.book = .ok ps →
      t.Stops cause s.workshop (ps.flatMap (·.constructs)) → cause ≠ .interrupt → Unforeseen
  /-- the transformed book cannot be written out -/
  | output {t s report after} : Begins around t s → (transformBook t).run s = .ok report after →
      around.prints (Json.write after.book).toList = false → Unforeseen

end

section

variable {around : Surroundings}

theorem run_of_unread {e : Book.InputError}
    (unread : Book.readInput around.loads (.bytes around.input) = .error e) :
    run around .preprocess = endOf around.severity [] (.input e) := by
  rw [run, runPreprocessor, Preprocessor.run, unread]

section

variable {context book : Entries}
  (read : Book.readInput around.loads (.bytes around.input) = .ok (.table context, .table book))

include read

theorem run_of_failure {failure : Preprocessor.Failure} {after : Preprocessor.State}
    (fails : (Preprocessor.runWith around.themes around.compiler
      (Config.ofContext around.processors (.table context))).run (start (.table book)) =
        .error failure after) :
    run around .preprocess = endOf around.severity after.log failure := by
  rw [run, runPreprocessor, Preprocessor.run, read]
  dsimp only
  rw [fails]

theorem run_of_success {report : Preprocessor.Report} {after : Preprocessor.State}
    (done : (Preprocessor.runWith around.themes around.compiler
      (Config.ofContext around.processors (.table context))).run (start (.table book)) =
        .ok report after) :
    run around .preprocess = print around after.log (Json.write after.book) := by
  rw [run, runPreprocessor, Preprocessor.run, read]
  dsimp only
  rw [done]

theorem ends_of_read : (∃ t s, Begins around t s) ∨ Unforeseen around ∨ Refuses around := by
  obtain ⟨warnings, warn, configured⟩ := (Config.yields_ofContext context around.processors).run
  cases fault : contextFault? context with
  | some e =>
    rcases Config.ordinary_contextFault context e fault with ⟨defect, rfl⟩ | rfl
    · rw [fault] at configured
      have ends := run_of_failure read (Preprocessor.runWith_fault configured)
      exact .inr (.inr ⟨warnings, defect.message, warn, ends⟩)
    · exact .inr (.inl (.timeout read fault))
  | none =>
    rw [fault] at configured
    cases named : around.themes.load (chosen around.processors (options context)).theme with
    | ok theme => exact .inl ⟨_, _, .intro read fault configured named⟩
    | error e =>
      cases e with
      | broken => exact .inr (.inl (.theme read fault named))
      | refused reason =>
        have unknown := Preprocessor.ofConfig_refused around.compiler named
        have ends := run_of_failure read (Preprocessor.runWith_without_theme configured unknown)
        exact .inr (.inr ⟨warnings, _, warn, ends⟩)

end

section

variable {t : Transformer} {s : Preprocessor.State} (begins : Begins around t s)

include begins

theorem Begins.run_of_failure {failure : Preprocessor.Failure} {after : Preprocessor.State}
    (fails : (transformBook t).run s = .error failure after) :
    run around .preprocess = endOf around.severity after.log failure := by
  cases begins with
  | intro read _ configured named =>
    have known := Preprocessor.ofConfig_ok around.compiler named
    exact Command.run_of_failure read (Preprocessor.runWith_failure configured known fails)

theorem Begins.run_of_success {report : Preprocessor.Report} {after : Preprocessor.State}
    (done : (transformBook t).run s = .ok report after) :
    ∃ log, run around .preprocess = print around log (Json.write after.book) := by
  cases begins with
  | intro read _ configured named =>
    have known := Preprocessor.ofConfig_ok around.compiler named
    obtain ⟨_, ran⟩ := Preprocessor.runWith_success configured known done
    have ends := Command.run_of_success read ran
    exact ⟨_, ends⟩

theorem Begins.pages_fails_iff : (∃ misuse, pages s.book = .error misuse) ↔
    ∃ fields, Book.InBook s.book fields ∧ Book.Amiss fields := by
  cases begins with
  | intro => exact Preprocessor.pages_fails_iff

theorem Begins.ends (uninterrupted : around.compiler.Uninterrupted) :
    Unforeseen around ∨ Delivers around := by
  cases read : pages s.book with
  | error misuse =>
    obtain ⟨fields, inBook, amiss⟩ := begins.pages_fails_iff.mp ⟨misuse, read⟩
    exact .inl (.chapter begins inBook amiss)
  | ok ps =>
    rcases Preprocessor.transformBook_cases t read with
      ⟨report, after, done⟩ | ⟨cause, _, _, _, stops⟩
    · obtain ⟨log, ends⟩ := begins.run_of_success done
      cases printed : around.prints (Json.write after.book).toList with
      | false => exact .inl (.output begins done printed)
      | true =>
        rw [print, if_pos printed] at ends
        exact .inr ⟨t, s, report, after, _, begins, done, ends⟩
    · refine .inl (.compilation begins read stops ?_)
      rintro rfl
      obtain ⟨c, _, earlier, breaks⟩ := stops.exists_breaksOff
      have same : t.compiler = around.compiler := by cases begins with | intro => rfl
      exact (same ▸ uninterrupted).not_disrupts breaks.disrupts

end

theorem fails_of_unforeseen (h : Unforeseen around) :
    ∃ failure, run around .preprocess = .error failure := by
  cases h with
  | input broken => exact ⟨_, run_of_unread (Book.readInput_of_broken broken)⟩
  | @timeout context book read fault =>
    obtain ⟨warnings, _, configured⟩ := (Config.yields_ofContext context around.processors).run
    rw [fault] at configured
    exact ⟨_, run_of_failure read (Preprocessor.runWith_fault configured)⟩
  | @theme context book read fault broken =>
    obtain ⟨warnings, _, configured⟩ := (Config.yields_ofContext context around.processors).run
    rw [fault] at configured
    have unknown := Preprocessor.ofConfig_broken around.compiler broken
    exact ⟨_, run_of_failure read (Preprocessor.runWith_without_theme configured unknown)⟩
  | chapter begins inBook amiss =>
    obtain ⟨misuse, unread⟩ := begins.pages_fails_iff.mpr ⟨_, inBook, amiss⟩
    exact ⟨_, begins.run_of_failure (Preprocessor.transformBook_misuse unread)⟩
  | @compilation t s ps cause begins read stops other =>
    obtain ⟨_, stopped⟩ := stops.processAll_eq
    obtain ⟨killed, after, fails⟩ := Preprocessor.transformBook_broken_off read stopped
    have ends := begins.run_of_failure fails
    cases cause with
    | interrupt => exact absurd rfl other
    | overflow | encoding => exact ⟨_, ends⟩
  | output begins done unprinted =>
    obtain ⟨log, ends⟩ := begins.run_of_success done
    exact ⟨.unprintable, ends.trans (by simp [print, unprinted])⟩

end

/-- Unless the compiler is interrupted, the command breaks down where it does not foresee what
    happens, and only there. Otherwise it writes out the whole book, or one error and nothing. -/
theorem preprocess_ends {around : Surroundings} (uninterrupted : around.compiler.Uninterrupted) :
    (Unforeseen around → ∃ failure, run around .preprocess = .error failure) ∧
      (¬ Unforeseen around → Delivers around ∨ Refuses around) := by
  refine ⟨fails_of_unforeseen, fun foreseen => ?_⟩
  rcases Book.readInput_cases around.loads (.bytes around.input) with
    broken | ⟨e, other, unread⟩ | ⟨context, book, read⟩
  · exact absurd (.input broken) foreseen
  · refine .inr ⟨[], e.message, by simp, ?_⟩
    rw [run_of_unread unread]
    cases e with
    | broken => exact absurd rfl other
    | notJson | notAPair => rfl
  · rcases ends_of_read read with ⟨t, s, begins⟩ | unforeseen | refuses
    · exact .inl ((begins.ends uninterrupted).resolve_left foreseen)
    · exact absurd unforeseen foreseen
    · exact .inr refuses

def Surroundings.bare (input : List Char) : Surroundings where
  processors := none
  compiler := .absent
  themes := .withPalettes []
  loads := Book.load
  readsToml := fun _ => .error .invalid
  severity := LogLevel.warning.severity
  file := fun _ => none
  isFolder := fun _ => false
  prints := Text.isWritable
  input := Text.toUtf8 input

theorem preprocess_ends_separator :
    let around := Surroundings.bare "[\x7b\x7d, \x7b\"items\": [\"Separator\"]\x7d]".toList
    around.compiler.Uninterrupted ∧ ¬ Unforeseen around ∧
      (Unforeseen around → ∃ failure, run around .preprocess = .error failure) ∧
      (¬ Unforeseen around → Delivers around ∨ Refuses around) := by
  intro around
  have uninterrupted : around.compiler.Uninterrupted := fun _ _ _ => nofun
  have read : Book.readInput around.loads (.bytes around.input) =
      .ok (.table [], .table [(.text "items", .list [.text "Separator"])]) :=
    Book.readInput_toUtf8 (by decide) (by dsimp only [String.reduceToList]; rfl)
  refine ⟨uninterrupted, fun unforeseen => ?_, preprocess_ends uninterrupted⟩
  cases unforeseen with
  | input broken =>
    have unread := Book.readInput_of_broken broken
    cases read.symm.trans unread
  | timeout same fault =>
    cases read.symm.trans same
    cases fault
  | theme same _ broken =>
    cases read.symm.trans same
    cases broken
  | chapter begins inBook _ =>
    cases begins with
    | intro same =>
      cases read.symm.trans same
      obtain ⟨item, member, has⟩ := inBook
      cases List.mem_singleton.mp member
      cases has with
      | self found => cases found
      | under found _ _ _ => cases found
      | part _ found _ _ => cases found
  | compilation begins readPages stops _ =>
    cases begins with
    | intro same =>
      cases read.symm.trans same
      cases readPages
      cases stops
  | output begins done unprinted =>
    cases begins with
    | intro same =>
      cases read.symm.trans same
      cases done
      dsimp only [start] at unprinted
      exact absurd (unprinted : Text.isWritable _ = false) (by decide)

/-- The text of a chapter is a number: reading it fails, and not as an error that is logged. -/
theorem number_for_text_fails : ¬ ∀ around : Surroundings, around.compiler.Uninterrupted →
    Delivers around ∨ Refuses around := by
  intro always
  let around := Surroundings.bare
    "[\x7b\x7d, \x7b\"sections\": [\x7b\"Chapter\": \x7b\"content\": 1\x7d\x7d]\x7d]".toList
  let fields : Entries := [(.text "content", .int 1)]
  let book : Entries := [(.text "sections", .list [.table [(.text "Chapter", .table fields)]])]
  have read : Book.readInput around.loads (.bytes around.input) = .ok (.table [], .table book) :=
    Book.readInput_toUtf8 (by decide) (by dsimp only [String.reduceToList]; rfl)
  have inBook : Book.InBook (.table book) fields := ⟨_, .head _, .self rfl⟩
  obtain ⟨warnings, _, configured⟩ := (Config.yields_ofContext [] around.processors).run
  obtain ⟨failure, fails⟩ : ∃ failure, run around .preprocess = .error failure :=
    fails_of_unforeseen
      (.chapter (.intro read rfl configured rfl) inBook (.content rfl ⟨rfl, nofun⟩))
  rcases always around fun _ _ _ => nofun with delivers | refuses
  · obtain ⟨_, _, _, _, _, _, _, succeeds⟩ := delivers
    cases fails.symm.trans succeeds
  · obtain ⟨_, _, _, succeeds⟩ := refuses
    cases fails.symm.trans succeeds

end Command

end BookHighlight
