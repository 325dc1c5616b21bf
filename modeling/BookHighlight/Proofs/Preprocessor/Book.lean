import BookHighlight.Proofs.Preprocessor.Run
import BookHighlight.Proofs.Transform.Steady

namespace BookHighlight

open Data
open Markdown (Construct constructs)

namespace Book.Chapter

def Textual (c : Chapter) : Prop :=
  ∀ v ∈ Entries.text? c.fields "content", v = .null ∨ ∃ s, v = .text s

def text (c : Chapter) : List Char :=
  match Entries.text? c.fields "content" with
  | some (.text s) => s.toList
  | _ => []

variable {c : Chapter}

theorem content_eq_text (h : c.Textual) : c.content = .ok c.text := by
  unfold Textual at h
  unfold content text
  cases found : Entries.text? c.fields "content" with
  | none => rfl
  | some v =>
    rcases h v found with rfl | ⟨s, rfl⟩
    · rfl
    · rfl

theorem exists_text_of_constructs (h : constructs c.text ≠ []) :
    ∃ old, Entries.text? c.fields "content" = some (.text old) ∧ old.toList = c.text := by
  unfold text at h ⊢
  split
  · exact ⟨_, ‹_›, rfl⟩
  · rename_i noText
    split at h
    · exact absurd ‹_› (noText _)
    · exact absurd rfl h

end Book.Chapter

namespace Preprocessor

open Book (Chapter)

def pageOf (entry : Chapter × Nat) : Page where
  chapter := entry.1
  label := entry.1.id entry.2
  content := entry.1.text
  constructs := constructs entry.1.text

theorem pages_eq {book : Value} {cs : List Chapter} (walked : Book.chapters book = .ok cs)
    (texts : ∀ c ∈ cs, c.Textual) : pages book = .ok (cs.zipIdx.map pageOf) := by
  unfold pages
  rw [walked]
  refine mapM_eq_ok ?_
  rw [List.map_map]
  refine List.map_congr_left fun entry member => ?_
  obtain ⟨c, position⟩ := entry
  have textual := texts c (List.fst_mem_of_mem_zipIdx member)
  simp only [Chapter.content_eq_text textual]
  rfl

theorem pages_diverge {book : Value} {cs : List Chapter} (walked : Book.chapters book = .ok cs) :
    (cs.zipIdx.map pageOf).Pairwise fun left right =>
      Diverge left.chapter.place right.chapter.place := by
  have chapters : (cs.zipIdx.map pageOf).map (·.chapter) = cs := by
    rw [List.map_map]
    exact List.zipIdx_map_fst 0 cs
  have apart := Book.chapters_diverge walked
  rw [← chapters] at apart
  exact (List.pairwise_map (f := Page.chapter)).mp apart

section

variable (treat : Construct → Outcome)

def Page.treated (page : Page) : Transformed :=
  Transformer.assembled page.content page.label (page.constructs.map treat)

def Page.enter (book : Value) (page : Page) : Value :=
  if page.constructs.isEmpty then book
  else page.chapter.setContent (page.treated treat).text book

theorem fill_run (pages : List Page) (s : State) :
    (fill pages ((pages.flatMap (·.constructs)).map treat)).run s =
      .ok (pages.flatMap fun page => (page.treated treat).outcomes.map (page.label, ·))
        { s with
          log := s.log ++ pages.flatMap fun page => (page.treated treat).log
          book := pages.foldl (Page.enter treat) s.book } := by
  induction pages generalizing s with
  | nil => simp [fill]
  | cons page rest ih =>
    unfold fill
    by_cases empty : page.constructs.isEmpty = true
    · have none := List.isEmpty_iff.mp empty
      simp [none, ih, Page.treated, Transformer.assembled, Page.enter, failureLog]
    · have entered : page.enter treat s.book =
          page.chapter.setContent (page.treated treat).text s.book := if_neg empty
      have apart : (((page :: rest).flatMap (·.constructs)).map treat).splitAt
            page.constructs.length =
          (page.constructs.map treat, (rest.flatMap (·.constructs)).map treat) := by
        rw [List.splitAt_eq, List.flatMap_cons, List.map_append, List.take_left', List.drop_left']
        <;> exact List.length_map ..
      rw [if_neg empty, apart]
      let written : State := { s with
        log := s.log ++ (page.treated treat).log
        book := page.chapter.setContent (page.treated treat).text s.book }
      have later := ih written
      change (fill rest ((rest.flatMap (·.constructs)).map treat) >>= fun report =>
        pure ((page.treated treat).outcomes.map (page.label, ·) ++ report) : Run Report).run
          written = _
      rw [EStateM.run_bind, later]
      simp [written, entered]

theorem at?_enter {page : Page} {book : Value} (held : Value.at? page.chapter.place book =
      some (.text (String.ofList page.content))) :
    Value.at? page.chapter.place (page.enter treat book) =
      some (.text (String.ofList (page.treated treat).text)) := by
  unfold Page.enter
  split
  · rename_i empty
    have none := List.isEmpty_iff.mp empty
    rw [held, Page.treated, none]
    rfl
  · exact (Value.at?_modifyAt _ page.chapter.place book).trans (congrArg _ held)

theorem at?_enter_of_diverge {page : Page} {path : List Step}
    (apart : Diverge page.chapter.place path) (book : Value) :
    Value.at? path (page.enter treat book) = Value.at? path book := by
  unfold Page.enter
  split
  · rfl
  · exact Value.at?_modifyAt_of_diverge apart _ book

variable {pages : List Page}

theorem at?_foldl_enter_of_diverge {path : List Step}
    (apart : ∀ page ∈ pages, Diverge page.chapter.place path) (book : Value) :
    Value.at? path (pages.foldl (Page.enter treat) book) =
      Value.at? path book := by
  induction pages generalizing book with
  | nil => rfl
  | cons page rest ih =>
    obtain ⟨first, later⟩ := List.forall_mem_cons.mp apart
    rw [List.foldl_cons, ih later, at?_enter_of_diverge treat first]

/-- When no page lies inside another, each one has been entered in the end. -/
theorem at?_foldl_enter
    (apart : pages.Pairwise fun left right => Diverge left.chapter.place right.chapter.place)
    (book : Value) : ∀ page ∈ pages,
      Value.at? page.chapter.place book = some (.text (String.ofList page.content)) →
      Value.at? page.chapter.place (pages.foldl (Page.enter treat) book) =
        some (.text (String.ofList (page.treated treat).text)) := by
  induction pages generalizing book with
  | nil => simp
  | cons first rest ih =>
    obtain ⟨here, later⟩ := List.pairwise_cons.mp apart
    intro page member held
    rw [List.foldl_cons]
    rcases List.mem_cons.mp member with rfl | behind
    · rw [at?_foldl_enter_of_diverge treat fun other within => (here other within).symm]
      exact at?_enter treat held
    · apply ih later _ page behind
      rw [at?_enter_of_diverge treat (here page behind), held]

/-- Entering pages changes the texts of those with code and nothing else. -/
theorem alikeBut_foldl_enter (book : Value) :
    AlikeBut (fun path => ∃ page ∈ pages, page.constructs ≠ [] ∧ path = page.chapter.place)
      book (pages.foldl (Page.enter treat) book) := by
  induction pages generalizing book with
  | nil => exact .same
  | cons page rest ih =>
    rw [List.foldl_cons]
    refine .trans (v := page.enter treat book) ?_ ((ih _).mono ?_)
    · unfold Page.enter
      split
      · exact .same
      · rename_i code
        refine (AlikeBut.modifyAt _ page.chapter.place book).mono fun path same => ?_
        exact ⟨page, List.mem_cons_self .., mt List.isEmpty_iff.mpr code, same⟩
    · rintro path ⟨other, member, rest⟩
      exact ⟨other, List.mem_cons_of_mem _ member, rest⟩

end

/-- A transformed book against its chapters, each transformed alone: every text is that of its
    chapter, the outcomes and warnings are those of the chapters in their order, and only texts
    that hold code are changed. -/
structure Agrees (alone : List Char → String → Transformed) (s : State) (cs : List Chapter)
    (report : Report) (after : State) : Prop where
  texts : ∀ entry ∈ cs.zipIdx, ∀ old,
    Entries.text? entry.1.fields "content" = some (.text old) →
      Value.at? entry.1.place after.book =
        some (.text (String.ofList (alone old.toList (entry.1.id entry.2)).text))
  report_eq : report = cs.zipIdx.flatMap fun entry =>
    (alone entry.1.text (entry.1.id entry.2)).outcomes.map (entry.1.id entry.2, ·)
  log_eq : after.log = s.log ++ cs.zipIdx.flatMap fun entry =>
    (alone entry.1.text (entry.1.id entry.2)).log
  frame : AlikeBut (fun path => ∃ c ∈ cs, ∃ old,
      Entries.text? c.fields "content" = some (.text old) ∧ constructs old.toList ≠ [] ∧
        path = c.place)
    s.book after.book

theorem transformBook_run {t : Transformer} {treat : Construct → Outcome} {s : State}
    {ps : List Page} {workshop : Workshop} (read : pages s.book = .ok ps)
    (processed : t.processAll s.workshop (ps.flatMap (·.constructs)) =
      (.ok ((ps.flatMap (·.constructs)).map treat), workshop)) :
    (transformBook t).run s =
      .ok (ps.flatMap fun page => (page.treated treat).outcomes.map (page.label, ·)) {
        log := s.log ++ ps.flatMap fun page => (page.treated treat).log
        book := ps.foldl (Page.enter treat) s.book
        workshop } :=
  (transformBook_eq_fill read processed).trans (fill_run treat ps { s with workshop })

theorem agrees_treated (treat : Construct → Outcome) (s : State) {cs : List Chapter}
    (walked : Book.chapters s.book = .ok cs) (workshop : Workshop) :
    let ps := cs.zipIdx.map pageOf
    Agrees (Transformer.treated treat) s cs
      (ps.flatMap fun page => (page.treated treat).outcomes.map (page.label, ·)) {
        log := s.log ++ ps.flatMap fun page => (page.treated treat).log
        book := ps.foldl (Page.enter treat) s.book
        workshop } := by
  refine ⟨?_, List.flatMap_map .., congrArg _ (List.flatMap_map ..), ?_⟩
  · intro entry member old found
    have text : old.toList = entry.1.text := by rw [Chapter.text, found]
    have held : Value.at? entry.1.place s.book = some (.text (String.ofList entry.1.text)) := by
      rw [Book.chapters_at? walked entry.1 (List.fst_mem_of_mem_zipIdx member), found, ← text,
        String.ofList_toList]
    rw [text]
    exact at?_foldl_enter treat (pages_diverge walked) s.book (pageOf entry)
      (List.mem_map_of_mem member) held
  · refine (alikeBut_foldl_enter treat s.book).mono ?_
    rintro path ⟨page, member, code, rfl⟩
    obtain ⟨entry, inside, rfl⟩ := List.mem_map.mp member
    obtain ⟨old, found, same⟩ := Chapter.exists_text_of_constructs code
    exact ⟨entry.1, List.fst_mem_of_mem_zipIdx inside, old, found, same ▸ code, rfl⟩

theorem mem_code_iff {cs : List Chapter} {code : Construct} :
    code ∈ (cs.zipIdx.map pageOf).flatMap (·.constructs) ↔ ∃ c ∈ cs, code ∈ constructs c.text := by
  have each : (cs.zipIdx.map pageOf).flatMap (·.constructs) =
      (cs.zipIdx.map Prod.fst).flatMap fun c => constructs c.text := by
    rw [List.flatMap_map, List.flatMap_map]
    rfl
  rw [each, List.zipIdx_map_fst, List.mem_flatMap]

/-- A steady compiler makes of a book what it makes of its chapters. If the compilation of one
    chapter is broken off, so is that of the book. -/
theorem transformBook_agrees (t : Transformer) (steady : t.compiler.Steady) (s : State)
    {cs : List Chapter} (walked : Book.chapters s.book = .ok cs) (texts : ∀ c ∈ cs, c.Textual) :
    ∃ alone : List Char → String → Transformed,
      (∀ workshop content chapter, (∀ code ∈ constructs content, t.Completes code) → ∃ later,
        t.transform workshop content chapter = (.ok (alone content chapter), later)) ∧
      ((∀ c ∈ cs, ∀ code ∈ constructs c.text, t.Completes code) →
        ∃ report after, (transformBook t).run s = .ok report after ∧
          Agrees alone s cs report after) ∧
      ∀ c ∈ cs, (∃ code ∈ constructs c.text, ¬ t.Completes code) →
        (∀ workshop chapter, ∃ i later,
          t.transform workshop c.text chapter = (.error i, later)) ∧
        ∃ failure after, (transformBook t).run s = .error failure after := by
  obtain ⟨treat, treats⟩ := Transformer.exists_treat steady
  have read := pages_eq walked texts
  refine ⟨Transformer.treated treat, fun workshop content chapter completes => ?_,
    fun completes => ?_, fun c member incomplete => ⟨fun workshop chapter => ?_, ?_⟩⟩
  · obtain ⟨later, processed⟩ :=
      Transformer.processAll_of_completes steady treats completes workshop
    exact ⟨later, Transformer.transform_of_processAll chapter processed⟩
  · have each : ∀ code ∈ (cs.zipIdx.map pageOf).flatMap (·.constructs), t.Completes code := by
      intro code inBook
      obtain ⟨c, member, inChapter⟩ := mem_code_iff.mp inBook
      exact completes c member code inChapter
    obtain ⟨workshop, processed⟩ :=
      Transformer.processAll_of_completes steady treats each s.workshop
    exact ⟨_, _, transformBook_run read processed, agrees_treated treat s walked workshop⟩
  · obtain ⟨code, inChapter, breaks⟩ := incomplete
    obtain ⟨cause, _, stopped⟩ :=
      Transformer.processAll_of_not_completes steady inChapter breaks workshop
    obtain ⟨killed, later, fails⟩ := Transformer.transform_of_broken_off chapter stopped
    exact ⟨_, later, fails⟩
  · obtain ⟨code, inChapter, breaks⟩ := incomplete
    obtain ⟨cause, _, stopped⟩ := Transformer.processAll_of_not_completes steady
      (mem_code_iff.mpr ⟨c, member, inChapter⟩) breaks s.workshop
    obtain ⟨killed, after, fails⟩ := transformBook_broken_off read stopped
    exact ⟨_, after, fails⟩

theorem transformBook_agrees_nested :
    let t : Transformer := {
      config := { jobs := 2, render := true }
      theme := Theme.solarizedDark
      compiler := {
        found := true
        writes := fun _ => true
        respond := fun _ _ document =>
          if document.length < 60 then .exited 0 [] (.file "<svg/>".toUTF8.toList)
          else .timedOut none } }
    let chapter := fun (content : Entries) (under : List Value) =>
      Value.table [(.text "Chapter", .table (content ++ [(.text "sub_items", .list under)]))]
    let book := Value.table [(.text "sections", .list [
      chapter [(.text "name", .text "One"), (.text "content", .text "```typ\n#a\n```\n")] [
        chapter [(.text "content", .null)] [
          chapter [(.text "content", .text "Here ``#b`` and `#c`.\n")] []]],
      .text "Separator",
      .table [(.text "PartTitle", .text "Part")],
      chapter [(.text "draft", .bool true)] []])]
    t.compiler.Undisturbed ∧ t.compiler.Steady ∧ ∃ cs, Book.chapters book = .ok cs ∧
      cs.length = 4 ∧ (∀ c ∈ cs, c.Textual) ∧
      ∃ alone : List Char → String → Transformed,
        (∀ workshop content chapter, ∃ later,
          t.transform workshop content chapter = (.ok (alone content chapter), later)) ∧
        ∃ report after, (transformBook t).run (start book) = .ok report after ∧
          Agrees alone (start book) cs report after := by
  intro t chapter book
  have undisturbed : t.compiler.Undisturbed := by
    refine ⟨fun _ => rfl, fun limit earlier document disruption => ?_⟩
    change Response.result (if document.length < 60 then _ else _) ≠ _
    split
    · exact Response.exited_ne_raised _ _ _ _
    · exact nofun
  have steady : t.compiler.Steady := fun _ _ _ _ => rfl
  obtain ⟨cs, walked, length, texts⟩ : ∃ cs, Book.chapters book = .ok cs ∧ cs.length = 4 ∧
      ∀ c ∈ cs, c.Textual := by
    refine ⟨_, rfl, rfl, ?_⟩
    simp only [List.forall_mem_cons]
    refine ⟨?_, ?_, ?_, ?_, by simp⟩
    · exact fun _ found => .inr ⟨_, (Option.some.inj found).symm⟩
    · exact fun _ found => .inl (Option.some.inj found).symm
    · exact fun _ found => .inr ⟨_, (Option.some.inj found).symm⟩
    · exact fun _ found => by cases found
  obtain ⟨alone, transforms, agrees, _⟩ :=
    transformBook_agrees t steady (start book) walked texts
  have completes := fun code => Transformer.completes_of_undisturbed undisturbed code
  exact ⟨undisturbed, steady, cs, walked, length, texts, alone,
    fun workshop content chapter =>
      transforms workshop content chapter fun code _ => completes code,
    agrees fun _ _ code _ => completes code⟩

end Preprocessor

end BookHighlight
