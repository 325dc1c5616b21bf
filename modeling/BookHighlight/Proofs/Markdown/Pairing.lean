import BookHighlight.Proofs.Markdown.BlankLine

namespace BookHighlight.Markdown

namespace Construct

def block? : Construct → Option Block
  | .block b => some b
  | .span _ => none

def span? : Construct → Option Span
  | .block _ => none
  | .span s => some s

end Construct

def stretches (content : List Char) : List Stretch :=
  stretchesFrom content.length 0 ((constructs content).filterMap Construct.block?)

def reportedSpans (content : List Char) : List Span :=
  (constructs content).filterMap Construct.span?

inductive Landmark where
  | span (span : Span)
  | run (start width : Nat)
  deriving DecidableEq, Repr

/-- A walk over a text at `position`, of which `skip` characters are already passed. Each reported
    span is passed as a whole, and so are a backslash with the character behind it and a run of
    backticks. -/
def walkFrom (reported : List Span) : (skip position : Nat) → List Char → List Landmark
  | _, _, [] => []
  | skip + 1, position, _ :: rest => walkFrom reported skip (position + 1) rest
  | 0, position, c :: rest =>
    match reported.find? (·.start == position) with
    | some span => .span span :: walkFrom reported (span.stop - position - 1) (position + 1) rest
    | none =>
      if c = '\\' then walkFrom reported 1 (position + 1) rest
      else if c = '`' then
        let width := (rest.takeWhile (· == '`')).length + 1
        .run position width :: walkFrom reported (width - 1) (position + 1) rest
      else walkFrom reported 0 (position + 1) rest

def walk (content : List Char) (stretch : Stretch) : List Landmark :=
  walkFrom (reportedSpans content) 0 stretch.start (stretch.text content)

def HoldsBlankLine (text : List Char) : Prop :=
  ∃ blank, blank.all isIndentation = true ∧ '\n' :: (blank ++ ['\n']) <:+: text

def Unpaired (width : Nat) (text : List Char) : Prop :=
  ∃ rest, text = ticks width ++ rest ∧ 0 < width ∧ rest.head? ≠ some '`' ∧
    ∀ before after, RunIn rest before width after → HoldsBlankLine before

def Paired (length : Nat) (text : List Char) : Prop :=
  ∃ width middle after, text = ticks width ++ (middle ++ ticks width ++ after) ∧
    Delimited width middle after ∧ length = width + middle.length + width

section

variable {before after : List Char}

theorem exists_blank_before_feed
    (feed : ((before ++ '`' :: after).dropWhile isIndentation).head? = some '\n') :
    ∃ blank, blank.all isIndentation = true ∧ blank ++ ['\n'] <+: before := by
  induction before with
  | nil => simp [isIndentation] at feed
  | cons c before ih =>
    by_cases indents : isIndentation c = true
    · rw [List.cons_append, List.dropWhile_cons_of_pos indents] at feed
      obtain ⟨blank, all, front⟩ := ih feed
      refine ⟨c :: blank, ?_, List.cons_prefix_cons.mpr ⟨rfl, front⟩⟩
      exact List.all_eq_true.mpr (List.forall_mem_cons.mpr ⟨indents, List.all_eq_true.mp all⟩)
    · rw [List.cons_append, List.dropWhile_cons_of_neg indents, List.head?_cons] at feed
      cases feed
      exact ⟨[], rfl, List.cons_prefix_cons.mpr ⟨rfl, List.nil_prefix⟩⟩

theorem HoldsBlankLine.cons (h : HoldsBlankLine before) (c : Char) :
    HoldsBlankLine (c :: before) := by
  obtain ⟨blank, all, inside⟩ := h
  exact ⟨blank, all, List.infix_cons inside⟩

/-- The text up to a backtick is read as far as the first blank line that it holds. -/
theorem beforeBlankLine_append_tick (free : ¬ HoldsBlankLine before) :
    beforeBlankLine (before ++ '`' :: after) = before ++ beforeBlankLine ('`' :: after) := by
  induction before with
  | nil => rfl
  | cons c before ih =>
    rw [List.cons_append, beforeBlankLine, if_neg]
    · rw [ih fun holds => free (holds.cons c)]
      rfl
    · rintro ⟨rfl, feed⟩
      obtain ⟨blank, all, front⟩ := exists_blank_before_feed feed
      have here : '\n' :: (blank ++ ['\n']) <+: '\n' :: before :=
        List.cons_prefix_cons.mpr ⟨rfl, front⟩
      exact free ⟨blank, all, here.isInfix⟩

theorem beforeBlankLine_ticks (width : Nat) (text : List Char) :
    beforeBlankLine (ticks width ++ text) = ticks width ++ beforeBlankLine text := by
  induction width with
  | zero => rfl
  | succ width ih =>
    change beforeBlankLine ('`' :: (ticks width ++ text)) = '`' :: (ticks width ++ _)
    rw [beforeBlankLine, if_neg (by simp), ih]

theorem holdsBlankLine_of_noRun {width : Nat} (positive : 0 < width) {text : List Char}
    (none : NoRun width (beforeBlankLine text)) (run : RunIn text before width after) :
    HoldsBlankLine before := by
  by_contra free
  obtain ⟨more, rfl⟩ := Nat.exists_eq_succ_of_ne_zero (Nat.ne_of_gt positive)
  have whole : text = before ++ '`' :: (ticks more ++ after) := by
    rw [run.whole, List.append_assoc]
    rfl
  have read : beforeBlankLine text = before ++ (ticks (more + 1) ++ beforeBlankLine after) := by
    rw [whole, beforeBlankLine_append_tick free]
    exact congrArg (before ++ ·) (beforeBlankLine_ticks (more + 1) after)
  apply none before (beforeBlankLine after)
  exact ⟨by rw [read, List.append_assoc]; rfl, run.left, head?_beforeBlankLine run.right⟩

end

structure Reports (reported : List Span) (position : Nat) (text : List Char) (spans : List Span) :
    Prop where
  sound : ∀ span ∈ spans, span ∈ reported
  complete : ∀ span ∈ reported, position ≤ span.start → span.start < position + text.length →
    span ∈ spans

namespace Reports

variable {reported spans : List Span} {position : Nat} {text : List Char} {first : Span}

theorem behind (front : List Char) (h : Reports reported position (front ++ text) spans) :
    Reports reported (position + front.length) text spans := by
  refine ⟨h.sound, fun span member start stop => h.complete span member ?_ ?_⟩
  · omega
  · rw [List.length_append]
    omega

theorem tail (h : Reports reported position text (first :: spans))
    (before : first.start < position) : Reports reported position text spans := by
  refine ⟨fun span member => h.sound span (List.mem_cons_of_mem _ member), ?_⟩
  intro span member start stop
  rcases List.mem_cons.mp (h.complete span member start stop) with rfl | later
  · omega
  · exact later

theorem mem_of_find? (h : Reports reported position text spans) (some : text ≠ []) {span : Span}
    (found : reported.find? (·.start == position) = .some span) :
    span ∈ spans ∧ span.start = position := by
  have start : span.start = position := by simpa using List.find?_some found
  have inside := List.length_pos_iff.mpr some
  refine ⟨h.complete span (List.mem_of_find?_eq_some found) (Nat.le_of_eq start.symm) ?_, start⟩
  omega

theorem find?_none (h : Reports reported position text spans)
    (later : ∀ span ∈ spans, position < span.start) (some : text ≠ []) :
    reported.find? (·.start == position) = none := by
  cases found : reported.find? (·.start == position) with
  | none => rfl
  | some span =>
    obtain ⟨member, start⟩ := h.mem_of_find? some found
    have := later span member
    omega

theorem find?_first (h : Reports reported position text (first :: spans))
    (start : first.start = position) (later : ∀ span ∈ spans, position < span.start)
    (some : text ≠ []) : reported.find? (·.start == position) = .some first := by
  cases found : reported.find? (·.start == position) with
  | none =>
    have absent := List.find?_eq_none.mp found first (h.sound first (List.mem_cons_self ..))
    exact absurd (beq_iff_eq.mpr start) absent
  | some span =>
    obtain ⟨member, here⟩ := h.mem_of_find? some found
    rcases List.mem_cons.mp member with same | member
    · rw [same]
    · have := later span member
      omega

end Reports

theorem walkFrom_skip (reported : List Span) (skip position : Nat) (text : List Char) :
    walkFrom reported skip position text =
      walkFrom reported 0 (position + skip) (text.drop skip) := by
  induction skip generalizing position text with
  | zero => rfl
  | succ skip ih =>
    cases text with
    | nil => rfl
    | cons c rest =>
      rw [walkFrom, ih, List.drop_succ_cons, Nat.add_right_comm]
      rfl

section

variable {reported : List Span} {position : Nat} {c : Char} {rest : List Char}
  (free : reported.find? (·.start == position) = none)

include free

theorem walkFrom_escape : walkFrom reported 0 position ('\\' :: c :: rest) =
    walkFrom reported 0 (position + 2) rest := by
  rw [walkFrom, free]
  rfl

theorem walkFrom_other (escape : c ≠ '\\') (tick : c ≠ '`') :
    walkFrom reported 0 position (c :: rest) = walkFrom reported 0 (position + 1) rest := by
  rw [walkFrom, free]
  dsimp only
  rw [if_neg escape, if_neg tick]

end

theorem walkFrom_run {reported : List Span} {position width : Nat} {rest : List Char}
    (free : reported.find? (·.start == position) = none) (positive : 0 < width)
    (opened : rest.head? ≠ some '`') : walkFrom reported 0 position (ticks width ++ rest) =
      .run position width :: walkFrom reported 0 (position + width) rest := by
  obtain ⟨more, rfl⟩ := Nat.exists_eq_succ_of_ne_zero (Nat.ne_of_gt positive)
  have run := takeWhile_ticks more opened
  have length : (ticks more).length = more := List.length_replicate
  change walkFrom reported 0 position ('`' :: (ticks more ++ rest)) = _
  rw [walkFrom, free]
  dsimp only
  rw [if_neg (by decide), if_pos rfl, run, length, Nat.add_sub_cancel, walkFrom_skip, drop_ticks,
    Nat.add_right_comm, Nat.add_assoc]

theorem walkFrom_span {reported : List Span} {position : Nat} {first : Span}
    {front rest : List Char} (found : reported.find? (·.start == position) = some first)
    (some : front ≠ []) (stop : first.stop = position + front.length) :
    walkFrom reported 0 position (front ++ rest) =
      .span first :: walkFrom reported 0 (position + front.length) rest := by
  obtain ⟨c, front, rfl⟩ := List.exists_cons_of_ne_nil some
  have length : first.stop - position - 1 = front.length := by
    rw [stop, List.length_cons]
    omega
  rw [List.cons_append, walkFrom, found]
  dsimp only
  rw [length, walkFrom_skip, List.drop_left, Nat.add_right_comm, List.length_cons, Nat.add_assoc]

structure LoneRun (offset : Nat) (text : List Char) (start width : Nat)
    (before after : List Char) : Prop where
  whole : text = before ++ (ticks width ++ after)
  start_eq : start = offset + before.length
  positive : 0 < width
  right : after.head? ≠ some '`'
  none : NoRun width (beforeBlankLine after)

theorem LoneRun.prepend {offset start width : Nat} {text before after : List Char}
    (front : List Char) (h : LoneRun (offset + front.length) text start width before after) :
    LoneRun offset (front ++ text) start width (front ++ before) after := by
  refine ⟨?_, ?_, h.positive, h.right, h.none⟩
  · rw [h.whole, List.append_assoc front]
  · rw [h.start_eq, List.length_append, Nat.add_assoc]

/-- What a walk over a text comes upon: all its spans, and no run that could open another one. -/
structure Tours (reported : List Span) (position : Nat) (text : List Char) (spans : List Span) :
    Prop where
  spans : ∀ span ∈ spans, .span span ∈ walkFrom reported 0 position text
  runs : ∀ start width, .run start width ∈ walkFrom reported 0 position text →
    ∃ before after, LoneRun position text start width before after

section

variable {reported spans later : List Span} {position : Nat} {front text : List Char}

theorem Tours.prepend (marks : List Landmark)
    (h : Tours reported (position + front.length) text later)
    (walked : walkFrom reported 0 position (front ++ text) =
      marks ++ walkFrom reported 0 (position + front.length) text)
    (met : ∀ span ∈ spans, .span span ∈ marks ∨ span ∈ later)
    (lone : ∀ start width, .run start width ∈ marks →
      ∃ before after, LoneRun position (front ++ text) start width before after) :
    Tours reported position (front ++ text) spans := by
  refine ⟨fun span member => ?_, fun start width member => ?_⟩
  · rw [walked, List.mem_append]
    exact (met span member).imp_right (h.spans span)
  · rw [walked, List.mem_append] at member
    rcases member with here | behind
    · exact lone start width here
    · obtain ⟨before, after, run⟩ := h.runs start width behind
      exact ⟨_, _, run.prepend front⟩

theorem Tours.pass (front : List Char)
    (h : Tours reported (position + front.length) text spans)
    (walked : walkFrom reported 0 position (front ++ text) =
      walkFrom reported 0 (position + front.length) text) :
    Tours reported position (front ++ text) spans :=
  h.prepend [] walked (fun _ member => .inr member) (by simp)

end

namespace Walks

variable {reported spans : List Span} {position width : Nat} {text : List Char}

theorem start_lt (h : Walks (position + width) text spans) (positive : 0 < width) :
    ∀ span ∈ spans, position < span.start := by
  intro span member
  obtain ⟨before, middle, after, width, found⟩ := h.encloses span member
  have := found.bounds
  omega

theorem tours_unpaired {rest : List Char} (walk : Walks (position + width) rest spans)
    (positive : 0 < width) (opened : rest.head? ≠ some '`')
    (none : NoRun width (beforeBlankLine rest))
    (reports : Reports reported position (ticks width ++ rest) spans)
    (further : Reports reported (position + width) rest spans →
      Tours reported (position + width) rest spans) :
    Tours reported position (ticks width ++ rest) spans := by
  have some : ticks width ++ rest ≠ [] := by
    simp [ticks, Nat.ne_of_gt positive]
  have free := reports.find?_none (walk.start_lt positive) some
  have length : (ticks width).length = width := List.length_replicate
  have behind := reports.behind (ticks width)
  rw [length] at behind
  have tour := further behind
  rw [← length] at tour
  refine tour.prepend [.run position width] ?_ (fun _ member => .inr member) ?_
  · rw [length]
    exact walkFrom_run free positive opened
  · intro start run member
    cases List.mem_singleton.mp member
    exact ⟨[], rest, rfl, rfl, positive, opened, none⟩

theorem tours_paired {front after : List Char} {first : Span}
    (walk : Walks (position + front.length) after spans) (some : front ≠ [])
    (start : first.start = position) (stop : first.stop = position + front.length)
    (reports : Reports reported position (front ++ after) (first :: spans))
    (further : Reports reported (position + front.length) after spans →
      Tours reported (position + front.length) after spans) :
    Tours reported position (front ++ after) (first :: spans) := by
  have positive := List.length_pos_iff.mpr some
  have found := reports.find?_first start (walk.start_lt positive) (by simp [some])
  have behind : first.start < position + front.length := by omega
  have tour := further ((reports.behind front).tail behind)
  refine tour.prepend [.span first] (walkFrom_span found some stop) ?_ (by simp)
  intro span member
  rcases List.mem_cons.mp member with same | later
  · exact .inl (by rw [same, List.mem_singleton])
  · exact .inr later

/-- By the cases of how the spans come about: the walk takes the same steps over the text. -/
theorem tours (h : Walks position text spans) (reports : Reports reported position text spans) :
    Tours reported position text spans := by
  induction h with
  | done => exact ⟨by simp, by simp [walkFrom]⟩
  | @escape _ c _ _ walk ih =>
    have free := reports.find?_none (walk.start_lt (by decide)) (by simp)
    exact (ih (reports.behind ['\\', c])).pass ['\\', c] (walkFrom_escape free)
  | escapeEnd =>
    refine ⟨by simp, fun start width member => ?_⟩
    have free := reports.find?_none (by simp) (by simp)
    rw [walkFrom, free] at member
    cases member
  | @other _ c _ _ escape tick walk ih =>
    have free := reports.find?_none (walk.start_lt (by decide)) (by simp)
    exact (ih (reports.behind [c])).pass [c] (walkFrom_other free escape tick)
  | unpaired positive opened none walk ih =>
    exact walk.tours_unpaired positive opened none reports ih
  | @paired position width middle after spans delimited unbroken walk ih =>
    let front := ticks width ++ (middle ++ ticks width)
    have whole : ticks width ++ (middle ++ ticks width ++ after) = front ++ after := by
      simp [front]
    have length : width + middle.length + width = front.length := by
      simp [front, ticks, Nat.add_assoc]
    have positive := delimited.positive
    have some : front ≠ [] := List.length_pos_iff.mp (by omega)
    rw [whole] at reports ⊢
    rw [length] at walk ih
    exact walk.tours_paired some rfl (by simp only; omega) reports ih

end Walks

theorem filterMap_block? (content : List Char) (cursor : Nat) (found : List Block) :
    (constructsFrom content cursor found).filterMap Construct.block? = found := by
  have none : ∀ spans : List Span, (spans.map Construct.span).filterMap Construct.block? = [] := by
    intro spans
    rw [List.filterMap_map, List.filterMap_eq_nil_iff]
    exact fun span _ => rfl
  induction found generalizing cursor with
  | nil => exact none _
  | cons block rest ih =>
    rw [constructsFrom, List.filterMap_append, none, List.nil_append]
    exact congrArg (block :: ·) (ih block.stop)

theorem stretches_eq (content : List Char) :
    stretches content = stretchesFrom content.length 0 (blocks content) := by
  rw [stretches, constructs, filterMap_block?]

section

variable {content : List Char} {stretch : Stretch}

theorem spans_of_stretch (fits : stretch.Fits content) :
    ∀ span ∈ spansFrom 0 stretch.start (stretch.text content),
      stretch.start ≤ span.start ∧ span.start < span.stop ∧ span.stop ≤ stretch.stop :=
  fun span found => (gap_spans fits.ordered fits.inside fits.closed span found).1

theorem fits_stretches (member : stretch ∈ stretches content) : stretch.Fits content := by
  rw [stretches_eq] at member
  exact ((laid_blocks content).stretches.1 stretch member).2

theorem mem_reportedSpans {span : Span} : span ∈ reportedSpans content ↔
    ∃ stretch ∈ stretches content, span ∈ spansFrom 0 stretch.start (stretch.text content) := by
  rw [stretches_eq, ← mem_constructsFrom_span, reportedSpans, List.mem_filterMap]
  constructor
  · rintro ⟨c, member, found⟩
    cases c with
    | block b => cases found
    | span s =>
      cases found
      exact member
  · exact fun member => ⟨_, member, rfl⟩

theorem reports_stretch (member : stretch ∈ stretches content) :
    Reports (reportedSpans content) stretch.start (stretch.text content)
      (spansFrom 0 stretch.start (stretch.text content)) := by
  refine ⟨fun span found => mem_reportedSpans.mpr ⟨stretch, member, found⟩, ?_⟩
  intro span reported start stop
  obtain ⟨other, there, found⟩ := mem_reportedSpans.mp reported
  have fits := fits_stretches member
  have inside := spans_of_stretch (fits_stretches there) span found
  rw [Stretch.text, length_slice fits.inside] at stop
  -- no two stretches overlap, so the span cannot be one of another stretch
  have sorted := (laid_blocks content).stretches.2
  rw [← stretches_eq] at sorted
  rcases eq_or_of_pairwise sorted there member with same | before | behind
  · rwa [same] at found
  · omega
  · omega

theorem tours_stretch (member : stretch ∈ stretches content) :
    Tours (reportedSpans content) stretch.start (stretch.text content)
      (spansFrom 0 stretch.start (stretch.text content)) := by
  have walk : Walks stretch.start (stretch.text content) _ := walks_spansFrom 0 stretch.start _
  exact walk.tours (reports_stretch member)

theorem slice_of_text {before after : List Char} (whole : stretch.text content = before ++ after) :
    slice content (stretch.start + before.length) stretch.stop = after := by
  rw [← drop_slice, ← Stretch.text, whole, List.drop_left]

end

/-- No span is missed and none ends late. A walk over what the blocks of a document leave, past the
    spans that are found there, comes upon no run of backticks which another one of its width
    follows before a blank line; and each span that is found is on such a walk and ends at the
    first run of the width of the one that opens it. -/
theorem spans_paired (content : List Char) :
    (∀ stretch ∈ stretches content, ∀ start width, .run start width ∈ walk content stretch →
      Unpaired width (slice content start stretch.stop)) ∧
    ∀ span ∈ reportedSpans content, ∃ stretch ∈ stretches content,
      .span span ∈ walk content stretch ∧ span.stop ≤ stretch.stop ∧
      Paired (span.stop - span.start) (slice content span.start stretch.stop) := by
  constructor
  · intro stretch member start width met
    obtain ⟨before, after, run⟩ := (tours_stretch member).runs start width met
    have here := slice_of_text run.whole
    rw [← run.start_eq] at here
    exact ⟨after, here, run.positive, run.right, fun _ _ found =>
      holdsBlankLine_of_noRun run.positive run.none found⟩
  · intro span reported
    obtain ⟨stretch, member, found⟩ := mem_reportedSpans.mp reported
    have walk : Walks stretch.start (stretch.text content) _ := walks_spansFrom 0 stretch.start _
    obtain ⟨before, middle, after, width, inside⟩ := walk.encloses span found
    have here := slice_of_text inside.whole
    rw [← inside.start_eq] at here
    have length : span.stop - span.start = width + middle.length + width := by
      rw [inside.stop_eq]
      omega
    have bounds := spans_of_stretch (fits_stretches member) span found
    exact ⟨stretch, member, (tours_stretch member).spans span found, bounds.2.2, width, middle,
      after, here, inside.toDelimited, length⟩

/-- A run that an escape splits, and one that a blank line keeps from opening a span. -/
example :
    let content := "\\```a`` `b\n\nc`".toList
    stretches content = [⟨0, 14⟩] ∧ walk content ⟨0, 14⟩ =
      [.span ⟨2, 7, "a".toList⟩, .run 8 1, .run 13 1] := by decide

end BookHighlight.Markdown
