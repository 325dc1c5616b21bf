import BookHighlight.Proofs.Markdown.Block
import BookHighlight.Proofs.Markdown.Line
import BookHighlight.Proofs.Markdown.Slice
import BookHighlight.Proofs.Markdown.Span

namespace BookHighlight.Markdown

open Text (isLineBreak)

structure Block.Fits (content : List Char) (block : Block) : Prop where
  nonempty : block.start < block.stop
  inside : block.stop ≤ content.length
  atStart : AtLineStart (content.take block.start)

theorem Line.text_ne_nil {line : Line} (nonblank : line.isBlank = false) : line.text ≠ [] := by
  intro none
  simp [Line.isBlank, none, Text.isBlankText] at nonblank

theorem OnLines.fits {content : List Char} {block : Block} {first last : Line}
    (h : OnLines (lines content) block first last) : block.Fits content := by
  have lined := lined_lines content
  obtain ⟨bounds, _⟩ := lined.ordered
  obtain ⟨before, after, whole, start, stop, atStart⟩ := lined.source first h.first_mem
  have some := List.length_pos_iff.mpr (Line.text_ne_nil h.first_nonblank)
  have lastBounds := bounds last h.last_mem
  have starts := h.start_eq
  have stops := h.stop_eq
  refine ⟨?_, by omega, ?_⟩
  · rcases h.order with same | later
    · subst same
      omega
    · omega
  · have length : block.start = before.length := by omega
    rw [length, whole, List.append_assoc, List.take_left']
    · exact atStart
    · rfl

theorem exists_onLines (content : List Char) :
    ∀ block ∈ blocks content, ∃ first last, OnLines (lines content) block first last :=
  (scans_blocks content).onLines (lined_lines content).ordered.2

theorem blocks_fit (content : List Char) : ∀ block ∈ blocks content, block.Fits content := by
  intro block member
  obtain ⟨first, last, onLines⟩ := exists_onLines content block member
  exact onLines.fits

theorem blocks_pairwise (content : List Char) :
    (blocks content).Pairwise fun left right => left.stop ≤ right.start :=
  (scans_blocks content).pairwise (lined_lines content).ordered.2

theorem lf_not_mem_lead (content : List Char) : ∀ block ∈ blocks content, '\n' ∉ block.lead := by
  intro block member lf
  obtain ⟨_, line, rest, _, inside, starts⟩ := (scans_blocks content).exists_starts block member
  rcases starts.lead_chars '\n' lf with space | inLine
  · exact absurd space (by decide)
  · exact (lined_lines content).lf_not_mem line (inside.mem (by simp)) inLine

/-- The spans of a gap are spans of the whole text: the gap ends where the text does, or before a
    line, and so no run of backticks goes on after it. -/
theorem gap_spans {content : List Char} {cursor stop : Nat} (ordered : cursor ≤ stop)
    (inside : stop ≤ content.length)
    (closed : stop = content.length ∨ AtLineStart (content.take stop)) :
    ∀ span ∈ spansFrom 0 cursor (slice content cursor stop),
      (cursor ≤ span.start ∧ span.start < span.stop ∧ span.stop ≤ stop) ∧
        ∃ before middle after width, Encloses 0 content span before width middle after := by
  intro span member
  have walk : Walks cursor (slice content cursor stop) _ := walks_spansFrom 0 cursor _
  obtain ⟨before, middle, after, width, found⟩ := walk.encloses span member
  have bounds := found.bounds
  rw [length_slice inside] at bounds
  refine ⟨⟨bounds.1, bounds.2.1, by omega⟩, ?_⟩
  have apart : (after ++ content.drop stop).head? ≠ some '`' := by
    cases after with
    | cons c after => simpa using found.right
    | nil =>
      rcases closed with rfl | atStart
      · simp
      · have positive := Nat.ne_of_gt found.positive
        have last : (content.take stop).getLast? = some '`' := by
          rw [← take_append_slice ordered, found.whole]
          simp [ticks, List.getLast?_replicate, positive]
        rcases atStart with none | ⟨c, tick, ends⟩
        · simp [none] at last
        · rw [last, Option.mem_some_iff] at tick
          subst tick
          exact absurd ends (by decide)
  have shifted := found.append apart
  have length : 0 + (content.take cursor).length = cursor := by
    rw [List.length_take]
    omega
  rw [slice_append_drop ordered, ← length] at shifted
  have whole := shifted.prepend
  rw [length, List.take_append_drop] at whole
  exact ⟨_, _, _, _, whole⟩

structure Laid (content : List Char) (cursor : Nat) (found : List Block) : Prop where
  inside : cursor ≤ content.length
  fits : ∀ block ∈ found, block.Fits content
  after : ∀ block ∈ found, cursor ≤ block.start
  sorted : found.Pairwise fun left right => left.stop ≤ right.start

theorem laid_blocks (content : List Char) : Laid content 0 (blocks content) :=
  ⟨Nat.zero_le _, blocks_fit content, fun _ _ => Nat.zero_le _, blocks_pairwise content⟩

theorem Laid.tail {content : List Char} {cursor : Nat} {block : Block} {rest : List Block}
    (h : Laid content cursor (block :: rest)) : Laid content block.stop rest := by
  obtain ⟨_, fits, _, sorted⟩ := h
  obtain ⟨first, fits⟩ := List.forall_mem_cons.mp fits
  obtain ⟨after, sorted⟩ := List.pairwise_cons.mp sorted
  exact ⟨first.inside, fits, after, sorted⟩

structure Stretch where
  start : Nat
  stop : Nat
  deriving DecidableEq, Repr

def Stretch.text (content : List Char) (stretch : Stretch) : List Char :=
  slice content stretch.start stretch.stop

def stretchesFrom (stop : Nat) : (cursor : Nat) → List Block → List Stretch
  | cursor, [] => [⟨cursor, stop⟩]
  | cursor, block :: rest => ⟨cursor, block.start⟩ :: stretchesFrom stop block.stop rest

theorem mem_constructsFrom_span {content : List Char} {cursor : Nat} {found : List Block}
    {span : Span} : .span span ∈ constructsFrom content cursor found ↔
      ∃ stretch ∈ stretchesFrom content.length cursor found,
        span ∈ spansFrom 0 stretch.start (stretch.text content) := by
  induction found generalizing cursor with
  | nil => simp [constructsFrom, stretchesFrom, Stretch.text, slice_length]
  | cons block rest ih => simp [constructsFrom, stretchesFrom, Stretch.text, ih]

structure Stretch.Fits (content : List Char) (stretch : Stretch) : Prop where
  ordered : stretch.start ≤ stretch.stop
  inside : stretch.stop ≤ content.length
  closed : stretch.stop = content.length ∨ AtLineStart (content.take stretch.stop)

theorem Laid.stretches {content : List Char} {cursor : Nat} {found : List Block}
    (h : Laid content cursor found) :
    (∀ stretch ∈ stretchesFrom content.length cursor found,
      cursor ≤ stretch.start ∧ stretch.Fits content) ∧
    (stretchesFrom content.length cursor found).Pairwise fun left right =>
      left.stop ≤ right.start := by
  induction found generalizing cursor with
  | nil =>
    refine ⟨List.forall_mem_cons.mpr ⟨⟨Nat.le_refl _, ?_⟩, by simp⟩, List.pairwise_singleton ..⟩
    exact ⟨h.inside, Nat.le_refl _, .inl rfl⟩
  | cons block rest ih =>
    obtain ⟨nonempty, inside, atStart⟩ := h.fits block (List.mem_cons_self ..)
    have ordered := h.after block (List.mem_cons_self ..)
    obtain ⟨fits, sorted⟩ := ih h.tail
    have later : ∀ stretch ∈ stretchesFrom content.length block.stop rest,
        block.start ≤ stretch.start := by
      intro stretch member
      have := (fits stretch member).1
      omega
    refine ⟨List.forall_mem_cons.mpr ⟨⟨Nat.le_refl _, ordered, ?_, .inr atStart⟩, ?_⟩,
      List.pairwise_cons.mpr ⟨later, sorted⟩⟩
    · exact Nat.le_of_lt (nonempty.trans_le inside)
    · exact fun stretch member => ⟨ordered.trans (later stretch member), (fits stretch member).2⟩

structure Placed (content : List Char) (cursor : Nat) (found : List Construct) : Prop where
  bounds : ∀ c ∈ found, cursor ≤ c.start ∧ c.start < c.stop ∧ c.stop ≤ content.length
  sorted : found.Pairwise fun left right => left.stop ≤ right.start

theorem Placed.of_gap {content : List Char} {cursor stop : Nat} {spans : List Span}
    {later : List Construct} (rest : Placed content stop later) (ordered : cursor ≤ stop)
    (inside : stop ≤ content.length)
    (bounds : ∀ span ∈ spans, cursor ≤ span.start ∧ span.start < span.stop ∧ span.stop ≤ stop)
    (sorted : spans.Pairwise fun left right => left.stop ≤ right.start) :
    Placed content cursor (spans.map .span ++ later) := by
  have spanBounds : ∀ c ∈ spans.map Construct.span,
      cursor ≤ c.start ∧ c.start < c.stop ∧ c.stop ≤ stop := by
    intro c member
    obtain ⟨span, inSpans, rfl⟩ := List.mem_map.mp member
    exact bounds span inSpans
  refine ⟨?_, List.pairwise_append.mpr ⟨List.pairwise_map.mpr sorted, rest.sorted, ?_⟩⟩
  · intro c member
    rcases List.mem_append.mp member with early | late
    · have := spanBounds c early
      omega
    · have := rest.bounds c late
      omega
  · intro left early right late
    have before := spanBounds left early
    have after := rest.bounds right late
    omega

theorem Placed.apart {content : List Char} {cursor : Nat} {found : List Construct}
    (h : Placed content cursor found) {c d : Construct} (left : c ∈ found) (right : d ∈ found)
    (differ : c ≠ d) : c.stop ≤ d.start ∨ d.stop ≤ c.start :=
  (eq_or_of_pairwise h.sorted left right).resolve_left differ

theorem Laid.placed {content : List Char} {cursor : Nat} {found : List Block}
    (h : Laid content cursor found) :
    Placed content cursor (constructsFrom content cursor found) := by
  induction found generalizing cursor with
  | nil =>
    have gap := gap_spans h.inside (Nat.le_refl _) (.inl rfl)
    have walk : Walks cursor (content.drop cursor) _ := walks_spansFrom 0 cursor _
    rw [slice_length] at gap
    have none : Placed content content.length [] := ⟨by simp, .nil⟩
    have placed := none.of_gap h.inside (Nat.le_refl _) (fun span member => (gap span member).1)
      walk.pairwise
    rwa [List.append_nil] at placed
  | cons block rest ih =>
    obtain ⟨nonempty, inside, atStart⟩ := h.fits block (List.mem_cons_self ..)
    have ordered := h.after block (List.mem_cons_self ..)
    have gap := gap_spans ordered (by omega) (.inr atStart)
    have walk : Walks cursor (slice content cursor block.start) _ := walks_spansFrom 0 cursor _
    have later := ih h.tail
    refine Placed.of_gap ⟨?_, ?_⟩ ordered (by omega) (fun span member => (gap span member).1)
      walk.pairwise
    · refine List.forall_mem_cons.mpr ⟨⟨Nat.le_refl _, nonempty, inside⟩, fun c member => ?_⟩
      have := later.bounds c member
      omega
    · exact List.pairwise_cons.mpr ⟨fun c member => (later.bounds c member).1, later.sorted⟩

theorem Laid.encloses {content : List Char} {cursor : Nat} {found : List Block}
    (h : Laid content cursor found) {span : Span}
    (member : .span span ∈ constructsFrom content cursor found) :
    ∃ before middle after width, Encloses 0 content span before width middle after := by
  obtain ⟨stretch, inside, found⟩ := mem_constructsFrom_span.mp member
  have fits := (h.stretches.1 stretch inside).2
  exact (gap_spans fits.ordered fits.inside fits.closed span found).2

theorem mem_constructsFrom_block {content : List Char} {cursor : Nat} {found : List Block}
    {block : Block} (member : .block block ∈ constructsFrom content cursor found) :
    block ∈ found := by
  induction found generalizing cursor with
  | nil => simp [constructsFrom] at member
  | cons first rest ih =>
    rcases List.mem_append.mp member with early | late
    · simp at early
    · rcases List.mem_cons.mp late with same | later
      · cases same
        exact List.mem_cons_self ..
      · exact List.mem_cons_of_mem _ (ih later)

theorem placed_constructs (content : List Char) : Placed content 0 (constructs content) :=
  (laid_blocks content).placed

/-- The constructs of a document lie in it one after the other, blocks on whole lines and spans
    between their delimiters, outside all blocks. -/
theorem constructs_well_placed (content : List Char) :
    (∀ c ∈ constructs content, c.start < c.stop ∧ c.stop ≤ content.length) ∧
    ((constructs content).Pairwise fun left right => left.stop ≤ right.start) ∧
    (∀ block, .block block ∈ constructs content →
      ∃ first last, OnLines (lines content) block first last) ∧
    ∀ span, .span span ∈ constructs content →
      (∃ before middle after width, Encloses 0 content span before width middle after) ∧
      ∀ block, .block block ∈ constructs content →
        span.stop ≤ block.start ∨ block.stop ≤ span.start := by
  have placed := placed_constructs content
  refine ⟨fun c member => (placed.bounds c member).2, placed.sorted, fun block member => ?_,
    fun span member => ⟨(laid_blocks content).encloses member, fun block other => ?_⟩⟩
  · exact exists_onLines content block (mem_constructsFrom_block member)
  · exact placed.apart member other (by simp)

end BookHighlight.Markdown
