import BookHighlight.Proofs.Markdown.Move
import BookHighlight.Proofs.Markdown.State

namespace BookHighlight.Markdown

structure InRow (ls : List Line) : Prop where
  bounds : ∀ line ∈ ls, line.start ≤ line.stop
  sorted : ls.Pairwise fun left right => left.stop ≤ right.start

theorem inRow_lines (content : List Char) : InRow (lines content) :=
  have ordered := (lined_lines content).ordered
  ⟨fun line member => (ordered.1 line member).2.1, ordered.2⟩

theorem InRow.tail {line : Line} {rest : List Line} (h : InRow (line :: rest)) : InRow rest :=
  ⟨(List.forall_mem_cons.mp h.bounds).2, h.sorted.of_cons⟩

theorem InRow.stop_le_lastLine {first line : Line} {front rest : List Line} {taken : Nat}
    (h : InRow (first :: (front ++ line :: rest))) (long : front.length < taken) :
    first.start ≤ line.start ∧ line.stop ≤ (lastLine first (front ++ line :: rest) taken).stop := by
  obtain ⟨bounds, sorted⟩ := h
  obtain ⟨before, sorted⟩ := List.pairwise_cons.mp sorted
  constructor
  · have start := bounds first (List.mem_cons_self ..)
    have stop := before line (by simp)
    omega
  · obtain ⟨more, rfl⟩ := Nat.exists_eq_add_of_lt long
    have taken : (front ++ line :: rest).take (front.length + more + 1) =
        front ++ line :: rest.take more := by
      rw [Nat.add_assoc, List.take_length_add_append, List.take_succ_cons]
    rw [lastLine, taken]
    rcases (rest.take more).eq_nil_or_concat with none | ⟨inner, last, some⟩
    · rw [none, List.getLastD_concat]
    · have member : last ∈ rest := List.mem_of_mem_take (by rw [some]; simp)
      have whole : front ++ line :: rest.take more = (front ++ line :: inner) ++ [last] := by
        rw [some]
        simp
      rw [whole, List.getLastD_concat]
      have after := (List.pairwise_cons.mp (List.pairwise_append.mp sorted).2.1).1 last member
      have stop := bounds last (by simp [member])
      omega

theorem fencedBlock_taken_le (lead : List Char) (opening : Opening) (line : Line)
    (rest : List Line) : (fencedBlock lead opening line rest).2 ≤ rest.length := by
  have inside : (readLines lead opening rest).1.map (·.1) ++
      (readLines lead opening rest).2.toList <+: rest := fencedLines_inside _ _ _ rest
  have length := inside.length_le
  rw [List.length_append, List.length_map] at length
  cases read : readLines lead opening rest with
  | mk body closing =>
    rw [read] at length
    cases closing with
    | some closing => rwa [fencedBlock_closed read]
    | none =>
      have kept := (dropBlankEnd_inside (·.1) body).length_le
      rw [fencedBlock_unclosed read]
      exact kept.trans (Nat.le_of_add_right_le length)

theorem Starts.taken_le {s : BlockState} {line : Line} {rest : List Line} {found : Block × Nat}
    (h : Starts s line rest found) : found.2 ≤ rest.length := by
  cases h with
  | indented =>
    apply (dropBlankEnd_inside id _).length_le.trans
    exact (List.takeWhile_prefix _).length_le
  | fenced => exact fencedBlock_taken_le _ _ line rest

def Block.Holds (block : Block) (line : Line) : Prop :=
  block.start ≤ line.start ∧ line.stop ≤ block.stop

theorem exists_holds_of_long {s s' : BlockState} {first line : Line} {front rest : List Line}
    {block : Block} {taken : Nat}
    (step : s.step first (front ++ line :: rest) = (s', some (block, taken)))
    (long : front.length < taken) (row : InRow (first :: (front ++ line :: rest))) :
    ∃ block ∈ blocksFrom 0 s (first :: (front ++ line :: rest)), block.Holds line := by
  have covers := (step_starts step).covers
  obtain ⟨start, stop⟩ := row.stop_le_lastLine long
  refine ⟨block, ?_, covers.start_eq.trans_le start, stop.trans_eq covers.stop_eq.symm⟩
  rw [blocksFrom, step]
  exact List.mem_cons_self ..

/-- A line at the margin that closes no fence: only a fenced block can go on behind it, and then
    it holds the line. -/
structure Line.Stops (line : Line) : Prop where
  nonblank : line.isBlank = false
  flush : indentWidth line.text = 0
  inert : ∀ lead fence, Fence.Proper fence → fence.closedBy (stripContainer lead line.text) = false

section

variable {line : Line} (stops : line.Stops)

include stops

theorem fencedLines_cut (container lead : List Char) {fence : Fence} (proper : fence.Proper)
    (front : List Line) :
    (∀ rest, ∃ body text more closing,
      fencedLines container lead fence (front ++ line :: rest) =
        (body ++ (line, text) :: more, closing) ∧ body.length = front.length) ∨
    ∀ rest, fencedLines container lead fence (front ++ line :: rest) =
      fencedLines container lead fence front := by
  induction front with
  | nil =>
    have opens := stops.inert lead fence proper
    by_cases inside : line.continues container = true
    · left
      intro rest
      refine ⟨[], stripContainer lead line.text, (fencedLines container lead fence rest).1,
        (fencedLines container lead fence rest).2, ?_, rfl⟩
      rw [List.nil_append, fencedLines_cons, if_pos inside, opens]
      rfl
    · right
      intro rest
      rw [List.nil_append, fencedLines_cons, if_neg inside]
      rfl
  | cons first front ih =>
    by_cases inside : first.continues container = true
    · by_cases closes : fence.closedBy (stripContainer lead first.text) = true
      · right
        intro rest
        rw [List.cons_append, fencedLines_cons, fencedLines_cons, if_pos inside, if_pos inside,
          if_pos closes, if_pos closes]
      · rcases ih with holds | stays
        · left
          intro rest
          obtain ⟨body, text, more, closing, found, length⟩ := holds rest
          refine ⟨(first, stripContainer lead first.text) :: body, text, more, closing, ?_,
            congrArg (· + 1) length⟩
          rw [List.cons_append, fencedLines_cons, if_pos inside, if_neg closes, found]
          rfl
        · right
          intro rest
          rw [List.cons_append, fencedLines_cons, fencedLines_cons, stays rest]
    · right
      intro rest
      rw [List.cons_append, fencedLines_cons, fencedLines_cons, if_neg inside, if_neg inside]

theorem lt_length_dropBlankEnd {α : Type} (read : α → Line) (item : α) (same : read item = line)
    (body more : List α) : body.length < (dropBlankEnd read (body ++ item :: more)).length := by
  let blank := fun item => (read item).isBlank
  have kept : ¬ blank item = true := by simp [blank, same, stops.nonblank]
  have whole : body ++ item :: more = (body ++ [item]) ++ more := by simp
  change body.length < ((body ++ item :: more).reverse.dropWhile blank).reverse.length
  rw [whole, List.reverse_append, List.reverse_append, List.dropWhile_append]
  split
  · rw [List.reverse_singleton, List.singleton_append, List.dropWhile_cons_of_neg kept]
    simp
  · simp only [List.length_reverse, List.length_append, List.length_singleton]
    omega

theorem fencedBlock_cut (lead : List Char) {opening : Opening} (proper : opening.fence.Proper)
    (first : Line) (front : List Line) :
    (∀ rest, front.length < (fencedBlock lead opening first (front ++ line :: rest)).2) ∨
    ∀ rest, fencedBlock lead opening first (front ++ line :: rest) =
      fencedBlock lead opening first front := by
  rcases fencedLines_cut stops (containerOf lead opening)
    (containerOf lead opening ++ opening.indent) proper front with holds | stays
  · left
    intro rest
    obtain ⟨body, text, more, closing, found, length⟩ := holds rest
    have read : readLines lead opening (front ++ line :: rest) =
      (body ++ (line, text) :: more, closing) := found
    cases closing with
    | some closing =>
      rw [fencedBlock_closed read, List.length_append, List.length_cons]
      omega
    | none =>
      rw [fencedBlock_unclosed read, ← length]
      exact lt_length_dropBlankEnd stops (·.1) (line, text) rfl body more
  · right
    intro rest
    have same := stays rest
    unfold containerOf at same
    unfold fencedBlock
    dsimp only
    rw [same]

theorem indentedBlock_cut (base : Nat) (first : Line) (front rest : List Line) :
    indentedBlock base first (front ++ line :: rest) = indentedBlock base first front := by
  let inside := fun line : Line => line.isBlank || decide (base + 4 ≤ indentWidth line.text)
  have outside : ¬ inside line = true := by simp [inside, stops.nonblank, stops.flush]
  have same : (front ++ line :: rest).takeWhile inside = front.takeWhile inside := by
    rw [List.takeWhile_append, List.takeWhile_cons_of_neg outside, List.append_nil]
    split
    · rename_i whole
      exact ((List.takeWhile_prefix inside).eq_of_length whole).symm
    · rfl
  unfold indentedBlock
  dsimp only
  rw [same]

theorem step_cut (s : BlockState) (first : Line) (front : List Line) :
    (∀ rest, ∃ s' block taken, s.step first (front ++ line :: rest) = (s', some (block, taken)) ∧
      front.length < taken) ∨
    ∀ rest, s.step first (front ++ line :: rest) = s.step first front := by
  have reading := s.reading first
  generalize s.step first = step at reading ⊢
  cases reading with
  | blank _ => exact .inr fun _ => rfl
  | indented _ _ _ =>
    right
    intro rest
    dsimp only
    rw [indentedBlock_cut stops]
  | @fenced opening _ opens =>
    rcases fencedBlock_cut stops (s.split first).1 (openingFrom_proper opens) first front with
      holds | stays
    · left
      intro rest
      exact ⟨_, _, _, rfl, holds rest⟩
    · right
      intro rest
      dsimp only
      rw [stays rest]
  | text _ _ => exact .inr fun _ => rfl

/-- A document up to a line at the margin is scanned on its own, whatever lines follow, unless it
    is left in a fenced block that goes on over the line. -/
theorem blocksFrom_cut {skip : Nat} (s : BlockState) {front : List Line}
    (inside : skip ≤ front.length) :
    (∀ rest, InRow (front ++ line :: rest) →
      ∃ block ∈ blocksFrom skip s (front ++ line :: rest), block.Holds line) ∨
    ∀ rest, blocksFrom skip s (front ++ line :: rest) =
      blocksFrom skip s front ++ blocksFrom 0 (stateFrom skip s front) (line :: rest) := by
  fun_induction stateFrom skip s front with
  | case1 skip s =>
    right
    intro rest
    rw [Nat.le_zero.mp inside]
    rfl
  | case2 s skip first front ih =>
    rcases ih (Nat.le_of_succ_le_succ inside) with holds | apart
    · left
      intro rest row
      exact holds rest row.tail
    · right
      exact apart
  | case3 s first front s' block taken step ih =>
    rcases step_cut stops s first front with holds | stays
    · left
      intro rest row
      obtain ⟨_, _, _, step, long⟩ := holds rest
      exact exists_holds_of_long step long row
    · have few : taken ≤ front.length := (step_starts step).taken_le
      rcases ih few with holds | apart
      · left
        intro rest row
        obtain ⟨block, member, covers⟩ := holds rest row.tail
        refine ⟨block, ?_, covers⟩
        rw [List.cons_append, blocksFrom, stays rest, step]
        exact List.mem_cons_of_mem _ member
      · right
        intro rest
        rw [List.cons_append, blocksFrom, stays rest, step, blocksFrom, step]
        exact congrArg (block :: ·) (apart rest)
  | case4 s first front s' step ih =>
    rcases step_cut stops s first front with holds | stays
    · left
      intro rest row
      obtain ⟨_, _, _, step, long⟩ := holds rest
      exact exists_holds_of_long step long row
    · rcases ih (Nat.zero_le _) with holds | apart
      · left
        intro rest row
        obtain ⟨block, member, covers⟩ := holds rest row.tail
        refine ⟨block, ?_, covers⟩
        rwa [List.cons_append, blocksFrom, stays rest, step]
      · right
        intro rest
        rw [List.cons_append, blocksFrom, stays rest, step, blocksFrom, step]
        exact apart rest

end

end BookHighlight.Markdown
