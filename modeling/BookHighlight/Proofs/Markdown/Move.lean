import BookHighlight.Proofs.Markdown.Code

namespace BookHighlight.Markdown

def Line.move (place : Nat → Nat) (line : Line) : Line :=
  ⟨place line.start, place line.stop, line.text⟩

def Block.move (place : Nat → Nat) (block : Block) : Block :=
  { block with start := place block.start, stop := place block.stop }

theorem fencedLines_cons (container lead : List Char) (fence : Fence) (line : Line)
    (rest : List Line) : fencedLines container lead fence (line :: rest) =
      if line.continues container = true then
        if fence.closedBy (stripContainer lead line.text) = true then ([], some line)
        else ((line, stripContainer lead line.text) :: (fencedLines container lead fence rest).1,
          (fencedLines container lead fence rest).2)
      else ([], none) := rfl

section

variable (place : Nat → Nat)

theorem getLastD_map_move (line : Line) (ls : List Line) :
    (ls.map (·.move place)).getLastD (line.move place) = (ls.getLastD line).move place := by
  rw [List.getLastD_eq_getLast?, List.getLastD_eq_getLast?, List.getLast?_map]
  cases ls.getLast? <;> rfl

theorem dropBlankEnd_map {α β : Type} {line : α → Line} {line' : β → Line} {f : α → β}
    (same : ∀ item, (line' (f item)).isBlank = (line item).isBlank) (items : List α) :
    dropBlankEnd line' (items.map f) = (dropBlankEnd line items).map f := by
  have tests : (fun item => (line' item).isBlank) ∘ f = fun item => (line item).isBlank := by
    funext item
    exact same item
  unfold dropBlankEnd
  rw [← List.map_reverse, List.dropWhile_map, tests, ← List.map_reverse]

theorem fencedLines_move (container lead : List Char) (fence : Fence) (ls : List Line) :
    fencedLines container lead fence (ls.map (·.move place)) =
      ((fencedLines container lead fence ls).1.map fun item => (item.1.move place, item.2),
        (fencedLines container lead fence ls).2.map (·.move place)) := by
  induction ls with
  | nil => rfl
  | cons line rest ih =>
    have continues : (line.move place).continues container = line.continues container := rfl
    have text : (line.move place).text = line.text := rfl
    rw [List.map_cons, fencedLines_cons, fencedLines_cons, ih, continues, text]
    split
    · split <;> rfl
    · rfl

theorem fencedBlock_move (lead : List Char) (opening : Opening) (line : Line)
    (rest : List Line) :
    fencedBlock lead opening (line.move place) (rest.map (·.move place)) =
      ((fencedBlock lead opening line rest).1.move place,
        (fencedBlock lead opening line rest).2) := by
  unfold fencedBlock
  dsimp only
  rw [fencedLines_move]
  generalize fencedLines _ _ _ rest = found
  obtain ⟨body, closing⟩ := found
  cases closing with
  | some closing => simp [Block.move, Line.move, Function.comp_def]
  | none =>
    let move := fun item : Line × List Char => (item.1.move place, item.2)
    have kept : dropBlankEnd (·.1) (body.map move) = (dropBlankEnd (·.1) body).map move :=
      dropBlankEnd_map (fun _ => rfl) body
    have last := getLastD_map_move place line ((dropBlankEnd (·.1) body).map (·.1))
    simp only [Option.map_none, kept, List.map_map, Function.comp_def, List.length_map, move]
      at last ⊢
    rw [last]
    rfl

theorem indentedBlock_move (base : Nat) (line : Line) (rest : List Line) :
    indentedBlock base (line.move place) (rest.map (·.move place)) =
      ((indentedBlock base line rest).1.move place, (indentedBlock base line rest).2) := by
  let inside := fun line : Line => line.isBlank || base + 4 ≤ indentWidth line.text
  have kept : dropBlankEnd id ((rest.map (·.move place)).takeWhile inside) =
      (dropBlankEnd id (rest.takeWhile inside)).map (·.move place) := by
    rw [List.takeWhile_map]
    exact dropBlankEnd_map (fun _ => rfl) _
  have last := getLastD_map_move place line (dropBlankEnd id (rest.takeWhile inside))
  unfold indentedBlock
  dsimp only
  rw [kept, last, List.length_map, List.map_cons, List.map_map]
  rfl

theorem BlockState.step_move (s : BlockState) (line : Line) (rest : List Line) :
    s.step (line.move place) (rest.map (·.move place)) =
      ((s.step line rest).1,
        (s.step line rest).2.map fun found => (found.1.move place, found.2)) := by
  have blank : (line.move place).isBlank = line.isBlank := rfl
  have text : (line.move place).text = line.text := rfl
  unfold step
  rw [blank, text]
  split
  · rfl
  · dsimp only
    rw [indentedBlock_move]
    split
    · rfl
    · split
      · rw [fencedBlock_move]
        rfl
      · rfl

end

/-- Where its lines lie has no part in what a scan finds, other than that the blocks lie there. -/
theorem blocksFrom_move (place : Nat → Nat) (skip : Nat) (s : BlockState) (ls : List Line) :
    blocksFrom skip s (ls.map (·.move place)) =
      (blocksFrom skip s ls).map (·.move place) := by
  fun_induction blocksFrom skip s ls with
  | case1 => rfl
  | case2 s skip line rest ih => exact ih
  | case3 s line rest s' block taken step ih =>
    rw [List.map_cons, blocksFrom, s.step_move, step]
    simp [ih]
  | case4 s line rest s' step ih =>
    rw [List.map_cons, blocksFrom, s.step_move, step]
    simp [ih]

end BookHighlight.Markdown
