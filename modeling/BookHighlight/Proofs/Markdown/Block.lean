import BookHighlight.Markdown.Block
import BookHighlight.Proofs.Markdown.Column
import BookHighlight.Proofs.Markdown.Fence
import Mathlib.Data.List.DropRight

namespace BookHighlight.Markdown

/-- How blocks come about: a line that starts none is passed, one that starts a block takes the
    lines of the block with it. -/
inductive Scans : BlockState → List Line → List Block → Prop where
  | done {s} : Scans s [] []
  | pass {s s' line rest blocks} :
      s.step line rest = (s', none) → Scans s' rest blocks → Scans s (line :: rest) blocks
  | found {s s' line rest block taken blocks} :
      s.step line rest = (s', some (block, taken)) → Scans s' (rest.drop taken) blocks →
      Scans s (line :: rest) (block :: blocks)

theorem scans_blocksFrom (skip : Nat) (s : BlockState) (ls : List Line) :
    Scans s (ls.drop skip) (blocksFrom skip s ls) := by
  fun_induction blocksFrom skip s ls with
  | case1 skip s => simpa using Scans.done
  | case2 s skip line rest ih => exact ih
  | case3 s line rest s' block taken step ih => exact .found step ih
  | case4 s line rest s' step ih => exact .pass step ih

theorem scans_blocks (content : List Char) : Scans .initial (lines content) (blocks content) :=
  scans_blocksFrom 0 .initial (lines content)

def BlockState.at (s : BlockState) (line : Line) : BlockState := s.atIndent (indentWidth line.text)

def BlockState.columns (s : BlockState) (line : Line) : Nat :=
  min (s.at line).base (indentWidth line.text)

inductive Starts (s : BlockState) (line : Line) (rest : List Line) : Block × Nat → Prop where
  | indented : line.isBlank = false → (s.at line).paragraph = false →
      (s.at line).base + 4 ≤ indentWidth line.text →
      Starts s line rest (indentedBlock (s.at line).base line rest)
  | fenced {opening} : line.isBlank = false →
      Opening.ofText? (splitColumns (s.columns line) line.text).2 = some opening →
      Starts s line rest
        (fencedBlock (splitColumns (s.columns line) line.text).1 opening line rest)

theorem step_starts {s s' : BlockState} {line : Line} {rest : List Line} {found : Block × Nat}
    (h : s.step line rest = (s', some found)) : Starts s line rest found := by
  unfold BlockState.step at h
  split at h
  · cases h
  · rename_i nonblank
    rw [Bool.not_eq_true] at nonblank
    dsimp only at h
    split at h
    · rename_i indented
      simp only [Bool.and_eq_true, Bool.not_eq_true', decide_eq_true_eq] at indented
      cases h
      exact .indented nonblank indented.1 indented.2
    · split at h
      · rename_i opening opens
        cases h
        exact .fenced nonblank opens
      · cases h

def lastLine (line : Line) (rest : List Line) (taken : Nat) : Line :=
  (rest.take taken).getLastD line

theorem lastLine_of_inside (line : Line) {rest body : List Line} (h : body <+: rest) :
    lastLine line rest body.length = body.getLastD line := by
  rw [lastLine, ← List.prefix_iff_eq_take.mp h]

structure Covers (line : Line) (rest : List Line) (found : Block × Nat) : Prop where
  start_eq : found.1.start = line.start
  stop_eq : found.1.stop = (lastLine line rest found.2).stop
  last : (lastLine line rest found.2).isBlank = false

theorem dropBlankEnd_inside {α : Type} (line : α → Line) (items : List α) :
    dropBlankEnd line items <+: items := by
  change items.rdropWhile (fun item => (line item).isBlank) <+: items
  exact List.rdropWhile_prefix _ _

theorem dropBlankEnd_last {α : Type} (line : α → Line) (items : List α) {first : Line}
    (nonblank : first.isBlank = false) :
    (((dropBlankEnd line items).map line).getLastD first).isBlank = false := by
  change (((items.rdropWhile fun item => (line item).isBlank).map line).getLastD
    first).isBlank = false
  by_cases some : (items.rdropWhile fun item => (line item).isBlank) = []
  · simpa [some] using nonblank
  · have last := List.rdropWhile_last_not _ _ some
    rw [Bool.not_eq_true] at last
    rw [List.getLastD_eq_getLast?, List.getLast?_map, List.getLast?_eq_some_getLast some]
    exact last

theorem indentedBlock_covers {line : Line} (nonblank : line.isBlank = false) (base : Nat)
    (rest : List Line) : Covers line rest (indentedBlock base line rest) := by
  let code := rest.takeWhile fun line => line.isBlank || base + 4 ≤ indentWidth line.text
  have inside : dropBlankEnd id code <+: rest :=
    (dropBlankEnd_inside id code).trans <| List.takeWhile_prefix _
  have last := lastLine_of_inside line inside
  have ends := dropBlankEnd_last id code nonblank
  rw [List.map_id, ← last] at ends
  exact ⟨rfl, congrArg Line.stop last.symm, ends⟩

/-- The lines of a fenced block are the next ones, up to the line that closes it. -/
theorem fencedLines_inside (container lead : List Char) (fence : Fence) (rest : List Line) :
    (fencedLines container lead fence rest).1.map (·.1) ++
      (fencedLines container lead fence rest).2.toList <+: rest := by
  induction rest with
  | nil => simp [fencedLines]
  | cons line rest ih =>
    unfold fencedLines
    split
    · dsimp only
      split
      · simp
      · simpa using ih
    · simp

theorem fencedLines_closing {container lead : List Char} {fence : Fence} {rest : List Line}
    {closing : Line} (h : (fencedLines container lead fence rest).2 = some closing) :
    fence.closedBy (stripContainer lead closing.text) = true := by
  induction rest with
  | nil => cases h
  | cons line rest ih =>
    unfold fencedLines at h
    split at h
    · dsimp only at h
      split at h
      · rename_i closes
        cases h
        exact closes
      · exact ih h
    · cases h

theorem fencedBlock_covers {line : Line} (nonblank : line.isBlank = false) (lead : List Char)
    {opening : Opening} (proper : opening.fence.Proper) (rest : List Line) :
    Covers line rest (fencedBlock lead opening line rest) := by
  unfold fencedBlock
  dsimp only
  generalize lead ++ blankMarkers opening.container = container
  have inside := fencedLines_inside container (container ++ opening.indent) opening.fence rest
  have closes := @fencedLines_closing container (container ++ opening.indent) opening.fence rest
  generalize fencedLines container (container ++ opening.indent) opening.fence rest = found at *
  obtain ⟨body, closing⟩ := found
  cases closing with
  | some closing =>
    have last := lastLine_of_inside line inside
    simp only [Option.toList_some, List.length_append, List.length_map, List.length_singleton,
      List.getLastD_concat] at last
    refine ⟨rfl, congrArg Line.stop last.symm, ?_⟩
    change (lastLine line rest (body.length + 1)).isBlank = false
    rw [last]
    exact proper.closing_not_isBlank (closes rfl)
  | none =>
    have kept : (dropBlankEnd (·.1) body).map (·.1) <+: rest :=
      ((dropBlankEnd_inside (·.1) body).map _).trans (by simpa using inside)
    have last := lastLine_of_inside line kept
    have ends := dropBlankEnd_last (·.1) body nonblank
    rw [List.length_map] at last
    rw [← last] at ends
    exact ⟨rfl, congrArg Line.stop last.symm, ends⟩

theorem Starts.covers {s : BlockState} {line : Line} {rest : List Line} {found : Block × Nat}
    (h : Starts s line rest found) : Covers line rest found := by
  cases h with
  | indented nonblank _ _ => exact indentedBlock_covers nonblank _ rest
  | fenced nonblank opens => exact fencedBlock_covers nonblank _ (openingFrom_proper opens) rest

theorem fencedBlock_lead (lead : List Char) (opening : Opening) (line : Line) (rest : List Line) :
    (fencedBlock lead opening line rest).1.lead = lead ++ opening.container ++ opening.indent := by
  unfold fencedBlock
  dsimp only
  split <;> rfl

theorem Starts.lead_chars {s : BlockState} {line : Line} {rest : List Line} {found : Block × Nat}
    (h : Starts s line rest found) : ∀ c ∈ found.1.lead, c = ' ' ∨ c ∈ line.text := by
  intro c member
  cases h with
  | indented _ _ _ => exact .inl (List.eq_of_mem_replicate member)
  | @fenced opening _ opens =>
    obtain ⟨pad, kept, whole, split⟩ := splitColumns_source (s.columns line) line.text
    have opened := openingFrom_source opens
    rw [List.nil_append, split] at opened
    rw [fencedBlock_lead, List.append_assoc] at member
    rcases List.mem_append.mp member with split | marked
    · rw [whole]
      exact .inr (List.mem_append_left kept split)
    · have inside : c ∈ List.replicate pad ' ' ++ kept := by
        rw [opened, List.append_assoc]
        exact List.mem_append_left _ marked
      rcases List.mem_append.mp inside with space | later
      · exact .inl (List.eq_of_mem_replicate space)
      · rw [whole]
        exact .inr (List.mem_append_right _ later)

theorem lastLine_mem (line : Line) (rest : List Line) (taken : Nat) :
    lastLine line rest taken ∈ line :: rest.take taken := by
  unfold lastLine
  cases (rest.take taken).eq_nil_or_concat with
  | inl none => simp [none]
  | inr some =>
    obtain ⟨front, last, concat⟩ := some
    simp [concat]

namespace Scans

variable {s : BlockState} {ls : List Line} {found : List Block}

theorem exists_starts (h : Scans s ls found) :
    ∀ block ∈ found, ∃ s' line rest taken, line :: rest <:+ ls ∧
      Starts s' line rest (block, taken) := by
  induction h with
  | done => simp
  | pass step _ ih =>
    intro block member
    obtain ⟨s', line, rest, taken, inside, starts⟩ := ih block member
    exact ⟨s', line, rest, taken, inside.trans (List.suffix_cons _ _), starts⟩
  | @found s s' line rest block taken _ step _ ih =>
    refine List.forall_mem_cons.mpr ⟨?_, fun later member => ?_⟩
    · exact ⟨s, line, rest, taken, List.suffix_refl _, step_starts step⟩
    · obtain ⟨s', first, rest', taken', inside, starts⟩ := ih later member
      exact ⟨s', first, rest', taken', inside.trans
        ((List.drop_suffix _ _).trans (List.suffix_cons _ _)), starts⟩

theorem pairwise (h : Scans s ls found)
    (sorted : ls.Pairwise fun left right => left.stop ≤ right.start) :
    found.Pairwise fun left right => left.stop ≤ right.start := by
  induction h with
  | done => exact .nil
  | pass _ _ ih => exact ih sorted.of_cons
  | @found s s' line rest block taken blocks step later ih =>
    have split : line :: rest = (line :: rest.take taken) ++ rest.drop taken := by simp
    rw [split] at sorted
    obtain ⟨_, after, apart⟩ := List.pairwise_append.mp sorted
    refine List.pairwise_cons.mpr ⟨fun next member => ?_, ih after⟩
    have covers := (step_starts step).covers
    obtain ⟨_, first, rest', _, inside, starts⟩ := later.exists_starts next member
    have start := starts.covers.start_eq
    have stop := covers.stop_eq
    have gap := apart _ (lastLine_mem line rest taken) first (inside.mem (by simp))
    simp only at start stop
    omega

end Scans

structure OnLines (ls : List Line) (block : Block) (first last : Line) : Prop where
  first_mem : first ∈ ls
  last_mem : last ∈ ls
  start_eq : block.start = first.start
  stop_eq : block.stop = last.stop
  first_nonblank : first.isBlank = false
  last_nonblank : last.isBlank = false
  order : first = last ∨ first.stop ≤ last.start

theorem Starts.nonblank {s : BlockState} {line : Line} {rest : List Line} {found : Block × Nat}
    (h : Starts s line rest found) : line.isBlank = false := by
  cases h with
  | indented nonblank _ _ => exact nonblank
  | fenced nonblank _ => exact nonblank

theorem Scans.onLines {s : BlockState} {ls : List Line} {found : List Block} (h : Scans s ls found)
    (sorted : ls.Pairwise fun left right => left.stop ≤ right.start) :
    ∀ block ∈ found, ∃ first last, OnLines ls block first last := by
  intro block member
  obtain ⟨_, line, rest, taken, inside, starts⟩ := h.exists_starts block member
  have covers := starts.covers
  have last := lastLine_mem line rest taken
  have whole : (line :: rest.take taken).Sublist ls :=
    ((List.take_sublist _ _).cons_cons line).trans inside.sublist
  have ordered := List.pairwise_cons.mp (sorted.sublist whole)
  refine ⟨line, lastLine line rest taken, inside.mem (by simp), whole.mem last, covers.start_eq,
    covers.stop_eq, starts.nonblank, covers.last, ?_⟩
  rcases List.mem_cons.mp last with same | later
  · exact .inl same.symm
  · exact .inr (ordered.1 _ later)

end BookHighlight.Markdown
