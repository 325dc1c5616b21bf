import BookHighlight.Transform.Splice
import BookHighlight.Proofs.Markdown.Slice

namespace BookHighlight

open Markdown (slice)

def Edit.apply (edit : Edit) (text : List Char) : List Char :=
  text.take edit.start ++ edit.replacement ++ text.drop edit.stop

def gapsFrom (content : List Char) (cursor : Nat) (edits : List Edit) : List (List Char) :=
  List.zipWith (slice content) (cursor :: edits.map (·.stop))
    (edits.map (·.start) ++ [content.length])

def gaps (content : List Char) (edits : List Edit) : List (List Char) := gapsFrom content 0 edits

def interleave : (parts fillings : List (List Char)) → List Char
  | part :: parts, filling :: fillings => part ++ filling ++ interleave parts fillings
  | parts, _ => parts.flatten

inductive InOrder (content : List Char) : Nat → List Edit → Prop where
  | nil {cursor} : cursor ≤ content.length → InOrder content cursor []
  | cons {cursor edit rest} : cursor ≤ edit.start → edit.start ≤ edit.stop →
      InOrder content edit.stop rest → InOrder content cursor (edit :: rest)

variable {content : List Char} {cursor : Nat} {edits : List Edit}

theorem gapsFrom_nil : gapsFrom content cursor [] = [content.drop cursor] :=
  congrArg (fun part => [part]) Markdown.slice_length

theorem gapsFrom_cons (edit : Edit) (rest : List Edit) :
    gapsFrom content cursor (edit :: rest) =
      slice content cursor edit.start :: gapsFrom content edit.stop rest := rfl

theorem spliceFrom_eq_interleave (content : List Char) (cursor : Nat) (edits : List Edit) :
    spliceFrom content cursor edits =
      interleave (gapsFrom content cursor edits) (edits.map (·.replacement)) := by
  induction edits generalizing cursor with
  | nil => simp [gapsFrom_nil, spliceFrom, interleave]
  | cons edit rest ih =>
    rw [gapsFrom_cons, List.map_cons, interleave, spliceFrom, ih]

theorem splice_eq_interleave (content : List Char) (edits : List Edit) :
    splice content edits = interleave (gaps content edits) (edits.map (·.replacement)) :=
  spliceFrom_eq_interleave content 0 edits

theorem inOrder_of_pairwise (inside : cursor ≤ content.length)
    (bounds : ∀ edit ∈ edits,
      cursor ≤ edit.start ∧ edit.start ≤ edit.stop ∧ edit.stop ≤ content.length)
    (sorted : edits.Pairwise fun left right => left.stop ≤ right.start) :
    InOrder content cursor edits := by
  induction edits generalizing cursor with
  | nil => exact .nil inside
  | cons edit rest ih =>
    obtain ⟨⟨before, nonempty, stop⟩, later⟩ := List.forall_mem_cons.mp bounds
    obtain ⟨after, sorted⟩ := List.pairwise_cons.mp sorted
    refine .cons before nonempty (ih stop (fun next member => ?_) sorted)
    exact ⟨after next member, (later next member).2⟩

namespace InOrder

theorem le_length (h : InOrder content cursor edits) : cursor ≤ content.length := by
  induction h with
  | nil inside => exact inside
  | cons _ _ _ ih => omega

theorem interleave_gapsFrom (h : InOrder content cursor edits) :
    interleave (gapsFrom content cursor edits)
      (edits.map fun edit => slice content edit.start edit.stop) = content.drop cursor := by
  induction h with
  | nil => simp [gapsFrom_nil, interleave]
  | cons before nonempty _ ih =>
    rw [gapsFrom_cons, List.map_cons, interleave, ih, List.append_assoc,
      Markdown.slice_append_drop nonempty, Markdown.slice_append_drop before]

theorem interleave_gaps (h : InOrder content 0 edits) :
    interleave (gaps content edits) (edits.map fun edit => slice content edit.start edit.stop) =
      content :=
  h.interleave_gapsFrom

/-- Edits made one at a time, the last one first, do not move those still to be made. -/
theorem foldr_apply (h : InOrder content cursor edits) :
    edits.foldr Edit.apply content = content.take cursor ++ spliceFrom content cursor edits := by
  induction h with
  | nil => exact (List.take_append_drop _ _).symm
  | @cons cursor edit rest before nonempty later ih =>
    have inside := later.le_length
    have length : (content.take edit.stop).length = edit.stop := by
      rw [List.length_take]
      omega
    have front : (content.take edit.stop ++ spliceFrom content edit.stop rest).take edit.start =
        content.take edit.start := by
      rw [List.take_append_of_le_length (by omega), List.take_take, Nat.min_eq_left nonempty]
    have back : (content.take edit.stop ++ spliceFrom content edit.stop rest).drop edit.stop =
        spliceFrom content edit.stop rest := List.drop_left' length
    rw [List.foldr_cons, ih, Edit.apply, front, back, spliceFrom, List.append_assoc,
      List.append_assoc, ← List.append_assoc (content.take cursor),
      Markdown.take_append_slice before]

theorem splice_eq_foldr (h : InOrder content 0 edits) :
    splice content edits = edits.foldr Edit.apply content :=
  h.foldr_apply.symm

end InOrder

end BookHighlight
