import BookHighlight.Theme.Bundled
import BookHighlight.Proofs.Markdown.Mark
import BookHighlight.Proofs.Transform.Document
import Mathlib.Data.List.Infix

namespace BookHighlight

open Markdown (Construct constructs isFenceMark)

namespace Transformer

variable {t : Transformer} {content : List Char} {chapter : String} {c : Construct}

def plain (t : Transformer) (c : Construct) : Outcome where
  construct := c
  policy := t.policyFor c
  treatment := if (t.policyFor c).highlight then .highlighted (t.html c) else .unchanged

theorem render_policyFor (off : t.config.render = false) (c : Construct) :
    (t.policyFor c).render = false := by
  have block : ∀ tag, (Policy.block t.config tag).render = false := by
    intro tag
    cases tag <;> simp [Policy.block, Policy.skip, apply_ite Policy.render, off]
  unfold policyFor
  split
  · unfold Policy.inline
    split <;> rfl
  · exact block _
  · exact block _

theorem process_plain (off : t.config.render = false) (workshop : Workshop) (c : Construct) :
    t.process workshop c = (.ok (t.plain c), workshop) := by
  cases highlight : (t.policyFor c).highlight with
  | false => simp [process, plain, highlight]
  | true => simp [process, plain, highlight, render_policyFor off c]

theorem processAll_plain (off : t.config.render = false) (workshop : Workshop)
    (cs : List Construct) : t.processAll workshop cs = (.ok (cs.map t.plain), workshop) := by
  induction cs with
  | nil => rfl
  | cons c rest ih => simp [processAll, process_plain off, ih]

theorem transform_plain (off : t.config.render = false) (workshop : Workshop)
    (content : List Char) (chapter : String) :
    t.transform workshop content chapter = (.ok (treated t.plain content chapter), workshop) :=
  transform_of_processAll chapter (processAll_plain off workshop _)

theorem replacement?_plain (t : Transformer) (c : Construct) :
    (t.plain c).treatment.replacement? =
      if (t.policyFor c).highlight then some (t.html c) else none := by
  unfold plain
  dsimp only
  split <;> rfl

theorem mem_editsOf_plain {cs : List Construct} {edit : Edit}
    (h : edit ∈ editsOf (cs.map t.plain)) :
    ∃ c ∈ cs, (t.policyFor c).highlight = true ∧ edit = ⟨c.start, c.stop, t.html c⟩ := by
  obtain ⟨outcome, member, text, replaced, rfl⟩ := exists_outcome h
  obtain ⟨c, inside, rfl⟩ := List.mem_map.mp member
  rw [replacement?_plain] at replaced
  split at replaced
  · rename_i highlight
    cases replaced
    exact ⟨c, inside, highlight, rfl⟩
  · cases replaced

theorem editsOf_plain_eq_nil {cs : List Construct} :
    editsOf (cs.map t.plain) = [] ↔ ∀ c ∈ cs, (t.policyFor c).highlight = false := by
  unfold editsOf
  rw [List.filterMap_eq_nil_iff]
  simp [replacement?_plain]

theorem exists_html_eq (t : Transformer) (c : Construct) : ∃ x, t.html c = c.lead ++ '<' :: x := by
  cases c with
  | span span => exact ⟨_, rfl⟩
  | block block => exact ⟨_, rfl⟩

/-- A run leaves a document as it is only when it finds nothing to highlight: HTML never reads
    like the code that it stands for. -/
theorem text_treated_eq_iff : (treated t.plain content chapter).text = content ↔
    ∀ c ∈ constructs content, (t.policyFor c).highlight = false := by
  rw [← editsOf_plain_eq_nil]
  change splice content (editsOf ((constructs content).map t.plain)) = content ↔ _
  have source := @mem_editsOf_plain t (constructs content)
  constructor
  · intro same
    cases edits : editsOf ((constructs content).map t.plain) with
    | nil => rfl
    | cons edit rest =>
      rw [edits] at same source
      obtain ⟨c, member, _, rfl⟩ := source (List.mem_cons_self ..)
      obtain ⟨x, tag⟩ := t.exists_html_eq c
      have front : Markdown.slice content 0 c.start = content.take c.start := rfl
      have whole := same.trans (List.take_append_drop c.start content).symm
      rw [splice, spliceFrom, front, List.append_assoc, List.append_cancel_left_eq, tag,
        List.append_assoc] at whole
      exact absurd whole.symm (Markdown.source_not_tag member _)
  · intro none
    rw [none, splice_nil]

end Transformer

/-- A word that shares no character with any replacement lies between the edits. -/
theorem infix_spliceFrom {word content : List Char} {cursor : Nat} {edits : List Edit}
    (apart : ∀ edit ∈ edits, edit.replacement ≠ [] ∧ ∀ c ∈ edit.replacement, c ∉ word)
    (h : word <:+: spliceFrom content cursor edits) :
    ∃ gap ∈ gapsFrom content cursor edits, word <:+: gap := by
  induction edits generalizing cursor with
  | nil => exact ⟨content.drop cursor, by simp [gapsFrom_nil], h⟩
  | cons edit rest ih =>
    obtain ⟨⟨some, first⟩, later⟩ := List.forall_mem_cons.mp apart
    rw [gapsFrom_cons]
    obtain ⟨c, more, same⟩ := List.exists_cons_of_ne_nil some
    rw [same] at first
    obtain ⟨other, others⟩ := List.forall_mem_cons.mp first
    rw [spliceFrom, same, List.append_assoc, List.cons_append] at h
    rcases Markdown.infix_append_cons h other with before | behind
    · exact ⟨_, List.mem_cons_self .., before⟩
    · obtain ⟨gap, member, inside⟩ := ih later (Markdown.infix_of_infix_append behind others)
      exact ⟨gap, List.mem_cons_of_mem _ member, inside⟩

/-- All the code of a document is highlighted: blocks are only where a tag says so, and what stands
    between the edits holds neither backticks nor three tildes in a row. -/
structure Exhausted (t : Transformer) (content : List Char) (edits : List Edit) : Prop where
  untagged : t.config.typstDefault = false
  ticks : ∀ gap ∈ gaps content edits, '`' ∉ gap
  tildes : ∀ gap ∈ gaps content edits, ¬ List.replicate 3 '~' <:+: gap

namespace Transformer

variable {t : Transformer} {content : List Char}

theorem unmarked_html (ticks : t.theme.Lacks '`') (tildes : t.theme.Lacks '~') {c : Construct}
    (h : c ∈ constructs content) : Markdown.Unmarked (t.html c) := by
  have clean : ∀ mark, isFenceMark mark = true → Markup.Masked mark → t.theme.Lacks mark →
      mark ∉ t.html c := by
    intro mark marks masked colours
    refine not_mem_html masked colours fun block same inside => ?_
    subst same
    rw [Markdown.unmarked_lead h mark inside] at marks
    cases marks
  intro d member
  rw [isFenceMark, Bool.or_eq_false_iff, beq_eq_false_iff_ne, beq_eq_false_iff_ne]
  constructor
  · rintro rfl
    exact clean '`' (by decide) (by decide) ticks member
  · rintro rfl
    exact clean '~' (by decide) (by decide) tildes member

section

variable {edits : List Edit} (made : edits = editsOf ((constructs content).map t.plain))
  (ticks : t.theme.Lacks '`') (tildes : t.theme.Lacks '~')

include made ticks tildes

theorem exists_gap_of_marks {n : Nat} {mark : Char} (marks : isFenceMark mark = true)
    (h : List.replicate n mark <:+: splice content edits) :
    ∃ gap ∈ gaps content edits, List.replicate n mark <:+: gap := by
  refine infix_spliceFrom (fun edit member => ?_) h
  rw [made] at member
  obtain ⟨c, found, _, rfl⟩ := mem_editsOf_plain member
  obtain ⟨x, tag⟩ := t.exists_html_eq c
  refine ⟨by simp [tag], fun d inHtml inWord => ?_⟩
  have clean := unmarked_html ticks tildes found d inHtml
  rw [List.eq_of_mem_replicate inWord, marks] at clean
  cases clean

theorem not_highlighted_of_exhausted (h : Exhausted t content edits) :
    ∀ c ∈ constructs (splice content edits), (t.policyFor c).highlight = false := by
  intro c member
  rcases Markdown.indented_or_marked member with ⟨block, rfl, indented⟩ | tick | fence
  · obtain ⟨kind, start, stop, code, lead⟩ := block
    cases indented
    simp [policyFor, Policy.block, h.untagged, Policy.skip]
  · have one : List.replicate 1 '`' <:+: splice content edits :=
      (List.singleton_infix_iff _ _).mpr tick
    obtain ⟨gap, inGaps, inside⟩ := exists_gap_of_marks made ticks tildes (by decide) one
    exact absurd (inside.mem (by simp)) (h.ticks gap inGaps)
  · obtain ⟨gap, inGaps, inside⟩ := exists_gap_of_marks made ticks tildes (by decide) fence
    exact absurd inside (h.tildes gap inGaps)

end

end Transformer

/-- A second run, over the text that the first one gave, changes nothing exactly when it finds
    nothing to highlight, as after a run that highlighted all code there was. -/
theorem transform_again (t : Transformer) (off : t.config.render = false) (workshop : Workshop)
    (content : List Char) (chapter : String) : ∃ first second,
      t.transform workshop content chapter = (.ok first, workshop) ∧
      t.transform workshop first.text chapter = (.ok second, workshop) ∧
      (second.text = first.text ↔
        ∀ c ∈ constructs first.text, (t.policyFor c).highlight = false) ∧
      (t.theme.Lacks '`' → t.theme.Lacks '~' → Exhausted t content (editsOf first.outcomes) →
        second.text = first.text) := by
  refine ⟨_, _, Transformer.transform_plain off workshop content chapter,
    Transformer.transform_plain off workshop _ chapter, Transformer.text_treated_eq_iff, ?_⟩
  intro ticks tildes exhausted
  exact Transformer.text_treated_eq_iff.mpr
    (Transformer.not_highlighted_of_exhausted rfl ticks tildes exhausted)

theorem transform_again_nested :
    let t : Transformer := { config := { jobs := 1 }, theme := Theme.solarizedDark }
    let content := "- ~~~typ\n  #a `b`\n  ~~~\n\nTo ``c ` d``, about ~1.\n".toList
    ∃ first second, t.transform .empty content "" = (.ok first, .empty) ∧
      t.transform .empty first.text "" = (.ok second, .empty) ∧
      (constructs content).length = 2 ∧ second.text = first.text := by
  intro t content
  obtain ⟨first, second, ran, again, _, settled⟩ := transform_again t rfl .empty content ""
  have same := ran.symm.trans (Transformer.transform_plain rfl .empty content "")
  cases same
  -- Where the edits lie does not depend on the HTML, which is left unevaluated.
  have between : ∀ html : Construct → List Char,
      gaps content (editsOf ((constructs content).map fun c => ⟨c, t.policyFor c,
        if (t.policyFor c).highlight then .highlighted (html c) else .unchanged⟩)) =
      [[], "\n\nTo ".toList, ", about ~1.\n".toList] := fun _ => rfl
  have exhausted : Exhausted t content (editsOf ((constructs content).map t.plain)) := by
    have parts : gaps content (editsOf ((constructs content).map t.plain)) = _ := between t.html
    exact ⟨rfl, by rw [parts]; decide, by rw [parts]; decide⟩
  exact ⟨_, second, ran, again, by decide, settled (by decide) (by decide) exhausted⟩

/-- After the tag that a fenced block has become, an indented line goes on with the paragraph; what
    was code before the first run is text in the second. -/
theorem transform_again_changes_text :
    let t : Transformer := { config := { jobs := 1 }, theme := Theme.solarizedDark }
    let content := "```typ\n```\n    `a`\n".toList
    ∃ first second, t.transform .empty content "" = (.ok first, .empty) ∧
      t.transform .empty first.text "" = (.ok second, .empty) ∧ second.text ≠ first.text := by
  intro t content
  refine ⟨_, _, Transformer.transform_plain rfl .empty content "",
    Transformer.transform_plain rfl .empty _ "", ?_⟩
  have text : (Transformer.treated t.plain content "").text =
      ("<pre style=\"margin: 0\"><code class=\"language-typ hljs\"></code></pre>\n" ++
        "    `a`\n").toList := rfl
  have found : ∃ span, .span span ∈ constructs (Transformer.treated t.plain content "").text := by
    rw [text]
    exact ⟨_, List.mem_cons_self ..⟩
  obtain ⟨span, member⟩ := found
  rw [Ne, Transformer.text_treated_eq_iff]
  intro none
  cases none _ member

end BookHighlight
