import BookHighlight.Grammar.Typst
import BookHighlight.Theme.Bundled
import BookHighlight.Proofs.Grammar.Partition
import BookHighlight.Proofs.Markup.Fragment

namespace BookHighlight.Markup

def outsideTags : (inside : Bool) → List Char → List Char
  | _, [] => []
  | false, c :: rest => if c = '<' then outsideTags true rest else c :: outsideTags false rest
  | true, c :: rest => if c = '>' then outsideTags false rest else outsideTags true rest

/-- The text without its tags, each of which runs from a `<` to the next `>`. -/
def stripTags (s : List Char) : List Char := outsideTags false s

theorem stripTags_append {s : List Char} (h : '<' ∉ s) (t : List Char) :
    stripTags (s ++ t) = s ++ stripTags t := by
  induction s with
  | nil => rfl
  | cons c s ih =>
    simp only [List.mem_cons, not_or] at h
    have rest := ih h.2
    simp only [stripTags] at rest ⊢
    simp [outsideTags, Ne.symm h.1, rest]

theorem outsideTags_append {s : List Char} (h : '>' ∉ s) (t : List Char) :
    outsideTags true (s ++ '>' :: t) = outsideTags false t := by
  induction s with
  | nil => simp [outsideTags]
  | cons c s ih =>
    simp only [List.mem_cons, not_or] at h
    simp [outsideTags, Ne.symm h.1, ih h.2]

theorem stripTags_tag {s : List Char} (h : '>' ∉ s) (t : List Char) :
    stripTags ('<' :: (s ++ '>' :: t)) = stripTags t :=
  outsideTags_append h t

theorem stripTags_fragment {style : Style} (h : style.Lacks '>') (s t : List Char) :
    stripTags (fragment style s ++ t) = escape s ++ stripTags t := by
  have inert : ∀ rest, stripTags (escape s ++ rest) = escape s ++ stripTags rest :=
    stripTags_append (not_mem_escape (c := '<') rfl (by decide) s)
  unfold fragment
  split
  · exact inert t
  · have opened : '>' ∉ "span style=\"".toList ++ style.css.toList ++ ['"'] := by
      simp [h.css (by decide)]
    have shape : ("<span style=\"" ++ style.css ++ "\">").toList ++ escape s ++
        "</span>".toList ++ t = '<' :: ("span style=\"".toList ++ style.css.toList ++ ['"'] ++
          '>' :: (escape s ++ ("</span>".toList ++ t))) := by
      simp [String.toList_append]
    rw [shape, stripTags_tag opened, inert]
    rfl

theorem stripTags_runs {rs : List (Style × List Char)} (h : ∀ run ∈ rs, run.1.Lacks '>')
    (t : List Char) :
    stripTags ((rs.map fun (style, text) => fragment style text).flatten ++ t) =
      escape (rs.flatMap (·.2)) ++ stripTags t := by
  induction rs with
  | nil => rfl
  | cons run rs ih =>
    obtain ⟨here, later⟩ := List.forall_mem_cons.mp h
    simp only [List.map_cons, List.flatten_cons, List.flatMap_cons, List.append_assoc,
      escape_append]
    rw [stripTags_fragment here, ih later]

theorem stripTags_highlighted {theme : Theme} (h : theme.Lacks '>') (tokens : List Token)
    (t : List Char) :
    stripTags (highlighted theme tokens ++ t) =
      escape (tokens.flatMap (·.text)) ++ stripTags t := by
  unfold highlighted fragments
  rw [stripTags_runs (lacks_runs h tokens), flatMap_runs, List.flatMap_map]

theorem decode_wrapped {theme : Theme} (colours : theme.Lacks '>') {tokens : List Token}
    {text : List Char} (whole : tokens.flatMap (·.text) = text) (inline : Bool) :
    decode (stripTags (wrapped inline (highlighted theme tokens))) = text := by
  have body : ∀ close : List Char, stripTags close = [] →
      decode (stripTags (highlighted theme tokens ++ close)) = text := by
    intro close closes
    rw [stripTags_highlighted colours, closes, List.append_nil, whole, decode_escape]
  unfold wrapped
  cases inline with
  | true => exact body "</code>".toList rfl
  | false => exact body "</code></pre>".toList rfl

/-- Whatever engine matches the patterns, what shows of highlighted code is the code, less one line
    feed at its end. -/
theorem visible_text_highlight (g : Grammar) (theme : Theme) (colours : theme.Lacks '>')
    (inline : Bool) (code : List Char) :
    let kept := if code.getLast? = some '\n' then code.dropLast else code
    (∀ e : Engine, ∃ rounds last, Grammar.Finishes e g (g.opening kept) rounds last ∧
      decode (stripTags (wrapped inline (highlighted theme last.emitted))) = kept) ∧
    decode (stripTags (highlight g theme inline code)) = kept := by
  refine ⟨fun e => ?_, decode_wrapped colours (g.flatMap_tokens _) inline⟩
  obtain ⟨rounds, last, finishes, _⟩ := Grammar.exists_finishes (e := e) (g.opening (shown code))
  exact ⟨rounds, last, finishes, decode_wrapped colours finishes.flatMap_text inline⟩

theorem visible_text_highlight_solarized :
    Theme.solarizedDark.Lacks '>' ∧
      decode (stripTags (highlight Grammar.typst Theme.solarizedDark false
        "#let x = \"a < b\" /* &amp; */\n\n".toList)) =
          "#let x = \"a < b\" /* &amp; */\n".toList :=
  ⟨by decide, (visible_text_highlight Grammar.typst _ (by decide) false _).2⟩

end BookHighlight.Markup
