import BookHighlight.Proofs.Markup.Fragment
import BookHighlight.Theme.Bundled
import Mathlib.Data.List.Chain

namespace BookHighlight

open Data

def Style.hasTextColour (s : Style) : Bool :=
  match s.foreground with
  | .null | .text _ => true
  | _ => false

/-- Not so for colours of other types: the number one and the truth value are equal. -/
theorem Style.beq_iff_eq {s t : Style} (hs : s.hasTextColour = true) (ht : t.hasTextColour = true) :
    (s == t) = true ↔ s = t := by
  obtain ⟨f, b, i, u⟩ := s
  obtain ⟨f', b', i', u'⟩ := t
  have colours : (f == f') = true ↔ f = f' := by
    cases f <;> cases hs <;> cases f' <;> cases ht <;>
      simp [BEq.beq, Value.same, Value.key?, Key.same, Key.whole?]
  change (f == f' && b == b' && i == i' && u == u') = true ↔ _
  simp [colours, and_assoc]

namespace Theme

def TextColours (theme : Theme) : Prop :=
  theme.default.hasTextColour = true ∧ ∀ entry ∈ theme.styles, entry.2.hasTextColour = true

instance (theme : Theme) : Decidable theme.TextColours :=
  inferInstanceAs (Decidable (_ ∧ ∀ entry ∈ theme.styles, entry.2.hasTextColour = true))

theorem TextColours.styleFor {theme : Theme} (h : theme.TextColours) (scopes : List String) :
    (theme.styleFor scopes).hasTextColour = true :=
  styleFor_forall (P := (·.hasTextColour = true)) h.1 h.2 scopes

end Theme

namespace Markup

def pieces (theme : Theme) (tokens : List Token) : List (Style × List Char) :=
  tokens.map fun token => (theme.styleFor token.scopes, token.text)

section

variable {style : Style} {text more : List Char} {rest later : List (Style × List Char)}

theorem coloured_runs (coloured : ∀ piece ∈ rest, piece.1.hasTextColour = true) :
    ∀ run ∈ runs rest, run.1.hasTextColour = true :=
  forall_runs_style (P := (·.hasTextColour = true)) coloured

theorem head_runs (coloured : ∀ piece ∈ rest, piece.1.hasTextColour = true) :
    (runs rest).head?.map (·.1) = rest.head?.map (·.1) := by
  fun_induction runs rest with
  | case1 => rfl
  | case2 => rfl
  | case3 style text rest style' text' more joined same ih =>
    obtain ⟨here, within⟩ := List.forall_mem_cons.mp coloured
    have joins := coloured_runs within _ (joined ▸ List.mem_cons_self ..)
    exact congrArg some ((Style.beq_iff_eq here joins).mp same).symm
  | case4 => rfl

theorem runs_cons_of_ne (coloured : ∀ piece ∈ (style, text) :: rest, piece.1.hasTextColour = true)
    (other : ∀ piece ∈ rest.head?, piece.1 ≠ style) :
    runs ((style, text) :: rest) = (style, text) :: runs rest := by
  obtain ⟨here, within⟩ := List.forall_mem_cons.mp coloured
  have first := head_runs within
  rw [runs]
  cases joined : runs rest with
  | nil => rfl
  | cons run runs' =>
    rw [joined] at first
    obtain ⟨piece, next, same⟩ := Option.map_eq_some_iff.mp first.symm
    have joins := coloured_runs within run (joined ▸ List.mem_cons_self ..)
    have differ : ¬ (style == run.1) = true := by
      rw [Style.beq_iff_eq here joins]
      exact fun equal => other piece next (same.trans equal.symm)
    simp [differ]

theorem runs_cons_cons (coloured : style.hasTextColour = true) :
    runs ((style, text) :: (style, more) :: rest) = runs ((style, text ++ more) :: rest) := by
  have same : (style == style) = true := (Style.beq_iff_eq coloured coloured).mpr rfl
  simp only [runs]
  cases runs rest with
  | nil => simp [same]
  | cons run runs' => by_cases joins : (style == run.1) = true <;> simp [joins, same]

theorem runs_append_congr (before : List (Style × List Char)) (h : runs rest = runs later) :
    runs (before ++ rest) = runs (before ++ later) := by
  induction before with
  | nil => exact h
  | cons piece before ih => simp only [List.cons_append, runs, ih]

end

theorem pieces_cons (theme : Theme) (token : Token) (rest : List Token) :
    pieces theme (token :: rest) =
      (theme.styleFor token.scopes, token.text) :: pieces theme rest := rfl

section

variable {theme : Theme}

theorem pieces_coloured (colours : theme.TextColours) (tokens : List Token) :
    ∀ piece ∈ pieces theme tokens, piece.1.hasTextColour = true := by
  intro piece member
  obtain ⟨token, _, rfl⟩ := List.mem_map.mp member
  exact colours.styleFor token.scopes

theorem runs_pieces {style : Style} {tokens : List Token} {rest : List (Style × List Char)}
    (coloured : style.hasTextColour = true)
    (styled : ∀ token ∈ tokens, theme.styleFor token.scopes = style) (text : List Char) :
    runs ((style, text) :: (pieces theme tokens ++ rest)) =
      runs ((style, text ++ tokens.flatMap (·.text)) :: rest) := by
  induction tokens generalizing text with
  | nil => simp [pieces]
  | cons token tokens ih =>
    obtain ⟨here, later⟩ := List.forall_mem_cons.mp styled
    have joined := ih later (text ++ token.text)
    simp only [pieces, List.map_cons, here, List.cons_append] at joined ⊢
    rw [runs_cons_cons coloured, joined, List.flatMap_cons, List.append_assoc]

end

@[ext] structure StyleRun where
  style : Style
  tokens : List Token

def StyleRun.text (run : StyleRun) : List Char := run.tokens.flatMap (·.text)

structure StyleRun.Shown (run : StyleRun) (html : List Char) : Prop where
  plain : run.style.isPlain = true → html = escape run.text
  styled : run.style.isPlain = false →
    html = "<span style=\"".toList ++ run.style.css.toList ++ "\">".toList ++ escape run.text ++
      "</span>".toList

structure MaximalRuns (theme : Theme) (tokens : List Token) (rs : List StyleRun) : Prop where
  whole : rs.flatMap (·.tokens) = tokens
  nonempty : ∀ run ∈ rs, run.tokens ≠ []
  styled : ∀ run ∈ rs, ∀ token ∈ run.tokens, theme.styleFor token.scopes = run.style
  maximal : rs.IsChain fun left right => left.style ≠ right.style

theorem StyleRun.shown_fragment (run : StyleRun) : run.Shown (fragment run.style run.text) := by
  constructor
  · intro plain
    simp [fragment, plain]
  · intro styled
    simp [fragment, styled, String.toList_append]

namespace MaximalRuns

variable {theme : Theme} {tokens : List Token} {run : StyleRun} {rs : List StyleRun}

theorem tail (h : MaximalRuns theme tokens (run :: rs)) :
    MaximalRuns theme (rs.flatMap (·.tokens)) rs where
  whole := rfl
  nonempty := (List.forall_mem_cons.mp h.nonempty).2
  styled := (List.forall_mem_cons.mp h.styled).2
  maximal := h.maximal.tail

theorem source (h : MaximalRuns theme tokens (run :: rs)) :
    tokens = run.tokens ++ rs.flatMap (·.tokens) := h.whole.symm

theorem head_eq (h : MaximalRuns theme tokens (run :: rs)) :
    ∃ token ∈ tokens.head?, theme.styleFor token.scopes = run.style := by
  obtain ⟨token, more, own⟩ := List.exists_cons_of_ne_nil (h.nonempty run (List.mem_cons_self ..))
  refine ⟨token, by simp [h.source, own], ?_⟩
  exact h.styled run (List.mem_cons_self ..) token (by simp [own])

theorem head_ne (h : MaximalRuns theme tokens (run :: rs)) :
    ∀ token ∈ (rs.flatMap (·.tokens)).head?, theme.styleFor token.scopes ≠ run.style := by
  intro token next
  cases rs with
  | nil => cases next
  | cons second rs =>
    obtain ⟨first, starts, styled⟩ := h.tail.head_eq
    cases Option.mem_unique starts next
    rw [styled]
    exact (List.isChain_cons_cons.mp h.maximal).1.symm

open Classical in
theorem tokens_eq (h : MaximalRuns theme tokens (run :: rs)) :
    run.tokens = tokens.takeWhile fun token => theme.styleFor token.scopes = run.style := by
  have own : ∀ token ∈ run.tokens, decide (theme.styleFor token.scopes = run.style) = true :=
    fun token member => decide_eq_true (h.styled run (List.mem_cons_self ..) token member)
  have stops := h.head_ne
  rw [h.source, List.takeWhile_append_of_pos own]
  cases later : rs.flatMap (·.tokens) with
  | nil => exact (List.append_nil _).symm
  | cons token rest =>
    have differ := stops token (by simp [later])
    rw [List.takeWhile_cons_of_neg (by simpa using differ), List.append_nil]

/-- There is one way only to cut tokens into maximal runs. -/
theorem unique {other : List StyleRun} (h : MaximalRuns theme tokens rs)
    (h' : MaximalRuns theme tokens other) : other = rs := by
  induction rs generalizing tokens other with
  | nil =>
    cases other with
    | nil => rfl
    | cons run other =>
      obtain ⟨token, starts, _⟩ := h'.head_eq
      rw [← h.whole] at starts
      cases starts
  | cons run rs ih =>
    obtain ⟨token, starts, styled⟩ := h.head_eq
    cases other with
    | nil =>
      rw [← h'.whole] at starts
      cases starts
    | cons run' other =>
      obtain ⟨token', starts', styled'⟩ := h'.head_eq
      cases Option.mem_unique starts' starts
      have style : run'.style = run.style := styled'.symm.trans styled
      have own : run'.tokens = run.tokens := by rw [h.tokens_eq, h'.tokens_eq, style]
      have behind : other.flatMap (·.tokens) = rs.flatMap (·.tokens) := by
        have sources := h'.source.symm.trans h.source
        rw [own] at sources
        exact List.append_cancel_left sources
      have later : other = rs := ih h.tail (behind ▸ h'.tail)
      rw [StyleRun.ext style own, later]

theorem runs_eq (h : MaximalRuns theme tokens rs) (colours : theme.TextColours) :
    runs (pieces theme tokens) = rs.map fun run => (run.style, run.text) := by
  induction rs generalizing tokens with
  | nil =>
    rw [← h.whole]
    rfl
  | cons run rs ih =>
    obtain ⟨first, more, own⟩ := List.exists_cons_of_ne_nil (h.nonempty run (List.mem_cons_self ..))
    have styled := h.styled run (List.mem_cons_self ..)
    rw [own] at styled
    obtain ⟨here, others⟩ := List.forall_mem_cons.mp styled
    have coloured : run.style.hasTextColour = true := here ▸ colours.styleFor first.scopes
    have behind := pieces_coloured colours (rs.flatMap (·.tokens))
    have stops : ∀ piece ∈ (pieces theme (rs.flatMap (·.tokens))).head?, piece.1 ≠ run.style := by
      intro piece next
      rw [pieces, List.head?_map] at next
      obtain ⟨token, starts, rfl⟩ := Option.map_eq_some_iff.mp next
      exact h.head_ne token starts
    have front : pieces theme tokens = (run.style, first.text) ::
        (pieces theme more ++ pieces theme (rs.flatMap (·.tokens))) := by
      simp [pieces, h.source, own, here]
    rw [front, runs_pieces coloured others,
      runs_cons_of_ne (List.forall_mem_cons.mpr ⟨coloured, behind⟩) stops, ih h.tail]
    simp [StyleRun.text, own]

theorem shown (h : MaximalRuns theme tokens rs) (colours : theme.TextColours) :
    List.Forall₂ StyleRun.Shown rs (fragments theme tokens) := by
  change List.Forall₂ _ _ ((runs (pieces theme tokens)).map _)
  rw [h.runs_eq colours, List.map_map, List.forall₂_map_right_iff, List.forall₂_same]
  exact fun run _ => run.shown_fragment

theorem flatMap_text (h : MaximalRuns theme tokens rs) :
    rs.flatMap (·.text) = tokens.flatMap (·.text) := by
  simp only [← h.whole, StyleRun.text, List.flatMap_assoc]

end MaximalRuns

theorem exists_maximalRuns (theme : Theme) (tokens : List Token) :
    ∃ rs, MaximalRuns theme tokens rs := by
  induction tokens with
  | nil => exact ⟨[], rfl, by simp, by simp, .nil⟩
  | cons token tokens ih =>
    obtain ⟨rs, h⟩ := ih
    cases rs with
    | nil =>
      refine ⟨[⟨theme.styleFor token.scopes, [token]⟩], ?_, by simp, by simp, .singleton _⟩
      simp [← h.whole]
    | cons run rs =>
      obtain ⟨nonempty, others⟩ := List.forall_mem_cons.mp h.nonempty
      obtain ⟨styled, styles⟩ := List.forall_mem_cons.mp h.styled
      by_cases same : theme.styleFor token.scopes = run.style
      · refine ⟨⟨run.style, token :: run.tokens⟩ :: rs, by simp [h.source], ?_, ?_, ?_⟩
        · exact List.forall_mem_cons.mpr ⟨List.cons_ne_nil _ _, others⟩
        · exact List.forall_mem_cons.mpr ⟨List.forall_mem_cons.mpr ⟨same, styled⟩, styles⟩
        · have maximal := h.maximal
          cases rs with
          | nil => exact .singleton _
          | cons second rs => exact List.isChain_cons_cons.mpr (List.isChain_cons_cons.mp maximal)
      · refine ⟨⟨theme.styleFor token.scopes, [token]⟩ :: run :: rs, by simp [h.source], ?_, ?_, ?_⟩
        · exact List.forall_mem_cons.mpr ⟨List.cons_ne_nil _ _, h.nonempty⟩
        · exact List.forall_mem_cons.mpr ⟨by simp, h.styled⟩
        · exact List.isChain_cons_cons.mpr ⟨same, h.maximal⟩

/-- The fragments of tokens in one pass, behind the text of a run that is still open. -/
def fragmentsFrom (theme : Theme) : (pending : Option (Style × List Char)) → List Token →
    List (List Char)
  | none, [] => []
  | some (style, text), [] => [fragment style text]
  | none, token :: rest => fragmentsFrom theme (some (theme.styleFor token.scopes, token.text)) rest
  | some (style, text), token :: rest =>
    let next := theme.styleFor token.scopes
    if next == style then fragmentsFrom theme (some (next, text ++ token.text)) rest
    else fragment style text :: fragmentsFrom theme (some (next, token.text)) rest

theorem fragmentsFrom_pending {theme : Theme} (colours : theme.TextColours) {style : Style}
    (coloured : style.hasTextColour = true) (text : List Char) (tokens : List Token) :
    fragmentsFrom theme (some (style, text)) tokens =
      (runs ((style, text) :: pieces theme tokens)).map
        fun (style, text) => fragment style text := by
  induction tokens generalizing style text with
  | nil => rfl
  | cons token rest ih =>
    have next := colours.styleFor token.scopes
    have behind := pieces_coloured colours (token :: rest)
    rw [fragmentsFrom]
    split
    · rename_i joins
      have same := (Style.beq_iff_eq next coloured).mp joins
      rw [same, ih coloured, pieces_cons, same, runs_cons_cons coloured]
    · rename_i ends
      have apart : ∀ piece ∈ (pieces theme (token :: rest)).head?, piece.1 ≠ style := by
        rintro piece ⟨⟩ same
        exact ends ((Style.beq_iff_eq next coloured).mpr same)
      rw [ih next, runs_cons_of_ne (List.forall_mem_cons.mpr ⟨coloured, behind⟩) apart]
      rfl

theorem fragments_eq_fragmentsFrom {theme : Theme} (colours : theme.TextColours)
    (tokens : List Token) : fragments theme tokens = fragmentsFrom theme none tokens := by
  cases tokens with
  | nil => rfl
  | cons token rest =>
    exact (fragmentsFrom_pending colours (colours.styleFor token.scopes) token.text rest).symm

theorem fragments_cut {theme : Theme} (colours : theme.TextColours) {before after : List Token}
    {token left right : Token} (leftScopes : left.scopes = token.scopes)
    (rightScopes : right.scopes = token.scopes) (text : left.text ++ right.text = token.text) :
    fragments theme (before ++ left :: right :: after) =
      fragments theme (before ++ token :: after) := by
  let style := theme.styleFor token.scopes
  have cut : runs ((style, left.text) :: (style, right.text) :: pieces theme after) =
      runs ((style, token.text) :: pieces theme after) := by
    rw [runs_cons_cons (colours.styleFor token.scopes), text]
  have whole := runs_append_congr (pieces theme before) cut
  change List.map _ (runs _) = List.map _ (runs _)
  refine congrArg (List.map _) ?_
  simpa [pieces, leftScopes, rightScopes] using whole

/-- Tokens are shown as one fragment for each maximal run of one style, which is the text of the run
    escaped, in one `span` unless the style is plain. One pass that holds no more than the run it is
    in writes the same, and a token may be cut in two without a change. -/
theorem fragments_of_maximal_runs (theme : Theme) (colours : theme.TextColours)
    (tokens : List Token) :
    (∃ rs, MaximalRuns theme tokens rs ∧ (∀ other, MaximalRuns theme tokens other → other = rs) ∧
      List.Forall₂ StyleRun.Shown rs (fragments theme tokens) ∧
      rs.flatMap (·.text) = tokens.flatMap (·.text)) ∧
    fragments theme tokens = fragmentsFrom theme none tokens ∧
    ∀ before token after left right, tokens = before ++ token :: after →
      left.scopes = token.scopes → right.scopes = token.scopes →
        left.text ++ right.text = token.text →
          fragments theme (before ++ left :: right :: after) = fragments theme tokens := by
  refine ⟨?_, fragments_eq_fragmentsFrom colours tokens, ?_⟩
  · obtain ⟨rs, maximal⟩ := exists_maximalRuns theme tokens
    exact ⟨rs, maximal, fun _ h => maximal.unique h, maximal.shown colours, maximal.flatMap_text⟩
  · rintro before token after left right rfl leftScopes rightScopes text
    exact fragments_cut colours leftScopes rightScopes text

theorem fragments_of_maximal_runs_comment :
    let token := fun (text : String) (scopes : List String) =>
      ({ text := text.toList, start := 0, stop := 0, scopes } : Token)
    let left := token "/*" ["source", "comment.block"]
    let right := token " *" ["source", "comment.block"]
    let tokens := [token "" ["source"], token "/* *" ["source", "comment.block"],
      token "*/" ["comment"], token "\n" ["string", "markup"], token "" ["string.quoted"]]
    Theme.solarizedDark.TextColours ∧
      (∃ rs, MaximalRuns Theme.solarizedDark tokens rs ∧
        List.Forall₂ StyleRun.Shown rs (fragments Theme.solarizedDark tokens) ∧ rs.length = 3) ∧
      fragments Theme.solarizedDark tokens = fragmentsFrom Theme.solarizedDark none tokens ∧
      fragments Theme.solarizedDark (token "" ["source"] :: left :: right :: tokens.drop 2) =
        fragments Theme.solarizedDark tokens := by
  intro token left right tokens
  have colours : Theme.solarizedDark.TextColours := by decide
  obtain ⟨⟨rs, maximal, _, shown, _⟩, pass, cut⟩ :=
    fragments_of_maximal_runs Theme.solarizedDark colours tokens
  have count : (fragments Theme.solarizedDark tokens).length = 3 := by decide
  exact ⟨colours, ⟨rs, maximal, shown, shown.length_eq.trans count⟩, pass,
    cut [token "" ["source"]] (token "/* *" ["source", "comment.block"]) (tokens.drop 2) left right
      rfl rfl rfl rfl⟩

end Markup

end BookHighlight
