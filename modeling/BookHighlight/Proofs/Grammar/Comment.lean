import BookHighlight.Grammar.Typst
import BookHighlight.Proofs.Grammar.Round

namespace BookHighlight.Grammar.Typst

/-- What a depth counter says of a text of comments: the depths of the characters up to the place
    where it is back at zero, or to the end of the text, and the depth left there. -/
structure Nesting where
  depths : List Nat
  left : Nat
  deriving DecidableEq, Repr

def Nesting.behind (n depth : Nat) (nesting : Nesting) : Nesting :=
  { nesting with depths := List.replicate n depth ++ nesting.depths }

/-- Reads a text inside comments from left to right. A delimiter takes two characters, which lie
    inside the comment that it opens or closes. -/
def nestingFrom : (depth : Nat) → List Char → Nesting
  | 0, _ => ⟨[], 0⟩
  | depth + 1, '/' :: '*' :: rest => (nestingFrom (depth + 2) rest).behind 2 (depth + 2)
  | depth + 1, '*' :: '/' :: rest => (nestingFrom depth rest).behind 2 (depth + 1)
  | depth + 1, _ :: rest => (nestingFrom (depth + 1) rest).behind 1 (depth + 1)
  | depth + 1, [] => ⟨[], depth + 1⟩

def nesting : List Char → Nesting
  | '/' :: '*' :: rest => (nestingFrom 1 rest).behind 2 1
  | _ => ⟨[], 0⟩

def commentScope : String := "comment.block.typst"

def delimiterScopes (text : List Char) : List String :=
  if text = ['/', '*'] then ["punctuation.definition.comment.begin.typst"]
  else if text = ['*', '/'] then ["punctuation.definition.comment.end.typst"]
  else []

def inComments : Nat → Stack typst.size
  | 0 => typst.root
  | n + 1 => typst.entered (inComments n) blockComment

theorem scopes_inComments (n : Nat) :
    (inComments n).top.scopes = List.replicate n commentScope := by
  induction n with
  | zero => rfl
  | succ n ih =>
    change withScope (inComments n).top.scopes (some commentScope) = _
    rw [ih, List.replicate_succ']
    rfl

theorem depth_inComments (n : Nat) : (inComments n).depth = n + 1 := by
  induction n with
  | zero => rfl
  | succ n ih => exact congrArg (· + 1) ih

def openRule : Rule 21 := blockCommentRules.get ⟨0, by decide⟩

def closeRule : Rule 21 := blockCommentRules.get ⟨1, by decide⟩

def textRule : Rule 21 := blockCommentRules.get ⟨2, by decide⟩

theorem patterns_comment :
    openRule.pattern = .seq (.literal '/') (.literal '*') ∧
    closeRule.pattern = .seq (.literal '*') (.literal '/') ∧
    textRule.pattern = .times (.one (.except ['*', '/'])) 1 none true := by
  decide +kernel

section

variable {c : Char} {rest : List Char} {n : Nat}

theorem nestingFrom_cons (noOpening : (c :: rest).take 2 ≠ ['/', '*'])
    (noClosing : (c :: rest).take 2 ≠ ['*', '/']) :
    nestingFrom (n + 1) (c :: rest) = (nestingFrom (n + 1) rest).behind 1 (n + 1) := by
  rw [nestingFrom]
  · rintro rest rfl rfl
    exact noOpening rfl
  · rintro rest rfl rfl
    exact noClosing rfl

theorem nestingFrom_plain {run : List Char} (plain : ∀ c ∈ run, c ∉ ['*', '/']) :
    nestingFrom (n + 1) (run ++ rest) = (nestingFrom (n + 1) rest).behind run.length (n + 1) := by
  induction run with
  | nil => rfl
  | cons c run ih =>
    obtain ⟨here, later⟩ := List.forall_mem_cons.mp plain
    have star : c ≠ '*' := fun same => here (by simp [same])
    have slash : c ≠ '/' := fun same => here (by simp [same])
    have noOpening : (c :: (run ++ rest)).take 2 ≠ ['/', '*'] := fun same =>
      slash (List.cons.inj same).1
    have noClosing : (c :: (run ++ rest)).take 2 ≠ ['*', '/'] := fun same =>
      star (List.cons.inj same).1
    rw [List.cons_append, nestingFrom_cons noOpening noClosing, ih later]
    unfold Nesting.behind
    rw [← List.append_assoc, List.replicate_append_replicate, Nat.add_comm, List.length_cons]

end

section

variable {p : Progress typst.size} {n : Nat}

theorem apply_openRule (room : n < 63) : typst.apply openRule (inComments n) =
    (inComments (n + 1), List.replicate (n + 1) commentScope ++ delimiterScopes ['/', '*']) := by
  have inside : (inComments n).depth < maxDepth := by
    rw [depth_inComments]
    exact Nat.succ_lt_succ room
  refine (push_entered inside).trans ?_
  change (inComments (n + 1), withScope (inComments (n + 1)).top.scopes _) = _
  rw [scopes_inComments]
  rfl

theorem apply_closeRule (n : Nat) : typst.apply closeRule (inComments (n + 1)) =
    (inComments n, List.replicate (n + 1) commentScope ++ delimiterScopes ['*', '/']) := by
  change (inComments n, withScope (inComments (n + 1)).top.scopes _) = _
  rw [scopes_inComments]
  rfl

theorem apply_textRule (stack : Stack typst.size) :
    typst.apply textRule stack = (stack, stack.top.scopes) := rfl

theorem delimiterScopes_plain {run : List Char} (plain : ∀ c ∈ run, c ∉ ['*', '/']) :
    delimiterScopes run = [] := by
  have opening : run ≠ ['/', '*'] := by
    rintro rfl
    simp at plain
  have closing : run ≠ ['*', '/'] := by
    rintro rfl
    simp at plain
  rw [delimiterScopes, if_neg opening, if_neg closing]

theorem matched_inComments (stack : p.stack = inComments (n + 1)) :
    typst.matched .backtracking p =
      firstMatch p.cursor true [openRule, closeRule, textRule] := by
  rw [matched, stack]
  rfl

theorem match?_openRule (place : Cursor) : openRule.pattern.match? place =
    if place.after.take 2 = ['/', '*'] then some (place.past ['/', '*']) else none := by
  rw [patterns_comment.1]
  exact Pattern.match?_pair '/' '*' place

theorem match?_closeRule (place : Cursor) : closeRule.pattern.match? place =
    if place.after.take 2 = ['*', '/'] then some (place.past ['*', '/']) else none := by
  rw [patterns_comment.2.1]
  exact Pattern.match?_pair '*' '/' place

theorem matched_open (stack : p.stack = inComments (n + 1))
    (ahead : p.cursor.after.take 2 = ['/', '*']) :
    typst.matched .backtracking p = some (openRule, p.cursor.past ['/', '*']) := by
  have opens := match?_openRule p.cursor
  rw [if_pos ahead] at opens
  rw [matched_inComments stack]
  exact firstMatch_take opens (by simp)

theorem matched_close (stack : p.stack = inComments (n + 1))
    (ahead : p.cursor.after.take 2 = ['*', '/']) :
    typst.matched .backtracking p = some (closeRule, p.cursor.past ['*', '/']) := by
  have noOpening : p.cursor.after.take 2 ≠ ['/', '*'] := by simp [ahead]
  have opens := match?_openRule p.cursor
  rw [if_neg noOpening] at opens
  have closes := match?_closeRule p.cursor
  rw [if_pos ahead] at closes
  rw [matched_inComments stack, firstMatch_skip opens]
  exact firstMatch_take closes (by simp)

theorem matched_between (stack : p.stack = inComments (n + 1))
    (noOpening : p.cursor.after.take 2 ≠ ['/', '*'])
    (noClosing : p.cursor.after.take 2 ≠ ['*', '/']) :
    typst.matched .backtracking p = firstMatch p.cursor true [textRule] := by
  have opens := match?_openRule p.cursor
  rw [if_neg noOpening] at opens
  have closes := match?_closeRule p.cursor
  rw [if_neg noClosing] at closes
  rw [matched_inComments stack, firstMatch_skip opens, firstMatch_skip closes]

/-- One round inside comments reads what the depth counter reads, at its depth. -/
theorem round_comment (stack : p.stack = inComments (n + 1)) (more : p.cursor.after ≠ [])
    (shallow : ∀ depth ∈ (nestingFrom (n + 1) p.cursor.after).depths, depth ≤ 63) :
    ∃ read rest m depth, p.cursor.after = read ++ rest ∧ read ≠ [] ∧
      typst.round .backtracking p = some (p.took read (inComments m)
        (List.replicate depth commentScope ++ delimiterScopes read)) ∧
      nestingFrom (n + 1) p.cursor.after = (nestingFrom m rest).behind read.length depth := by
  have whole := (List.take_append_drop 2 p.cursor.after).symm
  by_cases opens : p.cursor.after.take 2 = ['/', '*']
  · rw [opens] at whole
    have counted : nestingFrom (n + 1) p.cursor.after =
      (nestingFrom (n + 2) (p.cursor.after.drop 2)).behind 2 (n + 2) := by rw [whole]; rfl
    -- the only place where the depth matters: a full stack would refuse the opening
    have room : n + 1 < 63 := by
      apply shallow (n + 2)
      rw [counted]
      exact List.mem_cons_self ..
    refine ⟨['/', '*'], p.cursor.after.drop 2, n + 2, n + 2, whole, by simp, ?_, counted⟩
    rw [round_of_matched (matched_open stack opens) whole (by simp), stack, apply_openRule room]
  by_cases closes : p.cursor.after.take 2 = ['*', '/']
  · rw [closes] at whole
    have counted : nestingFrom (n + 1) p.cursor.after =
      (nestingFrom n (p.cursor.after.drop 2)).behind 2 (n + 1) := by rw [whole]; rfl
    refine ⟨['*', '/'], p.cursor.after.drop 2, n, n + 1, whole, by simp, ?_, counted⟩
    rw [round_of_matched (matched_close stack closes) whole (by simp), stack, apply_closeRule]
  have between := matched_between stack opens closes
  obtain ⟨c, rest, ahead⟩ := List.exists_cons_of_ne_nil more
  by_cases special : c ∈ ['*', '/']
  · have text := Pattern.match?_except_of_mem ahead special
    rw [← patterns_comment.2.2] at text
    refine ⟨[c], rest, n + 1, n + 1, ahead, by simp, ?_, ?_⟩
    · rw [round_of_unmatched (between.trans (firstMatch_skip text)) ahead, stack, scopes_inComments]
      simp [delimiterScopes]
    · rw [ahead] at opens closes ⊢
      exact nestingFrom_cons opens closes
  · obtain ⟨run, rest, whole, some, inside, text⟩ := Pattern.match?_except ahead special
    rw [← patterns_comment.2.2] at text
    refine ⟨run, rest, n + 1, n + 1, whole, some, ?_, ?_⟩
    · rw [round_of_matched (between.trans (firstMatch_take text some)) whole some,
        apply_textRule, stack, scopes_inComments, delimiterScopes_plain inside, List.append_nil]
    · rw [whole]
      exact nestingFrom_plain inside

def commentDepths (tokens : List Token) : List Nat :=
  tokens.flatMap fun token =>
    List.replicate (token.stop - token.start) (token.scopes.count commentScope)

structure Counts (p q : Progress typst.size) (added : List Token) (nesting : Nesting) : Prop where
  leads : Leads .backtracking typst p q
  emitted : q.emitted = p.emitted ++ added
  position : q.cursor.position = p.cursor.position + nesting.depths.length
  depths : commentDepths added = nesting.depths
  scopes : ∀ token ∈ added, ∃ depth,
    token.scopes = List.replicate depth commentScope ++ delimiterScopes token.text
  stack : q.stack = inComments nesting.left
  ended : nesting.left ≠ 0 → q.cursor.after = []

theorem count_commentScope (depth : Nat) (text : List Char) :
    (List.replicate depth commentScope ++ delimiterScopes text).count commentScope = depth := by
  have own : (delimiterScopes text).count commentScope = 0 := by
    unfold delimiterScopes
    split
    · rfl
    · split <;> rfl
  rw [List.count_append, List.count_replicate_self, own, Nat.add_zero]

theorem Counts.step {q : Progress typst.size} {added : List Token} {nesting : Nesting}
    {read : List Char} {m depth : Nat}
    (round : typst.round .backtracking p = some (p.took read (inComments m)
      (List.replicate depth commentScope ++ delimiterScopes read)))
    (h : Counts (p.took read (inComments m)
      (List.replicate depth commentScope ++ delimiterScopes read)) q added nesting) :
    Counts p q (⟨read, p.cursor.position, p.cursor.position + read.length,
      List.replicate depth commentScope ++ delimiterScopes read⟩ :: added)
      (nesting.behind read.length depth) where
  leads := .head round h.leads
  emitted := by
    rw [h.emitted, Progress.took, List.append_assoc]
    rfl
  position := by
    rw [h.position, Nesting.behind, List.length_append, List.length_replicate, ← Nat.add_assoc]
    rfl
  depths := by
    have later := h.depths
    unfold commentDepths at later ⊢
    rw [List.flatMap_cons, later, count_commentScope, Nat.add_sub_cancel_left]
    rfl
  scopes := List.forall_mem_cons.mpr ⟨⟨depth, rfl⟩, h.scopes⟩
  stack := h.stack
  ended := h.ended

/-- By recursion on the text ahead, of which each round reads some: the counter and the stack go
    the same way until the counter is back at zero. -/
theorem counts_comments (p : Progress typst.size) (n : Nat) (stack : p.stack = inComments n)
    (shallow : ∀ depth ∈ (nestingFrom n p.cursor.after).depths, depth ≤ 63) :
    ∃ q added, Counts p q added (nestingFrom n p.cursor.after) := by
  cases n with
  | zero =>
    have done : nestingFrom 0 p.cursor.after = ⟨[], 0⟩ := by rw [nestingFrom]
    rw [done]
    exact ⟨p, [], .refl, (List.append_nil _).symm, rfl, rfl, by simp, stack, absurd rfl⟩
  | succ n =>
    by_cases more : p.cursor.after = []
    · have done : nestingFrom (n + 1) p.cursor.after = ⟨[], n + 1⟩ := by rw [more, nestingFrom]
      rw [done]
      exact ⟨p, [], .refl, (List.append_nil _).symm, rfl, rfl, by simp, stack, fun _ => more⟩
    · obtain ⟨read, rest, m, depth, whole, some, next, counted⟩ := round_comment stack more shallow
      rw [counted] at shallow ⊢
      let p' := p.took read (inComments m)
        (List.replicate depth commentScope ++ delimiterScopes read)
      have after : p'.cursor.after = rest := Progress.after_took whole
      have shorter : p'.cursor.after.length < p.cursor.after.length := Progress.took_lt whole some
      have later : ∀ depth ∈ (nestingFrom m p'.cursor.after).depths, depth ≤ 63 := by
        intro depth member
        rw [after] at member
        exact shallow depth (List.mem_append_right _ member)
      obtain ⟨q, added, counts⟩ := counts_comments p' m rfl later
      rw [after] at counts
      exact ⟨q, _, counts.step next⟩
termination_by p.cursor.after.length

end

theorem depth_of_tile {text : List Char} {start stop : Nat} {tokens : List Token}
    (tiles : Tiles text start tokens stop) {token : Token} (member : token ∈ tokens) {i : Nat}
    (begun : token.start ≤ i) (unfinished : i < token.stop) :
    start ≤ i ∧ (commentDepths tokens)[i - start]? = some (token.scopes.count commentScope) := by
  induction tiles with
  | nil => cases member
  | @cons start _ head rest starts nonempty _ tail ih =>
    subst starts
    change _ ∧ (List.replicate (head.stop - head.start) _ ++ commentDepths rest)[_]? = _
    rcases List.mem_cons.mp member with rfl | later
    · refine ⟨begun, ?_⟩
      rw [List.getElem?_append_left (by rw [List.length_replicate]; omega)]
      exact List.getElem?_replicate_of_lt (by omega)
    · obtain ⟨behind, found⟩ := ih later
      refine ⟨by omega, ?_⟩
      rw [List.getElem?_append_right (by rw [List.length_replicate]; omega),
        List.length_replicate]
      have same : i - head.start - (head.stop - head.start) = i - head.stop := by omega
      rwa [same]

theorem counts_opening {text : List Char} (opens : ['/', '*'] <+: text)
    (shallow : ∀ depth ∈ (nesting text).depths, depth ≤ 63) :
    ∃ q added, Counts (typst.opening text) q added (nesting text) := by
  obtain ⟨rest, rfl⟩ := opens
  let p := typst.opening (['/', '*'] ++ rest)
  have found : typst.matched .backtracking p = some (openRule, p.cursor.past ['/', '*']) := by
    have ahead : p.cursor.after = ['/', '*'] ++ rest := rfl
    have next : p.cursor.after.take 2 = ['/', '*'] := rfl
    have opens := match?_openRule p.cursor
    rw [if_pos next] at opens
    have fails : ∀ rule ∈ comments.take 1, rule.pattern.outlook ['/', '*'] = .fails := by
      decide +kernel
    refine (firstMatch_of_outlook ahead fails (openRule :: markup.drop 2)).trans ?_
    exact firstMatch_take opens (by simp)
  have first := round_of_matched found rfl (by simp)
  have outside : p.stack = inComments 0 := rfl
  rw [outside, apply_openRule (by decide)] at first
  obtain ⟨q, added, counts⟩ := counts_comments
    (p.took ['/', '*'] (inComments 1) (List.replicate 1 commentScope ++ delimiterScopes ['/', '*']))
    1 rfl fun depth member => shallow depth (List.mem_append_right _ member)
  exact ⟨q, _, counts.step first⟩

theorem Counts.arrives {text : List Char} {q : Progress typst.size} {added : List Token}
    {nesting : Nesting} (h : Counts (typst.opening text) q added nesting) :
    Arrives typst text nesting.depths.length q := by
  have arrives := h.leads.arrives
  rwa [h.position.trans (Nat.zero_add _)] at arrives

/-- A comment that a text starts with is read as a depth counter reads it, which stays below the
    limit of the stack: the tokens up to its end have the scope of comments once for each comment
    that they are inside, and a delimiter has its own scope besides. The stack is then the root, or
    at the end of the text inside the comments that the counter has left open. -/
theorem comments_nest {text : List Char} (opens : ['/', '*'] <+: text)
    (shallow : ∀ depth ∈ (nesting text).depths, depth ≤ 63) :
    ∃ p, Arrives typst text (nesting text).depths.length p ∧
      (∀ token ∈ p.emitted, ∃ depth,
        (∀ i, token.start ≤ i → i < token.stop → (nesting text).depths[i]? = some depth) ∧
        token.scopes = List.replicate depth commentScope ++ delimiterScopes token.text) ∧
      p.stack = inComments (nesting text).left ∧
      ((nesting text).left = 0 → p.stack = typst.root) ∧
      ((nesting text).left ≠ 0 → p.cursor.after = []) := by
  obtain ⟨p, added, counts⟩ := counts_opening opens shallow
  have arrives := counts.arrives
  have emitted : p.emitted = added := counts.emitted
  refine ⟨p, arrives, fun token member => ?_, counts.stack, fun closed => ?_, counts.ended⟩
  · rw [emitted] at member
    have tiles := arrives.tiles
    rw [emitted] at tiles
    obtain ⟨depth, scopes⟩ := counts.scopes token member
    refine ⟨depth, fun i begun unfinished => ?_, scopes⟩
    obtain ⟨_, found⟩ := depth_of_tile tiles member begun unfinished
    rw [counts.depths, scopes, count_commentScope] at found
    exact found
  · rw [counts.stack, closed]
    rfl

theorem comments_nest_overlapping :
    nesting "/*/*/ x*/*/y".toList = ⟨[1, 1, 2, 2, 2, 2, 2, 2, 2, 1, 1], 0⟩ ∧
      ∃ p, Arrives typst "/*/*/ x*/*/y".toList 11 p ∧ p.stack = typst.root := by
  have counted : nesting "/*/*/ x*/*/y".toList = ⟨[1, 1, 2, 2, 2, 2, 2, 2, 2, 1, 1], 0⟩ := by
    decide +kernel
  have shallow : ∀ depth ∈ (nesting "/*/*/ x*/*/y".toList).depths, depth ≤ 63 := by
    rw [counted]
    decide
  obtain ⟨p, arrives, _, stack, _⟩ := comments_nest ⟨"/*/ x*/*/y".toList, by decide⟩ shallow
  rw [counted] at arrives stack
  exact ⟨counted, p, arrives, stack⟩

/-- A comment that is not closed is still open at the end of the text. -/
theorem comment_left_open :
    (['/', '*'] <+: "/*".toList ∧ ∀ depth ∈ (nesting "/*".toList).depths, depth ≤ 63) ∧
      ¬ ∃ p, Arrives typst "/*".toList (nesting "/*".toList).depths.length p ∧
        p.stack = typst.root := by
  have opens : ['/', '*'] <+: "/*".toList := by decide
  have counted : nesting "/*".toList = ⟨[1, 1], 1⟩ := by decide +kernel
  have shallow : ∀ depth ∈ (nesting "/*".toList).depths, depth ≤ 63 := by
    rw [counted]
    decide
  refine ⟨⟨opens, shallow⟩, ?_⟩
  rintro ⟨p, arrives, closed⟩
  obtain ⟨q, added, counts⟩ := counts_opening opens shallow
  have reaches := counts.arrives
  have stack := counts.stack
  rw [counted] at arrives reaches stack
  rw [Arrives.eq_at_end arrives reaches, stack] at closed
  have depth := congrArg Stack.depth closed
  rw [depth_inComments] at depth
  cases depth

end BookHighlight.Grammar.Typst
