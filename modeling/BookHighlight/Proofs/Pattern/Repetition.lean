import BookHighlight.Proofs.Pattern.Outlook

namespace BookHighlight

namespace CharSet

def except (chars : List Char) : CharSet := ⟨chars.map fun c => .range c c, true, false⟩

theorem contains_range_self (c d : Char) : (CharItem.range c c).contains d = decide (d = c) := by
  rw [Bool.eq_iff_iff]
  simp only [CharItem.contains, Bool.and_eq_true, decide_eq_true_eq]
  exact ⟨fun both => Char.le_antisymm both.2 both.1, fun same => by simp [same]⟩

theorem contains_single (c d : Char) : (single c false).contains d = decide (d = c) := by
  simp [contains, single, contains_range_self]

theorem contains_except (chars : List Char) (d : Char) :
    (except chars).contains d = decide (d ∉ chars) := by
  have others : (∀ c ∈ chars, ¬ d = c) ↔ d ∉ chars :=
    ⟨fun apart member => apart d member rfl, fun outside c member same => outside (same ▸ member)⟩
  rw [Bool.eq_iff_iff]
  simp [contains, except, contains_range_self, others]

end CharSet

namespace Pattern

theorem takeWhile_ne_nil {α : Type} {test : α → Bool} {s : List α}
    (h : s.head?.any test = true) : s.takeWhile test ≠ [] := by
  cases s with
  | nil => cases h
  | cons a s =>
    have first : test a = true := h
    rw [List.takeWhile_cons_of_pos first]
    exact List.cons_ne_nil _ _

section

variable (set : CharSet) {c d : Cursor}

theorem upTo_one_greedy (budget : List Char) (enough : c.after.length ≤ budget.length) :
    upTo (run (.one set)) true budget none some c =
      some (c.past (c.after.takeWhile set.contains)) := by
  induction budget generalizing c with
  | nil =>
    have ended : c.after = [] := List.length_eq_zero_iff.mp (Nat.le_zero.mp enough)
    rw [ended]
    rfl
  | cons _ budget ih =>
    rw [upTo, if_neg (by simp)]
    cases ahead : c.after with
    | nil =>
      simp only [run_one_of_empty set ahead]
      rfl
    | cons char rest =>
      simp only [run_one set ahead]
      by_cases member : set.contains char = true
      · have further : (c.advance char rest).position ≠ c.position := Nat.succ_ne_self _
        have more : (c.advance char rest).after.length ≤ budget.length := by
          rw [ahead] at enough
          exact Nat.le_of_succ_le_succ enough
        rw [if_pos member, if_neg further, List.takeWhile_cons_of_pos member,
          ← Cursor.advance_past ahead]
        exact congrArg (· <|> some c) (ih more)
      · rw [if_neg member, List.takeWhile_cons_of_neg member]
        rfl

/-- A repetition of a set takes the longest run of its characters, which must not be empty. -/
theorem match?_oneOrMore (c : Cursor) : (Pattern.times (.one set) 1 none true).match? c =
    if c.after.head?.any set.contains then some (c.past (c.after.takeWhile set.contains))
    else none := by
  change run (.one set) (fun d => upTo (run (.one set)) true d.after none some d) c = _
  cases ahead : c.after with
  | nil => exact run_one_of_empty set ahead
  | cons char rest =>
    rw [run_one set ahead]
    by_cases member : set.contains char = true
    · rw [if_pos member, upTo_one_greedy set _ (Nat.le_refl _), Cursor.advance_past ahead]
      simp [member, Cursor.advance]
    · simp [member]

theorem match?_except {chars : List Char} {char : Char} {rest : List Char}
    (ahead : c.after = char :: rest) (other : char ∉ chars) :
    ∃ read behind, c.after = read ++ behind ∧ read ≠ [] ∧ (∀ char ∈ read, char ∉ chars) ∧
      (Pattern.times (.one (.except chars)) 1 none true).match? c = some (c.past read) := by
  have kept : (CharSet.except chars).contains char = true := by
    rw [CharSet.contains_except, decide_eq_true_eq]
    exact other
  have here : c.after.head?.any (CharSet.except chars).contains = true := by
    rw [ahead]
    exact kept
  refine ⟨c.after.takeWhile (CharSet.except chars).contains,
    c.after.dropWhile (CharSet.except chars).contains, List.takeWhile_append_dropWhile.symm,
    takeWhile_ne_nil here, ?_, by rw [match?_oneOrMore, if_pos here]⟩
  intro char member
  have inside := List.all_eq_true.mp List.all_takeWhile char member
  rwa [CharSet.contains_except, decide_eq_true_eq] at inside

theorem match?_except_of_mem {chars : List Char} {char : Char} {rest : List Char}
    (ahead : c.after = char :: rest) (member : char ∈ chars) :
    (Pattern.times (.one (.except chars)) 1 none true).match? c = none := by
  have refused : ¬ (CharSet.except chars).contains char = true := by
    rw [CharSet.contains_except, decide_eq_true_eq]
    exact fun outside => outside member
  rw [match?_oneOrMore, ahead]
  exact if_neg refused

theorem run_literal (a : Char) (next : Continuation) (c : Cursor) :
    run (literal a) next c = if c.after.head? = some a then next (c.past [a]) else none := by
  change run (.one (.single a false)) next c = _
  cases ahead : c.after with
  | nil => exact run_one_of_empty _ ahead
  | cons x rest =>
    rw [run_one _ ahead, CharSet.contains_single, ← Cursor.past_nil (Cursor.advance _ x rest),
      Cursor.advance_past ahead]
    by_cases same : x = a <;> simp [same]

theorem match?_either {a : Char} (p q : Pattern) (begun : c.after.head? = some a) :
    (seq (literal a) (either p q)).match? c =
      (run p some (c.past [a]) <|> run q some (c.past [a])) :=
  (run_literal a _ c).trans (if_pos begun)

theorem match?_elsewhere {a : Char} (p : Pattern) (other : c.after.head? ≠ some a) :
    (seq (literal a) p).match? c = none :=
  (run_literal a _ c).trans (if_neg other)

theorem match?_lookahead {a b : Char} {rest : List Char} (q : Pattern)
    (ahead : c.after = a :: b :: rest) :
    (seq (literal a) (.ahead false (either (literal b) q))).match? c = some (c.past [a]) := by
  have first : c.after.head? = some a := by rw [ahead]; rfl
  have second : (c.past [a]).after.head? = some b := by rw [Cursor.after_past ahead]; rfl
  have seen := (run_literal b some (c.past [a])).trans (if_pos second)
  refine (run_literal a _ c).trans ((if_pos first).trans ?_)
  change (if ((run (literal b) some _ <|> run q some _).isSome != false) = true then _ else _) = _
  rw [seen]
  rfl

theorem match?_pair (a b : Char) (c : Cursor) : (seq (literal a) (literal b)).match? c =
    if c.after.take 2 = [a, b] then some (c.past [a, b]) else none := by
  change run (literal a) (run (literal b) some) c = _
  rw [run_literal, run_literal, Cursor.past_past]
  cases ahead : c.after with
  | nil => rfl
  | cons x rest =>
    have next : (c.past [a]).after = rest := by rw [Cursor.past, ahead]; rfl
    rw [next]
    cases rest with
    | nil => simp
    | cons y rest =>
      by_cases first : x = a
      · by_cases second : y = b <;> simp [first, second]
      · simp [first]

theorem run_one_reads {next : Continuation} (found : run (.one set) next c = some d) :
    ∃ char rest, c.after = char :: rest ∧ set.contains char = true ∧
      next (c.past [char]) = some d := by
  cases ahead : c.after with
  | nil => simp [run_one_of_empty set ahead] at found
  | cons char rest =>
    rw [run_one set ahead] at found
    split at found
    · rename_i member
      rw [← Cursor.past_nil (c.advance char rest), Cursor.advance_past ahead] at found
      exact ⟨char, rest, rfl, member, found⟩
    · cases found

theorem literal_reads {a : Char} {next : Continuation}
    (found : run (literal a) next c = some d) :
    ∃ rest, c.after = a :: rest ∧ next (c.past [a]) = some d := by
  obtain ⟨char, rest, ahead, member, reached⟩ := run_one_reads _ found
  rw [CharSet.contains_single, decide_eq_true_eq] at member
  subst member
  exact ⟨rest, ahead, reached⟩

/-- Whatever follows a repetition of a set, only characters of the set are taken before it. -/
theorem upTo_one_reads {greedy : Bool} {budget : List Char} {limit : Option Nat}
    {next : Continuation} (found : upTo (run (.one set)) greedy budget limit next c = some d) :
    ∃ read rest, c.after = read ++ rest ∧ (∀ char ∈ read, set.contains char = true) ∧
      next (c.past read) = some d := by
  induction budget generalizing c limit with
  | nil => exact ⟨[], c.after, rfl, by simp, found⟩
  | cons _ budget ih =>
    have again : run (.one set) (fun e => if e.position = c.position then next e
        else upTo (run (.one set)) greedy budget (limit.map (· - 1)) next e) c = some d →
        ∃ read rest, c.after = read ++ rest ∧ (∀ char ∈ read, set.contains char = true) ∧
          next (c.past read) = some d := by
      intro taken
      obtain ⟨char, rest, ahead, member, reached⟩ := run_one_reads set taken
      have further : (c.past [char]).position ≠ c.position := Nat.succ_ne_self _
      rw [if_neg further] at reached
      obtain ⟨read, more, whole, inside, reached⟩ := ih reached
      rw [Cursor.after_past ahead] at whole
      rw [Cursor.past_past] at reached
      exact ⟨char :: read, more, by rw [ahead, whole]; rfl,
        List.forall_mem_cons.mpr ⟨member, inside⟩, reached⟩
    have here : next c = some d → ∃ read rest, c.after = read ++ rest ∧
        (∀ char ∈ read, set.contains char = true) ∧ next (c.past read) = some d :=
      fun reached => ⟨[], c.after, rfl, by simp, reached⟩
    rw [upTo] at found
    split at found
    · exact here found
    · split at found <;> rcases either_of_orElse found with found | found
      · exact again found
      · exact here found
      · exact here found
      · exact again found

theorem oneOrMore_reads {greedy : Bool} {next : Continuation}
    (found : run (.times (.one set) 1 none greedy) next c = some d) :
    ∃ read rest, c.after = read ++ rest ∧ (∀ char ∈ read, set.contains char = true) ∧
      next (c.past read) = some d := by
  obtain ⟨char, rest, ahead, member, reached⟩ := run_one_reads set found
  obtain ⟨read, more, whole, inside, reached⟩ := upTo_one_reads set reached
  rw [Cursor.after_past ahead] at whole
  rw [Cursor.past_past] at reached
  exact ⟨char :: read, more, by rw [ahead, whole]; rfl,
    List.forall_mem_cons.mpr ⟨member, inside⟩, reached⟩

end

end Pattern

end BookHighlight
