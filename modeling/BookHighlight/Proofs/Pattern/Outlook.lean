import BookHighlight.Pattern.Match

namespace BookHighlight

namespace Cursor

def past (c : Cursor) (read : List Char) : Cursor :=
  ⟨c.position + read.length, read.reverse ++ c.before, c.after.drop read.length⟩

variable {c : Cursor} {char : Char} {rest : List Char}

theorem past_nil (c : Cursor) : c.past [] = c := rfl

theorem advance_past (ahead : c.after = char :: rest) (read : List Char) :
    (c.advance char rest).past read = c.past (char :: read) := by
  simp only [past, advance, ahead, List.length_cons, List.reverse_cons, List.append_assoc,
    List.drop_succ_cons, mk.injEq, and_true]
  exact ⟨by omega, rfl⟩

theorem past_past (c : Cursor) (a b : List Char) : (c.past a).past b = c.past (a ++ b) := by
  simp [past, Nat.add_assoc]

theorem after_past {read : List Char} (ahead : c.after = read ++ rest) :
    (c.past read).after = rest := by
  rw [past, ahead, List.drop_left]

theorem lt_past {read : List Char} (some : read ≠ []) (c : Cursor) :
    c.position < (c.past read).position :=
  Nat.lt_add_of_pos_right (List.length_pos_iff.mpr some)

end Cursor

namespace Pattern

/-- What the first characters ahead say about a match: that there is none, or where it ends if
    there is one. -/
inductive Outlook where
  | fails
  | takes (n : Nat)
  | unknown
  deriving DecidableEq

def Outlook.after (n : Nat) : Outlook → Outlook
  | .takes m => .takes (n + m)
  | .fails => .fails
  | .unknown => .unknown

def Outlook.andThen : Outlook → (Nat → Outlook) → Outlook
  | .takes n, second => (second n).after n
  | .fails, _ => .fails
  | .unknown, _ => .unknown

/-- The outlook of a pattern at a place where the text ahead starts with the given one. Assertions
    take nothing, whether they hold or not. -/
def outlook : Pattern → List Char → Outlook
  | .one _, [] => .unknown
  | .one set, c :: _ => if set.contains c then .takes 1 else .fails
  | .seq p q, s => (p.outlook s).andThen fun n => q.outlook (s.drop n)
  | .either p q, s =>
    match p.outlook s, q.outlook s with
    | .fails, other => other
    | other, .fails => other
    | _, _ => .unknown
  | .times p least _ _, s =>
    if p.outlook s = .fails then (if least = 0 then .takes 0 else .fails) else .unknown
  | .atomic p, s => p.outlook s
  | .ahead false p, s => if p.outlook s = .fails then .fails else .takes 0
  | _, _ => .takes 0

def Outlook.Holds (s : List Char) (c : Cursor) (next : Continuation) (result : Option Cursor) :
    Outlook → Prop
  | .fails => result = none
  | .takes n => n ≤ s.length ∧ (result = none ∨ result = next (c.past (s.take n)))
  | .unknown => True

section

variable {rest : List Char} {c : Cursor} {next : Continuation}

theorem run_one (set : CharSet) {char : Char} (ahead : c.after = char :: rest) :
    run (.one set) next c = if set.contains char then next (c.advance char rest) else none := by
  simp only [run, ahead]

theorem run_one_of_empty (set : CharSet) (ahead : c.after = []) :
    run (.one set) next c = none := by
  simp only [run, ahead]

theorem exactly_none {step : Continuation → Continuation} {n : Nat} (positive : n ≠ 0)
    (nothing : ∀ next, step next c = none) : exactly step n next c = none := by
  cases n with
  | zero => exact absurd rfl positive
  | succ n => exact nothing _

theorem upTo_none {step : Continuation → Continuation} (nothing : ∀ next, step next c = none)
    (greedy : Bool) (budget : List Char) (limit : Option Nat) :
    upTo step greedy budget limit next c = next c := by
  cases budget with
  | nil => rfl
  | cons _ budget =>
    rw [upTo]
    split
    · rfl
    · simp only [nothing]
      split
      · rfl
      · cases next c <;> rfl

end

def Foreseen (p : Pattern) : Prop := ∀ {s rest : List Char} {c : Cursor},
  c.after = s ++ rest → ∀ next, (p.outlook s).Holds s c next (p.run next c)

theorem holds_still {s : List Char} {c : Cursor} {next : Continuation} {holds : Prop}
    [Decidable holds] : (Outlook.takes 0).Holds s c next (if holds then next c else none) := by
  refine ⟨Nat.zero_le _, ?_⟩
  by_cases h : holds
  · exact .inr (if_pos h)
  · exact .inl (if_neg h)

theorem foreseen_one (set : CharSet) : (one set).Foreseen := by
  intro s rest c ahead next
  cases s with
  | nil => trivial
  | cons char s =>
    rw [run_one set ahead, outlook]
    split
    · refine ⟨Nat.le_add_left .., .inr ?_⟩
      change next _ = next (c.past [char])
      rw [← Cursor.advance_past ahead, Cursor.past_nil]
    · rfl

theorem Outlook.Holds.of_none {s : List Char} {c : Cursor} {next : Continuation}
    {result : Option Cursor} {outlook : Outlook} (h : outlook.Holds s c next result) :
    outlook.Holds s c next none := by
  cases outlook with
  | fails => rfl
  | takes => exact ⟨h.1, .inl rfl⟩
  | unknown => trivial

theorem Outlook.Holds.after {s : List Char} {c : Cursor} {next : Continuation}
    {result : Option Cursor} {outlook : Outlook} {n : Nat} (inside : n ≤ s.length)
    (h : outlook.Holds (s.drop n) (c.past (s.take n)) next result) :
    (outlook.after n).Holds s c next result := by
  cases outlook with
  | fails => exact h
  | takes m =>
    obtain ⟨within, result⟩ := h
    rw [List.length_drop] at within
    rw [Cursor.past_past, ← List.take_add] at result
    exact ⟨by omega, result⟩
  | unknown => trivial

namespace Foreseen

variable {p q : Pattern}

theorem eq_none (hp : p.Foreseen) {s rest : List Char} {c : Cursor} (ahead : c.after = s ++ rest)
    (fails : p.outlook s = .fails) (next : Continuation) : p.run next c = none := by
  have known := hp ahead next
  rwa [fails] at known

theorem seq (hp : p.Foreseen) (hq : q.Foreseen) : (seq p q).Foreseen := by
  intro s rest c ahead next
  have left := hp ahead (run q next)
  change (Outlook.andThen _ _).Holds s c next (run p (run q next) c)
  cases first : p.outlook s with
  | fails =>
    rw [first] at left
    exact left
  | unknown => trivial
  | takes n =>
    rw [first] at left
    obtain ⟨inside, result⟩ := left
    have whole : c.after = s.take n ++ (s.drop n ++ rest) := by
      rw [ahead, ← List.append_assoc, List.take_append_drop]
    have right := (hq (Cursor.after_past whole) next).after inside
    rcases result with nothing | reached
    · rw [nothing]
      exact right.of_none
    · rw [reached]
      exact right

theorem either (hp : p.Foreseen) (hq : q.Foreseen) : (either p q).Foreseen := by
  intro s rest c ahead next
  change Outlook.Holds s c next (run p next c <|> run q next c) _
  rw [outlook]
  cases first : p.outlook s with
  | fails =>
    rw [hp.eq_none ahead first next]
    exact hq ahead next
  | takes n =>
    cases second : q.outlook s with
    | fails =>
      have left := hp ahead next
      rw [first] at left
      have same : (run p next c <|> none) = run p next c := by cases run p next c <;> rfl
      rwa [hq.eq_none ahead second next, same]
    | takes m => trivial
    | unknown => trivial
  | unknown => cases q.outlook s <;> trivial

theorem times (hp : p.Foreseen) (least : Nat) (most : Option Nat) (greedy : Bool) :
    (times p least most greedy).Foreseen := by
  intro s rest c ahead next
  rw [outlook]
  split
  · rename_i fails
    have nothing := hp.eq_none ahead fails
    split
    · rename_i zero
      subst zero
      exact ⟨Nat.zero_le _, .inr (upTo_none nothing greedy c.after _)⟩
    · rename_i positive
      exact exactly_none positive nothing
  · trivial

theorem atomic (hp : p.Foreseen) : (atomic p).Foreseen := by
  intro s rest c ahead next
  have body := hp ahead some
  rw [outlook]
  change Outlook.Holds s c next ((run p some c).bind next) _
  cases known : p.outlook s with
  | unknown => trivial
  | fails =>
    rw [hp.eq_none ahead known some]
    rfl
  | takes n =>
    rw [known] at body
    obtain ⟨inside, nothing | reached⟩ := body
    · exact ⟨inside, .inl (by rw [nothing]; rfl)⟩
    · exact ⟨inside, .inr (by rw [reached]; rfl)⟩

theorem ahead (hp : p.Foreseen) (negated : Bool) : (ahead negated p).Foreseen := by
  intro s rest c ahead next
  cases negated with
  | true => exact holds_still
  | false =>
    rw [outlook]
    split
    · rename_i fails
      change (if ((run p some c).isSome != false) = true then next c else none) = none
      rw [hp.eq_none ahead fails some]
      rfl
    · exact holds_still

end Foreseen

theorem foreseen (p : Pattern) : p.Foreseen := by
  induction p with
  | empty => exact fun _ _ => ⟨Nat.zero_le _, .inr rfl⟩
  | one set => exact foreseen_one set
  | seq p q hp hq => exact hp.seq hq
  | either p q hp hq => exact hp.either hq
  | times p least most greedy hp => exact hp.times least most greedy
  | atomic p hp => exact hp.atomic
  | ahead negated p hp => exact hp.ahead negated
  | lineStart | lineEnd | textStart | textEnd | wordBoundary | behind =>
    exact fun _ _ => holds_still

theorem match?_of_outlook {p : Pattern} {s rest : List Char} {c : Cursor}
    (ahead : c.after = s ++ rest) (fails : p.outlook s = .fails) : p.match? c = none :=
  Foreseen.eq_none p.foreseen ahead fails some

end Pattern

end BookHighlight
