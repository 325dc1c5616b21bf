import BookHighlight.Markdown.Span

namespace BookHighlight.Markdown

structure RunIn (text before : List Char) (width : Nat) (after : List Char) : Prop where
  whole : text = before ++ List.replicate width '`' ++ after
  left : before.getLast? ≠ some '`'
  right : after.head? ≠ some '`'

def NoRun (width : Nat) (text : List Char) : Prop :=
  ∀ before after, ¬ RunIn text before width after

inductive FirstRun (width : Nat) (text : List Char) : Option Nat → Prop where
  | found {before after} : RunIn text before width after → NoRun width before →
      FirstRun width text (some before.length)
  | missing : NoRun width text → FirstRun width text none

variable {width run : Nat} {text front before after : List Char} {c : Char}

theorem NoRun.nil (positive : 0 < width) : NoRun width [] := by
  intro before after found
  have length := congrArg List.length found.whole
  simp only [List.length_nil, List.length_append, List.length_replicate] at length
  omega

theorem replicate_inj_of_getLast?
    (same : before ++ List.replicate width '`' = front ++ List.replicate run '`')
    (left : before.getLast? ≠ some '`') (apart : front.getLast? ≠ some '`') :
    before = front ∧ width = run := by
  induction width generalizing run with
  | zero =>
    cases run with
    | zero => exact ⟨by simpa using same, rfl⟩
    | succ run =>
      rw [List.replicate_zero, List.append_nil, List.replicate_succ', ← List.append_assoc] at same
      exact absurd (by simp [same]) left
  | succ width ih =>
    cases run with
    | zero =>
      rw [List.replicate_zero, List.append_nil, List.replicate_succ', ← List.append_assoc] at same
      exact absurd (by simp [← same]) apart
    | succ run =>
      rw [List.replicate_succ', List.replicate_succ', ← List.append_assoc, ← List.append_assoc]
        at same
      obtain ⟨front, same⟩ := ih (List.append_inj' same rfl).1
      exact ⟨front, congrArg (· + 1) same⟩

theorem RunIn.of_replicate (found : RunIn (front ++ List.replicate run '`') before width after)
    (apart : front.getLast? ≠ some '`') :
    (∃ inner, RunIn front before width inner) ∨ before = front ∧ width = run := by
  obtain ⟨whole, left, right⟩ := found
  rcases List.append_eq_append_iff.mp whole with ⟨extra, grown, ticks⟩ | ⟨inner, shrunk, rest⟩
  · have none : after = [] := by
      cases after with
      | nil => rfl
      | cons d after =>
        have member : d ∈ List.replicate run '`' := by simp [ticks]
        exact absurd (congrArg some (List.eq_of_mem_replicate member)) right
    rw [none, List.append_nil] at ticks
    rw [← ticks] at grown
    exact .inr (replicate_inj_of_getLast? grown left apart)
  · refine .inl ⟨inner, shrunk, left, ?_⟩
    cases inner with
    | nil => simp
    | cons d inner => simpa [rest] using right

theorem RunIn.of_concat (found : RunIn (text ++ [c]) before width after) (positive : 0 < width)
    (other : c ≠ '`') : ∃ inner, RunIn text before width inner := by
  obtain ⟨whole, left, right⟩ := found
  rcases after.eq_nil_or_concat with rfl | ⟨inner, last, rfl⟩
  · obtain ⟨width, rfl⟩ := Nat.exists_eq_succ_of_ne_zero (Nat.ne_of_gt positive)
    rw [List.append_nil, List.replicate_succ', ← List.append_assoc] at whole
    have ends := (List.append_inj' whole rfl).2
    exact absurd (List.singleton_inj.mp ends) other
  · rw [List.concat_eq_append, ← List.append_assoc] at whole
    refine ⟨inner, (List.append_inj' whole rfl).1, left, ?_⟩
    cases inner with
    | nil => simp
    | cons d inner => simpa using right

theorem RunIn.of_cons (found : RunIn (c :: text) before width after) (positive : 0 < width)
    (other : c ≠ '`') : ∃ inner, RunIn text inner width after := by
  obtain ⟨whole, left, right⟩ := found
  cases before with
  | nil =>
    obtain ⟨width, rfl⟩ := Nat.exists_eq_succ_of_ne_zero (Nat.ne_of_gt positive)
    rw [List.nil_append, List.replicate_succ, List.cons_append] at whole
    exact absurd (List.cons.inj whole).1 other
  | cons d inner =>
    refine ⟨inner, (List.cons.inj whole).2, ?_, right⟩
    cases inner with
    | nil => simp
    | cons e inner => rwa [List.getLast?_cons_cons] at left

theorem NoRun.enclose {d : Char} (none : NoRun width text) (positive : 0 < width)
    (first : c ≠ '`') (last : d ≠ '`') : NoRun width (c :: (text ++ [d])) := by
  intro before after found
  obtain ⟨inner, found⟩ := found.of_cons positive first
  obtain ⟨later, found⟩ := found.of_concat positive last
  exact none inner later found

theorem NoRun.concat (none : NoRun width front) (positive : 0 < width)
    (apart : front.getLast? ≠ some '`') (differs : run ≠ width) (other : c ≠ '`') :
    NoRun width (front ++ List.replicate run '`' ++ [c]) := by
  intro before after found
  obtain ⟨inner, found⟩ := found.of_concat positive other
  rcases found.of_replicate apart with ⟨inner, found⟩ | ⟨_, same⟩
  · exact none _ _ found
  · exact differs same.symm

/-- What is read so far has no run of the width, apart from backticks at its end. -/
theorem firstRun_reading (positive : 0 < width) (rest front : List Char) (run index : Nat)
    (counted : index = front.length + run) (apart : front.getLast? ≠ some '`')
    (none : NoRun width front) :
    FirstRun width (front ++ List.replicate run '`' ++ rest)
      (runIndexFrom? width index run rest) := by
  have start : index - run = front.length := by omega
  induction rest generalizing front run index with
  | nil =>
    rw [List.append_nil, runIndexFrom?]
    split
    · rename_i same
      rw [start, same]
      exact .found ⟨(List.append_nil _).symm, apart, by simp⟩ none
    · rename_i differs
      refine .missing fun before after found => ?_
      rcases found.of_replicate apart with ⟨inner, found⟩ | ⟨_, same⟩
      · exact none _ _ found
      · exact differs same.symm
  | cons c rest ih =>
    rw [runIndexFrom?]
    split
    · rename_i tick
      have grown := ih front (run + 1) (index + 1) (by omega) apart none (by omega)
      rw [List.replicate_succ'] at grown
      simpa [tick] using grown
    · rename_i other
      split
      · rename_i same
        rw [start, same]
        exact .found ⟨rfl, apart, by simpa using other⟩ none
      · rename_i differs
        have grown := ih (front ++ List.replicate run '`' ++ [c]) 0 (index + 1) (by simp; omega)
          (by simpa using other) (none.concat positive apart differs other) (by simp; omega)
        simpa using grown

theorem firstRun_runIndexFrom? (positive : 0 < width) (text : List Char) :
    FirstRun width text (runIndexFrom? width 0 0 text) := by
  have reading := firstRun_reading positive text [] 0 0 rfl (by simp) (NoRun.nil positive)
  simpa using reading

theorem noRun_of_runIndexFrom? (positive : 0 < width)
    (missing : runIndexFrom? width 0 0 text = none) : NoRun width text := by
  have first := firstRun_runIndexFrom? positive text
  rw [missing] at first
  cases first with
  | missing none => exact none

theorem runIndexFrom?_append (positive : 0 < width) (none : NoRun width front)
    (apart : front.getLast? ≠ some '`') :
    runIndexFrom? width 0 0 (front ++ List.replicate width '`') = some front.length := by
  have first := firstRun_runIndexFrom? positive (front ++ List.replicate width '`')
  generalize runIndexFrom? width 0 0 (front ++ List.replicate width '`') = index at first
  cases first with
  | missing nowhere =>
    have here : RunIn (front ++ List.replicate width '`') front width [] :=
      ⟨(List.append_nil _).symm, apart, by simp⟩
    exact absurd here (nowhere front [])
  | @found before after run _ =>
    rcases run.of_replicate apart with ⟨inner, inside⟩ | ⟨same, _⟩
    · exact absurd inside (none before inner)
    · rw [same]

end BookHighlight.Markdown
