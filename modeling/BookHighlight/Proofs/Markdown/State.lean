import BookHighlight.Proofs.Markdown.Opened

namespace BookHighlight.Markdown

theorem listMarker?_ne_nil {s marker rest : List Char} (h : listMarker? s = some (marker, rest)) :
    marker ≠ [] := by
  unfold listMarker? at h
  split at h
  · cases h
  · split at h
    · cases h
      simp
    · dsimp only at h
      split at h
      · split at h
        · cases h
          simp
        · cases h
      · cases h

theorem ListItem.ofText?_wide {s : List Char} {item : ListItem}
    (h : ListItem.ofText? s = some item) : 2 ≤ item.marker + item.gap.getD 1 := by
  unfold ListItem.ofText? at h
  dsimp only at h
  split at h
  · cases h
  · split at h
    · cases h
    · rename_i marker rest found
      have positive := List.length_pos_iff.mpr (listMarker?_ne_nil found)
      split at h
      · rename_i gap
        cases h
        change 2 ≤ marker.length + min (spaces rest).length 4
        omega
      · split at h
        · cases h
          change 2 ≤ marker.length + 1
          omega
        · cases h

namespace BlockState

variable {s : BlockState} {line : Line} {rest : List Line}

def opened (s : BlockState) (line : Line) : BlockState :=
  match ListItem.ofText? (s.split line).2 with
  | some item => (s.at line).openItem (s.columns line) item
  | none => s.at line

def hasText (s : BlockState) (line : Line) : Bool :=
  match ListItem.ofText? (s.split line).2 with
  | some item => decide (item.width < (s.split line).2.length)
  | none => true

inductive Reading (s : BlockState) (line : Line) :
    (List Line → BlockState × Option (Block × Nat)) → Prop where
  | blank : line.isBlank = true →
      Reading s line fun _ => ({ s with paragraph := false, afterBlank := true }, none)
  | indented : line.isBlank = false → (s.at line).paragraph = false →
      (s.at line).base + 4 ≤ indentWidth line.text →
      Reading s line fun rest =>
        ({ s.at line with paragraph := false }, some (indentedBlock (s.at line).base line rest))
  | fenced {opening} : line.isBlank = false →
      Opening.ofText? (s.split line).2 = some opening →
      Reading s line fun rest => ({ s.opened line with paragraph := false },
        some (fencedBlock (s.split line).1 opening line rest))
  | text : line.isBlank = false → Opening.ofText? (s.split line).2 = none →
      Reading s line fun _ =>
        ({ s.opened line with paragraph := !isHeading line.text && s.hasText line }, none)

theorem step_blank (blank : line.isBlank = true) :
    s.step line rest = ({ s with paragraph := false, afterBlank := true }, none) := by
  rw [step, if_pos blank]

theorem step_nonblank (nonblank : line.isBlank = false) : s.step line rest =
    if (!(s.at line).paragraph && decide ((s.at line).base + 4 ≤ indentWidth line.text)) = true then
      ({ s.at line with paragraph := false }, some (indentedBlock (s.at line).base line rest))
    else
      match Opening.ofText? (s.split line).2 with
      | some opening => ({ s.opened line with paragraph := false },
          some (fencedBlock (s.split line).1 opening line rest))
      | none =>
        ({ s.opened line with paragraph := !isHeading line.text && s.hasText line }, none) := by
  unfold step
  rw [nonblank, if_neg Bool.false_ne_true]
  rfl

theorem reading (s : BlockState) (line : Line) : s.Reading line (s.step line) := by
  by_cases blank : line.isBlank = true
  · have same : s.step line =
        fun _ => ({ s with paragraph := false, afterBlank := true }, none) := by
      funext rest
      exact step_blank blank
    rw [same]
    exact .blank blank
  · rw [Bool.not_eq_true] at blank
    have step := fun rest => @step_nonblank s line rest blank
    by_cases indented :
        (!(s.at line).paragraph && decide ((s.at line).base + 4 ≤ indentWidth line.text)) = true
    · have same := funext fun rest => (step rest).trans (if_pos indented)
      rw [Bool.and_eq_true, Bool.not_eq_true', decide_eq_true_eq] at indented
      rw [same]
      exact .indented blank indented.1 indented.2
    · have same := funext fun rest => (step rest).trans (if_neg indented)
      rw [same]
      cases opens : Opening.ofText? (s.split line).2 with
      | some opening => exact .fenced blank opens
      | none => exact .text blank opens

theorem at_eq (idle : s.paragraph = false) (inside : s.base ≤ indentWidth line.text) :
    s.at line = { s with afterBlank := false } := by
  have kept : s.items.dropWhile (indentWidth line.text < ·) = s.items := by
    cases items : s.items with
    | nil => rfl
    | cons content outer =>
      have base : s.base = content := by rw [base, items, List.headD_cons]
      apply List.dropWhile_cons_of_neg
      rw [decide_eq_true_eq]
      omega
  unfold BlockState.at atIndent
  dsimp only
  rw [idle, Bool.false_and, if_neg Bool.false_ne_true, kept]

theorem step_indented (nonblank : line.isBlank = false) (idle : s.paragraph = false)
    (wide : s.base + 4 ≤ indentWidth line.text) (rest : List Line) :
    s.step line rest = ({ s with paragraph := false, afterBlank := false },
      some (indentedBlock s.base line rest)) := by
  have state := at_eq idle (Nat.le_of_add_right_le wide)
  rw [step_nonblank nonblank, state]
  apply if_pos
  change (!s.paragraph && decide (s.base + 4 ≤ indentWidth line.text)) = true
  rw [idle, Bool.not_false, Bool.true_and, decide_eq_true_eq]
  exact wide

theorem split_of_flush (flush : indentWidth line.text = 0) : s.split line = ([], line.text) := by
  rw [split, columns, flush, Nat.min_zero, splitColumns_zero]

theorem step_flush (nonblank : line.isBlank = false) (flush : indentWidth line.text = 0)
    (closed : Opening.ofText? line.text = none) (rest : List Line) : s.step line rest =
      ({ s.opened line with paragraph := !isHeading line.text && s.hasText line }, none) := by
  have narrow : ¬ (!(s.at line).paragraph &&
      decide ((s.at line).base + 4 ≤ indentWidth line.text)) = true := by simp [flush]
  rw [step_nonblank nonblank, if_neg narrow, split_of_flush flush, closed]

theorem mem_items_at {content : Nat} (h : content ∈ (s.at line).items) : content ∈ s.items := by
  have kept : content ∈ if (s.paragraph && !s.afterBlank) = true then s.items
      else s.items.dropWhile (indentWidth line.text < ·) := h
  split at kept
  · exact kept
  · exact (List.dropWhile_sublist _).mem kept

theorem mem_items_opened {content : Nat} (h : content ∈ (s.opened line).items) :
    content ∈ s.items ∨ 2 ≤ content := by
  unfold opened at h
  split at h
  · rename_i item found
    rcases List.mem_cons.mp h with rfl | outer
    · have wide := ListItem.ofText?_wide found
      omega
    · exact .inl (mem_items_at ((List.dropWhile_sublist _).mem outer))
  · exact .inl (mem_items_at h)

theorem mem_items_step {content : Nat} (h : content ∈ (s.step line rest).1.items) :
    content ∈ s.items ∨ 2 ≤ content := by
  have reading := s.reading line
  generalize s.step line = step at h reading
  cases reading with
  | blank _ => exact .inl h
  | indented _ _ _ => exact .inl (mem_items_at h)
  | fenced _ _ => exact mem_items_opened h
  | text _ _ => exact mem_items_opened h

theorem afterBlank_opened : (s.opened line).afterBlank = false := by
  unfold opened
  split <;> rfl

theorem idle_step (h : (s.step line rest).1.afterBlank = true) :
    (s.step line rest).1.paragraph = false := by
  have reading := s.reading line
  generalize s.step line = step at h reading ⊢
  cases reading with
  | blank _ => rfl
  | indented _ _ _ => rfl
  | fenced _ _ => rfl
  | text _ _ => exact absurd (afterBlank_opened.symm.trans h) Bool.false_ne_true

end BlockState

def stateFrom : (skip : Nat) → BlockState → List Line → BlockState
  | _, s, [] => s
  | skip + 1, s, _ :: rest => stateFrom skip s rest
  | 0, s, line :: rest =>
    match s.step line rest with
    | (s, some (_, taken)) => stateFrom taken s rest
    | (s, none) => stateFrom 0 s rest

def stateAfter (content : List Char) : BlockState := stateFrom 0 .initial (lines content)

theorem Reads.stateFrom {content : List Char} {skip : Nat} {s : BlockState} {ls : List Line}
    (h : Reads content s (ls.drop skip)) : Reads content (stateFrom skip s ls) [] := by
  fun_induction Markdown.stateFrom skip s ls with
  | case1 skip s => simpa using h
  | case2 skip s line rest ih => exact ih h
  | case3 s line rest s' block taken step ih => exact ih (.found h step)
  | case4 s line rest s' step ih => exact ih (.pass h step)

theorem reads_stateAfter (content : List Char) : Reads content (stateAfter content) [] :=
  @Reads.stateFrom content 0 _ _ .start

namespace Reads

variable {content : List Char} {s : BlockState} {ls : List Line}

/-- What holds at first and is kept by every line holds whenever a line comes to be read. -/
theorem keeps {P : BlockState → Prop} (h : Reads content s ls) (initial : P .initial)
    (step : ∀ {s : BlockState} {line : Line} {rest : List Line}, P s → P (s.step line rest).1) :
    P s := by
  have next : ∀ {s s' : BlockState} {line rest found}, s.step line rest = (s', found) →
      P s → P s' := by
    intro s s' line rest found taken before
    have after : P (s.step line rest).1 := step before
    rwa [taken] at after
  induction h with
  | start => exact initial
  | pass _ taken ih => exact next taken ih
  | found _ taken ih => exact next taken ih

theorem items_wide (h : Reads content s ls) : ∀ item ∈ s.items, 2 ≤ item := by
  apply h.keeps (P := fun s => ∀ item ∈ s.items, 2 ≤ item)
  · simp [BlockState.initial]
  · intro s line rest wide item member
    rcases BlockState.mem_items_step member with outer | opened
    · exact wide item outer
    · exact opened

theorem idle (h : Reads content s ls) (behind : s.afterBlank = true) : s.paragraph = false :=
  h.keeps (P := fun s => s.afterBlank = true → s.paragraph = false) (fun _ => rfl)
    (fun _ => BlockState.idle_step) behind

end Reads

end BookHighlight.Markdown
