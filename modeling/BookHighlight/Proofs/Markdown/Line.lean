import BookHighlight.Markdown.Line
import BookHighlight.Proofs.Text.Line

namespace BookHighlight.Markdown

open Text (BrokenLine isLineBreak)

/-- A text and its lines, counted from an offset. What parts a line from the next one is an LF, a
    CR or both, or nothing where its text holds the break. -/
inductive Lined : Nat → List Char → List Line → Prop where
  | nil {offset} : Lined offset [] []
  | cons {offset : Nat} {text gap rest : List Char} {lines : List Line} :
      text ++ gap ≠ [] → '\n' ∉ text →
      (gap = [] ∨ gap = ['\n'] ∨ gap = ['\r'] ∨ gap = ['\r', '\n']) →
      (rest = [] ∨ ∃ c ∈ (text ++ gap).getLast?, isLineBreak c = true) →
      Lined (offset + (text ++ gap).length) rest lines →
      Lined offset (text ++ gap ++ rest) (⟨offset, offset + text.length, text⟩ :: lines)

def gap (line : BrokenLine) : List Char :=
  if line.ending = ['\n'] ∨ line.ending = ['\r'] ∨ line.ending = ['\r', '\n'] then line.ending
  else []

theorem lineText_append_gap (line : BrokenLine) :
    lineText line ++ gap line = line.body ++ line.ending := by
  unfold lineText gap
  split <;> simp

theorem lf_not_mem_lineText {line : BrokenLine} (body : ∀ c ∈ line.body, isLineBreak c = false)
    (ending : line.ending.length ≤ 1 ∨ line.ending = ['\r', '\n']) : '\n' ∉ lineText line := by
  have inner : '\n' ∉ line.body := by
    intro member
    have := body _ member
    revert this
    decide
  unfold lineText
  split
  · exact inner
  · rename_i other
    rw [List.mem_append, not_or]
    refine ⟨inner, fun member => other ?_⟩
    rcases ending with short | crlf
    · match kept : line.ending with
      | [] => simp [kept] at member
      | [c] =>
        rw [kept, List.mem_singleton] at member
        exact .inl (by rw [member])
      | c :: d :: more => simp [kept] at short
    · exact .inr (.inr crlf)

theorem lined_linesFrom (offset : Nat) (broken : List BrokenLine) (cut : Text.Cut broken) :
    Lined offset (broken.flatMap fun line => line.body ++ line.ending)
      (linesFrom offset broken) := by
  induction broken generalizing offset with
  | nil => exact .nil
  | cons line rest ih =>
    obtain ⟨body, ending, later⟩ := cut
    have whole := lineText_append_gap line
    have length : line.body.length + line.ending.length = (lineText line ++ gap line).length := by
      rw [whole, List.length_append]
    rw [List.flatMap_cons, ← whole, linesFrom, Nat.add_assoc, length]
    refine .cons ?_ (lf_not_mem_lineText body ?_) ?_ ?_ (ih _ later)
    · rw [whole]
      rcases ending with crlf | ⟨c, _, single⟩ | ⟨_, some, _⟩
      · simp [crlf]
      · simp [single]
      · simp [some]
    · rcases ending with crlf | ⟨c, _, single⟩ | ⟨none, _⟩
      · exact .inr crlf
      · simp [single]
      · simp [none]
    · unfold gap
      split <;> simp_all
    · rw [whole]
      rcases ending with crlf | ⟨c, ends, single⟩ | ⟨_, _, last⟩
      · exact .inr ⟨'\n', by simp [crlf], by decide⟩
      · exact .inr ⟨c, by simp [single], ends⟩
      · exact .inl (by simp [last])

theorem length_linesFrom (offset : Nat) (broken : List BrokenLine) :
    (linesFrom offset broken).length = broken.length := by
  induction broken generalizing offset with
  | nil => rfl
  | cons line rest ih => rw [linesFrom, List.length_cons, List.length_cons, ih]

theorem lined_lines (content : List Char) : Lined 0 content (lines content) := by
  have lined := lined_linesFrom 0 _ (Text.cut_brokenLines content)
  rwa [Text.flatMap_brokenLines] at lined

def AtLineStart (before : List Char) : Prop :=
  before = [] ∨ ∃ c ∈ before.getLast?, isLineBreak c = true

theorem eq_or_of_pairwise {α : Type} {R : α → α → Prop} {items : List α}
    (sorted : items.Pairwise R) {a b : α} (left : a ∈ items) (right : b ∈ items) :
    a = b ∨ R a b ∨ R b a := by
  let Apart := fun a b => a = b ∨ R a b ∨ R b a
  have forward : items.Pairwise Apart := sorted.imp fun before => .inr (.inl before)
  have backward : items.Pairwise (flip Apart) := sorted.imp fun before => .inr (.inr before)
  have self : ∀ a ∈ items, Apart a a := fun _ _ => .inl rfl
  exact forward.forall_of_forall_of_flip self backward left right

namespace Lined

variable {offset : Nat} {s : List Char} {ls : List Line}

theorem eq_nil (h : Lined offset [] ls) : ls = [] := by
  generalize none : ([] : List Char) = s at h
  cases h with
  | nil => rfl
  | cons some _ _ _ _ =>
    have := List.append_eq_nil_iff.mp none.symm
    exact absurd this.1 some

theorem source (h : Lined offset s ls) : ∀ line ∈ ls, ∃ before after,
    s = before ++ line.text ++ after ∧ line.start = offset + before.length ∧
      line.stop = line.start + line.text.length ∧ AtLineStart before := by
  induction h with
  | nil => simp
  | @cons offset text gap rest ls _ _ _ broken later ih =>
    intro line member
    rcases List.mem_cons.mp member with rfl | member
    · exact ⟨[], gap ++ rest, by simp, rfl, rfl, .inl rfl⟩
    · obtain ⟨before, after, whole, start, stop, atStart⟩ := ih line member
      refine ⟨text ++ gap ++ before, after, by simp [whole], ?_, stop, ?_⟩
      · simp only [start, List.length_append]
        omega
      · rcases atStart with rfl | ⟨c, last, ends⟩
        · rcases broken with rfl | ⟨c, last, ends⟩
          · rw [later.eq_nil] at member
            cases member
          · exact .inr ⟨c, by simpa using last, ends⟩
        · have ended : before.getLast? = some c := last
          exact .inr ⟨c, by simp [List.getLast?_append, ended], ends⟩

theorem lf_not_mem (h : Lined offset s ls) : ∀ line ∈ ls, '\n' ∉ line.text := by
  induction h with
  | nil => simp
  | cons _ inner _ _ _ ih => exact List.forall_mem_cons.mpr ⟨inner, ih⟩

theorem ordered (h : Lined offset s ls) :
    (∀ line ∈ ls, offset ≤ line.start ∧ line.start ≤ line.stop ∧ line.stop ≤ offset + s.length) ∧
      ls.Pairwise fun left right => left.stop ≤ right.start := by
  induction h with
  | nil => simp
  | @cons offset text gap rest ls _ _ _ _ _ ih =>
    obtain ⟨bounds, sorted⟩ := ih
    simp only [List.length_append] at bounds ⊢
    refine ⟨List.forall_mem_cons.mpr ⟨by simp; omega, ?_⟩, List.pairwise_cons.mpr ⟨?_, sorted⟩⟩
    · intro line member
      have := bounds line member
      omega
    · intro line member
      have := bounds line member
      simp only
      omega

theorem starts_lt (h : Lined offset s ls) :
    (∀ line ∈ ls, offset ≤ line.start) ∧
      ls.Pairwise fun left right => left.start < right.start := by
  induction h with
  | nil => simp
  | @cons offset text gap rest ls some _ _ _ _ ih =>
    obtain ⟨bound, sorted⟩ := ih
    have positive := List.length_pos_iff.mpr some
    refine ⟨List.forall_mem_cons.mpr ⟨Nat.le_refl _, fun line member => ?_⟩,
      List.pairwise_cons.mpr ⟨fun line member => ?_, sorted⟩⟩
    · exact Nat.le_of_add_right_le (bound line member)
    · have := bound line member
      simp only
      omega

theorem apart (h : Lined offset s ls) {a b : Line} (left : a ∈ ls) (right : b ∈ ls) :
    a = b ∨ (a.start < b.start ∧ a.stop ≤ b.start) ∨ (b.start < a.start ∧ b.stop ≤ a.start) :=
  eq_or_of_pairwise (h.starts_lt.2.and h.ordered.2) left right

theorem eq_of_start (h : Lined offset s ls) {a b : Line} (left : a ∈ ls) (right : b ∈ ls)
    (same : a.start = b.start) : a = b := by
  rcases h.apart left right with equal | before | behind
  · exact equal
  · omega
  · omega

theorem eq_of_stop (h : Lined offset s ls) {a b : Line} (left : a ∈ ls) (right : b ∈ ls)
    (first : a.text ≠ []) (second : b.text ≠ []) (same : a.stop = b.stop) : a = b := by
  obtain ⟨_, _, _, _, stopA, _⟩ := h.source a left
  obtain ⟨_, _, _, _, stopB, _⟩ := h.source b right
  have someA := List.length_pos_iff.mpr first
  have someB := List.length_pos_iff.mpr second
  rcases h.apart left right with equal | before | behind
  · exact equal
  · omega
  · omega

section

variable {first next : Line}

theorem next_after (h : Lined offset s ls) (adjacent : [first, next] <:+: ls) :
    first.start < next.start := by
  have both := h.starts_lt.2.sublist adjacent.sublist
  simpa using both

theorem next_le (h : Lined offset s ls) (adjacent : [first, next] <:+: ls) {later : Line}
    (member : later ∈ ls) (after : first.start < later.start) : next.start ≤ later.start := by
  have starts := h.starts_lt.2
  obtain ⟨front, back, rfl⟩ := adjacent
  rw [List.append_assoc, List.pairwise_append] at starts
  obtain ⟨_, sorted, before⟩ := starts
  simp only [List.mem_append, List.mem_cons, List.not_mem_nil, or_false, or_assoc] at member
  rcases member with early | rfl | rfl | behind
  · have := before later early first (by simp)
    omega
  · omega
  · exact Nat.le_refl _
  · have rest := (List.pairwise_cons.mp sorted).2
    exact Nat.le_of_lt ((List.pairwise_cons.mp rest).1 later behind)

theorem next_eq (h : Lined offset s ls) (adjacent : [first, next] <:+: ls) {other : Line}
    (too : [first, other] <:+: ls) : next = other := by
  have here : next ∈ ls := adjacent.mem (by simp)
  have there : other ∈ ls := too.mem (by simp)
  have le := h.next_le adjacent there (h.next_after too)
  have ge := h.next_le too here (h.next_after adjacent)
  exact h.eq_of_start here there (Nat.le_antisymm le ge)

end

end Lined

end BookHighlight.Markdown
