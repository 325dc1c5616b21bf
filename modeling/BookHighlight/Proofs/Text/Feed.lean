import BookHighlight.Proofs.Text.Line

namespace BookHighlight.Text

def isOddBreak (c : Char) : Bool := isLineBreak c && c != '\n' && c != '\r'

theorem isOddBreak_false_iff {c : Char} :
    isOddBreak c = false ↔ (isLineBreak c = true → c = '\n' ∨ c = '\r') := by
  simp only [isOddBreak, Bool.and_eq_false_iff, bne_eq_false_iff_eq, or_assoc]
  cases isLineBreak c <;> simp

/-- A text with its lines ended by LFs. An odd break stays, with an LF behind it. -/
def withFeeds : List Char → List Char
  | [] => []
  | '\r' :: '\n' :: rest => '\n' :: withFeeds rest
  | c :: rest =>
    if isOddBreak c then c :: '\n' :: withFeeds rest
    else (if c = '\r' then '\n' else c) :: withFeeds rest

theorem length_withFeeds (s : List Char) :
    (withFeeds s).length = (normalizeBreaks s).length + s.countP isOddBreak := by
  fun_induction withFeeds s with
  | case1 => rfl
  | case2 rest ih =>
    have inner : ('\r' :: '\n' :: rest).countP isOddBreak = rest.countP isOddBreak := rfl
    rw [normalizeBreaks, inner, List.length_cons, List.length_cons, ih, Nat.add_right_comm]
  | case3 c rest other odd ih =>
    rw [normalizeBreaks, List.countP_cons_of_pos odd]
    · simp only [List.length_cons, ih]
      omega
    · exact other
  | case4 c rest other even ih =>
    rw [normalizeBreaks, List.countP_cons_of_neg even]
    · simp only [List.length_cons, ih]
      omega
    · exact other

theorem withFeeds_eq_normalizeBreaks_iff (s : List Char) :
    withFeeds s = normalizeBreaks s ↔ ∀ c ∈ s, isOddBreak c = false := by
  constructor
  · intro same
    have length := length_withFeeds s
    rw [same] at length
    have none : s.countP isOddBreak = 0 := by omega
    simpa using List.countP_eq_zero.mp none
  · intro even
    fun_induction withFeeds s with
    | case1 => rfl
    | case2 rest ih =>
      have later : ∀ c ∈ rest, isOddBreak c = false := fun c member => even c (by simp [member])
      rw [normalizeBreaks, ih later]
    | case3 c rest _ odd _ =>
      have inner := even c (List.mem_cons_self ..)
      exact absurd (odd.symm.trans inner) (by decide)
    | case4 c rest other _ ih =>
      rw [normalizeBreaks, ih (List.forall_mem_cons.mp even).2]
      exact other

/-- Where the lines of a text are parted, the text itself is: no CRLF lies across. -/
theorem brokenLines_split {s : List Char} {front back : List BrokenLine}
    (h : brokenLines s = front ++ back) :
    ∃ a b, s = a ++ b ∧ brokenLines a = front ∧ brokenLines b = back := by
  fun_induction brokenLines s generalizing front with
  | case1 =>
    obtain ⟨rfl, rfl⟩ := List.append_eq_nil_iff.mp h.symm
    exact ⟨[], [], rfl, rfl, rfl⟩
  | case2 rest ih =>
    rcases List.cons_eq_append_iff.mp h with ⟨rfl, rfl⟩ | ⟨front, rfl, later⟩
    · exact ⟨[], _, rfl, rfl, by rw [brokenLines]⟩
    · obtain ⟨a, b, rfl, first, second⟩ := ih later
      exact ⟨'\r' :: '\n' :: a, b, rfl, by rw [brokenLines, first], second⟩
  | case3 c rest apart ends ih =>
    rcases List.cons_eq_append_iff.mp h with ⟨rfl, rfl⟩ | ⟨front, rfl, later⟩
    · exact ⟨[], _, rfl, rfl, by rw [brokenLines, if_pos ends]; exact apart⟩
    · obtain ⟨a, b, rfl, first, second⟩ := ih later
      refine ⟨c :: a, b, rfl, ?_, second⟩
      rw [brokenLines, if_pos ends, first]
      rintro more rfl rfl
      exact apart (more ++ b) rfl rfl
  | case4 c rest apart inner none _ =>
    rcases List.cons_eq_append_iff.mp h with ⟨rfl, rfl⟩ | ⟨front, rfl, later⟩
    · exact ⟨[], _, rfl, rfl, by rw [brokenLines_cons (by simpa using inner), none]⟩
    · obtain ⟨rfl, rfl⟩ := List.append_eq_nil_iff.mp later.symm
      have all := brokenLines_cons (by simpa using inner) rest
      rw [none] at all
      exact ⟨c :: rest, [], by simp, all, rfl⟩
  | case5 c rest apart inner line lines more ih =>
    rcases List.cons_eq_append_iff.mp h with ⟨rfl, rfl⟩ | ⟨front, rfl, later⟩
    · exact ⟨[], _, rfl, rfl, by rw [brokenLines_cons (by simpa using inner), more]⟩
    · obtain ⟨a, b, rfl, first, second⟩ := @ih (line :: front) (by rw [more, later]; rfl)
      refine ⟨c :: a, b, rfl, ?_, second⟩
      rw [brokenLines_cons (by simpa using inner), first]

end BookHighlight.Text
