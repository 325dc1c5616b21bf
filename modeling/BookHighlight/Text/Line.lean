namespace BookHighlight.Text

def isLineBreak (c : Char) : Bool :=
  let n := c.toNat
  (0x0A ≤ n && n ≤ 0x0D) || (0x1C ≤ n && n ≤ 0x1E) || n == 0x85 || n == 0x2028 || n == 0x2029

structure BrokenLine where
  body : List Char
  ending : List Char
  deriving DecidableEq, Repr

def brokenLines : List Char → List BrokenLine
  | [] => []
  | '\r' :: '\n' :: rest => ⟨[], ['\r', '\n']⟩ :: brokenLines rest
  | c :: rest =>
    if isLineBreak c then ⟨[], [c]⟩ :: brokenLines rest
    else
      match brokenLines rest with
      | [] => [⟨[c], []⟩]
      | line :: lines => { line with body := c :: line.body } :: lines

theorem flatMap_brokenLines (s : List Char) :
    (brokenLines s).flatMap (fun line => line.body ++ line.ending) = s := by
  fun_induction brokenLines s with
  | case1 => rfl
  | case2 rest ih => simp [ih]
  | case3 c rest _ _ ih => simp [ih]
  | case4 c rest _ _ h ih =>
    rw [h] at ih
    simpa using ih
  | case5 c rest _ _ line lines h ih =>
    rw [h] at ih
    simpa using ih

def normalizeBreaks : List Char → List Char
  | [] => []
  | '\r' :: '\n' :: rest => '\n' :: normalizeBreaks rest
  | c :: rest => (if c = '\r' then '\n' else c) :: normalizeBreaks rest

end BookHighlight.Text
