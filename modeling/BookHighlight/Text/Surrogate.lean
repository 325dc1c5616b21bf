namespace BookHighlight.Text

def isHalf (code : Nat) : Bool := 0xD800 ≤ code && code < 0xE000

/-- The character for a code. Texts read from elsewhere can hold halves of surrogate pairs, which
    are no characters; they are given private ones, from U+10D800 on. -/
def ofCode (code : Nat) : Char := Char.ofNat (if isHalf code then 0x100000 + code else code)

def half? (c : Char) : Option Nat :=
  if 0x10D800 ≤ c.toNat ∧ c.toNat < 0x10E000 then some (c.toNat - 0x100000) else none

def isWritable (s : List Char) : Bool := s.all fun c => (half? c).isNone

end BookHighlight.Text
