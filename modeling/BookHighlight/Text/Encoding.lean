import BookHighlight.Text.Utf8

namespace BookHighlight.Text

inductive Encoding where
  | utf8 (marked : Bool)
  | utf16 (bigEndian marked : Bool)
  | utf32 (bigEndian marked : Bool)
  deriving DecidableEq, Repr

/-- Tells the encoding by the byte order mark or, as the first character is ASCII, by where zero
    bytes stand among the first four. -/
def detectEncoding (bytes : List UInt8) : Encoding :=
  match bytes with
  | 0x00 :: 0x00 :: 0xFE :: 0xFF :: _ => .utf32 true true
  | 0xFF :: 0xFE :: 0x00 :: 0x00 :: _ => .utf32 false true
  | 0xFE :: 0xFF :: _ => .utf16 true true
  | 0xFF :: 0xFE :: _ => .utf16 false true
  | 0xEF :: 0xBB :: 0xBF :: _ => .utf8 true
  | a :: b :: c :: d :: _ =>
    if a = 0 then (if b = 0 then .utf32 true false else .utf16 true false)
    else if b = 0 then (if c = 0 ∧ d = 0 then .utf32 false false else .utf16 false false)
    else .utf8 false
  | [a, b] =>
    if a = 0 then .utf16 true false else if b = 0 then .utf16 false false else .utf8 false
  | _ => .utf8 false

def units16? (bigEndian : Bool) : List UInt8 → Option (List Nat)
  | [] => some []
  | [_] => none
  | a :: b :: rest =>
    let (high, low) := if bigEndian then (a, b) else (b, a)
    (units16? bigEndian rest).map fun units => (high.toNat * 0x100 + low.toNat) :: units

def ofUnits16 : List Nat → List Char
  | [] => []
  | [a] => [ofCode a]
  | a :: b :: rest =>
    if 0xD800 ≤ a ∧ a < 0xDC00 ∧ 0xDC00 ≤ b ∧ b < 0xE000 then
      Char.ofNat (0x10000 + (a - 0xD800) * 0x400 + (b - 0xDC00)) :: ofUnits16 rest
    else ofCode a :: ofUnits16 (b :: rest)

def ofUtf32? (bigEndian : Bool) : List UInt8 → Option (List Char)
  | [] => some []
  | a :: b :: c :: d :: rest =>
    let n := if bigEndian then ((a.toNat * 0x100 + b.toNat) * 0x100 + c.toNat) * 0x100 + d.toNat
      else ((d.toNat * 0x100 + c.toNat) * 0x100 + b.toNat) * 0x100 + a.toNat
    if 0x10FFFF < n then none
    else (ofUtf32? bigEndian rest).map (ofCode n :: ·)
  | _ => none

def decode? (bytes : List UInt8) : Option (List Char) :=
  match detectEncoding bytes with
  | .utf8 marked => ofUtf8? true (if marked then bytes.drop 3 else bytes)
  | .utf16 bigEndian marked =>
    (units16? bigEndian (if marked then bytes.drop 2 else bytes)).map ofUnits16
  | .utf32 bigEndian marked => ofUtf32? bigEndian (if marked then bytes.drop 4 else bytes)

end BookHighlight.Text
