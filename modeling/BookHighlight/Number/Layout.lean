import BookHighlight.Number.Digits

namespace BookHighlight

/-- How numbers are laid out. Decimal points from `least` to `most` are written positionally,
    others with an exponent of at least two digits. -/
structure NumberLayout where
  least : Int
  most : Int
  /-- whether whole numbers written positionally end in `.0` -/
  keepsPoint : Bool
  notANumber : String := "nan"
  infinity : String := "inf"

namespace NumberLayout

def message : NumberLayout := { least := -3, most := 16, keepsPoint := true }

def json : NumberLayout :=
  { least := -3, most := 16, keepsPoint := true, notANumber := "NaN", infinity := "Infinity" }

def duration : NumberLayout := { least := -3, most := 6, keepsPoint := false }

def place (layout : NumberLayout) (digits : List Char) (point : Int) : String :=
  if layout.least ≤ point ∧ point ≤ layout.most then
    if point ≤ 0 then
      String.ofList ('0' :: '.' :: (List.replicate (-point).toNat '0' ++ digits))
    else
      let whole := digits.take point.toNat
      let fraction := digits.drop point.toNat
      let whole := whole ++ List.replicate (point.toNat - digits.length) '0'
      if fraction.isEmpty then String.ofList whole ++ (if layout.keepsPoint then ".0" else "")
      else String.ofList (whole ++ '.' :: fraction)
  else
    let exponent := point - 1
    let size := Nat.toDigits 10 exponent.natAbs
    let size := if size.length < 2 then '0' :: size else size
    let mantissa := match digits with
      | [] => ['0']
      | [d] => [d]
      | d :: rest => d :: '.' :: rest
    String.ofList (mantissa ++ 'e' :: (if exponent < 0 then '-' else '+') :: size)

def write (layout : NumberLayout) (digitsOf : Nat → Int → Decimal) : Binary64 → String
  | .nan => layout.notANumber
  | .infinite negative => (if negative then "-" else "") ++ layout.infinity
  | .finite negative significand exponent =>
    let digits :=
      if significand = 0 then layout.place ['0'] 1
      else
        let d := digitsOf significand exponent
        layout.place (Nat.toDigits 10 d.digits) d.point
    (if negative then "-" else "") ++ digits

end NumberLayout

namespace Binary64

def toMessage (x : Binary64) : String := NumberLayout.message.write Decimal.shortest x

def toJson (x : Binary64) : String := NumberLayout.json.write Decimal.shortest x

def toDuration (x : Binary64) : String :=
  NumberLayout.duration.write
    (fun significand exponent =>
      let (num, den) := unscale significand 1 (-exponent)
      (Decimal.nearest 6 num den).trimmed) x

end Binary64

end BookHighlight
