import BookHighlight.Pattern.Basic

namespace BookHighlight.Pattern

structure Options where
  anyCase : Bool := false
  dotMatchesAll : Bool := false

inductive Quantifiable where
  | yes
  | place
  | quantified
  deriving DecidableEq

structure Part where
  pattern : Pattern
  quantifiable : Quantifiable

def isOctal (c : Char) : Bool := '0' ≤ c && c ≤ '7'

def hexDigit? (c : Char) : Option Nat :=
  if c.isDigit then some (c.toNat - 48)
  else if 'a' ≤ c ∧ c ≤ 'f' then some (c.toNat - 87)
  else if 'A' ≤ c ∧ c ≤ 'F' then some (c.toNat - 55)
  else none

def hexChar? (count : Nat) (s : List Char) : Option (Char × List Char) := do
  let digits := s.take count
  if digits.length < count then none
  else
    let n ← digits.foldlM (fun n c => (hexDigit? c).map (16 * n + ·)) 0
    if n < 0x110000 then return (Char.ofNat n, s.drop count) else none

def decimal (digits : List Char) : Nat := digits.foldl (fun n c => 10 * n + (c.toNat - 48)) 0

def octal (digits : List Char) : Nat := digits.foldl (fun n c => 8 * n + (c.toNat - 48)) 0

def controlChar? : Char → Option Char
  | 'a' => some '\x07'
  | 'f' => some '\x0c'
  | 'n' => some '\n'
  | 'r' => some '\r'
  | 't' => some '\t'
  | 'v' => some '\x0b'
  | _ => none

def classItem? : Char → Option CharItem
  | 'd' => some .digit
  | 'D' => some .nonDigit
  | 's' => some .blank
  | 'S' => some .nonBlank
  | 'w' => some .word
  | 'W' => some .nonWord
  | _ => none

def numberedChar? : Char → List Char → Option (Char × List Char)
  | 'x', rest => hexChar? 2 rest
  | 'u', rest => hexChar? 4 rest
  | 'U', rest => hexChar? 8 rest
  | _, _ => none

def escapedItem? : List Char → Option (CharItem × List Char)
  | [] => none
  | c :: rest =>
    let char (d : Char) (rest : List Char) : Option (CharItem × List Char) :=
      some (.range d d, rest)
    if c = 'b' then char '\x08' rest
    else
      match controlChar? c, classItem? c with
      | some d, _ => char d rest
      | _, some item => some (item, rest)
      | _, _ =>
        if isOctal c then
          let digits := ((c :: rest).take 3).takeWhile isOctal
          if octal digits < 0x100 then
            char (Char.ofNat (octal digits)) ((c :: rest).drop digits.length)
          else none
        else if c.isAlphanum then (numberedChar? c rest).bind fun (d, rest) => char d rest
        else char c rest

def item? : List Char → Option (CharItem × List Char)
  | [] => none
  | '\\' :: rest => escapedItem? rest
  | c :: rest => some (.range c c, rest)

def CharItem.char? : CharItem → Option Char
  | .range low high => if low = high then some low else none
  | _ => none

def readItems : Nat → List CharItem → List Char → Option (List CharItem × List Char)
  | 0, _, _ => none
  | fuel + 1, items, s =>
    match s, items with
    | ']' :: rest, _ :: _ => some (items.reverse, rest)
    | _, _ => do
      let (item, rest) ← item? s
      match rest with
      | '-' :: ']' :: rest => return ((.range '-' '-' :: item :: items).reverse, rest)
      | '-' :: rest =>
        let (other, rest) ← item? rest
        let low ← CharItem.char? item
        let high ← CharItem.char? other
        if low ≤ high then readItems fuel (.range low high :: items) rest else none
      | rest => readItems fuel (item :: items) rest

def braces? (s : List Char) : Option (Nat × Option Nat × List Char) :=
  let least := s.takeWhile Char.isDigit
  let rest := s.drop least.length
  let bound (digits : List Char) : Option Nat :=
    if digits.isEmpty then none else some (decimal digits)
  match rest with
  | '}' :: rest => if least.isEmpty then none else some (decimal least, bound least, rest)
  | ',' :: rest =>
    let most := rest.takeWhile Char.isDigit
    match rest.drop most.length with
    | '}' :: rest => some (decimal least, bound most, rest)
    | _ => none
  | _ => none

def quantifier? : List Char → Option (Nat × Option Nat × List Char)
  | '*' :: rest => some (0, none, rest)
  | '+' :: rest => some (1, none, rest)
  | '?' :: rest => some (0, some 1, rest)
  | '{' :: rest => braces? rest
  | _ => none

/-- A quantified part. A question mark makes it lazy, a plus keeps it from giving anything back. -/
def quantify (p : Pattern) (least : Nat) (most : Option Nat) : List Char → Part × List Char
  | '?' :: rest => (⟨.times p least most false, .quantified⟩, rest)
  | '+' :: rest => (⟨.atomic (.times p least most true), .quantified⟩, rest)
  | rest => (⟨.times p least most true, .quantified⟩, rest)

def set (options : Options) (items : List CharItem) (negated : Bool) : Part :=
  ⟨.one ⟨items, negated, options.anyCase⟩, .yes⟩

def char (options : Options) (c : Char) : Part := ⟨.one (.single c options.anyCase), .yes⟩

def escape? (options : Options) : List Char → Option (Part × List Char)
  | [] => none
  | c :: rest =>
    match controlChar? c, classItem? c with
    | some d, _ => some (char options d, rest)
    | _, some item => some (set options [item] false, rest)
    | _, _ =>
      if c = 'b' then some (⟨.wordBoundary false, .place⟩, rest)
      else if c = 'B' then some (⟨.wordBoundary true, .place⟩, rest)
      else if c = 'A' then some (⟨.textStart, .place⟩, rest)
      else if c = 'Z' then some (⟨.textEnd, .place⟩, rest)
      else if c = '0' then
        let digits := (rest.take 2).takeWhile isOctal
        some (char options (Char.ofNat (octal digits)), rest.drop digits.length)
      else if c.isDigit then
        let digits := ((c :: rest).take 3).takeWhile isOctal
        if digits.length = 3 ∧ octal digits < 0x100 then
          some (char options (Char.ofNat (octal digits)), (c :: rest).drop 3)
        else none
      else if c.isAlpha then (numberedChar? c rest).map fun (d, rest) => (char options d, rest)
      else some (char options c, rest)

def readOptions (stop : Char) : Bool → Options → List Char → Option (Options × List Char)
  | _, _, [] => none
  | on, options, c :: rest =>
    if c = stop then some (options, rest)
    else if c = '-' ∧ on ∧ stop = ':' ∧ rest.head? ≠ some stop then
      readOptions stop false options rest
    else if c = 'i' then readOptions stop on { options with anyCase := on } rest
    else if c = 's' then readOptions stop on { options with dotMatchesAll := on } rest
    else if on ∧ (c = 'm' ∨ c = 'u') then readOptions stop on options rest
    else none

def parts (reversed : List Part) : Pattern := sequence (reversed.reverse.map (·.pattern))

mutual

/-- Reads alternatives up to a closing parenthesis or the end. At most four calls are made
    between one character and the next. -/
def readAlternatives : Nat → Options → List Char → Option (Pattern × List Char)
  | 0, _, _ => none
  | fuel + 1, options, s => do
    let (first, rest) ← readParts fuel options [] s
    match rest with
    | '|' :: rest =>
      let (other, rest) ← readAlternatives fuel options rest
      return (.either first other, rest)
    | rest => return (first, rest)

def readParts : Nat → Options → List Part → List Char → Option (Pattern × List Char)
  | 0, _, _, _ => none
  | fuel + 1, options, done, s =>
    match s with
    | [] | '|' :: _ | ')' :: _ => some (parts done, s)
    | '(' :: '?' :: '#' :: rest =>
      match rest.dropWhile (· != ')') with
      | _ :: rest => readParts fuel options done rest
      | [] => none
    | _ =>
      match quantifier? s with
      | some (least, most, rest) =>
        match done with
        | ⟨p, .yes⟩ :: done =>
          if most.all (least ≤ ·) then
            let (part, rest) := quantify p least most rest
            readParts fuel options (part :: done) rest
          else none
        | _ => none
      | none => do
        let (part, rest) ← readPart fuel options s
        readParts fuel options (part :: done) rest

def readPart : Nat → Options → List Char → Option (Part × List Char)
  | 0, _, _ => none
  | fuel + 1, options, s =>
    match s with
    | [] => none
    | '(' :: '?' :: rest =>
      match rest with
      | '=' :: rest => readGroup fuel options (.ahead false) rest
      | '!' :: rest => readGroup fuel options (.ahead true) rest
      | '>' :: rest => readGroup fuel options .atomic rest
      | '<' :: '=' :: rest => readBehind fuel options false rest
      | '<' :: '!' :: rest => readBehind fuel options true rest
      | 'P' :: '<' :: rest =>
        match rest.dropWhile (· != '>') with
        | _ :: rest => readGroup fuel options id rest
        | [] => none
      | rest =>
        match readOptions ':' true options rest with
        | some (inner, rest) => readGroup fuel inner id rest
        | none => none
    | '(' :: rest => readGroup fuel options id rest
    | '[' :: rest =>
      let (negated, rest) := match rest with
        | '^' :: rest => (true, rest)
        | rest => (false, rest)
      (readItems fuel [] rest).map fun (items, rest) => (set options items negated, rest)
    | '.' :: rest =>
      let all := if options.dotMatchesAll then CharSet.everything else .notLineFeed
      some (⟨.one all, .yes⟩, rest)
    | '^' :: rest => some (⟨.lineStart, .place⟩, rest)
    | '$' :: rest => some (⟨.lineEnd, .place⟩, rest)
    | '\\' :: rest => escape? options rest
    | c :: rest => some (char options c, rest)

def readGroup : Nat → Options → (Pattern → Pattern) → List Char → Option (Part × List Char)
  | 0, _, _, _ => none
  | fuel + 1, options, wrap, s =>
    match readAlternatives fuel options s with
    | some (p, ')' :: rest) => some (⟨wrap p, .yes⟩, rest)
    | _ => none

def readBehind : Nat → Options → Bool → List Char → Option (Part × List Char)
  | 0, _, _, _ => none
  | fuel + 1, options, negated, s =>
    match readAlternatives fuel options s with
    | some (p, ')' :: rest) => p.width?.map fun width => (⟨.behind negated width p, .yes⟩, rest)
    | _ => none

end

def leadingOptions (s : List Char) : Options × List Char :=
  match s with
  | '(' :: '?' :: rest =>
    match readOptions ')' true { } rest with
    | some result => if rest.head? = some ')' then ({ }, s) else result
    | none => ({ }, s)
  | _ => ({ }, s)

def ofText? (s : List Char) : Option Pattern :=
  let (options, s) := leadingOptions s
  match readAlternatives (4 * s.length + 4) options s with
  | some (p, []) => some p
  | _ => none

/-- A dialect without back references, conditionals, named characters, and options for verbose or
    ASCII patterns. -/
def compile : Dialect := fun s =>
  match ofText? s with
  | some p => .pattern p
  | none => .invalid

end BookHighlight.Pattern
