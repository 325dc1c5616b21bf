import BookHighlight.Grammar.Typst
import BookHighlight.Proofs.Grammar.Round

namespace BookHighlight.Grammar.Typst

/-- How many characters there are up to the first quote that no escape takes, with the quote. An
    escape is a backslash with the character behind it, unless that is a line feed. -/
def closingQuote? : List Char → Option Nat
  | [] => none
  | '"' :: _ => some 1
  | '\\' :: c :: rest =>
    if c = '\n' then (closingQuote? (c :: rest)).map (· + 1) else (closingQuote? rest).map (· + 2)
  | _ :: rest => (closingQuote? rest).map (· + 1)

def literalEnd (text : List Char) : Nat := 2 + (closingQuote? text).getD text.length

def stringScope : String := "string.quoted.double.typst"

def inString : Stack typst.size := typst.entered typst.root string

def atAtom : Stack typst.size := typst.entered typst.root codeAtom

def atomRule : Rule 21 := embeddedCode.get ⟨4, by decide⟩

def openingRule : Rule 21 := codeAtomRules.get ⟨0, by decide⟩

def escapeRule : Rule 21 := stringRules.get ⟨0, by decide⟩

def closingRule : Rule 21 := stringRules.get ⟨1, by decide⟩

def plainRule : Rule 21 := stringRules.get ⟨2, by decide⟩

def hexDigits : CharSet := ⟨[.range '0' '9', .range 'a' 'f', .range 'A' 'F'], false, false⟩

def codePoint : Pattern :=
  .seq (.literal 'u') (.seq (.literal '\x7b')
    (.seq (.times (.one hexDigits) 1 none true) (.literal '\x7d')))

theorem patterns_codeAtom :
    atomRule.pattern = .seq (.literal '#')
      (.ahead false (.either (.literal '"') (.one ⟨[.digit], false, false⟩))) ∧
    openingRule.pattern = .literal '"' := by
  decide +kernel

/-- The patterns that the sources of the rules in a literal spell. -/
theorem patterns_string :
    escapeRule.pattern = .seq (.literal '\\') (.either codePoint (.one (.except ['\n']))) ∧
    closingRule.pattern = .literal '"' ∧
    plainRule.pattern = .times (.one (.except ['"', '\\'])) 1 none true := by
  decide +kernel

section

variable {c : Char} {read rest : List Char}

theorem closingQuote?_plain (plain : ∀ c ∈ read, c ∉ ['"', '\\']) :
    closingQuote? (read ++ rest) = (closingQuote? rest).map (· + read.length) := by
  induction read with
  | nil => simp
  | cons c read ih =>
    obtain ⟨here, later⟩ := List.forall_mem_cons.mp plain
    have skipped : closingQuote? (c :: (read ++ rest)) =
        (closingQuote? (read ++ rest)).map (· + 1) := by
      rw [closingQuote?]
      · exact fun same => here (by simp [same])
      · exact fun _ _ same => (here (by simp [same])).elim
    rw [List.cons_append, skipped, ih later]
    simp [Function.comp_def, Nat.add_assoc]

theorem closingQuote?_escape (escapable : c ≠ '\n') :
    closingQuote? ('\\' :: c :: rest) = (closingQuote? rest).map (· + 2) := by
  rw [closingQuote?, if_neg escapable]

theorem closingQuote?_backslash (bare : ∀ c ∈ rest.head?, c = '\n') :
    closingQuote? ('\\' :: rest) = (closingQuote? rest).map (· + 1) := by
  cases rest with
  | nil => rfl
  | cons c rest => rw [closingQuote?, if_pos (bare c rfl)]

theorem not_mem_of_hexDigits (digit : hexDigits.contains c = true) : c ∉ ['"', '\\'] := by
  rintro member
  simp only [List.mem_cons, List.not_mem_nil, or_false] at member
  rcases member with rfl | rfl
  · exact absurd digit (by decide)
  · exact absurd digit (by decide)

theorem codePoint_reads {next : Continuation} {d e : Cursor}
    (found : codePoint.run next d = some e) : ∃ read rest, d.after = 'u' :: read ++ rest ∧
      (∀ c ∈ read, c ∉ ['"', '\\']) ∧ next (d.past ('u' :: read)) = some e := by
  obtain ⟨afterLetter, letter, found⟩ := Pattern.literal_reads found
  obtain ⟨afterBrace, brace, found⟩ := Pattern.literal_reads found
  obtain ⟨digits, afterDigits, code, inside, found⟩ := Pattern.oneOrMore_reads hexDigits found
  obtain ⟨rest, close, reached⟩ := Pattern.literal_reads found
  rw [Cursor.after_past code] at close
  rw [Cursor.after_past brace] at code
  rw [Cursor.after_past letter] at brace
  simp only [Cursor.past_past, List.cons_append, List.nil_append] at reached
  refine ⟨'\x7b' :: digits ++ ['\x7d'], rest, ?_, ?_, reached⟩
  · rw [letter, brace, code, close]
    simp
  · intro c member
    rw [List.mem_append, List.mem_cons, List.mem_singleton] at member
    rcases member with (rfl | digit) | rfl
    · decide
    · exact not_mem_of_hexDigits (inside c digit)
    · decide

variable {place : Cursor}

theorem match?_escape (ahead : place.after = '\\' :: c :: rest) (escapable : c ≠ '\n') :
    ∃ read behind, rest = read ++ behind ∧ (∀ c ∈ read, c ∉ ['"', '\\']) ∧
      escapeRule.pattern.match? place = some (place.past ('\\' :: c :: read)) := by
  let next := place.past ['\\']
  have after : next.after = c :: rest := Cursor.after_past ahead
  have single : Pattern.run (.one (.except ['\n'])) some next = some (place.past ['\\', c]) := by
    have kept : (CharSet.except ['\n']).contains c = true := by
      simp [CharSet.contains_except, escapable]
    rw [Pattern.run_one _ after, if_pos kept, ← Cursor.past_nil (next.advance c rest),
      Cursor.advance_past after, Cursor.past_past]
    rfl
  have whole : escapeRule.pattern.match? place =
      (codePoint.run some next <|> some (place.past ['\\', c])) := by
    have begun : place.after.head? = some '\\' := by rw [ahead]; rfl
    rw [patterns_string.1, Pattern.match?_either _ _ begun, single]
  -- a code that has no closing brace is an escape of its letter alone
  cases code : codePoint.run some next with
  | none => exact ⟨[], rest, rfl, by simp, by rw [whole, code]; rfl⟩
  | some d =>
    obtain ⟨read, behind, same, plain, reached⟩ := codePoint_reads code
    rw [after] at same
    obtain ⟨rfl, rfl⟩ := List.cons.inj same
    cases reached
    refine ⟨read, behind, rfl, plain, ?_⟩
    rw [whole, code, Cursor.past_past]
    rfl

theorem match?_escape_bare (ahead : place.after = '\\' :: rest)
    (bare : ∀ c ∈ rest.head?, c = '\n') : escapeRule.pattern.match? place = none := by
  cases rest with
  | nil =>
    have ended : (place.past ['\\']).after = [] := Cursor.after_past ahead
    have begun : place.after.head? = some '\\' := by rw [ahead]; rfl
    have code : codePoint.run some (place.past ['\\']) = none := Pattern.run_one_of_empty _ ended
    have single : Pattern.run (.one (.except ['\n'])) some (place.past ['\\']) = none :=
      Pattern.run_one_of_empty _ ended
    rw [patterns_string.1, Pattern.match?_either _ _ begun, code, single]
    rfl
  | cons c rest =>
    obtain rfl := bare c rfl
    have whole : place.after = ['\\', '\n'] ++ rest := ahead
    have fails : escapeRule.pattern.outlook ['\\', '\n'] = .fails := by
      rw [patterns_string.1]
      decide
    exact Pattern.match?_of_outlook whole fails

theorem match?_escape_other (other : place.after.head? ≠ some '\\') :
    escapeRule.pattern.match? place = none := by
  rw [patterns_string.1]
  exact Pattern.match?_elsewhere _ other

theorem match?_closing (place : Cursor) : closingRule.pattern.match? place =
    if place.after.head? = some '"' then some (place.past ['"']) else none := by
  rw [patterns_string.2.1]
  exact Pattern.run_literal '"' some place

end

section

variable {p : Progress typst.size} {c : Char} {rest : List Char}

theorem matched_inString (stack : p.stack = inString) : typst.matched .backtracking p =
    firstMatch p.cursor true [escapeRule, closingRule, plainRule] := by
  rw [matched, stack]
  rfl

theorem apply_inString : typst.apply escapeRule inString =
      (inString, [stringScope, "constant.character.escape.typst"]) ∧
    typst.apply closingRule inString =
      (typst.root, [stringScope, "punctuation.definition.string.end.typst"]) ∧
    typst.apply plainRule inString = (inString, [stringScope]) := ⟨rfl, rfl, rfl⟩

theorem matched_quote (stack : p.stack = inString) (ahead : p.cursor.after = '"' :: rest) :
    typst.matched .backtracking p = some (closingRule, p.cursor.past ['"']) := by
  have head : p.cursor.after.head? = some '"' := by rw [ahead]; rfl
  have other : p.cursor.after.head? ≠ some '\\' := by simp [head]
  have closes := match?_closing p.cursor
  rw [if_pos head] at closes
  rw [matched_inString stack, firstMatch_skip (match?_escape_other other)]
  exact firstMatch_take closes (by simp)

theorem matched_escape (stack : p.stack = inString) (ahead : p.cursor.after = '\\' :: c :: rest)
    (escapable : c ≠ '\n') : ∃ read behind, rest = read ++ behind ∧
      (∀ c ∈ read, c ∉ ['"', '\\']) ∧
      typst.matched .backtracking p = some (escapeRule, p.cursor.past ('\\' :: c :: read)) := by
  obtain ⟨read, behind, whole, plain, found⟩ := match?_escape ahead escapable
  rw [matched_inString stack]
  exact ⟨read, behind, whole, plain, firstMatch_take found (by simp)⟩

theorem matched_backslash (stack : p.stack = inString) (ahead : p.cursor.after = '\\' :: rest)
    (bare : ∀ c ∈ rest.head?, c = '\n') : typst.matched .backtracking p = none := by
  have noQuote : p.cursor.after.head? ≠ some '"' := by simp [ahead]
  have closes := match?_closing p.cursor
  rw [if_neg noQuote] at closes
  have special : '\\' ∈ ['"', '\\'] := by simp
  have plain := Pattern.match?_except_of_mem ahead special
  rw [← patterns_string.2.2] at plain
  rw [matched_inString stack, firstMatch_skip (match?_escape_bare ahead bare),
    firstMatch_skip closes, firstMatch_skip plain]
  rfl

theorem matched_plain (stack : p.stack = inString) (ahead : p.cursor.after = c :: rest)
    (ordinary : c ∉ ['"', '\\']) : ∃ read behind, p.cursor.after = read ++ behind ∧ read ≠ [] ∧
      (∀ c ∈ read, c ∉ ['"', '\\']) ∧
      typst.matched .backtracking p = some (plainRule, p.cursor.past read) := by
  have head : p.cursor.after.head? = some c := by rw [ahead]; rfl
  have differs : ∀ d ∈ ['"', '\\'], p.cursor.after.head? ≠ some d := by
    intro d member same
    rw [head] at same
    exact ordinary (Option.some.inj same ▸ member)
  have noBackslash := differs '\\' (by simp)
  have closes := match?_closing p.cursor
  rw [if_neg (differs '"' (by simp))] at closes
  obtain ⟨read, behind, whole, some, inside, found⟩ := Pattern.match?_except ahead ordinary
  rw [← patterns_string.2.2] at found
  refine ⟨read, behind, whole, some, inside, ?_⟩
  rw [matched_inString stack, firstMatch_skip (match?_escape_other noBackslash),
    firstMatch_skip closes]
  exact firstMatch_take found some

/-- One round inside a literal reads the quote that ends it, or text that holds no such quote and
    does not end inside an escape. -/
theorem round_string (stack : p.stack = inString) (more : p.cursor.after ≠ []) :
    ∃ read rest stack scopes, p.cursor.after = read ++ rest ∧ read ≠ [] ∧
      typst.round .backtracking p = some (p.took read stack scopes) ∧
      scopes.head? = some stringScope ∧
      (read = ['"'] ∧ stack = typst.root ∨ stack = inString ∧
        closingQuote? p.cursor.after = (closingQuote? rest).map (· + read.length)) := by
  obtain ⟨escape, closing, text⟩ := apply_inString
  obtain ⟨c, rest, ahead⟩ := List.exists_cons_of_ne_nil more
  by_cases ordinary : c ∈ ['"', '\\']
  · rw [List.mem_cons, List.mem_singleton] at ordinary
    rcases ordinary with rfl | rfl
    · have next := round_of_matched (matched_quote stack ahead) ahead (by simp)
      rw [stack, closing] at next
      exact ⟨['"'], rest, _, _, ahead, by simp, next, rfl, .inl ⟨rfl, rfl⟩⟩
    · by_cases bare : ∀ c ∈ rest.head?, c = '\n'
      · have next := round_of_unmatched (matched_backslash stack ahead bare) ahead
        rw [stack] at next
        refine ⟨['\\'], rest, _, _, ahead, by simp, next, rfl, .inr ⟨rfl, ?_⟩⟩
        rw [ahead, closingQuote?_backslash bare]
        rfl
      · cases rest with
        | nil => simp at bare
        | cons c rest =>
          have escapable : c ≠ '\n' := by simpa using bare
          obtain ⟨read, behind, rfl, inside, found⟩ := matched_escape stack ahead escapable
          have next := round_of_matched found ahead (by simp)
          rw [stack, escape] at next
          refine ⟨'\\' :: c :: read, behind, _, _, ahead, by simp, next, rfl, .inr ⟨rfl, ?_⟩⟩
          rw [ahead, closingQuote?_escape escapable, closingQuote?_plain inside]
          simp [Function.comp_def, Nat.add_assoc]
  · obtain ⟨read, behind, whole, some, inside, found⟩ := matched_plain stack ahead ordinary
    have next := round_of_matched found whole some
    rw [stack, text] at next
    refine ⟨read, behind, _, _, whole, some, next, rfl, .inr ⟨rfl, ?_⟩⟩
    rw [whole]
    exact closingQuote?_plain inside

structure Literal (p q : Progress typst.size) (added : List Token) : Prop where
  leads : Leads .backtracking typst p q
  emitted : q.emitted = p.emitted ++ added
  position : q.cursor.position =
    p.cursor.position + (closingQuote? p.cursor.after).getD p.cursor.after.length
  scopes : ∀ token ∈ added, token.scopes.head? = some stringScope
  closed : (closingQuote? p.cursor.after).isSome → q.stack = typst.root

theorem Literal.step {q : Progress typst.size} {added : List Token} {read scopes}
    {stack : Stack typst.size} (ahead : p.cursor.after = read ++ rest)
    (next : typst.round .backtracking p = some (p.took read stack scopes))
    (outermost : scopes.head? = some stringScope)
    (counted : closingQuote? p.cursor.after = (closingQuote? rest).map (· + read.length))
    (h : Literal (p.took read stack scopes) q added) :
    Literal p q (⟨read, p.cursor.position, p.cursor.position + read.length, scopes⟩ :: added) := by
  have later := h.position
  have closed := h.closed
  rw [Progress.after_took ahead] at later closed
  refine ⟨.head next h.leads, ?_, ?_, List.forall_mem_cons.mpr ⟨outermost, h.scopes⟩, ?_⟩
  · rw [h.emitted, Progress.took, List.append_assoc]
    rfl
  · rw [later, counted, ahead, List.length_append]
    change p.cursor.position + read.length + _ = _
    cases closingQuote? rest with
    | none => exact Nat.add_assoc ..
    | some n => simp [Nat.add_assoc, Nat.add_comm n]
  · rw [counted, Option.isSome_map]
    exact closed

theorem literal_inString (p : Progress typst.size) (stack : p.stack = inString) :
    ∃ q added, Literal p q added := by
  by_cases more : p.cursor.after = []
  · refine ⟨p, [], .refl, (List.append_nil _).symm, by rw [more]; rfl, by simp, ?_⟩
    rw [more]
    exact fun found => absurd found (by decide)
  · obtain ⟨read, rest, after, scopes, ahead, some, next, outermost, closing | within⟩ :=
      round_string stack more
    · obtain ⟨rfl, rfl⟩ := closing
      have counted : closingQuote? p.cursor.after = Option.some 1 := by rw [ahead]; rfl
      refine ⟨_, _, .single next, rfl, ?_, by simpa using outermost, fun _ => rfl⟩
      rw [counted]
      rfl
    · obtain ⟨rfl, counted⟩ := within
      have shorter : (p.took read inString scopes).cursor.after.length < p.cursor.after.length :=
        Progress.took_lt ahead some
      obtain ⟨q, added, literal⟩ := literal_inString (p.took read inString scopes) rfl
      exact ⟨q, _, literal.step ahead next outermost counted⟩
termination_by p.cursor.after.length

theorem round_hash (text : List Char) :
    typst.round .backtracking (typst.opening ('#' :: '"' :: text)) =
      some ((typst.opening ('#' :: '"' :: text)).took ['#'] atAtom
        ["punctuation.definition.code.typst"]) := by
  let p := typst.opening ('#' :: '"' :: text)
  have ahead : p.cursor.after = ['#', '"'] ++ text := rfl
  have fails : ∀ rule ∈ markup.take 21, rule.pattern.outlook ['#', '"'] = .fails := by
    decide +kernel
  have hash := Pattern.match?_lookahead (.one ⟨[.digit], false, false⟩) ahead
  rw [← patterns_codeAtom.1] at hash
  have found : typst.matched .backtracking p = some (atomRule, p.cursor.past ['#']) := by
    refine (firstMatch_of_outlook ahead fails (atomRule :: markup.drop 22)).trans ?_
    exact firstMatch_take hash (by simp)
  exact round_of_matched found ahead (by simp)

theorem round_opening (stack : p.stack = atAtom) (ahead : p.cursor.after = '"' :: rest) :
    typst.round .backtracking p = some (p.took ['"'] inString
      [stringScope, "punctuation.definition.string.begin.typst"]) := by
  have head : p.cursor.after.head? = some '"' := by rw [ahead]; rfl
  have opens := (Pattern.run_literal '"' some p.cursor).trans (if_pos head)
  have quote : openingRule.pattern.match? p.cursor = some (p.cursor.past ['"']) := by
    rw [patterns_codeAtom.2]
    exact opens
  have rules : typst.matched .backtracking p =
      firstMatch p.cursor true (openingRule :: codeAtomRules.tail) := by
    rw [matched, stack]
    rfl
  have next := round_of_matched (rules.trans (firstMatch_take quote (by simp))) ahead
    (by simp)
  rw [stack] at next
  exact next

end

/-- A literal that stands in the text itself ends behind the first quote that no escape takes, or
    with the text: what is read behind the hash up to there has the scope of literals outermost,
    and the quote leaves the stack as it was before the hash. -/
theorem literal_ends_at_quote (text : List Char) :
    ∃ p first inside, Arrives typst ('#' :: '"' :: text) (literalEnd text) p ∧
      p.emitted = first :: inside ∧
      Tiles ('#' :: '"' :: text) 1 inside (literalEnd text) ∧
      (∀ token ∈ inside, token.scopes.head? = some stringScope) ∧
      ((closingQuote? text).isSome → p.stack = typst.root) := by
  let hash := (typst.opening ('#' :: '"' :: text)).took ['#'] atAtom
    ["punctuation.definition.code.typst"]
  let quote := hash.took ['"'] inString [stringScope, "punctuation.definition.string.begin.typst"]
  obtain ⟨p, added, literal⟩ := literal_inString quote rfl
  have leads : Leads .backtracking typst (typst.opening ('#' :: '"' :: text)) p :=
    .head (round_hash text) (.head (round_opening rfl rfl) literal.leads)
  have arrives := leads.arrives
  have position : p.cursor.position = literalEnd text := literal.position
  have emitted : ∃ first second, p.emitted = first :: second :: added ∧ first.stop = 1 ∧
      second.scopes.head? = some stringScope := ⟨_, _, literal.emitted, rfl, rfl⟩
  obtain ⟨first, second, whole, stops, outermost⟩ := emitted
  rw [position] at arrives
  refine ⟨p, first, second :: added, arrives, whole, ?_,
    List.forall_mem_cons.mpr ⟨outermost, literal.scopes⟩, literal.closed⟩
  have tiles := arrives.tiles
  rw [whole] at tiles
  cases tiles with
  | cons _ _ _ tail => rwa [stops] at tail

example : literalEnd "a\\\"b\\\\\" c".toList = 9 := by decide

end BookHighlight.Grammar.Typst
