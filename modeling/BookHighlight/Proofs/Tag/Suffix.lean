import BookHighlight.Policy
import BookHighlight.Proofs.Text.Blank

namespace BookHighlight

namespace TagSuffix

def Bare (s : List Char) : Prop := ∀ suffix : TagSuffix, ¬ suffix.text <:+ s

def textOf (suffixes : List TagSuffix) : List Char := suffixes.flatMap text

theorem ofReversed?_eq_some_iff {s : List Char} {suffix : TagSuffix} :
    ofReversed? s = some suffix ↔ suffix.text.reverse <+: s := by
  constructor
  · intro found
    have starts : suffix.text.reverse.isPrefixOf s = true := by
      unfold ofReversed? at found
      simpa using List.find?_some found
    exact List.isPrefixOf_iff_prefix.mp starts
  · intro starts
    have here := List.isPrefixOf_iff_prefix.mpr starts
    cases suffix with
    | noPrelude => simp [ofReversed?, all, here]
    | noRender =>
      have other : ¬ TagSuffix.noPrelude.text.reverse <+: s := fun both =>
        -- the one would be the start of the other
        absurd (List.prefix_or_prefix_of_prefix starts both) (by decide)
      have skipped := Bool.eq_false_iff.mpr (mt List.isPrefixOf_iff_prefix.mp other)
      simp [ofReversed?, all, here, skipped]

theorem ofReversed?_eq_none_iff {s : List Char} : ofReversed? s.reverse = none ↔ Bare s := by
  rw [Option.eq_none_iff_forall_ne_some]
  refine forall_congr' fun suffix => not_congr ?_
  rw [ofReversed?_eq_some_iff, List.reverse_prefix]

theorem splitFrom_skip (skip : Nat) (s : List Char) :
    splitFrom skip s = splitFrom 0 (s.drop skip) := by
  induction skip generalizing s with
  | zero => rfl
  | succ skip ih =>
    cases s with
    | nil => rfl
    | cons c s => exact ih s

theorem splitFrom_bare {s : List Char} (h : ofReversed? s = none) : splitFrom 0 s = ([], s) := by
  cases s with
  | nil => rfl
  | cons c s => simp [splitFrom, h]

theorem splitFrom_text (suffix : TagSuffix) (rest : List Char) :
    splitFrom 0 (suffix.text.reverse ++ rest) =
      (suffix :: (splitFrom 0 rest).1, (splitFrom 0 rest).2) := by
  have found := ofReversed?_eq_some_iff.mpr (List.prefix_append suffix.text.reverse rest)
  obtain ⟨c, more, start⟩ : ∃ c more, suffix.text.reverse = c :: more := by
    cases suffix <;> exact ⟨_, _, rfl⟩
  have width : suffix.text.length - 1 = more.length := by
    rw [← List.length_reverse, start, List.length_cons, Nat.add_sub_cancel]
  rw [start, List.cons_append] at found ⊢
  simp only [splitFrom, found, width]
  rw [splitFrom_skip, List.drop_left]

theorem textOf_concat (suffixes : List TagSuffix) (suffix : TagSuffix) :
    textOf (suffixes ++ [suffix]) = textOf suffixes ++ suffix.text := by
  simp [textOf]

theorem textOf_eq_nil_iff {suffixes : List TagSuffix} : textOf suffixes = [] ↔ suffixes = [] := by
  have spelled : ∀ suffix : TagSuffix, suffix.text ≠ [] := by
    intro suffix
    cases suffix <;> decide
  rw [textOf, List.flatMap_eq_nil_iff]
  simp [spelled, List.eq_nil_iff_forall_not_mem]

/-- What is split off is what stands behind a base without suffixes. -/
theorem splitFrom_textOf {base : List Char} (bare : Bare base) (suffixes : List TagSuffix) :
    splitFrom 0 (base ++ textOf suffixes).reverse = (suffixes.reverse, base.reverse) := by
  induction suffixes using List.reverseRecOn with
  | nil =>
    rw [textOf, List.flatMap_nil, List.append_nil]
    exact splitFrom_bare (ofReversed?_eq_none_iff.mpr bare)
  | append_singleton suffixes suffix ih =>
    rw [textOf_concat, ← List.append_assoc, List.reverse_append, splitFrom_text, ih,
      List.reverse_concat]

theorem exists_base (word : List Char) :
    ∃ base suffixes, Bare base ∧ word = base ++ textOf suffixes := by
  induction length : word.length using Nat.strong_induction_on generalizing word with
  | _ n ih =>
    by_cases bare : Bare word
    · exact ⟨word, [], bare, by simp [textOf]⟩
    · obtain ⟨suffix, ends⟩ := not_forall.mp bare
      obtain ⟨rest, whole⟩ := not_not.mp ends
      have shorter : rest.length < n := by
        rw [← length, ← whole, List.length_append]
        cases suffix <;> exact Nat.lt_add_of_pos_right (by decide)
      obtain ⟨base, suffixes, bare, split⟩ := ih _ shorter rest rfl
      refine ⟨base, suffixes ++ [suffix], bare, ?_⟩
      rw [textOf_concat, ← whole, split, List.append_assoc]

def switchOff : TagSuffix → Policy → Policy
  | .noPrelude, policy => { policy with usePrelude := false }
  | .noRender, policy => { policy with render := false }

end TagSuffix

namespace Tag

open TagSuffix (Bare textOf)

/-- A tag as it is written: its base, which ends with no suffix, and suffixes behind it, each of
    which sets its flag. -/
structure Spells (tag : Tag) (suffixes : List TagSuffix) : Prop where
  raw_eq : tag.raw = tag.base ++ textOf suffixes
  bare : Bare tag.base
  noPrelude_iff : tag.noPrelude = true ↔ .noPrelude ∈ suffixes
  noRender_iff : tag.noRender = true ↔ .noRender ∈ suffixes

theorem ofWord_textOf {base : List Char} (bare : Bare base) (suffixes : List TagSuffix) :
    ofWord (base ++ textOf suffixes) = {
      raw := base ++ textOf suffixes
      base := base
      noPrelude := suffixes.contains .noPrelude
      noRender := suffixes.contains .noRender } := by
  unfold ofWord
  rw [TagSuffix.splitFrom_textOf bare]
  simp

theorem ofWord_append (word : List Char) (suffixes : List TagSuffix) :
    ofWord (word ++ textOf suffixes) = {
      raw := word ++ textOf suffixes
      base := (ofWord word).base
      noPrelude := (ofWord word).noPrelude || suffixes.contains .noPrelude
      noRender := (ofWord word).noRender || suffixes.contains .noRender } := by
  obtain ⟨base, first, bare, rfl⟩ := TagSuffix.exists_base word
  have joined : base ++ textOf first ++ textOf suffixes = base ++ textOf (first ++ suffixes) := by
    simp [textOf]
  rw [ofWord_textOf bare, joined, ofWord_textOf bare]
  simp

theorem exists_spells (word : List Char) : ∃ suffixes, (ofWord word).Spells suffixes := by
  obtain ⟨base, suffixes, bare, rfl⟩ := TagSuffix.exists_base word
  rw [ofWord_textOf bare]
  exact ⟨suffixes, rfl, bare, List.contains_iff_mem, List.contains_iff_mem⟩

theorem Spells.ofWord_raw {tag : Tag} {suffixes : List TagSuffix} (h : tag.Spells suffixes) :
    ofWord tag.raw = tag := by
  have prelude : suffixes.contains .noPrelude = tag.noPrelude :=
    Bool.eq_iff_iff.mpr (List.contains_iff_mem.trans h.noPrelude_iff.symm)
  have render : suffixes.contains .noRender = tag.noRender :=
    Bool.eq_iff_iff.mpr (List.contains_iff_mem.trans h.noRender_iff.symm)
  rw [h.raw_eq, ofWord_textOf h.bare, prelude, render, ← h.raw_eq]

theorem ofInfo?_of_ne_nil {info : List Char} (h : word info ≠ []) :
    ofInfo? info = some (ofWord (word info)) := by
  unfold ofInfo?
  split
  · contradiction
  · rename_i c rest first
    rw [first]

theorem ofInfo?_eq_some_iff {info : List Char} {tag : Tag} : ofInfo? info = some tag ↔
    tag.raw = word info ∧ word info ≠ [] ∧ ∃ suffixes, tag.Spells suffixes := by
  constructor
  · intro found
    have worded : word info ≠ [] := by
      intro none
      simp [ofInfo?, none] at found
    rw [ofInfo?_of_ne_nil worded] at found
    cases found
    exact ⟨rfl, worded, exists_spells _⟩
  · rintro ⟨same, worded, suffixes, spells⟩
    rw [ofInfo?_of_ne_nil worded, ← same, spells.ofWord_raw]

def Stops (rest : List Char) : Prop := ∀ c ∈ rest.head?, isDelimiter c = true

def Unparted (w : List Char) : Prop := ∀ c ∈ w, isDelimiter c = false

theorem unparted_iff {w : List Char} : Unparted w ↔ w.all (!isDelimiter ·) = true := by
  simp [Unparted]

theorem unparted_textOf (suffixes : List TagSuffix) : Unparted (textOf suffixes) := by
  intro c member
  obtain ⟨suffix, _, within⟩ := List.mem_flatMap.mp member
  have unparted : Unparted suffix.text := by cases suffix <;> exact unparted_iff.mpr (by decide)
  exact unparted c within

theorem Unparted.append {w v : List Char} (hw : Unparted w) (hv : Unparted v) :
    Unparted (w ++ v) := by
  intro c member
  rcases List.mem_append.mp member with front | behind
  · exact hw c front
  · exact hv c behind

theorem Unparted.not_isBlank {w : List Char} (h : Unparted w) {c : Char} (member : c ∈ w) :
    Text.isBlank c = false := by
  have inside := h c member
  unfold isDelimiter at inside
  simp_all

theorem word_append {w rest : List Char} (unparted : Unparted w) (worded : w ≠ [])
    (stops : Stops rest) : word (w ++ rest) = w := by
  have starts : ∀ c ∈ (w ++ rest).head?, Text.isBlank c = false := by
    intro c first
    rw [List.head?_append_of_ne_nil _ worded] at first
    exact unparted.not_isBlank (List.mem_of_mem_head? first)
  have ends : ∀ h : w ≠ [], Text.isBlank (w.getLast h) = false :=
    fun h => unparted.not_isBlank (List.getLast_mem h)
  obtain ⟨front, ⟨more, whole⟩, trimmed⟩ := Text.exists_trimEnd_append ends rest
  have inside := List.all_eq_true.mp (unparted_iff.mp unparted)
  have stop : ∀ c ∈ front.head?, (!isDelimiter c) = false := by
    intro c first
    rw [Bool.not_eq_false']
    exact stops c (by rw [← whole, List.head?_append, Option.mem_def.mp first]; rfl)
  rw [word, Text.trim, Text.trimStart_of_head starts, trimmed]
  exact takeWhile_append_of_head inside stop

theorem ofInfo?_append {w rest : List Char} (unparted : Unparted w) (worded : w ≠ [])
    (stops : Stops rest) : ofInfo? (w ++ rest) = some (ofWord w) := by
  have first := word_append unparted worded stops
  have found : word (w ++ rest) ≠ [] := first.symm ▸ worded
  rw [ofInfo?_of_ne_nil found, first]

end Tag

namespace Policy

variable {config : Config} {w rest : List Char}

open Tag (ofWord ofInfo? Unparted Stops)
open TagSuffix (textOf textOf_eq_nil_iff)

def highlights (config : Config) (base : List Char) : Bool :=
  if base.isEmpty then config.typstDefault else Tag.targets.contains base

theorem block_some (config : Config) (tag : Tag) : block config (some tag) =
    if highlights config tag.base then ⟨true, config.render && !tag.noRender, !tag.noPrelude⟩
    else skip := rfl

theorem block_ofInfo? (unparted : Unparted w) (stops : Stops rest) (whole : w = [] → rest = []) :
    block config (ofInfo? (w ++ rest)) = block config (some (ofWord w)) := by
  by_cases worded : w = []
  · cases worded
    cases whole rfl
    -- no tag at all counts like a tag that is empty
    simp [ofInfo?, Tag.word, Text.trim, Text.trimStart, Text.trimEnd, block, ofWord,
      TagSuffix.splitFrom]
  · rw [Tag.ofInfo?_append unparted worded stops]

theorem block_ofWord_text (config : Config) (w : List Char) (suffix : TagSuffix) :
    block config (some (ofWord (w ++ suffix.text))) =
      suffix.switchOff (block config (some (ofWord w))) := by
  have added := Tag.ofWord_append w [suffix]
  rw [textOf, List.flatMap_singleton] at added
  rw [added, block_some, block_some]
  cases suffix with
  | noPrelude => cases highlights config (ofWord w).base <;> simp [TagSuffix.switchOff, skip]
  | noRender => cases highlights config (ofWord w).base <;> simp [TagSuffix.switchOff, skip]

theorem block_suffix (config : Config) (unparted : Unparted w) (stops : Stops rest)
    (whole : w = [] → rest = []) (suffix : TagSuffix) :
    block config (ofInfo? (w ++ suffix.text ++ rest)) =
      suffix.switchOff (block config (ofInfo? (w ++ rest))) := by
  have spelled : Unparted suffix.text := by
    simpa [textOf] using Tag.unparted_textOf [suffix]
  have worded : w ++ suffix.text = [] → rest = [] := by
    intro none
    exact whole (List.append_eq_nil_iff.mp none).1
  rw [block_ofInfo? (unparted.append spelled) stops worded, block_ofInfo? unparted stops whole,
    block_ofWord_text]

theorem block_textOf (config : Config) (unparted : Unparted w) (stops : Stops rest)
    {suffixes others : List TagSuffix} (same : ∀ suffix, suffix ∈ suffixes ↔ suffix ∈ others) :
    block config (ofInfo? (w ++ textOf suffixes ++ rest)) =
      block config (ofInfo? (w ++ textOf others ++ rest)) := by
  have none : suffixes = [] ↔ others = [] := by
    simp [List.eq_nil_iff_forall_not_mem, same]
  by_cases bare : suffixes = []
  · rw [bare, none.mp bare]
  · have read : ∀ more : List TagSuffix, more ≠ [] →
        ofInfo? (w ++ textOf more ++ rest) = some (ofWord (w ++ textOf more)) := by
      intro more some
      refine Tag.ofInfo?_append (unparted.append (Tag.unparted_textOf more)) ?_ stops
      simp [textOf_eq_nil_iff, some]
    have flags : ∀ suffix, suffixes.contains suffix = others.contains suffix := by
      intro suffix
      simp [same]
    rw [read suffixes bare, read others (mt none.mpr bare), block_some, block_some,
      Tag.ofWord_append, Tag.ofWord_append]
    simp only [flags]

end Policy

/-- Suffixes are flags of their own. Behind any word each of them switches off its part of the
    policy and nothing else; what is read of a tag is its base and the suffixes behind it, all of
    them, each of which sets its flag; and the order and number of the suffixes do not matter. -/
theorem suffixes_are_flags (config : Config) :
    (∀ w rest, Tag.Unparted w → Tag.Stops rest → (w = [] → rest = []) →
      Policy.block config (Tag.ofInfo? (w ++ "-norender".toList ++ rest)) =
          { Policy.block config (Tag.ofInfo? (w ++ rest)) with render := false } ∧
        Policy.block config (Tag.ofInfo? (w ++ "-noprelude".toList ++ rest)) =
          { Policy.block config (Tag.ofInfo? (w ++ rest)) with usePrelude := false }) ∧
    (∀ info tag, Tag.ofInfo? info = some tag ↔
      tag.raw = Tag.word info ∧ Tag.word info ≠ [] ∧ ∃ suffixes, tag.Spells suffixes) ∧
    ∀ w rest suffixes others, Tag.Unparted w → Tag.Stops rest →
      (∀ suffix, suffix ∈ suffixes ↔ suffix ∈ others) →
        Policy.block config (Tag.ofInfo? (w ++ TagSuffix.textOf suffixes ++ rest)) =
          Policy.block config (Tag.ofInfo? (w ++ TagSuffix.textOf others ++ rest)) := by
  refine ⟨?_, fun info tag => Tag.ofInfo?_eq_some_iff, ?_⟩
  · intro w rest unparted stops whole
    exact ⟨Policy.block_suffix config unparted stops whole .noRender,
      Policy.block_suffix config unparted stops whole .noPrelude⟩
  · intro w rest suffixes others unparted stops same
    exact Policy.block_textOf config unparted stops same

theorem suffixes_are_flags_repeated :
    let config : Config := { jobs := 1, render := true }
    let once := [TagSuffix.noRender, .noPrelude]
    let often := [TagSuffix.noPrelude, .noPrelude, .noRender, .noPrelude]
    Tag.Unparted "typ-norender".toList ∧ Tag.Stops ", x".toList ∧
      (∀ suffix, suffix ∈ once ↔ suffix ∈ often) ∧
      Policy.block config (Tag.ofInfo? "typ-norender-norender, x".toList) =
        { Policy.block config (Tag.ofInfo? "typ-norender, x".toList) with render := false } ∧
      Policy.block config (Tag.ofInfo? ("typ-norender".toList ++ TagSuffix.textOf once ++
          ", x".toList)) =
        Policy.block config (Tag.ofInfo? ("typ-norender".toList ++ TagSuffix.textOf often ++
          ", x".toList)) := by
  intro config once often
  have unparted : Tag.Unparted "typ-norender".toList := Tag.unparted_iff.mpr (by decide)
  have stops : Tag.Stops ", x".toList := by
    rintro c ⟨⟩
    decide
  have same : ∀ suffix, suffix ∈ once ↔ suffix ∈ often := by
    intro suffix
    cases suffix <;> decide
  obtain ⟨switches, _, reorders⟩ := suffixes_are_flags config
  exact ⟨unparted, stops, same, (switches _ _ unparted stops (by decide)).1,
    reorders _ _ _ _ unparted stops same⟩

end BookHighlight
