import BookHighlight.Proofs.Book.Walk

namespace BookHighlight.Book

open Data

def listAt (entries : Entries) (name : String) : Option (List Value) :=
  match Entries.text? entries name with
  | some (.list items) => some items
  | _ => none

theorem listAt_eq_some_iff {entries : Entries} {name : String} {items : List Value} :
    listAt entries name = some items ↔ Entries.text? entries name = some (.list items) := by
  unfold listAt
  split
  · rename_i found
    simp [found]
  · rename_i other
    simpa using other items

theorem size_le_of_mem_items {items : List Value} {item : Value} (h : item ∈ items) :
    size item ≤ sizeOfItems items := by
  induction items with
  | nil => cases h
  | cons first rest ih =>
    rw [sizeOfItems]
    rcases List.mem_cons.mp h with rfl | later
    · exact Nat.le_add_right ..
    · exact Nat.le_trans (ih later) (Nat.le_add_left ..)

theorem size_lt_of_mem_placed {path : List Step} {items : List Value} {item : Value}
    {entry : List Step × Value} (inside : entry ∈ placed path items)
    (smaller : sizeOfItems items < size item) : size entry.2 < size item := by
  obtain ⟨index, found, _⟩ := mem_placed inside
  exact Nat.lt_of_le_of_lt (size_le_of_mem_items (List.mem_of_getElem? found)) smaller

theorem sizeOfItems_listAt_lt {item : Value} {fields : Entries}
    (isChapter : chapterFields? item = some fields) :
    sizeOfItems ((listAt fields "sub_items").getD []) < size item := by
  have smaller := size_lt_of_get? (chapterFields?_eq_some isChapter)
  rw [size] at smaller
  cases listed : listAt fields "sub_items" with
  | none => exact Nat.zero_lt_of_lt smaller
  | some items =>
    have within := size_le_of_mem (Entries.mem_of_text? (listAt_eq_some_iff.mp listed))
    rw [size] at within
    change sizeOfItems items < _
    omega

theorem sizeOfItems_part_lt {item : Value} {items : List Value}
    (isPart : partItems? item = some items) : sizeOfItems items < size item := by
  obtain ⟨part, found, holds⟩ := partItems?_eq_some isPart
  have smaller := size_lt_of_get? found
  have inside := size_lt_of_get? holds
  rw [size] at inside
  omega

/-- The chapters of an item in the order of a reader: a chapter comes before the items under it,
    those of a part stand in its place, and nothing else holds any. -/
def preorder (path : List Step) (item : Value) : List Chapter :=
  match isChapter : chapterFields? item with
  | some fields =>
    ⟨path ++ [.entry "Chapter"], fields⟩ ::
      (placed (path ++ [.entry "Chapter", .entry "sub_items"])
        ((listAt fields "sub_items").getD [])).attach.flatMap
          fun ⟨entry, _⟩ => preorder entry.1 entry.2
  | none =>
    match isPart : partItems? item with
    | some items =>
      (placed (path ++ [.entry "PartTitle", .entry "sub_items"]) items).attach.flatMap
        fun ⟨entry, _⟩ => preorder entry.1 entry.2
    | none => []
termination_by size item
decreasing_by
  · exact size_lt_of_mem_placed ‹_› (sizeOfItems_listAt_lt isChapter)
  · exact size_lt_of_mem_placed ‹_› (sizeOfItems_part_lt isPart)

def preorderOf (items : List (List Step × Value)) : List Chapter :=
  items.flatMap fun entry => preorder entry.1 entry.2

theorem flatMap_attach (items : List (List Step × Value)) :
    (items.attach.flatMap fun ⟨entry, _⟩ => preorder entry.1 entry.2) = preorderOf items := by
  rw [List.flatMap_subtype (g := fun entry => preorder entry.1 entry.2) fun _ _ => rfl,
    List.unattach_attach, preorderOf]

section

variable {path : List Step} {item : Value}

theorem preorder_chapter {fields : Entries} (isChapter : chapterFields? item = some fields) :
    preorder path item = ⟨path ++ [.entry "Chapter"], fields⟩ ::
      preorderOf (placed (path ++ [.entry "Chapter", .entry "sub_items"])
        ((listAt fields "sub_items").getD [])) := by
  rw [preorder]
  split
  · rename_i found
    cases isChapter.symm.trans found
    rw [flatMap_attach]
  · rename_i none
    cases isChapter.symm.trans none

theorem preorder_part {items : List Value} (notChapter : chapterFields? item = none)
    (isPart : partItems? item = some items) :
    preorder path item =
      preorderOf (placed (path ++ [.entry "PartTitle", .entry "sub_items"]) items) := by
  rw [preorder]
  split
  · rename_i found
    cases notChapter.symm.trans found
  · split
    · rename_i found
      cases isPart.symm.trans found
      rw [flatMap_attach]
    · rename_i none
      cases isPart.symm.trans none

theorem preorder_other (notChapter : chapterFields? item = none)
    (notPart : partItems? item = none) : preorder path item = [] := by
  rw [preorder]
  split
  · rename_i found
    cases notChapter.symm.trans found
  · split
    · rename_i found
      cases notPart.symm.trans found
    · rfl

end

theorem subItems_getD {fields : Entries} {under : List Value} (h : subItems fields = .ok under) :
    (listAt fields "sub_items").getD [] = under := by
  unfold subItems at h
  unfold listAt
  cases found : Entries.text? fields "sub_items" with
  | none =>
    rw [found] at h
    cases h
    rfl
  | some v =>
    rw [found] at h
    cases v with
    | list items =>
      cases h
      rfl
    | table entries =>
      cases h
      rfl
    | text s =>
      cases h
      rfl
    | _ =>
      dsimp only at h
      split at h <;> cases h
      rfl

/-- What is visited is what the recursion comes to. -/
theorem Visits.eq_preorderOf {pending : List (List Step × Value)} {cs : List Chapter}
    (h : Visits pending cs) : cs = preorderOf pending := by
  induction h with
  | done => rfl
  | chapter isChapter holds _ ih =>
    rw [ih, preorderOf, preorderOf, List.flatMap_append, List.flatMap_cons,
      preorder_chapter isChapter, subItems_getD holds]
    simp [preorderOf]
  | part notChapter isPart _ ih =>
    rw [ih, preorderOf, preorderOf, List.flatMap_append, List.flatMap_cons,
      preorder_part notChapter isPart]
    rfl
  | other notChapter notPart _ ih =>
    rw [ih, preorderOf, preorderOf, List.flatMap_cons, preorder_other notChapter notPart]
    rfl

def readingOrder (book : Entries) : List Chapter :=
  match listAt book "sections", listAt book "items" with
  | some sections, _ => preorderOf (placed [.entry "sections"] sections)
  | none, some items => preorderOf (placed [.entry "items"] items)
  | none, none => []

theorem items_table (book : Entries) : items (.table book) =
    (((listAt book "sections").map (placed [.entry "sections"])) <|>
      (listAt book "items").map (placed [.entry "items"])).getD [] := by
  have under : ∀ name, (listAt book name).map (placed [.entry name]) =
      match (Value.table book).get? name with
      | some (.list items) => some (placed [.entry name] items)
      | _ => none := by
    intro name
    change _ = match Entries.text? book name with
      | some (.list items) => some (placed [.entry name] items)
      | _ => none
    unfold listAt
    split <;> simp_all
  rw [under, under]
  rfl

theorem readingOrder_eq (book : Entries) :
    readingOrder book = preorderOf (items (.table book)) := by
  rw [items_table, readingOrder]
  split <;> simp_all [preorderOf]

theorem chapters_eq_readingOrder {book : Entries} {cs : List Chapter}
    (h : chapters (.table book) = .ok cs) : cs = readingOrder book := by
  rw [readingOrder_eq]
  exact (visits_chapters h).eq_preorderOf

/-- The walk through a book visits its chapters in the order of a reader, each of them once, unless
    some chapter has a value that cannot be gone through in the place of the items under it. -/
theorem chapters_in_reading_order (book : Entries)
    (walkable : ∀ fields, InBook (.table book) fields →
      ∀ v ∈ Entries.text? fields "sub_items", ¬ Itemless v) :
    chapters (.table book) = .ok (readingOrder book) ∧
      (∀ fields, InBook (.table book) fields ↔ ∃ c ∈ readingOrder book, c.fields = fields) ∧
      (∀ c ∈ readingOrder book, Value.at? c.path (.table book) = some (.table c.fields)) ∧
      (readingOrder book).Pairwise fun left right => left.path ≠ right.path := by
  cases walked : chapters (.table book) with
  | error misuse =>
    obtain ⟨fields, within, v, found, itemless⟩ := chapters_fails_iff.mp ⟨misuse, walked⟩
    exact absurd itemless (walkable fields within v found)
  | ok cs =>
    cases chapters_eq_readingOrder walked
    refine ⟨rfl, chapters_fields_iff walked, chapters_located walked, ?_⟩
    refine (chapters_diverge walked).imp fun {left right} apart same => ?_
    have place : left.place = right.place := by rw [Chapter.place, Chapter.place, same]
    exact apart.1 (place ▸ List.prefix_rfl)

theorem chapters_in_reading_order_nested :
    let chapter := fun (name : String) (under : Value) => Value.table [(.text "Chapter",
      .table [(.text "name", .text name), (.text "sub_items", under)])]
    let book : Entries := [
      (.text "items", .list [chapter "Unread" .null]),
      (.text "sections", .list [
        chapter "One" (.list [
          chapter "One and a half" (.table [(.text "Chapter", .null)]),
          .table [(.text "PartTitle", .table [
            (.text "sub_items", .list [chapter "Two" (.list [chapter "Three" (.int 0)])])])],
          chapter "Four" (.text "Chapter")]),
        .text "Separator",
        .table [(.text "PartTitle", .text "Part")],
        chapter "Five" .null])]
    (∀ fields, InBook (.table book) fields →
        ∀ v ∈ Entries.text? fields "sub_items", ¬ Itemless v) ∧
      chapters (.table book) = .ok (readingOrder book) ∧
      (readingOrder book).map (·.id 0) =
        ["One", "One and a half", "Two", "Three", "Four", "Five"] := by
  intro chapter book
  obtain ⟨cs, walked, ids⟩ : ∃ cs, chapters (.table book) = .ok cs ∧
      cs.map (·.id 0) = ["One", "One and a half", "Two", "Three", "Four", "Five"] :=
    ⟨_, rfl, by decide⟩
  have walkable : ∀ fields, InBook (.table book) fields →
      ∀ v ∈ Entries.text? fields "sub_items", ¬ Itemless v := by
    intro fields within v found itemless
    obtain ⟨misuse, fails⟩ := chapters_fails_iff.mpr ⟨fields, within, v, found, itemless⟩
    cases walked.symm.trans fails
  have ordered := (chapters_in_reading_order book walkable).1
  cases walked.symm.trans ordered
  exact ⟨walkable, walked, ids⟩

end BookHighlight.Book
