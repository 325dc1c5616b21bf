import BookHighlight.Book.Chapter
import BookHighlight.Proofs.Data.Table

namespace BookHighlight.Book

open Data

theorem get?_eq_some {item : Value} {name : String} {v : Value} (h : item.get? name = some v) :
    ∃ entries, item = .table entries ∧ Entries.text? entries name = some v := by
  cases item with
  | table entries => exact ⟨entries, rfl, h⟩
  | _ => cases h

theorem chapterFields?_eq_some {item : Value} {fields : Entries}
    (h : chapterFields? item = some fields) : item.get? "Chapter" = some (.table fields) := by
  unfold chapterFields? at h
  split at h
  · rename_i found
    cases h
    exact found
  · cases h

theorem partItems?_eq_some {item : Value} {items : List Value}
    (h : partItems? item = some items) : ∃ part, item.get? "PartTitle" = some part ∧
      part.get? "sub_items" = some (.list items) := by
  unfold partItems? at h
  split at h
  · rename_i found
    cases h
    exact Option.bind_eq_some_iff.mp found
  · cases h

theorem subItems_eq_ok {fields : Entries} {items : List Value} (h : subItems fields = .ok items) :
    items = [] ∨ Entries.text? fields "sub_items" = some (.list items) := by
  unfold subItems at h
  split at h
  · rename_i found
    cases h
    exact .inr found
  · split at h
    · cases h
      exact .inl rfl
    · cases h
      exact .inl rfl
    · split at h
      · cases h
      · cases h
        exact .inl rfl
  · cases h
    exact .inl rfl

theorem mem_placed {path : List Step} {items : List Value} {entry : List Step × Value}
    (h : entry ∈ placed path items) :
    ∃ index, items[index]? = some entry.2 ∧ entry.1 = path ++ [.item index] := by
  obtain ⟨⟨item, index⟩, member, rfl⟩ := List.mem_map.mp h
  exact ⟨index, List.mem_zipIdx_iff_getElem?.mp member, rfl⟩

theorem placed_diverge (path : List Step) (items : List Value) :
    (placed path items).Pairwise fun left right => Diverge left.1 right.1 := by
  have ascending : items.zipIdx.Pairwise fun left right => left.2 < right.2 := by
    rw [← List.pairwise_map (f := Prod.snd), List.zipIdx_map_snd]
    exact List.pairwise_lt_range'
  refine List.pairwise_map.mpr (ascending.imp fun before => ?_)
  exact Diverge.of_ne (fun same => Nat.ne_of_lt before (Step.item.inj same)) path [] []

def budget (pending : List (List Step × Value)) : Nat := sizeOfItems (pending.map (·.2))

theorem size_pos (v : Value) : 0 < size v := by
  cases v with
  | list items => exact Nat.add_pos_left Nat.one_pos _
  | table entries => exact Nat.add_pos_left Nat.one_pos _
  | _ => exact Nat.one_pos

theorem sizeOfItems_append (left right : List Value) :
    sizeOfItems (left ++ right) = sizeOfItems left + sizeOfItems right := by
  induction left with
  | nil => simp [sizeOfItems]
  | cons item left ih => simp [sizeOfItems, ih, Nat.add_assoc]

theorem size_le_of_mem {entries : Entries} {key : Key} {v : Value} (h : (key, v) ∈ entries) :
    size v ≤ sizeOfEntries entries := by
  induction entries with
  | nil => cases h
  | cons entry rest ih =>
    simp only [sizeOfEntries]
    rcases List.mem_cons.mp h with rfl | later
    · exact Nat.le_add_right ..
    · have := ih later
      omega

theorem size_lt_of_get? {item : Value} {name : String} {v : Value}
    (h : item.get? name = some v) : size v < size item := by
  obtain ⟨entries, rfl, found⟩ := get?_eq_some h
  have := size_le_of_mem (Entries.mem_of_text? found)
  rw [size]
  omega

theorem map_placed (path : List Step) (items : List Value) :
    (placed path items).map (·.2) = items := by
  unfold placed
  rw [List.map_map]
  exact List.zipIdx_map_fst 0 items

theorem budget_placed (path : List Step) (items : List Value)
    (rest : List (List Step × Value)) :
    budget (placed path items ++ rest) = sizeOfItems items + budget rest := by
  unfold budget
  rw [List.map_append, map_placed, sizeOfItems_append]

/-- How the chapters among pending items come about: a chapter is visited before what lies under
    it, the items of a part in its place, and whatever else there is holds none. -/
inductive Visits : List (List Step × Value) → List Chapter → Prop where
  | done : Visits [] []
  | chapter {path item rest fields under cs} : chapterFields? item = some fields →
      subItems fields = .ok under →
      Visits (placed (path ++ [.entry "Chapter"] ++ [.entry "sub_items"]) under ++ rest) cs →
      Visits ((path, item) :: rest) (⟨path ++ [.entry "Chapter"], fields⟩ :: cs)
  | part {path item rest items cs} : chapterFields? item = none → partItems? item = some items →
      Visits (placed (path ++ [.entry "PartTitle", .entry "sub_items"]) items ++ rest) cs →
      Visits ((path, item) :: rest) cs
  | other {path item rest cs} : chapterFields? item = none → partItems? item = none →
      Visits rest cs → Visits ((path, item) :: rest) cs

theorem sizeOfItems_subItems {fields : Entries} {items : List Value}
    (h : subItems fields = .ok items) : sizeOfItems items ≤ sizeOfEntries fields := by
  rcases subItems_eq_ok h with rfl | found
  · exact Nat.zero_le _
  · have := size_le_of_mem (Entries.mem_of_text? found)
    rw [size] at this
    omega

theorem visits_chaptersFrom {fuel : Nat} {pending : List (List Step × Value)}
    (enough : budget pending ≤ fuel) {cs : List Chapter}
    (h : chaptersFrom fuel pending = .ok cs) : Visits pending cs := by
  fun_induction chaptersFrom fuel pending generalizing cs with
  | case1 pending =>
    cases h
    cases pending with
    | nil => exact .done
    | cons entry rest =>
      have := size_pos entry.2
      simp only [budget, List.map_cons, sizeOfItems] at enough
      omega
  | case2 =>
    cases h
    exact .done
  | case3 fuel path item rest fields isChapter place ih =>
    obtain ⟨under, read, walks⟩ := bind_eq_ok.mp h
    obtain ⟨later, walked, ⟨⟩⟩ := bind_eq_ok.mp walks
    have smaller := size_lt_of_get? (chapterFields?_eq_some isChapter)
    have inside := sizeOfItems_subItems read
    have left : budget (placed (place ++ [.entry "sub_items"]) under ++ rest) ≤ fuel := by
      rw [budget_placed]
      simp only [budget, List.map_cons, sizeOfItems, size] at enough smaller ⊢
      omega
    exact .chapter isChapter read (ih under left walked)
  | case4 fuel path item rest notChapter items isPart ih =>
    obtain ⟨part, found, holds⟩ := partItems?_eq_some isPart
    have smaller := size_lt_of_get? found
    have inside := size_lt_of_get? holds
    refine .part notChapter isPart (ih ?_ h)
    rw [budget_placed]
    simp only [budget, List.map_cons, sizeOfItems, size] at enough inside ⊢
    omega
  | case5 fuel path item rest notChapter notPart ih =>
    have := size_pos item
    refine .other notChapter notPart (ih ?_ h)
    simp only [budget, List.map_cons, sizeOfItems] at enough ⊢
    omega

theorem items_eq (book : Value) : items book = [] ∨ ∃ name list,
    book.get? name = some (.list list) ∧ items book = placed [.entry name] list := by
  unfold items
  dsimp only
  split
  · rename_i list found
    exact .inr ⟨_, list, found, rfl⟩
  · split
    · rename_i list found
      exact .inr ⟨_, list, found, rfl⟩
    · exact .inl rfl

theorem visits_chapters {book : Value} {cs : List Chapter} (h : chapters book = .ok cs) :
    Visits (items book) cs := by
  cases book with
  | table entries =>
    apply visits_chaptersFrom _ h
    rcases items_eq (.table entries) with none | ⟨name, list, found, placed⟩
    · rw [none]
      exact Nat.zero_le _
    · have := size_lt_of_get? found
      rw [size] at this
      rw [placed, budget, map_placed]
      omega
  | _ => cases h

theorem at?_entry {book v : Value} {path : List Step} (h : Value.at? path book = some v)
    (name : String) : Value.at? (path ++ [.entry name]) book = v.get? name := by
  rw [Value.at?_append, h]
  exact Option.bind_fun_some _

theorem at?_placed {book : Value} {path : List Step} {items : List Value}
    (h : Value.at? path book = some (.list items)) :
    ∀ entry ∈ placed path items, Value.at? entry.1 book = some entry.2 := by
  intro entry member
  obtain ⟨index, found, place⟩ := mem_placed member
  rw [place, Value.at?_append, h]
  simp [Value.at?, found]

namespace Visits

variable {book : Value} {pending : List (List Step × Value)} {cs : List Chapter}

theorem at? (h : Visits pending cs)
    (located : ∀ entry ∈ pending, Value.at? entry.1 book = some entry.2) :
    ∀ c ∈ cs, Value.at? c.path book = some (.table c.fields) := by
  induction h with
  | done => simp
  | @chapter path item rest fields under cs isChapter holds _ ih =>
    obtain ⟨here, later⟩ := List.forall_mem_cons.mp located
    have found := at?_entry here "Chapter"
    rw [chapterFields?_eq_some isChapter] at found
    refine List.forall_mem_cons.mpr ⟨found, ih fun entry member => ?_⟩
    rcases List.mem_append.mp member with within | behind
    · rcases subItems_eq_ok holds with rfl | listed
      · cases within
      · exact at?_placed ((at?_entry found "sub_items").trans listed) entry within
    · exact later entry behind
  | @part path item rest items cs _ isPart _ ih =>
    obtain ⟨here, later⟩ := List.forall_mem_cons.mp located
    obtain ⟨part, found, holds⟩ := partItems?_eq_some isPart
    have listed := at?_entry ((at?_entry here "PartTitle").trans found) "sub_items"
    rw [holds, List.append_assoc] at listed
    refine ih fun entry member => ?_
    rcases List.mem_append.mp member with within | behind
    · exact at?_placed listed entry within
    · exact later entry behind
  | other _ _ _ ih => exact ih (List.forall_mem_cons.mp located).2

end Visits

def Chapter.place (c : Chapter) : List Step := c.path ++ [.entry "content"]

theorem placed_append_diverge {path p : List Step} {item : Value} {under : List Value}
    {rest : List (List Step × Value)} (within : path <+: p)
    (apart : ((path, item) :: rest).Pairwise fun left right => Diverge left.1 right.1) :
    (placed p under ++ rest).Pairwise fun left right => Diverge left.1 right.1 := by
  obtain ⟨first, later⟩ := List.pairwise_cons.mp apart
  refine List.pairwise_append.mpr ⟨placed_diverge p under, later, ?_⟩
  intro left inside right behind
  obtain ⟨index, _, place⟩ := mem_placed inside
  obtain ⟨more, rfl⟩ := within
  have wider := (first right behind).append (more ++ [.item index]) []
  rwa [List.append_nil, ← List.append_assoc, ← place] at wider

theorem prefix_of_mem_placed {p q : List Step} {under : List Value}
    {rest : List (List Step × Value)} (h : ∃ entry ∈ placed p under ++ rest, entry.1 <+: q) :
    p <+: q ∨ ∃ entry ∈ rest, entry.1 <+: q := by
  obtain ⟨entry, member, leads⟩ := h
  rcases List.mem_append.mp member with within | behind
  · obtain ⟨index, _, place⟩ := mem_placed within
    rw [place] at leads
    exact .inl ((List.prefix_append p _).trans leads)
  · exact .inr ⟨entry, behind, leads⟩

/-- The texts of different chapters stand in different places, none inside another. -/
theorem Visits.diverge {pending : List (List Step × Value)} {cs : List Chapter}
    (h : Visits pending cs) (apart : pending.Pairwise fun left right => Diverge left.1 right.1) :
    (∀ c ∈ cs, ∃ entry ∈ pending, entry.1 <+: c.path) ∧
      cs.Pairwise fun left right => Diverge left.place right.place := by
  induction h with
  | done => simp
  | @chapter path item rest fields under cs _ _ _ ih =>
    have within : path <+: path ++ [.entry "Chapter"] ++ [.entry "sub_items"] := by simp
    obtain ⟨inside, later⟩ := ih (placed_append_diverge within apart)
    have first := (List.pairwise_cons.mp apart).1
    refine ⟨List.forall_mem_cons.mpr ⟨⟨_, List.mem_cons_self .., List.prefix_append ..⟩, ?_⟩,
      List.pairwise_cons.mpr ⟨?_, later⟩⟩
    · intro c member
      rcases prefix_of_mem_placed (inside c member) with below | ⟨entry, behind, leads⟩
      · exact ⟨_, List.mem_cons_self .., within.trans below⟩
      · exact ⟨entry, List.mem_cons_of_mem _ behind, leads⟩
    · intro c member
      rcases prefix_of_mem_placed (inside c member) with
        ⟨more, below⟩ | ⟨entry, behind, more, below⟩
      · have differ : Step.entry "content" ≠ .entry "sub_items" := by decide
        have apart := Diverge.of_ne differ (path ++ [.entry "Chapter"]) []
          (more ++ [.entry "content"])
        simpa [Chapter.place, ← below] using apart
      · have apart := (first entry behind).append [.entry "Chapter", .entry "content"]
          (more ++ [.entry "content"])
        simpa [Chapter.place, ← below] using apart
  | @part path item rest items cs _ _ _ ih =>
    have within : path <+: path ++ [.entry "PartTitle", .entry "sub_items"] :=
      List.prefix_append ..
    obtain ⟨inside, later⟩ := ih (placed_append_diverge within apart)
    refine ⟨fun c member => ?_, later⟩
    rcases prefix_of_mem_placed (inside c member) with below | ⟨entry, behind, leads⟩
    · exact ⟨_, List.mem_cons_self .., within.trans below⟩
    · exact ⟨entry, List.mem_cons_of_mem _ behind, leads⟩
  | other _ _ _ ih =>
    obtain ⟨inside, later⟩ := ih apart.of_cons
    refine ⟨fun c member => ?_, later⟩
    obtain ⟨entry, behind, leads⟩ := inside c member
    exact ⟨entry, List.mem_cons_of_mem _ behind, leads⟩

section

variable {book : Value} {cs : List Chapter}

theorem chapters_located (h : chapters book = .ok cs) :
    ∀ c ∈ cs, Value.at? c.path book = some (.table c.fields) := by
  have located : ∀ entry ∈ items book, Value.at? entry.1 book = some entry.2 := by
    rcases items_eq book with none | ⟨name, list, found, placed⟩
    · simp [none]
    · have start : Value.at? [] book = some book := rfl
      rw [placed]
      exact at?_placed ((at?_entry start name).trans found)
  exact (visits_chapters h).at? located

theorem chapters_at? (h : chapters book = .ok cs) :
    ∀ c ∈ cs, Value.at? c.place book = Entries.text? c.fields "content" :=
  fun c member => at?_entry (chapters_located h c member) "content"

theorem chapters_diverge (h : chapters book = .ok cs) :
    cs.Pairwise fun left right => Diverge left.place right.place := by
  refine ((visits_chapters h).diverge ?_).2
  rcases items_eq book with none | ⟨name, list, _, placed⟩
  · simp [none]
  · rw [placed]
    exact placed_diverge _ list

end

end BookHighlight.Book
