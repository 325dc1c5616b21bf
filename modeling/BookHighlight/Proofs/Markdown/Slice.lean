import BookHighlight.Markdown.Construct

namespace BookHighlight.Markdown

variable {content : List Char} {cursor stop : Nat}

theorem take_append_slice (ordered : cursor ≤ stop) :
    content.take cursor ++ slice content cursor stop = content.take stop := by
  rw [slice, ← List.take_add, Nat.add_sub_cancel' ordered]

theorem slice_append_drop (ordered : cursor ≤ stop) :
    slice content cursor stop ++ content.drop stop = content.drop cursor := by
  have meet : cursor + (stop - cursor) = stop := by omega
  have whole := List.take_append_drop (stop - cursor) (content.drop cursor)
  rwa [List.drop_drop, meet] at whole

theorem length_slice (inside : stop ≤ content.length) :
    (slice content cursor stop).length = stop - cursor := by
  simp only [slice, List.length_take, List.length_drop]
  omega

theorem slice_length : slice content cursor content.length = content.drop cursor := by
  rw [slice, ← List.length_drop, List.take_length]

theorem drop_slice (length : Nat) :
    (slice content cursor stop).drop length = slice content (cursor + length) stop := by
  rw [slice, slice, List.drop_take, List.drop_drop, Nat.sub_sub]

end BookHighlight.Markdown
