namespace BookHighlight.Data

inductive Misuse where
  /-- going through the items of a value that has none -/
  | noItems
  /-- asking a value for what only another type has -/
  | noMember
  deriving DecidableEq, Repr

end BookHighlight.Data
