namespace SyncedBookmarks

/-- The pieces of a text between the separators. -/
def splitAt (separator : Char) : List Char → List (List Char)
  | [] => [[]]
  | c :: rest =>
      if c = separator then [] :: splitAt separator rest
      else
        match splitAt separator rest with
        | piece :: pieces => (c :: piece) :: pieces
        | [] => [[c]]

theorem splitAt_ne_nil (separator : Char) (text : List Char) : splitAt separator text ≠ [] := by
  cases text with
  | nil => simp [splitAt]
  | cons c rest => unfold splitAt; split <;> (try split) <;> simp

/-- The pieces of a text, as texts. -/
def piecesOf (separator : Char) (text : String) : List String :=
  (splitAt separator text.toList).map String.ofList

end SyncedBookmarks
