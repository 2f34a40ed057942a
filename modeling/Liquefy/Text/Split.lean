/-!
# Splitting at a separator

A text is cut at every separator. The pieces may be empty, and there is always at least one.
-/

namespace Liquefy.Text

/-- Put a character in front of the first piece. -/
def ontoFirst (c : Char) : List (List Char) → List (List Char)
  | [] => [[c]]
  | piece :: pieces => (c :: piece) :: pieces

/-- The pieces between separators. -/
def pieces (separator : Char) : List Char → List (List Char)
  | [] => [[]]
  | c :: cs =>
      if c = separator then [] :: pieces separator cs else ontoFirst c (pieces separator cs)

theorem pieces_ne_nil (separator : Char) (cs : List Char) : pieces separator cs ≠ [] := by
  cases cs with
  | nil => simp [pieces]
  | cons c cs =>
      rw [pieces]
      split
      · simp
      · cases pieces separator cs <;> simp [ontoFirst]

/-- The pieces put together again are the text. -/
theorem intercalate_pieces (separator : Char) (cs : List Char) :
    [separator].intercalate (pieces separator cs) = cs := by
  induction cs with
  | nil => rfl
  | cons c cs ih =>
      rw [pieces]
      cases found : pieces separator cs with
      | nil => exact absurd found (pieces_ne_nil separator cs)
      | cons piece rest =>
          rw [found] at ih
          split
          · rename_i same
            subst same
            simp [List.intercalate, List.intersperse] at ih ⊢
            exact ih
          · cases rest <;> simp_all [ontoFirst, List.intercalate, List.intersperse]

/-- The pieces of a text between separators. -/
def split (separator : Char) (text : String) : List String :=
  (pieces separator text.toList).map String.ofList

end Liquefy.Text
