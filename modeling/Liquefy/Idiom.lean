/-!
# Idioms of the finished text

Two expressions of existing school templates have no counterpart segment by segment. They are
recognised in the finished Liquid text, spaces and quotes included, and replaced as literals: from
the left, each occurrence once, first all of one idiom and then all of the other.
-/

namespace Liquefy

/-- A literal text and what takes its place. -/
structure Idiom where
  pattern : String
  replacement : String

namespace Idiom

/-- The progress of a course, which Liquid has as a number. -/
def courseProgress : Idiom where
  pattern := "\x7b\x7b course.progress_text | minus: ' Complete' \x7d\x7d"
  replacement := "\x7b\x7b course.progress \x7d\x7d%"

/-- The style of a link while no filter is selected. -/
def unfilteredClass : Idiom where
  pattern := "class=\"\x7b\x7b no_filter_selected_class \x7d\x7d\""
  replacement := "class=\"uk-text-bold\""

/-- All idioms in the order in which they are replaced. -/
def all : List Idiom := [courseProgress, unfilteredClass]

/-- The text with every occurrence of the pattern replaced, after what is already done. -/
def replaceFrom (pattern replacement done cs : List Char) : List Char :=
  match cs with
  | [] => done.reverse
  | c :: rest =>
      if pattern ≠ [] ∧ pattern.isPrefixOf (c :: rest) then
        replaceFrom pattern replacement (replacement.reverse ++ done)
          ((c :: rest).drop pattern.length)
      else replaceFrom pattern replacement (c :: done) rest
termination_by cs.length
decreasing_by
  · rename_i found
    have := List.length_pos_iff.2 found.1
    simp only [List.length_drop, List.length_cons]
    omega
  · simp

/-- Replace every occurrence of an idiom, from the left. -/
def replace (idiom : Idiom) (text : String) : String :=
  String.ofList
    (replaceFrom idiom.pattern.toList idiom.replacement.toList [] text.toList)

/-- Replace every idiom. -/
def replaceAll (text : String) : String := all.foldl (fun text idiom => idiom.replace text) text

end Idiom

end Liquefy
