/-!
# Names with a meaning of their own

The names that templates use for the content of a school's website, and what Liquid calls them.
Every list is complete: other names have no special meaning.
-/

namespace Liquefy.Lexicon

/-- Expressions that name a collection; as a condition they ask whether it has members. -/
def collections : List String :=
  ["courses",
   "course.instructors",
   "course.partnerships",
   "learning_path.instructors",
   "homepage.published_featured_courses",
   "learning_path.items",
   "current_person.filterable_catalog_categories",
   "current_person.filterable_learning_path_categories",
   "current_person.filterable_categories"]

/-- Expressions that name a person; as a condition they ask whether the person is signed in. -/
def people : List String := ["current_person", "current_learner"]

/-- Methods that become Liquid filters. -/
def filters : List String := ["replace", "truncate_words", "downcase"]

/-- Calls that keep their name and lose their arguments. -/
def enrolmentCalls : List String :=
  ["enrolled_in_learning_path?", "enrolled_in_course?", "progress_text"]

/-- The older name of the question whether a course is open to someone. -/
def courseAccess : String := "access_course?"

/-- What the older name has become. -/
def courseAccessNow : String := "enrolled_in_course?"

/-- The condition on which a search form is shown. -/
def searchForm : String := "display_search_form"

/-- The condition on which a catalog search form is shown. -/
def catalogSearchForm : String := "display_catalog_search_form"

/-- A whole expression that names a collection. -/
def isCollection (expression : String) : Bool := collections.contains expression

/-- A whole expression that names a person. -/
def isPerson (expression : String) : Bool := people.contains expression

/-- A method that becomes a filter. -/
def isFilter (name : String) : Bool := filters.contains name

/-- What Liquid calls a filter; most names stay. -/
def filterName (name : String) : String :=
  if name = "truncate_words" then "truncatewords" else name

/-- The Liquid word for an operator's sign. -/
def operatorToken? : String → Option String
  | "|" => some "or"
  | "&" => some "and"
  | "=" => some "=="
  | "-" => some "| minus:"
  | "+" => some "| plus:"
  | "!=" => some "!="
  | ">" => some ">"
  | "<" => some "<"
  | _ => none

/-- The signs whose string operand is put between single quotes. -/
def quotesOperand (glyph : String) : Bool := ["=", "-", "+", "!="].contains glyph

end Liquefy.Lexicon
