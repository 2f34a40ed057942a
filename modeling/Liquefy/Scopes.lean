/-!
# Open blocks

Templates close every block with a bare `end`; Liquid names the block in the closing tag. The
blocks that are open are therefore kept, and an `end` closes the innermost of them.
-/

namespace Liquefy

/-- A block that an `end` can close. -/
inductive Block where
  | conditional
  | negatedConditional
  | loop
  | search
  | catalogSearch
  | learningPathItem
  deriving DecidableEq, Repr

namespace Block

/-- All kinds of blocks. -/
def all : List Block :=
  [.conditional, .negatedConditional, .loop, .search, .catalogSearch, .learningPathItem]

/-- The Liquid tag that opens the block. -/
def name : Block → String
  | .conditional => "if"
  | .negatedConditional => "unless"
  | .loop => "for"
  | .search => "search"
  | .catalogSearch => "catalog_search"
  | .learningPathItem => "learning_path_item"

/-- The word for the block in log messages. -/
def label : Block → String
  | .conditional => "If"
  | .negatedConditional => "Unless"
  | .loop => "For"
  | .search => "Search"
  | .catalogSearch => "CatalogSearch"
  | .learningPathItem => "LearningPathItem"

/-- The block of a tag name. -/
def ofName? (name : String) : Option Block := all.find? fun block => block.name == name

/-- The block that a call opens, if it is a condition. -/
def ofCondition? (call : String) : Option Block :=
  if call = "if" then some .conditional
  else if call = "unless" then some .negatedConditional
  else none

/-- The Liquid tag that closes the block. -/
def endTag (block : Block) : String := "end" ++ block.name

end Block

/-- The open blocks, innermost first. -/
structure Scopes where
  blocks : List Block
  deriving DecidableEq, Repr

namespace Scopes

/-- No block is open. -/
def empty : Scopes := ⟨[]⟩

/-- Open a block inside all others. -/
def push (scopes : Scopes) (block : Block) : Scopes := ⟨block :: scopes.blocks⟩

/-- Close the innermost block. -/
def pop? (scopes : Scopes) : Option (Block × Scopes) :=
  match scopes.blocks with
  | [] => none
  | block :: blocks => some (block, ⟨blocks⟩)

/-- The innermost block. -/
def current? (scopes : Scopes) : Option Block := scopes.blocks.head?

/-- The number of open blocks. -/
def depth (scopes : Scopes) : Nat := scopes.blocks.length

/-- Whether no block is open. -/
def isEmpty (scopes : Scopes) : Bool := scopes.blocks.isEmpty

/-- The open blocks, outermost first. -/
def toList (scopes : Scopes) : List Block := scopes.blocks.reverse

@[simp]
theorem toList_empty : empty.toList = [] := rfl

@[simp]
theorem toList_push (scopes : Scopes) (block : Block) :
    (scopes.push block).toList = scopes.toList ++ [block] := by
  simp [push, toList]

@[simp]
theorem pop?_push (scopes : Scopes) (block : Block) :
    (scopes.push block).pop? = some (block, scopes) := rfl

end Scopes

end Liquefy
