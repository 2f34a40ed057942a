import Liquefy.Segment.Basic

/-!
# Folding over segments

Whatever walks a segment sees the segment itself and, for each of its children in order, the child
with what was made of it. `Segment.fold_eq` is the one equation of the fold, and
`Segment.induction` the matching principle for proofs.
-/

namespace Liquefy

/-- A child with what has been made of it. -/
structure Part (ρ : Type) where
  segment : Segment
  result : ρ

namespace Segment

/-- The segments directly inside a segment. -/
def children : Segment → List Segment
  | .chain items => items
  | .call _ args => args.toList
  | .operator _ _ operand => [operand]
  | _ => []

variable {ρ : Type} (node : Segment → List (Part ρ) → ρ)

mutual

/-- Make something of a segment from what is made of its children. -/
def fold : Segment → ρ
  | .text s => node (.text s) []
  | .string s => node (.string s) []
  | .number digits => node (.number digits) []
  | .chain items => node (.chain items) (foldList items)
  | .reference name => node (.reference name) []
  | .call name args => node (.call name args) (foldArguments args)
  | .ending => node .ending []
  | .operator tag sign operand =>
      node (.operator tag sign operand) [⟨operand, operand.fold⟩]

/-- The parts for a list of segments. -/
def foldList : List Segment → List (Part ρ)
  | [] => []
  | segment :: segments => ⟨segment, segment.fold⟩ :: foldList segments

/-- The parts for arguments. -/
def foldArguments : Arguments Segment → List (Part ρ)
  | .none => []
  | .one segment => [⟨segment, segment.fold⟩]
  | .many segments => foldList segments

end

theorem foldList_eq_map (segments : List Segment) :
    foldList node segments = segments.map fun segment => ⟨segment, segment.fold node⟩ := by
  induction segments with
  | nil => rfl
  | cons segment segments ih => simp [foldList, ih]

theorem foldArguments_eq_map (args : Arguments Segment) :
    foldArguments node args = args.toList.map fun segment => ⟨segment, segment.fold node⟩ := by
  cases args <;> simp [foldArguments, Arguments.toList, foldList_eq_map]

/-- The fold of a segment is made from the folds of its children. -/
theorem fold_eq (segment : Segment) :
    segment.fold node =
      node segment (segment.children.map fun child => ⟨child, child.fold node⟩) := by
  cases segment <;> simp [fold, children, foldList_eq_map, foldArguments_eq_map]

theorem sizeOf_lt_of_mem_children {segment child : Segment} (h : child ∈ segment.children) :
    sizeOf child < sizeOf segment := by
  cases segment with
  | chain items =>
      have := List.sizeOf_lt_of_mem h
      simp only [children] at this
      simp only [Segment.chain.sizeOf_spec]
      omega
  | call name args =>
      cases args with
      | none => simp [children, Arguments.toList] at h
      | one arg =>
          obtain rfl : child = arg := by simpa [children, Arguments.toList] using h
          simp only [Segment.call.sizeOf_spec, Arguments.one.sizeOf_spec]
          omega
      | many args =>
          have := List.sizeOf_lt_of_mem h
          simp only [children, Arguments.toList] at this
          simp only [Segment.call.sizeOf_spec, Arguments.many.sizeOf_spec]
          omega
  | operator tag sign operand =>
      obtain rfl : child = operand := by simpa [children] using h
      simp only [Segment.operator.sizeOf_spec]
      omega
  | _ => simp [children] at h

/-- What holds of a segment whenever it holds of its children holds of every segment. -/
theorem induction {P : Segment → Prop}
    (step : ∀ segment, (∀ child ∈ segment.children, P child) → P segment) (segment : Segment) :
    P segment :=
  step segment fun child _ => induction step child
termination_by sizeOf segment
decreasing_by
  rename_i member
  exact sizeOf_lt_of_mem_children member

end Segment

end Liquefy
