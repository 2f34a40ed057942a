import Liquefy.Proofs.Conversion.Agreement

/-!
# Segments that the rules do not tell apart

The rule of a segment looks at the children through a few views only: whether they are literals,
which calls they are, and what stands before them in a chain. `Segment.Resembles` says that two
segments look the same in these views and that their conversions agree. The rules then agree on
segments whose children resemble one another, provided that the failures of the segments themselves
answer to one another.
-/

namespace Liquefy

open Conversion (Agrees)

/-! ### Views of many segments -/

/-- In a list where one item is replaced, all but this one stay as they are. -/
theorem forall₂_replace {α : Type} {R : α → α → Prop} (refl : ∀ a, R a a) (before after : List α)
    {a b : α} (related : R a b) : List.Forall₂ R (before ++ a :: after) (before ++ b :: after) :=
  List.rel_append (List.forall₂_same.2 fun a _ => refl a)
    (.cons related (List.forall₂_same.2 fun a _ => refl a))

section Views

variable {args args' : Arguments Segment} {items items' : List Segment} {β : Type}

/-- Either both calls have exactly one argument, and the two are related, or neither has. -/
theorem single?_cases {R : Segment → Segment → Prop}
    (each : List.Forall₂ R args.toList args'.toList) :
    (args.single? = none ∧ args'.single? = none) ∨
      ∃ s t, args.single? = some s ∧ args'.single? = some t ∧ R s t := by
  unfold Arguments.single?
  generalize args.toList = listed at each ⊢
  generalize args'.toList = listed' at each ⊢
  rcases each with _ | ⟨head, _ | ⟨_, _⟩⟩
  · exact .inl ⟨rfl, rfl⟩
  · exact .inr ⟨_, _, rfl, rfl, head⟩
  · exact .inl ⟨rfl, rfl⟩

theorem single?_bind_eq {view : Segment → Option β}
    (same : List.Forall₂ (fun s t => view s = view t) args.toList args'.toList) :
    args.single?.bind view = args'.single?.bind view := by
  obtain ⟨none, none'⟩ | ⟨s, t, one, one', same⟩ := single?_cases same
  · rw [none, none']
  · rw [one, one']
    exact same

theorem kindOfCall_eq (name : String)
    (same : List.Forall₂ (fun s t => s.isSearchForm = t.isSearchForm) args.toList args'.toList) :
    Segment.kindOfCall name args = Segment.kindOfCall name args' := by
  have forms : args.single?.any Segment.isSearchForm = args'.single?.any Segment.isSearchForm := by
    obtain ⟨none, none'⟩ | ⟨s, t, one, one', same⟩ := single?_cases same
    · rw [none, none']
    · rw [one, one']
      exact same
  simp only [Segment.kindOfCall, forms]

theorem eq_pluralize_of_kind {name : String} (kind : (Segment.call name args).kind = .pluralize) :
    name = "pluralize" := by
  by_contra other
  simp only [Segment.kind, Segment.kindOfCall, if_neg other] at kind
  repeat' split at kind
  all_goals simp at kind

theorem kindOfChain_eq
    (same : List.Forall₂ (fun s t => ∀ name, Segment.isCallTo name s = Segment.isCallTo name t)
      items items') :
    (Segment.chain items).kind = (Segment.chain items').kind := by
  have called (name : String) :
      items.any (Segment.isCallTo name) = items'.any (Segment.isCallTo name) := by
    induction same with
    | nil => rfl
    | cons head _ ih => simp only [List.any_cons, head name, ih]
  simp only [Segment.kind, called]

/-- The literal that a call to the given name has as its only argument. -/
def Segment.loneLiteral? (name : String) (segment : Segment) : Option String :=
  ((segment.callTo? name).bind Arguments.single?).bind Segment.literal?

theorem findSome?_literal_eq {name : String}
    (same : List.Forall₂ (fun s t => Segment.isCallTo name s = Segment.isCallTo name t ∧
      s.loneLiteral? name = t.loneLiteral? name) items items') :
    ((items.findSome? (Segment.callTo? name)).bind Arguments.single?).bind Segment.literal? =
      ((items'.findSome? (Segment.callTo? name)).bind Arguments.single?).bind Segment.literal? := by
  induction same with
  | nil => rfl
  | @cons s t _ _ head _ ih =>
      obtain ⟨called, literal⟩ := head
      simp only [Segment.isCallTo] at called
      simp only [List.findSome?_cons]
      rcases found : s.callTo? name with _ | args
      · rcases found' : t.callTo? name with _ | args'
        · exact ih
        · simp [found, found'] at called
      · rcases found' : t.callTo? name with _ | args'
        · simp [found, found'] at called
        · simpa only [Segment.loneLiteral?, found, found'] using literal

end Views

/-! ### Resemblance -/

namespace Segment

/-- The two segments look the same wherever a rule looks at a child. -/
structure LooksLike (s t : Segment) : Prop where
  literal?_eq : s.literal? = t.literal?
  filterLiteral?_eq : filterLiteral? s = filterLiteral? t
  searchBlock?_eq : searchBlock? s = searchBlock? t
  isSearchForm_eq : s.isSearchForm = t.isSearchForm
  isCallTo_eq (name : String) : s.isCallTo name = t.isCallTo name
  /-- Only `each` and `app` are asked for their literal. -/
  loneLiteral?_eq : ∀ name ∈ ["each", "app"], s.loneLiteral? name = t.loneLiteral? name
  separator_eq (atStart : Bool) : separator atStart s = separator atStart t

theorem LooksLike.refl (segment : Segment) : LooksLike segment segment :=
  ⟨rfl, rfl, rfl, rfl, fun _ => rfl, fun _ _ => rfl, fun _ => rfl⟩

/-- The two segments look the same and are converted alike. -/
structure Resembles (blames : Failure → Failure → Prop) (s t : Segment) : Prop
    extends LooksLike s t where
  agrees : Agrees blames s.convert t.convert

theorem Resembles.refl {blames : Failure → Failure → Prop} (same : ∀ failure, blames failure failure)
    (segment : Segment) : Resembles blames segment segment :=
  ⟨.refl segment, .refl same segment.convert⟩

end Segment

/-! ### Rules -/

section Rules

variable {blames : Failure → Failure → Prop} {s t : Segment}

theorem operatorText_agrees {tag tag' : OperatorTag} (glyph : String) {operand operand' : Segment}
    (blamed : ∀ flaw, blames (s.failure (.operator tag) flaw) (t.failure (.operator tag') flaw))
    (inner : operand.Resembles blames operand') :
    Agrees blames (operatorText s tag glyph ⟨operand, operand.convert⟩)
      (operatorText t tag' glyph ⟨operand', operand'.convert⟩) := by
  have quoted : quotedOperand? glyph operand = quotedOperand? glyph operand' := by
    simp only [quotedOperand?, inner.literal?_eq]
  simp only [operatorText, quoted]
  cases Lexicon.operatorToken? glyph with
  | none => exact .fail (blamed _)
  | some token =>
      cases quotedOperand? glyph operand' with
      | none => exact inner.agrees.map _
      | some text => exact .done _

theorem filterConvert_agrees {arg arg' : Segment} (given : arg.Resembles blames arg') :
    Agrees blames (filterConvert arg) (filterConvert arg') := by
  simp only [filterConvert, filterArgument, given.filterLiteral?_eq]
  cases filterLiteral? arg' with
  | none => exact given.agrees
  | some text => exact .done text

section Children

variable {items items' : List Segment} (each : List.Forall₂ (Segment.Resembles blames) items items')

include each

theorem texts_agrees :
    Agrees blames (texts (partsBy Segment.convert items))
      (texts (partsBy Segment.convert items')) :=
  texts_agree (each.imp fun _ _ given => given.agrees)

theorem chainText_agrees :
    Agrees blames (chainText true (partsBy Segment.convert items))
      (chainText true (partsBy Segment.convert items')) := by
  apply chainText_agree true
  · exact each.imp fun _ _ given => given.separator_eq
  · exact each.imp fun _ _ given => given.agrees

theorem filterText_agrees (name : String) :
    Agrees blames (filterText name (partsBy Segment.convert items))
      (filterText name (partsBy Segment.convert items')) := by
  have empty : (partsBy Segment.convert items).isEmpty =
      (partsBy Segment.convert items').isEmpty := by
    cases each <;> rfl
  simp only [filterText, map_filterArgument_partsBy, empty]
  split
  · exact .done _
  · exact (texts_agree (each.imp fun _ _ => filterConvert_agrees)).map _

theorem plainCall_agrees (name : String) :
    Agrees blames (plainCall name (partsBy Segment.convert items))
      (plainCall name (partsBy Segment.convert items')) := by
  apply (texts_agrees each).andThen
  intro shown
  cases Block.ofCondition? name with
  | none => exact .done _
  | some block => exact .afterEntering block fun _ => .done _

variable (blamed : ∀ kind flaw, blames (s.failure kind flaw) (t.failure kind flaw))

include blamed

/-- The key is read from the second of three children only. -/
theorem pluralizeText_agrees
    (keys : ∀ {count singular plural count' singular' plural' : Segment},
      items = [count, singular, plural] → items' = [count', singular', plural'] →
      phraseKey? singular = phraseKey? singular') :
    Agrees blames (pluralizeText s (partsBy Segment.convert items))
      (pluralizeText t (partsBy Segment.convert items')) := by
  rcases each with _ | ⟨count, _ | ⟨singular, _ | ⟨plural, _ | ⟨_, _⟩⟩⟩⟩
  · exact .fail (blamed _ _)
  · exact .fail (blamed _ _)
  · exact .fail (blamed _ _)
  · simp only [partsBy, List.map, pluralizeText, keys rfl rfl]
    split
    · exact .fail (blamed _ _)
    · exact count.agrees.map _
  · exact .fail (blamed _ _)

theorem loopText_agrees :
    Agrees blames (loopText s (partsBy Segment.convert items))
      (loopText t (partsBy Segment.convert items')) := by
  obtain ⟨rfl, rfl⟩ | ⟨before, last, before', last', rfl, rfl, each, final⟩ :=
    forall₂_concat_cases each
  · exact .fail (blamed _ _)
  · have names : loopVariable? last = loopVariable? last' :=
      final.loneLiteral?_eq "each" (by simp)
    have empty : before.isEmpty = before'.isEmpty := by
      cases each <;> rfl
    simp only [loopText, partsBy, List.map_append, List.map_cons, List.map_nil,
      List.getLast?_append, List.getLast?_singleton, Option.some_or, List.dropLast_concat,
      List.isEmpty_map, final.isCallTo_eq, names, empty]
    split
    · exact .fail (blamed _ _)
    · split
      · exact .fail (blamed _ _)
      · split
        · exact .fail (blamed _ _)
        · apply (chainText_agrees each).andThen
          intro collection
          exact .afterEntering .loop fun _ => .done _

theorem appText_agrees : Agrees blames (appText s items) (appText t items') := by
  have names := findSome?_literal_eq
    (each.imp fun _ _ given => ⟨given.isCallTo_eq "app", given.loneLiteral?_eq "app" (by simp)⟩)
  simp only [appText, names]
  split
  · exact .fail (blamed _ _)
  · exact .done _

end Children

theorem rule_call_agrees (name : String) {args args' : Arguments Segment}
    (blamed : ∀ kind flaw, blames ((Segment.call name args).failure kind flaw)
      ((Segment.call name args').failure kind flaw))
    (each : List.Forall₂ (Segment.Resembles blames) args.toList args'.toList)
    (keys : name = "pluralize" → ∀ {count singular plural count' singular' plural' : Segment},
      args.toList = [count, singular, plural] → args'.toList = [count', singular', plural'] →
      phraseKey? singular = phraseKey? singular') :
    Agrees blames
      (rule (.call name args) (partsBy Segment.convert args.toList))
      (rule (.call name args') (partsBy Segment.convert args'.toList)) := by
  have kind' : (Segment.call name args').kind = (Segment.call name args).kind :=
    (kindOfCall_eq name (each.imp fun _ _ given => given.isSearchForm_eq)).symm
  have kinds := Segment.kind_call_cases name args
  simp only [List.mem_cons, List.not_mem_nil, or_false] at kinds
  rcases kinds with kind | kind | kind | kind | kind | kind | kind | kind
  all_goals
    rw [kind] at kind'
    simp only [rule, kind, kind']
  · have blocks := single?_bind_eq (each.imp fun _ _ given => given.searchBlock?_eq)
    simp only [searchFormText, blocks]
    split
    · exact .fail (blamed _ _)
    · exact .afterEntering _ fun _ => .done _
  · have names := single?_bind_eq (each.imp fun _ _ given => given.literal?_eq)
    simp only [inclusionText, names]
    split
    · exact .fail (blamed _ _)
    · exact .done _
  · exact .done _
  · exact .done _
  · exact pluralizeText_agrees each blamed (keys (eq_pluralize_of_kind kind))
  · exact .afterEntering .learningPathItem fun _ => (texts_agrees each).map _
  · exact filterText_agrees each name
  · exact plainCall_agrees each name

theorem rule_chain_agrees {items items' : List Segment}
    (blamed : ∀ kind flaw, blames ((Segment.chain items).failure kind flaw)
      ((Segment.chain items').failure kind flaw))
    (each : List.Forall₂ (Segment.Resembles blames) items items') :
    Agrees blames (rule (.chain items) (partsBy Segment.convert items))
      (rule (.chain items') (partsBy Segment.convert items')) := by
  have kind' : (Segment.chain items').kind = (Segment.chain items).kind :=
    (kindOfChain_eq (each.imp fun _ _ given => given.isCallTo_eq)).symm
  rcases Segment.kind_chain_cases items with kind | kind | kind
  all_goals
    rw [kind] at kind'
    simp only [rule, kind, kind']
  · exact loopText_agrees each blamed
  · exact appText_agrees each blamed
  · exact chainText_agrees each

end Rules

end Liquefy
