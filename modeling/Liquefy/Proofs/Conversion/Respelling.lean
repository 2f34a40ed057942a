import Liquefy.Proofs.Conversion.Resemblance
import Mathlib.Logic.Relation

/-!
# Spelling that does not matter

A parser may group the arguments of a call in two ways, keep white space around the sign of an
operator, and tag an operator as it likes. `Segment.Change` is one such change at any depth, and
`Segment.Respelled` any number of them. The rules look at a segment only through views that no
change alters, so respelled segments are converted alike. The proof follows the structure of the
segment and uses `Segment.Alike`, in which all changes happen at once.
-/

namespace Liquefy

open Conversion (Agrees)

/-! ### Changes of the spelling -/

namespace Segment

/-- One change of the spelling, at any depth. -/
inductive Change : Segment → Segment → Prop
  /-- The same arguments are grouped otherwise: none as an empty list, or one as a list of one. -/
  | grouping (name : String) {args args' : Arguments Segment} (same : args.toList = args'.toList) :
      Change (.call name args) (.call name args')
  /-- The sign of an operator has other white space around it. -/
  | sign (tag : OperatorTag) {sign sign' : String} (operand : Segment)
      (same : Text.trim sign = Text.trim sign') :
      Change (.operator tag sign operand) (.operator tag sign' operand)
  /-- An operator has another tag. -/
  | tag (tag tag' : OperatorTag) (sign : String) (operand : Segment) :
      Change (.operator tag sign operand) (.operator tag' sign operand)
  | item (before after : List Segment) {item item' : Segment} (inner : Change item item') :
      Change (.chain (before ++ item :: after)) (.chain (before ++ item' :: after))
  | onlyArgument (name : String) {arg arg' : Segment} (inner : Change arg arg') :
      Change (.call name (.one arg)) (.call name (.one arg'))
  | argument (name : String) (before after : List Segment) {arg arg' : Segment}
      (inner : Change arg arg') :
      Change (.call name (.many (before ++ arg :: after)))
        (.call name (.many (before ++ arg' :: after)))
  | operand (tag : OperatorTag) (sign : String) {operand operand' : Segment}
      (inner : Change operand operand') :
      Change (.operator tag sign operand) (.operator tag sign operand')

/-- The segment arises from the other by any number of changes. -/
def Respelled : Segment → Segment → Prop := Relation.ReflTransGen Change

instance : Trans Respelled Respelled Respelled := ⟨Relation.ReflTransGen.trans⟩

/-- The same segments up to spelling, node by node. -/
inductive Alike : Segment → Segment → Prop
  | text (s : String) : Alike (.text s) (.text s)
  | string (s : String) : Alike (.string s) (.string s)
  | number (digits : String) : Alike (.number digits) (.number digits)
  | chain {items items' : List Segment} (alike : List.Forall₂ Alike items items') :
      Alike (.chain items) (.chain items')
  | reference (name : String) : Alike (.reference name) (.reference name)
  | call (name : String) {args args' : Arguments Segment}
      (alike : List.Forall₂ Alike args.toList args'.toList) :
      Alike (.call name args) (.call name args')
  | ending : Alike .ending .ending
  | operator (tag tag' : OperatorTag) {sign sign' : String} {operand operand' : Segment}
      (same : Text.trim sign = Text.trim sign') (alike : Alike operand operand') :
      Alike (.operator tag sign operand) (.operator tag' sign' operand')

namespace Alike

theorem refl (segment : Segment) : Alike segment segment := by
  induction segment using Segment.induction with
  | step segment ih =>
      cases segment with
      | text s => exact .text s
      | string s => exact .string s
      | number digits => exact .number digits
      | chain items => exact .chain (List.forall₂_same.2 ih)
      | reference name => exact .reference name
      | call name args => exact .call name (List.forall₂_same.2 ih)
      | ending => exact .ending
      | operator tag sign operand => exact .operator tag tag rfl (ih operand (by simp [children]))

theorem forall₂_trans {first second third : List Segment}
    (trans : ∀ s ∈ first, ∀ t u, Alike s t → Alike t u → Alike s u)
    (alike : List.Forall₂ Alike first second) (alike' : List.Forall₂ Alike second third) :
    List.Forall₂ Alike first third := by
  induction alike generalizing third with
  | nil => exact alike'
  | cons head _ ih =>
      obtain ⟨u, others, head', later', rfl⟩ := List.forall₂_cons_left_iff.1 alike'
      apply List.Forall₂.cons
      · exact trans _ (by simp) _ _ head head'
      · exact ih (fun s member => trans s (by simp [member])) later'

theorem trans {s t u : Segment} (alike : Alike s t) (alike' : Alike t u) : Alike s u := by
  induction s using Segment.induction generalizing t u with
  | step s ih =>
      have each : ∀ child ∈ s.children, ∀ t u, Alike child t → Alike t u → Alike child u :=
        fun child member t u => ih child member
      cases alike with
      | chain items =>
          cases alike' with
          | chain items' => exact .chain (forall₂_trans each items items')
      | call name args =>
          cases alike' with
          | call _ args' => exact .call name (forall₂_trans each args args')
      | operator tag tag' same operand =>
          cases alike' with
          | operator _ tag'' same' operand' =>
              apply Alike.operator tag tag'' (same.trans same')
              exact ih _ (by simp [children]) operand operand'
      | _ => exact alike'

theorem of_change {s t : Segment} (change : Change s t) : Alike s t := by
  induction change with
  | grouping name same =>
      apply Alike.call
      rw [same]
      exact List.forall₂_same.2 fun s _ => refl s
  | sign tag operand same => exact .operator tag tag same (refl operand)
  | tag tag tag' sign operand => exact .operator tag tag' rfl (refl operand)
  | item before after _ ih => exact .chain (forall₂_replace refl before after ih)
  | onlyArgument name _ ih => exact .call name (.cons ih .nil)
  | argument name before after _ ih => exact .call name (forall₂_replace refl before after ih)
  | operand tag sign _ ih => exact .operator tag tag rfl ih

end Alike

theorem Respelled.of_forall₂ (build : List Segment → Segment)
    (inside : ∀ (before after : List Segment) {s t : Segment}, Change s t →
      Change (build (before ++ s :: after)) (build (before ++ t :: after)))
    {segments segments' : List Segment} (each : List.Forall₂ Respelled segments segments') :
    Respelled (build segments) (build segments') := by
  -- The children before those of the induction are respelled already.
  suffices onto : ∀ before,
      Respelled (build (before ++ segments)) (build (before ++ segments')) from onto []
  intro before
  induction each generalizing before with
  | nil => exact .refl
  | @cons s t segments segments' head _ ih =>
      have first : Respelled (build (before ++ s :: segments)) (build (before ++ t :: segments)) :=
        head.lift (fun segment => build (before ++ segment :: segments))
          fun _ _ change => inside before segments change
      have rest := ih (before ++ [t])
      simp only [List.append_assoc, List.singleton_append] at rest
      exact first.trans rest

theorem Alike.respelled {s t : Segment} (alike : Alike s t) : Respelled s t := by
  induction s using Segment.induction generalizing t with
  | step s ih =>
      have each {segments : List Segment} (given : List.Forall₂ Alike s.children segments) :
          List.Forall₂ Respelled s.children segments :=
        ((List.forall₂_and_left s.children segments).2
          ⟨fun child member t => ih child member (t := t), given⟩).imp
            fun _ _ both => both.1 _ both.2
      cases alike with
      | chain items => exact .of_forall₂ .chain .item (each items)
      | @call name args args' given =>
          calc
            Respelled (.call name args) (.call name (.many args.toList)) :=
              .single (.grouping name rfl)
            Respelled _ (.call name (.many args'.toList)) :=
              .of_forall₂ (fun segments => .call name (.many segments)) (.argument name)
                (each given)
            Respelled _ (.call name args') := .single (.grouping name rfl)
      | @operator tag tag' sign sign' operand operand' same given =>
          calc
            Respelled (.operator tag sign operand) (.operator tag' sign operand) :=
              .single (.tag tag tag' sign operand)
            Respelled _ (.operator tag' sign' operand) := .single (.sign tag' operand same)
            Respelled _ (.operator tag' sign' operand') :=
              (ih operand (by simp [children]) given).lift (Segment.operator tag' sign')
                fun _ _ change => Change.operand tag' sign' change
      | _ => exact .refl

/-- Any number of changes leaves the segments alike, and alike segments arise by changes. -/
theorem respelled_iff_alike {s t : Segment} : Respelled s t ↔ Alike s t := by
  constructor
  · intro respelled
    induction respelled with
    | refl => exact .refl s
    | tail _ change ih => exact ih.trans (.of_change change)
  · exact Alike.respelled

end Segment

/-! ### What the rules look at -/

/-- The same kind, but for the tag of an operator. -/
def Kind.Alike (kind kind' : Kind) : Prop :=
  kind = kind' ∨ (kind.isOperator = true ∧ kind'.isOperator = true)

namespace Kind.Alike

variable {kind kind' : Kind}

theorem tagStyle_eq (alike : kind.Alike kind') : kind.tagStyle = kind'.tagStyle := by
  obtain rfl | ⟨operator, operator'⟩ := alike
  · rfl
  · have raw {kind : Kind} (operator : kind.isOperator = true) : kind.tagStyle = .raw := by
      cases kind <;> simp [isOperator, tagStyle] at operator ⊢
    rw [raw operator, raw operator']

theorem eq_filter_iff (alike : kind.Alike kind') : kind = .filter ↔ kind' = .filter := by
  obtain rfl | ⟨operator, operator'⟩ := alike
  · rfl
  · have other {kind : Kind} (operator : kind.isOperator = true) : kind ≠ .filter := by
      rintro rfl
      simp [isOperator] at operator
    simp [other operator, other operator']

theorem isOperator_eq (alike : kind.Alike kind') : kind.isOperator = kind'.isOperator := by
  obtain rfl | ⟨operator, operator'⟩ := alike
  · rfl
  · rw [operator, operator']

end Kind.Alike

namespace Segment.Alike

variable {s t : Segment}

theorem literal?_eq (alike : Alike s t) : s.literal? = t.literal? := by
  cases alike <;> rfl

theorem filterLiteral?_eq (alike : Alike s t) : filterLiteral? s = filterLiteral? t := by
  cases alike <;> rfl

theorem searchBlock?_eq (alike : Alike s t) : searchBlock? s = searchBlock? t := by
  cases alike <;> rfl

theorem isSearchForm_eq (alike : Alike s t) : s.isSearchForm = t.isSearchForm := by
  cases alike <;> rfl

theorem isCallTo_eq (alike : Alike s t) (name : String) : s.isCallTo name = t.isCallTo name := by
  cases alike with
  | call called _ =>
      simp only [isCallTo, callTo?]
      split <;> rfl
  | _ => rfl

theorem lone_eq {args args' : Arguments Segment}
    (alike : List.Forall₂ Alike args.toList args'.toList) :
    args.single?.bind Segment.literal? = args'.single?.bind Segment.literal? :=
  single?_bind_eq (alike.imp fun _ _ => literal?_eq)

theorem phraseKey?_eq (alike : Alike s t) : phraseKey? s = phraseKey? t := by
  cases alike with
  | call name args =>
      simp only [phraseKey?, lone_eq args]
  | _ => rfl

theorem loneLiteral?_eq (alike : Alike s t) (name : String) :
    s.loneLiteral? name = t.loneLiteral? name := by
  cases alike with
  | call called args =>
      simp only [loneLiteral?, callTo?]
      split
      · exact lone_eq args
      · rfl
  | _ => rfl

/-- Alike segments are of the same kind, but for the tag of an operator. -/
theorem kind (alike : Alike s t) : s.kind.Alike t.kind := by
  cases alike with
  | chain items =>
      left
      exact kindOfChain_eq (items.imp fun _ _ => isCallTo_eq)
  | call name args =>
      left
      exact kindOfCall_eq name (args.imp fun _ _ => isSearchForm_eq)
  | operator tag tag' same operand => exact .inr ⟨rfl, rfl⟩
  | _ => exact .inl rfl

theorem separator_eq (alike : Alike s t) (atStart : Bool) :
    separator atStart s = separator atStart t := by
  simp only [separator, alike.kind.isOperator_eq]
  by_cases filter : s.kind = .filter
  · rw [if_pos filter, if_pos (alike.kind.eq_filter_iff.1 filter)]
  · rw [if_neg filter, if_neg (mt alike.kind.eq_filter_iff.2 filter)]

theorem looksLike (alike : Alike s t) : s.LooksLike t where
  literal?_eq := alike.literal?_eq
  filterLiteral?_eq := alike.filterLiteral?_eq
  searchBlock?_eq := alike.searchBlock?_eq
  isSearchForm_eq := alike.isSearchForm_eq
  isCallTo_eq := alike.isCallTo_eq
  loneLiteral?_eq name _ := alike.loneLiteral?_eq name
  separator_eq := alike.separator_eq

end Segment.Alike

/-! ### Failures -/

/-- The same failure, up to the spelling of the segment to blame. -/
inductive Failure.Respelled : Failure → Failure → Prop
  | unsupported {s t : Segment} (respelled : s.Respelled t) :
      Respelled (.unsupported s) (.unsupported t)
  | malformed {kind kind' : Kind} (kinds : kind.Alike kind') (reason : String) {s t : Segment}
      (respelled : s.Respelled t) : Respelled (.malformed kind reason s) (.malformed kind' reason t)
  | unbalanced : Respelled .unbalanced .unbalanced

theorem Failure.Respelled.refl (failure : Failure) : Respelled failure failure := by
  cases failure with
  | unsupported segment => exact .unsupported .refl
  | malformed kind reason segment => exact .malformed (.inl rfl) reason .refl
  | unbalanced => exact .unbalanced

theorem Segment.Alike.failure {s t : Segment} (alike : Alike s t) {kind kind' : Kind}
    (kinds : kind.Alike kind') (flaw : Flaw) :
    (s.failure kind flaw).Respelled (t.failure kind' flaw) :=
  .malformed kinds flaw.message alike.respelled

/-- Two segments that are alike and whose conversions agree. -/
structure Segment.Matches (s t : Segment) : Prop where
  alike : s.Alike t
  agrees : Agrees Failure.Respelled s.convert t.convert

theorem Segment.Matches.resembles {s t : Segment} (given : s.Matches t) :
    s.Resembles Failure.Respelled t :=
  ⟨given.alike.looksLike, given.agrees⟩

/-! ### Segments and documents -/

namespace Segment

/-- Alike segments are converted alike. -/
theorem Alike.matches {s t : Segment} (alike : Alike s t) : s.Matches t := by
  refine ⟨alike, ?_⟩
  induction s using Segment.induction generalizing t with
  | step s ih =>
      have each {segments : List Segment} (listed : List.Forall₂ Alike s.children segments) :
          List.Forall₂ (Resembles Failure.Respelled) s.children segments :=
        ((List.forall₂_and_left s.children segments).2
          ⟨fun child member t => ih child member (t := t), listed⟩).imp
            fun _ _ both => Matches.resembles ⟨both.2, both.1 _ both.2⟩
      have blamed {kind kind' : Kind} (kinds : kind.Alike kind') := alike.failure kinds
      rw [convert_eq, convert_eq]
      cases alike with
      | chain listed => exact rule_chain_agrees (fun _ => blamed (.inl rfl)) (each listed)
      | @call name args args' listed =>
          apply rule_call_agrees name (fun _ => blamed (.inl rfl)) (each listed)
          intro _ count singular plural count' singular' plural' three three'
          rw [three, three'] at listed
          obtain ⟨-, alike, -⟩ : _ ∧ singular.Alike singular' ∧ _ := by simpa using listed
          exact alike.phraseKey?_eq
      | @operator tag tag' sign sign' operand operand' same inner =>
          have given : operand.Matches operand' := ⟨inner, ih operand (by simp [children]) inner⟩
          simp only [rule, Segment.kind, children, partsBy, List.map, same]
          exact operatorText_agrees _ (blamed (.inr ⟨rfl, rfl⟩)) given.resembles
      | _ => exact .refl .refl _

theorem Alike.convertTop_agrees {s t : Segment} (alike : Alike s t) :
    Agrees Failure.Respelled s.convertTop t.convertTop := by
  apply alike.matches.agrees.andThen
  intro inner
  rw [Kind.wrap, Kind.wrap, alike.kind.tagStyle_eq]
  exact .done _

end Segment

/-- Respelled segments are of the same kind, but for the tag of an operator. From all open blocks
they are converted alike, in their tag and without it: to the same text, or with the same failure
up to the spelling of the segment that is blamed, and in both cases with the same blocks left
open. The same holds of documents whose segments are respelled one by one. -/
theorem conversion_ignores_spelling :
    (∀ s t : Segment, s.Respelled t →
      s.kind.Alike t.kind ∧
      Agrees Failure.Respelled s.convert t.convert ∧
      Agrees Failure.Respelled s.convertTop t.convertTop) ∧
    ∀ template template' : Template,
      List.Forall₂ Segment.Respelled template.segments template'.segments →
      Agrees Failure.Respelled template.convert template'.convert := by
  constructor
  · intro s t respelled
    have alike := Segment.respelled_iff_alike.1 respelled
    exact ⟨alike.kind, alike.matches.agrees, alike.convertTop_agrees⟩
  · intro template template' each
    apply Template.convert_agree
    exact each.imp fun _ _ respelled => (Segment.respelled_iff_alike.1 respelled).convertTop_agrees

/-- The argument of a condition stands in a list or by itself, and its operator has blanks around
its sign or another tag; in a document an operator of unknown sign follows. -/
theorem condition_respelled :
    Segment.Respelled (.call "if" (.many [.operator .equals " = " (.string "x")]))
        (.call "if" (.one (.operator .add "=" (.string "x")))) ∧
      Segment.convert (.call "if" (.one (.operator .add "=" (.string "x")))) ⟨[.loop]⟩ =
        (.ok "if  == 'x'", ⟨[.conditional, .loop]⟩) ∧
      Agrees Failure.Respelled
        (Template.mk [.call "if" (.many [.operator .equals " = " (.string "x")]),
          .operator .or "? " .ending]).convert
        (Template.mk [.call "if" (.one (.operator .add "=" (.string "x"))),
          .operator .and " ?" .ending]).convert := by
  have condition : Segment.Respelled (.call "if" (.many [.operator .equals " = " (.string "x")]))
      (.call "if" (.one (.operator .add "=" (.string "x")))) :=
    Segment.respelled_iff_alike.2
      (.call "if" (.cons (.operator _ _ (by decide) (.string "x")) .nil))
  have unknown : Segment.Respelled (.operator .or "? " .ending) (.operator .and " ?" .ending) :=
    Segment.respelled_iff_alike.2 (.operator _ _ (by decide) .ending)
  refine ⟨condition, ?_, ?_⟩
  · have answered := (conversion_ignores_spelling.1 _ _ condition).2.1 ⟨[.loop]⟩
    have first : Segment.convert (.call "if" (.many [.operator .equals " = " (.string "x")]))
        ⟨[.loop]⟩ = (.ok "if  == 'x'", ⟨[.conditional, .loop]⟩) := rfl
    rw [first] at answered
    exact answered.eq_of_ok
  · exact conversion_ignores_spelling.2 _ _ (.cons condition (.cons unknown .nil))

end Liquefy
