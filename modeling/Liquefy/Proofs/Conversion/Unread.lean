import Liquefy.Proofs.Conversion.Resemblance
import Mathlib.Logic.Relation

/-!
# What no rule reads

Some calls lose their arguments, the plural form of a phrase is never shown, and of a chain that
asks for an app only the first call to `app` counts. Whatever stands in these places can be replaced
by anything: it opens no block, closes none and cannot fail. `Segment.Swap` is one such replacement
at any depth, and `Segment.Swapped` any number of them.

One place is read after all. The key of a phrase is the only argument of the call that is its
singular form, whatever the name of this call, so there the call keeps its arguments.
-/

namespace Liquefy

open Conversion (Agrees)

namespace Segment

/-- A call that is converted by its name alone. -/
def IsNameOnly (name : String) : Prop :=
  name ∈ ["access_course?", "enrolled_in_learning_path?", "enrolled_in_course?", "progress_text"]

theorem isNameOnly_iff {name : String} :
    IsNameOnly name ↔ name = Lexicon.courseAccess ∨ name ∈ Lexicon.enrolmentCalls := by
  rw [← List.mem_cons]
  exact Iff.rfl

/-- The argument between the others gives the key of a phrase: it is the second of three in a
`pluralize`. -/
def GivesKey (name : String) (before after : List Segment) : Prop :=
  name = "pluralize" ∧ before.length = 1 ∧ after.length = 1

/-- One replacement of what no rule reads, at any depth. `isKey` says that the segment gives the
key of a phrase. -/
inductive Swap : (isKey : Prop) → Segment → Segment → Prop
  /-- The arguments of a call that is converted by its name alone, unless it gives a key. -/
  | arguments {isKey : Prop} (free : ¬isKey) {name : String} (nameOnly : IsNameOnly name)
      (args args' : Arguments Segment) : Swap isKey (.call name args) (.call name args')
  /-- The plural form of a phrase. -/
  | plural {isKey : Prop} (count singular plural plural' : Segment) :
      Swap isKey (.call "pluralize" (.many [count, singular, plural]))
        (.call "pluralize" (.many [count, singular, plural']))
  /-- The items around the first call to `app` in a chain that asks for an app. -/
  | app {isKey : Prop} {before after before' after' : List Segment} {call : Segment}
      (asks : (chain (before ++ call :: after)).kind = .app) (called : call.isCallTo "app" = true)
      (first : ∀ item ∈ before, item.isCallTo "app" = false)
      (first' : ∀ item ∈ before', item.isCallTo "app" = false ∧ item.isCallTo "each" = false)
      (noLoop' : ∀ item ∈ after', item.isCallTo "each" = false) :
      Swap isKey (.chain (before ++ call :: after)) (.chain (before' ++ call :: after'))
  | item {isKey : Prop} (before after : List Segment) {item item' : Segment}
      (inner : Swap False item item') :
      Swap isKey (.chain (before ++ item :: after)) (.chain (before ++ item' :: after))
  | onlyArgument {isKey : Prop} (name : String) {arg arg' : Segment}
      (inner : Swap False arg arg') :
      Swap isKey (.call name (.one arg)) (.call name (.one arg'))
  | argument {isKey : Prop} (name : String) (before after : List Segment) {arg arg' : Segment}
      (inner : Swap (GivesKey name before after) arg arg') :
      Swap isKey (.call name (.many (before ++ arg :: after)))
        (.call name (.many (before ++ arg' :: after)))
  | operand {isKey : Prop} (tag : OperatorTag) (sign : String) {operand operand' : Segment}
      (inner : Swap False operand operand') :
      Swap isKey (.operator tag sign operand) (.operator tag sign operand')

/-- The segment arises from the other by any number of replacements. -/
def Swapped : Segment → Segment → Prop := Relation.ReflTransGen (Swap False)

namespace Swap

variable {isKey : Prop} {s t : Segment}

/-- Where a key is not given more may be replaced. -/
theorem free (swap : Swap isKey s t) : Swap False s t := by
  cases swap with
  | arguments _ nameOnly args args' => exact .arguments not_false nameOnly args args'
  | plural count singular plural plural' => exact .plural count singular plural plural'
  | app asks called first first' noLoop' => exact .app asks called first first' noLoop'
  | item before after inner => exact .item before after inner
  | onlyArgument name inner => exact .onlyArgument name inner
  | argument name before after inner => exact .argument name before after inner
  | operand tag sign inner => exact .operand tag sign inner

theorem literal?_eq (swap : Swap isKey s t) : s.literal? = t.literal? := by
  cases swap <;> rfl

theorem isSearchForm_eq (swap : Swap isKey s t) : s.isSearchForm = t.isSearchForm := by
  cases swap <;> rfl

theorem isCallTo_eq (swap : Swap isKey s t) (name : String) :
    s.isCallTo name = t.isCallTo name := by
  have same (called : String) (args args' : Arguments Segment) :
      (call called args).isCallTo name = (call called args').isCallTo name := by
    simp only [isCallTo, callTo?]
    split <;> rfl
  cases swap with
  | arguments => exact same _ _ _
  | plural => exact same _ _ _
  | onlyArgument => exact same _ _ _
  | argument => exact same _ _ _
  | _ => rfl

/-- The argument that is replaced is as much of a literal as before. -/
theorem lone_eq {before after : List Segment} {arg arg' : Segment} (swap : Swap isKey arg arg') :
    (Arguments.many (before ++ arg :: after)).single?.bind Segment.literal? =
      (Arguments.many (before ++ arg' :: after)).single?.bind Segment.literal? :=
  single?_bind_eq (forall₂_replace (R := fun s t => s.literal? = t.literal?) (fun _ => rfl) before
    after swap.literal?_eq)

theorem loneLiteral?_eq (swap : Swap isKey s t) :
    ∀ name ∈ ["each", "app"], s.loneLiteral? name = t.loneLiteral? name := by
  intro name asked
  cases swap with
  | @arguments _ _ called nameOnly =>
      have other : called ≠ name := by
        rintro rfl
        simp only [List.mem_cons, List.not_mem_nil, or_false] at asked
        obtain rfl | rfl := asked
        all_goals simp [IsNameOnly] at nameOnly
      simp only [loneLiteral?, callTo?, if_neg other]
  | plural =>
      have other : "pluralize" ≠ name := by
        rintro rfl
        simp at asked
      simp only [loneLiteral?, callTo?, if_neg other]
  | onlyArgument called inner =>
      simp only [loneLiteral?, callTo?]
      split
      · exact inner.literal?_eq
      · rfl
  | argument called before after inner =>
      simp only [loneLiteral?, callTo?]
      split
      · exact inner.lone_eq
      · rfl
  | _ => rfl

/-- A key is kept. -/
theorem phraseKey?_eq (given : isKey) (swap : Swap isKey s t) : phraseKey? s = phraseKey? t := by
  cases swap with
  | arguments free => exact absurd given free
  | plural => rfl
  | onlyArgument name inner =>
      simp only [phraseKey?, Arguments.single?, Arguments.toList, Option.bind_some,
        inner.literal?_eq]
  | argument name before after inner => simp only [phraseKey?, inner.lone_eq]
  | _ => rfl

end Swap

/-! ### Kinds -/

theorem kindOfCall_of_isNameOnly {name : String} (nameOnly : IsNameOnly name)
    (args : Arguments Segment) :
    kindOfCall name args = if name = Lexicon.courseAccess then .courseAccess else .enrolment := by
  obtain rfl | listed := isNameOnly_iff.1 nameOnly
  · simp [kindOfCall, Lexicon.courseAccess, Lexicon.enrolmentCalls]
  · have other : name ≠ Lexicon.courseAccess := by
      rintro rfl
      simp [Lexicon.courseAccess, Lexicon.enrolmentCalls] at listed
    simp only [Lexicon.enrolmentCalls, List.mem_cons, List.not_mem_nil, or_false] at listed
    rw [if_neg other]
    obtain rfl | rfl | rfl := listed
    all_goals simp [kindOfCall, Lexicon.enrolmentCalls]

theorem kind_chain_eq_app_iff {items : List Segment} :
    (chain items).kind = .app ↔
      (∀ item ∈ items, item.isCallTo "each" = false) ∧ ∃ item ∈ items, item.isCallTo "app" = true := by
  have loops : (∀ item ∈ items, item.isCallTo "each" = false) ↔
      items.any (isCallTo "each") = false := by simp
  rw [loops, ← List.any_eq_true, kind]
  cases items.any (isCallTo "each") <;> cases items.any (isCallTo "app") <;> simp

/-- Replacements keep the kind. -/
theorem Swap.kind_eq {isKey : Prop} {s t : Segment} (swap : Swap isKey s t) : s.kind = t.kind := by
  cases swap with
  | arguments _ nameOnly =>
      simp only [kind, kindOfCall_of_isNameOnly nameOnly]
  | plural => rfl
  | @app _ before after before' after' call asks called first first' noLoop' =>
      obtain ⟨noLoop, -⟩ := kind_chain_eq_app_iff.1 asks
      rw [asks, eq_comm, kind_chain_eq_app_iff]
      refine ⟨fun item listed => ?_, call, by simp, called⟩
      obtain early | rfl | late : item ∈ before' ∨ item = call ∨ item ∈ after' := by
        simpa using listed
      · exact (first' item early).2
      · exact noLoop item (by simp)
      · exact noLoop' item late
  | item before after inner =>
      exact kindOfChain_eq (forall₂_replace (fun _ _ => rfl) before after inner.isCallTo_eq)
  | onlyArgument name inner => exact kindOfCall_eq name (.cons inner.isSearchForm_eq .nil)
  | argument name before after inner =>
      exact kindOfCall_eq name (forall₂_replace (R := fun s t => s.isSearchForm = t.isSearchForm)
        (fun _ => rfl) before after inner.isSearchForm_eq)
  | operand => rfl

theorem Swap.looksLike {isKey : Prop} {s t : Segment} (swap : Swap isKey s t) : s.LooksLike t where
  literal?_eq := swap.literal?_eq
  filterLiteral?_eq := by cases swap <;> rfl
  searchBlock?_eq := by cases swap <;> rfl
  isSearchForm_eq := swap.isSearchForm_eq
  isCallTo_eq := swap.isCallTo_eq
  loneLiteral?_eq := swap.loneLiteral?_eq
  separator_eq atStart := by simp only [separator, swap.kind_eq]

end Segment

/-! ### Failures -/

/-- The same failure, up to replacements in the segment to blame. -/
inductive Failure.Swapped : Failure → Failure → Prop
  | unsupported {s t : Segment} (swapped : s.Swapped t) : Swapped (.unsupported s) (.unsupported t)
  | malformed (kind : Kind) (reason : String) {s t : Segment} (swapped : s.Swapped t) :
      Swapped (.malformed kind reason s) (.malformed kind reason t)
  | unbalanced : Swapped .unbalanced .unbalanced

namespace Failure.Swapped

theorem refl (failure : Failure) : Swapped failure failure := by
  cases failure with
  | unsupported segment => exact .unsupported .refl
  | malformed kind reason segment => exact .malformed kind reason .refl
  | unbalanced => exact .unbalanced

theorem trans {first second third : Failure} (swapped : Swapped first second)
    (swapped' : Swapped second third) : Swapped first third := by
  cases swapped with
  | unsupported inner =>
      cases swapped' with
      | unsupported inner' => exact .unsupported (inner.trans inner')
  | malformed kind reason inner =>
      cases swapped' with
      | malformed _ _ inner' => exact .malformed kind reason (inner.trans inner')
  | unbalanced => exact swapped'

end Failure.Swapped

/-! ### Conversions -/

theorem Segment.convert_of_isNameOnly {name : String} (nameOnly : IsNameOnly name)
    (args : Arguments Segment) :
    (call name args).convert =
      pure (if name = Lexicon.courseAccess then Lexicon.courseAccessNow else name) := by
  have kind := kindOfCall_of_isNameOnly nameOnly args
  simp only [convert_eq, rule, Segment.kind]
  split at kind
  · rename_i access
    simp only [kind, if_pos access]
  · rename_i other
    simp only [kind, if_neg other]

/-- Only the first call to `app` is looked at. -/
theorem findSome?_callTo_app {before : List Segment} {call : Segment}
    (called : call.isCallTo "app" = true) (first : ∀ item ∈ before, item.isCallTo "app" = false)
    (after : List Segment) :
    (before ++ call :: after).findSome? (Segment.callTo? "app") = call.callTo? "app" := by
  have none : before.findSome? (Segment.callTo? "app") = none := by
    simpa [Segment.isCallTo] using first
  obtain ⟨args, found⟩ := Option.isSome_iff_exists.1 called
  simp [List.findSome?_append, none, found]

namespace Segment.Swap

variable {isKey : Prop} {s t : Segment}

theorem failure (swap : Swap isKey s t) (kind : Kind) (flaw : Flaw) :
    (s.failure kind flaw).Swapped (t.failure kind flaw) :=
  .malformed kind flaw.message (.single swap.free)

/-- If one of three arguments is replaced, then either it is the second or the second stays. -/
theorem second_of_replace {before after : List Segment} {arg arg' : Segment}
    {count singular plural count' singular' plural' : Segment}
    (three : before ++ arg :: after = [count, singular, plural])
    (three' : before ++ arg' :: after = [count', singular', plural']) :
    singular = singular' ∨
      (before.length = 1 ∧ after.length = 1 ∧ arg = singular ∧ arg' = singular') := by
  rcases before with _ | ⟨first, _ | ⟨second, before⟩⟩
  · left
    obtain ⟨-, rfl⟩ := List.cons.inj three
    simp_all
  · right
    obtain ⟨-, same⟩ := List.cons.inj three
    obtain ⟨rfl, rfl⟩ := List.cons.inj same
    simp_all
  · left
    simp_all

theorem agrees (swap : Swap isKey s t) : Agrees Failure.Swapped s.convert t.convert := by
  induction swap with
  | arguments free nameOnly args args' =>
      rw [convert_of_isNameOnly nameOnly, convert_of_isNameOnly nameOnly]
      exact .done _
  | plural count singular plural plural' =>
      have blamed := failure (.plural count singular plural plural' : Swap False _ _)
      have always (args : Arguments Segment) : (call "pluralize" args).kind = .pluralize := rfl
      rw [convert_eq, convert_eq]
      simp only [rule, always, children, Arguments.toList, partsBy, List.map,
        pluralizeText]
      cases phraseKey? singular with
      | none => exact .fail (blamed _ _)
      | some key => exact (Agrees.refl .refl _).map _
  | @app _ before after before' after' call asks called first first' noLoop' =>
      have swap : Swap False _ _ := .app asks called first first' noLoop'
      have asks' := swap.kind_eq ▸ asks
      have found := findSome?_callTo_app called first after
      have found' := findSome?_callTo_app called (fun item early => (first' item early).1) after'
      simp only [convert_eq, rule, asks, asks', appText, found, found']
      split
      · exact .fail (swap.failure _ _)
      · exact .done _
  | item before after inner ih =>
      have blamed := failure (.item before after inner : Swap False _ _)
      have given : Resembles Failure.Swapped _ _ := ⟨inner.looksLike, ih⟩
      rw [convert_eq, convert_eq]
      exact rule_chain_agrees blamed (forall₂_replace (Resembles.refl .refl) before after given)
  | onlyArgument name inner ih =>
      have blamed := failure (.onlyArgument name inner : Swap False _ _)
      have given : Resembles Failure.Swapped _ _ := ⟨inner.looksLike, ih⟩
      rw [convert_eq, convert_eq]
      apply rule_call_agrees name blamed (.cons given .nil)
      intro _ _ _ _ _ _ _ three
      simp [Arguments.toList] at three
  | argument name before after inner ih =>
      have blamed := failure (.argument name before after inner : Swap False _ _)
      have given : Resembles Failure.Swapped _ _ := ⟨inner.looksLike, ih⟩
      rw [convert_eq, convert_eq]
      apply rule_call_agrees name blamed (forall₂_replace (Resembles.refl .refl) before after given)
      intro plural _ _ _ _ _ _ three three'
      obtain same | ⟨one, one', rfl, rfl⟩ := second_of_replace three three'
      · rw [same]
      · exact inner.phraseKey?_eq ⟨plural, one, one'⟩
  | operand tag sign inner ih =>
      have blamed := failure (.operand tag sign inner : Swap False _ _)
      have given : Resembles Failure.Swapped _ _ := ⟨inner.looksLike, ih⟩
      rw [convert_eq, convert_eq]
      simp only [rule, Segment.kind, children, partsBy, List.map]
      exact operatorText_agrees _ (blamed _) given

end Segment.Swap

namespace Segment.Swapped

variable {s t : Segment}

theorem kind_eq (swapped : s.Swapped t) : s.kind = t.kind := by
  induction swapped with
  | refl => rfl
  | tail _ swap ih => exact ih.trans swap.kind_eq

theorem agrees (swapped : s.Swapped t) : Agrees Failure.Swapped s.convert t.convert := by
  induction swapped with
  | refl => exact .refl .refl _
  | tail _ swap ih => exact ih.trans .trans swap.agrees

theorem convertTop_agrees (swapped : s.Swapped t) :
    Agrees Failure.Swapped s.convertTop t.convertTop := by
  apply swapped.agrees.andThen
  intro inner
  rw [swapped.kind_eq]
  exact .done _

end Segment.Swapped

/-- Whatever stands where no rule reads is inert. If one segment arises from another by replacements
in such places, then from all open blocks the two are converted alike, in their tag and without it:
to the same text, or with the same failure up to such replacements in the segment that is blamed,
and in both cases with the same blocks left open. The same holds of documents whose segments arise
from one another one by one. -/
theorem unread_segments_are_inert :
    (∀ s t : Segment, s.Swapped t →
      Agrees Failure.Swapped s.convert t.convert ∧
      Agrees Failure.Swapped s.convertTop t.convertTop) ∧
    ∀ template template' : Template,
      List.Forall₂ Segment.Swapped template.segments template'.segments →
      Agrees Failure.Swapped template.convert template'.convert := by
  constructor
  · intro s t swapped
    exact ⟨swapped.agrees, swapped.convertTop_agrees⟩
  · intro template template' each
    apply Template.convert_agree
    exact each.imp fun _ _ swapped => swapped.convertTop_agrees

/-- A condition on a call that loses its arguments, among them the end of a block; another such
call, which loses a condition; a phrase whose plural form is the end of a block; and a chain that
asks for an app between a condition and an operator of unknown sign. -/
theorem unread_segments_are_inert_endings :
    Segment.Swapped (.call "if" (.one (.call "access_course?" (.many [.ending, .ending]))))
        (.call "if" (.one (.call "access_course?" .none))) ∧
      Segment.convert (.call "if" (.one (.call "access_course?" .none))) ⟨[.loop]⟩ =
        (.ok "if enrolled_in_course?", ⟨[.conditional, .loop]⟩) ∧
      Agrees Failure.Swapped
        (Template.mk [.call "if" (.one (.call "access_course?" (.many [.ending, .ending]))),
          .call "progress_text" (.one (.call "if" .none)),
          .call "pluralize" (.many [.number "2", .call "t" (.one (.string "a.b")), .ending]),
          .chain [.call "if" .none, .call "app" .none, .operator .or "?" .ending]]).convert
        (Template.mk [.call "if" (.one (.call "access_course?" .none)),
          .call "progress_text" (.many [.string "x"]),
          .call "pluralize" (.many [.number "2", .call "t" (.one (.string "a.b")), .chain []]),
          .chain [.call "app" .none]]).convert := by
  have condition :
      Segment.Swapped (.call "if" (.one (.call "access_course?" (.many [.ending, .ending]))))
        (.call "if" (.one (.call "access_course?" .none))) :=
    .single (.onlyArgument "if" (.arguments not_false (by simp [Segment.IsNameOnly]) _ _))
  have progress : Segment.Swapped (.call "progress_text" (.one (.call "if" .none)))
      (.call "progress_text" (.many [.string "x"])) :=
    .single (.arguments not_false (by simp [Segment.IsNameOnly]) _ _)
  have phrase : Segment.Swapped _ _ :=
    .single (.plural (.number "2") (.call "t" (.one (.string "a.b"))) .ending (.chain []))
  have asking : Segment.Swapped
      (.chain ([.call "if" .none] ++ .call "app" .none :: [.operator .or "?" .ending]))
      (.chain ([] ++ .call "app" .none :: [])) :=
    .single (.app rfl rfl (by simp [Segment.isCallTo, Segment.callTo?]) (by simp) (by simp))
  refine ⟨condition, ?_, ?_⟩
  · have answered := (unread_segments_are_inert.1 _ _ condition).1 ⟨[.loop]⟩
    have first : Segment.convert
        (.call "if" (.one (.call "access_course?" (.many [.ending, .ending])))) ⟨[.loop]⟩ =
        (.ok "if enrolled_in_course?", ⟨[.conditional, .loop]⟩) := rfl
    rw [first] at answered
    exact answered.eq_of_ok
  · exact unread_segments_are_inert.2 _ _
      (.cons condition (.cons progress (.cons phrase (.cons asking .nil))))

end Liquefy
