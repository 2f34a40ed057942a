import Liquefy.Proofs.Conversion.Tracing
import Mathlib.Data.List.Forall2

/-!
# Conversions that agree

Two conversions agree if they answer alike from all open blocks: both succeed with the same
result, or both fail, and they leave the same blocks open. How far the two failures may differ is
left open: `blames` says which failures answer to one another. Agreement passes through every way
in which the rules put conversions together.
-/

namespace Liquefy

namespace Conversion

variable {α β : Type} {blames : Failure → Failure → Prop}

/-- Two answers with the same open blocks and the same result, or with failures that answer to one
another. -/
inductive Alike (blames : Failure → Failure → Prop) :
    Except Failure α × Scopes → Except Failure α × Scopes → Prop
  | ok (a : α) (after : Scopes) : Alike blames (.ok a, after) (.ok a, after)
  | error {failure failure' : Failure} (blamed : blames failure failure') (after : Scopes) :
      Alike blames (.error failure, after) (.error failure', after)

theorem Alike.eq_of_ok {a : α} {after : Scopes} {answer : Except Failure α × Scopes}
    (alike : Alike blames (.ok a, after) answer) : answer = (.ok a, after) := by
  cases alike
  rfl

/-- From all open blocks the two conversions answer alike. -/
def Agrees (blames : Failure → Failure → Prop) (first second : Conversion α) : Prop :=
  ∀ scopes, Alike blames (first scopes) (second scopes)

theorem Agrees.refl (same : ∀ failure, blames failure failure) (conversion : Conversion α) :
    Agrees blames conversion conversion := by
  intro scopes
  rcases conversion scopes with ⟨failure | a, after⟩
  · exact .error (same failure) after
  · exact .ok a after

theorem Agrees.trans (chained : ∀ {failure failure' failure'' : Failure}, blames failure failure' →
      blames failure' failure'' → blames failure failure'') {first second third : Conversion α}
    (agree : Agrees blames first second) (agree' : Agrees blames second third) :
    Agrees blames first third := by
  intro scopes
  have answered := agree scopes
  have answered' := agree' scopes
  generalize first scopes = answer at answered ⊢
  generalize second scopes = answer' at answered answered'
  generalize third scopes = answer'' at answered' ⊢
  cases answered with
  | ok a after => exact answered'
  | error blamed after =>
      cases answered' with
      | error blamed' after => exact .error (chained blamed blamed') after

theorem Agrees.done (a : α) : Agrees blames (pure a) (pure a) := by
  intro scopes
  exact .ok a scopes

theorem Agrees.fail {failure failure' : Failure} (blamed : blames failure failure') :
    Agrees blames (Conversion.fail failure : Conversion α) (Conversion.fail failure') := by
  intro scopes
  exact .error blamed scopes

theorem Agrees.andThen {first second : Conversion α} {next next' : α → Conversion β}
    (agree : Agrees blames first second) (rest : ∀ a, Agrees blames (next a) (next' a)) :
    Agrees blames (first >>= next) (second >>= next') := by
  intro scopes
  have answered := agree scopes
  rw [bind_apply, bind_apply]
  generalize first scopes = answer at answered ⊢
  generalize second scopes = answer' at answered ⊢
  cases answered with
  | ok a after => exact rest a after
  | error blamed after => exact .error blamed after

/-- What is made of the same result is the same. -/
theorem Agrees.map {first second : Conversion α} (agree : Agrees blames first second) (f : α → β) :
    Agrees blames (first >>= fun a => pure (f a)) (second >>= fun a => pure (f a)) :=
  agree.andThen fun a => .done (f a)

/-- What comes before plays no part if it cannot fail. -/
theorem Agrees.afterEntering (block : Block) {next next' : Unit → Conversion β}
    (rest : ∀ a, Agrees blames (next a) (next' a)) :
    Agrees blames (enter block >>= next) (enter block >>= next') := by
  intro scopes
  exact rest () (scopes.push block)

end Conversion

open Conversion (Agrees)

/-- Lists that match are both empty, or they match in their last items and in all before. -/
theorem forall₂_concat_cases {α : Type} {R : α → α → Prop} {items items' : List α}
    (each : List.Forall₂ R items items') :
    (items = [] ∧ items' = []) ∨
      ∃ before last before' last', items = before ++ [last] ∧ items' = before' ++ [last'] ∧
        List.Forall₂ R before before' ∧ R last last' := by
  induction each with
  | nil => exact .inl ⟨rfl, rfl⟩
  | @cons item item' _ _ head _ ih =>
      right
      obtain ⟨rfl, rfl⟩ | ⟨before, last, before', last', rfl, rfl, each, final⟩ := ih
      · exact ⟨[], item, [], item', rfl, rfl, .nil, head⟩
      · exact ⟨item :: before, last, item' :: before', last', rfl, rfl, .cons head each, final⟩

section Lists

variable {blames : Failure → Failure → Prop} {convert convert' : Segment → Conversion String}
  {segments segments' : List Segment}

theorem texts_agree
    (agree : List.Forall₂ (fun s t => Agrees blames (convert s) (convert' t)) segments segments') :
    Agrees blames (texts (partsBy convert segments)) (texts (partsBy convert' segments')) := by
  induction agree with
  | nil => exact .done []
  | cons first _ ih =>
      apply first.andThen
      intro text
      exact ih.map (text :: ·)

theorem chainText_agree (atStart : Bool)
    (separators : List.Forall₂ (fun s t => ∀ start, separator start s = separator start t)
      segments segments')
    (agree : List.Forall₂ (fun s t => Agrees blames (convert s) (convert' t)) segments segments') :
    Agrees blames (chainText atStart (partsBy convert segments))
      (chainText atStart (partsBy convert' segments')) := by
  induction agree generalizing atStart with
  | nil => exact .done ""
  | @cons segment segment' _ _ first _ ih =>
      obtain ⟨same, later⟩ := List.forall₂_cons.1 separators
      apply first.andThen
      intro text
      apply (ih false later).andThen
      intro rest
      rw [same atStart]
      exact .done _

theorem convertOnto_agree (done : String)
    (agree : List.Forall₂ (fun s t => Agrees blames s.convertTop t.convertTop)
      segments segments') :
    Agrees blames (convertOnto done segments) (convertOnto done segments') := by
  induction agree generalizing done with
  | nil => exact .done done
  | cons first _ ih =>
      apply first.andThen
      intro text
      exact ih (done ++ text)

end Lists

/-- Documents agree if their top-level segments do. -/
theorem Template.convert_agree {blames : Failure → Failure → Prop} {template template' : Template}
    (agree : List.Forall₂ (fun s t => Agrees blames s.convertTop t.convertTop)
      template.segments template'.segments) :
    Agrees blames template.convert template'.convert := by
  have converted : Agrees blames (convertAll template.segments) (convertAll template'.segments) :=
    convertOnto_agree "" agree
  intro scopes
  rw [Template.convert_apply, Template.convert_apply]
  exact converted.map Idiom.replaceAll .empty

end Liquefy
