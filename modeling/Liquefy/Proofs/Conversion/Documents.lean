import Liquefy.Conversion.Rules

/-!
# Documents segment by segment

The text of a document is accumulated from the left. `convertEach` keeps the texts of the
top-level segments apart instead, one for each segment, so that it can be said which text comes
from which segment; `convertAll_eq_convertEach` says that nothing else enters the document.
-/

namespace Liquefy

namespace Conversion

variable {α β : Type}

theorem bind_apply (conversion : Conversion α) (next : α → Conversion β) (scopes : Scopes) :
    (conversion >>= next) scopes =
      match conversion scopes with
      | (.ok a, scopes') => next a scopes'
      | (.error failure, scopes') => (.error failure, scopes') := rfl

theorem pure_apply (a : α) (scopes : Scopes) :
    (pure a : Conversion α) scopes = (.ok a, scopes) := rfl

instance : LawfulMonad Conversion := LawfulMonad.mk' Conversion
  (by
    intro α conversion
    funext scopes
    change (conversion >>= pure) scopes = conversion scopes
    rw [bind_apply]
    rcases conversion scopes with ⟨failure | a, after⟩
    · rfl
    · rfl)
  (by
    intro α β a next
    rfl)
  (by
    intro α β γ conversion next last
    funext scopes
    rw [bind_apply, bind_apply, bind_apply]
    rcases conversion scopes with ⟨failure | a, after⟩
    · rfl
    · rfl)

theorem bind_of_ok {conversion : Conversion α} {scopes middle : Scopes} {a : α}
    (first : conversion scopes = (.ok a, middle)) (next : α → Conversion β) :
    (conversion >>= next) scopes = next a middle := by
  rw [bind_apply, first]

theorem bind_of_error {conversion : Conversion α} {scopes after : Scopes} {failure : Failure}
    (failed : conversion scopes = (.error failure, after)) (next : α → Conversion β) :
    (conversion >>= next) scopes = (.error failure, after) := by
  rw [bind_apply, failed]

theorem bind_eq_ok_iff {conversion : Conversion α} {next : α → Conversion β} {b : β}
    {scopes after : Scopes} :
    (conversion >>= next) scopes = (.ok b, after) ↔
      ∃ a middle, conversion scopes = (.ok a, middle) ∧ next a middle = (.ok b, after) := by
  rw [bind_apply]
  match found : conversion scopes with
  | (.ok a, middle) =>
      constructor
      · intro rest
        exact ⟨a, middle, rfl, rest⟩
      · rintro ⟨a', middle', first, rest⟩
        cases first
        exact rest
  | (.error failure, middle) => simp

end Conversion

/-- The texts of top-level segments, each by itself. -/
def convertEach : List Segment → Conversion (List String)
  | [] => pure []
  | segment :: segments => do
      let text ← segment.convertTop
      let texts ← convertEach segments
      pure (text :: texts)

theorem convertOnto_eq_convertEach (done : String) (segments : List Segment) :
    convertOnto done segments =
      convertEach segments >>= fun texts => pure (done ++ String.join texts) := by
  induction segments generalizing done with
  | nil => simp [convertOnto, convertEach]
  | cons segment segments ih =>
      simp only [convertOnto, convertEach, ih, bind_assoc, pure_bind, String.join_cons,
        String.append_assoc]

/-- The text of a document before idioms are replaced is the texts of its segments, joined. -/
theorem convertAll_eq_convertEach (segments : List Segment) :
    convertAll segments = convertEach segments >>= fun texts => pure (String.join texts) := by
  simpa [convertAll] using convertOnto_eq_convertEach "" segments

theorem convertEach_append (first second : List Segment) :
    convertEach (first ++ second) =
      (do
        let texts ← convertEach first
        let texts' ← convertEach second
        pure (texts ++ texts')) := by
  induction first with
  | nil => simp only [List.nil_append, convertEach, pure_bind, bind_pure]
  | cons segment first ih =>
      simp only [List.cons_append, convertEach, ih, bind_assoc, pure_bind]

theorem length_of_convertEach {segments : List Segment} {texts : List String}
    {scopes after : Scopes} (converted : convertEach segments scopes = (.ok texts, after)) :
    texts.length = segments.length := by
  induction segments generalizing texts scopes with
  | nil =>
      cases converted
      rfl
  | cons segment segments ih =>
      obtain ⟨text, middle, -, rest⟩ := Conversion.bind_eq_ok_iff.1 converted
      obtain ⟨texts', after', tail, made⟩ := Conversion.bind_eq_ok_iff.1 rest
      cases made
      simp [ih tail]

theorem convertAll_append (first second : List Segment) :
    convertAll (first ++ second) =
      (do
        let text ← convertAll first
        let text' ← convertAll second
        pure (text ++ text')) := by
  simp only [convertAll_eq_convertEach, convertEach_append, bind_assoc, pure_bind,
    String.join_append]

/-- A document starts with no block open, whatever was open before. -/
theorem Template.convert_apply (template : Template) (scopes : Scopes) :
    template.convert scopes =
      (convertAll template.segments >>= fun text => pure (Idiom.replaceAll text)) .empty := rfl

section Finished

variable {segments : List Segment} {text liquid : String} {failure : Failure} {after : Scopes}

theorem Template.toLiquid_of_ok (converted : convertAll segments .empty = (.ok text, after)) :
    (Template.mk segments).toLiquid = (.ok (Idiom.replaceAll text), after) := by
  rw [toLiquid, convert_apply, Conversion.bind_apply, converted]
  rfl

theorem Template.toLiquid_of_error
    (failed : convertAll segments .empty = (.error failure, after)) :
    (Template.mk segments).toLiquid = (.error failure, after) := by
  rw [toLiquid, convert_apply, Conversion.bind_apply, failed]

/-- A finished document is the joined text with its idioms replaced. -/
theorem Template.convertAll_of_toLiquid
    (converted : (Template.mk segments).toLiquid = (.ok liquid, after)) :
    ∃ text, convertAll segments .empty = (.ok text, after) ∧ liquid = Idiom.replaceAll text := by
  rw [toLiquid, convert_apply] at converted
  obtain ⟨text, middle, first, rest⟩ := Conversion.bind_eq_ok_iff.1 converted
  cases rest
  exact ⟨text, first, rfl⟩

end Finished

end Liquefy
