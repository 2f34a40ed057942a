import Liquefy.Proofs.Conversion.Documents
import Liquefy.Proofs.Idiom.Replacing

/-!
# Idioms do not come back

What replaces an idiom could form an idiom again, by itself or with the text around it. It does
not: no occurrence reaches into a replacement from the left and none begins in one, so every
occurrence in the finished text would lie in a gap, where there is none. Hence the texts that stay
as they are are those without idioms, and every finished text is one of them.
-/

namespace Liquefy.Idiom

section Quiet

variable {pattern text text' rest : List Char}

theorem Quiet.append (first : Quiet pattern text (text' ++ rest)) (second : Quiet pattern text' rest) :
    Quiet pattern (text ++ text') rest := by
  intro tail suffix nonempty
  obtain later | ⟨front, rfl⟩ :=
    List.suffix_or_suffix_of_suffix suffix (List.suffix_append text text')
  · exact second tail later nonempty
  · by_cases empty : front = []
    · subst empty
      exact second text' List.suffix_rfl nonempty
    · have inside : front <:+ text := by
        obtain ⟨before, whole⟩ := suffix
        rw [← List.append_assoc] at whole
        exact ⟨before, List.append_cancel_right whole⟩
      rw [List.append_assoc]
      exact first front inside empty

theorem Quiet.not_infix (nonempty : pattern ≠ []) (quiet : Quiet pattern text []) :
    ¬ pattern <:+: text := by
  rintro ⟨before, after, rfl⟩
  have suffix : pattern ++ after <:+ before ++ pattern ++ after := by
    rw [List.append_assoc]
    exact List.suffix_append before (pattern ++ after)
  apply quiet (pattern ++ after) suffix
  · simp [nonempty]
  · rw [List.append_nil]
    exact List.prefix_append pattern after

end Quiet

/-- No occurrence of the idiom reaches into the piece from the left or begins in it. -/
def Spares (idiom : Idiom) (piece : String) : Prop :=
  Shielded idiom.pattern.toList piece.toList ∧ Clear idiom.pattern.toList piece.toList

instance (idiom : Idiom) (piece : String) : Decidable (idiom.Spares piece) :=
  inferInstanceAs (Decidable (_ ∧ _))

/-- Between pieces that are spared, a text without the idiom in its gaps is without it. -/
theorem quiet_spread {idiom : Idiom} {piece : Idiom → String} {gap : String}
    {pieces : List (Idiom × String)}
    (spares : ∀ other ∈ pieces.map Prod.fst, idiom.Spares (piece other))
    (absent : ∀ text ∈ gap :: pieces.map Prod.snd, ¬ idiom.Occurs text) :
    Quiet idiom.pattern.toList (spread piece gap pieces).toList [] := by
  induction pieces generalizing gap with
  | nil =>
      apply quiet_nil
      exact mt occurs_iff_infix.2 (absent gap (by simp))
  | cons first more ih =>
      obtain ⟨other, next⟩ := first
      obtain ⟨shielded, clear⟩ := spares other (by simp)
      have later : Quiet idiom.pattern.toList (spread piece next more).toList [] := by
        apply ih
        · intro another member
          exact spares another (by simp [member])
        · intro text member
          exact absent text (List.mem_cons_of_mem gap member)
      have here : ¬ idiom.pattern.toList <:+: gap.toList :=
        mt occurs_iff_infix.2 (absent gap (by simp))
      -- From left to right: nothing that begins in the gap gets past it, because the piece is
      -- shielded; nothing begins in the piece, because it is clear; the rest is by induction.
      rw [spread, String.toList_append, String.toList_append]
      apply Quiet.append
      · rw [List.append_nil]
        exact shielded.quiet here _
      · apply Quiet.append
        · exact clear.quiet _
        · exact later

theorem spares_replacement {idiom other : Idiom} (known : idiom ∈ all) (known' : other ∈ all) :
    idiom.Spares other.replacement := by
  have checked : all.all (fun idiom => all.all fun other => idiom.Spares other.replacement) := by
    decide +kernel
  have each := List.all_eq_true.1 checked idiom known
  exact of_decide_eq_true (List.all_eq_true.1 each other known')

theorem pattern_ne_nil {idiom : Idiom} (known : idiom ∈ all) : idiom.pattern.toList ≠ [] := by
  apply List.length_pos_iff.1
  rw [String.length_toList]
  exact length_pattern_pos known

theorem not_occurs_replaceAll (text : String) {idiom : Idiom} (known : idiom ∈ all) :
    ¬ idiom.Occurs (replaceAll text) := by
  obtain ⟨gap, pieces, cut, rfl⟩ := exists_spread text
  have quiet : Quiet idiom.pattern.toList (spread replacement gap pieces).toList [] := by
    apply quiet_spread
    · intro other member
      exact spares_replacement known (cut.known other member)
    · intro text member
      exact cut.absent text member idiom known
  rw [replaceAll_spread cut, occurs_iff_infix]
  exact quiet.not_infix (pattern_ne_nil known)

/-- Passes for idioms that do not occur change nothing. -/
theorem foldl_replace_of_absent {idioms : List Idiom} {text : String}
    (nonempty : ∀ idiom ∈ idioms, idiom.pattern.toList ≠ [])
    (absent : ∀ idiom ∈ idioms, ¬ idiom.Occurs text) :
    idioms.foldl (fun text idiom => idiom.replace text) text = text := by
  induction idioms with
  | nil => rfl
  | cons idiom idioms ih =>
      rw [List.foldl_cons, replace_of_not_occurs (nonempty idiom (by simp)) (absent idiom (by simp))]
      apply ih
      · intro other member
        exact nonempty other (List.mem_cons_of_mem idiom member)
      · intro other member
        exact absent other (List.mem_cons_of_mem idiom member)

theorem replaceAll_eq_self_iff {text : String} :
    replaceAll text = text ↔ ∀ idiom ∈ all, ¬ idiom.Occurs text := by
  constructor
  · intro same idiom known
    rw [← same]
    exact not_occurs_replaceAll text known
  · intro absent
    exact foldl_replace_of_absent (fun _ => pattern_ne_nil) absent

/-- No idiom is left in a text in which idioms have been replaced, so replacing them again changes
nothing: the texts that stay as they are are those without idioms. In particular no finished
document has an idiom in it, however its segments meet. -/
theorem idioms_removed_for_good :
    (∀ text, ∀ idiom ∈ all, ¬ idiom.Occurs (replaceAll text)) ∧
    (∀ text, replaceAll (replaceAll text) = replaceAll text) ∧
    (∀ text, replaceAll text = text ↔ ∀ idiom ∈ all, ¬ idiom.Occurs text) ∧
    ∀ (template : Template) (scopes after : Scopes) (liquid : String),
      template.convert scopes = (.ok liquid, after) → ∀ idiom ∈ all, ¬ idiom.Occurs liquid := by
  refine ⟨?_, ?_, ?_, ?_⟩
  · intro text idiom known
    exact not_occurs_replaceAll text known
  · intro text
    apply replaceAll_eq_self_iff.2
    intro idiom known
    exact not_occurs_replaceAll text known
  · intro text
    exact replaceAll_eq_self_iff
  · intro template scopes after liquid converted idiom known
    rw [Template.convert_apply] at converted
    obtain ⟨text, middle, -, finished⟩ := Conversion.bind_eq_ok_iff.1 converted
    cases finished
    exact not_occurs_replaceAll text known

/-- A document whose segments only together make up an idiom. -/
def splitClass : Template where
  segments := [.text "class=\"", .reference "no_filter_selected_class", .text "\""]

/-- An idiom that reaches over the bounds of segments is replaced, and none is left. -/
theorem idioms_removed_for_good_across_segments :
    (∃ text, convertAll splitClass.segments .empty = (.ok text, .empty) ∧
      unfilteredClass.Occurs text) ∧
    splitClass.convert .empty = (.ok "class=\"uk-text-bold\"", .empty) ∧
    ¬ unfilteredClass.Occurs "class=\"uk-text-bold\"" := by
  have joined : convertAll splitClass.segments .empty =
      (.ok (spread pattern "" [(unfilteredClass, "")]), .empty) := rfl
  have cut : Cut "" [(unfilteredClass, "")] := by
    refine ⟨by simp [all], ?_⟩
    simp only [all, List.map_cons, List.map_nil, List.forall_mem_cons]
    decide +kernel
  have converted : splitClass.convert .empty = (.ok "class=\"uk-text-bold\"", .empty) := by
    rw [Template.convert_apply, Conversion.bind_of_ok joined, replaceAll_spread cut]
    rfl
  refine ⟨⟨_, joined, "", "", rfl⟩, converted, ?_⟩
  exact idioms_removed_for_good.2.2.2 _ _ _ _ converted _ (by simp [all])

end Liquefy.Idiom
