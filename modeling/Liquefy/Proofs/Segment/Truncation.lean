import Liquefy.Proofs.Json.Truncation
import Liquefy.Proofs.Segment.RoundTrip

/-!
# A truncated document is never accepted

The readers of segments are put together from readers that wait for the rest of a cut text, so they
wait for it too. The arguments of a call are read as a plain tree before anything is made of them,
and a cut inside them is found there.
-/

namespace Liquefy

open Json

section Awaiting

variable {budget : Nat}

theorem arguments_awaits {tree : Tree} (numberless : tree.Numberless) (present : tree ≠ .null) :
    (arguments budget).Awaits budget tree := by
  have checked := (numberless.awaits budget).checked checkArguments
  exact (optional_awaits numberless present checked).map fun args => args.getD .none

theorem referenceRecord_awaits (name : String) :
    (referenceRecord.reader budget).Awaits budget (.object [("name", .string name)]) := by
  apply Record.awaits (.reference name)
  · intro inner _
    exact referenceRecord_fills name
  · intro inner _ member among field found
    obtain rfl := List.mem_singleton.1 among
    cases found
    exact (string_awaits inner name).map _

/-- Arguments that are written at all are neither numbers nor `null`. -/
theorem argumentMembers_present {args : Arguments Segment} {member : String × Tree}
    (among : member ∈ Segment.argumentMembers args) :
    member.1 = "args" ∧ member.2.Numberless ∧ member.2 ≠ .null := by
  cases args with
  | none => cases among
  | one arg =>
      obtain rfl := List.mem_singleton.1 among
      exact ⟨rfl, arg.tree_numberless, by cases arg <;> simp [Segment.tree]⟩
  | many args =>
      obtain rfl := List.mem_singleton.1 among
      rw [Segment.trees_eq_map]
      exact ⟨rfl, Segment.numberless_map_tree fun arg _ => arg.tree_numberless, by simp⟩

theorem callRecord_awaits (name : String) (args : Arguments Segment) :
    ((callRecord (budget - 1)).reader budget).Awaits budget
      (.object (("name", .string name) :: Segment.argumentMembers args)) := by
  apply Record.awaits (.call name args)
  · rintro inner rfl
    exact callRecord_fills_members name args
  · rintro inner rfl ⟨key, tree⟩ among field found
    obtain same | among := List.mem_cons.1 among
    · cases same
      cases found
      exact (string_awaits inner name).map _
    · obtain ⟨rfl, numberless, present⟩ := argumentMembers_present among
      cases found
      exact (arguments_awaits numberless present).map _

theorem operatorRecord_awaits {segment : Reader Segment} {operand : Segment} (tag : OperatorTag)
    (sign : String)
    (restores : ∀ inner, budget = inner + 1 → segment.Restores inner operand.tree operand)
    (awaits : ∀ inner, budget = inner + 1 → segment.Awaits inner operand.tree) :
    ((operatorRecord tag segment).reader budget).Awaits budget
      (.object [("op", .string sign), ("arg", operand.tree)]) := by
  apply Record.awaits (.operator tag sign operand)
  · intro inner deeper
    exact operatorRecord_fills tag sign (restores inner deeper)
  · intro inner deeper member among field found
    obtain rfl | among := List.mem_cons.1 among
    · cases found
      exact (string_awaits inner sign).map _
    · obtain rfl := List.mem_singleton.1 among
      cases found
      exact (awaits inner deeper).map _

/-- A payload waits for its rest if the segments inside its bracket do. -/
theorem payload_awaits {inside : Reader Segment} {segment : Segment}
    (restores : ∀ inner, budget = inner + 1 → ∀ child ∈ segment.children,
      inside.Restores inner child.tree child)
    (awaits : ∀ inner, budget = inner + 1 → ∀ child ∈ segment.children,
      inside.Awaits inner child.tree) (payloaded : segment ≠ .ending) :
    (payload budget inside segment.tag).Awaits budget segment.payloadTree := by
  cases segment with
  | text s => exact (string_awaits budget s).map Segment.text
  | string s => exact (string_awaits budget s).map Segment.string
  | number digits => exact (string_awaits budget digits).map Segment.number
  | chain items =>
      exact (list_awaits Segment.tree items (fun item _ => item.tree_numberless) restores
        awaits).map Segment.chain
  | reference name => exact referenceRecord_awaits name
  | call name args => exact callRecord_awaits name args
  | ending => exact absurd rfl payloaded
  | operator tag sign operand =>
      apply operatorRecord_awaits
      · intro inner deeper
        exact restores inner deeper operand (by simp [Segment.children])
      · intro inner deeper
        exact awaits inner deeper operand (by simp [Segment.children])

theorem Segment.read_awaits (segment : Segment) (budget : Nat) :
    (Segment.read budget).Awaits budget segment.tree := by
  induction segment using Segment.induction generalizing budget with
  | step segment children =>
    obtain ⟨inside, read, nested⟩ := Segment.read_eq budget
    rw [read]
    by_cases ending : segment = .ending
    · subst ending
      exact Variants.awaits_bare _
    · rw [tree_eq_object ending]
      have restored (outer : Nat) (room : budget = outer + 1) (inner : Nat)
          (deeper : outer = inner + 1) : ∀ child ∈ segment.children,
            inside.Restores inner child.tree child := by
        intro child _
        rw [nested inner (by omega)]
        exact child.read_restores inner
      apply Variants.awaits (Tag.ofName?_name segment.tag)
      · rintro outer rfl
        exact payload_restores (restored outer rfl) ending
      · rintro outer rfl
        apply payload_awaits (restored outer rfl) _ ending
        intro inner deeper child member
        rw [nested inner (by omega)]
        exact children child member inner

theorem templateRecord_awaits (template : Template) :
    ((templateRecord (budget - 1)).reader budget).Awaits budget template.tree := by
  rw [Template.tree, Segment.trees_eq_map]
  apply Record.awaits template
  · rintro outer rfl
    exact templateRecord_fills template
  · rintro outer rfl member among field found
    obtain rfl := List.mem_singleton.1 among
    cases found
    refine Reader.Awaits.map ?_ _
    apply list_awaits
    · intro segment _
      exact segment.tree_numberless
    · rintro inner rfl segment _
      exact segment.read_restores inner
    · rintro inner rfl segment _
      exact segment.read_awaits inner

end Awaiting

/-- A template whose text has at most 127 brackets open at a time is decoded from the whole text
only. Wherever the text is cut, what is left of it is refused, and the fault is always that the text
ends too early. -/
theorem truncated_document_never_accepted (template : Template)
    (fits : nesting template.encode ≤ 127) :
    Template.decode template.encode = .ok template ∧
      ∀ front missing : String, front ++ missing = template.encode → missing ≠ "" →
        ∃ place, Template.decode front = .error (.truncated place) := by
  rw [Template.encode, Tree.nesting_text template.tree_numberless] at fits
  refine ⟨Template.decode_encode_of_depth_le fits, ?_⟩
  intro front missing whole cut
  exact decode_of_cut (templateRecord_awaits template) fits whole cut

/-- A document that is cut between the digits of an escape, in a string that is the argument of a
call. -/
theorem truncated_inside_escape_of_argument :
    nesting (Template.mk [.call "f" (.one (.string "\x01"))]).encode ≤ 127 ∧
      "\x7b\"template\":[\x7b\"call\":\x7b\"name\":\"f\",\"args\":\x7b\"string\":\"\\u00" ++
        "01\"\x7d\x7d\x7d]\x7d" =
          (Template.mk [.call "f" (.one (.string "\x01"))]).encode ∧
      ∃ place, Template.decode
        "\x7b\"template\":[\x7b\"call\":\x7b\"name\":\"f\",\"args\":\x7b\"string\":\"\\u00" =
          .error (.truncated place) := by
  have fits : nesting (Template.mk [.call "f" (.one (.string "\x01"))]).encode ≤ 127 := by
    rw [Template.encode, Tree.nesting_text (Template.tree_numberless _)]
    decide
  have whole :
      "\x7b\"template\":[\x7b\"call\":\x7b\"name\":\"f\",\"args\":\x7b\"string\":\"\\u00" ++
        "01\"\x7d\x7d\x7d]\x7d" =
          (Template.mk [.call "f" (.one (.string "\x01"))]).encode := by decide +kernel
  exact ⟨fits, whole, (truncated_document_never_accepted _ fits).2 _ _ whole (by decide)⟩

end Liquefy
