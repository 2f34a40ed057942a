import Liquefy.Diagnostic.Reading
import Liquefy.Proofs.Json.RecordMeaning
import Liquefy.Proofs.Json.Written
import Liquefy.Proofs.Segment.Acceptance

/-!
# Diagnostics survive the exchange

A diagnostic is read back from its members in whatever order they stand, and a member that is
`null` may as well be left out. The draft of a record under way is the diagnostic itself, as far as
it has been heard: `Diagnostic.heard` says so, and every member that comes for the first time leads
from one such draft to the next.
-/

namespace Liquefy

open Json

/-! ### What the fields take -/

theorem shortNumber_means :
    shortNumber.Means fun outline code =>
      ∃ n, outline = .number (some n) ∧ checkShort n = .ok code := by
  intro cs code rest
  rw [shortNumber, Reader.byFirst_eq_ok_iff]
  constructor
  · rintro ⟨c, cs', begins, read⟩
    split at read
    · rename_i minus
      subst minus
      obtain ⟨n, digits, short⟩ := Result.checked_eq_ok_iff.1 read
      exact ⟨_, Outline.spelled_number_iff.2 (.inl ⟨cs', begins, digits⟩), n, rfl, short⟩
    · split at read
      · obtain ⟨n, digits, short⟩ := Result.checked_eq_ok_iff.1 read
        rw [← begins] at digits
        exact ⟨_, Outline.spelled_number_iff.2 (.inr digits), n, rfl, short⟩
      · simp at read
  · rintro ⟨outline, spelled, n, rfl, short⟩
    obtain ⟨cs', minus, digits⟩ | digits := Outline.spelled_number_iff.1 spelled
    · exact ⟨'-', cs', minus, Result.checked_eq_ok_iff.2 ⟨n, digits, short⟩⟩
    · obtain ⟨spelling, scanned, -⟩ := numeral_eq_ok_iff.1 digits
      obtain ⟨c, cs', begins, digit⟩ := head_of_scanNumeral scanned
      refine ⟨c, cs', begins, ?_⟩
      rw [if_neg (ne_of_isDigit digit (by decide)), if_pos digit, ← begins]
      exact Result.checked_eq_ok_iff.2 ⟨n, digits, short⟩

theorem checkShort_toNat (code : UInt16) : checkShort (.integer code.toNat) = .ok code := by
  have short : (0 : Int) ≤ code.toNat ∧ (code.toNat : Int) < 65536 := by
    have bound := code.toNat_lt
    omega
  rw [checkShort, if_pos short, Int.toNat_natCast]
  exact congrArg Except.ok UInt16.ofNat_toNat

theorem ofName?_name (severity : Severity) : Severity.ofName? severity.name = some severity := by
  cases severity <;> decide

/-- The severity that a value stands for. -/
def SeverityMeaning (budget : Nat) (outline : Outline) (severity : Severity) : Prop :=
  (∃ name tag, outline = .string (some name) ∧ severityVariants.ofName? name = some tag ∧
      severityVariants.bare tag = .ok severity) ∨
    (0 < budget ∧ ∃ name tag payload, outline = .object [(some name, payload)] ∧
      severityVariants.ofName? name = some tag ∧ payload = .null ∧ tag = severity)

/-- The string that a value stands for, unless it is `null`. -/
def OptionalMeaning (outline : Outline) (found : Option String) : Prop :=
  (outline = .null ∧ found = none) ∨
    (outline ≠ .null ∧ ∃ s, outline = .string (some s) ∧ found = some s)

/-- What the field of the given name enters into the draft of a diagnostic. -/
def entersNamed (budget : Nat) (name : String) (outline : Outline)
    (enter : DiagnosticDraft → DiagnosticDraft) : Prop :=
  if name = "severity" then
    ∃ severity, SeverityMeaning budget outline severity ∧
      (fun draft => { draft with severity := some severity }) = enter
  else if name = "code" then
    ∃ code, (∃ short, (∃ n, outline = .number (some n) ∧ checkShort n = .ok short) ∧
        Code.mk short = code) ∧
      (fun draft => { draft with code := some code }) = enter
  else if name = "message" then
    ∃ message, outline = .string (some message) ∧
      (fun draft => { draft with message := some message }) = enter
  else if name = "subject" then
    ∃ subject, OptionalMeaning outline subject ∧
      (fun draft => { draft with subject := some subject }) = enter
  else
    ∃ help, OptionalMeaning outline help ∧
      (fun draft => { draft with help := some help }) = enter

theorem diagnosticFields_means (budget : Nat) :
    ∀ field ∈ diagnosticFields budget, field.read.Means (entersNamed budget field.name) := by
  have severity := severityVariants.reader_means (fun tag => null_means tag) budget
  simp only [diagnosticFields, List.forall_mem_cons, List.not_mem_nil, false_imp_iff, implies_true,
    and_true]
  exact ⟨severity.map _, (shortNumber_means.map Code.mk).map _, string_means.map _,
    (optional_means string_means).map _, (optional_means string_means).map _⟩

/-! ### Members in any order -/

namespace Diagnostic

/-- The members of a diagnostic with every field written. -/
def members (diagnostic : Diagnostic) : List (String × Tree) :=
  [("severity", .string diagnostic.severity.name),
   ("code", .number (.integer diagnostic.code.number.toNat)),
   ("message", .string diagnostic.message),
   ("subject", treeOfOption diagnostic.subject),
   ("help", treeOfOption diagnostic.help)]

theorem tree_eq (diagnostic : Diagnostic) : diagnostic.tree = .object diagnostic.members := rfl

/-- The draft that has heard of these keys. -/
def heard (diagnostic : Diagnostic) (keys : List String) : DiagnosticDraft where
  severity := if "severity" ∈ keys then some diagnostic.severity else none
  code := if "code" ∈ keys then some diagnostic.code else none
  message := if "message" ∈ keys then some diagnostic.message else none
  subject := if "subject" ∈ keys then some diagnostic.subject else none
  help := if "help" ∈ keys then some diagnostic.help else none

theorem optionalMeaning_treeOfOption (found : Option String) :
    OptionalMeaning (treeOfOption found).outline found := by
  cases found with
  | none => exact .inl ⟨rfl, rfl⟩
  | some s => exact .inr ⟨by simp [treeOfOption, Tree.outline], s, rfl, rfl⟩

/-- What a member of the diagnostic enters into the draft is heard. -/
theorem enters_heard (diagnostic : Diagnostic) (budget : Nat) {key : String} {value : Tree}
    (given : (key, value) ∈ diagnostic.members) :
    ∃ enter, entersNamed budget key value.outline enter ∧
      ∀ keys, enter (diagnostic.heard keys) = diagnostic.heard (key :: keys) := by
  simp only [members, List.mem_cons, Prod.mk.injEq, List.not_mem_nil, or_false] at given
  obtain ⟨rfl, rfl⟩ | ⟨rfl, rfl⟩ | ⟨rfl, rfl⟩ | ⟨rfl, rfl⟩ | ⟨rfl, rfl⟩ := given
  · exact ⟨_, ⟨diagnostic.severity, .inl ⟨_, _, rfl, ofName?_name _, rfl⟩, rfl⟩,
      fun keys => by simp [heard]⟩
  · exact ⟨_, ⟨diagnostic.code, ⟨_, ⟨_, rfl, checkShort_toNat _⟩, rfl⟩, rfl⟩,
      fun keys => by simp [heard]⟩
  · exact ⟨_, ⟨diagnostic.message, rfl, rfl⟩, fun keys => by simp [heard]⟩
  · exact ⟨_, ⟨diagnostic.subject, optionalMeaning_treeOfOption _, rfl⟩,
      fun keys => by simp [heard]⟩
  · exact ⟨_, ⟨diagnostic.help, optionalMeaning_treeOfOption _, rfl⟩,
      fun keys => by simp [heard]⟩

/-- A key is heard of once. -/
theorem takes_heard (diagnostic : Diagnostic) (budget : Nat) {key : String} {value : Tree}
    {keys : List String} (given : (key, value) ∈ diagnostic.members) (new : key ∉ keys) :
    (diagnosticRecord budget).Takes (entersNamed budget) (diagnostic.heard keys) key value.outline
      (diagnostic.heard (key :: keys)) := by
  obtain ⟨enter, enters, entered⟩ := diagnostic.enters_heard budget given
  have known : ∃ field, (diagnosticFields budget).find? (fun field => field.name == key) =
      some field ∧ field.name = key ∧ field.isSet (diagnostic.heard keys) = false := by
    simp only [members, List.mem_cons, Prod.mk.injEq, List.not_mem_nil, or_false] at given
    obtain ⟨rfl, -⟩ | ⟨rfl, -⟩ | ⟨rfl, -⟩ | ⟨rfl, -⟩ | ⟨rfl, -⟩ := given
    all_goals exact ⟨_, rfl, rfl, by simp [heard, new]⟩
  obtain ⟨field, found, rfl, unset⟩ := known
  exact .field found unset enters (entered keys)

/-- The draft is complete once every key has been heard of, apart from those of absent values. -/
theorem finish_heard (diagnostic : Diagnostic) {keys : List String}
    (enough : ∀ member ∈ diagnostic.members, member.2 ≠ .null → member.1 ∈ keys) :
    (diagnostic.heard keys).finish = .ok diagnostic := by
  obtain ⟨severity, code, message, subject, help⟩ := diagnostic
  simp only [members, List.forall_mem_cons, List.not_mem_nil, false_imp_iff, implies_true, and_true,
    ne_eq, reduceCtorEq, not_false_eq_true, true_imp_iff] at enough
  obtain ⟨severe, coded, told, blamed, advised⟩ := enough
  have subject_eq : (if "subject" ∈ keys then some subject else none).getD none = subject := by
    cases subject with
    | none => split <;> rfl
    | some s => rw [if_pos (blamed (by simp [treeOfOption]))]; rfl
  have help_eq : (if "help" ∈ keys then some help else none).getD none = help := by
    cases help with
    | none => split <;> rfl
    | some s => rw [if_pos (advised (by simp [treeOfOption]))]; rfl
  simp [heard, DiagnosticDraft.finish, required, severe, coded, told, subject_eq, help_eq, bind,
    Except.bind]

theorem collects_heard (diagnostic : Diagnostic) (budget : Nat) {given : List (String × Tree)}
    {keys : List String} (own : given ⊆ diagnostic.members)
    (once : (given.map Prod.fst).Nodup) (new : ∀ member ∈ given, member.1 ∉ keys)
    (enough : ∀ member ∈ diagnostic.members, member.2 ≠ .null →
      member.1 ∈ given.map Prod.fst ∨ member.1 ∈ keys) :
    (diagnosticRecord budget).Collects (entersNamed budget) (diagnostic.heard keys)
      (Tree.memberOutlines given) diagnostic := by
  induction given generalizing keys with
  | nil =>
      refine .finished (diagnostic.finish_heard fun member listed present => ?_)
      simpa using enough member listed present
  | cons member given ih =>
      obtain ⟨key, value⟩ := member
      obtain ⟨first, others⟩ := List.cons_subset.1 own
      obtain ⟨unrepeated, once⟩ := List.nodup_cons.1 once
      obtain ⟨unheard, new⟩ := List.forall_mem_cons.1 new
      refine .member (diagnostic.takes_heard budget first unheard) (ih others once ?_ ?_)
      · intro member later again
        obtain same | before := List.mem_cons.1 again
        · exact unrepeated (List.mem_map.2 ⟨member, later, same⟩)
        · exact new member later before
      · intro member listed present
        have known := enough member listed present
        simp only [List.map_cons, List.mem_cons] at known ⊢
        tauto

/-- The values without their keys, in the order of the fields. -/
theorem lists_heard (diagnostic : Diagnostic) (budget : Nat) {given : List (String × Tree)}
    {fields : List (Json.Field DiagnosticDraft)} {keys : List String}
    (named : List.Forall₂ (fun field member => field.name = member.1) fields given)
    (own : given ⊆ diagnostic.members)
    (enough : ∀ member ∈ diagnostic.members, member.2 ≠ .null →
      member.1 ∈ given.map Prod.fst ∨ member.1 ∈ keys) :
    (diagnosticRecord budget).Lists (entersNamed budget) (diagnostic.heard keys) fields
      (Tree.outlines (given.map Prod.snd)) diagnostic := by
  induction named generalizing keys with
  | nil =>
      refine .finished (diagnostic.finish_heard fun member listed present => ?_)
      simpa using enough member listed present
  | @cons field member fields given name named ih =>
      obtain ⟨key, value⟩ := member
      obtain ⟨first, others⟩ := List.cons_subset.1 own
      obtain ⟨enter, enters, entered⟩ := diagnostic.enters_heard budget first
      have name : field.name = key := name
      refine .item (name ▸ enters) ?_
      rw [entered keys]
      refine ih others fun member listed present => ?_
      have known := enough member listed present
      simp only [List.map_cons, List.mem_cons] at known ⊢
      tauto

/-- The members show the diagnostic: they are its own, each at most once and in any order, and none
but `null` is missing. -/
structure ShownBy (diagnostic : Diagnostic) (given : List (String × Tree)) : Prop where
  own : given ⊆ diagnostic.members
  once : (given.map Prod.fst).Nodup
  enough : ∀ member ∈ diagnostic.members, member.2 ≠ .null → member ∈ given

theorem shownBy_members (diagnostic : Diagnostic) : diagnostic.ShownBy diagnostic.members where
  own := List.Subset.refl _
  once := by simp [members]
  enough _ listed _ := listed

/-! ### Whole texts -/

theorem members_spell (diagnostic : Diagnostic) :
    ∀ member ∈ diagnostic.members, member.2.Spells := by
  have code := diagnostic.code.number.toNat_lt
  have short : diagnostic.code.number.toNat ≤ maxSignificand := by
    unfold maxSignificand
    omega
  have optional (found : Option String) : (treeOfOption found).Spells := by
    cases found with
    | none => exact Tree.Numberless.spells .null
    | some s => exact Tree.Numberless.spells (.string s)
  simp only [members, List.forall_mem_cons, List.not_mem_nil, false_imp_iff, implies_true, and_true]
  exact ⟨Tree.Numberless.spells (.string _), Tree.number_spells short,
    Tree.Numberless.spells (.string _), optional _, optional _⟩

/-- The text of a tree is decoded to what the outline of the tree means. -/
theorem decode_text {tree : Tree} {diagnostic : Diagnostic} (spells : tree.Spells)
    (given : (∃ members, tree.outline = .object members ∧
        (diagnosticRecord (maxDepth - 1)).Collects (entersNamed (maxDepth - 1))
          (diagnostic.heard []) members diagnostic) ∨
      ∃ items, tree.outline = .array items ∧
        (diagnosticRecord (maxDepth - 1)).Lists (entersNamed (maxDepth - 1))
          (diagnostic.heard []) (diagnosticFields (maxDepth - 1)) items diagnostic) :
    Diagnostic.decode tree.text = .ok diagnostic := by
  have means : ((diagnosticRecord (maxDepth - 1)).reader maxDepth).Means _ :=
    Record.reader_means (diagnosticFields_means (maxDepth - 1)) maxDepth
  refine (Json.decode_eq_ok_iff means).2 ⟨tree.outline, ⟨[], ?_, rfl⟩, by decide, given⟩
  simpa [Tree.text] using spells [] trivial

theorem ShownBy.decode_object {diagnostic : Diagnostic} {given : List (String × Tree)}
    (shown : diagnostic.ShownBy given) :
    Diagnostic.decode (Tree.object given).text = .ok diagnostic := by
  have spells := Tree.object_spells fun member listed =>
    diagnostic.members_spell member (shown.own listed)
  refine decode_text spells (.inl ⟨_, rfl, ?_⟩)
  refine diagnostic.collects_heard _ shown.own shown.once (by simp) ?_
  intro member listed present
  exact .inl (List.mem_map_of_mem (shown.enough member listed present))

theorem decode_array (diagnostic : Diagnostic) :
    Diagnostic.decode (Tree.array (diagnostic.members.map Prod.snd)).text = .ok diagnostic := by
  have spells : (Tree.array (diagnostic.members.map Prod.snd)).Spells := by
    refine Tree.array_spells fun item listed => ?_
    obtain ⟨member, among, rfl⟩ := List.mem_map.1 listed
    exact diagnostic.members_spell member among
  refine decode_text spells (.inr ⟨_, rfl, ?_⟩)
  refine diagnostic.lists_heard _ ?_ (List.Subset.refl _) ?_
  · simp [diagnosticFields, members]
  · intro member listed _
    exact .inl (List.mem_map_of_mem listed)

end Diagnostic

/-- A diagnostic is read back from its compact text, from the list of its values, and from its
members in any order where those that are `null` may be left out. -/
theorem diagnostic_survives_exchange (diagnostic : Diagnostic) :
    Diagnostic.decode diagnostic.encode = .ok diagnostic ∧
      Diagnostic.decode (Tree.array (diagnostic.members.map Prod.snd)).text = .ok diagnostic ∧
      ∀ given, diagnostic.ShownBy given →
        Diagnostic.decode (Tree.object given).text = .ok diagnostic := by
  refine ⟨?_, diagnostic.decode_array, fun _ shown => shown.decode_object⟩
  rw [Diagnostic.encode, diagnostic.tree_eq]
  exact diagnostic.shownBy_members.decode_object

/-- The largest code, with the advice in front and no word of the missing subject. -/
theorem exchanged_without_subject :
    let found : Diagnostic := ⟨.warning, ⟨65535⟩, "\"\n", none, some "null"⟩
    let given : List (String × Tree) :=
      [("help", .string "null"), ("message", .string "\"\n"), ("severity", .string "Warning"),
       ("code", .number (.integer 65535))]
    found.ShownBy given ∧ Diagnostic.decode (Tree.object given).text = .ok found := by
  intro found given
  have shown : found.ShownBy given :=
    ⟨by simp [given, found, Diagnostic.members, Diagnostic.treeOfOption, Severity.name],
      by simp [given],
      by simp [given, found, Diagnostic.members, Diagnostic.treeOfOption, Severity.name]⟩
  exact ⟨shown, (diagnostic_survives_exchange found).2.2 given shown⟩

end Liquefy
