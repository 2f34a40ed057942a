import Liquefy.Proofs.Conversion.Tracing

/-!
# Chains part by part

A chain that is neither a loop nor an app is converted item by item. Wherever it is cut, it is the
first part, then what joins the two, then the second part, and the blocks go from the one to the
other (`convert_chain_append`). What joins them depends on one item only, the first after the cut.
Filters and operators are joined by nothing, so a pipeline of them adds its own texts to whatever
expression it follows.
-/

namespace Liquefy

/-! ### The items of a chain -/

namespace Segment

/-- A filter or an operator, which continues the expression that it follows. -/
def continues (item : Segment) : Bool := item.kind = .filter || item.kind.isOperator

/-- The item makes its chain neither a loop nor an app. -/
def Plain (item : Segment) : Prop := ¬ item.isCallTo "each" ∧ ¬ item.isCallTo "app"

theorem kind_chain_eq_iff {items : List Segment} :
    (Segment.chain items).kind = .chain ↔ ∀ item ∈ items, item.Plain := by
  simp only [kind, Plain]
  by_cases loops : items.any (isCallTo "each") = true
  · rw [if_pos loops]
    obtain ⟨item, member, each⟩ := List.any_eq_true.1 loops
    simp only [reduceCtorEq, false_iff]
    intro plain
    exact (plain item member).1 each
  · rw [if_neg loops]
    by_cases asks : items.any (isCallTo "app") = true
    · rw [if_pos asks]
      obtain ⟨item, member, app⟩ := List.any_eq_true.1 asks
      simp only [reduceCtorEq, false_iff]
      intro plain
      exact (plain item member).2 app
    · rw [if_neg asks]
      simp only [true_iff]
      intro item member
      constructor
      · intro each
        exact loops (List.any_eq_true.2 ⟨item, member, each⟩)
      · intro app
        exact asks (List.any_eq_true.2 ⟨item, member, app⟩)

theorem convert_chain {items : List Segment} (plain : ∀ item ∈ items, item.Plain) :
    (Segment.chain items).convert = chainText true (partsBy Segment.convert items) := by
  rw [convert_eq]
  simp only [rule, kind_chain_eq_iff.2 plain, children]

/-- The names of calls with a rule of their own. -/
def ruledCalls : List String :=
  "partial" :: Lexicon.enrolmentCalls
    ++ [Lexicon.courseAccess, "pluralize", "learning_path_item"] ++ Lexicon.filters

/-- Any other call is an ordinary one, unless it is the condition of a search form. -/
theorem kind_call_of_unruled {name : String} {args : Arguments Segment}
    (unruled : name ∉ ruledCalls) (shows : name = "if" → args.single?.any isSearchForm = false) :
    (Segment.call name args).kind = .call := by
  have noForm : ¬ (name = "if" ∧ args.single?.any isSearchForm = true) := by
    rintro ⟨condition, form⟩
    rw [shows condition] at form
    cases form
  simp only [ruledCalls, List.cons_append, List.mem_cons, List.mem_append, List.not_mem_nil,
    or_false, not_or] at unruled
  obtain ⟨noPartial, ⟨noEnrolment, noAccess, noPluralize, noItem⟩, noFilter⟩ := unruled
  rw [kind, kindOfCall, if_neg noForm, if_neg noPartial,
    if_neg (mt List.contains_iff_mem.1 noEnrolment), if_neg noAccess, if_neg noPluralize,
    if_neg noItem, Lexicon.isFilter, if_neg (mt List.contains_iff_mem.1 noFilter)]

/-- Neither an `each` nor an `app` is a filter or an operator. -/
theorem plain_of_continues {item : Segment} (continues : item.continues = true) :
    item.Plain := by
  have called : ∀ word, word ∉ ruledCalls → word ≠ "if" → ¬ item.isCallTo word := by
    intro word unruled noCondition calls
    cases item with
    | call name args =>
        obtain rfl : name = word := by simpa [isCallTo, callTo?] using calls
        have ordinary : (call name args).kind = .call :=
          kind_call_of_unruled unruled fun condition => absurd condition noCondition
        simp [Segment.continues, ordinary, Kind.isOperator] at continues
    | _ => simp [isCallTo, callTo?] at calls
  exact ⟨called "each" (by decide) (by decide), called "app" (by decide) (by decide)⟩

end Segment

/-! ### Cutting a chain -/

/-- What stands between two parts of a chain, by the first item of the second. -/
def joint (item : Segment) : String := if item.continues then "" else "."

theorem separator_false (item : Segment) :
    separator false item = joint item ++ separator true item := by
  by_cases filter : item.kind = .filter
  · simp [separator, joint, Segment.continues, filter]
  · by_cases operator : item.kind.isOperator = true
    · simp [separator, joint, Segment.continues, filter, operator]
    · simp [separator, joint, Segment.continues, filter, operator]

theorem chainText_false_append (parts parts' : Parts) :
    chainText false (parts ++ parts') =
      (do
        let text ← chainText false parts
        let rest ← chainText false parts'
        pure (text ++ rest)) := by
  induction parts with
  | nil => simp only [List.nil_append, chainText, pure_bind, String.empty_append, bind_pure]
  | cons part parts ih =>
      simp only [List.cons_append, chainText, ih, bind_assoc, pure_bind, String.append_assoc]

theorem chainText_append {parts : Parts} (nonempty : parts ≠ []) (atStart : Bool)
    (parts' : Parts) :
    chainText atStart (parts ++ parts') =
      (do
        let text ← chainText atStart parts
        let rest ← chainText false parts'
        pure (text ++ rest)) := by
  cases parts with
  | nil => exact absurd rfl nonempty
  | cons part parts =>
      simp only [List.cons_append, chainText, chainText_false_append, bind_assoc, pure_bind,
        String.append_assoc]

theorem chainText_false_cons (part : Part (Conversion String)) (parts : Parts) :
    chainText false (part :: parts) =
      (do
        let text ← chainText true (part :: parts)
        pure (joint part.segment ++ text)) := by
  simp only [chainText, separator_false, bind_assoc, pure_bind, String.append_assoc]

theorem Segment.convert_chain_append {items items' : List Segment} (nonempty : items ≠ [])
    (nonempty' : items' ≠ []) (plain : ∀ item ∈ items ++ items', item.Plain) :
    (Segment.chain (items ++ items')).convert =
      (do
        let text ← (Segment.chain items).convert
        let text' ← (Segment.chain items').convert
        pure (text ++ joint (items'.head nonempty') ++ text')) := by
  have plainFirst : ∀ item ∈ items, item.Plain := by
    intro item member
    exact plain item (List.mem_append_left items' member)
  have plainSecond : ∀ item ∈ items', item.Plain := by
    intro item member
    exact plain item (List.mem_append_right items member)
  have some : partsBy Segment.convert items ≠ [] := by simpa [partsBy] using nonempty
  rw [convert_chain plain, convert_chain plainFirst, convert_chain plainSecond]
  cases items' with
  | nil => exact absurd rfl nonempty'
  | cons item items' =>
      rw [partsBy_append, chainText_append some, partsBy_cons, chainText_false_cons]
      simp only [bind_assoc, pure_bind, String.append_assoc, List.head_cons]

/-! ### Pipelines -/

/-- A filter or an operator behind an expression; a filter is set off by a blank. -/
def Segment.continuation (item : Segment) : Conversion String := do
  let text ← item.convert
  pure ((if item.kind = .filter then " " else "") ++ text)

theorem separator_of_continues {item : Segment} (continues : item.continues = true)
    (atStart : Bool) : separator atStart item = if item.kind = .filter then " " else "" := by
  by_cases filter : item.kind = .filter
  · simp [separator, filter]
  · have operator : item.kind.isOperator = true := by
      simpa [Segment.continues, filter] using continues
    simp [separator, filter, operator]

theorem chainText_of_continues {pipeline : List Segment}
    (continues : ∀ item ∈ pipeline, item.continues = true) (atStart : Bool) :
    chainText atStart (partsBy Segment.convert pipeline) =
      (do
        let own ← texts (partsBy Segment.continuation pipeline)
        pure (String.join own)) := by
  induction pipeline generalizing atStart with
  | nil => rfl
  | cons item pipeline ih =>
      have first := separator_of_continues (continues item (by simp)) atStart
      have rest := ih (fun other member => continues other (by simp [member])) false
      simp only [partsBy_cons, chainText, texts, first, rest, Segment.continuation, bind_assoc,
        pure_bind, String.join_cons]

theorem Segment.convert_pipeline {items pipeline : List Segment}
    (plain : ∀ item ∈ items, item.Plain) (continues : ∀ item ∈ pipeline, item.continues = true) :
    (Segment.chain (items ++ pipeline)).convert =
      (do
        let base ← (Segment.chain items).convert
        let own ← texts (partsBy Segment.continuation pipeline)
        pure (base ++ String.join own)) := by
  have plainAll : ∀ item ∈ items ++ pipeline, item.Plain := by
    intro item member
    obtain member | member := List.mem_append.1 member
    · exact plain item member
    · exact plain_of_continues (continues item member)
  rw [convert_chain plainAll, convert_chain plain, partsBy_append]
  by_cases empty : items = []
  · subst empty
    rw [partsBy_nil, List.nil_append, chainText_of_continues continues]
    simp only [chainText, pure_bind, String.empty_append]
  · rw [chainText_append (by simpa [partsBy] using empty), chainText_of_continues continues]
    simp only [bind_assoc, pure_bind]

/-! ### In order -/

/-- A chain of ordinary items, cut in two, converts as its parts do one after the other. It fails
as the first part that fails does, and otherwise its text is that of the parts with a dot between
them, unless the second begins with a filter or an operator. So filters and operators at the end
of an expression add their own texts, in order, to the text that the expression has without
them. -/
theorem chains_convert_in_order :
    (∀ (items items' : List Segment) (_ : items ≠ []) (nonempty' : items' ≠ []),
      (∀ item ∈ items ++ items', item.Plain) → ∀ scopes : Scopes,
        (∀ failure after, (Segment.chain items).convert scopes = (.error failure, after) →
          (Segment.chain (items ++ items')).convert scopes = (.error failure, after)) ∧
        ∀ text middle, (Segment.chain items).convert scopes = (.ok text, middle) →
          (∀ failure after, (Segment.chain items').convert middle = (.error failure, after) →
            (Segment.chain (items ++ items')).convert scopes = (.error failure, after)) ∧
          ∀ text' after, (Segment.chain items').convert middle = (.ok text', after) →
            (Segment.chain (items ++ items')).convert scopes =
              (.ok (text ++ joint (items'.head nonempty') ++ text'), after)) ∧
    ∀ items pipeline : List Segment, (∀ item ∈ items, item.Plain) →
      (∀ item ∈ pipeline, item.continues = true) →
      (Segment.chain (items ++ pipeline)).convert =
        (do
          let base ← (Segment.chain items).convert
          let own ← texts (partsBy Segment.continuation pipeline)
          pure (base ++ String.join own)) := by
  constructor
  · intro items items' nonempty nonempty' plain scopes
    have cut := congrFun (Segment.convert_chain_append nonempty nonempty' plain) scopes
    constructor
    · intro failure after failed
      rw [cut, Conversion.bind_of_error failed]
    · intro text middle converted
      constructor
      · intro failure after failed
        rw [cut, Conversion.bind_of_ok converted, Conversion.bind_of_error failed]
      · intro text' after converted'
        rw [cut, Conversion.bind_of_ok converted, Conversion.bind_of_ok converted',
          Conversion.pure_apply]
  · intro items pipeline plain continues
    exact Segment.convert_pipeline plain continues

/-- A chain whose first part closes a block, where one is open and where none is, and a filter
with an operator behind it. -/
theorem chains_convert_in_order_past_an_end :
    (Segment.chain ([.reference "course", .ending] ++
        [.reference "name", .call "if" (.one (.reference "x"))])).convert ⟨[.loop]⟩ =
      (.ok "course.endfor.name.if x", ⟨[.conditional]⟩) ∧
    (Segment.chain ([.reference "course", .ending] ++
        [.reference "name", .call "if" (.one (.reference "x"))])).convert .empty =
      (.error .unbalanced, .empty) ∧
    (Segment.chain ([.reference "course", .reference "name"] ++
        [.reference "downcase", .operator .equals "= " (.string "a")])).convert .empty =
      (.ok "course.name | downcase == 'a'", .empty) := by
  have plain : ∀ item ∈ [.reference "course", .ending] ++
      [.reference "name", .call "if" (.one (.reference "x"))], Segment.Plain item := by
    simp [Segment.Plain, Segment.isCallTo, Segment.callTo?]
  have cut := chains_convert_in_order.1 [.reference "course", .ending]
    [.reference "name", .call "if" (.one (.reference "x"))] (by simp) (by simp) plain
  refine ⟨?_, ?_, ?_⟩
  · exact ((cut ⟨[.loop]⟩).2 "course.endfor" .empty rfl).2 "name.if x" ⟨[.conditional]⟩ rfl
  · exact (cut .empty).1 .unbalanced .empty rfl
  · rw [chains_convert_in_order.2 [.reference "course", .reference "name"]]
    · rfl
    · simp [Segment.Plain, Segment.isCallTo, Segment.callTo?]
    · decide

end Liquefy
