import Liquefy.Proofs.Conversion.Chains

/-!
# Dotted paths

A dotted path is cut at its dots into names, and the chain of these names is put together with
dots again. Only the names of filters stand for something else in a chain, so a path without them
is its own text, and as a condition it gains the suffix that the whole path calls for.
-/

namespace Liquefy

/-- What is cut at a separator and joined by it again is as before. -/
theorem Text.intercalate_split (separator : Char) (text : String) :
    (String.singleton separator).intercalate (Text.split separator text) = text := by
  apply String.toList_injective
  rw [String.toList_intercalate, Text.split, List.map_map, String.toList_singleton]
  have restored : String.toList ∘ String.ofList = id := by
    funext cs
    exact String.toList_ofList
  rw [restored, List.map_id, Text.intercalate_pieces]

theorem Text.split_ne_nil (separator : Char) (text : String) : Text.split separator text ≠ [] := by
  simpa [Text.split] using Text.pieces_ne_nil separator text.toList

/-! ### Names in a chain -/

namespace Segment

section Names

variable {name : String}

theorem kind_reference_of_plain (plain : Lexicon.isFilter name = false) :
    (Segment.reference name).kind = .otherwise ∨ (Segment.reference name).kind = .reference := by
  by_cases other : name = "else"
  · left
    rw [kind, if_pos other]
  · right
    rw [kind, if_neg other, plain, if_neg Bool.false_ne_true]

/-- A name other than those of filters stands for itself. -/
theorem convert_reference (plain : Lexicon.isFilter name = false) :
    (Segment.reference name).convert = pure name := by
  rw [convert_eq]
  obtain kind | kind := kind_reference_of_plain plain
  · simp only [rule, kind]
  · simp only [rule, kind]

theorem joint_reference (plain : Lexicon.isFilter name = false) :
    joint (Segment.reference name) = "." := by
  obtain kind | kind := kind_reference_of_plain plain
  · simp [joint, continues, kind, Kind.isOperator]
  · simp [joint, continues, kind, Kind.isOperator]

theorem plain_reference (name : String) : (Segment.reference name).Plain := by
  simp [Plain, isCallTo, callTo?]

theorem convert_chain_reference (plain : Lexicon.isFilter name = false) :
    (Segment.chain [.reference name]).convert = pure name := by
  have start : separator true (Segment.reference name) = "" := by
    obtain kind | kind := kind_reference_of_plain plain
    · simp [separator, kind]
    · simp [separator, kind]
  rw [convert_chain (by simpa using plain_reference name), partsBy_cons, partsBy_nil]
  simp only [chainText, convert_reference plain, start, pure_bind, String.empty_append,
    String.append_empty]

end Names

/-- Names without filters among them are put together with dots. -/
theorem convert_chain_references {names : List String} (nonempty : names ≠ [])
    (plain : ∀ name ∈ names, Lexicon.isFilter name = false) :
    (Segment.chain (names.map .reference)).convert = pure (".".intercalate names) := by
  induction names with
  | nil => exact absurd rfl nonempty
  | cons name names ih =>
      have first := convert_chain_reference (plain name (by simp))
      cases names with
      | nil => rw [String.intercalate_singleton, List.map_singleton, first]
      | cons next names =>
          -- The chain is cut after its first name: only what follows knows which joint it needs.
          have rest := ih (by simp) fun other member => plain other (by simp [member])
          have dot := joint_reference (plain next (by simp))
          have plainItems : ∀ item ∈ [Segment.reference name] ++
              (next :: names).map Segment.reference, item.Plain := by
            intro item member
            obtain ⟨other, -, rfl⟩ := List.mem_map.1
              (show item ∈ (name :: next :: names).map Segment.reference from member)
            exact plain_reference other
          calc (Segment.chain ((name :: next :: names).map .reference)).convert
              = (do
                  let text ← (Segment.chain [.reference name]).convert
                  let text' ← (Segment.chain ((next :: names).map .reference)).convert
                  pure (text ++ joint (.reference next) ++ text')) :=
                convert_chain_append (by simp) (by simp) plainItems
            _ = pure (name ++ "." ++ ".".intercalate (next :: names)) := by
                simp only [first, rest, dot, pure_bind]
            _ = pure (".".intercalate (name :: next :: names)) := by
                rw [String.intercalate_cons_cons]

/-- A path without filters is its own text. -/
theorem convert_path {dotted : String}
    (plain : ∀ name ∈ Text.split '.' dotted, Lexicon.isFilter name = false) :
    (Segment.path dotted).convert = pure dotted := by
  rw [path, convert_chain_references (Text.split_ne_nil '.' dotted) plain]
  exact congrArg pure (Text.intercalate_split '.' dotted)

end Segment

/-! ### Conditions -/

section Conditions

variable {word : String} {block : Block} {condition : Segment}

theorem Segment.kind_condition (opens : Block.ofCondition? word = some block)
    (shows : condition.isSearchForm = false) :
    (Segment.callOn word [condition]).kind = .call := by
  have unruled : word ∉ Segment.ruledCalls := by
    unfold Block.ofCondition? at opens
    by_cases positive : word = "if"
    · subst positive
      decide
    · by_cases negative : word = "unless"
      · subst negative
        decide
      · simp [positive, negative] at opens
  apply Segment.kind_call_of_unruled unruled
  intro _
  simp [Arguments.ofList, Arguments.single?, Arguments.toList, shows]

/-- A condition on anything but a search form is the word, the condition and its suffix; the block
is opened after the condition is converted. -/
theorem Segment.convert_condition (opens : Block.ofCondition? word = some block)
    (shows : condition.isSearchForm = false) :
    (Segment.callOn word [condition]).convert =
      (do
        let text ← condition.convert
        Conversion.enter block
        pure (word ++ " " ++ text ++ conditionSuffix text)) := by
  have kind := Segment.kind_condition opens shows
  rw [Segment.convert_eq]
  simp only [Segment.callOn, Arguments.ofList] at kind ⊢
  simp only [rule, kind, Segment.children, Arguments.toList, partsBy_cons, partsBy_nil,
    plainCall, texts, joined, opens, callText, bind_assoc, pure_bind,
    String.intercalate_singleton]

end Conditions

section Suffixes

variable {expression : String}

theorem conditionSuffix_collection (listed : expression ∈ Lexicon.collections) :
    conditionSuffix expression = ".any?" := by
  rw [conditionSuffix, Lexicon.isCollection, if_pos (List.contains_iff_mem.2 listed)]

/-- No person is a collection, so the order of the two questions plays no part. -/
theorem conditionSuffix_person (listed : expression ∈ Lexicon.people) :
    conditionSuffix expression = ".signed_in?" := by
  have other : expression ∉ Lexicon.collections := by
    simp only [Lexicon.people, List.mem_cons, List.not_mem_nil, or_false] at listed
    obtain rfl | rfl := listed
    · simp [Lexicon.collections]
    · simp [Lexicon.collections]
  rw [conditionSuffix, Lexicon.isCollection, if_neg (mt List.contains_iff_mem.1 other),
    Lexicon.isPerson, if_pos (List.contains_iff_mem.2 listed)]

theorem conditionSuffix_other (noCollection : expression ∉ Lexicon.collections)
    (noPerson : expression ∉ Lexicon.people) : conditionSuffix expression = "" := by
  rw [conditionSuffix, Lexicon.isCollection, if_neg (mt List.contains_iff_mem.1 noCollection),
    Lexicon.isPerson, if_neg (mt List.contains_iff_mem.1 noPerson)]

end Suffixes

/-! ### Paths as expressions and as conditions -/

/-- A dotted path none of whose names is a filter converts to itself, whatever else its names are,
and touches no block. As a condition it keeps its text and gains a suffix if the whole path is
listed as a collection or as a person, and one block is opened. -/
theorem paths_render_to_themselves (dotted : String)
    (plain : ∀ name ∈ Text.split '.' dotted, name ∉ ["replace", "truncate_words", "downcase"])
    (scopes : Scopes) :
    (Segment.path dotted).convert scopes = (.ok dotted, scopes) ∧
    ∀ (word : String) (block : Block),
      word = "if" ∧ block = .conditional ∨ word = "unless" ∧ block = .negatedConditional →
      ∃ suffix,
        (Segment.callOn word [Segment.path dotted]).convert scopes =
          (.ok (word ++ " " ++ dotted ++ suffix), scopes.push block) ∧
        (dotted ∈ Lexicon.collections → suffix = ".any?") ∧
        (dotted ∈ Lexicon.people → suffix = ".signed_in?") ∧
        (dotted ∉ Lexicon.collections → dotted ∉ Lexicon.people → suffix = "") := by
  have noFilter : ∀ name ∈ Text.split '.' dotted, Lexicon.isFilter name = false := by
    intro name member
    rw [Lexicon.isFilter, Bool.eq_false_iff]
    exact mt List.contains_iff_mem.1 (plain name member)
  have rendered := Segment.convert_path noFilter
  constructor
  · rw [rendered, Conversion.pure_apply]
  · intro word block opener
    have opens : Block.ofCondition? word = some block := by
      obtain ⟨rfl, rfl⟩ | ⟨rfl, rfl⟩ := opener
      · rfl
      · rfl
    refine ⟨conditionSuffix dotted, ?_, conditionSuffix_collection, conditionSuffix_person,
      conditionSuffix_other⟩
    rw [Segment.convert_condition opens rfl, rendered]
    rfl

/-- A path with empty names and a keyword in it, a collection and a person. -/
theorem paths_render_to_themselves_keywords :
    (Segment.path ".else..each.").convert ⟨[.loop]⟩ = (.ok ".else..each.", ⟨[.loop]⟩) ∧
    (Segment.callOn "unless" [Segment.path "course.instructors"]).convert .empty =
      (.ok "unless course.instructors.any?", ⟨[.negatedConditional]⟩) ∧
    (Segment.callOn "if" [Segment.path "display_search_form"]).convert ⟨[.loop]⟩ =
      (.ok "if display_search_form", ⟨[.conditional, .loop]⟩) := by
  refine ⟨?_, ?_, ?_⟩
  · exact (paths_render_to_themselves ".else..each." (by decide) _).1
  · obtain ⟨suffix, converted, collection, -, -⟩ :=
      (paths_render_to_themselves "course.instructors" (by decide) .empty).2 "unless" _
        (.inr ⟨rfl, rfl⟩)
    obtain rfl := collection (by decide)
    exact converted
  · obtain ⟨suffix, converted, -, -, other⟩ :=
      (paths_render_to_themselves "display_search_form" (by decide) ⟨[.loop]⟩).2 "if" _
        (.inl ⟨rfl, rfl⟩)
    obtain rfl := other (by decide) (by decide)
    exact converted

end Liquefy
