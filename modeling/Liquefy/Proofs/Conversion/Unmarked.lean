import Liquefy.Proofs.Conversion.Blame

/-!
# Segments without tag characters

Tags are made of braces and percent signs. If no text, literal or name in a segment has one of
these, then the text of the segment has none either (`Segment.Unmarked.convert_bare`): the words
that the rules add are free of them, and nothing inside a segment is put into a tag.
-/

namespace Liquefy

/-! ### Texts without tag characters -/

/-- A character of which tags are made. -/
def isTagCharacter (c : Char) : Bool := c = '\x7b' || c = '\x7d' || c = '%'

/-- The text has no tag character. -/
def Bare (text : String) : Prop := (text.toList.all fun c => !isTagCharacter c) = true

instance (text : String) : Decidable (Bare text) := inferInstanceAs (Decidable (_ = _))

namespace Bare

theorem append {s t : String} (first : Bare s) (second : Bare t) : Bare (s ++ t) := by
  rw [Bare, String.toList_append, List.all_append, Bool.and_eq_true]
  exact ⟨first, second⟩

theorem between {before inner after : String} (first : Bare before) (own : Bare inner)
    (last : Bare after) : Bare (before ++ inner ++ after) :=
  (first.append own).append last

theorem intercalate {separator : String} {pieces : List String} (set : Bare separator)
    (bare : ∀ piece ∈ pieces, Bare piece) : Bare (separator.intercalate pieces) := by
  induction pieces with
  | nil => rfl
  | cons piece pieces ih =>
      have first := bare piece (by simp)
      cases pieces with
      | nil => simpa using first
      | cons next pieces =>
          rw [String.intercalate_cons_cons]
          apply (first.append set).append
          apply ih
          intro other member
          exact bare other (List.mem_cons_of_mem piece member)

end Bare

theorem Text.mem_of_mem_pieces {separator c : Char} {cs piece : List Char}
    (listed : piece ∈ Text.pieces separator cs) (member : c ∈ piece) : c ∈ cs := by
  induction cs generalizing piece with
  | nil =>
      obtain rfl : piece = [] := by simpa [Text.pieces] using listed
      exact member
  | cons d cs ih =>
      rw [Text.pieces] at listed
      split at listed
      · obtain rfl | later := List.mem_cons.1 listed
        · simp at member
        · exact List.mem_cons_of_mem d (ih later member)
      · cases found : Text.pieces separator cs with
        | nil => exact absurd found (Text.pieces_ne_nil separator cs)
        | cons first others =>
            rw [found, Text.ontoFirst] at listed
            obtain rfl | later := List.mem_cons.1 listed
            · obtain rfl | inside := List.mem_cons.1 member
              · simp
              · exact List.mem_cons_of_mem d (ih (by simp [found]) inside)
            · exact List.mem_cons_of_mem d (ih (by simp [found, later]) member)

theorem Bare.of_mem_split {separator : Char} {text piece : String} (bare : Bare text)
    (listed : piece ∈ Text.split separator text) : Bare piece := by
  obtain ⟨cs, among, rfl⟩ := List.mem_map.1 listed
  rw [Bare, List.all_eq_true] at bare ⊢
  intro c member
  rw [String.toList_ofList] at member
  exact bare c (Text.mem_of_mem_pieces among member)

/-! ### Segments without tag characters -/

namespace Segment

/-- The text, literal or name that a segment holds by itself. -/
def writing? : Segment → Option String
  | .text s => some s
  | .string s => some s
  | .number digits => some digits
  | .reference name => some name
  | .call name _ => some name
  | _ => none

/-- No text, literal or name in the segment, at any depth, has a tag character. -/
def Unmarked (segment : Segment) : Prop :=
  ∀ (part : Segment) (s : String), part.PartOf segment → part.writing? = some s → Bare s

namespace Unmarked

variable {segment : Segment}

theorem own {s : String} (unmarked : segment.Unmarked) (holds : segment.writing? = some s) :
    Bare s :=
  unmarked segment s (.refl segment) holds

theorem child (unmarked : segment.Unmarked) : ∀ child ∈ segment.children, child.Unmarked := by
  intro child member part s within
  exact unmarked part s (.inside member within)

theorem of_children (own : ∀ s, segment.writing? = some s → Bare s)
    (children : ∀ child ∈ segment.children, child.Unmarked) : segment.Unmarked := by
  intro part s within holds
  cases within with
  | refl => exact own s holds
  | inside member inner => exact children _ member part s inner holds

theorem literal {s : String} (unmarked : segment.Unmarked) (holds : segment.literal? = some s) :
    Bare s := by
  cases segment with
  | string value =>
      cases holds
      exact unmarked.own rfl
  | _ => simp [literal?] at holds

/-- The literal that is the only argument of a call. -/
theorem loneLiteral {args : Arguments Segment} {s : String}
    (unmarked : ∀ arg ∈ args.toList, arg.Unmarked)
    (holds : args.single?.bind literal? = some s) : Bare s := by
  obtain ⟨arg, single, literal⟩ := Option.bind_eq_some_iff.1 holds
  unfold Arguments.single? at single
  split at single
  · rename_i listed
    cases single
    exact (unmarked arg (by simp [listed])).literal literal
  · simp at single

/-- The literal that is the only argument of a call to the given name. -/
theorem literalOfCall {name s : String} (unmarked : segment.Unmarked)
    (holds : ((segment.callTo? name).bind Arguments.single?).bind literal? = some s) : Bare s := by
  cases segment with
  | call called args =>
      simp only [callTo?] at holds
      split at holds
      · exact loneLiteral unmarked.child holds
      · simp at holds
  | _ => simp [callTo?] at holds

theorem phraseKey {s : String} (unmarked : segment.Unmarked) (holds : phraseKey? segment = some s) :
    Bare s := by
  cases segment with
  | call name args =>
      simp only [phraseKey?] at holds
      split at holds
      · simp at holds
      · rename_i path literal
        have listed := (Option.filter_eq_some_iff.1 holds).1
        exact (loneLiteral unmarked.child literal).of_mem_split (List.mem_of_getElem? listed)
  | _ => simp [phraseKey?] at holds

end Unmarked

end Segment

/-! ### What conversions yield -/

namespace Conversion

variable {α β : Type}

/-- Whenever the conversion succeeds, its result has the property. -/
def Yields (conversion : Conversion α) (property : α → Prop) : Prop :=
  ∀ scopes a after, conversion scopes = (.ok a, after) → property a

namespace Yields

theorem done {property : α → Prop} {a : α} (holds : property a) :
    Yields (pure a : Conversion α) property := by
  intro scopes b after made
  cases made
  exact holds

theorem fail {property : α → Prop} (failure : Failure) :
    Yields (Conversion.fail failure : Conversion α) property := by
  intro scopes a after made
  simp [Conversion.fail] at made

theorem andThen {property : α → Prop} {property' : β → Prop} {conversion : Conversion α}
    {next : α → Conversion β} (first : conversion.Yields property)
    (rest : ∀ a, property a → (next a).Yields property') :
    (conversion >>= next).Yields property' := by
  intro scopes b after made
  obtain ⟨a, middle, began, ended⟩ := bind_eq_ok_iff.1 made
  exact rest a (first scopes a middle began) middle b after ended

theorem afterEntering {property : β → Prop} (block : Block) {next : Unit → Conversion β}
    (rest : ∀ a, (next a).Yields property) : (enter block >>= next).Yields property := by
  intro scopes b after made
  exact rest () (scopes.push block) b after made

end Yields

end Conversion

open Conversion (Yields)

/-! ### The fixed words of the rules -/

theorem separator_bare (atStart : Bool) (item : Segment) : Bare (separator atStart item) := by
  unfold separator
  split
  · decide
  · split
    · decide
    · decide

theorem conditionSuffix_bare (condition : String) : Bare (conditionSuffix condition) := by
  unfold conditionSuffix
  split
  · decide
  · split
    · decide
    · decide

theorem operatorToken?_bare {glyph token : String}
    (known : Lexicon.operatorToken? glyph = some token) : Bare token := by
  unfold Lexicon.operatorToken? at known
  split at known
  all_goals cases known
  all_goals decide

theorem filterName_bare {name : String} (bare : Bare name) : Bare (Lexicon.filterName name) := by
  unfold Lexicon.filterName
  split
  · decide
  · exact bare

theorem Block.name_bare (block : Block) : Bare block.name := by
  cases block <;> decide

/-! ### The rules -/

section Parts

variable {convert : Segment → Conversion String} {segments : List Segment}
  (bare : ∀ segment ∈ segments, (convert segment).Yields Bare)

include bare

theorem texts_bare :
    (texts (partsBy convert segments)).Yields fun shown => ∀ text ∈ shown, Bare text := by
  induction segments with
  | nil => exact .done (by simp)
  | cons segment segments ih =>
      refine Yields.andThen (bare segment (by simp)) fun text first => ?_
      refine Yields.andThen (ih fun other member => bare other (by simp [member])) ?_
      intro shown others
      exact .done (List.forall_mem_cons.2 ⟨first, others⟩)

theorem joined_bare :
    (texts (partsBy convert segments)).Yields fun shown => Bare (joined shown) := by
  intro scopes shown after made
  exact .intercalate (by decide) (texts_bare bare scopes shown after made)

theorem chainText_bare (atStart : Bool) :
    (chainText atStart (partsBy convert segments)).Yields Bare := by
  induction segments generalizing atStart with
  | nil => exact .done (by decide)
  | cons segment segments ih =>
      refine Yields.andThen (bare segment (by simp)) fun text first => ?_
      refine Yields.andThen (ih (fun other member => bare other (by simp [member])) false) ?_
      intro rest others
      exact .done (((separator_bare atStart segment).append first).append others)

theorem plainCall_bare {name : String} (named : Bare name) :
    (plainCall name (partsBy convert segments)).Yields Bare := by
  refine Yields.andThen (joined_bare bare) fun shown args => ?_
  have called : Bare (callText name (joined shown)) := (named.append (by decide)).append args
  cases Block.ofCondition? name with
  | none => exact .done called
  | some block => exact .afterEntering block fun _ => .done (called.append (conditionSuffix_bare _))

end Parts

theorem operatorText_bare (segment : Segment) (tag : OperatorTag) (glyph : String)
    {operand : Segment} (unmarked : operand.Unmarked) (bare : operand.convert.Yields Bare) :
    (operatorText segment tag glyph ⟨operand, operand.convert⟩).Yields Bare := by
  cases known : Lexicon.operatorToken? glyph with
  | none =>
      simp only [operatorText, known]
      exact .fail _
  | some token =>
      have set : Bare (" " ++ token ++ " ") :=
        Bare.between (by decide) (operatorToken?_bare known) (by decide)
      simp only [operatorText, known]
      cases quoted : quotedOperand? glyph operand with
      | none => exact bare.andThen fun text shown => .done (set.append shown)
      | some text =>
          unfold quotedOperand? at quoted
          split at quoted
          · obtain ⟨s, literal, rfl⟩ := Option.map_eq_some_iff.1 quoted
            have inner : Bare ("'" ++ s ++ "'") :=
              Bare.between (by decide) (unmarked.literal literal) (by decide)
            exact .done (set.append inner)
          · simp at quoted

theorem filterConvert_bare {arg : Segment} (unmarked : arg.Unmarked)
    (bare : arg.convert.Yields Bare) : (filterConvert arg).Yields Bare := by
  cases arg with
  | number digits => exact .done (unmarked.own rfl)
  | string s =>
      have own : Bare s := unmarked.own rfl
      exact .done (.between (by decide) own (by decide))
  | _ => simpa only [filterConvert, filterArgument, filterLiteral?] using bare

section Children

variable {children : List Segment} (unmarked : ∀ child ∈ children, child.Unmarked)
  (bare : ∀ child ∈ children, child.convert.Yields Bare)

include unmarked bare

theorem filterText_bare {name : String} (named : Bare name) :
    (filterText name (partsBy Segment.convert children)).Yields Bare := by
  unfold filterText
  split
  · exact .done (Bare.append (by decide) named)
  · rw [map_filterArgument_partsBy]
    have converted : ∀ child ∈ children, (filterConvert child).Yields Bare := by
      intro child member
      exact filterConvert_bare (unmarked child member) (bare child member)
    refine Yields.andThen (joined_bare converted) fun shown args => ?_
    have opened : Bare ("| " ++ Lexicon.filterName name ++ ": ") :=
      Bare.between (by decide) (filterName_bare named) (by decide)
    exact .done (opened.append args)

theorem loopText_bare (segment : Segment) :
    (loopText segment (partsBy Segment.convert children)).Yields Bare := by
  have dropped : (partsBy Segment.convert children).dropLast =
      partsBy Segment.convert children.dropLast := by
    simp [partsBy, List.map_dropLast]
  cases last : children.getLast? with
  | none =>
      simp only [loopText, partsBy, List.getLast?_map, last, Option.map_none]
      exact .fail _
  | some each =>
      have final : (partsBy Segment.convert children).getLast? = some ⟨each, each.convert⟩ := by
        simp [partsBy, last]
      simp only [loopText, dropped, final]
      split
      · exact .fail _
      · split
        · exact .fail _
        · rename_i variableName named
          have own : Bare variableName :=
            (unmarked each (List.mem_of_getLast? last)).literalOfCall named
          have opened : Bare ("for " ++ variableName ++ " in ") :=
            Bare.between (by decide) own (by decide)
          split
          · exact .fail _
          · refine Yields.andThen (chainText_bare ?_ true) fun collection shown => ?_
            · intro child member
              exact bare child (List.dropLast_subset children member)
            · exact .afterEntering .loop fun _ => .done (opened.append shown)

theorem pluralizeText_bare (segment : Segment) :
    (pluralizeText segment (partsBy Segment.convert children)).Yields Bare := by
  rcases children with _ | ⟨count, _ | ⟨singular, _ | ⟨plural, _ | ⟨fourth, others⟩⟩⟩⟩
  case cons.cons.cons.nil =>
      simp only [partsBy, List.map, pluralizeText]
      cases key : phraseKey? singular with
      | none => exact .fail _
      | some phrase =>
          refine Yields.andThen (bare count (by simp)) fun text shown => ?_
          have counted : Bare ("pluralize " ++ text ++ ", .") :=
            Bare.between (by decide) shown (by decide)
          exact .done (counted.append ((unmarked singular (by simp)).phraseKey key))
  all_goals exact .fail _

end Children

theorem inclusionText_bare (segment : Segment) {args : Arguments Segment}
    (unmarked : ∀ arg ∈ args.toList, arg.Unmarked) : (inclusionText segment args).Yields Bare := by
  cases literal : args.single?.bind Segment.literal? with
  | none =>
      simp only [inclusionText, literal]
      exact .fail _
  | some name =>
      simp only [inclusionText, literal]
      have own : Bare name := Segment.Unmarked.loneLiteral unmarked literal
      exact .done (.between (by decide) own (by decide))

theorem appText_bare (segment : Segment) {items : List Segment}
    (unmarked : ∀ item ∈ items, item.Unmarked) : (appText segment items).Yields Bare := by
  unfold appText
  split
  · exact .fail _
  · rename_i name literal
    obtain ⟨arg, given, holds⟩ := Option.bind_eq_some_iff.1 literal
    obtain ⟨args, found, single⟩ := Option.bind_eq_some_iff.1 given
    obtain ⟨item, member, called⟩ := List.exists_of_findSome?_eq_some found
    have own : Bare name := by
      apply (unmarked item member).literalOfCall
      rw [called, Option.bind_some, single, Option.bind_some, holds]
    exact .done (.between (by decide) own (by decide))

theorem rule_call_bare {name : String} {args : Arguments Segment} (named : Bare name)
    (unmarked : ∀ arg ∈ args.toList, arg.Unmarked)
    (bare : ∀ arg ∈ args.toList, arg.convert.Yields Bare) :
    (rule (.call name args) (partsBy Segment.convert args.toList)).Yields Bare := by
  have kinds := Segment.kind_call_cases name args
  simp only [List.mem_cons, List.not_mem_nil, or_false] at kinds
  rcases kinds with kind | kind | kind | kind | kind | kind | kind | kind
  all_goals simp only [rule, kind]
  · unfold searchFormText
    cases args.single?.bind searchBlock? with
    | none => exact .fail _
    | some block => exact .afterEntering block fun _ => .done block.name_bare
  · exact inclusionText_bare (.call name args) unmarked
  · exact .done named
  · exact .done (by decide)
  · exact pluralizeText_bare unmarked bare (.call name args)
  · refine Yields.afterEntering .learningPathItem fun _ => ?_
    refine Yields.andThen (joined_bare bare) fun shown listed => ?_
    exact .done ((named.append (by decide)).append listed)
  · exact filterText_bare unmarked bare named
  · exact plainCall_bare bare named

theorem endingText_bare : endingText.Yields Bare := by
  intro scopes text after made
  obtain ⟨block, middle, -, shown⟩ := Conversion.bind_eq_ok_iff.1 made
  cases shown
  exact Bare.append (by decide) block.name_bare

/-- No rule adds a tag character. -/
theorem rule_bare {segment : Segment} (unmarked : segment.Unmarked)
    (bare : ∀ child ∈ segment.children, child.convert.Yields Bare) :
    (rule segment (partsBy Segment.convert segment.children)).Yields Bare := by
  cases segment with
  | text s => exact .done (unmarked.own rfl)
  | string s => exact .done (unmarked.own rfl)
  | number digits => exact .done (unmarked.own rfl)
  | chain items =>
      rcases Segment.kind_chain_cases items with kind | kind | kind
      all_goals simp only [rule, kind]
      · exact loopText_bare unmarked.child bare (.chain items)
      · exact appText_bare (.chain items) unmarked.child
      · exact chainText_bare bare true
  | reference name =>
      have own : Bare name := unmarked.own rfl
      rcases Segment.kind_reference_cases name with kind | kind | kind
      all_goals simp only [rule, kind]
      · exact .done own
      · exact .done (Bare.append (by decide) own)
      · exact .done own
  | call name args => exact rule_call_bare (unmarked.own rfl) unmarked.child bare
  | ending => exact endingText_bare
  | operator tag sign operand =>
      have inside : operand ∈ (Segment.operator tag sign operand).children := by
        simp [Segment.children]
      simp only [rule, Segment.kind, partsBy, Segment.children, List.map]
      exact operatorText_bare _ tag _ (unmarked.child operand inside) (bare operand inside)

/-- Segments without tag characters are converted to texts without them. -/
theorem Segment.Unmarked.convert_bare {segment : Segment} (unmarked : segment.Unmarked) :
    segment.convert.Yields Bare := by
  induction segment using Segment.induction with
  | step segment ih =>
      rw [Segment.convert_eq]
      apply rule_bare unmarked
      intro child member
      exact ih child member (unmarked.child child member)

end Liquefy
