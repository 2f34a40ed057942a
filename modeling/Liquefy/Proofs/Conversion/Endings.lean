import Liquefy.Proofs.Conversion.Brackets

/-!
# Every `end` names the block that it closes

The closing tags of a document are made from the blocks that are open, its opening tags from five
different rules. `every_end_closes_its_block` says that both agree with the brackets of the
document's events: an `end` is named after the open that it belongs to, the tag of that open
begins with the same name, and what is left open at the end are the opens without an `end`.
-/

namespace Liquefy

/-! ### Opening tags -/

/-- The text up to its first white space. -/
def firstWord (text : String) : String :=
  String.ofList (text.toList.takeWhile fun c => !Text.isBlank c)

theorem Block.firstWord_name (block : Block) : firstWord block.name = block.name := by
  cases block <;> decide

theorem Block.firstWord_name_append (block : Block) (rest : String) :
    firstWord (block.name ++ (" " ++ rest)) = block.name := by
  have solid : block.name.toList.all (fun c => !Text.isBlank c) = true := by
    cases block <;> decide
  have stop : (" " ++ rest).toList.takeWhile (fun c => !Text.isBlank c) = [] := by
    simp [String.toList_append, Text.isBlank, Text.blankRanges]
  rw [firstWord, String.toList_append, List.takeWhile_append_of_pos (List.all_eq_true.1 solid),
    stop]
  simp

theorem Block.name_of_ofCondition? {name : String} {block : Block}
    (opened : Block.ofCondition? name = some block) : name = block.name := by
  unfold Block.ofCondition? at opened
  split at opened
  · cases opened
    assumption
  · split at opened
    · cases opened
      assumption
    · simp at opened

section Openers

variable {scopes after : Scopes} {inner : String} {block : Block}

theorem plainCall_text {name : String} {parts : Parts}
    (opened : Block.ofCondition? name = some block)
    (converted : plainCall name parts scopes = (.ok inner, after)) :
    ∃ rest, inner = block.name ++ (" " ++ rest) := by
  obtain ⟨args, middle, -, rest⟩ := Conversion.bind_eq_ok_iff.1 converted
  simp only [opened] at rest
  obtain ⟨_, _, -, made⟩ := Conversion.bind_eq_ok_iff.1 rest
  cases made
  rw [callText, Block.name_of_ofCondition? opened]
  exact ⟨joined args ++ conditionSuffix (joined args), by simp [String.append_assoc]⟩

theorem loopText_text {segment : Segment} {items : List Segment}
    (sound : loopFlaw? items = none)
    (converted : loopText segment (partsBy Segment.convert items) scopes = (.ok inner, after)) :
    ∃ rest, inner = Block.loop.name ++ (" " ++ rest) := by
  obtain ⟨name, shown⟩ := loopText_of_sound Segment.convert segment sound
  rw [shown] at converted
  obtain ⟨collection, middle, -, rest⟩ := Conversion.bind_eq_ok_iff.1 converted
  obtain ⟨_, _, -, made⟩ := Conversion.bind_eq_ok_iff.1 rest
  cases made
  have spaced : "for " = Block.loop.name ++ " " := rfl
  exact ⟨name ++ " in " ++ collection, by simp only [spaced, String.append_assoc]⟩

theorem name_of_learningPathItem {name : String} {args : Arguments Segment}
    (kind : (Segment.call name args).kind = .learningPathItem) :
    name = Block.learningPathItem.name := by
  simp only [Segment.kind, Segment.kindOfCall] at kind
  repeat' split at kind
  all_goals simp at kind
  assumption

/-- A call that opens a block without help from its arguments begins with the block's name. -/
theorem rule_call_text {name : String} {args : Arguments Segment} {parts : Parts}
    (opened : .opens block ∈ BlockEvent.ofKind (.call name args) (eventParts args.toList))
    (quiet : ∀ arg ∈ args.toList, arg.blockEvents = [])
    (converted : rule (.call name args) parts scopes = (.ok inner, after)) :
    (Segment.call name args).kind.tagStyle = .statement ∧ firstWord inner = block.name := by
  have silent : blockWord args.toList = [] := blockWord_eq_nil quiet
  have kinds := Segment.kind_call_cases name args
  simp only [List.mem_cons, List.not_mem_nil, or_false] at kinds
  rcases kinds with kind | kind | kind | kind | kind | kind | kind | kind
  all_goals simp only [BlockEvent.ofKind, kind] at opened
  all_goals simp only [rule, kind] at converted
  all_goals rw [kind]
  · obtain ⟨arg, found, listed, search⟩ := searchBlock_of_kind kind
    obtain rfl : block = found := by simpa [Segment.children, listed, search] using opened
    simp only [searchFormText, Arguments.single?, listed, Option.bind_some, search] at converted
    obtain ⟨_, _, -, made⟩ := Conversion.bind_eq_ok_iff.1 converted
    cases made
    exact ⟨rfl, block.firstWord_name⟩
  · simp at opened
  · simp at opened
  · simp at opened
  · have counted : blockWord (args.toList.take 1) = [] :=
      blockWord_eq_nil fun arg member => quiet arg (List.take_subset 1 _ member)
    simp [counted] at opened
  · obtain rfl : block = .learningPathItem := by simpa [silent] using opened
    obtain ⟨_, _, -, rest⟩ := Conversion.bind_eq_ok_iff.1 converted
    obtain ⟨shown, _, -, made⟩ := Conversion.bind_eq_ok_iff.1 rest
    cases made
    refine ⟨rfl, ?_⟩
    rw [callText, name_of_learningPathItem kind, String.append_assoc]
    exact Block.firstWord_name_append _ _
  · simp [silent] at opened
  · have condition : Block.ofCondition? name = some block := by
      cases found : Block.ofCondition? name with
      | none => simp [silent, BlockEvent.ofCondition, Segment.name?, found] at opened
      | some other =>
          obtain rfl : block = other := by
            simpa [silent, BlockEvent.ofCondition, Segment.name?, found] using opened
          rfl
    obtain ⟨rest, rfl⟩ := plainCall_text condition converted
    exact ⟨rfl, block.firstWord_name_append rest⟩

theorem opener_text {segment : Segment}
    (quiet : ∀ child ∈ segment.children, child.blockEvents = [])
    (opened : .opens block ∈ segment.blockEvents)
    (converted : segment.convert scopes = (.ok inner, after)) :
    segment.kind.tagStyle = .statement ∧ firstWord inner = block.name := by
  have silent : blockWord segment.children = [] := blockWord_eq_nil quiet
  rw [Segment.blockEvents_eq, BlockEvent.rule] at opened
  rw [Segment.convert_eq] at converted
  cases flaw : segment.flaw? with
  | some flaw' => simp [flaw] at opened
  | none =>
      simp only [flaw] at opened
      cases segment with
      | call name args => exact rule_call_text opened quiet converted
      | chain items =>
          simp only [Segment.children] at silent
          have most : blockWord items.dropLast = [] :=
            blockWord_eq_nil fun item member => quiet item (List.dropLast_subset items member)
          rcases Segment.kind_chain_cases items with kind | kind | kind
          all_goals simp only [BlockEvent.ofKind, kind, Segment.children] at opened
          · simp only [Segment.flaw?, kind] at flaw
            simp only [rule, kind, Segment.children] at converted
            obtain rfl : block = .loop := by simpa [most] using opened
            obtain ⟨rest, rfl⟩ := loopText_text flaw converted
            rw [kind]
            exact ⟨rfl, Block.firstWord_name_append _ rest⟩
          · simp at opened
          · simp [silent] at opened
      | reference name =>
          rcases Segment.kind_reference_cases name with kind | kind | kind
          all_goals simp [BlockEvent.ofKind, kind, silent] at opened
      | operator tag sign operand => simp [BlockEvent.ofKind, Segment.kind, silent] at opened
      | _ => simp [BlockEvent.ofKind, Segment.kind] at opened

/-- The tag of a top-level segment that opens a block by itself begins with the block's name. -/
theorem opening_tag {segment : Segment} {text : String}
    (quiet : ∀ child ∈ segment.children, child.blockEvents = [])
    (opened : .opens block ∈ segment.blockEvents)
    (converted : segment.convertTop scopes = (.ok text, after)) :
    ∃ statement, text = "\x7b% " ++ statement ++ " %\x7d" ∧ firstWord statement = block.name := by
  obtain ⟨inner, middle, first, made⟩ := Conversion.bind_eq_ok_iff.1 converted
  cases made
  obtain ⟨style, word⟩ := opener_text quiet opened first
  exact ⟨inner, by rw [Kind.wrap, style, TagStyle.wrap], word⟩

end Openers

/-! ### Closing tags -/

/-- Where a top-level segment stands in a converted document: the blocks open before it, and its
text among the texts. -/
theorem convertEach_split {before after : List Segment} {segment : Segment} {texts : List String}
    {scopes left : Scopes}
    (converted : convertEach (before ++ segment :: after) scopes = (.ok texts, left)) :
    ∃ text middle next, BlockEvent.run (blockWord before) scopes = (none, middle) ∧
      segment.convertTop middle = (.ok text, next) ∧ texts[before.length]? = some text := by
  rw [convertEach_append] at converted
  obtain ⟨earlier, middle, first, rest⟩ := Conversion.bind_eq_ok_iff.1 converted
  obtain ⟨others, left', second, made⟩ := Conversion.bind_eq_ok_iff.1 rest
  cases made
  obtain ⟨text, next, own, rest'⟩ := Conversion.bind_eq_ok_iff.1 second
  obtain ⟨later, left'', -, made'⟩ := Conversion.bind_eq_ok_iff.1 rest'
  cases made'
  refine ⟨text, middle, next, ?_, own, ?_⟩
  · have followed := (convertEach_traced before).run_eq scopes
    rw [first] at followed
    exact followed.symm
  · rw [← length_of_convertEach first]
    simp

/-- An `end` that is converted is named after the innermost block. -/
theorem ending_convertTop {scopes after : Scopes} {text : String}
    (converted : Segment.ending.convertTop scopes = (.ok text, after)) :
    ∃ blocks block, scopes.toList = blocks ++ [block] ∧
      text = "\x7b% end" ++ block.name ++ " %\x7d" := by
  match scopes with
  | ⟨[]⟩ => cases converted
  | ⟨block :: blocks⟩ =>
      cases converted
      exact ⟨blocks.reverse, block, by simp [Scopes.toList], by cases block <;> rfl⟩

/-- An event of a part of a document stands where the events of the part stand. -/
theorem mem_blockEvents_of_split {earlier later : List Segment} {opener : Segment}
    {outer inner : List BlockEvent} {event : BlockEvent}
    (split : blockWord (earlier ++ opener :: later) = outer ++ event :: inner)
    (notBefore : (blockWord earlier).length ≤ outer.length)
    (notAfter : outer.length < (blockWord (earlier ++ [opener])).length) :
    event ∈ opener.blockEvents := by
  have found : (blockWord (earlier ++ opener :: later))[outer.length]? = some event := by
    rw [split]
    simp
  simp only [blockWord_append, blockWord_cons, blockWord_nil, List.append_nil,
    List.length_append] at found notAfter
  rw [List.getElem?_append_right notBefore, List.getElem?_append_left (by omega)] at found
  exact List.mem_of_getElem? found

/-- In a document that converts, the text of every top-level `end` names the block of the open
that it belongs to. If that open is the doing of a top-level segment alone, the tag of the segment
begins with the same name. The blocks left open are the opens that no `end` belongs to. -/
theorem every_end_closes_its_block {segments : List Segment} {liquid : String} {left : Scopes}
    (converted : (Template.mk segments).toLiquid = (.ok liquid, left)) :
    ∃ texts, convertEach segments .empty = (.ok texts, left) ∧
      liquid = Idiom.replaceAll (String.join texts) ∧
      (∀ before after, segments = before ++ .ending :: after →
        ∃ outer block inner, Awaits (blockWord before) outer block inner ∧
          texts[before.length]? = some ("\x7b% end" ++ block.name ++ " %\x7d") ∧
          ∀ earlier opener later, before = earlier ++ opener :: later →
            (∀ child ∈ opener.children, child.blockEvents = []) →
            (blockWord earlier).length ≤ outer.length →
            outer.length < (blockWord (earlier ++ [opener])).length →
            ∃ statement, texts[earlier.length]? = some ("\x7b% " ++ statement ++ " %\x7d") ∧
              firstWord statement = block.name) ∧
      left.toList = unmatchedOpens (blockWord segments) := by
  obtain ⟨text, joined, finished⟩ := Template.convertAll_of_toLiquid converted
  rw [convertAll_eq_convertEach] at joined
  obtain ⟨texts, middle, each, made⟩ := Conversion.bind_eq_ok_iff.1 joined
  cases made
  refine ⟨texts, each, finished, ?_, ?_⟩
  · rintro before after rfl
    obtain ⟨ending, found, next, reached, closing, shown⟩ := convertEach_split each
    obtain ⟨blocks, block, innermost, rfl⟩ := ending_convertTop closing
    have leaves := leavesOpen_of_run reached
    rw [innermost] at leaves
    obtain ⟨outer, inner, split, -, balanced⟩ := leaves.exists_innermost
    refine ⟨outer, block, inner, awaits_of_balanced split balanced, shown, ?_⟩
    rintro earlier opener later rfl quiet notBefore notAfter
    have opened := mem_blockEvents_of_split split notBefore notAfter
    rw [List.append_assoc, List.cons_append] at each
    obtain ⟨tag, _, _, -, opening, shown'⟩ := convertEach_split each
    obtain ⟨statement, rfl, word⟩ := opening_tag quiet opened opening
    exact ⟨statement, shown', word⟩
  · have followed := (convertEach_traced segments).run_eq .empty
    rw [each] at followed
    exact (leavesOpen_of_run followed.symm).unmatchedOpens_eq.symm

/-- A loop that is closed inside a condition that is not. -/
theorem every_end_closes_its_block_loop_in_condition :
    (Template.mk [.callOn "if" [.reference "a"],
        .chain [.reference "bs", .callOn "each" [.string "b"]], .ending]).toLiquid =
      (.ok (Idiom.replaceAll "\x7b% if a %\x7d\x7b% for b in bs %\x7d\x7b% endfor %\x7d"),
        ⟨[.conditional]⟩) ∧
    ∃ (texts : List String) (block : Block) (statement : String),
      convertEach [.callOn "if" [.reference "a"],
          .chain [.reference "bs", .callOn "each" [.string "b"]], .ending] .empty =
        (.ok texts, ⟨[.conditional]⟩) ∧
      texts[2]? = some ("\x7b% end" ++ block.name ++ " %\x7d") ∧
      texts[1]? = some ("\x7b% " ++ statement ++ " %\x7d") ∧ firstWord statement = block.name := by
  have converted : (Template.mk [.callOn "if" [.reference "a"],
      .chain [.reference "bs", .callOn "each" [.string "b"]], .ending]).toLiquid =
      (.ok (Idiom.replaceAll "\x7b% if a %\x7d\x7b% for b in bs %\x7d\x7b% endfor %\x7d"),
        ⟨[.conditional]⟩) := Template.toLiquid_of_ok rfl
  refine ⟨converted, ?_⟩
  obtain ⟨texts, each, -, ends, -⟩ := every_end_closes_its_block converted
  obtain ⟨outer, block, inner, awaits, closing, openers⟩ :=
    ends [.callOn "if" [.reference "a"], .chain [.reference "bs", .callOn "each" [.string "b"]]] []
      rfl
  have long : 1 ≤ outer.length :=
    awaits.latest [.opens .conditional] .loop [] rfl .nil
  have split : [.opens .conditional, .opens .loop] = outer ++ .opens block :: inner := awaits.split
  have short : outer.length + (inner.length + 1) = 2 := by
    simpa using (congrArg List.length split).symm
  have quiet : ∀ child ∈ [Segment.reference "bs", .callOn "each" [.string "b"]],
      child.blockEvents = [] := by
    rintro child (_ | ⟨_, _ | ⟨_, ⟨⟩⟩⟩)
    · rfl
    · rfl
  obtain ⟨statement, opening, word⟩ :=
    openers [.callOn "if" [.reference "a"]] (.chain [.reference "bs", .callOn "each" [.string "b"]])
      [] rfl quiet long (Nat.lt_of_lt_of_le (by omega) (Nat.le_refl 2))
  exact ⟨texts, block, statement, each, closing, opening, word⟩

end Liquefy
