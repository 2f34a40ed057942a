import Liquefy.Proofs.Json.Following
import Liquefy.Proofs.Segment.WireGrammar

/-!
# Arguments are read as if they stood alone

The arguments of a call are the only part of a segment that is read as a tree before it is looked
at. Nothing is lost by that: a text that is a tree by itself is taken as one argument exactly if it
is decoded as a segment, as a list of arguments exactly if it is decoded as the list of a chain, and
as no arguments exactly if it is `null`. Any other tree is refused with one and the same fault.
-/

namespace Liquefy

open Json

namespace Segment

/-- The text of a call with the given text for its arguments. -/
def textOfCall (name args : String) : String :=
  "\x7b\"call\":\x7b\"name\":" ++ (Tree.string name).text ++ ",\"args\":" ++ args ++ "\x7d\x7d"

/-- The text of a chain with the given text for its list. -/
def textOfChain (items : String) : String := "\x7b\"chain\":" ++ items ++ "\x7d"

/-- The lists of the pieces of a text; the pieces are variables, since unfolding a string takes
long. -/
theorem toList_pieces (a b c d e : String) :
    (a ++ b ++ c ++ d ++ e).toList = a.toList ++ b.toList ++ c.toList ++ d.toList ++ e.toList := by
  simp only [String.toList_append]

theorem toList_textOfCall (name args : String) :
    (textOfCall name args).toList =
      '\x7b' :: '"' :: keyText "call" ('\x7b' :: '"' :: keyText "name" (writeString name ++
        ',' :: '"' :: keyText "args" (args.toList ++ ['\x7d', '\x7d']))) := by
  have front : "\x7b\"call\":\x7b\"name\":".toList =
      '\x7b' :: '"' :: keyText "call" ('\x7b' :: '"' :: keyText "name" []) := by decide
  have next : ",\"args\":".toList = ',' :: '"' :: keyText "args" [] := by decide
  have last : "\x7d\x7d".toList = ['\x7d', '\x7d'] := by decide
  have written : (Tree.string name).text.toList = writeString name := String.toList_ofList
  refine (toList_pieces _ _ _ _ _).trans ?_
  simp only [front, written, next, last, keyText, List.append_assoc, List.cons_append,
    List.nil_append]

theorem toList_textOfChain (items : String) :
    (textOfChain items).toList = '\x7b' :: '"' :: keyText "chain" (items.toList ++ ['\x7d']) := by
  have front : "\x7b\"chain\":".toList = '\x7b' :: '"' :: keyText "chain" [] := by decide
  have last : "\x7d".toList = ['\x7d'] := by decide
  simp only [textOfChain, String.toList_append, front, last, keyText, List.append_assoc,
    List.cons_append, List.nil_append]

end Segment

/-! ### Texts inside an object -/

theorem Json.afterBlanks_append_of_blank {rest : List Char} (blank : afterBlanks rest = [])
    {c : Char} (solid : isBlank c = false) (more : List Char) :
    afterBlanks (rest ++ c :: more) = c :: more := by
  rw [afterBlanks] at blank ⊢
  rw [List.dropWhile_append, blank]
  simp [solid]

theorem Json.member_keyText (key : String) {outline : Outline} {cs rest : List Char}
    (spelled : outline.Spelled cs rest) :
    Member Outline.Spelled (some key, outline) ('"' :: keyText key cs) rest :=
  member_some_iff.2 ⟨keyText key cs, ':' :: cs, cs, rfl, quoted_keyText key cs, rfl, spelled⟩

theorem Json.spelled_writeString (s : String) (rest : List Char) :
    (Outline.string (some s)).Spelled (writeString s ++ rest) rest := by
  rw [writeString_append]
  exact Outline.spelled_string_iff.2 ⟨_, rfl, quoted_written s rest⟩

section Texts

variable {tree : Tree} {text : String} (spelled : tree.outline.SpelledBy text)

include spelled

theorem Segment.textOfCall_spelledBy (name : String) :
    (Tree.object [("call", .object [("name", .string name), ("args", tree)])]).outline.SpelledBy
      (textOfCall name text) := by
  obtain ⟨rest, spelled, blank⟩ := spelled
  refine ⟨[], ?_, rfl⟩
  rw [toList_textOfCall]
  have ended := afterBlanks_append_of_blank blank (show isBlank '\x7d' = false by decide) ['\x7d']
  have args := member_keyText "args" (Tree.spelled_append spelled ['\x7d'])
  have members : Entries .object (Member Outline.Spelled)
      [(some "name", .string (some name)), (some "args", tree.outline)]
      ('"' :: keyText "name" (writeString name ++ ',' :: '"' :: keyText "args" _)) ['\x7d'] :=
    .some (member_keyText _ (spelled_writeString name _)) (.comma rfl args (.closed ended))
  have payload : (Outline.object _).Spelled ('\x7b' :: _) ['\x7d'] := .object rfl members
  exact .object rfl (.some (member_keyText _ payload) (.closed rfl))

theorem Segment.textOfChain_spelledBy :
    (Tree.object [("chain", tree)]).outline.SpelledBy (textOfChain text) := by
  obtain ⟨rest, spelled, blank⟩ := spelled
  refine ⟨[], ?_, rfl⟩
  rw [toList_textOfChain]
  have ended := afterBlanks_append_of_blank blank (show isBlank '\x7d' = false by decide) []
  exact .object rfl (.some (member_keyText _ (Tree.spelled_append spelled [])) (.closed ended))

end Texts

/-! ### What the texts denote -/

section Denoting

variable {tree : Tree}

theorem denotes_call_iff {name : String} {segment : Segment} :
    (Tree.object [("call", .object [("name", .string name), ("args", tree)])]).Denotes segment ↔
      ∃ args, segment = .call name args ∧ DenotesArguments Tree.Denotes [tree] args := by
  refine (Tree.denotes_object_iff : (Tree.object [(Tag.call.name, _)]).Denotes _ ↔ _).trans ?_
  constructor
  · intro given
    cases given with
    | @call _ name' args named given =>
        obtain rfl : name = name' := by simpa [valuesAt] using named
        exact ⟨args, rfl, given⟩
  · rintro ⟨args, rfl, given⟩
    exact .call rfl given

theorem denotesArguments_none_iff :
    DenotesArguments Tree.Denotes [tree] .none ↔ tree = .null := by
  constructor
  · intro given
    cases given
    rfl
  · rintro rfl
    exact .null

theorem denotesArguments_one_iff {segment : Segment} :
    DenotesArguments Tree.Denotes [tree] (.one segment) ↔ tree.Denotes segment := by
  constructor
  · intro given
    cases given with
    | one given => exact given
  · intro given
    exact .one given

theorem denotesArguments_many_iff {segments : List Segment} :
    DenotesArguments Tree.Denotes [tree] (.many segments) ↔
      (Tree.object [("chain", tree)]).Denotes (.chain segments) := by
  refine Iff.trans ?_ (Tree.denotes_object_iff :
    (Tree.object [(Tag.chain.name, _)]).Denotes _ ↔ _).symm
  constructor
  · intro given
    cases given with
    | many each => exact .chain each
  · intro given
    cases given with
    | chain each => exact .many each

end Denoting

/-! ### Refused arguments -/

theorem arguments_of_refused {budget : Nat} {tree : Tree} {cs rest : List Char}
    (read : (Tree.read budget).run cs = .ok (tree, rest))
    (refused : Segment.argumentsOfTree? tree = none) :
    (arguments budget).run cs = .error (.mismatched .noArgumentForm) := by
  obtain ⟨outline, spelled, rfl, -⟩ := (Tree.read_means budget cs tree rest).1 read
  have present : tree.outline ≠ .null := by
    rintro absent
    obtain rfl := Tree.outline_eq_null_iff.1 absent
    simp [Segment.argumentsOfTree?] at refused
  have checked : ((Tree.read budget).checked checkArguments).run cs =
      .error (.mismatched .noArgumentForm) := by
    simp [Reader.checked, read, Result.checked, checkArguments, refused]
  simp only [arguments, Reader.map, Json.optional]
  split
  · rename_i cs' first
    exact absurd (spelled.eq_null first) present
  · rw [checked]
    rfl

/-- A call whose arguments have no form is refused for that, once its name has been read. -/
theorem callRecord_of_refused {inner budget : Nat} (room : 0 < budget) (name : String) {tree : Tree}
    {cs rest : List Char} (read : (Tree.read inner).run cs = .ok (tree, rest))
    (refused : Segment.argumentsOfTree? tree = none) :
    ((callRecord inner).reader budget).run ('\x7b' :: '"' :: keyText "name"
        (writeString name ++ ',' :: '"' :: keyText "args" cs)) =
      .error (.mismatched .noArgumentForm) := by
  have named : (callRecord inner).member ⟨none, none⟩ "name"
      (':' :: (writeString name ++ ',' :: '"' :: keyText "args" cs)) =
        .ok (⟨some name, none⟩, ',' :: '"' :: keyText "args" cs) := by
    rw [Record.member_of_field _ rfl rfl]
    simp only [Reader.map, writeString_append, string_run, quoted_written]
    rfl
  have failed : (callRecord inner).member ⟨some name, none⟩ "args" (':' :: cs) =
      .error (.mismatched .noArgumentForm) := by
    rw [Record.member_of_field _ rfl rfl]
    simp only [Reader.map, arguments_of_refused read refused]
    rfl
  have first : firstMember ('"' :: keyText "name"
      (writeString name ++ ',' :: '"' :: keyText "args" cs)) = .ok (.more _) := rfl
  have next : nextMember (',' :: '"' :: keyText "args" cs) = .ok (.more (keyText "args" cs)) := rfl
  rw [Record.reader_run, if_neg (Nat.ne_of_gt room), first]
  exact (Record.readMembers_of_ok named next).trans (Record.readMembers_of_error failed)

theorem Json.Variants.object_of_error {τ α : Type} {variants : Variants τ α} {key : String}
    {tag : τ} {cs : List Char} {fault : Fault} (named : variants.ofName? key = some tag)
    (failed : (variants.payload tag).run cs = .error fault) :
    variants.object ('"' :: keyText key cs) = .error fault := by
  have name : Variants.key ('"' :: keyText key cs) = .ok (key, ':' :: cs) := quoted_keyText key cs
  simp only [Variants.object, name, Variants.ofName, named, readColon_colon, failed]

theorem Segment.decode_textOfCall_of_refused {name text : String} {tree : Tree}
    (buffered : Json.decode (Tree.read 125) text = .ok tree)
    (refused : argumentsOfTree? tree = none) :
    Segment.decode (textOfCall name text) = .error (.mismatched .noArgumentForm) := by
  obtain ⟨⟨rest, spelled, -⟩, fits⟩ := Tree.decode_eq_ok_iff.1 buffered
  have read := (Tree.read_means 125 _ tree _).2
    ⟨_, Tree.spelled_append spelled ['\x7d'], rfl, fits⟩
  have failed := callRecord_of_refused (show 0 < 126 by decide) name read refused
  have run : (Segment.read maxDepth).run (textOfCall name text).toList =
      .error (.mismatched .noArgumentForm) := by
    rw [toList_textOfCall]
    exact Variants.object_of_error (Tag.ofName?_name .call) failed
  rw [Segment.decode, Json.decode, run]

/-- Reading the arguments of a call as a tree first agrees with decoding them where they stand. For
a text that is a tree with at most 125 brackets open at a time, the call has one argument exactly if
the text is decoded as a segment, a list of them exactly if the text is decoded as that of a chain,
and none exactly if it is `null`; otherwise the call is refused because its arguments have no
form. -/
theorem buffered_arguments_agree_with_streamed (name text : String) (tree : Tree)
    (buffered : Json.decode (Tree.read 125) text = .ok tree) :
    (∀ segment, Segment.decode (Segment.textOfCall name text) = .ok (.call name (.one segment)) ↔
      Segment.decode text = .ok segment) ∧
    (∀ segments, Segment.decode (Segment.textOfCall name text) = .ok (.call name (.many segments)) ↔
      Segment.decode (Segment.textOfChain text) = .ok (.chain segments)) ∧
    (Segment.decode (Segment.textOfCall name text) = .ok (.call name .none) ↔ tree = .null) ∧
    ((∀ segment, Segment.decode text ≠ .ok segment) →
      (∀ segments, Segment.decode (Segment.textOfChain text) ≠ .ok (.chain segments)) →
      tree ≠ .null →
      Segment.decode (Segment.textOfCall name text) = .error (.mismatched .noArgumentForm)) ∧
    (Fault.mismatched .noArgumentForm).message =
      "data did not match any variant of untagged enum Args" := by
  obtain ⟨spelled, fits⟩ := Tree.decode_eq_ok_iff.1 buffered
  have within : tree.depth ≤ maxDepth := Nat.le_trans fits (by decide)
  have alone (segment : Segment) : Segment.decode text = .ok segment ↔ tree.Denotes segment :=
    Segment.decode_of_spelled spelled within
  have chain (segments : List Segment) :
      Segment.decode (Segment.textOfChain text) = .ok (.chain segments) ↔
        DenotesArguments Tree.Denotes [tree] (.many segments) := by
    rw [denotesArguments_many_iff]
    apply Segment.decode_of_spelled (Segment.textOfChain_spelledBy spelled)
    simp only [Tree.depth, Tree.depthOfMembers, maxDepth]
    omega
  have call (args : Arguments Segment) :
      Segment.decode (Segment.textOfCall name text) = .ok (.call name args) ↔
        DenotesArguments Tree.Denotes [tree] args := by
    rw [Segment.decode_of_spelled (Segment.textOfCall_spelledBy spelled name), denotes_call_iff]
    · simp
    · simp only [Tree.depth, Tree.depthOfMembers, maxDepth]
      omega
  refine ⟨fun segment => ?_, fun segments => ?_, ?_, ?_, rfl⟩
  · rw [call, alone, denotesArguments_one_iff]
  · rw [call, chain]
  · rw [call, denotesArguments_none_iff]
  · intro notOne notMany present
    apply Segment.decode_textOfCall_of_refused buffered
    cases found : Segment.argumentsOfTree? tree with
    | none => rfl
    | some args =>
        -- Each form of arguments that the tree could have is excluded.
        have given := Segment.argumentsOfTree?_iff_denotes.1 found
        cases args with
        | none => exact absurd (denotesArguments_none_iff.1 given) present
        | one segment =>
            exact absurd ((alone segment).2 (denotesArguments_one_iff.1 given)) (notOne segment)
        | many segments => exact absurd ((chain segments).2 given) (notMany segments)

/-- One argument, a list of them, and an empty object, which is a tree but has no form of
arguments. -/
theorem buffered_arguments_of_each_form :
    (Json.decode (Tree.read 125) "\"ending\"" = .ok (.string "ending") ∧
      Segment.decode (Segment.textOfCall "f" "\"ending\"") = .ok (.call "f" (.one .ending))) ∧
    (Json.decode (Tree.read 125) "[\"ending\"]" = .ok (.array [.string "ending"]) ∧
      Segment.decode (Segment.textOfCall "f" "[\"ending\"]") = .ok (.call "f" (.many [.ending]))) ∧
    Json.decode (Tree.read 125) "\x7b\x7d" = .ok (.object []) ∧
      Segment.decode (Segment.textOfCall "f" "\x7b\x7d") =
        .error (.mismatched .noArgumentForm) := by
  have buffered {tree : Tree} {text : String} (spelled : tree.outline.SpelledBy text)
      (fits : tree.depth ≤ 125) : Json.decode (Tree.read 125) text = .ok tree :=
    Tree.decode_eq_ok_iff.2 ⟨spelled, fits⟩
  refine ⟨?_, ?_, ?_⟩
  · have spelled : (Tree.string "ending").outline.SpelledBy "\"ending\"" :=
      Tree.Numberless.spelledBy (.string "ending")
    have read := buffered spelled (by decide)
    refine ⟨read, ((buffered_arguments_agree_with_streamed "f" _ _ read).1 _).2 ?_⟩
    exact (Segment.decode_of_spelled spelled (by decide)).2 .ending
  · have spelled : (Tree.array [.string "ending"]).outline.SpelledBy "[\"ending\"]" :=
      Tree.Numberless.spelledBy (.array (by simp))
    have read := buffered spelled (by decide)
    refine ⟨read, ((buffered_arguments_agree_with_streamed "f" _ _ read).2.1 _).2 ?_⟩
    apply (Segment.decode_of_spelled (Segment.textOfChain_spelledBy spelled) (by decide)).2
    exact denotesArguments_many_iff.1 (.many (.cons .ending .nil))
  · have spelled : (Tree.object []).outline.SpelledBy "\x7b\x7d" :=
      Tree.Numberless.spelledBy (.object (by simp))
    have read := buffered spelled (by decide)
    refine ⟨read, (buffered_arguments_agree_with_streamed "f" _ _ read).2.2.2.1 ?_ ?_ ?_⟩
    · intro segment decoded
      cases (Segment.decode_of_spelled spelled (by decide)).1 decoded
    · intro segments decoded
      have denotes := (Segment.decode_of_spelled (Segment.textOfChain_spelledBy spelled)
        (by decide)).1 decoded
      cases denotesArguments_many_iff.2 denotes
    · simp

end Liquefy
