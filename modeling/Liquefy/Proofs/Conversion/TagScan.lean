import Liquefy.Proofs.Conversion.Unmarked

/-!
# Tags in a finished document

A scan reads a text from the left and finds its tags and what stands outside them. In a document
without tag characters of its own it finds the tags of the top-level segments, one for each segment
that has one, around the text of that segment and nothing more.
-/

namespace Liquefy

/-! ### Scanning for tags -/

/-- What a scan finds. -/
inductive Token where
  /-- A character outside all tags. -/
  | outside (c : Char)
  /-- A tag with what stands between its ends. -/
  | tag (style : TagStyle) (inside : List Char)
  /-- A tag that the text does not close. -/
  | unclosed (style : TagStyle) (inside : List Char)
  deriving DecidableEq, Repr

/-- The tag that two characters open. -/
def TagStyle.opened? (c d : Char) : Option TagStyle :=
  if c = '\x7b' ∧ d = '\x7b' then some .output
  else if c = '\x7b' ∧ d = '%' then some .statement
  else none

/-- Whether two characters close the tag. -/
def TagStyle.closedBy (style : TagStyle) (c d : Char) : Bool :=
  match style with
  | .output => c = '\x7d' && d = '\x7d'
  | .statement => c = '%' && d = '\x7d'
  | .raw => false

mutual

/-- The tags of a text and the characters outside them, from the left. -/
def scan : List Char → List Token
  | [] => []
  | [c] => [.outside c]
  | c :: d :: cs =>
      match TagStyle.opened? c d with
      | some style => scanInside style [] cs
      | none => .outside c :: scan (d :: cs)

/-- The same inside a tag of which a part is read. -/
def scanInside (style : TagStyle) (read : List Char) : List Char → List Token
  | [] => [.unclosed style read]
  | [c] => [.unclosed style (read ++ [c])]
  | c :: d :: cs =>
      if style.closedBy c d then .tag style read :: scan cs
      else scanInside style (read ++ [c]) (d :: cs)

end

/-- Whatever follows, the scan finds the tokens in the text and then goes on with what follows. -/
def Scans (text : List Char) (tokens : List Token) : Prop :=
  ∀ rest, scan (text ++ rest) = tokens ++ scan rest

namespace Scans

theorem nil : Scans [] [] := fun _ => rfl

theorem append {text text' : List Char} {tokens tokens' : List Token} (first : Scans text tokens)
    (second : Scans text' tokens') : Scans (text ++ text') (tokens ++ tokens') := by
  intro rest
  rw [List.append_assoc, first, second, List.append_assoc]

theorem scan_eq {text : List Char} {tokens : List Token} (scans : Scans text tokens) :
    scan text = tokens := by
  simpa [scan] using scans []

end Scans

theorem TagStyle.opened?_of_not_tagCharacter {c : Char} (other : isTagCharacter c = false)
    (d : Char) : opened? c d = none := by
  have brace : c ≠ '\x7b' := by
    rintro rfl
    simp [isTagCharacter] at other
  simp [opened?, brace]

theorem TagStyle.closedBy_of_not_tagCharacter (style : TagStyle) {c : Char}
    (other : isTagCharacter c = false) (d : Char) : style.closedBy c d = false := by
  have ends : c ≠ '\x7d' ∧ c ≠ '%' := by
    constructor
    all_goals
      rintro rfl
      simp [isTagCharacter] at other
  cases style <;> simp [closedBy, ends]

/-- A text without tag characters is outside all tags. -/
theorem scans_outside {cs : List Char} (bare : ∀ c ∈ cs, isTagCharacter c = false) :
    Scans cs (cs.map .outside) := by
  induction cs with
  | nil => exact .nil
  | cons c cs ih =>
      obtain ⟨other, others⟩ := List.forall_mem_cons.1 bare
      intro rest
      have later := ih others rest
      cases after : cs ++ rest with
      | nil =>
          obtain ⟨rfl, rfl⟩ := List.append_eq_nil_iff.1 after
          rfl
      | cons d ds =>
          rw [after] at later
          simp only [List.cons_append, after, scan, TagStyle.opened?_of_not_tagCharacter other d,
            later, List.map_cons]

/-- A text without tag characters is read to the end of its tag. -/
theorem scanInside_append (style : TagStyle) {cs : List Char}
    (bare : ∀ c ∈ cs, isTagCharacter c = false) {c d : Char} (closed : style.closedBy c d = true)
    (read rest : List Char) :
    scanInside style read (cs ++ c :: d :: rest) = .tag style (read ++ cs) :: scan rest := by
  induction cs generalizing read with
  | nil => simp [scanInside, closed]
  | cons e cs ih =>
      obtain ⟨other, others⟩ := List.forall_mem_cons.1 bare
      have later := ih others (read ++ [e])
      cases after : cs ++ c :: d :: rest with
      | nil => simp at after
      | cons f fs =>
          rw [after] at later
          simp only [List.cons_append, after, scanInside,
            style.closedBy_of_not_tagCharacter other f, Bool.false_eq_true, if_false, later,
            List.append_assoc, List.nil_append]

theorem scans_tag {style : TagStyle} {a b c d : Char} (opened : TagStyle.opened? a b = some style)
    (closed : style.closedBy c d = true) {cs : List Char}
    (bare : ∀ e ∈ cs, isTagCharacter e = false) :
    Scans (a :: b :: (cs ++ [c, d])) [.tag style cs] := by
  intro rest
  have found := scanInside_append style bare closed [] rest
  simpa [scan, opened] using found

/-! ### Documents -/

theorem Bare.not_tagCharacter {text : String} (bare : Bare text) :
    ∀ c ∈ text.toList, isTagCharacter c = false := by
  simpa [Bare] using bare

/-- What a scan is to find in a text that is put into a tag: the tag with the text between two
spaces, or without tag the characters of the text. -/
def TagStyle.tokens (style : TagStyle) (inner : String) : List Token :=
  match style with
  | .raw => inner.toList.map .outside
  | _ => [.tag style (' ' :: (inner.toList ++ [' ']))]

theorem TagStyle.scans_wrap (style : TagStyle) {inner : String} (bare : Bare inner) :
    Scans (style.wrap inner).toList (style.tokens inner) := by
  have spaced : ∀ c ∈ ' ' :: (inner.toList ++ [' ']), isTagCharacter c = false := by
    have space : isTagCharacter ' ' = false := by decide
    intro c member
    simp only [List.mem_cons, List.mem_append, List.not_mem_nil, or_false] at member
    rcases member with rfl | inside | rfl
    · exact space
    · exact bare.not_tagCharacter c inside
    · exact space
  cases style with
  | output =>
      have found := scans_tag (rfl : opened? '\x7b' '\x7b' = some .output)
        (rfl : closedBy .output '\x7d' '\x7d' = true) spaced
      simpa [wrap, tokens] using found
  | statement =>
      have found := scans_tag (rfl : opened? '\x7b' '%' = some .statement)
        (rfl : closedBy .statement '%' '\x7d' = true) spaced
      simpa [wrap, tokens] using found
  | raw => exact scans_outside bare.not_tagCharacter

/-- What a scan is to find in a document, from the texts of its top-level segments. -/
def documentTokens (segments : List Segment) (inners : List String) : List Token :=
  (segments.zip inners).flatMap fun (segment, inner) => segment.kind.tagStyle.tokens inner

theorem scans_convertEach {segments : List Segment} {tops : List String} {scopes after : Scopes}
    (unmarked : ∀ segment ∈ segments, segment.Unmarked)
    (converted : convertEach segments scopes = (.ok tops, after)) :
    ∃ inners, texts (partsBy Segment.convert segments) scopes = (.ok inners, after) ∧
      inners.length = segments.length ∧ (∀ inner ∈ inners, Bare inner) ∧
      Scans (String.join tops).toList (documentTokens segments inners) := by
  induction segments generalizing tops scopes with
  | nil =>
      cases converted
      exact ⟨[], rfl, rfl, by simp, by simpa [documentTokens] using Scans.nil⟩
  | cons segment segments ih =>
      obtain ⟨own, others⟩ := List.forall_mem_cons.1 unmarked
      obtain ⟨top, middle, first, rest⟩ := Conversion.bind_eq_ok_iff.1 converted
      obtain ⟨tops', after', later, made⟩ := Conversion.bind_eq_ok_iff.1 rest
      cases made
      obtain ⟨inner, middle', inside, wrapped⟩ := Conversion.bind_eq_ok_iff.1 first
      cases wrapped
      obtain ⟨inners, shown, counted, bare, scans⟩ := ih others later
      have bareInner : Bare inner := own.convert_bare scopes inner middle inside
      refine ⟨inner :: inners, ?_, by simp [counted], ?_, ?_⟩
      · apply Conversion.bind_eq_ok_iff.2
        refine ⟨inner, middle, inside, ?_⟩
        exact Conversion.bind_eq_ok_iff.2 ⟨inners, after, shown, rfl⟩
      · exact List.forall_mem_cons.2 ⟨bareInner, bare⟩
      · rw [String.join_cons, String.toList_append]
        exact (segment.kind.tagStyle.scans_wrap bareInner).append scans

theorem not_tagCharacter_of_outside {segments : List Segment} {inners : List String}
    (bare : ∀ inner ∈ inners, Bare inner) {c : Char}
    (found : .outside c ∈ documentTokens segments inners) : isTagCharacter c = false := by
  obtain ⟨⟨segment, inner⟩, paired, member⟩ := List.mem_flatMap.1 found
  have own := bare inner (List.of_mem_zip paired).2
  cases style : segment.kind.tagStyle with
  | raw =>
      simp only [style, TagStyle.tokens, List.mem_map, Token.outside.injEq] at member
      obtain ⟨d, inside, rfl⟩ := member
      exact own.not_tagCharacter d inside
  | _ => simp [style, TagStyle.tokens] at member

/-- A segment without tag characters is converted to a text without them, and a scan of a document
of such segments finds the tags of its top-level segments, in order, each around the text of its
segment, and outside them no tag character. -/
theorem tags_are_those_of_top_level_segments :
    (∀ (segment : Segment) (scopes after : Scopes) (text : String), segment.Unmarked →
      segment.convert scopes = (.ok text, after) → Bare text) ∧
    (∀ (template : Template) (scopes after : Scopes) (liquid : String),
      (∀ segment ∈ template.segments, segment.Unmarked) →
      template.convert scopes = (.ok liquid, after) →
      ∃ inners text,
        texts (partsBy Segment.convert template.segments) .empty = (.ok inners, after) ∧
        inners.length = template.segments.length ∧
        convertAll template.segments .empty = (.ok text, after) ∧
        liquid = Idiom.replaceAll text ∧
        scan text.toList = documentTokens template.segments inners ∧
        ∀ c, .outside c ∈ scan text.toList → isTagCharacter c = false) := by
  constructor
  · intro segment scopes after text unmarked converted
    exact unmarked.convert_bare scopes text after converted
  · intro template scopes after liquid unmarked converted
    rw [Template.convert_apply] at converted
    obtain ⟨text, middle, all, replaced⟩ := Conversion.bind_eq_ok_iff.1 converted
    cases replaced
    have each := all
    rw [convertAll_eq_convertEach] at each
    obtain ⟨tops, middle', separately, together⟩ := Conversion.bind_eq_ok_iff.1 each
    cases together
    obtain ⟨inners, shown, counted, bare, scans⟩ := scans_convertEach unmarked separately
    have found := scans.scan_eq
    refine ⟨inners, _, shown, counted, all, rfl, found, ?_⟩
    intro c outside
    rw [found] at outside
    exact not_tagCharacter_of_outside bare outside

/-- The condition holds a chain, an operator and a literal, and none of them has a tag. -/
theorem tags_of_condition_between_texts :
    (∀ segment ∈ [Segment.text "Hi ",
        .call "if" (.one (.chain [.reference "a", .operator .equals "=" (.string "x")])),
        .reference "b", .ending], segment.Unmarked) ∧
      Bare "if a == 'x'" ∧
      scan "Hi \x7b% if a == 'x' %\x7d\x7b\x7b b \x7d\x7d\x7b% endif %\x7d".toList =
        [.outside 'H', .outside 'i', .outside ' ', .tag .statement " if a == 'x' ".toList,
          .tag .output " b ".toList, .tag .statement " endif ".toList] := by
  have leaf : ∀ segment : Segment, segment.children = [] →
      (∀ s, segment.writing? = some s → Bare s) → segment.Unmarked := by
    intro segment none own
    exact .of_children own (by simp [none])
  have operator : (Segment.operator .equals "=" (.string "x")).Unmarked := by
    apply Segment.Unmarked.of_children
    · simp [Segment.writing?]
    · simp only [Segment.children, List.forall_mem_singleton]
      exact leaf _ rfl (by rintro _ ⟨⟩; decide)
  have chain : (Segment.chain [.reference "a", .operator .equals "=" (.string "x")]).Unmarked := by
    apply Segment.Unmarked.of_children
    · simp [Segment.writing?]
    · simp only [Segment.children, List.forall_mem_cons]
      exact ⟨leaf _ rfl (by rintro _ ⟨⟩; decide), operator, by simp⟩
  have condition : (Segment.call "if"
      (.one (.chain [.reference "a", .operator .equals "=" (.string "x")]))).Unmarked := by
    apply Segment.Unmarked.of_children
    · rintro _ ⟨⟩
      decide
    · simp only [Segment.children, Arguments.toList, List.forall_mem_singleton]
      exact chain
  have unmarked : ∀ segment ∈ [Segment.text "Hi ",
      .call "if" (.one (.chain [.reference "a", .operator .equals "=" (.string "x")])),
      .reference "b", .ending], segment.Unmarked := by
    simp only [List.forall_mem_cons]
    refine ⟨?_, condition, ?_, ?_, by simp⟩
    · exact leaf _ rfl (by rintro _ ⟨⟩; decide)
    · exact leaf _ rfl (by rintro _ ⟨⟩; decide)
    · exact leaf _ rfl (by rintro _ ⟨⟩)
  refine ⟨unmarked, ?_, ?_⟩
  · exact tags_are_those_of_top_level_segments.1 _ .empty ⟨[.conditional]⟩ _ condition rfl
  · obtain ⟨inners, text, shown, -, converted, -, found, -⟩ :=
      tags_are_those_of_top_level_segments.2 ⟨_⟩ ⟨[.loop]⟩ .empty _ unmarked rfl
    cases shown
    cases converted
    exact found

end Liquefy
