import Liquefy.Proofs.Json.Restoring

/-!
# Brackets of a text

How many brackets are open at a time can be counted on a text without reading it as a value: only
strings have to be told from the rest. For the text of a tree the count is the depth of the tree.
-/

namespace Liquefy.Json

/-- Where in a text a character stands. -/
inductive Position where
  | outside
  /-- Between the quotes of a string. -/
  | inside
  /-- Behind a backslash in a string. -/
  | escaped
  deriving DecidableEq, Repr

/-- The position of the character after the given one. -/
def Position.next : Position → Char → Position
  | .outside, c => if c = '"' then .inside else .outside
  | .inside, c => if c = '"' then .outside else if c = '\\' then .escaped else .inside
  | .escaped, _ => .inside

/-- The brackets open after a character, given those open before it. -/
def Position.level (opened : Nat) : Position → Char → Nat
  | .outside, c =>
      if c = '[' ∨ c = '\x7b' then opened + 1
      else if c = ']' ∨ c = '\x7d' then opened - 1
      else opened
  | _, _ => opened

/-- The most brackets that are open at a time, from the given position on with some open. -/
def peak (position : Position) (opened : Nat) : List Char → Nat
  | [] => opened
  | c :: cs => max opened (peak (position.next c) (position.level opened c) cs)

/-- The most brackets that are open at a time in a text. -/
def nesting (text : String) : Nat := peak .outside 0 text.toList

theorem le_peak (position : Position) (opened : Nat) (cs : List Char) :
    opened ≤ peak position opened cs := by
  cases cs with
  | nil => exact Nat.le_refl opened
  | cons c cs => exact Nat.le_max_left _ _

/-- A character that neither opens nor closes a bracket makes no difference to the count. -/
theorem peak_cons {position : Position} {c : Char} (opened : Nat) (cs : List Char)
    (same : position.level opened c = opened) :
    peak position opened (c :: cs) = peak (position.next c) opened cs := by
  rw [peak, same]
  exact Nat.max_eq_right (le_peak _ _ _)

/-! ### Strings hold no brackets -/

theorem next_hexDigit {n : Nat} (small : n < 16) :
    Position.inside.next (hexDigit n) = .inside := by
  have all : ∀ n < 16, Position.inside.next (hexDigit n) = .inside := by decide
  exact all n small

theorem peak_escapeChar (opened : Nat) (c : Char) (cs : List Char) :
    peak .inside opened (escapeChar c ++ cs) = peak .inside opened cs := by
  have inside (d : Char) (ds : List Char) :
      peak .inside opened (d :: ds) = peak (Position.inside.next d) opened ds := peak_cons _ _ rfl
  have escaped (d : Char) (ds : List Char) :
      peak .inside opened ('\\' :: d :: ds) = peak .inside opened ds := by
    rw [inside]
    exact peak_cons _ _ rfl
  rcases escapeChar_cases c with
    ⟨written, quote, backslash, -⟩ | ⟨letter, written, -⟩ | ⟨control, written⟩
  · have next : Position.inside.next c = .inside := by simp [Position.next, quote, backslash]
    rw [written, List.singleton_append, inside, next]
  · rw [written]
    exact escaped letter cs
  · have zero : Position.inside.next '0' = .inside := rfl
    have high := next_hexDigit (show c.toNat / 16 < 16 by omega)
    have low := next_hexDigit (show c.toNat % 16 < 16 by omega)
    simp only [written, List.cons_append, List.nil_append, escaped]
    rw [inside, zero, inside, zero, inside, high, inside, low]

theorem peak_characters (opened : Nat) (s rest : List Char) :
    peak .inside opened (s.flatMap escapeChar ++ '"' :: rest) = peak .outside opened rest := by
  induction s with
  | nil => exact peak_cons opened rest rfl
  | cons c s ih => rw [List.flatMap_cons, List.append_assoc, peak_escapeChar, ih]

/-! ### Texts that close what they open -/

/-- The text closes every bracket it opens, and at most `height` of them are open at a time. -/
def Rises (text : List Char) (height : Nat) : Prop :=
  ∀ opened rest, peak .outside opened (text ++ rest) =
    max (opened + height) (peak .outside opened rest)

theorem rises_nil : Rises [] 0 := by
  intro opened rest
  exact (Nat.max_eq_right (le_peak _ _ _)).symm

theorem Rises.append {text text' : List Char} {height height' : Nat} (rises : Rises text height)
    (rises' : Rises text' height') : Rises (text ++ text') (max height height') := by
  intro opened rest
  rw [List.append_assoc, rises, rises']
  omega

/-- The quote and the brackets. -/
def isMark (c : Char) : Bool := c = '"' || c = '[' || c = '\x7b' || c = ']' || c = '\x7d'

/-- Any other character in front of a text makes no difference. -/
theorem Rises.cons {text : List Char} {height : Nat} (rises : Rises text height) {c : Char}
    (plain : isMark c = false) : Rises (c :: text) height := by
  intro opened rest
  simp only [isMark, Bool.or_eq_false_iff, decide_eq_false_iff_not] at plain
  have level : Position.outside.level opened c = opened := by simp [Position.level, plain]
  have next : Position.outside.next c = .outside := by simp [Position.next, plain]
  rw [List.cons_append, peak_cons opened _ level, next, rises]

theorem rises_word {letters : List Char} (plain : letters.all fun c => !isMark c) :
    Rises letters 0 := by
  induction letters with
  | nil => exact rises_nil
  | cons c letters ih =>
      simp only [List.all_cons, Bool.and_eq_true, Bool.not_eq_true'] at plain
      exact (ih plain.2).cons plain.1

theorem Rises.bracketed {text : List Char} {height : Nat} (rises : Rises text height)
    {left right : Char}
    (pair : (left, right) = ('[', ']') ∨ (left, right) = ('\x7b', '\x7d')) :
    Rises (left :: (text ++ [right])) (height + 1) := by
  intro opened rest
  have up : peak .outside opened (left :: (text ++ right :: rest)) =
      max opened (peak .outside (opened + 1) (text ++ right :: rest)) := by
    rcases pair with pair | pair <;> cases pair <;> rfl
  have down : peak .outside (opened + 1) (right :: rest) =
      max (opened + 1) (peak .outside opened rest) := by
    rcases pair with pair | pair <;> cases pair <;> rfl
  rw [List.cons_append, List.append_assoc, List.singleton_append, up, rises, down]
  omega

theorem rises_writeString (s : String) : Rises (writeString s) 0 := by
  intro opened rest
  have inside : peak .outside opened ('"' :: (s.toList.flatMap escapeChar ++ '"' :: rest)) =
      peak .inside opened (s.toList.flatMap escapeChar ++ '"' :: rest) := peak_cons opened _ rfl
  rw [writeString_append, inside, peak_characters]
  exact (Nat.max_eq_right (le_peak _ _ _)).symm

/-! ### The brackets of a tree -/

namespace Tree

theorem rises_writeItems {items : List Tree} (each : ∀ item ∈ items, Rises item.write item.depth) :
    Rises (writeItems items) (depthOfItems items) := by
  induction items with
  | nil => exact rises_nil
  | cons item items ih =>
      have later := ih fun other member => each other (List.mem_cons_of_mem _ member)
      have first := each item (by simp)
      simpa [writeItems, depthOfItems] using (first.append later).cons (by decide)

theorem rises_member {key : String} {value : Tree} (rises : Rises value.write value.depth) :
    Rises (writeString key ++ ':' :: value.write) value.depth := by
  have colon : Rises (':' :: value.write) value.depth := rises.cons (by decide)
  simpa using (rises_writeString key).append colon

theorem rises_writeMembers {members : List (String × Tree)}
    (each : ∀ member ∈ members, Rises member.2.write member.2.depth) :
    Rises (writeMembers members) (depthOfMembers members) := by
  induction members with
  | nil => exact rises_nil
  | cons member members ih =>
      obtain ⟨key, value⟩ := member
      have later := ih fun other among => each other (List.mem_cons_of_mem _ among)
      have first : Rises (writeString key ++ ':' :: value.write) value.depth :=
        rises_member (each (key, value) (by simp))
      simpa [writeMembers, depthOfMembers] using (first.append later).cons (by decide)

theorem Numberless.rises {tree : Tree} (numberless : tree.Numberless) :
    Rises tree.write tree.depth := by
  induction numberless with
  | null => exact rises_word (by decide)
  | boolean b =>
      cases b
      · exact rises_word (by decide)
      · exact rises_word (by decide)
  | string s => exact rises_writeString s
  | @array items each ih =>
      rw [depth]
      cases items with
      | nil => exact rises_nil.bracketed (.inl rfl)
      | cons item items =>
          have first := ih item (by simp)
          have later := rises_writeItems fun other member => ih other (List.mem_cons_of_mem _ member)
          have whole := (first.append later).bracketed (.inl rfl)
          simpa [write, depthOfItems] using whole
  | @object members each ih =>
      rw [depth]
      rcases members with _ | ⟨⟨key, value⟩, members⟩
      · exact rises_nil.bracketed (.inr rfl)
      · have first : Rises (writeString key ++ ':' :: value.write) value.depth :=
          rises_member (ih (key, value) (by simp))
        have later := rises_writeMembers fun other among => ih other (List.mem_cons_of_mem _ among)
        have whole := (first.append later).bracketed (.inr rfl)
        simpa [write, depthOfMembers] using whole

/-- The brackets counted on the text of a tree are those of its deepest point. -/
theorem nesting_text {tree : Tree} (numberless : tree.Numberless) :
    nesting tree.text = tree.depth := by
  have count := numberless.rises 0 []
  simpa [nesting, text, peak] using count

end Tree

end Liquefy.Json
