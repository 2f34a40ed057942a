import Liquefy.Proofs.Json.Meaning
import Liquefy.Proofs.Json.Restoring

/-!
# Trees are spelled as they are written

The text of a value says nothing about where the value ends if the value is a number: further digits
would belong to it. Where a comma, a closing bracket or nothing follows, the compact text of a tree
spells the outline of the tree, whole numbers included.
-/

namespace Liquefy.Json

/-- A value has ended before this text, even if the value is a number. -/
def Ended : List Char → Prop
  | [] => True
  | c :: _ => c = ',' ∨ c = ']' ∨ c = '\x7d'

/-! ### Whole numbers -/

theorem isDigit_eq (c : Char) : isDigit c = c.isDigit := by
  simp [isDigit, Char.isDigit, Char.le_def]

theorem Ended.notNext {chars rest : List Char} (ended : Ended rest)
    (others : ([',', ']', '\x7d'].all fun c => c ∉ chars) = true) : NotNext chars rest := by
  cases rest with
  | nil => simp [NotNext]
  | cons c rest =>
      have listed : c ∈ [',', ']', '\x7d'] := by simpa [Ended] using ended
      exact notNext_cons_iff.2 (of_decide_eq_true (List.all_eq_true.1 others c listed))

theorem isDigit_of_mem_toDigits {n : Nat} {c : Char} (member : c ∈ Nat.toDigits 10 n) :
    isDigit c = true := by
  rw [isDigit_eq]
  exact Nat.isDigit_of_mem_toDigits (by decide) (by decide) member

/-- Only zero is written with a leading zero. -/
theorem toDigits_eq_cons {n : Nat} (positive : 0 < n) :
    ∃ c digits, Nat.toDigits 10 n = c :: digits ∧ c ≠ '0' := by
  induction n using Nat.strongRecOn with
  | ind n ih =>
      by_cases small : n < 10
      · refine ⟨n.digitChar, [], Nat.toDigits_of_lt_base small, ?_⟩
        simpa using Nat.ne_of_gt positive
      · obtain ⟨c, digits, begins, other⟩ := ih (n / 10) (by omega) (by omega)
        refine ⟨c, digits ++ [(n % 10).digitChar], ?_, other⟩
        rw [Nat.toDigits_of_base_le (by decide) (by omega), begins, List.cons_append]

theorem scanNumeral_toDigits (n : Nat) {rest : List Char} (ended : Ended rest) :
    scanNumeral (Nat.toDigits 10 n ++ rest) = .ok (⟨Nat.toDigits 10 n, [], none⟩, rest) := by
  have digits : DigitRun (Nat.toDigits 10 n) rest := by
    refine ⟨Nat.toDigits_ne_nil, fun c member => ?_, ended.notNext (by decide)⟩
    exact isDigit_eq_true_iff.1 (isDigit_of_mem_toDigits member)
  have zero (leading : (Nat.toDigits 10 n).head? = some '0') : Nat.toDigits 10 n = ['0'] := by
    obtain rfl | positive := Nat.eq_zero_or_pos n
    · exact Nat.toDigits_zero 10
    · obtain ⟨c, digits, begins, other⟩ := toDigits_eq_cons positive
      rw [begins] at leading
      exact absurd (Option.some.inj leading) other
  exact scanNumeral_eq_ok_iff.2 (.intro digits zero (.absent (ended.notNext (by decide)))
    (.absent (ended.notNext (by decide))))

theorem le_ofDigitChars (digits : List Char) (init : Nat) :
    init ≤ Nat.ofDigitChars 10 digits init := by
  induction digits generalizing init with
  | nil => exact Nat.le_refl init
  | cons c digits ih =>
      rw [Nat.ofDigitChars_cons]
      exact Nat.le_trans (by omega) (ih _)

/-- Digits are all absorbed if their value fits. -/
theorem absorb_eq (digits : List Char) (init : Nat)
    (fits : Nat.ofDigitChars 10 digits init ≤ maxSignificand) :
    absorb init digits = (Nat.ofDigitChars 10 digits init, 0) := by
  induction digits generalizing init with
  | nil => rfl
  | cons c digits ih =>
      have next : init * 10 + digitValue c = 10 * init + (c.toNat - '0'.toNat) := by
        rw [Nat.mul_comm, digitValue]
      rw [Nat.ofDigitChars_cons] at fits ⊢
      have small := Nat.le_trans (le_ofDigitChars digits _) fits
      simp only [absorb, next, if_pos small, ih _ fits]

theorem numeral_toDigits {n : Nat} (fits : n ≤ maxSignificand) {rest : List Char}
    (ended : Ended rest) :
    numeral false (Nat.toDigits 10 n ++ rest) = .ok (.integer n, rest) := by
  have value : Nat.ofDigitChars 10 (Nat.toDigits 10 n) 0 = n := Nat.ofDigitChars_ten_toDigits
  have absorbed := absorb_eq (Nat.toDigits 10 n) 0 (by rwa [value])
  simp [numeral, scanNumeral_toDigits n ended, Spelling.value, absorbed, value, wholeOf]

theorem afterBlanks_toDigits (n : Nat) (rest : List Char) :
    afterBlanks (Nat.toDigits 10 n ++ rest) = Nat.toDigits 10 n ++ rest := by
  obtain ⟨c, digits, begins⟩ := List.exists_cons_of_ne_nil (Nat.toDigits_ne_nil (n := n) (b := 10))
  have digit : isDigit c = true := isDigit_of_mem_toDigits (n := n) (by simp [begins])
  have other {d : Char} (plain : isDigit d = false) : c ≠ d := ne_of_isDigit digit plain
  have solid : isBlank c = false := by
    simp [isBlank, other (d := ' ') rfl, other (d := '\n') rfl, other (d := '\t') rfl,
      other (d := '\r') rfl]
  rw [begins, List.cons_append, afterBlanks_cons solid]

theorem write_integer (n : Nat) : (Numeral.integer n).write = Nat.toDigits 10 n := by
  rw [Numeral.write]
  exact Nat.toList_repr

/-! ### Trees -/

namespace Tree

/-- The compact text of the tree spells it wherever a value can end. -/
def Spells (tree : Tree) : Prop :=
  ∀ rest, Ended rest → tree.outline.Spelled (tree.write ++ rest) rest

theorem number_spells {n : Nat} (fits : n ≤ maxSignificand) :
    (Tree.number (.integer n)).Spells := by
  intro rest ended
  refine Outline.spelled_number_iff.2 (.inr ?_)
  rw [write, write_integer, afterBlanks_toDigits]
  exact numeral_toDigits fits ended

theorem Numberless.spells {tree : Tree} (numberless : tree.Numberless) : tree.Spells := by
  intro rest _
  have read := numberless.restores tree.depth rest
  rw [if_pos (Nat.le_refl _)] at read
  obtain ⟨outline, spelled, rfl, -⟩ := (read_means tree.depth _ _ _).1 read
  exact spelled

theorem ended_writeItems (items : List Tree) (rest : List Char) :
    Ended (writeItems items ++ ']' :: rest) := by
  cases items with
  | nil => exact .inr (.inl rfl)
  | cons item items => exact .inl rfl

theorem writeItems_spelled {items : List Tree} (each : ∀ item ∈ items, item.Spells)
    (rest : List Char) :
    Tail .list Outline.Spelled (outlines items) (writeItems items ++ ']' :: rest) rest := by
  induction items with
  | nil => exact .closed rfl
  | cons item items ih =>
      have first := each item (by simp) _ (ended_writeItems items rest)
      have later := ih fun other member => each other (List.mem_cons_of_mem _ member)
      rw [writeItems, List.cons_append, List.cons_append, List.append_assoc]
      exact .comma (afterBlanks_cons (by decide) _) first later

theorem array_spells {items : List Tree} (each : ∀ item ∈ items, item.Spells) :
    (Tree.array items).Spells := by
  intro rest _
  cases items with
  | nil => exact .array (afterBlanks_cons (by decide) _) (.none (afterBlanks_cons (by decide) _))
  | cons item items =>
      have first := each item (by simp) _ (ended_writeItems items rest)
      have later := writeItems_spelled (fun other later => each other (List.mem_cons_of_mem _ later))
        rest
      have written : (Tree.array (item :: items)).write ++ rest =
          '[' :: (item.write ++ (writeItems items ++ ']' :: rest)) := by simp [write]
      rw [written]
      exact .array (afterBlanks_cons (by decide) _) (.some first later)

theorem ended_writeMembers (members : List (String × Tree)) (rest : List Char) :
    Ended (writeMembers members ++ '\x7d' :: rest) := by
  cases members with
  | nil => exact .inr (.inr rfl)
  | cons member members => exact .inl rfl

/-- A member as it is written: its key in quotes, a colon and its value. -/
theorem member_spelled (key : String) {value : Tree} (spells : value.Spells) {rest : List Char}
    (ended : Ended rest) :
    Member Outline.Spelled (some key, value.outline) ('"' :: keyText key (value.write ++ rest))
      rest :=
  member_some_iff.2 ⟨_, _, _, afterBlanks_cons (by decide) _, quoted_keyText key _,
    afterBlanks_cons (by decide) _, spells rest ended⟩

theorem writeMembers_spelled {members : List (String × Tree)}
    (each : ∀ member ∈ members, member.2.Spells) (rest : List Char) :
    Tail .object (Member Outline.Spelled) (memberOutlines members)
      (writeMembers members ++ '\x7d' :: rest) rest := by
  induction members with
  | nil => exact .closed rfl
  | cons member members ih =>
      obtain ⟨key, value⟩ := member
      have first := member_spelled key (each (key, value) (by simp))
        (ended_writeMembers members rest)
      have later := ih fun other among => each other (List.mem_cons_of_mem _ among)
      have written : writeMembers ((key, value) :: members) ++ '\x7d' :: rest =
          ',' :: '"' :: keyText key (value.write ++ (writeMembers members ++ '\x7d' :: rest)) := by
        simp [writeMembers, keyText, writeString]
      rw [written]
      exact .comma (afterBlanks_cons (by decide) _) first later

theorem object_spells {members : List (String × Tree)}
    (each : ∀ member ∈ members, member.2.Spells) : (Tree.object members).Spells := by
  intro rest _
  rcases members with _ | ⟨⟨key, value⟩, members⟩
  · exact .object (afterBlanks_cons (by decide) _) (.none (afterBlanks_cons (by decide) _))
  · have first := member_spelled key (each (key, value) (by simp))
      (ended_writeMembers members rest)
    have later := writeMembers_spelled
      (fun other among => each other (List.mem_cons_of_mem _ among)) rest
    have written : (Tree.object ((key, value) :: members)).write ++ rest =
        '\x7b' :: '"' :: keyText key (value.write ++ (writeMembers members ++ '\x7d' :: rest)) := by
      simp [write, keyText, writeString]
    rw [written]
    exact .object (afterBlanks_cons (by decide) _) (.some first later)

end Tree

end Liquefy.Json
