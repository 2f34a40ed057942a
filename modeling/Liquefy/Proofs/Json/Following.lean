import Liquefy.Proofs.Json.Meaning
import Liquefy.Proofs.Json.Restoring

/-!
# A value does not depend on what follows it

A text that was read up to some point is read in the same way if further text follows, provided
that the further text cannot go on with the last value: at a closing brace a number has ended. So a
text that is a value by itself is the same value as the last member of an object.
-/

namespace Liquefy.Json

theorem afterBlanks_append {c : Char} {cs cs' : List Char} (begins : afterBlanks cs = c :: cs')
    (more : List Char) : afterBlanks (cs ++ more) = c :: (cs' ++ more) := by
  obtain ⟨solid, front, rfl, blank⟩ := afterBlanks_eq_cons_iff.1 begins
  exact afterBlanks_eq_cons_iff.2 ⟨solid, front, by simp, blank⟩

/-! ### Strings and numbers -/

theorem StringSpelled.append {s cs rest : List Char} (spelled : StringSpelled s cs rest)
    (more : List Char) : StringSpelled s (cs ++ more) (rest ++ more) := by
  induction spelled with
  | closed => exact .closed
  | character first _ ih =>
      rw [List.append_assoc]
      exact .character first ih

theorem quoted_append {cs rest : List Char} {s : String} (read : quoted.run cs = .ok (s, rest))
    (more : List Char) : quoted.run (cs ++ more) = .ok (s, rest ++ more) :=
  quoted_run_eq_ok_iff.2 ((quoted_run_eq_ok_iff.1 read).append more)

theorem DigitRun.append_brace {digits rest : List Char} (run : DigitRun digits rest)
    (more : List Char) : DigitRun digits (rest ++ '\x7d' :: more) :=
  ⟨run.nonempty, run.decimal, run.ended.append (by decide) more⟩

theorem FractionSpelled.append_brace {fraction cs rest : List Char}
    (spelled : FractionSpelled fraction cs rest) (more : List Char) :
    FractionSpelled fraction (cs ++ '\x7d' :: more) (rest ++ '\x7d' :: more) := by
  cases spelled with
  | absent other => exact .absent (other.append (by decide) more)
  | digits run =>
      rw [List.cons_append, List.append_assoc]
      exact .digits (run.append_brace more)

theorem ExponentSpelled.append_brace {exponent : Option (Bool × List Char)} {cs rest : List Char}
    (spelled : ExponentSpelled exponent cs rest) (more : List Char) :
    ExponentSpelled exponent (cs ++ '\x7d' :: more) (rest ++ '\x7d' :: more) := by
  cases spelled with
  | absent other => exact .absent (other.append (by decide) more)
  | digits marked signed run =>
      rw [List.cons_append, List.append_assoc, List.append_assoc]
      exact .digits marked signed (run.append_brace more)

/-- A closing brace does not go on with any part of a number. -/
theorem NumeralSpelled.append_brace {spelling : Spelling} {cs rest : List Char}
    (spelled : NumeralSpelled spelling cs rest) (more : List Char) :
    NumeralSpelled spelling (cs ++ '\x7d' :: more) (rest ++ '\x7d' :: more) := by
  obtain ⟨digits, zero, fractional, scaled⟩ := spelled
  rw [List.append_assoc]
  exact .intro (digits.append_brace more) zero (fractional.append_brace more)
    (scaled.append_brace more)

theorem numeral_append {cs rest : List Char} {negative : Bool} {n : Numeral}
    (read : numeral negative cs = .ok (n, rest)) (more : List Char) :
    numeral negative (cs ++ '\x7d' :: more) = .ok (n, rest ++ '\x7d' :: more) := by
  obtain ⟨spelling, scanned, value⟩ := numeral_eq_ok_iff.1 read
  have spelled := (scanNumeral_eq_ok_iff.1 scanned).append_brace more
  exact numeral_eq_ok_iff.2 ⟨spelling, scanNumeral_eq_ok_iff.2 spelled, value⟩

/-! ### Trees -/

section Trees

variable {α : Type} {frame : Frame} {entry : α → List Char → List Char → Prop}

theorem Tail.append {as : List α} {cs rest : List Char} (tail : Tail frame entry as cs rest)
    {more : List Char}
    (each : ∀ a ∈ as, ∀ cs rest, entry a cs rest → entry a (cs ++ more) (rest ++ more)) :
    Tail frame entry as (cs ++ more) (rest ++ more) := by
  induction tail with
  | closed close => exact .closed (afterBlanks_append close more)
  | comma comma next others ih =>
      exact .comma (afterBlanks_append comma more) (each _ (by simp) _ _ next)
        (ih fun a member => each a (List.mem_cons_of_mem _ member))

theorem Entries.append {as : List α} {cs rest more : List Char}
    (entries : Entries frame entry as cs rest)
    (each : ∀ a ∈ as, ∀ cs rest, entry a cs rest → entry a (cs ++ more) (rest ++ more)) :
    Entries frame entry as (cs ++ more) (rest ++ more) := by
  cases entries with
  | none close => exact .none (afterBlanks_append close more)
  | some first others =>
      exact .some (each _ (by simp) _ _ first)
        (others.append fun a member => each a (List.mem_cons_of_mem _ member))

theorem Member.append {key : String} {a : α} {cs rest : List Char}
    (member : Member entry (some key, a) cs rest) {more : List Char}
    (value : ∀ cs rest, entry a cs rest → entry a (cs ++ more) (rest ++ more)) :
    Member entry (some key, a) (cs ++ more) (rest ++ more) := by
  obtain ⟨cs₁, cs₂, cs₃, quote, read, colon, given⟩ := member_some_iff.1 member
  exact member_some_iff.2 ⟨cs₁ ++ more, cs₂ ++ more, cs₃ ++ more, afterBlanks_append quote more,
    quoted_append read more, afterBlanks_append colon more, value cs₃ rest given⟩

/-- A tree is spelled in the same way before a closing brace as at the end of a text. -/
theorem Tree.spelled_append {tree : Tree} {cs rest : List Char}
    (spelled : tree.outline.Spelled cs rest) (more : List Char) :
    tree.outline.Spelled (cs ++ '\x7d' :: more) (rest ++ '\x7d' :: more) := by
  induction bound : tree.depth using Nat.strongRecOn generalizing tree cs rest with
  | ind depth ih =>
      subst bound
      cases tree with
      | null =>
          cases spelled with
          | null word => exact .null (afterBlanks_append word _)
      | boolean b =>
          cases spelled with
          | yes word => exact .yes (afterBlanks_append word _)
          | no word => exact .no (afterBlanks_append word _)
      | number n =>
          refine Outline.spelled_number_iff.2 ?_
          obtain ⟨cs', minus, number⟩ | number := Outline.spelled_number_iff.1 spelled
          · exact .inl ⟨_, afterBlanks_append minus _, numeral_append number more⟩
          · obtain ⟨spelling, digits, -⟩ := numeral_eq_ok_iff.1 number
            obtain ⟨c, cs', begins, -⟩ := head_of_scanNumeral digits
            have longer := numeral_append number more
            rw [begins, List.cons_append] at longer
            exact .inr (by rwa [afterBlanks_append begins])
      | string s =>
          obtain ⟨cs', quote, read⟩ := Outline.spelled_string_iff.1 spelled
          exact Outline.spelled_string_iff.2
            ⟨_, afterBlanks_append quote _, quoted_append read _⟩
      | array items =>
          cases spelled with
          | array bracket entries =>
              refine .array (afterBlanks_append bracket _) (entries.append ?_)
              rw [outlines_eq_map]
              intro outline listed cs rest spelled
              obtain ⟨item, member, rfl⟩ := List.mem_map.1 listed
              exact ih item.depth (depth_lt_of_mem_items member) spelled rfl
      | object members =>
          cases spelled with
          | object brace entries =>
              refine .object (afterBlanks_append brace _) (entries.append ?_)
              rw [memberOutlines_eq_map]
              intro outline listed cs rest given
              obtain ⟨pair, member, rfl⟩ := List.mem_map.1 listed
              refine given.append fun cs rest spelled => ?_
              exact ih pair.2.depth (depth_lt_of_mem_members member) spelled rfl

end Trees

end Liquefy.Json
