import Liquefy.Json.Tree

/-!
# Reading a tree

A tree is read with a budget: the number of brackets that may still be opened. Opening one lowers
the budget for what is inside, so the recursion is on the budget, and within one bracket the loop
over the entries ends because the text gets shorter.
-/

namespace Liquefy.Json

/-- The members of an object from the given step on, each value read by `value`. -/
def members {α : Type} (value : Reader α) (taken : List (String × α)) (step : Step) :
    Result (List (String × α)) :=
  match step with
  | .done rest => .ok (taken.reverse, rest)
  | .more rest =>
      match readKey : quoted.run rest with
      | .error fault => .error fault
      | .ok (key, rest₁) =>
          match colon : readColon rest₁ with
          | .error fault => .error fault
          | .ok rest₂ =>
              match readValue : value.run rest₂ with
              | .error fault => .error fault
              | .ok (a, rest₃) =>
                  match readStep : nextMember rest₃ with
                  | .error fault => .error fault
                  | .ok step' =>
                      have := Nat.lt_trans (length_lt_of_nextMember readStep)
                        (Nat.lt_trans (value.shorter readValue)
                          (Nat.lt_trans (length_lt_of_readColon colon) (quoted.shorter readKey)))
                      members value ((key, a) :: taken) step'
termination_by step.rest.length

theorem length_le_of_members {α : Type} {value : Reader α} {taken found : List (String × α)}
    {step : Step} {rest : List Char} (h : members value taken step = .ok (found, rest)) :
    rest.length ≤ step.rest.length := by
  fun_induction members value taken step with
  | case1 => cases h; exact Nat.le_refl _
  | case6 _ _ _ _ _ _ _ _ _ _ _ _ shorter ih =>
      exact Nat.le_trans (ih h) (Nat.le_of_lt shorter)
  | _ => simp at h

/-- An object after its opening brace. -/
def readObject {α : Type} (value : Reader α) (cs : List Char) : Result (List (String × α)) :=
  match firstMember cs with
  | .error fault => .error fault
  | .ok step => members value [] step

theorem length_le_of_readObject {α : Type} {value : Reader α} {cs rest : List Char}
    {found : List (String × α)} (h : readObject value cs = .ok (found, rest)) :
    rest.length ≤ cs.length := by
  rw [readObject] at h
  split at h
  · simp at h
  · rename_i step first
    exact Nat.le_trans (length_le_of_members h) (Nat.le_of_lt (length_lt_of_firstMember first))

namespace Tree

/-- A tree by its first character, given the budget and the reader for what stands inside
brackets. -/
def dispatch (budget : Nat) (inner : Reader Tree) (c : Char) (cs : List Char) : Result Tree :=
  if c = 'n' then readWord .null ['u', 'l', 'l'] cs
  else if c = 't' then readWord (.boolean true) ['r', 'u', 'e'] cs
  else if c = 'f' then readWord (.boolean false) ['a', 'l', 's', 'e'] cs
  else if c = '-' then (numeral true cs).onValue .number
  else if isDigit c then (numeral false (c :: cs)).onValue .number
  else if c = '"' then (quoted.run cs).onValue .string
  else if c = '[' then
    if budget = 0 then .error (.malformed .nestingTooDeep)
    else (readList inner cs).onValue .array
  else if c = '\x7b' then
    if budget = 0 then .error (.malformed .nestingTooDeep)
    else (readObject inner cs).onValue .object
  else .error (.malformed .valueExpected)

theorem length_le_of_dispatch {budget : Nat} {inner : Reader Tree} {c : Char}
    {cs rest : List Char} {tree : Tree} (h : dispatch budget inner c cs = .ok (tree, rest)) :
    rest.length ≤ cs.length := by
  rw [dispatch] at h
  by_cases null : c = 'n'
  · rw [if_pos null] at h
    exact length_le_of_readWord h
  rw [if_neg null] at h
  by_cases yes : c = 't'
  · rw [if_pos yes] at h
    exact length_le_of_readWord h
  rw [if_neg yes] at h
  by_cases no : c = 'f'
  · rw [if_pos no] at h
    exact length_le_of_readWord h
  rw [if_neg no] at h
  by_cases minus : c = '-'
  · rw [if_pos minus] at h
    obtain ⟨n, read, -⟩ := Result.onValue_eq_ok_iff.1 h
    exact Nat.le_of_lt (length_lt_of_numeral read)
  rw [if_neg minus] at h
  repeat' split at h
  · obtain ⟨n, read, -⟩ := Result.onValue_eq_ok_iff.1 h
    exact Nat.le_of_lt_succ (length_lt_of_numeral read)
  · obtain ⟨s, read, -⟩ := Result.onValue_eq_ok_iff.1 h
    exact Nat.le_of_lt (quoted.shorter read)
  · simp at h
  · obtain ⟨items, read, -⟩ := Result.onValue_eq_ok_iff.1 h
    exact length_le_of_readList read
  · simp at h
  · obtain ⟨found, read, -⟩ := Result.onValue_eq_ok_iff.1 h
    exact length_le_of_readObject read
  · simp at h

/-- A tree that opens at most `budget` brackets inside one another. -/
def read : (budget : Nat) → Reader Tree
  | 0 => .byFirst (dispatch 0 (.refuse (.malformed .nestingTooDeep))) length_le_of_dispatch
  | budget + 1 => .byFirst (dispatch (budget + 1) (read budget)) length_le_of_dispatch

end Tree

end Liquefy.Json
