import Liquefy.Json.Skimming

/-!
# Reading values of a known shape

Each reader here asks for one shape and checks it while the text is read, so the first problem met
is the one reported. A value of another shape is read just far enough to name it: words, numbers
and strings whole, of a list or an object only the opening bracket.
-/

namespace Liquefy.Json

/-! ### Values that were not asked for -/

/-- What stands at a value's first character. -/
def standing (c : Char) (cs : List Char) : Result Found :=
  if c = 'n' then readWord .null ['u', 'l', 'l'] cs
  else if c = 't' then readWord (.boolean true) ['r', 'u', 'e'] cs
  else if c = 'f' then readWord (.boolean false) ['a', 'l', 's', 'e'] cs
  else if c = '-' then (numeral true cs).onValue Numeral.found
  else if isDigit c then (numeral false (c :: cs)).onValue Numeral.found
  else if c = '"' then (quoted.run cs).onValue .string
  else if c = '[' then .ok (.sequence, cs)
  else if c = '\x7b' then .ok (.map, cs)
  else .error (.malformed .valueExpected)

/-- The fault of a value that is not what was asked for. -/
def unexpected (expected : Expectation) (c : Char) (cs : List Char) : Fault :=
  match standing c cs with
  | .error fault => fault
  | .ok (found, _) => .mismatched (.wrongType found expected)

/-! ### Strings, numbers, null and lists -/

/-- A string. -/
def string : Reader String :=
  .byFirst
    (fun c cs => if c = '"' then quoted.run cs else .error (unexpected .string c cs))
    (by
      intro c cs a rest h
      split at h
      · exact Nat.le_of_lt (quoted.shorter h)
      · simp at h)

/-- The word `null`, as the payload of something that needs none. -/
def null {α : Type} (a : α) : Reader α :=
  .byFirst
    (fun c cs =>
      if c = 'n' then readWord a ['u', 'l', 'l'] cs else .error (unexpected .null c cs))
    (by
      intro c cs a rest h
      split at h
      · exact length_le_of_readWord h
      · simp at h)

/-- A value that may be `null`. -/
def optional {α : Type} (reader : Reader α) : Reader (Option α) where
  run cs :=
    match afterBlanks cs with
    | 'n' :: cs' => readWord none ['u', 'l', 'l'] cs'
    | _ => (reader.run cs).onValue some
  shorter := by
    intro cs a rest h
    split at h
    · rename_i cs' blanks
      exact Nat.lt_of_le_of_lt (length_le_of_readWord h) (length_lt_of_afterBlanks_eq_cons blanks)
    · obtain ⟨b, read, -⟩ := Result.onValue_eq_ok_iff.1 h
      exact reader.shorter read

/-- A whole number below 65536. -/
def checkShort : Numeral → Except Fault UInt16
  | .integer n =>
      if 0 ≤ n ∧ n < 65536 then .ok n.toNat.toUInt16
      else .error (.mismatched (.outOfRange (.integer n) .shortNumber))
  | .float bits => .error (.mismatched (.wrongType (.float bits) .shortNumber))

/-- A whole number below 65536. -/
def shortNumber : Reader UInt16 :=
  .byFirst
    (fun c cs =>
      if c = '-' then (numeral true cs).checked checkShort
      else if isDigit c then (numeral false (c :: cs)).checked checkShort
      else .error (unexpected .shortNumber c cs))
    (by
      intro c cs a rest h
      split at h
      · obtain ⟨n, read, -⟩ := Result.checked_eq_ok_iff.1 h
        exact Nat.le_of_lt (length_lt_of_numeral read)
      · split at h
        · obtain ⟨n, read, -⟩ := Result.checked_eq_ok_iff.1 h
          exact Nat.le_of_lt_succ (length_lt_of_numeral read)
        · simp at h)

/-- A list whose items are read by `item`, if the budget admits its bracket. -/
def list {α : Type} (budget : Nat) (item : Reader α) : Reader (List α) :=
  .byFirst
    (fun c cs =>
      if c = '[' then
        if budget = 0 then .error (.malformed .nestingTooDeep) else readList item cs
      else .error (unexpected .sequence c cs))
    (by
      intro c cs a rest h
      split at h
      · split at h
        · simp at h
        · exact length_le_of_readList h
      · simp at h)

/-! ### Variants -/

/-- A choice between named variants. A variant without payload is written as its name; any other
as an object with the name as its only key. -/
structure Variants (τ α : Type) where
  names : List String
  ofName? : String → Option τ
  /-- The value of a variant written as its bare name. -/
  bare : τ → Except Fault α
  /-- The value of a variant written with a payload. -/
  payload : τ → Reader α

namespace Variants

variable {τ α : Type} (variants : Variants τ α)

/-- The variant of a name. -/
def ofName (name : String) : Except Fault τ :=
  match variants.ofName? name with
  | some tag => .ok tag
  | none => .error (.mismatched (.unknownVariant name variants.names))

/-- The name that opens the object of a variant. An object without members lacks the variant's
value. -/
def key (cs : List Char) : Result String :=
  match afterBlanks cs with
  | [] => .error (.truncated .object)
  | c :: rest =>
      if c = '"' then quoted.run rest
      else if c = '\x7d' then .error (.malformed .valueExpected)
      else .error (.malformed .keyNotString)

theorem length_lt_of_key {cs rest : List Char} {name : String}
    (h : key cs = .ok (name, rest)) : rest.length < cs.length := by
  rw [key] at h
  split at h
  · simp at h
  · rename_i c rest' blanks
    split at h
    · exact Nat.lt_trans (quoted.shorter h) (length_lt_of_afterBlanks_eq_cons blanks)
    · split at h <;> simp at h

/-- The brace that closes the object of a variant; nothing else may follow the payload. -/
def close (cs : List Char) : Except Fault (List Char) :=
  match afterBlanks cs with
  | [] => .error (.truncated .object)
  | c :: rest => if c = '\x7d' then .ok rest else .error (.malformed .valueExpected)

/-- A variant with its payload, after the opening brace. -/
def object (cs : List Char) : Result α :=
  match key cs with
  | .error fault => .error fault
  | .ok (name, rest) =>
      match variants.ofName name with
      | .error fault => .error fault
      | .ok tag =>
          match readColon rest with
          | .error fault => .error fault
          | .ok rest₁ =>
              match (variants.payload tag).run rest₁ with
              | .error fault => .error fault
              | .ok (a, rest₂) =>
                  match close rest₂ with
                  | .error fault => .error fault
                  | .ok rest₃ => .ok (a, rest₃)

theorem length_lt_of_close {cs rest : List Char} (h : close cs = .ok rest) :
    rest.length < cs.length := by
  rw [close] at h
  split at h
  · simp at h
  · rename_i c rest' blanks
    split at h
    · cases h
      exact length_lt_of_afterBlanks_eq_cons blanks
    · simp at h

theorem length_le_of_object {cs rest : List Char} {a : α}
    (h : variants.object cs = .ok (a, rest)) : rest.length ≤ cs.length := by
  rw [object] at h
  split at h
  · simp at h
  · rename_i name rest₀ readKey
    split at h
    · simp at h
    · split at h
      · simp at h
      · rename_i rest₁ colon
        split at h
        · simp at h
        · rename_i b rest₂ readPayload
          split at h
          · simp at h
          · rename_i rest₃ closed
            have := length_lt_of_key readKey
            have := length_lt_of_readColon colon
            have := (variants.payload _).shorter readPayload
            have := length_lt_of_close closed
            cases h
            omega

/-- A value of one of the variants, if the budget admits its brace. -/
def reader (budget : Nat) : Reader α :=
  .byFirst
    (fun c cs =>
      if c = '"' then
        (quoted.run cs).checked fun name =>
          match variants.ofName name with
          | .error fault => .error fault
          | .ok tag => variants.bare tag
      else if c = '\x7b' then
        if budget = 0 then .error (.malformed .nestingTooDeep) else variants.object cs
      else .error (.malformed .valueExpected))
    (by
      intro c cs a rest h
      split at h
      · obtain ⟨name, read, -⟩ := Result.checked_eq_ok_iff.1 h
        exact Nat.le_of_lt (quoted.shorter read)
      · split at h
        · split at h
          · simp at h
          · exact variants.length_le_of_object h
        · simp at h)

end Variants

/-! ### Whole texts -/

/-- The number of brackets that may be open at a time. -/
def maxDepth : Nat := 127

/-- One value and nothing but blanks after it. -/
def decode {α : Type} (reader : Reader α) (text : String) : Except Fault α :=
  match reader.run text.toList with
  | .error fault => .error fault
  | .ok (a, rest) =>
      if afterBlanks rest = [] then .ok a else .error (.malformed .trailingCharacters)

end Liquefy.Json
