import Liquefy.Json.Shape

/-!
# Records

A record is written as an object with named members in any order, or as an array of the fields in
their declared order. Members of other names are passed over; a field given twice is refused at
its second key and a missing one at the closing brace. The array may leave out only fields marked
as such, at its end. While a record is read its fields are collected in a draft.
-/

namespace Liquefy.Json

/-- One field of a record whose parts are collected in a draft. -/
structure Field (δ : Type) where
  name : String
  /-- The draft already has this field. -/
  isSet : δ → Bool
  /-- Read the field; the result enters it into the draft. -/
  read : Reader (δ → δ)
  /-- The array form may end before this field. -/
  mayEnd : Bool

/-- A record: its fields, the draft without any, and what a finished draft makes. -/
structure Record (δ α : Type) where
  name : String
  fields : List (Field δ)
  blank : δ
  finish : δ → Except Fault α

namespace Record

variable {δ α : Type} (record : Record δ α)

/-- A member after its key: a field of the record, or something to pass over. -/
def member (draft : δ) (key : String) (cs : List Char) : Result δ :=
  match record.fields.find? fun field => field.name == key with
  | none =>
      match readColon cs with
      | .error fault => .error fault
      | .ok rest => (skim.run rest).onValue fun _ => draft
  | some field =>
      if field.isSet draft then .error (.mismatched (.duplicateField field.name))
      else
        match readColon cs with
        | .error fault => .error fault
        | .ok rest => (field.read.run rest).onValue fun enter => enter draft

theorem length_lt_of_member {draft draft' : δ} {key : String} {cs rest : List Char}
    (h : record.member draft key cs = .ok (draft', rest)) : rest.length < cs.length := by
  rw [member] at h
  split at h
  · split at h
    · simp at h
    · rename_i rest₁ colon
      obtain ⟨_, read, -⟩ := Result.onValue_eq_ok_iff.1 h
      exact Nat.lt_trans (skim.shorter read) (length_lt_of_readColon colon)
  · rename_i field _
    split at h
    · simp at h
    · split at h
      · simp at h
      · rename_i rest₁ colon
        obtain ⟨_, read, -⟩ := Result.onValue_eq_ok_iff.1 h
        exact Nat.lt_trans (field.read.shorter read) (length_lt_of_readColon colon)

/-- The members of the object form from the given step on. -/
def readMembers (draft : δ) (step : Step) : Result α :=
  match step with
  | .done rest =>
      match record.finish draft with
      | .error fault => .error fault
      | .ok a => .ok (a, rest)
  | .more rest =>
      match readKey : quoted.run rest with
      | .error fault => .error fault
      | .ok (key, rest₁) =>
          match readMember : record.member draft key rest₁ with
          | .error fault => .error fault
          | .ok (draft', rest₂) =>
              match readStep : nextMember rest₂ with
              | .error fault => .error fault
              | .ok step' =>
                  have := Nat.lt_trans (length_lt_of_nextMember readStep)
                    (Nat.lt_trans (record.length_lt_of_member readMember) (quoted.shorter readKey))
                  readMembers draft' step'
termination_by step.rest.length

theorem length_le_of_readMembers {draft : δ} {step : Step} {a : α} {rest : List Char}
    (h : record.readMembers draft step = .ok (a, rest)) : rest.length ≤ step.rest.length := by
  fun_induction readMembers record draft step with
  | case2 => cases h; exact Nat.le_refl _
  | case6 _ _ _ _ _ _ _ _ _ _ shorter ih =>
      exact Nat.le_trans (ih h) (Nat.le_of_lt shorter)
  | _ => simp at h

/-- The end of the array form; no element may follow the last field. -/
def closeArray (cs : List Char) : Except Fault (List Char) :=
  match afterBlanks cs with
  | [] => .error (.truncated .list)
  | c :: rest =>
      if c = ']' then .ok rest
      else if c = ',' then
        match afterBlanks rest with
        | ']' :: _ => .error (.malformed .trailingComma)
        | _ => .error (.malformed .trailingCharacters)
      else .error (.malformed .trailingCharacters)

/-- What stands before the field of the given index in the array form. -/
def beforeField (index : Nat) (cs : List Char) : Except Fault Step :=
  if index = 0 then firstElement cs else nextElement cs

/-- The array form from the field of the given index on. -/
def readElements (draft : δ) (index : Nat) : List (Field δ) → List Char → Result α
  | [], cs =>
      match closeArray cs with
      | .error fault => .error fault
      | .ok rest =>
          match record.finish draft with
          | .error fault => .error fault
          | .ok a => .ok (a, rest)
  | field :: fields, cs =>
      match beforeField index cs with
      | .error fault => .error fault
      | .ok (.done rest) =>
          if field.mayEnd then
            match record.finish draft with
            | .error fault => .error fault
            | .ok a => .ok (a, rest)
          else
            .error (.mismatched (.tooFewElements index record.name record.fields.length))
      | .ok (.more rest) =>
          match field.read.run rest with
          | .error fault => .error fault
          | .ok (enter, rest') => readElements (enter draft) (index + 1) fields rest'

theorem length_lt_of_closeArray {cs rest : List Char} (h : closeArray cs = .ok rest) :
    rest.length < cs.length := by
  rw [closeArray] at h
  split at h
  · simp at h
  · rename_i c rest' blanks
    split at h
    · cases h
      exact length_lt_of_afterBlanks_eq_cons blanks
    · split at h
      · split at h <;> simp at h
      · simp at h

theorem length_le_of_beforeField {index : Nat} {cs : List Char} {step : Step}
    (h : beforeField index cs = .ok step) : step.rest.length ≤ cs.length := by
  rw [beforeField] at h
  split at h
  · exact length_le_of_firstElement h
  · exact Nat.le_of_lt (length_lt_of_nextElement h)

theorem length_le_of_readElements {draft : δ} {index : Nat} {fields : List (Field δ)}
    {cs rest : List Char} {a : α}
    (h : record.readElements draft index fields cs = .ok (a, rest)) :
    rest.length ≤ cs.length := by
  induction fields generalizing draft index cs with
  | nil =>
      rw [readElements] at h
      split at h
      · simp at h
      · rename_i rest' closed
        split at h
        · simp at h
        · cases h
          exact Nat.le_of_lt (length_lt_of_closeArray closed)
  | cons field fields ih =>
      rw [readElements] at h
      split at h
      · simp at h
      · rename_i rest' before
        split at h
        · split at h
          · simp at h
          · cases h
            exact length_le_of_beforeField before
        · simp at h
      · rename_i rest' before
        have taken := length_le_of_beforeField before
        split at h
        · simp at h
        · rename_i enter rest'' read
          have := field.read.shorter read
          have := ih h
          simp only [Step.rest] at taken
          omega

/-- A record in either form, if the budget admits its bracket. -/
def reader (budget : Nat) : Reader α :=
  .byFirst
    (fun c cs =>
      if c = '[' then
        if budget = 0 then .error (.malformed .nestingTooDeep)
        else record.readElements record.blank 0 record.fields cs
      else if c = '\x7b' then
        if budget = 0 then .error (.malformed .nestingTooDeep)
        else
          match firstMember cs with
          | .error fault => .error fault
          | .ok step => record.readMembers record.blank step
      else .error (unexpected (.record record.name) c cs))
    (by
      intro c cs a rest h
      split at h
      · split at h
        · simp at h
        · exact record.length_le_of_readElements h
      · split at h
        · split at h
          · simp at h
          · split at h
            · simp at h
            · rename_i step first
              exact Nat.le_trans (record.length_le_of_readMembers h)
                (Nat.le_of_lt (length_lt_of_firstMember first))
        · simp at h)

end Record

/-- The value of a field that a record cannot do without. -/
def required {α : Type} (name : String) : Option α → Except Fault α
  | some a => .ok a
  | none => .error (.mismatched (.missingField name))

end Liquefy.Json
