import Liquefy.Json.Fault

/-!
# Readers

A reader takes characters off the front of a text. When it succeeds it has taken at least one, so
a loop over readers ends because the text gets shorter. Blanks before a value belong to the value.
-/

namespace Liquefy.Json

/-- What reading gives: a value with the text after it, or the fault that was met first. -/
abbrev Result (α : Type) := Except Fault (α × List Char)

/-- Apply a function to the value that was read. -/
def Result.onValue {α β : Type} (f : α → β) : Result α → Result β
  | .error fault => .error fault
  | .ok (a, rest) => .ok (f a, rest)

/-- Check the value that was read and keep what the check makes of it. -/
def Result.checked {α β : Type} (check : α → Except Fault β) : Result α → Result β
  | .error fault => .error fault
  | .ok (a, rest) =>
      match check a with
      | .error fault => .error fault
      | .ok b => .ok (b, rest)

theorem Result.onValue_eq_ok_iff {α β : Type} {f : α → β} {result : Result α} {b : β}
    {rest : List Char} :
    Result.onValue f result = .ok (b, rest) ↔ ∃ a, result = .ok (a, rest) ∧ f a = b := by
  match result with
  | .error fault => simp [onValue]
  | .ok (a, rest') => grind [onValue]

theorem Result.checked_eq_ok_iff {α β : Type} {check : α → Except Fault β} {result : Result α}
    {b : β} {rest : List Char} :
    Result.checked check result = .ok (b, rest) ↔
      ∃ a, result = .ok (a, rest) ∧ check a = .ok b := by
  match result with
  | .error fault => simp [checked]
  | .ok (a, rest') => cases h : check a <;> grind [checked]

/-- A way to read a value from the front of a text, with the law that success takes a character. -/
structure Reader (α : Type) where
  run : List Char → Result α
  shorter : ∀ {cs a rest}, run cs = .ok (a, rest) → rest.length < cs.length

namespace Reader

/-- Refuses every text. -/
def refuse {α : Type} (fault : Fault) : Reader α where
  run _ := .error fault
  shorter h := by simp at h

/-- Apply a function to the value that was read. -/
def map {α β : Type} (f : α → β) (reader : Reader α) : Reader β where
  run cs := (reader.run cs).onValue f
  shorter h :=
    let ⟨_, read, _⟩ := Result.onValue_eq_ok_iff.1 h
    reader.shorter read

/-- Check the value that was read and keep what the check makes of it. -/
def checked {α β : Type} (reader : Reader α) (check : α → Except Fault β) : Reader β where
  run cs := (reader.run cs).checked check
  shorter h :=
    let ⟨_, read, _⟩ := Result.checked_eq_ok_iff.1 h
    reader.shorter read

end Reader

/-! ### Blanks, words and punctuation -/

/-- The four characters that may stand between tokens. -/
def isBlank (c : Char) : Bool := c = ' ' || c = '\n' || c = '\t' || c = '\r'

/-- The text from its first character that is not blank. -/
def afterBlanks (cs : List Char) : List Char := cs.dropWhile isBlank

theorem length_afterBlanks_le (cs : List Char) : (afterBlanks cs).length ≤ cs.length :=
  (List.dropWhile_suffix isBlank).length_le

theorem length_lt_of_afterBlanks_eq_cons {cs rest : List Char} {c : Char}
    (h : afterBlanks cs = c :: rest) : rest.length < cs.length := by
  have := length_afterBlanks_le cs
  rw [h] at this
  exact Nat.lt_of_lt_of_le (by simp) this

/-- The value of a word whose first letter has been taken; its other letters must follow. -/
def readWord {α : Type} (a : α) : (letters : List Char) → List Char → Result α
  | [], cs => .ok (a, cs)
  | _ :: _, [] => .error (.truncated .value)
  | w :: letters, c :: cs =>
      if c = w then readWord a letters cs else .error (.malformed .wordExpected)

theorem length_le_of_readWord {α : Type} {a b : α} {letters cs rest : List Char}
    (h : readWord a letters cs = .ok (b, rest)) : rest.length ≤ cs.length := by
  induction letters generalizing cs with
  | nil => cases h; exact Nat.le_refl _
  | cons w letters ih =>
      cases cs with
      | nil => simp [readWord] at h
      | cons c cs =>
          rw [readWord] at h
          split at h
          · exact Nat.le_succ_of_le (ih h)
          · simp at h

/-- The colon between a key and its value. -/
def readColon (cs : List Char) : Except Fault (List Char) :=
  match afterBlanks cs with
  | [] => .error (.truncated .object)
  | c :: rest => if c = ':' then .ok rest else .error (.malformed .colonExpected)

theorem length_lt_of_readColon {cs rest : List Char} (h : readColon cs = .ok rest) :
    rest.length < cs.length := by
  rw [readColon] at h
  split at h
  · simp at h
  · rename_i c rest' blanks
    split at h
    · cases h
      exact length_lt_of_afterBlanks_eq_cons blanks
    · simp at h

/-- A reader that decides by the first character of a value what to do with the characters after
it. -/
def Reader.byFirst {α : Type} (dispatch : Char → List Char → Result α)
    (law : ∀ {c cs a rest}, dispatch c cs = .ok (a, rest) → rest.length ≤ cs.length) :
    Reader α where
  run cs :=
    match afterBlanks cs with
    | [] => .error (.truncated .value)
    | c :: cs' => dispatch c cs'
  shorter := by
    intro cs a rest h
    split at h
    · simp at h
    · rename_i c cs' blanks
      exact Nat.lt_of_le_of_lt (law h) (length_lt_of_afterBlanks_eq_cons blanks)

/-! ### The way through a list or an object -/

/-- Where a reader stands between the entries of a list or an object. -/
inductive Step where
  /-- The closing bracket has been taken. -/
  | done (rest : List Char)
  /-- Another entry follows. -/
  | more (rest : List Char)

/-- The text still to be read. -/
def Step.rest : Step → List Char
  | .done rest => rest
  | .more rest => rest

/-- After the opening bracket of a list: anything but its end begins an element. -/
def firstElement (cs : List Char) : Except Fault Step :=
  match afterBlanks cs with
  | [] => .error (.truncated .list)
  | c :: rest => if c = ']' then .ok (.done rest) else .ok (.more (c :: rest))

/-- After an element of a list. -/
def nextElement (cs : List Char) : Except Fault Step :=
  match afterBlanks cs with
  | [] => .error (.truncated .list)
  | c :: rest =>
      if c = ']' then .ok (.done rest)
      else if c = ',' then
        match afterBlanks rest with
        | [] => .error (.truncated .value)
        | d :: rest' =>
            if d = ']' then .error (.malformed .trailingComma) else .ok (.more (d :: rest'))
      else .error (.malformed .listCommaOrEndExpected)

/-- After the opening brace of an object: its end, or the opening quote of a key, which is taken. -/
def firstMember (cs : List Char) : Except Fault Step :=
  match afterBlanks cs with
  | [] => .error (.truncated .object)
  | c :: rest =>
      if c = '\x7d' then .ok (.done rest)
      else if c = '"' then .ok (.more rest)
      else .error (.malformed .keyNotString)

/-- After a member of an object: its end, or the opening quote of the next key, which is taken. -/
def nextMember (cs : List Char) : Except Fault Step :=
  match afterBlanks cs with
  | [] => .error (.truncated .object)
  | c :: rest =>
      if c = '\x7d' then .ok (.done rest)
      else if c = ',' then
        match afterBlanks rest with
        | [] => .error (.truncated .value)
        | d :: rest' =>
            if d = '"' then .ok (.more rest')
            else if d = '\x7d' then .error (.malformed .trailingComma)
            else .error (.malformed .keyNotString)
      else .error (.malformed .objectCommaOrEndExpected)

theorem length_le_of_firstElement {cs : List Char} {step : Step} (h : firstElement cs = .ok step) :
    step.rest.length ≤ cs.length := by
  rw [firstElement] at h
  split at h
  · simp at h
  · rename_i c rest blanks
    have taken := length_lt_of_afterBlanks_eq_cons blanks
    split at h <;> cases h <;> simp [Step.rest] <;> omega

theorem length_lt_of_nextElement {cs : List Char} {step : Step} (h : nextElement cs = .ok step) :
    step.rest.length < cs.length := by
  rw [nextElement] at h
  split at h
  · simp at h
  · rename_i c rest blanks
    have taken := length_lt_of_afterBlanks_eq_cons blanks
    split at h
    · cases h; exact taken
    · split at h
      · split at h
        · simp at h
        · rename_i d rest' blanks'
          have taken' := length_lt_of_afterBlanks_eq_cons blanks'
          split at h
          · simp at h
          · cases h; simp [Step.rest]; omega
      · simp at h

theorem length_lt_of_firstMember {cs : List Char} {step : Step} (h : firstMember cs = .ok step) :
    step.rest.length < cs.length := by
  rw [firstMember] at h
  split at h
  · simp at h
  · rename_i c rest blanks
    have taken := length_lt_of_afterBlanks_eq_cons blanks
    split at h
    · cases h; exact taken
    · split at h
      · cases h; exact taken
      · simp at h

theorem length_lt_of_nextMember {cs : List Char} {step : Step} (h : nextMember cs = .ok step) :
    step.rest.length < cs.length := by
  rw [nextMember] at h
  split at h
  · simp at h
  · rename_i c rest blanks
    have taken := length_lt_of_afterBlanks_eq_cons blanks
    split at h
    · cases h; exact taken
    · split at h
      · split at h
        · simp at h
        · rename_i d rest' blanks'
          have taken' := length_lt_of_afterBlanks_eq_cons blanks'
          split at h
          · cases h; simp [Step.rest]; omega
          · split at h <;> simp at h
      · simp at h

/-! ### Lists -/

/-- The elements of a list from the given step on, each read by `item`. -/
def elements {α : Type} (item : Reader α) (taken : List α) (step : Step) : Result (List α) :=
  match step with
  | .done rest => .ok (taken.reverse, rest)
  | .more rest =>
      match readItem : item.run rest with
      | .error fault => .error fault
      | .ok (a, rest') =>
          match readStep : nextElement rest' with
          | .error fault => .error fault
          | .ok step' =>
              have := Nat.lt_trans (length_lt_of_nextElement readStep) (item.shorter readItem)
              elements item (a :: taken) step'
termination_by step.rest.length

theorem length_le_of_elements {α : Type} {item : Reader α} {taken as : List α} {step : Step}
    {rest : List Char} (h : elements item taken step = .ok (as, rest)) :
    rest.length ≤ step.rest.length := by
  fun_induction elements item taken step with
  | case1 => cases h; exact Nat.le_refl _
  | case2 => simp at h
  | case3 => simp at h
  | case4 _ _ _ _ _ _ _ shorter ih => exact Nat.le_trans (ih h) (Nat.le_of_lt shorter)

/-- A list after its opening bracket. -/
def readList {α : Type} (item : Reader α) (cs : List Char) : Result (List α) :=
  match firstElement cs with
  | .error fault => .error fault
  | .ok step => elements item [] step

theorem length_le_of_readList {α : Type} {item : Reader α} {cs rest : List Char} {as : List α}
    (h : readList item cs = .ok (as, rest)) : rest.length ≤ cs.length := by
  rw [readList] at h
  split at h
  · simp at h
  · rename_i step first
    exact Nat.le_trans (length_le_of_elements h) (length_le_of_firstElement first)

end Liquefy.Json
