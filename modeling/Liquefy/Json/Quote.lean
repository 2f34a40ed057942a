import Liquefy.Json.Reader

/-!
# JSON strings

Writing escapes the double quote, the backslash and the characters below U+0020. Reading undoes
every escape and refuses half surrogate pairs. Skimming passes over a string whose value nobody
asks for: it only follows the shape of the escapes.
-/

namespace Liquefy.Json

/-! ### Writing -/

/-- The digit of a number below sixteen. -/
def hexDigit (n : Nat) : Char := Nat.digitChar n

/-- One character of a written string. -/
def escapeChar (c : Char) : List Char :=
  if c = '"' then ['\\', '"']
  else if c = '\\' then ['\\', '\\']
  else if c = '\x08' then ['\\', 'b']
  else if c = '\x0c' then ['\\', 'f']
  else if c = '\n' then ['\\', 'n']
  else if c = '\r' then ['\\', 'r']
  else if c = '\t' then ['\\', 't']
  else if c.toNat < 0x20 then
    ['\\', 'u', '0', '0', hexDigit (c.toNat / 16), hexDigit (c.toNat % 16)]
  else [c]

/-- A string between its quotes. -/
def writeString (s : String) : List Char :=
  '"' :: s.toList.flatMap escapeChar ++ ['"']

/-! ### Escapes -/

/-- The value of a hexadecimal digit in either case. -/
def hexValue? (c : Char) : Option Nat :=
  if '0' ≤ c ∧ c ≤ '9' then some (c.toNat - '0'.toNat)
  else if 'a' ≤ c ∧ c ≤ 'f' then some (c.toNat - 'a'.toNat + 10)
  else if 'A' ≤ c ∧ c ≤ 'F' then some (c.toNat - 'A'.toNat + 10)
  else none

/-- The number of bytes that a text takes. -/
def byteCount (cs : List Char) : Nat := (String.ofList cs).utf8ByteSize

/-- The four digits of a `\u` escape. A text of less than four bytes counts as cut short, whatever
its characters are. -/
def readHex (cs : List Char) : Result Nat :=
  match cs with
  | a :: b :: c :: d :: rest =>
      match hexValue? a, hexValue? b, hexValue? c, hexValue? d with
      | some a, some b, some c, some d => .ok (((a * 16 + b) * 16 + c) * 16 + d, rest)
      | _, _, _, _ => .error (.malformed .invalidEscape)
  | _ =>
      if byteCount cs < 4 then .error (.truncated .string)
      else .error (.malformed .invalidEscape)

theorem length_lt_of_readHex {cs rest : List Char} {n : Nat} (h : readHex cs = .ok (n, rest)) :
    rest.length < cs.length := by
  rw [readHex.eq_def] at h
  split at h
  · split at h
    · cases h; simp only [List.length_cons]; omega
    · simp at h
  · split at h <;> simp at h

/-- The first half of a surrogate pair. -/
def isLeadingSurrogate (n : Nat) : Bool := 0xD800 ≤ n && n ≤ 0xDBFF

/-- The second half of a surrogate pair. -/
def isTrailingSurrogate (n : Nat) : Bool := 0xDC00 ≤ n && n ≤ 0xDFFF

/-- The given character, which must come next inside an escape. -/
def readPaired (expected : Char) : List Char → Except Fault (List Char)
  | [] => .error (.truncated .string)
  | c :: rest => if c = expected then .ok rest else .error (.malformed .unpairedSurrogate)

theorem length_lt_of_readPaired {expected : Char} {cs rest : List Char}
    (h : readPaired expected cs = .ok rest) : rest.length < cs.length := by
  cases cs with
  | nil => simp [readPaired] at h
  | cons c cs =>
      rw [readPaired] at h
      split at h
      · cases h; simp
      · simp at h

/-- The character beyond U+FFFF that the two halves of a surrogate pair make. -/
def pairedChar (leading trailing : Nat) : Char :=
  Char.ofNat ((leading - 0xD800) * 0x400 + (trailing - 0xDC00) + 0x10000)

/-- The trailing half that must follow a leading surrogate, with the character that both make. -/
def readTrailing (leading : Nat) (cs : List Char) : Result Char :=
  match readPaired '\\' cs with
  | .error fault => .error fault
  | .ok cs₁ =>
      match readPaired 'u' cs₁ with
      | .error fault => .error fault
      | .ok cs₂ =>
          match readHex cs₂ with
          | .error fault => .error fault
          | .ok (trailing, rest) =>
              if isTrailingSurrogate trailing then .ok (pairedChar leading trailing, rest)
              else .error (.malformed .loneSurrogate)

/-- The character of a `\u` escape, after the letter. -/
def readUnicode (cs : List Char) : Result Char :=
  match readHex cs with
  | .error fault => .error fault
  | .ok (n, rest) =>
      if isTrailingSurrogate n then .error (.malformed .loneSurrogate)
      else if isLeadingSurrogate n then readTrailing n rest
      else .ok (Char.ofNat n, rest)

/-- The character that a single letter after the backslash stands for. -/
def simpleEscape? (c : Char) : Option Char :=
  if c = '"' then some '"'
  else if c = '\\' then some '\\'
  else if c = '/' then some '/'
  else if c = 'b' then some '\x08'
  else if c = 'f' then some '\x0c'
  else if c = 'n' then some '\n'
  else if c = 'r' then some '\r'
  else if c = 't' then some '\t'
  else none

/-- The character of an escape, after the backslash. -/
def readEscape : List Char → Result Char
  | [] => .error (.truncated .string)
  | c :: rest =>
      if c = 'u' then readUnicode rest
      else
        match simpleEscape? c with
        | some d => .ok (d, rest)
        | none => .error (.malformed .invalidEscape)

/-- An escape whose character nobody asks for, after the backslash. -/
def skimEscape : List Char → Except Fault (List Char)
  | [] => .error (.truncated .string)
  | c :: rest =>
      if c = 'u' then
        match readHex rest with
        | .error fault => .error fault
        | .ok (_, rest') => .ok rest'
      else
        match simpleEscape? c with
        | some _ => .ok rest
        | none => .error (.malformed .invalidEscape)

theorem length_lt_of_readTrailing {n : Nat} {cs rest : List Char} {c : Char}
    (h : readTrailing n cs = .ok (c, rest)) : rest.length < cs.length := by
  rw [readTrailing] at h
  split at h
  · simp at h
  · rename_i cs₁ read₁
    split at h
    · simp at h
    · rename_i cs₂ read₂
      split at h
      · simp at h
      · rename_i trailing rest' read₃
        have taken₁ := length_lt_of_readPaired read₁
        have taken₂ := length_lt_of_readPaired read₂
        have taken₃ := length_lt_of_readHex read₃
        split at h
        · obtain rfl : rest' = rest := (Prod.ext_iff.1 (Except.ok.inj h)).2
          omega
        · simp at h

theorem length_lt_of_readUnicode {cs rest : List Char} {c : Char}
    (h : readUnicode cs = .ok (c, rest)) : rest.length < cs.length := by
  rw [readUnicode] at h
  split at h
  · simp at h
  · rename_i n rest' read
    have taken := length_lt_of_readHex read
    split at h
    · simp at h
    · split at h
      · have := length_lt_of_readTrailing h
        omega
      · cases h; exact taken

theorem length_lt_of_readEscape {cs rest : List Char} {c : Char}
    (h : readEscape cs = .ok (c, rest)) : rest.length < cs.length := by
  cases cs with
  | nil => simp [readEscape] at h
  | cons d cs =>
      rw [readEscape] at h
      split at h
      · have := length_lt_of_readUnicode h
        simp only [List.length_cons]; omega
      · split at h
        · cases h; simp
        · simp at h

theorem length_lt_of_skimEscape {cs rest : List Char} (h : skimEscape cs = .ok rest) :
    rest.length < cs.length := by
  cases cs with
  | nil => simp [skimEscape] at h
  | cons d cs =>
      rw [skimEscape] at h
      split at h
      · split at h
        · simp at h
        · rename_i n rest' read
          have := length_lt_of_readHex read
          cases h
          simp only [List.length_cons]; omega
      · split at h
        · cases h; simp
        · simp at h

/-! ### Strings -/

/-- The characters of a string up to its closing quote, after those already taken. -/
def readCharacters (taken cs : List Char) : Result (List Char) :=
  match cs with
  | [] => .error (.truncated .string)
  | c :: rest =>
      if c = '"' then .ok (taken.reverse, rest)
      else if c = '\\' then
        match escaped : readEscape rest with
        | .error fault => .error fault
        | .ok (d, rest') =>
            have := length_lt_of_readEscape escaped
            readCharacters (d :: taken) rest'
      else if c.toNat < 0x20 then .error (.malformed .controlCharacter)
      else readCharacters (c :: taken) rest
termination_by cs.length

theorem length_lt_of_readCharacters {taken cs s rest : List Char}
    (h : readCharacters taken cs = .ok (s, rest)) : rest.length < cs.length := by
  fun_induction readCharacters taken cs with
  | case1 => simp at h
  | case2 => cases h; simp
  | case3 => simp at h
  | case4 taken rest' d rest'' escaped _ _ ih =>
      have := ih h
      have := length_lt_of_readEscape escaped
      simp only [List.length_cons]; omega
  | case5 => simp at h
  | case6 taken c rest' _ _ _ ih =>
      have := ih h
      simp only [List.length_cons]; omega

/-- The text after a string that nobody asks for. -/
def skimCharacters (cs : List Char) : Except Fault (List Char) :=
  match cs with
  | [] => .error (.truncated .string)
  | c :: rest =>
      if c = '"' then .ok rest
      else if c = '\\' then
        match escaped : skimEscape rest with
        | .error fault => .error fault
        | .ok rest' =>
            have := length_lt_of_skimEscape escaped
            skimCharacters rest'
      else if c.toNat < 0x20 then .error (.malformed .controlCharacter)
      else skimCharacters rest
termination_by cs.length

theorem length_lt_of_skimCharacters {cs rest : List Char} (h : skimCharacters cs = .ok rest) :
    rest.length < cs.length := by
  fun_induction skimCharacters cs with
  | case1 => simp at h
  | case2 => cases h; simp
  | case3 => simp at h
  | case4 rest' rest'' escaped _ _ ih =>
      have := ih h
      have := length_lt_of_skimEscape escaped
      simp only [List.length_cons]; omega
  | case5 => simp at h
  | case6 c rest' _ _ _ ih =>
      have := ih h
      simp only [List.length_cons]; omega

/-- A string whose opening quote has been taken. -/
def quoted : Reader String where
  run cs :=
    match readCharacters [] cs with
    | .error fault => .error fault
    | .ok (s, rest) => .ok (String.ofList s, rest)
  shorter := by
    intro cs s rest h
    split at h
    · simp at h
    · rename_i chars rest' read
      obtain ⟨-, rfl⟩ : _ ∧ rest' = rest := by simpa using h
      exact length_lt_of_readCharacters read

end Liquefy.Json
