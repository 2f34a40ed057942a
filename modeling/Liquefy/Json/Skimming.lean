import Liquefy.Json.Numeral
import Liquefy.Json.Quote

/-!
# Passing over a value

A value that nobody asks for must be well-formed, but nothing is kept of it: numbers may be out of
range, surrogates unpaired, and brackets nested without limit. The open brackets are kept as a
list of frames, innermost first, and each round takes one value or one opening bracket.
-/

namespace Liquefy.Json

/-- An open bracket. -/
inductive Frame where
  | list
  | object
  deriving DecidableEq, Repr

namespace Frame

/-- The bracket that closes a frame. -/
def closer : Frame → Char
  | .list => ']'
  | .object => '\x7d'

/-- The place that a text ending inside the frame is cut short at. -/
def place : Frame → Place
  | .list => .list
  | .object => .object

/-- The complaint about anything but a comma or the end after an entry. -/
def commaOrEndExpected : Frame → Malformation
  | .list => .listCommaOrEndExpected
  | .object => .objectCommaOrEndExpected

/-- The text of an entry's value: in an object a key and a colon stand before it. -/
def toValue : Frame → List Char → Except Fault (List Char)
  | .list, cs => .ok cs
  | .object, cs =>
      match afterBlanks cs with
      | [] => .error (.truncated .object)
      | c :: rest =>
          if c = '"' then
            match skimCharacters rest with
            | .error fault => .error fault
            | .ok rest' => readColon rest'
          else .error (.malformed .keyNotString)

end Frame

/-- After one round: the frames inside which another value is due, or none at the end. -/
abbrev Due := Option (List Frame)

/-- A value has just ended: close the frames that end with it, up to a comma. -/
def settle : List Frame → List Char → Result Due
  | [], cs => .ok (none, cs)
  | frame :: frames, cs =>
      match afterBlanks cs with
      | [] => .error (.truncated frame.place)
      | c :: rest =>
          if c = ',' then
            match frame.toValue rest with
            | .error fault => .error fault
            | .ok rest' => .ok (some (frame :: frames), rest')
          else if c = frame.closer then settle frames rest
          else .error (.malformed frame.commaOrEndExpected)

/-- A bracket has just been opened: it ends at once, or its first value is due. -/
def enter (frame : Frame) (frames : List Frame) (cs : List Char) : Result Due :=
  match afterBlanks cs with
  | [] => .error (.truncated frame.place)
  | c :: rest =>
      if c = frame.closer then settle frames rest
      else
        match frame.toValue (c :: rest) with
        | .error fault => .error fault
        | .ok rest' => .ok (some (frame :: frames), rest')

/-- Go on with what follows a value, unless the value is refused. -/
def settleAfter (frames : List Frame) : Except Fault (List Char) → Result Due
  | .error fault => .error fault
  | .ok rest => settle frames rest

/-- One round: a value without brackets, or one opening bracket. -/
def skimRound (frames : List Frame) (cs : List Char) : Result Due :=
  match afterBlanks cs with
  | [] => .error (.truncated .value)
  | c :: rest =>
      if c = 'n' then settleAfter frames ((readWord () ['u', 'l', 'l'] rest).map Prod.snd)
      else if c = 't' then settleAfter frames ((readWord () ['r', 'u', 'e'] rest).map Prod.snd)
      else if c = 'f' then
        settleAfter frames ((readWord () ['a', 'l', 's', 'e'] rest).map Prod.snd)
      else if c = '-' then settleAfter frames (skimNumeral rest)
      else if isDigit c then settleAfter frames (skimNumeral (c :: rest))
      else if c = '"' then settleAfter frames (skimCharacters rest)
      else if c = '[' then enter .list frames rest
      else if c = '\x7b' then enter .object frames rest
      else .error (.malformed .valueExpected)

theorem Frame.length_le_of_toValue {frame : Frame} {cs rest : List Char}
    (h : frame.toValue cs = .ok rest) : rest.length ≤ cs.length := by
  cases frame with
  | list => cases h; exact Nat.le_refl _
  | object =>
      rw [toValue] at h
      split at h
      · simp at h
      · rename_i c rest₁ blanks
        split at h
        · split at h
          · simp at h
          · rename_i rest₂ skimmed
            have := length_lt_of_afterBlanks_eq_cons blanks
            have := length_lt_of_skimCharacters skimmed
            have := length_lt_of_readColon h
            omega
        · simp at h

theorem length_le_of_settle {frames : List Frame} {cs rest : List Char} {due : Due}
    (h : settle frames cs = .ok (due, rest)) : rest.length ≤ cs.length := by
  induction frames generalizing cs with
  | nil => cases h; exact Nat.le_refl _
  | cons frame frames ih =>
      rw [settle] at h
      split at h
      · simp at h
      · rename_i c rest₁ blanks
        have taken := length_lt_of_afterBlanks_eq_cons blanks
        split at h
        · split at h
          · simp at h
          · rename_i rest₂ value
            have := Frame.length_le_of_toValue value
            cases h
            omega
        · split at h
          · have := ih h
            omega
          · simp at h

theorem length_le_of_enter {frame : Frame} {frames : List Frame} {cs rest : List Char} {due : Due}
    (h : enter frame frames cs = .ok (due, rest)) : rest.length ≤ cs.length := by
  rw [enter] at h
  split at h
  · simp at h
  · rename_i c rest₁ blanks
    have taken := length_lt_of_afterBlanks_eq_cons blanks
    split at h
    · have := length_le_of_settle h
      omega
    · split at h
      · simp at h
      · rename_i rest₂ value
        have := Frame.length_le_of_toValue value
        simp only [List.length_cons] at this
        cases h
        omega

theorem length_le_of_settleAfter {frames : List Frame} {cs rest : List Char} {due : Due}
    {skimmed : Except Fault (List Char)}
    (shorter : ∀ rest', skimmed = .ok rest' → rest'.length ≤ cs.length)
    (h : settleAfter frames skimmed = .ok (due, rest)) : rest.length ≤ cs.length := by
  cases skimmed with
  | error fault => simp [settleAfter] at h
  | ok rest' => exact Nat.le_trans (length_le_of_settle h) (shorter rest' rfl)

theorem length_le_of_map_readWord {letters cs rest : List Char}
    (h : (readWord () letters cs).map Prod.snd = .ok rest) : rest.length ≤ cs.length := by
  cases read : readWord () letters cs with
  | error fault => simp [read, Except.map] at h
  | ok found =>
      obtain rfl : found.2 = rest := by simpa [read, Except.map] using h
      exact length_le_of_readWord read

theorem length_lt_of_skimRound {frames : List Frame} {cs rest : List Char} {due : Due}
    (h : skimRound frames cs = .ok (due, rest)) : rest.length < cs.length := by
  rw [skimRound] at h
  split at h
  · simp at h
  · rename_i c rest₁ blanks
    refine Nat.lt_of_le_of_lt ?_ (length_lt_of_afterBlanks_eq_cons blanks)
    repeat' split at h
    · exact length_le_of_settleAfter (fun _ => length_le_of_map_readWord) h
    · exact length_le_of_settleAfter (fun _ => length_le_of_map_readWord) h
    · exact length_le_of_settleAfter (fun _ => length_le_of_map_readWord) h
    · refine length_le_of_settleAfter (fun _ skimmed => ?_) h
      exact Nat.le_of_lt (length_lt_of_skimNumeral skimmed)
    · refine length_le_of_settleAfter (fun _ skimmed => ?_) h
      exact Nat.le_of_lt_succ (length_lt_of_skimNumeral skimmed)
    · refine length_le_of_settleAfter (fun _ skimmed => ?_) h
      exact Nat.le_of_lt (length_lt_of_skimCharacters skimmed)
    · exact length_le_of_enter h
    · exact length_le_of_enter h
    · simp at h

/-- The text after a value that stands inside the given frames, and after the frames. -/
def skimFrom (frames : List Frame) (cs : List Char) : Except Fault (List Char) :=
  match round : skimRound frames cs with
  | .error fault => .error fault
  | .ok (none, rest) => .ok rest
  | .ok (some frames', rest) =>
      have := length_lt_of_skimRound round
      skimFrom frames' rest
termination_by cs.length

theorem length_lt_of_skimFrom {frames : List Frame} {cs rest : List Char}
    (h : skimFrom frames cs = .ok rest) : rest.length < cs.length := by
  fun_induction skimFrom frames cs with
  | case1 => simp at h
  | case2 _ _ _ round => cases h; exact length_lt_of_skimRound round
  | case3 _ _ _ _ _ shorter ih => exact Nat.lt_trans (ih h) shorter

/-- Passes over one value. -/
def skim : Reader Unit where
  run cs :=
    match skimFrom [] cs with
    | .error fault => .error fault
    | .ok rest => .ok ((), rest)
  shorter := by
    intro cs _ rest h
    split at h
    · simp at h
    · rename_i rest' skimmed
      cases h
      exact length_lt_of_skimFrom skimmed

end Liquefy.Json
