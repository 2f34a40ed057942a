import Liquefy.Json.Numeral
import Liquefy.Json.Quote
import Mathlib.Data.List.TakeWhile

/-!
# How blanks, strings and numbers are spelled

The grammar of outlines leaves blanks, strings and numbers to the functions that read them. Here
they have rules of their own, with every character written out: which characters are blank, how each
character of a string is spelled, and how the parts of a number are. The functions accept exactly
what the rules admit.
-/

namespace Liquefy.Json

/-! ### Blanks -/

theorem isBlank_eq_true_iff {c : Char} : isBlank c = true ↔ c ∈ [' ', '\t', '\n', '\r'] := by
  simp [isBlank, or_assoc, or_left_comm]

/-- A character comes next if nothing but blanks stands before it. -/
theorem afterBlanks_eq_cons_iff {c : Char} {cs rest : List Char} :
    afterBlanks cs = c :: rest ↔
      c ∉ [' ', '\t', '\n', '\r'] ∧
        ∃ front, cs = front ++ c :: rest ∧ ∀ b ∈ front, b ∈ [' ', '\t', '\n', '\r'] := by
  simp only [← isBlank_eq_true_iff]
  constructor
  · intro after
    refine ⟨?_, cs.takeWhile isBlank, ?_, fun b member => List.mem_takeWhile_imp member⟩
    · have solid := List.head?_dropWhile_not isBlank cs
      rw [afterBlanks] at after
      simpa [after] using solid
    · rw [← after, afterBlanks, List.takeWhile_append_dropWhile]
  · rintro ⟨solid, front, rfl, blank⟩
    rw [afterBlanks, List.dropWhile_append_of_pos blank,
      List.dropWhile_cons_of_neg (by simp [solid])]

/-! ### Escapes -/

/-- The letters of the short escapes with what they stand for. -/
def shortEscapes : List (Char × Char) :=
  [('"', '"'), ('\\', '\\'), ('/', '/'), ('b', '\x08'), ('f', '\x0c'), ('n', '\n'), ('r', '\r'),
   ('t', '\t')]

theorem simpleEscape?_eq_some_iff {letter c : Char} :
    simpleEscape? letter = some c ↔ (letter, c) ∈ shortEscapes := by
  simp only [shortEscapes, List.mem_cons, List.not_mem_nil, or_false, Prod.mk.injEq, simpleEscape?]
  grind

theorem ne_u_of_mem_shortEscapes {letter c : Char} (listed : (letter, c) ∈ shortEscapes) :
    letter ≠ 'u' := by
  rintro rfl
  simp [shortEscapes] at listed

/-- The hexadecimal digits of either case with their values. -/
def hexDigits : List (Char × Nat) :=
  [('0', 0), ('1', 1), ('2', 2), ('3', 3), ('4', 4), ('5', 5), ('6', 6), ('7', 7), ('8', 8),
   ('9', 9),
   ('a', 10), ('b', 11), ('c', 12), ('d', 13), ('e', 14), ('f', 15),
   ('A', 10), ('B', 11), ('C', 12), ('D', 13), ('E', 14), ('F', 15)]

/-- What is checked for each character of a range holds of a character in the range. -/
theorem of_all_range (property : Char → Bool) {low high c : Char} (above : low ≤ c)
    (below : c ≤ high)
    (all : ((List.range' low.toNat (high.toNat + 1 - low.toNat)).all
      fun n => property (Char.ofNat n)) = true) : property c = true := by
  have above : low.toNat ≤ c.toNat := above
  have below : c.toNat ≤ high.toNat := below
  have checked := List.all_eq_true.1 all c.toNat (List.mem_range'_1.2 (by omega))
  rwa [Char.ofNat_toNat] at checked

theorem hexValue?_eq_some_iff {c : Char} {n : Nat} :
    hexValue? c = some n ↔ (c, n) ∈ hexDigits := by
  constructor
  · intro value
    unfold hexValue? at value
    split at value
    · rename_i range
      cases value
      have digit := of_all_range (fun c => (c, c.toNat - '0'.toNat) ∈ hexDigits) range.1 range.2
        (by decide)
      exact of_decide_eq_true digit
    · split at value
      · rename_i range
        cases value
        have lower := of_all_range (fun c => (c, c.toNat - 'a'.toNat + 10) ∈ hexDigits) range.1
          range.2 (by decide)
        exact of_decide_eq_true lower
      · split at value
        · rename_i range
          cases value
          have upper := of_all_range (fun c => (c, c.toNat - 'A'.toNat + 10) ∈ hexDigits) range.1
            range.2 (by decide)
          exact of_decide_eq_true upper
        · simp at value
  · intro listed
    have all : (hexDigits.all fun digit => hexValue? digit.1 = some digit.2) = true := by decide
    exact of_decide_eq_true (List.all_eq_true.1 all _ listed)

/-- A number in four hexadecimal digits. -/
inductive HexSpelled : Nat → List Char → Prop
  | intro {a b c d : Char} {i j k l : Nat} (first : (a, i) ∈ hexDigits)
      (second : (b, j) ∈ hexDigits) (third : (c, k) ∈ hexDigits) (fourth : (d, l) ∈ hexDigits) :
      HexSpelled (((i * 16 + j) * 16 + k) * 16 + l) [a, b, c, d]

theorem readHex_eq_ok_iff {cs rest : List Char} {n : Nat} :
    readHex cs = .ok (n, rest) ↔ ∃ digits, HexSpelled n digits ∧ cs = digits ++ rest := by
  constructor
  · intro read
    rw [readHex.eq_def] at read
    split at read
    · split at read
      · rename_i first second third fourth
        cases read
        exact ⟨_, .intro (hexValue?_eq_some_iff.1 first) (hexValue?_eq_some_iff.1 second)
          (hexValue?_eq_some_iff.1 third) (hexValue?_eq_some_iff.1 fourth), rfl⟩
      · simp at read
    · split at read
      · simp at read
      · simp at read
  · rintro ⟨_, ⟨first, second, third, fourth⟩, rfl⟩
    simp only [List.cons_append, List.nil_append, readHex, hexValue?_eq_some_iff.2 first,
      hexValue?_eq_some_iff.2 second, hexValue?_eq_some_iff.2 third, hexValue?_eq_some_iff.2 fourth]

/-! ### Strings -/

/-- A character of a string as it is spelled between the quotes. -/
inductive CharacterSpelled : Char → List Char → Prop
  | plain {c : Char} (quote : c ≠ '"') (backslash : c ≠ '\\') (control : 0x20 ≤ c.toNat) :
      CharacterSpelled c [c]
  | short {letter c : Char} (listed : (letter, c) ∈ shortEscapes) :
      CharacterSpelled c ['\\', letter]
  | long {n : Nat} {digits : List Char} (hex : HexSpelled n digits)
      (alone : n < 0xD800 ∨ 0xDFFF < n) : CharacterSpelled (Char.ofNat n) ('\\' :: 'u' :: digits)
  /-- A character beyond U+FFFF takes two escapes. -/
  | pair {n m : Nat} {digits digits' : List Char} (hex : HexSpelled n digits)
      (hex' : HexSpelled m digits') (leading : 0xD800 ≤ n ∧ n ≤ 0xDBFF)
      (trailing : 0xDC00 ≤ m ∧ m ≤ 0xDFFF) :
      CharacterSpelled (Char.ofNat ((n - 0xD800) * 0x400 + (m - 0xDC00) + 0x10000))
        ('\\' :: 'u' :: (digits ++ '\\' :: 'u' :: digits'))

theorem readPaired_eq_ok_iff {expected : Char} {cs rest : List Char} :
    readPaired expected cs = .ok rest ↔ cs = expected :: rest := by
  cases cs with
  | nil => simp [readPaired]
  | cons c cs =>
      rw [readPaired]
      split
      · rename_i same
        simp [same]
      · rename_i other
        simp [other]

theorem readTrailing_eq_ok_iff {n : Nat} {cs rest : List Char} {c : Char} :
    readTrailing n cs = .ok (c, rest) ↔
      ∃ m digits, HexSpelled m digits ∧ (0xDC00 ≤ m ∧ m ≤ 0xDFFF) ∧ pairedChar n m = c ∧
        cs = '\\' :: 'u' :: (digits ++ rest) := by
  constructor
  · intro read
    rw [readTrailing] at read
    split at read
    · simp at read
    · rename_i cs₁ backslash
      split at read
      · simp at read
      · rename_i cs₂ letter
        split at read
        · simp at read
        · rename_i m rest' found
          split at read
          · rename_i trailing
            obtain ⟨same, rfl⟩ := Prod.mk.inj (Except.ok.inj read)
            obtain ⟨digits, hex, rfl⟩ := readHex_eq_ok_iff.1 found
            obtain rfl := readPaired_eq_ok_iff.1 letter
            obtain rfl := readPaired_eq_ok_iff.1 backslash
            exact ⟨m, digits, hex, by simpa [isTrailingSurrogate] using trailing, same, rfl⟩
          · simp at read
  · rintro ⟨m, digits, hex, trailing, same, rfl⟩
    have half : isTrailingSurrogate m = true := by simpa [isTrailingSurrogate] using trailing
    have read : readHex (digits ++ rest) = .ok (m, rest) := readHex_eq_ok_iff.2 ⟨digits, hex, rfl⟩
    simp only [readTrailing, readPaired, if_true, read, half, same]

theorem isTrailingSurrogate_eq_false {n : Nat} (outside : n < 0xDC00 ∨ 0xDFFF < n) :
    isTrailingSurrogate n = false := by
  simp only [isTrailingSurrogate, Bool.and_eq_false_iff, decide_eq_false_iff_not]
  omega

theorem readUnicode_eq_ok_iff {cs rest : List Char} {c : Char} :
    readUnicode cs = .ok (c, rest) ↔
      ∃ spelling, CharacterSpelled c ('\\' :: 'u' :: spelling) ∧ cs = spelling ++ rest := by
  constructor
  · intro read
    rw [readUnicode] at read
    split at read
    · simp at read
    · rename_i n rest₁ found
      obtain ⟨digits, hex, rfl⟩ := readHex_eq_ok_iff.1 found
      split at read
      · simp at read
      · rename_i whole
        split at read
        · rename_i half
          have leading : 0xD800 ≤ n ∧ n ≤ 0xDBFF := by simpa [isLeadingSurrogate] using half
          obtain ⟨m, digits', hex', trailing, rfl, rfl⟩ := readTrailing_eq_ok_iff.1 read
          exact ⟨_, .pair hex hex' leading trailing, by simp⟩
        · rename_i other
          obtain ⟨rfl, rfl⟩ := Prod.mk.inj (Except.ok.inj read)
          have alone : n < 0xD800 ∨ 0xDFFF < n := by
            simp only [isTrailingSurrogate, isLeadingSurrogate, Bool.and_eq_true,
              decide_eq_true_eq] at whole other
            omega
          exact ⟨digits, .long hex alone, rfl⟩
  · rintro ⟨spelling, spelled, rfl⟩
    cases spelled with
    | short listed => exact absurd rfl (ne_u_of_mem_shortEscapes listed)
    | @long n digits hex alone =>
        have read := readHex_eq_ok_iff.2 ⟨spelling, hex, (rfl : spelling ++ rest = _)⟩
        have other : isLeadingSurrogate n = false := by
          simp only [isLeadingSurrogate, Bool.and_eq_false_iff, decide_eq_false_iff_not]
          omega
        have whole : isTrailingSurrogate n = false := isTrailingSurrogate_eq_false (by omega)
        simp only [readUnicode, read, whole, other, Bool.false_eq_true, if_false]
    | @pair n m digits digits' hex hex' leading trailing =>
        have read : readHex (digits ++ '\\' :: 'u' :: (digits' ++ rest)) =
            .ok (n, '\\' :: 'u' :: (digits' ++ rest)) := readHex_eq_ok_iff.2 ⟨digits, hex, rfl⟩
        have half : isLeadingSurrogate n = true := by simpa [isLeadingSurrogate] using leading
        have completed : readTrailing n ('\\' :: 'u' :: (digits' ++ rest)) =
            .ok (pairedChar n m, rest) :=
          readTrailing_eq_ok_iff.2 ⟨m, digits', hex', trailing, rfl, rfl⟩
        have whole : isTrailingSurrogate n = false := isTrailingSurrogate_eq_false (by omega)
        simp only [List.cons_append, List.append_assoc, readUnicode, read, completed, half, whole,
          Bool.false_eq_true, if_false, if_true]
        rfl

theorem readEscape_eq_ok_iff {cs rest : List Char} {c : Char} :
    readEscape cs = .ok (c, rest) ↔
      ∃ spelling, CharacterSpelled c ('\\' :: spelling) ∧ cs = spelling ++ rest := by
  constructor
  · intro read
    cases cs with
    | nil => simp [readEscape] at read
    | cons d cs =>
        rw [readEscape] at read
        split at read
        · rename_i unicode
          subst unicode
          obtain ⟨spelling, spelled, rfl⟩ := readUnicode_eq_ok_iff.1 read
          exact ⟨'u' :: spelling, spelled, rfl⟩
        · split at read
          · rename_i known
            cases read
            exact ⟨[d], .short (simpleEscape?_eq_some_iff.1 known), rfl⟩
          · simp at read
  · rintro ⟨spelling, spelled, rfl⟩
    have unicode {spelling : List Char} (spelled : CharacterSpelled c ('\\' :: 'u' :: spelling)) :
        readEscape ('u' :: (spelling ++ rest)) = .ok (c, rest) := by
      rw [readEscape, if_pos rfl]
      exact readUnicode_eq_ok_iff.2 ⟨spelling, spelled, rfl⟩
    cases spelled with
    | plain quote backslash => simp at backslash
    | @short letter _ listed =>
        simp only [List.cons_append, List.nil_append, readEscape,
          if_neg (ne_u_of_mem_shortEscapes listed), simpleEscape?_eq_some_iff.2 listed]
    | long hex alone => exact unicode (.long hex alone)
    | pair hex hex' leading trailing => exact unicode (.pair hex hex' leading trailing)

/-- The characters up to the closing quote, and what follows it. -/
inductive StringSpelled : List Char → List Char → List Char → Prop
  | closed {rest : List Char} : StringSpelled [] ('"' :: rest) rest
  | character {c : Char} {s spelling cs rest : List Char} (first : CharacterSpelled c spelling)
      (others : StringSpelled s cs rest) : StringSpelled (c :: s) (spelling ++ cs) rest

theorem readCharacters_of_spelled {c : Char} {spelling : List Char}
    (spelled : CharacterSpelled c spelling) (taken cs : List Char) :
    readCharacters taken (spelling ++ cs) = readCharacters (c :: taken) cs := by
  have escape {spelling : List Char} (spelled : CharacterSpelled c ('\\' :: spelling)) :
      readCharacters taken ('\\' :: (spelling ++ cs)) = readCharacters (c :: taken) cs := by
    have read := readEscape_eq_ok_iff.2 ⟨spelling, spelled, (rfl : spelling ++ cs = _)⟩
    rw [readCharacters, if_neg (by decide), if_pos rfl]
    grind
  cases spelled with
  | plain quote backslash control =>
      rw [List.singleton_append, readCharacters, if_neg quote, if_neg backslash,
        if_neg (Nat.not_lt.2 control)]
  | short listed => exact escape (.short listed)
  | long hex alone => exact escape (.long hex alone)
  | pair hex hex' leading trailing => exact escape (.pair hex hex' leading trailing)

theorem readCharacters_eq_ok_iff {taken cs s rest : List Char} :
    readCharacters taken cs = .ok (s, rest) ↔
      ∃ s', StringSpelled s' cs rest ∧ s = taken.reverse ++ s' := by
  constructor
  · intro read
    fun_induction readCharacters taken cs with
    | case1 => simp at read
    | case2 taken rest' =>
        cases read
        exact ⟨[], .closed, by simp⟩
    | case3 => simp at read
    | case4 taken rest' d rest'' escaped _ _ ih =>
        obtain ⟨s', others, rfl⟩ := ih read
        obtain ⟨spelling, spelled, rfl⟩ := readEscape_eq_ok_iff.1 escaped
        exact ⟨d :: s', .character spelled others, by simp⟩
    | case5 => simp at read
    | case6 taken c rest' quote backslash control ih =>
        obtain ⟨s', others, rfl⟩ := ih read
        have spelled : CharacterSpelled c [c] := .plain quote backslash (Nat.not_lt.1 control)
        exact ⟨c :: s', .character spelled others, by simp⟩
  · rintro ⟨s', spelled, rfl⟩
    induction spelled generalizing taken with
    | closed => simp [readCharacters]
    | character first _ ih =>
        rw [readCharacters_of_spelled first, ih]
        simp

/-- A string is read exactly if its characters are spelled up to a quote. -/
theorem quoted_run_eq_ok_iff {cs rest : List Char} {s : String} :
    quoted.run cs = .ok (s, rest) ↔ StringSpelled s.toList cs rest := by
  simp only [quoted]
  constructor
  · intro read
    split at read
    · simp at read
    · rename_i characters rest' found
      obtain ⟨s', spelled, rfl⟩ := readCharacters_eq_ok_iff.1 found
      cases read
      simpa using spelled
  · intro spelled
    rw [readCharacters_eq_ok_iff.2 ⟨_, spelled, rfl⟩]
    simp

/-! ### Strings that nobody asks for -/

/-- A character of a string that is passed over. Each escape is looked at by itself, so half of a
surrogate pair may stand alone. -/
inductive CharacterShaped : List Char → Prop
  | plain {c : Char} (quote : c ≠ '"') (backslash : c ≠ '\\') (control : 0x20 ≤ c.toNat) :
      CharacterShaped [c]
  | short {letter c : Char} (listed : (letter, c) ∈ shortEscapes) : CharacterShaped ['\\', letter]
  | long {n : Nat} {digits : List Char} (hex : HexSpelled n digits) :
      CharacterShaped ('\\' :: 'u' :: digits)

/-- The characters up to the closing quote, and what follows it. -/
inductive StringShaped : List Char → List Char → Prop
  | closed {rest : List Char} : StringShaped ('"' :: rest) rest
  | character {spelling cs rest : List Char} (first : CharacterShaped spelling)
      (others : StringShaped cs rest) : StringShaped (spelling ++ cs) rest

/-- A string with a value can be passed over; a surrogate pair is passed over as two escapes. -/
theorem StringSpelled.shaped {s cs rest : List Char} (spelled : StringSpelled s cs rest) :
    StringShaped cs rest := by
  induction spelled with
  | closed => exact .closed
  | character first _ others =>
      cases first with
      | plain quote backslash control => exact .character (.plain quote backslash control) others
      | short listed => exact .character (.short listed) others
      | long hex alone => exact .character (.long hex) others
      | pair hex hex' leading trailing =>
          simpa using StringShaped.character (.long hex) (.character (.long hex') others)

theorem skimEscape_eq_ok_iff {cs rest : List Char} :
    skimEscape cs = .ok rest ↔
      ∃ spelling, CharacterShaped ('\\' :: spelling) ∧ cs = spelling ++ rest := by
  constructor
  · intro skimmed
    cases cs with
    | nil => simp [skimEscape] at skimmed
    | cons d cs =>
        rw [skimEscape] at skimmed
        split at skimmed
        · rename_i unicode
          subst unicode
          split at skimmed
          · simp at skimmed
          · rename_i n rest' found
            cases skimmed
            obtain ⟨digits, hex, rfl⟩ := readHex_eq_ok_iff.1 found
            exact ⟨'u' :: digits, .long hex, rfl⟩
        · split at skimmed
          · rename_i known
            cases skimmed
            exact ⟨[d], .short (simpleEscape?_eq_some_iff.1 known), rfl⟩
          · simp at skimmed
  · rintro ⟨spelling, shaped, rfl⟩
    cases shaped with
    | plain quote backslash => simp at backslash
    | @short letter _ listed =>
        simp only [List.cons_append, List.nil_append, skimEscape,
          if_neg (ne_u_of_mem_shortEscapes listed), simpleEscape?_eq_some_iff.2 listed]
    | @long n digits hex =>
        have read := readHex_eq_ok_iff.2 ⟨digits, hex, (rfl : digits ++ rest = _)⟩
        simp only [List.cons_append, skimEscape, if_true, read]

theorem skimCharacters_of_shaped {spelling : List Char} (shaped : CharacterShaped spelling)
    (cs : List Char) : skimCharacters (spelling ++ cs) = skimCharacters cs := by
  have escape {spelling : List Char} (shaped : CharacterShaped ('\\' :: spelling)) :
      skimCharacters ('\\' :: (spelling ++ cs)) = skimCharacters cs := by
    have skimmed := skimEscape_eq_ok_iff.2 ⟨spelling, shaped, (rfl : spelling ++ cs = _)⟩
    rw [skimCharacters, if_neg (by decide), if_pos rfl]
    grind
  cases shaped with
  | plain quote backslash control =>
      rw [List.singleton_append, skimCharacters, if_neg quote, if_neg backslash,
        if_neg (Nat.not_lt.2 control)]
  | short listed => exact escape (.short listed)
  | long hex => exact escape (.long hex)

/-- A string is passed over exactly if its characters have their shape up to a quote. -/
theorem skimCharacters_eq_ok_iff {cs rest : List Char} :
    skimCharacters cs = .ok rest ↔ StringShaped cs rest := by
  constructor
  · intro skimmed
    fun_induction skimCharacters cs with
    | case1 => simp at skimmed
    | case2 =>
        cases skimmed
        exact .closed
    | case3 => simp at skimmed
    | case4 rest' rest'' escaped _ _ ih =>
        obtain ⟨spelling, shaped, rfl⟩ := skimEscape_eq_ok_iff.1 escaped
        exact .character shaped (ih skimmed)
    | case5 => simp at skimmed
    | case6 c rest' quote backslash control ih =>
        have shaped : CharacterShaped [c] := .plain quote backslash (Nat.not_lt.1 control)
        exact .character shaped (ih skimmed)
  · intro shaped
    induction shaped with
    | closed => simp [skimCharacters]
    | character first _ ih => rw [skimCharacters_of_shaped first, ih]

/-! ### Numbers -/

/-- The decimal digits. -/
def decimalDigits : List Char := ['0', '1', '2', '3', '4', '5', '6', '7', '8', '9']

theorem isDigit_eq_true_iff {c : Char} : isDigit c = true ↔ c ∈ decimalDigits := by
  constructor
  · intro digit
    obtain ⟨above, below⟩ : '0' ≤ c ∧ c ≤ '9' := by simpa [isDigit] using digit
    exact of_decide_eq_true (of_all_range (fun c => c ∈ decimalDigits) above below (by decide))
  · intro listed
    have all : decimalDigits.all isDigit = true := by decide
    exact List.all_eq_true.1 all c listed

/-- The text does not begin with any of the characters. -/
def NotNext (chars cs : List Char) : Prop := ∀ c ∈ cs.head?, c ∉ chars

theorem NotNext.append {chars cs : List Char} (ended : NotNext chars cs) {c : Char}
    (other : c ∉ chars) (more : List Char) : NotNext chars (cs ++ c :: more) := by
  cases cs with
  | nil => simpa [NotNext] using other
  | cons d cs => simpa [NotNext] using ended

theorem notNext_cons_iff {chars cs : List Char} {c : Char} :
    NotNext chars (c :: cs) ↔ c ∉ chars := by
  simp [NotNext]

/-- One digit or more, and no further one behind them. -/
structure DigitRun (digits rest : List Char) : Prop where
  nonempty : digits ≠ []
  decimal : ∀ c ∈ digits, c ∈ decimalDigits
  ended : NotNext decimalDigits rest

/-- The point and the digits behind it, if there is a point. -/
inductive FractionSpelled : List Char → List Char → List Char → Prop
  | absent {cs : List Char} (other : NotNext ['.'] cs) : FractionSpelled [] cs cs
  | digits {digits rest : List Char} (run : DigitRun digits rest) :
      FractionSpelled digits ('.' :: (digits ++ rest)) rest

/-- The signs before the digits of an exponent, each with the flag of a minus. -/
def exponentSigns : List (List Char × Bool) := [([], false), (['+'], false), (['-'], true)]

/-- The mark of an exponent with its sign and digits, if there is a mark. -/
inductive ExponentSpelled : Option (Bool × List Char) → List Char → List Char → Prop
  | absent {cs : List Char} (other : NotNext ['e', 'E'] cs) : ExponentSpelled none cs cs
  | digits {mark : Char} {sign digits rest : List Char} {negative : Bool}
      (marked : mark ∈ ['e', 'E'])
      (signed : (sign, negative) ∈ exponentSigns)
      (run : DigitRun digits rest) :
      ExponentSpelled (some (negative, digits)) (mark :: (sign ++ (digits ++ rest))) rest

/-- The parts of a number after its sign. Only zero begins with a zero. -/
inductive NumeralSpelled : Spelling → List Char → List Char → Prop
  | intro {whole fraction middle later rest : List Char} {exponent : Option (Bool × List Char)}
      (digits : DigitRun whole middle) (zero : whole.head? = some '0' → whole = ['0'])
      (fractional : FractionSpelled fraction middle later)
      (scaled : ExponentSpelled exponent later rest) :
      NumeralSpelled ⟨whole, fraction, exponent⟩ (whole ++ middle) rest

theorem takeWhile_isDigit_eq_iff {c : Char} {cs digits rest : List Char}
    (digit : isDigit c = true) :
    ((c :: cs).takeWhile isDigit = digits ∧ (c :: cs).dropWhile isDigit = rest) ↔
      c :: cs = digits ++ rest ∧ DigitRun digits rest := by
  constructor
  · rintro ⟨rfl, rfl⟩
    refine ⟨(List.takeWhile_append_dropWhile).symm, ?_, ?_, ?_⟩
    · simp [digit]
    · intro d member
      exact isDigit_eq_true_iff.1 (List.mem_takeWhile_imp member)
    · intro d next
      rw [← isDigit_eq_true_iff]
      have stopped := List.head?_dropWhile_not isDigit (c :: cs)
      rw [Option.mem_def.1 next] at stopped
      simpa using stopped
  · rintro ⟨same, run⟩
    have each : ∀ d ∈ digits, isDigit d = true := fun d member =>
      isDigit_eq_true_iff.2 (run.decimal d member)
    have stop : rest.takeWhile isDigit = [] ∧ rest.dropWhile isDigit = rest := by
      cases rest with
      | nil => exact ⟨rfl, rfl⟩
      | cons d rest =>
          have other : isDigit d = false := by
            rw [← Bool.not_eq_true, isDigit_eq_true_iff]
            exact notNext_cons_iff.1 run.ended
          simp [other]
    rw [same, List.takeWhile_append_of_pos each, List.dropWhile_append_of_pos each, stop.1, stop.2]
    simp

theorem scanDigits_eq_ok_iff {cs digits rest : List Char} :
    scanDigits cs = .ok (digits, rest) ↔ cs = digits ++ rest ∧ DigitRun digits rest := by
  constructor
  · intro scanned
    cases cs with
    | nil => simp [scanDigits] at scanned
    | cons c cs =>
        rw [scanDigits] at scanned
        split at scanned
        · rename_i digit
          exact (takeWhile_isDigit_eq_iff digit).1 (Prod.mk.inj (Except.ok.inj scanned))
        · simp at scanned
  · rintro ⟨rfl, run⟩
    obtain ⟨c, cs, rfl⟩ := List.exists_cons_of_ne_nil run.nonempty
    have digit : isDigit c = true := isDigit_eq_true_iff.2 (run.decimal c (by simp))
    obtain ⟨taken, left⟩ := (takeWhile_isDigit_eq_iff digit).2 ⟨List.cons_append.symm, run⟩
    rw [List.cons_append, scanDigits, if_pos digit, taken, left]

theorem any_isDigit_head?_iff {cs : List Char} :
    ¬ cs.head?.any isDigit = true ↔ NotNext decimalDigits cs := by
  cases cs with
  | nil => simp [NotNext]
  | cons c cs => rw [notNext_cons_iff, ← isDigit_eq_true_iff, List.head?_cons, Option.any_some]

theorem scanWhole_of_ne_zero {c : Char} (other : c ≠ '0') (cs : List Char) :
    scanWhole (c :: cs) = scanDigits (c :: cs) := by
  rw [scanWhole, if_neg other, scanDigits]

theorem scanWhole_eq_ok_iff {cs whole rest : List Char} :
    scanWhole cs = .ok (whole, rest) ↔
      cs = whole ++ rest ∧ DigitRun whole rest ∧ (whole.head? = some '0' → whole = ['0']) := by
  constructor
  · intro scanned
    cases cs with
    | nil => simp [scanWhole] at scanned
    | cons c cs =>
        by_cases zero : c = '0'
        · subst zero
          rw [scanWhole, if_pos rfl] at scanned
          split at scanned
          · simp at scanned
          · rename_i alone
            cases scanned
            have run : DigitRun ['0'] rest :=
              ⟨by simp, by simp [decimalDigits], any_isDigit_head?_iff.1 alone⟩
            exact ⟨rfl, run, fun _ => rfl⟩
        · rw [scanWhole_of_ne_zero zero] at scanned
          obtain ⟨same, run⟩ := scanDigits_eq_ok_iff.1 scanned
          refine ⟨same, run, fun leading => ?_⟩
          obtain ⟨ds, rfl⟩ := List.head?_eq_some_iff.1 leading
          exact absurd (List.cons.inj same).1 zero
  · rintro ⟨rfl, run, zero⟩
    obtain ⟨c, cs, rfl⟩ := List.exists_cons_of_ne_nil run.nonempty
    by_cases same : c = '0'
    · subst same
      obtain rfl : cs = [] := by simpa using zero
      rw [List.singleton_append, scanWhole, if_pos rfl, if_neg (any_isDigit_head?_iff.2 run.ended)]
    · rw [List.cons_append, scanWhole_of_ne_zero same]
      exact scanDigits_eq_ok_iff.2 ⟨rfl, run⟩

theorem scanFraction_eq_ok_iff {cs fraction rest : List Char} :
    scanFraction cs = .ok (fraction, rest) ↔ FractionSpelled fraction cs rest := by
  constructor
  · intro scanned
    rw [scanFraction.eq_def] at scanned
    split at scanned
    · obtain ⟨rfl, run⟩ := scanDigits_eq_ok_iff.1 scanned
      exact .digits run
    · rename_i other
      cases scanned
      apply FractionSpelled.absent
      intro c next
      rw [List.mem_singleton]
      rintro rfl
      obtain ⟨rest', rfl⟩ := List.head?_eq_some_iff.1 next
      exact other rest' rfl
  · intro spelled
    cases spelled with
    | absent other =>
        rw [scanFraction.eq_def]
        split
        · simp [NotNext] at other
        · rfl
    | digits run =>
        rw [scanFraction]
        exact scanDigits_eq_ok_iff.2 ⟨rfl, run⟩

theorem exists_sign_of_scanSign (cs : List Char) :
    ∃ sign, (sign, (scanSign cs).1) ∈ exponentSigns ∧ cs = sign ++ (scanSign cs).2 := by
  rw [scanSign.eq_def]
  split
  · exact ⟨['+'], by simp [exponentSigns], rfl⟩
  · exact ⟨['-'], by simp [exponentSigns], rfl⟩
  · exact ⟨[], by simp [exponentSigns], rfl⟩

theorem scanSign_of_run {sign digits rest : List Char} {negative : Bool}
    (signed : (sign, negative) ∈ exponentSigns) (run : DigitRun digits rest) :
    scanSign (sign ++ (digits ++ rest)) = (negative, digits ++ rest) := by
  obtain ⟨c, cs, rfl⟩ := List.exists_cons_of_ne_nil run.nonempty
  have digit := run.decimal c (by simp)
  simp only [exponentSigns, List.mem_cons, Prod.mk.injEq, List.not_mem_nil, or_false] at signed
  obtain ⟨rfl, rfl⟩ | ⟨rfl, rfl⟩ | ⟨rfl, rfl⟩ := signed
  · rw [List.nil_append, List.cons_append, scanSign]
    · rintro _ ⟨⟩
      simp [decimalDigits] at digit
    · rintro _ ⟨⟩
      simp [decimalDigits] at digit
  · rfl
  · rfl

theorem scanExponent_eq_ok_iff {cs rest : List Char} {exponent : Option (Bool × List Char)} :
    scanExponent cs = .ok (exponent, rest) ↔ ExponentSpelled exponent cs rest := by
  constructor
  · intro scanned
    cases cs with
    | nil =>
        cases scanned
        exact .absent (by simp [NotNext])
    | cons c cs =>
        rw [scanExponent] at scanned
        split at scanned
        · rename_i mark
          split at scanned
          · simp at scanned
          · rename_i digits rest' found
            cases scanned
            obtain ⟨sign, signed, same⟩ := exists_sign_of_scanSign cs
            obtain ⟨split, run⟩ := scanDigits_eq_ok_iff.1 found
            have spelled := ExponentSpelled.digits (by simpa using mark) signed run
            rwa [← split, ← same] at spelled
        · rename_i other
          cases scanned
          exact .absent (notNext_cons_iff.2 (by simpa using other))
  · intro spelled
    cases spelled with
    | absent other =>
        cases cs with
        | nil => rfl
        | cons c cs => rw [scanExponent, if_neg (by simpa using notNext_cons_iff.1 other)]
    | digits marked signed run =>
        rw [scanExponent, if_pos (by simpa using marked), scanSign_of_run signed run,
          scanDigits_eq_ok_iff.2 ⟨rfl, run⟩]

/-- A number is read exactly if its parts are spelled. -/
theorem scanNumeral_eq_ok_iff {cs rest : List Char} {spelling : Spelling} :
    scanNumeral cs = .ok (spelling, rest) ↔ NumeralSpelled spelling cs rest := by
  constructor
  · intro scanned
    rw [scanNumeral] at scanned
    split at scanned
    · simp at scanned
    · rename_i whole middle begun
      split at scanned
      · simp at scanned
      · rename_i fraction later pointed
        split at scanned
        · simp at scanned
        · rename_i exponent rest' marked
          cases scanned
          obtain ⟨rfl, digits, zero⟩ := scanWhole_eq_ok_iff.1 begun
          exact .intro digits zero (scanFraction_eq_ok_iff.1 pointed)
            (scanExponent_eq_ok_iff.1 marked)
  · rintro ⟨digits, zero, fractional, scaled⟩
    simp only [scanNumeral, scanWhole_eq_ok_iff.2 ⟨rfl, digits, zero⟩,
      scanFraction_eq_ok_iff.2 fractional, scanExponent_eq_ok_iff.2 scaled]

end Liquefy.Json
