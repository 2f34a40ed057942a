import Liquefy.Json.Record
import Liquefy.Json.Tree.Reading
import Liquefy.Proofs.Json.Lexemes

/-!
# Reading what was written

A reader restores a value from a tree if, whatever follows the tree's text, it gives the value back
and leaves what follows, as long as the tree opens no more brackets inside one another than the
reader's budget admits; from one bracket more on it complains about the nesting and nothing else.
`Reader.Restores` says this, and every way to build a reader has its lemma here.
-/

namespace Liquefy.Json

/-- The reader gives the value back from the text of the tree, if the brackets in it stay within
the budget. -/
def Reader.Restores {α : Type} (reader : Reader α) (budget : Nat) (tree : Tree) (a : α) : Prop :=
  ∀ rest, reader.run (tree.write ++ rest) =
    if tree.depth ≤ budget then .ok (a, rest) else .error (.malformed .nestingTooDeep)

/-! ### Strings -/

theorem hexDigit_mem_hexDigits {n : Nat} (small : n < 16) : (hexDigit n, n) ∈ hexDigits := by
  have all : ((List.range 16).all fun n => (hexDigit n, n) ∈ hexDigits) = true := by decide
  exact of_decide_eq_true (List.all_eq_true.1 all n (List.mem_range.2 small))

theorem hexSpelled_control {n : Nat} (control : n < 0x20) :
    HexSpelled n ['0', '0', hexDigit (n / 16), hexDigit (n % 16)] := by
  have zero : ('0', 0) ∈ hexDigits := by decide
  have high : (hexDigit (n / 16), n / 16) ∈ hexDigits := hexDigit_mem_hexDigits (by omega)
  have low : (hexDigit (n % 16), n % 16) ∈ hexDigits := hexDigit_mem_hexDigits (by omega)
  have sum : ((0 * 16 + 0) * 16 + n / 16) * 16 + n % 16 = n := by omega
  have spelled := HexSpelled.intro zero zero high low
  rwa [sum] at spelled

/-- A character is written as it is, as a backslash and a letter that stands for it, or by its
number. -/
theorem escapeChar_cases (c : Char) :
    (escapeChar c = [c] ∧ c ≠ '"' ∧ c ≠ '\\' ∧ ¬ c.toNat < 0x20) ∨
      (∃ letter, escapeChar c = ['\\', letter] ∧ simpleEscape? letter = some c) ∨
      (c.toNat < 0x20 ∧ escapeChar c =
        ['\\', 'u', '0', '0', hexDigit (c.toNat / 16), hexDigit (c.toNat % 16)]) := by
  by_cases quote : c = '"'
  · subst quote
    exact .inr (.inl ⟨'"', rfl, rfl⟩)
  by_cases backslash : c = '\\'
  · subst backslash
    exact .inr (.inl ⟨'\\', rfl, rfl⟩)
  by_cases backspace : c = '\x08'
  · subst backspace
    exact .inr (.inl ⟨'b', rfl, rfl⟩)
  by_cases formFeed : c = '\x0c'
  · subst formFeed
    exact .inr (.inl ⟨'f', rfl, rfl⟩)
  by_cases newline : c = '\n'
  · subst newline
    exact .inr (.inl ⟨'n', rfl, rfl⟩)
  by_cases carriage : c = '\r'
  · subst carriage
    exact .inr (.inl ⟨'r', rfl, rfl⟩)
  by_cases tab : c = '\t'
  · subst tab
    exact .inr (.inl ⟨'t', rfl, rfl⟩)
  rw [escapeChar, if_neg quote, if_neg backslash, if_neg backspace, if_neg formFeed,
    if_neg newline, if_neg carriage, if_neg tab]
  by_cases control : c.toNat < 0x20
  · rw [if_pos control]
    exact .inr (.inr ⟨control, rfl⟩)
  · rw [if_neg control]
    exact .inl ⟨rfl, quote, backslash, control⟩

/-- A character is spelled as it is written, escaped or not. -/
theorem characterSpelled_escapeChar (c : Char) : CharacterSpelled c (escapeChar c) := by
  rcases escapeChar_cases c with
    ⟨written, quote, backslash, large⟩ | ⟨letter, written, stands⟩ | ⟨control, written⟩
  · rw [written]
    exact .plain quote backslash (Nat.not_lt.1 large)
  · rw [written]
    exact .short (simpleEscape?_eq_some_iff.1 stands)
  · have spelled := CharacterSpelled.long (hexSpelled_control control) (.inl (by omega))
    rwa [Char.ofNat_toNat, ← written] at spelled

theorem stringSpelled_written (s rest : List Char) :
    StringSpelled s (s.flatMap escapeChar ++ '"' :: rest) rest := by
  induction s with
  | nil => exact .closed
  | cons c s ih =>
      rw [List.flatMap_cons, List.append_assoc]
      exact .character (characterSpelled_escapeChar c) ih

theorem quoted_written (s : String) (rest : List Char) :
    quoted.run (s.toList.flatMap escapeChar ++ '"' :: rest) = .ok (s, rest) :=
  quoted_run_eq_ok_iff.2 (stringSpelled_written s.toList rest)

/-- A written string, split at its opening quote. -/
theorem writeString_append (s : String) (rest : List Char) :
    writeString s ++ rest = '"' :: (s.toList.flatMap escapeChar ++ '"' :: rest) := by
  simp [writeString]

/-! ### Between the entries of a written list or object -/

theorem afterBlanks_cons {c : Char} (solid : isBlank c = false) (cs : List Char) :
    afterBlanks (c :: cs) = c :: cs := by
  simp [afterBlanks, solid]

/-- A key after its opening quote, with the colon behind it and what follows. -/
def keyText (key : String) (cs : List Char) : List Char :=
  key.toList.flatMap escapeChar ++ '"' :: ':' :: cs

theorem quoted_keyText (key : String) (cs : List Char) :
    quoted.run (keyText key cs) = .ok (key, ':' :: cs) := quoted_written key _

theorem readColon_colon (cs : List Char) : readColon (':' :: cs) = .ok cs := rfl

namespace Tree

/-- Where a reader stands before the given items, which end the list. -/
def itemStep (rest : List Char) : List Tree → Step
  | [] => .done rest
  | item :: items => .more (item.write ++ (writeItems items ++ ']' :: rest))

/-- Where a reader stands before the given members, which end the object. -/
def memberStep (rest : List Char) : List (String × Tree) → Step
  | [] => .done rest
  | (key, value) :: members =>
      .more (keyText key (value.write ++ (writeMembers members ++ '\x7d' :: rest)))

theorem write_object (members : List (String × Tree)) (rest : List Char) :
    ∃ cs, (Tree.object members).write ++ rest = '\x7b' :: cs ∧
      firstMember cs = .ok (memberStep rest members) := by
  rcases members with _ | ⟨⟨key, value⟩, members⟩
  · exact ⟨'\x7d' :: rest, by simp [write], rfl⟩
  · refine ⟨'"' :: keyText key (value.write ++ (writeMembers members ++ '\x7d' :: rest)), ?_, rfl⟩
    simp [write, keyText, writeString]

theorem nextMember_written (members : List (String × Tree)) (rest : List Char) :
    nextMember (writeMembers members ++ '\x7d' :: rest) = .ok (memberStep rest members) := by
  rcases members with _ | ⟨⟨key, value⟩, members⟩
  · rfl
  · simp only [writeMembers, writeString, List.cons_append, List.append_assoc]
    rfl

/-- A tree in which no number occurs. -/
inductive Numberless : Tree → Prop
  | null : Numberless .null
  | boolean (b : Bool) : Numberless (.boolean b)
  | string (s : String) : Numberless (.string s)
  | array {items : List Tree} (each : ∀ item ∈ items, Numberless item) : Numberless (.array items)
  | object {members : List (String × Tree)} (each : ∀ member ∈ members, Numberless member.2) :
      Numberless (.object members)

/-- The text of a tree begins neither with a blank nor with a closing bracket, and with the first
letter of `null` only if it is that. -/
theorem Numberless.write_eq_cons {tree : Tree} (numberless : tree.Numberless) :
    ∃ c cs, tree.write = c :: cs ∧ isBlank c = false ∧ c ≠ ']' ∧ (c = 'n' → tree = .null) := by
  cases numberless with
  | null => exact ⟨'n', _, rfl, by decide, by decide, fun _ => rfl⟩
  | boolean b =>
      cases b
      · exact ⟨'f', _, rfl, by decide, by decide, by simp⟩
      · exact ⟨'t', _, rfl, by decide, by decide, by simp⟩
  | string s => exact ⟨'"', _, rfl, by decide, by decide, by simp⟩
  | @array items _ =>
      have begins : ∃ cs, (Tree.array items).write = '[' :: cs := by
        cases items <;> simp [write]
      obtain ⟨cs, begins⟩ := begins
      exact ⟨'[', cs, begins, by decide, by decide, by simp⟩
  | @object members _ =>
      obtain ⟨cs, begins, -⟩ := write_object members []
      exact ⟨'\x7b', cs, by simpa using begins, by decide, by decide, by simp⟩

theorem write_array (items : List Tree) (numberless : ∀ item ∈ items, item.Numberless)
    (rest : List Char) :
    ∃ cs, (Tree.array items).write ++ rest = '[' :: cs ∧
      firstElement cs = .ok (itemStep rest items) := by
  cases items with
  | nil => exact ⟨']' :: rest, by simp [write], rfl⟩
  | cons item items =>
      obtain ⟨c, cs, begins, solid, other, -⟩ := (numberless item (by simp)).write_eq_cons
      refine ⟨item.write ++ (writeItems items ++ ']' :: rest), by simp [write], ?_⟩
      simp [itemStep, firstElement, begins, afterBlanks_cons solid, other]

theorem nextElement_written (items : List Tree)
    (numberless : ∀ item ∈ items, item.Numberless) (rest : List Char) :
    nextElement (writeItems items ++ ']' :: rest) = .ok (itemStep rest items) := by
  cases items with
  | nil => rfl
  | cons item items =>
      obtain ⟨c, cs, begins, solid, other, -⟩ := (numberless item (by simp)).write_eq_cons
      rw [writeItems, List.cons_append, List.cons_append, nextElement,
        afterBlanks_cons (by decide)]
      simp [itemStep, begins, afterBlanks_cons solid, other]

end Tree

/-! ### Readers of simple shapes -/

section Simple

variable {α β : Type} {reader : Reader α} {budget : Nat} {tree : Tree}

theorem Reader.Restores.map {a : α} (restores : reader.Restores budget tree a) (f : α → β) :
    (reader.map f).Restores budget tree (f a) := by
  intro rest
  simp only [Reader.map, restores rest]
  split <;> rfl

theorem Reader.Restores.checked {a : α} {b : β} {check : α → Except Fault β}
    (restores : reader.Restores budget tree a) (passes : check a = .ok b) :
    (reader.checked check).Restores budget tree b := by
  intro rest
  simp only [Reader.checked, restores rest]
  split
  · simp [Result.checked, passes]
  · rfl

theorem string_run (cs : List Char) : string.run ('"' :: cs) = quoted.run cs := rfl

theorem string_restores (budget : Nat) (s : String) : string.Restores budget (.string s) s := by
  intro rest
  rw [Tree.write, writeString_append, string_run, quoted_written]
  simp [Tree.depth]

end Simple

/-! ### Lists -/

section Lists

variable {α : Type} {item : Reader α} {budget : Nat}

theorem elements_of_error {taken : List α} {cs : List Char} {fault : Fault}
    (failed : item.run cs = .error fault) : elements item taken (.more cs) = .error fault := by
  rw [elements]
  grind

theorem elements_of_ok {taken : List α} {cs rest : List Char} {a : α} {step : Step}
    (read : item.run cs = .ok (a, rest)) (next : nextElement rest = .ok step) :
    elements item taken (.more cs) = elements item (a :: taken) step := by
  rw [elements]
  grind

/-- The entries are read one after the other, up to the first that is nested too deep. -/
theorem elements_written (tree : α → Tree) (taken as : List α)
    (numberless : ∀ a ∈ as, (tree a).Numberless)
    (restores : ∀ a ∈ as, item.Restores budget (tree a) a) (rest : List Char) :
    elements item taken (Tree.itemStep rest (as.map tree)) =
      if Tree.depthOfItems (as.map tree) ≤ budget then .ok (taken.reverse ++ as, rest)
      else .error (.malformed .nestingTooDeep) := by
  induction as generalizing taken with
  | nil => simp [Tree.itemStep, Tree.depthOfItems, elements]
  | cons a as ih =>
      have later := ih (a :: taken)
        (fun b member => numberless b (List.mem_cons_of_mem _ member))
        (fun b member => restores b (List.mem_cons_of_mem _ member))
      have read := restores a (by simp) (Tree.writeItems (as.map tree) ++ ']' :: rest)
      have next := Tree.nextElement_written (as.map tree) (by grind) rest
      simp only [List.map_cons, Tree.itemStep, Tree.depthOfItems, Nat.max_le]
      by_cases fits : (tree a).depth ≤ budget
      · rw [if_pos fits] at read
        rw [elements_of_ok read next, later]
        simp [fits]
      · rw [if_neg fits] at read
        rw [elements_of_error read, if_neg fun both => fits both.1]

theorem list_run (budget : Nat) (item : Reader α) (cs : List Char) :
    (list budget item).run ('[' :: cs) =
      if budget = 0 then .error (.malformed .nestingTooDeep) else readList item cs := rfl

/-- A list is restored if its items are restored with one bracket less. -/
theorem list_restores (tree : α → Tree) (as : List α)
    (numberless : ∀ a ∈ as, (tree a).Numberless)
    (restores : ∀ inner, budget = inner + 1 → ∀ a ∈ as, item.Restores inner (tree a) a) :
    (list budget item).Restores budget (.array (as.map tree)) as := by
  intro rest
  obtain ⟨cs, begins, first⟩ := Tree.write_array (as.map tree) (by grind) rest
  rw [begins, list_run, Tree.depth]
  cases budget with
  | zero => simp
  | succ inner =>
      rw [if_neg (Nat.succ_ne_zero inner), readList, first]
      simpa using elements_written tree [] as numberless (restores inner rfl) rest

end Lists

/-! ### Objects as trees -/

section Members

variable {value : Reader Tree} {budget : Nat}

theorem members_of_error {taken : List (String × Tree)} {key : String} {cs : List Char}
    {fault : Fault} (failed : value.run cs = .error fault) :
    members value taken (.more (keyText key cs)) = .error fault := by
  rw [members]
  grind [quoted_keyText, readColon_colon]

theorem members_of_ok {taken : List (String × Tree)} {key : String} {cs rest : List Char}
    {a : Tree} {step : Step} (read : value.run cs = .ok (a, rest))
    (next : nextMember rest = .ok step) :
    members value taken (.more (keyText key cs)) = members value ((key, a) :: taken) step := by
  rw [members]
  grind [quoted_keyText, readColon_colon]

theorem members_written (taken found : List (String × Tree))
    (restores : ∀ member ∈ found, value.Restores budget member.2 member.2) (rest : List Char) :
    members value taken (Tree.memberStep rest found) =
      if Tree.depthOfMembers found ≤ budget then .ok (taken.reverse ++ found, rest)
      else .error (.malformed .nestingTooDeep) := by
  induction found generalizing taken with
  | nil => simp [Tree.memberStep, Tree.depthOfMembers, members]
  | cons member found ih =>
      obtain ⟨key, tree⟩ := member
      have later := ih ((key, tree) :: taken)
        (fun other member => restores other (List.mem_cons_of_mem _ member))
      have read := restores (key, tree) (by simp) (Tree.writeMembers found ++ '\x7d' :: rest)
      have next := Tree.nextMember_written found rest
      simp only [Tree.memberStep, Tree.depthOfMembers, Nat.max_le]
      by_cases fits : tree.depth ≤ budget
      · rw [if_pos fits] at read
        rw [members_of_ok read next, later]
        simp [fits]
      · rw [if_neg fits] at read
        rw [members_of_error read, if_neg fun both => fits both.1]

end Members

namespace Tree

/-- The reader that a tree with the given budget uses inside brackets. -/
theorem read_run_array (budget : Nat) (cs : List Char) :
    (read (budget + 1)).run ('[' :: cs) = (readList (read budget) cs).onValue .array := rfl

theorem read_run_object (budget : Nat) (cs : List Char) :
    (read (budget + 1)).run ('\x7b' :: cs) = (readObject (read budget) cs).onValue .object := rfl

theorem read_run_string (budget : Nat) (cs : List Char) :
    (read budget).run ('"' :: cs) = (quoted.run cs).onValue .string := by
  cases budget <;> rfl

/-- A tree without numbers is read back. -/
theorem Numberless.restores {tree : Tree} (numberless : tree.Numberless) (budget : Nat) :
    (read budget).Restores budget tree tree := by
  induction numberless generalizing budget with
  | null =>
      intro rest
      cases budget <;> rfl
  | boolean b =>
      intro rest
      cases budget <;> cases b <;> rfl
  | string s =>
      intro rest
      rw [write, writeString_append, read_run_string, quoted_written]
      simp [depth, Result.onValue]
  | @array items each ih =>
      intro rest
      obtain ⟨cs, begins, first⟩ := write_array items each rest
      rw [begins, depth]
      cases budget with
      | zero => rfl
      | succ inner =>
          have items_read := elements_written id [] items each
            (fun item member => ih item member inner) rest
          rw [List.map_id] at items_read
          rw [read_run_array, readList, first]
          simp only [items_read, Nat.add_le_add_iff_right]
          split <;> rfl
  | @object members each ih =>
      intro rest
      obtain ⟨cs, begins, first⟩ := write_object members rest
      rw [begins, depth]
      cases budget with
      | zero => rfl
      | succ inner =>
          rw [read_run_object, readObject, first]
          simp only [members_written [] members (fun member among => ih member among inner) rest,
            Nat.add_le_add_iff_right]
          split <;> rfl

end Tree

/-- A value that is not `null` is read as if it could not be. -/
theorem optional_restores {α : Type} {reader : Reader α} {budget : Nat} {tree : Tree} {a : α}
    (numberless : tree.Numberless) (present : tree ≠ .null)
    (restores : reader.Restores budget tree a) :
    (optional reader).Restores budget tree (some a) := by
  obtain ⟨c, cs, begins, solid, -, null⟩ := numberless.write_eq_cons
  intro rest
  have read := restores rest
  simp only [optional, begins, List.cons_append, afterBlanks_cons solid] at read ⊢
  split
  · rename_i equal
    cases equal
    exact absurd (null rfl) present
  · rw [read]
    split <;> rfl

/-! ### Records -/

namespace Record

variable {δ α : Type} {record : Record δ α} {budget : Nat}

/-- The members fill a draft, field by field, and what comes out in the end is the given value. -/
inductive Fills (record : Record δ α) (budget : Nat) : δ → List (String × Tree) → α → Prop
  | finished {draft : δ} {a : α} (finish : record.finish draft = .ok a) :
      Fills record budget draft [] a
  | field {draft : δ} {key : String} {tree : Tree} {enter : δ → δ} {field : Field δ}
      {members : List (String × Tree)} {a : α}
      (found : record.fields.find? (fun field => field.name == key) = some field)
      (unset : field.isSet draft = false) (restores : field.read.Restores budget tree enter)
      (later : Fills record budget (enter draft) members a) :
      Fills record budget draft ((key, tree) :: members) a

theorem readMembers_of_error {draft : δ} {key : String} {cs : List Char} {fault : Fault}
    (failed : record.member draft key (':' :: cs) = .error fault) :
    record.readMembers draft (.more (keyText key cs)) = .error fault := by
  rw [readMembers]
  grind [quoted_keyText]

theorem readMembers_of_ok {draft draft' : δ} {key : String} {cs rest : List Char} {step : Step}
    (read : record.member draft key (':' :: cs) = .ok (draft', rest))
    (next : nextMember rest = .ok step) :
    record.readMembers draft (.more (keyText key cs)) = record.readMembers draft' step := by
  rw [readMembers]
  grind [quoted_keyText]

theorem member_of_field {draft : δ} {key : String} {field : Field δ} (cs : List Char)
    (found : record.fields.find? (fun field => field.name == key) = some field)
    (unset : field.isSet draft = false) :
    record.member draft key (':' :: cs) =
      (field.read.run cs).onValue fun enter => enter draft := by
  simp [member, found, unset, readColon_colon]

theorem Fills.readMembers {draft : δ} {members : List (String × Tree)} {a : α}
    (fills : record.Fills budget draft members a) (rest : List Char) :
    record.readMembers draft (Tree.memberStep rest members) =
      if Tree.depthOfMembers members ≤ budget then .ok (a, rest)
      else .error (.malformed .nestingTooDeep) := by
  induction fills with
  | finished finish => simp [Tree.memberStep, Tree.depthOfMembers, Record.readMembers, finish]
  | @field draft key tree enter field members a found unset restores later ih =>
      have member := member_of_field (tree.write ++ (Tree.writeMembers members ++ '\x7d' :: rest))
        found unset
      rw [restores] at member
      simp only [Tree.memberStep, Tree.depthOfMembers, Nat.max_le]
      by_cases fits : tree.depth ≤ budget
      · rw [if_pos fits] at member
        rw [readMembers_of_ok member (Tree.nextMember_written members rest), ih]
        simp [fits]
      · rw [if_neg fits] at member
        rw [readMembers_of_error member, if_neg fun both => fits both.1]

theorem reader_run (record : Record δ α) (budget : Nat) (cs : List Char) :
    (record.reader budget).run ('\x7b' :: cs) =
      if budget = 0 then .error (.malformed .nestingTooDeep)
      else
        match firstMember cs with
        | .error fault => .error fault
        | .ok step => record.readMembers record.blank step := rfl

/-- A record is restored if its members fill it with one bracket less. -/
theorem restores {members : List (String × Tree)} {a : α}
    (fills : ∀ inner, budget = inner + 1 → record.Fills inner record.blank members a) :
    (record.reader budget).Restores budget (.object members) a := by
  intro rest
  obtain ⟨cs, begins, first⟩ := Tree.write_object members rest
  rw [begins, reader_run, Tree.depth]
  cases budget with
  | zero => simp
  | succ inner =>
      rw [if_neg (Nat.succ_ne_zero inner), first]
      simpa using (fills inner rfl).readMembers rest

end Record

/-! ### Variants -/

namespace Variants

variable {τ α : Type} {variants : Variants τ α} {budget : Nat} {key : String} {tag : τ} {a : α}

theorem reader_run_bare (variants : Variants τ α) (budget : Nat) (cs : List Char) :
    (variants.reader budget).run ('"' :: cs) =
      (quoted.run cs).checked fun name =>
        match variants.ofName name with
        | .error fault => .error fault
        | .ok tag => variants.bare tag := rfl

theorem reader_run_object (variants : Variants τ α) (budget : Nat) (cs : List Char) :
    (variants.reader budget).run ('\x7b' :: cs) =
      if budget = 0 then .error (.malformed .nestingTooDeep) else variants.object cs := rfl

theorem restores_bare (named : variants.ofName? key = some tag) (bare : variants.bare tag = .ok a) :
    (variants.reader budget).Restores budget (.string key) a := by
  intro rest
  rw [Tree.write, writeString_append, reader_run_bare, quoted_written]
  simp [Tree.depth, Result.checked, ofName, named, bare]

theorem object_written {tree : Tree} (named : variants.ofName? key = some tag)
    (restores : (variants.payload tag).Restores budget tree a) (rest : List Char) :
    variants.object ('"' :: keyText key (tree.write ++ '\x7d' :: rest)) =
      if tree.depth ≤ budget then .ok (a, rest) else .error (.malformed .nestingTooDeep) := by
  have name : Variants.key ('"' :: keyText key (tree.write ++ '\x7d' :: rest)) =
      .ok (key, ':' :: (tree.write ++ '\x7d' :: rest)) := quoted_keyText key _
  have close : close ('\x7d' :: rest) = .ok rest := rfl
  have read := restores ('\x7d' :: rest)
  simp only [object, name, ofName, named, readColon_colon]
  by_cases fits : tree.depth ≤ budget
  · rw [if_pos fits] at read
    simp [read, close, fits]
  · rw [if_neg fits] at read
    simp [read, fits]

/-- A variant is restored if its payload is restored with one bracket less. -/
theorem restores {tree : Tree} (named : variants.ofName? key = some tag)
    (payload : ∀ inner, budget = inner + 1 → (variants.payload tag).Restores inner tree a) :
    (variants.reader budget).Restores budget (.object [(key, tree)]) a := by
  intro rest
  have begins : (Tree.object [(key, tree)]).write ++ rest =
      '\x7b' :: '"' :: keyText key (tree.write ++ '\x7d' :: rest) := by
    simp [Tree.write, Tree.writeMembers, keyText, writeString]
  rw [begins, reader_run_object]
  cases budget with
  | zero => simp [Tree.depth]
  | succ inner =>
      rw [if_neg (Nat.succ_ne_zero inner), object_written named (payload inner rfl)]
      simp [Tree.depth, Tree.depthOfMembers]

end Variants

/-! ### Whole texts -/

theorem decode_text {α : Type} {reader : Reader α} {budget : Nat} {tree : Tree} {a : α}
    (restores : reader.Restores budget tree a) :
    decode reader tree.text =
      if tree.depth ≤ budget then .ok a else .error (.malformed .nestingTooDeep) := by
  have read := restores []
  rw [List.append_nil] at read
  rw [decode, Tree.text, String.toList_ofList, read]
  by_cases fits : tree.depth ≤ budget
  · simp [fits, afterBlanks]
  · simp [fits]

end Liquefy.Json
