import Liquefy.Proofs.Json.Restoring

/-!
# Texts that end too early

A written text that loses its end is never taken for a shorter value, and nothing else is found
wrong with it: every reader that restores a value from a tree reports, on the front of the tree's
text, that the text ends too early. `Reader.Awaits` says this of a reader and a tree. Its lemmas
follow those of `Reader.Restores`, which give what was read of the text before the cut.
-/

namespace Liquefy.Json

/-- The fault is that the text ends too early. -/
def Truncated {α : Type} (result : Except Fault α) : Prop :=
  ∃ place, result = .error (.truncated place)

/-- The front of a text that lacks one character or more. -/
def Cut (front text : List Char) : Prop := ∃ c missing, front ++ c :: missing = text

/-- The reader finds every front of the tree's text too short, if the brackets in the tree stay
within the budget. -/
def Reader.Awaits {α : Type} (reader : Reader α) (budget : Nat) (tree : Tree) : Prop :=
  tree.depth ≤ budget → ∀ front, Cut front tree.write → Truncated (reader.run front)

/-! ### Where a text is cut -/

section Cuts

variable {front text text' : List Char} {c : Char}

theorem not_cut_nil : ¬ Cut front [] := by
  rintro ⟨c, missing, whole⟩
  simp at whole

theorem cut_cons_iff :
    Cut front (c :: text) ↔ front = [] ∨ ∃ front', front = c :: front' ∧ Cut front' text := by
  constructor
  · rintro ⟨d, missing, whole⟩
    cases front with
    | nil => exact .inl rfl
    | cons c' front' =>
        obtain ⟨rfl, rfl⟩ := List.cons.inj whole
        exact .inr ⟨front', rfl, d, missing, rfl⟩
  · rintro (rfl | ⟨front', rfl, d, missing, rfl⟩)
    · exact ⟨c, text, rfl⟩
    · exact ⟨d, missing, rfl⟩

theorem cut_singleton_iff : Cut front [c] ↔ front = [] := by
  simp [cut_cons_iff, not_cut_nil]

/-- A text of two parts is cut in the first part or in the second. -/
theorem cut_append_iff :
    Cut front (text ++ text') ↔
      Cut front text ∨ ∃ front', front = text ++ front' ∧ Cut front' text' := by
  induction text generalizing front with
  | nil => simp [not_cut_nil]
  | cons c text ih =>
      rw [List.cons_append, cut_cons_iff, cut_cons_iff]
      constructor
      · rintro (rfl | ⟨front, rfl, cut⟩)
        · exact .inl (.inl rfl)
        · obtain inside | ⟨front', rfl, later⟩ := ih.1 cut
          · exact .inl (.inr ⟨front, rfl, inside⟩)
          · exact .inr ⟨front', rfl, later⟩
      · rintro ((rfl | ⟨front, rfl, inside⟩) | ⟨front', rfl, later⟩)
        · exact .inl rfl
        · exact .inr ⟨front, rfl, ih.2 (.inl inside)⟩
        · exact .inr ⟨text ++ front', rfl, ih.2 (.inr ⟨front', rfl, later⟩)⟩

end Cuts

/-! ### Strings -/

theorem readCharacters_of_readEscape_error (taken : List Char) {cs : List Char} {fault : Fault}
    (failed : readEscape cs = .error fault) :
    readCharacters taken ('\\' :: cs) = .error fault := by
  rw [readCharacters, if_neg (by decide), if_pos rfl]
  grind

/-- Less than four digits of an escape are not enough. -/
theorem readHex_of_cut {n : Nat} (small : n < 16) {last : Char} {front : List Char}
    (cut : Cut front ['0', '0', hexDigit n, last]) : Truncated (readHex front) := by
  have three : ∀ n < 16, byteCount ['0', '0', hexDigit n] < 4 := by decide
  simp only [cut_cons_iff, not_cut_nil, and_false, exists_false, or_false] at cut
  obtain rfl | ⟨_, rfl, rfl | ⟨_, rfl, rfl | ⟨_, rfl, rfl⟩⟩⟩ := cut
  · exact ⟨.string, rfl⟩
  · exact ⟨.string, rfl⟩
  · exact ⟨.string, rfl⟩
  · refine ⟨.string, ?_⟩
    rw [readHex, if_pos (three n small)]
    simp

theorem readCharacters_of_cut_escapeChar (taken : List Char) {c : Char} {front : List Char}
    (cut : Cut front (escapeChar c)) : Truncated (readCharacters taken front) := by
  have empty : Truncated (readCharacters taken []) := ⟨.string, by rw [readCharacters]⟩
  have lone : Truncated (readCharacters taken ['\\']) :=
    ⟨.string, readCharacters_of_readEscape_error taken rfl⟩
  rcases escapeChar_cases c with ⟨written, -⟩ | ⟨letter, written, -⟩ | ⟨control, written⟩
  · rw [written, cut_singleton_iff] at cut
    rwa [cut]
  · rw [written, cut_cons_iff] at cut
    obtain rfl | ⟨front, rfl, inside⟩ := cut
    · exact empty
    · rw [cut_singleton_iff.1 inside]
      exact lone
  · rw [written, cut_cons_iff] at cut
    obtain rfl | ⟨front, rfl, inside⟩ := cut
    · exact empty
    obtain rfl | ⟨front, rfl, digits⟩ := cut_cons_iff.1 inside
    · exact lone
    have small : c.toNat / 16 < 16 := by omega
    obtain ⟨place, short⟩ := readHex_of_cut small digits
    refine ⟨place, readCharacters_of_readEscape_error taken ?_⟩
    simp [readEscape, readUnicode, short]

theorem readCharacters_of_cut (taken s : List Char) {front : List Char}
    (cut : Cut front (s.flatMap escapeChar ++ ['"'])) :
    Truncated (readCharacters taken front) := by
  induction s generalizing taken front with
  | nil =>
      rw [List.flatMap_nil, List.nil_append, cut_singleton_iff] at cut
      subst cut
      exact ⟨.string, by rw [readCharacters]⟩
  | cons c s ih =>
      rw [List.flatMap_cons, List.append_assoc, cut_append_iff] at cut
      obtain inside | ⟨front, rfl, later⟩ := cut
      · exact readCharacters_of_cut_escapeChar taken inside
      · rw [readCharacters_of_spelled (characterSpelled_escapeChar c)]
        exact ih (c :: taken) later

theorem quoted_of_cut (s : String) {front : List Char}
    (cut : Cut front (s.toList.flatMap escapeChar ++ ['"'])) : Truncated (quoted.run front) := by
  obtain ⟨place, short⟩ := readCharacters_of_cut [] s.toList cut
  exact ⟨place, by simp [quoted, short]⟩

/-- The text ends within a key or right behind it. -/
def EndsInKey (key : String) (front : List Char) : Prop :=
  Truncated (quoted.run front) ∨ quoted.run front = .ok (key, [])

/-- A member is cut before its colon or behind it. -/
theorem cut_keyText_cases {key : String} {front text : List Char}
    (cut : Cut front (keyText key text)) :
    EndsInKey key front ∨ ∃ front', front = keyText key front' ∧ Cut front' text := by
  have parts : keyText key text = (key.toList.flatMap escapeChar ++ ['"']) ++ ':' :: text := by
    simp [keyText]
  rw [parts, cut_append_iff] at cut
  obtain inside | ⟨front, rfl, later⟩ := cut
  · exact .inl (.inl (quoted_of_cut key inside))
  obtain rfl | ⟨front, rfl, behind⟩ := cut_cons_iff.1 later
  · have read := quoted_written key []
    exact .inl (.inr (by simpa using read))
  · exact .inr ⟨front, by simp [keyText], behind⟩

/-! ### Lists and objects that are cut -/

namespace Tree

/-- The front of a list's text from its first item on. -/
def CutItems (items : List Tree) (front : List Char) : Prop :=
  ∃ item others, items = item :: others ∧
    Cut front (item.write ++ (writeItems others ++ [']']))

/-- The front of an object's text from behind the opening quote of its first key on. -/
def CutMembers (members : List (String × Tree)) (front : List Char) : Prop :=
  ∃ key value others, members = (key, value) :: others ∧
    Cut front (keyText key (value.write ++ (writeMembers others ++ ['\x7d'])))

/-- After the opening bracket a cut list ends, or it goes on to its first item. -/
theorem cut_array_cases {items : List Tree} (numberless : ∀ item ∈ items, item.Numberless)
    {front : List Char} (cut : Cut front (Tree.array items).write) :
    front = [] ∨ ∃ front', front = '[' :: front' ∧
      (Truncated (firstElement front') ∨
        firstElement front' = .ok (.more front') ∧ CutItems items front') := by
  cases items with
  | nil =>
      rw [write, cut_cons_iff] at cut
      obtain rfl | ⟨front, rfl, later⟩ := cut
      · exact .inl rfl
      · rw [cut_singleton_iff.1 later]
        exact .inr ⟨[], rfl, .inl ⟨.list, rfl⟩⟩
  | cons item others =>
      have written : (Tree.array (item :: others)).write =
          '[' :: (item.write ++ (writeItems others ++ [']'])) := by simp [write]
      rw [written, cut_cons_iff] at cut
      obtain rfl | ⟨front, rfl, later⟩ := cut
      · exact .inl rfl
      refine .inr ⟨front, rfl, ?_⟩
      obtain ⟨c, cs, begins, solid, other, -⟩ := (numberless item (by simp)).write_eq_cons
      have first := later
      rw [begins, List.cons_append, cut_cons_iff] at first
      obtain rfl | ⟨front, rfl, -⟩ := first
      · exact .inl ⟨.list, rfl⟩
      · refine .inr ⟨?_, item, others, rfl, later⟩
        simp [firstElement, afterBlanks_cons solid, other]

/-- After an item a cut list ends, or it goes on to the next item. -/
theorem nextElement_of_cut {items : List Tree} (numberless : ∀ item ∈ items, item.Numberless)
    {front : List Char} (cut : Cut front (writeItems items ++ [']'])) :
    Truncated (nextElement front) ∨
      ∃ front', nextElement front = .ok (.more front') ∧ CutItems items front' := by
  cases items with
  | nil =>
      rw [writeItems, List.nil_append, cut_singleton_iff] at cut
      subst cut
      exact .inl ⟨.list, rfl⟩
  | cons item others =>
      rw [writeItems, List.cons_append, List.cons_append, List.append_assoc, cut_cons_iff] at cut
      obtain rfl | ⟨front, rfl, later⟩ := cut
      · exact .inl ⟨.list, rfl⟩
      obtain ⟨c, cs, begins, solid, other, -⟩ := (numberless item (by simp)).write_eq_cons
      have first := later
      rw [begins, List.cons_append, cut_cons_iff] at first
      obtain rfl | ⟨front, rfl, -⟩ := first
      · exact .inl ⟨.value, rfl⟩
      · refine .inr ⟨c :: front, ?_, item, others, rfl, later⟩
        rw [nextElement, afterBlanks_cons (by decide)]
        simp [afterBlanks_cons solid, other]

/-- After the opening brace a cut object ends, or it goes on to its first key. -/
theorem cut_object_cases {members : List (String × Tree)} {front : List Char}
    (cut : Cut front (Tree.object members).write) :
    front = [] ∨ ∃ front', front = '\x7b' :: front' ∧
      (Truncated (firstMember front') ∨
        ∃ front'', firstMember front' = .ok (.more front'') ∧ CutMembers members front'') := by
  rcases members with _ | ⟨⟨key, value⟩, others⟩
  · rw [write, cut_cons_iff] at cut
    obtain rfl | ⟨front, rfl, later⟩ := cut
    · exact .inl rfl
    · rw [cut_singleton_iff.1 later]
      exact .inr ⟨[], rfl, .inl ⟨.object, rfl⟩⟩
  · have written : (Tree.object ((key, value) :: others)).write =
        '\x7b' :: '"' :: keyText key (value.write ++ (writeMembers others ++ ['\x7d'])) := by
      simp [write, keyText, writeString]
    rw [written, cut_cons_iff] at cut
    obtain rfl | ⟨front, rfl, later⟩ := cut
    · exact .inl rfl
    refine .inr ⟨front, rfl, ?_⟩
    obtain rfl | ⟨front, rfl, behind⟩ := cut_cons_iff.1 later
    · exact .inl ⟨.object, rfl⟩
    · exact .inr ⟨front, rfl, key, value, others, rfl, behind⟩

/-- After a member a cut object ends, or it goes on to the next key. -/
theorem nextMember_of_cut {members : List (String × Tree)} {front : List Char}
    (cut : Cut front (writeMembers members ++ ['\x7d'])) :
    Truncated (nextMember front) ∨
      ∃ front', nextMember front = .ok (.more front') ∧ CutMembers members front' := by
  rcases members with _ | ⟨⟨key, value⟩, others⟩
  · rw [writeMembers, List.nil_append, cut_singleton_iff] at cut
    subst cut
    exact .inl ⟨.object, rfl⟩
  · have written : writeMembers ((key, value) :: others) ++ ['\x7d'] =
        ',' :: '"' :: keyText key (value.write ++ (writeMembers others ++ ['\x7d'])) := by
      simp [writeMembers, keyText, writeString]
    rw [written, cut_cons_iff] at cut
    obtain rfl | ⟨front, rfl, later⟩ := cut
    · exact .inl ⟨.object, rfl⟩
    obtain rfl | ⟨front, rfl, behind⟩ := cut_cons_iff.1 later
    · exact .inl ⟨.value, rfl⟩
    · exact .inr ⟨front, rfl, key, value, others, rfl, behind⟩

end Tree

/-! ### Readers of simple shapes -/

section Simple

variable {α β : Type} {reader : Reader α} {budget : Nat} {tree : Tree}

theorem Reader.Awaits.map (awaits : reader.Awaits budget tree) (f : α → β) :
    (reader.map f).Awaits budget tree := by
  intro fits front cut
  obtain ⟨place, short⟩ := awaits fits front cut
  exact ⟨place, by simp [Reader.map, short, Result.onValue]⟩

theorem Reader.Awaits.checked (awaits : reader.Awaits budget tree) (check : α → Except Fault β) :
    (reader.checked check).Awaits budget tree := by
  intro fits front cut
  obtain ⟨place, short⟩ := awaits fits front cut
  exact ⟨place, by simp [Reader.checked, short, Result.checked]⟩

theorem string_awaits (budget : Nat) (s : String) : string.Awaits budget (.string s) := by
  intro _ front cut
  rw [Tree.write, writeString, List.cons_append, cut_cons_iff] at cut
  obtain rfl | ⟨front, rfl, later⟩ := cut
  · exact ⟨.value, rfl⟩
  · rw [string_run]
    exact quoted_of_cut s later

theorem optional_awaits (numberless : tree.Numberless) (present : tree ≠ .null)
    (awaits : reader.Awaits budget tree) : (optional reader).Awaits budget tree := by
  intro fits front cut
  obtain ⟨place, short⟩ := awaits fits front cut
  obtain ⟨c, cs, begins, solid, -, null⟩ := numberless.write_eq_cons
  rw [begins, cut_cons_iff] at cut
  refine ⟨place, ?_⟩
  obtain rfl | ⟨front, rfl, -⟩ := cut
  · simp [optional, afterBlanks, short, Result.onValue]
  · simp only [optional, afterBlanks_cons solid]
    split
    · rename_i equal
      cases equal
      exact absurd (null rfl) present
    · simp [short, Result.onValue]

/-- A word is too short without its last letter. -/
theorem readWord_of_cut {a : α} {letters front : List Char} (cut : Cut front letters) :
    Truncated (readWord a letters front) := by
  induction letters generalizing front with
  | nil => exact absurd cut not_cut_nil
  | cons w letters ih =>
      obtain rfl | ⟨front, rfl, later⟩ := cut_cons_iff.1 cut
      · exact ⟨.value, rfl⟩
      · rw [readWord, if_pos rfl]
        exact ih later

end Simple

/-! ### Lists -/

section Lists

variable {α : Type} {item : Reader α} {budget : Nat}

theorem elements_of_stuck {taken : List α} {cs rest : List Char} {a : α} {fault : Fault}
    (read : item.run cs = .ok (a, rest)) (stuck : nextElement rest = .error fault) :
    elements item taken (.more cs) = .error fault := by
  rw [elements]
  grind

/-- The items before the cut are read, and at the cut the list ends too early. -/
theorem elements_of_cut (tree : α → Tree) (taken as : List α)
    (numberless : ∀ a ∈ as, (tree a).Numberless)
    (restores : ∀ a ∈ as, item.Restores budget (tree a) a)
    (awaits : ∀ a ∈ as, item.Awaits budget (tree a))
    (fits : Tree.depthOfItems (as.map tree) ≤ budget) {front : List Char}
    (cut : Tree.CutItems (as.map tree) front) :
    Truncated (elements item taken (.more front)) := by
  induction as generalizing taken front with
  | nil =>
      obtain ⟨_, _, absent, -⟩ := cut
      cases absent
  | cons a as ih =>
      obtain ⟨_, _, listed, cut⟩ := cut
      obtain ⟨rfl, rfl⟩ := List.cons.inj listed
      rw [List.map_cons, Tree.depthOfItems, Nat.max_le] at fits
      obtain inside | ⟨front, rfl, later⟩ := cut_append_iff.1 cut
      · obtain ⟨place, short⟩ := awaits a (by simp) fits.1 front inside
        exact ⟨place, elements_of_error short⟩
      have read := restores a (by simp) front
      rw [if_pos fits.1] at read
      obtain ⟨place, stuck⟩ | ⟨front', next, others⟩ := Tree.nextElement_of_cut (by grind) later
      · exact ⟨place, elements_of_stuck read stuck⟩
      · rw [elements_of_ok read next]
        exact ih (a :: taken) (fun b member => numberless b (List.mem_cons_of_mem _ member))
          (fun b member => restores b (List.mem_cons_of_mem _ member))
          (fun b member => awaits b (List.mem_cons_of_mem _ member)) fits.2 others

/-- A list is read up to the cut, given its opening bracket. -/
theorem readList_of_cut (tree : α → Tree) (as : List α)
    (numberless : ∀ a ∈ as, (tree a).Numberless)
    (restores : ∀ a ∈ as, item.Restores budget (tree a) a)
    (awaits : ∀ a ∈ as, item.Awaits budget (tree a))
    (fits : Tree.depthOfItems (as.map tree) ≤ budget) {front : List Char}
    (cut : Cut front (Tree.array (as.map tree)).write) :
    front = [] ∨ ∃ front', front = '[' :: front' ∧ Truncated (readList item front') := by
  obtain rfl | ⟨front, rfl, ⟨place, short⟩ | ⟨first, items⟩⟩ :=
    Tree.cut_array_cases (by grind) cut
  · exact .inl rfl
  · exact .inr ⟨front, rfl, place, by simp [readList, short]⟩
  · refine .inr ⟨front, rfl, ?_⟩
    simp only [readList, first]
    exact elements_of_cut tree [] as numberless restores awaits fits items

theorem list_awaits (tree : α → Tree) (as : List α)
    (numberless : ∀ a ∈ as, (tree a).Numberless)
    (restores : ∀ inner, budget = inner + 1 → ∀ a ∈ as, item.Restores inner (tree a) a)
    (awaits : ∀ inner, budget = inner + 1 → ∀ a ∈ as, item.Awaits inner (tree a)) :
    (list budget item).Awaits budget (.array (as.map tree)) := by
  intro fits front cut
  cases budget with
  | zero => simp [Tree.depth] at fits
  | succ inner =>
      rw [Tree.depth, Nat.add_le_add_iff_right] at fits
      obtain rfl | ⟨front, rfl, short⟩ :=
        readList_of_cut tree as numberless (restores inner rfl) (awaits inner rfl) fits cut
      · exact ⟨.value, rfl⟩
      · rwa [list_run, if_neg (Nat.succ_ne_zero inner)]

end Lists

/-! ### Objects as trees -/

section Members

variable {value : Reader Tree} {budget : Nat}

theorem members_of_stuck {taken : List (String × Tree)} {key : String} {cs rest : List Char}
    {a : Tree} {fault : Fault} (read : value.run cs = .ok (a, rest))
    (stuck : nextMember rest = .error fault) :
    members value taken (.more (keyText key cs)) = .error fault := by
  rw [members]
  grind [quoted_keyText, readColon_colon]

theorem members_of_endsInKey {taken : List (String × Tree)} {key : String} {front : List Char}
    (ends : EndsInKey key front) : Truncated (members value taken (.more front)) := by
  obtain ⟨place, short⟩ | read := ends
  · exact ⟨place, by rw [members]; grind⟩
  · have colon : readColon [] = .error (.truncated .object) := rfl
    exact ⟨.object, by rw [members]; grind⟩

theorem members_of_cut (taken found : List (String × Tree))
    (restores : ∀ member ∈ found, value.Restores budget member.2 member.2)
    (awaits : ∀ member ∈ found, value.Awaits budget member.2)
    (fits : Tree.depthOfMembers found ≤ budget) {front : List Char}
    (cut : Tree.CutMembers found front) : Truncated (members value taken (.more front)) := by
  induction found generalizing taken front with
  | nil =>
      obtain ⟨_, _, _, absent, -⟩ := cut
      cases absent
  | cons member found ih =>
      obtain ⟨key, tree, _, listed, cut⟩ := cut
      obtain ⟨rfl, rfl⟩ := List.cons.inj listed
      rw [Tree.depthOfMembers, Nat.max_le] at fits
      obtain ends | ⟨front, rfl, behind⟩ := cut_keyText_cases cut
      · exact members_of_endsInKey ends
      obtain inside | ⟨front, rfl, later⟩ := cut_append_iff.1 behind
      · obtain ⟨place, short⟩ := awaits (key, tree) (by simp) fits.1 front inside
        exact ⟨place, members_of_error short⟩
      have read := restores (key, tree) (by simp) front
      rw [if_pos fits.1] at read
      obtain ⟨place, stuck⟩ | ⟨front', next, others⟩ := Tree.nextMember_of_cut later
      · exact ⟨place, members_of_stuck read stuck⟩
      · rw [members_of_ok read next]
        exact ih _ (fun other among => restores other (List.mem_cons_of_mem _ among))
          (fun other among => awaits other (List.mem_cons_of_mem _ among)) fits.2 others

end Members

theorem Tree.read_of_empty (budget : Nat) : Truncated ((Tree.read budget).run []) := by
  cases budget <;> exact ⟨.value, rfl⟩

/-- A tree without numbers is read up to the cut. -/
theorem Tree.Numberless.awaits {tree : Tree} (numberless : tree.Numberless) (budget : Nat) :
    (Tree.read budget).Awaits budget tree := by
  induction numberless generalizing budget with
  | null =>
      intro _ front cut
      obtain rfl | ⟨front, rfl, later⟩ := cut_cons_iff.1 cut
      · exact read_of_empty budget
      · cases budget <;> exact readWord_of_cut later
  | boolean b =>
      intro _ front cut
      cases b <;> obtain rfl | ⟨front, rfl, later⟩ := cut_cons_iff.1 cut
      · exact read_of_empty budget
      · cases budget <;> exact readWord_of_cut later
      · exact read_of_empty budget
      · cases budget <;> exact readWord_of_cut later
  | string s =>
      intro _ front cut
      obtain rfl | ⟨front, rfl, later⟩ := cut_cons_iff.1 cut
      · exact read_of_empty budget
      · obtain ⟨place, short⟩ := quoted_of_cut s later
        exact ⟨place, by rw [read_run_string, short]; rfl⟩
  | @array items each ih =>
      intro fits front cut
      cases budget with
      | zero => simp [depth] at fits
      | succ inner =>
          rw [depth, Nat.add_le_add_iff_right, ← List.map_id items] at fits
          rw [← List.map_id items] at cut
          obtain rfl | ⟨front, rfl, place, short⟩ := readList_of_cut id items each
            (fun item member => (each item member).restores inner)
            (fun item member => ih item member inner) fits cut
          · exact read_of_empty (inner + 1)
          · exact ⟨place, by rw [read_run_array, short]; rfl⟩
  | @object members each ih =>
      intro fits front cut
      cases budget with
      | zero => simp [depth] at fits
      | succ inner =>
          rw [depth, Nat.add_le_add_iff_right] at fits
          obtain rfl | ⟨front, rfl, ⟨place, short⟩ | ⟨front', first, keyed⟩⟩ :=
            cut_object_cases cut
          · exact read_of_empty (inner + 1)
          · exact ⟨place, by rw [read_run_object, readObject, short]; rfl⟩
          · obtain ⟨place, short⟩ := members_of_cut [] members
              (fun member among => (each member among).restores inner)
              (fun member among => ih member among inner) fits keyed
            refine ⟨place, ?_⟩
            simp only [read_run_object, readObject, first, short]
            rfl

/-! ### Records -/

namespace Record

variable {δ α : Type} {record : Record δ α} {budget : Nat}

theorem readMembers_of_stuck {draft draft' : δ} {key : String} {cs rest : List Char}
    {fault : Fault} (read : record.member draft key (':' :: cs) = .ok (draft', rest))
    (stuck : nextMember rest = .error fault) :
    record.readMembers draft (.more (keyText key cs)) = .error fault := by
  rw [readMembers]
  grind [quoted_keyText]

theorem readMembers_of_endsInKey {draft : δ} {key : String} {field : Field δ}
    {front : List Char} (found : record.fields.find? (fun field => field.name == key) = some field)
    (unset : field.isSet draft = false) (ends : EndsInKey key front) :
    Truncated (record.readMembers draft (.more front)) := by
  obtain ⟨place, short⟩ | read := ends
  · exact ⟨place, by rw [readMembers]; grind⟩
  · have colon : record.member draft key [] = .error (.truncated .object) := by
      simp [member, found, unset, readColon, afterBlanks]
    exact ⟨.object, by rw [readMembers]; grind⟩

/-- The members before the cut are entered, and at the cut the object ends too early. -/
theorem Fills.readMembers_of_cut {draft : δ} {members : List (String × Tree)} {a : α}
    (fills : record.Fills budget draft members a)
    (awaits : ∀ member ∈ members, ∀ field,
      record.fields.find? (fun field => field.name == member.1) = some field →
        field.read.Awaits budget member.2)
    (fits : Tree.depthOfMembers members ≤ budget) {front : List Char}
    (cut : Tree.CutMembers members front) :
    Truncated (record.readMembers draft (.more front)) := by
  induction fills generalizing front with
  | finished finish =>
      obtain ⟨_, _, _, absent, -⟩ := cut
      cases absent
  | @field draft key tree enter field members a found unset restores later ih =>
      obtain ⟨_, _, _, listed, cut⟩ := cut
      cases listed
      rw [Tree.depthOfMembers, Nat.max_le] at fits
      obtain ends | ⟨front, rfl, behind⟩ := cut_keyText_cases cut
      · exact readMembers_of_endsInKey found unset ends
      have member (cs : List Char) := member_of_field cs found unset
      obtain inside | ⟨front, rfl, beyond⟩ := cut_append_iff.1 behind
      · obtain ⟨place, short⟩ := awaits (key, tree) (by simp) field found fits.1 front inside
        refine ⟨place, readMembers_of_error ?_⟩
        rw [member, short]
        rfl
      have read := member (tree.write ++ front)
      rw [restores front, if_pos fits.1] at read
      obtain ⟨place, stuck⟩ | ⟨front', next, others⟩ := Tree.nextMember_of_cut beyond
      · exact ⟨place, readMembers_of_stuck read stuck⟩
      · rw [readMembers_of_ok read next]
        exact ih (fun other among => awaits other (List.mem_cons_of_mem _ among)) fits.2 others

/-- A record that its members fill waits for their end if the readers of its fields do. -/
theorem awaits {members : List (String × Tree)} (a : α)
    (fills : ∀ inner, budget = inner + 1 → record.Fills inner record.blank members a)
    (fields : ∀ inner, budget = inner + 1 → ∀ member ∈ members, ∀ field,
      record.fields.find? (fun field => field.name == member.1) = some field →
        field.read.Awaits inner member.2) :
    (record.reader budget).Awaits budget (.object members) := by
  intro fits front cut
  cases budget with
  | zero => simp [Tree.depth] at fits
  | succ inner =>
      rw [Tree.depth, Nat.add_le_add_iff_right] at fits
      obtain rfl | ⟨front, rfl, ⟨place, short⟩ | ⟨front', first, keyed⟩⟩ :=
        Tree.cut_object_cases cut
      · exact ⟨.value, rfl⟩
      · refine ⟨place, ?_⟩
        rw [reader_run, if_neg (Nat.succ_ne_zero inner), short]
      · rw [reader_run, if_neg (Nat.succ_ne_zero inner), first]
        exact (fills inner rfl).readMembers_of_cut (fields inner rfl) fits keyed

end Record

/-! ### Variants -/

namespace Variants

variable {τ α : Type} {variants : Variants τ α} {budget : Nat} {key : String} {tag : τ} {a : α}

theorem awaits_bare (key : String) : (variants.reader budget).Awaits budget (.string key) := by
  intro _ front cut
  obtain rfl | ⟨front, rfl, later⟩ := cut_cons_iff.1 cut
  · exact ⟨.value, rfl⟩
  · obtain ⟨place, short⟩ := quoted_of_cut key later
    exact ⟨place, by rw [reader_run_bare, short]; rfl⟩

theorem object_of_cut {tree : Tree} (named : variants.ofName? key = some tag)
    (restores : (variants.payload tag).Restores budget tree a)
    (awaits : (variants.payload tag).Awaits budget tree) (fits : tree.depth ≤ budget)
    {front : List Char} (cut : Cut front (keyText key (tree.write ++ ['\x7d']))) :
    Truncated (variants.object ('"' :: front)) := by
  have name (cs : List Char) : Variants.key ('"' :: cs) = quoted.run cs := rfl
  have colon : readColon [] = .error (.truncated .object) := rfl
  have close : close [] = .error (.truncated .object) := rfl
  obtain (⟨place, short⟩ | read) | ⟨front, rfl, behind⟩ := cut_keyText_cases cut
  · exact ⟨place, by simp only [object, name, short]⟩
  · exact ⟨.object, by simp only [object, name, read, ofName, named, colon]⟩
  obtain inside | ⟨front, rfl, later⟩ := cut_append_iff.1 behind
  · obtain ⟨place, short⟩ := awaits fits front inside
    exact ⟨place, by
      simp only [object, name, quoted_keyText, ofName, named, readColon_colon, short]⟩
  · rw [cut_singleton_iff.1 later]
    have read := restores []
    rw [if_pos fits] at read
    exact ⟨.object, by
      simp only [object, name, quoted_keyText, ofName, named, readColon_colon, read, close]⟩

/-- A variant waits for the end of its payload, and then for its brace. -/
theorem awaits {tree : Tree} (named : variants.ofName? key = some tag)
    (restores : ∀ inner, budget = inner + 1 → (variants.payload tag).Restores inner tree a)
    (payload : ∀ inner, budget = inner + 1 → (variants.payload tag).Awaits inner tree) :
    (variants.reader budget).Awaits budget (.object [(key, tree)]) := by
  intro fits front cut
  cases budget with
  | zero => simp [Tree.depth] at fits
  | succ inner =>
      have written : (Tree.object [(key, tree)]).write =
          '\x7b' :: '"' :: keyText key (tree.write ++ ['\x7d']) := by
        simp [Tree.write, Tree.writeMembers, keyText, writeString]
      have inside : tree.depth ≤ inner := by
        simpa [Tree.depth, Tree.depthOfMembers] using fits
      rw [written, cut_cons_iff] at cut
      obtain rfl | ⟨front, rfl, later⟩ := cut
      · exact ⟨.value, rfl⟩
      rw [reader_run_object, if_neg (Nat.succ_ne_zero inner)]
      obtain rfl | ⟨front, rfl, behind⟩ := cut_cons_iff.1 later
      · exact ⟨.object, rfl⟩
      · exact object_of_cut named (restores inner rfl) (payload inner rfl) inside behind

end Variants

/-! ### Whole texts -/

/-- The front of a tree's text is not decoded. -/
theorem decode_of_cut {α : Type} {reader : Reader α} {budget : Nat} {tree : Tree}
    (awaits : reader.Awaits budget tree) (fits : tree.depth ≤ budget) {front missing : String}
    (whole : front ++ missing = tree.text) (cut : missing ≠ "") :
    Truncated (decode reader front) := by
  have characters : front.toList ++ missing.toList = tree.write := by
    rw [← String.toList_append, whole, Tree.text, String.toList_ofList]
  obtain ⟨c, cs, rest⟩ := List.exists_cons_of_ne_nil (mt String.toList_eq_nil_iff.1 cut)
  obtain ⟨place, short⟩ := awaits fits front.toList ⟨c, cs, by rw [← rest, characters]⟩
  exact ⟨place, by rw [decode, short]⟩

end Liquefy.Json
