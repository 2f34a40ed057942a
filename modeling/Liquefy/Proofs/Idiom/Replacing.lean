import Liquefy.Idiom
import Mathlib.Data.List.Infix
import Mathlib.Tactic.MkIffOfInductiveProp

/-!
# Idioms are replaced all at once

Idioms are replaced in passes, one after the other and each from the left. A text is nothing but
gaps without any idiom and occurrences of idioms between them (`exists_spread`). A pass copies a
gap as long as no occurrence can reach from it into the piece that follows, and it copies a piece
in which no occurrence can begin. Both are questions about the pieces alone, which the two idioms
answer by their spelling (`Undisturbed`), so the passes together replace every occurrence where it
stands, whichever idiom comes first.
-/

namespace Liquefy.Idiom

/-! ### One pass over characters -/

section Pass

variable {pattern replacement : List Char}

theorem replaceFrom_pattern (nonempty : pattern ≠ []) (done rest : List Char) :
    replaceFrom pattern replacement done (pattern ++ rest) =
      replaceFrom pattern replacement (replacement.reverse ++ done) rest := by
  cases pattern with
  | nil => exact absurd rfl nonempty
  | cons c cs =>
      rw [List.cons_append, replaceFrom, if_pos]
      · simp
      · exact ⟨nonempty, List.isPrefixOf_iff_prefix.2 (List.prefix_append (c :: cs) rest)⟩

theorem replaceFrom_other {c : Char} {rest : List Char} (absent : ¬ pattern <+: c :: rest)
    (done : List Char) :
    replaceFrom pattern replacement done (c :: rest) =
      replaceFrom pattern replacement (c :: done) rest := by
  rw [replaceFrom, if_neg]
  intro found
  exact absent (List.isPrefixOf_iff_prefix.1 found.2)

/-- What is already done stays in front of the rest. -/
theorem replaceFrom_eq_append (nonempty : pattern ≠ []) (done cs : List Char) :
    replaceFrom pattern replacement done cs =
      done.reverse ++ replaceFrom pattern replacement [] cs := by
  induction length : cs.length using Nat.strong_induction_on generalizing done cs with
  | h n ih =>
      subst length
      by_cases found : pattern <+: cs
      · obtain ⟨rest, rfl⟩ := found
        have shorter : rest.length < (pattern ++ rest).length := by
          have := List.length_pos_iff.2 nonempty
          simp
          omega
        rw [replaceFrom_pattern nonempty, replaceFrom_pattern nonempty, ih _ shorter _ _ rfl,
          ih _ shorter (replacement.reverse ++ []) _ rfl]
        simp
      · cases cs with
        | nil => simp [replaceFrom]
        | cons c rest =>
            rw [replaceFrom_other found, replaceFrom_other found, ih _ (by simp) _ _ rfl,
              ih _ (by simp) [c] _ rfl]
            simp

/-- No occurrence of the pattern begins in the text when `rest` follows it. -/
def Quiet (pattern text rest : List Char) : Prop :=
  ∀ tail, tail <:+ text → tail ≠ [] → ¬ pattern <+: tail ++ rest

/-- Text in which no occurrence begins is copied. -/
theorem replaceFrom_append_of_quiet (nonempty : pattern ≠ []) {text rest : List Char}
    (quiet : Quiet pattern text rest) :
    replaceFrom pattern replacement [] (text ++ rest) =
      text ++ replaceFrom pattern replacement [] rest := by
  induction text with
  | nil => rfl
  | cons c text ih =>
      have later : Quiet pattern text rest := by
        intro tail suffix
        exact quiet tail (suffix.trans (List.suffix_cons c text))
      have here : ¬ pattern <+: c :: (text ++ rest) := quiet (c :: text) List.suffix_rfl (by simp)
      rw [List.cons_append, replaceFrom_other here, replaceFrom_eq_append nonempty, ih later]
      simp

end Pass

/-! ### Pieces that do not disturb a pass -/

/-- Neither text begins with the other, so that nothing begins with both. -/
def Apart (s t : List Char) : Prop := ¬ s <+: t ∧ ¬ t <+: s

instance (s t : List Char) : Decidable (Apart s t) := inferInstanceAs (Decidable (_ ∧ _))

theorem Apart.not_prefix_append {s t : List Char} (apart : Apart s t) (rest : List Char) :
    ¬ s <+: t ++ rest := by
  intro begins
  obtain within | within := List.prefix_or_prefix_of_prefix begins (List.prefix_append t rest)
  · exact apart.1 within
  · exact apart.2 within

/-- The ends of a text, from the whole text down to its last character. -/
def ends : List Char → List (List Char)
  | [] => []
  | c :: cs => (c :: cs) :: ends cs

theorem mem_ends {tail text : List Char} : tail ∈ ends text ↔ tail <:+ text ∧ tail ≠ [] := by
  induction text with
  | nil => simp [ends]
  | cons c cs ih =>
      rw [ends, List.mem_cons, ih, List.suffix_cons_iff]
      constructor
      · rintro (rfl | ⟨suffix, nonempty⟩)
        · exact ⟨.inl rfl, by simp⟩
        · exact ⟨.inr suffix, nonempty⟩
      · rintro ⟨rfl | suffix, nonempty⟩
        · exact .inl rfl
        · exact .inr ⟨suffix, nonempty⟩

/-- No occurrence of the pattern reaches into the piece from the left. -/
def Shielded (pattern piece : List Char) : Prop :=
  (ends pattern).tail.all (fun tail => decide (Apart tail piece)) = true

/-- No occurrence of the pattern begins in the piece. -/
def Clear (pattern piece : List Char) : Prop :=
  (ends piece).all (fun tail => decide (Apart pattern tail)) = true

instance (pattern piece : List Char) : Decidable (Shielded pattern piece) :=
  inferInstanceAs (Decidable (_ = _))

instance (pattern piece : List Char) : Decidable (Clear pattern piece) :=
  inferInstanceAs (Decidable (_ = _))

section Pieces

variable {pattern piece : List Char}

theorem Clear.quiet (clear : Clear pattern piece) (rest : List Char) :
    Quiet pattern piece rest := by
  intro tail suffix nonempty
  have apart := List.all_eq_true.1 clear tail (mem_ends.2 ⟨suffix, nonempty⟩)
  exact (of_decide_eq_true apart).not_prefix_append rest

/-- An occurrence that begins in the gap ends there too, or one of its ends meets the piece. -/
theorem Shielded.quiet (shielded : Shielded pattern piece) {gap : List Char}
    (absent : ¬ pattern <:+: gap) (rest : List Char) : Quiet pattern gap (piece ++ rest) := by
  intro tail suffix nonempty begins
  obtain within | ⟨beyond, rfl⟩ :=
    List.prefix_or_prefix_of_prefix begins (List.prefix_append tail (piece ++ rest))
  · exact absent (within.isInfix.trans suffix.isInfix)
  · have begins' : beyond <+: piece ++ rest := (List.prefix_append_right_inj tail).1 begins
    by_cases ended : beyond = []
    · subst ended
      rw [List.append_nil] at absent
      exact absent suffix.isInfix
    · have listed : beyond ∈ (ends (tail ++ beyond)).tail := by
        cases tail with
        | nil => exact absurd rfl nonempty
        | cons c cs => exact mem_ends.2 ⟨List.suffix_append cs beyond, ended⟩
      have apart := of_decide_eq_true (List.all_eq_true.1 shielded beyond listed)
      exact apart.not_prefix_append rest begins'

theorem quiet_nil {text : List Char} (absent : ¬ pattern <:+: text) : Quiet pattern text [] := by
  intro tail suffix _ begins
  rw [List.append_nil] at begins
  exact absent (begins.isInfix.trans suffix.isInfix)

end Pieces

/-! ### One pass over a text -/

/-- The idiom stands somewhere in the text. -/
def Occurs (idiom : Idiom) (text : String) : Prop :=
  ∃ before after, text = before ++ idiom.pattern ++ after

theorem occurs_iff_infix {idiom : Idiom} {text : String} :
    idiom.Occurs text ↔ idiom.pattern.toList <:+: text.toList := by
  constructor
  · rintro ⟨before, after, rfl⟩
    exact ⟨before.toList, after.toList, by simp⟩
  · rintro ⟨before, after, spelled⟩
    refine ⟨String.ofList before, String.ofList after, ?_⟩
    apply String.toList_injective
    simp [← spelled]

instance (idiom : Idiom) (text : String) : Decidable (idiom.Occurs text) :=
  decidable_of_iff _ occurs_iff_infix.symm

/-- A text made of gaps and of pieces that stand for idioms, in turn. -/
def spread (piece : Idiom → String) (gap : String) : List (Idiom × String) → String
  | [] => gap
  | (idiom, next) :: more => gap ++ (piece idiom ++ spread piece next more)

section Passes

variable {idiom : Idiom}

theorem replace_pattern (nonempty : idiom.pattern.toList ≠ []) (rest : String) :
    idiom.replace (idiom.pattern ++ rest) = idiom.replacement ++ idiom.replace rest := by
  apply String.toList_injective
  simp only [replace, String.toList_append, String.toList_ofList]
  rw [replaceFrom_pattern nonempty, replaceFrom_eq_append nonempty]
  simp

theorem replace_append_of_quiet (nonempty : idiom.pattern.toList ≠ []) {text rest : String}
    (quiet : Quiet idiom.pattern.toList text.toList rest.toList) :
    idiom.replace (text ++ rest) = text ++ idiom.replace rest := by
  apply String.toList_injective
  simp only [replace, String.toList_append, String.toList_ofList]
  exact replaceFrom_append_of_quiet nonempty quiet

theorem replace_of_not_occurs (nonempty : idiom.pattern.toList ≠ []) {text : String}
    (absent : ¬ idiom.Occurs text) : idiom.replace text = text := by
  have copied : idiom.replace (text ++ "") = text ++ idiom.replace "" :=
    replace_append_of_quiet nonempty (quiet_nil (mt occurs_iff_infix.2 absent))
  have empty : idiom.replace "" = "" := by
    simp [replace, replaceFrom]
  simpa [empty] using copied

/-- How a pass for the idiom treats a piece: it replaces its own pattern and leaves all else. -/
structure Treats (idiom : Idiom) (piece result : String) : Prop where
  shielded : Shielded idiom.pattern.toList piece.toList
  result : piece = idiom.pattern ∧ result = idiom.replacement ∨
    result = piece ∧ Clear idiom.pattern.toList piece.toList

/-- A pass treats the pieces one by one and copies the gaps. -/
theorem replace_spread (nonempty : idiom.pattern.toList ≠ []) {piece result : Idiom → String}
    {gap : String} {pieces : List (Idiom × String)}
    (treats : ∀ other ∈ pieces.map Prod.fst, idiom.Treats (piece other) (result other))
    (absent : ∀ text ∈ gap :: pieces.map Prod.snd, ¬ idiom.Occurs text) :
    idiom.replace (spread piece gap pieces) = spread result gap pieces := by
  induction pieces generalizing gap with
  | nil => exact replace_of_not_occurs nonempty (absent gap (by simp))
  | cons first more ih =>
      obtain ⟨other, next⟩ := first
      obtain ⟨shielded, treated⟩ := treats other (by simp)
      have rest : idiom.replace (spread piece next more) = spread result next more := by
        apply ih
        · intro other member
          exact treats other (by simp [member])
        · intro text member
          exact absent text (List.mem_cons_of_mem gap member)
      have here : ¬ idiom.pattern.toList <:+: gap.toList :=
        mt occurs_iff_infix.2 (absent gap (by simp))
      rw [spread, spread, replace_append_of_quiet nonempty]
      · obtain ⟨same, replaced⟩ | ⟨kept, clear⟩ := treated
        · rw [same, replaced, replace_pattern nonempty, rest]
        · rw [kept, replace_append_of_quiet nonempty (clear.quiet _), rest]
      · rw [String.toList_append]
        exact shielded.quiet here _

end Passes

/-! ### Two passes -/

/-- The passes for two idioms, in this order, do not disturb one another: the first leaves the
occurrences of the second as they are, and the second what the first has put in. -/
@[mk_iff]
structure Undisturbed (first second : Idiom) : Prop where
  nonemptyFirst : first.pattern.toList ≠ []
  nonemptySecond : second.pattern.toList ≠ []
  distinct : second.pattern ≠ first.pattern
  findsFirst : Shielded first.pattern.toList first.pattern.toList
  keepsSecond : Shielded first.pattern.toList second.pattern.toList ∧
    Clear first.pattern.toList second.pattern.toList
  keepsFirst : Shielded second.pattern.toList first.replacement.toList ∧
    Clear second.pattern.toList first.replacement.toList
  findsSecond : Shielded second.pattern.toList second.pattern.toList

instance (first second : Idiom) : Decidable (Undisturbed first second) :=
  decidable_of_iff _ (undisturbed_iff first second).symm

/-- What stands for an idiom after the pass for the given one. -/
def afterPass (first idiom : Idiom) : String :=
  if idiom.pattern = first.pattern then idiom.replacement else idiom.pattern

/-- The gaps hold no idiom, and the pieces are idioms. -/
structure Cut (gap : String) (pieces : List (Idiom × String)) : Prop where
  known : ∀ idiom ∈ pieces.map Prod.fst, idiom ∈ all
  absent : ∀ text ∈ gap :: pieces.map Prod.snd, ∀ idiom ∈ all, ¬ idiom.Occurs text

theorem Undisturbed.replace_replace {first second : Idiom} (passes : Undisturbed first second)
    (both : ∀ idiom, idiom ∈ all ↔ idiom = first ∨ idiom = second) {gap : String}
    {pieces : List (Idiom × String)} (cut : Cut gap pieces) :
    second.replace (first.replace (spread pattern gap pieces)) =
      spread replacement gap pieces := by
  have firstPass : first.replace (spread pattern gap pieces) =
      spread first.afterPass gap pieces := by
    apply replace_spread passes.nonemptyFirst
    · intro idiom member
      obtain rfl | rfl := (both idiom).1 (cut.known idiom member)
      · rw [afterPass, if_pos rfl]
        exact ⟨passes.findsFirst, .inl ⟨rfl, rfl⟩⟩
      · rw [afterPass, if_neg passes.distinct]
        exact ⟨passes.keepsSecond.1, .inr ⟨rfl, passes.keepsSecond.2⟩⟩
    · intro text member
      exact cut.absent text member first ((both first).2 (.inl rfl))
  have secondPass : second.replace (spread first.afterPass gap pieces) =
      spread replacement gap pieces := by
    apply replace_spread passes.nonemptySecond
    · intro idiom member
      obtain rfl | rfl := (both idiom).1 (cut.known idiom member)
      · rw [afterPass, if_pos rfl]
        exact ⟨passes.keepsFirst.1, .inr ⟨rfl, passes.keepsFirst.2⟩⟩
      · rw [afterPass, if_neg passes.distinct]
        exact ⟨passes.findsSecond, .inl ⟨rfl, rfl⟩⟩
    · intro text member
      exact cut.absent text member second ((both second).2 (.inr rfl))
  rw [firstPass, secondPass]

theorem replaceAll_spread {gap : String} {pieces : List (Idiom × String)} (cut : Cut gap pieces) :
    replaceAll (spread pattern gap pieces) = spread replacement gap pieces := by
  have passes : Undisturbed courseProgress unfilteredClass := by decide +kernel
  exact passes.replace_replace (by simp [all]) cut

theorem replaceReversed_spread {gap : String} {pieces : List (Idiom × String)}
    (cut : Cut gap pieces) :
    all.reverse.foldl (fun text idiom => idiom.replace text) (spread pattern gap pieces) =
      spread replacement gap pieces := by
  have passes : Undisturbed unfilteredClass courseProgress := by decide +kernel
  exact passes.replace_replace (by simp [all, or_comm]) cut

/-! ### Every text is cut -/

theorem spread_append (piece : Idiom → String) (gap : String) (idiom : Idiom) (gap' : String)
    (pieces pieces' : List (Idiom × String)) :
    spread piece gap (pieces ++ (idiom, gap') :: pieces') =
      spread piece gap pieces ++ (piece idiom ++ spread piece gap' pieces') := by
  induction pieces generalizing gap with
  | nil => rfl
  | cons first more ih => simp [spread, ih, String.append_assoc]

theorem length_pattern_pos {idiom : Idiom} (known : idiom ∈ all) : 0 < idiom.pattern.length := by
  simp only [all, List.mem_cons, List.not_mem_nil, or_false] at known
  obtain rfl | rfl := known
  · decide
  · decide

/-- A text with an idiom in it falls into what stands before, the idiom and what comes after. -/
theorem exists_spread (text : String) :
    ∃ gap pieces, Cut gap pieces ∧ spread pattern gap pieces = text := by
  induction length : text.length using Nat.strong_induction_on generalizing text with
  | h n ih =>
      subst length
      by_cases found : ∃ idiom ∈ all, idiom.Occurs text
      · obtain ⟨idiom, known, before, after, rfl⟩ := found
        have positive := length_pattern_pos known
        obtain ⟨gap, pieces, cut, rfl⟩ := ih before.length (by simp; omega) before rfl
        obtain ⟨gap', pieces', cut', rfl⟩ := ih after.length (by simp; omega) after rfl
        refine ⟨gap, pieces ++ (idiom, gap') :: pieces', ⟨?_, ?_⟩, ?_⟩
        · intro other member
          rw [List.map_append, List.mem_append] at member
          obtain member | member := member
          · exact cut.known other member
          · obtain rfl | member := List.mem_cons.1 member
            · exact known
            · exact cut'.known other member
        · intro text member
          rw [List.map_append, ← List.cons_append, List.mem_append] at member
          obtain member | member := member
          · exact cut.absent text member
          · exact cut'.absent text member
        · rw [spread_append, String.append_assoc]
      · refine ⟨text, [], ⟨by simp, ?_⟩, rfl⟩
        intro other member idiom known occurs
        obtain rfl : other = text := by simpa using member
        exact found ⟨idiom, known, occurs⟩

/-! ### All at once -/

/-- In a text of gaps without idioms and of idioms between them, every idiom is replaced where it
stands and nothing else is changed. So the order of the two passes plays no part, and a text without
idioms stays as it is. -/
theorem idioms_replaced_simultaneously :
    (∀ (gap : String) (pieces : List (Idiom × String)), Cut gap pieces →
      replaceAll (spread pattern gap pieces) = spread replacement gap pieces) ∧
    (∀ text, all.reverse.foldl (fun text idiom => idiom.replace text) text = replaceAll text) ∧
    ∀ text, (∀ idiom ∈ all, ¬ idiom.Occurs text) → replaceAll text = text := by
  refine ⟨fun _ _ => replaceAll_spread, ?_, ?_⟩
  · intro text
    obtain ⟨gap, pieces, cut, rfl⟩ := exists_spread text
    rw [replaceAll_spread cut, replaceReversed_spread cut]
  · intro text absent
    have cut : Cut text [] := ⟨by simp, by simpa using absent⟩
    have replaced := replaceAll_spread cut
    rwa [spread, spread] at replaced

/-- Both idioms between gaps that begin or end as an idiom does. -/
theorem idioms_replaced_next_to_stray_braces :
    replaceAll (spread pattern "\x7b\x7b"
        [(courseProgress, "class=\""), (unfilteredClass, "\x7d\x7d\""), (courseProgress, "")]) =
      "\x7b\x7b" ++ ("\x7b\x7b course.progress \x7d\x7d%" ++ ("class=\"" ++
        ("class=\"uk-text-bold\"" ++ ("\x7d\x7d\"" ++
          ("\x7b\x7b course.progress \x7d\x7d%" ++ ""))))) := by
  have cut : Cut "\x7b\x7b"
      [(courseProgress, "class=\""), (unfilteredClass, "\x7d\x7d\""), (courseProgress, "")] := by
    refine ⟨by simp [all], ?_⟩
    simp only [all, List.map_cons, List.map_nil, List.forall_mem_cons]
    decide +kernel
  exact idioms_replaced_simultaneously.1 _ _ cut

end Liquefy.Idiom
