import Liquefy.Proofs.Conversion.Tracing
import Mathlib.Data.List.Induction

/-!
# Blocks as brackets

The opens and closes of a conversion are a word of brackets. Whether a close belongs to an open is
a matter of the word alone: the events between the two must be balanced. `LeavesOpen` splits a
word at the opens that nothing closes, and `leavesOpen_of_run` finds this split for every run
that succeeds, so that the blocks of the run and the brackets of the word agree.
-/

namespace Liquefy

open BlockEvent (run run_append)

/-! ### Balanced words -/

/-- Every block opened in the word is closed in it, and no other. -/
inductive Balanced : List BlockEvent → Prop
  | nil : Balanced []
  | block (block : Block) {inner rest : List BlockEvent} (inside : Balanced inner)
      (after : Balanced rest) : Balanced (.opens block :: (inner ++ .closes :: rest))

theorem Balanced.append {first second : List BlockEvent} (balanced : Balanced first)
    (balanced' : Balanced second) : Balanced (first ++ second) := by
  induction balanced with
  | nil => exact balanced'
  | block block inside after _ ih => simpa using Balanced.block block inside ih

/-- A balanced word leaves the open blocks as they are. -/
theorem Balanced.run_eq {word : List BlockEvent} (balanced : Balanced word) (scopes : Scopes) :
    run word scopes = (none, scopes) := by
  induction balanced generalizing scopes with
  | nil => rfl
  | block block inside after ih ih' =>
      simp only [run, BlockEvent.step, run_append, ih, Scopes.pop?_push]
      exact ih' scopes

/-- What follows an open that is not closed does not make the word balanced. -/
theorem not_balanced_append_opens {outer inner : List BlockEvent} {block : Block}
    (balanced : Balanced inner) : ¬ Balanced (outer ++ .opens block :: inner) := by
  intro whole
  have returned := whole.run_eq .empty
  rw [run_append] at returned
  match first : run outer .empty with
  | (some failure, scopes) => simp [first] at returned
  | (none, scopes) =>
      simp only [first, run, BlockEvent.step, balanced.run_eq] at returned
      cases returned

/-! ### The block that an `end` would close -/

/-- The open that a close after the word belongs to: the latest one after which the word is
balanced. -/
structure Awaits (word outer : List BlockEvent) (block : Block) (inner : List BlockEvent) :
    Prop where
  split : word = outer ++ .opens block :: inner
  balanced : Balanced inner
  latest : ∀ outer' block' inner', word = outer' ++ .opens block' :: inner' → Balanced inner' →
    outer'.length ≤ outer.length

/-- There is no other open after which the word is balanced. -/
theorem awaits_of_balanced {word outer inner : List BlockEvent} {block : Block}
    (split : word = outer ++ .opens block :: inner) (balanced : Balanced inner) :
    Awaits word outer block inner := by
  refine ⟨split, balanced, ?_⟩
  intro outer' block' inner' split' balanced'
  apply Nat.le_of_not_lt
  intro later
  obtain ⟨between, rfl⟩ : ∃ between, outer' = outer ++ .opens block :: between := by
    rw [split] at split'
    rcases List.append_eq_append_iff.1 split' with ⟨middle, rfl, rest⟩ | ⟨middle, rfl, -⟩
    · cases middle with
      | nil => simp at later
      | cons event middle =>
          obtain ⟨rfl, -⟩ := List.cons.inj rest
          exact ⟨middle, rfl⟩
    · simp only [List.length_append] at later
      omega
  rw [split] at split'
  simp only [List.append_assoc, List.cons_append, List.append_cancel_left_eq,
    List.cons.injEq, true_and] at split'
  rw [split'] at balanced
  exact not_balanced_append_opens balanced' balanced

/-! ### Opens that nothing closes -/

/-- The word opens the blocks, outermost first, and between them it is balanced. -/
inductive LeavesOpen : List BlockEvent → List Block → Prop
  | closed {word : List BlockEvent} (balanced : Balanced word) : LeavesOpen word []
  | block {before rest : List BlockEvent} {blocks : List Block} (block : Block)
      (balanced : Balanced before) (inside : LeavesOpen rest blocks) :
      LeavesOpen (before ++ .opens block :: rest) (block :: blocks)

namespace LeavesOpen

variable {word : List BlockEvent} {blocks : List Block}

theorem append_balanced (leaves : LeavesOpen word blocks) {more : List BlockEvent}
    (balanced : Balanced more) : LeavesOpen (word ++ more) blocks := by
  induction leaves with
  | closed balanced' => exact .closed (balanced'.append balanced)
  | block block balanced' _ ih => simpa using LeavesOpen.block block balanced' ih

theorem append_opens (leaves : LeavesOpen word blocks) (block : Block) :
    LeavesOpen (word ++ [.opens block]) (blocks ++ [block]) := by
  induction leaves with
  | closed balanced => exact .block block balanced (.closed .nil)
  | block other balanced _ ih => simpa using LeavesOpen.block other balanced ih

/-- The innermost block was opened last, and the word is balanced from there on. -/
theorem exists_innermost {block : Block} (leaves : LeavesOpen word (blocks ++ [block])) :
    ∃ outer inner, word = outer ++ .opens block :: inner ∧ LeavesOpen outer blocks ∧
      Balanced inner := by
  induction blocks generalizing word with
  | nil =>
      cases leaves with
      | @block before rest _ _ balanced inside =>
          cases inside with
          | closed balanced' => exact ⟨before, rest, rfl, .closed balanced, balanced'⟩
  | cons other blocks ih =>
      cases leaves with
      | @block before rest _ _ balanced inside =>
          obtain ⟨outer, inner, rfl, inside', balanced'⟩ := ih inside
          exact ⟨before ++ .opens other :: outer, inner, by simp,
            .block other balanced inside', balanced'⟩

/-- Closing the innermost block makes the word balanced from before its open. -/
theorem append_closes {block : Block} (leaves : LeavesOpen word (blocks ++ [block])) :
    LeavesOpen (word ++ [.closes]) blocks := by
  obtain ⟨outer, inner, rfl, outside, balanced⟩ := leaves.exists_innermost
  simpa using outside.append_balanced (Balanced.block block balanced .nil)

theorem run_eq (leaves : LeavesOpen word blocks) (scopes : Scopes) :
    run word scopes = (none, ⟨blocks.reverse ++ scopes.blocks⟩) := by
  induction leaves generalizing scopes with
  | closed balanced => exact balanced.run_eq scopes
  | block block balanced _ ih =>
      simp [run_append, balanced.run_eq, run, BlockEvent.step, ih, Scopes.push]

end LeavesOpen

/-- A run that succeeds splits its word at the blocks that it leaves open. -/
theorem leavesOpen_of_run {word : List BlockEvent} {scopes : Scopes}
    (succeeds : run word .empty = (none, scopes)) : LeavesOpen word scopes.toList := by
  induction word using List.reverseRecOn generalizing scopes with
  | nil =>
      cases succeeds
      exact .closed .nil
  | append_singleton word event ih =>
      rw [run_append] at succeeds
      rcases first : run word .empty with ⟨_ | failure, middle⟩
      · have earlier := ih first
        simp only [first, run] at succeeds
        cases event with
        | opens block =>
            cases succeeds
            simpa using earlier.append_opens block
        | closes =>
            rcases middle with ⟨_ | ⟨block, blocks⟩⟩
            · simp [BlockEvent.step, Scopes.pop?] at succeeds
            · cases succeeds
              apply LeavesOpen.append_closes
              simpa [Scopes.toList] using earlier
        | fails failure => simp [BlockEvent.step] at succeeds
      · simp [first] at succeeds

theorem balanced_iff_run {word : List BlockEvent} :
    Balanced word ↔ run word .empty = (none, .empty) := by
  constructor
  · intro balanced
    exact balanced.run_eq .empty
  · intro returned
    cases leavesOpen_of_run returned with
    | closed balanced => exact balanced

instance : DecidablePred Balanced := fun word =>
  decidable_of_iff ((run word .empty).1.isNone ∧ (run word .empty).2.isEmpty) <| by
    rw [balanced_iff_run]
    match run word .empty with
    | (some failure, scopes) => simp
    | (none, ⟨blocks⟩) => simp [Scopes.isEmpty, Scopes.empty]

/-! ### Unmatched opens -/

/-- A close in the word belongs to an open right before the word. -/
def ClosedWithin (word : List BlockEvent) : Prop :=
  ∃ inner rest, word = inner ++ .closes :: rest ∧ Balanced inner

/-- The event that closes a block. -/
def BlockEvent.isCloses : BlockEvent → Bool
  | .closes => true
  | _ => false

theorem closedWithin_iff {word : List BlockEvent} :
    ClosedWithin word ↔
      ∃ n < word.length, word[n]?.any BlockEvent.isCloses = true ∧ Balanced (word.take n) := by
  constructor
  · rintro ⟨inner, rest, rfl, balanced⟩
    exact ⟨inner.length, by simp, by simp [BlockEvent.isCloses], by simpa using balanced⟩
  · rintro ⟨n, inWord, closing, balanced⟩
    obtain ⟨event, found, isClose⟩ : ∃ event, word[n]? = some event ∧ event.isCloses = true := by
      simpa [Option.any_eq_true] using closing
    obtain rfl : event = .closes := by
      cases event with
      | closes => rfl
      | _ => simp [BlockEvent.isCloses] at isClose
    refine ⟨word.take n, word.drop (n + 1), ?_, balanced⟩
    obtain ⟨_, atN⟩ := List.getElem?_eq_some_iff.1 found
    rw [← atN, List.getElem_cons_drop, List.take_append_drop]

instance : DecidablePred ClosedWithin := fun _ => decidable_of_iff _ closedWithin_iff.symm

/-- The opens of a word that no close in it belongs to, outermost first. -/
def unmatchedOpens : List BlockEvent → List Block
  | [] => []
  | .opens block :: rest =>
      if ClosedWithin rest then unmatchedOpens rest else block :: unmatchedOpens rest
  | .closes :: rest => unmatchedOpens rest
  | .fails _ :: rest => unmatchedOpens rest

theorem unmatchedOpens_append_of_balanced {word : List BlockEvent} (balanced : Balanced word)
    (rest : List BlockEvent) : unmatchedOpens (word ++ rest) = unmatchedOpens rest := by
  induction balanced generalizing rest with
  | nil => rfl
  | @block block inner after inside _ ih ih' =>
      have closed : ClosedWithin (inner ++ .closes :: (after ++ rest)) :=
        ⟨inner, after ++ rest, rfl, inside⟩
      simp only [List.cons_append, List.append_assoc, unmatchedOpens, if_pos closed, ih, ih']

/-- A close that belongs to an open before the word fails when the word is run by itself. -/
theorem not_closedWithin_of_run {word : List BlockEvent} {scopes : Scopes}
    (succeeds : run word .empty = (none, scopes)) : ¬ ClosedWithin word := by
  rintro ⟨inner, rest, rfl, balanced⟩
  rw [run_append, balanced.run_eq] at succeeds
  simp [run, BlockEvent.step, Scopes.pop?, Scopes.empty] at succeeds

theorem LeavesOpen.unmatchedOpens_eq {word : List BlockEvent} {blocks : List Block}
    (leaves : LeavesOpen word blocks) : unmatchedOpens word = blocks := by
  induction leaves with
  | closed balanced => simpa [unmatchedOpens] using unmatchedOpens_append_of_balanced balanced []
  | block block balanced inside ih =>
      rw [unmatchedOpens_append_of_balanced balanced, unmatchedOpens,
        if_neg (not_closedWithin_of_run (inside.run_eq .empty)), ih]

end Liquefy
