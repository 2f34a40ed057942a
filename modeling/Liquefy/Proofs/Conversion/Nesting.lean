import Liquefy.Proofs.Conversion.Tracing

/-!
# Outer blocks play no part

A conversion that closes no more blocks than it finds on the inner part of the open blocks gives
the same answer whatever is open around them, and it leaves the outer part as it was. This is
`Conversion.Confined`, and it holds of every conversion with a trace, because no step looks below
the innermost block. A document that closes all its own blocks can therefore stand anywhere
inside another one.
-/

namespace Liquefy

namespace Scopes

/-- The open blocks when those of `inner` are opened inside those of `outer`. -/
def within (inner outer : Scopes) : Scopes := ⟨inner.blocks ++ outer.blocks⟩

@[simp]
theorem toList_within (inner outer : Scopes) :
    (inner.within outer).toList = outer.toList ++ inner.toList := by
  simp [within, toList]

@[simp]
theorem empty_within (outer : Scopes) : empty.within outer = outer := rfl

theorem pop?_within {inner rest : Scopes} {block : Block} (outer : Scopes)
    (popped : inner.pop? = some (block, rest)) :
    (inner.within outer).pop? = some (block, rest.within outer) := by
  cases inner with
  | mk blocks =>
      cases blocks with
      | nil => simp [pop?] at popped
      | cons first others =>
          cases popped
          rfl

end Scopes

namespace Conversion

/-- Unless an `end` is missing its block, blocks further out change neither the answer nor what
is done to the blocks inside. -/
def Confined {α : Type} (conversion : Conversion α) : Prop :=
  ∀ outer inner : Scopes, (conversion inner).1 ≠ .error .unbalanced →
    conversion (inner.within outer) = ((conversion inner).1, (conversion inner).2.within outer)

theorem Traced.confined {α : Type} {conversion : Conversion α} {events : List BlockEvent}
    (traced : Traced conversion events) : conversion.Confined := by
  induction traced with
  | done a =>
      intro outer inner _
      rfl
  | @andThen α β conversion next events events' _ _ ih ih' =>
      intro outer inner balanced
      rw [bind_apply] at balanced ⊢
      rw [bind_apply]
      rcases found : conversion inner with ⟨failure | a, middle⟩
      · simp only [found] at balanced ⊢
        have first := ih outer inner (by simpa [found] using balanced)
        rw [first, found]
      · have first := ih outer inner (by simp [found])
        simp only [found] at balanced first ⊢
        rw [first]
        exact ih' a outer middle balanced
  | enter block =>
      intro outer inner _
      rfl
  | leave =>
      intro outer inner balanced
      simp only [Conversion.leave] at balanced ⊢
      rcases popped : inner.pop? with _ | ⟨block, rest⟩
      · simp [popped] at balanced
      · rw [Scopes.pop?_within outer popped]
  | fail failure =>
      intro outer inner _
      rfl

end Conversion

section Insertion

variable {inserted : List Segment} {own : String}

/-- A document that closes its own blocks adds its text and leaves the blocks around it alone. -/
theorem convertAll_of_closed (closed : convertAll inserted .empty = (.ok own, .empty))
    (outer : Scopes) : convertAll inserted outer = (.ok own, outer) := by
  have confined := (convertAll_traced inserted).confined outer .empty (by simp [closed])
  simpa [closed] using confined

/-- With and without the insertion a document fails alike or succeeds alike, and it leaves the
same blocks open. -/
theorem convertAll_insert (closed : convertAll inserted .empty = (.ok own, .empty))
    (before after : List Segment) (scopes : Scopes) :
    (∃ left right middle final,
        convertAll before scopes = (.ok left, middle) ∧
        convertAll after middle = (.ok right, final) ∧
        convertAll (before ++ after) scopes = (.ok (left ++ right), final) ∧
        convertAll (before ++ inserted ++ after) scopes = (.ok (left ++ own ++ right), final)) ∨
      ∃ failure final,
        convertAll (before ++ after) scopes = (.error failure, final) ∧
        convertAll (before ++ inserted ++ after) scopes = (.error failure, final) := by
  simp only [convertAll_append, Conversion.bind_apply]
  match convertAll before scopes with
  | (.error failure, middle) => exact .inr ⟨failure, middle, rfl, rfl⟩
  | (.ok left, middle) =>
      simp only [convertAll_of_closed closed, Conversion.pure_apply]
      match last : convertAll after middle with
      | (.error failure, final) => exact .inr ⟨failure, final, rfl, rfl⟩
      | (.ok right, final) => exact .inl ⟨left, right, middle, final, rfl, last, rfl, rfl⟩

/-- The same for finished documents. -/
theorem toLiquid_insert (closed : convertAll inserted .empty = (.ok own, .empty))
    (before after : List Segment) :
    (Template.mk (before ++ inserted ++ after)).toLiquid.2 =
        (Template.mk (before ++ after)).toLiquid.2 ∧
      ∀ failure, (Template.mk (before ++ inserted ++ after)).toLiquid.1 = .error failure ↔
        (Template.mk (before ++ after)).toLiquid.1 = .error failure := by
  rcases convertAll_insert closed before after .empty with
    ⟨left, right, middle, final, -, -, plain, extended⟩ | ⟨failure, final, plain, extended⟩
  · rw [Template.toLiquid_of_ok plain, Template.toLiquid_of_ok extended]
    simp
  · rw [Template.toLiquid_of_error plain, Template.toLiquid_of_error extended]
    simp

end Insertion

/-- Blocks further out never change a conversion that keeps within its own: not for a segment, not
for a list of them. A document that closes all its blocks adds nothing but its text wherever it is
inserted. -/
theorem outer_blocks_play_no_part :
    (∀ segment : Segment, segment.convert.Confined ∧ segment.convertTop.Confined) ∧
    (∀ segments : List Segment, (convertAll segments).Confined) ∧
    ∀ (inserted : List Segment) (liquid : String),
      (Template.mk inserted).toLiquid = (.ok liquid, .empty) →
      ∃ own, convertAll inserted .empty = (.ok own, .empty) ∧ liquid = Idiom.replaceAll own ∧
        ∀ before after : List Segment,
          (Template.mk (before ++ inserted ++ after)).toLiquid.2 =
            (Template.mk (before ++ after)).toLiquid.2 ∧
          (∀ failure, (Template.mk (before ++ inserted ++ after)).toLiquid.1 = .error failure ↔
            (Template.mk (before ++ after)).toLiquid.1 = .error failure) ∧
          ∀ text, (convertAll (before ++ after) .empty).1 = .ok text →
            ∃ left right middle, convertAll before .empty = (.ok left, middle) ∧
              (convertAll after middle).1 = .ok right ∧ text = left ++ right ∧
              (convertAll (before ++ inserted ++ after) .empty).1 =
                .ok (left ++ own ++ right) := by
  refine ⟨?_, ?_, ?_⟩
  · intro segment
    exact ⟨segment.convert_traced.confined, segment.convertTop_traced.confined⟩
  · intro segments
    exact (convertAll_traced segments).confined
  · intro inserted liquid converted
    obtain ⟨own, closed, shown⟩ := Template.convertAll_of_toLiquid converted
    refine ⟨own, closed, shown, ?_⟩
    intro before after
    obtain ⟨sameBlocks, sameFailure⟩ := toLiquid_insert closed before after
    refine ⟨sameBlocks, sameFailure, ?_⟩
    intro text joined
    rcases convertAll_insert closed before after .empty with
      ⟨left, right, middle, final, first, last, plain, extended⟩ | ⟨failure, final, plain, -⟩
    · rw [plain] at joined
      cases joined
      exact ⟨left, right, middle, first, by rw [last], rfl, by rw [extended]⟩
    · rw [plain] at joined
      cases joined

/-- The `end` of a loop inside a condition, and a whole loop inserted into a condition that stays
open. -/
theorem outer_blocks_play_no_part_loop_in_condition :
    Segment.ending.convert (Scopes.within ⟨[.loop]⟩ ⟨[.conditional]⟩) =
        (.ok "endfor", ⟨[.conditional]⟩) ∧
      (Template.mk [.callOn "if" [.reference "a"],
        .chain [.reference "bs", .callOn "each" [.string "b"]], .ending]).toLiquid.2 =
        ⟨[.conditional]⟩ := by
  have closed : convertAll [.chain [.reference "bs", .callOn "each" [.string "b"]], .ending] .empty =
      (.ok "\x7b% for b in bs %\x7d\x7b% endfor %\x7d", .empty) := rfl
  constructor
  · exact (outer_blocks_play_no_part.1 .ending).1 ⟨[.conditional]⟩ ⟨[.loop]⟩ nofun
  · obtain ⟨own, -, -, inserted⟩ :=
      outer_blocks_play_no_part.2.2 _ _ (Template.toLiquid_of_ok closed)
    have left := (inserted [.callOn "if" [.reference "a"]] []).1
    exact left.trans rfl

end Liquefy
