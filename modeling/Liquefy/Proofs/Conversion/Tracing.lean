import Liquefy.Conversion.BlockEvents
import Liquefy.Conversion.Session
import Liquefy.Proofs.Conversion.Documents

/-!
# Conversions follow their events

`Conversion.Traced` is the relation between a conversion and the list of its events: one
constructor for each way to build a conversion. `Segment.convert_traced` goes through the rules
once, kind by kind, and `Conversion.Traced.run_eq` turns the relation into a statement about runs.
-/

namespace Liquefy

namespace Conversion

/-- The conversion does to the blocks what the events say, whatever text it makes. -/
inductive Traced : {α : Type} → Conversion α → List BlockEvent → Prop
  | done {α : Type} (a : α) : Traced (pure a : Conversion α) []
  | andThen {α β : Type} {conversion : Conversion α} {next : α → Conversion β}
      {events events' : List BlockEvent} (first : Traced conversion events)
      (rest : ∀ a, Traced (next a) events') : Traced (conversion >>= next) (events ++ events')
  | enter (block : Block) : Traced (Conversion.enter block) [.opens block]
  | leave : Traced Conversion.leave [.closes]
  | fail {α : Type} (failure : Failure) :
      Traced (Conversion.fail failure : Conversion α) [.fails failure]

/-- What is made of the text adds no event. -/
theorem Traced.map {α β : Type} {conversion : Conversion α} {events : List BlockEvent}
    (traced : Traced conversion events) (f : α → β) :
    Traced (conversion >>= fun a => pure (f a)) events := by
  simpa only [List.append_nil] using traced.andThen fun a => .done (f a)

/-- The failure of an answer, with the blocks that it leaves open. -/
def outcome {α : Type} (answer : Except Failure α × Scopes) : Option Failure × Scopes :=
  match answer with
  | (.ok _, scopes) => (none, scopes)
  | (.error failure, scopes) => (some failure, scopes)

/-- A conversion fails when its events do, with the same failure, and always leaves open what
they leave open. -/
theorem Traced.run_eq {α : Type} {conversion : Conversion α} {events : List BlockEvent}
    (traced : Traced conversion events) (scopes : Scopes) :
    outcome (conversion scopes) = BlockEvent.run events scopes := by
  induction traced generalizing scopes with
  | done a => rfl
  | @andThen α β conversion next events events' _ _ ih ih' =>
      have first := ih scopes
      rw [BlockEvent.run_append, ← first, bind_apply]
      rcases conversion scopes with ⟨failure | a, scopes'⟩
      · rfl
      · exact ih' a scopes'
  | enter block => rfl
  | leave =>
      simp only [Conversion.leave, BlockEvent.run, BlockEvent.step]
      rcases scopes.pop? with _ | ⟨block, scopes'⟩
      · rfl
      · rfl
  | fail failure => rfl

end Conversion

open Conversion (Traced)

/-! ### Lists of parts -/

/-- Segments with the conversions that stand for them. -/
def partsBy (convert : Segment → Conversion String) (segments : List Segment) : Parts :=
  segments.map fun segment => ⟨segment, convert segment⟩

section PartsBy

variable (convert : Segment → Conversion String)

theorem partsBy_nil : partsBy convert [] = [] := rfl

theorem partsBy_cons (segment : Segment) (segments : List Segment) :
    partsBy convert (segment :: segments) =
      ⟨segment, convert segment⟩ :: partsBy convert segments := rfl

theorem partsBy_append (segments segments' : List Segment) :
    partsBy convert (segments ++ segments') =
      partsBy convert segments ++ partsBy convert segments' :=
  List.map_append

end PartsBy

theorem Segment.convert_eq (segment : Segment) :
    segment.convert = rule segment (partsBy Segment.convert segment.children) :=
  Segment.fold_eq rule segment

section Parts

variable {convert : Segment → Conversion String} {segments : List Segment}

theorem texts_traced (traced : ∀ segment ∈ segments, Traced (convert segment) segment.blockEvents) :
    Traced (texts (partsBy convert segments)) (blockWord segments) := by
  induction segments with
  | nil => exact .done []
  | cons segment segments ih =>
      rw [blockWord_cons]
      apply Traced.andThen
      · exact traced segment (by simp)
      · intro text
        exact (ih fun other member => traced other (by simp [member])).map (text :: ·)

theorem chainText_traced (atStart : Bool)
    (traced : ∀ segment ∈ segments, Traced (convert segment) segment.blockEvents) :
    Traced (chainText atStart (partsBy convert segments)) (blockWord segments) := by
  induction segments generalizing atStart with
  | nil => exact .done ""
  | cons segment segments ih =>
      rw [blockWord_cons]
      apply Traced.andThen
      · exact traced segment (by simp)
      · intro text
        exact (ih false fun other member => traced other (by simp [member])).map _

end Parts

/-! ### Flaws -/

section Flaws

variable {convert : Segment → Conversion String} {segment : Segment} {flaw : Flaw}

theorem loopText_of_flaw {items : List Segment} (flawed : loopFlaw? items = some flaw) :
    loopText segment (partsBy convert items) = Conversion.fail (segment.failure .loop flaw) := by
  simp only [loopFlaw?] at flawed
  simp only [loopText, partsBy, List.getLast?_map, List.map_dropLast.symm, List.isEmpty_map]
  cases last : items.getLast? with
  | none =>
      obtain rfl : Flaw.emptyChain = flaw := by simpa [last] using flawed
      rfl
  | some each =>
      simp only [last] at flawed
      simp only [Option.map_some]
      split at flawed
      · rename_i other
        cases flawed
        rw [if_pos other]
      · rename_i isEach
        rw [if_neg isEach]
        split at flawed
        · rename_i missing
          cases flawed
          rw [Option.isNone_iff_eq_none.1 missing]
        · rename_i named
          obtain ⟨name, found⟩ := Option.ne_none_iff_exists'.1 (by simpa using named)
          simp only [found]
          split at flawed
          · rename_i empty
            cases flawed
            rw [if_pos empty]
          · simp at flawed

theorem pluralizeText_of_flaw {args : List Segment} (flawed : pluralizeFlaw? args = some flaw) :
    pluralizeText segment (partsBy convert args) =
      Conversion.fail (segment.failure .pluralize flaw) := by
  match args with
  | [] | [_] | [_, _] | _ :: _ :: _ :: _ :: _ =>
      cases flawed
      rfl
  | [count, singular, plural] =>
      simp only [pluralizeFlaw?] at flawed
      split at flawed
      · rename_i missing
        cases flawed
        simp only [partsBy, List.map, pluralizeText]
        rw [Option.isNone_iff_eq_none.1 missing]
      · simp at flawed

theorem literalFlaw?_eq_some_iff {expected : Flaw} {literal : Option String} :
    literalFlaw? expected literal = some flaw ↔ literal = none ∧ expected = flaw := by
  cases literal <;> simp [literalFlaw?]

/-- The flaw of a segment is found before any child is converted or any block opened, and the rule
that finds it is that of the segment's kind. -/
theorem rule_of_flaw (flawed : segment.flaw? = some flaw) :
    rule segment (partsBy convert segment.children) =
      Conversion.fail (segment.failure segment.kind flaw) := by
  cases segment with
  | chain items =>
      simp only [Segment.flaw?] at flawed
      split at flawed
      · rename_i kind
        simp only [rule, Segment.children, kind]
        exact loopText_of_flaw flawed
      · rename_i kind
        obtain ⟨missing, rfl⟩ := literalFlaw?_eq_some_iff.1 flawed
        simp only [rule, kind, appText, missing]
      · simp at flawed
  | call name args =>
      simp only [Segment.flaw?] at flawed
      split at flawed
      · rename_i kind
        obtain ⟨missing, rfl⟩ := literalFlaw?_eq_some_iff.1 flawed
        simp only [rule, kind, inclusionText, missing]
      · rename_i kind
        simp only [rule, Segment.children, kind]
        exact pluralizeText_of_flaw flawed
      · simp at flawed
  | operator tag sign operand =>
      obtain ⟨missing, rfl⟩ := literalFlaw?_eq_some_iff.1 flawed
      simp only [rule, Segment.kind, Segment.children, partsBy, List.map, operatorText, missing]
  | _ => simp [Segment.flaw?] at flawed

end Flaws

/-! ### Segments without flaw -/

@[simp]
theorem Segment.blockEvents_string (s : String) : (Segment.string s).blockEvents = [] := rfl

@[simp]
theorem Segment.blockEvents_number (digits : String) : (Segment.number digits).blockEvents = [] :=
  rfl

theorem plainCall_traced (name : String) {args : List Segment}
    (traced : ∀ arg ∈ args, Traced arg.convert arg.blockEvents) :
    Traced (plainCall name (partsBy Segment.convert args))
      (blockWord args ++ BlockEvent.ofCondition name) := by
  apply Traced.andThen (texts_traced traced)
  intro shown
  unfold BlockEvent.ofCondition
  cases Block.ofCondition? name with
  | none => exact .done _
  | some block => exact (Traced.enter block).map _

theorem operatorText_traced (segment : Segment) (tag : OperatorTag) {glyph token : String}
    {operand : Segment} (known : Lexicon.operatorToken? glyph = some token)
    (traced : Traced operand.convert operand.blockEvents) :
    Traced (operatorText segment tag glyph ⟨operand, operand.convert⟩) operand.blockEvents := by
  simp only [operatorText, known]
  cases quoted : quotedOperand? glyph operand with
  | none => exact traced.map _
  | some shown =>
      -- only a string literal is quoted, and it has no events
      obtain ⟨s, rfl⟩ : ∃ s, operand = .string s := by
        cases operand <;> simp [quotedOperand?, Segment.literal?] at quoted
        exact ⟨_, rfl⟩
      rw [Segment.blockEvents_string]
      exact .done _

/-- The argument of a filter as it is converted: literals are only quoted. -/
def filterConvert (arg : Segment) : Conversion String :=
  (filterArgument ⟨arg, arg.convert⟩).result

theorem map_filterArgument_partsBy (args : List Segment) :
    (partsBy Segment.convert args).map filterArgument = partsBy filterConvert args := by
  simp only [partsBy, List.map_map]
  apply List.map_congr_left
  intro arg _
  simp only [Function.comp_apply, filterConvert, filterArgument]
  split <;> rfl

theorem filterConvert_traced {arg : Segment} (traced : Traced arg.convert arg.blockEvents) :
    Traced (filterConvert arg) arg.blockEvents := by
  cases arg with
  | number digits =>
      rw [Segment.blockEvents_number]
      exact .done digits
  | string s =>
      rw [Segment.blockEvents_string]
      exact .done _
  | _ => simpa only [filterConvert, filterArgument, filterLiteral?] using traced

theorem filterText_traced (name : String) {args : List Segment}
    (traced : ∀ arg ∈ args, Traced arg.convert arg.blockEvents) :
    Traced (filterText name (partsBy Segment.convert args)) (blockWord args) := by
  unfold filterText
  split
  · rename_i empty
    obtain rfl : args = [] := by simpa [partsBy] using empty
    exact .done _
  · rw [map_filterArgument_partsBy]
    exact (texts_traced fun arg member => filterConvert_traced (traced arg member)).map _

/-- A loop without flaw has a variable, and its collection is converted before it opens. -/
theorem loopText_of_sound (convert : Segment → Conversion String) (segment : Segment)
    {items : List Segment} (sound : loopFlaw? items = none) :
    ∃ name, loopText segment (partsBy convert items) =
      (do
        let collection ← chainText true (partsBy convert items.dropLast)
        Conversion.enter .loop
        pure ("for " ++ name ++ " in " ++ collection)) := by
  simp only [loopFlaw?] at sound
  have dropped : (partsBy convert items).dropLast = partsBy convert items.dropLast := by
    simp [partsBy, List.map_dropLast]
  simp only [loopText, dropped]
  cases last : items.getLast? with
  | none => simp [last] at sound
  | some each =>
      simp only [last, partsBy, List.getLast?_map, Option.map_some] at sound ⊢
      split at sound
      · simp at sound
      · rename_i isEach
        split at sound
        · simp at sound
        · rename_i named
          obtain ⟨name, found⟩ := Option.ne_none_iff_exists'.1 (by simpa using named)
          split at sound
          · simp at sound
          · rename_i nonempty
            rw [if_neg isEach]
            simp only [found, List.isEmpty_map]
            rw [if_neg nonempty]
            exact ⟨name, rfl⟩

theorem loopText_traced (segment : Segment) {items : List Segment}
    (sound : loopFlaw? items = none)
    (traced : ∀ item ∈ items, Traced item.convert item.blockEvents) :
    Traced (loopText segment (partsBy Segment.convert items))
      (blockWord items.dropLast ++ [.opens .loop]) := by
  obtain ⟨name, shown⟩ := loopText_of_sound Segment.convert segment sound
  rw [shown]
  apply Traced.andThen
  · apply chainText_traced
    intro item member
    exact traced item (List.dropLast_subset items member)
  · intro collection
    exact (Traced.enter .loop).map _

theorem pluralizeText_traced (segment : Segment) {args : List Segment}
    (sound : pluralizeFlaw? args = none)
    (traced : ∀ arg ∈ args, Traced arg.convert arg.blockEvents) :
    Traced (pluralizeText segment (partsBy Segment.convert args)) (blockWord (args.take 1)) := by
  match args with
  | [] | [_] | [_, _] | _ :: _ :: _ :: _ :: _ => simp [pluralizeFlaw?] at sound
  | [count, singular, plural] =>
      obtain ⟨key, found⟩ : ∃ key, phraseKey? singular = some key :=
        Option.ne_none_iff_exists'.1 (by simpa [pluralizeFlaw?] using sound)
      simp only [partsBy, List.map, pluralizeText, found]
      simpa using (traced count (by simp)).map fun text => "pluralize " ++ text ++ ", ." ++ key

theorem Segment.kind_chain_cases (items : List Segment) :
    (Segment.chain items).kind = .loop ∨ (Segment.chain items).kind = .app ∨
      (Segment.chain items).kind = .chain := by
  simp only [Segment.kind]
  split
  · exact .inl rfl
  · split
    · exact .inr (.inl rfl)
    · exact .inr (.inr rfl)

theorem Segment.kind_reference_cases (name : String) :
    (Segment.reference name).kind = .otherwise ∨ (Segment.reference name).kind = .filter ∨
      (Segment.reference name).kind = .reference := by
  simp only [Segment.kind]
  split
  · exact .inl rfl
  · split
    · exact .inr (.inl rfl)
    · exact .inr (.inr rfl)

theorem Segment.kind_call_cases (name : String) (args : Arguments Segment) :
    (Segment.call name args).kind ∈
      [.searchForm, .inclusion, .enrolment, .courseAccess, .pluralize, .learningPathItem, .filter,
        .call] := by
  simp only [Segment.kind, Segment.kindOfCall]
  repeat' split
  all_goals simp

/-- The condition of a search form is one of the two identifiers that open its block. -/
theorem searchBlock_of_kind {name : String} {args : Arguments Segment}
    (kind : (Segment.call name args).kind = .searchForm) :
    ∃ arg block, args.toList = [arg] ∧ searchBlock? arg = some block := by
  obtain ⟨arg, single, shown⟩ : ∃ arg, args.single? = some arg ∧ arg.isSearchForm = true := by
    simp only [Segment.kind, Segment.kindOfCall] at kind
    split at kind
    · rename_i condition
      simpa [Option.any_eq_true] using condition.2
    · repeat' split at kind
      all_goals simp at kind
  have listed : args.toList = [arg] := by
    unfold Arguments.single? at single
    split at single
    · rename_i listed
      cases single
      exact listed
    · simp at single
  cases arg with
  | reference form =>
      have forms : form = Lexicon.searchForm ∨ form = Lexicon.catalogSearchForm := by
        simpa [Segment.isSearchForm] using shown
      rcases forms with rfl | rfl
      · exact ⟨_, .search, listed, rfl⟩
      · exact ⟨_, .catalogSearch, listed, rfl⟩
  | _ => simp [Segment.isSearchForm] at shown

theorem rule_call_traced {name : String} {args : Arguments Segment}
    (sound : (Segment.call name args).flaw? = none)
    (traced : ∀ arg ∈ args.toList, Traced arg.convert arg.blockEvents) :
    Traced (rule (.call name args) (partsBy Segment.convert args.toList))
      (BlockEvent.ofKind (.call name args) (eventParts args.toList)) := by
  have kinds := Segment.kind_call_cases name args
  simp only [List.mem_cons, List.not_mem_nil, or_false] at kinds
  rcases kinds with kind | kind | kind | kind | kind | kind | kind | kind
  all_goals simp only [Segment.flaw?, kind] at sound
  all_goals simp only [rule, BlockEvent.ofKind, kind]
  · obtain ⟨arg, block, listed, found⟩ := searchBlock_of_kind kind
    simp only [searchFormText, Arguments.single?, Segment.children, listed, Option.bind_some, found,
      List.filterMap_cons, List.filterMap_nil, List.map_cons, List.map_nil]
    exact (Traced.enter block).map _
  · cases literal : args.single?.bind Segment.literal? with
    | none => simp [literal, literalFlaw?] at sound
    | some s =>
        simp only [inclusionText, literal]
        exact .done _
  · exact .done _
  · exact .done _
  · rw [take_eventParts, ofParts_eventParts]
    exact pluralizeText_traced (.call name args) sound traced
  · rw [ofParts_eventParts]
    exact (Traced.enter .learningPathItem).andThen fun _ => (texts_traced traced).map _
  · rw [ofParts_eventParts]
    exact filterText_traced name traced
  · rw [ofParts_eventParts]
    exact plainCall_traced name traced

theorem rule_chain_traced {items : List Segment} (sound : (Segment.chain items).flaw? = none)
    (traced : ∀ item ∈ items, Traced item.convert item.blockEvents) :
    Traced (rule (.chain items) (partsBy Segment.convert items))
      (BlockEvent.ofKind (.chain items) (eventParts items)) := by
  rcases Segment.kind_chain_cases items with kind | kind | kind
  all_goals simp only [Segment.flaw?, kind] at sound
  all_goals simp only [rule, BlockEvent.ofKind, kind]
  · rw [dropLast_eventParts, ofParts_eventParts]
    exact loopText_traced (.chain items) sound traced
  · cases literal : ((items.findSome? (Segment.callTo? "app")).bind Arguments.single?).bind
        Segment.literal? with
    | none => simp [literal, literalFlaw?] at sound
    | some s =>
        simp only [appText, literal]
        exact .done _
  · rw [ofParts_eventParts]
    exact chainText_traced true traced

/-- The rule of a segment without flaw does what the events of its kind say, if the conversions of
its children do what their events say. -/
theorem rule_traced {segment : Segment} (sound : segment.flaw? = none)
    (traced : ∀ child ∈ segment.children, Traced child.convert child.blockEvents) :
    Traced (rule segment (partsBy Segment.convert segment.children))
      (BlockEvent.ofKind segment (eventParts segment.children)) := by
  cases segment with
  | text s => exact .done s
  | string s => exact .done s
  | number digits => exact .done digits
  | chain items => exact rule_chain_traced sound traced
  | reference name =>
      rcases Segment.kind_reference_cases name with kind | kind | kind
      all_goals simp only [rule, BlockEvent.ofKind, kind]
      · exact .done name
      · exact .done _
      · exact .done name
  | call name args => exact rule_call_traced sound traced
  | ending => exact Traced.leave.map _
  | operator tag sign operand =>
      obtain ⟨token, known⟩ : ∃ token, Lexicon.operatorToken? (Text.trim sign) = some token := by
        apply Option.ne_none_iff_exists'.1
        simpa [Segment.flaw?, literalFlaw?] using sound
      have shown := operatorText_traced (.operator tag sign operand) tag known
        (traced operand (by simp [Segment.children]))
      simpa [rule, partsBy, BlockEvent.ofKind, Segment.kind, Segment.children] using shown

/-! ### Segments, documents and sessions -/

/-- The conversion of a segment does to the blocks what the events of the segment say. -/
theorem Segment.convert_traced (segment : Segment) :
    Traced segment.convert segment.blockEvents := by
  induction segment using Segment.induction with
  | step segment ih =>
      rw [Segment.convert_eq, Segment.blockEvents_eq, BlockEvent.rule]
      cases flaw : segment.flaw? with
      | some flaw' =>
          rw [rule_of_flaw flaw]
          exact .fail _
      | none => exact rule_traced flaw ih

theorem Segment.convertTop_traced (segment : Segment) :
    Traced segment.convertTop segment.blockEvents :=
  segment.convert_traced.map _

theorem convertEach_traced (segments : List Segment) :
    Traced (convertEach segments) (blockWord segments) := by
  induction segments with
  | nil => exact .done []
  | cons segment segments ih =>
      rw [blockWord_cons]
      exact segment.convertTop_traced.andThen fun text => ih.map (text :: ·)

theorem convertAll_traced (segments : List Segment) :
    Traced (convertAll segments) (blockWord segments) := by
  rw [convertAll_eq_convertEach]
  exact (convertEach_traced segments).map _

namespace Request

/-- What a request does to the open blocks. -/
def blockEvents : Request → List BlockEvent
  | .document template => blockWord template.segments
  | .topLevel segment => segment.blockEvents
  | .bare segment => segment.blockEvents

/-- The blocks with which a request starts. -/
def start (scopes : Scopes) : Request → Scopes
  | .document _ => .empty
  | .topLevel _ => scopes
  | .bare _ => scopes

theorem outcome_convert (request : Request) (scopes : Scopes) :
    Conversion.outcome (request.convert scopes) =
      BlockEvent.run request.blockEvents (request.start scopes) := by
  cases request with
  | document template =>
      rw [convert, Template.convert_apply]
      exact ((convertAll_traced template.segments).map _).run_eq .empty
  | topLevel segment => exact segment.convertTop_traced.run_eq scopes
  | bare segment => exact segment.convert_traced.run_eq scopes

end Request

/-- The failures of requests and the blocks open after each, by their events alone. -/
def sessionRun (scopes : Scopes) : List Request → List (Option Failure × Scopes)
  | [] => []
  | request :: requests =>
      let after := BlockEvent.run request.blockEvents (request.start scopes)
      after :: sessionRun after.2 requests

/-- A session fails where and as its events fail, and always leaves open what they leave open. -/
theorem session_follows_events (scopes : Scopes) (requests : List Request) :
    (session scopes requests).map Conversion.outcome = sessionRun scopes requests := by
  induction requests generalizing scopes with
  | nil => rfl
  | cons request requests ih =>
      have answered := request.outcome_convert scopes
      have left : (request.convert scopes).2 =
          (BlockEvent.run request.blockEvents (request.start scopes)).2 := by
        rw [← answered]
        match request.convert scopes with
        | (.ok _, _) => rfl
        | (.error _, _) => rfl
      simp only [session, sessionRun, List.map_cons, answered, ih, left]

end Liquefy
