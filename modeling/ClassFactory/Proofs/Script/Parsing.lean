/-
Module: ClassFactory.Proofs.Script.Parsing
Purpose: What a parse keeps about the place it has reached. A triple `Keeps P p Q` says that `p`,
  started at a place that satisfies `P`, goes forward and, if it yields a result, reaches a place
  that satisfies `Q`. There is one rule for each way to put parsers together, and one triple for
  each step that all parts of the grammar are made of.
Main exports: ParseState.Sound, Upward, Keeps, Moves, Keeps.bind, Keeps.test, Keeps.loop
-/
import ClassFactory.Proofs.Script.Scanning
import ClassFactory.Script.Parsing

namespace ClassFactory.Script

namespace ParseState

/-- Where a parse stands. -/
def place (state : ParseState) : Nat := state.cursor.offset

/-- A state that a parse can be in: its token begins at its place. -/
def Sound (state : ParseState) : Prop :=
  Taken state.cursor state.token state.after

end ParseState

/-- What stays true as a parse goes forward. -/
class Upward (P : Nat → Prop) : Prop where
  later : ∀ {m n : Nat}, m ≤ n → P m → P n

instance : Upward fun _ => True := ⟨fun _ => id⟩

instance {P Q : Nat → Prop} [Upward P] [Upward Q] : Upward fun n => P n ∧ Q n :=
  ⟨fun further both => ⟨Upward.later further both.1, Upward.later further both.2⟩⟩

/-- Started where `P` holds, the parser goes forward, to where `Q` holds of its result. -/
def Keeps {α : Type} (P : Nat → Prop) (p : Parser α) (Q : α → Nat → Prop) : Prop :=
  ∀ state result next, state.Sound → P state.place → p.run state = some (result, next) →
    next.Sound ∧ state.place ≤ next.place ∧ Q result next.place

/-- The parser goes forward. -/
abbrev Moves {α : Type} (p : Parser α) : Prop :=
  Keeps (fun _ => True) p fun _ _ => True

section Rules

variable {α β σ : Type} {P P' : Nat → Prop} {p : Parser α} {f : α → Parser β}
  {R : α → Nat → Prop} {Q : β → Nat → Prop}

/-- What stays true need not be told. -/
theorem Moves.keeps [Upward P] (moves : Moves p) : Keeps P p fun _ => P := by
  intro state result next sound holds ran
  obtain ⟨sound', forward, -⟩ := moves state result next sound trivial ran
  exact ⟨sound', forward, Upward.later forward holds⟩

namespace Keeps

/-- A parser that keeps anything goes forward. -/
theorem moves {Q : α → Nat → Prop} (keeps : Keeps (fun _ => True) p Q) : Moves p := by
  intro state result next sound holds ran
  obtain ⟨sound', forward, -⟩ := keeps state result next sound holds ran
  exact ⟨sound', forward, trivial⟩

/-- A parser may be started where more holds. -/
theorem weaken (weaker : ∀ n, P n → P' n) (keeps : Keeps P' p R) : Keeps P p R :=
  fun state result next sound holds => keeps state result next sound (weaker _ holds)

/-- Less may be told of where a parser ends. -/
theorem imp {R' : α → Nat → Prop} (keeps : Keeps P p R) (weaker : ∀ r n, R r n → R' r n) :
    Keeps P p R' := by
  intro state result next sound holds ran
  obtain ⟨sound', forward, reached⟩ := keeps state result next sound holds ran
  exact ⟨sound', forward, weaker _ _ reached⟩

/-- Nothing is read, and what holds stays. -/
protected theorem pure {r : α} (holds : ∀ n, P n → R r n) : Keeps P (pure r) R := by
  intro state result next sound start ran
  cases ran
  exact ⟨sound, Nat.le_refl _, holds _ start⟩

/-- A parser that yields nothing keeps anything. -/
protected theorem failure : Keeps P (failure : Parser α) R := by
  intro state result next sound start ran
  cases ran

/-- One parser after another. -/
protected theorem bind (first : Keeps P p R) (rest : ∀ r, Keeps (R r) (f r) Q) :
    Keeps P (p >>= f) Q := by
  intro state result next sound start ran
  rw [StateT.run_bind] at ran
  obtain ⟨⟨r, between⟩, ran, ran'⟩ := Option.bind_eq_some_iff.mp ran
  obtain ⟨sound, forward, reached⟩ := first state r between sound start ran
  obtain ⟨sound, further, reached⟩ := rest r between result next sound reached ran'
  exact ⟨sound, Nat.le_trans forward further, reached⟩

/-- What stays true may be told besides. -/
theorem frame [Upward P'] (keeps : Keeps P p R) :
    Keeps (fun n => P n ∧ P' n) p fun r n => R r n ∧ P' n := by
  intro state result next sound both ran
  obtain ⟨sound', forward, reached⟩ := keeps state result next sound both.1 ran
  exact ⟨sound', forward, reached, Upward.later forward both.2⟩

/-- A step of which only its moving matters. -/
theorem after [Upward P] (moves : Moves p) (rest : ∀ r, Keeps P (f r) Q) : Keeps P (p >>= f) Q :=
  moves.keeps.bind rest

/-- A test and what follows from either answer. -/
theorem test [Upward P] {asks : Parser Bool} {yes no : Parser β} (moves : Moves asks)
    (holds : Keeps P yes Q) (fails : Keeps P no Q) :
    Keeps P (asks >>= fun answer => if answer = true then yes else no) Q := by
  refine after moves fun answer => ?_
  split
  · exact holds
  · exact fails

/-- One of two parsers. -/
protected theorem ite {c : Prop} [Decidable c] {yes no : Parser β} (holds : Keeps P yes Q)
    (fails : Keeps P no Q) : Keeps P (if c then yes else no) Q := by
  split
  · exact holds
  · exact fails

/-- The state is read. -/
protected theorem get {f : ParseState → Parser β} (rest : ∀ state, Keeps P (f state) Q) :
    Keeps P (get >>= f) Q :=
  fun state => rest state state

/-- The state is read, for the place where it stands. -/
theorem getPlace {f : ParseState → Parser β}
    (rest : ∀ state, state.Sound → P state.place → Keeps (· = state.place) (f state) Q) :
    Keeps P (get >>= f) Q :=
  fun state result next sound start => rest state sound start state result next sound rfl

/-- What every round keeps holds where the loop ends, however many rounds it may take. -/
theorem loopFor {step : σ → Parser (σ ⊕ β)} {invariant : σ → Nat → Prop}
    (round : ∀ a, Keeps (invariant a) (step a) (Sum.elim invariant Q)) (budget : Nat) (a : σ) :
    Keeps (invariant a) (Parser.loopFor step budget a) Q := by
  induction budget generalizing a with
  | zero => exact .failure
  | succ budget ih =>
      refine (round a).bind fun outcome => ?_
      cases outcome with
      | inl next => exact ih next
      | inr result => exact .pure fun _ reached => reached

/-- What every round keeps holds where the loop ends. -/
theorem loop {step : σ → Parser (σ ⊕ β)} (invariant : σ → Nat → Prop)
    (round : ∀ a, Keeps (invariant a) (step a) (Sum.elim invariant Q)) (a : σ) :
    Keeps (invariant a) (Parser.loop step a) Q :=
  .get fun state => loopFor round state.budget a

/-- A parser that fails takes nothing. -/
theorem attempt (keeps : Keeps P p R) :
    Keeps P (Parser.attempt p) fun result => result.elim P R := by
  intro state result next sound start ran
  unfold Parser.attempt at ran
  dsimp only [StateT.run] at ran
  split at ran
  next r next' inner =>
    cases ran
    exact keeps state r _ sound start inner
  next =>
    cases ran
    exact ⟨sound, Nat.le_refl _, start⟩

/-- Looking ahead takes nothing. -/
theorem lookAhead : Keeps P (Parser.lookAhead p) fun _ => P := by
  intro state result next sound start ran
  obtain ⟨looked, -, ran⟩ := Option.map_eq_some_iff.mp ran
  cases ran
  exact ⟨sound, Nat.le_refl _, start⟩

/-- A change that does not move. -/
theorem modify {change : ParseState → ParseState}
    (still : ∀ state, (change state).cursor = state.cursor ∧ (change state).token = state.token ∧
      (change state).after = state.after) : Keeps P (modify change) fun _ => P := by
  intro state result next sound start ran
  cases ran
  obtain ⟨cursor, token, after⟩ := still state
  refine ⟨?_, Nat.le_of_eq ?_, ?_⟩
  · rw [ParseState.Sound, cursor, token, after]
    exact sound
  · rw [ParseState.place, ParseState.place, cursor]
  · rw [ParseState.place, cursor]
    exact start

/-- What a parse may meet does not matter for where it goes. -/
theorem withSettings {inFunction awaits yields : Bool} (keeps : Keeps P p R) :
    Keeps P (withSettings inFunction awaits yields p) R := by
  intro state result next sound start ran
  obtain ⟨⟨_, inner⟩, within, back⟩ := Option.bind_eq_some_iff.mp ran
  cases back
  exact keeps { state with inFunction := inFunction, awaits := awaits, yields := yields } result
    inner sound start within

end Keeps

end Rules

/-! ## Steps -/

section Steps

variable {P : Nat → Prop}

/-- Looking for a token goes forward. -/
theorem settle_moves : Moves settle := by
  intro state result next sound start ran
  unfold settle at ran
  rw [StateT.run_bind] at ran
  obtain ⟨⟨_, _⟩, got, ran⟩ := Option.bind_eq_some_iff.mp ran
  cases got
  dsimp only at ran
  split at ran
  next trivia skipped =>
    cases ran
    exact ⟨scanToken_taken _, skipTrivia_offset _ _ skipped, trivial⟩
  next =>
    cases ran
    exact ⟨.refl nofun, Nat.le_refl _, trivial⟩

/-- Moving to a place goes forward if the place is no earlier one. -/
theorem moveTo_keeps {here : Nat} {cursor : Cursor} (forward : here ≤ cursor.offset) :
    Keeps (· = here) (moveTo cursor) fun _ n => n = cursor.offset := by
  intro state result next sound start ran
  cases ran
  exact ⟨.refl nofun, start ▸ forward, rfl⟩

/-- At a later place, what held before still holds. -/
theorem Keeps.moved {β : Type} [Upward P] {Q : β → Nat → Prop} {here : Nat} {cursor : Cursor}
    {p : Parser β} (forward : here ≤ cursor.offset) (holds : P here) (rest : Keeps P p Q) :
    Keeps (· = here) (moveTo cursor >>= fun _ => p) Q := by
  refine (moveTo_keeps forward).bind fun _ => rest.weaken ?_
  rintro n rfl
  exact Upward.later forward holds

/-- The same with a token looked for at that place. -/
theorem Keeps.resumed {β : Type} [Upward P] {Q : β → Nat → Prop} {here : Nat} {cursor : Cursor}
    {p : Parser β} (forward : here ≤ cursor.offset) (holds : P here) (rest : Keeps P p Q) :
    Keeps (· = here) (moveTo cursor >>= fun _ => settle >>= fun _ => p) Q :=
  moved forward holds (after settle_moves fun _ => rest)

/-- The next token begins no earlier than the current one ends. -/
theorem advance_reaches {state next : ParseState} (sound : state.Sound)
    (ran : advance.run state = some ((), next)) :
    next.Sound ∧ state.after.offset ≤ next.place := by
  have keeps : Keeps (· = state.place) (moveTo state.after >>= fun _ => settle)
      fun _ n => state.after.offset ≤ n :=
    (moveTo_keeps sound.forward).bind fun _ =>
      have : Upward (state.after.offset ≤ ·) :=
        ⟨fun further reached => Nat.le_trans reached further⟩
      settle_moves.keeps.weaken fun _ same => Nat.le_of_eq same.symm
  obtain ⟨sound', -, reached⟩ := keeps state () next sound rfl ran
  exact ⟨sound', reached⟩

/-- Taking a token goes forward, as the token does. -/
theorem advance_moves : Moves advance := by
  intro state result next sound _ ran
  obtain ⟨sound', reached⟩ := advance_reaches sound ran
  exact ⟨sound', Nat.le_trans sound.forward reached, trivial⟩

theorem takeChar_moves (c : Char) : Moves (takeChar c) := by
  refine Keeps.getPlace fun state sound _ => ?_
  refine .ite ?_ .failure
  exact (moveTo_keeps (Cursor.offset_skip ..)).imp fun _ _ _ => trivial

theorem atChar_moves (c : Char) : Moves (atChar c) :=
  .get fun _ => .pure fun _ => id

theorem startOffset_moves : Moves startOffset :=
  .get fun _ => .pure fun _ => id

theorem tokenSpan_moves : Moves tokenSpan :=
  .get fun _ => .pure fun _ => id

/-- A place that is noted begins where it is told to. -/
theorem spanFrom_keeps (start : Nat) : Keeps P (spanFrom start) fun span n =>
    span.start = start ∧ P n :=
  .get fun _ => .pure fun _ holds => ⟨rfl, holds⟩

theorem spanFrom_moves (start : Nat) : Moves (spanFrom start) :=
  (spanFrom_keeps start).moves

theorem atPunct_moves (mark : String) : Moves (atPunct mark) := by
  refine .get fun state => ?_
  split <;> exact .pure fun _ => id

theorem atAnyPunct_moves (marks : List String) : Moves (atAnyPunct marks) := by
  refine .get fun state => ?_
  split <;> exact .pure fun _ => id

theorem atWord_moves (word : String) : Moves (atWord word) := by
  refine .get fun state => ?_
  split <;> exact .pure fun _ => id

theorem eat_moves (mark : String) : Moves (eat mark) :=
  .test (atPunct_moves mark) (.after advance_moves fun _ => .pure fun _ => id) (.pure fun _ => id)

theorem eatWord_moves (word : String) : Moves (eatWord word) :=
  .test (atWord_moves word) (.after advance_moves fun _ => .pure fun _ => id) (.pure fun _ => id)

theorem expect_moves (mark : String) : Moves (expect mark) :=
  .test (eat_moves mark) (.pure fun _ => id) .failure

theorem expectWord_moves (word : String) : Moves (expectWord word) :=
  .test (eatWord_moves word) (.pure fun _ => id) .failure

/-- Asking for a mark moves nothing, and says what the token is. -/
theorem atPunct_eq_true {mark : String} {state next : ParseState}
    (asked : (atPunct mark).run state = some (true, next)) :
    next = state ∧ ∃ text, state.token = .punct text := by
  rw [atPunct, StateT.run_bind] at asked
  obtain ⟨⟨_, _⟩, got, asked⟩ := Option.bind_eq_some_iff.mp asked
  cases got
  dsimp only at asked
  split at asked
  next text isMark =>
    have same : (_, state) = (true, next) := Option.some.inj asked
    exact ⟨(Prod.mk.inj same).2.symm, text, isMark⟩
  next => cases asked

/-- A punctuation mark that is taken takes up some room. -/
theorem eat_further (mark : String) (here : Nat) :
    Keeps (here ≤ ·) (eat mark) fun taken n => taken = true → here < n := by
  intro state result next sound start ran
  obtain ⟨sound', forward, -⟩ := eat_moves mark state result next sound trivial ran
  refine ⟨sound', forward, fun taken => ?_⟩
  rw [eat, StateT.run_bind] at ran
  obtain ⟨⟨isThere, between⟩, asked, following⟩ := Option.bind_eq_some_iff.mp ran
  cases isThere with
  | false => cases following; cases taken
  | true =>
      obtain ⟨rfl, text, isMark⟩ := atPunct_eq_true asked
      obtain ⟨⟨_, after⟩, advanced, ended⟩ := Option.bind_eq_some_iff.mp following
      cases ended
      exact Nat.lt_of_le_of_lt start
        (Nat.lt_of_lt_of_le (sound.marked text isMark) (advance_reaches sound advanced).2)

/-- What holds behind the next mark holds where the mark is taken. -/
theorem expect_past (mark : String) :
    Keeps (fun n => ∀ m, n < m → P m) (expect mark) fun _ => P := by
  intro state result next sound start ran
  have taken : Keeps (state.place ≤ ·) (expect mark) fun _ n => state.place < n := by
    refine (eat_further mark state.place).bind fun taken => ?_
    cases taken with
    | true => exact .pure fun _ further => further rfl
    | false => exact .failure
  obtain ⟨sound', forward, further⟩ := taken state result next sound (Nat.le_refl _) ran
  exact ⟨sound', forward, start _ further⟩

theorem semicolon_moves : Moves semicolon := by
  refine .test (eat_moves _) (.pure fun _ => id) (.get fun state => ?_)
  split
  · exact .pure fun _ => id
  · exact .pure fun _ => id
  · exact .ite (.pure fun _ => id) .failure

theorem variableName_moves : Moves variableName := by
  refine .get fun state => ?_
  split
  · exact .ite (.after tokenSpan_moves fun _ => .after advance_moves fun _ => .pure fun _ => id)
      .failure
  · exact .failure

theorem anyName_moves : Moves anyName := by
  refine .get fun state => ?_
  split
  · exact .after tokenSpan_moves fun _ => .after advance_moves fun _ => .pure fun _ => id
  · exact .failure

theorem wordAfter_moves : Moves wordAfter := .lookAhead

theorem punctAfter_moves : Moves punctAfter := .lookAhead

end Steps

end ClassFactory.Script
