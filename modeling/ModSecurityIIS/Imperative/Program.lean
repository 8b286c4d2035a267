import Mathlib.Order.Defs.Unbundled

/-!
# Imperative programs

Programs over an explicit state that return a value, throw, or halt. A throw
keeps the state it happened in, as in a language without transactions. The
rules below come in two kinds: `Within` for what every run leaves related, and
`Ensures` for pre- and postconditions with an exceptional postcondition.
-/

set_option autoImplicit false

namespace Imperative

/-- Why a run neither returns nor throws: its behaviour is undefined from here
on, or it waits for an answer its surroundings have not given. -/
inductive Halt where
  | crashed
  | blocked
  deriving DecidableEq, Repr

/-- The end of a run, with the state it leaves. -/
inductive Outcome (σ α : Type) where
  | returned (value : α) (state : σ)
  | thrown (state : σ)
  | halted (reason : Halt) (state : σ)
  deriving DecidableEq, Repr

def Outcome.state {σ α : Type} : Outcome σ α → σ
  | .returned _ state => state
  | .thrown state => state
  | .halted _ state => state

@[simp] theorem Outcome.state_returned {σ α : Type} (value : α) (state : σ) :
    (Outcome.returned value state).state = state := rfl

@[simp] theorem Outcome.state_thrown {σ α : Type} (state : σ) :
    (Outcome.thrown state : Outcome σ α).state = state := rfl

@[simp] theorem Outcome.state_halted {σ α : Type} (reason : Halt) (state : σ) :
    (Outcome.halted reason state : Outcome σ α).state = state := rfl

/-- The value of a run that returns. -/
def Outcome.value {σ α : Type} : Outcome σ α → Option α
  | .returned value _ => some value
  | .thrown _ => none
  | .halted _ _ => none

theorem Outcome.exists_returned {σ α : Type} {outcome : Outcome σ α} {value : α}
    (returns : outcome.value = some value) : ∃ state, outcome = .returned value state := by
  cases outcome with
  | returned other state =>
      cases returns
      exact ⟨state, rfl⟩
  | thrown state => cases returns
  | halted reason state => cases returns

/-- A partial-correctness postcondition: a halted run promises nothing. -/
def Outcome.Satisfies {σ α : Type} (outcome : Outcome σ α)
    (post : α → σ → Prop) (except : σ → Prop) : Prop :=
  match outcome with
  | .returned value state => post value state
  | .thrown state => except state
  | .halted _ _ => True

def Program (σ α : Type) := σ → Outcome σ α

namespace Program

variable {σ α β : Type}

instance : Monad (Program σ) where
  pure value := fun state => .returned value state
  bind program next := fun state =>
    match program state with
    | .returned value after => next value after
    | .thrown after => .thrown after
    | .halted reason after => .halted reason after

instance : LawfulMonad (Program σ) := by
  refine LawfulMonad.mk' _ (fun program => ?_) (fun _ _ => rfl) (fun program first second => ?_)
  · funext state
    simp only [Functor.map]
    cases program state <;> rfl
  · funext state
    simp only [bind]
    cases program state <;> rfl

def get : Program σ σ := fun state => .returned state state

def modify (f : σ → σ) : Program σ Unit := fun state => .returned () (f state)

def throw : Program σ α := fun state => .thrown state

def halt (reason : Halt) : Program σ α := fun state => .halted reason state

/-- Run `handler` from the state of the throw. -/
def tryCatch (program handler : Program σ α) : Program σ α := fun state =>
  match program state with
  | .thrown after => handler after
  | .returned value after => .returned value after
  | .halted reason after => .halted reason after

/-- A statement guarded by a test. -/
def when (test : Bool) (program : Program σ Unit) : Program σ Unit :=
  if test then program else pure ()

/-- A `for` loop over a list, without early exit. -/
def forEach (items : List β) (body : β → Program σ Unit) : Program σ Unit :=
  match items with
  | [] => pure ()
  | item :: rest => do
      body item
      forEach rest body

/-- A `for` loop over a list that carries an accumulator. -/
def foldEach (items : List β) (initial : α) (body : α → β → Program σ α) : Program σ α :=
  match items with
  | [] => pure initial
  | item :: rest => do
      let next ← body initial item
      foldEach rest next body

@[simp] theorem get_apply (state : σ) : get state = .returned state state := rfl

@[simp] theorem modify_apply (f : σ → σ) (state : σ) :
    modify f state = .returned () (f state) := rfl

@[simp] theorem throw_apply (state : σ) : (throw : Program σ α) state = .thrown state := rfl

@[simp] theorem halt_apply (reason : Halt) (state : σ) :
    (halt reason : Program σ α) state = .halted reason state := rfl

@[simp] theorem when_true (program : Program σ Unit) : when true program = program := rfl

@[simp] theorem when_false (program : Program σ Unit) : when false program = pure () := rfl

@[simp] theorem pure_apply (value : α) (state : σ) :
    (pure value : Program σ α) state = .returned value state := rfl

theorem bind_apply (program : Program σ α) (next : α → Program σ β) (state : σ) :
    (program >>= next) state =
      match program state with
      | .returned value after => next value after
      | .thrown after => .thrown after
      | .halted reason after => .halted reason after := rfl

theorem bind_returned {program : Program σ α} {next : α → Program σ β} {state after : σ}
    {value : α} (run : program state = .returned value after) :
    (program >>= next) state = next value after := by
  rw [bind_apply, run]

theorem bind_thrown {program : Program σ α} {next : α → Program σ β} {state after : σ}
    (run : program state = .thrown after) :
    (program >>= next) state = .thrown after := by
  rw [bind_apply, run]

theorem bind_halted {program : Program σ α} {next : α → Program σ β} {state after : σ}
    {reason : Halt} (run : program state = .halted reason after) :
    (program >>= next) state = .halted reason after := by
  rw [bind_apply, run]

theorem bind_eq_returned {program : Program σ α} {next : α → Program σ β} {state final : σ}
    {result : β} (run : (program >>= next) state = .returned result final) :
    ∃ value after, program state = .returned value after ∧
      next value after = .returned result final := by
  rw [bind_apply] at run
  cases first : program state with
  | returned value after => exact ⟨value, after, rfl, by simpa only [first] using run⟩
  | thrown after => simp [first] at run
  | halted reason after => simp [first] at run

theorem tryCatch_apply (program handler : Program σ α) (state : σ) :
    program.tryCatch handler state =
      match program state with
      | .thrown after => handler after
      | .returned value after => .returned value after
      | .halted reason after => .halted reason after := rfl

/-! ## Relating the state before to the state after -/

/-- Every run of the program, however it ends, leaves a related state. -/
def Within (relation : σ → σ → Prop) (program : Program σ α) : Prop :=
  ∀ state, relation state (program state).state

theorem Within.mono {narrow wide : σ → σ → Prop} {program : Program σ α}
    (within : Within narrow program) (weaker : ∀ s t, narrow s t → wide s t) :
    Within wide program :=
  fun state => weaker _ _ (within state)

theorem Within.returned {relation : σ → σ → Prop} {program : Program σ α}
    (within : Within relation program) {state after : σ} {value : α}
    (run : program state = .returned value after) : relation state after := by
  have related := within state
  rwa [run] at related

theorem Within.modify {relation : σ → σ → Prop} {f : σ → σ}
    (related : ∀ state, relation state (f state)) : Within relation (modify f) :=
  related

section Preorder

variable {relation : σ → σ → Prop} [IsPreorder σ relation]

theorem Within.pure (value : α) : Within relation (Pure.pure value : Program σ α) :=
  fun state => refl_of relation state

theorem Within.get : Within relation (get : Program σ σ) :=
  fun state => refl_of relation state

theorem Within.throw : Within relation (throw : Program σ α) :=
  fun state => refl_of relation state

theorem Within.halt (reason : Halt) : Within relation (halt reason : Program σ α) :=
  fun state => refl_of relation state

theorem Within.bind {program : Program σ α} {next : α → Program σ β}
    (first : Within relation program) (rest : ∀ value, Within relation (next value)) :
    Within relation (program >>= next) := by
  intro state
  have before := first state
  rw [bind_apply]
  cases run : program state with
  | returned value after =>
      rw [run] at before
      exact trans_of relation before (rest value after)
  | thrown after => rw [run] at before; exact before
  | halted reason after => rw [run] at before; exact before

theorem Within.tryCatch {program handler : Program σ α}
    (body : Within relation program) (caught : Within relation handler) :
    Within relation (program.tryCatch handler) := by
  intro state
  have before := body state
  rw [tryCatch_apply]
  cases run : program state with
  | returned value after => rw [run] at before; exact before
  | thrown after =>
      rw [run] at before
      exact trans_of relation before (caught after)
  | halted reason after => rw [run] at before; exact before

theorem Within.when {test : Bool} {program : Program σ Unit}
    (guarded : test = true → Within relation program) : Within relation (when test program) := by
  cases test with
  | false => exact Within.pure ()
  | true => exact guarded rfl

theorem Within.forEach {items : List β} {body : β → Program σ Unit}
    (each : ∀ item ∈ items, Within relation (body item)) :
    Within relation (forEach items body) := by
  induction items with
  | nil => exact Within.pure ()
  | cons item rest ih =>
      exact Within.bind (each item List.mem_cons_self)
        fun _ => ih fun other member => each other (List.mem_cons_of_mem _ member)

theorem Within.foldEach {items : List β} {initial : α} {body : α → β → Program σ α}
    (each : ∀ accumulated, ∀ item ∈ items, Within relation (body accumulated item)) :
    Within relation (foldEach items initial body) := by
  induction items generalizing initial with
  | nil => exact Within.pure initial
  | cons item rest ih =>
      exact Within.bind (each initial item List.mem_cons_self) fun _ =>
        ih fun accumulated other member => each accumulated other (List.mem_cons_of_mem _ member)

end Preorder

/-- Two stages with relations of their own compose to a third. -/
theorem Within.seq {first second whole : σ → σ → Prop} {program : Program σ α}
    {next : α → Program σ β} (begins : Within first program)
    (continues : ∀ value, Within second (next value))
    (compose : ∀ s t u, first s t → second t u → whole s u)
    (stop : ∀ s t, first s t → whole s t) : Within whole (program >>= next) := by
  intro state
  have before := begins state
  rw [bind_apply]
  cases run : program state with
  | returned value after =>
      rw [run] at before
      exact compose _ _ _ before (continues value after)
  | thrown after => rw [run] at before; exact stop _ _ before
  | halted reason after => rw [run] at before; exact stop _ _ before

theorem Within.recover {first second whole : σ → σ → Prop} {program handler : Program σ α}
    (body : Within first program) (caught : Within second handler)
    (compose : ∀ s t u, first s t → second t u → whole s u)
    (stop : ∀ s t, first s t → whole s t) : Within whole (program.tryCatch handler) := by
  intro state
  have before := body state
  rw [tryCatch_apply]
  cases run : program state with
  | returned value after => rw [run] at before; exact stop _ _ before
  | thrown after =>
      rw [run] at before
      exact compose _ _ _ before (caught after)
  | halted reason after => rw [run] at before; exact stop _ _ before

/-! ## Pre- and postconditions -/

/-- From every state that satisfies `pre`, a return satisfies `post` and a throw
satisfies `except`. -/
def Ensures (pre : σ → Prop) (program : Program σ α)
    (post : α → σ → Prop) (except : σ → Prop) : Prop :=
  ∀ state, pre state → (program state).Satisfies post except

variable {pre : σ → Prop} {post : α → σ → Prop} {except : σ → Prop}

theorem Ensures.returned {program : Program σ α} (ensures : Ensures pre program post except)
    {state after : σ} {value : α} (start : pre state)
    (run : program state = .returned value after) : post value after := by
  have ends := ensures state start
  rwa [run] at ends

theorem Ensures.thrown {program : Program σ α} (ensures : Ensures pre program post except)
    {state after : σ} (start : pre state) (run : program state = .thrown after) :
    except after := by
  have ends := ensures state start
  rwa [run] at ends

theorem Ensures.consequence {program : Program σ α} {strong : σ → Prop}
    {weak : α → σ → Prop} {weakExcept : σ → Prop} (ensures : Ensures pre program post except)
    (start : ∀ s, strong s → pre s) (finish : ∀ value s, post value s → weak value s)
    (caught : ∀ s, except s → weakExcept s) : Ensures strong program weak weakExcept := by
  intro state holds
  have ends := ensures state (start state holds)
  cases run : program state with
  | returned value after => rw [run] at ends; exact finish value after ends
  | thrown after => rw [run] at ends; exact caught after ends
  | halted reason after => exact trivial

theorem Ensures.pure {value : α} (holds : ∀ s, pre s → post value s) :
    Ensures pre (Pure.pure value : Program σ α) post except :=
  fun state start => holds state start

theorem Ensures.bind {program : Program σ α} {next : α → Program σ β}
    {last : β → σ → Prop} (middle : α → σ → Prop) (first : Ensures pre program middle except)
    (rest : ∀ value, Ensures (middle value) (next value) last except) :
    Ensures pre (program >>= next) last except := by
  intro state start
  have ends := first state start
  rw [bind_apply]
  cases run : program state with
  | returned value after => rw [run] at ends; exact rest value after ends
  | thrown after => rw [run] at ends; exact ends
  | halted reason after => exact trivial

theorem Ensures.and {program : Program σ α} {other : α → σ → Prop}
    (left : Ensures pre program post except)
    (right : Ensures pre program other fun _ => True) :
    Ensures pre program (fun value s => post value s ∧ other value s) except := by
  intro state start
  have first := left state start
  have second := right state start
  cases run : program state with
  | returned value after => rw [run] at first second; exact ⟨first, second⟩
  | thrown after => rw [run] at first; exact first
  | halted reason after => exact trivial

/-- Forget what the first part does. -/
theorem Ensures.skip {program : Program σ α} {next : α → Program σ β} {last : β → σ → Prop}
    (caught : ∀ s, except s)
    (rest : ∀ value, Ensures (fun _ => True) (next value) last except) :
    Ensures pre (program >>= next) last except := by
  refine Ensures.bind (fun _ _ => True) (fun state _ => ?_) rest
  cases program state with
  | returned value after => exact trivial
  | thrown after => exact caught after
  | halted reason after => exact trivial

/-- The part of a precondition that is about no state is a hypothesis. -/
theorem Ensures.given {program : Program σ α} {fact : Prop}
    (ensures : fact → Ensures pre program post except) :
    Ensures (fun s => fact ∧ pre s) program post except :=
  fun state holds => ensures holds.1 state holds.2

/-- A precondition on no state is a hypothesis. -/
theorem Ensures.assume {program : Program σ α} {fact : Prop}
    (ensures : fact → Ensures (fun _ => True) program post except) :
    Ensures (fun _ => fact) program post except :=
  fun state holds => ensures holds state trivial

theorem Ensures.under {program : Program σ α} {fact : Prop}
    (ensures : fact → Ensures pre program post fun _ => True) :
    Ensures pre program (fun value s => fact → post value s) fun _ => True := by
  intro state start
  cases run : program state with
  | returned value after => exact fun holds => (ensures holds).returned start run
  | thrown after => exact trivial
  | halted reason after => exact trivial

theorem Ensures.tryCatch {program handler : Program σ α} {caught : σ → Prop}
    (body : Ensures pre program post caught) (handles : Ensures caught handler post except) :
    Ensures pre (program.tryCatch handler) post except := by
  intro state start
  have ends := body state start
  rw [tryCatch_apply]
  cases run : program state with
  | returned value after => rw [run] at ends; exact ends
  | thrown after => rw [run] at ends; exact handles after ends
  | halted reason after => exact trivial

/-- The rule of the `for` loop: the invariant speaks of the items that are done. -/
theorem Ensures.forEach {items : List β} {body : β → Program σ Unit} {holds : List β → σ → Prop}
    (each : ∀ front item back, items = front ++ item :: back →
      Ensures (holds front) (body item) (fun _ => holds (front ++ [item])) except) :
    Ensures (holds []) (forEach items body) (fun _ => holds items) except := by
  have from_here : ∀ front back, items = front ++ back →
      Ensures (holds front) (Program.forEach back body) (fun _ => holds items) except := by
    intro front back
    induction back generalizing front with
    | nil =>
        intro shape
        rw [List.append_nil] at shape
        rw [shape]
        exact Ensures.pure fun _ start => start
    | cons item rest ih =>
        intro shape
        apply Ensures.bind _ (each front item rest shape)
        intro _
        apply ih
        rw [shape, List.append_assoc]
        rfl
  exact from_here [] items rfl

/-- A relation kept by every run turns into a postcondition of both exits. -/
theorem Ensures.of_within {relation : σ → σ → Prop} {program : Program σ α} {kept : σ → Prop}
    (within : Within relation program) (carries : ∀ s t, pre s → relation s t → kept t) :
    Ensures pre program (fun _ => kept) kept := by
  intro state start
  have related := within state
  cases run : program state with
  | returned value after => rw [run] at related; exact carries _ _ start related
  | thrown after => rw [run] at related; exact carries _ _ start related
  | halted reason after => exact trivial

/-! ## Total correctness -/

/-- From every state that satisfies `pre` the program returns, and then `post` holds. -/
def Completes (pre : σ → Prop) (program : Program σ α) (post : α → σ → Prop) : Prop :=
  ∀ state, pre state → ∃ value after, program state = .returned value after ∧ post value after

theorem Completes.pure {value : α} (holds : ∀ s, pre s → post value s) :
    Completes pre (Pure.pure value : Program σ α) post :=
  fun state start => ⟨value, state, rfl, holds state start⟩

theorem Completes.bind {program : Program σ α} {next : α → Program σ β} {last : β → σ → Prop}
    (middle : α → σ → Prop) (first : Completes pre program middle)
    (rest : ∀ value, Completes (middle value) (next value) last) :
    Completes pre (program >>= next) last := by
  intro state start
  obtain ⟨value, after, run, holds⟩ := first state start
  obtain ⟨result, final, ended, done⟩ := rest value after holds
  exact ⟨result, final, by rw [bind_returned run, ended], done⟩

theorem Completes.forEach {items : List β} {body : β → Program σ Unit}
    (each : ∀ item ∈ items, Completes pre (body item) fun _ => pre) :
    Completes pre (forEach items body) fun _ => pre := by
  induction items with
  | nil => exact Completes.pure fun _ start => start
  | cons item rest ih =>
      apply Completes.bind _ (each item List.mem_cons_self)
      intro _
      exact ih fun other member => each other (List.mem_cons_of_mem _ member)

theorem Completes.foldEach {items : List β} {initial : α} {body : α → β → Program σ α}
    (each : ∀ accumulated, ∀ item ∈ items,
      Completes pre (body accumulated item) fun _ => pre) :
    Completes pre (foldEach items initial body) fun _ => pre := by
  induction items generalizing initial with
  | nil => exact Completes.pure fun _ start => start
  | cons item rest ih =>
      apply Completes.bind _ (each initial item List.mem_cons_self)
      intro _
      exact ih fun accumulated later member => each accumulated later (List.mem_cons_of_mem _ member)

theorem Completes.ensures {program : Program σ α} (delivers : Completes pre program post) :
    Ensures pre program post fun _ => False := by
  intro state start
  obtain ⟨value, after, run, done⟩ := delivers state start
  rw [run]
  exact done

/-! ## Two programs side by side -/

/-- From every state that satisfies `pre`, the two programs end related. -/
def Couples (pre : σ → Prop) (left : Program σ α) (right : Program σ β)
    (related : Outcome σ α → Outcome σ β → Prop) : Prop :=
  ∀ state, pre state → related (left state) (right state)

/-- A common first part reduces the comparison to the two rests. -/
theorem Couples.bind {γ : Type} {program : Program σ γ} {left : γ → Program σ α}
    {right : γ → Program σ β} {related : Outcome σ α → Outcome σ β → Prop}
    (middle : γ → σ → Prop) (first : Ensures pre program middle except)
    (thrown : ∀ s, except s → related (.thrown s) (.thrown s))
    (halted : ∀ reason s, related (.halted reason s) (.halted reason s))
    (rest : ∀ value, Couples (middle value) (left value) (right value) related) :
    Couples pre (program >>= left) (program >>= right) related := by
  intro state start
  have ends := first state start
  rw [bind_apply, bind_apply]
  cases run : program state with
  | returned value after => rw [run] at ends; exact rest value after ends
  | thrown after => rw [run] at ends; exact thrown after ends
  | halted reason after => exact halted reason after

end Program

end Imperative
