import ModSecurityIIS.Imperative.Program

/-!
# Runs that halt

`Proceeds` finds by itself that a program only returns or throws, as long as its parts do.
`Exits` is the triple that also speaks of the state of a halt, and `Safe` the one for programs
whose precondition has to rule a crash out.
-/

set_option autoImplicit false

namespace Imperative

namespace Program

variable {σ α β : Type}

/-- Every run returns or throws. -/
class Proceeds (program : Program σ α) : Prop where
  unhalted : ∀ state reason after, program state ≠ .halted reason after

section Instances

instance (value : α) : Proceeds (Pure.pure value : Program σ α) := ⟨by simp⟩

instance : Proceeds (get : Program σ σ) := ⟨by simp⟩

instance (f : σ → σ) : Proceeds (modify f) := ⟨by simp⟩

instance : Proceeds (throw : Program σ α) := ⟨by simp⟩

theorem Proceeds.bind {program : Program σ α} {next : α → Program σ β} (first : Proceeds program)
    (rest : ∀ value, Proceeds (next value)) : Proceeds (program >>= next) where
  unhalted state reason after halted := by
    rw [bind_apply] at halted
    cases run : program state with
    | returned value middle =>
        rw [run] at halted
        exact (rest value).unhalted middle reason after halted
    | thrown middle =>
        rw [run] at halted
        cases halted
    | halted other middle => exact first.unhalted state other middle run

instance (program : Program σ α) (next : α → Program σ β) [first : Proceeds program]
    [rest : ∀ value, Proceeds (next value)] : Proceeds (program >>= next) :=
  .bind first rest

instance (program handler : Program σ α) [body : Proceeds program] [caught : Proceeds handler] :
    Proceeds (program.tryCatch handler) where
  unhalted state reason after halted := by
    rw [tryCatch_apply] at halted
    cases run : program state with
    | returned value middle =>
        rw [run] at halted
        cases halted
    | thrown middle =>
        rw [run] at halted
        exact caught.unhalted middle reason after halted
    | halted other middle => exact body.unhalted state other middle run

instance (test : Prop) [Decidable test] (left right : Program σ α) [Proceeds left]
    [Proceeds right] : Proceeds (if test then left else right) := by
  split <;> assumption

instance (test : Bool) (program : Program σ Unit) [Proceeds program] :
    Proceeds (when test program) :=
  inferInstanceAs (Proceeds (if test then program else _))

theorem Proceeds.forEach {items : List β} {body : β → Program σ Unit}
    (each : ∀ item, Proceeds (body item)) : Proceeds (forEach items body) := by
  induction items with
  | nil => exact inferInstanceAs (Proceeds (Pure.pure ()))
  | cons item rest ih => exact .bind (each item) fun _ => ih

instance (items : List β) (body : β → Program σ Unit) [each : ∀ item, Proceeds (body item)] :
    Proceeds (forEach items body) :=
  .forEach each

instance (items : List β) (initial : α) (body : α → β → Program σ α)
    [each : ∀ accumulated item, Proceeds (body accumulated item)] :
    Proceeds (foldEach items initial body) := by
  induction items generalizing initial with
  | nil => exact inferInstanceAs (Proceeds (Pure.pure initial))
  | cons item rest ih => exact .bind (each initial item) fun _ => ih _

end Instances

/-- From every state that satisfies `pre` a run halts for an allowed reason only. A return
satisfies `post`; a throw satisfies `except`, and so does the state of a halt. -/
def Exits (allowed : Halt → Prop) (pre : σ → Prop) (program : Program σ α)
    (post : α → σ → Prop) (except : σ → Prop) : Prop :=
  ∀ state, pre state →
    match program state with
    | .returned value after => post value after
    | .thrown after => except after
    | .halted reason after => allowed reason ∧ except after

/-- A run does not crash. -/
abbrev Safe (pre : σ → Prop) (program : Program σ α) (post : α → σ → Prop) (except : σ → Prop) :
    Prop := Exits (· ≠ .crashed) pre program post except

/-- A run may halt for any reason. -/
abbrev Leaves (pre : σ → Prop) (program : Program σ α) (post : α → σ → Prop) (except : σ → Prop) :
    Prop := Exits (fun _ => True) pre program post except

variable {allowed : Halt → Prop} {pre : σ → Prop} {post : α → σ → Prop} {except : σ → Prop}

theorem Safe.not_crashed {program : Program σ α} (safe : Safe pre program post except)
    {state : σ} (start : pre state) (after : σ) : program state ≠ .halted .crashed after := by
  intro crashed
  have ends := safe state start
  rw [crashed] at ends
  exact ends.1 rfl

/-- What every exit leaves. -/
theorem Exits.state {program : Program σ α} {kept : σ → Prop}
    (exits : Exits allowed pre program (fun _ => kept) kept) {state : σ} (start : pre state) :
    kept (program state).state := by
  have ends := exits state start
  cases run : program state with
  | returned value after => rw [run] at ends; exact ends
  | thrown after => rw [run] at ends; exact ends
  | halted reason after => rw [run] at ends; exact ends.2

theorem Exits.consequence {program : Program σ α} {strong : σ → Prop} {weak : α → σ → Prop}
    {weakExcept : σ → Prop} (exits : Exits allowed pre program post except)
    (start : ∀ s, strong s → pre s) (finish : ∀ value s, post value s → weak value s)
    (caught : ∀ s, except s → weakExcept s) : Exits allowed strong program weak weakExcept := by
  intro state holds
  have ends := exits state (start state holds)
  cases run : program state with
  | returned value after => rw [run] at ends; exact finish value after ends
  | thrown after => rw [run] at ends; exact caught after ends
  | halted reason after => rw [run] at ends; exact ⟨ends.1, caught after ends.2⟩

theorem Exits.pure {value : α} (holds : ∀ s, pre s → post value s) :
    Exits allowed pre (Pure.pure value : Program σ α) post except :=
  fun state start => holds state start

theorem Exits.modify {f : σ → σ} {done : σ → Prop} (holds : ∀ s, pre s → done (f s)) :
    Exits allowed pre (modify f) (fun _ => done) except :=
  fun state start => holds state start

theorem Exits.halt {reason : Halt} (may : allowed reason) (holds : ∀ s, pre s → except s) :
    Exits allowed pre (halt reason : Program σ α) post except :=
  fun state start => ⟨may, holds state start⟩

theorem Exits.bind {program : Program σ α} {next : α → Program σ β} {last : β → σ → Prop}
    (middle : α → σ → Prop) (first : Exits allowed pre program middle except)
    (rest : ∀ value, Exits allowed (middle value) (next value) last except) :
    Exits allowed pre (program >>= next) last except := by
  intro state start
  have ends := first state start
  rw [bind_apply]
  cases run : program state with
  | returned value after => rw [run] at ends; exact rest value after ends
  | thrown after => rw [run] at ends; exact ends
  | halted reason after => rw [run] at ends; exact ends

/-- The state that is read is the one it is read in. -/
theorem Exits.seen {next : σ → Program σ β} {last : β → σ → Prop}
    (rest : ∀ w, pre w → Exits allowed (fun s => s = w) (next w) last except) :
    Exits allowed pre (get >>= next) last except :=
  fun state start => rest state start state rfl

/-- Forget which of the states of a precondition it is. -/
theorem Exits.at {program : Program σ α} {state : σ} (start : pre state)
    (exits : Exits allowed pre program post except) :
    Exits allowed (fun s => s = state) program post except := by
  intro other same
  rw [same]
  exact exits state start

theorem Exits.and {program : Program σ α} {other : α → σ → Prop}
    (exits : Exits allowed pre program post except)
    (ensures : Ensures pre program other fun _ => True) :
    Exits allowed pre program (fun value s => post value s ∧ other value s) except := by
  intro state start
  have first := exits state start
  have second := ensures state start
  cases run : program state with
  | returned value after => rw [run] at first second; exact ⟨first, second⟩
  | thrown after => rw [run] at first; exact first
  | halted reason after => rw [run] at first; exact first

theorem Exits.tryCatch {program handler : Program σ α} {caught : σ → Prop}
    (body : Exits allowed pre program post caught)
    (handles : Exits allowed caught handler post except) (stuck : ∀ s, caught s → except s) :
    Exits allowed pre (program.tryCatch handler) post except := by
  intro state start
  have ends := body state start
  rw [tryCatch_apply]
  cases run : program state with
  | returned value after => rw [run] at ends; exact ends
  | thrown after => rw [run] at ends; exact handles after ends
  | halted reason after => rw [run] at ends; exact ⟨ends.1, stuck after ends.2⟩

theorem Exits.when {test : Bool} {program : Program σ Unit}
    (guarded : test = true → Exits allowed pre program (fun _ => pre) except) :
    Exits allowed pre (when test program) (fun _ => pre) except := by
  cases test with
  | false => exact Exits.pure fun _ start => start
  | true => exact guarded rfl

/-- The rule of the `for` loop: the invariant speaks of the items that are done. -/
theorem Exits.forEach {items : List β} {body : β → Program σ Unit} {holds : List β → σ → Prop}
    (each : ∀ front item back, items = front ++ item :: back →
      Exits allowed (holds front) (body item) (fun _ => holds (front ++ [item])) except) :
    Exits allowed (holds []) (Program.forEach items body) (fun _ => holds items) except := by
  have from_here : ∀ front back, items = front ++ back →
      Exits allowed (holds front) (Program.forEach back body) (fun _ => holds items) except := by
    intro front back
    induction back generalizing front with
    | nil =>
        intro shape
        rw [List.append_nil] at shape
        rw [shape]
        exact Exits.pure fun _ start => start
    | cons item rest ih =>
        intro shape
        apply Exits.bind _ (each front item rest shape)
        intro _
        apply ih
        rw [shape, List.append_assoc]
        rfl
  exact from_here [] items rfl

/-- A relation kept by every run turns into a postcondition of every exit. -/
theorem Exits.of_within {relation : σ → σ → Prop} {program : Program σ α} {kept : σ → Prop}
    (halts : ∀ state reason after, program state = .halted reason after → allowed reason)
    (within : Within relation program) (carries : ∀ s t, pre s → relation s t → kept t) :
    Exits allowed pre program (fun _ => kept) kept := by
  intro state start
  have related := within state
  cases run : program state with
  | returned value after => rw [run] at related; exact carries _ _ start related
  | thrown after => rw [run] at related; exact carries _ _ start related
  | halted reason after =>
      rw [run] at related
      exact ⟨halts state reason after run, carries _ _ start related⟩

/-- A program that proceeds is as safe as its relation says. -/
theorem Safe.of_within {relation : σ → σ → Prop} {program : Program σ α} [proceeds : Proceeds program]
    {kept : σ → Prop} (within : Within relation program)
    (carries : ∀ s t, pre s → relation s t → kept t) :
    Safe pre program (fun _ => kept) kept :=
  Exits.of_within (fun state reason after run => absurd run (proceeds.unhalted state reason after))
    within carries

theorem Leaves.of_within {relation : σ → σ → Prop} {program : Program σ α} {kept : σ → Prop}
    (within : Within relation program) (carries : ∀ s t, pre s → relation s t → kept t) :
    Leaves pre program (fun _ => kept) kept :=
  Exits.of_within (fun _ _ _ _ => trivial) within carries

end Program

end Imperative
