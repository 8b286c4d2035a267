import Mathlib.Algebra.GroupWithZero.Nat
import Mathlib.Algebra.Order.Group.Nat
import ModSecurityIIS.Imperative.Program

/-!
# Programs on a clock

Programs whose steps may throw, where a clock in the state numbers the steps. From the number of
steps it takes one reads off when such a program throws and where it leaves the clock.
-/

set_option autoImplicit false

namespace Imperative

namespace Program

variable {σ α β : Type}

/-- It holds at one of the `count` ticks from `start` on. -/
def AnyFrom (holds : Nat → Prop) (start count : Nat) : Prop :=
  ∃ step < count, holds (start + step)

theorem anyFrom_zero {holds : Nat → Prop} {start : Nat} : ¬ AnyFrom holds start 0 := by
  intro found
  obtain ⟨step, before, _⟩ := found
  omega

@[simp] theorem anyFrom_one {holds : Nat → Prop} {start : Nat} :
    AnyFrom holds start 1 ↔ holds start := by
  constructor
  · intro found
    obtain ⟨step, before, found⟩ := found
    obtain rfl : step = 0 := by omega
    exact found
  · intro found
    exact ⟨0, Nat.one_pos, found⟩

theorem anyFrom_add {holds : Nat → Prop} {start first second : Nat} :
    AnyFrom holds start (first + second) ↔
      AnyFrom holds start first ∨ AnyFrom holds (start + first) second := by
  constructor
  · intro found
    obtain ⟨step, before, found⟩ := found
    by_cases early : step < first
    · exact .inl ⟨step, early, found⟩
    · refine .inr ⟨step - first, by omega, ?_⟩
      rwa [Nat.add_assoc, Nat.add_sub_cancel' (by omega)]
  · intro found
    obtain ⟨step, before, found⟩ | ⟨step, before, found⟩ := found
    · exact ⟨step, by omega, found⟩
    · refine ⟨first + step, by omega, ?_⟩
      rwa [← Nat.add_assoc]

/-- The program takes `count` steps: it throws exactly when one of them does, and a run that
returns has moved the clock by as many. -/
def Clocked (tick : σ → Nat) (throws : Nat → Prop) (count : Nat) (program : Program σ α) : Prop :=
  ∀ state,
    match program state with
    | .returned _ after => ¬ AnyFrom throws (tick state) count ∧ tick after = tick state + count
    | .thrown _ => AnyFrom throws (tick state) count
    | .halted _ _ => True

variable {tick : σ → Nat} {throws : Nat → Prop}

theorem Clocked.pure (value : α) : Clocked tick throws 0 (Pure.pure value : Program σ α) :=
  fun _ => ⟨anyFrom_zero, rfl⟩

theorem Clocked.modify {f : σ → σ} (same : ∀ state, tick (f state) = tick state) :
    Clocked tick throws 0 (modify f) :=
  fun state => ⟨anyFrom_zero, same state⟩

theorem Clocked.halt {count : Nat} (reason : Halt) :
    Clocked tick throws count (halt reason : Program σ α) :=
  fun _ => trivial

theorem Clocked.bind {first second : Nat} {program : Program σ α} {next : α → Program σ β}
    (begins : Clocked tick throws first program)
    (rest : ∀ value, Clocked tick throws second (next value)) :
    Clocked tick throws (first + second) (program >>= next) := by
  intro state
  have start := begins state
  rw [bind_apply]
  cases run : program state with
  | thrown after =>
      rw [run] at start
      exact anyFrom_add.mpr (.inl start)
  | halted reason after => exact trivial
  | returned value middle =>
      rw [run] at start
      obtain ⟨calm, moved⟩ := start
      have later := rest value middle
      dsimp only
      cases ends : next value middle with
      | thrown after =>
          rw [ends, moved] at later
          exact anyFrom_add.mpr (.inr later)
      | halted reason after => exact trivial
      | returned result after =>
          rw [ends, moved] at later
          refine ⟨?_, by rw [later.2, Nat.add_assoc]⟩
          rw [anyFrom_add]
          intro found
          obtain early | late := found
          · exact calm early
          · exact later.1 late

theorem Clocked.when {count : Nat} {test : Bool} {program : Program σ Unit}
    (guarded : Clocked tick throws count program) :
    Clocked tick throws (if test then count else 0) (when test program) := by
  cases test with
  | false => exact .pure ()
  | true => exact guarded

/-- The steps of a `for` loop are those of its turns. -/
theorem Clocked.forEach {items : List β} {body : β → Program σ Unit} {count : β → Nat}
    (each : ∀ item, Clocked tick throws (count item) (body item)) :
    Clocked tick throws (items.map count).sum (forEach items body) := by
  induction items with
  | nil => exact .pure ()
  | cons item rest ih =>
      rw [List.map_cons, List.sum_cons]
      exact .bind (each item) fun _ => ih

end Program

end Imperative
