import Mathlib.Algebra.Order.BigOperators.Group.List
import Mathlib.Algebra.GroupWithZero.Nat
import Mathlib.Algebra.Order.Group.Nat
import Mathlib.Logic.Function.Basic
import Mathlib.Logic.Relation

/-!
# Labelled transition systems

States reached by runs whose every step meets a guard. The guard with no
content gives plain reachability.
-/

set_option autoImplicit false

namespace Transition

structure System (σ Label : Type) where
  initial : σ → Prop
  step : σ → Label → σ → Prop

namespace System

variable {σ Label : Type} (system : System σ Label)

/-- A state some run reaches when each of its steps meets the guard, read on the
state before the step and on the step's label. -/
inductive Reaches (guard : σ → Label → Prop) : σ → Prop where
  | start {state : σ} : system.initial state → Reaches guard state
  | next {state after : σ} {label : Label} :
      Reaches guard state → guard state label → system.step state label after →
      Reaches guard after

def Reachable : σ → Prop := system.Reaches fun _ _ => True

variable {system}

/-- The induction rule of guarded runs: one step lemma gives the run lemma. -/
theorem Reaches.invariant {guard : σ → Label → Prop} {holds : σ → Prop}
    (start : ∀ state, system.initial state → holds state)
    (next : ∀ state label after, holds state → guard state label →
      system.step state label after → holds after)
    {state : σ} (reached : system.Reaches guard state) : holds state := by
  induction reached with
  | start initial => exact start _ initial
  | next _ guarded step ih => exact next _ _ _ ih guarded step

theorem Reachable.step {state after : σ} {label : Label}
    (reached : system.Reachable state) (step : system.step state label after) :
    system.Reachable after :=
  .next reached trivial step

theorem Reachable.invariant {holds : σ → Prop}
    (start : ∀ state, system.initial state → holds state)
    (next : ∀ state label after, holds state → system.step state label after → holds after)
    {state : σ} (reached : system.Reachable state) : holds state :=
  Reaches.invariant start (fun _ _ _ valid _ step => next _ _ _ valid step) reached

/-- The same steps from one state on. -/
def startingAt (system : System σ Label) (state : σ) : System σ Label :=
  { system with initial := fun other => other = state }

/-- The same runs, each with its labels so far. -/
def recording (system : System σ Label) : System (σ × List Label) Label where
  initial recorded := system.initial recorded.1 ∧ recorded.2 = []
  step recorded label after :=
    system.step recorded.1 label after.1 ∧ after.2 = recorded.2 ++ [label]

theorem Reaches.record {guard : σ × List Label → Label → Prop} {state after : σ}
    {label : Label} {history : List Label}
    (reached : system.recording.Reaches guard (state, history))
    (guarded : guard (state, history) label) (step : system.step state label after) :
    system.recording.Reaches guard (after, history ++ [label]) :=
  .next reached guarded ⟨step, rfl⟩

end System

/-! ## Refinement -/

/-- A mapping under which every step is one of the other system or changes nothing there
carries runs over. -/
theorem System.Reaches.refines {σ τ Label Other : Type} {system : System σ Label}
    {abstract : System τ Other} {guard : σ → Label → Prop} {guarded : τ → Other → Prop}
    (mapping : σ → τ) (start : ∀ state, system.initial state → abstract.initial (mapping state))
    (step : ∀ state label after, guard state label → system.step state label after →
      mapping after = mapping state ∨
        ∃ other, guarded (mapping state) other ∧
          abstract.step (mapping state) other (mapping after))
    {state : σ} (reached : system.Reaches guard state) :
    abstract.Reaches guarded (mapping state) := by
  induction reached with
  | start initial => exact .start (start _ initial)
  | next _ meets moved ih =>
      rcases step _ _ _ meets moved with same | ⟨other, allowed, moves⟩
      · rw [same]
        exact ih
      · exact .next ih allowed moves

/-! ## Components over a common state -/

section Sharing

variable {Component Common Own Label : Type} [DecidableEq Component]

/-- Components that share a common state: a step of one of them changes that state and the
component's own. -/
def sharing (initial : Common → (Component → Own) → Prop)
    (step : Component → Common × Own → Label → Common × Own → Prop) :
    System (Common × (Component → Own)) (Component × Label) where
  initial state := initial state.1 state.2
  step state label after := ∃ own, step label.1 (state.1, state.2 label.1) label.2 (after.1, own) ∧
    after.2 = Function.update state.2 label.1 own

variable {initial : Common → (Component → Own) → Prop}
  {step : Component → Common × Own → Label → Common × Own → Prop}

/-- Rely and guarantee: a component's step keeps what it holds itself, and leaves to every
other component what that one holds. -/
theorem sharing_invariant {kept : Common → Prop} {holds : Component → Common → Own → Prop}
    (start : ∀ common owns, initial common owns →
      kept common ∧ ∀ component, holds component common (owns component))
    (steps : ∀ component common own label after next, kept common → holds component common own →
      step component (common, own) label (after, next) → kept after ∧ holds component after next)
    (leaves : ∀ component common own label after next other state, kept common →
      holds component common own → step component (common, own) label (after, next) →
      other ≠ component → holds other common state → holds other after state)
    {state : Common × (Component → Own)} (reached : (sharing initial step).Reachable state) :
    kept state.1 ∧ ∀ component, holds component state.1 (state.2 component) := by
  apply System.Reachable.invariant _ _ reached
  · exact fun state begins => start state.1 state.2 begins
  · intro state label after valid moved
    obtain ⟨own, moved, updated⟩ := moved
    have stepped := steps _ _ _ _ _ _ valid.1 (valid.2 label.1) moved
    refine ⟨stepped.1, ?_⟩
    intro component
    rw [updated]
    by_cases same : component = label.1
    · rw [same, Function.update_self]
      exact stepped.2
    · rw [Function.update_of_ne same]
      exact leaves _ _ _ _ _ _ _ _ valid.1 (valid.2 label.1) moved same (valid.2 component)

/-- What every step of every component does to the common state, every run does. -/
theorem sharing_common {relation : Common → Common → Prop} [IsPreorder Common relation]
    (steps : ∀ component common own label after next,
      step component (common, own) label (after, next) → relation common after)
    {state later : Common × (Component → Own)}
    (reached : ((sharing initial step).startingAt state).Reachable later) :
    relation state.1 later.1 := by
  refine @System.Reachable.invariant _ _ _ (fun later => relation state.1 later.1) ?_ ?_ _ reached
  · intro other same
    rw [show other = state from same]
    exact refl_of relation state.1
  · intro middle label after so_far moved
    obtain ⟨own, moved, _⟩ := moved
    exact trans_of relation so_far (steps _ _ _ _ _ _ moved)

end Sharing

/-! ## The steps of a pool of threads -/

section Members

variable {Thread : Type} {front back threads : List Thread} {thread next other : Thread}
  {holds : Thread → Prop}

theorem mem_of_beside (pool : threads = front ++ thread :: back)
    (beside : other ∈ front ∨ other ∈ back) : other ∈ threads := by
  rw [pool]
  rcases beside with early | late
  · exact List.mem_append_left _ early
  · exact List.mem_append_right _ (List.mem_cons_of_mem _ late)

/-- One thread steps to `next`. -/
theorem forall_stepped (others : ∀ other, other ∈ front ∨ other ∈ back → holds other)
    (stepped : holds next) : ∀ other ∈ front ++ next :: back, holds other := by
  intro other member
  rcases List.mem_append.mp member with early | late
  · exact others other (.inl early)
  · rcases List.mem_cons.mp late with rfl | last
    · exact stepped
    · exact others other (.inr last)

/-- One more thread starts. -/
theorem forall_started (others : ∀ other ∈ threads, holds other) (started : holds thread) :
    ∀ other ∈ threads ++ [thread], holds other :=
  forall_stepped (fun other beside => others other (by simpa using beside)) started

end Members

/-! ## Weighing a pool of threads -/

section Pool

variable {Thread : Type} (weight : Thread → Nat)

/-- The sum of the weights of a pool. -/
def weigh (threads : List Thread) : Nat := (threads.map weight).sum

@[simp] theorem weigh_nil : weigh weight [] = 0 := rfl

@[simp] theorem weigh_cons (thread : Thread) (threads : List Thread) :
    weigh weight (thread :: threads) = weight thread + weigh weight threads := by
  simp [weigh]

@[simp] theorem weigh_append (first second : List Thread) :
    weigh weight (first ++ second) = weigh weight first + weigh weight second := by
  simp [weigh]

theorem weight_le_weigh {thread : Thread} {threads : List Thread} (member : thread ∈ threads) :
    weight thread ≤ weigh weight threads := by
  obtain ⟨front, back, rfl⟩ := List.append_of_mem member
  simp only [weigh_append, weigh_cons]
  omega

theorem weigh_eq_zero {threads : List Thread} (each : ∀ thread ∈ threads, weight thread = 0) :
    weigh weight threads = 0 := by
  apply List.sum_eq_zero
  simpa using each

theorem weigh_mono {weight heavier : Thread → Nat} (each : ∀ thread, weight thread ≤ heavier thread)
    (threads : List Thread) : weigh weight threads ≤ weigh heavier threads :=
  List.sum_le_sum fun thread _ => each thread

end Pool

end Transition
