import Mathlib.Order.Lattice.Nat
import ModSecurityIIS.Imperative.LazyWord
import ModSecurityIIS.World

/-!
# The mode of body reads

`BodyReadsAsync` keeps its answer in `g_bodyAsyncState`, an atomic word that the threads of the
process settle without a lock and with relaxed loads and stores.
-/

set_option autoImplicit false

namespace ModSecurityIIS

open Transition LazyWord

/-- An explicit `0`, `f` or `F` opts into synchronous reads. -/
def syncRequested (setting : Option Bytes) : Bool :=
  match environmentVariable setting 16 with
  | some (first :: _) => first == 48 || first == 102 || first == 70
  | _ => false

/-- `g_bodyAsyncState`: 0 is uninitialized, 1 synchronous and 2 asynchronous. -/
def bodyAsyncState : Settling Nat (Option Bytes) where
  unset := 0
  settle setting := if syncRequested setting then 1 else 2
  settles setting := by split <;> decide

/-- What `BodyReadsAsync` makes of the word `st`. -/
def readsAsync (st : Nat) : Bool := st == 2

/-- The calls of `BodyReadsAsync` by the threads of a process, while `MODSEC_IIS_BODY_ASYNC` takes
none but the `allowed` values. -/
def bodyModeSystem (Thread Time : Type) [DecidableEq Thread] [LinearOrder Time] [OrderBot Time]
    (allowed : Option Bytes → Prop) :
    System (Shared Time Nat (Option Bytes) × (Thread → Local Time Nat)) (Thread × Action) :=
  lazySystem bodyAsyncState allowed

theorem readsAsync_settle (env : Env) :
    readsAsync (bodyAsyncState.settle env.bodyAsync) = bodyReadsAsync env := by
  have asked : bodyReadsAsync env = !syncRequested env.bodyAsync := by
    unfold bodyReadsAsync syncRequested
    cases environmentVariable env.bodyAsync 16 with
    | none => rfl
    | some text => cases text <;> rfl
  rw [asked]
  simp only [bodyAsyncState, readsAsync]
  cases syncRequested env.bodyAsync <;> rfl

section Calls

variable {Thread Time : Type} [DecidableEq Thread] [LinearOrder Time] [OrderBot Time]
  {s : Shared Time Nat (Option Bytes) × (Thread → Local Time Nat)}

/-- Every call gives the mode of a value that the variable has had, and each thread asks for the
variable at most once. -/
theorem bodyReadsAsync_settled {allowed : Option Bytes → Prop}
    (reached : (bodyModeSystem Thread Time allowed).Reachable s) :
    (∀ st ∈ s.1.answers, ∃ setting, allowed setting ∧
        ∀ env : Env, env.bodyAsync = setting → readsAsync st = bodyReadsAsync env) ∧
      ∀ thread, (s.2 thread).asked ≤ 1 := by
  refine ⟨?_, asked_le_one reached⟩
  intro st answer
  obtain ⟨setting, permitted, rfl⟩ := answers_settled reached st answer
  refine ⟨setting, permitted, ?_⟩
  rintro env rfl
  exact readsAsync_settle env

end Calls

/-- Two threads find the word unset, and the variable changes between their questions. -/
theorem bodyReadsAsync_settled_raced : ∃ s : Shared Nat Nat (Option Bytes) × (Bool → Local Nat Nat),
    s.1.answers.map readsAsync = [true, false] ∧ ∀ thread, (s.2 thread).asked ≤ 1 := by
  have raced : ∃ s, (bodyModeSystem Bool Nat fun _ => True).Reachable s ∧
      s.1.answers.map readsAsync = [true, false] := by
    have start : (bodyModeSystem Bool Nat fun _ => True).Reachable
        (⟨[⟨0, 0⟩], none, []⟩, fun _ => ⟨.outside, 0, 0⟩) :=
      .start ⟨rfl, trivial, rfl, fun _ => rfl⟩
    have first := reachable_step true start
      (.miss rfl (List.mem_singleton.mpr rfl) le_rfl rfl)
    have second := reachable_step false first
      (.miss rfl (List.mem_singleton.mpr rfl) le_rfl rfl)
    have firstAsked := reachable_step true second (.ask rfl)
    have changed := reachable_step true firstAsked
      (.change (some [48]) trivial)
    have secondAsked := reachable_step false changed (.ask rfl)
    have firstStored := reachable_step true secondAsked
      (.store 1 rfl (by decide) (by decide))
    have secondStored := reachable_step false firstStored
      (.store 2 rfl (by decide) (by decide))
    exact ⟨_, secondStored, by decide⟩
  obtain ⟨s, reached, answers⟩ := raced
  exact ⟨s, answers, (bodyReadsAsync_settled reached).2⟩

end ModSecurityIIS
