import Mathlib.Logic.Function.Basic
import ModSecurityIIS.Imperative.Transition
import ModSecurityIIS.Windows

/-!
# The module factory

`GetHttpModule` makes the module under a critical section, and the module makes the engine.
What the construction throws leaves `GetHttpModule`: nothing catches it, and the critical
section is no object that unwinding would release. The engine is published before it is
configured.
-/

set_option autoImplicit false

namespace ModSecurityIIS

open Transition

/-! ## The factory -/

def errorNotEnoughMemory : Nat := 8
def errorInvalidParameter : Nat := 87

/-- The `ModSecurity` object, by what was set on it. -/
structure Engine where
  connectorInformation : Bool
  serverLogCb : Bool
  deriving DecidableEq, Repr

def Engine.new : Engine := { connectorInformation := false, serverLogCb := false }

def Engine.setConnectorInformation (engine : Engine) : Engine :=
  { engine with connectorInformation := true }

def Engine.setServerLogCb (engine : Engine) : Engine := { engine with serverLogCb := true }

def Engine.configured : Engine := { connectorInformation := true, serverLogCb := true }

/-- Where a thread stands in `GetHttpModule`: before the step that the point is named for. -/
inductive FactoryPoint where
  | outside
  | entering
  | testing
  | allocating
  /-- In the constructor of the module, before `g_engineMutex` is locked and `g_engine`
  tested. -/
  | constructing
  | creatingEngine
  | settingConnector
  | settingServerLog
  /-- The module is constructed; before it is assigned to `m_pModule`. -/
  | publishing
  /-- Before `LeaveCriticalSection`, with a module or without. -/
  | leaving (found : Bool)
  | handing
  deriving DecidableEq, Repr

inductive FactoryExit where
  | returned (hr : HResult) (module : Option Nat)
  | thrown
  deriving DecidableEq, Repr

/-- `owner` and `depth` are those of `m_csLock`, which its owner may enter again. `made`
counts the modules, and `history` holds the ends of the calls. -/
structure FactoryState where
  owner : Option Nat
  depth : Nat
  pModule : Option Nat
  engine : Option Engine
  made : Nat
  points : Nat → FactoryPoint
  history : List FactoryExit

/-- A thread takes its next step; `succeeds` answers it where it can fail: whether there is
a `ppModule` or memory, and whether the lock of the engine's mutex and the engine's functions
return. -/
structure FactoryChoice where
  thread : Nat
  succeeds : Bool

namespace FactoryState

def moveTo (s : FactoryState) (thread : Nat) (point : FactoryPoint) : FactoryState :=
  { s with points := Function.update s.points thread point }

def exit (s : FactoryState) (thread : Nat) (ended : FactoryExit) : FactoryState :=
  { s with
    points := Function.update s.points thread .outside
    history := s.history ++ [ended] }

/-- `EnterCriticalSection`; the thread waits while another one owns the section. -/
def enter (s : FactoryState) (thread : Nat) : Option FactoryState :=
  match s.owner with
  | none => some { s with owner := some thread, depth := 1 }
  | some owner => if owner = thread then some { s with depth := s.depth + 1 } else none

def leave (s : FactoryState) : FactoryState :=
  { s with depth := s.depth - 1, owner := if s.depth ≤ 1 then none else s.owner }

def setEngine (s : FactoryState) (engine : Option Engine) : FactoryState := { s with engine }

def publish (s : FactoryState) : FactoryState :=
  { s with pModule := some s.made, made := s.made + 1 }

/-- One step of `GetHttpModule`; there is none while another thread is in the section. -/
def turn (s : FactoryState) (choice : FactoryChoice) : Option FactoryState :=
  let thread := choice.thread
  match s.points thread with
  | .outside =>
      if choice.succeeds then some (s.moveTo thread .entering)
      else some (s.exit thread (.returned (.fromWin32 errorInvalidParameter) none))
  | .entering => (s.enter thread).map fun s => s.moveTo thread .testing
  | .testing =>
      if s.pModule = none then some (s.moveTo thread .allocating)
      else some (s.moveTo thread (.leaving true))
  | .allocating =>
      if choice.succeeds then some (s.moveTo thread .constructing)
      else some (s.moveTo thread (.leaving false))
  | .constructing =>
      if choice.succeeds then
        if s.engine = none then some (s.moveTo thread .creatingEngine)
        else some (s.moveTo thread .publishing)
      else some (s.exit thread .thrown)
  | .creatingEngine =>
      if choice.succeeds then some ((s.setEngine (some .new)).moveTo thread .settingConnector)
      else some (s.exit thread .thrown)
  | .settingConnector =>
      if choice.succeeds then
        some ((s.setEngine (s.engine.map Engine.setConnectorInformation)).moveTo thread
          .settingServerLog)
      else some (s.exit thread .thrown)
  | .settingServerLog =>
      some ((s.setEngine (s.engine.map Engine.setServerLogCb)).moveTo thread .publishing)
  | .publishing => some (s.publish.moveTo thread (.leaving true))
  | .leaving found =>
      if found then some (s.leave.moveTo thread .handing)
      else some (s.leave.exit thread (.returned (.fromWin32 errorNotEnoughMemory) none))
  | .handing => some (s.exit thread (.returned .sOk s.pModule))

end FactoryState

inductive FactoryStep : FactoryState → FactoryChoice → FactoryState → Prop where
  | turn {s after : FactoryState} {choice : FactoryChoice} :
      s.turn choice = some after → FactoryStep s choice after

/-- The calls of any threads on a new factory, in a process without an engine. -/
def factorySystem : System FactoryState FactoryChoice where
  initial s := s.owner = none ∧ s.depth = 0 ∧ s.pModule = none ∧ s.engine = none ∧
    s.history = [] ∧ ∀ thread, s.points thread = .outside
  step := FactoryStep

/-- Nothing that is called while the module is built throws. -/
def FactoryState.Builds (s : FactoryState) (choice : FactoryChoice) : Prop :=
  choice.succeeds = false →
    s.points choice.thread ≠ .constructing ∧ s.points choice.thread ≠ .creatingEngine ∧
      s.points choice.thread ≠ .settingConnector

/-! ## What the factory is to keep -/

/-- The call of this thread ends with a module and a configured engine, where it gets all it
asks for, after the thread that holds the section has got out of it. -/
inductive FactoryState.Succeeds (thread : Nat) : FactoryState → Prop where
  | ended {s after : FactoryState} {module : Nat} :
      s.turn ⟨thread, true⟩ = some after →
      after.history = s.history ++ [.returned .sOk (some module)] →
      after.engine = some .configured → Succeeds thread s
  | step {s after : FactoryState} :
      s.turn ⟨thread, true⟩ = some after → after.history = s.history →
      Succeeds thread after → Succeeds thread s
  | waits {s after : FactoryState} {other : Nat} :
      s.owner = some other → other ≠ thread → s.turn ⟨other, true⟩ = some after →
      Succeeds thread after → Succeeds thread s

structure FactoryState.Orderly (s : FactoryState) : Prop where
  contained : .thrown ∉ s.history
  free : ∀ thread, s.points thread = .outside → s.owner ≠ some thread
  retry : ∀ thread, s.points thread = .outside → s.Succeeds thread
  handed : ∀ hr module, .returned hr (some module) ∈ s.history →
    s.pModule = some module ∧ s.engine = some .configured

/-! ## The invariant -/

/-- The point is between `EnterCriticalSection` and `LeaveCriticalSection`. -/
def FactoryPoint.inside : FactoryPoint → Bool
  | .outside => false
  | .entering => false
  | .handing => false
  | _ => true

/-- How many steps of the call are still ahead, at most. -/
def FactoryPoint.rank : FactoryPoint → Nat
  | .outside => 11
  | .entering => 10
  | .testing => 9
  | .allocating => 8
  | .constructing => 7
  | .creatingEngine => 6
  | .settingConnector => 5
  | .settingServerLog => 4
  | .publishing => 3
  | .leaving _ => 2
  | .handing => 1

/-- What a thread at this point knows of the singletons. -/
def FactoryPoint.Fits (pModule : Option Nat) (engine : Option Engine) : FactoryPoint → Prop
  | .outside => True
  | .entering => True
  | .testing => (engine = none ∨ engine = some .configured) ∧
      (pModule ≠ none → engine = some .configured)
  | .allocating => pModule = none ∧ (engine = none ∨ engine = some .configured)
  | .constructing => pModule = none ∧ (engine = none ∨ engine = some .configured)
  | .creatingEngine => pModule = none ∧ engine = none
  | .settingConnector => pModule = none ∧ engine = some .new
  | .settingServerLog => pModule = none ∧ engine = some Engine.new.setConnectorInformation
  | .publishing => pModule = none ∧ engine = some .configured
  | .leaving true => pModule ≠ none ∧ engine = some .configured
  | .leaving false => pModule = none ∧ (engine = none ∨ engine = some .configured)
  | .handing => pModule ≠ none ∧ engine = some .configured

structure FactoryState.Inv (s : FactoryState) : Prop where
  contained : .thrown ∉ s.history
  owned : ∀ thread, (s.points thread).inside = true ↔ s.owner = some thread
  depth : s.owner ≠ none → s.depth = 1
  fits : ∀ thread, (s.points thread).Fits s.pModule s.engine
  resting : s.owner = none → FactoryPoint.testing.Fits s.pModule s.engine
  handed : ∀ hr module, .returned hr (some module) ∈ s.history →
    s.pModule = some module ∧ s.engine = some .configured

structure FactoryTurned (s : FactoryState) (thread : Nat) (after : FactoryState) : Prop where
  others : ∀ other, other ≠ thread → after.points other = s.points other
  contained : .thrown ∉ after.history
  owned : (after.points thread).inside = true ↔ after.owner = some thread
  owner : after.owner = s.owner ∨ (s.owner = some thread ∧ after.owner = none) ∨
    (s.owner = none ∧ after.owner = some thread)
  depth : after.owner ≠ none → after.depth = 1
  fits : (after.points thread).Fits after.pModule after.engine
  resting : after.owner = none → FactoryPoint.testing.Fits after.pModule after.engine
  kept : s.pModule ≠ none ∨ s.owner ≠ some thread →
    after.pModule = s.pModule ∧ after.engine = s.engine
  handed : ∀ hr module, .returned hr (some module) ∈ after.history →
    after.pModule = some module ∧ after.engine = some .configured

section Steps

variable {s after : FactoryState} {thread : Nat} {choice : FactoryChoice}

theorem FactoryTurned.inner (inv : s.Inv) (holds : s.owner = some thread)
    {point : FactoryPoint} {pModule : Option Nat} {engine : Option Engine} {made : Nat}
    (inside : point.inside = true) (fits : point.Fits pModule engine)
    (kept : s.pModule ≠ none → pModule = s.pModule ∧ engine = s.engine) :
    FactoryTurned s thread ({ s with pModule, engine, made }.moveTo thread point) where
  others other different := Function.update_of_ne different _ _
  contained := inv.contained
  owned := by simp [FactoryState.moveTo, inside, holds]
  owner := .inl rfl
  depth := inv.depth
  fits := by simpa [FactoryState.moveTo] using fits
  resting free := by
    have none : s.owner = none := free
    rw [holds] at none
    cases none
  kept := by
    rintro (present | foreign)
    · exact kept present
    · exact absurd holds foreign
  handed hr module member := by
    obtain ⟨same, configured⟩ := inv.handed hr module member
    obtain ⟨keptModule, keptEngine⟩ := kept (by simp [same])
    exact ⟨keptModule.trans same, keptEngine.trans configured⟩

theorem FactoryTurned.outer (inv : s.Inv) (foreign : s.owner ≠ some thread)
    {point : FactoryPoint} {history : List FactoryExit} (outside : point.inside = false)
    (fits : point.Fits s.pModule s.engine) (contained : .thrown ∉ history)
    (handed : ∀ hr module, .returned hr (some module) ∈ history →
      s.pModule = some module ∧ s.engine = some .configured) :
    FactoryTurned s thread { s with points := Function.update s.points thread point, history } where
  others other different := Function.update_of_ne different _ _
  contained := contained
  owned := by simp [outside, foreign]
  owner := .inl rfl
  depth := inv.depth
  fits := by simpa using fits
  resting := inv.resting
  kept _ := ⟨rfl, rfl⟩
  handed := handed

theorem FactoryTurned.left (inv : s.Inv) (holds : s.owner = some thread)
    {point : FactoryPoint} {history : List FactoryExit} (outside : point.inside = false)
    (fits : point.Fits s.pModule s.engine)
    (resting : FactoryPoint.testing.Fits s.pModule s.engine) (contained : .thrown ∉ history)
    (handed : ∀ hr module, .returned hr (some module) ∈ history →
      s.pModule = some module ∧ s.engine = some .configured) :
    FactoryTurned s thread
      { s.leave with points := Function.update s.points thread point, history } := by
  have depth : s.depth = 1 := inv.depth (by simp [holds])
  have free : s.leave.owner = none := by simp [FactoryState.leave, depth]
  exact
    { others := fun other different => Function.update_of_ne different _ _
      contained := contained
      owned := by simp [outside, free]
      owner := .inr (.inl ⟨holds, free⟩)
      depth := fun owned => absurd free owned
      fits := by simpa [FactoryState.leave] using fits
      resting := fun _ => resting
      kept := fun _ => ⟨rfl, rfl⟩
      handed := handed }

theorem entering_turned (inv : s.Inv) (point : s.points thread = .entering)
    (took : (s.enter thread).map (fun s => s.moveTo thread .testing) = some after) :
    FactoryTurned s thread after := by
  have foreign : s.owner ≠ some thread := by
    intro holds
    have inside := (inv.owned thread).mpr holds
    rw [point] at inside
    cases inside
  cases owner : s.owner with
  | some other =>
      have different : other ≠ thread := fun same => foreign (by rw [owner, same])
      simp [FactoryState.enter, owner, different] at took
  | none =>
      simp only [FactoryState.enter, owner, Option.map_some, Option.some.injEq] at took
      subst took
      exact
        { others := fun other different => Function.update_of_ne different _ _
          contained := inv.contained
          owned := by simp [FactoryState.moveTo, FactoryPoint.inside]
          owner := .inr (.inr ⟨owner, rfl⟩)
          depth := fun _ => rfl
          fits := by simpa [FactoryState.moveTo] using inv.resting owner
          resting := nofun
          kept := fun _ => ⟨rfl, rfl⟩
          handed := inv.handed }

theorem not_mem_exit {history : List FactoryExit} {hr : HResult} {module : Option Nat}
    (contained : .thrown ∉ history) : .thrown ∉ history ++ [.returned hr module] := by
  simp [contained]

theorem handed_exit {history : List FactoryExit} {hr : HResult} {given : Option Nat}
    {pModule : Option Nat} {engine : Option Engine}
    (handed : ∀ hr module, .returned hr (some module) ∈ history →
      pModule = some module ∧ engine = some .configured)
    (gives : ∀ module, given = some module → pModule = some module ∧ engine = some .configured) :
    ∀ other module, .returned other (some module) ∈ history ++ [.returned hr given] →
      pModule = some module ∧ engine = some .configured := by
  intro other module member
  rcases List.mem_append.mp member with early | late
  · exact handed other module early
  · have same := List.mem_singleton.mp late
    cases same
    exact gives module rfl

/-- A step of a thread that stays in the section: it goes on to `next`, nearer to the end. -/
structure InnerTurn (s : FactoryState) (choice : FactoryChoice) (pModule : Option Nat)
    (engine : Option Engine) (made : Nat) (next : FactoryPoint) : Prop where
  took : s.turn choice = some ({ s with pModule, engine, made }.moveTo choice.thread next)
  inside : next.inside = true
  fits : next.Fits pModule engine
  kept : s.pModule ≠ none → pModule = s.pModule ∧ engine = s.engine
  nearer : next.rank < (s.points choice.thread).rank
  succeeded : choice.succeeds = true → next ≠ .leaving false

theorem innerTurn_of_inside (choice : FactoryChoice)
    (fits : (s.points choice.thread).Fits s.pModule s.engine)
    (inside : (s.points choice.thread).inside = true)
    (stays : ∀ found, s.points choice.thread ≠ .leaving found) (builds : s.Builds choice) :
    ∃ pModule engine made next, InnerTurn s choice pModule engine made next := by
  obtain ⟨thread, succeeds⟩ := choice
  dsimp only at fits inside stays
  cases point : s.points thread with
  | outside => simp [point, FactoryPoint.inside] at inside
  | entering => simp [point, FactoryPoint.inside] at inside
  | handing => simp [point, FactoryPoint.inside] at inside
  | leaving found => exact absurd point (stays found)
  | testing =>
      rw [point] at fits
      by_cases absent : s.pModule = none
      · have took : s.turn ⟨thread, succeeds⟩ = some (s.moveTo thread .allocating) := by
          simp [FactoryState.turn, point, absent]
        exact ⟨_, _, _, _, took, rfl, ⟨absent, fits.1⟩, fun _ => ⟨rfl, rfl⟩,
          by simp [point, FactoryPoint.rank], by simp⟩
      · have took : s.turn ⟨thread, succeeds⟩ = some (s.moveTo thread (.leaving true)) := by
          simp [FactoryState.turn, point, absent]
        exact ⟨_, _, _, _, took, rfl, ⟨absent, fits.2 absent⟩, fun _ => ⟨rfl, rfl⟩,
          by simp [point, FactoryPoint.rank], by simp⟩
  | allocating =>
      rw [point] at fits
      cases succeeds with
      | true =>
          have took : s.turn ⟨thread, true⟩ = some (s.moveTo thread .constructing) := by
            simp [FactoryState.turn, point]
          exact ⟨_, _, _, _, took, rfl, fits, fun _ => ⟨rfl, rfl⟩,
            by simp [point, FactoryPoint.rank], by simp⟩
      | false =>
          have took : s.turn ⟨thread, false⟩ = some (s.moveTo thread (.leaving false)) := by
            simp [FactoryState.turn, point]
          exact ⟨_, _, _, _, took, rfl, fits, fun _ => ⟨rfl, rfl⟩,
            by simp [point, FactoryPoint.rank], by simp⟩
  | constructing =>
      rw [point] at fits
      cases succeeds with
      | false => exact absurd point (builds rfl).1
      | true =>
          by_cases absent : s.engine = none
          · have took : s.turn ⟨thread, true⟩ = some (s.moveTo thread .creatingEngine) := by
              simp [FactoryState.turn, point, absent]
            exact ⟨_, _, _, _, took, rfl, ⟨fits.1, absent⟩, fun _ => ⟨rfl, rfl⟩,
              by simp [point, FactoryPoint.rank], by simp⟩
          · have took : s.turn ⟨thread, true⟩ = some (s.moveTo thread .publishing) := by
              simp [FactoryState.turn, point, absent]
            exact ⟨_, _, _, _, took, rfl, ⟨fits.1, fits.2.resolve_left absent⟩,
              fun _ => ⟨rfl, rfl⟩, by simp [point, FactoryPoint.rank], by simp⟩
  | creatingEngine =>
      rw [point] at fits
      cases succeeds with
      | false => exact absurd point (builds rfl).2.1
      | true =>
          have took : s.turn ⟨thread, true⟩ =
              some ((s.setEngine (some .new)).moveTo thread .settingConnector) := by
            simp [FactoryState.turn, point]
          exact ⟨_, _, _, _, took, rfl, ⟨fits.1, rfl⟩, fun present => absurd fits.1 present,
            by simp [point, FactoryPoint.rank], by simp⟩
  | settingConnector =>
      rw [point] at fits
      cases succeeds with
      | false => exact absurd point (builds rfl).2.2
      | true =>
          have set : s.engine.map Engine.setConnectorInformation =
              some Engine.new.setConnectorInformation := by rw [fits.2, Option.map_some]
          have took : s.turn ⟨thread, true⟩ =
              some ((s.setEngine (s.engine.map Engine.setConnectorInformation)).moveTo thread
                .settingServerLog) := by
            simp [FactoryState.turn, point]
          exact ⟨_, _, _, _, took, rfl, ⟨fits.1, set⟩, fun present => absurd fits.1 present,
            by simp [point, FactoryPoint.rank], by simp⟩
  | settingServerLog =>
      rw [point] at fits
      have set : s.engine.map Engine.setServerLogCb = some .configured := by
        rw [fits.2]
        rfl
      have took : s.turn ⟨thread, succeeds⟩ =
          some ((s.setEngine (s.engine.map Engine.setServerLogCb)).moveTo thread
            .publishing) := by
        simp [FactoryState.turn, point]
      exact ⟨_, _, _, _, took, rfl, ⟨fits.1, set⟩, fun present => absurd fits.1 present,
        by simp [point, FactoryPoint.rank], by simp⟩
  | publishing =>
      rw [point] at fits
      have took : s.turn ⟨thread, succeeds⟩ = some (s.publish.moveTo thread (.leaving true)) := by
        simp [FactoryState.turn, point]
      exact ⟨_, _, _, _, took, rfl, ⟨by simp, fits.2⟩, fun present => absurd fits.1 present,
        by simp [point, FactoryPoint.rank], by simp⟩

theorem factory_turned (inv : s.Inv) (builds : s.Builds choice) (took : s.turn choice = some after) :
    FactoryTurned s choice.thread after := by
  have fits := inv.fits choice.thread
  have foreign (outside : (s.points choice.thread).inside = false) :
      s.owner ≠ some choice.thread := by
    intro owned
    have inside := (inv.owned choice.thread).mpr owned
    rw [outside] at inside
    cases inside
  cases point : s.points choice.thread with
  | outside =>
      rw [point] at foreign
      cases succeeds : choice.succeeds with
      | true =>
          simp only [FactoryState.turn, point, succeeds, if_true, Option.some.injEq] at took
          subst took
          exact .outer inv (foreign rfl) rfl trivial inv.contained inv.handed
      | false =>
          simp only [FactoryState.turn, point, succeeds, Bool.false_eq_true, if_false,
            Option.some.injEq] at took
          subst took
          exact .outer inv (foreign rfl) rfl trivial (not_mem_exit inv.contained)
            (handed_exit inv.handed nofun)
  | entering =>
      simp only [FactoryState.turn, point] at took
      exact entering_turned inv point took
  | leaving found =>
      have holds : s.owner = some choice.thread := by
        apply (inv.owned choice.thread).mp
        rw [point]
        rfl
      rw [point] at fits
      cases found with
      | true =>
          simp only [FactoryState.turn, point, if_true, Option.some.injEq] at took
          subst took
          exact .left inv holds rfl fits ⟨.inr fits.2, fun _ => fits.2⟩ inv.contained inv.handed
      | false =>
          simp only [FactoryState.turn, point, Bool.false_eq_true, if_false,
            Option.some.injEq] at took
          subst took
          exact .left inv holds rfl trivial ⟨fits.2, fun present => absurd fits.1 present⟩
            (not_mem_exit inv.contained) (handed_exit inv.handed nofun)
  | handing =>
      rw [point] at fits foreign
      simp only [FactoryState.turn, point, Option.some.injEq] at took
      subst took
      exact .outer inv (foreign rfl) rfl trivial (not_mem_exit inv.contained)
        (handed_exit inv.handed fun module same => ⟨same, fits.2⟩)
  | _ =>
      have inside : (s.points choice.thread).inside = true := by
        rw [point]
        rfl
      obtain ⟨_, _, _, _, inner⟩ := innerTurn_of_inside choice fits inside (by simp [point]) builds
      rw [inner.took, Option.some.injEq] at took
      subst took
      exact .inner inv ((inv.owned _).mp inside) inner.inside inner.fits inner.kept

theorem factory_inv_initial (start : factorySystem.initial s) : s.Inv := by
  obtain ⟨free, -, absent, unmade, silent, outside⟩ := start
  refine ⟨?_, ?_, ?_, ?_, ?_, ?_⟩
  · simp [silent]
  · intro thread
    simp [outside thread, free, FactoryPoint.inside]
  · exact fun owned => absurd free owned
  · intro thread
    rw [outside thread]
    trivial
  · exact fun _ => ⟨.inl unmade, fun present => absurd absent present⟩
  · intro hr module member
    rw [silent] at member
    cases member

theorem FactoryPoint.Fits.of_outside {point : FactoryPoint} {pModule other : Option Nat}
    {engine next : Option Engine} (fits : point.Fits pModule engine)
    (outside : point.inside = false)
    (kept : pModule ≠ none → other = pModule ∧ next = engine) : point.Fits other next := by
  cases point with
  | outside => trivial
  | entering => trivial
  | handing =>
      obtain ⟨sameModule, sameEngine⟩ := kept fits.1
      rw [sameModule, sameEngine]
      exact fits
  | _ => cases outside

theorem factory_inv_step (inv : s.Inv) (builds : s.Builds choice)
    (step : FactoryStep s choice after) : after.Inv := by
  cases step with
  | turn took =>
      have turned := factory_turned inv builds took
      refine ⟨turned.contained, ?_, turned.depth, ?_, turned.resting, turned.handed⟩
      · intro other
        by_cases same : other = choice.thread
        · subst same
          exact turned.owned
        · rw [turned.others other same, inv.owned other]
          rcases turned.owner with kept | ⟨before, now⟩ | ⟨before, now⟩
          · rw [kept]
          · simp [before, now, Ne.symm same]
          · simp [before, now, Ne.symm same]
      · intro other
        by_cases same : other = choice.thread
        · subst same
          exact turned.fits
        · rw [turned.others other same]
          cases inside : (s.points other).inside with
          | false =>
              exact (inv.fits other).of_outside inside fun present => turned.kept (.inl present)
          | true =>
              have owner := (inv.owned other).mp inside
              have foreign : s.owner ≠ some choice.thread := by
                rw [owner]
                exact fun holds => same (Option.some.inj holds)
              obtain ⟨sameModule, sameEngine⟩ := turned.kept (.inr foreign)
              rw [sameModule, sameEngine]
              exact inv.fits other

end Steps

/-! ## A call that gets what it asks for -/

section Success

variable {s after : FactoryState} {thread : Nat}

theorem builds_of_succeeds : s.Builds ⟨thread, true⟩ := nofun

theorem moved_advances {moved : FactoryState} {before point : FactoryPoint}
    (took : s.turn ⟨thread, true⟩ = some (moved.moveTo thread point))
    (same : moved.history = s.history) (unfailed : point ≠ .leaving false)
    (nearer : point.rank < before.rank) :
    ∃ after, s.turn ⟨thread, true⟩ = some after ∧ after.history = s.history ∧
      after.points thread ≠ .leaving false ∧ (after.points thread).rank < before.rank := by
  have moves : (moved.moveTo thread point).points thread = point := Function.update_self ..
  exact ⟨_, took, same, by rwa [moves], by rwa [moves]⟩

theorem turn_advances (inv : s.Inv) (unfailed : s.points thread ≠ .leaving false)
    (unfinished : s.points thread ≠ .handing)
    (free : (s.points thread).inside = false → s.owner = none) :
    ∃ after, s.turn ⟨thread, true⟩ = some after ∧ after.history = s.history ∧
      after.points thread ≠ .leaving false ∧
      (after.points thread).rank < (s.points thread).rank := by
  have fits := inv.fits thread
  cases point : s.points thread with
  | outside =>
      have took : s.turn ⟨thread, true⟩ = some (s.moveTo thread .entering) := by
        simp [FactoryState.turn, point]
      exact moved_advances took rfl nofun (by decide)
  | entering =>
      rw [point] at free
      have took : s.turn ⟨thread, true⟩ =
          some ({ s with owner := some thread, depth := 1 }.moveTo thread .testing) := by
        simp [FactoryState.turn, point, FactoryState.enter, free rfl]
      exact moved_advances took rfl nofun (by decide)
  | leaving found =>
      cases found with
      | true =>
          have took : s.turn ⟨thread, true⟩ = some (s.leave.moveTo thread .handing) := by
            simp [FactoryState.turn, point]
          exact moved_advances took rfl nofun (by decide)
      | false => exact absurd point unfailed
  | handing => exact absurd point unfinished
  | _ =>
      have inside : (s.points thread).inside = true := by
        rw [point]
        rfl
      obtain ⟨_, _, _, _, inner⟩ :=
        innerTurn_of_inside ⟨thread, true⟩ fits inside (by simp [point]) builds_of_succeeds
      rw [← point]
      exact moved_advances inner.took rfl (inner.succeeded rfl) inner.nearer

theorem advanced (inv : s.Inv) (took : s.turn ⟨thread, true⟩ = some after) :
    after.Inv ∧ FactoryTurned s thread after :=
  ⟨factory_inv_step inv builds_of_succeeds (.turn took),
    factory_turned inv builds_of_succeeds took⟩

theorem succeeds_of_entered (bound : Nat) : ∀ s : FactoryState, s.Inv →
    (s.points thread).rank < bound → s.points thread ≠ .leaving false →
    ((s.points thread).inside = false → s.points thread ≠ .handing → s.owner = none) →
    s.Succeeds thread := by
  induction bound with
  | zero => exact fun _ _ near => absurd near (Nat.not_lt_zero _)
  | succ bound ih =>
      intro s inv near unfailed free
      by_cases handing : s.points thread = .handing
      · have fits := inv.fits thread
        rw [handing] at fits
        obtain ⟨module, given⟩ := Option.ne_none_iff_exists'.mp fits.1
        have took : s.turn ⟨thread, true⟩ =
            some (s.exit thread (.returned .sOk (some module))) := by
          simp [FactoryState.turn, handing, given]
        exact .ended took rfl fits.2
      · obtain ⟨after, took, same, kept, nearer⟩ :=
          turn_advances inv unfailed handing fun outside => free outside handing
        obtain ⟨invAfter, turned⟩ := advanced inv took
        refine .step took same (ih after invAfter (by omega) kept ?_)
        intro outside _
        -- A thread outside the section does not own it, and it did not before the step either.
        have unowned : after.owner ≠ some thread := by
          intro owned
          rw [(invAfter.owned thread).mpr owned] at outside
          cases outside
        rcases turned.owner with same | ⟨_, left⟩ | ⟨_, owned⟩
        · rw [same]
          apply free _ handing
          cases inside : (s.points thread).inside with
          | false => rfl
          | true => exact absurd (same.trans ((inv.owned thread).mp inside)) unowned
        · exact left
        · exact absurd owned unowned

/-- The thread in the section gets out of it, and the call that waits for it goes on. -/
theorem succeeds_of_outside (bound : Nat) : ∀ s : FactoryState, s.Inv →
    s.points thread = .outside →
    (∀ other, s.owner = some other → (s.points other).rank < bound) → s.Succeeds thread := by
  induction bound with
  | zero =>
      intro s inv outside near
      refine succeeds_of_entered 12 s inv (by simp [outside, FactoryPoint.rank])
        (by simp [outside]) fun _ _ => ?_
      exact Option.eq_none_iff_forall_ne_some.mpr fun other owns =>
        absurd (near other owns) (Nat.not_lt_zero _)
  | succ bound ih =>
      intro s inv outside near
      cases owner : s.owner with
      | none =>
          exact succeeds_of_entered 12 s inv (by simp [outside, FactoryPoint.rank])
            (by simp [outside]) fun _ _ => owner
      | some other =>
          have inside := (inv.owned other).mpr owner
          have different : other ≠ thread := by
            rintro rfl
            rw [outside] at inside
            cases inside
          -- Every step of the owner is out of the section or nearer to its end.
          have next : ∃ after, s.turn ⟨other, true⟩ = some after ∧
              ((after.points other).inside = true →
                (after.points other).rank < (s.points other).rank) := by
            by_cases failed : s.points other = .leaving false
            · have took : s.turn ⟨other, true⟩ = some (s.leave.exit other
                  (.returned (.fromWin32 errorNotEnoughMemory) none)) := by
                simp [FactoryState.turn, failed]
              refine ⟨_, took, fun inside => ?_⟩
              simp [FactoryState.exit, FactoryPoint.inside] at inside
            · have unfinished : s.points other ≠ .handing := by
                intro handing
                rw [handing] at inside
                cases inside
              obtain ⟨after, took, -, -, nearer⟩ := turn_advances inv failed unfinished fun outer => by
                rw [inside] at outer
                cases outer
              exact ⟨after, took, fun _ => nearer⟩
          obtain ⟨after, took, nearer⟩ := next
          obtain ⟨invAfter, turned⟩ := advanced inv took
          have still : after.points thread = .outside :=
            (turned.others thread (Ne.symm different)).trans outside
          refine .waits owner different took (ih after invAfter still ?_)
          intro holder holds
          have same : holder = other := by
            rcases turned.owner with kept | ⟨_, left⟩ | ⟨free, _⟩
            · rw [kept, owner] at holds
              exact (Option.some.inj holds).symm
            · rw [left] at holds
              cases holds
            · rw [owner] at free
              cases free
          subst same
          have closer := nearer ((invAfter.owned holder).mpr holds)
          have bounded := near holder owner
          omega

end Success

/-! ## Every run -/

theorem orderly_of_inv {s : FactoryState} (inv : s.Inv) : s.Orderly where
  contained := inv.contained
  free thread outside holds := by
    have inside := (inv.owned thread).mpr holds
    rw [outside] at inside
    cases inside
  retry thread outside :=
    succeeds_of_outside ((s.owner.elim 0 fun other => (s.points other).rank) + 1) s inv outside
      fun other owner => by simp [owner]
  handed := inv.handed

/-- While nothing throws, `GetHttpModule` makes one module with a configured engine. -/
theorem module_factory_orderly {s : FactoryState}
    (reached : factorySystem.Reaches FactoryState.Builds s) : s.Orderly := by
  have inv : s.Inv :=
    reached.invariant (fun _ start => factory_inv_initial start)
      fun _ _ _ inv builds step => factory_inv_step inv builds step
  exact orderly_of_inv inv

section Runs

private def newFactory : FactoryState where
  owner := none
  depth := 0
  pModule := none
  engine := none
  made := 0
  points := fun _ => .outside
  history := []

private def afterTurns (answers : List Bool) : Option FactoryState :=
  answers.foldlM (fun s succeeds => s.turn ⟨0, succeeds⟩) newFactory

private theorem newFactory_reaches (guard : FactoryState → FactoryChoice → Prop) :
    factorySystem.Reaches guard newFactory :=
  .start ⟨rfl, rfl, rfl, rfl, rfl, fun _ => rfl⟩

private theorem afterTurns_reaches {guard : FactoryState → FactoryChoice → Prop}
    {answers : List Bool}
    (guarded : ∀ s, ∀ succeeds ∈ answers, guard s ⟨0, succeeds⟩) {after : FactoryState}
    (ran : afterTurns answers = some after) : factorySystem.Reaches guard after := by
  suffices ∀ s : FactoryState, factorySystem.Reaches guard s →
      answers.foldlM (fun s succeeds => s.turn ⟨0, succeeds⟩) s = some after →
      factorySystem.Reaches guard after from this _ (newFactory_reaches guard) ran
  clear ran
  induction answers with
  | nil =>
      intro s reached ran
      cases ran
      exact reached
  | cons succeeds answers ih =>
      intro s reached ran
      simp only [List.foldlM_cons, Option.bind_eq_bind, Option.bind_eq_some_iff] at ran
      obtain ⟨next, took, rest⟩ := ran
      exact ih (fun s other member => guarded s other (.tail _ member)) next
        (reached.next (guarded s succeeds (.head _)) (.turn took)) rest

theorem module_factory_orderly_first : ∃ s : FactoryState,
    s.history = [.returned .sOk (some 0)] ∧ s.engine = some .configured ∧ s.Orderly := by
  obtain ⟨s, ran, ended, configured⟩ : ∃ s, afterTurns (List.replicate 11 true) = some s ∧
      s.history = [.returned .sOk (some 0)] ∧ s.engine = some .configured :=
    ⟨_, rfl, rfl, rfl⟩
  have reached : factorySystem.Reaches FactoryState.Builds s := by
    refine afterTurns_reaches (fun s succeeds member => ?_) ran
    cases List.eq_of_mem_replicate member
    exact builds_of_succeeds
  exact ⟨s, ended, configured, module_factory_orderly reached⟩

/-- `setConnectorInformation` throws in the first call and leaves it; the thread keeps the
section, and its next call hands out a module with the engine as it was left. -/
theorem module_factory_thrown : ∃ s : FactoryState, factorySystem.Reachable s ∧
    s.history = [.thrown, .returned .sOk (some 0)] ∧ s.points 0 = .outside ∧
      s.owner = some 0 ∧ s.engine = some .new ∧ ¬ s.Orderly := by
  obtain ⟨s, ran, ended, outside, owner, unset⟩ : ∃ s,
      afterTurns (List.replicate 6 true ++ false :: List.replicate 8 true) = some s ∧
        s.history = [.thrown, .returned .sOk (some 0)] ∧ s.points 0 = .outside ∧
        s.owner = some 0 ∧ s.engine = some .new :=
    ⟨_, rfl, rfl, rfl, rfl, rfl⟩
  refine ⟨s, afterTurns_reaches (fun _ _ _ => trivial) ran, ended, outside, owner, unset, ?_⟩
  intro orderly
  exact orderly.free 0 outside owner

end Runs

end ModSecurityIIS
