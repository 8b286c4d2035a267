import ModSecurityIIS.Imperative.Balance
import ModSecurityIIS.ModuleFactory

/-!
# The life of the module

`RegisterModule` makes the factory and hands it to IIS, the threads of the process take the
module from it, and `Terminate` ends both.
-/

set_option autoImplicit false

namespace ModSecurityIIS

open Imperative Transition

/-! ## Registering -/

inductive LifeEvent where
  | newFactory
  | deleteFactory
  | newModule
  | deleteModule
  | registerEventSource
  | deregisterEventSource
  deriving DecidableEq, Repr

def factories : Resource LifeEvent where
  opens event := event == .newFactory
  closes event := event == .deleteFactory

def modules : Resource LifeEvent where
  opens event := event == .newModule
  closes event := event == .deleteModule

def eventSources : Resource LifeEvent where
  opens event := event == .registerEventSource
  closes event := event == .deregisterEventSource

/-- What `RegisterModule` gets from its caller, the allocator and the server. -/
structure RegisterAnswers where
  argumentsValid : Bool
  allocated : Bool
  notifications : HResult
  beginPriority : HResult
  sendPriority : HResult
  eventSource : Bool

inductive LifeStage where
  | loading
  | serving
  | ended
  deriving DecidableEq, Repr

/-- `eventLog` tells whether `m_hEventLog` of the latest module is not null. -/
structure ModuleLife where
  stage : LifeStage
  factory : FactoryState
  eventLog : Bool
  trace : List LifeEvent

/-- What a step of `GetHttpModule` makes: the memory of the module with the event source that its
constructor opens first. A constructor that throws frees the memory and runs no destructor. -/
def FactoryState.makes (s : FactoryState) (choice : FactoryChoice) (opened : Bool) :
    List LifeEvent :=
  match s.points choice.thread with
  | .allocating =>
      if choice.succeeds then
        if opened then [.newModule, .registerEventSource] else [.newModule]
      else []
  | .constructing => if choice.succeeds then [] else [.deleteModule]
  | .creatingEngine => if choice.succeeds then [] else [.deleteModule]
  | .settingConnector => if choice.succeeds then [] else [.deleteModule]
  | _ => []

inductive LifeLabel where
  | registers (answers : RegisterAnswers)
  | turns (choice : FactoryChoice) (opened : Bool)
  | disposes
  | terminates

/-- Nothing that is called while the module is built throws. -/
def ModuleLife.Builds (s : ModuleLife) : LifeLabel → Prop
  | .turns choice _ => s.factory.Builds choice
  | _ => True

/-! ## What is held -/

def FactoryPoint.building : FactoryPoint → Bool
  | .constructing => true
  | .creatingEngine => true
  | .settingConnector => true
  | .settingServerLog => true
  | .publishing => true
  | _ => false

/-- There is a module, assigned to `m_pModule` or still under construction. -/
def FactoryState.built (s : FactoryState) : Bool :=
  s.pModule.isSome || s.owner.any fun owner => (s.points owner).building

section Turns

variable {s after : FactoryState} {choice : FactoryChoice}

end Turns

/-! ## Every run -/

/-- How many of each the trace holds open. -/
structure ModuleLife.Holds (s : ModuleLife) (factory module eventSource : Nat) : Prop where
  heldFactories : factories.held 0 s.trace = some factory
  heldModules : modules.held 0 s.trace = some module
  heldSources : eventSources.held 0 s.trace = some eventSource

inductive ModuleLife.Accounted (s : ModuleLife) : Prop where
  | loading : s.stage = .loading → factorySystem.initial s.factory → s.trace = [] → Accounted s
  | serving : s.stage = .serving → s.factory.Inv →
      s.Holds 1 s.factory.built.toNat (s.factory.built && s.eventLog).toNat → Accounted s
  | ended : s.stage = .ended → s.Holds 0 0 0 → Accounted s

theorem ModuleLife.Accounted.served {s : ModuleLife} (accounted : s.Accounted)
    (serving : s.stage = .serving) : s.factory.Inv ∧
      s.Holds 1 s.factory.built.toNat (s.factory.built && s.eventLog).toNat := by
  cases accounted with
  | loading stage => rw [serving] at stage; cases stage
  | serving _ inv holds => exact ⟨inv, holds⟩
  | ended stage => rw [serving] at stage; cases stage

theorem ModuleLife.Holds.grown {s after : ModuleLife} {factory module eventSource : Nat}
    {events : List LifeEvent} {factory' module' eventSource' : Nat}
    (holds : s.Holds factory module eventSource) (trace : after.trace = s.trace ++ events)
    (first : factories.held factory events = some factory')
    (second : modules.held module events = some module')
    (third : eventSources.held eventSource events = some eventSource') :
    after.Holds factory' module' eventSource' := by
  constructor
  · rw [trace, Resource.held_append, holds.heldFactories]
    exact first
  · rw [trace, Resource.held_append, holds.heldModules]
    exact second
  · rw [trace, Resource.held_append, holds.heldSources]
    exact third

/-- The steps of one thread, each of which gets what it asks for. -/
def ModuleLife.turned (s : ModuleLife) : Nat → Option ModuleLife
  | 0 => some s
  | turns + 1 => do
      let after ← s.factory.turn ⟨0, true⟩
      ModuleLife.turned
        { s with
          factory := after
          eventLog := if s.factory.points 0 = .allocating then true else s.eventLog
          trace := s.trace ++ s.factory.makes ⟨0, true⟩ true } turns

def ModuleLife.loaded : ModuleLife where
  stage := .loading
  factory := ⟨none, 0, none, none, 0, fun _ => .outside, []⟩
  eventLog := false
  trace := []

end ModSecurityIIS
