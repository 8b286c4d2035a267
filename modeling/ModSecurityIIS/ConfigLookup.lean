import ModSecurityIIS.Imperative.Transition
import ModSecurityIIS.PropertyResources

/-!
# Concurrent configuration lookups

Requests on one metadata path share its container. Each looks for the stored context, and
makes, initialises and stores one where there is none: the container takes the first, and
the others release theirs and use it.
-/

set_option autoImplicit false

namespace ModSecurityIIS

open Imperative Program Transition

/-! ## The calls -/

/-- A `MODSECURITY_STORED_CONTEXT` object, and how often it was deleted. -/
structure ConfigObject where
  config : ModsecurityStoredContext
  frees : Nat
  deriving DecidableEq, Repr

/-- Where a call stands in `GetConfig`: before the step that the point is named for. Objects
are named by the calls that make them. -/
inductive LookupPoint where
  | check
  /-- Nothing was stored; before the allocation. -/
  | create
  | initializing
  | store
  /-- A context was assigned already; before the second `GetModuleContext`. -/
  | reload
  | returned (hr : HResult) (object : Option Nat)
  deriving DecidableEq, Repr

structure Lookup where
  env : Env
  context : HttpContext
  world : World
  point : LookupPoint
  object : Option ConfigObject

def Lookup.delete (call : Lookup) : Lookup :=
  { call with object := call.object.map fun object => { object with frees := object.frees + 1 } }

def World.constructed (w : World) : World :=
  { w.advance with comLog := w.advance.comLog ++ [.constructContext] }

/-- `SetModuleContext` on the metadata container: it refuses a second context, and reports
`ERROR_ALREADY_ASSIGNED` only then. -/
def containerAnswer (stored : Option Nat) (answer : HResult) : HResult :=
  match stored with
  | some _ => if answer.failed then answer else .fromWin32 errorAlreadyAssigned
  | none => if answer = .fromWin32 errorAlreadyAssigned then .sOk else answer

/-- One step of the call that makes the object `index`, and what the container then holds. -/
def Lookup.turn (index : Nat) (stored : Option Nat) (call : Lookup) : Option (Lookup × Option Nat) :=
  match call.point with
  | .check =>
      if call.context.metadataContainerPresent then
        match stored with
        | some object => some ({ call with point := .returned .sOk (some object) }, stored)
        | none => some ({ call with point := .create }, stored)
      else some ({ call with point := .returned .eUnexpected none }, stored)
  | .create =>
      if call.env.succeeds call.world.tick then
        some
          ({ call with
              point := .initializing
              world := call.world.constructed
              object := some { config := .new, frees := 0 } }, stored)
      else
        some
          ({ call with point := .returned .eOutOfMemory none, world := call.world.advance }, stored)
  | .initializing =>
      match initializeConfig call.env call.context call.world with
      | .returned result after =>
          if result.hr.failed || result.exception then
            some ({ call.delete with point := .returned .eUnexpected none, world := after }, stored)
          else
            some
              ({ call with
                  point := .store
                  world := after
                  object := some { config := result.context, frees := 0 } }, stored)
      | _ => none
  | .store =>
      let hr := containerAnswer stored (call.env.hresult call.world.tick)
      if hr.failed then
        if hr = .fromWin32 errorAlreadyAssigned then
          some ({ call.delete with point := .reload, world := call.world.advance }, stored)
        else
          some ({ call.delete with point := .returned hr none, world := call.world.advance }, stored)
      else
        some
          ({ call with point := .returned hr (some index), world := call.world.advance }, some index)
  | .reload => some ({ call with point := .returned .sOk stored }, stored)
  | .returned _ _ => none

/-! ## The system -/

/-- `writers` are the calls that have changed the container, in order. -/
structure LookupState where
  stored : Option Nat
  calls : Nat → Lookup
  writers : List Nat

inductive LookupStep : LookupState → Nat → LookupState → Prop where
  | turn {s : LookupState} {index : Nat} {call : Lookup} {stored : Option Nat} :
      (s.calls index).turn index s.stored = some (call, stored) →
      LookupStep s index
        { stored
          calls := Function.update s.calls index call
          writers := if stored = s.stored then s.writers else s.writers ++ [index] }

/-- Any number of calls, each with its own answers, on a container that is empty. IIS does
not remove what they store. -/
def lookupSystem : System LookupState Nat where
  initial s := s.stored = none ∧ s.writers = [] ∧
    ∀ index, (s.calls index).point = .check ∧ (s.calls index).object = none
  step := LookupStep

/-! ## One call alone -/

inductive LookupAlone (index : Nat) : Lookup → Option Nat → Lookup → Option Nat → Prop where
  | stay (call : Lookup) (stored : Option Nat) : LookupAlone index call stored call stored
  | step {call next last : Lookup} {stored after final : Option Nat} :
      call.turn index stored = some (next, after) → LookupAlone index next after last final →
      LookupAlone index call stored last final

/-- The call returns what `GetConfig` does. -/
def Lookup.Realizes (index : Nat) (stored : Option Nat) (call : Lookup) (result : ConfigResult) :
    Prop :=
  ∃ last final object, LookupAlone index call stored last final ∧
    last.point = .returned result.hr object ∧
    result.config = object.bind fun _ => last.object.map ConfigObject.config

theorem Lookup.Realizes.step {index : Nat} {stored after : Option Nat} {call next : Lookup}
    {result : ConfigResult} (took : call.turn index stored = some (next, after))
    (rest : next.Realizes index after result) : call.Realizes index stored result := by
  obtain ⟨last, final, object, alone, point, config⟩ := rest
  exact ⟨last, final, object, .step took alone, point, config⟩

theorem realizes_failed {index : Nat} {stored : Option Nat} {call : Lookup} {hr : HResult}
    (point : call.point = .returned hr none) : call.Realizes index stored { hr, config := none } :=
  ⟨call, stored, none, .stay call stored, point, rfl⟩

theorem realizes_succeeded {index holder : Nat} {stored : Option Nat} {call : Lookup} {hr : HResult}
    {object : ConfigObject} (point : call.point = .returned hr (some holder))
    (held : call.object = some object) :
    call.Realizes index stored { hr, config := some object.config } :=
  ⟨call, stored, some holder, .stay call stored, point, by rw [held]; rfl⟩

theorem realizes_storeConfig {index : Nat} {call : Lookup} {config : ModsecurityStoredContext}
    (point : call.point = .store) (held : call.object = some { config, frees := 0 })
    (fair : call.env.hresult call.world.tick ≠ .fromWin32 errorAlreadyAssigned) :
    ∃ result after, storeConfig call.env config call.world = .returned result after ∧
      call.Realizes index none result := by
  have answer : containerAnswer none (call.env.hresult call.world.tick) =
      call.env.hresult call.world.tick := by
    unfold containerAnswer
    exact if_neg fair
  rw [storeConfig, bind_returned (consult_apply _ _)]
  cases failed : (call.env.hresult call.world.tick).failed with
  | true =>
      have took : call.turn index none =
          some ({ call.delete with
            point := .returned (call.env.hresult call.world.tick) none
            world := call.world.advance }, none) := by
        simp only [Lookup.turn, point, answer, failed, if_true, if_neg fair]
      simp only [if_true, bind_apply, recordCom_apply, if_neg fair]
      exact ⟨_, _, rfl, .step took (realizes_failed rfl)⟩
  | false =>
      have took : call.turn index none =
          some ({ call with
            point := .returned (call.env.hresult call.world.tick) (some index)
            world := call.world.advance }, some index) := by
        simp only [Lookup.turn, point, answer, failed, Bool.false_eq_true, if_false]
      simp only [Bool.false_eq_true, if_false, bind_apply]
      refine ⟨_, _, rfl, .step took ?_⟩
      exact @realizes_succeeded index index (some index) _ _ { config, frees := 0 } rfl held

/-- A call that finds the container taken hands out the context of the other call. -/
theorem realizes_raced {index holder : Nat} {call : Lookup} {config : ModsecurityStoredContext}
    (point : call.point = .store)
    (assigned : call.env.hresult call.world.tick = .fromWin32 errorAlreadyAssigned) :
    ∃ result after last, storeConfig call.env config call.world = .returned result after ∧
      result.config = call.env.racingConfiguration (call.world.tick + 1) ∧
      LookupAlone index call (some holder) last (some holder) ∧
      last.point = .returned result.hr (some holder) := by
  have failed : (HResult.fromWin32 errorAlreadyAssigned).failed = true := rfl
  have answer : containerAnswer (some holder) (call.env.hresult call.world.tick) =
      .fromWin32 errorAlreadyAssigned := by
    simp [containerAnswer, assigned, failed]
  have took : call.turn index (some holder) =
      some ({ call.delete with point := .reload, world := call.world.advance }, some holder) := by
    simp only [Lookup.turn, point, answer, failed, if_true]
  rw [storeConfig, bind_returned (consult_apply _ _), assigned]
  simp only [failed, if_true, bind_apply, recordCom_apply]
  exact ⟨_, _, _, rfl, rfl, .step took (.step rfl (.stay _ _)), rfl⟩

/-- A call alone on an empty container does what `GetConfig` does. -/
theorem realizes_getConfig {index : Nat} {call : Lookup} (point : call.point = .check)
    (empty : call.world.storedConfiguration = none)
    (fair : ∀ tick, call.env.hresult tick ≠ .fromWin32 errorAlreadyAssigned) :
    ∃ result after, getConfig call.env call.context call.world = .returned result after ∧
      call.Realizes index none result := by
  rw [getConfig, bind_returned (get_apply _), empty]
  cases present : call.context.metadataContainerPresent with
  | false =>
      have took : call.turn index none =
          some ({ call with point := .returned .eUnexpected none }, none) := by
        simp [Lookup.turn, point, present]
      exact ⟨_, _, rfl, .step took (realizes_failed rfl)⟩
  | true =>
      have looked : call.turn index none = some ({ call with point := .create }, none) := by
        simp [Lookup.turn, point, present]
      simp only [if_true]
      rw [bind_returned (consult_apply _ _)]
      cases allocated : call.env.succeeds call.world.tick with
      | false =>
          have took : Lookup.turn index none { call with point := .create } =
              some ({ call with
                point := .returned .eOutOfMemory none
                world := call.world.advance }, none) := by
            simp [Lookup.turn, allocated]
          exact ⟨_, _, rfl, .step looked (.step took (realizes_failed rfl))⟩
      | true =>
          let made : Lookup :=
            { call with
              point := .initializing
              world := call.world.constructed
              object := some { config := .new, frees := 0 } }
          have took : Lookup.turn index none { call with point := .create } = some (made, none) := by
            simp [Lookup.turn, allocated, made]
          obtain ⟨result, after, events, ran, -, -⟩ :=
            initializeConfig_settled call.env call.context call.world.constructed
          have constructs : recordCom .constructContext call.world.advance =
              .returned () call.world.constructed := rfl
          simp only [if_true]
          rw [bind_returned constructs, bind_returned ran]
          by_cases stops : (result.hr.failed || result.exception) = true
          · have failed : made.turn index none =
                some ({ made.delete with point := .returned .eUnexpected none, world := after },
                  none) := by
              simp only [Lookup.turn, made, ran, stops, if_true]
            rw [if_pos stops]
            cases result.exception <;>
              exact ⟨_, _, rfl, .step looked (.step took (.step failed (realizes_failed rfl)))⟩
          · have filled : made.turn index none =
                some ({ made with
                  point := .store
                  world := after
                  object := some { config := result.context, frees := 0 } }, none) := by
              simp only [Lookup.turn, made, ran, stops, Bool.false_eq_true, if_false]
            rw [if_neg stops]
            obtain ⟨stored, final, answered, realized⟩ := @realizes_storeConfig index
              { made with
                point := .store
                world := after
                object := some { config := result.context, frees := 0 } }
              result.context rfl rfl (fair _)
            exact ⟨stored, final, answered, .step looked (.step took (.step filled realized))⟩

/-! ## What the calls agree on -/

structure LookupState.Agrees (s : LookupState) : Prop where
  succeeds : ∀ index hr object, (s.calls index).point = .returned hr object →
    hr.failed = false → object ≠ none ∧ object = s.stored
  complete : ∀ holder, s.stored = some holder → ∃ object,
    (s.calls holder).object = some object ∧ object.frees = 0 ∧
      object.config.Complete (s.calls holder).context.site
  fails : ∀ index hr object, (s.calls index).point = .returned hr object →
    hr.failed = true → object = none ∧ index ∉ s.writers ∧
      ∀ made, (s.calls index).object = some made → made.frees = 1
  once : s.writers = s.stored.toList

/-! ## The invariant -/

/-- What a call knows of its object and of the container. -/
def Lookup.Fits (index : Nat) (stored : Option Nat) (call : Lookup) : Prop :=
  match call.point with
  | .check => call.object = none ∧ stored ≠ some index
  | .create => call.object = none ∧ stored ≠ some index
  | .initializing => (∃ object, call.object = some object ∧ object.frees = 0) ∧ stored ≠ some index
  | .store =>
      (∃ object, call.object = some object ∧ object.frees = 0 ∧
        object.config.Complete call.context.site) ∧ stored ≠ some index
  | .reload =>
      (∃ object, call.object = some object ∧ object.frees = 1) ∧ stored ≠ some index ∧ stored ≠ none
  | .returned hr object =>
      if hr.failed then
        object = none ∧ stored ≠ some index ∧ ∀ made, call.object = some made → made.frees = 1
      else object ≠ none ∧ object = stored

structure LookupState.Inv (s : LookupState) : Prop where
  fits : ∀ index, (s.calls index).Fits index s.stored
  complete : ∀ holder, s.stored = some holder → ∃ object,
    (s.calls holder).object = some object ∧ object.frees = 0 ∧
      object.config.Complete (s.calls holder).context.site
  holder : ∀ holder, s.stored = some holder →
    ∃ hr, (s.calls holder).point = .returned hr (some holder) ∧ hr.failed = false
  once : s.writers = s.stored.toList

/-- What a step does: the container is as before, or it was empty and takes the object of
the call. -/
structure Turned (index : Nat) (stored : Option Nat) (call next : Lookup) (after : Option Nat) :
    Prop where
  fits : next.Fits index after
  kept : after = stored ∨ (stored = none ∧ after = some index ∧
    (∃ object, next.object = some object ∧ object.frees = 0 ∧
      object.config.Complete next.context.site) ∧
    ∃ hr, next.point = .returned hr (some index) ∧ hr.failed = false)

section Steps

variable {index : Nat} {stored after : Option Nat} {call next : Lookup}

theorem containerAnswer_stored (holder : Nat) (answer : HResult) :
    (containerAnswer (some holder) answer).failed = true := by
  unfold containerAnswer
  dsimp only
  split
  · assumption
  · rfl

theorem containerAnswer_empty (answer : HResult) :
    containerAnswer none answer ≠ .fromWin32 errorAlreadyAssigned := by
  unfold containerAnswer
  dsimp only
  split
  · decide
  · assumption

theorem check_turned (point : call.point = .check) (fits : call.Fits index stored)
    (took : call.turn index stored = some (next, after)) :
    Turned index stored call next after := by
  simp only [Lookup.Fits, point] at fits
  obtain ⟨unmade, other⟩ := fits
  simp only [Lookup.turn, point] at took
  split at took
  · cases stored with
    | some holder =>
        cases took
        exact ⟨⟨by simp, rfl⟩, .inl rfl⟩
    | none =>
        cases took
        exact ⟨⟨unmade, other⟩, .inl rfl⟩
  · cases took
    refine ⟨⟨rfl, other, ?_⟩, .inl rfl⟩
    intro made found
    change call.object = some made at found
    rw [unmade] at found
    cases found

theorem create_turned (point : call.point = .create) (fits : call.Fits index stored)
    (took : call.turn index stored = some (next, after)) :
    Turned index stored call next after := by
  simp only [Lookup.Fits, point] at fits
  obtain ⟨unmade, other⟩ := fits
  simp only [Lookup.turn, point] at took
  split at took
  · cases took
    exact ⟨⟨⟨_, rfl, rfl⟩, other⟩, .inl rfl⟩
  · cases took
    refine ⟨⟨rfl, other, ?_⟩, .inl rfl⟩
    intro made found
    change call.object = some made at found
    rw [unmade] at found
    cases found

theorem deleted_once {object : ConfigObject} (held : call.object = some object)
    (live : object.frees = 0) : ∀ made, call.delete.object = some made → made.frees = 1 := by
  intro made found
  simp only [Lookup.delete, held, Option.map_some] at found
  cases found
  simp [live]

theorem initializing_turned (point : call.point = .initializing) (fits : call.Fits index stored)
    (took : call.turn index stored = some (next, after)) :
    Turned index stored call next after := by
  simp only [Lookup.Fits, point] at fits
  obtain ⟨⟨object, held, live⟩, other⟩ := fits
  simp only [Lookup.turn, point] at took
  cases ran : initializeConfig call.env call.context call.world with
  | thrown final => rw [ran] at took; cases took
  | halted reason final => rw [ran] at took; cases took
  | returned result final =>
      have completes := (initializeConfig_completes call.env call.context).returned trivial ran
      rw [ran] at took
      dsimp only at took
      split at took
      · cases took
        exact ⟨⟨rfl, other, deleted_once held live⟩, .inl rfl⟩
      · next goes =>
          simp only [Bool.or_eq_true, not_or, Bool.not_eq_true] at goes
          cases took
          exact ⟨⟨⟨_, rfl, rfl, completes goes.1 goes.2⟩, other⟩, .inl rfl⟩

theorem store_turned (point : call.point = .store) (fits : call.Fits index stored)
    (took : call.turn index stored = some (next, after)) :
    Turned index stored call next after := by
  simp only [Lookup.Fits, point] at fits
  obtain ⟨⟨object, held, live, complete⟩, other⟩ := fits
  simp only [Lookup.turn, point] at took
  split at took
  · next failed =>
      split at took
      · next assigned =>
          cases took
          have taken : stored ≠ none := by
            rintro rfl
            exact containerAnswer_empty _ assigned
          refine ⟨⟨⟨{ object with frees := object.frees + 1 }, ?_, ?_⟩, other, taken⟩, .inl rfl⟩
          · simp [Lookup.delete, held]
          · simp [live]
      · cases took
        refine ⟨?_, .inl rfl⟩
        simp only [Lookup.Fits, failed, if_true]
        exact ⟨trivial, other, deleted_once held live⟩
  · next succeeded =>
      cases stored with
      | some holder => exact absurd (containerAnswer_stored holder _) succeeded
      | none =>
          cases took
          have clear := Bool.eq_false_iff.mpr succeeded
          refine ⟨?_, .inr ⟨rfl, rfl, ⟨object, held, live, complete⟩, _, rfl, clear⟩⟩
          simp [Lookup.Fits, clear]

theorem reload_turned (point : call.point = .reload) (fits : call.Fits index stored)
    (took : call.turn index stored = some (next, after)) :
    Turned index stored call next after := by
  simp only [Lookup.Fits, point] at fits
  obtain ⟨-, -, taken⟩ := fits
  simp only [Lookup.turn, point] at took
  cases took
  exact ⟨⟨taken, rfl⟩, .inl rfl⟩

theorem turn_turned (fits : call.Fits index stored)
    (took : call.turn index stored = some (next, after)) :
    Turned index stored call next after := by
  cases point : call.point with
  | check => exact check_turned point fits took
  | create => exact create_turned point fits took
  | initializing => exact initializing_turned point fits took
  | store => exact store_turned point fits took
  | reload => exact reload_turned point fits took
  | returned hr object =>
      simp only [Lookup.turn, point] at took
      cases took

theorem Lookup.Fits.filled {other : Nat} (fits : call.Fits other none) (different : index ≠ other) :
    call.Fits other (some index) := by
  have another : some index ≠ some other := fun same => different (Option.some.inj same)
  cases point : call.point with
  | returned hr object =>
      simp only [Lookup.Fits, point] at fits ⊢
      split at fits
      · next failed =>
          rw [if_pos failed]
          exact ⟨fits.1, another, fits.2.2⟩
      · exact absurd fits.2 fits.1
  | reload =>
      simp only [Lookup.Fits, point] at fits
      exact absurd rfl fits.2.2
  | _ =>
      simp only [Lookup.Fits, point] at fits ⊢
      exact ⟨fits.1, another⟩

end Steps

theorem lookup_inv_initial {s : LookupState} (start : lookupSystem.initial s) : s.Inv := by
  obtain ⟨empty, unwritten, fresh⟩ := start
  refine ⟨?_, ?_, ?_, ?_⟩
  · intro index
    simp only [Lookup.Fits, (fresh index).1]
    exact ⟨(fresh index).2, by simp [empty]⟩
  · intro holder found
    rw [empty] at found
    cases found
  · intro holder found
    rw [empty] at found
    cases found
  · simp [empty, unwritten]

theorem lookup_inv_step {s after : LookupState} {index : Nat} (inv : s.Inv)
    (step : LookupStep s index after) : after.Inv := by
  cases step with
  | @turn call stored took =>
      have turned := turn_turned (inv.fits index) took
      rcases turned.kept with rfl | ⟨empty, rfl, complete, holds⟩
      · -- the container is as before, and the call does not hold it or has returned
        have unmoved (holder : Nat) (found : s.stored = some holder) : holder ≠ index := by
          rintro rfl
          obtain ⟨hr, point, -⟩ := inv.holder holder found
          simp only [Lookup.turn, point] at took
          cases took
        refine ⟨?_, ?_, ?_, ?_⟩
        · intro other
          by_cases same : other = index
          · subst same
            simpa using turned.fits
          · simpa [Function.update_of_ne same] using inv.fits other
        · intro holder found
          have other := unmoved holder found
          simpa [Function.update_of_ne other] using inv.complete holder found
        · intro holder found
          have other := unmoved holder found
          simpa [Function.update_of_ne other] using inv.holder holder found
        · simpa using inv.once
      · refine ⟨?_, ?_, ?_, ?_⟩
        · intro other
          by_cases same : other = index
          · subst same
            simpa using turned.fits
          · have fits := inv.fits other
            rw [empty] at fits
            simpa [Function.update_of_ne same] using fits.filled (Ne.symm same)
        · rintro holder ⟨⟩
          simpa using complete
        · rintro holder ⟨⟩
          simpa using holds
        · simp [inv.once, empty]

/-- Every call that succeeds hands out the one complete context that is stored, and every
call that fails has changed nothing and deleted what it made. -/
theorem lookups_agree {s : LookupState} (reached : lookupSystem.Reachable s) : s.Agrees := by
  have inv : s.Inv :=
    reached.invariant (fun _ start => lookup_inv_initial start)
      fun _ _ _ inv step => lookup_inv_step inv step
  refine ⟨?_, inv.complete, ?_, inv.once⟩
  · intro index hr object point succeeded
    have fits := inv.fits index
    simp only [Lookup.Fits, point, succeeded, Bool.false_eq_true, if_false] at fits
    exact fits
  · intro index hr object point failed
    have fits := inv.fits index
    simp only [Lookup.Fits, point, failed, if_true] at fits
    refine ⟨fits.1, ?_, fits.2.2⟩
    rw [inv.once]
    simpa using fits.2.1

/-- Two calls find the container empty: the first stores its context, and the second deletes
its own and hands out the first. -/
theorem lookups_agree_raced : ∃ s : LookupState,
    s.stored = some 0 ∧ (s.calls 1).point = .returned .sOk (some 0) ∧
      (s.calls 1).object.map ConfigObject.frees = some 1 ∧ s.Agrees := by
  have start : lookupSystem.Reachable
      { stored := none
        calls := fun _ =>
          { env := .calm
            context := .plain
            world := World.arrived [] []
            point := .check
            object := none }
        writers := [] } := .start ⟨rfl, rfl, fun _ => ⟨rfl, rfl⟩⟩
  have looked := start.step (@LookupStep.turn _ 0 _ _ rfl)
  have lookedToo := looked.step (@LookupStep.turn _ 1 _ _ rfl)
  have created := lookedToo.step (@LookupStep.turn _ 0 _ _ rfl)
  have createdToo := created.step (@LookupStep.turn _ 1 _ _ rfl)
  have filled := createdToo.step (@LookupStep.turn _ 0 _ _ rfl)
  have filledToo := filled.step (@LookupStep.turn _ 1 _ _ rfl)
  have stored := filledToo.step (@LookupStep.turn _ 0 _ _ rfl)
  have refused := stored.step (@LookupStep.turn _ 1 _ _ rfl)
  have reloaded := refused.step (@LookupStep.turn _ 1 _ _ rfl)
  exact ⟨_, rfl, rfl, rfl, lookups_agree reloaded⟩

end ModSecurityIIS
