import Mathlib.Algebra.GroupWithZero.Nat
import Mathlib.Algebra.Order.Group.Nat
import ModSecurityIIS.ConfigurationProperties
import ModSecurityIIS.Imperative.Balance

/-!
# The resources of a property read

`Initialize` and its two getters release what they obtain on every path. The label that
all exits of a getter share clears the VARIANT also where it was never initialised: when an
argument is missing, and when the property is not found.
-/

set_option autoImplicit false

namespace ModSecurityIIS

open Imperative Program

/-- What the lookup obtains. -/
inductive ComResource where
  | variant (property : SectionProperty)
  | propertyPointer (property : SectionProperty)
  | exceptionPointer
  | sectionElement
  | urlString

def ComResource.toResource : ComResource → Resource ComEvent
  | .variant property =>
      { opens := (· == .variantInit property), closes := (· == .variantClear property) }
  | .propertyPointer property =>
      { opens := (· == .obtainProperty property), closes := (· == .releaseProperty property) }
  | .exceptionPointer =>
      { opens := fun
          | .obtainException _ => true
          | _ => false
        closes := (· == .releaseException) }
  | .sectionElement => { opens := (· == .obtainSection), closes := (· == .releaseSection) }
  | .urlString => { opens := (· == .sysAllocString), closes := (· == .sysFreeString) }

def ComResource.handed (exception : Bool) : ComResource → Nat
  | .exceptionPointer => exception.toNat
  | _ => 0

/-- Every resource is closed only while it is open, and what stays open is handed on. -/
def Settled (exception : Bool) (events : List ComEvent) : Prop :=
  ∀ resource : ComResource, resource.toResource.held 0 events = some (resource.handed exception)

/-- The call returns, and what it has obtained is settled. -/
def Settles {α : Type} (program : Program World α) (exception : α → Bool) (w : World) : Prop :=
  ∃ value after events, program w = .returned value after ∧
    after.comLog = w.comLog ++ events ∧ Settled (exception value) events

theorem settles_iff {α : Type} {program : Program World α} {exception : α → Bool} {w after : World}
    {value : α} {events : List ComEvent} (ran : program w = .returned value after)
    (logged : after.comLog = w.comLog ++ events) :
    Settles program exception w ↔ Settled (exception value) events := by
  constructor
  · rintro ⟨other, final, others, again, shape, settled⟩
    rw [ran] at again
    cases again
    rw [logged] at shape
    rwa [List.append_cancel_left shape]
  · exact fun settled => ⟨value, after, events, ran, logged, settled⟩

/-! ## One property -/

structure PropertyCall where
  property : SectionProperty
  found : Bool
  exception : Bool

def PropertyCall.events (call : PropertyCall) : List ComEvent :=
  if call.found then
    [.obtainProperty call.property, .variantInit call.property] ++
      (if call.exception then [.obtainException call.property] else []) ++
      [.variantClear call.property, .releaseProperty call.property]
  else [.variantClear call.property]

/-- A property that is found leaves nothing open but its exception. -/
theorem PropertyCall.held_events (resource : ComResource) (call : PropertyCall)
    (found : call.found = true) (count : Nat) :
    resource.toResource.held count call.events =
      some (count + resource.handed call.exception) := by
  obtain ⟨property, found', exception⟩ := call
  cases found
  cases exception <;> cases property <;> rcases resource with (_ | _ | _) | (_ | _ | _) | _ | _ | _ <;>
    rfl

/-- A property that is missing has its VARIANT cleared before any is initialised. -/
theorem PropertyCall.held_missing (call : PropertyCall) (missing : call.found = false) :
    (ComResource.variant call.property).toResource.held 0 call.events = none := by
  obtain ⟨property, found, exception⟩ := call
  cases missing
  simp [events, ComResource.toResource, Resource.held]

theorem PropertyCall.unsettled (call : PropertyCall) (missing : call.found = false)
    (exception : Bool) : ¬ Settled exception call.events := by
  intro settled
  have variant := settled (.variant call.property)
  rw [call.held_missing missing] at variant
  cases variant

/-- `GetPropertyByName` succeeds and brings a property. -/
def propertyFound (env : Env) (tick : Nat) : Bool :=
  !(env.hresult tick).failed && env.succeeds (tick + 1)

/-- A property that was found has a value and no exception. -/
def valueReads (env : Env) (tick : Nat) : Bool :=
  !(env.hresult tick).failed && !(env.hresult (tick + 1)).failed && env.succeeds (tick + 2)

def propertyReads (env : Env) (tick : Nat) : Bool :=
  propertyFound env tick && valueReads env (tick + 2)

structure Looked (env : Env) (property : SectionProperty) (copied : Bool) (w : World)
    (result : PropertyRead) (after : World) : Prop where
  logged : after.comLog = w.comLog ++
    PropertyCall.events ⟨property, propertyFound env w.tick, result.exception⟩
  raised : result.exception = true → propertyFound env w.tick = true
  brought : copied = false →
    ((result.hr.failed = false ∧ result.exception = false) ↔ propertyReads env w.tick = true)
  next : copied = false → propertyReads env w.tick = true →
    result.read = true ∧ after.tick = w.tick + 5

theorem recordCom_apply (event : ComEvent) (w : World) :
    recordCom event w = .returned () { w with comLog := w.comLog ++ [event] } := rfl

/-- What a property read has done from `VariantInit` on. -/
structure Valued (env : Env) (property : SectionProperty) (copied : Bool) (w : World)
    (result : PropertyRead) (after : World) : Prop where
  logged : after.comLog = w.comLog ++ .variantInit property ::
    (if result.exception then [.obtainException property] else [])
  brought : copied = false →
    ((result.hr.failed = false ∧ result.exception = false) ↔ valueReads env w.tick = true)
  next : copied = false → valueReads env w.tick = true →
    result.read = true ∧ after.tick = w.tick + 3

theorem propertyValue_valued (env : Env) (property : SectionProperty) (copied : Bool)
    (w : World) : ∃ result after, propertyValue env property copied w = .returned result after ∧
      Valued env property copied w result after := by
  simp only [propertyValue, bind_apply, recordCom_apply, consult_apply, World.advance]
  cases valueFailed : (env.hresult w.tick).failed with
  | true =>
      refine ⟨_, _, rfl, rfl, ?_, ?_⟩
      · simp [valueReads, valueFailed]
      · simp [valueReads, valueFailed]
  | false =>
      simp only [Bool.false_eq_true, if_false, bind_apply, consult_apply, World.advance]
      cases exceptionFailed : (env.hresult (w.tick + 1)).failed with
      | true =>
          refine ⟨_, _, rfl, rfl, ?_, ?_⟩
          · simp [valueReads, exceptionFailed]
          · simp [valueReads, exceptionFailed]
      | false =>
          simp only [Bool.false_eq_true, if_false, bind_apply, consult_apply, World.advance]
          cases clean : env.succeeds (w.tick + 2) with
          | false =>
              refine ⟨_, _, rfl, ?_, ?_, ?_⟩
              · simp
              · simp [valueReads, clean]
              · simp [valueReads, clean]
          | true =>
              cases copied with
              | false =>
                  refine ⟨_, _, rfl, rfl, fun _ => ?_, fun _ _ => ⟨rfl, rfl⟩⟩
                  simp [valueReads, valueFailed, exceptionFailed, clean]
              | true =>
                  simp only [if_true, bind_apply, consult_apply, World.advance]
                  cases env.succeeds (w.tick + 3) with
                  | true =>
                      refine ⟨_, _, rfl, rfl, ?_, ?_⟩
                      · simp
                      · simp
                  | false =>
                      refine ⟨_, _, rfl, rfl, ?_, ?_⟩
                      · simp
                      · simp

theorem getPropertyValue_looked (env : Env) (property : SectionProperty) (copied : Bool)
    (w : World) : ∃ result after, getPropertyValue env property copied true w =
      .returned result after ∧ Looked env property copied w result after := by
  simp only [getPropertyValue, if_true, bind_apply, consult_apply, World.advance]
  cases foundFailed : (env.hresult w.tick).failed with
  | true =>
      refine ⟨_, _, rfl, ?_, ?_, ?_, ?_⟩
      · simp [PropertyCall.events, propertyFound, foundFailed]
      · simp
      · simp [propertyReads, propertyFound, foundFailed]
      · simp [propertyReads, propertyFound, foundFailed]
  | false =>
      simp only [Bool.false_eq_true, if_false, bind_apply, consult_apply, World.advance]
      cases present : env.succeeds (w.tick + 1) with
      | false =>
          refine ⟨_, _, rfl, ?_, ?_, ?_, ?_⟩
          · simp [PropertyCall.events, propertyFound, present]
          · simp
          · have unexpected : HResult.eUnexpected.failed = true := rfl
            simp [propertyReads, propertyFound, present, unexpected]
          · simp [propertyReads, propertyFound, present]
      | true =>
          have found : propertyFound env w.tick = true := by
            simp [propertyFound, foundFailed, present]
          obtain ⟨result, after, ran, valued⟩ := propertyValue_valued env property copied
            { w with tick := w.tick + 1 + 1, comLog := w.comLog ++ [.obtainProperty property] }
          simp only [if_true, bind_apply, recordCom_apply, ran]
          refine ⟨_, _, rfl, ?_, fun _ => found, ?_, ?_⟩
          · simp [valued.logged, PropertyCall.events, found]
          · intro plain
            simpa [propertyReads, found] using valued.brought plain
          · intro plain reads
            have value : valueReads env (w.tick + 2) = true := by
              simpa [propertyReads, found] using reads
            exact valued.next plain value

/-! ## The section -/

/-- The lookups of `Initialize` find every property they look up. -/
def readsFound (env : Env) (site : SiteConfiguration) (tick : Nat) : Bool :=
  propertyFound env tick &&
    (!(propertyReads env tick && site.enabled) ||
      (propertyFound env (tick + 5) &&
        (!propertyReads env (tick + 5) || propertyFound env (tick + 10))))

/-- What the lookups of one section have done; only the last may leave an exception. -/
structure Read (env : Env) (site : SiteConfiguration) (w : World) (result : Initialization)
    (after : World) (calls : List PropertyCall) : Prop where
  logged : after.comLog = w.comLog ++ calls.flatMap PropertyCall.events
  found : (∀ call ∈ calls, call.found = true) ↔ readsFound env site w.tick = true
  raised : (calls.map fun call => call.exception.toNat).sum = result.exception.toNat

theorem propertyFound_of_reads {env : Env} {tick : Nat} (reads : propertyReads env tick = true) :
    propertyFound env tick = true :=
  (Bool.and_eq_true_iff.mp reads).1

theorem readSection_read (env : Env) (site : SiteConfiguration) (w : World) :
    ∃ result after calls, readSection env site w = .returned result after ∧
      Read env site w result after calls := by
  obtain ⟨enabled, first, ranEnabled, lookedEnabled⟩ :=
    getPropertyValue_looked env .enabled false w
  rw [readSection, getBooleanPropertyValue, bind_returned ranEnabled]
  dsimp only
  split
  · next stops =>
      refine ⟨_, _, [⟨.enabled, propertyFound env w.tick, enabled.exception⟩], rfl, ?_, ?_, ?_⟩
      · simpa using lookedEnabled.logged
      · have last : (propertyReads env w.tick && site.enabled) = false := by
          cases reads : propertyReads env w.tick with
          | false => rfl
          | true =>
              obtain ⟨succeeded, clear⟩ := (lookedEnabled.brought rfl).mpr reads
              have read := (lookedEnabled.next rfl reads).1
              simpa [succeeded, clear, read] using stops
        simp [readsFound, last]
      · simp
  · next goes =>
      simp only [Bool.or_eq_true, Bool.not_eq_true', not_or, Bool.not_eq_true, Bool.not_eq_false,
        Bool.and_eq_true] at goes
      obtain ⟨⟨succeeded, clear⟩, -, sectionEnabled⟩ := goes
      have reads := (lookedEnabled.brought rfl).mp ⟨succeeded, clear⟩
      have tick := (lookedEnabled.next rfl reads).2
      have found := propertyFound_of_reads reads
      obtain ⟨block, second, ranBlock, lookedBlock⟩ :=
        getPropertyValue_looked env .responseBodyBlock false first
      rw [getBooleanPropertyValue, bind_returned ranBlock]
      have logged := lookedBlock.logged
      rw [lookedEnabled.logged, List.append_assoc] at logged
      split
      · next stops =>
          refine ⟨_, _,
            [⟨.enabled, propertyFound env w.tick, enabled.exception⟩,
              ⟨.responseBodyBlock, propertyFound env first.tick, block.exception⟩], rfl, ?_, ?_, ?_⟩
          · simpa using logged
          · have last : propertyReads env (w.tick + 5) = false := by
              rw [← tick]
              apply Bool.eq_false_iff.mpr
              intro again
              obtain ⟨succeeded, clear⟩ := (lookedBlock.brought rfl).mpr again
              simp [succeeded, clear] at stops
            simp [readsFound, found, reads, sectionEnabled, last, tick]
          · simp [clear]
      · next goes =>
          simp only [Bool.or_eq_true, not_or, Bool.not_eq_true] at goes
          have readsBlock := (lookedBlock.brought rfl).mp goes
          have tickBlock := (lookedBlock.next rfl readsBlock).2
          have foundBlock := propertyFound_of_reads readsBlock
          obtain ⟨file, third, ranFile, lookedFile⟩ :=
            getPropertyValue_looked env .configFile true second
          rw [getStringPropertyValue, bind_returned ranFile]
          have loggedFile := lookedFile.logged
          rw [logged, List.append_assoc, List.append_assoc] at loggedFile
          rw [tick] at readsBlock foundBlock tickBlock
          refine ⟨_, _,
            [⟨.enabled, propertyFound env w.tick, enabled.exception⟩,
              ⟨.responseBodyBlock, propertyFound env first.tick, block.exception⟩,
              ⟨.configFile, propertyFound env second.tick, file.exception⟩], rfl, ?_, ?_, ?_⟩
          · simpa using loggedFile
          · simp [readsFound, found, reads, sectionEnabled, tick, foundBlock, readsBlock, tickBlock]
          · simp [clear, goes.2]

theorem held_calls {calls : List PropertyCall} (found : ∀ call ∈ calls, call.found = true)
    (resource : ComResource) (count : Nat) :
    resource.toResource.held count (calls.flatMap PropertyCall.events) =
      some (count + (calls.map fun call => resource.handed call.exception).sum) := by
  induction calls generalizing count with
  | nil => rfl
  | cons call rest ih =>
      rw [List.flatMap_cons, Resource.held_append,
        PropertyCall.held_events resource call (found call (.head _)), Option.bind_some,
        ih (fun other member => found other (.tail _ member)), List.map_cons, List.sum_cons,
        Nat.add_assoc]

theorem found_of_held {calls : List PropertyCall}
    (held : ∀ property, (ComResource.variant property).toResource.held 0
      (calls.flatMap PropertyCall.events) = some 0) : ∀ call ∈ calls, call.found = true := by
  induction calls with
  | nil => simp
  | cons call rest ih =>
      have here : call.found = true := by
        cases missing : call.found with
        | true => rfl
        | false =>
            have variant := held call.property
            rw [List.flatMap_cons, Resource.held_append, call.held_missing missing] at variant
            cases variant
      have later : ∀ other ∈ rest, other.found = true := by
        apply ih
        intro property
        have variant := held property
        rw [List.flatMap_cons, Resource.held_append,
          PropertyCall.held_events (.variant property) call here] at variant
        exact variant
      intro other member
      rcases List.mem_cons.mp member with rfl | last
      · exact here
      · exact later other last

theorem handed_sum {calls : List PropertyCall} {exception : Bool}
    (raised : (calls.map fun call => call.exception.toNat).sum = exception.toNat)
    (resource : ComResource) :
    (calls.map fun call => resource.handed call.exception).sum = resource.handed exception := by
  cases resource with
  | exceptionPointer => exact raised
  | _ => simp [ComResource.handed]

/-- The section and the URL string are freed once, so the properties decide. -/
theorem settled_section_iff {calls : List PropertyCall} {exception : Bool}
    (raised : (calls.map fun call => call.exception.toNat).sum = exception.toNat) :
    Settled exception ([.sysAllocString, .obtainSection] ++ calls.flatMap PropertyCall.events ++
      [.releaseSection, .sysFreeString]) ↔ ∀ call ∈ calls, call.found = true := by
  constructor
  · intro settled
    apply found_of_held
    intro property
    have whole := settled (.variant property)
    rw [Resource.held_append, Resource.held_append] at whole
    have opened : (ComResource.variant property).toResource.held 0
        [.sysAllocString, .obtainSection] = some 0 := rfl
    rw [opened, Option.bind_some] at whole
    cases inner : (ComResource.variant property).toResource.held 0
        (calls.flatMap PropertyCall.events) with
    | none => rw [inner] at whole; cases whole
    | some count => rw [inner] at whole; exact whole
  · intro found resource
    rw [Resource.held_append, Resource.held_append]
    cases resource with
    | sectionElement =>
        have opened : ComResource.sectionElement.toResource.held 0
            [.sysAllocString, .obtainSection] = some 1 := rfl
        rw [opened, Option.bind_some, held_calls found, handed_sum raised]
        rfl
    | urlString =>
        have opened : ComResource.urlString.toResource.held 0
            [.sysAllocString, .obtainSection] = some 1 := rfl
        rw [opened, Option.bind_some, held_calls found, handed_sum raised]
        rfl
    | exceptionPointer =>
        have opened : ComResource.exceptionPointer.toResource.held 0
            [.sysAllocString, .obtainSection] = some 0 := rfl
        rw [opened, Option.bind_some, held_calls found, handed_sum raised, Nat.zero_add]
        rfl
    | variant property =>
        have opened : (ComResource.variant property).toResource.held 0
            [.sysAllocString, .obtainSection] = some 0 := rfl
        rw [opened, Option.bind_some, held_calls found, handed_sum raised]
        rfl
    | propertyPointer property =>
        have opened : (ComResource.propertyPointer property).toResource.held 0
            [.sysAllocString, .obtainSection] = some 0 := rfl
        rw [opened, Option.bind_some, held_calls found, handed_sum raised]
        rfl

/-! ## The lookup -/

def propertiesFound (env : Env) (context : HttpContext) (tick : Nat) : Bool :=
  !(context.adminManagerPresent && !(env.hresult tick).failed && env.succeeds (tick + 1)) ||
    readsFound env context.site (tick + 2)

theorem settled_string : Settled false [.sysAllocString, .sysFreeString] := by
  intro resource
  cases resource <;> rfl

theorem initializeConfig_settled (env : Env) (context : HttpContext) (w : World) :
    ∃ result after events, initializeConfig env context w = .returned result after ∧
      after.comLog = w.comLog ++ events ∧
      (Settled result.exception events ↔ propertiesFound env context w.tick = true) := by
  rw [initializeConfig, bind_returned (recordCom_apply _ _)]
  cases present : context.adminManagerPresent with
  | false =>
      refine ⟨_, _, [.sysAllocString, .sysFreeString], rfl, ?_, ?_⟩
      · simp
      · simp [propertiesFound, present, settled_string]
  | true =>
      simp only [if_true, bind_apply, consult_apply, World.advance]
      cases sectionFailed : (env.hresult w.tick).failed with
      | true =>
          refine ⟨_, _, [.sysAllocString, .sysFreeString], rfl, ?_, ?_⟩
          · simp
          · simp [propertiesFound, sectionFailed, settled_string]
      | false =>
          simp only [Bool.false_eq_true, if_false, bind_apply, consult_apply, World.advance]
          cases given : env.succeeds (w.tick + 1) with
          | false =>
              refine ⟨_, _, [.sysAllocString, .sysFreeString], rfl, ?_, ?_⟩
              · simp
              · simp [propertiesFound, given, settled_string]
          | true =>
              obtain ⟨result, after, calls, ran, read⟩ := readSection_read env context.site
                { w with
                  tick := w.tick + 1 + 1
                  comLog := w.comLog ++ [.sysAllocString] ++ [.obtainSection] }
              simp only [if_true, bind_apply, recordCom_apply, ran]
              refine ⟨_, _, [.sysAllocString, .obtainSection] ++
                calls.flatMap PropertyCall.events ++ [.releaseSection, .sysFreeString], rfl, ?_, ?_⟩
              · simp [read.logged]
              · rw [settled_section_iff read.raised, read.found]
                simp [propertiesFound, present, sectionFailed, given]

def lookupFinds (env : Env) (context : HttpContext) (w : World) : Bool :=
  !(context.metadataContainerPresent && w.storedConfiguration.isNone && env.succeeds w.tick) ||
    propertiesFound env context (w.tick + 1)

theorem settled_nil : Settled false [] := by
  intro resource
  cases resource <;> rfl

/-- What follows `Initialize` releases the exception it was handed, and nothing else. -/
theorem settled_released_iff {exception : Bool} {events tail : List ComEvent}
    (closes : ∀ (resource : ComResource) (count : Nat),
      resource.toResource.held count tail = some 0 ↔ count = resource.handed exception) :
    Settled false ([.constructContext] ++ events ++ tail) ↔ Settled exception events := by
  apply forall_congr'
  intro resource
  have opened : resource.toResource.held 0 [.constructContext] = some 0 := by
    cases resource <;> rfl
  have nothing : resource.handed false = 0 := by cases resource <;> rfl
  rw [Resource.held_append, Resource.held_append, opened, Option.bind_some, nothing]
  cases inner : resource.toResource.held 0 events with
  | none => simp
  | some count =>
      rw [Option.bind_some, closes]
      simp

theorem deleted_closes (resource : ComResource) (count : Nat) :
    resource.toResource.held count [.deleteContext] = some 0 ↔ count = resource.handed false := by
  cases resource <;> simp [ComResource.toResource, Resource.held, ComResource.handed]

theorem nothing_closes (resource : ComResource) (count : Nat) :
    resource.toResource.held count [] = some 0 ↔ count = resource.handed false := by
  cases resource <;> simp [Resource.held, ComResource.handed]

theorem released_closes (resource : ComResource) (count : Nat) :
    resource.toResource.held count [.releaseException, .deleteContext] = some 0 ↔
      count = resource.handed true := by
  cases resource with
  | exceptionPointer =>
      cases count <;> simp [ComResource.toResource, Resource.held, ComResource.handed]
  | _ => simp [ComResource.toResource, Resource.held, ComResource.handed]

/-- `SetModuleContext` and what follows it release no resource of the lookup. -/
theorem storeConfig_tail (env : Env) (config : ModsecurityStoredContext) (w : World) :
    ∃ result after tail, storeConfig env config w = .returned result after ∧
      after.comLog = w.comLog ++ tail ∧
      ∀ (resource : ComResource) (count : Nat),
        resource.toResource.held count tail = some 0 ↔ count = resource.handed false := by
  rw [storeConfig, bind_returned (consult_apply _ _)]
  cases failed : (env.hresult w.tick).failed with
  | false =>
      refine ⟨_, _, [], rfl, ?_, nothing_closes⟩
      simp [World.advance]
  | true =>
      simp only [if_true, bind_apply, recordCom_apply]
      by_cases raced : env.hresult w.tick = .fromWin32 errorAlreadyAssigned
      · rw [if_pos raced]
        exact ⟨_, _, [.deleteContext], rfl, rfl, deleted_closes⟩
      · rw [if_neg raced]
        exact ⟨_, _, [.deleteContext], rfl, rfl, deleted_closes⟩

theorem getConfig_settled (env : Env) (context : HttpContext) (w : World) :
    ∃ result after events, getConfig env context w = .returned result after ∧
      after.comLog = w.comLog ++ events ∧
      (Settled false events ↔ lookupFinds env context w = true) := by
  rw [getConfig, bind_returned (get_apply w)]
  cases present : context.metadataContainerPresent with
  | false =>
      refine ⟨_, w, [], rfl, by simp, ?_⟩
      simp [lookupFinds, present, settled_nil]
  | true =>
      rw [if_pos rfl]
      cases cached : w.storedConfiguration with
      | some config =>
          refine ⟨_, w, [], rfl, by simp, ?_⟩
          simp [lookupFinds, cached, settled_nil]
      | none =>
          dsimp only
          rw [bind_returned (consult_apply _ _)]
          cases allocated : env.succeeds w.tick with
          | false =>
              refine ⟨_, _, [], rfl, by simp [World.advance], ?_⟩
              simp [lookupFinds, allocated, settled_nil]
          | true =>
              obtain ⟨result, after, events, ran, logged, settled⟩ :=
                initializeConfig_settled env context
                  { w.advance with comLog := w.comLog ++ [.constructContext] }
              have finds : lookupFinds env context w = propertiesFound env context (w.tick + 1) := by
                simp [lookupFinds, present, cached, allocated]
              rw [if_pos rfl, bind_returned (recordCom_apply _ _), finds]
              simp only [bind_apply, World.advance] at ran ⊢
              rw [ran]
              cases raised : result.exception with
              | true =>
                  rw [raised] at settled
                  simp only [raised, Bool.or_true, if_true, bind_apply, when_true, recordCom_apply]
                  refine ⟨_, _, [.constructContext] ++ events ++ [.releaseException, .deleteContext],
                    rfl, ?_, ?_⟩
                  · simp [logged]
                  · rw [settled_released_iff released_closes]
                    exact settled
              | false =>
                  rw [raised] at settled
                  cases failed : result.hr.failed with
                  | true =>
                      simp only [raised, failed, Bool.or_false, if_true, bind_apply, when_false, recordCom_apply]
                      refine ⟨_, _, [.constructContext] ++ events ++ [.deleteContext], rfl, ?_, ?_⟩
                      · simp [logged]
                      · rw [settled_released_iff deleted_closes]
                        exact settled
                  | false =>
                      obtain ⟨stored, final, tail, answered, ended, closes⟩ :=
                        storeConfig_tail env result.context after
                      simp only [raised, failed, Bool.or_false, Bool.false_eq_true, if_false]
                      refine ⟨stored, final, [.constructContext] ++ events ++ tail, answered, ?_, ?_⟩
                      · simp [ended, logged]
                      · rw [settled_released_iff closes]
                        exact settled

/-! ## The balance -/

theorem getPropertyValue_settles_iff (env : Env) (property : SectionProperty)
    (copied argumentsValid : Bool) (w : World) :
    Settles (getPropertyValue env property copied argumentsValid) PropertyRead.exception w ↔
      argumentsValid = true ∧ propertyFound env w.tick = true := by
  cases argumentsValid with
  | false =>
      have logged : ({ w with comLog := w.comLog ++ [.variantClear property] } : World).comLog =
          w.comLog ++ PropertyCall.events ⟨property, false, false⟩ := rfl
      have ran : getPropertyValue env property copied false w =
          .returned { hr := .eInvalidArg, exception := false, read := false }
            { w with comLog := w.comLog ++ [.variantClear property] } := rfl
      rw [settles_iff ran logged]
      constructor
      · intro settled
        exact absurd settled (PropertyCall.unsettled ⟨property, false, false⟩ rfl false)
      · exact fun valid => Bool.noConfusion valid.1
  | true =>
      obtain ⟨result, after, ran, looked⟩ := getPropertyValue_looked env property copied w
      rw [settles_iff ran looked.logged]
      constructor
      · intro settled
        refine ⟨rfl, ?_⟩
        cases found : propertyFound env w.tick with
        | true => rfl
        | false =>
            rw [found] at settled
            exact absurd settled (PropertyCall.unsettled _ rfl _)
      · rintro ⟨-, found⟩ resource
        have held := PropertyCall.held_events resource
          ⟨property, propertyFound env w.tick, result.exception⟩ found 0
        rwa [Nat.zero_add] at held

/-- The getters, `Initialize` and `GetConfig` are balanced exactly where no argument is
missing and no property they look up is. -/
theorem property_resources_settled (env : Env) (context : HttpContext) (property : SectionProperty)
    (copied argumentsValid : Bool) (w : World) :
    (Settles (getPropertyValue env property copied argumentsValid) PropertyRead.exception w ↔
      argumentsValid = true ∧ propertyFound env w.tick = true) ∧
    (Settles (initializeConfig env context) Initialization.exception w ↔
      propertiesFound env context w.tick = true) ∧
    (Settles (getConfig env context) (fun _ => false) w ↔ lookupFinds env context w = true) := by
  refine ⟨getPropertyValue_settles_iff env property copied argumentsValid w, ?_, ?_⟩
  · obtain ⟨result, after, events, ran, logged, settled⟩ := initializeConfig_settled env context w
    rw [settles_iff ran logged, settled]
  · obtain ⟨result, after, events, ran, logged, settled⟩ := getConfig_settled env context w
    rw [settles_iff ran logged, settled]

/-- An older schema has no such property: the VARIANT of the stack is cleared as it is. -/
theorem missing_property_unsettled :
    let older : Env := { Env.calm with hresult := fun tick => if tick = 3 then .eUnexpected else .sOk }
    (getConfig older .plain (World.arrived [] [])).state.comLog =
        [.constructContext, .sysAllocString, .obtainSection, .variantClear .enabled,
          .releaseSection, .sysFreeString, .deleteContext] ∧
      ¬ Settles (getConfig older .plain) (fun _ => false) (World.arrived [] []) := by
  intro older
  have events : (getConfig older .plain (World.arrived [] [])).state.comLog =
      [.constructContext, .sysAllocString, .obtainSection, .variantClear .enabled,
        .releaseSection, .sysFreeString, .deleteContext] := by decide +kernel
  refine ⟨events, ?_⟩
  rintro ⟨value, after, made, ran, logged, settled⟩
  rw [ran, Outcome.state_returned, logged] at events
  have shape : made = [.constructContext, .sysAllocString, .obtainSection, .variantClear .enabled,
      .releaseSection, .sysFreeString, .deleteContext] := events
  have variant := settled (.variant .enabled)
  rw [shape] at variant
  cases variant

end ModSecurityIIS
