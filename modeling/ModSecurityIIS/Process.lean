import ModSecurityIIS.SharedProperties
import ModSecurityIIS.TransactionScope

/-!
# The requests of a process

A process serves any number of requests, whose callbacks come in any order. A callback
runs as one step; what lies inside the lookups of the configuration and of the rules is
taken apart in modules of their own.
-/

set_option autoImplicit false

namespace ModSecurityIIS

open Imperative Program Transition

/-- What the requests share, with all that was done so far and for which request. -/
structure Shared (Request Path : Type) extends Globals where
  configurations : Path → Option ModsecurityStoredContext
  log : List (Request × Event)

section Process

variable {Request Path : Type}

/-- The request as a callback meets it: its own state and the shared one. -/
def Shared.meets (shared : Shared Request Path) (path : Path) (s : RequestState) : RequestState :=
  { s with
    world :=
      { s.world with
        nextTransaction := shared.nextTransaction
        storedConfiguration := shared.configurations path
        rulesCache := shared.rulesCache
        capLogged := shared.capLogged
        configFailLogged := shared.configFailLogged
        rulesFailLogged := shared.rulesFailLogged
        eventLog := shared.eventLog } }

/-- What a callback of the request leaves to the others. -/
def Shared.left [DecidableEq Path] (shared : Shared Request Path) (request : Request) (path : Path)
    (s after : RequestState) : Shared Request Path :=
  { after.world.globals with
    configurations := Function.update shared.configurations path after.world.storedConfiguration
    log := shared.log ++ (after.world.log.drop s.world.log.length).map (Prod.mk request) }

/-- A process, where each request has the metadata path of its URL. -/
def processSystem [DecidableEq Request] [DecidableEq Path] (path : Request → Path) :
    System (Shared Request Path × (Request → RequestState)) (Request × Occurrence) :=
  sharing
    (fun shared requests => shared.log = [] ∧ shared.eventLog = [] ∧
      (∀ warning, shared.warned warning = false) ∧ ∀ request, requestSystem.initial (requests request))
    (fun request before occurrence after =>
      RequestStep (before.1.meets (path request) before.2) occurrence after.2 ∧
        after.1 = before.1.left request (path request) before.2 after.2)

/-! ## One callback -/

/-- What a callback of a request adds. -/
structure Adds (shared : Shared Request Path) (request : Request) (s : RequestState)
    (after : Shared Request Path) (next : RequestState) (events : List Event) : Prop where
  grown : next.world.log = s.world.log ++ events
  logged : after.log = shared.log ++ events.map (Prod.mk request)
  shares : Shares shared.toGlobals after.toGlobals events

theorem step_adds [DecidableEq Path] {shared after : Shared Request Path} {request : Request}
    {s next : RequestState} {occurrence : Occurrence} {place : Path}
    (step : RequestStep (shared.meets place s) occurrence next)
    (left : after = shared.left request place s next) :
    ∃ events, Adds shared request s after next events := by
  have keeps : KeepsShared (shared.meets place s).world next.world := by
    cases step with
    | @begins env context _ => exact Occurrence.run_keepsShared ⟨env, context, .beginRequest⟩ _
    | follows _ _ => exact occurrence.run_keepsShared _
  obtain ⟨events, grown, shares⟩ := keeps
  refine ⟨events, grown, ?_, ?_⟩
  · rw [left, Shared.left, grown]
    exact congrArg (shared.log ++ ·.map (Prod.mk request)) List.drop_left
  · rw [left]
    exact shares

/-! ## Every run -/

/-- Between two callbacks: each transaction is made once and used by the request that made
it, up to its end, and no message that is logged once is in the log twice. -/
structure Shared.Kept (shared : Shared Request Path) : Prop where
  final : FinalUse (shared.log.map Prod.snd)
  rooted : ∀ request event, (request, event) ∈ shared.log → ∀ tx, event.Concerns tx →
    (request, .constructTransaction tx) ∈ shared.log
  apart : ∀ request other tx, (request, .constructTransaction tx) ∈ shared.log →
    (other, .constructTransaction tx) ∈ shared.log → request = other
  once : (made (shared.log.map Prod.snd)).Nodup
  numbered : ∀ tx ∈ made (shared.log.map Prod.snd), tx < shared.nextTransaction
  warned : ∀ warning, Warns false (shared.warned warning) warning shared.eventLog

/-- What a request finds of itself in the process. -/
structure Shared.Tracks (shared : Shared Request Path) (request : Request) (s : RequestState) :
    Prop where
  valid : s.Valid
  belongs : ∃ owner, s.Belongs owner
  own : ∀ event, (request, event) ∈ shared.log ↔ event ∈ s.world.log

theorem Shared.Kept.below {shared : Shared Request Path} (kept : shared.Kept) {request : Request}
    {tx : TransactionId} (member : (request, .constructTransaction tx) ∈ shared.log) :
    tx < shared.nextTransaction :=
  kept.numbered tx (mem_made.mpr (List.mem_map_of_mem member))

theorem Adds.above {shared after : Shared Request Path} {request : Request} {s next : RequestState}
    {events : List Event} (adds : Adds shared request s after next events) {tx : TransactionId}
    (member : .constructTransaction tx ∈ events) :
    shared.nextTransaction ≤ tx ∧ tx < after.nextTransaction := by
  obtain ⟨count, numbers, last⟩ := adds.shares.numbered
  have counted := mem_made.mpr member
  rw [numbers, List.mem_range'_1] at counted
  rw [last]
  exact counted

theorem Adds.mem {shared after : Shared Request Path} {request other : Request}
    {s next : RequestState} {events : List Event} {event : Event}
    (adds : Adds shared request s after next events) :
    (other, event) ∈ after.log ↔ (other, event) ∈ shared.log ∨ other = request ∧ event ∈ events := by
  rw [adds.logged, List.mem_append, List.mem_map]
  constructor
  · intro found
    rcases found with early | ⟨late, member, same⟩
    · exact .inl early
    · cases same
      exact .inr ⟨rfl, member⟩
  · intro found
    rcases found with early | ⟨rfl, member⟩
    · exact .inl early
    · exact .inr ⟨event, member, rfl⟩

theorem Adds.tracks {shared after : Shared Request Path} {request : Request}
    {s next : RequestState} {events : List Event}
    (adds : Adds shared request s after next events) (tracks : shared.Tracks request s)
    (valid : next.Valid) (belongs : ∃ owner, next.Belongs owner) : after.Tracks request next := by
  refine ⟨valid, belongs, ?_⟩
  intro event
  rw [adds.mem, adds.grown, List.mem_append, tracks.own]
  simp

theorem Adds.tracks_other {shared after : Shared Request Path} {request other : Request}
    {s next state : RequestState} {events : List Event}
    (adds : Adds shared request s after next events) (different : other ≠ request)
    (tracks : shared.Tracks other state) : after.Tracks other state := by
  refine ⟨tracks.valid, tracks.belongs, ?_⟩
  intro event
  rw [adds.mem, tracks.own]
  simp [different]

theorem Owner.constructs {owner : Option TransactionId} {events : List Event} {event : Event}
    {tx : TransactionId} (owned : Owner owner events) (member : event ∈ events)
    (concerns : event.Concerns tx) : .constructTransaction tx ∈ events := by
  cases owner with
  | none => exact absurd concerns ((owned event member).1 tx)
  | some other =>
      cases owned.2 event member tx (.inl concerns)
      exact owned.1

/-- What concerns a transaction is logged by the request that constructs it. -/
theorem Adds.rooted {shared after : Shared Request Path} {request : Request}
    {s next : RequestState} {events : List Event}
    (adds : Adds shared request s after next events) (kept : shared.Kept)
    (tracks : after.Tracks request next) {other : Request} {event : Event}
    (member : (other, event) ∈ after.log) {tx : TransactionId} (concerns : event.Concerns tx) :
    (other, .constructTransaction tx) ∈ after.log := by
  rcases adds.mem.mp member with early | ⟨rfl, late⟩
  · exact adds.mem.mpr (.inl (kept.rooted other event early tx concerns))
  · obtain ⟨owner, belongs⟩ := tracks.belongs
    exact (tracks.own _).mpr
      (belongs.owned.constructs ((tracks.own event).mp member) concerns)

/-- No two requests construct the same transaction. -/
theorem Adds.apart {shared after : Shared Request Path} {request : Request}
    {s next : RequestState} {events : List Event}
    (adds : Adds shared request s after next events) (kept : shared.Kept)
    {first second : Request} {tx : TransactionId}
    (one : (first, .constructTransaction tx) ∈ after.log)
    (two : (second, .constructTransaction tx) ∈ after.log) : first = second := by
  rcases adds.mem.mp one with early | ⟨rfl, late⟩
  · rcases adds.mem.mp two with also | ⟨rfl, later⟩
    · exact kept.apart first second tx early also
    · exact absurd (adds.above later).1 (Nat.not_le.mpr (kept.below early))
  · rcases adds.mem.mp two with also | ⟨rfl, later⟩
    · exact absurd (adds.above late).1 (Nat.not_le.mpr (kept.below also))
    · rfl

theorem Adds.kept {shared after : Shared Request Path} {request : Request}
    {s next : RequestState} {events : List Event}
    (adds : Adds shared request s after next events) (kept : shared.Kept)
    (before : shared.Tracks request s) (tracks : after.Tracks request next) : after.Kept := by
  have logged : after.log.map Prod.snd = shared.log.map Prod.snd ++ events := by
    have same : Prod.snd ∘ Prod.mk request = (id : Event → Event) := rfl
    rw [adds.logged, List.map_append, List.map_map, same, List.map_id]
  have shape : made (after.log.map Prod.snd) = made (shared.log.map Prod.snd) ++ made events := by
    rw [logged, made, List.filterMap_append]
    rfl
  obtain ⟨count, numbers, last⟩ := adds.shares.numbered
  refine ⟨?_, fun _ _ member _ concerns => adds.rooted kept tracks member concerns,
    fun _ _ _ one two => adds.apart kept one two, ?_, ?_, ?_⟩
  · have final := tracks.valid.sound.final
    rw [adds.grown] at final
    obtain ⟨_, own, across⟩ := List.pairwise_append.mp final
    rw [logged]
    apply List.pairwise_append.mpr
    refine ⟨kept.final, own, ?_⟩
    intro earlier early later late tx finishes uses
    obtain ⟨⟨other, event⟩, member, rfl⟩ := List.mem_map.mp early
    -- both events are on the transaction of one request, so both are in its own log
    have theirs := kept.rooted other event member tx (Event.Uses.of_finishes finishes).concerns
    have ours := adds.rooted kept tracks (adds.mem.mpr (.inr ⟨rfl, late⟩)) uses.concerns
    cases adds.apart kept (adds.mem.mpr (.inl theirs)) ours
    exact across event ((before.own event).mp member) later late tx finishes uses
  · rw [shape, List.nodup_append]
    refine ⟨kept.once, numbers ▸ List.nodup_range' .., ?_⟩
    intro tx early other late same
    cases same
    exact absurd (adds.above (mem_made.mp late)).1 (Nat.not_le.mpr (kept.numbered tx early))
  · intro tx member
    rw [shape, List.mem_append] at member
    rcases member with early | late
    · have small := kept.numbered tx early
      rw [last]
      exact Nat.lt_of_lt_of_le small (Nat.le_add_right _ _)
    · exact (adds.above (mem_made.mp late)).2
  · intro warning
    obtain ⟨entries, grown, warns⟩ := adds.shares.warned
    rw [grown]
    exact (kept.warned warning).trans (warns warning)

theorem Shared.Tracks.meets {shared : Shared Request Path} {request : Request} {s : RequestState}
    (tracks : shared.Tracks request s) (place : Path) :
    (shared.meets place s).Valid ∧ ∃ owner, (shared.meets place s).Belongs owner := by
  obtain ⟨owner, belongs⟩ := tracks.belongs
  have sound := tracks.valid.sound
  refine ⟨⟨⟨⟨sound.final, sound.live⟩, sound.handled⟩, ?_⟩, owner, ?_⟩
  · intro unbegun
    have fresh := tracks.valid.fresh unbegun
    exact ⟨fresh.released, fresh.silent⟩
  · exact ⟨belongs.owned, belongs.confined, belongs.unopened⟩

/-- One callback of one request. -/
theorem callback_kept [DecidableEq Path] {shared after : Shared Request Path} {request : Request}
    {s next : RequestState} {occurrence : Occurrence} {place : Path} (kept : shared.Kept)
    (tracks : shared.Tracks request s)
    (step : RequestStep (shared.meets place s) occurrence next)
    (left : after = shared.left request place s next) :
    after.Kept ∧ after.Tracks request next ∧
      ∀ other state, other ≠ request → shared.Tracks other state → after.Tracks other state := by
  obtain ⟨events, adds⟩ := step_adds step left
  obtain ⟨valid, owner, belongs⟩ := tracks.meets place
  obtain ⟨nextOwner, belonging, _⟩ := belongs_step belongs step
  have own := adds.tracks tracks (valid_step valid step) ⟨nextOwner, belonging⟩
  exact ⟨adds.kept kept tracks own, own, fun _ _ different => adds.tracks_other different⟩

variable [DecidableEq Request] [DecidableEq Path] {path : Request → Path}

theorem process_kept {state : Shared Request Path × (Request → RequestState)}
    (reached : (processSystem path).Reachable state) :
    state.1.Kept ∧ ∀ request, state.1.Tracks request (state.2 request) := by
  refine @sharing_invariant _ _ _ _ _ _ _ Shared.Kept
    (fun request shared s => shared.Tracks request s) ?_ ?_ ?_ _ reached
  · intro shared requests start
    obtain ⟨empty, quiet, unmarked, initial⟩ := start
    constructor
    · refine ⟨?_, ?_, ?_, ?_, ?_, ?_⟩
      · rw [empty]
        exact List.Pairwise.nil
      · simp [empty]
      · simp [empty]
      · simp [empty, made]
      · simp [empty, made]
      · intro warning
        rw [quiet, unmarked]
        exact .silent _ rfl
    · intro request
      obtain ⟨silent, released, unbegun⟩ := initial request
      have fresh : (requests request).world.Fresh := by
        refine ⟨released, ?_⟩
        intro event member
        rw [silent] at member
        cases member
      refine ⟨⟨fresh.sound, fun _ => fresh⟩, ⟨none, belongs_initial (initial request)⟩, ?_⟩
      simp [empty, silent]
  · intro request shared own occurrence after next kept tracks step
    obtain ⟨moved, left⟩ := step
    have done := callback_kept kept tracks moved left
    exact ⟨done.1, done.2.1⟩
  · intro request shared own occurrence after next other state kept tracks step different theirs
    obtain ⟨moved, left⟩ := step
    exact (callback_kept kept tracks moved left).2.2 other state different theirs

/-- However the callbacks of all requests interleave, a transaction is made once and used by
the request that made it alone, and by none after its end. -/
theorem process_transactions_apart {state : Shared Request Path × (Request → RequestState)}
    (reached : (processSystem path).Reachable state) :
    FinalUse (state.1.log.map Prod.snd) ∧
      (∀ tx, (state.1.log.map Prod.snd).countP (Event.finishes tx) ≤ 1) ∧
      (made (state.1.log.map Prod.snd)).Nodup ∧
      ∀ request event, (request, event) ∈ state.1.log → ∀ tx, event.Concerns tx →
        (request, .constructTransaction tx) ∈ state.1.log ∧
          ∀ other, (other, .constructTransaction tx) ∈ state.1.log → other = request := by
  obtain ⟨kept, _⟩ := process_kept reached
  refine ⟨kept.final, fun tx => kept.final.finishes_once tx, kept.once, ?_⟩
  intro request event member tx concerns
  have root := kept.rooted request event member tx concerns
  exact ⟨root, fun other made => kept.apart other request tx made root⟩

/-- Cached rules stay as they are. -/
def Globals.KeepsRules (before after : Globals) : Prop :=
  ∀ configFile cached, before.rulesCache configFile = some cached →
    after.rulesCache configFile = some cached

instance : IsPreorder (Shared Request Path) fun before after =>
    before.toGlobals.KeepsRules after.toGlobals where
  refl _ _ _ there := there
  trans _ _ _ first second configFile cached there :=
    second configFile cached (first configFile cached there)

/-- The rules a path has first are its rules for the life of the process: every later
lookup, in any request and whatever the file has become, hands them out when it returns. -/
theorem process_rules_fixed {state later : Shared Request Path × (Request → RequestState)}
    (reached : ((processSystem path).startingAt state).Reachable later) {configFile : Bytes}
    {cached : CachedRules RulesSet} (there : state.1.rulesCache configFile = some cached)
    (request : Request) {env : Env} {result : RulesResult} {after : World}
    (ran : getRules env configFile
      (later.1.meets (path request) (later.2 request)).world = .returned result after) :
    result.rules = some cached.rules := by
  have kept : state.1.toGlobals.KeepsRules later.1.toGlobals := by
    refine @sharing_common _ _ _ _ _ _ _
      (fun before after : Shared Request Path => before.toGlobals.KeepsRules after.toGlobals) _ ?_
      _ _ reached
    intro request shared own occurrence after next step
    obtain ⟨moved, left⟩ := step
    obtain ⟨events, adds⟩ := step_adds moved left
    exact adds.shares.rules
  exact (getRules_cached env configFile cached).returned (kept configFile cached there) ran

end Process

/-! ## Two requests of one process -/

/-- A process at its start, with the requests `true` and `false` on one path. -/
def twoRequests : Shared Bool Unit × (Bool → RequestState) :=
  ({ (World.arrived [] []).globals with configurations := fun _ => none, log := [] },
    fun _ => { world := World.arrived [] [], begun := false })

theorem twoRequests_start : (processSystem fun _ : Bool => ()).Reachable twoRequests := by
  refine .start ⟨rfl, rfl, fun warning => ?_, fun _ => ⟨rfl, rfl, rfl⟩⟩
  cases warning <;> rfl

/-- The begin-request callback of one of them. -/
def beginIn (env : Env) (request : Bool) (state : Shared Bool Unit × (Bool → RequestState)) :
    Shared Bool Unit × (Bool → RequestState) :=
  let after : RequestState :=
    ⟨(onBeginRequest env (some .plain) (state.1.meets () (state.2 request)).world).state, true⟩
  (state.1.left request () (state.2 request) after, Function.update state.2 request after)

theorem beginIn_step (env : Env) (request : Bool)
    (state : Shared Bool Unit × (Bool → RequestState)) (waits : (state.2 request).begun = false) :
    (processSystem fun _ : Bool => ()).step state (request, ⟨env, .plain, .beginRequest⟩)
      (beginIn env request state) :=
  ⟨_, ⟨.begins waits, rfl⟩, rfl⟩

/-- One request is denied on its headers while the other waits for its body. -/
theorem process_transactions_apart_two : ∃ state : Shared Bool Unit × (Bool → RequestState),
    (processSystem fun _ : Bool => ()).Reachable state ∧
      made (state.1.log.map Prod.snd) = [0, 1] ∧ FinalUse (state.1.log.map Prod.snd) := by
  have denied := twoRequests_start.step (beginIn_step Raised.denied.env true _ rfl)
  have both := denied.step (beginIn_step .calm false _ rfl)
  exact ⟨_, both, by decide +kernel, (process_transactions_apart both).1⟩

/-- The rules file has been edited: it has another time and other rules. -/
def Env.edited : Env :=
  { Env.calm with
    rulesFileTime := fun _ => some { dwLowDateTime := 1#32, dwHighDateTime := 0#32 }
    loadFromUri := fun _ => .ok { secResponseBodyAccess := .falseConfigBoolean } }

theorem process_rules_fixed_edited : ∃ (later : Shared Bool Unit × (Bool → RequestState))
    (result : RulesResult) (after : World),
    ((processSystem fun _ : Bool => ()).startingAt (beginIn .calm true twoRequests)).Reachable
        later ∧
      getRules Env.edited [114] (later.1.meets () (later.2 false)).world = .returned result after ∧
      result.rules = some { secResponseBodyAccess := .trueConfigBoolean } := by
  have later : ((processSystem fun _ : Bool => ()).startingAt
      (beginIn .calm true twoRequests)).Reachable
        (beginIn Env.edited false (beginIn .calm true twoRequests)) :=
    System.Reachable.step (.start rfl) (beginIn_step Env.edited false _ rfl)
  obtain ⟨after, ran⟩ := Outcome.exists_returned
    (by decide +kernel : (getRules Env.edited [114]
        ((beginIn Env.edited false (beginIn .calm true twoRequests)).1.meets ()
          ((beginIn Env.edited false (beginIn .calm true twoRequests)).2 false)).world).value =
      some { rules := some { secResponseBodyAccess := .trueConfigBoolean }, err := [] })
  exact ⟨_, _, after, later, ran, process_rules_fixed later
    (by decide +kernel : (beginIn .calm true twoRequests).1.rulesCache [114] = some
      { rules := { secResponseBodyAccess := .trueConfigBoolean }
        mtime := { dwLowDateTime := 0#32, dwHighDateTime := 0#32 } }) false ran⟩

end ModSecurityIIS
