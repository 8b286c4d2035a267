import ModSecurityIIS.RequestDescription
import ModSecurityIIS.ResponseRun

/-!
# The order of the phases

The engine is taken through its phases: the headers of the request, its body, the headers of
the response, its body. The calls of an earlier phase all come before those of a later one.
-/

set_option autoImplicit false

namespace ModSecurityIIS

open Imperative Program Transition

/-! ## Phases -/

def EngineCall.phase : EngineCall → Option Nat
  | .processConnection _ _ _ _ => some 1
  | .processURI _ _ _ => some 1
  | .addRequestHeader _ _ => some 1
  | .processRequestHeaders => some 1
  | .appendRequestBody _ => some 2
  | .processRequestBody => some 2
  | .addResponseHeader _ _ => some 3
  | .processResponseHeaders _ _ => some 3
  | .appendResponseBody _ => some 4
  | .processResponseBody => some 4
  | _ => none

def Event.phase : Event → Option Nat
  | .engine _ call _ => call.phase
  | _ => none

/-- The phases of the engine calls, one after the other. -/
def phases (log : List Event) : List Nat := log.filterMap Event.phase

@[simp] theorem phases_append (front back : List Event) :
    phases (front ++ back) = phases front ++ phases back := List.filterMap_append

/-- The event belongs to the phase, or to none. -/
def Event.OfPhase (phase : Nat) (event : Event) : Prop :=
  event.phase = none ∨ event.phase = some phase

theorem phases_of_each {phase : Nat} {events : List Event}
    (each : ∀ event ∈ events, event.OfPhase phase) : ∀ other ∈ phases events, other = phase := by
  intro other member
  obtain ⟨event, inEvents, isOther⟩ := List.mem_filterMap.mp member
  rcases each event inEvents with none | phase
  · rw [none] at isOther
    cases isOther
  · rw [phase] at isOther
    exact (Option.some.inj isOther).symm

theorem Event.Intervenes.ofPhase {event : Event} (intervenes : event.Intervenes) (phase : Nat) :
    event.OfPhase phase := by
  cases event with
  | engine tx call completed => cases call <;> first | exact .inl rfl | exact absurd intervenes id
  | _ => exact .inl rfl

theorem Event.FeedsHeaders.ofPhase {event : Event} (feeds : event.FeedsHeaders) :
    event.OfPhase 3 := by
  cases event with
  | engine tx call completed =>
      cases call <;> first
        | exact .inl rfl
        | exact .inr rfl
        | exact absurd feeds id
  | _ => exact .inl rfl

theorem Event.EvaluatesResponse.ofPhase {event : Event} (evaluates : event.EvaluatesResponse) :
    event.OfPhase 4 := by
  cases event with
  | engine tx call completed =>
      cases call <;> first
        | exact .inl rfl
        | exact .inr rfl
        | exact absurd evaluates id
  | _ => exact .inl rfl

/-! ## Logs that rise -/

/-- The phases rise, none beyond the given one. -/
structure RisesTo (phase : Nat) (log : List Event) : Prop where
  rises : (phases log).Pairwise (· ≤ ·)
  below : ∀ other ∈ phases log, other ≤ phase

theorem RisesTo.mono {low high : Nat} {log : List Event} (rises : RisesTo low log)
    (higher : low ≤ high) : RisesTo high log :=
  ⟨rises.rises, fun other member => (rises.below other member).trans higher⟩

/-- A log that rises to a phase may grow by events of that phase. -/
theorem RisesTo.grown {phase : Nat} {log events : List Event} (rises : RisesTo phase log)
    (each : ∀ event ∈ events, event.OfPhase phase) : RisesTo phase (log ++ events) := by
  have same := phases_of_each each
  constructor
  · rw [phases_append, List.pairwise_append]
    refine ⟨rises.rises, ?_, ?_⟩
    · exact List.pairwise_of_forall_mem_list fun first firstIn second secondIn => by
        rw [same first firstIn, same second secondIn]
    · intro early earlyIn late lateIn
      rw [same late lateIn]
      exact rises.below early earlyIn
  · rw [phases_append]
    exact List.forall_mem_append.mpr ⟨rises.below, fun late lateIn => (same late lateIn).le⟩

/-! ## The invariant -/

/-- The body may follow while its read pends, and the response headers until they are fed. -/
structure World.Phased (w : World) : Prop where
  rises : RisesTo 4 w.log
  pending : w.rsc.bodyReadState = .readPending → RisesTo 2 w.log
  unfed : w.rsc.responseHeadersFed = false → RisesTo 3 w.log

/-- No read pends. -/
structure World.Answering (w : World) : Prop extends World.Phased w where
  idle : w.rsc.bodyReadState ≠ .readPending

theorem phased_of_risesTo {w : World} (rises : RisesTo 2 w.log) : w.Phased :=
  ⟨rises.mono (by omega), fun _ => rises, fun _ => rises.mono (by omega)⟩

/-- The body read and the response headers stand where they stood. -/
def SameStage (a b : RequestStoredContext) : Prop :=
  b.bodyReadState = a.bodyReadState ∧ b.responseHeadersFed = a.responseHeadersFed

instance : IsPreorder RequestStoredContext SameStage where
  refl _ := ⟨rfl, rfl⟩
  trans _ _ _ first second := ⟨second.1.trans first.1, second.2.trans first.2⟩

/-- A step beside the phases. -/
theorem World.Phased.aside {w after : World} (phased : w.Phased)
    (frame : Frame SameStage (fun event => event.phase = none) w after) : after.Phased := by
  obtain ⟨events, grown, each⟩ := frame.logged
  have rises {phase : Nat} (rises : RisesTo phase w.log) : RisesTo phase after.log := by
    rw [grown]
    exact rises.grown fun event member => .inl (each event member)
  refine ⟨rises phased.rises, ?_, ?_⟩
  · rw [frame.context.1]
    exact fun pending => rises (phased.pending pending)
  · rw [frame.context.2]
    exact fun unfed => rises (phased.unfed unfed)

theorem World.Answering.aside {w after : World} (answering : w.Answering)
    (frame : Frame SameStage (fun event => event.phase = none) w after) : after.Answering := by
  refine ⟨answering.toPhased.aside frame, ?_⟩
  rw [frame.context.1]
  exact answering.idle

/-! ## The request -/

/-- A described request without a response rises to its body: after a body event the description
is complete. -/
theorem Event.phase_of_silent {event : Event} {phase : Nat} (silent : ¬ event.OnResponse)
    (isPhase : event.phase = some phase) :
    phase = 1 ∧ event.isDescription = true ∨ phase = 2 ∧ event.isRequestBody = true := by
  cases event with
  | engine tx call completed =>
      cases call <;> first
        | exact .inl ⟨(Option.some.inj isPhase).symm, rfl⟩
        | exact .inr ⟨(Option.some.inj isPhase).symm, rfl⟩
        | exact absurd trivial silent
        | cases isPhase
  | _ => cases isPhase

theorem descriptions_ne_nil {log : List Event} {event : Event} (member : event ∈ log)
    (describes : event.isDescription = true) : descriptions log ≠ [] := by
  intro none
  cases event with
  | engine tx call completed =>
      have found : (call, completed) ∈ descriptions log :=
        List.mem_filterMap.mpr ⟨_, member, if_pos describes⟩
      rw [none] at found
      cases found
  | _ => cases describes

/-- Nothing is described after the body has begun. -/
theorem World.Introduced.undescribed {script : List EngineCall} {w : World}
    (introduced : w.Introduced script) {early late : List Event} {event : Event}
    (shape : w.log = early ++ event :: late) (isBody : event.isRequestBody = true) :
    descriptions (event :: late) = [] := by
  have front := introduced.front
  rw [shape, descriptions_append, introduced.before early event late shape isBody, List.map_append,
    told_fst] at front
  have length := front.length_le
  rw [List.length_append] at length
  have empty : (descriptions (event :: late)).map Prod.fst = [] :=
    List.eq_nil_of_length_eq_zero (by omega)
  exact List.map_eq_nil_iff.mp empty

theorem World.Introduced.risesTo {script : List EngineCall} {w : World}
    (introduced : w.Introduced script) (silent : ∀ event ∈ w.log, ¬ event.OnResponse) :
    RisesTo 2 w.log := by
  constructor
  · refine List.pairwise_filterMap.mpr (List.pairwise_iff_forall_sublist.mpr ?_)
    intro first second inOrder early isEarly late isLate
    obtain ⟨front, back, shape, inFront, inBack⟩ := List.cons_sublist_iff.mp inOrder
    rw [List.singleton_sublist] at inBack
    have lateSilent : ¬ second.OnResponse := silent second (by rw [shape]; simp [inBack])
    have earlySilent : ¬ first.OnResponse := silent first (by rw [shape]; simp [inFront])
    rcases Event.phase_of_silent earlySilent isEarly with ⟨rfl, _⟩ | ⟨rfl, isBody⟩
    · rcases Event.phase_of_silent lateSilent isLate with ⟨rfl, _⟩ | ⟨rfl, _⟩ <;> omega
    · rcases Event.phase_of_silent lateSilent isLate with ⟨_, describes⟩ | ⟨rfl, _⟩
      · obtain ⟨before, after, parts⟩ := List.append_of_mem inFront
        rw [parts, List.append_assoc, List.cons_append] at shape
        have none := introduced.undescribed shape isBody
        exact absurd none (descriptions_ne_nil (by simp [inBack]) describes)
      · exact le_refl 2
  · intro phase member
    obtain ⟨event, inLog, isPhase⟩ := List.mem_filterMap.mp member
    rcases Event.phase_of_silent (silent event inLog) isPhase with ⟨rfl, _⟩ | ⟨rfl, _⟩ <;> omega

/-- Steps that add events of the phase. -/
abbrev InPhase (phase : Nat) : World → World → Prop := Logs (Event.OfPhase phase)

section Phases

variable {α : Type} {env : Env} {context : HttpContext} {tx : TransactionId} {phase : Nat}

theorem RisesTo.inPhase {w after : World} (rises : RisesTo phase w.log)
    (steps : InPhase phase w after) : RisesTo phase after.log := by
  obtain ⟨events, grown, each⟩ := steps.logged
  rw [grown]
  exact rises.grown each

theorem bodySteps_inPhase : BodySteps env context (InPhase 2) := by
  refine bodySteps_logs ?_ (fun _ _ _ => .inr rfl) (fun _ _ => .inr rfl)
    fun _ intervenes => intervenes.ofPhase 2
  intro event idle
  cases event with
  | engine => exact absurd idle id
  | _ => exact .inl rfl

/-! ## The response -/

/-- The headers stay fed, and the body read stands where it stood. -/
def KeepsPhases (a b : RequestStoredContext) : Prop :=
  b.bodyReadState = a.bodyReadState ∧ (a.responseHeadersFed = true → b.responseHeadersFed = true)

instance : IsPreorder RequestStoredContext KeepsPhases where
  refl _ := ⟨rfl, id⟩
  trans _ _ _ first second := ⟨second.1.trans first.1, fun fed => second.2 (first.2 fed)⟩

theorem keepsPhases_responseChanges : ResponseChanges KeepsPhases where
  fed _ := ⟨rfl, fun _ => rfl⟩
  degraded _ := ⟨rfl, id⟩
  evaluated _ := ⟨rfl, id⟩
  released _ := ⟨rfl, id⟩

/-- The header phase runs to its end only by feeding the headers. -/
theorem headerPhase_fed (notification : SendResponse) :
    Ensures (fun _ => True) (headerPhase env context notification tx)
      (fun finished w => finished = false → w.rsc.responseHeadersFed = true) fun _ => True := by
  refine .bind (fun seen w => seen = w) (fun _ _ => rfl) fun seen => ?_
  split
  · next fed => exact .pure fun w same _ => same ▸ fed
  · refine .skip (fun _ => trivial) fun _ => .skip (fun _ => trivial) fun _ => ?_
    refine .skip (fun _ => trivial) fun _ => .skip (fun _ => trivial) fun _ => ?_
    refine .skip (fun _ => trivial) fun _ => .skip (fun _ => trivial) fun _ => ?_
    refine .skip (fun _ => trivial) fun blocked => ?_
    split
    · exact .pure fun _ _ => nofun
    · exact fun _ _ _ => rfl

theorem headerPhase_leaves (notification : SendResponse) :
    Leaves World.Answering (headerPhase env context notification tx)
      (fun finished w => w.Answering ∧ (finished = false → w.rsc.responseHeadersFed = true))
      World.Answering := by
  refine .and ?_ ((headerPhase_fed notification).consequence (fun _ _ => trivial)
    (fun _ _ fed => fed) fun _ _ => trivial)
  have feeds : Leaves (fun w => w.Answering ∧ w.rsc.responseHeadersFed = false)
      (headerPhase env context notification tx) (fun _ => World.Answering) World.Answering := by
    refine Leaves.of_within (headerPhase_frame keepsPhases_responseChanges.fed
      keepsPhases_responseChanges.released (fun _ feeds => feeds.ofPhase) env context
      notification tx) ?_
    rintro before after ⟨answering, unfed⟩ frame
    obtain ⟨events, grown, each⟩ := frame.logged
    have rises : RisesTo 3 after.log := by
      rw [grown]
      exact (answering.unfed unfed).grown each
    have idle : after.rsc.bodyReadState ≠ .readPending := by
      rw [frame.context.1]
      exact answering.idle
    exact ⟨⟨rises.mono (by omega), fun pending => absurd pending idle, fun _ => rises⟩, idle⟩
  intro w holds
  cases fed : w.rsc.responseHeadersFed with
  | true =>
      rw [headerPhase, bind_returned (get_apply w), if_pos fed]
      exact holds
  | false => exact feeds w ⟨holds, fed⟩

/-- Steps that leave the headers fed. -/
theorem fed_leaves {program : Program World α}
    (within : Within (Frame KeepsPhases (Event.OfPhase 4)) program) :
    Leaves (fun w => w.Answering ∧ w.rsc.responseHeadersFed = true) program
      (fun _ => World.Answering) World.Answering := by
  refine Leaves.of_within within ?_
  rintro before after ⟨answering, fed⟩ frame
  obtain ⟨events, grown, each⟩ := frame.logged
  have rises : RisesTo 4 after.log := by
    rw [grown]
    exact answering.rises.grown each
  have idle : after.rsc.bodyReadState ≠ .readPending := by
    rw [frame.context.1]
    exact answering.idle
  have still := frame.context.2 fed
  refine ⟨⟨rises, fun pending => absurd pending idle, fun unfed => ?_⟩, idle⟩
  rw [still] at unfed
  cases unfed

theorem bodyPhase_inPhase (notification : SendResponse) :
    Within (Frame KeepsPhases (Event.OfPhase 4)) (bodyPhase env context notification tx) := by
  apply bodyPhase_within
  · exact inspectChunks_frame (fun _ _ => .inr rfl) _
  · exact modeA_frame keepsPhases_responseChanges (fun _ evaluates => evaluates.ofPhase) env context
      notification
  · exact modeB_frame keepsPhases_responseChanges.evaluated
      (fun _ detects => detects.evaluatesResponse.ofPhase) env context notification

theorem onSendResponse_leaves (notification : SendResponse) :
    Leaves World.Answering (onSendResponse env context notification)
      (fun _ => World.Answering) World.Answering := by
  have fails : Within (Frame SameStage fun event => event.phase = none)
      (reportException env "OnSendResponse" >>= fun _ => sendResponseExceptionPolicy context) :=
    failSend_frame (show Event.phase (.response _) = none from rfl) env context
  refine .tryCatch ?_ (Leaves.of_within fails fun _ _ holds frame => holds.aside frame)
    fun _ holds => holds
  refine .seen fun w holds => .at holds ?_
  split
  · exact .pure fun _ holds => holds
  next tx _ =>
    split
    · refine .bind _ (headerPhase_leaves notification) fun finished => ?_
      split
      · exact .pure fun _ holds => holds.1
      · next unfinished =>
          refine (fed_leaves (bodyPhase_inPhase notification)).consequence ?_
            (fun _ _ holds => holds) fun _ holds => holds
          exact fun _ holds => ⟨holds.1, holds.2 (by simpa using unfinished)⟩
    · exact .pure fun _ holds => holds

/-! ## Every run -/

theorem finalizes_phase {event : Event} (finalizes : event.Finalizes) : event.phase = none := by
  cases event with
  | engine tx call completed => cases call <;> first | rfl | exact absurd finalizes id
  | _ => rfl

theorem onAsyncCompletion_phased (completion : Option (Nat × HResult)) {w : World}
    (phased : w.Phased) : (onAsyncCompletion env (some context) completion w).state.Phased := by
  by_cases pending : w.rsc.bodyReadState = .readPending
  · have steps := onAsyncCompletion_within (@bodySteps_inPhase env context) completion w
    exact phased_of_risesTo ((phased.pending pending).inPhase steps)
  · cases completion with
    | none => exact phased
    | some completed =>
        rw [onAsyncCompletion, bind_returned (get_apply w)]
        split <;> exact phased

/-- IIS raises `RQ_SEND_RESPONSE` for a request whose body read does not pend. -/
def RequestState.Orderly (s : RequestState) (occurrence : Occurrence) : Prop :=
  ∀ notification, occurrence.callback = .sendResponse notification →
    s.world.rsc.bodyReadState ≠ .readPending

theorem Occurrence.run_phased {occurrence : Occurrence}
    (follows : occurrence.callback ≠ .beginRequest) {s : RequestState}
    (orderly : s.Orderly occurrence) (phased : s.world.Phased) :
    (occurrence.run s.world).state.Phased := by
  obtain ⟨env, context, callback⟩ := occurrence
  cases callback with
  | beginRequest => exact absurd rfl follows
  | asyncCompletion completion => exact onAsyncCompletion_phased completion phased
  | readCompleted =>
      change (completeRead env context s.world).state.Phased
      rw [completeRead, bind_returned (get_apply s.world)]
      cases s.world.outstanding with
      | none => exact phased
      | some completion =>
          exact onAsyncCompletion_phased _ ⟨phased.rises, phased.pending, phased.unfed⟩
  | sendResponse notification =>
      have answering : (s.world.raised notification).Answering :=
        ⟨⟨phased.rises, phased.pending, phased.unfed⟩, orderly notification rfl⟩
      exact ((onSendResponse_leaves notification).state answering).toPhased
  | postEndRequest => exact phased
  | cleanupStoredContext =>
      have leaves : Leaves World.Phased
          (cleanupStoredContext env >>= fun _ => pure NotificationStatus.rqNotificationContinue)
          (fun _ => World.Phased) World.Phased := by
        refine .bind (fun _ => World.Phased) ?_ fun _ => .pure fun _ holds => holds
        refine .seen fun w holds => .at holds (.when fun _ => ?_)
        have finishes : Within (Frame SameStage fun event => event.phase = none)
            (finishRequest env) :=
          finishRequest_frame env (fun _ => ⟨rfl, rfl⟩) fun _ => finalizes_phase
        refine .bind _ (Leaves.of_within finishes fun _ _ holds frame => holds.aside frame)
          fun _ => ?_
        exact .modify fun _ holds => ⟨holds.rises, holds.pending, holds.unfed⟩
      exact leaves.state phased

theorem onBeginRequest_phased {req : HttpRequest} (raw : context.rawRequest = some req)
    {w : World} (untold : w.Told (told [])) (start : ResponseStart w) :
    (onBeginRequest env (some context) w).state.Phased := by
  have introduced : (onBeginRequest env (some context) w).state.Introduced
      (requestCalls env context req) := (onBeginRequest_leaves raw).state untold
  have begins : Within BeforeResponse (onBeginRequest env (some context)) :=
    .bind (.tryCatch (beginRequestBlock_beforeResponse _)
      (.bind (report_beforeResponse _) fun _ => .pure _)) fun _ => .pure _
  exact phased_of_risesTo (introduced.risesTo (begins w start).silent)

/-- In every run of a request whose responses are sent while no read pends, the engine is taken
through its phases in their order: nothing of an earlier phase follows a later one. -/
theorem phases_in_order {req : HttpRequest} {start s : RequestState}
    (initial : requestSystem.initial start) (fresh : start.world.rsc = .new)
    (raw : context.rawRequest = some req)
    (reached : (requestSystem.startingAt
      ⟨(onBeginRequest env (some context) start.world).state, true⟩).Reaches
        RequestState.Orderly s) :
    (phases s.world.log).Pairwise (· ≤ ·) := by
  have untold : start.world.Told (told []) := by
    refine ⟨by rw [initial.1]; rfl, by simp [initial.1], ?_⟩
    rw [fresh]
    simp [RequestStoredContext.new]
  have silent : ResponseStart start.world := by
    refine ⟨?_, ?_, by simp [initial.1]⟩ <;> rw [fresh] <;> rfl
  have kept : s.begun = true ∧ s.world.Phased := by
    refine @System.Reaches.invariant _ _ _ _ (fun state => state.begun = true ∧
      state.world.Phased) ?_ ?_ _ reached
    · intro state same
      rw [same]
      exact ⟨rfl, onBeginRequest_phased raw untold silent⟩
    · intro state occurrence after holds orderly step
      obtain ⟨begun, phased⟩ := holds
      cases step with
      | begins waits =>
          rw [RequestState.Allows, begun] at waits
          cases waits
      | follows follows _ => exact ⟨begun, Occurrence.run_phased follows orderly phased⟩
  exact kept.2.rises.rises

end Phases

/-- A request with a body of one byte, answered in one piece. -/
theorem phases_in_order_oneByte : ∃ s : RequestState,
    phases s.world.log = [1, 1, 1, 2, 2, 3, 4, 4] ∧ (phases s.world.log).Pairwise (· ≤ ·) := by
  have answered : ∃ s : RequestState, (requestSystem.startingAt
      ⟨(onBeginRequest .calm (some .plain)
        (World.arrived [7] [⟨1, .sOk, false⟩, ⟨0, .sOk, false⟩])).state, true⟩).Reaches
          RequestState.Orderly s ∧ phases s.world.log = [1, 1, 1, 2, 2, 3, 4, 4] := by
    refine ⟨_, .next (.start rfl) ?_ (@RequestStep.follows _
      ⟨.calm, .plain, .sendResponse (.flush [.twoBytes] false)⟩ nofun trivial), ?_⟩
    · intro _ _
      decide +kernel
    · decide +kernel
  obtain ⟨s, reached, shape⟩ := answered
  have inOrder := @phases_in_order Env.calm .plain .plain
    ⟨World.arrived [7] [⟨1, .sOk, false⟩, ⟨0, .sOk, false⟩], false⟩ s ⟨rfl, rfl, rfl⟩ rfl rfl reached
  exact ⟨s, shape, inOrder⟩

end ModSecurityIIS
