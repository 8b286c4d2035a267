import ModSecurityIIS.SendResponseCases

/-!
# One pass over the response headers

The header phase hands the headers of its notification to the transaction in order. That
they are handed over once in a request needs that no header phase begins after one that
was cut short by an exception.
-/

set_option autoImplicit false

namespace ModSecurityIIS

open Imperative Program Transition

/-- The `addResponseHeader` calls of a log. -/
def additions (log : List Event) : List EngineCall :=
  log.filterMap fun event =>
    match event with
    | .engine _ (.addResponseHeader name value) _ => some (.addResponseHeader name value)
    | _ => none

def Event.isHeaderEvaluation : Event → Bool
  | .engine _ (.processResponseHeaders _ _) _ => true
  | _ => false

/-- The calls that feed response headers. -/
def Event.OnHeaders : Event → Prop
  | .engine _ (.addResponseHeader _ _) _ => True
  | .engine _ (.processResponseHeaders _ _) _ => True
  | _ => False

def knownHeaderCall (headers : HttpHeaders) (entry : HttpHeaderId × String) : List EngineCall :=
  match headers.known entry.1 with
  | none => []
  | some raw => [.addResponseHeader (bytesOf entry.2) (cStr (aToUtf8 (some raw)))]

def unknownHeaderCall (header : Option Bytes × Option Bytes) : EngineCall :=
  .addResponseHeader (cStr (aToUtf8 header.1)) (cStr (aToUtf8 header.2))

/-- One call for each header of a response, in the order of the handler. -/
def headerCalls (headers : HttpHeaders) : List EngineCall :=
  responseHeaders.flatMap (knownHeaderCall headers) ++ headers.unknown.map unknownHeaderCall

@[simp] theorem additions_append (first second : List Event) :
    additions (first ++ second) = additions first ++ additions second :=
  List.filterMap_append

theorem additions_offHeaders {events : List Event} (off : ∀ event ∈ events, ¬ event.OnHeaders) :
    additions events = [] := by
  rw [additions, List.filterMap_eq_nil_iff]
  intro event member
  have silent := off event member
  cases event with
  | engine tx call completed => cases call <;> first | rfl | exact absurd trivial silent
  | _ => rfl

theorem evaluations_offHeaders {events : List Event} (off : ∀ event ∈ events, ¬ event.OnHeaders) :
    events.countP Event.isHeaderEvaluation = 0 := by
  rw [List.countP_eq_zero]
  intro event member
  have silent := off event member
  cases event with
  | engine tx call completed =>
      cases call <;> first | exact Bool.false_ne_true | exact absurd trivial silent
  | _ => exact Bool.false_ne_true

/-! ## One notification -/

/-- Since `log` exactly the given headers were handed over, and nothing was evaluated. -/
def Handed (log : List Event) (calls : List EngineCall) (w : World) : Prop :=
  ∃ events, w.log = log ++ events ∧ additions events = calls ∧
    events.countP Event.isHeaderEvaluation = 0

/-- Since `log` a part of the headers was handed over from the front, and they were
evaluated at most once. -/
def FedFrom (log : List Event) (headers : HttpHeaders) (w : World) : Prop :=
  ∃ events, w.log = log ++ events ∧ additions events <+: headerCalls headers ∧
    events.countP Event.isHeaderEvaluation ≤ 1

theorem Handed.fedFrom {log : List Event} {calls : List EngineCall} {headers : HttpHeaders}
    {w : World} (handed : Handed log calls w) (front : calls <+: headerCalls headers) :
    FedFrom log headers w := by
  obtain ⟨events, shape, added, none⟩ := handed
  exact ⟨events, shape, by rw [added]; exact front, by omega⟩

/-- Steps that feed no header. -/
abbrev OffHeaders : World → World → Prop := Frame (fun _ _ => True) fun event => ¬ event.OnHeaders

theorem FedFrom.offHeaders {log : List Event} {headers : HttpHeaders} {w after : World}
    (fed : FedFrom log headers w) (frame : OffHeaders w after) : FedFrom log headers after := by
  obtain ⟨events, shape, front, few⟩ := fed
  obtain ⟨others, rest, off⟩ := frame.logged
  refine ⟨events ++ others, by rw [rest, shape, List.append_assoc], ?_, ?_⟩
  · rw [additions_append, additions_offHeaders off, List.append_nil]
    exact front
  · rw [List.countP_append, evaluations_offHeaders off]
    omega

section Notification

variable {env : Env} {context : HttpContext} {notification : SendResponse} {tx : TransactionId}
  {log : List Event} {headers : HttpHeaders}

theorem addHeader_handed {front : List EngineCall} {name value : Bytes}
    (reach : front ++ [.addResponseHeader name value] <+: headerCalls headers) :
    Ensures (Handed log front)
      (do
        mayThrow env
        engineCall env tx (.addResponseHeader name value))
      (fun _ => Handed log (front ++ [.addResponseHeader name value]))
      (FedFrom log headers) := by
  have begun : front <+: headerCalls headers := (List.prefix_append _ _).trans reach
  rintro w ⟨events, shape, added, none⟩
  have allocates := mayThrow_apply env w
  by_cases threw : env.throws w.tick = true
  · rw [if_pos threw] at allocates
    rw [bind_thrown allocates]
    exact Handed.fedFrom ⟨events, shape, added, none⟩ begun
  · rw [if_neg threw] at allocates
    rw [bind_returned allocates, engineCall_apply]
    have handed : Handed log (front ++ [.addResponseHeader name value])
        (w.advance.called env tx (.addResponseHeader name value)) := by
      refine ⟨events ++ [.engine tx (.addResponseHeader name value)
        (!env.throws w.advance.tick)], ?_, ?_, ?_⟩
      · change w.log ++ _ = _
        rw [shape, List.append_assoc]
      · rw [additions_append, added]
        rfl
      · rw [List.countP_append, none]
        rfl
    split
    · exact handed.fedFrom reach
    · exact handed

theorem addKnownHeaders_handed :
    Ensures (Handed log []) (addKnownHeaders env tx .addResponseHeader headers responseHeaders)
      (fun _ => Handed log (responseHeaders.flatMap (knownHeaderCall headers)))
      (FedFrom log headers) := by
  apply @Ensures.forEach World _ (FedFrom log headers) responseHeaders _
    fun front => Handed log (front.flatMap (knownHeaderCall headers))
  intro front entry back table
  have reach : front.flatMap (knownHeaderCall headers) ++ knownHeaderCall headers entry <+:
      headerCalls headers := by
    rw [headerCalls, table]
    simp only [List.flatMap_append, List.flatMap_cons, List.append_assoc]
    exact (List.prefix_append_right_inj _).mpr (List.prefix_append _ _)
  rw [List.flatMap_append, List.flatMap_singleton]
  cases raw : headers.known entry.1 with
  | none =>
      rw [knownHeaderCall, raw, List.append_nil]
      exact Ensures.pure fun _ handed => handed
  | some value =>
      simp only [knownHeaderCall, raw] at reach ⊢
      exact addHeader_handed reach

theorem addUnknownHeaders_handed :
    Ensures (Handed log (responseHeaders.flatMap (knownHeaderCall headers)))
      (addUnknownHeaders env tx .addResponseHeader headers)
      (fun _ => Handed log (headerCalls headers)) (FedFrom log headers) := by
  have loop : Ensures (Handed log (responseHeaders.flatMap (knownHeaderCall headers) ++
      ([] : List (Option Bytes × Option Bytes)).map unknownHeaderCall))
      (addUnknownHeaders env tx .addResponseHeader headers)
      (fun _ => Handed log (headerCalls headers)) (FedFrom log headers) := by
    apply @Ensures.forEach World _ (FedFrom log headers) headers.unknown _ fun front =>
      Handed log (responseHeaders.flatMap (knownHeaderCall headers) ++ front.map unknownHeaderCall)
    intro front header back shape
    rw [List.map_append, ← List.append_assoc]
    apply addHeader_handed
    rw [headerCalls, shape]
    simp only [List.map_append, List.map_cons, List.append_assoc]
    exact (List.prefix_append_right_inj _).mpr
      ((List.prefix_append_right_inj _).mpr (List.prefix_append [unknownHeaderCall header] _))
  rw [List.map_nil, List.append_nil] at loop
  exact loop

theorem Ensures.fedFrom {α : Type} {program : Program World α} (off : Within OffHeaders program) :
    Ensures (FedFrom log headers) program (fun _ => FedFrom log headers) (FedFrom log headers) :=
  Ensures.of_within off fun _ _ fed frame => fed.offHeaders frame

theorem Event.Intervenes.offHeaders {event : Event} (intervenes : event.Intervenes) :
    ¬ event.OnHeaders := by
  cases event with
  | engine tx call completed => cases call <;> first | exact id | exact absurd intervenes id
  | _ => exact id

theorem evaluateHeaders_fedFrom {code : Nat} {protocol : Bytes} :
    Ensures (Handed log (headerCalls headers))
      (engineCall env tx (.processResponseHeaders code protocol))
      (fun _ => FedFrom log headers) (FedFrom log headers) := by
  rintro w ⟨events, shape, added, none⟩
  have evaluated : FedFrom log headers (w.called env tx (.processResponseHeaders code protocol)) := by
    refine ⟨events ++ [.engine tx (.processResponseHeaders code protocol)
      (!env.throws w.tick)], ?_, ?_, ?_⟩
    · change w.log ++ _ = _
      rw [shape, List.append_assoc]
    · rw [additions_append, added]
      exact (List.append_nil _).symm ▸ List.prefix_refl _
    · rw [List.countP_append, none]
      exact Nat.le_refl 1
  rw [engineCall_apply]
  split
  · exact evaluated
  · exact evaluated

theorem feedResponseHeaders_fedFrom :
    Ensures (Handed log []) (feedResponseHeaders env context notification tx)
      (fun _ => FedFrom log notification.response.headers)
      (FedFrom log notification.response.headers) := by
  apply Ensures.bind _ addKnownHeaders_handed
  intro _
  apply Ensures.bind _ addUnknownHeaders_handed
  intro _
  apply Ensures.bind fun _ => Handed log (headerCalls notification.response.headers)
  · intro w handed
    have whole := handed.fedFrom (List.prefix_refl (headerCalls notification.response.headers))
    rw [mayThrow_apply]
    by_cases threw : env.throws w.tick = true
    · rw [if_pos threw]
      exact whole
    · rw [if_neg threw]
      exact handed
  · intro _
    apply Ensures.bind fun _ => Handed log (headerCalls notification.response.headers)
    · exact fun _ handed => handed
    · intro seen
      apply Ensures.bind _ evaluateHeaders_fedFrom
      intro _
      apply Ensures.bind _ (Ensures.fedFrom (responseBodyBlockingEnabled_frame env fun _ _ => id))
      intro blocking
      apply Ensures.bind _ (Ensures.fedFrom (applyIntervention_frame env context blocking
        (fun _ => trivial) fun _ intervenes => intervenes.offHeaders))
      intro blocked
      split
      · exact Ensures.pure fun _ fed => fed
      · apply Ensures.bind _ (Ensures.fedFrom (modifyContext_frame fun _ => trivial))
        intro _
        exact Ensures.pure fun _ fed => fed

theorem Event.EvaluatesResponse.offHeaders {event : Event}
    (evaluates : event.EvaluatesResponse) : ¬ event.OnHeaders := by
  cases event with
  | engine tx call completed => cases call <;> first | exact id | exact absurd evaluates id
  | _ => exact id

theorem bodyPhase_offHeaders : Within OffHeaders (bodyPhase env context notification tx) := by
  have changes : ResponseChanges fun _ _ => True :=
    ⟨fun _ => trivial, fun _ => trivial, fun _ => trivial, fun _ => trivial⟩
  apply bodyPhase_within
  · exact inspectChunks_frame (fun _ _ => id) _
  · exact modeA_frame changes (fun _ evaluates => evaluates.offHeaders) env context notification
  · exact modeB_frame (fun _ => trivial)
      (fun _ detects => detects.evaluatesResponse.offHeaders) env context notification

theorem failSend_offHeaders : Within OffHeaders (failSend env context) :=
  failSend_frame id env context

theorem onSendResponse_offHeaders {w after : World} {status : NotificationStatus}
    (fed : w.rsc.responseHeadersFed = true)
    (ran : onSendResponse env context notification w = .returned status after) :
    OffHeaders w after := by
  by_cases inspects : w.Inspects context notification
  · obtain ⟨tx, live⟩ := Option.ne_none_iff_exists'.mp inspects.2.1
    have passed : headerPhase env context notification tx w = .returned false w := by
      rw [headerPhase, bind_returned (get_apply w), fed]
      rfl
    cases onSendResponse_ends inspects live ran with
    | blocked heads => rw [passed] at heads; cases heads
    | headersFailed heads policy => rw [passed] at heads; cases heads
    | sent heads body =>
        rw [passed] at heads
        cases heads
        have frame : OffHeaders w (bodyPhase env context notification tx w).state :=
          bodyPhase_offHeaders w
        rw [body] at frame
        exact frame
    | @bodyFailed _ failed _ _ heads body policy =>
        rw [passed] at heads
        cases heads
        have frame : OffHeaders w (bodyPhase env context notification tx w).state :=
          bodyPhase_offHeaders w
        rw [body] at frame
        have rest : OffHeaders failed (failSend env context failed).state :=
          failSend_offHeaders failed
        rw [policy] at rest
        exact trans_of OffHeaders frame rest
  · rw [onSendResponse_of_not_inspects inspects] at ran
    cases ran
    exact refl_of OffHeaders w

theorem onSendResponse_fedFrom {w after : World} {status : NotificationStatus}
    (ran : onSendResponse env context notification w = .returned status after) :
    FedFrom w.log notification.response.headers after := by
  have begun : Handed w.log [] w := ⟨[], (List.append_nil _).symm, rfl, rfl⟩
  by_cases inspects : w.Inspects context notification
  · obtain ⟨tx, live⟩ := Option.ne_none_iff_exists'.mp inspects.2.1
    have heads : Ensures (Handed w.log []) (headerPhase env context notification tx)
        (fun _ => FedFrom w.log notification.response.headers)
        (FedFrom w.log notification.response.headers) := by
      intro v handed
      rw [headerPhase, bind_returned (get_apply v)]
      split
      · exact handed.fedFrom List.nil_prefix
      · exact feedResponseHeaders_fedFrom v handed
    have inspection : Ensures (Handed w.log []) (inspectSend env context notification tx)
        (fun _ => FedFrom w.log notification.response.headers)
        (FedFrom w.log notification.response.headers) := by
      apply Ensures.bind _ heads
      intro finished
      split
      · exact Ensures.pure fun _ fed => fed
      · exact Ensures.fedFrom bodyPhase_offHeaders
    rw [onSendResponse_of_inspects inspects live] at ran
    exact (inspection.tryCatch (Ensures.fedFrom failSend_offHeaders)).returned begun ran
  · rw [onSendResponse_of_not_inspects inspects] at ran
    cases ran
    exact begun.fedFrom List.nil_prefix

end Notification

/-! ## Whole runs -/

/-- A run with its notifications: all headers handed over are those of one of them, each at
most once, and they are evaluated at most once. -/
structure FedOnce (run : ResponseState × List Raised) : Prop where
  added : additions run.1.world.log = [] ∨ ∃ raised ∈ run.2,
    additions run.1.world.log <+: headerCalls raised.notification.response.headers
  evaluated : run.1.world.log.countP Event.isHeaderEvaluation ≤ 1

/-- A notification that is inspected with the headers unfed finds that none was handed over
before. -/
def feedCondition (context : HttpContext) (run : ResponseState × List Raised) (raised : Raised) :
    Prop :=
  run.1.world.Inspects context raised.notification → run.1.world.rsc.responseHeadersFed = false →
    ∀ event ∈ run.1.world.log, ¬ event.OnHeaders

section Runs

variable {process : Env} {context : HttpContext} {run next : ResponseState × List Raised}
  {raised : Raised}

theorem fedOnce_step (once : FedOnce run) (condition : feedCondition context run raised)
    (step : (responseSystem process context).recording.step run raised next) : FedOnce next := by
  obtain ⟨raise, past⟩ := step
  obtain ⟨s, history⟩ := run
  obtain ⟨t, later⟩ := next
  obtain @⟨status, after, _, ran⟩ := raise
  rw [raiseSendResponse_apply] at ran
  simp only at past
  by_cases silent : ∀ event ∈ s.world.log, ¬ event.OnHeaders
  · obtain ⟨events, shape, front, few⟩ := onSendResponse_fedFrom ran
    have shape : after.log = s.world.log ++ events := shape
    constructor
    · right
      refine ⟨raised, by rw [past]; simp, ?_⟩
      change additions after.log <+: _
      rw [shape, additions_append, additions_offHeaders silent, List.nil_append]
      exact front
    · change after.log.countP _ ≤ 1
      rw [shape, List.countP_append, evaluations_offHeaders silent]
      omega
  · have off : OffHeaders (s.world.raised raised.notification) after := by
      by_cases inspects : (s.world.raised raised.notification).Inspects context raised.notification
      · cases fed : s.world.rsc.responseHeadersFed with
        | true => exact onSendResponse_offHeaders fed ran
        | false => exact absurd (condition inspects fed) silent
      · rw [onSendResponse_of_not_inspects inspects] at ran
        cases ran
        exact refl_of OffHeaders _
    obtain ⟨events, shape, none⟩ := off.logged
    have shape : after.log = s.world.log ++ events := shape
    constructor
    · change additions after.log = [] ∨ ∃ other ∈ later, additions after.log <+: _
      rw [shape, additions_append, additions_offHeaders none, List.append_nil]
      rcases once.added with empty | ⟨other, member, front⟩
      · exact .inl empty
      · right
        exact ⟨other, by rw [past]; exact List.mem_append_left _ member, front⟩
    · change after.log.countP _ ≤ 1
      rw [shape, List.countP_append, evaluations_offHeaders none]
      exact once.evaluated

/-- In a run whose every notification meets the condition, the headers are fed once. -/
theorem headers_fed_once
    (reached : (responseSystem process context).recording.Reaches (feedCondition context) run) :
    FedOnce run := by
  apply reached.invariant
  · intro start begun
    have silent : ∀ event ∈ start.1.world.log, ¬ event.OnHeaders := by
      intro event member fed
      have off := begun.1.1.silent event member
      cases event with
      | engine tx call completed => cases call <;> first | exact off trivial | exact fed
      | _ => exact fed
    constructor
    · exact .inl (additions_offHeaders silent)
    · rw [evaluations_offHeaders silent]
      exact Nat.zero_le _
  · intro state raised after once condition step
    exact fedOnce_step once condition step

end Runs

/-- Two notifications without an exception: the second finds the headers fed. -/
theorem headers_fed_once_streamed : ∃ run : ResponseState × List Raised,
    run.2.length = 2 ∧ run.1.world.log.countP Event.isHeaderEvaluation = 1 ∧ FedOnce run := by
  have start : (responseSystem .calm .plain).recording.Reaches (feedCondition .plain)
      ({ world := .begun, committed := none }, []) := .start ⟨⟨begun_responseStart, rfl⟩, rfl⟩
  have silent : ∀ event ∈ World.begun.log, ¬ event.OnHeaders := by simp [World.begun, World.arrived]
  have streamed := start.record (fun _ _ => silent)
    (@ResponseStep.of_value _ _ _ (.calm [.twoBytes] true) .rqNotificationContinue
      rfl (by decide +kernel))
  have ended := streamed.record (fun _ unfed => absurd unfed (by decide +kernel))
    (@ResponseStep.of_value _ _ _ (.calm [.twoBytes] false) .rqNotificationContinue
      rfl (by decide +kernel))
  exact ⟨_, rfl, by decide +kernel, headers_fed_once ended⟩

/-- The engine throws when it is asked for the intervention of phase 3. -/
def Raised.undecided : Raised where
  env := { Env.calm with throws := (· == 5) }
  notification := .flush [] false

/-- The exception ends the request with the headers evaluated but not marked as fed: the
notification for the error response feeds them again. -/
theorem headers_fed_twice : ∃ run : ResponseState × List Raised,
    (responseSystem .calm .plain).recording.Reachable run ∧ ¬ FedOnce run := by
  have start : (responseSystem .calm .plain).recording.Reachable
      ({ world := .begun, committed := none }, []) := .start ⟨⟨begun_responseStart, rfl⟩, rfl⟩
  have refused := start.record trivial (@ResponseStep.of_value _ _ _ .undecided
    .rqNotificationFinishRequest rfl (by decide +kernel))
  have error := refused.record trivial (@ResponseStep.of_value _ _ _ (.calm [] false)
    .rqNotificationContinue rfl (by decide +kernel))
  refine ⟨_, error, ?_⟩
  intro once
  exact absurd once.evaluated (by decide +kernel)

end ModSecurityIIS
