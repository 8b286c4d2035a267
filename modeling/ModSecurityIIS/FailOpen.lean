import ModSecurityIIS.SendResponseCases

/-!
# Exceptions in a response that can be blocked

A response that is sent at once leaves the worker only after its headers have been reviewed.
Its body has been reviewed as well, unless an exception ended the handler after the headers:
then the handler lets the response go.
-/

set_option autoImplicit false

namespace ModSecurityIIS

open Imperative Program Transition

/-- Since the first world the call has completed on the transaction, and no disruptive
intervention was reported after it. -/
def Reviewed (tx : TransactionId) (call : EngineCall) (w after : World) : Prop :=
  ∃ before later, after.log = w.log ++ (before ++ .engine tx call true :: later) ∧
    ∀ event ∈ later, ¬ event.Disruptive

/-- Response blocking is enabled: the switch and the rules allow it and the engine is on. -/
structure Armed (env : Env) (rsc : RequestStoredContext) (tx : TransactionId) : Prop where
  asks : rsc.AsksEngine
  live : rsc.tx = some tx
  enabled : ∀ tick, env.ruleEngineState tick = .enabledRuleEngine

theorem Reviewed.quietly {tx : TransactionId} {call : EngineCall} {w middle after : World}
    (reviewed : Reviewed tx call w middle)
    (quiet : ∃ events, after.log = middle.log ++ events ∧ ∀ event ∈ events, ¬ event.Disruptive) :
    Reviewed tx call w after := by
  obtain ⟨before, later, shape, clear⟩ := reviewed
  obtain ⟨events, grown, each⟩ := quiet
  refine ⟨before, later ++ events, ?_, ?_⟩
  · rw [grown, shape]
    simp only [List.append_assoc, List.cons_append]
  · exact List.forall_mem_append.mpr ⟨clear, each⟩

section Steps

variable {env : Env} {context : HttpContext} {notification : SendResponse} {tx : TransactionId}

theorem Armed.same {rsc other : RequestStoredContext} (armed : Armed env rsc tx)
    (tx_ : other.tx = rsc.tx) (rules : other.rules = rsc.rules)
    (block : other.responseBodyBlock = rsc.responseBodyBlock) : Armed env other tx := by
  obtain ⟨current, found, live, loaded, allowed, access⟩ := armed.asks
  exact ⟨⟨current, found, tx_.trans live, rules.trans loaded, block.trans allowed, access⟩,
    tx_.trans armed.live, armed.enabled⟩

theorem engineCall_returned {call : EngineCall} {w after : World}
    (ran : engineCall env tx call w = .returned () after) :
    after.rsc = w.rsc ∧ after.log = w.log ++ [.engine tx call true] := by
  rw [engineCall_apply] at ran
  split at ran
  · cases ran
  · next calm =>
      cases ran
      simp [World.called, World.advance, Bool.eq_false_iff.mpr calm]

theorem responseBodyBlockingEnabled_armed {w after : World} {blocking : Bool}
    (armed : Armed env w.rsc tx)
    (ran : responseBodyBlockingEnabled env w = .returned blocking after) :
    blocking = true ∧ Undisturbed w after := by
  obtain ⟨current, rules, live, found, block, access⟩ := armed.asks
  have quiet : Within Undisturbed (responseBodyBlockingEnabled env) :=
    responseBodyBlockingEnabled_frame env fun _ _ => id
  have frame := quiet w
  rw [ran] at frame
  refine ⟨?_, frame⟩
  rw [responseBodyBlockingEnabled_apply live found block access] at ran
  split at ran
  · cases ran
  · cases ran
    rw [armed.enabled]
    rfl

theorem kept_of_frame {α : Type} {program : Program World α} {value : α} {w after : World}
    (within : Within (Frame Eq fun _ => True) program) (ran : program w = .returned value after) :
    after.rsc = w.rsc ∧ ∃ events, after.log = w.log ++ events := by
  have frame := within w
  rw [ran] at frame
  obtain ⟨events, shape, _⟩ := frame.logged
  exact ⟨frame.context.symm, events, shape⟩

theorem headerPhase_reviewed {w after : World} (armed : Armed env w.rsc tx)
    (unfed : w.rsc.responseHeadersFed = false)
    (heads : headerPhase env context notification tx w = .returned false after) :
    ∃ protocol, Reviewed tx (.processResponseHeaders notification.response.statusCode protocol)
      w after := by
  rw [headerPhase, bind_returned (get_apply w), unfed, if_neg Bool.false_ne_true] at heads
  obtain ⟨_, known, added, heads⟩ := bind_eq_returned heads
  obtain ⟨knownSame, first, knownLog⟩ :=
    kept_of_frame (addKnownHeaders_frame _ _ fun _ _ _ => trivial) added
  obtain ⟨_, unknown, addedToo, heads⟩ := bind_eq_returned heads
  obtain ⟨unknownSame, second, unknownLog⟩ :=
    kept_of_frame (addUnknownHeaders_frame _ fun _ _ _ => trivial) addedToo
  obtain ⟨_, allocated, allocates, heads⟩ := bind_eq_returned heads
  obtain ⟨allocatedSame, third, allocatedLog⟩ := kept_of_frame (mayThrow_frame env) allocates
  rw [bind_returned (get_apply allocated)] at heads
  obtain ⟨_, called, evaluated, heads⟩ := bind_eq_returned heads
  obtain ⟨calledSame, calledLog⟩ := engineCall_returned evaluated
  have reviewed : Reviewed tx (.processResponseHeaders notification.response.statusCode
      (if allocated.rsc.protocol = [] then bytesOf "HTTP/1.1"
        else bytesOf "HTTP/" ++ allocated.rsc.protocol)) w called := by
    refine ⟨first ++ second ++ third, [], ?_, by simp⟩
    rw [calledLog, allocatedLog, unknownLog, knownLog]
    simp only [List.append_assoc]
  have still : called.rsc = w.rsc :=
    calledSame.trans (allocatedSame.trans (unknownSame.trans knownSame))
  obtain ⟨blocking, answered, asked, heads⟩ := bind_eq_returned heads
  obtain ⟨rfl, quiet⟩ := responseBodyBlockingEnabled_armed (still ▸ armed) asked
  obtain ⟨blocked, applied, applies, heads⟩ := bind_eq_returned heads
  cases blocked with
  | true => cases heads
  | false =>
      have passed := (applyIntervention_false env context answered).returned
        (refl_of Undisturbed answered) applies rfl
      cases heads
      exact ⟨_, (reviewed.quietly quiet.logged).quietly passed.logged⟩

theorem evaluateBody_returned {w after : World} (live : w.rsc.tx = some tx)
    (ran : evaluateBody env w = .returned () after) :
    after.rsc = { w.rsc with responseBodyEvaluated := true } ∧
      after.log = w.log ++ [.engine tx .processResponseBody true] := by
  let marked : World := { w with rsc := { w.rsc with responseBodyEvaluated := true } }
  have calls : contextCall env .processResponseBody marked =
      engineCall env tx .processResponseBody marked := by
    rw [contextCall, bind_returned (get_apply marked), show marked.rsc.tx = some tx from live]
  rw [evaluateBody, bind_returned (modifyContext_apply w _)] at ran
  exact engineCall_returned (calls.symm.trans ran)

theorem bodyPhase_reviewed {w after : World} (armed : Armed env w.rsc tx)
    (unevaluated : w.rsc.responseBodyEvaluated = false) (final : notification.moreData = false)
    (ran : bodyPhase env context notification tx w = .returned .rqNotificationContinue after) :
    Reviewed tx .processResponseBody w after := by
  obtain ⟨count, inspected, chunks, ran⟩ := bind_eq_returned ran
  obtain ⟨inspectedSame, first, inspectedLog⟩ :=
    kept_of_frame (inspectChunks_frame (fun _ _ => trivial) _) chunks
  obtain ⟨replaced, middle, modeA_, ran⟩ := bind_eq_returned ran
  cases replaced with
  | true => cases ran
  | false =>
      obtain ⟨blocking, answered, asked, modeA_⟩ := bind_eq_returned modeA_
      obtain ⟨rfl, quiet⟩ := responseBodyBlockingEnabled_armed (inspectedSame ▸ armed) asked
      have still : answered.rsc = w.rsc := quiet.context.symm.trans inspectedSame
      have waits : true = true ∧ answered.rsc.responseBodyEvaluated = false := by
        rw [still]
        exact ⟨rfl, unevaluated⟩
      rw [bind_returned (get_apply answered), if_pos waits, final, if_neg Bool.false_ne_true]
        at modeA_
      obtain ⟨_, pinned, pins, modeA_⟩ := bind_eq_returned modeA_
      obtain ⟨pinnedSame, second, pinnedLog⟩ :=
        kept_of_frame (pinContentLength_frame fun _ _ => trivial) pins
      have live : pinned.rsc.tx = some tx := by
        rw [pinnedSame, still]
        exact armed.live
      obtain ⟨_, evaluated, evaluates, applies⟩ := bind_eq_returned modeA_
      obtain ⟨evaluatedSame, evaluatedLog⟩ := evaluateBody_returned live evaluates
      have passed := (applyIntervention_false env context evaluated).returned
        (refl_of Undisturbed evaluated) applies rfl
      obtain ⟨events, quietLog, _⟩ := quiet.logged
      have reviewed : Reviewed tx .processResponseBody w evaluated := by
        refine ⟨first ++ events ++ second, [], ?_, by simp⟩
        rw [evaluatedLog, pinnedLog, quietLog, inspectedLog]
        simp only [List.append_assoc]
      obtain ⟨_, ended, modeB_, ran⟩ := bind_eq_returned ran
      cases ran
      obtain ⟨again, answeredAgain, askedAgain, modeB_⟩ := bind_eq_returned modeB_
      have silent : Within Undisturbed (responseBodyBlockingEnabled env) :=
        responseBodyBlockingEnabled_frame env fun _ _ => id
      have quietAgain := silent middle
      rw [askedAgain] at quietAgain
      have same : answeredAgain.rsc = evaluated.rsc :=
        quietAgain.context.symm.trans passed.context.symm
      have marked : answeredAgain.rsc.responseBodyEvaluated = true := by
        rw [same, evaluatedSame]
      rw [bind_returned (get_apply answeredAgain), marked, Bool.not_true, Bool.and_false,
        Bool.false_and] at modeB_
      cases modeB_
      exact (reviewed.quietly passed.logged).quietly quietAgain.logged

/-- What a response sent in one notification has gone through when the handler lets it go. -/
theorem sent_response_reviewed {w after : World} {status : NotificationStatus}
    (armed : Armed env w.rsc tx) (stored : w.stored = true)
    (unfed : w.rsc.responseHeadersFed = false)
    (unevaluated : w.rsc.responseBodyEvaluated = false)
    (present : context.responsePresent = true) (raw : notification.rawPresent = true)
    (final : notification.moreData = false)
    (ran : raiseSendResponse env context notification w = .returned status after)
    (continues : status = .rqNotificationContinue) :
    ∃ start,
      headerPhase env context notification tx (w.raised notification) = .returned false start ∧
      (∃ protocol, Reviewed tx
        (.processResponseHeaders notification.response.statusCode protocol) w start) ∧
      (Reviewed tx .processResponseBody start after ∨
        ∃ failed, bodyPhase env context notification tx start = .thrown failed) := by
  have inspects : (w.raised notification).Inspects context notification := by
    refine ⟨stored, ?_, present, raw⟩
    change w.rsc.tx ≠ none
    rw [armed.live]
    simp
  have reviewed {start : World}
      (heads : headerPhase env context notification tx (w.raised notification) =
        .returned false start) :
      ∃ protocol, Reviewed tx
        (.processResponseHeaders notification.response.statusCode protocol) w start :=
    headerPhase_reviewed (w := w.raised notification) armed unfed heads
  cases onSendResponse_ends inspects armed.live ran with
  | blocked heads => cases continues
  | headersFailed heads failed =>
      obtain ⟨_, same, stays⟩ := headerPhase_thrown heads
      have finishes := (failSend_cases failed).2.1.mpr
      rw [continues, same, stays] at finishes
      cases finishes ⟨stored, inspects.2.1, unfed, unevaluated⟩
  | @sent start _ _ heads body =>
      refine ⟨start, heads, reviewed heads, .inl ?_⟩
      have same := (headerPhase_returned heads).1
      rw [continues] at body
      apply bodyPhase_reviewed _ _ final body
      · rw [same]
        exact armed.same rfl rfl rfl
      · rw [same]
        exact unevaluated
  | bodyFailed heads body failed => exact ⟨_, heads, reviewed heads, .inr ⟨_, body⟩⟩

end Steps

/-- A final send in which one step throws. -/
def Raised.throwing (tick : Nat) : Raised where
  env := { Env.calm with throws := (· == tick) }
  notification := .flush [.twoBytes] false

theorem begun_armed (env : Env) (enabled : ∀ tick, env.ruleEngineState tick = .enabledRuleEngine) :
    Armed env World.begun.rsc 0 :=
  ⟨⟨0, _, rfl, rfl, rfl, rfl⟩, rfl, enabled⟩

/-- Nothing throws and phase 4 rules; or the engine throws on the body, and the response goes
out with an exception in its body phase. -/
theorem sent_response_reviewed_calm :
    (∃ after start,
      raiseSendResponse Env.calm .plain (.flush [.twoBytes] false) .begun =
          .returned .rqNotificationContinue after ∧
        headerPhase Env.calm .plain (.flush [.twoBytes] false) 0
          (World.begun.raised (.flush [.twoBytes] false)) = .returned false start ∧
        (Reviewed 0 .processResponseBody start after ∨
          ∃ failed, bodyPhase Env.calm .plain (.flush [.twoBytes] false) 0 start =
            .thrown failed)) ∧
    ∃ after start failed,
      raiseSendResponse (Raised.throwing 6).env .plain (Raised.throwing 6).notification .begun =
          .returned .rqNotificationContinue after ∧
        headerPhase (Raised.throwing 6).env .plain (Raised.throwing 6).notification 0
          (World.begun.raised (Raised.throwing 6).notification) = .returned false start ∧
        bodyPhase (Raised.throwing 6).env .plain (Raised.throwing 6).notification 0 start =
          .thrown failed := by
  constructor
  · have value : (raiseSendResponse Env.calm .plain (.flush [.twoBytes] false) .begun).value =
        some .rqNotificationContinue := by decide +kernel
    obtain ⟨after, ran⟩ := Outcome.exists_returned value
    obtain ⟨start, heads, _, body⟩ := sent_response_reviewed (begun_armed .calm fun _ => rfl) rfl
      rfl rfl rfl rfl rfl ran rfl
    exact ⟨after, start, ran, heads, body⟩
  · have value : (raiseSendResponse (Raised.throwing 6).env .plain (Raised.throwing 6).notification
        .begun).value = some .rqNotificationContinue := by decide +kernel
    have silent : ∀ completed, .engine 0 .processResponseBody completed ∉
        (raiseSendResponse (Raised.throwing 6).env .plain (Raised.throwing 6).notification
          .begun).state.log := by decide +kernel
    obtain ⟨after, ran⟩ := Outcome.exists_returned value
    rw [ran] at silent
    obtain ⟨start, heads, _, body⟩ := sent_response_reviewed
      (begun_armed _ fun _ => rfl) rfl rfl rfl rfl rfl rfl ran rfl
    rcases body with ⟨before, rest, log, _⟩ | ⟨failed, threw⟩
    · have called : .engine 0 .processResponseBody true ∈ after.log := by
        rw [log]
        simp
      exact absurd called (silent true)
    · exact ⟨after, start, failed, ran, heads, threw⟩

/-- The engine throws on the body: the response goes out and phase 4 never ran. -/
theorem sent_response_unreviewed :
    Armed (Raised.throwing 6).env World.begun.rsc 0 ∧ ∃ after,
      raiseSendResponse (Raised.throwing 6).env .plain (Raised.throwing 6).notification .begun =
          .returned .rqNotificationContinue after ∧
        ∀ completed, .engine 0 .processResponseBody completed ∉ after.log := by
  have value : (raiseSendResponse (Raised.throwing 6).env .plain (Raised.throwing 6).notification
      .begun).value = some .rqNotificationContinue := by decide +kernel
  have silent : ∀ completed, .engine 0 .processResponseBody completed ∉
      (raiseSendResponse (Raised.throwing 6).env .plain (Raised.throwing 6).notification
        .begun).state.log := by decide +kernel
  obtain ⟨after, ran⟩ := Outcome.exists_returned value
  rw [ran] at silent
  exact ⟨begun_armed _ fun _ => rfl, after, ran, silent⟩

end ModSecurityIIS
