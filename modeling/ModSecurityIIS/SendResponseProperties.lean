import ModSecurityIIS.BeginRequestProperties
import ModSecurityIIS.SendResponse

/-!
# The reach of a send-response notification

Which fields of the request's context a notification may change and which events it
may record, phase by phase.
-/

set_option autoImplicit false

namespace ModSecurityIIS

open Imperative Program

/-- The events of the header phase. -/
def Event.FeedsHeaders : Event → Prop
  | .engine _ (.addResponseHeader _ _) _ => True
  | .engine _ (.processResponseHeaders _ _) _ => True
  | .engine _ .getRuleEngineState _ => True
  | event => event.Intervenes

/-- The events of Mode B. -/
def Event.Detects : Event → Prop
  | .engine _ .processResponseBody _ => True
  | .engine _ .getRuleEngineState _ => True
  | .engine _ (.intervention _) _ => True
  | _ => False

/-- The events of the two modes. -/
def Event.EvaluatesResponse : Event → Prop
  | .engine _ .processResponseBody _ => True
  | .engine _ .getRuleEngineState _ => True
  | .response _ => True
  | event => event.Intervenes

/-- The body bytes given to the engine. -/
def Event.Appends : Event → Prop
  | .engine _ (.appendResponseBody _) _ => True
  | _ => False

/-- The events of `OnSendResponse`. -/
def Event.SendsResponse (event : Event) : Prop :=
  event.FeedsHeaders ∨ event.Appends ∨ event.EvaluatesResponse

theorem Event.Intervenes.feedsHeaders {event : Event} (intervenes : event.Intervenes) :
    event.FeedsHeaders := by
  cases event with
  | engine tx call completed => cases call <;> trivial
  | _ => exact intervenes

theorem Event.Detects.evaluatesResponse {event : Event} (detects : event.Detects) :
    event.EvaluatesResponse := by
  cases event with
  | engine tx call completed => cases call <;> trivial
  | _ => exact absurd detects id

theorem Event.Intervenes.evaluatesResponse {event : Event} (intervenes : event.Intervenes) :
    event.EvaluatesResponse := by
  cases event with
  | engine tx call completed => cases call <;> trivial
  | response op => trivial
  | _ => exact intervenes

/-! ## The handler in stages -/

section Stages

variable {relation : World → World → Prop} [IsPreorder World relation]
variable {env : Env} {context : HttpContext} {notification : SendResponse}

theorem modeB_within (asks : Within relation (responseBodyBlockingEnabled env))
    (evaluates : Within relation (evaluateBody env))
    (detects : Within relation (applyIntervention env context false)) :
    Within relation (modeB env context notification) := by
  apply Within.bind asks
  intro blocking
  refine Within.bind Within.get fun w => ?_
  apply Within.when
  intro _
  apply Within.bind evaluates
  intro _
  apply Within.bind detects
  intro _
  exact Within.pure _

theorem modeA_within {respInspected : Nat}
    (asks : Within relation (responseBodyBlockingEnabled env))
    (degrades : Within relation (modifyContext fun rsc => { rsc with responseBodyBlock := false }))
    (pins : Within relation (pinContentLength env notification respInspected))
    (evaluates : Within relation (evaluateBody env))
    (intervenes : Within relation (applyIntervention env context true)) :
    Within relation (modeA env context notification respInspected) := by
  apply Within.bind asks
  intro blocking
  refine Within.bind Within.get fun w => ?_
  split
  · split
    · apply Within.bind degrades
      intro _
      exact Within.pure _
    · apply Within.bind pins
      intro _
      apply Within.bind evaluates
      intro _
      exact intervenes
  · exact Within.pure _

/-- The two modes one after the other. -/
theorem modes_within {respInspected : Nat}
    (replaces : Within relation (modeA env context notification respInspected))
    (detects : Within relation (modeB env context notification)) :
    Within relation (do
      let replaced ← modeA env context notification respInspected
      if replaced then pure NotificationStatus.rqNotificationFinishRequest
      else do
        modeB env context notification
        pure NotificationStatus.rqNotificationContinue) := by
  apply Within.bind replaces
  intro replaced
  split
  · exact Within.pure _
  · apply Within.bind detects
    intro _
    exact Within.pure _

theorem bodyPhase_within {tx : TransactionId}
    (inspects : Within relation (inspectChunks env tx notification.response.entityChunks))
    (replaces : ∀ respInspected, Within relation (modeA env context notification respInspected))
    (detects : Within relation (modeB env context notification)) :
    Within relation (bodyPhase env context notification tx) := by
  apply Within.bind inspects
  intro respInspected
  exact modes_within (replaces respInspected) detects

theorem headerPhase_within {tx : TransactionId}
    (known : Within relation
      (addKnownHeaders env tx .addResponseHeader notification.response.headers responseHeaders))
    (unknown : Within relation
      (addUnknownHeaders env tx .addResponseHeader notification.response.headers))
    (waits : Within relation (mayThrow env))
    (processes : ∀ status version,
      Within relation (engineCall env tx (.processResponseHeaders status version)))
    (asks : Within relation (responseBodyBlockingEnabled env))
    (intervenes : ∀ canBlock, Within relation (applyIntervention env context canBlock))
    (feeds : Within relation (modifyContext fun rsc => { rsc with responseHeadersFed := true })) :
    Within relation (headerPhase env context notification tx) := by
  refine Within.bind Within.get fun w => ?_
  split
  · exact Within.pure _
  · apply Within.bind known
    intro _
    apply Within.bind unknown
    intro _
    apply Within.bind waits
    intro _
    refine Within.bind Within.get fun w => ?_
    apply Within.bind (processes _ _)
    intro _
    apply Within.bind asks
    intro blocking
    apply Within.bind (intervenes blocking)
    intro blocked
    split
    · exact Within.pure _
    · apply Within.bind feeds
      intro _
      exact Within.pure _

theorem onSendResponse_within
    (heads : ∀ tx, Within relation (headerPhase env context notification tx))
    (bodies : ∀ tx, Within relation (bodyPhase env context notification tx))
    (fails : Within relation
      (reportException env "OnSendResponse" >>= fun _ => sendResponseExceptionPolicy context)) :
    Within relation (onSendResponse env context notification) := by
  apply Within.tryCatch
  · refine Within.bind Within.get fun w => ?_
    split
    · exact Within.pure _
    · split
      · apply Within.bind (heads _)
        intro finished
        split
        · exact Within.pure _
        · exact bodies _
      · exact Within.pure _
  · exact fails

end Stages

/-- The relation admits every change of the context that the handler makes. -/
structure ResponseChanges (keeps : RequestStoredContext → RequestStoredContext → Prop) : Prop where
  fed : ∀ rsc, keeps rsc { rsc with responseHeadersFed := true }
  degraded : ∀ rsc, keeps rsc { rsc with responseBodyBlock := false }
  evaluated : ∀ rsc, keeps rsc { rsc with responseBodyEvaluated := true }
  released : ∀ rsc, keeps rsc { rsc with tx := none, rules := none }

section Frames

variable {keeps : RequestStoredContext → RequestStoredContext → Prop} {allowed : Event → Prop}
variable [IsPreorder RequestStoredContext keeps]

theorem appendFileLoop_frame {env : Env} {tx : TransactionId}
    (permitted : ∀ body completed, allowed (.engine tx (.appendResponseBody body) completed))
    (bound : Nat) (rest : Bytes) (length appended : Nat) :
    Within (Frame keeps allowed) (appendFileLoop env tx bound rest length appended) := by
  induction bound generalizing rest length appended with
  | zero => exact .pure _
  | succ bound ih =>
      rw [appendFileLoop]
      split
      · exact .pure _
      · refine .bind (consult_frame _) fun answer => ?_
        dsimp only
        split
        · exact .pure _
        · exact .bind (engineCall_frame (permitted _)) fun _ => ih _ _ _

theorem rangeLength_frame (env : Env) (file : Bytes) (start length : Nat) :
    Within (Frame keeps allowed) (rangeLength env file start length) := by
  unfold rangeLength
  split
  · exact .bind (consult_frame _) fun _ => .pure _
  · exact .pure _

theorem appendResponseFileChunk_frame {env : Env} {tx : TransactionId}
    (permitted : ∀ body completed, allowed (.engine tx (.appendResponseBody body) completed))
    (file : Bytes) (start length : Nat) :
    Within (Frame keeps allowed) (appendResponseFileChunk env tx file start length) := by
  refine .bind (consult_frame _) fun duplicated => ?_
  split
  · refine .bind (consult_frame _) fun positioned => ?_
    split
    · exact .bind (rangeLength_frame env file start length)
        fun _ => appendFileLoop_frame permitted _ _ _ _
    · exact .pure _
  · exact .pure _

theorem inspectChunk_frame {env : Env} {tx : TransactionId}
    (permitted : ∀ body completed, allowed (.engine tx (.appendResponseBody body) completed))
    (respInspected : Nat) (chunk : DataChunk) :
    Within (Frame keeps allowed) (inspectChunk env tx respInspected chunk) := by
  cases chunk with
  | fromMemory buffer =>
      rw [inspectChunk]
      split
      · exact .bind (engineCall_frame (permitted _)) fun _ => .pure _
      · exact .pure _
  | fromFileHandle file start length =>
      rw [inspectChunk]
      split
      · exact .bind (appendResponseFileChunk_frame permitted _ _ _) fun _ => .pure _
      · exact .pure _
  | other => exact .pure _

theorem inspectChunks_frame {env : Env} {tx : TransactionId}
    (permitted : ∀ body completed, allowed (.engine tx (.appendResponseBody body) completed))
    (chunks : List DataChunk) :
    Within (Frame keeps allowed) (inspectChunks env tx chunks) :=
  .foldEach fun respInspected chunk _ => inspectChunk_frame permitted respInspected chunk

theorem pinContentLength_frame {env : Env} {notification : SendResponse} {respInspected : Nat}
    (permitted : ∀ header value, allowed (.response (.setHeader header value))) :
    Within (Frame keeps allowed) (pinContentLength env notification respInspected) :=
  .bind .get fun _ => .when fun _ => respond_frame (permitted _ _)

theorem evaluateBody_frame {env : Env}
    (evaluated : ∀ rsc, keeps rsc { rsc with responseBodyEvaluated := true })
    (permitted : ∀ tx completed, allowed (.engine tx .processResponseBody completed)) :
    Within (Frame keeps allowed) (evaluateBody env) :=
  .bind (modifyContext_frame evaluated) fun _ => contextCall_frame permitted

/-- What follows an exception: the report and, while nothing is committed, the 500. -/
theorem failSend_frame
    (permitted : allowed (.response (.setStatus 500 "Internal Server Error"))) (env : Env)
    (context : HttpContext) :
    Within (Frame keeps allowed)
      (reportException env "OnSendResponse" >>= fun _ => sendResponseExceptionPolicy context) := by
  refine .bind (reportException_frame env _) fun _ => .bind .get fun w => ?_
  split
  · exact .bind (.when fun _ => respond_frame permitted) fun _ => .pure _
  · exact .pure _

section Phases

theorem headerPhase_frame
    (fed : ∀ rsc, keeps rsc { rsc with responseHeadersFed := true })
    (released : ∀ rsc, keeps rsc { rsc with tx := none, rules := none })
    (permitted : ∀ event, event.FeedsHeaders → allowed event)
    (env : Env) (context : HttpContext) (notification : SendResponse) (tx : TransactionId) :
    Within (Frame keeps allowed) (headerPhase env context notification tx) := by
  apply headerPhase_within
  · exact addKnownHeaders_frame _ _ fun _ _ _ => permitted _ trivial
  · exact addUnknownHeaders_frame _ fun _ _ _ => permitted _ trivial
  · exact mayThrow_frame env
  · exact fun _ _ => engineCall_frame fun _ => permitted _ trivial
  · exact responseBodyBlockingEnabled_frame env fun _ _ => permitted _ trivial
  · exact fun canBlock => applyIntervention_frame env context canBlock released
      fun event intervenes => permitted event intervenes.feedsHeaders
  · exact modifyContext_frame fed

theorem modeB_frame (evaluated : ∀ rsc, keeps rsc { rsc with responseBodyEvaluated := true })
    (permitted : ∀ event, event.Detects → allowed event)
    (env : Env) (context : HttpContext) (notification : SendResponse) :
    Within (Frame keeps allowed) (modeB env context notification) := by
  apply modeB_within
  · exact responseBodyBlockingEnabled_frame env fun _ _ => permitted _ trivial
  · exact evaluateBody_frame evaluated fun _ _ => permitted _ trivial
  · exact applyIntervention_detect_frame env context fun _ _ _ => permitted _ trivial

variable (changes : ResponseChanges keeps)

include changes

theorem modeA_frame (permitted : ∀ event, event.EvaluatesResponse → allowed event)
    (env : Env) (context : HttpContext) (notification : SendResponse) (respInspected : Nat) :
    Within (Frame keeps allowed) (modeA env context notification respInspected) := by
  apply modeA_within
  · exact responseBodyBlockingEnabled_frame env fun _ _ => permitted _ trivial
  · exact modifyContext_frame changes.degraded
  · exact pinContentLength_frame fun _ _ => permitted _ trivial
  · exact evaluateBody_frame changes.evaluated fun _ _ => permitted _ trivial
  · exact applyIntervention_frame env context true changes.released
      fun event intervenes => permitted event intervenes.evaluatesResponse

theorem bodyPhase_frame (permitted : ∀ event, event.SendsResponse → allowed event)
    (env : Env) (context : HttpContext) (notification : SendResponse) (tx : TransactionId) :
    Within (Frame keeps allowed) (bodyPhase env context notification tx) := by
  have evaluates : ∀ event, event.EvaluatesResponse → allowed event :=
    fun event evaluates => permitted event (.inr (.inr evaluates))
  apply bodyPhase_within
  · exact inspectChunks_frame (fun _ _ => permitted _ (.inr (.inl trivial))) _
  · exact modeA_frame changes evaluates env context notification
  · exact modeB_frame changes.evaluated
      (fun event detects => evaluates event detects.evaluatesResponse) env context notification

theorem onSendResponse_frame (permitted : ∀ event, event.SendsResponse → allowed event)
    (env : Env) (context : HttpContext) (notification : SendResponse) :
    Within (Frame keeps allowed) (onSendResponse env context notification) := by
  apply onSendResponse_within
  · exact headerPhase_frame changes.fed changes.released
      (fun event feeds => permitted event (.inl feeds)) env context notification
  · exact bodyPhase_frame changes permitted env context notification
  · exact failSend_frame (permitted _ (.inl trivial)) env context

theorem raiseSendResponse_frame (permitted : ∀ event, event.SendsResponse → allowed event)
    (env : Env) (context : HttpContext) (notification : SendResponse) :
    Within (Frame keeps allowed) (raiseSendResponse env context notification) :=
  .bind (fun _ => ⟨rfl, rfl, rfl, rfl, refl_of keeps _, [], (List.append_nil _).symm, by simp⟩)
    fun _ => onSendResponse_frame changes permitted env context notification

end Phases

end Frames

end ModSecurityIIS
