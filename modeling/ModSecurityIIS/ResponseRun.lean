import ModSecurityIIS.Imperative.Transition
import ModSecurityIIS.BodySteps
import ModSecurityIIS.SendResponseProperties

/-!
# The notifications of one response

The runs of a request from the end of its begin-request stage on: IIS raises
`RQ_SEND_RESPONSE` any number of times, and every notification has its own flags,
chunks, engine answers and exceptions.
-/

set_option autoImplicit false

namespace ModSecurityIIS

open Imperative Program Transition

/-- One notification with the answers its handler gets. -/
structure Raised where
  env : Env
  notification : SendResponse

/-- `committed` is the log at the moment the first bytes were on their way to the client. -/
structure ResponseState where
  world : World
  committed : Option (List Event)

/-- A notification with MORE_DATA that continues commits the response. -/
def ResponseState.after (s : ResponseState) (raised : Raised) (status : NotificationStatus)
    (after : World) : ResponseState where
  world := after
  committed := s.committed.or
    (if raised.notification.moreData = true ∧ status = .rqNotificationContinue then some after.log
      else none)

/-- The calls of the response phases. -/
def Event.OnResponse : Event → Prop
  | .engine _ (.addResponseHeader _ _) _ => True
  | .engine _ (.processResponseHeaders _ _) _ => True
  | .engine _ (.appendResponseBody _) _ => True
  | .engine _ .processResponseBody _ => True
  | _ => False

/-- No response phase has begun. -/
structure ResponseStart (w : World) : Prop where
  unfed : w.rsc.responseHeadersFed = false
  unevaluated : w.rsc.responseBodyEvaluated = false
  silent : ∀ event ∈ w.log, ¬ event.OnResponse

/-- The inspection cap is read once in the life of a process, so all notifications of
`process` see the same one. -/
inductive ResponseStep (process : Env) (context : HttpContext) :
    ResponseState → Raised → ResponseState → Prop where
  | raise {s : ResponseState} {raised : Raised} {status : NotificationStatus} {after : World} :
      raised.env.maxInspectBodyBytes = process.maxInspectBodyBytes →
      raiseSendResponse raised.env context raised.notification s.world = .returned status after →
      ResponseStep process context s raised (s.after raised status after)

def responseSystem (process : Env) (context : HttpContext) : System ResponseState Raised where
  initial s := ResponseStart s.world ∧ s.committed = none
  step := ResponseStep process context

/-! ## When a notification is inspected -/

/-- The handler comes to the response phases. -/
def World.Inspects (w : World) (context : HttpContext) (notification : SendResponse) : Prop :=
  w.stored = true ∧ w.rsc.tx ≠ none ∧ context.responsePresent = true ∧
    notification.rawPresent = true

/-- The world the handler finds. -/
def World.raised (w : World) (notification : SendResponse) : World :=
  { w with response := notification.response }

theorem raiseSendResponse_apply (env : Env) (context : HttpContext) (notification : SendResponse)
    (w : World) :
    raiseSendResponse env context notification w =
      onSendResponse env context notification (w.raised notification) := rfl

theorem onSendResponse_of_not_inspects {env : Env} {context : HttpContext}
    {notification : SendResponse} {w : World} (passes : ¬ w.Inspects context notification) :
    onSendResponse env context notification w = .returned .rqNotificationContinue w := by
  have continues : sendResponseBlock env context notification w =
      .returned .rqNotificationContinue w := by
    rw [sendResponseBlock, bind_returned (get_apply _)]
    cases live : w.rsc.tx with
    | none => rfl
    | some tx =>
        have skipped : ¬ (w.stored = true ∧ context.responsePresent = true ∧
            notification.rawPresent = true) :=
          fun present => passes ⟨present.1, by simp [live], present.2⟩
        simp only [if_neg skipped]
        rfl
  rw [onSendResponse, tryCatch_apply, continues]

/-- The phases of a notification that is inspected. -/
def inspectSend (env : Env) (context : HttpContext) (notification : SendResponse)
    (tx : TransactionId) : Program World NotificationStatus := do
  let finished ← headerPhase env context notification tx
  if finished then pure .rqNotificationFinishRequest
  else bodyPhase env context notification tx

/-- What follows an exception. -/
def failSend (env : Env) (context : HttpContext) : Program World NotificationStatus := do
  reportException env "OnSendResponse"
  sendResponseExceptionPolicy context

theorem sendResponseBlock_of_inspects {env : Env} {context : HttpContext}
    {notification : SendResponse} {w : World} (inspects : w.Inspects context notification)
    {tx : TransactionId} (live : w.rsc.tx = some tx) :
    sendResponseBlock env context notification w = inspectSend env context notification tx w := by
  have present : w.stored = true ∧ context.responsePresent = true ∧
      notification.rawPresent = true := ⟨inspects.1, inspects.2.2⟩
  rw [sendResponseBlock, bind_returned (get_apply _)]
  simp only [live, if_pos present]
  rfl

theorem onSendResponse_of_inspects {env : Env} {context : HttpContext}
    {notification : SendResponse} {w : World} (inspects : w.Inspects context notification)
    {tx : TransactionId} (live : w.rsc.tx = some tx) :
    onSendResponse env context notification w =
      Program.tryCatch (inspectSend env context notification tx) (failSend env context) w := by
  rw [onSendResponse, tryCatch_apply, tryCatch_apply, sendResponseBlock_of_inspects inspects live]
  rfl

/-! ## The begin-request stage leads to a start -/

def BeforeResponse (w after : World) : Prop := ResponseStart w → ResponseStart after

instance : IsPreorder World BeforeResponse where
  refl _ start := start
  trans _ _ _ first second start := second (first start)

/-- The marks of the response phases are the same. -/
def SameMarks (a b : RequestStoredContext) : Prop :=
  b.responseHeadersFed = a.responseHeadersFed ∧ b.responseBodyEvaluated = a.responseBodyEvaluated

instance : IsPreorder RequestStoredContext SameMarks where
  refl _ := ⟨rfl, rfl⟩
  trans _ _ _ first second := ⟨second.1.trans first.1, second.2.trans first.2⟩

theorem beforeResponse_of_frame {α : Type} {program : Program World α}
    (within : Within (Frame SameMarks fun event => ¬ event.OnResponse) program) :
    Within BeforeResponse program := by
  intro w start
  have frame := within w
  obtain ⟨events, shape, each⟩ := frame.logged
  refine ⟨frame.context.1.trans start.unfed, frame.context.2.trans start.unevaluated, ?_⟩
  rw [shape]
  exact List.forall_mem_append.mpr ⟨start.silent, each⟩

theorem Event.Intervenes.offResponse {event : Event} (intervenes : event.Intervenes) :
    ¬ event.OnResponse := by
  cases event with
  | engine tx call completed => cases call <;> first | exact id | exact absurd intervenes id
  | _ => exact id

section Begin

variable {env : Env} {context : HttpContext}

theorem describeRequest_beforeResponse (req : HttpRequest) (tx : TransactionId) :
    Within BeforeResponse (describeRequest env context req tx) := by
  apply beforeResponse_of_frame
  apply describeRequest_frame env context req tx (fun _ _ => ⟨rfl, rfl⟩)
  intro call completed describes
  cases call <;> first | exact id | exact absurd describes id

theorem applyIntervention_beforeResponse (canBlock : Bool) :
    Within BeforeResponse (applyIntervention env context canBlock) :=
  beforeResponse_of_frame (applyIntervention_frame env context canBlock (fun _ => ⟨rfl, rfl⟩)
    fun _ intervenes => intervenes.offResponse)

theorem report_beforeResponse (location : String) :
    Within BeforeResponse (reportException env location) :=
  beforeResponse_of_frame (reportException_frame env location)

theorem bodySteps_beforeResponse : BodySteps env context BeforeResponse where
  plain w after plain start := by
    obtain ⟨events, shape, untracked⟩ := plain.untracked
    refine ⟨plain.context.2.1.trans start.unfed, plain.context.2.2.trans start.unevaluated, ?_⟩
    intro event member
    rw [shape] at member
    rcases List.mem_append.mp member with early | late
    · exact start.silent event early
    · intro shown
      apply untracked event late
      cases event with
      | engine tx call completed => trivial
      | _ => exact absurd shown id
  appends _ := beforeResponse_of_frame (contextCall_frame fun _ _ => id)
  evaluates := beforeResponse_of_frame (contextCall_frame fun _ _ => id)
  intervenes := applyIntervention_beforeResponse true

theorem setModuleContext_beforeResponse {rsc : RequestStoredContext}
    (unfed : rsc.responseHeadersFed = false) (unevaluated : rsc.responseBodyEvaluated = false) :
    Within BeforeResponse (setModuleContext env rsc) := by
  intro w start
  obtain ⟨shr, after, ran, stores⟩ := setModuleContext_stores env rsc w
  rw [ran]
  cases stores with
  | assigned => exact start
  | refused => exact ⟨start.unfed, start.unevaluated, start.silent⟩
  | stored => exact ⟨unfed, unevaluated, start.silent⟩

theorem openTransaction_beforeResponse (config : ModsecurityStoredContext) (rules : RulesSet) :
    Within BeforeResponse (openTransaction env context config rules) := by
  refine .bind (beforeResponse_of_frame (newTransaction_frame env fun _ => id)) fun created => ?_
  split
  · exact .pure _
  · refine .bind (beforeResponse_of_frame (consult_frame _)) fun allocated => ?_
    split
    · refine .bind (setModuleContext_beforeResponse rfl rfl) fun shr => ?_
      split
      · refine .bind (beforeResponse_of_frame (finishContext_frame env _
          fun _ finalizes => finalizes.intervenes.offResponse)) fun _ => ?_
        split <;> exact .pure _
      · split
        · exact .pure _
        · refine .bind (.bind (describeRequest_beforeResponse _ _) fun _ => ?_) fun blocked => ?_
          · exact .bind (beforeResponse_of_frame (engineCall_frame fun _ => id))
              fun _ => applyIntervention_beforeResponse true
          · split
            · exact .pure _
            · exact .bind (beginBodyRead_within bodySteps_beforeResponse) fun _ => .pure _
    · exact .bind (beforeResponse_of_frame (record_frame id)) fun _ => .pure _

theorem beginRequestBlock_beforeResponse (handled : Option HttpContext) :
    Within BeforeResponse (beginRequestBlock env handled) := by
  cases handled with
  | none => exact .pure _
  | some context =>
      have plain := (@bodySteps_beforeResponse env context).plain
      apply beginRequestBlock_within plain
      · intro w middle after early late
        exact trans_of BeforeResponse (plain w middle early) late
      · exact openTransaction_beforeResponse

/-- A request whose begin-request stage has ended is at the start of a response run. -/
theorem beginRequestStage_responseStart {start after : World} {bound : Nat}
    {status : NotificationStatus} (arrived : ResponseStart start)
    (ran : beginRequestStage env context bound start = .returned status after) :
    ResponseStart after := by
  have begins : Within BeforeResponse (beginRequestStage env context bound) := by
    refine .bind (.bind (.tryCatch (beginRequestBlock_beforeResponse _) ?_) fun _ => .pure _)
      fun status => awaitBody_within bodySteps_beforeResponse bound status
    exact .bind (report_beforeResponse _) fun _ => .pure _
  have ends := begins start arrived
  rw [ran] at ends
  exact ends

end Begin

/-! ## A response to a request that was let through -/

/-- The request was let through to its handler; its responses may be blocked. -/
def World.begun : World :=
  { World.arrived [] [] with
    rsc :=
      { RequestStoredContext.new with
        tx := some 0
        rules := some { secResponseBodyAccess := .trueConfigBoolean }
        responseBodyBlock := true
        protocol := bytesOf "1.1"
        bodyReadState := .done }
    stored := true
    nextTransaction := 1 }

theorem begun_responseStart : ResponseStart .begun := ⟨rfl, rfl, by simp [World.begun, World.arrived]⟩

/-- A flush of the given chunks. -/
def SendResponse.flush (chunks : List DataChunk) (moreData : Bool) : SendResponse where
  response := { statusCode := 200, reason := "OK", headers := .empty, entityChunks := chunks }
  rawPresent := true
  moreData := moreData
  headersBeingSent := true

/-- Two bytes in memory. -/
def DataChunk.twoBytes : DataChunk := .fromMemory ⟨[104, 105], by decide⟩

/-- A notification in a process in which nothing fails. -/
def Raised.calm (chunks : List DataChunk) (moreData : Bool) : Raised where
  env := .calm
  notification := .flush chunks moreData

/-- A final send on which every rule matches. -/
def Raised.denied : Raised where
  env :=
    { Env.calm with intervention := fun _ => some { status := 403, disruptive := 1, url := none } }
  notification := .flush [.twoBytes] false

theorem ResponseStep.of_value {process : Env} {context : HttpContext} {s : ResponseState}
    {raised : Raised} {status : NotificationStatus}
    (same : raised.env.maxInspectBodyBytes = process.maxInspectBodyBytes)
    (value : (raiseSendResponse raised.env context raised.notification s.world).value =
      some status) :
    ResponseStep process context s raised
      (s.after raised status
        (raiseSendResponse raised.env context raised.notification s.world).state) := by
  obtain ⟨after, run⟩ := Outcome.exists_returned value
  rw [run]
  exact .raise same run

end ModSecurityIIS
