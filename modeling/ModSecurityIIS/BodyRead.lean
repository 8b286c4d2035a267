import ModSecurityIIS.Transaction

/-!
# Entity-body reads

The drain of the request body: `BeginBodyRead`, the read loop `PumpBodyRead`,
the stop conditions of `ConsumeBodyChunk`, the restoration and inspection of
`FinishBodyRead`, and the continuation `OnAsyncCompletion` of a pended read.
-/

set_option autoImplicit false

namespace ModSecurityIIS

open Imperative

structure EntityBodyInfo where
  hasBody : Bool
  length : Nat
  deriving DecidableEq, Repr

/-- `GetEntityBodyInfo`: the receive-progress flag first, else the value of
Content-Length, cut to the 31 bytes of the parse buffer. -/
def getEntityBodyInfo : Option HttpRequest → EntityBodyInfo
  | none => { hasBody := false, length := 0 }
  | some req =>
      if req.moreEntityBodyExists then { hasBody := true, length := 0 }
      else
        match req.headers.known .contentLength with
        | none => { hasBody := false, length := 0 }
        | some value =>
            if value.length = 0 then { hasBody := false, length := 0 }
            else
              match wholeNumber (value.take 31) with
              | some n => { hasBody := true, length := n }
              | none => { hasBody := false, length := 0 }

/-! ## Restoring and inspecting the drained body -/

inductive Restoration where
  | restored
  | allocationFailed
  | insertionFailed
  deriving DecidableEq, Repr

/-- `InsertEntityBody`: the server gives the handler `body` before what is unread. -/
def insertEntityBody (env : Env) (body : Bytes) : Program World HResult := do
  let result ← consult env.hresult
  Program.modify fun w =>
    { w with
      entity := if result.failed then w.entity else body ++ w.entity
      log := w.log ++ [.insertEntityBody body result] }
  pure result

/-- The re-insertion of `m_Body`. Sizes are cast to `DWORD`, the copy is not. -/
def restoreBody (env : Env) (context : HttpContext) : Program World Restoration := do
  let w ← Program.get
  if context.requestPresent = true ∧ w.rsc.body ≠ [] then do
    let allocated ← consult env.succeeds
    if allocated then
      -- memcpy writes m_Body.size() bytes into a block of (DWORD)m_Body.size()
      if dword w.rsc.body.length < w.rsc.body.length then Program.halt .crashed
      else do
        let result ← insertEntityBody env (w.rsc.body.take (dword w.rsc.body.length))
        if result.failed then do
          writeEventViewerLog
            (bytesOf ("ModSecurityIIS: InsertEntityBody failed while " ++
              "re-forwarding the request body; failing the request")) .eventlogErrorType
          pure .insertionFailed
        else pure .restored
    else do
      writeEventViewerLog
        (bytesOf ("ModSecurityIIS: AllocateRequestMemory failed while " ++
          "re-forwarding the request body; the request will be " ++
          "failed unless the engine blocks it")) .eventlogErrorType
      pure .allocationFailed
  else pure .restored

/-- The body phase of the engine, on at most the inspection cap of bytes. -/
def feedBody (env : Env) : Program World Unit := do
  let w ← Program.get
  let inspected := w.rsc.body.take (getMaxInspectBodyBytes env)
  Program.when (!inspected.isEmpty) (contextCall env (.appendRequestBody inspected))
  contextCall env .processRequestBody

/-- The `try` block of `FinishBodyRead`: `none` when the request must be failed at
once, else whether the body could not be restored. -/
def restoreAndFeed (env : Env) (context : HttpContext) : Program World (Option Bool) := do
  let restoration ← restoreBody env context
  match restoration with
  | .insertionFailed => pure none
  | .allocationFailed => do
      feedBody env
      pure (some true)
  | .restored => do
      feedBody env
      pure (some false)

/-- `FinishBodyRead` after its `try` block. -/
def ruleOnBody (env : Env) (context : HttpContext) (restoreFailed : Bool) :
    Program World NotificationStatus := do
  let blocked ← applyIntervention env context true
  if blocked then pure .rqNotificationFinishRequest
  else if restoreFailed then
    if context.responsePresent then do
      respond (.setStatus 500 "Internal Server Error")
      pure .rqNotificationFinishRequest
    else Program.halt .crashed
  else pure .rqNotificationContinue

/-- `FinishBodyRead`. -/
def finishBodyRead (env : Env) (context : HttpContext) : Program World NotificationStatus := do
  let fed ← Program.tryCatch (restoreAndFeed env context) (do
    reportException env "FinishBodyRead"
    pure none)
  match fed with
  | none => pure .rqNotificationFinishRequest
  | some restoreFailed => ruleOnBody env context restoreFailed

/-! ## Reading -/

/-- `std::vector::resize`. -/
def resize (buffer : Bytes) (size : Nat) : Bytes :=
  buffer.take size ++ List.replicate (size - buffer.length) 0

/-- The server writes a read's bytes at the start of the staging buffer. -/
def writeBuffer (buffer bytes : Bytes) : Bytes := bytes ++ buffer.drop bytes.length

/-- The result of a `ReadEntityBody` call. -/
structure ReadResult where
  read : Nat
  status : HResult
  pending : Bool
  deriving DecidableEq, Repr

/-- `ReadEntityBody` into `m_ReadBuf`. The server hands out the next bytes of the
entity, never more than the buffer holds; only an asynchronous call can pend. -/
def readEntityBody (async : Bool) : Program World ReadResult := fun w =>
  match w.reads with
  | [] => .halted .blocked w
  | answer :: rest =>
      let bytes := w.entity.take (min answer.count kBodyReadChunkSize)
      let issued :=
        { w with
          reads := rest
          entity := w.entity.drop (min answer.count kBodyReadChunkSize)
          log := w.log ++ [Event.readEntityBody] }
      if async && answer.pended then
        .returned { read := 0, status := .sOk, pending := true }
          { issued with outstanding := some { bytes, status := answer.status } }
      else
        .returned { read := bytes.length, status := answer.status, pending := false }
          { issued with rsc := { w.rsc with readBuf := writeBuffer w.rsc.readBuf bytes } }

/-- Why `ConsumeBodyChunk` ends the read. -/
inductive StopReason where
  | endOfBody
  | hardError
  | declaredLengthReached
  | inspectionCapReached
  deriving DecidableEq, Repr

/-- The stop conditions, in the order they are tested. -/
def stopReason (env : Env) (rsc : RequestStoredContext) (read : Nat) (hr : HResult) :
    Option StopReason :=
  if read = 0 ∨ hr.code = errorHandleEof then some .endOfBody
  else if hr.failed = true then some .hardError
  else if 0 < rsc.declaredBodyLength ∧ rsc.declaredBodyLength ≤ rsc.body.length then
    some .declaredLengthReached
  else if getMaxInspectBodyBytes env ≤ rsc.body.length then some .inspectionCapReached
  else none

/-- The insertion of the chunk at the end of `m_Body`. -/
def appendChunk (env : Env) (read : Nat) : Program World Unit :=
  Program.when (decide (0 < read)) (do
    mayThrow env
    modifyContext fun rsc => { rsc with body := rsc.body ++ rsc.readBuf.take read })

/-- The warning about the inspection cap, once per process. -/
def logCapReached : Program World Unit := do
  let w ← Program.get
  Program.when (!w.capLogged) (do
    Program.modify fun w => { w with capLogged := true }
    writeEventViewerLog
      (bytesOf ("ModSecurityIIS: a request body reached the inspection " ++
        "cap (MODSEC_IIS_MAX_INSPECT_BODY_BYTES); bytes beyond " ++
        "it are forwarded to the application but NOT inspected " ++
        "(logged once per process)")) .eventlogWarningType)

/-- `ConsumeBodyChunk`: the final status, or nothing when another read must be
issued. -/
def consumeBodyChunk (env : Env) (context : HttpContext) (read : Nat) (hr : HResult) :
    Program World (Option NotificationStatus) := do
  appendChunk env read
  let w ← Program.get
  match stopReason env w.rsc read hr with
  | none => pure none
  | some reason => do
      Program.when (decide (reason = .inspectionCapReached)) logCapReached
      exchangeBodyReadState .done
      let status ← finishBodyRead env context
      pure (some status)

/-- The loop of `PumpBodyRead`. The bound counts the reads the server will answer;
the loop waits for ever when there is none left. -/
def pumpLoop (env : Env) (context : HttpContext) : Nat → Program World NotificationStatus
  | 0 => Program.halt .blocked
  | bound + 1 => do
      -- publish before issuing: the completion may be delivered at once
      Program.when (bodyReadsAsync env) (exchangeBodyReadState .readPending)
      let result ← readEntityBody (bodyReadsAsync env)
      if bodyReadsAsync env && result.pending then pure .rqNotificationPending
      else do
        Program.when (bodyReadsAsync env) (exchangeBodyReadState .idle)
        let consumed ← consumeBodyChunk env context result.read result.status
        match consumed with
        | some status => pure status
        | none => pumpLoop env context bound

/-- `PumpBodyRead`. -/
def pumpBodyRead (env : Env) (context : HttpContext) : Program World NotificationStatus := do
  let w ← Program.get
  if context.requestPresent then pumpLoop env context w.reads.length
  else do
    exchangeBodyReadState .done
    finishBodyRead env context

/-- `BeginBodyRead`. -/
def beginBodyRead (env : Env) (context : HttpContext) : Program World NotificationStatus :=
  if context.requestPresent = true ∧ (getEntityBodyInfo context.rawRequest).hasBody = true then do
    let length := (getEntityBodyInfo context.rawRequest).length
    modifyContext fun rsc => { rsc with hasBody := true, declaredBodyLength := length }
    mayThrow env
    modifyContext fun rsc => { rsc with readBuf := resize rsc.readBuf kBodyReadChunkSize }
    Program.when (decide (0 < length)) (mayThrow env)
    pumpBodyRead env context
  else finishBodyRead env context

/-! ## Completions -/

/-- The claimed part of `OnAsyncCompletion`: consume the chunk, then finish or
chain the next read. -/
def continueRead (env : Env) (context : HttpContext) (cb : Nat) (ch : HResult) :
    Program World NotificationStatus := do
  let consumed ← consumeBodyChunk env context cb ch
  match consumed with
  | some status => pure status
  | none => pumpBodyRead env context

/-- `OnAsyncCompletion`; the completion is its byte count and status. -/
def onAsyncCompletion (env : Env) (context : Option HttpContext)
    (completion : Option (Nat × HResult)) : Program World NotificationStatus :=
  match context, completion with
  | some context, some (cb, ch) => do
      let w ← Program.get
      if w.stored = false ∨ w.rsc.tx = none then pure .rqNotificationContinue
      else if w.rsc.bodyReadState = .readPending then do
        exchangeBodyReadState .idle
        Program.tryCatch (continueRead env context cb ch) (do
          reportException env "OnAsyncCompletion"
          pure .rqNotificationFinishRequest)
      else pure .rqNotificationContinue
  | _, _ => pure .rqNotificationContinue

/-- IIS ends the pended read: its bytes are in the staging buffer when the
completion is delivered. -/
def completeRead (env : Env) (context : HttpContext) : Program World NotificationStatus := do
  let w ← Program.get
  match w.outstanding with
  | none => Program.halt .blocked
  | some completion => do
      Program.modify fun w =>
        { w with
          outstanding := none
          rsc := { w.rsc with readBuf := writeBuffer w.rsc.readBuf completion.bytes } }
      onAsyncCompletion env (some context) (some (completion.bytes.length, completion.status))

/-- Deliver completions, at most `bound` of them, until the stage has a status
other than pending. -/
def awaitBody (env : Env) (context : HttpContext) :
    Nat → NotificationStatus → Program World NotificationStatus
  | bound + 1, .rqNotificationPending => do
      let status ← completeRead env context
      awaitBody env context bound status
  | _, status => pure status

end ModSecurityIIS
