import ModSecurityIIS.BeginRequest

/-!
# The send-response notification

`OnSendResponse`: the header phase on the first notification, the inspection of
the entity chunks, and the evaluation of phase 4 with blocking (Mode A) or
without (Mode B).
-/

set_option autoImplicit false

namespace ModSecurityIIS

open Imperative

/-- One `RQ_SEND_RESPONSE` notification: the response as IIS shows it, whether its
raw view is available, and what the provider reports. -/
structure SendResponse where
  response : HttpResponse
  rawPresent : Bool
  moreData : Bool
  headersBeingSent : Bool

def responseHeaders : List (HttpHeaderId × String) :=
  [(.cacheControl, "Cache-Control"), (.connection, "Connection"), (.date, "Date"),
    (.keepAlive, "Keep-Alive"), (.pragma, "Pragma"), (.trailer, "Trailer"),
    (.transferEncoding, "Transfer-Encoding"), (.upgrade, "Upgrade"), (.via, "Via"),
    (.warning, "Warning"), (.allow, "Allow"), (.contentLength, "Content-Length"),
    (.contentType, "Content-Type"), (.contentEncoding, "Content-Encoding"),
    (.contentLanguage, "Content-Language"), (.contentLocation, "Content-Location"),
    (.contentMd5, "Content-Md5"), (.contentRange, "Content-Range"), (.expires, "Expires"),
    (.lastModified, "Last-Modified"), (.acceptRanges, "Accept-Ranges"), (.age, "Age"),
    (.etag, "Etag"), (.location, "Location"), (.proxyAuthenticate, "Proxy-Authenticate"),
    (.retryAfter, "Retry-After"), (.server, "Server"), (.setCookie, "Set-Cookie"),
    (.vary, "Vary"), (.wwwAuthenticate, "Www-Authenticate")]

/-! ## File chunks -/

/-- The read loop of `AppendResponseFileChunk` on the file behind its position.
Every turn but the last shortens `rest`, so the bound is never met. -/
def appendFileLoop (env : Env) (tx : TransactionId) :
    Nat → Bytes → Nat → Nat → Program World Nat
  | 0, _, _, appended => pure appended
  | bound + 1, rest, length, appended =>
      if length = 0 then pure appended
      else do
        let answer ← consult env.readFile
        let got := min (answer.getD 0) (min (min length 65536) rest.length)
        if got = 0 then pure appended
        else do
          engineCall env tx (.appendResponseBody (rest.take got))
          appendFileLoop env tx bound (rest.drop got) (length - got) (appended + got)

/-- The length still to read once the position is set. -/
def rangeLength (env : Env) (file : Bytes) (start length : Nat) : Program World Nat :=
  if length = httpByteRangeToEof then do
    let sized ← consult env.succeeds
    pure (if sized && decide (start < file.length) then file.length - start else 0)
  else pure length

/-- `AppendResponseFileChunk`: the number of bytes appended. A start of `2^63` or
more is a negative offset, which `SetFilePointerEx` refuses. -/
def appendResponseFileChunk (env : Env) (tx : TransactionId) (file : Bytes)
    (start length : Nat) : Program World Nat := do
  let duplicated ← consult env.succeeds
  if duplicated then do
    let positioned ← consult env.succeeds
    if positioned && decide (start < 2 ^ 63) then do
      let remaining ← rangeLength env file start length
      appendFileLoop env tx ((file.drop start).length + 1) (file.drop start) remaining 0
    else pure 0
  else pure 0

/-! ## Entity chunks -/

/-- The length of a file range after the cap: what the loop asks for. -/
def cappedRange (maxInspect respInspected length : Nat) : Nat :=
  if length = httpByteRangeToEof then sub64 maxInspect respInspected
  else if maxInspect < add64 respInspected length then sub64 maxInspect respInspected
  else length

/-- One turn of the chunk loop; the result is the new `respInspected`. -/
def inspectChunk (env : Env) (tx : TransactionId) (respInspected : Nat) :
    DataChunk → Program World Nat
  | .fromMemory buffer =>
      let maxInspect := getMaxInspectBodyBytes env
      let len := buffer.bytes.length
      if respInspected < maxInspect ∧ 0 < len then do
        let take :=
          if maxInspect < add64 respInspected len then sub64 maxInspect respInspected else len
        engineCall env tx (.appendResponseBody (buffer.bytes.take take))
        pure (add64 respInspected take)
      else pure respInspected
  | .fromFileHandle file start length => do
      let wanted := cappedRange (getMaxInspectBodyBytes env) respInspected length.toNat
      if 0 < wanted then do
        let appended ← appendResponseFileChunk env tx file start.toNat wanted
        pure (add64 respInspected appended)
      else pure respInspected
  | .other _ => pure respInspected

def inspectChunks (env : Env) (tx : TransactionId) (chunks : List DataChunk) :
    Program World Nat :=
  Program.foldEach chunks 0 (inspectChunk env tx)

/-! ## The phases of the handler -/

/-- The header phase; it holds when the request was finished. -/
def feedResponseHeaders (env : Env) (context : HttpContext) (notification : SendResponse)
    (tx : TransactionId) : Program World Bool := do
  addKnownHeaders env tx .addResponseHeader notification.response.headers responseHeaders
  addUnknownHeaders env tx .addResponseHeader notification.response.headers
  mayThrow env
  let w ← Program.get
  let protocol :=
    if w.rsc.protocol = [] then bytesOf "HTTP/1.1" else bytesOf "HTTP/" ++ w.rsc.protocol
  engineCall env tx (.processResponseHeaders notification.response.statusCode protocol)
  let blocking ← responseBodyBlockingEnabled env
  let blocked ← applyIntervention env context blocking
  if blocked then pure true
  else do
    modifyContext fun rsc => { rsc with responseHeadersFed := true }
    pure false

/-- The header phase runs until it has run to its end once. -/
def headerPhase (env : Env) (context : HttpContext) (notification : SendResponse)
    (tx : TransactionId) : Program World Bool := do
  let w ← Program.get
  if w.rsc.responseHeadersFed then pure false
  else feedResponseHeaders env context notification tx

/-- Pin Content-Length to the inspected size when nothing else set it. -/
def pinContentLength (env : Env) (notification : SendResponse) (respInspected : Nat) :
    Program World Unit := do
  let w ← Program.get
  Program.when
    (decide (0 < respInspected) && notification.headersBeingSent &&
      decide (respInspected < getMaxInspectBodyBytes env) &&
      (w.response.headers.known .contentLength).isNone)
    (respond (.setHeader .contentLength (decimal respInspected)))

/-- `m_ResponseBodyEvaluated` is set, then phase 4 runs. -/
def evaluateBody (env : Env) : Program World Unit := do
  modifyContext fun rsc => { rsc with responseBodyEvaluated := true }
  contextCall env .processResponseBody

/-- Mode A; it holds when the response was replaced. -/
def modeA (env : Env) (context : HttpContext) (notification : SendResponse)
    (respInspected : Nat) : Program World Bool := do
  let blocking ← responseBodyBlockingEnabled env
  let w ← Program.get
  if blocking = true ∧ w.rsc.responseBodyEvaluated = false then
    if notification.moreData then do
      -- bytes are already committed: inspect only for the rest of the request
      modifyContext fun rsc => { rsc with responseBodyBlock := false }
      pure false
    else do
      pinContentLength env notification respInspected
      evaluateBody env
      applyIntervention env context true
  else pure false

/-- Mode B: phase 4 at the final send, without blocking. -/
def modeB (env : Env) (context : HttpContext) (notification : SendResponse) :
    Program World Unit := do
  let blocking ← responseBodyBlockingEnabled env
  let w ← Program.get
  Program.when
    (!blocking && !w.rsc.responseBodyEvaluated && !notification.moreData) (do
      evaluateBody env
      let _ ← applyIntervention env context false
      pure ())

/-- The body part of the handler. -/
def bodyPhase (env : Env) (context : HttpContext) (notification : SendResponse)
    (tx : TransactionId) : Program World NotificationStatus := do
  let respInspected ← inspectChunks env tx notification.response.entityChunks
  let replaced ← modeA env context notification respInspected
  if replaced then pure .rqNotificationFinishRequest
  else do
    modeB env context notification
    pure .rqNotificationContinue

/-- The `try` block of `OnSendResponse`. -/
def sendResponseBlock (env : Env) (context : HttpContext) (notification : SendResponse) :
    Program World NotificationStatus := do
  let w ← Program.get
  match w.rsc.tx with
  | none => pure .rqNotificationContinue
  | some tx =>
      if w.stored = true ∧ context.responsePresent = true ∧ notification.rawPresent = true then do
        let finished ← headerPhase env context notification tx
        if finished then pure .rqNotificationFinishRequest
        else bodyPhase env context notification tx
      else pure .rqNotificationContinue

/-- `SendResponseExceptionPolicy`. -/
def sendResponseExceptionPolicy (context : HttpContext) : Program World NotificationStatus := do
  let w ← Program.get
  if w.stored = true ∧ w.rsc.tx ≠ none ∧ w.rsc.responseHeadersFed = false ∧
      w.rsc.responseBodyEvaluated = false then do
    Program.when context.responsePresent (respond (.setStatus 500 "Internal Server Error"))
    pure .rqNotificationFinishRequest
  else pure .rqNotificationContinue

/-- `OnSendResponse`. -/
def onSendResponse (env : Env) (context : HttpContext) (notification : SendResponse) :
    Program World NotificationStatus :=
  Program.tryCatch (sendResponseBlock env context notification) (do
    reportException env "OnSendResponse"
    sendResponseExceptionPolicy context)

/-- IIS raises the notification on the response as it then is. -/
def raiseSendResponse (env : Env) (context : HttpContext) (notification : SendResponse) :
    Program World NotificationStatus := do
  Program.modify fun w => { w with response := notification.response }
  onSendResponse env context notification

/-- `OnPostEndRequest`. -/
def onPostEndRequest : Program World NotificationStatus := pure .rqNotificationContinue

/-- IIS releases the stored context: `CleanupStoredContext`, then the destructor. -/
def cleanupStoredContext (env : Env) : Program World Unit := do
  let w ← Program.get
  Program.when w.stored (do
    finishRequest env
    Program.modify fun w => { w with stored := false })

end ModSecurityIIS
