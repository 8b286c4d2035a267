import ModSecurityIIS.BodyRead
import ModSecurityIIS.Configuration
import ModSecurityIIS.Rules

/-!
# The begin-request notification

`OnBeginRequest` with the conversions it feeds the engine with, and the whole
begin-request stage: the handler and the completions of its pended reads.
-/

set_option autoImplicit false

namespace ModSecurityIIS

open Imperative

/-! ## Conversions -/

/-- `WToUtf8` on a buffer of the given byte length. -/
def wToUtf8 (env : Env) (units : Option (List UInt16)) (byteLen : Nat) : Bytes :=
  match units with
  | none => []
  | some wide =>
      if byteLen = 0 then []
      else if byteLen % 2 ≠ 0 then []
      else env.wideCharToMultiByte (wide.take (byteLen / 2))

/-- `AToUtf8`: a trailing NUL is dropped. -/
def aToUtf8 : Option Bytes → Bytes
  | none => []
  | some text => if text.getLast? = some 0 then text.dropLast else text

/-- `IN6_IS_ADDR_V4MAPPED`. -/
def isV4Mapped (address : List UInt8) : Bool :=
  address.take 12 == [0, 0, 0, 0, 0, 0, 0, 0, 0, 0, 255, 255]

def dottedQuad (octets : List UInt8) : Bytes :=
  List.intercalate [46] (octets.map fun octet => decimal octet.toNat)

def sockAddrToIp (env : Env) : Option SockAddr → Bytes
  | none => []
  | some (.inet6 address port) =>
      if isV4Mapped address then dottedQuad ((address.drop 12).take 4)
      else (env.getNameInfo (.inet6 address port)).getD []
  | some address => (env.getNameInfo address).getD []

def ntohs (port : UInt16) : Nat := (port.toNat % 256) * 256 + port.toNat / 256

def sockAddrToPort : Option SockAddr → Nat
  | none => 0
  | some (.inet _ port) => ntohs port
  | some (.inet6 _ port) => ntohs port
  | some (.other _) => 0

def verbToString (req : HttpRequest) : Bytes :=
  match req.verb with
  | .options => bytesOf "OPTIONS"
  | .get => bytesOf "GET"
  | .head => bytesOf "HEAD"
  | .post => bytesOf "POST"
  | .put => bytesOf "PUT"
  | .delete => bytesOf "DELETE"
  | .trace => bytesOf "TRACE"
  | .track => bytesOf "TRACK"
  | .connect => bytesOf "CONNECT"
  | .move => bytesOf "MOVE"
  | .copy => bytesOf "COPY"
  | .propfind => bytesOf "PROPFIND"
  | .proppatch => bytesOf "PROPPATCH"
  | .mkcol => bytesOf "MKCOL"
  | .lock => bytesOf "LOCK"
  | .unlock => bytesOf "UNLOCK"
  | .search => bytesOf "SEARCH"
  | .unparsed => bytesOf "INVALID"
  | .unknown =>
      match aToUtf8 req.unknownVerb with
      | [] => bytesOf "INVALID"
      | verb => verb

def versionToString (version : HttpVersion) : Bytes :=
  if version = ⟨0, 9⟩ then bytesOf "0.9"
  else if version = ⟨1, 0⟩ then bytesOf "1.0"
  else if version = ⟨1, 1⟩ then bytesOf "1.1"
  else if version = ⟨2, 0⟩ then bytesOf "2.0"
  else if version = ⟨3, 0⟩ then bytesOf "3.0"
  else decimal version.majorVersion

/-- The raw URL when there is one, else the cooked path and query. -/
def requestUri (env : Env) (req : HttpRequest) : Bytes :=
  match req.rawUrl with
  | some url => aToUtf8 (some url)
  | none =>
      let path := wToUtf8 env req.absPath.units req.absPath.byteLength
      if 2 ≤ req.queryString.byteLength then
        path ++ bytesOf "?" ++
          wToUtf8 env (req.queryString.units.map (List.drop 1)) (req.queryString.byteLength - 2)
      else path

/-! ## Headers -/

def requestHeaders : List (HttpHeaderId × String) :=
  [(.cacheControl, "Cache-Control"), (.connection, "Connection"), (.date, "Date"),
    (.keepAlive, "Keep-Alive"), (.pragma, "Pragma"), (.trailer, "Trailer"),
    (.transferEncoding, "Transfer-Encoding"), (.upgrade, "Upgrade"), (.via, "Via"),
    (.warning, "Warning"), (.allow, "Allow"), (.contentLength, "Content-Length"),
    (.contentType, "Content-Type"), (.contentEncoding, "Content-Encoding"),
    (.contentLanguage, "Content-Language"), (.contentLocation, "Content-Location"),
    (.contentMd5, "Content-Md5"), (.contentRange, "Content-Range"), (.expires, "Expires"),
    (.lastModified, "Last-Modified"), (.accept, "Accept"), (.acceptCharset, "Accept-Charset"),
    (.acceptEncoding, "Accept-Encoding"), (.acceptLanguage, "Accept-Language"),
    (.authorization, "Authorization"), (.cookie, "Cookie"), (.expect, "Expect"),
    (.fromHeader, "From"), (.host, "Host"), (.ifMatch, "If-Match"),
    (.ifModifiedSince, "If-Modified-Since"), (.ifNoneMatch, "If-None-Match"),
    (.ifRange, "If-Range"), (.ifUnmodifiedSince, "If-Unmodified-Since"),
    (.maxForwards, "Max-Forwards"), (.proxyAuthorization, "Proxy-Authorization"),
    (.referer, "Referer"), (.range, "Range"), (.te, "TE"), (.translate, "Translate"),
    (.userAgent, "User-Agent")]

/-- The `_TRANSHEADER` lines of a handler: `add` is its engine call. -/
def addKnownHeaders (env : Env) (tx : TransactionId) (add : Bytes → Bytes → EngineCall)
    (headers : HttpHeaders) (table : List (HttpHeaderId × String)) : Program World Unit :=
  Program.forEach table fun entry =>
    match headers.known entry.1 with
    | none => pure ()
    | some raw => do
        mayThrow env
        engineCall env tx (add (bytesOf entry.2) (cStr (aToUtf8 (some raw))))

/-- The loop over the unknown headers of a handler. -/
def addUnknownHeaders (env : Env) (tx : TransactionId) (add : Bytes → Bytes → EngineCall)
    (headers : HttpHeaders) : Program World Unit :=
  Program.forEach headers.unknown fun header => do
    mayThrow env
    engineCall env tx (add (cStr (aToUtf8 header.1)) (cStr (aToUtf8 header.2)))

/-! ## The handler -/

/-- How the `do … while (0)` block is left: by `break` with the value of `hr`, or
by returning a status. -/
inductive BlockExit where
  | leave (hr : HResult)
  | finish (status : NotificationStatus)
  deriving DecidableEq, Repr

def BlockExit.status : BlockExit → NotificationStatus
  | .finish status => status
  | .leave hr => if hr.failed then .rqNotificationFinishRequest else .rqNotificationContinue

/-- The answer when the configuration or the rules cannot be had. -/
def failUnprotected (env : Env) (context : HttpContext) : Program World BlockExit :=
  if configFailClosed env then do
    Program.when context.responsePresent (respond (.setStatus 500 "Internal Server Error"))
    pure (.finish .rqNotificationFinishRequest)
  else pure (.leave .sOk)

def configFailed (env : Env) (context : HttpContext) : Program World BlockExit := do
  let w ← Program.get
  Program.modify fun w => { w with configFailLogged := true }
  Program.when (!w.configFailLogged)
    (writeEventViewerLog
      (bytesOf ("ModSecurityIIS: failed to read module configuration; " ++
        "failing closed (request rejected).")) .eventlogErrorType)
  failUnprotected env context

def rulesFailed (env : Env) (context : HttpContext) (configFile err : Bytes) :
    Program World BlockExit := do
  let w ← Program.get
  Program.modify fun w => { w with rulesFailLogged := true }
  Program.when (!w.rulesFailLogged) (do
    mayThrow env
    writeEventViewerLog
      (bytesOf "ModSecurityIIS: failed to load rules from '" ++ configFile ++
        bytesOf "': " ++ err) .eventlogErrorType)
  failUnprotected env context

/-- The connection, URI and header calls on the transaction. -/
def describeRequest (env : Env) (context : HttpContext) (req : HttpRequest)
    (tx : TransactionId) : Program World Unit := do
  mayThrow env
  engineCall env tx
    (.processConnection (cStr (sockAddrToIp env context.remoteAddress))
      (sockAddrToPort context.remoteAddress) (cStr (sockAddrToIp env context.localAddress))
      (sockAddrToPort context.localAddress))
  mayThrow env
  modifyContext fun rsc => { rsc with protocol := versionToString req.version }
  engineCall env tx
    (.processURI (cStr (requestUri env req)) (cStr (verbToString req))
      (cStr (versionToString req.version)))
  addKnownHeaders env tx .addRequestHeader req.headers requestHeaders
  addUnknownHeaders env tx .addRequestHeader req.headers

/-- Phase 1; it holds when the request was finished. -/
def requestHeaderPhase (env : Env) (context : HttpContext) (req : HttpRequest)
    (tx : TransactionId) : Program World Bool := do
  describeRequest env context req tx
  engineCall env tx .processRequestHeaders
  applyIntervention env context true

/-- The part of the block that runs on a transaction: the request phases. -/
def inspectRequest (env : Env) (context : HttpContext) (req : HttpRequest)
    (tx : TransactionId) : Program World BlockExit := do
  let blocked ← requestHeaderPhase env context req tx
  if blocked then pure (.finish .rqNotificationFinishRequest)
  else do
    let status ← beginBodyRead env context
    pure (.finish status)

/-- `SetModuleContext` for the request's context; the container reports
`ERROR_ALREADY_ASSIGNED` exactly when it holds one. -/
def setModuleContext (env : Env) (rsc : RequestStoredContext) : Program World HResult := do
  let w ← Program.get
  if w.stored then pure (.fromWin32 errorAlreadyAssigned)
  else do
    let answer ← consult env.hresult
    if answer.failed = true ∧ answer ≠ .fromWin32 errorAlreadyAssigned then pure answer
    else do
      Program.modify fun w => { w with rsc, stored := true }
      pure .sOk

/-- `new (std::nothrow) Transaction(&iis::engine(), ...)`; the engine singleton and
the constructor may throw. -/
def newTransaction (env : Env) : Program World (Option TransactionId) := do
  mayThrow env
  let allocated ← consult env.succeeds
  if allocated then do
    mayThrow env
    let w ← Program.get
    Program.modify fun w => { w with nextTransaction := w.nextTransaction + 1 }
    record (.constructTransaction w.nextTransaction)
    pure (some w.nextTransaction)
  else pure none

/-- The block from the loaded rules on: transaction, stored context, inspection. -/
def openTransaction (env : Env) (context : HttpContext) (config : ModsecurityStoredContext)
    (rules : RulesSet) : Program World BlockExit := do
  let created ← newTransaction env
  match created with
  | none => pure (.leave .eOutOfMemory)
  | some tx => do
      let allocated ← consult env.succeeds
      if allocated then do
        let rsc : RequestStoredContext :=
          { RequestStoredContext.new with
            tx := some tx
            rules := some rules
            responseBodyBlock := config.responseBodyBlock }
        let shr ← setModuleContext env rsc
        if shr.failed then do
          let _ ← finishContext env rsc
          if shr = .fromWin32 errorAlreadyAssigned then pure (.leave .sOk)
          else pure (.leave .eUnexpected)
        else
          match context.rawRequest with
          | none => pure (.leave .sOk)
          | some req => inspectRequest env context req tx
      else do
        record (.destroyTransaction tx)
        pure (.leave .eOutOfMemory)

/-- The block from the configuration on. -/
def protectRequest (env : Env) (context : HttpContext) (config : ModsecurityStoredContext) :
    Program World BlockExit :=
  if config.isEnabled then
    match (config.path.getD []).takeWhile (· ≠ 0) with
    | [] => pure (.leave .sOk)
    | wpath => do
        mayThrow env
        let configFile := wToUtf8 env (some wpath) (wpath.length * 2)
        let loaded ← getRules env configFile
        match loaded.rules with
        | none => rulesFailed env context configFile loaded.err
        | some rules => openTransaction env context config rules
  else pure (.leave .sOk)

/-- The `try` block of `OnBeginRequest`. -/
def beginRequestBlock (env : Env) : Option HttpContext → Program World BlockExit
  | none => pure (.leave .eUnexpected)
  | some context =>
      if context.requestPresent then do
        let result ← getConfig env context
        if result.hr.failed then configFailed env context
        else
          match result.config with
          | none => Program.halt .crashed
          | some config => protectRequest env context config
      else pure (.leave .eUnexpected)

/-- `OnBeginRequest`. -/
def onBeginRequest (env : Env) (context : Option HttpContext) :
    Program World NotificationStatus := do
  let exit ← Program.tryCatch (beginRequestBlock env context) (do
    reportException env "OnBeginRequest"
    pure (.finish .rqNotificationFinishRequest))
  pure exit.status

/-- The begin-request stage: the handler, then at most `bound` completions of its
own reads. The status is pending as long as a read is. -/
def beginRequestStage (env : Env) (context : HttpContext) (bound : Nat) :
    Program World NotificationStatus := do
  let status ← onBeginRequest env (some context)
  awaitBody env context bound status

end ModSecurityIIS
