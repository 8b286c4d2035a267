import ModSecurityIIS.Imperative.Program
import ModSecurityIIS.Types

/-!
# The world of one request

What the module changes while it handles a request, and the answers of
everything around it. Answers are indexed by a clock that every consultation
advances, so that no two of them need agree.
-/

set_option autoImplicit false

namespace ModSecurityIIS

open Imperative

/-- The answer to one `ReadEntityBody` call: how many bytes the server has at
most, the result code, and whether an asynchronous call pends. -/
structure ReadAnswer where
  count : Nat
  status : HResult
  pended : Bool
  deriving DecidableEq, Repr

/-- A completed read: the bytes it delivers and `GetCompletionStatus`. -/
structure Completion where
  bytes : Bytes
  status : HResult
  deriving DecidableEq, Repr

/-- The configuration section of the request's metadata path. -/
structure SiteConfiguration where
  enabled : Bool
  responseBodyBlock : Bool
  configFile : List UInt16
  deriving DecidableEq, Repr

/-- Every answer the module gets from the process environment, the platform, IIS
and the engine. -/
structure Env where
  bodyAsync : Option Bytes
  maxInspectBodyBytes : Option Bytes
  failClosed : Option Bytes
  wideCharToMultiByte : List UInt16 → Bytes
  getNameInfo : SockAddr → Option Bytes
  throws : Nat → Bool
  what : Nat → Option Bytes
  succeeds : Nat → Bool
  hresult : Nat → HResult
  intervention : Nat → Option Intervention
  ruleEngineState : Nat → RuleEngineState
  readFile : Nat → Option Nat
  racingConfiguration : Nat → Option ModsecurityStoredContext
  rulesFileTime : Nat → Option FileTime
  loadFromUri : Nat → Except Bytes RulesSet

/-- `IHttpContext` of one request, as far as its answers do not change. -/
structure HttpContext where
  requestPresent : Bool
  rawRequest : Option HttpRequest
  remoteAddress : Option SockAddr
  localAddress : Option SockAddr
  responsePresent : Bool
  metadataContainerPresent : Bool
  adminManagerPresent : Bool
  site : SiteConfiguration

/-- What a run does that others can observe, in order. -/
inductive Event where
  | constructTransaction (tx : TransactionId)
  | engine (tx : TransactionId) (call : EngineCall) (completed : Bool)
  | destroyTransaction (tx : TransactionId)
  | releaseRules
  | response (op : ResponseOp)
  | setRequestHandled
  | readEntityBody
  | insertEntityBody (body : Bytes) (result : HResult)
  deriving DecidableEq, Repr

inductive SectionProperty where
  | enabled
  | responseBodyBlock
  | configFile
  deriving DecidableEq, Repr

/-- The resources of the administration API whose balance matters. -/
inductive ComEvent where
  | sysAllocString
  | sysFreeString
  | obtainSection
  | releaseSection
  | obtainProperty (property : SectionProperty)
  | releaseProperty (property : SectionProperty)
  | obtainException (property : SectionProperty)
  | releaseException
  | variantInit (property : SectionProperty)
  | variantClear (property : SectionProperty)
  | constructContext
  | deleteContext
  deriving DecidableEq, Repr

inductive EventCategory where
  | eventlogErrorType
  | eventlogWarningType
  deriving DecidableEq, Repr

/-- `rsc` is the stored context of the request and means something only while
`stored` holds. `entity` is the part of the body the server has not handed out,
`reads` its answers to the reads to come and `outstanding` the read that pends.
`eventLog` has the lines that callbacks hand to `WriteEventViewerLog`, so none of
`ServerLogCallback`. -/
structure World where
  tick : Nat
  rsc : RequestStoredContext
  stored : Bool
  nextTransaction : TransactionId
  entity : Bytes
  reads : List ReadAnswer
  outstanding : Option Completion
  response : HttpResponse
  requestHandled : Bool
  storedConfiguration : Option ModsecurityStoredContext
  rulesCache : Bytes → Option (CachedRules RulesSet)
  capLogged : Bool
  configFailLogged : Bool
  rulesFailLogged : Bool
  eventLog : List (Bytes × EventCategory)
  comLog : List ComEvent
  log : List Event

/-! ## Process settings -/

/-- `BodyReadsAsync`: only an explicit `0`, `f` or `F` opts into synchronous reads. -/
def bodyReadsAsync (env : Env) : Bool :=
  match environmentVariable env.bodyAsync 16 with
  | some (first :: _) => !(first == 48 || first == 102 || first == 70)
  | _ => true

/-- The default of 1 MiB, or the variable when it is one positive number. -/
def requestedInspectBodyBytes (env : Env) : Nat :=
  match environmentVariable env.maxInspectBodyBytes 32 with
  | some text => (wholeNumber text).getD (1024 * 1024)
  | none => 1024 * 1024

/-- `GetMaxInspectBodyBytes`: the requested size, clamped to what a `DWORD` holds. -/
def getMaxInspectBodyBytes (env : Env) : Nat :=
  if requestedInspectBodyBytes env > 0xFFFFFFFF then 0xFFFFFFFF
  else requestedInspectBodyBytes env

/-- `ConfigFailClosed`: closed unless the variable starts with `0`. -/
def configFailClosed (env : Env) : Bool :=
  match environmentVariable env.failClosed 8 with
  | some (first :: _) => !(first == 48)
  | _ => true

theorem requestedInspectBodyBytes_pos (env : Env) : 0 < requestedInspectBodyBytes env := by
  unfold requestedInspectBodyBytes
  split
  · next text _ =>
      cases parsed : wholeNumber text with
      | none => simp
      | some n => exact (wholeNumber_eq_some_iff.mp parsed).2.2.2.1
  · decide

theorem getMaxInspectBodyBytes_bounds (env : Env) :
    0 < getMaxInspectBodyBytes env ∧ getMaxInspectBodyBytes env ≤ 0xFFFFFFFF := by
  have positive := requestedInspectBodyBytes_pos env
  unfold getMaxInspectBodyBytes
  split <;> omega

/-! ## Primitive steps -/

def record (event : Event) : Program World Unit :=
  Program.modify fun w => { w with log := w.log ++ [event] }

def recordCom (event : ComEvent) : Program World Unit :=
  Program.modify fun w => { w with comLog := w.comLog ++ [event] }

/-- One consultation of the environment. -/
def consult {α : Type} (answer : Nat → α) : Program World α := fun w =>
  .returned (answer w.tick) { w with tick := w.tick + 1 }

/-- A step of the C++ runtime that may throw, such as an allocation by `new`. -/
def mayThrow (env : Env) : Program World Unit := do
  let threw ← consult env.throws
  if threw then Program.throw else pure ()

/-- A call on a transaction; it is recorded whether it returns or throws. -/
def engineCall (env : Env) (tx : TransactionId) (call : EngineCall) : Program World Unit := do
  let threw ← consult env.throws
  record (.engine tx call (!threw))
  if threw then Program.throw else pure ()

/-- A call through `rsc->m_pTx`; the pointer is not tested first. -/
def contextCall (env : Env) (call : EngineCall) : Program World Unit := do
  let w ← Program.get
  match w.rsc.tx with
  | none => Program.halt .crashed
  | some tx => engineCall env tx call

def modifyContext (f : RequestStoredContext → RequestStoredContext) : Program World Unit :=
  Program.modify fun w => { w with rsc := f w.rsc }

/-- `InterlockedExchange(&rsc->m_BodyReadState, state)`. -/
def exchangeBodyReadState (state : BodyReadState) : Program World Unit :=
  modifyContext fun rsc => { rsc with bodyReadState := state }

/-- A call of `iis::WriteEventViewerLog` or of the member of that name. The line is kept
as it is handed over; `reportedLines` says what comes of it. -/
def writeEventViewerLog (message : Bytes) (category : EventCategory) : Program World Unit :=
  Program.modify fun w => { w with eventLog := w.eventLog ++ [(message, category)] }

/-- `ReportException`: the text is cut to its buffer of 512 bytes. -/
def reportException (env : Env) (location : String) : Program World Unit := fun w =>
  let what := (env.what w.tick).getD (bytesOf "unknown error")
  writeEventViewerLog
    ((bytesOf ("ModSecurityIIS: unexpected exception in " ++ location ++ ": ") ++ what).take 511)
    .eventlogErrorType w

/-- A method of `IHttpResponse` that changes the response. -/
def respond (op : ResponseOp) : Program World Unit := do
  Program.modify fun w => { w with response := w.response.apply op }
  record (.response op)

/-! ## Running the primitive steps -/

section Equations

variable (env : Env) (w : World)

/-- The world after one consultation. -/
def World.advance : World := { w with tick := w.tick + 1 }

@[simp] theorem consult_apply {α : Type} (answer : Nat → α) :
    consult answer w = .returned (answer w.tick) w.advance := rfl

@[simp] theorem record_apply (event : Event) :
    record event w = .returned () { w with log := w.log ++ [event] } := rfl

@[simp] theorem modifyContext_apply (f : RequestStoredContext → RequestStoredContext) :
    modifyContext f w = .returned () { w with rsc := f w.rsc } := rfl

@[simp] theorem exchangeBodyReadState_apply (state : BodyReadState) :
    exchangeBodyReadState state w =
      .returned () { w with rsc := { w.rsc with bodyReadState := state } } := rfl

theorem mayThrow_apply :
    mayThrow env w =
      if env.throws w.tick then .thrown w.advance else .returned () w.advance := by
  rw [mayThrow, Program.bind_apply, consult_apply]
  cases env.throws w.tick <;> rfl

/-- The world after an engine call. -/
def World.called (tx : TransactionId) (call : EngineCall) : World :=
  { w.advance with log := w.log ++ [.engine tx call (!env.throws w.tick)] }

theorem engineCall_apply (tx : TransactionId) (call : EngineCall) :
    engineCall env tx call w =
      if env.throws w.tick then .thrown (w.called env tx call)
      else .returned () (w.called env tx call) := by
  rw [engineCall, Program.bind_apply, consult_apply]
  simp only [Program.bind_apply, record_apply]
  cases threw : env.throws w.tick <;> simp [World.called, World.advance, threw]

end Equations

/-! ## A calm process -/

/-- Surroundings in which nothing fails and no rule fires. -/
def Env.calm : Env where
  bodyAsync := none
  maxInspectBodyBytes := none
  failClosed := none
  wideCharToMultiByte units := units.map fun unit => unit.toNat.toUInt8
  getNameInfo _ := none
  throws _ := false
  what _ := none
  succeeds _ := true
  hresult _ := .sOk
  intervention _ := none
  ruleEngineState _ := .enabledRuleEngine
  readFile _ := some 65536
  racingConfiguration _ := none
  rulesFileTime _ := none
  loadFromUri _ := .ok { secResponseBodyAccess := .trueConfigBoolean }

/-- A POST whose body is still to come. -/
def HttpRequest.plain : HttpRequest where
  verb := .post
  unknownVerb := none
  rawUrl := some [47]
  absPath := { units := none, byteLength := 0 }
  queryString := { units := none, byteLength := 0 }
  version := { majorVersion := 1, minorVersion := 1 }
  headers := .empty
  moreEntityBodyExists := true

/-- That request to a path with rules and blocking of responses. -/
def HttpContext.plain : HttpContext where
  requestPresent := true
  rawRequest := some .plain
  remoteAddress := none
  localAddress := none
  responsePresent := true
  metadataContainerPresent := true
  adminManagerPresent := true
  site := { enabled := true, responseBodyBlock := true, configFile := [114] }

/-- A process that gets its first request, with what the server has of the body. -/
def World.arrived (entity : Bytes) (reads : List ReadAnswer) : World where
  tick := 0
  rsc := .new
  stored := false
  nextTransaction := 0
  entity := entity
  reads := reads
  outstanding := none
  response := { statusCode := 200, reason := "OK", headers := .empty, entityChunks := [] }
  requestHandled := false
  storedConfiguration := none
  rulesCache _ := none
  capLogged := false
  configFailLogged := false
  rulesFailLogged := false
  eventLog := []
  comLog := []
  log := []

end ModSecurityIIS
