import ModSecurityIIS.BeginRequest
import ModSecurityIIS.Imperative.Clock
import ModSecurityIIS.PropertyResources

/-!
# Refusals without a status

The branches on which a handler of the request phase finishes the request and the client does
not get the status that is owed. There is one predicate for each function of the source. It
speaks of the state before the handler, of what the handler is given and of the answers it gets
from a tick on, and runs nothing.
-/

set_option autoImplicit false

namespace ModSecurityIIS

open Imperative Program

/-- One of the `count` steps from `tick` on throws. -/
abbrev Env.ThrowsWithin (env : Env) (tick count : Nat) : Prop :=
  AnyFrom (env.throws · = true) tick count

/-! ## Interventions -/

/-- The status of the intervention, which no redirect replaces, has more than the 16 bits of
`SetStatus`, and those are not 500 either. -/
def Intervention.Cut (it : Intervention) : Prop :=
  it.url.getD [] = [] ∧ 65535 < it.status ∧ it.status % 65536 ≠ 500

/-- The call throws, the copy of the redirect URL does, or the status of a disruption is cut.
What throws later finds the status set. -/
def applyInterventionLoses (env : Env) (tick : Nat) : Prop :=
  env.throws (tick + 1) = true ∨
    ∃ it, env.intervention tick = some it ∧
      (env.throws (tick + 2) = true ∨ it.disruptive ≠ 0 ∧ it.Cut)

/-- Nothing disrupts; `next` is the tick after the call. -/
def interventionPasses (env : Env) (tick next : Nat) : Prop :=
  env.throws (tick + 1) = false ∧
    match env.intervention tick with
    | none => next = tick + 2
    | some it => env.throws (tick + 2) = false ∧ it.disruptive = 0 ∧ next = tick + 3

/-! ## The body phase -/

/-- The engine calls on a body: to append it unless it is empty, and to process it. -/
def feedSteps (body : Bytes) : Nat := if body = [] then 1 else 2

def feedBodyLoses (env : Env) (body : Bytes) (tick : Nat) : Prop :=
  env.ThrowsWithin tick (feedSteps body) ∨ applyInterventionLoses env (tick + feedSteps body)

/-- `InsertEntityBody` fails, an engine call throws, or the intervention is lost. When only the
allocation fails, the status is 500. -/
def finishBodyReadLoses (env : Env) (context : HttpContext) (body : Bytes) (tick : Nat) : Prop :=
  if context.requestPresent = true ∧ body ≠ [] then
    if env.succeeds tick then
      (env.hresult (tick + 1)).failed = true ∨ feedBodyLoses env body (tick + 2)
    else feedBodyLoses env body (tick + 1)
  else feedBodyLoses env body tick

/-- `body` is what was read before the chunk, and `more` says from which ticks on the reads
after it are lost. -/
def consumeBodyChunkLoses (env : Env) (context : HttpContext) (declared : Nat)
    (body chunk : Bytes) (read : Nat) (hr : HResult) (more : Nat → Prop) (tick : Nat) : Prop :=
  if read = 0 then finishBodyReadLoses env context body tick
  else
    env.throws tick = true ∨
      match stopReason env
          { RequestStoredContext.new with declaredBodyLength := declared, body := body ++ chunk }
          read hr with
      | some _ => finishBodyReadLoses env context (body ++ chunk) (tick + 1)
      | none => more (tick + 1)

/-- The reads up to the one that pends; what it brings is for `OnAsyncCompletion`. -/
def pumpBodyReadLoses (env : Env) (context : HttpContext) (declared : Nat) :
    List ReadAnswer → Bytes → Bytes → Nat → Prop
  | [], _, _ => fun _ => False
  | answer :: rest, entity, body => fun tick =>
      let count := min answer.count kBodyReadChunkSize
      ¬ (bodyReadsAsync env = true ∧ answer.pended = true) ∧
        consumeBodyChunkLoses env context declared body (entity.take count)
          (entity.take count).length answer.status
          (pumpBodyReadLoses env context declared rest (entity.drop count)
            (body ++ entity.take count)) tick

/-- The allocations of `BeginBodyRead`: the staging buffer, and the room for a declared body. -/
def bufferSteps (length : Nat) : Nat := if 0 < length then 2 else 1

def beginBodyReadLoses (env : Env) (context : HttpContext) (w : World) (tick : Nat) : Prop :=
  if context.requestPresent = true ∧ (getEntityBodyInfo context.rawRequest).hasBody = true then
    env.ThrowsWithin tick (bufferSteps (getEntityBodyInfo context.rawRequest).length) ∨
      pumpBodyReadLoses env context (getEntityBodyInfo context.rawRequest).length w.reads
        w.entity [] (tick + bufferSteps (getEntityBodyInfo context.rawRequest).length)
  else finishBodyReadLoses env context [] tick

/-- The completion is claimed, and its chunk or a later one is lost. -/
def onAsyncCompletionLoses (env : Env) (context : HttpContext)
    (completion : Option (Nat × HResult)) (w : World) : Prop :=
  ∃ cb ch, completion = some (cb, ch) ∧ w.stored = true ∧ w.rsc.tx ≠ none ∧
    w.rsc.bodyReadState = .readPending ∧
    consumeBodyChunkLoses env context w.rsc.declaredBodyLength w.rsc.body (w.rsc.readBuf.take cb)
      cb ch
      (fun tick =>
        if context.requestPresent then
          pumpBodyReadLoses env context w.rsc.declaredBodyLength w.reads w.entity
            (w.rsc.body ++ w.rsc.readBuf.take cb) tick
        else finishBodyReadLoses env context (w.rsc.body ++ w.rsc.readBuf.take cb) tick) w.tick

/-! ## The handler of new requests -/

/-- The conversion and the engine call for each header of the request. -/
def headerSteps (headers : HttpHeaders) : Nat :=
  (requestHeaders.map fun entry => if (headers.known entry.1).isSome then 2 else 0).sum +
    (headers.unknown.map fun _ => 2).sum

/-- The steps of phase 1 up to `processRequestHeaders`. -/
def requestHeaderSteps (req : HttpRequest) : Nat := 5 + headerSteps req.headers

def inspectRequestLoses (env : Env) (context : HttpContext) (req : HttpRequest) (w : World)
    (tick : Nat) : Prop :=
  env.ThrowsWithin tick (requestHeaderSteps req) ∨
    applyInterventionLoses env (tick + requestHeaderSteps req) ∨
      ∃ next, interventionPasses env (tick + requestHeaderSteps req) next ∧
        beginBodyReadLoses env context w next

/-- The engine or the transaction throws; the transaction or its context is not allocated; the
context is not stored, and not because the container has one. -/
def openTransactionLoses (env : Env) (context : HttpContext) (w : World) (tick : Nat) : Prop :=
  env.throws tick = true ∨ env.succeeds (tick + 1) = false ∨ env.throws (tick + 2) = true ∨
    env.succeeds (tick + 3) = false ∨
      w.stored = false ∧
        ((env.hresult (tick + 4)).failed = true ∧
            env.hresult (tick + 4) ≠ .fromWin32 errorAlreadyAssigned ∨
          ∃ req, context.rawRequest = some req ∧ inspectRequestLoses env context req w (tick + 5))

/-- The load that begins at `tick` leaves rules to work with. -/
def rulesAvailable (env : Env) (entry : Option (CachedRules RulesSet)) (tick : Nat) : Bool :=
  (env.loadFromUri (tick + 1)).isOk || entry.isSome

/-- The cached rules are used unless they are missing or outdated. A load that leaves no rules is
answered, unless putting its message together throws. -/
def getRulesLoses (env : Env) (context : HttpContext) (configFile : Bytes) (w : World)
    (tick : Nat) : Prop :=
  match fastPath (w.rulesCache configFile) (env.rulesFileTime tick) with
  | some _ => openTransactionLoses env context w (tick + 1)
  | none =>
      env.throws (tick + 1) = true ∨ env.throws (tick + 3) = true ∨ env.throws (tick + 4) = true ∨
        if rulesAvailable env (w.rulesCache configFile) (tick + 1) then
          openTransactionLoses env context w (tick + 5)
        else w.rulesFailLogged = false ∧ env.throws (tick + 5) = true

def protectRequestLoses (env : Env) (context : HttpContext) (config : ModsecurityStoredContext)
    (w : World) (tick : Nat) : Prop :=
  let wpath := (config.path.getD []).takeWhile (· ≠ 0)
  config.isEnabled = true ∧ wpath ≠ [] ∧
    (env.throws tick = true ∨
      getRulesLoses env context (wToUtf8 env (some wpath) (wpath.length * 2)) w (tick + 1))

/-- What `Initialize` makes of the section when every property is read. -/
def SiteConfiguration.read (site : SiteConfiguration) : ModsecurityStoredContext :=
  if site.enabled then
    { isEnabled := true, path := some site.configFile, responseBodyBlock := site.responseBodyBlock }
  else .new

/-- Every property of the section that is looked up is read; the last is copied. -/
def sectionReads (env : Env) (site : SiteConfiguration) (tick : Nat) : Bool :=
  propertyReads env tick &&
    (!site.enabled ||
      propertyReads env (tick + 5) && propertyReads env (tick + 10) && env.succeeds (tick + 15))

def sectionSteps (site : SiteConfiguration) : Nat := if site.enabled then 16 else 5

/-- There is a section, and its properties are read. -/
def initializes (env : Env) (context : HttpContext) (tick : Nat) : Bool :=
  context.adminManagerPresent && !(env.hresult tick).failed && env.succeeds (tick + 1) &&
    sectionReads env context.site (tick + 2)

/-- The configuration that a request finds, and the tick at which it has it. -/
inductive ConfigurationFound (env : Env) (context : HttpContext) (w : World) :
    ModsecurityStoredContext → Nat → Prop where
  | cached {config : ModsecurityStoredContext} :
      context.metadataContainerPresent = true → w.storedConfiguration = some config →
      ConfigurationFound env context w config w.tick
  | read :
      context.metadataContainerPresent = true → w.storedConfiguration = none →
      env.succeeds w.tick = true → initializes env context (w.tick + 1) = true →
      (env.hresult (w.tick + 3 + sectionSteps context.site)).failed = false →
      ConfigurationFound env context w context.site.read (w.tick + 4 + sectionSteps context.site)
  /-- Another request has stored its context first. -/
  | raced {other : ModsecurityStoredContext} :
      context.metadataContainerPresent = true → w.storedConfiguration = none →
      env.succeeds w.tick = true → initializes env context (w.tick + 1) = true →
      env.hresult (w.tick + 3 + sectionSteps context.site) = .fromWin32 errorAlreadyAssigned →
      env.racingConfiguration (w.tick + 4 + sectionSteps context.site) = some other →
      ConfigurationFound env context w other (w.tick + 5 + sectionSteps context.site)

/-- There is no request object, or the inspection of the request is lost. A configuration that
is not found is answered. -/
def onBeginRequestLoses (env : Env) (context : HttpContext) (w : World) : Prop :=
  context.requestPresent = false ∨
    ∃ config tick, ConfigurationFound env context w config tick ∧
      protectRequestLoses env context config w tick

end ModSecurityIIS
