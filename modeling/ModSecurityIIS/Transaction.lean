import ModSecurityIIS.World

/-!
# Transactions and interventions

Finalising a transaction, applying an intervention to the response, and the test
whether a response may be blocked at all.
-/

set_option autoImplicit false

namespace ModSecurityIIS

open Imperative

/-- `processLogging` then `delete`, inside a handler that lets nothing escape. A
throwing `processLogging` skips the `delete`. -/
def finalizeTransaction (env : Env) : Option TransactionId → Program World Unit
  | none => pure ()
  | some tx =>
      Program.tryCatch
        (do
          engineCall env tx .processLogging
          record (.destroyTransaction tx))
        (writeEventViewerLog (bytesOf "ModSecurityIIS: exception while finalizing transaction")
          .eventlogErrorType)

/-- `FinishRequest` on a context object that need not be the stored one. -/
def finishContext (env : Env) (rsc : RequestStoredContext) :
    Program World RequestStoredContext := do
  finalizeTransaction env rsc.tx
  Program.when rsc.rules.isSome (record .releaseRules)
  pure { rsc with tx := none, rules := none }

/-- `REQUEST_STORED_CONTEXT::FinishRequest` on the stored context. -/
def finishRequest (env : Env) : Program World Unit := do
  let w ← Program.get
  let rsc ← finishContext env w.rsc
  modifyContext fun _ => rsc

def standardReason (status : Int) : String :=
  match status with
  | 200 => "OK"
  | 301 => "Moved Permanently"
  | 302 => "Found"
  | 303 => "See Other"
  | 307 => "Temporary Redirect"
  | 308 => "Permanent Redirect"
  | 400 => "Bad Request"
  | 401 => "Unauthorized"
  | 403 => "Forbidden"
  | 404 => "Not Found"
  | 405 => "Method Not Allowed"
  | 406 => "Not Acceptable"
  | 407 => "Proxy Authentication Required"
  | 408 => "Request Timeout"
  | 409 => "Conflict"
  | 410 => "Gone"
  | 411 => "Length Required"
  | 412 => "Precondition Failed"
  | 413 => "Content Too Large"
  | 414 => "URI Too Long"
  | 415 => "Unsupported Media Type"
  | 416 => "Range Not Satisfiable"
  | 418 => "I'm a teapot"
  | 421 => "Misdirected Request"
  | 422 => "Unprocessable Content"
  | 423 => "Locked"
  | 428 => "Precondition Required"
  | 429 => "Too Many Requests"
  | 431 => "Request Header Fields Too Large"
  | 451 => "Unavailable For Legal Reasons"
  | 500 => "Internal Server Error"
  | 501 => "Not Implemented"
  | 502 => "Bad Gateway"
  | 503 => "Service Unavailable"
  | 504 => "Gateway Timeout"
  | 505 => "HTTP Version Not Supported"
  | _ => "Rejected by ModSecurity"

/-- `SetStatus((USHORT)status, StandardReason(status))`. -/
def setStatus (status : Int) : Program World Unit :=
  respond (.setStatus (status % 65536).toNat (standardReason status))

/-- The redirect or the status an intervention asks for; the result is the status
reported back to the engine. -/
def answerIntervention (it : Intervention) : Program World Int :=
  match it.url.getD [] with
  | [] => do
      let status := if it.status ≤ 0 then 403 else it.status
      setStatus status
      pure status
  | url => do
      respond (.redirect url)
      if 301 ≤ it.status ∧ it.status ≤ 308 ∧ it.status ≠ 302 then do
        setStatus it.status
        pure it.status
      else pure 302

/-- Replace the response and finalise the request. -/
def disrupt (env : Env) (context : HttpContext) (tx : TransactionId) (it : Intervention) :
    Program World Unit :=
  if context.responsePresent then do
    respond .clear
    let finalStatus ← answerIntervention it
    engineCall env tx (.updateStatusCode finalStatus)
    Program.modify fun w => { w with requestHandled := true }
    record .setRequestHandled
    finishRequest env
  else Program.halt .crashed

/-- `tx->intervention(&it)`. -/
def pendingIntervention (env : Env) (tx : TransactionId) :
    Program World (Option Intervention) := do
  let reported ← consult env.intervention
  engineCall env tx (.intervention reported)
  pure reported

/-- `ApplyIntervention`: whether the request is to be finished. -/
def applyIntervention (env : Env) (context : HttpContext) (canBlock : Bool) :
    Program World Bool := do
  let w ← Program.get
  match w.rsc.tx with
  | none => pure false
  | some tx => do
      let reported ← pendingIntervention env tx
      match reported with
      | none => pure false
      | some it => do
          -- the copy of the redirect URL allocates
          mayThrow env
          if it.disruptive ≠ 0 ∧ canBlock = true then do
            disrupt env context tx it
            pure true
          else pure false

/-- `responseBodyBlockingEnabled`: the engine is asked only when the switch and
the rules allow blocking. -/
def responseBodyBlockingEnabled (env : Env) : Program World Bool := do
  let w ← Program.get
  match w.rsc.tx, w.rsc.rules with
  | some tx, some rules =>
      if w.rsc.responseBodyBlock ∧ rules.secResponseBodyAccess = .trueConfigBoolean then do
        let state ← consult env.ruleEngineState
        engineCall env tx .getRuleEngineState
        pure (state == .enabledRuleEngine)
      else pure false
  | _, _ => pure false

end ModSecurityIIS
