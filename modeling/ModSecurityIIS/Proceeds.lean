import ModSecurityIIS.Imperative.Safety
import ModSecurityIIS.SendResponse

/-!
# The functions that do not halt

Most functions return or throw from every state. What is left out here reaches a call
through the transaction pointer, a copy of the body or a read that need not be answered.
-/

set_option autoImplicit false
set_option synthInstance.maxSize 1000

namespace ModSecurityIIS

open Imperative Program

section Proceeds

variable (env : Env) (context : HttpContext)

instance {α : Type} (answer : Nat → α) : Proceeds (consult answer) := ⟨by simp [consult]⟩

instance (event : Event) : Proceeds (record event) := inferInstanceAs (Proceeds (modify _))

instance (event : ComEvent) : Proceeds (recordCom event) := inferInstanceAs (Proceeds (modify _))

instance (f : RequestStoredContext → RequestStoredContext) : Proceeds (modifyContext f) :=
  inferInstanceAs (Proceeds (modify _))

instance (message : Bytes) (category : EventCategory) :
    Proceeds (writeEventViewerLog message category) :=
  inferInstanceAs (Proceeds (modify _))

instance (location : String) : Proceeds (reportException env location) :=
  ⟨by simp [reportException, writeEventViewerLog]⟩

instance : Proceeds (mayThrow env) := by
  unfold mayThrow
  infer_instance

instance (tx : TransactionId) (call : EngineCall) : Proceeds (engineCall env tx call) := by
  unfold engineCall
  infer_instance

instance (op : ResponseOp) : Proceeds (respond op) := by
  unfold respond
  infer_instance

/-! ## Transactions -/

instance (tx : Option TransactionId) : Proceeds (finalizeTransaction env tx) := by
  cases tx <;> (unfold finalizeTransaction; infer_instance)

instance (rsc : RequestStoredContext) : Proceeds (finishContext env rsc) := by
  unfold finishContext
  infer_instance

instance : Proceeds (finishRequest env) := by
  unfold finishRequest
  infer_instance

instance (it : Intervention) : Proceeds (answerIntervention it) := by
  unfold answerIntervention setStatus
  split <;> infer_instance

instance (tx : TransactionId) : Proceeds (pendingIntervention env tx) := by
  unfold pendingIntervention
  infer_instance

instance : Proceeds (responseBodyBlockingEnabled env) := by
  refine .bind inferInstance fun w => ?_
  split <;> infer_instance

/-! ## The configuration and the rules -/

instance (property : SectionProperty) (copied : Bool) :
    Proceeds (propertyValue env property copied) := by
  unfold propertyValue
  infer_instance

instance (property : SectionProperty) (copied argumentsValid : Bool) :
    Proceeds (getPropertyValue env property copied argumentsValid) := by
  unfold getPropertyValue
  infer_instance

instance (site : SiteConfiguration) : Proceeds (readSection env site) := by
  unfold readSection getBooleanPropertyValue getStringPropertyValue
  infer_instance

instance : Proceeds (initializeConfig env context) := by
  unfold initializeConfig
  infer_instance

instance (config : ModsecurityStoredContext) : Proceeds (storeConfig env config) := by
  unfold storeConfig
  infer_instance

instance : Proceeds (getConfig env context) := by
  refine .bind inferInstance fun w => ?_
  cases w.storedConfiguration <;> infer_instance

instance (configFile : Bytes) (curMtime : Option FileTime) :
    Proceeds (loadRules env configFile curMtime) := by
  refine .bind inferInstance fun _ => .bind inferInstance fun loaded => ?_
  cases loaded <;> infer_instance

instance (configFile : Bytes) : Proceeds (getRules env configFile) := by
  refine .bind inferInstance fun curMtime => .bind inferInstance fun w => ?_
  cases fastPath (w.rulesCache configFile) curMtime <;> infer_instance

/-! ## The begin-request handler -/

instance (tx : TransactionId) (add : Bytes → Bytes → EngineCall) (headers : HttpHeaders)
    (table : List (HttpHeaderId × String)) : Proceeds (addKnownHeaders env tx add headers table) := by
  refine .forEach fun entry => ?_
  split <;> infer_instance

instance (tx : TransactionId) (add : Bytes → Bytes → EngineCall) (headers : HttpHeaders) :
    Proceeds (addUnknownHeaders env tx add headers) := by
  unfold addUnknownHeaders
  infer_instance

instance : Proceeds (failUnprotected env context) := by
  unfold failUnprotected
  infer_instance

instance : Proceeds (configFailed env context) := by
  unfold configFailed
  infer_instance

instance (configFile err : Bytes) : Proceeds (rulesFailed env context configFile err) := by
  unfold rulesFailed
  infer_instance

instance (req : HttpRequest) (tx : TransactionId) :
    Proceeds (describeRequest env context req tx) := by
  unfold describeRequest
  infer_instance

instance : Proceeds (newTransaction env) := by
  unfold newTransaction
  infer_instance

/-! ## The body and the response -/

instance : Proceeds logCapReached := by
  unfold logCapReached
  infer_instance

instance (tx : TransactionId) (bound : Nat) (rest : Bytes) (length appended : Nat) :
    Proceeds (appendFileLoop env tx bound rest length appended) := by
  induction bound generalizing rest length appended with
  | zero => exact inferInstanceAs (Proceeds (pure appended))
  | succ bound ih =>
      unfold appendFileLoop
      infer_instance

instance (tx : TransactionId) (file : Bytes) (start length : Nat) :
    Proceeds (appendResponseFileChunk env tx file start length) := by
  unfold appendResponseFileChunk rangeLength
  infer_instance

instance (tx : TransactionId) (respInspected : Nat) (chunk : DataChunk) :
    Proceeds (inspectChunk env tx respInspected chunk) := by
  unfold inspectChunk
  cases chunk <;> infer_instance

instance (tx : TransactionId) (chunks : List DataChunk) :
    Proceeds (inspectChunks env tx chunks) := by
  unfold inspectChunks
  infer_instance

instance (notification : SendResponse) (respInspected : Nat) :
    Proceeds (pinContentLength env notification respInspected) := by
  unfold pinContentLength
  infer_instance

end Proceeds

end ModSecurityIIS
