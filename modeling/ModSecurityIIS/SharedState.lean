import ModSecurityIIS.TransactionUse

/-!
# What the requests of a process share

The counter of transactions, the rules cache, the marks of the messages that are
logged once, and the event log belong to the process. Each callback reaches them at
a few places; everywhere else it takes steps of its own.
-/

set_option autoImplicit false

namespace ModSecurityIIS

open Imperative Program

structure Globals where
  nextTransaction : TransactionId
  rulesCache : Bytes → Option (CachedRules RulesSet)
  capLogged : Bool
  configFailLogged : Bool
  rulesFailLogged : Bool
  eventLog : List (Bytes × EventCategory)

def World.globals (w : World) : Globals where
  nextTransaction := w.nextTransaction
  rulesCache := w.rulesCache
  capLogged := w.capLogged
  configFailLogged := w.configFailLogged
  rulesFailLogged := w.rulesFailLogged
  eventLog := w.eventLog

/-- The messages that are logged once per process. -/
inductive Warning where
  | capReached
  | configFailed
  | rulesFailed
  deriving DecidableEq, Repr

/-- How the message starts; no other message of the module starts so. -/
def Warning.text : Warning → Bytes
  | .capReached => bytesOf "ModSecurityIIS: a request body reached the inspection "
  | .configFailed => bytesOf "ModSecurityIIS: failed to read module configuration; "
  | .rulesFailed => bytesOf "ModSecurityIIS: failed to load rules from '"

def Warning.heads (warning : Warning) (entry : Bytes × EventCategory) : Bool :=
  warning.text.isPrefixOf entry.1

def Unwarned (message : Bytes) : Prop :=
  ∀ warning : Warning, warning.text.isPrefixOf message = false

theorem bytesOf_append (first second : String) :
    bytesOf (first ++ second) = bytesOf first ++ bytesOf second := by
  simp only [bytesOf, String.toList_append, List.map_append]

theorem Warning.starts {warning : Warning} {message : Bytes} (heads : warning.text <+: message)
    {size : Nat} (short : size ≤ 27) : message.take size = warning.text.take size := by
  have long : 27 ≤ warning.text.length := by cases warning <;> decide
  obtain ⟨rest, rfl⟩ := heads
  exact List.take_append_of_le_length (short.trans long)

theorem Warning.eq_of_heads {warning other : Warning} {message : Bytes}
    (heads : warning.text <+: message) (also : other.text <+: message) : warning = other := by
  have same := (starts heads (Nat.le_refl 27)).symm.trans (starts also (Nat.le_refl 27))
  cases warning <;> cases other <;> first | rfl | exact absurd same (by decide)

theorem unwarned_of_start {message : Bytes} (start : Bytes) (long : start.length = 20)
    (begins : start <+: message)
    (different : start ∉ [Warning.capReached, .configFailed, .rulesFailed].map
      fun warning => warning.text.take 20) : Unwarned message := by
  intro warning
  apply Bool.eq_false_iff.mpr
  intro heads
  apply different
  have taken := Warning.starts (List.isPrefixOf_iff_prefix.mp heads) (by decide : 20 ≤ 27)
  obtain ⟨rest, rfl⟩ := begins
  rw [← long, List.take_left, long] at taken
  rw [taken]
  cases warning <;> simp

/-- A step that leaves what is shared alone and makes no transaction. -/
structure OwnStep (w after : World) : Prop where
  globals : after.globals = w.globals
  configuration : after.storedConfiguration = w.storedConfiguration
  logged : ∃ events, after.log = w.log ++ events ∧
    ∀ event ∈ events, ∀ tx, event ≠ .constructTransaction tx

theorem OwnStep.silent {w after : World} (globals : after.globals = w.globals)
    (configuration : after.storedConfiguration = w.storedConfiguration)
    (log : after.log = w.log) : OwnStep w after :=
  ⟨globals, configuration, [], by rw [log, List.append_nil], by simp⟩

theorem OwnStep.recorded {w after : World} {event : Event} (globals : after.globals = w.globals)
    (configuration : after.storedConfiguration = w.storedConfiguration)
    (log : after.log = w.log ++ [event]) (other : ∀ tx, event ≠ .constructTransaction tx) :
    OwnStep w after :=
  ⟨globals, configuration, [event], log, by simpa using other⟩

instance : IsPreorder World OwnStep where
  refl _ := .silent rfl rfl rfl
  trans _ _ _ first second := by
    obtain ⟨before, beforeShape, beforeOther⟩ := first.logged
    obtain ⟨after, afterShape, afterOther⟩ := second.logged
    refine ⟨second.globals.trans first.globals,
      second.configuration.trans first.configuration, before ++ after, ?_, ?_⟩
    · rw [afterShape, beforeShape, List.append_assoc]
    · exact List.forall_mem_append.mpr ⟨beforeOther, afterOther⟩

/-! ## Steps of a callback's own -/

section Own

variable {env : Env} {context : HttpContext}

theorem consult_own {α : Type} (answer : Nat → α) : Within OwnStep (consult answer) :=
  fun _ => .silent rfl rfl rfl

theorem recordCom_own (event : ComEvent) : Within OwnStep (recordCom event) :=
  fun _ => .silent rfl rfl rfl

theorem modifyContext_own (f : RequestStoredContext → RequestStoredContext) :
    Within OwnStep (modifyContext f) :=
  fun _ => .silent rfl rfl rfl

theorem record_own {event : Event} (other : ∀ tx, event ≠ .constructTransaction tx) :
    Within OwnStep (record event) :=
  fun _ => .recorded rfl rfl rfl other

theorem mayThrow_own : Within OwnStep (mayThrow env) := by
  refine Within.bind (consult_own _) fun threw => ?_
  split
  · exact Within.throw
  · exact Within.pure _

theorem engineCall_own (tx : TransactionId) (call : EngineCall) :
    Within OwnStep (engineCall env tx call) := by
  refine Within.bind (consult_own _) fun threw => ?_
  refine Within.bind (record_own nofun) fun _ => ?_
  split
  · exact Within.throw
  · exact Within.pure _

theorem contextCall_own (call : EngineCall) : Within OwnStep (contextCall env call) := by
  refine Within.bind Within.get fun w => ?_
  split
  · exact Within.halt _
  · exact engineCall_own _ call

theorem respond_own (op : ResponseOp) : Within OwnStep (respond op) := by
  refine Within.bind (fun _ => .silent rfl rfl rfl) fun _ => ?_
  exact record_own nofun

theorem answerIntervention_own (it : Intervention) : Within OwnStep (answerIntervention it) := by
  unfold answerIntervention
  split
  · exact Within.bind (respond_own _) fun _ => Within.pure _
  · refine Within.bind (respond_own _) fun _ => ?_
    split
    · exact Within.bind (respond_own _) fun _ => Within.pure _
    · exact Within.pure _

theorem pendingIntervention_own (tx : TransactionId) :
    Within OwnStep (pendingIntervention env tx) := by
  refine Within.bind (consult_own _) fun reported => ?_
  exact Within.bind (engineCall_own tx _) fun _ => Within.pure _

theorem responseBodyBlockingEnabled_own : Within OwnStep (responseBodyBlockingEnabled env) := by
  refine Within.bind Within.get fun w => ?_
  split
  · split
    · refine Within.bind (consult_own _) fun state => ?_
      exact Within.bind (engineCall_own _ _) fun _ => Within.pure _
    · exact Within.pure _
  · exact Within.pure _

theorem insertEntityBody_own (body : Bytes) : Within OwnStep (insertEntityBody env body) := by
  refine Within.bind (consult_own _) fun result => ?_
  refine Within.bind ?_ fun _ => Within.pure _
  intro w
  exact .recorded rfl rfl rfl nofun

theorem readEntityBody_own (async : Bool) : Within OwnStep (readEntityBody async) := by
  intro w
  unfold readEntityBody
  split
  · exact refl_of OwnStep w
  · dsimp only
    split <;> exact .recorded rfl rfl rfl nofun

theorem addKnownHeaders_own (tx : TransactionId) (add : Bytes → Bytes → EngineCall)
    (headers : HttpHeaders) (table : List (HttpHeaderId × String)) :
    Within OwnStep (addKnownHeaders env tx add headers table) := by
  apply Within.forEach
  intro entry _
  split
  · exact Within.pure _
  · exact Within.bind mayThrow_own fun _ => engineCall_own _ _

theorem addUnknownHeaders_own (tx : TransactionId) (add : Bytes → Bytes → EngineCall)
    (headers : HttpHeaders) : Within OwnStep (addUnknownHeaders env tx add headers) := by
  apply Within.forEach
  intro header _
  exact Within.bind mayThrow_own fun _ => engineCall_own _ _

theorem describeRequest_own (req : HttpRequest) (tx : TransactionId) :
    Within OwnStep (describeRequest env context req tx) := by
  refine Within.bind mayThrow_own fun _ => ?_
  refine Within.bind (engineCall_own _ _) fun _ => ?_
  refine Within.bind mayThrow_own fun _ => ?_
  refine Within.bind (modifyContext_own _) fun _ => ?_
  refine Within.bind (engineCall_own _ _) fun _ => ?_
  refine Within.bind (addKnownHeaders_own _ _ _ _) fun _ => ?_
  exact addUnknownHeaders_own _ _ _

theorem setModuleContext_own (rsc : RequestStoredContext) :
    Within OwnStep (setModuleContext env rsc) := by
  refine Within.bind Within.get fun w => ?_
  split
  · exact Within.pure _
  · refine Within.bind (consult_own _) fun answer => ?_
    split
    · exact Within.pure _
    · exact Within.bind (fun _ => .silent rfl rfl rfl) fun _ => Within.pure _

theorem failUnprotected_own : Within OwnStep (failUnprotected env context) := by
  unfold failUnprotected
  split
  · exact Within.bind (.when fun _ => respond_own _) fun _ => Within.pure _
  · exact Within.pure _

theorem getPropertyValue_own (property : SectionProperty) (copied argumentsValid : Bool) :
    Within OwnStep (getPropertyValue env property copied argumentsValid) := by
  have value : Within OwnStep (propertyValue env property copied) := by
    refine Within.bind (recordCom_own _) fun _ => ?_
    refine Within.bind (consult_own _) fun valueHr => ?_
    split
    · exact Within.pure _
    · refine Within.bind (consult_own _) fun exceptionHr => ?_
      split
      · exact Within.pure _
      · refine Within.bind (consult_own _) fun clean => ?_
        split
        · split
          · refine Within.bind (consult_own _) fun allocated => ?_
            split <;> exact Within.pure _
          · exact Within.pure _
        · exact Within.bind (recordCom_own _) fun _ => Within.pure _
  unfold getPropertyValue
  split
  · refine Within.bind (consult_own _) fun foundHr => ?_
    split
    · exact Within.bind (recordCom_own _) fun _ => Within.pure _
    · refine Within.bind (consult_own _) fun found => ?_
      split
      · refine Within.bind (recordCom_own _) fun _ => Within.bind value fun _ => ?_
        exact Within.bind (recordCom_own _) fun _ =>
          Within.bind (recordCom_own _) fun _ => Within.pure _
      · exact Within.bind (recordCom_own _) fun _ => Within.pure _
  · exact Within.bind (recordCom_own _) fun _ => Within.pure _

theorem readSection_own (site : SiteConfiguration) : Within OwnStep (readSection env site) := by
  refine Within.bind (getPropertyValue_own _ _ _) fun enabled => ?_
  dsimp only
  split
  · exact Within.pure _
  · refine Within.bind (getPropertyValue_own _ _ _) fun block => ?_
    split
    · exact Within.pure _
    · exact Within.bind (getPropertyValue_own _ _ _) fun _ => Within.pure _

theorem initializeConfig_own : Within OwnStep (initializeConfig env context) := by
  refine Within.bind (recordCom_own _) fun _ => ?_
  split
  · refine Within.bind (consult_own _) fun sectionHr => ?_
    split
    · exact Within.bind (recordCom_own _) fun _ => Within.pure _
    · refine Within.bind (consult_own _) fun found => ?_
      split
      · refine Within.bind (recordCom_own _) fun _ => Within.bind (readSection_own _) fun _ => ?_
        exact Within.bind (recordCom_own _) fun _ =>
          Within.bind (recordCom_own _) fun _ => Within.pure _
      · exact Within.bind (recordCom_own _) fun _ => Within.pure _
  · exact Within.bind (recordCom_own _) fun _ => Within.pure _

theorem appendFileLoop_own (tx : TransactionId) (bound : Nat) (rest : Bytes)
    (length appended : Nat) : Within OwnStep (appendFileLoop env tx bound rest length appended) := by
  induction bound generalizing rest length appended with
  | zero => exact Within.pure _
  | succ bound ih =>
      rw [appendFileLoop]
      split
      · exact Within.pure _
      · refine Within.bind (consult_own _) fun answer => ?_
        dsimp only
        split
        · exact Within.pure _
        · exact Within.bind (engineCall_own _ _) fun _ => ih _ _ _

theorem appendResponseFileChunk_own (tx : TransactionId) (file : Bytes) (start length : Nat) :
    Within OwnStep (appendResponseFileChunk env tx file start length) := by
  refine Within.bind (consult_own _) fun duplicated => ?_
  split
  · refine Within.bind (consult_own _) fun positioned => ?_
    split
    · refine Within.bind ?_ fun _ => appendFileLoop_own _ _ _ _ _
      unfold rangeLength
      split
      · exact Within.bind (consult_own _) fun _ => Within.pure _
      · exact Within.pure _
    · exact Within.pure _
  · exact Within.pure _

theorem inspectChunks_own (tx : TransactionId) (chunks : List DataChunk) :
    Within OwnStep (inspectChunks env tx chunks) := by
  apply Within.foldEach
  intro respInspected chunk _
  cases chunk with
  | fromMemory buffer =>
      rw [inspectChunk]
      split
      · exact Within.bind (engineCall_own _ _) fun _ => Within.pure _
      · exact Within.pure _
  | fromFileHandle file start length =>
      rw [inspectChunk]
      split
      · exact Within.bind (appendResponseFileChunk_own _ _ _ _) fun _ => Within.pure _
      · exact Within.pure _
  | other length => exact Within.pure _

theorem pinContentLength_own {notification : SendResponse} {respInspected : Nat} :
    Within OwnStep (pinContentLength env notification respInspected) :=
  Within.bind Within.get fun _ => .when fun _ => respond_own _

theorem evaluateBody_own : Within OwnStep (evaluateBody env) :=
  Within.bind (modifyContext_own _) fun _ => contextCall_own _

end Own

/-- A transaction is made with the next number, or nothing is. -/
theorem newTransaction_cases (env : Env) (w : World) : ∃ tick,
    newTransaction env w = .returned (some w.nextTransaction)
        { w with
          tick
          nextTransaction := w.nextTransaction + 1
          log := w.log ++ [.constructTransaction w.nextTransaction] } ∨
      newTransaction env w = .returned none { w with tick } ∨
      newTransaction env w = .thrown { w with tick } := by
  rw [newTransaction, bind_apply, mayThrow_apply]
  cases env.throws w.tick with
  | true => exact ⟨_, .inr (.inr rfl)⟩
  | false =>
      simp only [Bool.false_eq_true, if_false]
      rw [bind_returned (consult_apply _ _)]
      cases env.succeeds w.advance.tick with
      | false => exact ⟨_, .inr (.inl rfl)⟩
      | true =>
          simp only [if_true]
          rw [bind_apply, mayThrow_apply]
          cases env.throws w.advance.advance.tick with
          | true => exact ⟨_, .inr (.inr rfl)⟩
          | false => exact ⟨_, .inl rfl⟩

/-! ## Every callback -/

/-- The relation admits a callback's own steps and the places that reach what is shared. -/
structure SharedSteps (env : Env) (relation : World → World → Prop) : Prop where
  own : ∀ w after, OwnStep w after → relation w after
  writes : ∀ message category, Unwarned message →
    Within relation (writeEventViewerLog message category)
  makes : Within relation (newTransaction env)
  configures : ∀ context, Within relation (getConfig env context)
  loads : ∀ configFile curMtime, Within relation (loadRules env configFile curMtime)
  warnsCap : Within relation logCapReached
  warnsConfig : ∀ context, Within relation (configFailed env context)
  warnsRules : ∀ context configFile err, Within relation (rulesFailed env context configFile err)

/-- The lookup of the configuration stores at most once, on an empty container. -/
theorem getConfig_within {env : Env} {relation : World → World → Prop}
    [IsPreorder World relation] (own : ∀ w after, OwnStep w after → relation w after)
    (stores : ∀ config, Within relation (storeConfig env config)) (context : HttpContext) :
    Within relation (getConfig env context) := by
  have leaf {α : Type} {program : Program World α} (within : Within OwnStep program) :
      Within relation program := within.mono own
  refine Within.bind Within.get fun w => ?_
  split
  · split
    · exact Within.pure _
    · refine Within.bind (leaf (consult_own _)) fun allocated => ?_
      split
      · refine Within.bind (leaf (recordCom_own _)) fun _ => ?_
        refine Within.bind (leaf initializeConfig_own) fun result => ?_
        split
        · refine Within.bind (.when fun _ => leaf (recordCom_own _)) fun _ => ?_
          exact Within.bind (leaf (recordCom_own _)) fun _ => Within.pure _
        · exact stores _
      · exact Within.pure _
  · exact Within.pure _

namespace SharedSteps

variable {env : Env} {context : HttpContext} {notification : SendResponse}
  {relation : World → World → Prop} (steps : SharedSteps env relation)

include steps

theorem leaf {α : Type} {program : Program World α} (within : Within OwnStep program) :
    Within relation program :=
  within.mono steps.own

theorem reportException (location : String) : Within relation (reportException env location) := by
  intro w
  apply steps.writes
  apply unwarned_of_start (bytesOf "ModSecurityIIS: unex") (by decide) _ (by decide)
  refine ⟨((bytesOf ("pected exception in " ++ location ++ ": ")) ++
    (env.what w.tick).getD (bytesOf "unknown error")).take 491, ?_⟩
  simp [bytesOf, String.toList_append, List.take_append]

variable [IsPreorder World relation]

theorem finishContext (rsc : RequestStoredContext) : Within relation (finishContext env rsc) := by
  have ends : Within relation (finalizeTransaction env rsc.tx) := by
    cases rsc.tx with
    | none => exact Within.pure _
    | some tx =>
        apply Within.tryCatch
        · refine Within.bind (steps.leaf (engineCall_own _ _)) fun _ => ?_
          exact steps.leaf (record_own nofun)
        · apply steps.writes
          exact unwarned_of_start (bytesOf "ModSecurityIIS: exce") (by decide) (by decide +kernel) (by decide)
  refine Within.bind ends fun _ => ?_
  exact Within.bind (.when fun _ => steps.leaf (record_own nofun)) fun _ => Within.pure _

theorem finishRequest : Within relation (finishRequest env) := by
  refine Within.bind Within.get fun w => ?_
  exact Within.bind (steps.finishContext _) fun _ => steps.leaf (modifyContext_own _)

theorem applyIntervention (canBlock : Bool) :
    Within relation (applyIntervention env context canBlock) := by
  have disrupts (tx : TransactionId) (it : Intervention) :
      Within relation (disrupt env context tx it) := by
    unfold disrupt
    split
    · refine Within.bind (steps.leaf (respond_own _)) fun _ => ?_
      refine Within.bind (steps.leaf (answerIntervention_own _)) fun finalStatus => ?_
      refine Within.bind (steps.leaf (engineCall_own _ _)) fun _ => ?_
      refine Within.bind (fun w => steps.own _ _ (.silent rfl rfl rfl)) fun _ => ?_
      refine Within.bind (steps.leaf (record_own nofun)) fun _ => ?_
      exact steps.finishRequest
    · exact Within.halt _
  refine Within.bind Within.get fun w => ?_
  split
  · exact Within.pure _
  · refine Within.bind (steps.leaf (pendingIntervention_own _)) fun reported => ?_
    split
    · exact Within.pure _
    · refine Within.bind (steps.leaf mayThrow_own) fun _ => ?_
      split
      · exact Within.bind (disrupts _ _) fun _ => Within.pure _
      · exact Within.pure _

theorem restoreBody : Within relation (restoreBody env context) := by
  refine Within.bind Within.get fun w => ?_
  split
  · refine Within.bind (steps.leaf (consult_own _)) fun allocated => ?_
    split
    · split
      · exact Within.halt _
      · refine Within.bind (steps.leaf (insertEntityBody_own _)) fun result => ?_
        split
        · refine Within.bind (steps.writes _ _ ?_) fun _ => Within.pure _
          simp only [bytesOf_append]
          exact unwarned_of_start (bytesOf "ModSecurityIIS: Inse") (by decide)
            (List.IsPrefix.trans (by decide) (List.prefix_append _ _)) (by decide)
        · exact Within.pure _
    · refine Within.bind (steps.writes _ _ ?_) fun _ => Within.pure _
      simp only [bytesOf_append, List.append_assoc]
      exact unwarned_of_start (bytesOf "ModSecurityIIS: Allo") (by decide)
        (List.IsPrefix.trans (by decide) (List.prefix_append _ _)) (by decide)
  · exact Within.pure _

theorem readSteps : ReadSteps env context relation where
  waits := steps.leaf mayThrow_own
  changes f _ := steps.leaf (modifyContext_own f)
  restores := steps.restoreBody
  appends _ := steps.leaf (contextCall_own _)
  evaluates := steps.leaf (contextCall_own _)
  intervenes := steps.applyIntervention true
  fails := steps.leaf (respond_own _)
  reports := steps.reportException
  warns := steps.warnsCap
  reads async := steps.leaf (readEntityBody_own async)
  delivers _ _ := steps.own _ _ (.silent rfl rfl rfl)

theorem inspectRequest (req : HttpRequest) (tx : TransactionId) :
    Within relation (inspectRequest env context req tx) := by
  have describes : Within relation (requestHeaderPhase env context req tx) := by
    refine Within.bind (steps.leaf (describeRequest_own req tx)) fun _ => ?_
    refine Within.bind (steps.leaf (engineCall_own _ _)) fun _ => ?_
    exact steps.applyIntervention true
  refine Within.bind describes fun blocked => ?_
  split
  · exact Within.pure _
  · exact Within.bind steps.readSteps.beginBodyRead fun _ => Within.pure _

theorem openTransaction (config : ModsecurityStoredContext) (rules : RulesSet) :
    Within relation (openTransaction env context config rules) := by
  refine Within.bind steps.makes fun created => ?_
  split
  · exact Within.pure _
  · refine Within.bind (steps.leaf (consult_own _)) fun allocated => ?_
    split
    · refine Within.bind (steps.leaf (setModuleContext_own _)) fun shr => ?_
      split
      · refine Within.bind (steps.finishContext _) fun _ => ?_
        split <;> exact Within.pure _
      · split
        · exact Within.pure _
        · exact steps.inspectRequest _ _
    · exact Within.bind (steps.leaf (record_own nofun)) fun _ => Within.pure _

theorem getRules (configFile : Bytes) : Within relation (getRules env configFile) := by
  refine Within.bind (steps.leaf (consult_own _)) fun curMtime => ?_
  refine Within.bind Within.get fun w => ?_
  split
  · exact Within.pure _
  · exact steps.loads _ _

theorem onBeginRequest : Within relation (onBeginRequest env (some context)) := by
  have protects (config : ModsecurityStoredContext) :
      Within relation (protectRequest env context config) := by
    unfold protectRequest
    split
    · split
      · exact Within.pure _
      · refine Within.bind (steps.leaf mayThrow_own) fun _ => ?_
        refine Within.bind (steps.getRules _) fun loaded => ?_
        split
        · exact steps.warnsRules _ _ _
        · exact steps.openTransaction _ _
    · exact Within.pure _
  have block : Within relation (beginRequestBlock env (some context)) := by
    rw [beginRequestBlock]
    split
    · refine Within.bind (steps.configures context) fun result => ?_
      split
      · exact steps.warnsConfig context
      · split
        · exact Within.halt _
        · exact protects _
    · exact Within.pure _
  refine Within.bind (.tryCatch block ?_) fun _ => Within.pure _
  exact Within.bind (steps.reportException _) fun _ => Within.pure _

theorem raiseSendResponse :
    Within relation (raiseSendResponse env context notification) := by
  have asks := steps.leaf (@responseBodyBlockingEnabled_own env)
  have evaluates := steps.leaf (@evaluateBody_own env)
  refine Within.bind (fun w => steps.own _ _ (.silent rfl rfl rfl)) fun _ => ?_
  apply onSendResponse_within
  · intro tx
    apply headerPhase_within
    · exact steps.leaf (addKnownHeaders_own _ _ _ _)
    · exact steps.leaf (addUnknownHeaders_own _ _ _)
    · exact steps.leaf mayThrow_own
    · exact fun _ _ => steps.leaf (engineCall_own _ _)
    · exact asks
    · exact fun canBlock => steps.applyIntervention canBlock
    · exact steps.leaf (modifyContext_own _)
  · intro tx
    apply bodyPhase_within (steps.leaf (inspectChunks_own _ _))
    · intro respInspected
      apply modeA_within asks
      · exact steps.leaf (modifyContext_own _)
      · exact steps.leaf pinContentLength_own
      · exact evaluates
      · exact steps.applyIntervention true
    · exact modeB_within asks evaluates (steps.applyIntervention false)
  · refine Within.bind (steps.reportException _) fun _ => Within.bind Within.get fun w => ?_
    split
    · exact Within.bind (.when fun _ => steps.leaf (respond_own _)) fun _ => Within.pure _
    · exact Within.pure _

theorem cleanupStoredContext : Within relation (cleanupStoredContext env) := by
  refine Within.bind Within.get fun w => .when fun _ => ?_
  refine Within.bind steps.finishRequest fun _ => ?_
  exact fun w => steps.own _ _ (.silent rfl rfl rfl)

end SharedSteps

/-- What is kept wherever a callback reaches what is shared, every callback keeps. -/
theorem Occurrence.run_shares {relation : World → World → Prop} [IsPreorder World relation]
    (occurrence : Occurrence) (steps : SharedSteps occurrence.env relation) :
    Within relation occurrence.run := by
  obtain ⟨env, context, callback⟩ := occurrence
  cases callback with
  | beginRequest => exact steps.onBeginRequest
  | asyncCompletion completion => exact steps.readSteps.onAsyncCompletion completion
  | readCompleted => exact steps.readSteps.completeRead
  | sendResponse notification => exact steps.raiseSendResponse
  | postEndRequest => exact Within.pure _
  | cleanupStoredContext => exact Within.bind steps.cleanupStoredContext fun _ => Within.pure _

end ModSecurityIIS
