import ModSecurityIIS.Imperative.Safety
import ModSecurityIIS.TransactionUse

/-!
# The description of a request

What the engine is told of a request before its body: the connection, the URI and every
header, in the order of the handler, and their evaluation.
-/

set_option autoImplicit false

namespace ModSecurityIIS

open Imperative Program Transition

/-! ## The calls -/

def EngineCall.isDescription : EngineCall → Bool
  | .processConnection _ _ _ _ => true
  | .processURI _ _ _ => true
  | .addRequestHeader _ _ => true
  | .processRequestHeaders => true
  | _ => false

/-- The description of a request as a log has it, each call with whether it returned. -/
def descriptions (log : List Event) : List (EngineCall × Bool) :=
  log.filterMap fun event =>
    match event with
    | .engine _ call completed => if call.isDescription then some (call, completed) else none
    | _ => none

def Event.isRequestBody : Event → Bool
  | .engine _ (.appendRequestBody _) _ => true
  | .engine _ .processRequestBody _ => true
  | _ => false

def Event.isDescription : Event → Bool
  | .engine _ call _ => call.isDescription
  | _ => false

/-- Neither a part of the description nor of the body. -/
def Event.Aside (event : Event) : Prop :=
  event.isDescription = false ∧ event.isRequestBody = false

def knownRequestHeader (headers : HttpHeaders) (entry : HttpHeaderId × String) :
    List EngineCall :=
  match headers.known entry.1 with
  | none => []
  | some raw => [.addRequestHeader (bytesOf entry.2) (cStr (aToUtf8 (some raw)))]

def unknownRequestHeader (header : Option Bytes × Option Bytes) : EngineCall :=
  .addRequestHeader (cStr (aToUtf8 header.1)) (cStr (aToUtf8 header.2))

def connectionCall (env : Env) (context : HttpContext) : EngineCall :=
  .processConnection (cStr (sockAddrToIp env context.remoteAddress))
    (sockAddrToPort context.remoteAddress) (cStr (sockAddrToIp env context.localAddress))
    (sockAddrToPort context.localAddress)

def uriCall (env : Env) (req : HttpRequest) : EngineCall :=
  .processURI (cStr (requestUri env req)) (cStr (verbToString req))
    (cStr (versionToString req.version))

/-- The whole description of a request. -/
def requestCalls (env : Env) (context : HttpContext) (req : HttpRequest) : List EngineCall :=
  [connectionCall env context, uriCall env req] ++
    requestHeaders.flatMap (knownRequestHeader req.headers) ++
    req.headers.unknown.map unknownRequestHeader ++ [.processRequestHeaders]

/-- All of them returned. -/
def told (calls : List EngineCall) : List (EngineCall × Bool) := calls.map fun call => (call, true)

@[simp] theorem told_append (front back : List EngineCall) :
    told (front ++ back) = told front ++ told back := List.map_append

@[simp] theorem told_fst (calls : List EngineCall) : (told calls).map Prod.fst = calls := by
  rw [told, List.map_map]
  exact List.map_id calls

@[simp] theorem descriptions_append (front back : List Event) :
    descriptions (front ++ back) = descriptions front ++ descriptions back :=
  List.filterMap_append

theorem descriptions_none {events : List Event}
    (none_ : ∀ event ∈ events, event.isDescription = false) : descriptions events = [] := by
  rw [descriptions, List.filterMap_eq_nil_iff]
  intro event member
  have silent := none_ event member
  cases event with
  | engine tx call completed =>
      rw [Event.isDescription] at silent
      simp [silent]
  | _ => rfl

/-! ## What a log keeps to -/

/-- So far exactly `done` was told, and nothing of the body. -/
structure World.Told (done : List (EngineCall × Bool)) (w : World) : Prop where
  told : descriptions w.log = done
  bodiless : ∀ event ∈ w.log, event.isRequestBody = false
  idle : w.rsc.bodyReadState ≠ .readPending

/-- What was told is a front part of the script, and all of it returned before anything of the
body was handed over. -/
structure World.Introduced (script : List EngineCall) (w : World) : Prop where
  front : (descriptions w.log).map Prod.fst <+: script
  before : ∀ early event late, w.log = early ++ event :: late → event.isRequestBody = true →
    descriptions early = ModSecurityIIS.told script
  pending : w.rsc.bodyReadState = .readPending → descriptions w.log = ModSecurityIIS.told script

theorem World.Told.introduced {script : List EngineCall} {done : List (EngineCall × Bool)}
    {w : World} (holds : w.Told done) (front : done.map Prod.fst <+: script) :
    w.Introduced script := by
  refine ⟨by rw [holds.told]; exact front, ?_, fun pending => absurd pending holds.idle⟩
  intro early event late shape isBody
  have other := holds.bodiless event (by rw [shape]; simp)
  rw [isBody] at other
  cases other

/-- A log that grows by no description stays introduced, if what it grows by is not of the body
or the description is complete. -/
theorem World.Introduced.grown {script : List EngineCall} {w after : World} {events : List Event}
    (introduced : w.Introduced script) (grown : after.log = w.log ++ events)
    (undescribed : ∀ event ∈ events, event.isDescription = false)
    (ready : (∃ event ∈ events, event.isRequestBody = true) →
      descriptions w.log = ModSecurityIIS.told script)
    (pending : after.rsc.bodyReadState = .readPending →
      descriptions w.log = ModSecurityIIS.told script) : after.Introduced script := by
  have same : descriptions after.log = descriptions w.log := by
    rw [grown, descriptions_append, descriptions_none undescribed, List.append_nil]
  refine ⟨by rw [same]; exact introduced.front, ?_, by rw [same]; exact pending⟩
  intro early event late shape isBody
  rw [grown] at shape
  rcases List.append_eq_append_iff.mp shape with ⟨between, first, second⟩ | ⟨between, first, second⟩
  · -- the event is one of the new ones
    have member : event ∈ events := by rw [second]; simp
    have silent : descriptions between = [] :=
      descriptions_none fun other there => undescribed other (by rw [second]; simp [there])
    rw [first, descriptions_append, silent, List.append_nil]
    exact ready ⟨event, member, isBody⟩
  · cases between with
    | nil =>
        rw [List.append_nil] at first
        rw [List.nil_append] at second
        have member : event ∈ events := by rw [← second]; simp
        rw [← first]
        exact ready ⟨event, member, isBody⟩
    | cons head rest =>
        rw [List.cons_append, List.cons.injEq] at second
        obtain ⟨rfl, _⟩ := second
        exact introduced.before early event rest first isBody

/-! ## Telling the description -/

/-- The body read stands where it stood. -/
def SameReadState (a b : RequestStoredContext) : Prop := b.bodyReadState = a.bodyReadState

instance : IsPreorder RequestStoredContext SameReadState where
  refl _ := rfl
  trans _ _ _ first second := second.trans first

/-- Steps beside the description and the body. -/
abbrev Beside : World → World → Prop := Frame SameReadState Event.Aside

theorem Event.Intervenes.aside {event : Event} (intervenes : event.Intervenes) : event.Aside := by
  cases event with
  | engine tx call completed => cases call <;> first | exact ⟨rfl, rfl⟩ | exact absurd intervenes id
  | _ => exact ⟨rfl, rfl⟩

theorem Event.SendsResponse.aside {event : Event} (sends : event.SendsResponse) : event.Aside := by
  cases event with
  | engine tx call completed =>
      cases call <;> first
        | exact ⟨rfl, rfl⟩
        | (rcases sends with feeds | appends | evaluates
           · exact absurd feeds id
           · exact absurd appends id
           · exact absurd evaluates id)
  | _ => exact ⟨rfl, rfl⟩

section Telling

variable {α : Type} {env : Env} {context : HttpContext} {tx : TransactionId}
  {script front : List EngineCall}

theorem World.Introduced.beside {w after : World} (introduced : w.Introduced script)
    (frame : Beside w after) : after.Introduced script := by
  obtain ⟨events, grown, aside⟩ := frame.logged
  refine introduced.grown grown (fun event member => (aside event member).1) ?_ ?_
  · rintro ⟨event, member, isBody⟩
    rw [(aside event member).2] at isBody
    cases isBody
  · rw [frame.context]
    exact introduced.pending

theorem introduced_leaves {program : Program World α} (within : Within Beside program) :
    Leaves (World.Introduced script) program (fun _ => World.Introduced script)
      (World.Introduced script) :=
  Leaves.of_within within fun _ _ introduced frame => introduced.beside frame

theorem World.Told.beside {done : List (EngineCall × Bool)} {w after : World} (holds : w.Told done)
    (frame : Beside w after) : after.Told done := by
  obtain ⟨events, grown, aside⟩ := frame.logged
  refine ⟨?_, ?_, by rw [frame.context]; exact holds.idle⟩
  · rw [grown, descriptions_append, descriptions_none fun event member => (aside event member).1,
      List.append_nil, holds.told]
  · rw [grown]
    exact List.forall_mem_append.mpr ⟨holds.bodiless, fun event member => (aside event member).2⟩

/-- A step between two calls of the description. -/
theorem told_leaves {program : Program World α} (reach : front <+: script)
    (within : Within Beside program) :
    Leaves (World.Told (told front)) program (fun _ => World.Told (told front))
      (World.Introduced script) :=
  (Leaves.of_within within fun _ _ holds frame => World.Told.beside holds frame).consequence
    (fun _ holds => holds) (fun _ _ holds => holds)
    fun _ holds => holds.introduced (by rw [told_fst]; exact reach)

/-- A call of the description. -/
theorem tell_leaves {call : EngineCall} (part : call.isDescription = true)
    (reach : front ++ [call] <+: script) :
    Leaves (World.Told (told front)) (engineCall env tx call)
      (fun _ => World.Told (told (front ++ [call]))) (World.Introduced script) := by
  intro w holds
  have named : ∀ completed, descriptions [.engine tx call completed] = [(call, completed)] := by
    intro completed
    simp [descriptions, part]
  have bodiless : ∀ completed, (Event.engine tx call completed).isRequestBody = false := by
    intro completed
    cases call <;> first | rfl | cases part
  have telling : (w.called env tx call).Told (told front ++ [(call, !env.throws w.tick)]) := by
    refine ⟨?_, ?_, holds.idle⟩
    · change descriptions (w.log ++ [.engine tx call (!env.throws w.tick)]) = _
      rw [descriptions_append, named, holds.told]
    · change ∀ event ∈ w.log ++ [.engine tx call (!env.throws w.tick)], _
      exact List.forall_mem_append.mpr ⟨holds.bodiless, by simp [bodiless]⟩
  rw [engineCall_apply]
  by_cases threw : env.throws w.tick = true
  · rw [if_pos threw]
    apply telling.introduced
    rw [List.map_append, told_fst]
    exact reach
  · rw [if_neg threw]
    rw [Bool.not_eq_true] at threw
    rw [threw] at telling
    rw [told_append]
    exact telling

/-- A call after an allocation. -/
theorem allocate_tell_leaves {call : EngineCall} (part : call.isDescription = true)
    (reach : front ++ [call] <+: script) :
    Leaves (World.Told (told front))
      (do
        mayThrow env
        engineCall env tx call)
      (fun _ => World.Told (told (front ++ [call]))) (World.Introduced script) := by
  refine .bind _ (told_leaves ((List.prefix_append _ _).trans reach) (mayThrow_frame env))
    fun _ => ?_
  exact tell_leaves part reach

theorem addKnownHeaders_leaves {headers : HttpHeaders} {first : List EngineCall}
    (reach : first ++ requestHeaders.flatMap (knownRequestHeader headers) <+: script) :
    Leaves (World.Told (told first))
      (addKnownHeaders env tx .addRequestHeader headers requestHeaders)
      (fun _ => World.Told (told (first ++ requestHeaders.flatMap (knownRequestHeader headers))))
      (World.Introduced script) := by
  have loop : Leaves (World.Told (told (first ++ ([] : List (HttpHeaderId × String)).flatMap
      (knownRequestHeader headers))))
      (addKnownHeaders env tx .addRequestHeader headers requestHeaders)
      (fun _ => World.Told (told (first ++ requestHeaders.flatMap (knownRequestHeader headers))))
      (World.Introduced script) := by
    apply @Exits.forEach World _ _ _ requestHeaders _
      fun done => World.Told (told (first ++ done.flatMap (knownRequestHeader headers)))
    intro done entry back table
    have through : first ++ done.flatMap (knownRequestHeader headers) ++
        knownRequestHeader headers entry <+: script := by
      refine List.IsPrefix.trans ?_ reach
      rw [table]
      simp only [List.flatMap_append, List.flatMap_cons, List.append_assoc]
      exact (List.prefix_append_right_inj _).mpr
        ((List.prefix_append_right_inj _).mpr (List.prefix_append _ _))
    rw [List.flatMap_append, List.flatMap_singleton, ← List.append_assoc]
    cases raw : headers.known entry.1 with
    | none =>
        rw [knownRequestHeader, raw, List.append_nil]
        exact .pure fun _ holds => holds
    | some value =>
        simp only [knownRequestHeader, raw] at through ⊢
        exact allocate_tell_leaves rfl through
  rw [List.flatMap_nil, List.append_nil] at loop
  exact loop

theorem addUnknownHeaders_leaves {headers : HttpHeaders} {first : List EngineCall}
    (reach : first ++ headers.unknown.map unknownRequestHeader <+: script) :
    Leaves (World.Told (told first)) (addUnknownHeaders env tx .addRequestHeader headers)
      (fun _ => World.Told (told (first ++ headers.unknown.map unknownRequestHeader)))
      (World.Introduced script) := by
  have loop : Leaves (World.Told (told (first ++ ([] : List (Option Bytes × Option Bytes)).map
      unknownRequestHeader)))
      (addUnknownHeaders env tx .addRequestHeader headers)
      (fun _ => World.Told (told (first ++ headers.unknown.map unknownRequestHeader)))
      (World.Introduced script) := by
    apply @Exits.forEach World _ _ _ headers.unknown _
      fun done => World.Told (told (first ++ done.map unknownRequestHeader))
    intro done header back shape
    rw [List.map_append, ← List.append_assoc]
    apply allocate_tell_leaves rfl
    refine List.IsPrefix.trans ?_ reach
    rw [shape]
    simp only [List.map_append, List.map_cons, List.append_assoc]
    exact (List.prefix_append_right_inj _).mpr
      ((List.prefix_append_right_inj _).mpr (List.prefix_append [unknownRequestHeader header] _))
  rw [List.map_nil, List.append_nil] at loop
  exact loop

theorem describeRequest_leaves (req : HttpRequest) :
    Leaves (World.Told (told [])) (describeRequest env context req tx)
      (fun _ => World.Told (told ([connectionCall env context, uriCall env req] ++
        requestHeaders.flatMap (knownRequestHeader req.headers) ++
        req.headers.unknown.map unknownRequestHeader)))
      (World.Introduced (requestCalls env context req)) := by
  have connection : [] ++ [connectionCall env context] <+: requestCalls env context req := by
    simp [requestCalls]
  have uri : [connectionCall env context] ++ [uriCall env req] <+:
      requestCalls env context req := by
    simp [requestCalls]
  have known : [connectionCall env context, uriCall env req] ++
      requestHeaders.flatMap (knownRequestHeader req.headers) <+:
        requestCalls env context req := by
    simp [requestCalls]
  have unknown : [connectionCall env context, uriCall env req] ++
      requestHeaders.flatMap (knownRequestHeader req.headers) ++
      req.headers.unknown.map unknownRequestHeader <+: requestCalls env context req :=
    List.prefix_append _ _
  refine .bind _ (told_leaves List.nil_prefix (mayThrow_frame env)) fun _ => ?_
  refine .bind _ (tell_leaves rfl connection) fun _ => ?_
  refine .bind _ (told_leaves connection (mayThrow_frame env)) fun _ => ?_
  refine .bind _ (told_leaves connection (modifyContext_frame fun _ => rfl)) fun _ => ?_
  refine .bind _ (tell_leaves rfl uri) fun _ => ?_
  refine .bind _ (addKnownHeaders_leaves known) fun _ => ?_
  exact addUnknownHeaders_leaves unknown

/-- Phase 1 tells the whole description before it looks for an intervention. -/
theorem requestHeaderPhase_leaves (req : HttpRequest) :
    Leaves (World.Told (told [])) (requestHeaderPhase env context req tx)
      (fun _ => World.Told (told (requestCalls env context req)))
      (World.Introduced (requestCalls env context req)) := by
  refine .bind _ (describeRequest_leaves req) fun _ => ?_
  refine .bind _ (tell_leaves rfl (List.prefix_refl (requestCalls env context req))) fun _ => ?_
  exact told_leaves (List.prefix_refl _) (applyIntervention_frame env context true (fun _ => rfl)
    fun _ intervenes => intervenes.aside)

/-! ## The body after it -/

/-- The log grows by such events, whatever else changes. -/
structure Logs (allowed : Event → Prop) (w after : World) : Prop where
  logged : ∃ events, after.log = w.log ++ events ∧ ∀ event ∈ events, allowed event

instance (allowed : Event → Prop) : IsPreorder World (Logs allowed) where
  refl _ := ⟨[], by simp⟩
  trans _ _ _ first second := by
    obtain ⟨before, beforeShape, beforeAllowed⟩ := first.logged
    obtain ⟨after, afterShape, afterAllowed⟩ := second.logged
    refine ⟨before ++ after, ?_, List.forall_mem_append.mpr ⟨beforeAllowed, afterAllowed⟩⟩
    rw [afterShape, beforeShape, List.append_assoc]

theorem logs_of_frame {keeps : RequestStoredContext → RequestStoredContext → Prop}
    {allowed : Event → Prop} {program : Program World α}
    (within : Within (Frame keeps allowed) program) : Within (Logs allowed) program :=
  fun w => ⟨(within w).logged⟩

/-- The steps of the body log what one idle step, the two calls and an intervention log. -/
theorem bodySteps_logs {allowed : Event → Prop} (silent : ∀ event, event.Idle → allowed event)
    (appends : ∀ tx body completed, allowed (.engine tx (.appendRequestBody body) completed))
    (evaluates : ∀ tx completed, allowed (.engine tx .processRequestBody completed))
    (intervenes : ∀ event, event.Intervenes → allowed event) :
    BodySteps env context (Logs allowed) where
  plain _ _ plain := by
    obtain ⟨events, grown, idle⟩ := plain.logged
    exact ⟨events, grown, fun event member => silent event (idle event member)⟩
  appends body := logs_of_frame (@contextCall_frame Eq _ _ _ _ fun tx => appends tx body)
  evaluates := logs_of_frame (@contextCall_frame Eq _ _ _ _ evaluates)
  intervenes := logs_of_frame (@applyIntervention_frame SameReadState _ _ env context true
    (fun _ => rfl) intervenes)

/-- Steps that tell nothing more. -/
abbrev Undescribed : World → World → Prop := Logs fun event => event.isDescription = false

theorem bodySteps_undescribed : BodySteps env context Undescribed := by
  refine bodySteps_logs ?_ (fun _ _ _ => rfl) (fun _ _ => rfl)
    fun _ intervenes => intervenes.aside.1
  intro event idle
  cases event with
  | engine => exact absurd idle id
  | _ => rfl

/-- Once all is told, the body may follow. -/
theorem World.Introduced.followed {w after : World} (introduced : w.Introduced script)
    (complete : descriptions w.log = ModSecurityIIS.told script)
    (undescribed : Undescribed w after) : after.Introduced script := by
  obtain ⟨events, grown, silent⟩ := undescribed.logged
  exact introduced.grown grown silent (fun _ => complete) fun _ => complete

theorem inspectRequest_leaves (req : HttpRequest) :
    Leaves (World.Told (told [])) (inspectRequest env context req tx)
      (fun _ => World.Introduced (requestCalls env context req))
      (World.Introduced (requestCalls env context req)) := by
  refine .bind _ (requestHeaderPhase_leaves req) fun blocked => ?_
  have introduced (w : World) (holds : w.Told (told (requestCalls env context req))) :
      w.Introduced (requestCalls env context req) :=
    holds.introduced (by simp)
  split
  · exact .pure introduced
  · refine .bind (fun _ => World.Introduced (requestCalls env context req)) ?_
      fun _ => .pure fun _ holds => holds
    exact Leaves.of_within (beginBodyRead_within bodySteps_undescribed)
      fun _ _ holds undescribed => (introduced _ holds).followed holds.told undescribed

theorem told_introduced {w : World} (holds : w.Told (told [])) : w.Introduced script :=
  holds.introduced List.nil_prefix

theorem openTransaction_leaves {req : HttpRequest} (raw : context.rawRequest = some req)
    (config : ModsecurityStoredContext) (rules : RulesSet) :
    Leaves (World.Told (told [])) (openTransaction env context config rules)
      (fun _ => World.Introduced (requestCalls env context req))
      (World.Introduced (requestCalls env context req)) := by
  have stores (rsc : RequestStoredContext) (idle : rsc.bodyReadState ≠ .readPending) :
      Leaves (World.Told (told [])) (setModuleContext env rsc)
        (fun _ => World.Told (told [])) (World.Introduced (requestCalls env context req)) := by
    intro w holds
    obtain ⟨shr, after, ran, stores⟩ := setModuleContext_stores env rsc w
    rw [ran]
    cases stores with
    | assigned _ => exact holds
    | refused _ _ => exact ⟨holds.told, holds.bodiless, holds.idle⟩
    | stored => exact ⟨holds.told, holds.bodiless, idle⟩
  have ends {exit : BlockExit} : Leaves (World.Told (told [])) (pure exit : Program World BlockExit)
      (fun _ => World.Introduced (requestCalls env context req))
      (World.Introduced (requestCalls env context req)) :=
    .pure fun _ holds => told_introduced holds
  refine .bind _ (told_leaves List.nil_prefix (newTransaction_frame env fun _ => ⟨rfl, rfl⟩))
    fun created => ?_
  cases created with
  | none => exact ends
  | some tx =>
      refine .bind _ (told_leaves List.nil_prefix (consult_frame _)) fun allocated => ?_
      split
      · refine .bind _ (stores _ (by simp [RequestStoredContext.new])) fun shr => ?_
        split
        · refine .bind _ (told_leaves List.nil_prefix (finishContext_frame env _
            fun _ finalizes => finalizes.intervenes.aside)) fun _ => ?_
          split <;> exact ends
        · rw [raw]
          exact inspectRequest_leaves req
      · exact .bind _ (told_leaves List.nil_prefix (record_frame ⟨rfl, rfl⟩)) fun _ => ends

theorem onBeginRequest_leaves {req : HttpRequest} (raw : context.rawRequest = some req) :
    Leaves (World.Told (told [])) (onBeginRequest env (some context))
      (fun _ => World.Introduced (requestCalls env context req))
      (World.Introduced (requestCalls env context req)) := by
  have aside {α : Type} {program : Program World α} (within : Within Beside program) :
      Leaves (World.Told (told [])) program
        (fun _ => World.Introduced (requestCalls env context req))
        (World.Introduced (requestCalls env context req)) :=
    (told_leaves List.nil_prefix within).consequence (fun _ holds => holds)
      (fun _ _ holds => told_introduced holds) fun _ holds => holds
  have protects (config : ModsecurityStoredContext) :
      Leaves (World.Told (told [])) (protectRequest env context config)
        (fun _ => World.Introduced (requestCalls env context req))
        (World.Introduced (requestCalls env context req)) := by
    unfold protectRequest
    split
    · split
      · exact aside (Within.pure _)
      · refine .bind _ (told_leaves List.nil_prefix (mayThrow_frame env)) fun _ => ?_
        refine .bind _ (told_leaves List.nil_prefix (getRules_frame env _)) fun loaded => ?_
        cases loaded.rules with
        | none => exact aside (rulesFailed_frame ⟨rfl, rfl⟩ env context _ _)
        | some rules => exact openTransaction_leaves raw config rules
    · exact aside (Within.pure _)
  have block : Leaves (World.Told (told [])) (beginRequestBlock env (some context))
      (fun _ => World.Introduced (requestCalls env context req))
      (World.Introduced (requestCalls env context req)) := by
    rw [beginRequestBlock]
    split
    · refine .bind _ (told_leaves List.nil_prefix (getConfig_frame env context)) fun result => ?_
      split
      · exact aside (configFailed_frame ⟨rfl, rfl⟩ env context)
      · cases result.config with
        | none => exact .halt trivial fun _ holds => told_introduced holds
        | some config => exact protects config
    · exact aside (Within.pure _)
  refine .bind _ (.tryCatch block ?_ fun _ holds => holds) fun _ => .pure fun _ holds => holds
  refine .bind _ (introduced_leaves (reportException_frame env _)) fun _ => ?_
  exact .pure fun _ holds => holds

/-! ## Every run -/

theorem sameReadState_responseChanges : ResponseChanges SameReadState where
  fed _ := rfl
  degraded _ := rfl
  evaluated _ := rfl
  released _ := rfl

/-- A callback after the first tells nothing more, and hands over body only when a read pends. -/
theorem Occurrence.run_introduced {occurrence : Occurrence}
    (follows : occurrence.callback ≠ .beginRequest) {w : World} (introduced : w.Introduced script) :
    (occurrence.run w).state.Introduced script := by
  obtain ⟨env, context, callback⟩ := occurrence
  have completes (completion : Option (Nat × HResult)) {w : World}
      (introduced : w.Introduced script) :
      (onAsyncCompletion env (some context) completion w).state.Introduced script := by
    by_cases pending : w.rsc.bodyReadState = .readPending
    · exact introduced.followed (introduced.pending pending)
        (onAsyncCompletion_within bodySteps_undescribed completion w)
    · cases completion with
      | none => exact introduced
      | some completed =>
          rw [onAsyncCompletion, bind_returned (get_apply w)]
          split
          · exact introduced
          · exact introduced
  cases callback with
  | beginRequest => exact absurd rfl follows
  | asyncCompletion completion => exact completes completion introduced
  | readCompleted =>
      change (completeRead env context w).state.Introduced script
      rw [completeRead, bind_returned (get_apply w)]
      cases w.outstanding with
      | none => exact introduced
      | some completion =>
          refine completes _ ⟨introduced.front, introduced.before, introduced.pending⟩
  | sendResponse notification =>
      refine introduced.beside ?_
      exact raiseSendResponse_frame sameReadState_responseChanges
        (fun _ sends => sends.aside) env context notification w
  | postEndRequest => exact introduced
  | cleanupStoredContext =>
      have leaves : Leaves (World.Introduced script)
          (cleanupStoredContext env >>= fun _ => pure NotificationStatus.rqNotificationContinue)
          (fun _ => World.Introduced script) (World.Introduced script) := by
        refine .bind (fun _ => World.Introduced script) ?_ fun _ => .pure fun _ holds => holds
        refine .seen fun w holds => .at holds (.when fun _ => ?_)
        refine .bind _ (introduced_leaves (finishRequest_frame env (fun _ => rfl)
          fun _ finalizes => finalizes.intervenes.aside)) fun _ => ?_
        exact .modify fun _ holds => ⟨holds.front, holds.before, holds.pending⟩
      exact leaves.state introduced

/-- In every run of a request the engine is told a front part of its description, in order and
nothing else of the kind; and before anything of the body, all of it, every call of which
returned. -/
theorem request_introduced {req : HttpRequest} {start s : RequestState}
    (initial : requestSystem.initial start) (fresh : start.world.rsc = .new)
    (raw : context.rawRequest = some req)
    (reached : (requestSystem.startingAt
      ⟨(onBeginRequest env (some context) start.world).state, true⟩).Reachable s) :
    (descriptions s.world.log).map Prod.fst <+: requestCalls env context req ∧
      ∀ early event late, s.world.log = early ++ event :: late → event.isRequestBody = true →
        descriptions early = told (requestCalls env context req) := by
  have untold : start.world.Told (told []) := by
    refine ⟨by rw [initial.1]; rfl, by simp [initial.1], ?_⟩
    rw [fresh]
    simp [RequestStoredContext.new]
  have kept : s.begun = true ∧ s.world.Introduced (requestCalls env context req) := by
    refine @System.Reachable.invariant _ _ _ (fun state => state.begun = true ∧
      state.world.Introduced (requestCalls env context req)) ?_ ?_ _ reached
    · intro state same
      rw [same]
      exact ⟨rfl, (onBeginRequest_leaves raw).state untold⟩
    · intro state occurrence after holds step
      obtain ⟨begun, introduced⟩ := holds
      cases step with
      | begins waits =>
          rw [RequestState.Allows, begun] at waits
          cases waits
      | follows follows _ => exact ⟨begun, Occurrence.run_introduced follows introduced⟩
  exact ⟨kept.2.front, kept.2.before⟩

end Telling

/-- A body of one byte that is read at once. -/
theorem request_introduced_oneByte : ∃ (s : RequestState) (early late : List Event),
    s.world.log = early ++ .engine 0 (.appendRequestBody [7]) true :: late ∧
      descriptions early = told (requestCalls .calm .plain .plain) := by
  have read : ∃ s : RequestState, (requestSystem.startingAt
      ⟨(onBeginRequest .calm (some .plain)
        (World.arrived [7] [⟨1, .sOk, false⟩, ⟨0, .sOk, false⟩])).state, true⟩).Reachable s ∧
      s.world.log =
        s.world.log.take 8 ++ .engine 0 (.appendRequestBody [7]) true :: s.world.log.drop 9 :=
    ⟨_, .start rfl, by decide +kernel⟩
  obtain ⟨s, reached, shape⟩ := read
  have introduced := @request_introduced Env.calm .plain .plain
    ⟨World.arrived [7] [⟨1, .sOk, false⟩, ⟨0, .sOk, false⟩], false⟩ s ⟨rfl, rfl, rfl⟩ rfl rfl reached
  exact ⟨s, _, _, shape, introduced.2 _ _ _ shape rfl⟩

end ModSecurityIIS
