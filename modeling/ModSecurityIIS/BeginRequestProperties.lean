import ModSecurityIIS.BeginRequest
import ModSecurityIIS.BodyReadProperties
import ModSecurityIIS.ConfigurationProperties
import ModSecurityIIS.Footprint

/-!
# Properties of the begin-request handler

What holds when the handler starts to read the body, why it may leave without
reading it, and the rule that carries a comparison of the two body reads through
the whole handler.
-/

set_option autoImplicit false

namespace ModSecurityIIS

open Imperative Program

/-! ## Footprints of the shared parts -/

section Frames

variable {keeps : RequestStoredContext → RequestStoredContext → Prop} {allowed : Event → Prop}
  [IsPreorder RequestStoredContext keeps]

theorem getPropertyValue_frame (env : Env) (property : SectionProperty)
    (copied argumentsValid : Bool) :
    Within (Frame keeps allowed) (getPropertyValue env property copied argumentsValid) := by
  have value : Within (Frame keeps allowed) (propertyValue env property copied) := by
    refine .bind (recordCom_frame _) fun _ => .bind (consult_frame _) fun valueHr => ?_
    split
    · exact .pure _
    refine .bind (consult_frame _) fun exceptionHr => ?_
    split
    · exact .pure _
    refine .bind (consult_frame _) fun clean => ?_
    split
    · split
      · refine .bind (consult_frame _) fun allocated => ?_
        split <;> exact .pure _
      · exact .pure _
    · exact .bind (recordCom_frame _) fun _ => .pure _
  unfold getPropertyValue
  split
  · refine .bind (consult_frame _) fun foundHr => ?_
    split
    · exact .bind (recordCom_frame _) fun _ => .pure _
    refine .bind (consult_frame _) fun found => ?_
    split
    · exact .bind (recordCom_frame _) fun _ => .bind value fun _ =>
        .bind (recordCom_frame _) fun _ => .bind (recordCom_frame _) fun _ => .pure _
    · exact .bind (recordCom_frame _) fun _ => .pure _
  · exact .bind (recordCom_frame _) fun _ => .pure _

theorem readSection_frame (env : Env) (site : SiteConfiguration) :
    Within (Frame keeps allowed) (readSection env site) := by
  refine .bind (getPropertyValue_frame env _ _ _) fun enabled => ?_
  dsimp only
  split
  · exact .pure _
  refine .bind (getPropertyValue_frame env _ _ _) fun block => ?_
  split
  · exact .pure _
  exact .bind (getPropertyValue_frame env _ _ _) fun _ => .pure _

theorem initializeConfig_frame (env : Env) (context : HttpContext) :
    Within (Frame keeps allowed) (initializeConfig env context) := by
  refine .bind (recordCom_frame _) fun _ => ?_
  split
  · refine .bind (consult_frame _) fun sectionHr => ?_
    split
    · exact .bind (recordCom_frame _) fun _ => .pure _
    refine .bind (consult_frame _) fun found => ?_
    split
    · exact .bind (recordCom_frame _) fun _ => .bind (readSection_frame env _) fun _ =>
        .bind (recordCom_frame _) fun _ => .bind (recordCom_frame _) fun _ => .pure _
    · exact .bind (recordCom_frame _) fun _ => .pure _
  · exact .bind (recordCom_frame _) fun _ => .pure _

theorem storeConfiguration_frame (config : Option ModsecurityStoredContext) :
    Within (Frame keeps allowed)
      (modify fun w : World => { w with storedConfiguration := config }) :=
  fun _ => ⟨rfl, rfl, rfl, rfl, refl_of keeps _, [], (List.append_nil _).symm, by simp⟩

theorem getConfig_frame (env : Env) (context : HttpContext) :
    Within (Frame keeps allowed) (getConfig env context) := by
  have store (config : ModsecurityStoredContext) :
      Within (Frame keeps allowed) (storeConfig env config) := by
    refine .bind (consult_frame _) fun hr => ?_
    split
    · refine .bind (recordCom_frame _) fun _ => ?_
      split
      · exact .bind (consult_frame _) fun _ => .bind (storeConfiguration_frame _) fun _ => .pure _
      · exact .pure _
    · exact .bind (storeConfiguration_frame _) fun _ => .pure _
  refine .bind .get fun w => ?_
  split
  · split
    · exact .pure _
    refine .bind (consult_frame _) fun allocated => ?_
    split
    · refine .bind (recordCom_frame _) fun _ => .bind (initializeConfig_frame env _) fun result => ?_
      split
      · exact .bind (.when fun _ => recordCom_frame _) fun _ =>
          .bind (recordCom_frame _) fun _ => .pure _
      · exact store _
    · exact .pure _
  · exact .pure _

theorem getRules_frame (env : Env) (configFile : Bytes) :
    Within (Frame keeps allowed) (getRules env configFile) := by
  refine .bind (consult_frame _) fun curMtime => .bind .get fun w => ?_
  split
  · exact .pure _
  refine .bind (mayThrow_frame env) fun _ => .bind (consult_frame _) fun loaded => ?_
  refine .bind (mayThrow_frame env) fun _ => .bind (mayThrow_frame env) fun _ => ?_
  refine .bind .get fun w => ?_
  split
  · exact .bind (.when fun _ => writeEventViewerLog_frame _ _) fun _ => .pure _
  · refine .bind (fun _ => ?_) fun _ => .pure _
    exact ⟨rfl, rfl, rfl, rfl, refl_of keeps _, [], (List.append_nil _).symm, by simp⟩

theorem addKnownHeaders_frame {env : Env} {tx : TransactionId}
    {add : Bytes → Bytes → EngineCall} (headers : HttpHeaders)
    (table : List (HttpHeaderId × String))
    (permitted : ∀ name value completed, allowed (.engine tx (add name value) completed)) :
    Within (Frame keeps allowed) (addKnownHeaders env tx add headers table) := by
  refine .forEach fun entry _ => ?_
  split
  · exact .pure _
  · exact .bind (mayThrow_frame env) fun _ => engineCall_frame (permitted _ _)

theorem addUnknownHeaders_frame {env : Env} {tx : TransactionId}
    {add : Bytes → Bytes → EngineCall} (headers : HttpHeaders)
    (permitted : ∀ name value completed, allowed (.engine tx (add name value) completed)) :
    Within (Frame keeps allowed) (addUnknownHeaders env tx add headers) :=
  .forEach fun _ _ => .bind (mayThrow_frame env) fun _ => engineCall_frame (permitted _ _)

theorem newTransaction_frame (env : Env) (permitted : ∀ tx, allowed (.constructTransaction tx)) :
    Within (Frame keeps allowed) (newTransaction env) := by
  refine .bind (mayThrow_frame env) fun _ => .bind (consult_frame _) fun allocated => ?_
  split
  · refine .bind (mayThrow_frame env) fun _ => .bind .get fun w => ?_
    refine .bind (fun _ => ?_) fun _ => .bind (record_frame (permitted _)) fun _ => .pure _
    exact ⟨rfl, rfl, rfl, rfl, refl_of keeps _, [], (List.append_nil _).symm, by simp⟩
  · exact .pure _

theorem failUnprotected_frame
    (permitted : allowed (.response (.setStatus 500 "Internal Server Error"))) (env : Env)
    (context : HttpContext) : Within (Frame keeps allowed) (failUnprotected env context) := by
  unfold failUnprotected
  split
  · exact .bind (.when fun _ => respond_frame permitted) fun _ => .pure _
  · exact .pure _

theorem configFailed_frame
    (permitted : allowed (.response (.setStatus 500 "Internal Server Error"))) (env : Env)
    (context : HttpContext) : Within (Frame keeps allowed) (configFailed env context) := by
  refine .bind .get fun w => .bind (fun _ => ?_) fun _ => ?_
  · exact ⟨rfl, rfl, rfl, rfl, refl_of keeps _, [], (List.append_nil _).symm, by simp⟩
  refine .bind (.when fun _ => writeEventViewerLog_frame _ _) fun _ => ?_
  exact failUnprotected_frame permitted env context

theorem rulesFailed_frame
    (permitted : allowed (.response (.setStatus 500 "Internal Server Error"))) (env : Env)
    (context : HttpContext) (configFile err : Bytes) :
    Within (Frame keeps allowed) (rulesFailed env context configFile err) := by
  refine .bind .get fun w => .bind (fun _ => ?_) fun _ => ?_
  · exact ⟨rfl, rfl, rfl, rfl, refl_of keeps _, [], (List.append_nil _).symm, by simp⟩
  refine .bind (.when fun _ => ?_) fun _ => failUnprotected_frame permitted env context
  exact .bind (mayThrow_frame env) fun _ => writeEventViewerLog_frame _ _

/-- The calls that describe a request to the engine. -/
def EngineCall.Describes : EngineCall → Prop
  | .processConnection _ _ _ _ => True
  | .processURI _ _ _ => True
  | .addRequestHeader _ _ => True
  | _ => False

theorem describeRequest_frame (env : Env) (context : HttpContext) (req : HttpRequest)
    (tx : TransactionId) (kept : ∀ rsc protocol, keeps rsc { rsc with protocol })
    (permitted : ∀ call completed, call.Describes → allowed (.engine tx call completed)) :
    Within (Frame keeps allowed) (describeRequest env context req tx) := by
  refine .bind (mayThrow_frame env) fun _ => ?_
  refine .bind (engineCall_frame fun _ => permitted _ _ trivial) fun _ => ?_
  refine .bind (mayThrow_frame env) fun _ => ?_
  refine .bind (modifyContext_frame fun _ => kept _ _) fun _ => ?_
  refine .bind (engineCall_frame fun _ => permitted _ _ trivial) fun _ => ?_
  refine .bind (addKnownHeaders_frame _ _ fun _ _ _ => permitted _ _ trivial) fun _ => ?_
  exact addUnknownHeaders_frame _ fun _ _ _ => permitted _ _ trivial

theorem EngineCall.Describes.offBody {call : EngineCall} (describes : call.Describes)
    (tx : TransactionId) (completed : Bool) : (Event.engine tx call completed).OffBody := by
  cases call <;> first | rfl | exact absurd describes id

end Frames

/-- The ways `SetModuleContext` can go: a context is assigned already, IIS refuses, or the
context is stored. -/
inductive Stores (rsc : RequestStoredContext) (w : World) : HResult → World → Prop where
  | assigned : w.stored = true → Stores rsc w (.fromWin32 errorAlreadyAssigned) w
  | refused {shr : HResult} :
      shr.failed = true → shr ≠ .fromWin32 errorAlreadyAssigned → Stores rsc w shr w.advance
  | stored : Stores rsc w .sOk { w.advance with rsc, stored := true }

theorem setModuleContext_stores (env : Env) (rsc : RequestStoredContext) (w : World) :
    ∃ shr after, setModuleContext env rsc w = .returned shr after ∧ Stores rsc w shr after := by
  rw [setModuleContext, bind_returned (get_apply w)]
  cases held : w.stored with
  | true => exact ⟨_, w, rfl, .assigned held⟩
  | false =>
      simp only [Bool.false_eq_true, if_false]
      rw [bind_returned (consult_apply w _)]
      by_cases refused : (env.hresult w.tick).failed = true ∧
          env.hresult w.tick ≠ .fromWin32 errorAlreadyAssigned
      · rw [if_pos refused]
        exact ⟨_, _, rfl, .refused refused.1 refused.2⟩
      · rw [if_neg refused]
        exact ⟨_, _, rfl, .stored⟩

/-- The context is the same up to the protocol of the request line. -/
def SameButProtocol (a b : RequestStoredContext) : Prop := b = { a with protocol := b.protocol }

instance : IsPreorder RequestStoredContext SameButProtocol where
  refl _ := rfl
  trans a b c first second := by
    unfold SameButProtocol at *
    rw [second, first]

/-! ## The start of the body read -/

/-- `processRequestHeaders` ran to completion on `tx` and no disruptive
intervention was reported after it. -/
def HeadersServed (tx : TransactionId) (log : List Event) : Prop :=
  ∃ before after, log = before ++ .engine tx .processRequestHeaders true :: after ∧
    ∀ event ∈ after, ¬ event.Disruptive

theorem HeadersServed.append {tx : TransactionId} {log events : List Event}
    (served : HeadersServed tx log) (quiet : ∀ event ∈ events, ¬ event.Disruptive) :
    HeadersServed tx (log ++ events) := by
  obtain ⟨before, after, rfl, clear⟩ := served
  exact ⟨before, after ++ events, by simp, List.forall_mem_append.mpr ⟨clear, quiet⟩⟩

/-- The body on the server's side is as it was at `start`, and no call was made on it. -/
structure BeforeBody (start w : World) : Prop where
  entity : w.entity = start.entity
  reads : w.reads = start.reads
  logged : ∃ events, w.log = start.log ++ events ∧ ∀ event ∈ events, event.OffBody

/-- Nor was the request's context stored. -/
abbrev Untouched (start : World) : World → Prop := Frame (fun _ _ => True) Event.OffBody start

/-- The world right after the request's context was stored. -/
structure Opened (start : World) (tx : TransactionId) (w : World) : Prop
    extends BeforeBody start w where
  ready : Ready w
  current : w.rsc.tx = some tx
  body : w.rsc.body = []

/-- The world in which `BeginBodyRead` is called. -/
structure AtBody (start : World) (tx : TransactionId) (w : World) : Prop
    extends Opened start tx w where
  headers : HeadersServed tx w.log

theorem BeforeBody.of_frame {keeps : RequestStoredContext → RequestStoredContext → Prop}
    {start w after : World} (before : BeforeBody start w)
    (frame : Frame keeps Event.OffBody w after) : BeforeBody start after := by
  obtain ⟨early, earlyShape, earlyOff⟩ := before.logged
  obtain ⟨late, lateShape, lateOff⟩ := frame.logged
  refine ⟨frame.entity.trans before.entity, frame.reads.trans before.reads, early ++ late, ?_, ?_⟩
  · rw [lateShape, earlyShape, List.append_assoc]
  · exact List.forall_mem_append.mpr ⟨earlyOff, lateOff⟩

theorem Untouched.beforeBody {start w : World} (untouched : Untouched start w) :
    BeforeBody start w :=
  ⟨untouched.entity, untouched.reads, untouched.logged⟩

theorem Opened.of_frame {keeps : RequestStoredContext → RequestStoredContext → Prop}
    {start w after : World} {tx : TransactionId} (opened : Opened start tx w)
    (frame : Frame keeps Event.OffBody w after)
    (kept : ∀ a b, keeps a b →
      b.tx = a.tx ∧ b.body = a.body ∧ b.bodyReadState = a.bodyReadState) :
    Opened start tx after := by
  obtain ⟨tx, body, state⟩ := kept _ _ frame.context
  exact ⟨opened.toBeforeBody.of_frame frame,
    ⟨frame.stored.trans opened.ready.stored, tx.trans_ne opened.ready.live,
      state.trans opened.ready.idle, frame.outstanding.trans opened.ready.quiet⟩,
    tx.trans opened.current, body.trans opened.body⟩

theorem Opened.called {env : Env} {start w : World} {tx : TransactionId} {call : EngineCall}
    (opened : Opened start tx w)
    (off : ∀ completed, (Event.engine tx call completed).OffBody) :
    Opened start tx (w.called env tx call) := by
  have asked : Frame Eq Event.OffBody w (w.called env tx call) :=
    ⟨rfl, rfl, rfl, rfl, rfl, _, rfl, by simpa using off _⟩
  exact opened.of_frame asked fun a b same => by simp [same]

theorem AtBody.of_undisturbed {start w after : World} {tx : TransactionId}
    (atBody : AtBody start tx w) (undisturbed : Undisturbed w after)
    (framed : Frame (fun _ _ => True) Event.OffBody w after) : AtBody start tx after := by
  obtain ⟨events, shape, quiet⟩ := undisturbed.logged
  have same : Frame Eq Event.OffBody w after :=
    ⟨framed.stored, framed.entity, framed.reads, framed.outstanding, undisturbed.context,
      framed.logged⟩
  refine ⟨atBody.toOpened.of_frame same fun a b equal => by simp [equal], ?_⟩
  exact shape ▸ atBody.headers.append quiet

theorem applyIntervention_offBody (env : Env) (context : HttpContext) (canBlock : Bool) :
    Within (Frame (fun _ _ => True) Event.OffBody) (applyIntervention env context canBlock) :=
  applyIntervention_frame env context canBlock (fun _ => trivial) fun _ intervenes => intervenes.offBody

/-- Phase 1 either finishes the request or reaches the body read. -/
theorem requestHeaderPhase_ensures (env : Env) (context : HttpContext) (req : HttpRequest)
    {start : World} {tx : TransactionId} :
    Ensures (Opened start tx) (requestHeaderPhase env context req tx)
      (fun blocked w => BeforeBody start w ∧ (blocked = false → AtBody start tx w))
      (BeforeBody start) := by
  have describes : Within (Frame SameButProtocol Event.OffBody)
      (describeRequest env context req tx) :=
    describeRequest_frame env context req tx (fun _ _ => rfl)
      fun _ completed describes => describes.offBody tx completed
  refine .bind (fun _ => Opened start tx) ?_ fun _ => ?_
  · refine (Ensures.of_within describes
      fun _ _ opened frame => ?_).consequence (fun _ opened => opened)
      (fun _ _ opened => opened) fun _ opened => Opened.toBeforeBody opened
    exact Opened.of_frame opened frame fun a b same => by rw [same]; exact ⟨rfl, rfl, rfl⟩
  refine .bind (fun _ => AtBody start tx) ?_ fun _ => ?_
  · intro w opened
    have called : Opened start tx (w.called env tx .processRequestHeaders) :=
      opened.called fun _ => rfl
    rw [engineCall_apply]
    split
    · exact called.toBeforeBody
    · next returned =>
        refine ⟨called, w.log, [], ?_, by simp⟩
        simp [World.called, returned]
  · intro w atBody
    have ends := applyIntervention_false env context w w (refl_of Undisturbed w)
    have framed := applyIntervention_offBody env context true w
    cases run : applyIntervention env context true w with
    | returned blocked after =>
        rw [run] at ends framed
        exact ⟨atBody.toBeforeBody.of_frame framed,
          fun clear => atBody.of_undisturbed (ends clear) framed⟩
    | thrown after => rw [run] at framed; exact atBody.toBeforeBody.of_frame framed
    | halted reason after => exact trivial

/-! ## The handler up to the body read -/

/-- The assumptions under which the handler must not let a request through
uninspected: its path is configured, failing open was not asked for, no other
context is assigned to it, and IIS provides the raw request. -/
structure Protected (env : Env) (context : HttpContext) (start : World) : Prop where
  configured : Configured env context start
  failClosed : configFailClosed env = true
  fresh : start.stored = false
  raw : context.rawRequest ≠ none

/-- What an exit without a body read says. -/
def BlockExit.Early (env : Env) (context : HttpContext) (start : World) : BlockExit → Prop
  | .finish status => status = .rqNotificationFinishRequest
  | .leave hr => hr.failed = false → ¬ Protected env context start

/-- The block is left without a body read. -/
def EarlyExit (env : Env) (context : HttpContext) (start : World) (exit : BlockExit)
    (w : World) : Prop :=
  BeforeBody start w ∧ exit.Early env context start

/-- The block of the same request with synchronous and with the given reads: both
are left in one way before the body read, or both enter it in one world. -/
inductive Course (env : Env) (context : HttpContext) (start : World) :
    Outcome World BlockExit → Outcome World BlockExit → Prop where
  | early {outcome : Outcome World BlockExit} :
      outcome.Satisfies (EarlyExit env context start) (BeforeBody start) →
      Course env context start outcome outcome
  | reading {tx : TransactionId} {w : World} :
      AtBody start tx w →
      Course env context start
        ((beginBodyRead env.synchronous context >>= fun status => pure (.finish status)) w)
        ((beginBodyRead env context >>= fun status => pure (.finish status)) w)

theorem untouched_ensures {α : Type} {start : World} {program : Program World α}
    (within : Within (Frame (fun _ _ => True) Event.OffBody) program) :
    Ensures (Untouched start) program (fun _ => Untouched start) (BeforeBody start) :=
  (Ensures.of_within within fun _ _ before step => trans_of Untouched before step).consequence
    (fun _ before => before) (fun _ _ after => after) fun _ untouched => untouched.beforeBody

section Block

variable {env : Env} {context : HttpContext} {start : World}

theorem early_couples {pre : World → Prop} {program : Program World BlockExit}
    (early : Ensures pre program (EarlyExit env context start) (BeforeBody start)) :
    Couples pre program program (Course env context start) :=
  fun state holds => .early (early state holds)

theorem failUnprotected_early :
    Ensures (Untouched start) (failUnprotected env context) (EarlyExit env context start)
      (BeforeBody start) := by
  unfold failUnprotected
  split
  · refine .bind _ (untouched_ensures (.when fun _ => respond_frame rfl)) fun _ => ?_
    exact .pure fun _ untouched => ⟨untouched.beforeBody, rfl⟩
  · next opensUp =>
      exact .pure fun _ untouched =>
        ⟨untouched.beforeBody, fun _ protects => opensUp protects.failClosed⟩

theorem configFailed_synchronous : configFailed env.synchronous = configFailed env := rfl

theorem rulesFailed_synchronous : rulesFailed env.synchronous = rulesFailed env := rfl

theorem configFailed_early :
    Ensures (Untouched start) (configFailed env context) (EarlyExit env context start)
      (BeforeBody start) := by
  refine .bind (fun _ => Untouched start) (untouched_ensures .get) fun seen => ?_
  refine .bind (fun _ => Untouched start) (untouched_ensures (Within.modify fun w => ?_))
    fun _ => ?_
  · exact ⟨rfl, rfl, rfl, rfl, trivial, [], (List.append_nil _).symm, by simp⟩
  refine .bind (fun _ => Untouched start)
    (untouched_ensures (.when fun _ => writeEventViewerLog_frame _ _)) fun _ => ?_
  exact failUnprotected_early

theorem rulesFailed_early (configFile err : Bytes) :
    Ensures (Untouched start) (rulesFailed env context configFile err)
      (EarlyExit env context start) (BeforeBody start) := by
  refine .bind (fun _ => Untouched start) (untouched_ensures .get) fun seen => ?_
  refine .bind (fun _ => Untouched start) (untouched_ensures (Within.modify fun w => ?_))
    fun _ => ?_
  · exact ⟨rfl, rfl, rfl, rfl, trivial, [], (List.append_nil _).symm, by simp⟩
  refine .bind (fun _ => Untouched start) (untouched_ensures (.when fun _ => ?_)) fun _ => ?_
  · exact .bind (mayThrow_frame env) fun _ => writeEventViewerLog_frame _ _
  exact failUnprotected_early

/-- A refused context was refused because another one is assigned or by the server;
an accepted one is stored. -/
theorem setModuleContext_ensures (quiet : start.outstanding = none) {rsc : RequestStoredContext}
    {tx : TransactionId} (current : rsc.tx = some tx) (empty : rsc.body = [])
    (idle : rsc.bodyReadState = .idle) :
    Ensures (Untouched start) (setModuleContext env rsc)
      (fun shr w => if shr.failed then
          (shr = .fromWin32 errorAlreadyAssigned → start.stored = true) ∧ Untouched start w
        else Opened start tx w) (BeforeBody start) := by
  intro w untouched
  obtain ⟨shr, after, ran, stores⟩ := setModuleContext_stores env rsc w
  rw [ran]
  change if shr.failed then _ else _
  cases stores with
  | assigned held =>
      rw [if_pos (by decide)]
      exact ⟨fun _ => untouched.stored.symm.trans held, untouched⟩
  | refused failed other =>
      rw [if_pos failed]
      exact ⟨fun same => absurd same other,
        trans_of Untouched untouched (consult_frame env.hresult w)⟩
  | stored =>
      rw [if_neg (by decide)]
      exact ⟨⟨untouched.entity, untouched.reads, untouched.logged⟩,
        ⟨rfl, by simp [current], idle, untouched.outstanding.trans quiet⟩, current, empty⟩

theorem newTransaction_untouched :
    Ensures (Untouched start) (newTransaction env) (fun _ => Untouched start)
      (BeforeBody start) :=
  untouched_ensures (newTransaction_frame env fun _ => rfl)

theorem inspectRequest_couples {req : HttpRequest} {tx : TransactionId} :
    Couples (Opened start tx) (inspectRequest env.synchronous context req tx)
      (inspectRequest env context req tx) (Course env context start) := by
  refine Couples.bind _ (requestHeaderPhase_ensures env context req)
    (fun _ before => .early before) (fun _ _ => .early trivial) fun blocked => ?_
  cases blocked with
  | true => exact early_couples (.pure fun _ holds => ⟨holds.1, rfl⟩)
  | false => exact fun w holds => .reading (holds.2 rfl)

theorem openTransaction_couples (quiet : start.outstanding = none)
    {config : ModsecurityStoredContext} {rules : RulesSet} :
    Couples (Untouched start) (openTransaction env.synchronous context config rules)
      (openTransaction env context config rules) (Course env context start) := by
  refine Couples.bind _ newTransaction_untouched
    (fun _ before => .early before) (fun _ _ => .early trivial) fun created => ?_
  cases created with
  | none =>
      exact early_couples (.pure fun _ untouched =>
        ⟨untouched.beforeBody, fun failed => absurd failed (by decide)⟩)
  | some tx =>
      refine Couples.bind _ (untouched_ensures (consult_frame env.succeeds))
        (fun _ before => .early before) (fun _ _ => .early trivial) fun allocated => ?_
      cases allocated with
      | false =>
          refine early_couples (.bind _ (untouched_ensures (record_frame rfl)) fun _ => ?_)
          exact .pure fun _ untouched =>
            ⟨untouched.beforeBody, fun failed => absurd failed (by decide)⟩
      | true =>
          refine Couples.bind _ (setModuleContext_ensures quiet rfl rfl rfl)
            (fun _ before => .early before) (fun _ _ => .early trivial) fun shr => ?_
          cases refused : shr.failed with
          | true =>
              simp only [↓reduceIte]
              refine early_couples (.given fun assigned => ?_)
              have finished : Within (Frame (fun _ _ => True) Event.OffBody)
                  (finishContext env { RequestStoredContext.new with
                    tx := some tx
                    rules := some rules
                    responseBodyBlock := config.responseBodyBlock }) :=
                finishContext_frame env _ fun _ finalizes => finalizes.intervenes.offBody
              refine .bind (fun _ => Untouched start) (untouched_ensures finished) fun _ => ?_
              split
              · next same =>
                  refine .pure fun _ untouched => ⟨untouched.beforeBody, fun _ protects => ?_⟩
                  have fresh := protects.fresh
                  simp [assigned same] at fresh
              · exact .pure fun _ untouched =>
                  ⟨untouched.beforeBody, fun failed => absurd failed (by decide)⟩
          | false =>
              simp only [Bool.false_eq_true, ↓reduceIte]
              cases raw : context.rawRequest with
              | none =>
                  exact early_couples (.pure fun _ opened =>
                    ⟨opened.toBeforeBody, fun _ protects => protects.raw raw⟩)
              | some req => exact inspectRequest_couples

theorem protectRequest_couples (quiet : start.outstanding = none)
    {config : ModsecurityStoredContext}
    (sound : Configured env context start → config.Protects) :
    Couples (Untouched start) (protectRequest env.synchronous context config)
      (protectRequest env context config) (Course env context start) := by
  unfold protectRequest
  split
  · split
    · next unset =>
        exact early_couples (.pure fun _ untouched =>
          ⟨untouched.beforeBody, fun _ protects => (sound protects.configured).2 unset⟩)
    next wpath _ =>
      refine Couples.bind _ (untouched_ensures (mayThrow_frame env))
        (fun _ before => .early before) (fun _ _ => .early trivial) fun _ => ?_
      refine Couples.bind _ (untouched_ensures (getRules_frame env _))
        (fun _ before => .early before) (fun _ _ => .early trivial) fun loaded => ?_
      split
      · rw [rulesFailed_synchronous]
        exact early_couples (rulesFailed_early _ _)
      · exact openTransaction_couples quiet
  · next disabled =>
      exact early_couples (.pure fun _ untouched =>
        ⟨untouched.beforeBody, fun _ protects => disabled (sound protects.configured).1⟩)

/-- The synchronous and the asynchronous handler take the same course up to the
body read. -/
theorem beginRequestBlock_couples (quiet : start.outstanding = none)
    (request : context.requestPresent = true) :
    Couples (· = start) (beginRequestBlock env.synchronous (some context))
      (beginRequestBlock env (some context)) (Course env context start) := by
  unfold beginRequestBlock
  simp only [request, ↓reduceIte]
  have looked : Ensures (· = start) (getConfig env context)
      (fun result w => Untouched start w ∧ (Configured env context start → result.Sound))
      (BeforeBody start) := by
    have kept : Ensures (Untouched start) (getConfig env context) (fun _ => Untouched start)
        (BeforeBody start) := untouched_ensures (getConfig_frame env context)
    refine Ensures.and (kept.consequence ?_ (fun _ _ holds => holds) fun _ before => before) ?_
    · rintro _ rfl
      exact refl_of Untouched _
    · exact .under getConfig_sound
  refine Couples.bind _ looked (fun _ before => .early before) (fun _ _ => .early trivial)
    fun result => ?_
  cases failed : result.hr.failed with
  | true =>
      simp only [↓reduceIte, configFailed_synchronous]
      exact early_couples (configFailed_early.consequence (fun _ holds => holds.1)
        (fun _ _ exit => exit) fun _ before => before)
  | false =>
      simp only [Bool.false_eq_true, ↓reduceIte]
      cases found : result.config with
      | none => exact fun _ _ => .early trivial
      | some config =>
          intro w holds
          exact protectRequest_couples quiet
            (fun configured => holds.2 configured failed config found) w holds.1

end Block

end ModSecurityIIS
