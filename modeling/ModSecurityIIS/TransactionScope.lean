import ModSecurityIIS.SharedState

/-!
# The transaction of a request

A request has at most one transaction, and its callbacks call no other: they reach it
through the stored context or through a local pointer that is read from it.
-/

set_option autoImplicit false

namespace ModSecurityIIS

open Imperative Program Transition

/-- A call on the transaction, or its deletion. -/
def Event.Concerns (tx : TransactionId) : Event → Prop
  | .engine other _ _ => other = tx
  | .destroyTransaction other => other = tx
  | _ => False

/-- An event on no transaction but the given one, which is there already. -/
def Event.Stays (tx : TransactionId) (event : Event) : Prop :=
  (∀ other, event.Concerns other → other = tx) ∧
    ∀ other, event ≠ .constructTransaction other

theorem Event.Uses.concerns {tx : TransactionId} {event : Event} (uses : event.Uses tx) :
    event.Concerns tx := by
  cases event with
  | engine => exact uses
  | _ => exact absurd uses id

theorem Event.stays_of_unconcerned {tx : TransactionId} {event : Event}
    (unconcerned : ∀ other, ¬ event.Concerns other)
    (made : ∀ other, event ≠ .constructTransaction other) : event.Stays tx :=
  ⟨fun other concerns => absurd concerns (unconcerned other), made⟩

theorem Event.Idle.stays {tx : TransactionId} {event : Event} (idle : event.Idle) :
    event.Stays tx := by
  cases event with
  | response => exact stays_of_unconcerned (fun _ => id) (by simp)
  | readEntityBody => exact stays_of_unconcerned (fun _ => id) (by simp)
  | insertEntityBody => exact stays_of_unconcerned (fun _ => id) (by simp)
  | _ => exact absurd idle id

theorem Event.stays_call {tx : TransactionId} {call : EngineCall} {completed : Bool} :
    (Event.engine tx call completed).Stays tx :=
  ⟨fun _ same => Eq.symm same, by simp⟩

/-- The context holds no transaction but the given one. -/
def World.Confined (tx : TransactionId) (w : World) : Prop :=
  ∀ other, w.rsc.tx = some other → other = tx

/-- From a context with no other transaction, no other one is touched. -/
def Scoped (tx : TransactionId) (w after : World) : Prop :=
  w.Confined tx → after.Confined tx ∧
    ∃ events, after.log = w.log ++ events ∧ ∀ event ∈ events, event.Stays tx

instance (tx : TransactionId) : IsPreorder World (Scoped tx) where
  refl _ holds := ⟨holds, [], by simp⟩
  trans _ _ _ first second holds := by
    obtain ⟨middle, before, beforeShape, beforeStays⟩ := first holds
    obtain ⟨after, later, laterShape, laterStays⟩ := second middle
    refine ⟨after, before ++ later, ?_, ?_⟩
    · rw [laterShape, beforeShape, List.append_assoc]
    · exact List.forall_mem_append.mpr ⟨beforeStays, laterStays⟩

section Steps

variable {env : Env} {context : HttpContext} {tx : TransactionId}

theorem scoped_of_frame {α : Type} {program : Program World α}
    (within : Within (Frame SameTransaction (Event.Stays tx)) program) :
    Within (Scoped tx) program := by
  intro w holds
  have frame := within w
  refine ⟨?_, frame.logged⟩
  intro other live
  have same : (program w).state.rsc.tx = w.rsc.tx := frame.context
  rw [same] at live
  exact holds other live

theorem scoped_of_plain {w after : World} (plain : Plain w after) : Scoped tx w after := by
  intro holds
  obtain ⟨events, shape, idle⟩ := plain.logged
  refine ⟨?_, events, shape, fun event member => (idle event member).stays⟩
  intro other live
  rw [plain.context.1] at live
  exact holds other live

/-- The context has the transaction or none. -/
theorem scoped_of_live {w after : World} (gone : w.rsc.tx = none → Scoped tx w after)
    (live : w.rsc.tx = some tx → Scoped tx w after) : Scoped tx w after := by
  intro holds
  cases current : w.rsc.tx with
  | none => exact gone current holds
  | some other =>
      cases holds other current
      exact live current holds

theorem engineCall_scoped (call : EngineCall) : Within (Scoped tx) (engineCall env tx call) :=
  scoped_of_frame (engineCall_frame fun _ => Event.stays_call)

theorem finishContext_scoped {rsc : RequestStoredContext}
    (own : ∀ other, rsc.tx = some other → other = tx) :
    Within (Scoped tx) (finishContext env rsc) := by
  have ends : Within (Scoped tx) (finalizeTransaction env rsc.tx) := by
    cases live : rsc.tx with
    | none => exact Within.pure _
    | some other =>
        cases own other live
        apply Within.tryCatch
        · refine Within.bind (engineCall_scoped _) fun _ => ?_
          exact scoped_of_frame (record_frame ⟨fun _ same => Eq.symm same, by simp⟩)
        · exact scoped_of_frame (writeEventViewerLog_frame _ _)
  refine Within.bind ends fun _ => ?_
  refine Within.bind (.when fun _ => scoped_of_frame (record_frame ?_)) fun _ => Within.pure _
  exact Event.stays_of_unconcerned (fun _ => id) (by simp)

theorem finishRequest_scoped : Within (Scoped tx) (finishRequest env) := by
  intro w holds
  obtain ⟨after, ran, finalized⟩ := @finishContext_apply env w.rsc w
  obtain ⟨_, logged⟩ := @finishContext_scoped env tx w.rsc holds w holds
  rw [ran] at logged
  rw [finishRequest, bind_returned (get_apply w), bind_returned ran, modifyContext_apply]
  refine ⟨?_, logged⟩
  intro other missing
  cases missing

theorem applyIntervention_scoped (canBlock : Bool) :
    Within (Scoped tx) (applyIntervention env context canBlock) := by
  have answers : ∀ op : ResponseOp, op.Answers → (Event.response op).Stays tx :=
    fun _ _ => Event.stays_of_unconcerned (fun _ => id) (by simp)
  have disrupts (it : Intervention) : Within (Scoped tx) (disrupt env context tx it) := by
    unfold disrupt
    split
    · refine Within.bind (scoped_of_frame (respond_frame (answers _ trivial))) fun _ => ?_
      refine Within.bind (scoped_of_frame (answerIntervention_frame it answers)) fun _ => ?_
      refine Within.bind (engineCall_scoped _) fun _ => ?_
      refine Within.bind (fun w => scoped_of_plain (.silent ⟨rfl, rfl, rfl⟩ rfl rfl)) fun _ => ?_
      refine Within.bind (scoped_of_frame (record_frame ?_)) fun _ => finishRequest_scoped
      exact Event.stays_of_unconcerned (fun _ => id) (by simp)
    · exact Within.halt _
  intro w
  rw [applyIntervention, bind_returned (get_apply w)]
  apply scoped_of_live
  · intro gone
    rw [gone]
    exact refl_of (Scoped tx) w
  · intro live
    rw [live]
    revert w
    have asks : Within (Scoped tx) (pendingIntervention env tx) :=
      scoped_of_frame (pendingIntervention_frame env tx fun _ _ => Event.stays_call)
    intro w _
    refine Within.bind asks (fun reported => ?_) w
    cases reported with
    | none => exact Within.pure _
    | some it =>
        refine Within.bind (scoped_of_frame (mayThrow_frame env)) fun _ => ?_
        split
        · exact Within.bind (disrupts it) fun _ => Within.pure _
        · exact Within.pure _

theorem contextCall_scoped (call : EngineCall) : Within (Scoped tx) (contextCall env call) := by
  intro w
  rw [contextCall, bind_returned (get_apply w)]
  apply scoped_of_live
  · intro gone
    rw [gone]
    exact refl_of (Scoped tx) w
  · intro live
    rw [live]
    exact engineCall_scoped call w

theorem bodySteps_scoped : BodySteps env context (Scoped tx) where
  plain _ _ := scoped_of_plain
  appends _ := contextCall_scoped _
  evaluates := contextCall_scoped _
  intervenes := applyIntervention_scoped true

/-! ## The begin-request handler -/

theorem inspectRequest_scoped (req : HttpRequest) :
    Within (Scoped tx) (inspectRequest env context req tx) := by
  have describes : Within (Scoped tx) (describeRequest env context req tx) :=
    scoped_of_frame
      (describeRequest_frame env context req tx (fun _ _ => rfl) fun _ _ _ => Event.stays_call)
  have phase : Within (Scoped tx) (requestHeaderPhase env context req tx) := by
    refine Within.bind describes fun _ => ?_
    exact Within.bind (engineCall_scoped _) fun _ => applyIntervention_scoped true
  refine Within.bind phase fun blocked => ?_
  split
  · exact Within.pure _
  · exact Within.bind (beginBodyRead_within bodySteps_scoped) fun _ => Within.pure _

/-- An event on no transaction at all. -/
def Event.Apart (event : Event) : Prop :=
  (∀ tx, ¬ event.Concerns tx) ∧ ∀ tx, event ≠ .constructTransaction tx

/-- An event on the given transaction or on none. -/
def Event.On (tx : TransactionId) (event : Event) : Prop :=
  ∀ other, event.Concerns other ∨ event = .constructTransaction other → other = tx

theorem Event.Apart.on {event : Event} (apart : event.Apart) (tx : TransactionId) :
    event.On tx := by
  intro other reaches
  rcases reaches with concerns | made
  · exact absurd concerns (apart.1 other)
  · exact absurd made (apart.2 other)

theorem Event.Stays.on {event : Event} (stays : event.Stays tx) : event.On tx := by
  intro other reaches
  rcases reaches with concerns | made
  · exact stays.1 other concerns
  · exact absurd made (stays.2 other)

theorem Event.Idle.apart {event : Event} (idle : event.Idle) : event.Apart := by
  cases event with
  | response => exact ⟨fun _ => id, by simp⟩
  | readEntityBody => exact ⟨fun _ => id, by simp⟩
  | insertEntityBody => exact ⟨fun _ => id, by simp⟩
  | _ => exact absurd idle id

/-- At most one transaction is made in these events, and no other is touched. -/
def Owner (owner : Option TransactionId) (events : List Event) : Prop :=
  match owner with
  | none => ∀ event ∈ events, event.Apart
  | some tx => .constructTransaction tx ∈ events ∧ ∀ event ∈ events, event.On tx

def World.ConfinedTo (owner : Option TransactionId) (w : World) : Prop :=
  ∀ tx, w.rsc.tx = some tx → owner = some tx

/-- From a context without a transaction. -/
def Opens (w after : World) : Prop :=
  w.rsc.tx = none → ∃ events owner, after.log = w.log ++ events ∧ Owner owner events ∧
    after.ConfinedTo owner

theorem Plain.opens {w after : World} (plain : Plain w after) : Opens w after := by
  intro gone
  obtain ⟨events, shape, idle⟩ := plain.logged
  refine ⟨events, none, shape, fun event member => (idle event member).apart, ?_⟩
  intro tx live
  rw [plain.context.1, gone] at live
  cases live

theorem Owner.after {owner : Option TransactionId} {before events : List Event}
    (apart : ∀ event ∈ before, event.Apart) (owned : Owner owner events) :
    Owner owner (before ++ events) := by
  cases owner with
  | none => exact List.forall_mem_append.mpr ⟨apart, owned⟩
  | some tx =>
      refine ⟨List.mem_append_right _ owned.1, List.forall_mem_append.mpr ⟨?_, owned.2⟩⟩
      exact fun event member => (apart event member).on tx

theorem Owner.before {owner : Option TransactionId} {events later : List Event}
    (apart : ∀ event ∈ later, event.Apart) (owned : Owner owner events) :
    Owner owner (events ++ later) := by
  cases owner with
  | none => exact List.forall_mem_append.mpr ⟨owned, apart⟩
  | some tx =>
      refine ⟨List.mem_append_left _ owned.1, List.forall_mem_append.mpr ⟨owned.2, ?_⟩⟩
      exact fun event member => (apart event member).on tx

theorem Plain.thenOpens {w middle after : World} (plain : Plain w middle)
    (opens : Opens middle after) : Opens w after := by
  intro gone
  obtain ⟨before, shape, idle⟩ := plain.logged
  obtain ⟨events, owner, later, owned, confined⟩ := opens (plain.context.1.trans gone)
  refine ⟨before ++ events, owner, ?_, owned.after fun event member => (idle event member).apart,
    confined⟩
  rw [later, shape, List.append_assoc]

theorem Opens.thenPlain {w middle after : World} (opens : Opens w middle)
    (plain : Plain middle after) : Opens w after := by
  intro gone
  obtain ⟨events, owner, shape, owned, confined⟩ := opens gone
  obtain ⟨later, laterShape, idle⟩ := plain.logged
  refine ⟨events ++ later, owner, ?_, owned.before fun event member => (idle event member).apart, ?_⟩
  · rw [laterShape, shape, List.append_assoc]
  · intro tx live
    rw [plain.context.1] at live
    exact confined tx live

/-- What happens on the new transaction happens on it alone. -/
theorem Scoped.opens {w opened after : World} (stayed : Scoped tx opened after)
    (log : opened.log = w.log ++ [.constructTransaction tx])
    (holds : ∀ other, opened.rsc.tx = some other → other = tx) : Opens w after := by
  intro _
  obtain ⟨confined, events, shape, stays⟩ := stayed holds
  refine ⟨.constructTransaction tx :: events, some tx, ?_, ⟨List.mem_cons_self, ?_⟩, ?_⟩
  · rw [shape, log, List.append_assoc]
    rfl
  · intro event member
    rcases List.mem_cons.mp member with rfl | late
    · intro other reaches
      rcases reaches with concerns | made
      · exact absurd concerns id
      · exact (Event.constructTransaction.inj made).symm
    · exact (stays event late).on
  · intro other live
    rw [confined other live]

theorem setModuleContext_scoped {rsc : RequestStoredContext} (own : rsc.tx = some tx) :
    Within (Scoped tx) (setModuleContext env rsc) := by
  intro w
  obtain ⟨shr, after, ran, stores⟩ := setModuleContext_stores env rsc w
  rw [ran]
  cases stores with
  | assigned => exact refl_of (Scoped tx) w
  | refused => exact scoped_of_plain (.silent ⟨rfl, rfl, rfl⟩ rfl rfl)
  | stored =>
      intro _
      refine ⟨?_, [], by simp [World.advance], by simp⟩
      intro other live
      exact Option.some.inj (live.symm.trans own)

/-- The block once the transaction is made. -/
theorem openedTransaction_scoped (config : ModsecurityStoredContext) (rules : RulesSet)
    (allocated : Bool) : Within (Scoped tx) (if allocated then do
        let rsc : RequestStoredContext :=
          { RequestStoredContext.new with
            tx := some tx
            rules := some rules
            responseBodyBlock := config.responseBodyBlock }
        let shr ← setModuleContext env rsc
        if shr.failed then do
          let _ ← finishContext env rsc
          if shr = .fromWin32 errorAlreadyAssigned then pure (.leave .sOk)
          else pure (.leave .eUnexpected)
        else
          match context.rawRequest with
          | none => pure (.leave .sOk)
          | some req => inspectRequest env context req tx
      else do
        record (.destroyTransaction tx)
        pure (.leave .eOutOfMemory) : Program World BlockExit) := by
  cases allocated with
  | true =>
      refine Within.bind (setModuleContext_scoped rfl) fun shr => ?_
      split
      · refine Within.bind (finishContext_scoped fun other live => ?_) fun _ => ?_
        · exact (Option.some.inj live).symm
        · split <;> exact Within.pure _
      · split
        · exact Within.pure _
        · exact inspectRequest_scoped _
  | false =>
      refine Within.bind (scoped_of_frame (record_frame ?_)) fun _ => Within.pure _
      exact ⟨fun _ same => Eq.symm same, by simp⟩

theorem openTransaction_opens (config : ModsecurityStoredContext) (rules : RulesSet) :
    Within Opens (openTransaction env context config rules) := by
  intro w
  obtain ⟨tick, made | none | threw⟩ := newTransaction_cases env w
  · rw [openTransaction, bind_returned made]
    intro gone
    have stays := Within.bind (scoped_of_frame (consult_frame env.succeeds))
      (@openedTransaction_scoped env context w.nextTransaction config rules)
    refine (stays _).opens rfl ?_ gone
    intro other live
    exact absurd (live.symm.trans gone) nofun
  · rw [openTransaction, bind_returned none]
    exact Plain.opens (.silent ⟨rfl, rfl, rfl⟩ rfl rfl)
  · rw [openTransaction, bind_thrown threw]
    exact Plain.opens (.silent ⟨rfl, rfl, rfl⟩ rfl rfl)

theorem onBeginRequest_opens : Within Opens (onBeginRequest env (some context)) := by
  have block : Within Opens (beginRequestBlock env (some context)) :=
    beginRequestBlock_within (fun _ _ => Plain.opens) (fun _ _ _ => Plain.thenOpens)
      openTransaction_opens
  have recovers : Within Plain (do
      reportException env "OnBeginRequest"
      pure (BlockExit.finish .rqNotificationFinishRequest)) :=
    Within.bind (plain_of_frame (reportException_frame env _)) fun _ => Within.pure _
  have caught := Within.recover block recovers (fun _ _ _ => Opens.thenPlain) fun _ _ => id
  exact Within.seq caught (fun _ => (Within.pure _ : Within Plain _))
    (fun _ _ _ => Opens.thenPlain) fun _ _ => id

/-! ## The send-response handler -/

variable {notification : SendResponse}

theorem responseBodyBlockingEnabled_scoped :
    Within (Scoped tx) (responseBodyBlockingEnabled env) := by
  intro w
  rw [responseBodyBlockingEnabled, bind_returned (get_apply w)]
  apply scoped_of_live
  · intro gone
    rw [gone]
    exact refl_of (Scoped tx) w
  · intro live
    rw [live]
    cases w.rsc.rules with
    | none => exact refl_of (Scoped tx) w
    | some rules =>
        refine (?_ : Within (Scoped tx) _) w
        dsimp only
        split
        · refine Within.bind (scoped_of_frame (consult_frame _)) fun state => ?_
          exact Within.bind (engineCall_scoped _) fun _ => Within.pure _
        · exact Within.pure _

theorem evaluateBody_scoped : Within (Scoped tx) (evaluateBody env) := by
  refine Within.bind (scoped_of_frame (modifyContext_frame fun _ => rfl)) fun _ => ?_
  exact contextCall_scoped _

theorem headerPhase_scoped : Within (Scoped tx) (headerPhase env context notification tx) := by
  apply headerPhase_within
  · exact scoped_of_frame (addKnownHeaders_frame _ _ fun _ _ _ => Event.stays_call)
  · exact scoped_of_frame (addUnknownHeaders_frame _ fun _ _ _ => Event.stays_call)
  · exact scoped_of_frame (mayThrow_frame env)
  · exact fun _ _ => engineCall_scoped _
  · exact responseBodyBlockingEnabled_scoped
  · exact applyIntervention_scoped
  · exact scoped_of_frame (modifyContext_frame fun _ => rfl)

theorem bodyPhase_scoped : Within (Scoped tx) (bodyPhase env context notification tx) := by
  apply bodyPhase_within
  · exact scoped_of_frame (inspectChunks_frame (fun _ _ => Event.stays_call) _)
  · intro respInspected
    apply modeA_within responseBodyBlockingEnabled_scoped
    · exact scoped_of_frame (modifyContext_frame fun _ => rfl)
    · exact scoped_of_frame (pinContentLength_frame fun _ _ => Event.Idle.stays trivial)
    · exact evaluateBody_scoped
    · exact applyIntervention_scoped true
  · exact modeB_within responseBodyBlockingEnabled_scoped evaluateBody_scoped
      (applyIntervention_scoped false)

theorem onSendResponse_scoped : Within (Scoped tx) (onSendResponse env context notification) := by
  have fails : Within (Scoped tx) (failSend env context) :=
    scoped_of_frame (failSend_frame (Event.Idle.stays trivial) env context)
  have inspects : Within (Scoped tx) (inspectSend env context notification tx) := by
    refine Within.bind headerPhase_scoped fun finished => ?_
    split
    · exact Within.pure _
    · exact bodyPhase_scoped
  intro w
  by_cases inspected : w.Inspects context notification
  · apply scoped_of_live
    · exact fun gone => absurd gone inspected.2.1
    · intro live
      rw [onSendResponse_of_inspects inspected live]
      exact Within.tryCatch inspects fails w
  · rw [onSendResponse_of_not_inspects inspected]
    exact refl_of (Scoped tx) w

end Steps

/-! ## Every run -/

theorem Occurrence.run_scoped (occurrence : Occurrence)
    (follows : occurrence.callback ≠ .beginRequest) (tx : TransactionId) :
    Within (Scoped tx) occurrence.run := by
  obtain ⟨env, context, callback⟩ := occurrence
  cases callback with
  | beginRequest => exact absurd rfl follows
  | asyncCompletion completion => exact onAsyncCompletion_within bodySteps_scoped completion
  | readCompleted => exact completeRead_within bodySteps_scoped
  | sendResponse notification =>
      refine Within.bind (fun w => ?_) fun _ => onSendResponse_scoped
      exact scoped_of_plain (.silent ⟨rfl, rfl, rfl⟩ rfl rfl)
  | postEndRequest => exact Within.pure _
  | cleanupStoredContext =>
      refine Within.bind ?_ fun _ => Within.pure _
      refine Within.bind Within.get fun w => .when fun _ => ?_
      refine Within.bind finishRequest_scoped fun _ => ?_
      exact fun w holds => ⟨holds, [], (List.append_nil _).symm, by simp⟩

/-- What the callbacks of a request were about: at most one transaction. -/
structure RequestState.Belongs (s : RequestState) (owner : Option TransactionId) : Prop where
  owned : Owner owner s.world.log
  confined : s.world.ConfinedTo owner
  unopened : s.begun = false → owner = none

theorem Event.apart_of_stays {event : Event} (stays : ∀ tx, event.Stays tx) : event.Apart := by
  refine ⟨fun tx concerns => ?_, (stays 0).2⟩
  have zero := (stays 0).1 tx concerns
  have one := (stays 1).1 tx concerns
  exact absurd (zero.symm.trans one) (by decide)

theorem belongs_follows {s : RequestState} {occurrence : Occurrence}
    {owner : Option TransactionId} (belongs : s.Belongs owner)
    (follows : occurrence.callback ≠ .beginRequest) :
    RequestState.Belongs ⟨(occurrence.run s.world).state, s.begun⟩ owner := by
  have scope := fun tx => occurrence.run_scoped follows tx s.world
  cases owner with
  | none =>
      have gone : s.world.rsc.tx = none := by
        cases live : s.world.rsc.tx with
        | none => rfl
        | some tx => exact absurd (belongs.confined tx live) nofun
      have free : ∀ tx, s.world.Confined tx := by
        intro tx other live
        exact absurd (gone.symm.trans live) nofun
      obtain ⟨_, events, shape, _⟩ := scope 0 (free 0)
      constructor
      · change Owner none (occurrence.run s.world).state.log
        rw [shape]
        apply belongs.owned.before
        intro event member
        apply Event.apart_of_stays
        intro tx
        obtain ⟨_, same, sameShape, stays⟩ := scope tx (free tx)
        obtain rfl := List.append_cancel_left (shape.symm.trans sameShape)
        exact stays event member
      · intro tx live
        have zero := (scope 0 (free 0)).1 tx live
        have one := (scope 1 (free 1)).1 tx live
        exact absurd (zero.symm.trans one) (by decide)
      · exact belongs.unopened
  | some tx =>
      have confined : s.world.Confined tx :=
        fun other live => (Option.some.inj (belongs.confined other live)).symm
      obtain ⟨kept, events, shape, stays⟩ := scope tx confined
      constructor
      · change Owner (some tx) (occurrence.run s.world).state.log
        rw [shape]
        refine ⟨List.mem_append_left _ belongs.owned.1, List.forall_mem_append.mpr ⟨?_, ?_⟩⟩
        · exact belongs.owned.2
        · exact fun event member => (stays event member).on
      · intro other live
        rw [kept other live]
      · exact belongs.unopened

theorem belongs_step {s after : RequestState} {occurrence : Occurrence}
    {owner : Option TransactionId} (belongs : s.Belongs owner)
    (step : RequestStep s occurrence after) :
    ∃ next, after.Belongs next ∧ (owner = none ∨ next = owner) := by
  cases step with
  | begins allowed =>
      cases belongs.unopened allowed
      have gone : s.world.rsc.tx = none := by
        cases live : s.world.rsc.tx with
        | none => rfl
        | some tx => exact absurd (belongs.confined tx live) nofun
      obtain ⟨events, next, shape, owned, confined⟩ := onBeginRequest_opens s.world gone
      refine ⟨next, ⟨?_, confined, nofun⟩, .inl rfl⟩
      dsimp only
      rw [shape]
      exact owned.after belongs.owned
  | follows other _ => exact ⟨owner, belongs_follows belongs other, .inr rfl⟩

theorem belongs_initial {s : RequestState} (start : requestSystem.initial s) :
    s.Belongs none := by
  obtain ⟨empty, released, _⟩ := start
  refine ⟨?_, ?_, fun _ => rfl⟩
  · rw [empty]
    exact List.forall_mem_nil _
  · intro tx live
    rw [released] at live
    cases live

end ModSecurityIIS
