import ModSecurityIIS.InspectOnly

/-!
# The end of a transaction

A transaction ends with `processLogging`, from an intervention, from the cleanup of the
stored context or, where the context could not be stored, from the handler that made it.
The callbacks of a request reach it through the stored context or through a local pointer
that is read from it.
-/

set_option autoImplicit false

namespace ModSecurityIIS

open Imperative Program Transition

def Event.Uses (tx : TransactionId) : Event → Prop
  | .engine other _ _ => other = tx
  | _ => False

/-- The end of a transaction. -/
def Event.finishes (tx : TransactionId) : Event → Bool
  | .engine other .processLogging _ => other == tx
  | _ => false

def Unlogged (tx : TransactionId) (log : List Event) : Prop :=
  ∀ event ∈ log, event.finishes tx = false

/-- No transaction is used after its end. -/
def FinalUse (log : List Event) : Prop :=
  log.Pairwise fun earlier later => ∀ tx, earlier.finishes tx = true → ¬ later.Uses tx

structure World.Usable (w : World) : Prop where
  final : FinalUse w.log
  live : ∀ tx, w.rsc.tx = some tx → Unlogged tx w.log

/-- What holds between two callbacks of a request. -/
structure World.Sound (w : World) : Prop extends w.Usable where
  handled : .setRequestHandled ∈ w.log → w.rsc.tx = none

theorem World.Sound.of_released {w : World} (final : FinalUse w.log) (gone : w.rsc.tx = none) :
    w.Sound := by
  refine ⟨⟨final, ?_⟩, fun _ => gone⟩
  intro tx live
  rw [gone] at live
  cases live

/-- An event that uses no other transaction than the given one and does not end it. -/
def Event.Serves (live : Option TransactionId) (event : Event) : Prop :=
  (∀ tx, event.Uses tx → live = some tx) ∧ (∀ tx, event.finishes tx = false) ∧
    event ≠ .setRequestHandled

theorem Event.Uses.of_finishes {tx : TransactionId} {event : Event}
    (finishes : event.finishes tx = true) : event.Uses tx := by
  cases event with
  | engine other call completed =>
      cases call with
      | processLogging => exact beq_iff_eq.mp finishes
      | _ => cases finishes
  | _ => cases finishes

theorem Event.Uses.tracked {tx : TransactionId} {event : Event} (uses : event.Uses tx) :
    event.Tracked := by
  cases event with
  | engine => trivial
  | _ => exact absurd uses id

theorem Event.serves_of_untracked {live : Option TransactionId} {event : Event}
    (untracked : ¬ event.Tracked) : event.Serves live := by
  cases event with
  | engine => exact absurd trivial untracked
  | setRequestHandled => exact absurd trivial untracked
  | _ => exact ⟨fun _ uses => absurd uses id, fun _ => rfl, by simp⟩

theorem Event.serves_call {tx : TransactionId} {call : EngineCall} {completed : Bool}
    (continues : call ≠ .processLogging) :
    (Event.engine tx call completed).Serves (some tx) := by
  refine ⟨fun other uses => congrArg some uses, fun other => ?_, by simp⟩
  cases call with
  | processLogging => exact absurd rfl continues
  | _ => rfl

theorem FinalUse.append {log events : List Event} {live : Option TransactionId}
    (final : FinalUse log) (unlogged : ∀ tx, live = some tx → Unlogged tx log)
    (serve : ∀ event ∈ events, ∀ tx, event.Uses tx → live = some tx) (own : FinalUse events) :
    FinalUse (log ++ events) := by
  apply List.pairwise_append.mpr
  refine ⟨final, own, ?_⟩
  intro earlier early later late tx finishes uses
  have running := unlogged tx (serve later late tx uses) earlier early
  rw [running] at finishes
  cases finishes

theorem World.Sound.serving {w after : World} (sound : w.Sound) (same : after.rsc.tx = w.rsc.tx)
    (logged : ∃ events, after.log = w.log ++ events ∧ ∀ event ∈ events, event.Serves w.rsc.tx) :
    after.Sound := by
  obtain ⟨events, shape, serve⟩ := logged
  constructor
  · constructor
    · rw [shape]
      apply sound.final.append sound.live (fun event member => (serve event member).1)
      apply List.pairwise_of_forall_mem_list
      intro earlier early later late tx finishes
      rw [(serve earlier early).2.1 tx] at finishes
      cases finishes
    · intro tx live event member
      rw [same] at live
      rw [shape] at member
      rcases List.mem_append.mp member with early | late
      · exact sound.live tx live event early
      · exact (serve event late).2.1 tx
  · intro member
    rw [shape] at member
    rw [same]
    rcases List.mem_append.mp member with early | late
    · exact sound.handled early
    · exact absurd rfl (serve _ late).2.2

def KeepsSound (w after : World) : Prop := w.Sound → after.Sound

instance : IsPreorder World KeepsSound where
  refl _ := id
  trans _ _ _ first second sound := second (first sound)

/-- From the given worlds, every run leaves a sound world. -/
def LeadsSound (pre : World → Prop) (w after : World) : Prop := pre w → after.Sound

theorem LeadsSound.andThen {α β : Type} {pre : World → Prop} {program : Program World α}
    {next : α → Program World β} (begins : Within (LeadsSound pre) program)
    (continues : ∀ value, Within KeepsSound (next value)) :
    Within (LeadsSound pre) (program >>= next) := by
  refine Within.seq begins continues ?_ ?_
  · exact fun _ _ _ sound keeps start => keeps (sound start)
  · exact fun _ _ sound => sound

def SameTransaction (a b : RequestStoredContext) : Prop := b.tx = a.tx

instance : IsPreorder RequestStoredContext SameTransaction where
  refl _ := rfl
  trans _ _ _ first second := second.trans first

/-- Steps that serve the given transaction. -/
abbrev Serving (live : Option TransactionId) : World → World → Prop :=
  Frame SameTransaction fun event => event.Serves live

/-- The context's transaction is the given one. -/
def World.Kept (tx : TransactionId) (w : World) : Prop := w.Sound ∧ w.rsc.tx = some tx

/-! ## The end -/

/-- What the finalisation of a context leaves: at most the end of its transaction and
releases were recorded, and the request's own state is as before. -/
structure Finalized (live : Option TransactionId) (w after : World) : Prop where
  context : after.rsc = w.rsc
  stored : after.stored = w.stored
  response : after.response = w.response
  logged : ∃ ends releases, after.log = w.log ++ (ends ++ releases) ∧
    (ends = [] ∨ ∃ tx completed, live = some tx ∧
      ends = [Event.engine tx .processLogging completed]) ∧
    ∀ event ∈ releases, ¬ event.Tracked ∧ ¬ event.Alters

theorem Finalized.refl (live : Option TransactionId) (w : World) : Finalized live w w :=
  ⟨rfl, rfl, rfl, [], [], by simp, .inl rfl, by simp⟩

theorem Finalized.released {live : Option TransactionId} {w middle after : World} {event : Event}
    (finalized : Finalized live w middle) (context : after.rsc = middle.rsc)
    (stored : after.stored = middle.stored) (response : after.response = middle.response)
    (log : after.log = middle.log ++ [event]) (release : ¬ event.Tracked ∧ ¬ event.Alters) :
    Finalized live w after := by
  obtain ⟨ends, releases, shape, ending, each⟩ := finalized.logged
  refine ⟨context.trans finalized.context, stored.trans finalized.stored,
    response.trans finalized.response, ends, releases ++ [event], ?_, ending, ?_⟩
  · rw [log, shape]
    simp only [List.append_assoc]
  · intro other member
    rcases List.mem_append.mp member with early | late
    · exact each other early
    · cases List.mem_singleton.mp late
      exact release

section Steps

variable {env : Env} {context : HttpContext}

theorem finalizeTransaction_apply (live : Option TransactionId) (w : World) :
    ∃ after, finalizeTransaction env live w = .returned () after ∧ Finalized live w after := by
  cases live with
  | none => exact ⟨w, rfl, .refl none w⟩
  | some tx =>
      have ended : Finalized (some tx) w (w.called env tx .processLogging) :=
        ⟨rfl, rfl, rfl, _, [], by rw [List.append_nil]; rfl, .inr ⟨tx, _, rfl, rfl⟩, by simp⟩
      rw [finalizeTransaction, tryCatch_apply, bind_apply, engineCall_apply]
      cases threw : env.throws w.tick with
      | true =>
          refine ⟨_, rfl, ended.context, ended.stored, ended.response, ended.logged⟩
      | false =>
          refine ⟨_, rfl, ended.released rfl rfl rfl rfl ⟨id, ?_⟩⟩
          simp [Event.Alters]

theorem finishContext_apply (rsc : RequestStoredContext) (w : World) :
    ∃ after, finishContext env rsc w = .returned { rsc with tx := none, rules := none } after ∧
      Finalized rsc.tx w after := by
  obtain ⟨middle, ran, finalized⟩ := @finalizeTransaction_apply env rsc.tx w
  rw [finishContext, bind_returned ran]
  cases rsc.rules with
  | none => exact ⟨middle, rfl, finalized⟩
  | some rules =>
      refine ⟨_, rfl, finalized.released rfl rfl rfl rfl ⟨id, ?_⟩⟩
      simp [Event.Alters]

/-- The end is the last use, whatever is released after it. -/
theorem Finalized.finalUse {live : Option TransactionId} {w after : World}
    (finalized : Finalized live w after) (final : FinalUse w.log)
    (unlogged : ∀ tx, live = some tx → Unlogged tx w.log) : FinalUse after.log := by
  obtain ⟨ends, releases, shape, ending, each⟩ := finalized.logged
  have unused : ∀ event ∈ releases, ∀ tx, ¬ event.Uses tx :=
    fun event member tx uses => (each event member).1 uses.tracked
  rw [shape]
  apply final.append unlogged
  · intro event member tx uses
    rcases List.mem_append.mp member with ended | released
    · rcases ending with rfl | ⟨other, completed, same, rfl⟩
      · cases ended
      · cases List.mem_singleton.mp ended
        cases uses
        exact same
    · exact absurd uses (unused event released tx)
  · apply List.pairwise_append.mpr
    refine ⟨?_, ?_, ?_⟩
    · rcases ending with rfl | ⟨other, completed, same, rfl⟩
      · exact List.Pairwise.nil
      · exact List.pairwise_singleton _ _
    · apply List.pairwise_of_forall_mem_list
      intro earlier early later late tx _
      exact unused later late tx
    · intro earlier early later late tx _
      exact unused later late tx

theorem finishRequest_sound {w : World} (usable : w.Usable) :
    ∃ after, finishRequest env w = .returned () after ∧ after.Sound ∧ after.rsc.tx = none := by
  obtain ⟨middle, ran, finalized⟩ := @finishContext_apply env w.rsc w
  refine ⟨{ middle with rsc := { w.rsc with tx := none, rules := none } }, ?_, ?_, rfl⟩
  · rw [finishRequest, bind_returned (get_apply w), bind_returned ran, modifyContext_apply]
  · exact .of_released (finalized.finalUse usable.final usable.live) rfl

/-! ## Interventions -/

variable {tx : TransactionId}

abbrev FromKept (tx : TransactionId) : World → World → Prop := LeadsSound (World.Kept tx)

theorem Serving.kept {w after : World} (frame : Serving (some tx) w after)
    (kept : w.Kept tx) : after.Kept tx := by
  obtain ⟨sound, live⟩ := kept
  refine ⟨sound.serving frame.context ?_, frame.context.trans live⟩
  rw [live]
  exact frame.logged

/-- First steps that serve the transaction, then a rest that may end it. -/
theorem FromKept.bind {α β : Type} {program : Program World α} {next : α → Program World β}
    (serves : Within (Serving (some tx)) program)
    (rest : ∀ value, Within (FromKept tx) (next value)) :
    Within (FromKept tx) (program >>= next) := by
  refine Within.seq serves rest ?_ ?_
  · intro s t u frame continued kept
    exact continued (frame.kept kept)
  · intro s t frame kept
    exact (frame.kept kept).1

theorem FromKept.of_serving {α : Type} {program : Program World α}
    (serves : Within (Serving (some tx)) program) : Within (FromKept tx) program :=
  serves.mono fun _ _ frame kept => (frame.kept kept).1

theorem engineCall_serving {call : EngineCall} (continues : call ≠ .processLogging) :
    Within (Serving (some tx)) (engineCall env tx call) :=
  engineCall_frame fun _ => Event.serves_call continues

theorem disrupt_fromKept {it : Intervention} :
    Within (FromKept tx) (disrupt env context tx it) := by
  have responds (op : ResponseOp) : (Event.response op).Serves (some tx) :=
    Event.serves_of_untracked id
  unfold disrupt
  split
  · apply FromKept.bind (respond_frame (responds _))
    intro _
    apply FromKept.bind (answerIntervention_frame it fun op _ => responds op)
    intro status
    apply FromKept.bind (engineCall_serving (by simp))
    intro _ w kept
    obtain ⟨sound, live⟩ := kept
    have usable : World.Usable
        { w with requestHandled := true, log := w.log ++ [.setRequestHandled] } := by
      constructor
      · apply sound.final.append sound.live
        · intro event member other uses
          cases List.mem_singleton.mp member
          cases uses
        · exact List.pairwise_singleton _ _
      · intro other same event member
        rcases List.mem_append.mp member with early | late
        · exact sound.live other same event early
        · cases List.mem_singleton.mp late
          rfl
    obtain ⟨after, ran, ended, _⟩ := @finishRequest_sound env _ usable
    change ((finishRequest env) _).state.Sound
    rw [ran]
    exact ended
  · apply FromKept.of_serving
    exact Within.halt _

theorem keepsSound_of_live {α : Type} {program : World → Program World α} {w : World}
    (idle : w.rsc.tx = none → KeepsSound w (program w w).state)
    (live : ∀ tx, w.rsc.tx = some tx → FromKept tx w (program w w).state) :
    KeepsSound w ((Program.get >>= program) w).state := by
  rw [bind_returned (get_apply w)]
  intro sound
  cases found : w.rsc.tx with
  | none => exact idle found sound
  | some tx => exact live tx found ⟨sound, found⟩

theorem applyIntervention_keepsSound (canBlock : Bool) :
    Within KeepsSound (applyIntervention env context canBlock) := by
  intro w
  apply keepsSound_of_live
  · intro gone
    rw [gone]
    exact id
  · intro tx live
    rw [live]
    apply FromKept.bind
      (pendingIntervention_frame env tx fun _ _ => Event.serves_call nofun)
    intro reported
    cases reported with
    | none => exact FromKept.of_serving (.pure _)
    | some it =>
        apply FromKept.bind (mayThrow_frame env)
        intro _
        split
        · exact LeadsSound.andThen disrupt_fromKept fun _ => Within.pure _
        · exact FromKept.of_serving (.pure _)

theorem contextCall_keepsSound {call : EngineCall} (continues : call ≠ .processLogging) :
    Within KeepsSound (contextCall env call) := by
  intro w
  apply keepsSound_of_live
  · intro gone
    rw [gone]
    exact id
  · intro tx live
    rw [live]
    exact FromKept.of_serving (engineCall_serving continues) w

theorem keepsSound_of_plain {w after : World} (same : after.rsc.tx = w.rsc.tx)
    (logged : ∃ events, after.log = w.log ++ events ∧ ∀ event ∈ events, ¬ event.Tracked) :
    KeepsSound w after := by
  intro sound
  apply sound.serving same
  obtain ⟨events, shape, each⟩ := logged
  exact ⟨events, shape, fun event member => Event.serves_of_untracked (each event member)⟩

theorem keepsSound_of_frame {α : Type} {program : Program World α}
    (within : Within (Frame SameTransaction fun event => ¬ event.Tracked) program) :
    Within KeepsSound program :=
  fun w => keepsSound_of_plain (within w).context (within w).logged

theorem bodySteps_keepsSound : BodySteps env context KeepsSound where
  plain _ _ plain := keepsSound_of_plain plain.context.1 plain.untracked
  appends _ := contextCall_keepsSound nofun
  evaluates := contextCall_keepsSound nofun
  intervenes := applyIntervention_keepsSound true

/-! ## The begin-request handler -/

/-- No transaction has been used. -/
def World.Silent (w : World) : Prop := ∀ event ∈ w.log, ¬ event.Tracked

structure World.Fresh (w : World) : Prop where
  released : w.rsc.tx = none
  silent : w.Silent

theorem World.Silent.unlogged {w : World} (silent : w.Silent) (tx : TransactionId) :
    Unlogged tx w.log := by
  intro event member
  apply Bool.eq_false_iff.mpr
  intro finishes
  exact silent event member (Event.Uses.of_finishes finishes).tracked

theorem World.Silent.finalUse {w : World} (silent : w.Silent) : FinalUse w.log := by
  apply List.pairwise_of_forall_mem_list
  intro earlier early later late tx finishes
  exact absurd (Event.Uses.of_finishes finishes).tracked (silent earlier early)

theorem World.Silent.kept {w : World} {tx : TransactionId} (silent : w.Silent)
    (live : w.rsc.tx = some tx) : w.Kept tx := by
  refine ⟨⟨⟨silent.finalUse, fun tx _ => silent.unlogged tx⟩, ?_⟩, live⟩
  intro handled
  exact absurd trivial (silent _ handled)

theorem World.Fresh.sound {w : World} (fresh : w.Fresh) : w.Sound :=
  .of_released fresh.silent.finalUse fresh.released

abbrev KeepsFresh (w after : World) : Prop := w.Fresh → after.Fresh

instance : IsPreorder World KeepsFresh where
  refl _ := id
  trans _ _ _ first second fresh := second (first fresh)

abbrev FromFresh : World → World → Prop := LeadsSound World.Fresh

theorem World.Fresh.kept {w after : World} (fresh : w.Fresh) (same : after.rsc.tx = w.rsc.tx)
    (logged : ∃ events, after.log = w.log ++ events ∧ ∀ event ∈ events, ¬ event.Tracked) :
    after.Fresh := by
  obtain ⟨events, shape, each⟩ := logged
  constructor
  · exact same.trans fresh.released
  · rw [World.Silent, shape]
    exact List.forall_mem_append.mpr ⟨fresh.silent, each⟩

theorem keepsFresh_of_frame {α : Type} {program : Program World α}
    (within : Within (Frame SameTransaction fun event => ¬ event.Tracked) program) :
    Within KeepsFresh program :=
  fun w fresh => fresh.kept (within w).context (within w).logged

theorem FromFresh.bind {α β : Type} {program : Program World α} {next : α → Program World β}
    (keeps : Within KeepsFresh program) (rest : ∀ value, Within FromFresh (next value)) :
    Within FromFresh (program >>= next) := by
  refine Within.seq keeps rest ?_ ?_
  · exact fun _ _ _ kept sound fresh => sound (kept fresh)
  · exact fun _ _ kept fresh => (kept fresh).sound

theorem FromFresh.of_keeps {α : Type} {program : Program World α}
    (keeps : Within KeepsFresh program) : Within FromFresh program :=
  keeps.mono fun _ _ kept fresh => (kept fresh).sound

theorem describeRequest_serving {tx : TransactionId} (req : HttpRequest) :
    Within (Serving (some tx)) (describeRequest env context req tx) := by
  apply describeRequest_frame env context req tx (fun _ _ => rfl)
  intro call completed describes
  apply Event.serves_call
  rintro rfl
  exact describes

theorem inspectRequest_fromKept {tx : TransactionId} (req : HttpRequest) :
    Within (FromKept tx) (inspectRequest env context req tx) := by
  have phase : Within (FromKept tx) (requestHeaderPhase env context req tx) := by
    apply FromKept.bind (describeRequest_serving req)
    intro _
    refine FromKept.bind (engineCall_serving (by simp)) fun _ => ?_
    exact (applyIntervention_keepsSound true).mono fun _ _ keeps kept => keeps kept.1
  have rest (blocked : Bool) : Within KeepsSound
      (if blocked then pure (.finish .rqNotificationFinishRequest)
      else do
        let status ← beginBodyRead env context
        pure (.finish status) : Program World BlockExit) := by
    split
    · exact Within.pure _
    · exact Within.bind (beginBodyRead_within bodySteps_keepsSound) fun _ => Within.pure _
  exact LeadsSound.andThen phase rest

/-- The context is stored with its transaction, or the request's own stays without one. -/
theorem setModuleContext_fresh {w : World} (fresh : w.Fresh) (rsc : RequestStoredContext) :
    ∃ shr after, setModuleContext env rsc w = .returned shr after ∧
      after.Silent ∧
      (shr.failed = true → after.Fresh) ∧ (shr.failed = false → after.rsc = rsc) := by
  obtain ⟨shr, after, ran, stores⟩ := setModuleContext_stores env rsc w
  refine ⟨shr, after, ran, ?_⟩
  cases stores with
  | assigned => exact ⟨fresh.silent, fun _ => fresh, nofun⟩
  | refused failed =>
      refine ⟨fresh.silent, fun _ => ⟨fresh.released, fresh.silent⟩, ?_⟩
      intro fine
      rw [failed] at fine
      cases fine
  | stored => exact ⟨fresh.silent, nofun, fun _ => rfl⟩

theorem openTransaction_fromFresh (config : ModsecurityStoredContext) (rules : RulesSet) :
    Within FromFresh (openTransaction env context config rules) := by
  apply FromFresh.bind (keepsFresh_of_frame (newTransaction_frame env fun _ => id))
  intro created
  cases created with
  | none => exact FromFresh.of_keeps (Within.pure _)
  | some tx =>
      apply FromFresh.bind (keepsFresh_of_frame (consult_frame _))
      intro allocated
      cases allocated with
      | false =>
          apply FromFresh.of_keeps
          exact Within.bind (keepsFresh_of_frame (record_frame id)) fun _ => Within.pure _
      | true =>
          intro w fresh
          rw [if_pos rfl]
          obtain ⟨shr, middle, ran, silent, refused, kept⟩ :=
            @setModuleContext_fresh env _ fresh
              { RequestStoredContext.new with
                tx := some tx
                rules := some rules
                responseBodyBlock := config.responseBodyBlock }
          rw [bind_returned ran]
          cases failed : shr.failed with
          | true =>
              obtain ⟨after, ended, finalized⟩ := @finishContext_apply env
                { RequestStoredContext.new with
                  tx := some tx
                  rules := some rules
                  responseBodyBlock := config.responseBodyBlock } middle
              have closed : after.Sound := by
                apply World.Sound.of_released
                · exact finalized.finalUse silent.finalUse fun tx _ => silent.unlogged tx
                · rw [finalized.context]
                  exact (refused failed).released
              rw [if_pos rfl, bind_returned ended]
              split <;> exact closed
          | false =>
              have opened : middle.Kept tx := by
                apply silent.kept
                rw [kept failed]
              rw [if_neg Bool.false_ne_true]
              cases context.rawRequest with
              | none => exact opened.1
              | some req => exact inspectRequest_fromKept req middle opened

theorem beginRequestBlock_fromFresh :
    Within FromFresh (beginRequestBlock env (some context)) := by
  have plain {w after : World} (early : Plain w after) : KeepsFresh w after :=
    fun fresh => fresh.kept early.context.1 early.untracked
  apply beginRequestBlock_within
  · exact fun _ _ early fresh => (plain early fresh).sound
  · exact fun _ _ _ early sound fresh => sound (plain early fresh)
  · exact openTransaction_fromFresh

theorem onBeginRequest_fromFresh : Within FromFresh (onBeginRequest env (some context)) := by
  have recovers : Within KeepsSound (do
      reportException env "OnBeginRequest"
      pure (BlockExit.finish .rqNotificationFinishRequest)) :=
    Within.bind (keepsSound_of_frame (reportException_frame env _)) fun _ => Within.pure _
  refine LeadsSound.andThen (Within.recover beginRequestBlock_fromFresh recovers ?_ ?_)
    fun _ => Within.pure _
  · exact fun _ _ _ sound keeps fresh => keeps (sound fresh)
  · exact fun _ _ sound => sound

/-! ## The send-response handler -/

theorem responseBodyBlockingEnabled_keepsSound :
    Within KeepsSound (responseBodyBlockingEnabled env) := by
  intro w
  apply keepsSound_of_live
  · intro gone
    rw [gone]
    exact id
  · intro tx live
    rw [live]
    cases w.rsc.rules with
    | none => exact fun kept => kept.1
    | some rules =>
        refine FromKept.of_serving ?_ w
        dsimp only
        split
        · refine Within.bind (consult_frame _) fun state => ?_
          exact Within.bind (engineCall_serving (by simp)) fun _ => Within.pure _
        · exact Within.pure _

theorem evaluateBody_keepsSound : Within KeepsSound (evaluateBody env) := by
  refine Within.bind (keepsSound_of_frame (modifyContext_frame fun _ => rfl)) fun _ => ?_
  exact contextCall_keepsSound nofun

variable {notification : SendResponse}

theorem bodyPhase_fromKept {tx : TransactionId} :
    Within (FromKept tx) (bodyPhase env context notification tx) := by
  apply FromKept.bind (inspectChunks_frame (fun _ _ => Event.serves_call nofun) _)
  intro respInspected
  have replaces : Within KeepsSound (modeA env context notification respInspected) := by
    apply modeA_within responseBodyBlockingEnabled_keepsSound
    · exact keepsSound_of_frame (modifyContext_frame fun _ => rfl)
    · exact keepsSound_of_frame (pinContentLength_frame fun _ _ => id)
    · exact evaluateBody_keepsSound
    · exact applyIntervention_keepsSound true
  have detects : Within KeepsSound (modeB env context notification) :=
    modeB_within responseBodyBlockingEnabled_keepsSound evaluateBody_keepsSound
      (applyIntervention_keepsSound false)
  have modes := modes_within replaces detects
  exact modes.mono fun _ _ keeps kept => keeps kept.1

theorem headerPhase_fromKept {tx : TransactionId} :
    Within (FromKept tx) (headerPhase env context notification tx) := by
  apply FromKept.bind Within.get
  intro w
  split
  · exact FromKept.of_serving (Within.pure _)
  · unfold feedResponseHeaders
    apply FromKept.bind (addKnownHeaders_frame _ _ fun _ _ _ => Event.serves_call (by simp))
    intro _
    apply FromKept.bind (addUnknownHeaders_frame _ fun _ _ _ => Event.serves_call (by simp))
    intro _
    apply FromKept.bind (mayThrow_frame env)
    intro _
    apply FromKept.bind Within.get
    intro w
    apply LeadsSound.andThen (FromKept.of_serving (engineCall_serving (by simp)))
    intro _
    refine Within.bind responseBodyBlockingEnabled_keepsSound fun blocking => ?_
    refine Within.bind (applyIntervention_keepsSound blocking) fun blocked => ?_
    split
    · exact Within.pure _
    · refine Within.bind ?_ fun _ => Within.pure _
      exact keepsSound_of_frame (modifyContext_frame fun _ => rfl)

theorem inspectSend_fromKept {tx : TransactionId} :
    Within (FromKept tx) (inspectSend env context notification tx) := by
  intro w kept
  have sound := @headerPhase_fromKept env context notification _ w kept
  rw [inspectSend, bind_apply]
  cases ran : headerPhase env context notification tx w with
  | thrown middle => rw [ran] at sound; exact sound
  | halted reason middle => rw [ran] at sound; exact sound
  | returned finished middle =>
      rw [ran] at sound
      cases finished with
      | true => exact sound
      | false =>
          have held := (headerPhase_returned ran).1
          apply bodyPhase_fromKept middle
          refine ⟨sound, ?_⟩
          rw [held]
          exact kept.2

theorem onSendResponse_keepsSound : Within KeepsSound (onSendResponse env context notification) := by
  intro w
  by_cases inspects : w.Inspects context notification
  · obtain ⟨tx, live⟩ := Option.ne_none_iff_exists'.mp inspects.2.1
    rw [onSendResponse_of_inspects inspects live]
    have fails : Within KeepsSound (failSend env context) :=
      keepsSound_of_frame (failSend_frame id env context)
    have handles : Within (FromKept tx)
        (Program.tryCatch (inspectSend env context notification tx) (failSend env context)) := by
      refine Within.recover inspectSend_fromKept fails ?_ ?_
      · exact fun _ _ _ sound keeps kept => keeps (sound kept)
      · exact fun _ _ sound => sound
    exact fun sound => handles w ⟨sound, live⟩
  · rw [onSendResponse_of_not_inspects inspects]
    exact id

theorem finishRequest_keepsSound : Within KeepsSound (finishRequest env) := by
  intro w sound
  obtain ⟨after, ran, ended, _⟩ := @finishRequest_sound env _ sound.toUsable
  rw [ran]
  exact ended

end Steps

/-! ## The callbacks of a request -/

inductive Callback where
  | beginRequest
  | asyncCompletion (completion : Option (Nat × HResult))
  | readCompleted
  | sendResponse (notification : SendResponse)
  | postEndRequest
  | cleanupStoredContext

/-- One callback, with the answers it meets. -/
structure Occurrence where
  env : Env
  context : HttpContext
  callback : Callback

/-- The release of the context has no status; it stands as one that continues. -/
def Occurrence.run (occurrence : Occurrence) : Program World NotificationStatus :=
  match occurrence.callback with
  | .beginRequest => onBeginRequest occurrence.env (some occurrence.context)
  | .asyncCompletion completion =>
      onAsyncCompletion occurrence.env (some occurrence.context) completion
  | .readCompleted => completeRead occurrence.env occurrence.context
  | .sendResponse notification =>
      raiseSendResponse occurrence.env occurrence.context notification
  | .postEndRequest => onPostEndRequest
  | .cleanupStoredContext => do
      cleanupStoredContext occurrence.env
      pure .rqNotificationContinue

/-- The response as IIS shows it to the callback. -/
def Callback.shows (w : World) : Callback → HttpResponse
  | .sendResponse notification => notification.response
  | _ => w.response

structure RequestState where
  world : World
  begun : Bool

/-- A request begins once, and a read completes while one pends. -/
def RequestState.Allows (s : RequestState) : Callback → Prop
  | .beginRequest => s.begun = false
  | .readCompleted => s.world.outstanding ≠ none
  | _ => True

inductive RequestStep : RequestState → Occurrence → RequestState → Prop where
  | begins {s : RequestState} {env : Env} {context : HttpContext} :
      s.Allows .beginRequest →
      RequestStep s ⟨env, context, .beginRequest⟩
        ⟨(onBeginRequest env (some context) s.world).state, true⟩
  | follows {s : RequestState} {occurrence : Occurrence} :
      occurrence.callback ≠ .beginRequest → s.Allows occurrence.callback →
      RequestStep s occurrence ⟨(occurrence.run s.world).state, s.begun⟩

def requestSystem : System RequestState Occurrence where
  initial s := s.world.log = [] ∧ s.world.rsc.tx = none ∧ s.begun = false
  step := RequestStep

/-- What a callback leaves alone when the request has no transaction. -/
structure PassesBy (callback : Callback) (w after : World) : Prop where
  released : after.rsc.tx = none
  response : after.response = callback.shows w
  logged : ∃ events, after.log = w.log ++ events ∧
    ∀ event ∈ events, ¬ event.Tracked ∧ ¬ event.Alters

theorem PassesBy.silent {callback : Callback} {w after : World} (released : after.rsc.tx = none)
    (response : after.response = callback.shows w) (log : after.log = w.log) :
    PassesBy callback w after :=
  ⟨released, response, [], by rw [log, List.append_nil], by simp⟩

theorem onAsyncCompletion_released {env : Env} {context : HttpContext} {w : World}
    (released : w.rsc.tx = none) (completion : Option (Nat × HResult)) :
    onAsyncCompletion env (some context) completion w =
      .returned .rqNotificationContinue w := by
  cases completion with
  | none => rfl
  | some completed =>
      rw [onAsyncCompletion, bind_returned (get_apply w), if_pos (.inr released)]
      rfl

theorem finishRequest_released {env : Env} {w : World} (released : w.rsc.tx = none) :
    ∃ after, finishRequest env w = .returned () after ∧
      PassesBy .cleanupStoredContext w after := by
  obtain ⟨middle, ran, finalized⟩ := @finishContext_apply env w.rsc w
  obtain ⟨ends, releases, shape, ending, each⟩ := finalized.logged
  refine ⟨{ middle with rsc := { w.rsc with tx := none, rules := none } }, ?_, ?_⟩
  · rw [finishRequest, bind_returned (get_apply w), bind_returned ran, modifyContext_apply]
  · rcases ending with rfl | ⟨tx, completed, live, _⟩
    · exact ⟨rfl, finalized.response, releases, shape, each⟩
    · rw [released] at live
      cases live

theorem Occurrence.passes {s : RequestState} (released : s.world.rsc.tx = none)
    (occurrence : Occurrence) (follows : occurrence.callback ≠ .beginRequest)
    (allowed : s.Allows occurrence.callback) :
    ∃ after, occurrence.run s.world = .returned .rqNotificationContinue after ∧
      PassesBy occurrence.callback s.world after := by
  obtain ⟨env, context, callback⟩ := occurrence
  cases callback with
  | beginRequest => exact absurd rfl follows
  | asyncCompletion completion =>
      exact ⟨_, onAsyncCompletion_released released completion, .silent released rfl rfl⟩
  | readCompleted =>
      obtain ⟨completion, pends⟩ := Option.ne_none_iff_exists'.mp allowed
      have delivered : completeRead env context s.world = onAsyncCompletion env (some context)
          (some (completion.bytes.length, completion.status))
          { s.world with
            outstanding := none
            rsc := { s.world.rsc with
              readBuf := writeBuffer s.world.rsc.readBuf completion.bytes } } := by
        rw [completeRead, bind_returned (get_apply _), pends]
        rfl
      refine ⟨_, delivered.trans (onAsyncCompletion_released ?_ _), .silent ?_ rfl rfl⟩
      · exact released
      · exact released
  | sendResponse notification =>
      refine ⟨s.world.raised notification, ?_, .silent released rfl rfl⟩
      apply onSendResponse_of_not_inspects
      exact fun inspects => inspects.2.1 released
  | postEndRequest => exact ⟨_, rfl, .silent released rfl rfl⟩
  | cleanupStoredContext =>
      obtain ⟨after, ran, passed⟩ := @finishRequest_released env _ released
      unfold Occurrence.run cleanupStoredContext
      dsimp only
      cases stored : s.world.stored with
      | false =>
          refine ⟨s.world, ?_, .silent released rfl rfl⟩
          rw [bind_apply, bind_returned (get_apply _), stored]
          rfl
      | true =>
          refine ⟨{ after with stored := false }, ?_, passed.released, passed.response,
            passed.logged⟩
          rw [bind_apply, bind_returned (get_apply _), stored, when_true, bind_returned ran]
          rfl

theorem Occurrence.run_keepsSound (occurrence : Occurrence)
    (follows : occurrence.callback ≠ .beginRequest) : Within KeepsSound occurrence.run := by
  obtain ⟨env, context, callback⟩ := occurrence
  cases callback with
  | beginRequest => exact absurd rfl follows
  | asyncCompletion completion => exact onAsyncCompletion_within bodySteps_keepsSound completion
  | readCompleted => exact completeRead_within bodySteps_keepsSound
  | sendResponse notification =>
      refine Within.bind ?_ fun _ => onSendResponse_keepsSound
      exact fun w => keepsSound_of_plain rfl ⟨[], (List.append_nil _).symm, by simp⟩
  | postEndRequest => exact Within.pure _
  | cleanupStoredContext =>
      refine Within.bind (Within.bind Within.get fun w => ?_) fun _ => Within.pure _
      apply Within.when
      intro _
      refine Within.bind finishRequest_keepsSound fun _ => ?_
      exact fun w => keepsSound_of_plain rfl ⟨[], (List.append_nil _).symm, by simp⟩

/-- What every run keeps. -/
structure RequestState.Valid (s : RequestState) : Prop where
  sound : s.world.Sound
  fresh : s.begun = false → s.world.Fresh

theorem valid_step {s after : RequestState} {occurrence : Occurrence} (valid : s.Valid)
    (step : RequestStep s occurrence after) : after.Valid := by
  cases step with
  | begins allowed =>
      constructor
      · exact onBeginRequest_fromFresh _ (valid.fresh allowed)
      · nofun
  | follows other allowed =>
      constructor
      · exact occurrence.run_keepsSound other _ valid.sound
      · intro unbegun
        have fresh := valid.fresh unbegun
        obtain ⟨after, ran, passed⟩ := occurrence.passes fresh.released other allowed
        obtain ⟨events, shape, each⟩ := passed.logged
        rw [ran]
        constructor
        · exact passed.released
        · intro event member
          change event ∈ after.log at member
          rw [shape] at member
          rcases List.mem_append.mp member with early | late
          · exact fresh.silent event early
          · exact (each event late).1

theorem valid_of_reachable {s : RequestState} (reached : requestSystem.Reachable s) :
    s.Valid := by
  apply System.Reachable.invariant _ _ reached
  · rintro state ⟨empty, released, unbegun⟩
    have fresh : state.world.Fresh := by
      refine ⟨released, ?_⟩
      intro event member
      rw [empty] at member
      cases member
    exact ⟨fresh.sound, fun _ => fresh⟩
  · exact fun _ _ _ valid step => valid_step valid step

theorem FinalUse.finishes_once {log : List Event} (final : FinalUse log) (tx : TransactionId) :
    log.countP (Event.finishes tx) ≤ 1 := by
  induction log with
  | nil => simp
  | cons event rest ih =>
      obtain ⟨first, later⟩ := List.pairwise_cons.mp final
      rw [List.countP_cons]
      split
      · next finishes =>
          have none_later : rest.countP (Event.finishes tx) = 0 := by
            rw [List.countP_eq_zero]
            intro other member again
            exact first other member tx finishes (Event.Uses.of_finishes again)
          omega
      · exact ih later

/-- A transaction ends once and is not used after its end, and after an intervention every
later callback continues and leaves the response alone. -/
theorem transaction_used_until_end {s : RequestState} (reached : requestSystem.Reachable s) :
    FinalUse s.world.log ∧ (∀ tx, s.world.log.countP (Event.finishes tx) ≤ 1) ∧
      (.setRequestHandled ∈ s.world.log → s.begun = true ∧
        ∀ occurrence : Occurrence, s.Allows occurrence.callback →
          ∃ after, occurrence.run s.world = .returned .rqNotificationContinue after ∧
            after.response = occurrence.callback.shows s.world ∧
            ∃ events, after.log = s.world.log ++ events ∧ ∀ event ∈ events, ¬ event.Alters) := by
  have valid := valid_of_reachable reached
  refine ⟨valid.sound.final, fun tx => valid.sound.final.finishes_once tx, fun handled => ?_⟩
  have begun : s.begun = true := by
    cases unbegun : s.begun with
    | true => rfl
    | false => exact absurd trivial ((valid.fresh unbegun).silent _ handled)
  refine ⟨begun, ?_⟩
  intro occurrence allowed
  have follows : occurrence.callback ≠ .beginRequest := by
    intro begins
    rw [begins] at allowed
    cases begun.symm.trans allowed
  obtain ⟨after, ran, passed⟩ := occurrence.passes (valid.sound.handled handled) follows allowed
  obtain ⟨events, shape, each⟩ := passed.logged
  exact ⟨after, ran, passed.response, events, shape, fun event member => (each event member).2⟩

/-- A request that is denied on its headers, and then a send. -/
theorem transaction_used_until_end_denied : ∃ s after, requestSystem.Reachable s ∧
    s.world.log.countP (Event.finishes 0) = 1 ∧ FinalUse s.world.log ∧
      raiseSendResponse Env.calm .plain (.flush [.twoBytes] false) s.world =
        .returned .rqNotificationContinue after ∧
      after.response = (SendResponse.flush [.twoBytes] false).response := by
  have start : requestSystem.Reachable { world := World.arrived [] [], begun := false } :=
    .start ⟨rfl, rfl, rfl⟩
  have denied : ∃ s : RequestState, requestSystem.Reachable s ∧
      .setRequestHandled ∈ s.world.log ∧ s.world.log.countP (Event.finishes 0) = 1 :=
    ⟨_, start.step (@RequestStep.begins _ Raised.denied.env .plain rfl), by decide +kernel,
      by decide +kernel⟩
  obtain ⟨s, reached, handled, ended⟩ := denied
  obtain ⟨final, few, later⟩ := transaction_used_until_end reached
  obtain ⟨after, ran, response, _⟩ :=
    (later handled).2 ⟨.calm, .plain, .sendResponse (.flush [.twoBytes] false)⟩ trivial
  exact ⟨s, after, reached, ended, final, ran, response⟩

end ModSecurityIIS
