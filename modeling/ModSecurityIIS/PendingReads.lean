import ModSecurityIIS.ClaimProtocol
import ModSecurityIIS.CrashFreedom
import ModSecurityIIS.RequestStage

/-!
# Waiting for a read

A callback that returns `RQ_NOTIFICATION_PENDING` tells IIS to suspend the request until a
completion comes. It must do so exactly when a read of its own is outstanding, and the
completion must find what it needs to go on.
-/

set_option autoImplicit false

namespace ModSecurityIIS

open Imperative Program Transition

/-- No read is outstanding. -/
def World.Resting (w : World) : Prop := w.outstanding = none

/-- A read may be issued for the transaction of the stored context. -/
structure World.Reading (w : World) : Prop where
  resting : w.Resting
  stored : w.stored = true
  live : w.rsc.tx ≠ none

/-- A completion that comes is claimed for the transaction. -/
structure World.Awaits (w : World) : Prop where
  published : w.rsc.bodyReadState = .readPending
  stored : w.stored = true
  live : w.rsc.tx ≠ none

/-- IIS is told to wait exactly when there is something to wait for. -/
structure Handshake (status : NotificationStatus) (w : World) : Prop where
  waits : status = .rqNotificationPending ↔ w.outstanding ≠ none
  awaits : w.outstanding ≠ none → w.Awaits

/-- A status other than pending, and no read to wait for. -/
structure Decided (status : NotificationStatus) (w : World) : Prop where
  decided : status ≠ .rqNotificationPending
  resting : w.Resting

theorem Decided.handshake {status : NotificationStatus} {w : World} (ends : Decided status w) :
    Handshake status w := by
  have resting : w.outstanding = none := ends.resting
  exact ⟨by simp [ends.decided, resting], by simp [resting]⟩

/-- The outcome of a chunk: the status of the request, or another read. -/
def Consumed (consumed : Option NotificationStatus) (w : World) : Prop :=
  match consumed with
  | some status => Decided status w
  | none => w.Reading

section Steps

variable {α : Type} {env : Env} {context : HttpContext}

theorem resting_leaves {program : Program World α}
    (within : Within (Frame (fun _ _ => True) fun _ => True) program) :
    Leaves World.Resting program (fun _ => World.Resting) World.Resting :=
  Leaves.of_within within fun _ _ resting frame => frame.outstanding.trans resting

theorem reading_leaves {program : Program World α}
    (within : Within (Frame SameTracking fun _ => True) program) :
    Leaves World.Reading program (fun _ => World.Reading) World.Resting := by
  have leaves : Leaves World.Reading program (fun _ => World.Reading) World.Reading := by
    refine Leaves.of_within within fun _ _ reading frame => ⟨?_, ?_, ?_⟩
    · exact frame.outstanding.trans reading.resting
    · exact frame.stored.trans reading.stored
    · rw [frame.context.1]
      exact reading.live
  exact leaves.consequence (fun _ reading => reading) (fun _ _ reading => reading)
    fun _ reading => reading.resting

theorem decided_leaves {program : Program World NotificationStatus}
    (rests : Leaves World.Resting program (fun _ => World.Resting) World.Resting)
    (decides : Ensures (fun _ => True) program (fun status _ => status ≠ .rqNotificationPending)
      fun _ => True) :
    Leaves World.Resting program Decided World.Resting := by
  have decided : Ensures World.Resting program
      (fun status _ => status ≠ .rqNotificationPending) fun _ => True :=
    decides.consequence (fun _ _ => trivial) (fun _ _ decided => decided) fun _ _ => trivial
  exact (rests.and decided).consequence (fun _ resting => resting)
    (fun _ _ ends => ⟨ends.2, ends.1⟩) fun _ resting => resting

/-- An intervention that lets the request pass leaves it its transaction. -/
theorem applyIntervention_leaves :
    Leaves World.Reading (applyIntervention env context true)
      (fun blocked w => w.Resting ∧ (blocked = false → w.Reading)) World.Resting := by
  intro w reading
  have rests : Leaves (fun s => s = w) (applyIntervention env context true)
      (fun _ => World.Resting) World.Resting :=
    .at reading.resting (resting_leaves (applyIntervention_frame env context true
      (fun _ => trivial) fun _ _ => trivial))
  have passes : Ensures (fun s => s = w) (applyIntervention env context true)
      (fun blocked after => blocked = false → Undisturbed w after) fun _ => True :=
    (applyIntervention_false env context w).consequence
      (fun _ same => by rw [same]; exact refl_of Undisturbed w) (fun _ _ ends => ends)
      fun _ _ => trivial
  refine ((rests.and passes).consequence (fun _ same => same) ?_ fun _ rests => rests) w rfl
  intro blocked after ends
  refine ⟨ends.1, fun passed => ?_⟩
  have undisturbed := ends.2 passed
  exact ⟨ends.1, undisturbed.stored.trans reading.stored,
    by rw [← undisturbed.context]; exact reading.live⟩

/-! ## The read of the body -/

theorem finishBodyRead_leaves :
    Leaves World.Resting (finishBodyRead env context) Decided World.Resting := by
  have quiet : Within (Quietly fun _ _ => True) (finishBodyRead env context) :=
    finishBodyRead_quietly (fun _ => trivial) env context
  refine decided_leaves ?_ (finishBodyRead_status env context)
  exact Leaves.of_within quiet fun _ _ resting quietly => quietly.outstanding.trans resting

theorem logCapReached_frame : Within (Frame (fun _ _ => True) fun _ => True) logCapReached := by
  intro w
  obtain ⟨logged, entries, applied⟩ := logCapReached_apply w
  rw [applied]
  exact ⟨rfl, rfl, rfl, rfl, trivial, [], (List.append_nil _).symm, by simp⟩

theorem consumeBodyChunk_leaves (read : Nat) (hr : HResult) :
    Leaves World.Reading (consumeBodyChunk env context read hr) Consumed World.Resting := by
  have appends : Leaves World.Reading (appendChunk env read) (fun _ => World.Reading)
      World.Resting := by
    refine reading_leaves (.when fun _ => .bind (mayThrow_frame env) fun _ => ?_)
    exact modifyContext_frame fun _ => ⟨rfl, rfl, rfl⟩
  refine .bind _ appends fun _ => .seen fun w reading => ?_
  cases stopReason env w.rsc read hr with
  | none => exact .at reading (.pure fun _ still => still)
  | some reason =>
      refine .at reading.resting ?_
      refine .bind _ (resting_leaves (.when fun _ => logCapReached_frame)) fun _ => ?_
      refine .bind _ (resting_leaves (modifyContext_frame fun _ => trivial)) fun _ => ?_
      exact .bind _ finishBodyRead_leaves fun _ => .pure fun _ decided => decided

/-- A read that does not pend is over when the call returns. -/
theorem readEntityBody_leaves (async : Bool) :
    Leaves (fun w => w.Reading ∧ (async = true → w.rsc.bodyReadState = .readPending))
      (readEntityBody async)
      (fun result w => if async && result.pending then w.outstanding ≠ none ∧ w.Awaits
        else w.Reading) World.Resting := by
  intro w issuing
  obtain ⟨reading, published⟩ := issuing
  unfold readEntityBody
  cases w.reads with
  | nil => exact ⟨trivial, reading.resting⟩
  | cons answer rest =>
      by_cases pends : (async && answer.pended) = true
      · have asynchronous : async = true := (Bool.and_eq_true_iff.mp pends).1
        simp only [if_pos pends, Bool.and_true, if_pos asynchronous]
        exact ⟨by simp, published asynchronous, reading.stored, reading.live⟩
      · simp only [if_neg pends, Bool.and_false]
        exact ⟨reading.resting, reading.stored, reading.live⟩

theorem pumpLoop_leaves (bound : Nat) :
    Leaves World.Reading (pumpLoop env context bound) Handshake World.Resting := by
  induction bound with
  | zero => exact .halt trivial fun _ reading => reading.resting
  | succ bound ih =>
      have publishes : Leaves World.Reading
          (Program.when (bodyReadsAsync env) (exchangeBodyReadState .readPending))
          (fun _ w => w.Reading ∧
            (bodyReadsAsync env = true → w.rsc.bodyReadState = .readPending)) World.Resting := by
        cases bodyReadsAsync env with
        | true =>
            exact .modify fun w reading =>
              ⟨⟨reading.resting, reading.stored, reading.live⟩, fun _ => rfl⟩
        | false => exact .pure fun w reading => ⟨reading, by simp⟩
      refine .bind _ publishes fun _ => ?_
      refine .bind _ (readEntityBody_leaves _) fun result => ?_
      split
      · refine .pure fun w pends => ?_
        exact ⟨by simp [pends.1], fun _ => pends.2⟩
      · refine .bind _ (reading_leaves (.when fun _ =>
          modifyContext_frame fun _ => ⟨rfl, rfl, rfl⟩)) fun _ => ?_
        refine .bind _ (consumeBodyChunk_leaves _ _) fun consumed => ?_
        cases consumed with
        | some status => exact .pure fun _ decided => Decided.handshake decided
        | none => exact ih

theorem finishBodyRead_handshake :
    Leaves World.Reading (finishBodyRead env context) Handshake World.Resting :=
  finishBodyRead_leaves.consequence (fun _ reading => reading.resting)
    (fun _ _ decided => decided.handshake) fun _ resting => resting

theorem pumpBodyRead_leaves :
    Leaves World.Reading (pumpBodyRead env context) Handshake World.Resting := by
  refine .seen fun w reading => .at reading ?_
  split
  · exact pumpLoop_leaves _
  · exact .bind _ (reading_leaves (modifyContext_frame fun _ => ⟨rfl, rfl, rfl⟩))
      fun _ => finishBodyRead_handshake

theorem beginBodyRead_leaves :
    Leaves World.Reading (beginBodyRead env context) Handshake World.Resting := by
  unfold beginBodyRead
  split
  · refine .bind _ (reading_leaves (modifyContext_frame fun _ => ⟨rfl, rfl, rfl⟩)) fun _ => ?_
    refine .bind _ (reading_leaves (mayThrow_frame env)) fun _ => ?_
    refine .bind _ (reading_leaves (modifyContext_frame fun _ => ⟨rfl, rfl, rfl⟩)) fun _ => ?_
    refine .bind _ (reading_leaves (.when fun _ => mayThrow_frame env)) fun _ => ?_
    exact pumpBodyRead_leaves
  · exact finishBodyRead_handshake

/-- The server holds the completion no longer when it delivers it. -/
theorem onAsyncCompletion_leaves (completion : Option (Nat × HResult)) :
    Leaves World.Resting (onAsyncCompletion env (some context) completion) Handshake
      World.Resting := by
  have passes : Leaves World.Resting
      (pure .rqNotificationContinue : Program World NotificationStatus) Handshake World.Resting :=
    .pure fun _ resting => Decided.handshake ⟨by simp, resting⟩
  cases completion with
  | none => exact passes
  | some completed =>
      refine .seen fun w resting => ?_
      by_cases gone : w.stored = false ∨ w.rsc.tx = none
      · rw [if_pos gone]
        exact .at resting passes
      rw [if_neg gone]
      split
      · have reading : w.Reading := by
          refine ⟨resting, ?_, fun none => gone (.inr none)⟩
          simpa using fun unstored => gone (.inl unstored)
        refine .at reading (.bind _
          (reading_leaves (modifyContext_frame fun _ => ⟨rfl, rfl, rfl⟩)) fun _ => ?_)
        refine .tryCatch ?_ ?_ fun _ resting => resting
        · refine .bind _ (consumeBodyChunk_leaves _ _) fun consumed => ?_
          cases consumed with
          | some status => exact .pure fun _ decided => Decided.handshake decided
          | none => exact pumpBodyRead_leaves
        · refine .bind _ (resting_leaves (reportException_frame env _)) fun _ => ?_
          exact .pure fun _ resting => Decided.handshake ⟨by simp, resting⟩
      · exact .at resting passes

/-- What becomes of a completion that is claimed. -/
def consumeCompletion (env : Env) (context : HttpContext) (completion : Completion) :
    Program World NotificationStatus := do
  exchangeBodyReadState .idle
  Program.tryCatch (continueRead env context completion.bytes.length completion.status) (do
    reportException env "OnAsyncCompletion"
    pure .rqNotificationFinishRequest)

theorem World.Awaits.claims {w : World} (awaits : w.Awaits) {completion : Completion}
    (arriving : w.outstanding = some completion) (env : Env) (context : HttpContext) :
    completeRead env context w =
      consumeCompletion env context completion (w.delivered completion) := by
  have tracked : ¬ ((w.delivered completion).stored = false ∨
      (w.delivered completion).rsc.tx = none) := by
    simp [World.delivered, awaits.stored, awaits.live]
  have published : (w.delivered completion).rsc.bodyReadState = .readPending := awaits.published
  rw [completeRead, bind_returned (get_apply w), arriving]
  change onAsyncCompletion env (some context) _ (w.delivered completion) = _
  rw [onAsyncCompletion, bind_returned (get_apply _), if_neg tracked, if_pos published]
  rfl

theorem completeRead_leaves :
    Leaves (fun _ => True) (completeRead env context) Handshake World.Resting := by
  refine .seen fun w _ => ?_
  cases arriving : w.outstanding with
  | none => exact .halt trivial fun _ same => by rw [same]; exact arriving
  | some completion =>
      refine .bind (fun _ => World.Resting) (.modify fun _ _ => rfl) fun _ => ?_
      exact onAsyncCompletion_leaves _

/-! ## The begin-request handler -/

theorem exit_pure {exit : BlockExit} (decided : exit.status ≠ .rqNotificationPending) :
    Leaves World.Resting (pure exit : Program World BlockExit)
      (fun exit => Handshake exit.status) World.Resting :=
  .pure fun _ resting => Decided.handshake ⟨decided, resting⟩

theorem leave_pure (hr : HResult) :
    Leaves World.Resting (pure (.leave hr) : Program World BlockExit)
      (fun exit => Handshake exit.status) World.Resting := by
  refine exit_pure ?_
  change (if hr.failed then _ else _) ≠ _
  split <;> simp

/-- The block is left before a read could be issued. -/
theorem early_leaves {program : Program World BlockExit}
    (within : Within (Frame (fun _ _ => True) fun _ => True) program)
    (early : ∀ start, Ensures (Untouched start) program (EarlyExit env context start)
      (BeforeBody start)) :
    Leaves World.Resting program (fun exit => Handshake exit.status) World.Resting := by
  intro w resting
  have decides : Ensures (fun s => s = w) program
      (fun exit _ => exit.status ≠ .rqNotificationPending) fun _ => True :=
    (early w).consequence (fun _ same => by rw [same]; exact refl_of Untouched w)
      (fun _ _ ends => ends.2.decided) fun _ _ => trivial
  exact ((Exits.at resting (resting_leaves within)).and decides).consequence (fun _ same => same)
    (fun _ _ ends => Decided.handshake ⟨ends.2, ends.1⟩) (fun _ rests => rests) w rfl

theorem inspectRequest_handshake (req : HttpRequest) (tx : TransactionId) :
    Leaves World.Reading (inspectRequest env context req tx)
      (fun exit => Handshake exit.status) World.Resting := by
  have describes : Leaves World.Reading (requestHeaderPhase env context req tx)
      (fun blocked w => w.Resting ∧ (blocked = false → w.Reading)) World.Resting := by
    refine .bind _ (reading_leaves (describeRequest_frame env context req tx
      (fun _ _ => ⟨rfl, rfl, rfl⟩) fun _ _ _ => trivial)) fun _ => ?_
    refine .bind _ (reading_leaves (engineCall_frame fun _ => trivial)) fun _ => ?_
    exact applyIntervention_leaves
  refine .bind _ describes fun blocked => ?_
  cases blocked with
  | true =>
      exact (exit_pure (by simp [BlockExit.status])).consequence (fun _ ends => ends.1)
        (fun _ _ ends => ends) fun _ resting => resting
  | false =>
      have reads : Leaves World.Reading (beginBodyRead env context) Handshake World.Resting :=
        beginBodyRead_leaves
      refine .bind _ (reads.consequence (fun _ ends => ends.2 rfl) (fun _ _ ends => ends)
        fun _ resting => resting) fun _ => ?_
      exact .pure fun _ handshake => handshake

theorem setModuleContext_leaves {rsc : RequestStoredContext} (live : rsc.tx ≠ none) :
    Leaves World.Resting (setModuleContext env rsc)
      (fun shr w => w.Resting ∧ (shr.failed = false → w.Reading)) World.Resting := by
  intro w resting
  obtain ⟨shr, after, ran, stores⟩ := setModuleContext_stores env rsc w
  rw [ran]
  cases stores with
  | assigned _ => exact ⟨resting, fun passed => absurd passed (by decide)⟩
  | refused failed _ =>
      refine ⟨resting, fun passed => ?_⟩
      rw [failed] at passed
      cases passed
  | stored => exact ⟨resting, fun _ => ⟨resting, rfl, live⟩⟩

theorem openTransaction_handshake (config : ModsecurityStoredContext) (rules : RulesSet) :
    Leaves World.Resting (openTransaction env context config rules)
      (fun exit => Handshake exit.status) World.Resting := by
  refine .bind _ (resting_leaves (newTransaction_frame env fun _ => trivial)) fun created => ?_
  cases created with
  | none => exact leave_pure _
  | some tx =>
      refine .bind _ (resting_leaves (consult_frame _)) fun allocated => ?_
      split
      · refine .bind _ (setModuleContext_leaves (by simp)) fun shr => ?_
        cases failed : shr.failed with
        | true =>
            have finishes (rsc : RequestStoredContext) :
                Leaves World.Resting (finishContext env rsc) (fun _ => World.Resting)
                  World.Resting :=
              resting_leaves (finishContext_frame env rsc fun _ _ => trivial)
            refine .bind (fun _ => World.Resting) ((finishes _).consequence
              (fun _ ends => ends.1) (fun _ _ ends => ends) fun _ resting => resting) fun _ => ?_
            split
            · exact leave_pure _
            · exact leave_pure _
        | false =>
            cases context.rawRequest with
            | none =>
                exact (leave_pure _).consequence (fun _ ends => ends.1) (fun _ _ ends => ends)
                  fun _ resting => resting
            | some req =>
                exact (inspectRequest_handshake req tx).consequence (fun _ ends => ends.2 rfl)
                  (fun _ _ ends => ends) fun _ resting => resting
      · exact .bind _ (resting_leaves (record_frame trivial)) fun _ => leave_pure _

theorem onBeginRequest_handshake :
    Leaves World.Resting (onBeginRequest env (some context)) Handshake World.Resting := by
  have protects (config : ModsecurityStoredContext) :
      Leaves World.Resting (protectRequest env context config)
        (fun exit => Handshake exit.status) World.Resting := by
    unfold protectRequest
    split
    · split
      · exact leave_pure _
      · refine .bind _ (resting_leaves (mayThrow_frame env)) fun _ => ?_
        refine .bind _ (resting_leaves (getRules_frame env _)) fun loaded => ?_
        cases loaded.rules with
        | none =>
            exact early_leaves (rulesFailed_frame trivial env context _ _)
              fun _ => rulesFailed_early _ _
        | some rules => exact openTransaction_handshake config rules
    · exact leave_pure _
  have block : Leaves World.Resting (beginRequestBlock env (some context))
      (fun exit => Handshake exit.status) World.Resting := by
    rw [beginRequestBlock]
    split
    · refine .bind _ (resting_leaves (getConfig_frame env context)) fun result => ?_
      split
      · exact early_leaves (configFailed_frame trivial env context) fun _ => configFailed_early
      · cases result.config with
        | none => exact .halt trivial fun _ resting => resting
        | some config => exact protects config
    · exact leave_pure _
  refine .bind (fun exit => Handshake exit.status) ?_ fun _ => .pure fun _ handshake => handshake
  refine .tryCatch block ?_ fun _ resting => resting
  exact .bind _ (resting_leaves (reportException_frame env _))
    fun _ => exit_pure (by simp [BlockExit.status])

/-! ## The other callbacks -/

theorem onSendResponse_status (notification : SendResponse) :
    Ensures (fun _ => True) (onSendResponse env context notification)
      (fun status _ => status ≠ .rqNotificationPending) fun _ => True := by
  have finishes {post : NotificationStatus} (decided : post ≠ .rqNotificationPending) :
      Ensures (fun _ => True) (pure post : Program World NotificationStatus)
        (fun status _ => status ≠ .rqNotificationPending) fun _ => True :=
    .pure fun _ _ => decided
  have block : Ensures (fun _ => True) (sendResponseBlock env context notification)
      (fun status _ => status ≠ .rqNotificationPending) fun _ => True := by
    refine .skip (fun _ => trivial) fun w => ?_
    split
    · exact finishes (by simp)
    · split
      · refine .skip (fun _ => trivial) fun finished => ?_
        split
        · exact finishes (by simp)
        · refine .skip (fun _ => trivial) fun respInspected => ?_
          refine .skip (fun _ => trivial) fun replaced => ?_
          split
          · exact finishes (by simp)
          · exact .skip (fun _ => trivial) fun _ => finishes (by simp)
      · exact finishes (by simp)
  refine .tryCatch block ?_
  refine .skip (fun _ => trivial) fun _ => .skip (fun _ => trivial) fun w => ?_
  split
  · exact .skip (fun _ => trivial) fun _ => finishes (by simp)
  · exact finishes (by simp)

theorem onSendResponse_rests (notification : SendResponse) :
    Leaves World.Resting (onSendResponse env context notification) Handshake World.Resting := by
  have changes : ResponseChanges fun _ _ => True :=
    ⟨fun _ => trivial, fun _ => trivial, fun _ => trivial, fun _ => trivial⟩
  have ends : Leaves World.Resting (onSendResponse env context notification) Decided
      World.Resting :=
    decided_leaves (resting_leaves (onSendResponse_frame changes (fun _ _ => trivial) env context
      notification)) (onSendResponse_status notification)
  exact ends.consequence (fun _ resting => resting) (fun _ _ decided => decided.handshake)
    fun _ resting => resting

theorem cleanupStoredContext_rests :
    Leaves World.Resting (cleanupStoredContext env) (fun _ => World.Resting) World.Resting := by
  refine .seen fun w resting => .at resting (.when fun _ => ?_)
  refine .bind _ (resting_leaves (finishRequest_frame env (fun _ => trivial) fun _ _ => trivial))
    fun _ => ?_
  exact .modify fun _ resting => resting

end Steps

/-! ## Every run -/

/-- While a read is outstanding, IIS has suspended the request: the completion of the read
comes next. -/
def RequestState.Suspends (s : RequestState) (occurrence : Occurrence) : Prop :=
  s.world.outstanding ≠ none → occurrence.callback = .readCompleted

theorem Occurrence.run_handshake {s : RequestState} {occurrence : Occurrence}
    (suspends : s.Suspends occurrence) :
    Leaves (fun w => w = s.world) occurrence.run Handshake World.Resting := by
  obtain ⟨env, context, callback⟩ := occurrence
  have resting (other : callback ≠ .readCompleted) : s.world.Resting := by
    by_contra outstanding
    exact other (suspends outstanding)
  cases callback with
  | beginRequest => exact .at (resting (by simp)) onBeginRequest_handshake
  | asyncCompletion completion =>
      exact .at (resting (by simp)) (onAsyncCompletion_leaves completion)
  | readCompleted => exact .at trivial completeRead_leaves
  | sendResponse notification =>
      refine .at (resting (by simp)) (.bind (fun _ => World.Resting) ?_ fun _ => ?_)
      · exact .modify fun _ resting => resting
      · exact onSendResponse_rests notification
  | postEndRequest =>
      exact .at (resting (by simp)) (.pure fun _ resting => Decided.handshake ⟨by simp, resting⟩)
  | cleanupStoredContext =>
      refine .at (resting (by simp)) (.bind _ cleanupStoredContext_rests fun _ => ?_)
      exact .pure fun _ resting => Decided.handshake ⟨by simp, resting⟩

theorem awaits_of_reaches {start s : RequestState} (resting : start.world.Resting)
    (reached : (requestSystem.startingAt start).Reaches RequestState.Suspends s)
    (outstanding : s.world.outstanding ≠ none) : s.world.Awaits := by
  have after {state : RequestState} {occurrence : Occurrence}
      (suspends : state.Suspends occurrence)
      (outstanding : (occurrence.run state.world).state.outstanding ≠ none) :
      (occurrence.run state.world).state.Awaits := by
    have awaits : Leaves (fun w => w = state.world) occurrence.run
        (fun _ w => w.outstanding ≠ none → w.Awaits) fun w => w.outstanding ≠ none → w.Awaits :=
      (Occurrence.run_handshake suspends).consequence (fun _ same => same)
        (fun _ _ handshake => handshake.awaits) fun _ rests pends => absurd rests pends
    exact awaits.state rfl outstanding
  refine @System.Reaches.invariant _ _ _ _
    (fun state => state.world.outstanding ≠ none → state.world.Awaits) ?_ ?_ _ reached outstanding
  · intro state same pends
    rw [same] at pends
    exact absurd resting pends
  · intro state occurrence next _ suspends step
    cases step with
    | begins _ => exact after suspends
    | follows _ _ => exact after suspends

/-- In every run in which IIS raises nothing but the completion while a read is outstanding, a
callback tells it to wait exactly when it leaves a read outstanding, and the completion of
that read is never turned away. -/
theorem pending_iff_reading {start s : RequestState} (resting : start.world.outstanding = none)
    (reached : (requestSystem.startingAt start).Reaches RequestState.Suspends s) :
    (∀ occurrence : Occurrence, s.Suspends occurrence → ∀ status after,
        occurrence.run s.world = .returned status after →
          (status = .rqNotificationPending ↔ after.outstanding ≠ none)) ∧
      ∀ completion, s.world.outstanding = some completion → ∀ env context,
        completeRead env context s.world =
          consumeCompletion env context completion (s.world.delivered completion) := by
  constructor
  · intro occurrence suspends status after ran
    have handshake := Occurrence.run_handshake suspends s.world rfl
    rw [ran] at handshake
    exact handshake.waits
  · intro completion arriving env context
    have awaits := awaits_of_reaches resting reached (by simp [arriving])
    exact awaits.claims arriving env context

/-- The first read pends; its completion is claimed, and the second read pends in turn. -/
theorem pending_iff_reading_twoReads : ∃ (s : RequestState) (after : World),
    s.world.outstanding = some ⟨[1], .sOk⟩ ∧
      consumeCompletion .raced .plain ⟨[1], .sOk⟩ (s.world.delivered ⟨[1], .sOk⟩) =
        .returned .rqNotificationPending after ∧ after.outstanding ≠ none := by
  have pended : ∃ s : RequestState, (requestSystem.startingAt
      ⟨World.arrived [1, 2] [⟨1, .sOk, true⟩, ⟨1, .sOk, true⟩], false⟩).Reaches
        RequestState.Suspends s ∧ s.world.outstanding = some ⟨[1], .sOk⟩ ∧
          (completeRead .raced .plain s.world).value = some .rqNotificationPending := by
    refine ⟨_, .next (.start rfl) ?_ (@RequestStep.begins _ .raced .plain rfl), by decide +kernel,
      by decide +kernel⟩
    exact fun outstanding => absurd rfl outstanding
  obtain ⟨s, reached, arriving, value⟩ := pended
  obtain ⟨after, ran⟩ := Outcome.exists_returned value
  obtain ⟨waits, claims⟩ := pending_iff_reading rfl reached
  have second : after.outstanding ≠ none :=
    (waits ⟨.raced, .plain, .readCompleted⟩ (fun _ => rfl) _ _ ran).mp rfl
  exact ⟨s, after, arriving, (claims _ arriving .raced .plain).symm.trans ran, second⟩

end ModSecurityIIS
