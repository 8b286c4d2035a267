import ModSecurityIIS.BeginRequestProperties
import ModSecurityIIS.BodyDrain

/-!
# The begin-request stage

The stage with asynchronous reads ends as the stage with synchronous reads does,
so what holds of the plain loop holds of every course of the completions.
-/

set_option autoImplicit false

namespace ModSecurityIIS

open Imperative Program

section Agreement

variable {env : Env} {context : HttpContext}

theorem Ready.modified {w : World} (ready : Ready w)
    {f : RequestStoredContext → RequestStoredContext} (tx : (f w.rsc).tx = w.rsc.tx)
    (state : (f w.rsc).bodyReadState = w.rsc.bodyReadState) : Ready { w with rsc := f w.rsc } :=
  ⟨ready.stored, tx.trans_ne ready.live, state.trans ready.idle, ready.quiet⟩

/-- `BeginBodyRead` with the completions it waits for agrees with the synchronous
`BeginBodyRead`. -/
theorem beginBodyRead_agrees (request : context.requestPresent = true) {bound : Nat} :
    Couples (fun w => Ready w ∧ w.reads.length ≤ bound) (beginBodyRead env.synchronous context)
      (beginBodyRead env context >>= awaitBody env context bound) Agrees := by
  have allocates : Ensures (fun w => Ready w ∧ w.reads.length ≤ bound) (mayThrow env)
      (fun _ w => Ready w ∧ w.reads.length ≤ bound) fun _ => True := by
    intro w start
    rw [mayThrow_apply]
    split
    · exact trivial
    · exact ⟨⟨start.1.stored, start.1.live, start.1.idle, start.1.quiet⟩, start.2⟩
  have modifies {f : RequestStoredContext → RequestStoredContext}
      (kept : ∀ rsc, (f rsc).tx = rsc.tx ∧ (f rsc).bodyReadState = rsc.bodyReadState) :
      Ensures (fun w => Ready w ∧ w.reads.length ≤ bound) (modifyContext f)
        (fun _ w => Ready w ∧ w.reads.length ≤ bound) fun _ => True :=
    fun w start => ⟨start.1.modified (kept w.rsc).1 (kept w.rsc).2, start.2⟩
  have reserves (test : Bool) :
      Ensures (fun w => Ready w ∧ w.reads.length ≤ bound) (when test (mayThrow env))
        (fun _ w => Ready w ∧ w.reads.length ≤ bound) fun _ => True := by
    cases test with
    | true => exact allocates
    | false => exact .pure fun _ holds => holds
  unfold beginBodyRead
  split
  · simp only [bind_assoc]
    refine Couples.bind _ (modifies fun _ => ⟨rfl, rfl⟩) (fun _ _ => .inl rfl)
      (fun _ _ => .inl rfl) fun _ => ?_
    refine Couples.bind _ allocates (fun _ _ => .inl rfl) (fun _ _ => .inl rfl) fun _ => ?_
    refine Couples.bind _ (modifies fun _ => ⟨rfl, rfl⟩) (fun _ _ => .inl rfl)
      (fun _ _ => .inl rfl) fun _ => ?_
    refine Couples.bind _ (reserves (0 < (getEntityBodyInfo context.rawRequest).length))
      (fun _ _ => .inl rfl) (fun _ _ => .inl rfl) fun _ => ?_
    intro w start
    have agrees := @pumpLoop_agrees env context request w start.1 bound _ rfl start.2
    simpa only [pumpBodyRead, request, ↓reduceIte, bind_apply, get_apply] using agrees
  · intro w start
    rw [bind_apply]
    change Agrees (finishBodyRead env context w) _
    cases run : finishBodyRead env context w with
    | thrown after => exact .inl rfl
    | halted reason after => exact .inl rfl
    | returned status after =>
        simp only
        rw [awaitBody_of_ne_pending ((finishBodyRead_status env context).returned trivial run)]
        exact .inl rfl

theorem completeRead_not_thrown (w s : World) : completeRead env context w ≠ .thrown s := by
  intro run
  rw [completeRead, bind_returned (get_apply _)] at run
  cases waiting : w.outstanding with
  | none => rw [waiting] at run; cases run
  | some completion =>
      rw [waiting] at run
      simp only at run
      rw [bind_returned (modify_apply _ _), onAsyncCompletion, bind_returned (get_apply _)] at run
      split at run
      · cases run
      · split at run
        · rw [bind_returned (exchangeBodyReadState_apply _ _), tryCatch_apply] at run
          split at run
          next after _ =>
            obtain ⟨entry, reported⟩ := reportException_apply env "OnAsyncCompletion" after
            rw [bind_returned reported] at run
            cases run
          next => cases run
          next => cases run
        · cases run

theorem awaitBody_not_thrown (bound : Nat) (status : NotificationStatus) (w s : World) :
    awaitBody env context bound status w ≠ .thrown s := by
  induction bound generalizing status w with
  | zero =>
      intro run
      cases status <;> cases run
  | succ bound ih =>
      cases status with
      | rqNotificationContinue =>
          intro run
          cases run
      | rqNotificationFinishRequest =>
          intro run
          cases run
      | rqNotificationPending =>
          rw [awaitBody, bind_apply]
          cases run : completeRead env context w with
          | returned next after => exact ih next after
          | thrown after => exact absurd run (completeRead_not_thrown w after)
          | halted reason after =>
              intro halted
              cases halted

theorem awaitBody_more {bound more : Nat} (le : bound ≤ more) {status final : NotificationStatus}
    {w after : World} (run : awaitBody env context bound status w = .returned final after)
    (decided : final ≠ .rqNotificationPending) :
    awaitBody env context more status w = .returned final after := by
  induction bound generalizing status w more with
  | zero =>
      have same : final = status := by cases status <;> · cases run; rfl
      rw [awaitBody_of_ne_pending (same ▸ decided)]
      rwa [awaitBody_of_ne_pending (same ▸ decided)] at run
  | succ bound ih =>
      obtain ⟨more, rfl⟩ : ∃ m, more = m + 1 := ⟨more - 1, by omega⟩
      cases status with
      | rqNotificationContinue => exact run
      | rqNotificationFinishRequest => exact run
      | rqNotificationPending =>
          rw [awaitBody] at run ⊢
          obtain ⟨next, middle, completed, rest⟩ := bind_eq_returned run
          rw [bind_returned completed]
          exact ih (Nat.le_of_succ_le_succ le) rest

/-! ## The stage -/

def SameButEventLog (w other : World) : Prop := other = { w with eventLog := other.eventLog }

/-- Both runs return the same status in worlds that differ in nothing but the event
log, or both halt. -/
inductive EndsAlike :
    Outcome World NotificationStatus → Outcome World NotificationStatus → Prop where
  | returned {status : NotificationStatus} {w other : World} :
      SameButEventLog w other → EndsAlike (.returned status w) (.returned status other)
  | halted {reason : Halt} {w : World} : EndsAlike (.halted reason w) (.halted reason w)

theorem BlockExit.Early.decided {start : World} {exit : BlockExit}
    (early : exit.Early env context start) : exit.status ≠ .rqNotificationPending := by
  cases exit with
  | finish status => rw [BlockExit.status, early]; simp
  | leave hr =>
      change (if hr.failed then _ else _) ≠ _
      split <;> simp

theorem BlockExit.Early.of_continue {start : World} {exit : BlockExit}
    (early : exit.Early env context start) (continues : exit.status = .rqNotificationContinue) :
    ¬ Protected env context start := by
  cases exit with
  | finish status =>
      rw [BlockExit.status, early] at continues
      cases continues
  | leave hr =>
      refine early ?_
      cases failed : hr.failed with
      | false => rfl
      | true => simp [BlockExit.status, failed] at continues

theorem EndsAlike.eq_of_returned {status final : NotificationStatus} {w other : World}
    (alike : EndsAlike (.returned status w) (.returned final other)) :
    status = final ∧ SameButEventLog w other := by
  cases alike with
  | returned same => exact ⟨rfl, same⟩

/-- The handler that catches what the block throws. -/
def caughtBeginRequest (env : Env) (block : Outcome World BlockExit) :
    Outcome World NotificationStatus :=
  match block with
  | .returned exit after => .returned exit.status after
  | .thrown after =>
      (do
        reportException env "OnBeginRequest"
        pure NotificationStatus.rqNotificationFinishRequest) after
  | .halted reason after => .halted reason after

theorem onBeginRequest_apply (handled : Option HttpContext) (w : World) :
    onBeginRequest env handled w = caughtBeginRequest env (beginRequestBlock env handled w) := by
  rw [onBeginRequest, bind_apply, tryCatch_apply]
  cases beginRequestBlock env handled w <;> rfl

theorem caughtBeginRequest_synchronous :
    caughtBeginRequest env.synchronous = caughtBeginRequest env := rfl

theorem caughtBeginRequest_returned (exit : BlockExit) (w : World) :
    caughtBeginRequest env (.returned exit w) = .returned exit.status w := rfl

theorem caughtBeginRequest_thrown (env : Env) (w : World) :
    ∃ entry, caughtBeginRequest env (.thrown w) =
      .returned .rqNotificationFinishRequest { w with eventLog := w.eventLog ++ [entry] } := by
  obtain ⟨entry, reported⟩ := reportException_apply env "OnBeginRequest" w
  refine ⟨entry, ?_⟩
  simp only [caughtBeginRequest]
  rw [bind_returned reported]
  rfl

/-- The body read inside the handler. -/
def caughtBodyRead (env : Env) (context : HttpContext) : Program World NotificationStatus :=
  fun w => caughtBeginRequest env
    ((beginBodyRead env context >>= fun status => pure (.finish status)) w)

/-- The body read inside the handler, up to the completions it waits for. -/
theorem caught_bodyRead_agrees (request : context.requestPresent = true) {w : World}
    (ready : Ready w) {bound : Nat} (enough : w.reads.length ≤ bound) :
    EndsAlike
      (caughtBeginRequest env
        ((beginBodyRead env.synchronous context >>= fun status => pure (.finish status)) w))
      ((caughtBodyRead env context >>= awaitBody env context bound) w) := by
  rw [bind_apply (caughtBodyRead env context)]
  unfold caughtBodyRead
  have agrees := @beginBodyRead_agrees env context request bound w ⟨ready, enough⟩
  cases async : beginBodyRead env context w with
  | returned status after =>
      rw [bind_returned async] at agrees
      rw [bind_returned async, pure_apply, caughtBeginRequest_returned]
      rcases agrees with same | ⟨s, entry, thrown, awaited⟩
      · cases awaited : awaitBody env context bound status after with
        | returned final last =>
            rw [bind_returned (same.symm.trans awaited)]
            simp only [BlockExit.status, awaited]
            exact .returned rfl
        | thrown last => exact absurd awaited (awaitBody_not_thrown _ _ _ _)
        | halted reason last =>
            rw [bind_halted (same.symm.trans awaited)]
            simp only [BlockExit.status, awaited]
            exact .halted
      · obtain ⟨other, reported⟩ := caughtBeginRequest_thrown env s
        rw [bind_thrown thrown, reported]
        simp only [BlockExit.status, awaited]
        exact .returned rfl
  | thrown after =>
      rw [bind_thrown async] at agrees
      obtain ⟨entry, reported⟩ := caughtBeginRequest_thrown env after
      rcases agrees with same | ⟨_, _, _, impossible⟩
      · rw [bind_thrown same.symm, bind_thrown async, reported]
        simp only
        rw [awaitBody_of_ne_pending (by simp)]
        exact .returned rfl
      · cases impossible
  | halted reason after =>
      rw [bind_halted async] at agrees
      rcases agrees with same | ⟨_, _, _, impossible⟩
      · rw [bind_halted same.symm, bind_halted async]
        exact .halted
      · cases impossible

/-- The body read inside the handler, with any number of completions that brings it to
a decision. -/
theorem caughtBodyRead_run (request : context.requestPresent = true) {w final : World}
    (ready : Ready w) {tx : TransactionId} (current : w.rsc.tx = some tx) {bound : Nat}
    {status : NotificationStatus}
    (run : (caughtBodyRead env context >>= awaitBody env context bound) w =
      .returned status final) (decided : status ≠ .rqNotificationPending) :
    BodyRun env (getEntityBodyInfo context.rawRequest) tx w final := by
  have complete : (caughtBodyRead env context >>=
      awaitBody env context (max bound w.reads.length)) w = .returned status final := by
    obtain ⟨handled, after, ran, awaited⟩ := bind_eq_returned run
    rw [bind_returned ran]
    exact awaitBody_more (Nat.le_max_left _ _) awaited decided
  have alike := @caught_bodyRead_agrees env context request w ready _
    (Nat.le_max_right bound w.reads.length)
  have reads := beginBodyRead_satisfies env request current
  rw [complete] at alike
  cases read : beginBodyRead env.synchronous context w with
  | returned result after =>
      rw [read] at reads
      rw [bind_returned read, pure_apply, caughtBeginRequest_returned] at alike
      rw [alike.eq_of_returned.2]
      exact reads.1
  | thrown after =>
      obtain ⟨entry, reported⟩ := caughtBeginRequest_thrown env after
      rw [read] at reads
      rw [bind_thrown read, reported] at alike
      rw [alike.eq_of_returned.2]
      exact reads
  | halted reason after =>
      rw [bind_halted read] at alike
      cases alike

/-- The stage with the given reads ends as the handler with synchronous reads,
which has nothing to wait for. -/
theorem beginRequestStage_agrees (request : context.requestPresent = true) {start : World}
    (quiet : start.outstanding = none) {bound : Nat} (enough : start.reads.length ≤ bound) :
    EndsAlike (onBeginRequest env.synchronous (some context) start)
      (beginRequestStage env context bound start) := by
  have course := @beginRequestBlock_couples env context start quiet request start rfl
  rw [beginRequestStage, bind_apply, onBeginRequest_apply, onBeginRequest_apply]
  generalize beginRequestBlock env.synchronous (some context) start = left at course ⊢
  generalize beginRequestBlock env (some context) start = right at course ⊢
  cases course with
  | early satisfied =>
      cases left with
      | returned exit after =>
          simp only [caughtBeginRequest_returned]
          rw [awaitBody_of_ne_pending (satisfied.2.decided)]
          exact .returned rfl
      | thrown after =>
          obtain ⟨entry, reported⟩ := caughtBeginRequest_thrown env after
          rw [caughtBeginRequest_synchronous, reported]
          simp only
          rw [awaitBody_of_ne_pending (by simp)]
          exact .returned rfl
      | halted reason after => exact .halted
  | reading atBody =>
      rw [caughtBeginRequest_synchronous]
      have answered := enough
      rw [← atBody.reads] at answered
      exact @caught_bodyRead_agrees env context request _ atBody.ready bound answered

/-- How a stage that has decided on a request leaves the world. -/
inductive StageResult (env : Env) (context : HttpContext) (start : World)
    (status : NotificationStatus) (final : World) : Prop where
  /-- The body was not looked at. -/
  | early :
      BeforeBody start final →
      (status = .rqNotificationContinue → ¬ Protected env context start) →
      StageResult env context start status final
  /-- The body was read from `w` on. -/
  | reading {tx : TransactionId} {w : World} :
      AtBody start tx w →
      BodyRun env (getEntityBodyInfo context.rawRequest) tx w final →
      (status = .rqNotificationContinue →
        LetThrough env (getEntityBodyInfo context.rawRequest) tx w final) →
      StageResult env context start status final

theorem StageResult.of_same {start w final : World} {status : NotificationStatus}
    (result : StageResult env context start status w) (same : SameButEventLog w final) :
    StageResult env context start status final := by
  rw [same]
  cases result with
  | early before bypassed => exact .early ⟨before.entity, before.reads, before.logged⟩ bypassed
  | reading atBody run through =>
      refine .reading atBody ?_ fun lets => ?_
      · exact run
      · obtain ⟨s, drained, passedOn⟩ := through lets
        exact ⟨s, drained, passedOn.stored, passedOn.context, passedOn.entity, passedOn.log⟩

/-- The synchronous handler. -/
theorem onBeginRequest_synchronous_result (request : context.requestPresent = true)
    {start final : World} (quiet : start.outstanding = none) {status : NotificationStatus}
    (run : onBeginRequest env.synchronous (some context) start = .returned status final) :
    StageResult env context start status final := by
  have course := @beginRequestBlock_couples env context start quiet request start rfl
  rw [onBeginRequest_apply] at run
  generalize beginRequestBlock env.synchronous (some context) start = left at course run
  generalize beginRequestBlock env (some context) start = right at course
  cases course with
  | early satisfied =>
      cases left with
      | returned exit after =>
          rw [caughtBeginRequest_returned] at run
          cases run
          exact .early satisfied.1 satisfied.2.of_continue
      | thrown after =>
          obtain ⟨entry, reported⟩ := caughtBeginRequest_thrown env.synchronous after
          rw [reported] at run
          cases run
          have before : BeforeBody start after := satisfied
          exact .early ⟨before.entity, before.reads, before.logged⟩ nofun
      | halted reason after => cases run
  | @reading tx w atBody =>
      have reads := beginBodyRead_satisfies env request atBody.current
      cases read : beginBodyRead env.synchronous context w with
      | returned result after =>
          rw [read] at reads
          rw [bind_returned read, pure_apply, caughtBeginRequest_returned] at run
          cases run
          exact .reading atBody reads.1 reads.2
      | thrown after =>
          obtain ⟨entry, reported⟩ := caughtBeginRequest_thrown env.synchronous after
          rw [read] at reads
          rw [bind_thrown read, reported] at run
          cases run
          exact .reading atBody reads nofun
      | halted reason after =>
          rw [bind_halted read] at run
          cases run

/-- The stage, with any number of completions that brings it to a decision. -/
theorem beginRequestStage_result (request : context.requestPresent = true) {start final : World}
    (quiet : start.outstanding = none) {bound : Nat} {status : NotificationStatus}
    (run : beginRequestStage env context bound start = .returned status final)
    (decided : status ≠ .rqNotificationPending) :
    StageResult env context start status final := by
  have complete : beginRequestStage env context (max bound start.reads.length) start =
      .returned status final := by
    obtain ⟨handled, after, ran, awaited⟩ := bind_eq_returned run
    rw [beginRequestStage, bind_returned ran]
    exact awaitBody_more (Nat.le_max_left _ _) awaited decided
  have alike := @beginRequestStage_agrees env context request start quiet _
    (Nat.le_max_right bound start.reads.length)
  rw [complete] at alike
  cases synchronous : onBeginRequest env.synchronous (some context) start with
  | returned other w =>
      rw [synchronous] at alike
      obtain ⟨rfl, same⟩ := alike.eq_of_returned
      exact (onBeginRequest_synchronous_result request quiet synchronous).of_same same
  | thrown w => rw [synchronous] at alike; cases alike
  | halted reason w => rw [synchronous] at alike; cases alike

end Agreement

end ModSecurityIIS
