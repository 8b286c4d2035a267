import ModSecurityIIS.SendResponseCases

/-!
# Committed responses

Once a flush is on its way to the client the response must stay as it is. That holds
when every flush with MORE_DATA closes the request for blocking: its headers were fed,
and either nothing could block it or the handler degraded it to inspection.
-/

set_option autoImplicit false

namespace ModSecurityIIS

open Imperative Program Transition

/-- Mode A may still block the response, as far as the request's context tells. -/
def RequestStoredContext.Armed (rsc : RequestStoredContext) : Prop :=
  rsc.responseBodyBlock = true ∧
    (∃ rules, rsc.rules = some rules ∧ rules.secResponseBodyAccess = .trueConfigBoolean) ∧
    rsc.responseBodyEvaluated = false

/-- No later notification of the request can change its response. -/
def RequestStoredContext.Closed (rsc : RequestStoredContext) : Prop :=
  rsc.responseHeadersFed = true ∧ ¬ rsc.Armed

def World.Sealed (w : World) (context : HttpContext) : Prop :=
  context.responsePresent = false ∨ w.stored = false ∨ w.rsc.tx = none ∨ w.rsc.Closed

/-- Changes of the response: `Clear`, `SetStatus`, `Redirect` and `SetHeader`. -/
def Event.Touches : Event → Prop
  | .response _ => True
  | _ => False

/-- Since the first flush was committed no event has touched the response. -/
def ResponseState.Untouched (s : ResponseState) : Prop :=
  ∀ earlier, s.committed = some earlier →
    ∃ later, s.world.log = earlier ++ later ∧ ∀ event ∈ later, ¬ event.Touches

/-! ## A closed request stays closed and its response untouched -/

def KeepsClosed (a b : RequestStoredContext) : Prop := a.Closed → b.Closed

instance : IsPreorder RequestStoredContext KeepsClosed where
  refl _ := id
  trans _ _ _ first second closed := second (first closed)

theorem responseChanges_keepsClosed : ResponseChanges KeepsClosed where
  fed _ closed := ⟨rfl, closed.2⟩
  degraded _ closed := ⟨closed.1, fun armed => absurd armed.1 (by simp)⟩
  evaluated _ closed := ⟨closed.1, fun armed => absurd armed.2.2 (by simp)⟩
  released _ closed := ⟨closed.1, fun armed => by obtain ⟨_, ⟨_, found, _⟩, _⟩ := armed; cases found⟩

/-- From a closed context on, the response is left alone. -/
def Muted (w after : World) : Prop :=
  w.rsc.Closed → Frame KeepsClosed (fun event => ¬ event.Touches) w after

instance : IsPreorder World Muted where
  refl w _ := refl_of (Frame KeepsClosed fun event => ¬ event.Touches) w
  trans _ _ _ first second closed :=
    trans_of (Frame KeepsClosed fun event => ¬ event.Touches) (first closed)
      (second ((first closed).context closed))

theorem muted_of_frame {α : Type} {program : Program World α}
    (within : Within (Frame KeepsClosed fun event => ¬ event.Touches) program) :
    Within Muted program :=
  within.mono fun _ _ frame _ => frame

theorem Event.Detects.untouching {event : Event} (detects : event.Detects) :
    ¬ event.Touches := by
  cases event with
  | response op => exact absurd detects id
  | _ => exact id

section Closed

variable {env : Env} {context : HttpContext} {notification : SendResponse}

theorem headerPhase_muted (tx : TransactionId) :
    Within Muted (headerPhase env context notification tx) := by
  intro w closed
  rw [headerPhase, bind_returned (get_apply _), closed.1]
  exact refl_of (Frame KeepsClosed fun event => ¬ event.Touches) w

theorem modeA_muted (respInspected : Nat) :
    Within Muted (modeA env context notification respInspected) := by
  intro w closed
  have asked : Frame Eq (fun event => ¬ event.Touches) w (responseBodyBlockingEnabled env w).state :=
    responseBodyBlockingEnabled_frame env (fun _ _ => id) w
  have kept : Frame KeepsClosed (fun event => ¬ event.Touches) w
      (responseBodyBlockingEnabled env w).state :=
    asked.mono (fun _ _ same closed => same ▸ closed) fun _ untouching => untouching
  rw [modeA, bind_apply]
  cases run : responseBodyBlockingEnabled env w with
  | thrown after => rw [run] at kept; exact kept
  | halted reason after => rw [run] at kept; exact kept
  | returned blocking after =>
      rw [run] at kept asked
      have unarmed : ¬ (blocking = true ∧ after.rsc.responseBodyEvaluated = false) := by
        rintro ⟨rfl, unevaluated⟩
        obtain ⟨tx, rules, live, found, block, access⟩ := responseBodyBlockingEnabled_allowed run
        refine closed.2 ⟨block, ⟨rules, found, access⟩, ?_⟩
        rw [asked.context]
        exact unevaluated
      dsimp only
      rw [bind_returned (get_apply _), if_neg unarmed]
      exact kept

theorem modeB_muted : Within Muted (modeB env context notification) :=
  muted_of_frame (modeB_frame responseChanges_keepsClosed.evaluated
    (fun _ detects => detects.untouching) env context notification)

theorem bodyPhase_muted (tx : TransactionId) :
    Within Muted (bodyPhase env context notification tx) := by
  apply bodyPhase_within
  · exact muted_of_frame (inspectChunks_frame (fun _ _ => id) _)
  · exact modeA_muted
  · exact modeB_muted

theorem inspectSend_muted (tx : TransactionId) :
    Within Muted (inspectSend env context notification tx) := by
  apply Within.bind (headerPhase_muted tx)
  intro finished
  split
  · exact .pure _
  · exact bodyPhase_muted tx

theorem failSend_muted : Within Muted (failSend env context) := by
  refine .bind (muted_of_frame (reportException_frame env _)) fun _ => ?_
  intro w closed
  have committed : ¬ (w.stored = true ∧ w.rsc.tx ≠ none ∧ w.rsc.responseHeadersFed = false ∧
      w.rsc.responseBodyEvaluated = false) := by simp [closed.1]
  rw [sendResponseExceptionPolicy, bind_returned (get_apply _), if_neg committed]
  exact refl_of (Frame KeepsClosed fun event => ¬ event.Touches) w

theorem onSendResponse_sealed {w after : World} {status : NotificationStatus}
    (closed : w.Sealed context)
    (ran : onSendResponse env context notification w = .returned status after) :
    after.Sealed context ∧
      ∃ later, after.log = w.log ++ later ∧ ∀ event ∈ later, ¬ event.Touches := by
  by_cases inspects : w.Inspects context notification
  · obtain ⟨tx, live⟩ := Option.ne_none_iff_exists'.mp inspects.2.1
    have shut : w.rsc.Closed := by
      rcases closed with absent | unstored | dead | shut
      · rw [inspects.2.2.1] at absent; cases absent
      · rw [inspects.1] at unstored; cases unstored
      · exact absurd dead inspects.2.1
      · exact shut
    rw [onSendResponse_of_inspects inspects live] at ran
    have muted : Within Muted
        (Program.tryCatch (inspectSend env context notification tx) (failSend env context)) :=
      .tryCatch (inspectSend_muted tx) failSend_muted
    have frame := muted w shut
    rw [ran] at frame
    exact ⟨.inr (.inr (.inr (frame.context shut))), frame.logged⟩
  · rw [onSendResponse_of_not_inspects inspects] at ran
    cases ran
    exact ⟨closed, [], by simp, by simp⟩

end Closed

/-! ## The evaluation follows the headers -/

/-- Phase 4 is evaluated only after the headers were fed. -/
def RequestStoredContext.FedFirst (rsc : RequestStoredContext) : Prop :=
  rsc.responseBodyEvaluated = true → rsc.responseHeadersFed = true

def KeepsFed (a b : RequestStoredContext) : Prop :=
  a.responseHeadersFed = true → b.responseHeadersFed = true

instance : IsPreorder RequestStoredContext KeepsFed where
  refl _ := id
  trans _ _ _ first second fed := second (first fed)

def KeepsFedFirst (a b : RequestStoredContext) : Prop := a.FedFirst → b.FedFirst

instance : IsPreorder RequestStoredContext KeepsFedFirst where
  refl _ := id
  trans _ _ _ first second kept := second (first kept)

theorem responseChanges_keepsFed : ResponseChanges KeepsFed where
  fed _ _ := rfl
  degraded _ := id
  evaluated _ := id
  released _ := id

section Commit

variable {env : Env} {context : HttpContext} {notification : SendResponse} {w after : World}
  {status : NotificationStatus} {tx : TransactionId}

theorem bodyPhase_fed {outcome : Outcome World NotificationStatus}
    (fed : w.rsc.responseHeadersFed = true)
    (ran : bodyPhase env context notification tx w = outcome) :
    outcome.state.rsc.responseHeadersFed = true := by
  have frame : Frame KeepsFed (fun _ => True) w (bodyPhase env context notification tx w).state :=
    bodyPhase_frame responseChanges_keepsFed (fun _ _ => trivial) env context notification tx w
  rw [ran] at frame
  exact frame.context fed

theorem onSendResponse_fedFirst (first : w.rsc.FedFirst)
    (ran : onSendResponse env context notification w = .returned status after) :
    after.rsc.FedFirst := by
  by_cases inspects : w.Inspects context notification
  · obtain ⟨tx, live⟩ := Option.ne_none_iff_exists'.mp inspects.2.1
    cases onSendResponse_ends inspects live ran with
    | blocked heads =>
        have frame : Frame KeepsFedFirst (fun _ => True) w
            (headerPhase env context notification tx w).state :=
          headerPhase_frame (fun _ _ _ => rfl) (fun _ => id) (fun _ _ => trivial) env context
            notification tx w
        rw [heads] at frame
        exact frame.context first
    | headersFailed heads policy =>
        obtain ⟨same, _⟩ := failSend_cases policy
        obtain ⟨_, held⟩ := headerPhase_thrown heads
        rw [same.1, held.1]
        exact first
    | @sent middle _ _ heads body =>
        intro _
        have begun := headerPhase_returned heads
        have fed := bodyPhase_fed (by rw [begun.1]) body
        exact fed
    | @bodyFailed middle _ _ _ heads body policy =>
        intro _
        obtain ⟨same, _⟩ := failSend_cases policy
        have begun := headerPhase_returned heads
        have fed := bodyPhase_fed (by rw [begun.1]) body
        rw [same.1]
        exact fed
  · rw [onSendResponse_of_not_inspects inspects] at ran
    cases ran
    exact first

theorem modeB_skipped (off : w.rsc.responseBodyBlock = false)
    (more : notification.moreData = true) :
    modeB env context notification w = .returned () w := by
  rw [modeB, bind_returned (responseBodyBlockingEnabled_off off), bind_returned (get_apply w),
    more, Bool.not_true, Bool.and_false]
  rfl

/-- A flush with MORE_DATA during which nothing throws and the engine is enabled gives up
blocking. -/
theorem bodyPhase_degrades (calm : env.CalmFrom w.tick)
    (enabled : ∀ tick, w.tick ≤ tick → env.ruleEngineState tick = .enabledRuleEngine)
    (live : w.rsc.tx = some tx) (armed : w.rsc.Armed) (more : notification.moreData = true) :
    (bodyPhase env context notification tx w).Satisfies
      (fun _ after => after.Holds { w.rsc with responseBodyBlock := false } w.stored)
      fun _ => False := by
  obtain ⟨block, ⟨rules, found, access⟩, unevaluated⟩ := armed
  have steady : Steady w.tick fun v => w.tick ≤ v.tick ∧ v.Holds w.rsc w.stored :=
    ⟨fun _ kept => kept.1, fun _ kept => ⟨Nat.le_succ_of_le kept.1, kept.2⟩, fun _ _ _ _ kept => kept⟩
  apply Ensures.bind _ (inspectChunks_delivers steady calm tx _).ensures _ w ⟨Nat.le_refl _, rfl, rfl⟩
  intro respInspected v both
  obtain ⟨late, same, tracked⟩ := both
  rw [← same] at live found block unevaluated ⊢
  rw [← tracked]
  clear same tracked
  have silent : ¬ env.throws (v.tick + 1) = true := by simp [calm _ (Nat.le_succ_of_le late)]
  have asked := @responseBodyBlockingEnabled_apply env _ _ _ live found block access
  rw [if_neg silent, enabled _ late] at asked
  have degraded : modeA env context notification respInspected v =
      .returned false { v.advance.called env tx .getRuleEngineState with
        rsc := { v.rsc with responseBodyBlock := false } } := by
    rw [modeA, bind_returned asked, bind_returned (get_apply _)]
    have unmarked : (v.advance.called env tx .getRuleEngineState).rsc.responseBodyEvaluated =
        false := unevaluated
    rw [if_pos ⟨rfl, unmarked⟩, more, if_pos rfl]
    rfl
  rw [bind_returned degraded]
  simp only [Bool.false_eq_true, if_false]
  rw [bind_returned (modeB_skipped rfl more)]
  exact ⟨rfl, rfl⟩

end Commit

/-! ## Whole runs -/

/-- A flush with MORE_DATA of a request that can still be blocked shows its raw response,
and where blocking is armed nothing throws once the headers are fed and the engine is
enabled. -/
def commitCondition (context : HttpContext) (s : ResponseState) (raised : Raised) : Prop :=
  raised.notification.moreData = true → ¬ s.world.Sealed context →
    raised.notification.rawPresent = true ∧
      (s.world.rsc.Armed → ∀ tx, s.world.rsc.tx = some tx → ∀ tick,
        (headerPhase raised.env context raised.notification tx
          (s.world.raised raised.notification)).state.tick ≤ tick →
        raised.env.throws tick = false ∧ raised.env.ruleEngineState tick = .enabledRuleEngine)

section Runs

variable {process : Env} {context : HttpContext} {s next : ResponseState} {raised : Raised}

theorem flush_closes {middle : World} {tx : TransactionId} (live : s.world.rsc.tx = some tx)
    (more : raised.notification.moreData = true)
    (heads : headerPhase raised.env context raised.notification tx
      (s.world.raised raised.notification) = .returned false middle)
    (calm : s.world.rsc.Armed → ∀ tick, middle.tick ≤ tick →
      raised.env.throws tick = false ∧ raised.env.ruleEngineState tick = .enabledRuleEngine) :
    (bodyPhase raised.env context raised.notification tx middle).Satisfies
      (fun _ after => after.rsc.Closed) fun after => after.rsc.Closed := by
  obtain ⟨fed, tracked⟩ := headerPhase_returned heads
  by_cases armed : s.world.rsc.Armed
  · have quiet := calm armed
    have ends := @bodyPhase_degrades _ context raised.notification middle tx
      (fun tick late => (quiet tick late).1) (fun tick late => (quiet tick late).2)
      (by rw [fed]; exact live) (by rw [fed]; exact armed) more
    cases body : bodyPhase raised.env context raised.notification tx middle with
    | returned status after =>
        rw [body] at ends
        change after.rsc.Closed
        rw [ends.1, fed]
        exact ⟨rfl, fun still => by cases still.1⟩
    | thrown failed => rw [body] at ends; exact ends.elim
    | halted reason final => trivial
  · have closed : middle.rsc.Closed := by
      rw [fed]
      exact ⟨rfl, armed⟩
    have muted : Muted middle
        (bodyPhase raised.env context raised.notification tx middle).state :=
      bodyPhase_muted tx middle
    have ends := (muted closed).context closed
    cases body : bodyPhase raised.env context raised.notification tx middle with
    | returned status after => rw [body] at ends; exact ends
    | thrown failed => rw [body] at ends; exact ends
    | halted reason final => trivial

theorem commit_seals {after : World} (first : s.world.rsc.FedFirst)
    (condition : commitCondition context s raised) (more : raised.notification.moreData = true)
    (ran : onSendResponse raised.env context raised.notification
      (s.world.raised raised.notification) = .returned .rqNotificationContinue after) :
    after.Sealed context := by
  by_cases closed : s.world.Sealed context
  · exact (onSendResponse_sealed (w := s.world.raised raised.notification) closed ran).1
  obtain ⟨raw, calm⟩ := condition more closed
  have stored : s.world.stored = true := by
    cases tracked : s.world.stored with
    | true => rfl
    | false => exact absurd (.inr (.inl tracked)) closed
  have present : context.responsePresent = true := by
    cases answered : context.responsePresent with
    | true => rfl
    | false => exact absurd (.inl answered) closed
  have alive : s.world.rsc.tx ≠ none := fun dead => closed (.inr (.inr (.inl dead)))
  obtain ⟨tx, live⟩ := Option.ne_none_iff_exists'.mp alive
  have inspects : (s.world.raised raised.notification).Inspects context raised.notification :=
    ⟨stored, alive, present, raw⟩
  have shut : ∀ w : World, w.rsc.Closed → w.Sealed context := fun _ done => .inr (.inr (.inr done))
  have closes {middle : World} (heads : headerPhase raised.env context raised.notification tx
      (s.world.raised raised.notification) = .returned false middle) :
      (bodyPhase raised.env context raised.notification tx middle).Satisfies
        (fun _ after => after.rsc.Closed) fun after => after.rsc.Closed := by
    apply flush_closes live more heads
    intro armed
    have quiet := calm armed tx live
    rw [heads] at quiet
    exact quiet
  cases onSendResponse_ends inspects live ran with
  | @headersFailed middle _ _ heads policy =>
      obtain ⟨_, finishes, _⟩ := failSend_cases policy
      obtain ⟨unfed, held⟩ := headerPhase_thrown heads
      have unevaluated : middle.rsc.responseBodyEvaluated = false := by
        rw [held.1]
        cases evaluated : s.world.rsc.responseBodyEvaluated with
        | false => exact evaluated
        | true => exact absurd ((first evaluated).symm.trans unfed) (by simp)
      have untouched : middle.rsc = s.world.rsc := held.1
      have finished := finishes.mpr ⟨held.2.trans stored, by rw [untouched]; exact alive,
        by rw [untouched]; exact unfed, unevaluated⟩
      cases finished
  | @sent middle _ _ heads body =>
      have ends := closes heads
      rw [body] at ends
      exact shut _ ends
  | @bodyFailed middle failed _ _ heads body policy =>
      obtain ⟨same, _⟩ := failSend_cases policy
      have ends := closes heads
      rw [body] at ends
      apply shut
      rw [same.1]
      exact ends

/-- What every state of a run under the condition satisfies. -/
structure Committed (context : HttpContext) (s : ResponseState) : Prop where
  fedFirst : s.world.rsc.FedFirst
  isSealed : s.committed ≠ none → s.world.Sealed context
  untouched : s.Untouched

theorem committed_step (committed : Committed context s)
    (condition : commitCondition context s raised)
    (step : (responseSystem process context).step s raised next) : Committed context next := by
  obtain @⟨status, after, _, ran⟩ := step
  rw [raiseSendResponse_apply] at ran
  have first := onSendResponse_fedFirst (w := s.world.raised raised.notification)
    committed.fedFirst ran
  cases already : s.committed with
  | some earlier =>
      have closed : (s.world.raised raised.notification).Sealed context :=
        committed.isSealed (by simp [already])
      obtain ⟨still, later, shape, clean⟩ := onSendResponse_sealed closed ran
      refine ⟨first, fun _ => still, ?_⟩
      intro earlier' found
      have same : earlier' = earlier := by
        simp only [ResponseState.after, already, Option.some_or, Option.some.injEq] at found
        exact found.symm
      rw [same]
      obtain ⟨before, early, calm⟩ := committed.untouched earlier already
      refine ⟨before ++ later, ?_, ?_⟩
      · change after.log = _
        rw [shape, ← List.append_assoc, ← early]
        rfl
      · exact List.forall_mem_append.mpr ⟨calm, clean⟩
  | none =>
      by_cases commits : raised.notification.moreData = true ∧ status = .rqNotificationContinue
      · obtain ⟨more, rfl⟩ := commits
        have closed := commit_seals committed.fedFirst condition more ran
        refine ⟨first, fun _ => closed, ?_⟩
        intro earlier found
        have same : earlier = after.log := by
          simp only [ResponseState.after, already, more, and_self, if_true, Option.none_or,
            Option.some.injEq] at found
          exact found.symm
        rw [same]
        exact ⟨[], (List.append_nil _).symm, by simp⟩
      · have none : (s.after raised status after).committed = none := by
          simp [ResponseState.after, already, commits]
        refine ⟨first, fun some => absurd none some, ?_⟩
        intro earlier found
        rw [none] at found
        cases found

/-- In a run whose every notification meets the condition, a committed response is never
touched again. -/
theorem committed_response_untouched
    (reached : (responseSystem process context).Reaches (commitCondition context) s) :
    s.Untouched := by
  have committed : Committed context s := by
    apply reached.invariant
    · intro state start
      refine ⟨fun evaluated => ?_, fun some => absurd start.2 some, ?_⟩
      · rw [start.1.unevaluated] at evaluated
        cases evaluated
      · intro earlier found
        rw [start.2] at found
        cases found
    · intro state raised after committed condition step
      exact committed_step committed condition step
  exact committed.untouched

end Runs

/-- A streamed response: the second flush leaves the committed response alone. -/
theorem committed_response_untouched_streamed : ∃ s : ResponseState,
    s.committed ≠ none ∧ s.Untouched := by
  have start : (responseSystem .calm .plain).Reaches (commitCondition .plain)
      { world := .begun, committed := none } := .start ⟨begun_responseStart, rfl⟩
  have streamed := start.next (fun _ _ => ⟨rfl, fun _ _ _ _ _ => ⟨rfl, rfl⟩⟩)
    (@ResponseStep.of_value _ _ _ (.calm [.twoBytes] true) .rqNotificationContinue
      rfl (by decide +kernel))
  have ended := streamed.next (fun more => by cases more)
    (@ResponseStep.of_value _ _ _ (.calm [.twoBytes] false) .rqNotificationContinue
      rfl (by decide +kernel))
  exact ⟨_, by decide +kernel, committed_response_untouched ended⟩

/-- The engine throws when it gets the first bytes of the flush. -/
def Raised.failing : Raised where
  env := { Env.calm with throws := (· == 6) }
  notification := .flush [.twoBytes] true

/-- An exception between the header phase and Mode A lets the flush go out with blocking
still armed: the next notification replaces the committed response. -/
theorem committed_response_touched : ∃ s : ResponseState,
    (responseSystem .calm .plain).Reachable s ∧ ¬ s.Untouched := by
  have start : (responseSystem .calm .plain).Reachable
      { world := .begun, committed := none } := .start ⟨begun_responseStart, rfl⟩
  have streamed := start.step (@ResponseStep.of_value _ _ _ .failing .rqNotificationContinue
    rfl (by decide +kernel))
  have replaced := streamed.step (@ResponseStep.of_value _ _ _ .denied
    .rqNotificationFinishRequest rfl (by decide +kernel))
  refine ⟨_, replaced, ?_⟩
  intro untouched
  obtain ⟨later, shape, clean⟩ := untouched _ rfl
  have cleared : Event.response .clear ∈ later := by
    rw [← @List.drop_left _ _ later, ← shape]
    decide +kernel
  exact clean _ cleared trivial

end ModSecurityIIS
