import ModSecurityIIS.ResponseOrder
import ModSecurityIIS.SendResponseCases

/-!
# One evaluation of phase 4

The mark of the evaluation counts it: wherever a notification stops, the log holds one
evaluation if the mark is set and none if it is not.
-/

set_option autoImplicit false

namespace ModSecurityIIS

open Imperative Program Transition

def evaluations (log : List Event) : Nat := log.countP Event.isEvaluation

/-- The evaluations the mark stands for. -/
def RequestStoredContext.evaluations (rsc : RequestStoredContext) : Nat :=
  if rsc.responseBodyEvaluated then 1 else 0

def World.Balanced (w : World) : Prop := evaluations w.log = w.rsc.evaluations

/-- The mark is the same. -/
def SameMark (a b : RequestStoredContext) : Prop :=
  b.responseBodyEvaluated = a.responseBodyEvaluated

instance : IsPreorder RequestStoredContext SameMark where
  refl _ := rfl
  trans _ _ _ first second := second.trans first

/-- Steps that evaluate nothing. -/
abbrev Unmarking : World → World → Prop := Frame SameMark fun event => event.isEvaluation = false

theorem World.Balanced.unmarking {w after : World} (balanced : w.Balanced)
    (frame : Unmarking w after) : after.Balanced := by
  obtain ⟨events, shape, none⟩ := frame.logged
  have silent : events.countP Event.isEvaluation = 0 := by
    rw [List.countP_eq_zero]
    intro event member
    rw [none event member]
    exact Bool.false_ne_true
  rw [World.Balanced, evaluations, shape, List.countP_append, silent, Nat.add_zero,
    RequestStoredContext.evaluations, frame.context]
  exact balanced

theorem Ensures.balanced {α : Type} {program : Program World α}
    (within : Within Unmarking program) :
    Ensures World.Balanced program (fun _ => World.Balanced) World.Balanced :=
  Ensures.of_within within fun _ _ balanced frame => balanced.unmarking frame

section Notification

variable {env : Env} {context : HttpContext} {notification : SendResponse}

theorem evaluateBody_balanced :
    Ensures (fun w => w.Balanced ∧ w.rsc.responseBodyEvaluated = false) (evaluateBody env)
      (fun _ after => after.Balanced ∧ after.rsc.responseBodyEvaluated = true)
      World.Balanced := by
  rintro w ⟨balanced, unmarked⟩
  have none : evaluations w.log = 0 := by
    rw [World.Balanced, RequestStoredContext.evaluations, unmarked] at balanced
    exact balanced
  rw [evaluateBody, bind_returned (modifyContext_apply _ _), contextCall,
    bind_returned (get_apply _)]
  cases live : w.rsc.tx with
  | none => trivial
  | some tx =>
      simp only
      rw [engineCall_apply]
      have counted : evaluations (w.log ++ [.engine tx .processResponseBody
          (!env.throws w.tick)]) = 1 := by
        rw [evaluations, List.countP_append]
        change evaluations w.log + 1 = 1
        rw [none]
      split
      · exact counted
      · exact ⟨counted, rfl⟩

theorem blockingEnabled_balanced :
    Ensures World.Balanced (responseBodyBlockingEnabled env) (fun _ => World.Balanced)
      World.Balanced :=
  Ensures.balanced (responseBodyBlockingEnabled_frame env fun _ _ => rfl)

theorem applyIntervention_balanced (canBlock : Bool) :
    Ensures World.Balanced (applyIntervention env context canBlock) (fun _ => World.Balanced)
      World.Balanced :=
  Ensures.balanced (applyIntervention_frame env context canBlock (fun _ => rfl)
    fun _ intervenes => intervenes.unevaluated)

theorem evaluateBody_then_balanced {α : Type} {next : Program World α}
    (keeps : Ensures World.Balanced next (fun _ => World.Balanced) World.Balanced) :
    Ensures (fun w => w.Balanced ∧ w.rsc.responseBodyEvaluated = false)
      (do evaluateBody env; next) (fun _ => World.Balanced) World.Balanced := by
  apply Ensures.bind fun _ => World.Balanced
  · apply Ensures.consequence evaluateBody_balanced
    · exact fun _ both => both
    · exact fun _ _ both => both.1
    · exact fun _ balanced => balanced
  · intro _
    exact keeps

theorem modeA_balanced (respInspected : Nat) :
    Ensures World.Balanced (modeA env context notification respInspected)
      (fun _ => World.Balanced) World.Balanced := by
  apply Ensures.bind _ blockingEnabled_balanced
  intro blocking
  apply Ensures.bind fun seen w => seen = w ∧ w.Balanced
  · intro w balanced
    exact ⟨rfl, balanced⟩
  · intro seen
    split
    · next unmarked =>
        split
        · apply Ensures.bind fun _ => World.Balanced
          · rintro w ⟨-, balanced⟩
            exact balanced
          · intro _
            exact Ensures.pure fun _ balanced => balanced
        · apply Ensures.bind fun _ w => w.Balanced ∧ w.rsc.responseBodyEvaluated = false
          · have pins : Within Unmarking (pinContentLength env notification respInspected) :=
              pinContentLength_frame fun _ _ => rfl
            have keeps : Ensures (fun w => w.Balanced ∧ w.rsc.responseBodyEvaluated = false)
                (pinContentLength env notification respInspected)
                (fun _ w => w.Balanced ∧ w.rsc.responseBodyEvaluated = false)
                (fun w => w.Balanced ∧ w.rsc.responseBodyEvaluated = false) :=
              Ensures.of_within pins fun _ _ both frame =>
                ⟨both.1.unmarking frame, frame.context.trans both.2⟩
            apply Ensures.consequence keeps
            · rintro w ⟨rfl, balanced⟩
              exact ⟨balanced, unmarked.2⟩
            · exact fun _ _ both => both
            · exact fun _ both => both.1
          · intro _
            exact evaluateBody_then_balanced (applyIntervention_balanced true)
    · apply Ensures.pure
      rintro w ⟨-, balanced⟩
      exact balanced

theorem modeB_balanced :
    Ensures World.Balanced (modeB env context notification) (fun _ => World.Balanced)
      World.Balanced := by
  apply Ensures.bind _ blockingEnabled_balanced
  rintro blocking w balanced
  rw [bind_returned (get_apply w)]
  cases runs : (!blocking && !w.rsc.responseBodyEvaluated && !notification.moreData) with
  | false => exact balanced
  | true =>
      have unmarked : w.rsc.responseBodyEvaluated = false := by
        simp only [Bool.and_eq_true, Bool.not_eq_true'] at runs
        exact runs.1.2
      have evaluates : Ensures (fun v => v.Balanced ∧ v.rsc.responseBodyEvaluated = false)
          (do
            evaluateBody env
            let _ ← applyIntervention env context false
            pure ()) (fun _ => World.Balanced) World.Balanced := by
        apply evaluateBody_then_balanced
        apply Ensures.bind _ (applyIntervention_balanced false)
        intro blocked
        exact Ensures.pure fun _ balanced => balanced
      rw [when_true]
      exact evaluates w ⟨balanced, unmarked⟩

theorem onSendResponse_balanced {w after : World} {status : NotificationStatus}
    (balanced : w.Balanced)
    (ran : onSendResponse env context notification w = .returned status after) :
    after.Balanced := by
  by_cases inspects : w.Inspects context notification
  · obtain ⟨tx, live⟩ := Option.ne_none_iff_exists'.mp inspects.2.1
    have heads : Within Unmarking (headerPhase env context notification tx) :=
      @headerPhase_frame SameMark (fun event => event.isEvaluation = false) _ (fun _ => rfl)
        (fun _ => rfl) (fun _ feeds => feeds.unevaluated) env context notification tx
    have chunks : Ensures World.Balanced (inspectChunks env tx notification.response.entityChunks)
        (fun _ => World.Balanced) World.Balanced :=
      Ensures.balanced (inspectChunks_frame (fun _ _ => rfl) _)
    have inspection : Ensures World.Balanced (inspectSend env context notification tx)
        (fun _ => World.Balanced) World.Balanced := by
      apply Ensures.bind _ (Ensures.balanced heads)
      intro finished
      split
      · exact Ensures.pure fun _ kept => kept
      · apply Ensures.bind _ chunks
        intro respInspected
        apply Ensures.bind _ (modeA_balanced respInspected)
        intro replaced
        split
        · exact Ensures.pure fun _ kept => kept
        · apply Ensures.bind _ modeB_balanced
          intro _
          exact Ensures.pure fun _ kept => kept
    have fails : Ensures World.Balanced (failSend env context) (fun _ => World.Balanced)
        World.Balanced := Ensures.balanced (failSend_frame (by exact rfl) env context)
    rw [onSendResponse_of_inspects inspects live] at ran
    exact (inspection.tryCatch fails).returned balanced ran
  · rw [onSendResponse_of_not_inspects inspects] at ran
    cases ran
    exact balanced

/-! ## The final send -/

/-- The engine's state, asked for twice with nothing in between, is the same. -/
def Env.AnswersAlike (env : Env) (w : World) : Prop :=
  env.ruleEngineState (w.tick + 2) = env.ruleEngineState w.tick

/-- Asking leaves the context alone, and asking again gives the same answer. -/
theorem blockingEnabled_again {w after : World} {blocking : Bool} (alike : env.AnswersAlike w)
    (ran : responseBodyBlockingEnabled env w = .returned blocking after) :
    after.rsc = w.rsc ∧
      ∀ again final, responseBodyBlockingEnabled env after = .returned again final →
        again = blocking ∧ final.rsc = w.rsc := by
  by_cases asks : w.rsc.AsksEngine
  · obtain ⟨tx, rules, live, found, block, access⟩ := asks
    rw [responseBodyBlockingEnabled_apply live found block access] at ran
    split at ran
    · cases ran
    · cases ran
      refine ⟨rfl, ?_⟩
      intro again final ran
      have answer := @responseBodyBlockingEnabled_apply env
        (w.advance.called env tx .getRuleEngineState) tx rules live found block access
      rw [answer] at ran
      split at ran
      · cases ran
      · cases ran
        refine ⟨?_, rfl⟩
        have same : env.ruleEngineState (w.advance.called env tx .getRuleEngineState).tick =
            env.ruleEngineState w.tick := alike
        rw [same]
  · rw [responseBodyBlockingEnabled_refused asks] at ran
    cases ran
    refine ⟨rfl, ?_⟩
    intro again final ran
    rw [responseBodyBlockingEnabled_refused asks] at ran
    cases ran
    exact ⟨rfl, rfl⟩

theorem Ensures.evaluated {α : Type} {program : Program World α} (marks : Within Marks program) :
    Ensures (fun w => w.rsc.responseBodyEvaluated = true) program
      (fun _ w => w.rsc.responseBodyEvaluated = true) fun _ => True := by
  intro w marked
  have kept := (marks w).kept marked
  cases run : program w with
  | returned value after => rw [run] at kept; exact kept
  | thrown after => trivial
  | halted reason after => trivial

theorem evaluateBody_evaluates :
    Ensures (fun _ => True) (evaluateBody env) (fun _ w => w.rsc.responseBodyEvaluated = true)
      fun _ => True := by
  intro w _
  have marked := @evaluateBody_marked env w
  cases run : evaluateBody env w with
  | returned value after => rw [run] at marked; exact marked
  | thrown after => trivial
  | halted reason after => trivial

theorem applyIntervention_marks (canBlock : Bool) :
    Within Marks (applyIntervention env context canBlock) :=
  marks_of_frame (applyIntervention_frame env context canBlock (fun _ => id)
    fun _ intervenes => intervenes.unevaluated)

theorem modeB_evaluates {w middle : World} (final : notification.moreData = false)
    (asked : responseBodyBlockingEnabled env w = .returned false middle) :
    (modeB env context notification w).Satisfies
      (fun _ after => after.rsc.responseBodyEvaluated = true) fun _ => True := by
  rw [modeB, bind_returned asked, bind_returned (get_apply middle), final]
  cases marked : middle.rsc.responseBodyEvaluated with
  | true => exact marked
  | false =>
      have evaluates : Ensures (fun _ => True)
          (do
            evaluateBody env
            let _ ← applyIntervention env context false
            pure ())
          (fun _ after => after.rsc.responseBodyEvaluated = true) fun _ => True := by
        apply Ensures.bind _ evaluateBody_evaluates
        intro _
        apply Ensures.bind _ (Ensures.evaluated (applyIntervention_marks false))
        intro blocked
        exact Ensures.pure fun _ marked => marked
      exact evaluates middle trivial

theorem modeA_evaluates {w middle : World} {respInspected : Nat}
    (final : notification.moreData = false)
    (asked : responseBodyBlockingEnabled env w = .returned true middle) :
    (modeA env context notification respInspected w).Satisfies
      (fun _ after => after.rsc.responseBodyEvaluated = true) fun _ => True := by
  rw [modeA, bind_returned asked, bind_returned (get_apply middle), final]
  cases marked : middle.rsc.responseBodyEvaluated with
  | true => exact marked
  | false =>
      have evaluates : Ensures (fun _ => True)
          (do
            pinContentLength env notification respInspected
            evaluateBody env
            applyIntervention env context true)
          (fun _ after => after.rsc.responseBodyEvaluated = true) fun _ => True := by
        apply Ensures.skip fun _ => trivial
        intro _
        apply Ensures.bind _ evaluateBody_evaluates
        intro _
        exact Ensures.evaluated (applyIntervention_marks true)
      exact evaluates middle trivial

theorem bodyPhase_evaluates {tx : TransactionId} {w after : World} {status : NotificationStatus}
    (final : notification.moreData = false)
    (alike : ∀ respInspected inspected,
      inspectChunks env tx notification.response.entityChunks w =
        .returned respInspected inspected → env.AnswersAlike inspected)
    (ran : bodyPhase env context notification tx w = .returned status after) :
    after.rsc.responseBodyEvaluated = true := by
  obtain ⟨respInspected, inspected, chunks, modes⟩ := bind_eq_returned ran
  obtain ⟨replaced, middle, first, rest⟩ := bind_eq_returned modes
  obtain ⟨blocking, answered, asked, _⟩ := bind_eq_returned first
  obtain ⟨same, again⟩ := blockingEnabled_again (alike _ _ chunks) asked
  have second : Ensures (fun v => v.rsc.responseBodyEvaluated = true)
      (modeB env context notification) (fun _ v => v.rsc.responseBodyEvaluated = true)
      fun _ => True := Ensures.evaluated modeB_marks
  cases blocking with
  | true =>
      have marked := @modeA_evaluates _ context _ _ _ respInspected final asked
      rw [first] at marked
      cases replaced with
      | true =>
          cases rest
          exact marked
      | false =>
          obtain ⟨_, ended, ranB, done⟩ := bind_eq_returned rest
          cases done
          exact second.returned marked ranB
  | false =>
      have skipped : modeA env context notification respInspected inspected =
          .returned false answered := by
        rw [modeA, bind_returned asked, bind_returned (get_apply answered), if_neg (by simp)]
        rfl
      rw [skipped] at first
      cases first
      obtain ⟨_, ended, ranB, done⟩ := bind_eq_returned rest
      cases done
      obtain ⟨question, answer, askedAgain, _⟩ := bind_eq_returned ranB
      obtain ⟨rfl, _⟩ := again _ _ askedAgain
      have marked := @modeB_evaluates _ context _ _ _ final askedAgain
      rw [ranB] at marked
      exact marked

end Notification

/-! ## Whole runs -/

section Runs

variable {process : Env} {context : HttpContext} {s : ResponseState}

theorem balanced_of_reachable (reached : (responseSystem process context).Reachable s) :
    s.world.Balanced := by
  apply reached.invariant
  · intro state start
    have none : evaluations state.world.log = 0 := by
      rw [evaluations, List.countP_eq_zero]
      intro event member
      have silent := start.1.silent event member
      cases event with
      | engine tx call completed => cases call <;> first | exact Bool.false_ne_true | exact absurd trivial silent
      | _ => exact Bool.false_ne_true
    rw [World.Balanced, none, RequestStoredContext.evaluations, start.1.unevaluated]
    rfl
  · intro state raised next balanced step
    obtain @⟨status, after, _, ran⟩ := step
    exact onSendResponse_balanced (w := state.world.raised raised.notification) balanced ran

/-- A notification without MORE_DATA on a live transaction with a raw response runs to its end
without an exception and without a block in phase 3. -/
structure FinalSend (context : HttpContext) (w : World) (raised : Raised) (tx : TransactionId)
    (status : NotificationStatus) (after : World) : Prop where
  final : raised.notification.moreData = false
  inspects : (w.raised raised.notification).Inspects context raised.notification
  live : w.rsc.tx = some tx
  ran : sendResponseBlock raised.env context raised.notification (w.raised raised.notification) =
    .returned status after
  unblocked : ∀ middle, headerPhase raised.env context raised.notification tx
    (w.raised raised.notification) ≠ .returned true middle

/-- The engine's state changes in its phases only, and none runs after the chunks. -/
def Raised.AnswersAlike (raised : Raised) (context : HttpContext) (w : World)
    (tx : TransactionId) : Prop :=
  ∀ respInspected middle inspected,
    headerPhase raised.env context raised.notification tx (w.raised raised.notification) =
      .returned false middle →
    inspectChunks raised.env tx raised.notification.response.entityChunks middle =
      .returned respInspected inspected →
    raised.env.AnswersAlike inspected

/-- In every run phase 4 is evaluated at most once, and exactly once when a notification
without MORE_DATA has run to its end. -/
theorem phase_four_once (reached : (responseSystem process context).Reachable s) :
    evaluations s.world.log ≤ 1 ∧
      ∀ (raised : Raised) (tx : TransactionId) (status : NotificationStatus) (after : World),
        FinalSend context s.world raised tx status after →
        raised.AnswersAlike context s.world tx →
        raiseSendResponse raised.env context raised.notification s.world =
            .returned status after ∧
          evaluations after.log = 1 := by
  have balanced := balanced_of_reachable reached
  constructor
  · rw [balanced, RequestStoredContext.evaluations]
    split <;> omega
  · intro raised tx status after send alike
    have handled : onSendResponse raised.env context raised.notification
        (s.world.raised raised.notification) = .returned status after := by
      rw [onSendResponse, tryCatch_apply, send.ran]
    refine ⟨handled, ?_⟩
    have inspection := send.ran
    rw [sendResponseBlock_of_inspects send.inspects send.live] at inspection
    obtain ⟨finished, middle, heads, rest⟩ := bind_eq_returned inspection
    cases finished with
    | true => exact absurd heads (send.unblocked middle)
    | false =>
        have marked := bodyPhase_evaluates send.final (fun n inspected => alike n middle inspected heads) rest
        have kept := onSendResponse_balanced (w := s.world.raised raised.notification) balanced handled
        rw [kept, RequestStoredContext.evaluations, marked]
        rfl

end Runs

/-- A streamed response: the flush evaluates nothing, the final send does. -/
theorem phase_four_once_streamed : ∃ s after, (responseSystem .calm .plain).Reachable s ∧
    evaluations s.world.log ≤ 1 ∧
      raiseSendResponse Env.calm .plain (.flush [.twoBytes] false) s.world =
        .returned .rqNotificationContinue after ∧
      evaluations after.log = 1 := by
  have start : (responseSystem .calm .plain).Reachable
      { world := .begun, committed := none } := .start ⟨begun_responseStart, rfl⟩
  have flushed : ∃ s : ResponseState, (responseSystem .calm .plain).Reachable s ∧
      s.world.stored = true ∧ s.world.rsc.tx = some 0 ∧
      (sendResponseBlock Env.calm .plain (.flush [.twoBytes] false)
        (s.world.raised (.flush [.twoBytes] false))).value = some .rqNotificationContinue ∧
      (headerPhase Env.calm .plain (.flush [.twoBytes] false) 0
        (s.world.raised (.flush [.twoBytes] false))).value = some false :=
    ⟨_, start.step (@ResponseStep.of_value _ _ _ (.calm [.twoBytes] true)
      .rqNotificationContinue rfl (by decide +kernel)), by decide +kernel, by decide +kernel,
      by decide +kernel, by decide +kernel⟩
  obtain ⟨s, reached, stored, live, block, heads⟩ := flushed
  obtain ⟨after, ran⟩ := Outcome.exists_returned block
  have send : FinalSend .plain s.world (.calm [.twoBytes] false) 0 .rqNotificationContinue after := by
    refine ⟨rfl, ⟨stored, ?_, rfl, rfl⟩, live, ran, ?_⟩
    · change s.world.rsc.tx ≠ none
      rw [live]
      simp
    · intro middle blocked
      cases heads.symm.trans (congrArg Outcome.value blocked)
  obtain ⟨few, ends⟩ := phase_four_once reached
  obtain ⟨handled, once⟩ := ends (.calm [.twoBytes] false) 0 .rqNotificationContinue after send
    fun _ _ _ _ _ => rfl
  exact ⟨s, after, reached, few, handled, once⟩

end ModSecurityIIS
