import ModSecurityIIS.ResponseRun

/-!
# How the phases of a send-response notification end

The header phase ends with its flag set, with the request finished, or by an exception that
leaves the context as it was. Where no step throws, the phases run to their end.
-/

set_option autoImplicit false

namespace ModSecurityIIS

open Imperative Program Transition

/-- The request's tracking is exactly the given one. -/
def World.Holds (rsc : RequestStoredContext) (stored : Bool) (w : World) : Prop :=
  w.rsc = rsc ∧ w.stored = stored

section Holds

variable {rsc : RequestStoredContext} {stored : Bool} {env : Env} {context : HttpContext}

theorem Ensures.holds {α : Type} {program : Program World α}
    (within : Within (Frame Eq fun _ => True) program) :
    Ensures (World.Holds rsc stored) program (fun _ => World.Holds rsc stored)
      (World.Holds rsc stored) := by
  apply Ensures.of_within within
  intro w after held frame
  exact ⟨frame.context.symm.trans held.1, frame.stored.trans held.2⟩

theorem finishRequest_returns :
    Ensures (fun _ => True) (finishRequest env) (fun _ _ => True) fun _ => False := by
  intro w _
  rw [finishRequest, bind_returned (get_apply w), finishContext, bind_assoc, bind_apply]
  cases live : w.rsc.tx with
  | none =>
      rw [finalizeTransaction, pure_apply]
      cases w.rsc.rules <;> trivial
  | some tx =>
      rw [finalizeTransaction, tryCatch_apply]
      cases run : (do
          engineCall env tx .processLogging
          record (.destroyTransaction tx) : Program World Unit) w with
      | returned value after => cases w.rsc.rules <;> trivial
      | thrown after => cases w.rsc.rules <;> trivial
      | halted reason after => trivial

theorem disrupt_holds {tx : TransactionId} {it : Intervention} :
    Ensures (World.Holds rsc stored) (disrupt env context tx it) (fun _ _ => True)
      (World.Holds rsc stored) := by
  unfold disrupt
  split
  · apply Ensures.bind fun _ => World.Holds rsc stored
    · exact Ensures.holds (respond_frame trivial)
    · intro _
      apply Ensures.bind fun _ => World.Holds rsc stored
      · exact Ensures.holds
          (answerIntervention_frame it fun _ _ => trivial)
      · intro status
        apply Ensures.bind fun _ => World.Holds rsc stored
        · exact Ensures.holds (engineCall_frame fun _ => trivial)
        · intro _ w held
          have ends := @finishRequest_returns env
            { w with requestHandled := true, log := w.log ++ [.setRequestHandled] } trivial
          change ((finishRequest env) _).Satisfies _ _
          cases run : finishRequest env
              { w with requestHandled := true, log := w.log ++ [.setRequestHandled] } with
          | returned value after => trivial
          | thrown after => rw [run] at ends; exact ends.elim
          | halted reason after => trivial
  · intro w held
    trivial

theorem applyIntervention_holds (canBlock : Bool) :
    Ensures (World.Holds rsc stored) (applyIntervention env context canBlock)
      (fun blocked after => blocked = false → after.Holds rsc stored) (World.Holds rsc stored) := by
  apply Ensures.bind (fun seen after => seen = after ∧ after.Holds rsc stored)
  · intro w held
    exact ⟨rfl, held⟩
  · intro seen
    split
    · apply Ensures.pure
      rintro after ⟨_, held⟩ _
      exact held
    · next tx live =>
        apply Ensures.bind fun _ => World.Holds rsc stored
        · apply Ensures.consequence (Ensures.holds (pendingIntervention_frame env tx
            fun _ _ => trivial))
          · exact fun _ start => start.2
          · exact fun _ _ held => held
          · exact fun _ held => held
        · intro reported
          split
          · exact Ensures.pure fun _ held _ => held
          · next it =>
              apply Ensures.bind fun _ => World.Holds rsc stored
              · exact Ensures.holds (mayThrow_frame env)
              · intro _
                split
                · apply Ensures.bind fun _ _ => True
                  · exact disrupt_holds
                  · intro _
                    exact Ensures.pure fun _ _ finished => by cases finished
                · exact Ensures.pure fun _ held _ => held

variable {notification : SendResponse} {tx : TransactionId}

theorem headerPhase_holds :
    Ensures (World.Holds rsc stored) (headerPhase env context notification tx)
      (fun finished after => finished = false →
        after.Holds { rsc with responseHeadersFed := true } stored)
      (fun after => rsc.responseHeadersFed = false ∧ after.Holds rsc stored) := by
  intro w held
  rw [headerPhase, bind_returned (get_apply w), held.1]
  cases fed : rsc.responseHeadersFed with
  | true =>
      intro _
      rw [← fed]
      exact held
  | false =>
      have feeds : Ensures (World.Holds rsc stored)
          (feedResponseHeaders env context notification tx)
          (fun finished after => finished = false →
            after.Holds { rsc with responseHeadersFed := true } stored)
          (World.Holds rsc stored) := by
        apply Ensures.bind fun _ => World.Holds rsc stored
        · exact Ensures.holds (addKnownHeaders_frame _ _ fun _ _ _ => trivial)
        · intro _
          apply Ensures.bind fun _ => World.Holds rsc stored
          · exact Ensures.holds (addUnknownHeaders_frame _ fun _ _ _ => trivial)
          · intro _
            apply Ensures.bind fun _ => World.Holds rsc stored
            · exact Ensures.holds (mayThrow_frame env)
            · intro _
              apply Ensures.bind fun _ => World.Holds rsc stored
              · exact fun _ start => start
              · intro seen
                apply Ensures.bind fun _ => World.Holds rsc stored
                · exact Ensures.holds (engineCall_frame fun _ => trivial)
                · intro _
                  apply Ensures.bind fun _ => World.Holds rsc stored
                  · exact Ensures.holds (responseBodyBlockingEnabled_frame env fun _ _ => trivial)
                  · intro blocking
                    apply Ensures.bind _ (applyIntervention_holds blocking)
                    intro blocked
                    cases blocked with
                    | true => exact Ensures.pure fun _ _ finished => by cases finished
                    | false =>
                        intro after kept _
                        obtain ⟨rfl, rfl⟩ := kept rfl
                        exact ⟨rfl, rfl⟩
      have ends := feeds w held
      rw [if_neg Bool.false_ne_true]
      cases run : feedResponseHeaders env context notification tx w with
      | returned finished after => rw [run] at ends; exact ends
      | thrown after => rw [run] at ends; exact ⟨rfl, ends⟩
      | halted reason after => trivial

end Holds

/-! ## The ends of a notification -/

/-- How an inspected notification ends. -/
inductive SendEnd (env : Env) (context : HttpContext) (notification : SendResponse)
    (tx : TransactionId) (w : World) : NotificationStatus → World → Prop where
  | blocked {after : World} :
      headerPhase env context notification tx w = .returned true after →
      SendEnd env context notification tx w .rqNotificationFinishRequest after
  | headersFailed {middle after : World} {status : NotificationStatus} :
      headerPhase env context notification tx w = .thrown middle →
      failSend env context middle = .returned status after →
      SendEnd env context notification tx w status after
  | sent {middle after : World} {status : NotificationStatus} :
      headerPhase env context notification tx w = .returned false middle →
      bodyPhase env context notification tx middle = .returned status after →
      SendEnd env context notification tx w status after
  | bodyFailed {middle failed after : World} {status : NotificationStatus} :
      headerPhase env context notification tx w = .returned false middle →
      bodyPhase env context notification tx middle = .thrown failed →
      failSend env context failed = .returned status after →
      SendEnd env context notification tx w status after

section Ends

variable {env : Env} {context : HttpContext} {notification : SendResponse} {w after : World}
  {status : NotificationStatus} {tx : TransactionId}

theorem onSendResponse_ends (inspects : w.Inspects context notification)
    (live : w.rsc.tx = some tx)
    (ran : onSendResponse env context notification w = .returned status after) :
    SendEnd env context notification tx w status after := by
  rw [onSendResponse_of_inspects inspects live, tryCatch_apply] at ran
  cases heads : headerPhase env context notification tx w with
  | thrown middle =>
      rw [inspectSend, bind_thrown heads] at ran
      exact .headersFailed heads ran
  | halted reason middle =>
      rw [inspectSend, bind_halted heads] at ran
      cases ran
  | returned finished middle =>
      rw [inspectSend, bind_returned heads] at ran
      cases finished with
      | true =>
          cases ran
          exact .blocked heads
      | false =>
          simp only [Bool.false_eq_true, if_false] at ran
          cases body : bodyPhase env context notification tx middle with
          | returned sent final =>
              rw [body] at ran
              cases ran
              exact .sent heads body
          | thrown failed =>
              rw [body] at ran
              exact .bodyFailed heads body ran
          | halted reason final =>
              rw [body] at ran
              cases ran

theorem headerPhase_returned (heads : headerPhase env context notification tx w =
    .returned false after) :
    after.Holds { w.rsc with responseHeadersFed := true } w.stored :=
  headerPhase_holds.returned ⟨rfl, rfl⟩ heads rfl

theorem headerPhase_thrown (heads : headerPhase env context notification tx w = .thrown after) :
    w.rsc.responseHeadersFed = false ∧ after.Holds w.rsc w.stored :=
  headerPhase_holds.thrown ⟨rfl, rfl⟩ heads

theorem failSend_cases (ran : failSend env context w = .returned status after) :
    after.Holds w.rsc w.stored ∧
      (status = .rqNotificationFinishRequest ↔
        w.stored = true ∧ w.rsc.tx ≠ none ∧ w.rsc.responseHeadersFed = false ∧
          w.rsc.responseBodyEvaluated = false) ∧
      (status = .rqNotificationFinishRequest ∨ status = .rqNotificationContinue) := by
  obtain ⟨_, reported, report, policy⟩ := bind_eq_returned ran
  cases report
  rw [sendResponseExceptionPolicy, bind_returned (get_apply _)] at policy
  change (if w.stored = true ∧ w.rsc.tx ≠ none ∧ w.rsc.responseHeadersFed = false ∧
    w.rsc.responseBodyEvaluated = false then _ else _ : Program World NotificationStatus) _ = _
    at policy
  by_cases unfed : w.stored = true ∧ w.rsc.tx ≠ none ∧ w.rsc.responseHeadersFed = false ∧
      w.rsc.responseBodyEvaluated = false
  · rw [if_pos unfed] at policy
    cases present : context.responsePresent with
    | true =>
        rw [present] at policy
        cases policy
        exact ⟨⟨rfl, rfl⟩, ⟨fun _ => unfed, fun _ => rfl⟩, .inl rfl⟩
    | false =>
        rw [present] at policy
        cases policy
        exact ⟨⟨rfl, rfl⟩, ⟨fun _ => unfed, fun _ => rfl⟩, .inl rfl⟩
  · rw [if_neg unfed] at policy
    cases policy
    exact ⟨⟨rfl, rfl⟩, Iff.intro nofun fun fine => absurd fine unfed, .inr rfl⟩

end Ends

/-! ## Eligibility for blocking -/

section Blocking

variable {env : Env}

/-- The engine is asked where the switch and the rules allow blocking. -/
theorem responseBodyBlockingEnabled_apply {w : World} {tx : TransactionId} {rules : RulesSet}
    (live : w.rsc.tx = some tx) (found : w.rsc.rules = some rules)
    (block : w.rsc.responseBodyBlock = true)
    (access : rules.secResponseBodyAccess = .trueConfigBoolean) :
    responseBodyBlockingEnabled env w =
      if env.throws (w.tick + 1) then .thrown (w.advance.called env tx .getRuleEngineState)
      else .returned (env.ruleEngineState w.tick == .enabledRuleEngine)
        (w.advance.called env tx .getRuleEngineState) := by
  rw [responseBodyBlockingEnabled, bind_returned (get_apply w)]
  simp only [live, found, block, access, and_self, if_true]
  rw [bind_returned (consult_apply w _), bind_apply, engineCall_apply]
  have ticks : w.advance.tick = w.tick + 1 := rfl
  cases threw : env.throws (w.tick + 1) with
  | true => simp [ticks, threw]
  | false => simp [ticks, threw]

/-- The switch and the rules leave the decision to the engine. -/
def RequestStoredContext.AsksEngine (rsc : RequestStoredContext) : Prop :=
  ∃ tx rules, rsc.tx = some tx ∧ rsc.rules = some rules ∧ rsc.responseBodyBlock = true ∧
    rules.secResponseBodyAccess = .trueConfigBoolean

theorem responseBodyBlockingEnabled_refused {w : World} (refused : ¬ w.rsc.AsksEngine) :
    responseBodyBlockingEnabled env w = .returned false w := by
  rw [responseBodyBlockingEnabled, bind_returned (get_apply w)]
  cases live : w.rsc.tx with
  | none => rfl
  | some tx =>
      cases found : w.rsc.rules with
      | none => rfl
      | some rules =>
          have barred : ¬ (w.rsc.responseBodyBlock = true ∧
              rules.secResponseBodyAccess = .trueConfigBoolean) :=
            fun allowed => refused ⟨tx, rules, live, found, allowed⟩
          simp only [if_neg barred]
          rfl

theorem responseBodyBlockingEnabled_off {w : World} (off : w.rsc.responseBodyBlock = false) :
    responseBodyBlockingEnabled env w = .returned false w := by
  apply responseBodyBlockingEnabled_refused
  rintro ⟨tx, rules, live, found, block, access⟩
  rw [off] at block
  cases block

theorem responseBodyBlockingEnabled_allowed {w after : World}
    (ran : responseBodyBlockingEnabled env w = .returned true after) : w.rsc.AsksEngine := by
  by_contra refused
  rw [responseBodyBlockingEnabled_refused refused] at ran
  cases ran

end Blocking

/-! ## Where nothing throws -/

/-- No step throws from the given tick on. -/
def Env.CalmFrom (env : Env) (tick : Nat) : Prop := ∀ later, tick ≤ later → env.throws later = false

/-- A condition on states from a tick on that answers and engine calls do not change. -/
structure Steady (start : Nat) (holds : World → Prop) : Prop where
  since : ∀ w, holds w → start ≤ w.tick
  advanced : ∀ w, holds w → holds w.advance
  logged : ∀ w tx call completed, holds w →
    holds { w with log := w.log ++ [.engine tx call completed] }

section Calm

variable {env : Env} {context : HttpContext} {start : Nat} {holds : World → Prop}
variable (steady : Steady start holds)

include steady

theorem consult_delivers {α : Type} (answer : Nat → α) :
    Completes holds (consult answer) fun _ => holds :=
  fun w kept => ⟨answer w.tick, w.advance, rfl, steady.advanced w kept⟩

variable (calm : env.CalmFrom start)

include calm

theorem engineCall_delivers (tx : TransactionId) (call : EngineCall) :
    Completes holds (engineCall env tx call) fun _ => holds := by
  intro w kept
  refine ⟨(), w.called env tx call, ?_, steady.logged _ _ _ _ (steady.advanced w kept)⟩
  rw [engineCall_apply, if_neg (by simp [calm w.tick (steady.since w kept)])]

theorem appendFileLoop_delivers (tx : TransactionId) (bound : Nat) (rest : Bytes)
    (length appended : Nat) :
    Completes holds (appendFileLoop env tx bound rest length appended) fun _ => holds := by
  induction bound generalizing rest length appended with
  | zero => exact Completes.pure fun _ kept => kept
  | succ bound ih =>
      rw [appendFileLoop]
      split
      · exact Completes.pure fun _ kept => kept
      · apply Completes.bind _ (consult_delivers steady _)
        intro answer
        dsimp only
        split
        · exact Completes.pure fun _ kept => kept
        · apply Completes.bind _ (engineCall_delivers steady calm tx _)
          intro _
          exact ih _ _ _

theorem appendResponseFileChunk_delivers (tx : TransactionId) (file : Bytes)
    (first length : Nat) :
    Completes holds (appendResponseFileChunk env tx file first length) fun _ => holds := by
  apply Completes.bind _ (consult_delivers steady _)
  intro duplicated
  split
  · apply Completes.bind _ (consult_delivers steady _)
    intro positioned
    split
    · apply Completes.bind fun _ => holds
      · unfold rangeLength
        split
        · apply Completes.bind _ (consult_delivers steady _)
          intro sized
          exact Completes.pure fun _ kept => kept
        · exact Completes.pure fun _ kept => kept
      · intro remaining
        exact appendFileLoop_delivers steady calm tx _ _ _ _
    · exact Completes.pure fun _ kept => kept
  · exact Completes.pure fun _ kept => kept

theorem inspectChunks_delivers (tx : TransactionId) (chunks : List DataChunk) :
    Completes holds (inspectChunks env tx chunks) fun _ => holds := by
  apply Completes.foldEach
  intro respInspected chunk _
  cases chunk with
  | fromMemory buffer =>
      rw [inspectChunk]
      split
      · apply Completes.bind _ (engineCall_delivers steady calm tx _)
        intro _
        exact Completes.pure fun _ kept => kept
      · exact Completes.pure fun _ kept => kept
  | fromFileHandle file first length =>
      rw [inspectChunk]
      split
      · apply Completes.bind _ (appendResponseFileChunk_delivers steady calm tx _ _ _)
        intro _
        exact Completes.pure fun _ kept => kept
      · exact Completes.pure fun _ kept => kept
  | other => exact Completes.pure fun _ kept => kept

end Calm

end ModSecurityIIS
