import ModSecurityIIS.TransactionUse

/-!
# The owner of a transaction

A transaction made by `OnBeginRequest` belongs to the stored context, or to the handler
while the context is not stored. Whoever owns it deletes it after `processLogging`, and
lets the rules go after that. A `processLogging` that throws skips the `delete`.
-/

set_option autoImplicit false

namespace ModSecurityIIS

open Imperative Program Transition

/-! ## Accounts -/

/-- The events that make, delete or let go. -/
def Event.Owns : Event → Prop
  | .constructTransaction _ => True
  | .destroyTransaction _ => True
  | .releaseRules => True
  | _ => False

theorem Event.Idle.not_owns {event : Event} (idle : event.Idle) : ¬ event.Owns := by
  cases event with
  | response op => exact id
  | readEntityBody => exact id
  | insertEntityBody body result => exact id
  | _ => exact absurd idle id

def Event.failsLogging : Event → Bool
  | .engine _ .processLogging false => true
  | _ => false

/-- Every `processLogging` so far has returned. -/
def LoggingReturns (log : List Event) : Prop := ∀ event ∈ log, event.failsLogging = false

instance (log : List Event) : Decidable (LoggingReturns log) :=
  inferInstanceAs (Decidable (∀ event ∈ log, event.failsLogging = false))

/-- Every transaction but the running one was deleted once, and the rules were let go
only when those made before had been deleted. -/
structure Accounts (running : Option TransactionId) (log : List Event) : Prop where
  ended : ∀ tx, .constructTransaction tx ∈ log → running ≠ some tx →
    log.count (.destroyTransaction tx) = 1
  alive : ∀ tx, running = some tx → log.count (.destroyTransaction tx) = 0
  born : ∀ tx, running = some tx → .constructTransaction tx ∈ log
  known : ∀ tx, .destroyTransaction tx ∈ log → .constructTransaction tx ∈ log
  released : ∀ before, before ++ [.releaseRules] <+: log → ∀ tx,
    .constructTransaction tx ∈ before → .destroyTransaction tx ∈ before

section Accounts

variable {running : Option TransactionId} {log : List Event} {tx : TransactionId}

theorem Accounts.record {event : Event} (accounts : Accounts running log) (quiet : ¬ event.Owns) :
    Accounts running (log ++ [event]) := by
  have different (other : Event) (owns : other.Owns) : other ≠ event := by
    rintro rfl
    exact quiet owns
  have same (other : Event) (owns : other.Owns) : other ∈ log ++ [event] ↔ other ∈ log := by
    simp [different other owns]
  have count (tx : TransactionId) :
      (log ++ [event]).count (.destroyTransaction tx) = log.count (.destroyTransaction tx) := by
    have absent : Event.destroyTransaction tx ∉ [event] := by
      simp [different (.destroyTransaction tx) trivial]
    rw [List.count_append, List.count_eq_zero.mpr absent, Nat.add_zero]
  constructor
  · intro tx made
    rw [count]
    exact accounts.ended tx ((same (.constructTransaction tx) trivial).mp made)
  · intro tx live
    rw [count]
    exact accounts.alive tx live
  · intro tx live
    exact (same (.constructTransaction tx) trivial).mpr (accounts.born tx live)
  · intro tx gone
    have early := (same (.destroyTransaction tx) trivial).mp gone
    exact (same (.constructTransaction tx) trivial).mpr (accounts.known tx early)
  · intro before release
    rcases List.prefix_concat_iff.mp release with whole | earlier
    · have last := (List.append_inj' whole rfl).2
      exact absurd (List.cons.inj last).1 (different _ trivial)
    · exact accounts.released before earlier

theorem Accounts.append {events : List Event} (accounts : Accounts running log)
    (quiet : ∀ event ∈ events, ¬ event.Owns) : Accounts running (log ++ events) := by
  induction events generalizing log with
  | nil => simpa using accounts
  | cons event rest ih =>
      have first := accounts.record (quiet event (.head _))
      have whole := ih first fun other member => quiet other (.tail _ member)
      simpa using whole

theorem Accounts.made (accounts : Accounts none log) (new : .constructTransaction tx ∉ log) :
    Accounts (some tx) (log ++ [.constructTransaction tx]) := by
  have undeleted : .destroyTransaction tx ∉ log := fun gone => new (accounts.known tx gone)
  have count (other : TransactionId) :
      (log ++ [Event.constructTransaction tx]).count (.destroyTransaction other) =
        log.count (.destroyTransaction other) := by simp
  constructor
  · intro other made others
    rw [count]
    rcases List.mem_append.mp made with early | late
    · exact accounts.ended other early nofun
    · cases List.mem_singleton.mp late
      exact absurd rfl others
  · rintro other ⟨⟩
    rw [count]
    exact List.count_eq_zero.mpr undeleted
  · rintro other ⟨⟩
    simp
  · intro other gone
    have early : .destroyTransaction other ∈ log := by simpa using gone
    exact List.mem_append_left _ (accounts.known other early)
  · intro before release
    rcases List.prefix_concat_iff.mp release with whole | earlier
    · have last := (List.append_inj' whole rfl).2
      cases (List.cons.inj last).1
    · exact accounts.released before earlier

theorem Accounts.deleted (accounts : Accounts (some tx) log) :
    Accounts none (log ++ [.destroyTransaction tx]) := by
  constructor
  · intro other made _
    have early : .constructTransaction other ∈ log := by simpa using made
    by_cases own : other = tx
    · subst own
      rw [List.count_append, accounts.alive other rfl]
      simp
    · have kept := accounts.ended other early fun same => own (Option.some.inj same).symm
      have none_here : Event.destroyTransaction other ∉ [Event.destroyTransaction tx] := by
        simpa using own
      rw [List.count_append, kept, List.count_eq_zero.mpr none_here]
  · nofun
  · nofun
  · intro other gone
    rcases List.mem_append.mp gone with early | late
    · exact List.mem_append_left _ (accounts.known other early)
    · cases List.mem_singleton.mp late
      exact List.mem_append_left _ (accounts.born tx rfl)
  · intro before release
    rcases List.prefix_concat_iff.mp release with whole | earlier
    · have last := (List.append_inj' whole rfl).2
      cases (List.cons.inj last).1
    · exact accounts.released before earlier

theorem Accounts.letGo (accounts : Accounts none log) : Accounts none (log ++ [.releaseRules]) := by
  constructor
  · intro tx made others
    have early : .constructTransaction tx ∈ log := by simpa using made
    have kept := accounts.ended tx early others
    simpa using kept
  · nofun
  · nofun
  · intro tx gone
    have early : .destroyTransaction tx ∈ log := by simpa using gone
    exact List.mem_append_left _ (accounts.known tx early)
  · intro before release tx made
    rcases List.prefix_concat_iff.mp release with whole | earlier
    · obtain ⟨rfl, -⟩ := List.append_inj' whole rfl
      have once := accounts.ended tx made nofun
      exact List.one_le_count_iff.mp (by omega)
    · exact accounts.released before earlier tx made

theorem Accounts.count_le_one (accounts : Accounts running log) (tx : TransactionId) :
    log.count (.destroyTransaction tx) ≤ 1 := by
  by_cases gone : .destroyTransaction tx ∈ log
  · by_cases live : running = some tx
    · exact absurd gone (List.count_eq_zero.mp (accounts.alive tx live))
    · exact Nat.le_of_eq (accounts.ended tx (accounts.known tx gone) live)
  · rw [List.count_eq_zero.mpr gone]
    omega

end Accounts

/-! ## The callbacks keep the accounts -/

/-- The transaction of the stored context runs, and no other one. -/
structure World.Accounted (w : World) : Prop where
  accounts : Accounts w.rsc.tx w.log
  stored : w.rsc.tx ≠ none → w.stored = true

/-- No transaction is made, and while every `processLogging` returns the accounts are kept. -/
structure KeepsAccounts (w after : World) : Prop where
  grows : w.log <+: after.log
  made : ∀ tx, .constructTransaction tx ∈ after.log → .constructTransaction tx ∈ w.log
  keeps : LoggingReturns after.log → w.Accounted → after.Accounted

theorem LoggingReturns.of_prefix {log longer : List Event} (logged : LoggingReturns longer)
    (grows : log <+: longer) : LoggingReturns log :=
  fun event early => logged event (grows.subset early)

instance : IsPreorder World KeepsAccounts where
  refl _ := ⟨List.prefix_rfl, fun _ => id, fun _ => id⟩
  trans _ _ _ first second :=
    { grows := first.grows.trans second.grows
      made := fun tx late => first.made tx (second.made tx late)
      keeps := fun logged accounted =>
        second.keeps logged (first.keeps (logged.of_prefix second.grows) accounted) }

theorem keepsAccounts_of_quiet {w after : World} (same : after.rsc.tx = w.rsc.tx)
    (stored : after.stored = w.stored)
    (logged : ∃ events, after.log = w.log ++ events ∧ ∀ event ∈ events, ¬ event.Owns) :
    KeepsAccounts w after := by
  obtain ⟨events, shape, quiet⟩ := logged
  constructor
  · exact ⟨events, shape.symm⟩
  · intro tx made
    rw [shape] at made
    rcases List.mem_append.mp made with early | late
    · exact early
    · exact absurd trivial (quiet _ late)
  · rintro - ⟨accounts, held⟩
    constructor
    · rw [same, shape]
      exact accounts.append quiet
    · rw [same, stored]
      exact held

theorem keepsAccounts_of_frame {α : Type} {program : Program World α}
    (within : Within (Frame SameTransaction fun event => ¬ event.Owns) program) :
    Within KeepsAccounts program :=
  fun w => keepsAccounts_of_quiet (within w).context (within w).stored (within w).logged

/-- What the finalisation of a context does to the log. -/
structure ClosesAccounts (running : Option TransactionId) (w after : World) : Prop where
  context : after.rsc = w.rsc
  stored : after.stored = w.stored
  grows : w.log <+: after.log
  made : ∀ tx, .constructTransaction tx ∈ after.log → .constructTransaction tx ∈ w.log
  closes : LoggingReturns after.log → Accounts running w.log → Accounts none after.log

section Steps

variable {env : Env} {context : HttpContext}

theorem finalizeTransaction_accounts (running : Option TransactionId) (w : World) :
    ∃ after, finalizeTransaction env running w = .returned () after ∧
      ClosesAccounts running w after := by
  cases running with
  | none => exact ⟨w, rfl, rfl, rfl, List.prefix_rfl, fun _ => id, fun _ => id⟩
  | some tx =>
      rw [finalizeTransaction, tryCatch_apply, bind_apply, engineCall_apply]
      cases threw : env.throws w.tick with
      | true =>
          refine ⟨_, rfl, rfl, rfl, ⟨_, rfl⟩, ?_, ?_⟩
          · intro other made
            simpa [World.called, threw] using made
          · intro logged
            have returned := logged (.engine tx .processLogging false)
              (by simp [World.called, threw])
            cases returned
      | false =>
          let logged := w.log ++ [Event.engine tx .processLogging true]
          let after : World :=
            { w.called env tx .processLogging with log := logged ++ [.destroyTransaction tx] }
          have ran : record (.destroyTransaction tx) (w.called env tx .processLogging) =
              .returned () after := by
            simp [record, after, logged, World.called, threw]
          refine ⟨after, ?_, rfl, rfl, ?_, ?_, ?_⟩
          · simp only [Bool.false_eq_true, if_false]
            rw [ran]
          · exact (List.prefix_append _ _).trans (List.prefix_append _ _)
          · intro other made
            simpa [after, logged] using made
          · intro _ accounts
            have ended : Accounts (some tx) logged := accounts.record id
            exact ended.deleted

theorem finishContext_accounts (rsc : RequestStoredContext) (w : World) :
    ∃ after, finishContext env rsc w = .returned { rsc with tx := none, rules := none } after ∧
      ClosesAccounts rsc.tx w after := by
  obtain ⟨middle, ran, closed⟩ := @finalizeTransaction_accounts env rsc.tx w
  rw [finishContext, bind_returned ran]
  cases rsc.rules with
  | none => exact ⟨middle, rfl, closed⟩
  | some rules =>
      refine ⟨_, rfl, closed.context, closed.stored,
        closed.grows.trans (List.prefix_append _ _), ?_, ?_⟩
      · intro tx made
        apply closed.made
        simpa using made
      · intro logged accounts
        have ended := closed.closes (logged.of_prefix (List.prefix_append _ _)) accounts
        exact ended.letGo

theorem finishRequest_accounts (w : World) :
    ∃ after, finishRequest env w = .returned () after ∧ KeepsAccounts w after ∧
      after.rsc.tx = none := by
  obtain ⟨middle, ran, closed⟩ := @finishContext_accounts env w.rsc w
  refine ⟨{ middle with rsc := { w.rsc with tx := none, rules := none } }, ?_, ?_, rfl⟩
  · rw [finishRequest, bind_returned (get_apply w), bind_returned ran, modifyContext_apply]
  · refine ⟨closed.grows, closed.made, ?_⟩
    intro logged accounted
    exact ⟨closed.closes logged accounted.accounts, fun live => absurd rfl live⟩

theorem finishRequest_keepsAccounts : Within KeepsAccounts (finishRequest env) := by
  intro w
  obtain ⟨after, ran, keeps, -⟩ := @finishRequest_accounts env w
  rw [ran]
  exact keeps

theorem engineCall_keepsAccounts {tx : TransactionId} {call : EngineCall} :
    Within KeepsAccounts (engineCall env tx call) :=
  keepsAccounts_of_frame (engineCall_frame fun _ => id)

theorem contextCall_keepsAccounts {call : EngineCall} :
    Within KeepsAccounts (contextCall env call) :=
  keepsAccounts_of_frame (contextCall_frame fun _ _ => id)

theorem disrupt_keepsAccounts {tx : TransactionId} {it : Intervention} :
    Within KeepsAccounts (disrupt env context tx it) := by
  unfold disrupt
  split
  · apply Within.bind (keepsAccounts_of_frame (respond_frame id))
    intro _
    apply Within.bind (keepsAccounts_of_frame (answerIntervention_frame it fun _ _ => id))
    intro status
    apply Within.bind engineCall_keepsAccounts
    intro _
    apply Within.bind
    · exact fun _ => keepsAccounts_of_quiet rfl rfl ⟨[], (List.append_nil _).symm, by simp⟩
    · intro _
      apply Within.bind (keepsAccounts_of_frame (record_frame id))
      intro _
      exact finishRequest_keepsAccounts
  · exact Within.halt _

theorem applyIntervention_keepsAccounts (canBlock : Bool) :
    Within KeepsAccounts (applyIntervention env context canBlock) := by
  refine Within.bind Within.get fun w => ?_
  split
  · exact Within.pure _
  · apply Within.bind (keepsAccounts_of_frame (pendingIntervention_frame env _ fun _ _ => id))
    intro reported
    split
    · exact Within.pure _
    · apply Within.bind (keepsAccounts_of_frame (mayThrow_frame env))
      intro _
      split
      · exact Within.bind disrupt_keepsAccounts fun _ => Within.pure _
      · exact Within.pure _

theorem bodySteps_keepsAccounts : BodySteps env context KeepsAccounts where
  plain _ _ plain := by
    obtain ⟨events, shape, idle⟩ := plain.logged
    exact keepsAccounts_of_quiet plain.context.1 plain.stored
      ⟨events, shape, fun event member => (idle event member).not_owns⟩
  appends _ := contextCall_keepsAccounts
  evaluates := contextCall_keepsAccounts
  intervenes := applyIntervention_keepsAccounts true

theorem inspectRequest_keepsAccounts (req : HttpRequest) (tx : TransactionId) :
    Within KeepsAccounts (inspectRequest env context req tx) := by
  have describes : Within KeepsAccounts (describeRequest env context req tx) :=
    keepsAccounts_of_frame
      (describeRequest_frame env context req tx (fun _ _ => rfl) fun _ _ _ => id)
  have phase : Within KeepsAccounts (requestHeaderPhase env context req tx) := by
    apply Within.bind describes
    intro _
    apply Within.bind engineCall_keepsAccounts
    intro _
    exact applyIntervention_keepsAccounts true
  apply Within.bind phase
  intro blocked
  split
  · exact Within.pure _
  · exact Within.bind (beginBodyRead_within bodySteps_keepsAccounts) fun _ => Within.pure _

/-! ## The send-response handler -/

theorem blockingEnabled_keepsAccounts :
    Within KeepsAccounts (responseBodyBlockingEnabled env) := by
  refine Within.bind Within.get fun w => ?_
  split
  · split
    · apply Within.bind (keepsAccounts_of_frame (consult_frame _))
      intro state
      exact Within.bind engineCall_keepsAccounts fun _ => Within.pure _
    · exact Within.pure _
  · exact Within.pure _

theorem modifyContext_keepsAccounts {f : RequestStoredContext → RequestStoredContext}
    (same : ∀ rsc, (f rsc).tx = rsc.tx) : Within KeepsAccounts (modifyContext f) :=
  keepsAccounts_of_frame (modifyContext_frame same)

theorem evaluateBody_keepsAccounts : Within KeepsAccounts (evaluateBody env) := by
  refine Within.bind (modifyContext_keepsAccounts fun _ => rfl) fun _ => ?_
  exact contextCall_keepsAccounts

variable {notification : SendResponse}

theorem headerPhase_keepsAccounts (tx : TransactionId) :
    Within KeepsAccounts (headerPhase env context notification tx) := by
  apply headerPhase_within
  · exact keepsAccounts_of_frame (addKnownHeaders_frame _ _ fun _ _ _ => id)
  · exact keepsAccounts_of_frame (addUnknownHeaders_frame _ fun _ _ _ => id)
  · exact keepsAccounts_of_frame (mayThrow_frame env)
  · exact fun _ _ => engineCall_keepsAccounts
  · exact blockingEnabled_keepsAccounts
  · exact applyIntervention_keepsAccounts
  · exact modifyContext_keepsAccounts fun _ => rfl

theorem bodyPhase_keepsAccounts (tx : TransactionId) :
    Within KeepsAccounts (bodyPhase env context notification tx) := by
  apply bodyPhase_within
  · exact keepsAccounts_of_frame (inspectChunks_frame (fun _ _ => id) _)
  · intro respInspected
    apply modeA_within blockingEnabled_keepsAccounts
    · exact modifyContext_keepsAccounts fun _ => rfl
    · exact keepsAccounts_of_frame (pinContentLength_frame fun _ _ => id)
    · exact evaluateBody_keepsAccounts
    · exact applyIntervention_keepsAccounts true
  · exact modeB_within blockingEnabled_keepsAccounts evaluateBody_keepsAccounts
      (applyIntervention_keepsAccounts false)

theorem onSendResponse_keepsAccounts :
    Within KeepsAccounts (onSendResponse env context notification) := by
  apply onSendResponse_within
  · exact headerPhase_keepsAccounts
  · exact bodyPhase_keepsAccounts
  · exact keepsAccounts_of_frame (failSend_frame id env context)

/-! ## The begin-request handler -/

def World.Unopened (w : World) : Prop := ∀ tx, .constructTransaction tx ∉ w.log

/-- The handler that makes the transaction: it starts on a request that has none. -/
structure OpensAccounts (w after : World) : Prop where
  grows : w.log <+: after.log
  keeps : LoggingReturns after.log → w.Unopened → w.Accounted → after.Accounted

theorem KeepsAccounts.opens {w after : World} (keeps : KeepsAccounts w after) :
    OpensAccounts w after :=
  ⟨keeps.grows, fun logged _ accounted => keeps.keeps logged accounted⟩

theorem KeepsAccounts.then {w middle after : World} (first : KeepsAccounts w middle)
    (second : OpensAccounts middle after) : OpensAccounts w after := by
  refine ⟨first.grows.trans second.grows, ?_⟩
  intro logged unopened accounted
  apply second.keeps logged
  · exact fun tx made => unopened tx (first.made tx made)
  · exact first.keeps (logged.of_prefix second.grows) accounted

theorem OpensAccounts.andThen {α β : Type} {program : Program World α}
    {next : α → Program World β} (opens : Within OpensAccounts program)
    (keeps : ∀ value, Within KeepsAccounts (next value)) :
    Within OpensAccounts (program >>= next) := by
  refine Within.seq opens keeps ?_ fun _ _ => id
  intro s t u first second
  refine ⟨first.grows.trans second.grows, ?_⟩
  intro logged unopened accounted
  exact second.keeps logged (first.keeps (logged.of_prefix second.grows) unopened accounted)

/-- The transaction is made, and the handler holds the only pointer to it. -/
structure Makes (w : World) (tx : TransactionId) (after : World) : Prop where
  context : after.rsc = w.rsc
  stored : after.stored = w.stored
  log : after.log = w.log ++ [.constructTransaction tx]

theorem newTransaction_opens (w : World) :
    match newTransaction env w with
    | .returned (some tx) after => Makes w tx after
    | .returned none after => KeepsAccounts w after
    | .thrown after => KeepsAccounts w after
    | .halted _ after => KeepsAccounts w after := by
  have waits (other : World) (log : other.log = w.log) (rsc : other.rsc = w.rsc)
      (stored : other.stored = w.stored) : KeepsAccounts w other :=
    keepsAccounts_of_quiet (by rw [rsc]) stored ⟨[], by rw [log, List.append_nil], by simp⟩
  rw [newTransaction, bind_apply, mayThrow_apply]
  cases env.throws w.tick with
  | true => exact waits _ rfl rfl rfl
  | false =>
      simp only [Bool.false_eq_true, if_false]
      rw [bind_returned (consult_apply _ _)]
      cases env.succeeds w.advance.tick with
      | false => exact waits _ rfl rfl rfl
      | true =>
          simp only [if_true]
          rw [bind_apply, mayThrow_apply]
          cases env.throws w.advance.advance.tick with
          | true => exact waits _ rfl rfl rfl
          | false => exact ⟨rfl, rfl, rfl⟩

theorem Makes.accounts {w opened : World} {tx : TransactionId} (makes : Makes w tx opened)
    (unopened : w.Unopened) (accounted : w.Accounted) :
    w.rsc.tx = none ∧ Accounts (some tx) opened.log := by
  have gone : w.rsc.tx = none := by
    cases live : w.rsc.tx with
    | none => rfl
    | some other => exact absurd (accounted.accounts.born other live) (unopened other)
  have accounts := accounted.accounts
  rw [gone] at accounts
  refine ⟨gone, ?_⟩
  rw [makes.log]
  exact accounts.made (unopened tx)

/-- A context that is not stored is released by the handler, and its transaction with it. -/
theorem Makes.closed {w opened middle after : World} {tx : TransactionId}
    (makes : Makes w tx opened) (closed : ClosesAccounts (some tx) middle after)
    (log : middle.log = opened.log) (context : middle.rsc = opened.rsc) :
    OpensAccounts w after := by
  constructor
  · have grown := closed.grows
    rw [log, makes.log] at grown
    exact (List.prefix_append _ _).trans grown
  · intro logged unopened accounted
    obtain ⟨gone, running⟩ := makes.accounts unopened accounted
    have same : after.rsc.tx = none := by rw [closed.context, context, makes.context, gone]
    rw [← log] at running
    constructor
    · rw [same]
      exact closed.closes logged running
    · exact fun live => absurd same live

theorem Makes.stored_opens {w opened middle : World} {tx : TransactionId}
    (makes : Makes w tx opened) (log : middle.log = opened.log)
    (live : middle.rsc.tx = some tx) (stored : middle.stored = true) :
    OpensAccounts w middle := by
  constructor
  · rw [log, makes.log]
    exact List.prefix_append _ _
  · intro _ unopened accounted
    obtain ⟨-, running⟩ := makes.accounts unopened accounted
    constructor
    · rw [live, log]
      exact running
    · exact fun _ => stored

theorem openTransaction_opensAccounts (config : ModsecurityStoredContext) (rules : RulesSet) :
    Within OpensAccounts (openTransaction env context config rules) := by
  intro w
  have made := @newTransaction_opens env w
  rw [openTransaction, bind_apply]
  cases ran : newTransaction env w with
  | thrown after => rw [ran] at made; exact made.opens
  | halted reason after => rw [ran] at made; exact made.opens
  | returned created opened =>
      rw [ran] at made
      cases created with
      | none => exact made.opens
      | some tx =>
          have makes : Makes w tx opened := made
          dsimp only
          rw [bind_returned (consult_apply opened _)]
          cases env.succeeds opened.tick with
          | false =>
              have closes : ClosesAccounts (some tx) opened
                  { opened.advance with log := opened.log ++ [.destroyTransaction tx] } :=
                ⟨rfl, rfl, List.prefix_append _ _, fun other again => by simpa using again,
                  fun _ accounts => accounts.deleted⟩
              rw [if_neg Bool.false_ne_true]
              exact makes.closed closes rfl rfl
          | true =>
              simp only [if_true]
              generalize owner : ({ RequestStoredContext.new with
                tx := some tx
                rules := some rules
                responseBodyBlock := config.responseBodyBlock } : RequestStoredContext) = rsc
              have live : rsc.tx = some tx := by rw [← owner]
              obtain ⟨shr, middle, answered, stores⟩ :=
                setModuleContext_stores env rsc opened.advance
              obtain ⟨after, finished, closed⟩ := @finishContext_accounts env rsc middle
              rw [live] at closed
              rw [bind_returned answered]
              cases stores with
              | assigned =>
                  have failed : (HResult.fromWin32 errorAlreadyAssigned).failed = true := rfl
                  rw [if_pos failed, bind_returned finished, if_pos rfl]
                  exact makes.closed closed rfl rfl
              | refused failed other =>
                  rw [if_pos failed, bind_returned finished, if_neg other]
                  exact makes.closed closed rfl rfl
              | stored =>
                  have opens : OpensAccounts w { opened.advance.advance with rsc, stored := true } :=
                    makes.stored_opens rfl live rfl
                  have taken : ¬ HResult.sOk.failed = true := Bool.false_ne_true
                  rw [if_neg taken]
                  cases context.rawRequest with
                  | none => exact opens
                  | some req =>
                      have keeps := @inspectRequest_keepsAccounts env context req tx
                        { opened.advance.advance with rsc, stored := true }
                      refine ⟨opens.grows.trans keeps.grows, ?_⟩
                      intro logged unopened accounted
                      have held := opens.keeps (logged.of_prefix keeps.grows) unopened accounted
                      exact keeps.keeps logged held

theorem silent_keepsAccounts {α : Type} {program : Program World α}
    (same : ∀ w, (program w).state.rsc = w.rsc ∧ (program w).state.stored = w.stored ∧
      (program w).state.log = w.log) : Within KeepsAccounts program := by
  intro w
  obtain ⟨context, stored, log⟩ := same w
  exact keepsAccounts_of_quiet (by rw [context]) stored
    ⟨[], by rw [log, List.append_nil], by simp⟩

theorem beginRequestBlock_opensAccounts :
    Within OpensAccounts (beginRequestBlock env (some context)) := by
  have plain := (@bodySteps_keepsAccounts env context).plain
  apply beginRequestBlock_within
  · exact fun w after early => (plain w after early).opens
  · exact fun w middle after early late => (plain w middle early).then late
  · exact openTransaction_opensAccounts

theorem onBeginRequest_opensAccounts :
    Within OpensAccounts (onBeginRequest env (some context)) := by
  have recovers : Within KeepsAccounts (do
      reportException env "OnBeginRequest"
      pure (BlockExit.finish .rqNotificationFinishRequest)) :=
    Within.bind (keepsAccounts_of_frame (reportException_frame env _)) fun _ => Within.pure _
  refine OpensAccounts.andThen (Within.recover beginRequestBlock_opensAccounts recovers ?_ ?_)
    fun _ => Within.pure _
  · intro s t u first second
    refine ⟨first.grows.trans second.grows, ?_⟩
    intro logged unopened accounted
    have held := first.keeps (logged.of_prefix second.grows) unopened accounted
    exact second.keeps logged held
  · exact fun _ _ => id

theorem cleanupStoredContext_accounts (w : World) :
    ∃ after, cleanupStoredContext env w = .returned () after ∧ KeepsAccounts w after ∧
      after.stored = false := by
  rw [cleanupStoredContext, bind_returned (get_apply w)]
  cases stored : w.stored with
  | false => exact ⟨w, rfl, refl_of KeepsAccounts w, stored⟩
  | true =>
      obtain ⟨after, ran, keeps, gone⟩ := @finishRequest_accounts env w
      refine ⟨{ after with stored := false }, ?_, ⟨keeps.grows, keeps.made, ?_⟩, rfl⟩
      · rw [when_true, bind_returned ran]
        rfl
      · intro logged accounted
        exact ⟨(keeps.keeps logged accounted).accounts, fun live => absurd gone live⟩

end Steps

/-! ## Every run -/

theorem Occurrence.run_keepsAccounts (occurrence : Occurrence)
    (follows : occurrence.callback ≠ .beginRequest) : Within KeepsAccounts occurrence.run := by
  obtain ⟨env, context, callback⟩ := occurrence
  cases callback with
  | beginRequest => exact absurd rfl follows
  | asyncCompletion completion => exact onAsyncCompletion_within bodySteps_keepsAccounts completion
  | readCompleted => exact completeRead_within bodySteps_keepsAccounts
  | sendResponse notification =>
      refine Within.bind (silent_keepsAccounts fun _ => ⟨rfl, rfl, rfl⟩) fun _ => ?_
      exact onSendResponse_keepsAccounts
  | postEndRequest => exact Within.pure _
  | cleanupStoredContext =>
      refine Within.bind (fun w => ?_) fun _ => Within.pure _
      obtain ⟨after, ran, keeps, -⟩ := @cleanupStoredContext_accounts env w
      rw [ran]
      exact keeps

/-- No `processLogging` throws in the callback. -/
def RequestState.Logs (s : RequestState) (occurrence : Occurrence) : Prop :=
  LoggingReturns (occurrence.run s.world).state.log

structure RequestState.Owned (s : RequestState) : Prop where
  accounted : s.world.Accounted
  unopened : s.begun = false → s.world.Unopened

theorem owned_step {s after : RequestState} {occurrence : Occurrence} (owned : s.Owned)
    (logs : s.Logs occurrence) (step : RequestStep s occurrence after) : after.Owned := by
  cases step with
  | begins allowed =>
      constructor
      · exact (onBeginRequest_opensAccounts s.world).keeps logs (owned.unopened allowed)
          owned.accounted
      · nofun
  | follows other allowed =>
      have keeps := occurrence.run_keepsAccounts other s.world
      constructor
      · exact keeps.keeps logs owned.accounted
      · exact fun unbegun tx made => owned.unopened unbegun tx (keeps.made tx made)

theorem owned_of_reaches {s : RequestState} (reached : requestSystem.Reaches RequestState.Logs s) :
    s.Owned := by
  apply System.Reaches.invariant _ _ reached
  · rintro state ⟨empty, released, -⟩
    constructor
    · constructor
      · rw [empty, released]
        exact ⟨nofun, nofun, nofun, nofun, fun before release => by simp at release⟩
      · exact fun live => absurd released live
    · intro _ tx made
      rw [empty] at made
      cases made
  · exact fun _ _ _ owned logs step => owned_step owned logs step

/-- A transaction is deleted once, by the cleanup of its context at the latest, and its
rules are let go after that. -/
structure RequestState.Disposes (s : RequestState) : Prop where
  deleted : ∀ tx, .constructTransaction tx ∈ s.world.log →
    s.world.log.count (.destroyTransaction tx) = 1 ∨
      (s.world.log.count (.destroyTransaction tx) = 0 ∧ s.world.stored = true ∧
        s.world.rsc.tx = some tx)
  atMostOnce : ∀ tx, s.world.log.count (.destroyTransaction tx) ≤ 1
  released : ∀ before, before ++ [.releaseRules] <+: s.world.log → ∀ tx,
    .constructTransaction tx ∈ before → .destroyTransaction tx ∈ before
  cleaned : ∀ env, LoggingReturns (cleanupStoredContext env s.world).state.log → ∀ tx,
    .constructTransaction tx ∈ s.world.log →
      (cleanupStoredContext env s.world).state.log.count (.destroyTransaction tx) = 1

theorem World.Accounted.deleted {w : World} (accounted : w.Accounted) {tx : TransactionId}
    (made : .constructTransaction tx ∈ w.log) :
    w.log.count (.destroyTransaction tx) = 1 ∨
      (w.log.count (.destroyTransaction tx) = 0 ∧ w.stored = true ∧ w.rsc.tx = some tx) := by
  by_cases live : w.rsc.tx = some tx
  · right
    refine ⟨accounted.accounts.alive tx live, accounted.stored ?_, live⟩
    simp [live]
  · left
    exact accounted.accounts.ended tx made live

/-- While `processLogging` does not throw, every transaction is deleted once, before its
rules are let go. -/
theorem transaction_deleted_once {s : RequestState}
    (reached : requestSystem.Reaches RequestState.Logs s) : s.Disposes := by
  have owned := owned_of_reaches reached
  constructor
  · exact fun tx made => owned.accounted.deleted made
  · exact owned.accounted.accounts.count_le_one
  · exact owned.accounted.accounts.released
  · intro env logged tx made
    obtain ⟨after, ran, keeps, gone⟩ := @cleanupStoredContext_accounts env s.world
    rw [ran] at logged ⊢
    have kept := keeps.keeps logged owned.accounted
    rcases kept.deleted (keeps.grows.subset made) with once | ⟨-, stored, -⟩
    · exact once
    · rw [gone] at stored
      cases stored

theorem transaction_deleted_once_denied : ∃ s : RequestState,
    s.world.log.count (.constructTransaction 0) = 1 ∧
      s.world.log.count (.destroyTransaction 0) = 1 ∧ s.Disposes := by
  have start : requestSystem.Reaches RequestState.Logs
      { world := World.arrived [] [], begun := false } := .start ⟨rfl, rfl, rfl⟩
  have logs : RequestState.Logs { world := World.arrived [] [], begun := false }
      ⟨Raised.denied.env, .plain, .beginRequest⟩ := by
    unfold RequestState.Logs
    decide +kernel
  have denied := start.next logs (@RequestStep.begins _ Raised.denied.env .plain rfl)
  exact ⟨_, by decide +kernel, by decide +kernel, transaction_deleted_once denied⟩

/-- `processLogging` throws at the cleanup: the transaction is never deleted, and its rules
are let go. -/
theorem transaction_never_deleted : ∃ s : RequestState, requestSystem.Reachable s ∧
    .constructTransaction 0 ∈ s.world.log ∧ s.world.stored = false ∧
      s.world.log.count (.destroyTransaction 0) = 0 ∧ .releaseRules ∈ s.world.log ∧
      ¬ s.Disposes := by
  have start : requestSystem.Reachable { world := World.arrived [] [], begun := false } :=
    .start ⟨rfl, rfl, rfl⟩
  have begun := start.step (@RequestStep.begins _ Env.calm .plain rfl)
  have cleaned := begun.step
    (@RequestStep.follows _ ⟨{ Env.calm with throws := fun _ => true }, .plain, .cleanupStoredContext⟩
      nofun trivial)
  obtain ⟨s, reached, made, stored, kept, released⟩ : ∃ s : RequestState,
      requestSystem.Reachable s ∧ .constructTransaction 0 ∈ s.world.log ∧
        s.world.stored = false ∧ s.world.log.count (.destroyTransaction 0) = 0 ∧
        .releaseRules ∈ s.world.log :=
    ⟨_, cleaned, by decide +kernel, by decide +kernel, by decide +kernel, by decide +kernel⟩
  refine ⟨s, reached, made, stored, kept, released, ?_⟩
  intro right
  rcases right.deleted 0 made with once | ⟨-, held, -⟩
  · rw [kept] at once
    cases once
  · rw [stored] at held
    cases held

end ModSecurityIIS
