import ModSecurityIIS.Imperative.Refusal
import ModSecurityIIS.RefusalBranches
import ModSecurityIIS.RequestBody

/-!
# The status of a refused request

The requests that the handlers of the request phase finish have the status of a disruptive
intervention or 500, except on the branches of `onBeginRequestLoses` and
`onAsyncCompletionLoses`. One verdict for each function, from the state it starts in.
-/

set_option autoImplicit false

namespace ModSecurityIIS

open Imperative Program

/-- The status an operation puts on the status line. -/
def ResponseOp.statusLine : ResponseOp → Option Nat
  | .setStatus statusCode _ => some statusCode
  | .redirect _ => some 302
  | _ => none

/-- The status `ApplyIntervention` answers with. -/
def Intervention.answerStatus (it : Intervention) : Nat :=
  match it.url.getD [] with
  | [] => ((if it.status ≤ 0 then 403 else it.status) % 65536).toNat
  | _ => if 301 ≤ it.status ∧ it.status ≤ 308 then it.status.toNat else 302

/-- The status `ApplyIntervention` tells the engine. -/
def Intervention.toldStatus (it : Intervention) : Int :=
  match it.url.getD [] with
  | [] => if it.status ≤ 0 then 403 else it.status
  | _ => if 301 ≤ it.status ∧ it.status ≤ 308 then it.status else 302

/-- The status was set, and it is the one the response has. -/
def StatusSet (statusCode : Nat) (events : List Event) (after : World) : Prop :=
  after.response.statusCode = statusCode ∧
    ∃ op : ResponseOp, .response op ∈ events ∧ op.statusLine = some statusCode

/-- The module has set the status: to 500, or to that of a disruptive intervention, which is
the number the intervention has and not the 16 bits `SetStatus` takes of it. -/
def Answered (w after : World) : Prop :=
  ∃ events statusCode, after.log = w.log ++ events ∧ StatusSet statusCode events after ∧
    (statusCode = 500 ∨
      ∃ tx it, .engine tx (.intervention (some it)) true ∈ events ∧ it.disruptive ≠ 0 ∧
        (statusCode : Int) = it.toldStatus)

/-- Nothing was done that an answer is made of. -/
def Event.Calm (event : Event) : Prop := (∀ op, event ≠ .response op) ∧ ¬ event.Disruptive

def Calm (w after : World) : Prop :=
  ∃ events, after.log = w.log ++ events ∧ ∀ event ∈ events, event.Calm

def Missing (w after : World) : Prop :=
  (∃ events, after.log = w.log ++ events) ∧ ¬ Answered w after

theorem StatusSet.mono {statusCode : Nat} {events more : List Event} {after : World}
    (set : StatusSet statusCode events after) (sub : ∀ event ∈ events, event ∈ more) :
    StatusSet statusCode more after := by
  obtain ⟨status, op, member, line⟩ := set
  exact ⟨status, op, sub _ member, line⟩

theorem Answered.after {w middle after : World} (before : Calm w middle)
    (answered : Answered middle after) : Answered w after := by
  obtain ⟨front, frontShape, _⟩ := before
  obtain ⟨events, statusCode, shape, set, answer⟩ := answered
  have later : ∀ event ∈ events, event ∈ front ++ events :=
    fun _ member => List.mem_append_right _ member
  refine ⟨front ++ events, statusCode, ?_, set.mono later, answer.imp_right ?_⟩
  · rw [shape, frontShape, List.append_assoc]
  · intro intervened
    obtain ⟨tx, it, reported, rest⟩ := intervened
    exact ⟨tx, it, later _ reported, rest⟩

/-- What is answered after calm steps has been answered since they began. -/
theorem Answered.since {w middle after : World} (before : Calm w middle)
    (grown : ∃ events, after.log = middle.log ++ events) (answered : Answered w after) :
    Answered middle after := by
  obtain ⟨front, frontShape, calm⟩ := before
  obtain ⟨late, lateShape⟩ := grown
  obtain ⟨events, statusCode, shape, ⟨status, op, member, line⟩, answer⟩ := answered
  rw [lateShape, frontShape, List.append_assoc] at shape
  obtain rfl := List.append_cancel_left shape
  have later {event : Event} (found : event ∈ front ++ late) (bears : ¬ event.Calm) :
      event ∈ late := by
    rcases List.mem_append.mp found with early | late
    · exact absurd (calm event early) bears
    · exact late
  refine ⟨late, statusCode, lateShape, ⟨status, op, later member ?_, line⟩, answer.imp_right ?_⟩
  · exact fun still => still.1 op rfl
  · intro intervened
    obtain ⟨tx, it, reported, disruptive, same⟩ := intervened
    exact ⟨tx, it, later reported fun still => still.2 disruptive, disruptive, same⟩

/-- No answer without an operation on the response. -/
theorem missing_of_silent {w after : World} {events : List Event}
    (shape : after.log = w.log ++ events) (silent : ∀ op, .response op ∉ events) :
    Missing w after := by
  refine ⟨⟨events, shape⟩, ?_⟩
  intro answered
  obtain ⟨others, _, same, ⟨_, op, member, _⟩, _⟩ := answered
  rw [shape] at same
  rw [← List.append_cancel_left same] at member
  exact silent op member

/-- The answer that a request owes its client. -/
def answering : Answering World where
  calm := Calm
  answered := Answered
  missing := Missing
  refl w := ⟨[], (List.append_nil _).symm, by simp⟩
  trans := by
    intro w middle after first second
    obtain ⟨before, beforeShape, beforeCalm⟩ := first
    obtain ⟨events, shape, calm⟩ := second
    refine ⟨before ++ events, by rw [shape, beforeShape, List.append_assoc], ?_⟩
    exact List.forall_mem_append.mpr ⟨beforeCalm, calm⟩
  answered_after := Answered.after
  missing_after := by
    intro w middle after before missing
    obtain ⟨⟨events, shape⟩, unanswered⟩ := missing
    obtain ⟨front, frontShape, _⟩ := id before
    refine ⟨⟨front ++ events, by rw [shape, frontShape, List.append_assoc]⟩, ?_⟩
    exact fun answered => unanswered (answered.since before ⟨events, shape⟩)
  missing_of_calm := by
    intro w after still
    obtain ⟨events, shape, calm⟩ := still
    exact missing_of_silent shape fun op member => (calm _ member).1 op rfl
  not_answered missing := missing.2

/-- The judgement of this module. -/
abbrev Judged {α : Type} (refuses : α → Prop) (lost : Prop) (w : World)
    (outcome : Outcome World α) : Prop :=
  Verdict answering refuses lost w outcome

theorem calm_of_log {w after : World} (log : after.log = w.log) : Calm w after :=
  ⟨[], by rw [log, List.append_nil], by simp⟩

theorem calm_of_frame {α : Type} {keeps : RequestStoredContext → RequestStoredContext → Prop}
    {program : Program World α} (within : Within (Frame keeps Event.Calm) program) :
    Within Calm program :=
  fun w => (within w).logged

theorem engine_calm {tx : TransactionId} {call : EngineCall} {completed : Bool}
    (other : ∀ reported, call ≠ .intervention reported) :
    (Event.engine tx call completed).Calm := by
  refine ⟨by simp, ?_⟩
  cases call with
  | intervention reported => exact absurd rfl (other reported)
  | _ => exact id

/-! ## Interventions -/

/-- The response is the same and no disruptive intervention was reported. -/
structure SameResponse (w after : World) : Prop where
  response : after.response = w.response
  logged : ∃ events, after.log = w.log ++ events ∧ ∀ event ∈ events, ¬ event.Disruptive

instance : IsPreorder World SameResponse where
  refl _ := ⟨rfl, [], (List.append_nil _).symm, by simp⟩
  trans _ _ _ first second := by
    obtain ⟨before, beforeShape, beforeQuiet⟩ := first.logged
    obtain ⟨after, afterShape, afterQuiet⟩ := second.logged
    exact ⟨second.response.trans first.response, before ++ after,
      by rw [afterShape, beforeShape, List.append_assoc],
      List.forall_mem_append.mpr ⟨beforeQuiet, afterQuiet⟩⟩

theorem record_sameResponse {event : Event} (quiet : ¬ event.Disruptive) :
    Within SameResponse (record event) :=
  fun _ => ⟨rfl, [event], rfl, by simpa using quiet⟩

theorem writeEventViewerLog_sameResponse (message : Bytes) (category : EventCategory) :
    Within SameResponse (writeEventViewerLog message category) :=
  fun _ => ⟨rfl, [], (List.append_nil _).symm, by simp⟩

theorem engineCall_sameResponse (env : Env) (tx : TransactionId) {call : EngineCall}
    (other : ∀ reported, call ≠ .intervention reported) :
    Within SameResponse (engineCall env tx call) := by
  intro w
  have same : SameResponse w (w.called env tx call) := by
    refine ⟨rfl, _, rfl, ?_⟩
    intro event member
    cases List.mem_singleton.mp member
    exact (engine_calm other).2
  rw [engineCall_apply]
  split <;> exact same

theorem finishRequest_sameResponse (env : Env) : Within SameResponse (finishRequest env) := by
  refine Within.bind .get fun w => ?_
  apply Within.bind
  · apply Within.bind
    · cases w.rsc.tx with
      | none => exact .pure _
      | some tx =>
          apply Within.tryCatch
          · exact .bind (engineCall_sameResponse env tx (by simp)) fun _ => record_sameResponse id
          · exact writeEventViewerLog_sameResponse _ _
    · intro _
      exact .bind (.when fun _ => record_sameResponse id) fun _ => .pure _
  · intro _ s
    exact ⟨rfl, [], (List.append_nil _).symm, by simp⟩

theorem finalizeTransaction_returns (env : Env) (tx : Option TransactionId) (w : World) :
    ∃ after, finalizeTransaction env tx w = .returned () after := by
  cases tx with
  | none => exact ⟨w, rfl⟩
  | some tx =>
      rw [finalizeTransaction, tryCatch_apply, bind_apply, engineCall_apply]
      by_cases threw : env.throws w.tick = true
      · rw [if_pos threw]
        exact ⟨_, rfl⟩
      · rw [if_neg threw]
        exact ⟨_, rfl⟩

theorem finishContext_returns (env : Env) (rsc : RequestStoredContext) (w : World) :
    ∃ finished after, finishContext env rsc w = .returned finished after := by
  obtain ⟨finalized, ran⟩ := finalizeTransaction_returns env rsc.tx w
  rw [finishContext, bind_returned ran]
  cases rsc.rules <;> exact ⟨_, _, rfl⟩

/-- Since `w` the status was set, and no disruptive intervention was reported. -/
def SetSince (statusCode : Nat) (w after : World) : Prop :=
  ∃ events, after.log = w.log ++ events ∧ (∀ event ∈ events, ¬ event.Disruptive) ∧
    StatusSet statusCode events after

theorem SetSince.later {statusCode : Nat} {w middle after : World}
    (set : SetSince statusCode w middle) (same : SameResponse middle after) :
    SetSince statusCode w after := by
  obtain ⟨events, shape, quiet, status, op, member, line⟩ := set
  obtain ⟨more, grown, still⟩ := same.logged
  refine ⟨events ++ more, ?_, List.forall_mem_append.mpr ⟨quiet, still⟩, ?_, op,
    List.mem_append_left _ member, line⟩
  · rw [grown, shape, List.append_assoc]
  · rw [same.response, status]

/-- The log has grown by what is no disruptive report. -/
def Grown (w s : World) : Prop :=
  ∃ events, s.log = w.log ++ events ∧ ∀ event ∈ events, ¬ event.Disruptive

theorem respond_sets (op : ResponseOp) {statusCode : Nat} (line : op.statusLine = some statusCode)
    {w s : World} (grown : Grown w s) :
    ∃ after, respond op s = .returned () after ∧ SetSince statusCode w after := by
  obtain ⟨events, shape, quiet⟩ := grown
  refine ⟨_, rfl, events ++ [.response op], ?_, ?_, ?_, op, by simp, line⟩
  · simp only [shape, List.append_assoc]
  · exact List.forall_mem_append.mpr ⟨quiet, by simp [Event.Disruptive]⟩
  · cases op with
    | clear => cases line
    | setHeader => cases line
    | setStatus => cases line; rfl
    | redirect => cases line; rfl

theorem SetSince.grown {statusCode : Nat} {w after : World} (set : SetSince statusCode w after) :
    Grown w after := by
  obtain ⟨events, shape, quiet, _⟩ := set
  exact ⟨events, shape, quiet⟩

theorem answerIntervention_sets (it : Intervention) {w s : World} (grown : Grown w s) :
    ∃ finalStatus after, answerIntervention it s = .returned finalStatus after ∧
      SetSince it.answerStatus w after := by
  unfold answerIntervention Intervention.answerStatus
  cases it.url.getD [] with
  | nil =>
      obtain ⟨after, run, set⟩ := respond_sets (.setStatus _ (standardReason _)) rfl grown
      exact ⟨_, after, bind_returned run, set⟩
  | cons first rest =>
      obtain ⟨redirected, run, set⟩ := respond_sets (.redirect (first :: rest)) rfl grown
      dsimp only
      rw [bind_returned run]
      by_cases chosen : 301 ≤ it.status ∧ it.status ≤ 308
      · rw [if_pos chosen]
        by_cases plain : it.status = 302
        · rw [if_neg (by simp [plain]), plain]
          exact ⟨_, _, rfl, set⟩
        · rw [if_pos ⟨chosen.1, chosen.2, plain⟩]
          have fits : (it.status % 65536).toNat = it.status.toNat := by omega
          obtain ⟨after, last, final⟩ :=
            respond_sets (.setStatus (it.status % 65536).toNat (standardReason it.status)) rfl
              set.grown
          rw [fits] at final
          exact ⟨_, after, bind_returned last, final⟩
      · rw [if_neg chosen, if_neg fun narrow => chosen ⟨narrow.1, narrow.2.1⟩]
        exact ⟨_, _, rfl, set⟩

theorem answerStatus_eq_told_iff (it : Intervention) :
    (it.answerStatus : Int) = it.toldStatus ↔ it.url.getD [] ≠ [] ∨ it.status ≤ 65535 := by
  unfold Intervention.answerStatus Intervention.toldStatus
  cases it.url.getD [] with
  | nil =>
      dsimp only
      split
      · next unset =>
          simp only [ne_eq, not_true_eq_false, false_or]
          omega
      · simp only [ne_eq, not_true_eq_false, false_or]
        omega
  | cons first rest =>
      dsimp only
      split
      · simp only [ne_eq, reduceCtorEq, not_false_eq_true, true_or, iff_true]
        omega
      · simp

/-- A status is cut exactly when what is left of it is no answer. -/
theorem Intervention.cut_iff (it : Intervention) :
    it.Cut ↔ it.answerStatus ≠ 500 ∧ (it.answerStatus : Int) ≠ it.toldStatus := by
  rw [ne_eq, ne_eq, answerStatus_eq_told_iff]
  unfold Intervention.Cut Intervention.answerStatus
  cases it.url.getD [] with
  | nil =>
      simp only [true_and, ne_eq, not_true_eq_false, false_or]
      split <;> omega
  | cons first rest => simp

section Verdicts

variable {env : Env} {context : HttpContext} {w : World} {tx : TransactionId}

theorem disrupt_sets (present : context.responsePresent = true) (tx : TransactionId)
    (it : Intervention) (w : World) :
    Ensures (· = w) (disrupt env context tx it)
      (fun _ after => SetSince it.answerStatus w after) (SetSince it.answerStatus w) := by
  intro s same
  subst same
  let cleared : World :=
    { s with response := s.response.apply .clear, log := s.log ++ [.response .clear] }
  have clears : respond .clear s = .returned () cleared := rfl
  obtain ⟨finalStatus, answered, run, set⟩ :=
    answerIntervention_sets it (w := s) (s := cleared) ⟨_, rfl, by simp [Event.Disruptive]⟩
  have rest : Within SameResponse (do
      engineCall env tx (.updateStatusCode finalStatus)
      Program.modify fun w => { w with requestHandled := true }
      record .setRequestHandled
      finishRequest env) := by
    refine Within.bind (engineCall_sameResponse _ _ (by simp)) fun _ => ?_
    refine Within.bind (.modify fun _ => ⟨rfl, [], (List.append_nil _).symm, by simp⟩) fun _ => ?_
    exact .bind (record_sameResponse id) fun _ => finishRequest_sameResponse env
  rw [disrupt, if_pos present, bind_returned clears, bind_returned run]
  exact Ensures.of_within rest (fun _ _ start same => start.later same) answered set

/-- The world after `tx->intervention`. -/
def World.asked (w : World) (env : Env) (tx : TransactionId) : World :=
  w.advance.called env tx (.intervention (env.intervention w.tick))

theorem pendingIntervention_apply (tx : TransactionId) (w : World) :
    pendingIntervention env tx w =
      if env.throws (w.tick + 1) = true then .thrown (w.asked env tx)
      else .returned (env.intervention w.tick) (w.asked env tx) := by
  rw [pendingIntervention, bind_returned (consult_apply _ _), bind_apply, engineCall_apply]
  cases threw : env.throws (w.tick + 1) <;> simp [World.asked, World.advance, threw]

theorem applyIntervention_apply (canBlock : Bool) (live : w.rsc.tx = some tx) :
    applyIntervention env context canBlock w =
      if env.throws (w.tick + 1) = true then .thrown (w.asked env tx)
      else
        match env.intervention w.tick with
        | none => .returned false (w.asked env tx)
        | some it =>
            if env.throws (w.tick + 2) = true then .thrown (w.asked env tx).advance
            else if it.disruptive ≠ 0 ∧ canBlock = true then
              (disrupt env context tx it >>= fun _ => pure true) (w.asked env tx).advance
            else .returned false (w.asked env tx).advance := by
  rw [applyIntervention, bind_returned (get_apply w), live]
  dsimp only
  rw [bind_apply, pendingIntervention_apply]
  by_cases threw : env.throws (w.tick + 1) = true
  · rw [if_pos threw, if_pos threw]
  · rw [if_neg threw, if_neg threw]
    cases env.intervention w.tick with
    | none => rfl
    | some it =>
        dsimp only
        rw [bind_apply, mayThrow_apply]
        have clock : (w.asked env tx).tick = w.tick + 2 := rfl
        rw [clock]
        by_cases copied : env.throws (w.tick + 2) = true
        · rw [if_pos copied, if_pos copied]
        · rw [if_neg copied, if_neg copied]
          dsimp only
          split <;> rfl

theorem asked_logged {it : Intervention} (calm : ¬ env.throws (w.tick + 1) = true)
    (reports : env.intervention w.tick = some it) :
    (w.asked env tx).log = w.log ++ [.engine tx (.intervention (some it)) true] := by
  have logged : (w.asked env tx).log = w.log ++
      [.engine tx (.intervention (env.intervention w.tick)) (!env.throws (w.tick + 1))] := rfl
  rwa [reports, Bool.eq_false_iff.mpr calm] at logged

section Sets

variable {it : Intervention} {asked after : World}

theorem answered_of_sets
    (reported : asked.log = w.log ++ [.engine tx (.intervention (some it)) true])
    (disruptive : it.disruptive ≠ 0) (kept : ¬ it.Cut)
    (set : SetSince it.answerStatus asked after) :
    Answered w after := by
  obtain ⟨events, shape, _, set⟩ := set
  refine ⟨.engine tx (.intervention (some it)) true :: events, it.answerStatus, ?_, ?_, ?_⟩
  · rw [shape, reported, List.append_assoc]
    rfl
  · exact set.mono fun _ member => List.mem_cons_of_mem _ member
  · by_cases failed : it.answerStatus = 500
    · exact .inl failed
    · refine .inr ⟨tx, it, List.mem_cons_self, disruptive, ?_⟩
      by_contra other
      exact kept (it.cut_iff.mpr ⟨failed, other⟩)

/-- The only disruption that was reported is the one whose status was cut. -/
theorem missing_of_sets
    (reported : asked.log = w.log ++ [.engine tx (.intervention (some it)) true])
    (cut : it.Cut) (set : SetSince it.answerStatus asked after) : Missing w after := by
  obtain ⟨events, shape, quiet, status, _⟩ := set
  have grown : after.log = w.log ++ .engine tx (.intervention (some it)) true :: events := by
    rw [shape, reported, List.append_assoc]
    rfl
  obtain ⟨unfailed, other⟩ := it.cut_iff.mp cut
  refine ⟨⟨_, grown⟩, ?_⟩
  intro answered
  obtain ⟨others, statusCode, same, ⟨has, _⟩, answer⟩ := answered
  rw [grown] at same
  rw [← List.append_cancel_left same] at answer
  rw [status] at has
  rcases answer with failed | ⟨_, reporting, member, disruptive, told⟩
  · exact unfailed (has.trans failed)
  · rcases List.mem_cons.mp member with first | late
    · cases first
      exact other (by rw [has, told])
    · exact quiet _ late disruptive

/-- A disruption is answered unless its status is cut, also when the engine is not told. -/
theorem disrupt_judged (present : context.responsePresent = true) (disruptive : it.disruptive ≠ 0)
    (reported : asked.log = w.log ++ [.engine tx (.intervention (some it)) true]) :
    Judged (· = true) it.Cut w ((disrupt env context tx it >>= fun _ => pure true) asked) := by
  have ends := @disrupt_sets env context present tx it asked _ rfl
  rw [bind_apply]
  cases run : disrupt env context tx it asked with
  | halted reason after => exact .halted
  | returned _ after =>
      rw [run] at ends
      by_cases cut : it.Cut
      · exact .dropped rfl cut (missing_of_sets reported cut ends)
      · exact .refused rfl cut (answered_of_sets reported disruptive cut ends)
  | thrown after =>
      rw [run] at ends
      by_cases cut : it.Cut
      · exact .threw cut (missing_of_sets reported cut ends)
      · exact .failed cut (answered_of_sets reported disruptive cut ends)

end Sets

theorem applyIntervention_judged (present : context.responsePresent = true)
    (live : w.rsc.tx = some tx) :
    Judged (· = true) (applyInterventionLoses env w.tick) w
      (applyIntervention env context true w) := by
  rw [applyIntervention_apply true live]
  by_cases threw : env.throws (w.tick + 1) = true
  · rw [if_pos threw]
    exact .threw (.inl threw) (missing_of_silent rfl (by simp))
  · rw [if_neg threw]
    cases reports : env.intervention w.tick with
    | none =>
        refine .passed (by simp) (by simp [applyInterventionLoses, threw, reports]) ⟨_, rfl, ?_⟩
        simp [Event.Calm, Event.Disruptive, World.advance, reports]
    | some it =>
        have logged := @asked_logged env w tx it threw reports
        dsimp only
        by_cases copied : env.throws (w.tick + 2) = true
        · rw [if_pos copied]
          exact .threw (.inr ⟨it, reports, .inl copied⟩) (missing_of_silent logged (by simp))
        · rw [if_neg copied]
          have loses : applyInterventionLoses env w.tick ↔ it.disruptive ≠ 0 ∧ it.Cut := by
            simp [applyInterventionLoses, threw, reports, copied]
          refine Verdict.congr ?_ loses
          by_cases disruptive : it.disruptive ≠ 0
          · rw [if_pos ⟨disruptive, rfl⟩]
            have judged := @disrupt_judged env context w tx it (w.asked env tx).advance present
              disruptive logged
            exact judged.congr (and_iff_right disruptive)
          · rw [if_neg fun both => disruptive both.1]
            refine .passed (by simp) (fun both => disruptive both.1) ⟨_, logged, ?_⟩
            simpa [Event.Calm, Event.Disruptive] using disruptive

/-- An intervention that passes has changed nothing but the clock and the log. -/
theorem applyIntervention_passed {after : World} (live : w.rsc.tx = some tx)
    (ran : applyIntervention env context true w = .returned false after) :
    interventionPasses env w.tick after.tick ∧
      ∃ log, after = { w with tick := after.tick, log } := by
  rw [applyIntervention_apply true live] at ran
  unfold interventionPasses
  split at ran
  · cases ran
  · next calm =>
      rw [Bool.eq_false_iff.mpr calm]
      cases reports : env.intervention w.tick with
      | none =>
          rw [reports] at ran
          cases ran
          exact ⟨⟨rfl, rfl⟩, _, rfl⟩
      | some it =>
          rw [reports] at ran
          dsimp only at ran
          split at ran
          · cases ran
          · next kept =>
              split at ran
              · obtain ⟨_, _, _, rest⟩ := bind_eq_returned ran
                cases rest
              · next harmless =>
                  cases ran
                  have passive : it.disruptive = 0 := by simpa using harmless
                  exact ⟨⟨rfl, Bool.eq_false_iff.mpr kept, passive, rfl⟩, _, rfl⟩

theorem applyIntervention_passes {next : Nat} (live : w.rsc.tx = some tx)
    (passes : interventionPasses env w.tick next) :
    ∃ after, applyIntervention env context true w = .returned false after ∧ after.tick = next := by
  obtain ⟨calm, passes⟩ := passes
  rw [applyIntervention_apply true live, if_neg (Bool.eq_false_iff.mp calm)]
  cases reports : env.intervention w.tick with
  | none =>
      rw [reports] at passes
      exact ⟨_, rfl, passes.symm⟩
  | some it =>
      rw [reports] at passes
      obtain ⟨kept, passive, rfl⟩ := passes
      dsimp only
      rw [if_neg (Bool.eq_false_iff.mp kept), if_neg (by simp [passive])]
      exact ⟨_, rfl, rfl⟩

/-! ## The body phase -/

abbrev NotificationStatus.Finishes (status : NotificationStatus) : Prop :=
  status = .rqNotificationFinishRequest

theorem fail_judged {α : Type} {refuses : α → Prop} {value : α} (refused : refuses value) :
    Judged refuses False w ((do
      respond (.setStatus 500 "Internal Server Error")
      pure value : Program World α) w) := by
  obtain ⟨after, run, events, shape, _, set⟩ :=
    respond_sets (.setStatus 500 "Internal Server Error") rfl (w := w) (s := w)
      ⟨[], (List.append_nil _).symm, by simp⟩
  rw [bind_returned run]
  exact .refused refused id ⟨events, 500, shape, set, .inl rfl⟩

theorem ruleOnBody_judged (present : context.responsePresent = true) (live : w.rsc.tx = some tx)
    (restoreFailed : Bool) :
    Judged NotificationStatus.Finishes (applyInterventionLoses env w.tick) w
      (ruleOnBody env context restoreFailed w) := by
  refine (applyIntervention_judged present live).followed ?_ ?_
  · intro blocked done
    subst done
    exact ⟨_, rfl, rfl⟩
  · intro blocked after open_
    rw [if_neg open_]
    cases restoreFailed with
    | true =>
        simp only [present, ↓reduceIte]
        exact fail_judged rfl
    | false => exact .pass (by simp) id

abbrev Timed {α : Type} (env : Env) (count : Nat) (program : Program World α) : Prop :=
  Clocked World.tick (env.throws · = true) count program

/-- A step that throws where its consultation says so. -/
theorem timed_of_apply {program : Program World Unit} {step : World → World}
    (moves : ∀ w, (step w).tick = w.tick + 1)
    (run : ∀ w, program w =
      if env.throws w.tick = true then .thrown (step w) else .returned () (step w)) :
    Timed env 1 program := by
  intro w
  rw [run]
  by_cases threw : env.throws w.tick = true
  · rw [if_pos threw]
    exact anyFrom_one.mpr threw
  · rw [if_neg threw]
    exact ⟨fun early => threw (anyFrom_one.mp early), moves w⟩

theorem mayThrow_timed : Timed env 1 (mayThrow env) :=
  timed_of_apply (fun _ => rfl) (mayThrow_apply env)

theorem engineCall_timed (tx : TransactionId) (call : EngineCall) :
    Timed env 1 (engineCall env tx call) :=
  timed_of_apply (fun _ => rfl) fun w => engineCall_apply env w tx call

theorem contextCall_timed (call : EngineCall) : Timed env 1 (contextCall env call) := by
  intro w
  rw [contextCall, bind_returned (get_apply w)]
  cases w.rsc.tx with
  | none => exact trivial
  | some tx => exact engineCall_timed tx call w

theorem inspected_eq_nil_iff (env : Env) (body : Bytes) :
    body.take (getMaxInspectBodyBytes env) = [] ↔ body = [] := by
  rw [List.take_eq_nil_iff]
  have positive := (getMaxInspectBodyBytes_bounds env).1
  exact or_iff_right (by omega)

theorem feedBody_judged (present : context.responsePresent = true) (live : w.rsc.tx = some tx)
    (restoreFailed : Bool) :
    Judged NotificationStatus.Finishes (feedBodyLoses env w.rsc.body w.tick) w
      ((feedBody env >>= fun _ => ruleOnBody env context restoreFailed) w) := by
  let inspected := w.rsc.body.take (getMaxInspectBodyBytes env)
  let feeds : Program World Unit := do
    Program.when (!inspected.isEmpty) (contextCall env (.appendRequestBody inspected))
    contextCall env .processRequestBody
  have calls (call : EngineCall) (other : ∀ reported, call ≠ .intervention reported) :
      Within (Frame Eq Event.Calm) (contextCall env call) :=
    contextCall_frame fun _ _ => engine_calm other
  have frame : Within (Frame Eq Event.Calm) feeds :=
    .bind (.when fun _ => calls _ (by simp)) fun _ => calls _ (by simp)
  have steps : (if !inspected.isEmpty then 1 else 0) + 1 = feedSteps w.rsc.body := by
    have same := inspected_eq_nil_iff env w.rsc.body
    by_cases empty : w.rsc.body = [] <;>
      simp [feedSteps, inspected, same, empty]
  have timed : Timed env (feedSteps w.rsc.body) feeds := by
    rw [← steps]
    exact .bind (.when (contextCall_timed _)) fun _ => contextCall_timed _
  rw [feedBody, bind_assoc, bind_returned (get_apply w)]
  refine Verdict.bind_clocked (calm_of_frame frame) timed fun _ after run moved => ?_
  rw [← moved]
  have context := (frame.returned run).context
  exact ruleOnBody_judged present (by rw [← context, live]) restoreFailed

/-- The rest of `FinishBodyRead`, once the body is restored as far as it can be. -/
theorem finishBodyRead_fed {s : World} (present : context.responsePresent = true)
    {restoreFailed : Bool}
    (fed : restoreAndFeed env context w =
      (feedBody env >>= fun _ => pure (some restoreFailed)) s)
    (live : s.rsc.tx = some tx) :
    Judged NotificationStatus.Finishes (feedBodyLoses env s.rsc.body s.tick) s
      (finishBodyRead env context w) := by
  have judged := @feedBody_judged env context s tx present live restoreFailed
  rw [bind_apply] at judged
  rw [finishBodyRead, bind_apply, tryCatch_apply, fed, bind_apply]
  cases run : feedBody env s with
  | returned _ after =>
      rw [run] at judged
      exact judged
  | halted reason after => exact .halted
  | thrown after =>
      rw [run] at judged
      cases judged with
      | failed kept answer => exact .refused rfl kept answer
      | threw gone still => exact .dropped rfl gone still

/-- A body whose memory is allocated is inserted, unless its size was cut. -/
theorem restoreBody_inserts (restores : context.requestPresent = true ∧ w.rsc.body ≠ [])
    (allocated : env.succeeds w.tick = true) :
    restoreBody env context w = .halted .crashed w.advance ∨
      ∃ body,
        ((env.hresult (w.tick + 1)).failed = true →
          ∃ after, restoreBody env context w = .returned .insertionFailed after ∧
            after.log = w.log ++ [.insertEntityBody body (env.hresult (w.tick + 1))]) ∧
        ((env.hresult (w.tick + 1)).failed = false →
          ∃ entity, restoreBody env context w = .returned .restored
            { w.advance.advance with
              entity, log := w.log ++ [.insertEntityBody body (env.hresult (w.tick + 1))] }) := by
  rw [restoreBody, bind_returned (get_apply w), if_pos restores,
    bind_returned (consult_apply _ _), if_pos allocated]
  by_cases cut : dword w.rsc.body.length < w.rsc.body.length
  · rw [if_pos cut]
    exact .inl rfl
  · rw [if_neg cut]
    let body := w.rsc.body.take (dword w.rsc.body.length)
    let result := env.hresult (w.tick + 1)
    have inserted : insertEntityBody env body w.advance = .returned result
        { w.advance.advance with
          entity := if result.failed then w.entity else body ++ w.entity
          log := w.log ++ [.insertEntityBody body result] } := rfl
    rw [bind_returned inserted]
    refine .inr ⟨body, ?_, ?_⟩
    · intro failed
      rw [if_pos failed]
      exact ⟨_, rfl, rfl⟩
    · intro worked
      rw [if_neg (Bool.eq_false_iff.mp worked)]
      exact ⟨_, rfl⟩

theorem finishBodyRead_judged (present : context.responsePresent = true)
    (live : w.rsc.tx = some tx) :
    Judged NotificationStatus.Finishes (finishBodyReadLoses env context w.rsc.body w.tick) w
      (finishBodyRead env context w) := by
  unfold finishBodyReadLoses
  by_cases restores : context.requestPresent = true ∧ w.rsc.body ≠ []
  · rw [if_pos restores]
    cases allocated : env.succeeds w.tick with
    | false =>
        obtain ⟨entries, failed⟩ : ∃ entries, restoreBody env context w =
            .returned .allocationFailed { w.advance with eventLog := entries } := by
          rw [restoreBody, bind_returned (get_apply w), if_pos restores,
            bind_returned (consult_apply _ _), allocated]
          exact ⟨_, rfl⟩
        rw [if_neg Bool.false_ne_true]
        have fed : restoreAndFeed env context w =
            (feedBody env >>= fun _ => pure (some true))
              { w.advance with eventLog := entries } := bind_returned failed
        exact (finishBodyRead_fed present fed live).after (calm_of_log rfl)
    | true =>
        rw [if_pos rfl]
        obtain crashes | ⟨body, inserts⟩ := restoreBody_inserts restores allocated
        · rw [finishBodyRead, bind_apply, tryCatch_apply, restoreAndFeed, bind_apply, crashes]
          exact .halted
        · cases failed : (env.hresult (w.tick + 1)).failed with
          | true =>
              obtain ⟨after, ran, shape⟩ := inserts.1 failed
              rw [finishBodyRead, bind_apply, tryCatch_apply, restoreAndFeed, bind_returned ran]
              exact .dropped rfl (.inl rfl) (missing_of_silent shape (by simp))
          | false =>
              obtain ⟨entity, ran⟩ := inserts.2 failed
              have fed : restoreAndFeed env context w =
                  (feedBody env >>= fun _ => pure (some false))
                    { w.advance.advance with
                      entity
                      log := w.log ++ [.insertEntityBody body (env.hresult (w.tick + 1))] } :=
                bind_returned ran
              have judged := finishBodyRead_fed present fed live
              refine (judged.after ⟨_, rfl, ?_⟩).congr (or_iff_right Bool.false_ne_true)
              simp [Event.Calm, Event.Disruptive]
  · rw [if_neg restores]
    have restored : restoreBody env context w = .returned .restored w := by
      rw [restoreBody, bind_returned (get_apply w), if_neg restores]
      rfl
    have fed : restoreAndFeed env context w =
        (feedBody env >>= fun _ => pure (some false)) w := bind_returned restored
    exact finishBodyRead_fed present fed live

/-- `ConsumeBodyChunk` at a stop condition, with what its callers do then. -/
theorem stopAt_judged {rest : Program World NotificationStatus}
    (present : context.responsePresent = true) (live : w.rsc.tx = some tx) (reason : StopReason) :
    Judged NotificationStatus.Finishes (finishBodyReadLoses env context w.rsc.body w.tick) w
      ((stopAt env context reason >>= fun consumed =>
        match consumed with
        | some status => pure status
        | none => rest) w) := by
  obtain ⟨logged, entries, warned⟩ := warnCap_apply (decide (reason = .inspectionCapReached)) w
  simp only [stopAt, bind_assoc, pure_bind, bind_pure]
  rw [bind_returned warned, bind_returned (exchangeBodyReadState_apply _ _)]
  have judged := @finishBodyRead_judged env context
    { w with
      capLogged := logged
      eventLog := w.eventLog ++ entries
      rsc := { w.rsc with bodyReadState := .done } } tx present live
  exact judged.after (calm_of_log rfl)

/-- A chunk, with what follows when another read is asked for. -/
theorem consumeBodyChunk_judged {read : Nat} {hr : HResult} {more : Nat → Prop}
    {rest : Program World NotificationStatus} (present : context.responsePresent = true)
    (live : w.rsc.tx = some tx)
    (goes : 0 < read →
      Judged NotificationStatus.Finishes (more (w.tick + 1)) (w.appended read)
        (rest (w.appended read))) :
    Judged NotificationStatus.Finishes
      (consumeBodyChunkLoses env context w.rsc.declaredBodyLength w.rsc.body
        (w.rsc.readBuf.take read) read hr more w.tick) w
      ((consumeBodyChunk env context read hr >>= fun consumed =>
        match consumed with
        | some status => pure status
        | none => rest) w) := by
  unfold consumeBodyChunkLoses
  rw [bind_apply, consumeBodyChunk_apply]
  by_cases empty : read = 0
  · have same : w.appended read = w := if_neg (by omega)
    have stops : stopReason env w.rsc read hr = some .endOfBody := if_pos (.inl empty)
    rw [if_pos empty, if_neg fun threw => by omega, same, stops]
    exact stopAt_judged present live .endOfBody
  · have positive : 0 < read := by omega
    rw [if_neg empty]
    by_cases threw : env.throws w.tick = true
    · rw [if_pos ⟨positive, threw⟩]
      exact .threw (.inl threw) (missing_of_silent (List.append_nil _).symm (by simp))
    · rw [if_neg fun both => threw both.2]
      have appended : w.appended read =
          { w.advance with rsc := { w.rsc with body := w.rsc.body ++ w.rsc.readBuf.take read } } :=
        if_pos positive
      have still : Calm w (w.appended read) := calm_of_log (World.appended_log w read)
      have same : stopReason env (w.appended read).rsc read hr = stopReason env
          { RequestStoredContext.new with
            declaredBodyLength := w.rsc.declaredBodyLength
            body := w.rsc.body ++ w.rsc.readBuf.take read } read hr := by
        rw [appended]
        rfl
      refine Verdict.congr ?_ (or_iff_right threw)
      rw [← same]
      cases stops : stopReason env (w.appended read).rsc read hr with
      | none => exact (goes positive).after still
      | some reason =>
          have judged := @stopAt_judged env context (w.appended read) tx rest present
            (by rw [World.appended_tx, live]) reason
          rw [appended] at judged still ⊢
          exact judged.after still

/-- The induction is on the answers to come; a turn consumes in the world of the received read. -/
theorem pumpLoop_judged {reads : List ReadAnswer} (present : context.responsePresent = true)
    (live : w.rsc.tx = some tx) (idle : w.rsc.bodyReadState = .idle) (answers : w.reads = reads) :
    Judged NotificationStatus.Finishes
      (pumpBodyReadLoses env context w.rsc.declaredBodyLength reads w.entity w.rsc.body w.tick) w
      (pumpLoop env context reads.length w) := by
  induction reads generalizing w with
  | nil => exact .halted
  | cons answer rest ih =>
      by_cases pends : bodyReadsAsync env = true ∧ answer.pended = true
      · rw [List.length_cons, pumpLoop_async_pended pends.1 answers pends.2]
        refine .passed (by simp) (fun lost => lost.1 pends) ⟨_, rfl, ?_⟩
        simp [Event.Calm, Event.Disruptive]
      · have turn : pumpLoop env context (rest.length + 1) w =
            consumeThen env context rest.length (w.handedOut answer).length answer.status
              (w.received answer rest) := by
          cases async : bodyReadsAsync env with
          | false => exact pumpLoop_sync async answers _
          | true =>
              have inline : answer.pended = false := by simpa [async] using pends
              exact pumpLoop_async_inline async answers inline idle _
        have staged : (w.received answer rest).rsc.readBuf.take (w.handedOut answer).length =
            w.handedOut answer := by
          simp [World.received, writeBuffer]
        have received : Calm w (w.received answer rest) :=
          ⟨_, rfl, by simp [Event.Calm, Event.Disruptive]⟩
        rw [List.length_cons, turn]
        refine Verdict.congr (Verdict.after ?_ received) (and_iff_right pends)
        have judged := @consumeBodyChunk_judged env context (w.received answer rest) tx
          (w.handedOut answer).length answer.status
          (pumpBodyReadLoses env context w.rsc.declaredBodyLength rest
            (w.entity.drop (min answer.count kBodyReadChunkSize))
            (w.rsc.body ++ w.handedOut answer))
          (pumpLoop env context rest.length) present live ?_
        · rw [staged] at judged
          exact judged
        · intro positive
          have next := @ih ((w.received answer rest).appended (w.handedOut answer).length)
            (by rw [World.appended_tx]; exact live)
            (by rw [World.appended_bodyReadState]; exact idle)
            (World.appended_reads _ _)
          rw [World.appended_declaredBodyLength, World.appended_entity,
            World.received_appended_body] at next
          have moved : ((w.received answer rest).appended (w.handedOut answer).length).tick =
              w.tick + 1 := by
            rw [World.appended, if_pos positive]
            rfl
          rw [moved] at next
          exact next

theorem pumpBodyRead_judged (present : context.responsePresent = true)
    (live : w.rsc.tx = some tx) (idle : w.rsc.bodyReadState = .idle) :
    Judged NotificationStatus.Finishes
      (if context.requestPresent then
        pumpBodyReadLoses env context w.rsc.declaredBodyLength w.reads w.entity w.rsc.body w.tick
      else finishBodyReadLoses env context w.rsc.body w.tick) w
      (pumpBodyRead env context w) := by
  rw [pumpBodyRead, bind_returned (get_apply w)]
  split
  · exact pumpLoop_judged present live idle rfl
  · rw [bind_returned (exchangeBodyReadState_apply _ _)]
    have judged := @finishBodyRead_judged env context
      { w with rsc := { w.rsc with bodyReadState := .done } } tx present live
    exact judged.after (calm_of_log rfl)

/-- The context is the same up to the staging buffer. -/
def SameButBuffer (a b : RequestStoredContext) : Prop := b = { a with readBuf := b.readBuf }

instance : IsPreorder RequestStoredContext SameButBuffer where
  refl _ := rfl
  trans a b c first second := by
    unfold SameButBuffer at *
    rw [second, first]

/-- The body of a request that was not read before. -/
theorem beginBodyRead_judged (present : context.responsePresent = true)
    (live : w.rsc.tx = some tx) (idle : w.rsc.bodyReadState = .idle) (fresh : w.rsc.body = []) :
    Judged NotificationStatus.Finishes (beginBodyReadLoses env context w w.tick) w
      (beginBodyRead env context w) := by
  unfold beginBodyRead beginBodyReadLoses
  by_cases announced : context.requestPresent = true ∧
      (getEntityBodyInfo context.rawRequest).hasBody = true
  · rw [if_pos announced, if_pos announced]
    generalize (getEntityBodyInfo context.rawRequest).length = length
    let begun : World :=
      { w with rsc := { w.rsc with hasBody := true, declaredBodyLength := length } }
    let allocates : Program World Unit := do
      mayThrow env
      modifyContext fun rsc => { rsc with readBuf := resize rsc.readBuf kBodyReadChunkSize }
      Program.when (decide (0 < length)) (mayThrow env)
    have frame : Within (Frame SameButBuffer Event.Calm) allocates := by
      refine .bind (mayThrow_frame env) fun _ => ?_
      exact .bind (modifyContext_frame fun _ => rfl) fun _ => .when fun _ => mayThrow_frame env
    have timed : Timed env (bufferSteps length) allocates := by
      have steps : bufferSteps length = 1 + (0 + if decide (0 < length) = true then 1 else 0) := by
        unfold bufferSteps
        split <;> simp_all
      rw [steps]
      refine .bind mayThrow_timed fun _ => ?_
      exact .bind (.modify fun _ => rfl) fun _ => .when mayThrow_timed
    have shape : (do
        modifyContext fun rsc => { rsc with hasBody := true, declaredBodyLength := length }
        mayThrow env
        modifyContext fun rsc => { rsc with readBuf := resize rsc.readBuf kBodyReadChunkSize }
        Program.when (decide (0 < length)) (mayThrow env)
        pumpBodyRead env context) w = (allocates >>= fun _ => pumpBodyRead env context) begun := by
      simp only [allocates, bind_assoc]
      rfl
    rw [shape]
    have judged : Judged NotificationStatus.Finishes
        (AnyFrom (env.throws · = true) begun.tick (bufferSteps length) ∨
          pumpBodyReadLoses env context length w.reads w.entity [] (w.tick + bufferSteps length))
        begun ((allocates >>= fun _ => pumpBodyRead env context) begun) := by
      refine Verdict.bind_clocked (calm_of_frame frame) timed fun _ after run moved => ?_
      have kept := frame.returned run
      have same : after.rsc = { begun.rsc with readBuf := after.rsc.readBuf } := kept.context
      have pumps := @pumpBodyRead_judged env context after tx present (by rw [same]; exact live)
        (by rw [same]; exact idle)
      have body : after.rsc.body = [] := by rw [same]; exact fresh
      have declared : after.rsc.declaredBodyLength = length := by rw [same]
      rw [if_pos announced.1, kept.reads, kept.entity, body, declared, moved] at pumps
      exact pumps
    exact judged.after (calm_of_log rfl)
  · rw [if_neg announced, if_neg announced, ← fresh]
    exact finishBodyRead_judged present live

/-! ## The handler of completions -/

/-- The handlers' catch blocks answer nothing and change nothing but the event log. -/
theorem reported_refuses {α : Type} {refuses : α → Prop} {value : α} (refused : refuses value)
    (location : String) (s : World) :
    ∃ result after, (reportException env location >>= fun _ => pure value) s =
        .returned result after ∧ refuses result ∧
      ∀ start, (answering.answered start s → answering.answered start after) ∧
        (answering.missing start s → answering.missing start after) :=
  ⟨value, _, rfl, refused, fun _ => ⟨id, id⟩⟩

theorem continueRead_judged (present : context.responsePresent = true)
    (live : w.rsc.tx = some tx) (idle : w.rsc.bodyReadState = .idle) (cb : Nat) (ch : HResult) :
    Judged NotificationStatus.Finishes
      (consumeBodyChunkLoses env context w.rsc.declaredBodyLength w.rsc.body
        (w.rsc.readBuf.take cb) cb ch
        (fun tick =>
          if context.requestPresent then
            pumpBodyReadLoses env context w.rsc.declaredBodyLength w.reads w.entity
              (w.rsc.body ++ w.rsc.readBuf.take cb) tick
          else finishBodyReadLoses env context (w.rsc.body ++ w.rsc.readBuf.take cb) tick) w.tick)
      w (continueRead env context cb ch w) := by
  refine consumeBodyChunk_judged present live fun positive => ?_
  have appended : w.appended cb =
      { w.advance with rsc := { w.rsc with body := w.rsc.body ++ w.rsc.readBuf.take cb } } :=
    if_pos positive
  have pumps := @pumpBodyRead_judged env context (w.appended cb) tx present
    (by rw [World.appended_tx, live]) (by rw [World.appended_bodyReadState, idle])
  rw [appended] at pumps ⊢
  exact pumps

theorem onAsyncCompletion_judged (present : context.responsePresent = true)
    (completion : Option (Nat × HResult)) (w : World) :
    Judged NotificationStatus.Finishes (onAsyncCompletionLoses env context completion w) w
      (onAsyncCompletion env (some context) completion w) := by
  cases completion with
  | none =>
      refine .pass (by simp) ?_
      intro lost
      obtain ⟨_, _, given, _⟩ := lost
      cases given
  | some completed =>
      obtain ⟨cb, ch⟩ := completed
      rw [onAsyncCompletion, bind_returned (get_apply w)]
      by_cases untracked : w.stored = false ∨ w.rsc.tx = none
      · rw [if_pos untracked]
        refine .pass (by simp) ?_
        intro lost
        obtain ⟨_, _, _, stored, live, _⟩ := lost
        simp [stored, live] at untracked
      · rw [if_neg untracked]
        obtain ⟨stored, live⟩ := not_or.mp untracked
        by_cases pending : w.rsc.bodyReadState = .readPending
        · rw [if_pos pending, bind_returned (exchangeBodyReadState_apply _ _)]
          obtain ⟨tx, tracked⟩ := Option.ne_none_iff_exists'.mp live
          have judged := @continueRead_judged env context
            { w with rsc := { w.rsc with bodyReadState := .idle } } tx present tracked rfl cb ch
          have caught := judged.tryCatch
            (@reported_refuses env _ NotificationStatus.Finishes _ rfl "OnAsyncCompletion")
          have whole : Judged NotificationStatus.Finishes _ w _ := caught.after (calm_of_log rfl)
          refine whole.congr ?_
          simp [onAsyncCompletionLoses, Bool.eq_true_of_not_eq_false stored, live, pending]
        · rw [if_neg pending]
          refine .pass (by simp) ?_
          intro lost
          obtain ⟨_, _, _, _, _, claimed, _⟩ := lost
          exact pending claimed

end Verdicts

end ModSecurityIIS
