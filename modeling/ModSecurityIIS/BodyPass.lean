import ModSecurityIIS.BodyReadProperties
import ModSecurityIIS.Footprint

/-!
# The body pass

What `FinishBodyRead` leaves behind: the drained bytes back on the server's side,
the inspected bytes with the engine, and a verdict. The read loop before it adds
nothing but reads and keeps every byte.
-/

set_option autoImplicit false

namespace ModSecurityIIS

open Imperative Program

/-! ## Engine calls in a row -/

/-- What calls in a row leave in the log: each of them completed, or the first few
and one that threw. -/
inductive Ran (env : Env) (tx : TransactionId) : List EngineCall → List Event → Prop where
  | nothing : Ran env tx [] []
  | threw {call : EngineCall} {calls : List EngineCall} :
      (∃ tick, env.throws tick = true) → Ran env tx (call :: calls) [.engine tx call false]
  | completed {call : EngineCall} {calls : List EngineCall} {events : List Event} :
      Ran env tx calls events → Ran env tx (call :: calls) (.engine tx call true :: events)

def completedCalls (tx : TransactionId) (calls : List EngineCall) : List Event :=
  calls.map fun call => .engine tx call true

theorem Ran.all {env : Env} {tx : TransactionId} {calls : List EngineCall} {events : List Event}
    (ran : Ran env tx calls events) (calm : ∀ tick, env.throws tick = false) :
    events = completedCalls tx calls := by
  induction ran with
  | nothing => rfl
  | threw thrown =>
      obtain ⟨tick, threw⟩ := thrown
      simp [calm tick] at threw
  | completed _ ih => rw [ih]; rfl

/-- Nothing but the log has grown, by `events`. -/
structure Logged (w after : World) (events : List Event) : Prop where
  stored : after.stored = w.stored
  entity : after.entity = w.entity
  context : after.rsc = w.rsc
  log : after.log = w.log ++ events

theorem Logged.refl (w : World) : Logged w w [] := ⟨rfl, rfl, rfl, (List.append_nil _).symm⟩

theorem Logged.trans {w middle after : World} {first second : List Event}
    (before : Logged w middle first) (later : Logged middle after second) :
    Logged w after (first ++ second) :=
  ⟨later.stored.trans before.stored, later.entity.trans before.entity,
    later.context.trans before.context, by rw [later.log, before.log, List.append_assoc]⟩

theorem forEach_engineCall (env : Env) (tx : TransactionId) (calls : List EngineCall)
    (w : World) :
    (forEach calls (engineCall env tx) w).Satisfies
      (fun _ after => Ran env tx calls (completedCalls tx calls) ∧
        Logged w after (completedCalls tx calls))
      (fun after => ∃ events, Ran env tx calls events ∧ Logged w after events) := by
  induction calls generalizing w with
  | nil => exact ⟨.nothing, .refl w⟩
  | cons call rest ih =>
      rw [forEach, bind_apply, engineCall_apply]
      by_cases threw : env.throws w.tick = true
      · simp only [if_pos threw]
        refine ⟨_, .threw ⟨w.tick, threw⟩, ⟨rfl, rfl, rfl, ?_⟩⟩
        simp [World.called, threw]
      · simp only [if_neg threw]
        have asked : Logged w (w.called env tx call) [.engine tx call true] :=
          ⟨rfl, rfl, rfl, by simp [World.called, threw]⟩
        have more := ih (w.called env tx call)
        cases run : forEach rest (engineCall env tx) (w.called env tx call) with
        | returned value after =>
            rw [run] at more
            exact ⟨.completed more.1, asked.trans more.2⟩
        | thrown after =>
            rw [run] at more
            obtain ⟨events, ran, logged⟩ := more
            exact ⟨_, .completed ran, asked.trans logged⟩
        | halted reason after => exact trivial

/-! ## Restoring and feeding -/

/-- The calls of the body phase on a drained body: what fits the cap in one piece,
unless that is empty, then the phase itself. -/
def inspectionCalls (env : Env) (body : Bytes) : List EngineCall :=
  if (body.take (getMaxInspectBodyBytes env)).isEmpty then [.processRequestBody]
  else [.appendRequestBody (body.take (getMaxInspectBodyBytes env)), .processRequestBody]

theorem feedBody_apply {env : Env} {w : World} {tx : TransactionId} (current : w.rsc.tx = some tx) :
    feedBody env w = forEach (inspectionCalls env w.rsc.body) (engineCall env tx) w := by
  have asks {call : EngineCall} {s : World} (same : s.rsc.tx = some tx) :
      contextCall env call s = engineCall env tx call s := by
    rw [contextCall, bind_returned (get_apply _), same]
  have last {s : World} (same : s.rsc.tx = some tx) :
      contextCall env .processRequestBody s =
        forEach [.processRequestBody] (engineCall env tx) s := by
    rw [asks same, forEach, bind_apply]
    cases engineCall env tx .processRequestBody s <;> rfl
  rw [feedBody, bind_returned (get_apply _), inspectionCalls]
  cases (w.rsc.body.take (getMaxInspectBodyBytes env)).isEmpty with
  | true => exact last current
  | false =>
      simp only [Bool.not_false, when_true, Bool.false_eq_true, ↓reduceIte]
      rw [bind_apply, asks current, forEach, bind_apply, engineCall_apply]
      by_cases threw : env.throws w.tick = true
      · simp only [if_pos threw]
      · simp only [if_neg threw]
        exact last current

/-- What the restoration adds to the log. -/
inductive Inserted (body : Bytes) : List Event → Prop where
  | skipped : Inserted body []
  | attempted (result : HResult) : Inserted body [.insertEntityBody body result]

/-- How the restoration leaves the world. -/
structure RestoreDone (w : World) (restoration : Restoration) (after : World)
    (inserted : List Event) : Prop where
  stored : after.stored = w.stored
  context : after.rsc = w.rsc
  log : after.log = w.log ++ inserted
  inserts : Inserted w.rsc.body inserted
  failed : restoration = .insertionFailed →
    ∃ result : HResult, result.failed = true ∧ inserted = [.insertEntityBody w.rsc.body result]
  restored : restoration = .restored → after.entity = w.rsc.body ++ w.entity

theorem restoreBody_satisfies (env : Env) {context : HttpContext}
    (request : context.requestPresent = true) (w : World) :
    (restoreBody env context w).Satisfies
      (fun restoration after => ∃ inserted, RestoreDone w restoration after inserted)
      (fun _ => False) := by
  rw [restoreBody, bind_returned (get_apply _)]
  split
  next present =>
    rw [bind_returned (consult_apply _ _)]
    split
    · split
      · exact trivial
      next fits =>
        have whole : w.rsc.body.take (dword w.rsc.body.length) = w.rsc.body :=
          List.take_of_length_le (Nat.not_lt.mp fits)
        rw [whole, insertEntityBody, bind_assoc, bind_returned (consult_apply _ _), bind_assoc,
          bind_returned (modify_apply _ _), pure_bind]
        cases failed : (env.hresult w.advance.tick).failed with
        | true =>
            exact ⟨_, rfl, rfl, rfl, .attempted _, fun _ => ⟨_, failed, rfl⟩, by simp⟩
        | false =>
            exact ⟨_, rfl, rfl, rfl, .attempted _, by simp, fun _ => by simp [World.advance]⟩
    · exact ⟨[], rfl, rfl, (List.append_nil _).symm, .skipped, by simp, by simp⟩
  next absent =>
    have empty : w.rsc.body = [] := by
      by_contra filled
      exact absent ⟨request, filled⟩
    exact ⟨[], rfl, rfl, (List.append_nil _).symm, .skipped, by simp, fun _ => by simp [empty]⟩

/-- The body events of one pass over the drained body: at most one insertion; then,
unless it failed, the calls of the body phase. -/
inductive PassEvents (env : Env) (tx : TransactionId) (body : Bytes) : List Event → Prop where
  | refused {result : HResult} :
      result.failed = true → PassEvents env tx body [.insertEntityBody body result]
  | fed {inserted events : List Event} :
      Inserted body inserted → Ran env tx (inspectionCalls env body) events →
      PassEvents env tx body (inserted ++ events)

/-- `FinishBodyRead` has made one pass over the drained body of `w`, and after it no
further call on the body. -/
def Passed (env : Env) (tx : TransactionId) (w after : World) : Prop :=
  ∃ events rest, after.log = w.log ++ (events ++ rest) ∧
    PassEvents env tx w.rsc.body events ∧ ∀ event ∈ rest, event.OffBody

/-- The pass let the request continue: the drained body is back in front of the
unread one, and the body phase ran to its end without a disruptive report after it. -/
structure PassedOn (env : Env) (tx : TransactionId) (w after : World) : Prop where
  stored : after.stored = w.stored
  context : after.rsc = w.rsc
  entity : after.entity = w.rsc.body ++ w.entity
  log : ∃ inserted rest, Inserted w.rsc.body inserted ∧
    after.log = w.log ++ (inserted ++ completedCalls tx (inspectionCalls env w.rsc.body) ++ rest) ∧
    ∀ event ∈ rest, ¬ event.Disruptive

/-- How the `try` block of `FinishBodyRead` leaves the world. -/
inductive Fed (env : Env) (tx : TransactionId) (w : World) : Option Bool → World → Prop where
  | refused {result : HResult} {after : World} :
      result.failed = true → after.log = w.log ++ [.insertEntityBody w.rsc.body result] →
      Fed env tx w none after
  | inspected {restoreFailed : Bool} {after : World} {inserted : List Event} :
      after.stored = w.stored → after.rsc = w.rsc → Inserted w.rsc.body inserted →
      after.log = w.log ++ (inserted ++ completedCalls tx (inspectionCalls env w.rsc.body)) →
      Ran env tx (inspectionCalls env w.rsc.body)
        (completedCalls tx (inspectionCalls env w.rsc.body)) →
      (restoreFailed = false → after.entity = w.rsc.body ++ w.entity) →
      Fed env tx w (some restoreFailed) after

theorem feedBody_after_restore (env : Env) {w middle : World} {tx : TransactionId}
    (current : w.rsc.tx = some tx) {restoration : Restoration} {inserted : List Event}
    (done : RestoreDone w restoration middle inserted) (restoreFailed : Bool)
    (honest : restoreFailed = false → restoration = .restored) :
    ((feedBody env >>= fun _ => pure (some restoreFailed)) middle).Satisfies
      (Fed env tx w) (Passed env tx w) := by
  have calls := forEach_engineCall env tx (inspectionCalls env w.rsc.body) middle
  have same : middle.rsc.tx = some tx := by rw [done.context]; exact current
  rw [bind_apply, feedBody_apply same, done.context]
  cases ran : forEach (inspectionCalls env w.rsc.body) (engineCall env tx) middle with
  | returned value after =>
      rw [ran] at calls
      obtain ⟨completed, logged⟩ := calls
      refine .inspected (logged.stored.trans done.stored) (logged.context.trans done.context)
        done.inserts ?_ completed ?_
      · rw [logged.log, done.log, List.append_assoc]
      · exact fun clean => logged.entity.trans (done.restored (honest clean))
  | thrown after =>
      rw [ran] at calls
      obtain ⟨events, threw, logged⟩ := calls
      refine ⟨inserted ++ events, [], ?_, .fed done.inserts threw, by simp⟩
      rw [logged.log, done.log, List.append_assoc, List.append_nil]
  | halted reason after => exact trivial

theorem restoreAndFeed_satisfies (env : Env) {context : HttpContext}
    (request : context.requestPresent = true) {w : World} {tx : TransactionId}
    (current : w.rsc.tx = some tx) :
    (restoreAndFeed env context w).Satisfies (Fed env tx w) (Passed env tx w) := by
  have restores := restoreBody_satisfies env request w
  rw [restoreAndFeed, bind_apply]
  cases restored : restoreBody env context w with
  | thrown after => rw [restored] at restores; exact restores.elim
  | halted reason after => exact trivial
  | returned restoration middle =>
      rw [restored] at restores
      obtain ⟨inserted, done⟩ := restores
      cases restoration with
      | insertionFailed =>
          obtain ⟨result, failed, shape⟩ := done.failed rfl
          exact .refused failed (shape ▸ done.log)
      | allocationFailed => exact feedBody_after_restore env current done true nofun
      | restored => exact feedBody_after_restore env current done false fun _ => rfl

theorem Fed.passed {env : Env} {tx : TransactionId} {w after : World} {fed : Option Bool}
    (left : Fed env tx w fed after) : Passed env tx w after := by
  cases left with
  | refused failed log => exact ⟨_, [], by simpa using log, .refused failed, by simp⟩
  | inspected _ _ inserts log ran _ =>
      exact ⟨_, [], by simpa using log, .fed inserts ran, by simp⟩

theorem Passed.then {env : Env} {tx : TransactionId} {w middle after : World}
    {keeps : RequestStoredContext → RequestStoredContext → Prop}
    (passed : Passed env tx w middle) (frame : Frame keeps Event.OffBody middle after) :
    Passed env tx w after := by
  obtain ⟨events, rest, log, pass, off⟩ := passed
  obtain ⟨more, shape, moreOff⟩ := frame.logged
  refine ⟨events, rest ++ more, by rw [shape, log]; simp, pass, ?_⟩
  exact List.forall_mem_append.mpr ⟨off, moreOff⟩

theorem ruleOnBody_frame (env : Env) (context : HttpContext) (restoreFailed : Bool) :
    Within (Frame (fun _ _ => True) Event.OffBody) (ruleOnBody env context restoreFailed) := by
  refine .bind (applyIntervention_frame env context true (fun _ => trivial)
    fun _ intervenes => intervenes.offBody) fun blocked => ?_
  split
  · exact .pure _
  split
  · split
    · exact .bind (respond_frame rfl) fun _ => .pure _
    · exact .halt _
  · exact .pure _

/-- The verdict lets a request continue only when its body was restored and no
disruptive intervention was reported. -/
theorem ruleOnBody_continue (env : Env) (context : HttpContext) (restoreFailed : Bool)
    (w : World) :
    Ensures (· = w) (ruleOnBody env context restoreFailed)
      (fun status after => status = .rqNotificationContinue →
        restoreFailed = false ∧ Undisturbed w after) (fun _ => True) := by
  have verdict := applyIntervention_false env context w
  refine .bind _ (verdict.consequence ?_ (fun _ _ holds => holds) fun _ _ => trivial)
    fun blocked => ?_
  · rintro _ rfl
    exact refl_of Undisturbed _
  cases blocked with
  | true => exact .pure fun _ _ => nofun
  | false =>
      simp only [Bool.false_eq_true, ↓reduceIte, forall_const]
      cases restoreFailed with
      | false => exact .pure fun _ undisturbed _ => ⟨rfl, undisturbed⟩
      | true =>
          simp only [↓reduceIte]
          split
          · exact .skip (fun _ => trivial) fun _ => .pure fun _ _ => nofun
          · exact fun _ _ => trivial

theorem Fed.passedOn {env : Env} {tx : TransactionId} {w middle after : World}
    {restoreFailed : Bool} (fed : Fed env tx w (some restoreFailed) middle)
    (clean : restoreFailed = false) (undisturbed : Undisturbed middle after) :
    PassedOn env tx w after := by
  cases fed with
  | inspected stored context inserts log _ restored =>
      obtain ⟨rest, shape, quiet⟩ := undisturbed.logged
      refine ⟨undisturbed.stored.trans stored, undisturbed.context.symm.trans context,
        undisturbed.entity.trans (restored clean), _, rest, inserts, ?_, quiet⟩
      rw [shape, log]
      simp

theorem finishBodyRead_satisfies (env : Env) {context : HttpContext}
    (request : context.requestPresent = true) {w : World} {tx : TransactionId}
    (current : w.rsc.tx = some tx) :
    (finishBodyRead env context w).Satisfies
      (fun status after => Passed env tx w after ∧
        (status = .rqNotificationContinue → PassedOn env tx w after))
      (Passed env tx w) := by
  have feeds := restoreAndFeed_satisfies env request current
  rw [finishBodyRead, bind_apply, tryCatch_apply]
  cases fed : restoreAndFeed env context w with
  | halted reason after => exact trivial
  | thrown after =>
      rw [fed] at feeds
      have framed : Frame Eq Event.OffBody after _ :=
        reportException_frame env "FinishBodyRead" after
      obtain ⟨entry, reported⟩ := reportException_apply env "FinishBodyRead" after
      rw [reported] at framed
      simp only [bind_returned reported]
      exact ⟨feeds.then framed, by simp⟩
  | returned result middle =>
      rw [fed] at feeds
      cases result with
      | none => exact ⟨Fed.passed feeds, by simp⟩
      | some restoreFailed =>
          have framed := ruleOnBody_frame env context restoreFailed middle
          have continues := ruleOnBody_continue env context restoreFailed middle middle rfl
          simp only
          cases ruled : ruleOnBody env context restoreFailed middle with
          | halted reason after => exact trivial
          | thrown after =>
              rw [ruled] at framed
              exact (Fed.passed feeds).then framed
          | returned status after =>
              rw [ruled] at framed continues
              refine ⟨(Fed.passed feeds).then framed, fun lets => ?_⟩
              obtain ⟨clean, undisturbed⟩ := continues lets
              exact Fed.passedOn feeds clean undisturbed

end ModSecurityIIS
