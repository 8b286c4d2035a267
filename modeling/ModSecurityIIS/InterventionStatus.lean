import ModSecurityIIS.BodyFraming
import ModSecurityIIS.RefusedStatus

/-!
# The status the engine is told

What `ApplyIntervention` does with a reported intervention: when it disrupts, which
operations it applies to the response and which status it gives back to the engine. The
client gets the status as a `USHORT`, the engine as an `int`.
-/

set_option autoImplicit false

namespace ModSecurityIIS

open Imperative Program

def Event.op? : Event → Option ResponseOp
  | .response op => some op
  | _ => none

/-- The status an event tells the engine. -/
def Event.told? : Event → Option Int
  | .engine _ (.updateStatusCode status) _ => some status
  | _ => none

/-- What a run of `ApplyIntervention` on a pending intervention is to do. -/
structure Reported (it : Intervention) (canBlock : Bool) (w : World) (blocked : Bool)
    (after : World) : Prop where
  applies : blocked = true ↔ it.disruptive ≠ 0 ∧ canBlock = true
  cleared : blocked = true →
    ((after.log.drop w.log.length).filterMap Event.op?).head? = some .clear
  location : blocked = true → after.response.headers.known .location =
    if it.url.getD [] = [] then none else some (it.url.getD [])
  status : blocked = true →
    (after.log.drop w.log.length).filterMap Event.told? = [(after.response.statusCode : Int)]
  unchanged : blocked = false → after.response = w.response ∧
    after.requestHandled = w.requestHandled ∧ after.rsc.tx = w.rsc.tx

/-! ## The answer to the client -/

/-- The operations that follow `Clear`. -/
def Intervention.answerOps (it : Intervention) : List ResponseOp :=
  match it.url.getD [] with
  | [] =>
      [.setStatus ((if it.status ≤ 0 then 403 else it.status) % 65536).toNat
        (standardReason (if it.status ≤ 0 then 403 else it.status))]
  | url =>
      if 301 ≤ it.status ∧ it.status ≤ 308 ∧ it.status ≠ 302 then
        [.redirect url, .setStatus (it.status % 65536).toNat (standardReason it.status)]
      else [.redirect url]

def World.answered (w : World) (ops : List ResponseOp) : World :=
  { w with response := ops.foldl HttpResponse.apply w.response, log := w.log ++ ops.map .response }

theorem respond_apply (op : ResponseOp) (w : World) :
    respond op w = .returned () (w.answered [op]) := rfl

theorem World.answered_answered (w : World) (first second : List ResponseOp) :
    (w.answered first).answered second = w.answered (first ++ second) := by
  simp [World.answered]

theorem answerIntervention_apply (it : Intervention) (w : World) :
    answerIntervention it w = .returned it.toldStatus (w.answered it.answerOps) := by
  unfold answerIntervention Intervention.toldStatus Intervention.answerOps
  cases it.url.getD [] with
  | nil =>
      dsimp only
      rw [setStatus, bind_returned (respond_apply _ w)]
      rfl
  | cons first rest =>
      dsimp only
      rw [bind_returned (respond_apply _ w)]
      by_cases overrides : 301 ≤ it.status ∧ it.status ≤ 308 ∧ it.status ≠ 302
      · rw [if_pos overrides, if_pos overrides, if_pos ⟨overrides.1, overrides.2.1⟩, setStatus,
          bind_returned (respond_apply _ _), World.answered_answered]
        rfl
      · rw [if_neg overrides, if_neg overrides]
        by_cases found : it.status = 302
        · rw [if_pos (by omega), found]
          rfl
        · rw [if_neg (by omega)]
          rfl

theorem answered_response (it : Intervention) (w : World) :
    ((w.answered [.clear]).answered it.answerOps).response.statusCode = it.answerStatus ∧
      ((w.answered [.clear]).answered it.answerOps).response.headers.known .location =
        if it.url.getD [] = [] then none else some (it.url.getD []) := by
  unfold Intervention.answerOps Intervention.answerStatus
  cases it.url.getD [] with
  | nil => exact ⟨rfl, rfl⟩
  | cons first rest =>
      dsimp only
      by_cases overrides : 301 ≤ it.status ∧ it.status ≤ 308 ∧ it.status ≠ 302
      · rw [if_pos overrides, if_pos ⟨overrides.1, overrides.2.1⟩]
        refine ⟨?_, rfl⟩
        change (it.status % 65536).toNat = it.status.toNat
        omega
      · rw [if_neg overrides]
        refine ⟨?_, rfl⟩
        by_cases found : it.status = 302
        · rw [if_pos (by omega), found]
          rfl
        · rw [if_neg (by omega)]
          rfl

/-! ## The run -/

theorem Event.Finalizes.quiet {event : Event} (finalizes : event.Finalizes) :
    event.op? = none ∧ event.told? = none := by
  cases event with
  | response op => exact absurd finalizes id
  | engine tx call completed =>
      cases call with
      | updateStatusCode status => exact absurd finalizes id
      | _ => exact ⟨rfl, rfl⟩
  | _ => exact ⟨rfl, rfl⟩

theorem filterMap_finalizes {α : Type} {project : Event → Option α} {events : List Event}
    (quiet : ∀ event : Event, event.Finalizes → project event = none)
    (finalizes : ∀ event ∈ events, event.Finalizes) : events.filterMap project = [] :=
  List.filterMap_eq_nil_iff.mpr fun event member => quiet event (finalizes event member)

section Run

variable {env : Env} {context : HttpContext} {tx : TransactionId} {it : Intervention}
  {w after : World}

theorem disrupt_returned (ran : disrupt env context tx it w = .returned () after) :
    after.response = ((w.answered [.clear]).answered it.answerOps).response ∧
      ∃ finals, (∀ event ∈ finals, event.Finalizes) ∧
        after.log = w.log ++ (.response .clear :: it.answerOps.map .response ++
          .engine tx (.updateStatusCode it.toldStatus) true :: .setRequestHandled :: finals) := by
  unfold disrupt at ran
  split at ran
  · rw [bind_returned (respond_apply _ w), bind_returned (answerIntervention_apply it _)] at ran
    obtain ⟨_, told, called, rest⟩ := bind_eq_returned ran
    rw [engineCall_apply] at called
    split at called
    · cases called
    · next calm =>
        cases called
        rw [bind_returned (modify_apply _ _), bind_returned (record_apply _ _)] at rest
        have same := finishRequest_sameResponse env
        have frame := @finishRequest_frame (fun _ _ => True) Event.Finalizes _ env
          (fun _ => trivial) fun _ finalizes => finalizes
        have response := (same.returned rest).response
        obtain ⟨finals, shape, finalizes⟩ := (frame.returned rest).logged
        refine ⟨response, finals, finalizes, ?_⟩
        have completed : env.throws w.tick = false := by simpa [World.answered] using calm
        rw [shape]
        simp [World.called, World.answered, World.advance, completed]
  · cases ran

theorem applyIntervention_pending {canBlock : Bool} (live : w.rsc.tx = some tx)
    (pending : env.intervention w.tick = some it) :
    applyIntervention env context canBlock w =
      if env.throws (w.tick + 1) = true then
        .thrown (w.advance.called env tx (.intervention (some it)))
      else if env.throws (w.tick + 2) = true then
        .thrown (w.advance.called env tx (.intervention (some it))).advance
      else if it.disruptive ≠ 0 ∧ canBlock = true then
        (disrupt env context tx it >>= fun _ => pure true)
          (w.advance.called env tx (.intervention (some it))).advance
      else .returned false (w.advance.called env tx (.intervention (some it))).advance := by
  rw [applyIntervention_apply canBlock live, World.asked, pending]

theorem finishRequest_ends (env : Env) (w : World) :
    ∃ after, finishRequest env w = .returned () after := by
  obtain ⟨finished, after, ran⟩ := finishContext_returns env w.rsc w
  rw [finishRequest, bind_returned (get_apply _), bind_returned ran]
  exact ⟨_, rfl⟩

theorem disrupt_returns (present : context.responsePresent = true)
    (calm : ∀ tick, env.throws tick = false) (tx : TransactionId) (it : Intervention)
    (w : World) : ∃ after, disrupt env context tx it w = .returned () after := by
  rw [disrupt, if_pos present, bind_returned (respond_apply _ w),
    bind_returned (answerIntervention_apply it _), bind_apply, engineCall_apply,
    if_neg (by simp [calm])]
  exact finishRequest_ends env _

theorem reported_of_unblocked {canBlock : Bool}
    (passes : ¬ (it.disruptive ≠ 0 ∧ canBlock = true)) :
    Reported it canBlock w false (w.advance.called env tx (.intervention (some it))).advance where
  applies := by simpa using passes
  cleared blocked := by cases blocked
  location blocked := by cases blocked
  status blocked := by cases blocked
  unchanged _ := ⟨rfl, rfl, rfl⟩

/-- A disrupted request is reported right exactly when both statuses are one. -/
theorem reported_iff_of_disrupted {canBlock : Bool} {asked : World}
    (applies : it.disruptive ≠ 0 ∧ canBlock = true)
    (reported : asked.log = w.log ++ [.engine tx (.intervention (some it)) true])
    (ran : disrupt env context tx it asked = .returned () after) :
    Reported it canBlock w true after ↔ (it.answerStatus : Int) = it.toldStatus := by
  obtain ⟨response, finals, finalizes, shape⟩ := disrupt_returned ran
  obtain ⟨status, location⟩ := answered_response it asked
  have since : after.log.drop w.log.length = .engine tx (.intervention (some it)) true ::
      (.response .clear :: it.answerOps.map .response ++
        .engine tx (.updateStatusCode it.toldStatus) true :: .setRequestHandled :: finals) := by
    rw [shape, reported, List.append_assoc, List.drop_left]
    rfl
  have answers : (it.answerOps.map Event.response).filterMap Event.told? = [] :=
    List.filterMap_eq_nil_iff.mpr fun event member => by
      obtain ⟨op, _, rfl⟩ := List.mem_map.mp member
      rfl
  have quiet : finals.filterMap Event.told? = [] :=
    filterMap_finalizes (fun _ finalizes => finalizes.quiet.2) finalizes
  have told : (after.log.drop w.log.length).filterMap Event.told? = [it.toldStatus] := by
    have tells : (Event.engine tx (.updateStatusCode it.toldStatus) true).told? =
        some it.toldStatus := rfl
    rw [since, List.filterMap_cons_none rfl, List.cons_append, List.filterMap_cons_none rfl,
      List.filterMap_append, answers, List.filterMap_cons_some tells, List.filterMap_cons_none rfl,
      quiet, List.nil_append]
  constructor
  · intro right
    have same := right.status rfl
    rw [told, response, status] at same
    exact (List.singleton_inj.mp same).symm
  · intro same
    exact
      { applies := by simpa using applies
        cleared := fun _ => by
          rw [since]
          rfl
        location := fun _ => by rw [response, location]
        status := fun _ => by rw [told, response, status, same]
        unchanged := fun blocked => by cases blocked }

/-- `ApplyIntervention` returns unless a call throws, and when it returns it has told the
engine the client's status exactly when a disruption without a redirect has a status of at
most 16 bits. -/
theorem told_status_iff {canBlock : Bool} (live : w.rsc.tx = some tx)
    (pending : env.intervention w.tick = some it) :
    (context.responsePresent = true → (∀ tick, env.throws tick = false) →
      ∃ blocked after, applyIntervention env context canBlock w = .returned blocked after) ∧
    ∀ blocked after, applyIntervention env context canBlock w = .returned blocked after →
      (Reported it canBlock w blocked after ↔
        (it.disruptive ≠ 0 ∧ canBlock = true → it.url.getD [] ≠ [] ∨ it.status ≤ 65535)) := by
  rw [applyIntervention_pending live pending]
  constructor
  · intro present calm
    rw [if_neg (by simp [calm]), if_neg (by simp [calm])]
    split
    · obtain ⟨after, ran⟩ := @disrupt_returns env context present calm tx it
        (w.advance.called env tx (.intervention (some it))).advance
      exact ⟨true, after, bind_returned ran⟩
    · exact ⟨false, _, rfl⟩
  · intro blocked after ran
    split at ran
    · cases ran
    · next calm =>
        split at ran
        · cases ran
        · split at ran
          · next applies =>
              obtain ⟨_, middle, disrupted, rest⟩ := bind_eq_returned ran
              cases rest
              have asked : (w.advance.called env tx (.intervention (some it))).advance.log =
                  w.log ++ [.engine tx (.intervention (some it)) true] := by
                have completed : env.throws w.advance.tick = false := Bool.eq_false_iff.mpr calm
                have logged : (w.advance.called env tx (.intervention (some it))).log =
                    w.log ++ [.engine tx (.intervention (some it)) (!env.throws w.advance.tick)] := rfl
                rw [completed] at logged
                exact logged
              rw [reported_iff_of_disrupted applies asked disrupted, answerStatus_eq_told_iff]
              exact ⟨fun same _ => same, fun same => same applies⟩
          · next passes =>
              cases ran
              exact ⟨fun _ applies => absurd applies passes,
                fun _ => reported_of_unblocked passes⟩

end Run

def Env.denying (status : Int) : Env :=
  { Env.calm with intervention := fun _ => some { status, disruptive := 1, url := none } }

theorem told_status_iff_forbidden : ∃ after,
    applyIntervention (.denying 403) .plain true tracked = .returned true after ∧
      Reported { status := 403, disruptive := 1, url := none } true tracked true after := by
  obtain ⟨after, ran⟩ := Outcome.exists_returned
    (show (applyIntervention (.denying 403) .plain true tracked).value = some true by decide +kernel)
  have right := @told_status_iff (.denying 403) .plain 0
    { status := 403, disruptive := 1, url := none } tracked true rfl rfl
  exact ⟨after, ran, (right.2 true after ran).mpr fun _ => .inr (by decide)⟩

/-- A denial with status 65736 is answered with 200, and the engine is told 65736. -/
theorem told_status_narrowed : ∃ after,
    applyIntervention (.denying 65736) .plain true tracked = .returned true after ∧
      after.response.statusCode = 200 ∧
      ¬ Reported { status := 65736, disruptive := 1, url := none } true tracked true after := by
  refine ⟨_, rfl, by decide +kernel, ?_⟩
  intro right
  have told := right.status rfl
  revert told
  decide +kernel

end ModSecurityIIS
