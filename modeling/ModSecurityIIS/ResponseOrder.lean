import ModSecurityIIS.ResponseCap

/-!
# Phase 4 and the response body

Within one notification the body bytes are handed to the engine before phase 4 is
evaluated. Over several notifications that holds only while none arrives with bytes
after the evaluation: the chunk loop does not ask whether it has happened.
-/

set_option autoImplicit false

namespace ModSecurityIIS

open Imperative Program Transition

/-- The evaluation of phase 4. -/
def Event.isEvaluation : Event → Bool
  | .engine _ .processResponseBody _ => true
  | _ => false

/-- No byte is handed out after an evaluation. -/
def BodyFirst (log : List Event) : Prop :=
  log.Pairwise fun earlier later => earlier.isEvaluation = true → later.handed = 0

instance (log : List Event) : Decidable (BodyFirst log) :=
  inferInstanceAs (Decidable (log.Pairwise _))

/-! ## One notification -/

/-- The steps before an evaluation, and those that hand nothing out. -/
abbrev Unevaluated : World → World → Prop :=
  Frame (fun _ _ => True) fun event => event.isEvaluation = false

abbrev Unhanded : World → World → Prop := Frame (fun _ _ => True) fun event => event.handed = 0

/-- What is logged hands bytes out first and evaluates then. -/
def Split (w after : World) : Prop :=
  ∃ front back, after.log = w.log ++ (front ++ back) ∧
    (∀ event ∈ front, event.isEvaluation = false) ∧ ∀ event ∈ back, event.handed = 0

theorem Split.of_unevaluated {w after : World} (unevaluated : Unevaluated w after) :
    Split w after := by
  obtain ⟨events, shape, each⟩ := unevaluated.logged
  exact ⟨events, [], by simp [shape], each, by simp⟩

theorem Split.of_unhanded {w after : World} (unhanded : Unhanded w after) : Split w after := by
  obtain ⟨events, shape, each⟩ := unhanded.logged
  exact ⟨[], events, by simp [shape], by simp, each⟩

theorem Split.refl (w : World) : Split w w := ⟨[], [], by simp, by simp, by simp⟩

theorem Split.after_unevaluated {w middle after : World} (unevaluated : Unevaluated w middle)
    (split : Split middle after) : Split w after := by
  obtain ⟨events, shape, each⟩ := unevaluated.logged
  obtain ⟨front, back, rest, clear, silent⟩ := split
  refine ⟨events ++ front, back, by simp [rest, shape], ?_, silent⟩
  exact List.forall_mem_append.mpr ⟨each, clear⟩

theorem Split.then_unhanded {w middle after : World} (split : Split w middle)
    (unhanded : Unhanded middle after) : Split w after := by
  obtain ⟨events, shape, each⟩ := unhanded.logged
  obtain ⟨front, back, rest, clear, silent⟩ := split
  refine ⟨front, back ++ events, by simp [shape, rest], clear, ?_⟩
  exact List.forall_mem_append.mpr ⟨silent, each⟩

theorem Event.FeedsHeaders.unevaluated {event : Event} (feeds : event.FeedsHeaders) :
    event.isEvaluation = false := by
  cases event with
  | engine tx call completed => cases call <;> first | rfl | exact absurd feeds id
  | _ => rfl

section Notification

variable {env : Env} {context : HttpContext} {notification : SendResponse}

theorem onSendResponse_split : Within Split (onSendResponse env context notification) := by
  intro w
  by_cases inspects : w.Inspects context notification
  · obtain ⟨tx, live⟩ := Option.ne_none_iff_exists'.mp inspects.2.1
    rw [onSendResponse_of_inspects inspects live, tryCatch_apply]
    have heads : Within Unevaluated (headerPhase env context notification tx) :=
      headerPhase_frame (fun _ => trivial) (fun _ => trivial)
        (fun _ feeds => feeds.unevaluated) env context
        notification tx
    have chunks : Within Unevaluated (inspectChunks env tx notification.response.entityChunks) :=
      inspectChunks_frame (fun _ _ => rfl) _
    have modes (respInspected : Nat) :=
      modes_within (modeA_frame responseChanges_any (fun _ e => e.handed) env context
        notification respInspected) (modeB_frame (fun _ => trivial)
          (fun _ e => e.evaluatesResponse.handed) env context notification)
    have bodies : Within Split (bodyPhase env context notification tx) :=
      .seq chunks modes (fun _ _ _ first second => .after_unevaluated first (.of_unhanded second))
        fun _ _ => .of_unevaluated
    have rest (finished : Bool) : Within Split
        (if finished then pure .rqNotificationFinishRequest
          else bodyPhase env context notification tx) := by
      split
      · exact Split.refl
      · exact bodies
    have phases : Within Split (inspectSend env context notification tx) :=
      .seq heads rest (fun _ _ _ => .after_unevaluated) fun _ _ => .of_unevaluated
    have before := phases w
    cases run : inspectSend env context notification tx w with
    | returned status after => rw [run] at before; exact before
    | halted reason after => rw [run] at before; exact before
    | thrown after =>
        rw [run] at before
        exact before.then_unhanded (failSend_frame (by exact rfl) env context after)
  · rw [onSendResponse_of_not_inspects inspects]
    exact Split.refl w

/-! ## The mark of the evaluation -/

/-- An evaluation leaves its mark in the context, and the mark is not taken back. -/
structure Marks (w after : World) : Prop where
  kept : w.rsc.responseBodyEvaluated = true → after.rsc.responseBodyEvaluated = true
  logged : ∃ events, after.log = w.log ++ events ∧
    ((∃ event ∈ events, event.isEvaluation = true) → after.rsc.responseBodyEvaluated = true)

instance : IsPreorder World Marks where
  refl _ := ⟨id, [], by simp, by simp⟩
  trans _ _ _ first second := by
    obtain ⟨before, beforeShape, beforeMarked⟩ := first.logged
    obtain ⟨after, afterShape, afterMarked⟩ := second.logged
    refine ⟨fun marked => second.kept (first.kept marked), before ++ after,
      by simp [afterShape, beforeShape], ?_⟩
    rintro ⟨event, member, evaluates⟩
    rcases List.mem_append.mp member with early | late
    · exact second.kept (beforeMarked ⟨event, early, evaluates⟩)
    · exact afterMarked ⟨event, late, evaluates⟩

def KeepsEvaluated (a b : RequestStoredContext) : Prop :=
  a.responseBodyEvaluated = true → b.responseBodyEvaluated = true

instance : IsPreorder RequestStoredContext KeepsEvaluated where
  refl _ := id
  trans _ _ _ first second marked := second (first marked)

theorem marks_of_frame {α : Type} {program : Program World α}
    (within : Within (Frame KeepsEvaluated fun event => event.isEvaluation = false) program) :
    Within Marks program := by
  intro w
  obtain ⟨events, shape, each⟩ := (within w).logged
  refine ⟨(within w).context, events, shape, ?_⟩
  rintro ⟨event, member, evaluates⟩
  rw [each event member] at evaluates
  cases evaluates

theorem Event.Intervenes.unevaluated {event : Event} (intervenes : event.Intervenes) :
    event.isEvaluation = false :=
  intervenes.feedsHeaders.unevaluated

theorem evaluateBody_frame_marked (w : World) :
    Frame Eq (fun _ => True) { w with rsc := { w.rsc with responseBodyEvaluated := true } }
      (evaluateBody env w).state :=
  contextCall_frame (fun _ _ => trivial) _

theorem evaluateBody_marked (w : World) :
    (evaluateBody env w).state.rsc.responseBodyEvaluated = true := by
  rw [← (evaluateBody_frame_marked w).context]

theorem evaluateBody_marks : Within Marks (evaluateBody env) := by
  intro w
  obtain ⟨events, shape, _⟩ := (evaluateBody_frame_marked w).logged
  exact ⟨fun _ => evaluateBody_marked w, events, shape, fun _ => evaluateBody_marked w⟩

theorem blockingEnabled_marks : Within Marks (responseBodyBlockingEnabled env) :=
  marks_of_frame (responseBodyBlockingEnabled_frame env fun _ _ => rfl)

theorem modeA_marks (respInspected : Nat) :
    Within Marks (modeA env context notification respInspected) := by
  apply modeA_within blockingEnabled_marks
  · exact marks_of_frame (modifyContext_frame fun _ => id)
  · exact marks_of_frame (pinContentLength_frame fun _ _ => rfl)
  · exact evaluateBody_marks
  · exact marks_of_frame (applyIntervention_frame env context true (fun _ => id)
      fun _ intervenes => intervenes.unevaluated)

theorem modeB_marks : Within Marks (modeB env context notification) := by
  apply modeB_within blockingEnabled_marks evaluateBody_marks
  exact marks_of_frame (applyIntervention_detect_frame env context fun _ _ _ => rfl)

theorem onSendResponse_marks : Within Marks (onSendResponse env context notification) := by
  apply onSendResponse_within
  · intro tx
    exact marks_of_frame (headerPhase_frame (fun _ => id) (fun _ => id)
      (fun _ feeds => feeds.unevaluated) env context notification tx)
  · intro tx
    exact bodyPhase_within (marks_of_frame (inspectChunks_frame (fun _ _ => rfl) _)) modeA_marks
      modeB_marks
  · exact marks_of_frame (failSend_frame (by exact rfl) env context)

end Notification

/-! ## Whole runs -/

/-- A notification that is inspected after the evaluation brings no inspectable byte. -/
def orderCondition (context : HttpContext) (s : ResponseState) (raised : Raised) : Prop :=
  s.world.Inspects context raised.notification → s.world.rsc.responseBodyEvaluated = true →
    raised.notification.offered = 0

/-- The log is in order, and an evaluation in it has left its mark. -/
structure Ordered (w : World) : Prop where
  bodyFirst : BodyFirst w.log
  marked : ∀ event ∈ w.log, event.isEvaluation = true → w.rsc.responseBodyEvaluated = true

section Runs

variable {process : Env} {context : HttpContext} {s : ResponseState}

theorem weigh_eq_zero {events : List Event} (none : weigh Event.handed events = 0) :
    ∀ event ∈ events, event.handed = 0 := by
  intro event member
  have weight := weight_le_weigh Event.handed member
  omega

theorem onSendResponse_hands_nothing {env : Env} {notification : SendResponse} {w after : World}
    {status : NotificationStatus}
    (nothing : w.Inspects context notification → notification.offered = 0)
    (ran : onSendResponse env context notification w = .returned status after) :
    ∀ events, after.log = w.log ++ events → ∀ event ∈ events, event.handed = 0 := by
  intro events shape
  refine weigh_eq_zero ?_
  have handed : after.handed ≤ w.handed := by
    by_cases inspects : w.Inspects context notification
    · have bounded := (onSendResponse_handed (.inr (by simp [nothing inspects]))).returned
        (Nat.le_refl w.handed) ran
      rwa [nothing inspects, Nat.min_zero, Nat.add_zero] at bounded
    · rw [onSendResponse_of_not_inspects inspects] at ran
      cases ran
      exact Nat.le_refl _
  rw [World.handed, World.handed, shape, weigh_append] at handed
  omega

theorem bodyFirst_of_split {front back : List Event}
    (clear : ∀ event ∈ front, event.isEvaluation = false)
    (silent : ∀ event ∈ back, event.handed = 0) : BodyFirst (front ++ back) := by
  have unevaluated : ∀ earlier ∈ front, ∀ later : Event,
      earlier.isEvaluation = true → later.handed = 0 := by
    intro earlier member later evaluates
    rw [clear earlier member] at evaluates
    cases evaluates
  refine List.pairwise_append.mpr ⟨?_, ?_, fun earlier member later _ => ?_⟩
  · exact List.pairwise_of_forall_mem_list fun earlier member later _ => unevaluated earlier member later
  · exact List.pairwise_of_forall_mem_list fun _ _ later member _ => silent later member
  · exact unevaluated earlier member later

theorem ordered_step {raised : Raised} {next : ResponseState} (ordered : Ordered s.world)
    (condition : orderCondition context s raised)
    (step : (responseSystem process context).step s raised next) : Ordered next.world := by
  obtain @⟨status, after, _, ran⟩ := step
  rw [raiseSendResponse_apply] at ran
  have split := @onSendResponse_split raised.env context raised.notification
    (s.world.raised raised.notification)
  have marks := @onSendResponse_marks raised.env context raised.notification
    (s.world.raised raised.notification)
  rw [ran] at split marks
  obtain ⟨front, back, shape, clear, silent⟩ := split
  obtain ⟨events, same, marked⟩ := marks.logged
  obtain rfl : events = front ++ back := List.append_cancel_left (same.symm.trans shape)
  simp only [Outcome.state_returned] at shape marked
  refine ⟨?_, ?_⟩
  · change BodyFirst after.log
    rw [shape]
    refine List.pairwise_append.mpr ⟨ordered.bodyFirst, bodyFirst_of_split clear silent, ?_⟩
    intro earlier member later present evaluates
    have evaluated := ordered.marked earlier member evaluates
    have nothing : (s.world.raised raised.notification).Inspects context raised.notification →
        raised.notification.offered = 0 := fun inspects => condition inspects evaluated
    exact onSendResponse_hands_nothing nothing ran _ shape later present
  · intro event member evaluates
    change event ∈ after.log at member
    rw [shape] at member
    rcases List.mem_append.mp member with early | late
    · exact marks.kept (ordered.marked event early evaluates)
    · exact marked ⟨event, late, evaluates⟩

/-- In a run whose every notification meets the condition, phase 4 is evaluated on all the
bytes the engine ever gets. -/
theorem body_before_evaluation
    (reached : (responseSystem process context).Reaches (orderCondition context) s) :
    BodyFirst s.world.log := by
  have ordered : Ordered s.world := by
    refine reached.invariant (fun state start => ?_)
      fun _ _ _ ordered condition step => ordered_step ordered condition step
    have unevaluated : ∀ event ∈ state.world.log, event.isEvaluation = false := by
      intro event member
      have silent := start.1.silent event member
      cases event with
      | engine tx call completed => cases call <;> first | rfl | exact absurd trivial silent
      | _ => rfl
    refine ⟨?_, fun event member evaluates => ?_⟩
    · refine List.pairwise_of_forall_mem_list fun earlier member later _ evaluates => ?_
      rw [unevaluated earlier member] at evaluates
      cases evaluates
    · rw [unevaluated event member] at evaluates
      cases evaluates
  exact ordered.bodyFirst

end Runs

theorem body_before_evaluation_streamed : ∃ s : ResponseState,
    s.world.rsc.responseBodyEvaluated = true ∧ BodyFirst s.world.log := by
  have start : (responseSystem .calm .plain).Reaches (orderCondition .plain)
      { world := .begun, committed := none } := .start ⟨begun_responseStart, rfl⟩
  have streamed := start.next (fun _ evaluated => absurd evaluated (by decide +kernel))
    (@ResponseStep.of_value _ _ _ (.calm [.twoBytes] true) .rqNotificationContinue
      rfl (by decide +kernel))
  have ended := streamed.next (fun _ evaluated => absurd evaluated (by decide +kernel))
    (@ResponseStep.of_value _ _ _ (.calm [.twoBytes] false) .rqNotificationContinue
      rfl (by decide +kernel))
  exact ⟨_, by decide +kernel, body_before_evaluation ended⟩

/-- The headers are sent first, without MORE_DATA: phase 4 is evaluated on an empty body
and the two bytes that follow are appended after it. -/
theorem body_after_evaluation : ∃ s : ResponseState,
    (responseSystem .calm .plain).Reachable s ∧ ¬ BodyFirst s.world.log := by
  have start : (responseSystem .calm .plain).Reachable
      { world := .begun, committed := none } := .start ⟨begun_responseStart, rfl⟩
  have headers := start.step (@ResponseStep.of_value _ _ _ (.calm [] false)
    .rqNotificationContinue rfl (by decide +kernel))
  have body := headers.step (@ResponseStep.of_value _ _ _ (.calm [.twoBytes] false)
    .rqNotificationContinue rfl (by decide +kernel))
  exact ⟨_, body, by decide +kernel⟩

end ModSecurityIIS
