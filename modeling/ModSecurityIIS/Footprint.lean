import ModSecurityIIS.Transaction

/-!
# Footprints

What a step can reach: how the stored context may change and which events it may
record. Everything on the way of the request body is left alone. One lemma for
each shared step; the lemmas about handlers are put together from these.
-/

set_option autoImplicit false

namespace ModSecurityIIS

open Imperative Program

/-- The body on the server's side and the tracking of the request are untouched,
the context changes as `keeps` says, and only `allowed` events are recorded. -/
structure Frame (keeps : RequestStoredContext → RequestStoredContext → Prop)
    (allowed : Event → Prop) (w after : World) : Prop where
  stored : after.stored = w.stored
  entity : after.entity = w.entity
  reads : after.reads = w.reads
  outstanding : after.outstanding = w.outstanding
  context : keeps w.rsc after.rsc
  logged : ∃ events, after.log = w.log ++ events ∧ ∀ event ∈ events, allowed event

/-- The events of the body phase: reads, and the calls that give the body to the
engine or back to the server. -/
def Event.isBodyEvent : Event → Bool
  | .engine _ (.appendRequestBody _) _ => true
  | .engine _ .processRequestBody _ => true
  | .insertEntityBody _ _ => true
  | .readEntityBody => true
  | _ => false

def Event.OffBody (event : Event) : Prop := event.isBodyEvent = false

instance : IsPreorder RequestStoredContext fun _ _ => True where
  refl _ := trivial
  trans _ _ _ _ _ := trivial

section Frames

variable {keeps : RequestStoredContext → RequestStoredContext → Prop} {allowed : Event → Prop}

theorem Frame.mono {wideKeeps : RequestStoredContext → RequestStoredContext → Prop}
    {wide : Event → Prop} {w after : World} (frame : Frame keeps allowed w after)
    (context : ∀ a b, keeps a b → wideKeeps a b) (event : ∀ e, allowed e → wide e) :
    Frame wideKeeps wide w after := by
  obtain ⟨events, shape, each⟩ := frame.logged
  exact ⟨frame.stored, frame.entity, frame.reads, frame.outstanding,
    context _ _ frame.context, events, shape, fun e member => event e (each e member)⟩

theorem modifyContext_frame {f : RequestStoredContext → RequestStoredContext}
    (kept : ∀ rsc, keeps rsc (f rsc)) : Within (Frame keeps allowed) (modifyContext f) :=
  fun _ => ⟨rfl, rfl, rfl, rfl, kept _, [], (List.append_nil _).symm, by simp⟩

variable [IsPreorder RequestStoredContext keeps]

instance : IsPreorder World (Frame keeps allowed) where
  refl w := ⟨rfl, rfl, rfl, rfl, refl_of keeps _, [], by simp⟩
  trans _ _ _ first second := by
    obtain ⟨before, beforeShape, beforeAllowed⟩ := first.logged
    obtain ⟨after, afterShape, afterAllowed⟩ := second.logged
    refine ⟨second.stored.trans first.stored, second.entity.trans first.entity,
      second.reads.trans first.reads, second.outstanding.trans first.outstanding,
      trans_of keeps first.context second.context, before ++ after, ?_, ?_⟩
    · rw [afterShape, beforeShape, List.append_assoc]
    · exact List.forall_mem_append.mpr ⟨beforeAllowed, afterAllowed⟩

theorem consult_frame {α : Type} (answer : Nat → α) :
    Within (Frame keeps allowed) (consult answer) :=
  fun _ => ⟨rfl, rfl, rfl, rfl, refl_of keeps _, [], by simp [World.advance], by simp⟩

theorem record_frame {event : Event} (permitted : allowed event) :
    Within (Frame keeps allowed) (record event) :=
  fun _ => ⟨rfl, rfl, rfl, rfl, refl_of keeps _, [event], rfl, by simpa using permitted⟩

theorem recordCom_frame (event : ComEvent) : Within (Frame keeps allowed) (recordCom event) :=
  fun _ => ⟨rfl, rfl, rfl, rfl, refl_of keeps _, [], (List.append_nil _).symm, by simp⟩

theorem writeEventViewerLog_frame (message : Bytes) (category : EventCategory) :
    Within (Frame keeps allowed) (writeEventViewerLog message category) :=
  fun _ => ⟨rfl, rfl, rfl, rfl, refl_of keeps _, [], (List.append_nil _).symm, by simp⟩

theorem reportException_frame (env : Env) (location : String) :
    Within (Frame keeps allowed) (reportException env location) :=
  fun _ => ⟨rfl, rfl, rfl, rfl, refl_of keeps _, [], (List.append_nil _).symm, by simp⟩

theorem mayThrow_frame (env : Env) : Within (Frame keeps allowed) (mayThrow env) := by
  refine Within.bind (consult_frame _) fun threw => ?_
  split
  · exact Within.throw
  · exact Within.pure ()

theorem engineCall_frame {env : Env} {tx : TransactionId} {call : EngineCall}
    (permitted : ∀ completed, allowed (.engine tx call completed)) :
    Within (Frame keeps allowed) (engineCall env tx call) := by
  refine Within.bind (consult_frame _) fun threw => ?_
  refine Within.bind (record_frame (permitted _)) fun _ => ?_
  split
  · exact Within.throw
  · exact Within.pure ()

theorem contextCall_frame {env : Env} {call : EngineCall}
    (permitted : ∀ tx completed, allowed (.engine tx call completed)) :
    Within (Frame keeps allowed) (contextCall env call) := by
  refine Within.bind Within.get fun w => ?_
  cases w.rsc.tx with
  | none => exact Within.halt _
  | some tx => exact engineCall_frame (permitted tx)

theorem respond_frame {op : ResponseOp} (permitted : allowed (.response op)) :
    Within (Frame keeps allowed) (respond op) :=
  Within.bind
    (fun _ => ⟨rfl, rfl, rfl, rfl, refl_of keeps _, [], (List.append_nil _).symm, by simp⟩)
    fun _ => record_frame permitted

/-! ## Finalising -/

/-- The events of `FinishRequest`. -/
def Event.Finalizes : Event → Prop
  | .engine _ .processLogging _ => True
  | .destroyTransaction _ => True
  | .releaseRules => True
  | _ => False

theorem finalizeTransaction_frame (env : Env) (tx : Option TransactionId)
    (permitted : ∀ event, event.Finalizes → allowed event) :
    Within (Frame keeps allowed) (finalizeTransaction env tx) := by
  cases tx with
  | none => exact Within.pure ()
  | some tx =>
      refine Within.tryCatch ?_ (writeEventViewerLog_frame _ _)
      exact Within.bind (engineCall_frame fun _ => permitted _ trivial)
        fun _ => record_frame (permitted _ trivial)

theorem finishContext_frame (env : Env) (rsc : RequestStoredContext)
    (permitted : ∀ event, event.Finalizes → allowed event) :
    Within (Frame keeps allowed) (finishContext env rsc) := by
  refine Within.bind (finalizeTransaction_frame env rsc.tx permitted) fun _ => ?_
  refine Within.bind (Within.when fun _ => record_frame (permitted _ trivial)) fun _ => ?_
  exact Within.pure _

theorem finishRequest_frame (env : Env)
    (released : ∀ rsc, keeps rsc { rsc with tx := none, rules := none })
    (permitted : ∀ event, event.Finalizes → allowed event) :
    Within (Frame keeps allowed) (finishRequest env) := by
  intro w
  have finished : Frame keeps allowed w _ := finishContext_frame env w.rsc permitted w
  rw [finishRequest, bind_returned (get_apply _), bind_apply]
  cases run : finishContext env w.rsc w with
  | thrown after => rw [run] at finished; exact finished
  | halted reason after => rw [run] at finished; exact finished
  | returned rsc after =>
      rw [run] at finished
      obtain ⟨_, _, _, rest⟩ := bind_eq_returned run
      obtain ⟨_, _, _, rest⟩ := bind_eq_returned rest
      cases rest
      exact ⟨finished.stored, finished.entity, finished.reads, finished.outstanding,
        released w.rsc, finished.logged⟩

/-! ## Interventions -/

/-- The operations by which an intervention answers. -/
def ResponseOp.Answers : ResponseOp → Prop
  | .setHeader _ _ => False
  | _ => True

/-- The events of `ApplyIntervention`. -/
def Event.Intervenes : Event → Prop
  | .engine _ (.intervention _) _ => True
  | .engine _ (.updateStatusCode _) _ => True
  | .response op => op.Answers
  | .setRequestHandled => True
  | event => event.Finalizes

theorem Event.Finalizes.intervenes {event : Event} (finalizes : event.Finalizes) :
    event.Intervenes := by
  cases event with
  | engine tx call completed => cases call <;> trivial
  | constructTransaction => exact finalizes
  | destroyTransaction => trivial
  | releaseRules => trivial
  | response => trivial
  | setRequestHandled => trivial
  | readEntityBody => exact finalizes
  | insertEntityBody => exact finalizes

theorem Event.Intervenes.offBody {event : Event} (intervenes : event.Intervenes) :
    event.OffBody := by
  cases event with
  | engine tx call completed => cases call <;> first | rfl | exact absurd intervenes id
  | insertEntityBody => exact absurd intervenes id
  | readEntityBody => exact absurd intervenes id
  | _ => rfl

theorem setStatus_frame (status : Int)
    (permitted : ∀ op : ResponseOp, op.Answers → allowed (.response op)) :
    Within (Frame keeps allowed) (setStatus status) :=
  respond_frame (permitted _ trivial)

theorem answerIntervention_frame (it : Intervention)
    (permitted : ∀ op : ResponseOp, op.Answers → allowed (.response op)) :
    Within (Frame keeps allowed) (answerIntervention it) := by
  unfold answerIntervention
  split
  · exact Within.bind (setStatus_frame _ permitted) fun _ => Within.pure _
  · refine Within.bind (respond_frame (permitted _ trivial)) fun _ => ?_
    split
    · exact Within.bind (setStatus_frame _ permitted) fun _ => Within.pure _
    · exact Within.pure _

theorem disrupt_frame (env : Env) (context : HttpContext) (tx : TransactionId)
    (it : Intervention) (released : ∀ rsc, keeps rsc { rsc with tx := none, rules := none })
    (permitted : ∀ event, event.Intervenes → allowed event) :
    Within (Frame keeps allowed) (disrupt env context tx it) := by
  unfold disrupt
  split
  · refine Within.bind (respond_frame (permitted _ trivial)) fun _ => ?_
    refine Within.bind (answerIntervention_frame it fun _ answers => permitted _ answers)
      fun finalStatus => ?_
    refine Within.bind (engineCall_frame fun _ => permitted _ trivial) fun _ => ?_
    refine Within.bind (Within.modify fun _ => ?_) fun _ => ?_
    · exact ⟨rfl, rfl, rfl, rfl, refl_of keeps _, [], (List.append_nil _).symm, by simp⟩
    refine Within.bind (record_frame (permitted _ trivial)) fun _ => ?_
    exact finishRequest_frame env released fun event finalizes =>
      permitted event finalizes.intervenes
  · exact Within.halt _

theorem pendingIntervention_frame (env : Env) (tx : TransactionId)
    (permitted : ∀ reported completed, allowed (.engine tx (.intervention reported) completed)) :
    Within (Frame keeps allowed) (pendingIntervention env tx) := by
  refine Within.bind (consult_frame _) fun reported => ?_
  exact Within.bind (engineCall_frame (permitted reported)) fun _ => Within.pure _

theorem applyIntervention_frame (env : Env) (context : HttpContext) (canBlock : Bool)
    (released : ∀ rsc, keeps rsc { rsc with tx := none, rules := none })
    (permitted : ∀ event, event.Intervenes → allowed event) :
    Within (Frame keeps allowed) (applyIntervention env context canBlock) := by
  refine Within.bind Within.get fun w => ?_
  split
  · exact Within.pure _
  · refine Within.bind (pendingIntervention_frame env _ fun _ _ => permitted _ trivial)
      fun reported => ?_
    split
    · exact Within.pure _
    · refine Within.bind (mayThrow_frame env) fun _ => ?_
      split
      · exact Within.bind (disrupt_frame env context _ _ released permitted)
          fun _ => Within.pure _
      · exact Within.pure _

theorem applyIntervention_detect_frame (env : Env) (context : HttpContext)
    (permitted : ∀ tx reported completed, allowed (.engine tx (.intervention reported) completed)) :
    Within (Frame keeps allowed) (applyIntervention env context false) := by
  refine Within.bind Within.get fun w => ?_
  split
  · exact Within.pure _
  · refine Within.bind (pendingIntervention_frame env _ (permitted _)) fun reported => ?_
    split
    · exact Within.pure _
    · refine Within.bind (mayThrow_frame env) fun _ => ?_
      simp only [Bool.false_eq_true, and_false, ↓reduceIte]
      exact Within.pure _

theorem responseBodyBlockingEnabled_frame (env : Env)
    (permitted : ∀ tx completed, allowed (.engine tx .getRuleEngineState completed)) :
    Within (Frame keeps allowed) (responseBodyBlockingEnabled env) := by
  refine Within.bind Within.get fun w => ?_
  split
  · split
    · refine Within.bind (consult_frame _) fun state => ?_
      exact Within.bind (engineCall_frame (permitted _)) fun _ => Within.pure _
    · exact Within.pure _
  · exact Within.pure _

end Frames

/-! ## What an intervention that does not finish the request leaves behind -/

/-- A disruptive intervention the engine reported. -/
def Event.Disruptive : Event → Prop
  | .engine _ (.intervention (some it)) _ => it.disruptive ≠ 0
  | _ => False

/-- The context is the same and no disruptive intervention was reported. -/
abbrev Undisturbed : World → World → Prop := Frame Eq fun event => ¬ event.Disruptive

instance : IsPreorder RequestStoredContext Eq where
  refl _ := rfl
  trans _ _ _ first second := first.trans second

/-- A permitted intervention that returns `false` has met no disruptive report. -/
theorem applyIntervention_false (env : Env) (context : HttpContext) (w : World) :
    Ensures (Undisturbed w) (applyIntervention env context true)
      (fun blocked after => blocked = false → Undisturbed w after) (fun _ => True) := by
  refine .bind (fun seen after => seen = after ∧ Undisturbed w after)
    (fun _ start => ⟨rfl, start⟩) fun seen => ?_
  split
  · exact .pure fun _ holds _ => holds.2
  next tx _ =>
    refine .bind (fun reported after =>
      (∀ it, reported = some it → it.disruptive = 0) → Undisturbed w after) ?_ fun reported => ?_
    · intro s start
      rw [pendingIntervention, bind_returned (consult_apply _ _), bind_apply, engineCall_apply]
      by_cases threw : env.throws s.advance.tick = true
      · simp only [if_pos threw]
        exact trivial
      · simp only [if_neg threw]
        intro harmless
        have asked : Undisturbed s
            (s.advance.called env tx (.intervention (env.intervention s.tick))) := by
          refine ⟨rfl, rfl, rfl, rfl, rfl, _, rfl, ?_⟩
          intro event member disruptive
          cases List.mem_singleton.mp member
          cases found : env.intervention s.tick with
          | none => simp [Event.Disruptive, found] at disruptive
          | some it =>
              simp only [Event.Disruptive, found] at disruptive
              exact disruptive (harmless it found)
        exact trans_of Undisturbed start.2 asked
    · split
      · exact .pure fun _ holds _ => holds (by simp)
      next it =>
        refine .bind (fun _ after => it.disruptive = 0 → Undisturbed w after) ?_ fun _ => ?_
        · intro s start
          rw [mayThrow_apply]
          split
          · exact trivial
          · intro harmless
            have before := start (by rintro _ ⟨⟩; exact harmless)
            exact trans_of Undisturbed before (consult_frame env.throws s)
        · split
          · exact .skip (fun _ => trivial) fun _ => .pure fun _ _ => by simp
          · next harmless =>
              refine .pure fun _ holds _ => holds ?_
              simpa using harmless

end ModSecurityIIS
