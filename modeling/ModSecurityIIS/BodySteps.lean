import ModSecurityIIS.BeginRequestProperties

/-!
# What the read of a body preserves

The functions that read, restore and inspect the request body reach the engine only through
the context's transaction. A relation that admits those calls, and every step outside the
engine, holds across each of them.
-/

set_option autoImplicit false

namespace ModSecurityIIS

open Imperative Program

/-- The transaction and the marks of the response phases are the same. -/
def SameTracking (a b : RequestStoredContext) : Prop :=
  b.tx = a.tx ∧ b.responseHeadersFed = a.responseHeadersFed ∧
    b.responseBodyEvaluated = a.responseBodyEvaluated

instance : IsPreorder RequestStoredContext SameTracking where
  refl _ := ⟨rfl, rfl, rfl⟩
  trans _ _ _ first second :=
    ⟨second.1.trans first.1, second.2.1.trans first.2.1, second.2.2.trans first.2.2⟩

/-- Calls on a transaction, and the mark that the request was handled. -/
def Event.Tracked : Event → Prop
  | .engine _ _ _ => True
  | .setRequestHandled => True
  | _ => False

/-- Calls on the response and on the entity: the transaction is neither used nor ended. -/
def Event.Idle : Event → Prop
  | .response _ => True
  | .readEntityBody => True
  | .insertEntityBody _ _ => True
  | _ => False

theorem Event.Idle.untracked {event : Event} (idle : event.Idle) : ¬ event.Tracked := by
  cases event with
  | response op => exact id
  | readEntityBody => exact id
  | insertEntityBody body result => exact id
  | _ => exact absurd idle id

/-- A step outside the engine. -/
structure Plain (w after : World) : Prop where
  context : SameTracking w.rsc after.rsc
  stored : after.stored = w.stored
  logged : ∃ events, after.log = w.log ++ events ∧ ∀ event ∈ events, event.Idle

theorem Plain.untracked {w after : World} (plain : Plain w after) :
    ∃ events, after.log = w.log ++ events ∧ ∀ event ∈ events, ¬ event.Tracked := by
  obtain ⟨events, shape, idle⟩ := plain.logged
  exact ⟨events, shape, fun event member => (idle event member).untracked⟩

theorem Plain.silent {w after : World} (context : SameTracking w.rsc after.rsc)
    (stored : after.stored = w.stored) (log : after.log = w.log) : Plain w after :=
  ⟨context, stored, [], by rw [log, List.append_nil], by simp⟩

theorem Plain.recorded {w after : World} {event : Event} (context : SameTracking w.rsc after.rsc)
    (stored : after.stored = w.stored) (log : after.log = w.log ++ [event]) (idle : event.Idle) :
    Plain w after :=
  ⟨context, stored, [event], log, by simpa using idle⟩

instance : IsPreorder World Plain where
  refl _ := .silent ⟨rfl, rfl, rfl⟩ rfl rfl
  trans _ _ _ first second := by
    obtain ⟨before, beforeShape, beforeIdle⟩ := first.logged
    obtain ⟨after, afterShape, afterIdle⟩ := second.logged
    refine ⟨trans_of SameTracking first.context second.context,
      second.stored.trans first.stored, before ++ after, ?_, ?_⟩
    · rw [afterShape, beforeShape, List.append_assoc]
    · exact List.forall_mem_append.mpr ⟨beforeIdle, afterIdle⟩

theorem plain_of_frame {α : Type} {program : Program World α}
    (within : Within (Frame SameTracking Event.Idle) program) : Within Plain program :=
  fun w => ⟨(within w).context, (within w).stored, (within w).logged⟩

/-- IIS ends the pended read, with its bytes in the staging buffer. -/
def World.delivered (w : World) (completion : Completion) : World :=
  { w with
    outstanding := none
    rsc := { w.rsc with readBuf := writeBuffer w.rsc.readBuf completion.bytes } }

/-- The relation admits what the read of a body is made of. -/
structure ReadSteps (env : Env) (context : HttpContext) (relation : World → World → Prop) :
    Prop where
  waits : Within relation (mayThrow env)
  changes : ∀ f, (∀ rsc, SameTracking rsc (f rsc)) → Within relation (modifyContext f)
  restores : Within relation (restoreBody env context)
  appends : ∀ body, Within relation (contextCall env (.appendRequestBody body))
  evaluates : Within relation (contextCall env .processRequestBody)
  intervenes : Within relation (applyIntervention env context true)
  fails : Within relation (respond (.setStatus 500 "Internal Server Error"))
  reports : ∀ location, Within relation (reportException env location)
  warns : Within relation logCapReached
  reads : ∀ async, Within relation (readEntityBody async)
  delivers : ∀ w completion, relation w (w.delivered completion)

namespace ReadSteps

variable {env : Env} {context : HttpContext} {relation : World → World → Prop}
  [IsPreorder World relation] (steps : ReadSteps env context relation)

include steps

theorem feedBody : Within relation (feedBody env) := by
  refine Within.bind .get fun w => ?_
  refine Within.bind (.when fun _ => steps.appends _) fun _ => ?_
  exact steps.evaluates

theorem finishBodyRead : Within relation (finishBodyRead env context) := by
  have inspects : Within relation (restoreAndFeed env context) := by
    refine Within.bind steps.restores fun restoration => ?_
    cases restoration with
    | restored => exact .bind steps.feedBody fun _ => .pure _
    | allocationFailed => exact .bind steps.feedBody fun _ => .pure _
    | insertionFailed => exact .pure _
  refine Within.bind (.tryCatch inspects (.bind (steps.reports _) fun _ => .pure _)) fun fed => ?_
  cases fed with
  | none => exact .pure _
  | some restoreFailed =>
      refine Within.bind steps.intervenes fun blocked => ?_
      split
      · exact .pure _
      · split
        · split
          · exact .bind steps.fails fun _ => .pure _
          · exact .halt _
        · exact .pure _

theorem consumeBodyChunk (read : Nat) (hr : HResult) :
    Within relation (consumeBodyChunk env context read hr) := by
  refine Within.bind ?_ ?_
  · apply Within.when
    intro _
    refine Within.bind steps.waits fun _ => ?_
    exact steps.changes _ fun _ => ⟨rfl, rfl, rfl⟩
  · intro _
    refine Within.bind .get fun w => ?_
    split
    · exact .pure _
    · refine Within.bind (.when fun _ => steps.warns) fun _ => ?_
      refine Within.bind (steps.changes _ fun _ => ⟨rfl, rfl, rfl⟩) fun _ => ?_
      exact .bind steps.finishBodyRead fun _ => .pure _

theorem pumpLoop (bound : Nat) : Within relation (pumpLoop env context bound) := by
  induction bound with
  | zero => exact .halt _
  | succ bound ih =>
      refine Within.bind (.when fun _ => steps.changes _ fun _ => ⟨rfl, rfl, rfl⟩) fun _ => ?_
      refine Within.bind (steps.reads _) fun result => ?_
      split
      · exact .pure _
      · refine Within.bind (.when fun _ => steps.changes _ fun _ => ⟨rfl, rfl, rfl⟩) fun _ => ?_
        refine Within.bind (steps.consumeBodyChunk _ _) fun consumed => ?_
        split
        · exact .pure _
        · exact ih

theorem pumpBodyRead : Within relation (pumpBodyRead env context) := by
  refine Within.bind .get fun w => ?_
  split
  · exact steps.pumpLoop _
  · refine Within.bind (steps.changes _ fun _ => ⟨rfl, rfl, rfl⟩) fun _ => ?_
    exact steps.finishBodyRead

theorem beginBodyRead : Within relation (beginBodyRead env context) := by
  unfold ModSecurityIIS.beginBodyRead
  split
  · refine Within.bind (steps.changes _ fun _ => ⟨rfl, rfl, rfl⟩) fun _ => ?_
    refine Within.bind steps.waits fun _ => ?_
    refine Within.bind (steps.changes _ fun _ => ⟨rfl, rfl, rfl⟩) fun _ => ?_
    refine Within.bind (.when fun _ => steps.waits) fun _ => ?_
    exact steps.pumpBodyRead
  · exact steps.finishBodyRead

theorem onAsyncCompletion (completion : Option (Nat × HResult)) :
    Within relation (onAsyncCompletion env (some context) completion) := by
  cases completion with
  | none => exact .pure _
  | some completed =>
      refine Within.bind .get fun w => ?_
      split
      · exact .pure _
      · split
        · refine Within.bind (steps.changes _ fun _ => ⟨rfl, rfl, rfl⟩) fun _ => ?_
          apply Within.tryCatch
          · refine Within.bind (steps.consumeBodyChunk _ _) fun consumed => ?_
            split
            · exact .pure _
            · exact steps.pumpBodyRead
          · exact .bind (steps.reports _) fun _ => .pure _
        · exact .pure _

theorem completeRead : Within relation (completeRead env context) := by
  refine Within.bind .get fun w => ?_
  split
  · exact .halt _
  · next completion _ =>
      refine Within.bind (fun w => steps.delivers w completion) fun _ => ?_
      exact steps.onAsyncCompletion _

theorem awaitBody (bound : Nat) (status : NotificationStatus) :
    Within relation (awaitBody env context bound status) := by
  induction bound generalizing status with
  | zero => cases status <;> exact .pure _
  | succ bound ih =>
      cases status with
      | rqNotificationPending => exact .bind steps.completeRead fun status => ih status
      | _ => exact .pure _

end ReadSteps

/-- The relation admits the steps of the body read. -/
structure BodySteps (env : Env) (context : HttpContext) (relation : World → World → Prop) : Prop where
  plain : ∀ w after, Plain w after → relation w after
  appends : ∀ body, Within relation (contextCall env (.appendRequestBody body))
  evaluates : Within relation (contextCall env .processRequestBody)
  intervenes : Within relation (applyIntervention env context true)

section Steps

variable {env : Env} {context : HttpContext} {relation : World → World → Prop}
  [IsPreorder World relation]

omit [IsPreorder World relation] in
theorem BodySteps.frame {α : Type} {program : Program World α}
    (steps : BodySteps env context relation)
    (within : Within (Frame SameTracking Event.Idle) program) : Within relation program :=
  (plain_of_frame within).mono steps.plain

variable (steps : BodySteps env context relation)

include steps

theorem insertEntityBody_within (body : Bytes) : Within relation (insertEntityBody env body) := by
  refine Within.bind (steps.frame (consult_frame _)) fun result => ?_
  refine Within.bind ?_ ?_
  · intro w
    exact steps.plain _ _ (.recorded ⟨rfl, rfl, rfl⟩ rfl rfl trivial)
  · intro _
    exact .pure _

theorem restoreBody_within : Within relation (restoreBody env context) := by
  refine Within.bind .get fun w => ?_
  split
  · refine Within.bind (steps.frame (consult_frame _)) fun allocated => ?_
    split
    · split
      · exact .halt _
      · refine Within.bind (insertEntityBody_within steps _) fun result => ?_
        split
        · exact .bind (steps.frame (writeEventViewerLog_frame _ _)) fun _ => .pure _
        · exact .pure _
    · exact .bind (steps.frame (writeEventViewerLog_frame _ _)) fun _ => .pure _
  · exact .pure _

theorem readEntityBody_within (async : Bool) : Within relation (readEntityBody async) := by
  intro w
  unfold readEntityBody
  split
  · exact refl_of relation w
  · dsimp only
    split <;> exact steps.plain _ _ (.recorded ⟨rfl, rfl, rfl⟩ rfl rfl trivial)

theorem BodySteps.readSteps : ReadSteps env context relation where
  waits := steps.frame (mayThrow_frame env)
  changes _ kept := steps.frame (modifyContext_frame kept)
  restores := restoreBody_within steps
  appends := steps.appends
  evaluates := steps.evaluates
  intervenes := steps.intervenes
  fails := steps.frame (respond_frame trivial)
  reports location := steps.frame (reportException_frame env location)
  warns w := by
    obtain ⟨logged, entries, applied⟩ := logCapReached_apply w
    rw [applied]
    exact steps.plain _ _ (.silent ⟨rfl, rfl, rfl⟩ rfl rfl)
  reads := readEntityBody_within steps
  delivers _ _ := steps.plain _ _ (.silent ⟨rfl, rfl, rfl⟩ rfl rfl)

theorem beginBodyRead_within : Within relation (beginBodyRead env context) :=
  steps.readSteps.beginBodyRead

theorem onAsyncCompletion_within (completion : Option (Nat × HResult)) :
    Within relation (onAsyncCompletion env (some context) completion) :=
  steps.readSteps.onAsyncCompletion completion

theorem completeRead_within : Within relation (completeRead env context) :=
  steps.readSteps.completeRead

theorem awaitBody_within (bound : Nat) (status : NotificationStatus) :
    Within relation (awaitBody env context bound status) :=
  steps.readSteps.awaitBody bound status

end Steps

/-! ## The begin-request handler ahead of the transaction -/

section Begin

variable {env : Env} {context : HttpContext}

theorem failUnprotected_plain : Within Plain (failUnprotected env context) := by
  unfold failUnprotected
  split
  · apply Within.bind
    · apply Within.when
      intro _
      exact plain_of_frame (respond_frame trivial)
    · intro _
      exact Within.pure _
  · exact Within.pure _

theorem configFailed_plain : Within Plain (configFailed env context) := by
  refine Within.bind Within.get fun w => ?_
  refine Within.bind (fun _ => .silent ⟨rfl, rfl, rfl⟩ rfl rfl) fun _ => ?_
  apply Within.bind
  · apply Within.when
    intro _
    exact plain_of_frame (writeEventViewerLog_frame _ _)
  · intro _
    exact failUnprotected_plain

theorem rulesFailed_plain (configFile err : Bytes) :
    Within Plain (rulesFailed env context configFile err) := by
  refine Within.bind Within.get fun w => ?_
  refine Within.bind (fun _ => .silent ⟨rfl, rfl, rfl⟩ rfl rfl) fun _ => ?_
  apply Within.bind
  · apply Within.when
    intro _
    apply Within.bind (plain_of_frame (mayThrow_frame env))
    intro _
    exact plain_of_frame (writeEventViewerLog_frame _ _)
  · intro _
    exact failUnprotected_plain

/-- Until a transaction is opened the handler takes plain steps only. -/
theorem beginRequestBlock_within {relation : World → World → Prop}
    (plain : ∀ w after, Plain w after → relation w after)
    (follows : ∀ w middle after, Plain w middle → relation middle after → relation w after)
    (opens : ∀ config rules, Within relation (openTransaction env context config rules)) :
    Within relation (beginRequestBlock env (some context)) := by
  have next {α β : Type} {program : Program World α} {rest : α → Program World β}
      (first : Within Plain program) (later : ∀ value, Within relation (rest value)) :
      Within relation (program >>= rest) :=
    Within.seq first later follows plain
  have ends {α : Type} {program : Program World α} (within : Within Plain program) :
      Within relation program := within.mono plain
  rw [beginRequestBlock]
  split
  · apply next (plain_of_frame (getConfig_frame env context))
    intro result
    split
    · exact ends configFailed_plain
    · split
      · exact ends (Within.halt _)
      · unfold protectRequest
        split
        · split
          · exact ends (Within.pure _)
          · apply next (plain_of_frame (mayThrow_frame env))
            intro _
            apply next (plain_of_frame (getRules_frame env _))
            intro loaded
            split
            · exact ends (rulesFailed_plain _ _)
            · exact opens _ _
        · exact ends (Within.pure _)
  · exact ends (Within.pure _)

end Begin

end ModSecurityIIS
