import ModSecurityIIS.BodyRead

/-!
# Properties of the body read

The world a completed read leaves, one equation for each way a turn of the read
loop can go, and the agreement of the asynchronous read with the synchronous loop.
-/

set_option autoImplicit false

namespace ModSecurityIIS

open Imperative Program

/-- The bytes the server hands out for an answer. -/
def World.handedOut (w : World) (answer : ReadAnswer) : Bytes :=
  w.entity.take (min answer.count kBodyReadChunkSize)

/-- The world after a read that has completed, claimed if it had to be. -/
def World.received (w : World) (answer : ReadAnswer) (rest : List ReadAnswer) : World :=
  { w with
    reads := rest
    entity := w.entity.drop (min answer.count kBodyReadChunkSize)
    log := w.log ++ [Event.readEntityBody]
    rsc := { w.rsc with readBuf := writeBuffer w.rsc.readBuf (w.handedOut answer) } }

/-- The world after a read that pends. -/
def World.suspended (w : World) (answer : ReadAnswer) (rest : List ReadAnswer) : World :=
  { w with
    reads := rest
    entity := w.entity.drop (min answer.count kBodyReadChunkSize)
    outstanding := some { bytes := w.handedOut answer, status := answer.status }
    log := w.log ++ [Event.readEntityBody]
    rsc := { w.rsc with bodyReadState := .readPending } }

/-- What the loop does with a completed read. -/
def consumeThen (env : Env) (context : HttpContext) (bound read : Nat) (hr : HResult) :
    Program World NotificationStatus := do
  let consumed ← consumeBodyChunk env context read hr
  match consumed with
  | some status => pure status
  | none => pumpLoop env context bound

section Turns

variable {env : Env} {context : HttpContext} {w : World} {answer : ReadAnswer}
  {rest : List ReadAnswer}

theorem pumpLoop_sync (sync : bodyReadsAsync env = false) (next : w.reads = answer :: rest)
    (bound : Nat) :
    pumpLoop env context (bound + 1) w =
      consumeThen env context bound (w.handedOut answer).length answer.status
        (w.received answer rest) := by
  simp only [pumpLoop, sync, when_false, Bool.false_and, Bool.false_eq_true, ↓reduceIte]
  rw [bind_returned (pure_apply _ _)]
  have read : readEntityBody false w = .returned
      { read := (w.handedOut answer).length, status := answer.status, pending := false }
      (w.received answer rest) := by
    simp only [readEntityBody, next]
    rfl
  rw [bind_returned read]
  rw [bind_returned (pure_apply _ _)]
  rfl

theorem pumpLoop_async_inline (async : bodyReadsAsync env = true)
    (next : w.reads = answer :: rest) (inline : answer.pended = false)
    (idle : w.rsc.bodyReadState = .idle) (bound : Nat) :
    pumpLoop env context (bound + 1) w =
      consumeThen env context bound (w.handedOut answer).length answer.status
        (w.received answer rest) := by
  simp only [pumpLoop, async, when_true, Bool.true_and]
  rw [bind_returned (exchangeBodyReadState_apply _ _)]
  have read : readEntityBody true
      { w with rsc := { w.rsc with bodyReadState := .readPending } } = .returned
      { read := (w.handedOut answer).length, status := answer.status, pending := false }
      { w.received answer rest with
        rsc := { (w.received answer rest).rsc with bodyReadState := .readPending } } := by
    simp only [readEntityBody, next, inline]
    rfl
  rw [bind_returned read]
  simp only [Bool.false_eq_true, ↓reduceIte]
  rw [bind_returned (exchangeBodyReadState_apply _ _)]
  have restored : { (w.received answer rest).rsc with bodyReadState := .idle } =
      (w.received answer rest).rsc := by
    simp only [World.received, ← idle]
  simp only [restored]
  rfl

theorem pumpLoop_async_pended (async : bodyReadsAsync env = true)
    (next : w.reads = answer :: rest) (pended : answer.pended = true) (bound : Nat) :
    pumpLoop env context (bound + 1) w =
      .returned .rqNotificationPending (w.suspended answer rest) := by
  simp only [pumpLoop, async, when_true, Bool.true_and]
  rw [bind_returned (exchangeBodyReadState_apply _ _)]
  have read : readEntityBody true
      { w with rsc := { w.rsc with bodyReadState := .readPending } } = .returned
      { read := 0, status := .sOk, pending := true } (w.suspended answer rest) := by
    simp only [readEntityBody, next, pended]
    rfl
  rw [bind_returned read]
  rfl

/-- The completion of a pended read is claimed and consumed from the very world an
inline completion would have left. -/
theorem completeRead_suspended (stored : w.stored = true) (live : w.rsc.tx ≠ none)
    (idle : w.rsc.bodyReadState = .idle) (quiet : w.outstanding = none) :
    completeRead env context (w.suspended answer rest) =
      Program.tryCatch
        (continueRead env context (w.handedOut answer).length answer.status)
        (do
          reportException env "OnAsyncCompletion"
          pure .rqNotificationFinishRequest)
        (w.received answer rest) := by
  have tracked : ¬ (w.stored = false ∨ w.rsc.tx = none) := by simp [stored, live]
  simp only [completeRead]
  rw [bind_returned (get_apply _)]
  simp only [World.suspended]
  rw [bind_returned (modify_apply _ _)]
  simp only [onAsyncCompletion]
  rw [bind_returned (get_apply _)]
  simp only [tracked, ↓reduceIte]
  rw [bind_returned (exchangeBodyReadState_apply _ _)]
  simp only [World.received, ← idle, ← quiet]

end Turns

/-! ## Consuming a chunk -/

/-- `ConsumeBodyChunk` once a stop condition holds. -/
def stopAt (env : Env) (context : HttpContext) (reason : StopReason) :
    Program World (Option NotificationStatus) := do
  Program.when (decide (reason = .inspectionCapReached)) logCapReached
  exchangeBodyReadState .done
  let status ← finishBodyRead env context
  pure (some status)

theorem logCapReached_apply (w : World) :
    ∃ logged entries, logCapReached w =
      .returned () { w with capLogged := logged, eventLog := w.eventLog ++ entries } := by
  rw [logCapReached, bind_returned (get_apply _)]
  cases w.capLogged with
  | true => exact ⟨w.capLogged, [], by rw [List.append_nil]; rfl⟩
  | false => exact ⟨true, _, rfl⟩

theorem warnCap_apply (reached : Bool) (w : World) :
    ∃ logged entries, when reached logCapReached w =
      .returned () { w with capLogged := logged, eventLog := w.eventLog ++ entries } := by
  cases reached with
  | false => exact ⟨w.capLogged, [], by rw [List.append_nil]; rfl⟩
  | true => exact logCapReached_apply w

/-- The world with the received chunk at the end of `m_Body`. -/
def World.appended (w : World) (read : Nat) : World :=
  if 0 < read then
    { w.advance with rsc := { w.rsc with body := w.rsc.body ++ w.rsc.readBuf.take read } }
  else w

theorem appendChunk_apply (env : Env) (read : Nat) (w : World) :
    appendChunk env read w =
      if 0 < read ∧ env.throws w.tick = true then .thrown w.advance
      else .returned () (w.appended read) := by
  by_cases positive : 0 < read
  · simp only [appendChunk, positive, decide_true, when_true, bind_apply,
      mayThrow_apply, true_and, World.appended, ↓reduceIte]
    cases env.throws w.tick <;> rfl
  · simp [appendChunk, World.appended, positive]

theorem consumeBodyChunk_apply (env : Env) (context : HttpContext) (read : Nat) (hr : HResult)
    (w : World) :
    consumeBodyChunk env context read hr w =
      if 0 < read ∧ env.throws w.tick = true then .thrown w.advance
      else
        match stopReason env (w.appended read).rsc read hr with
        | none => .returned none (w.appended read)
        | some reason => stopAt env context reason (w.appended read) := by
  rw [consumeBodyChunk, bind_apply, appendChunk_apply]
  by_cases threw : 0 < read ∧ env.throws w.tick = true
  · simp only [if_pos threw]
  · simp only [if_neg threw]
    rw [bind_returned (get_apply _)]
    cases stopReason env (w.appended read).rsc read hr <;> rfl

/-- Another read is asked for only when no stop condition holds, and then nothing
but the accumulated body has changed. -/
theorem consumeBodyChunk_none {env : Env} {context : HttpContext} {read : Nat} {hr : HResult}
    {w after : World} (more : consumeBodyChunk env context read hr w = .returned none after) :
    after = w.appended read ∧ stopReason env after.rsc read hr = none := by
  rw [consumeBodyChunk_apply] at more
  split at more
  · cases more
  · cases stop : stopReason env (w.appended read).rsc read hr with
    | none =>
        rw [stop] at more
        cases more
        exact ⟨rfl, stop⟩
    | some reason =>
        rw [stop] at more
        obtain ⟨_, _, _, rest⟩ := bind_eq_returned more
        obtain ⟨_, _, _, rest⟩ := bind_eq_returned rest
        obtain ⟨_, _, _, rest⟩ := bind_eq_returned rest
        cases rest

@[simp] theorem World.appended_reads (w : World) (read : Nat) :
    (w.appended read).reads = w.reads := by unfold World.appended; split <;> rfl

@[simp] theorem World.appended_stored (w : World) (read : Nat) :
    (w.appended read).stored = w.stored := by unfold World.appended; split <;> rfl

@[simp] theorem World.appended_outstanding (w : World) (read : Nat) :
    (w.appended read).outstanding = w.outstanding := by unfold World.appended; split <;> rfl

@[simp] theorem World.appended_entity (w : World) (read : Nat) :
    (w.appended read).entity = w.entity := by unfold World.appended; split <;> rfl

@[simp] theorem World.appended_log (w : World) (read : Nat) :
    (w.appended read).log = w.log := by unfold World.appended; split <;> rfl

@[simp] theorem World.appended_tx (w : World) (read : Nat) :
    (w.appended read).rsc.tx = w.rsc.tx := by unfold World.appended; split <;> rfl

@[simp] theorem World.appended_bodyReadState (w : World) (read : Nat) :
    (w.appended read).rsc.bodyReadState = w.rsc.bodyReadState := by
  unfold World.appended; split <;> rfl

@[simp] theorem World.appended_declaredBodyLength (w : World) (read : Nat) :
    (w.appended read).rsc.declaredBodyLength = w.rsc.declaredBodyLength := by
  unfold World.appended; split <;> rfl

theorem World.received_appended_body (w : World) (answer : ReadAnswer)
    (rest : List ReadAnswer) :
    ((w.received answer rest).appended (w.handedOut answer).length).rsc.body =
      w.rsc.body ++ w.handedOut answer := by
  unfold World.appended
  split
  · simp [World.received, writeBuffer]
  · next empty =>
      have none : w.handedOut answer = [] := List.length_eq_zero_iff.mp (by omega)
      simp [World.received, none]

/-! ## Statuses -/

theorem ruleOnBody_status (env : Env) (context : HttpContext) (restoreFailed : Bool) :
    Ensures (fun _ => True) (ruleOnBody env context restoreFailed)
      (fun status _ => status ≠ .rqNotificationPending) (fun _ => True) := by
  refine .skip (fun _ => trivial) fun blocked => ?_
  cases blocked with
  | true => exact .pure fun _ _ => by simp
  | false =>
      simp only [Bool.false_eq_true, ↓reduceIte]
      split
      · split
        · exact .skip (fun _ => trivial) fun _ => .pure fun _ _ => by simp
        · exact fun _ _ => trivial
      · exact .pure fun _ _ => by simp

theorem finishBodyRead_status (env : Env) (context : HttpContext) :
    Ensures (fun _ => True) (finishBodyRead env context)
      (fun status _ => status ≠ .rqNotificationPending) (fun _ => True) := by
  refine .skip (fun _ => trivial) fun fed => ?_
  cases fed with
  | none => exact .pure fun _ _ => by simp
  | some restoreFailed => exact ruleOnBody_status env context restoreFailed

theorem consumeBodyChunk_status {env : Env} {context : HttpContext} {read : Nat} {hr : HResult}
    {w after : World} {status : NotificationStatus}
    (ended : consumeBodyChunk env context read hr w = .returned (some status) after) :
    status ≠ .rqNotificationPending := by
  rw [consumeBodyChunk_apply] at ended
  split at ended
  · cases ended
  · cases stop : stopReason env (w.appended read).rsc read hr with
    | none => rw [stop] at ended; cases ended
    | some reason =>
        rw [stop] at ended
        obtain ⟨_, _, _, rest⟩ := bind_eq_returned ended
        obtain ⟨_, _, _, rest⟩ := bind_eq_returned rest
        obtain ⟨final, _, finished, rest⟩ := bind_eq_returned rest
        cases rest
        exact (finishBodyRead_status env context).returned trivial finished

/-! ## Asynchronous reads agree with the synchronous loop -/

/-- The environment with `MODSEC_IIS_BODY_ASYNC=0`. -/
def Env.synchronous (env : Env) : Env := { env with bodyAsync := some (bytesOf "0") }

theorem bodyReadsAsync_synchronous (env : Env) : bodyReadsAsync env.synchronous = false := rfl

theorem mayThrow_synchronous (env : Env) : mayThrow env.synchronous = mayThrow env := rfl

theorem consumeBodyChunk_synchronous (env : Env) :
    consumeBodyChunk env.synchronous = consumeBodyChunk env := rfl

/-- The runs end alike; only where the synchronous loop throws to its caller, a
completion handler may have caught and reported the same exception. -/
def Agrees (sync async : Outcome World NotificationStatus) : Prop :=
  async = sync ∨ ∃ s entry, sync = .thrown s ∧
    async = .returned .rqNotificationFinishRequest { s with eventLog := s.eventLog ++ [entry] }

theorem awaitBody_of_ne_pending {env : Env} {context : HttpContext} {bound : Nat}
    {status : NotificationStatus} (decided : status ≠ .rqNotificationPending) :
    awaitBody env context bound status = pure status := by
  cases status with
  | rqNotificationPending => exact absurd rfl decided
  | rqNotificationContinue => cases bound <;> rfl
  | rqNotificationFinishRequest => cases bound <;> rfl

theorem reportException_apply (env : Env) (location : String) (w : World) :
    ∃ entry, reportException env location w =
      .returned () { w with eventLog := w.eventLog ++ [entry] } :=
  ⟨_, rfl⟩

theorem Agrees.caught {env : Env} {context : HttpContext} {bound : Nat}
    {program : Program World NotificationStatus} {w : World}
    {sync : Outcome World NotificationStatus}
    (agrees : Agrees sync ((program >>= awaitBody env context bound) w)) :
    Agrees sync ((program.tryCatch (do
      reportException env "OnAsyncCompletion"
      pure .rqNotificationFinishRequest) >>= awaitBody env context bound) w) := by
  rw [bind_apply] at agrees ⊢
  rw [tryCatch_apply]
  cases run : program w with
  | returned status after => rw [run] at agrees; exact agrees
  | halted reason after => rw [run] at agrees; exact agrees
  | thrown after =>
      rw [run] at agrees
      rcases agrees with same | ⟨_, _, _, impossible⟩
      · obtain ⟨entry, reported⟩ := reportException_apply env "OnAsyncCompletion" after
        refine .inr ⟨after, entry, same.symm, ?_⟩
        simp only [bind_returned reported, pure_apply]
        rw [awaitBody_of_ne_pending (by simp)]
        rfl
      · cases impossible

/-- The state in which a read may be issued: the request is tracked and no own
read is under way. -/
structure Ready (w : World) : Prop where
  stored : w.stored = true
  live : w.rsc.tx ≠ none
  idle : w.rsc.bodyReadState = .idle
  quiet : w.outstanding = none

theorem Ready.appended {w : World} (ready : Ready w) (answer : ReadAnswer)
    (rest : List ReadAnswer) (read : Nat) : Ready ((w.received answer rest).appended read) where
  stored := by simpa [World.received] using ready.stored
  live := by simpa [World.received] using ready.live
  idle := by simpa [World.received] using ready.idle
  quiet := by simpa [World.received] using ready.quiet

/-- Both modes consume the chunk in the same world, so they agree as soon as what
follows the accumulated chunk agrees. -/
theorem Agrees.consumed {env : Env} {context : HttpContext} {bound read : Nat} {hr : HResult}
    {sync async : Program World NotificationStatus} {w : World}
    (more : Agrees (sync (w.appended read))
      ((async >>= awaitBody env context bound) (w.appended read))) :
    Agrees
      ((do
        let consumed ← consumeBodyChunk env.synchronous context read hr
        match consumed with
        | some status => pure status
        | none => sync) w)
      (((do
        let consumed ← consumeBodyChunk env context read hr
        match consumed with
        | some status => pure status
        | none => async) >>= awaitBody env context bound) w) := by
  simp only [consumeBodyChunk_synchronous, bind_apply]
  cases consumed : consumeBodyChunk env context read hr w with
  | thrown after => exact .inl rfl
  | halted reason after => exact .inl rfl
  | returned result after =>
      cases result with
      | some status =>
          simp only [pure_apply]
          rw [awaitBody_of_ne_pending (consumeBodyChunk_status consumed)]
          exact .inl rfl
      | none =>
          obtain ⟨rfl, _⟩ := consumeBodyChunk_none consumed
          rw [bind_apply] at more
          exact more

/-- Induction on the answers: each turn consumes in the same world, whether the
read was synchronous, completed inline or pended. -/
theorem pumpLoop_agrees {env : Env} {context : HttpContext}
    (request : context.requestPresent = true) {w : World} (ready : Ready w) {bound count : Nat}
    (answers : w.reads.length = count) (enough : count ≤ bound) :
    Agrees (pumpLoop env.synchronous context count w)
      ((pumpLoop env context count >>= awaitBody env context bound) w) := by
  induction count generalizing w bound with
  | zero => exact .inl rfl
  | succ count ih =>
      obtain ⟨answer, rest, next⟩ := List.exists_cons_of_length_eq_add_one answers
      have remaining : (w.received answer rest).reads.length = count := by
        rw [next] at answers
        simpa [World.received] using answers
      have appended := ready.appended answer rest (w.handedOut answer).length
      rw [pumpLoop_sync (bodyReadsAsync_synchronous env) next]
      by_cases pends : bodyReadsAsync env = true ∧ answer.pended = true
      · obtain ⟨bound, rfl⟩ : ∃ b, bound = b + 1 := ⟨bound - 1, by omega⟩
        rw [bind_returned (pumpLoop_async_pended pends.1 next pends.2 count)]
        rw [awaitBody, bind_apply,
          completeRead_suspended ready.stored ready.live ready.idle ready.quiet,
          ← bind_apply]
        refine Agrees.caught (Agrees.consumed ?_)
        have more := ih appended (by simpa using remaining) (Nat.le_of_succ_le_succ enough)
        -- the completion chains into as many turns as the synchronous loop has left
        have chained : pumpBodyRead env context
            ((w.received answer rest).appended (w.handedOut answer).length) =
            pumpLoop env context count
              ((w.received answer rest).appended (w.handedOut answer).length) := by
          rw [pumpBodyRead, bind_returned (get_apply _)]
          simp only [request, ↓reduceIte, World.appended_reads, remaining]
        rw [bind_apply] at more ⊢
        rw [chained]
        exact more
      · have turn : pumpLoop env context (count + 1) w =
            consumeThen env context count (w.handedOut answer).length answer.status
              (w.received answer rest) := by
          cases async : bodyReadsAsync env with
          | false => exact pumpLoop_sync async next count
          | true =>
              have inline : answer.pended = false := by simpa [async] using pends
              exact pumpLoop_async_inline async next inline ready.idle count
        rw [bind_apply, turn, ← bind_apply]
        exact Agrees.consumed
          (ih appended (by simpa using remaining) (Nat.le_of_succ_le enough))

end ModSecurityIIS
