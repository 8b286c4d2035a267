import ModSecurityIIS.BodyPass

/-!
# The drain

The read loop keeps every byte: what it has drained and what the server still
holds make up the body. It ends in one pass over what it has drained, and when
the reads deliver a whole body, that is all the engine may see of it.
-/

set_option autoImplicit false

namespace ModSecurityIIS

open Imperative Program

/-- Reads that deliver the bytes `unread` to the end: nonempty pieces without an
error, then the end of the body, which may come with the last bytes. -/
inductive Delivers : Bytes → List ReadAnswer → Prop where
  | last {unread : Bytes} {answer : ReadAnswer} {rest : List ReadAnswer} :
      answer.status.code = errorHandleEof →
      unread.length ≤ min answer.count kBodyReadChunkSize →
      Delivers unread (answer :: rest)
  | piece {unread : Bytes} {answer : ReadAnswer} {rest : List ReadAnswer} :
      unread ≠ [] → 0 < answer.count →
      answer.status.failed = false → answer.status.code ≠ errorHandleEof →
      Delivers (unread.drop (min answer.count kBodyReadChunkSize)) rest →
      Delivers unread (answer :: rest)

/-- What the first read of `w` brought has been drained. -/
def Started (w s : World) : Prop :=
  ∃ answer rest, w.reads = answer :: rest ∧
    w.rsc.body ++ w.handedOut answer <+: s.rsc.body

/-- The invariant of the read loop that starts in `w`. -/
structure Drain (w s : World) : Prop where
  stored : s.stored = w.stored
  current : s.rsc.tx = w.rsc.tx
  declared : s.rsc.declaredBodyLength = w.rsc.declaredBodyLength
  conserved : s.rsc.body ++ s.entity = w.rsc.body ++ w.entity
  reads : ∃ n, s.log = w.log ++ List.replicate n .readEntityBody
  delivers : Delivers w.entity w.reads → Delivers s.entity s.reads
  started : (s.reads = w.reads ∧ s.entity = w.entity ∧ s.rsc.body = w.rsc.body) ∨ Started w s

/-- The world in which the pass over the drained body starts. -/
structure Drained (env : Env) (info : EntityBodyInfo) (w s : World) : Prop where
  stored : s.stored = w.stored
  current : s.rsc.tx = w.rsc.tx
  conserved : s.rsc.body ++ s.entity = w.rsc.body ++ w.entity
  reads : ∃ n, s.log = w.log ++ List.replicate n .readEntityBody ∧
    (info.hasBody = true → 0 < n)
  started : info.hasBody = true → Started w s
  complete : info.hasBody = true → Delivers w.entity w.reads →
    info.length = 0 ∨ info.length = (w.rsc.body ++ w.entity).length →
    s.rsc.body.take (getMaxInspectBodyBytes env) =
      (w.rsc.body ++ w.entity).take (getMaxInspectBodyBytes env)

theorem Drain.refl (w : World) : Drain w w :=
  ⟨rfl, rfl, rfl, rfl, ⟨0, by simp⟩, id, .inl ⟨rfl, rfl, rfl⟩⟩

theorem World.handedOut_append_rest (w : World) (answer : ReadAnswer) :
    w.handedOut answer ++ w.entity.drop (min answer.count kBodyReadChunkSize) = w.entity :=
  List.take_append_drop _ _

/-- The world in which the next turn of the loop starts. -/
def World.turned (w : World) (answer : ReadAnswer) (rest : List ReadAnswer) : World :=
  (w.received answer rest).appended (w.handedOut answer).length

section Turns

variable {env : Env} {w s : World} {answer : ReadAnswer} {rest : List ReadAnswer}

theorem Drain.logged_read (drain : Drain w s) :
    ∃ n, s.log ++ [.readEntityBody] = w.log ++ List.replicate n .readEntityBody ∧ 0 < n := by
  obtain ⟨n, shape⟩ := drain.reads
  exact ⟨n + 1, by rw [shape, List.replicate_succ', List.append_assoc], Nat.succ_pos n⟩

theorem World.turned_body (s : World) (answer : ReadAnswer) (rest : List ReadAnswer) :
    (s.turned answer rest).rsc.body = s.rsc.body ++ s.handedOut answer :=
  World.received_appended_body s answer rest

theorem Drain.turn_started (drain : Drain w s) (next : s.reads = answer :: rest) :
    Started w (s.turned answer rest) := by
  rcases drain.started with ⟨reads, entity, body⟩ | ⟨first, others, reads, before⟩
  · refine ⟨answer, rest, reads ▸ next, [], ?_⟩
    rw [List.append_nil, World.turned_body, body, World.handedOut, World.handedOut, entity]
  · refine ⟨first, others, reads, ?_⟩
    rw [World.turned_body]
    exact before.trans (List.prefix_append _ _)

theorem World.turned_conserved (s : World) (answer : ReadAnswer) (rest : List ReadAnswer) :
    (s.turned answer rest).rsc.body ++ (s.turned answer rest).entity =
      s.rsc.body ++ s.entity := by
  rw [World.turned, World.received_appended_body, World.appended_entity, List.append_assoc]
  exact congrArg _ (s.handedOut_append_rest answer)

/-- Every turn but the last keeps the invariant. -/
theorem Drain.next (drain : Drain w s) (next : s.reads = answer :: rest)
    (more : stopReason env (s.turned answer rest).rsc (s.handedOut answer).length
      answer.status = none) : Drain w (s.turned answer rest) := by
  refine ⟨?_, ?_, ?_, (s.turned_conserved answer rest).trans drain.conserved, ?_, ?_,
    .inr (drain.turn_started next)⟩
  · simpa [World.turned, World.received] using drain.stored
  · simpa [World.turned, World.received] using drain.current
  · simpa [World.turned, World.received] using drain.declared
  · obtain ⟨n, shape, _⟩ := drain.logged_read
    exact ⟨n, by simpa [World.turned, World.received] using shape⟩
  · intro delivers
    have ahead := drain.delivers delivers
    rw [next] at ahead
    simp only [World.turned, World.appended_entity, World.appended_reads]
    cases ahead with
    | last ends _ => simp [stopReason, ends] at more
    | piece _ _ _ _ later => exact later

/-- Whatever stops the loop, it has drained all that the engine may see. -/
theorem Drain.complete (drain : Drain w s) (next : s.reads = answer :: rest)
    {reason : StopReason}
    (stop : stopReason env (s.turned answer rest).rsc (s.handedOut answer).length
      answer.status = some reason)
    (delivers : Delivers w.entity w.reads)
    (declared : w.rsc.declaredBodyLength = 0 ∨
      w.rsc.declaredBodyLength = (w.rsc.body ++ w.entity).length) :
    (s.turned answer rest).rsc.body.take (getMaxInspectBodyBytes env) =
      (w.rsc.body ++ w.entity).take (getMaxInspectBodyBytes env) := by
  have conserved := (s.turned_conserved answer rest).trans drain.conserved
  have sameDeclared : (s.turned answer rest).rsc.declaredBodyLength = w.rsc.declaredBodyLength := by
    simpa [World.turned, World.received] using drain.declared
  rw [← conserved]
  suffices enough : (s.turned answer rest).entity = [] ∨
      getMaxInspectBodyBytes env ≤ (s.turned answer rest).rsc.body.length by
    rcases enough with emptied | capped
    · rw [emptied, List.append_nil]
    · rw [List.take_append_of_le_length capped]
  have ahead := drain.delivers delivers
  rw [next] at ahead
  cases ahead with
  | last _ whole =>
      refine .inl ?_
      simpa [World.turned, World.received] using whole
  | piece nonempty positive sound notEnd _ =>
      have brought : (s.handedOut answer).length ≠ 0 := by
        have ahead := List.length_pos_iff.mpr nonempty
        simp only [World.handedOut, List.length_take, kBodyReadChunkSize]
        omega
      simp only [stopReason, brought, notEnd, sound, or_self, Bool.false_eq_true, ↓reduceIte]
        at stop
      split at stop
      · next reached =>
          -- a positive declared length is the whole length, so nothing is left
          rw [sameDeclared] at reached
          refine .inl (List.length_eq_zero_iff.mp ?_)
          have total := congrArg List.length conserved
          simp only [List.length_append] at total declared
          omega
      · split at stop
        · next capped => exact .inr capped
        · cases stop

/-- The world in which the pass starts, whose context has only changed its state. -/
theorem Drain.stopped (drain : Drain w s) (next : s.reads = answer :: rest) {reason : StopReason}
    (stop : stopReason env (s.turned answer rest).rsc (s.handedOut answer).length
      answer.status = some reason) {last : World}
    (stored : last.stored = (s.turned answer rest).stored)
    (entity : last.entity = (s.turned answer rest).entity)
    (log : last.log = (s.turned answer rest).log)
    (context : last.rsc = { (s.turned answer rest).rsc with bodyReadState := .done })
    {info : EntityBodyInfo} (length : w.rsc.declaredBodyLength = info.length) :
    Drained env info w last := by
  refine ⟨?_, ?_, ?_, ?_, ?_, ?_⟩
  · simpa [stored, World.turned, World.received] using drain.stored
  · simpa [context, World.turned, World.received] using drain.current
  · rw [context, entity]
    exact (s.turned_conserved answer rest).trans drain.conserved
  · obtain ⟨n, shape, positive⟩ := drain.logged_read
    exact ⟨n, by simpa [log, World.turned, World.received] using shape, fun _ => positive⟩
  · intro _
    obtain ⟨first, others, reads, before⟩ := drain.turn_started next
    exact ⟨first, others, reads, by rw [context]; exact before⟩
  · intro _ delivers declared
    rw [context]
    exact drain.complete next stop delivers (length ▸ declared)

end Turns

/-! ## The loop -/

/-- Once a stop condition holds, the pass starts in a world with the same body. -/
theorem stopAt_apply (env : Env) (context : HttpContext) (reason : StopReason) (w : World) :
    ∃ s, s.stored = w.stored ∧ s.entity = w.entity ∧ s.log = w.log ∧
      s.rsc = { w.rsc with bodyReadState := .done } ∧
      stopAt env context reason w =
        (finishBodyRead env context >>= fun status => pure (some status)) s := by
  obtain ⟨logged, entries, applied⟩ := warnCap_apply (decide (reason = .inspectionCapReached)) w
  refine ⟨{ w with
      rsc := { w.rsc with bodyReadState := .done }
      capLogged := logged
      eventLog := w.eventLog ++ entries }, rfl, rfl, rfl, rfl, ?_⟩
  rw [stopAt, bind_returned applied, bind_returned (exchangeBodyReadState_apply _ _)]

/-- A body read from `w` leaves either one pass over a drained body, or, when a
chunk could not be kept, nothing but its reads. -/
def BodyRun (env : Env) (info : EntityBodyInfo) (tx : TransactionId) (w after : World) : Prop :=
  (∃ s, Drained env info w s ∧ Passed env tx s after) ∨
    ((∃ tick, env.throws tick = true) ∧
      ∃ n, after.log = w.log ++ List.replicate n .readEntityBody)

/-- The body read lets the request continue. -/
def LetThrough (env : Env) (info : EntityBodyInfo) (tx : TransactionId) (w after : World) : Prop :=
  ∃ s, Drained env info w s ∧ PassedOn env tx s after

theorem Drained.finish {env : Env} {context : HttpContext}
    (request : context.requestPresent = true) {info : EntityBodyInfo} {tx : TransactionId}
    {w s : World} (drained : Drained env info w s) (current : w.rsc.tx = some tx) :
    (finishBodyRead env context s).Satisfies
      (fun status after => BodyRun env info tx w after ∧
        (status = .rqNotificationContinue → LetThrough env info tx w after))
      (BodyRun env info tx w) := by
  have finishes := finishBodyRead_satisfies env request (drained.current.trans current)
  cases run : finishBodyRead env context s with
  | returned status after =>
      rw [run] at finishes
      exact ⟨.inl ⟨s, drained, finishes.1⟩, fun lets => ⟨s, drained, finishes.2 lets⟩⟩
  | thrown after => rw [run] at finishes; exact .inl ⟨s, drained, finishes⟩
  | halted reason after => exact trivial

/-- Induction on the reads: `Drain` carries the loop to its end. -/
theorem pumpLoop_satisfies (env : Env) {context : HttpContext}
    (request : context.requestPresent = true) {info : EntityBodyInfo} {tx : TransactionId}
    {w : World} (length : w.rsc.declaredBodyLength = info.length)
    (current : w.rsc.tx = some tx) (bound : Nat) {s : World} (drain : Drain w s) :
    (pumpLoop env.synchronous context bound s).Satisfies
      (fun status after => BodyRun env info tx w after ∧
        (status = .rqNotificationContinue → LetThrough env info tx w after))
      (BodyRun env info tx w) := by
  induction bound generalizing s with
  | zero => exact trivial
  | succ bound ih =>
      cases next : s.reads with
      | nil =>
          simp only [pumpLoop, bodyReadsAsync_synchronous, when_false, bind_apply, pure_apply,
            readEntityBody, next]
          exact trivial
      | cons answer rest =>
          rw [pumpLoop_sync (bodyReadsAsync_synchronous env) next, consumeThen, bind_apply,
            consumeBodyChunk_synchronous, consumeBodyChunk_apply]
          by_cases threw : 0 < (s.handedOut answer).length ∧
              env.throws (s.received answer rest).tick = true
          · simp only [if_pos threw]
            obtain ⟨n, shape, _⟩ := drain.logged_read
            exact .inr ⟨⟨_, threw.2⟩, n, shape⟩
          simp only [if_neg threw]
          cases stop : stopReason env (s.turned answer rest).rsc (s.handedOut answer).length
              answer.status with
          | none =>
              have turned : stopReason env
                  ((s.received answer rest).appended (s.handedOut answer).length).rsc
                  (s.handedOut answer).length answer.status = none := stop
              simp only [turned]
              exact ih (drain.next next stop)
          | some reason =>
              have turned : stopReason env
                  ((s.received answer rest).appended (s.handedOut answer).length).rsc
                  (s.handedOut answer).length answer.status = some reason := stop
              simp only [turned]
              obtain ⟨last, stored, entity, log, rsc, applied⟩ := stopAt_apply env context reason
                ((s.received answer rest).appended (s.handedOut answer).length)
              have drained : Drained env info w last := 
                drain.stopped next stop stored entity log rsc length
              have finishes := drained.finish request current
              rw [applied, bind_apply]
              cases run : finishBodyRead env context last with
              | returned status after => rw [run] at finishes; exact finishes
              | thrown after => rw [run] at finishes; exact finishes
              | halted reason after => exact trivial

/-- The same request before `BeginBodyRead` prepared its context. -/
structure Prepared (w s : World) : Prop where
  stored : s.stored = w.stored
  current : s.rsc.tx = w.rsc.tx
  body : s.rsc.body = w.rsc.body
  entity : s.entity = w.entity
  reads : s.reads = w.reads
  log : s.log = w.log

section Preparation

variable {env : Env} {info : EntityBodyInfo} {tx : TransactionId} {w s after : World}

theorem Drained.of_prepared (prepared : Prepared w s) (drained : Drained env info s after) :
    Drained env info w after := by
  refine ⟨drained.stored.trans prepared.stored, drained.current.trans prepared.current, ?_,
    prepared.log ▸ drained.reads, fun has => ?_, ?_⟩
  · rw [drained.conserved, prepared.body, prepared.entity]
  · obtain ⟨first, others, reads, before⟩ := drained.started has
    refine ⟨first, others, prepared.reads ▸ reads, ?_⟩
    rwa [prepared.body, World.handedOut, prepared.entity, ← World.handedOut] at before
  · have complete := drained.complete
    rwa [prepared.body, prepared.entity, prepared.reads] at complete

theorem BodyRun.of_prepared (prepared : Prepared w s) (run : BodyRun env info tx s after) :
    BodyRun env info tx w after := by
  rcases run with ⟨last, drained, passed⟩ | ⟨threw, reads⟩
  · exact .inl ⟨last, drained.of_prepared prepared, passed⟩
  · exact .inr ⟨threw, prepared.log ▸ reads⟩

theorem LetThrough.of_prepared (prepared : Prepared w s)
    (through : LetThrough env info tx s after) : LetThrough env info tx w after := by
  obtain ⟨last, drained, passedOn⟩ := through
  exact ⟨last, drained.of_prepared prepared, passedOn⟩

theorem BodyRun.unread (threw : ∃ tick, env.throws tick = true) (log : after.log = w.log) :
    BodyRun env info tx w after :=
  .inr ⟨threw, 0, by simpa using log⟩

end Preparation

theorem beginBodyRead_satisfies (env : Env) {context : HttpContext} (request : context.requestPresent = true) {tx : TransactionId}
    {w : World} (current : w.rsc.tx = some tx) :
    (beginBodyRead env.synchronous context w).Satisfies
      (fun status after => BodyRun env (getEntityBodyInfo context.rawRequest) tx w after ∧
        (status = .rqNotificationContinue →
          LetThrough env (getEntityBodyInfo context.rawRequest) tx w after))
      (BodyRun env (getEntityBodyInfo context.rawRequest) tx w) := by
  rw [beginBodyRead]
  split
  next body =>
    have reads {s : World} (prepared : Prepared w s)
        (length : s.rsc.declaredBodyLength = (getEntityBodyInfo context.rawRequest).length) :
        (pumpBodyRead env.synchronous context s).Satisfies
          (fun status after => BodyRun env (getEntityBodyInfo context.rawRequest) tx w after ∧
            (status = .rqNotificationContinue →
              LetThrough env (getEntityBodyInfo context.rawRequest) tx w after))
          (BodyRun env (getEntityBodyInfo context.rawRequest) tx w) := by
      have loops := pumpLoop_satisfies env request length (prepared.current.trans current)
        s.reads.length (Drain.refl s)
      rw [pumpBodyRead, bind_returned (get_apply _), if_pos request]
      cases run : pumpLoop env.synchronous context s.reads.length s with
      | halted reason after => exact trivial
      | thrown after => rw [run] at loops; exact BodyRun.of_prepared prepared loops
      | returned status after =>
          rw [run] at loops
          exact ⟨BodyRun.of_prepared prepared loops.1,
            fun lets => LetThrough.of_prepared prepared (loops.2 lets)⟩
    rw [mayThrow_synchronous, bind_returned (modifyContext_apply _ _), bind_apply, mayThrow_apply]
    by_cases threw : env.throws w.tick = true
    · simp only [threw, ↓reduceIte]
      exact BodyRun.unread ⟨_, threw⟩ rfl
    simp only [threw, Bool.false_eq_true, ↓reduceIte]
    rw [bind_returned (modifyContext_apply _ _), bind_apply]
    cases decide (0 < (getEntityBodyInfo context.rawRequest).length) with
    | false => exact reads ⟨rfl, rfl, rfl, rfl, rfl, rfl⟩ rfl
    | true =>
        rw [when_true, mayThrow_apply]
        by_cases threwAgain : env.throws (w.tick + 1) = true
        · simp only [World.advance, threwAgain, ↓reduceIte]
          exact BodyRun.unread ⟨_, threwAgain⟩ rfl
        · simp only [World.advance, threwAgain, Bool.false_eq_true, ↓reduceIte]
          exact reads ⟨rfl, rfl, rfl, rfl, rfl, rfl⟩ rfl
  next none =>
    have unread : (getEntityBodyInfo context.rawRequest).hasBody ≠ true :=
      fun has => none ⟨request, has⟩
    have drained : Drained env (getEntityBodyInfo context.rawRequest) w w :=
      ⟨rfl, rfl, rfl, ⟨0, by simp, fun has => absurd has unread⟩,
        fun has => absurd has unread, fun has => absurd has unread⟩
    exact drained.finish request current

end ModSecurityIIS
