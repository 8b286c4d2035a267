import ModSecurityIIS.BodyBound
import ModSecurityIIS.Proceeds
import ModSecurityIIS.TransactionUse

/-!
# Callbacks that do not crash

A callback would crash on a call through a transaction pointer that is null, on a response
that is not there, on a configuration that is not there, or when a body is copied to a block
of its size cut to 32 bits.
-/

set_option autoImplicit false

namespace ModSecurityIIS

open Imperative Program Transition

/-! ## What the read of a body rests on -/

/-- The fields of the body read are the same. -/
structure SameRead (a b : RequestStoredContext) : Prop where
  body : b.body = a.body
  readBuf : b.readBuf = a.readBuf
  bodyReadState : b.bodyReadState = a.bodyReadState

/-- The same transaction reads the body. -/
structure SameReader (a b : RequestStoredContext) : Prop extends SameRead a b where
  tx : b.tx = a.tx

instance : IsPreorder RequestStoredContext SameRead where
  refl _ := ⟨rfl, rfl, rfl⟩
  trans _ _ _ first second :=
    ⟨second.body.trans first.body, second.readBuf.trans first.readBuf,
      second.bodyReadState.trans first.bodyReadState⟩

instance : IsPreorder RequestStoredContext SameReader where
  refl _ := ⟨⟨rfl, rfl, rfl⟩, rfl⟩
  trans _ _ _ first second :=
    ⟨trans_of SameRead first.toSameRead second.toSameRead, second.tx.trans first.tx⟩

/-- The read of the body is left alone; the transaction may be gone. -/
structure Spares (w after : World) : Prop where
  context : SameRead w.rsc after.rsc
  outstanding : after.outstanding = w.outstanding

structure KeepsReader (w after : World) : Prop where
  context : SameReader w.rsc after.rsc
  outstanding : after.outstanding = w.outstanding

theorem KeepsReader.spares {w after : World} (steady : KeepsReader w after) : Spares w after :=
  ⟨steady.context.toSameRead, steady.outstanding⟩

theorem spares_of_frame {α : Type} {program : Program World α}
    (within : Within (Frame SameRead fun _ => True) program) : Within Spares program :=
  fun w => ⟨(within w).context, (within w).outstanding⟩

theorem steady_of_frame {α : Type} {program : Program World α}
    (within : Within (Frame SameReader fun _ => True) program) : Within KeepsReader program :=
  fun w => ⟨(within w).context, (within w).outstanding⟩

/-- Between two callbacks: a pended read has its staging buffer, and the body has room for
what it delivers. -/
structure World.Held (w : World) : Prop where
  pended : w.rsc.bodyReadState = .readPending →
    w.rsc.readBuf.length = kBodyReadChunkSize ∧ w.rsc.body.length + kBodyReadChunkSize < 2 ^ 32
  arriving : ∀ completion, w.outstanding = some completion →
    completion.bytes.length ≤ kBodyReadChunkSize

/-- There is a transaction to call. -/
structure World.Live (w : World) : Prop extends w.Held where
  live : w.rsc.tx ≠ none

/-- Before the first read of a request. -/
structure World.Unread (w : World) : Prop extends w.Live where
  idle : w.rsc.bodyReadState ≠ .readPending
  empty : w.rsc.body = []

/-- The body can be copied. -/
structure World.Drained (w : World) : Prop extends w.Live where
  idle : w.rsc.bodyReadState ≠ .readPending
  fits : w.rsc.body.length < 2 ^ 32

/-- A read can be issued; an asynchronous one is announced first. -/
structure World.Issuing (async : Bool) (w : World) : Prop where
  live : w.rsc.tx ≠ none
  idle : async = false → w.rsc.bodyReadState ≠ .readPending
  buffer : w.rsc.readBuf.length = kBodyReadChunkSize
  room : w.rsc.body.length + kBodyReadChunkSize < 2 ^ 32
  arriving : ∀ completion, w.outstanding = some completion →
    completion.bytes.length ≤ kBodyReadChunkSize

/-- A chunk is claimed, or no read was issued yet. -/
structure World.Claimed (w : World) : Prop extends w.Drained where
  buffer : w.rsc.readBuf.length = kBodyReadChunkSize
  room : w.rsc.body.length + kBodyReadChunkSize < 2 ^ 32

/-- Steps that leave the read alone keep the property, and it is one that callbacks may end
with. -/
structure Upheld (holds : World → Prop) : Prop where
  steady : ∀ w after, holds w → KeepsReader w after → holds after
  held : ∀ w, holds w → w.Held

theorem Spares.held {w after : World} (spares : Spares w after) (held : w.Held) : after.Held := by
  refine ⟨?_, ?_⟩
  · rw [spares.context.bodyReadState, spares.context.readBuf, spares.context.body]
    exact held.pended
  · rw [spares.outstanding]
    exact held.arriving

theorem held_upheld : Upheld World.Held :=
  ⟨fun _ _ held steady => steady.spares.held held, fun _ held => held⟩

theorem live_upheld : Upheld World.Live where
  steady _ _ holds steady :=
    ⟨steady.spares.held holds.toHeld, by rw [steady.context.tx]; exact holds.live⟩
  held _ holds := holds.toHeld

theorem unread_upheld : Upheld World.Unread where
  steady _ _ holds steady :=
    ⟨live_upheld.steady _ _ holds.toLive steady,
      by rw [steady.context.bodyReadState]; exact holds.idle,
      by rw [steady.context.body]; exact holds.empty⟩
  held _ holds := holds.toHeld

theorem drained_upheld : Upheld World.Drained where
  steady _ _ holds steady :=
    ⟨live_upheld.steady _ _ holds.toLive steady,
      by rw [steady.context.bodyReadState]; exact holds.idle,
      by rw [steady.context.body]; exact holds.fits⟩
  held _ holds := holds.toHeld

theorem claimed_upheld : Upheld World.Claimed where
  steady _ _ holds steady :=
    ⟨drained_upheld.steady _ _ holds.toDrained steady,
      by rw [steady.context.readBuf]; exact holds.buffer,
      by rw [steady.context.body]; exact holds.room⟩
  held _ holds := holds.toHeld

theorem World.Unread.drained {w : World} (unread : w.Unread) : w.Drained :=
  ⟨unread.toLive, unread.idle, by rw [unread.empty]; decide⟩

theorem World.Issuing.held {async : Bool} {w : World} (issuing : w.Issuing async) : w.Held :=
  ⟨fun _ => ⟨issuing.buffer, issuing.room⟩, issuing.arriving⟩

section Steps

variable {α : Type} {env : Env} {context : HttpContext} {holds : World → Prop}

theorem Upheld.safe {program : Program World α} [Proceeds program] (upheld : Upheld holds)
    (within : Within (Frame SameReader fun _ => True) program) :
    Safe holds program (fun _ => holds) World.Held :=
  (Safe.of_within (steady_of_frame within) upheld.steady).consequence (fun _ start => start)
    (fun _ _ done => done) upheld.held

theorem spares_safe {program : Program World α} [Proceeds program]
    (within : Within (Frame SameRead fun _ => True) program) :
    Safe World.Held program (fun _ => World.Held) World.Held :=
  Safe.of_within (spares_of_frame within) fun _ _ held spares => spares.held held

theorem contextCall_safe (upheld : Upheld holds) (live : ∀ w, holds w → w.rsc.tx ≠ none)
    (call : EngineCall) : Safe holds (contextCall env call) (fun _ => holds) World.Held := by
  refine .seen fun w there => ?_
  cases current : w.rsc.tx with
  | none => exact absurd current (live w there)
  | some tx => exact .at there (upheld.safe (engineCall_frame fun _ => trivial))

theorem disrupt_safe (present : context.responsePresent = true) (tx : TransactionId)
    (it : Intervention) :
    Safe World.Held (disrupt env context tx it) (fun _ => World.Held) World.Held := by
  rw [disrupt, if_pos present]
  refine .bind _ (held_upheld.safe (respond_frame trivial)) fun _ => ?_
  refine .bind _ (held_upheld.safe (answerIntervention_frame it fun _ _ => trivial))
    fun finalStatus => ?_
  refine .bind _ (held_upheld.safe (engineCall_frame fun _ => trivial)) fun _ => ?_
  refine .bind (fun _ => World.Held) ?_ fun _ => ?_
  · exact .modify fun _ held => ⟨held.pended, held.arriving⟩
  refine .bind _ (held_upheld.safe (record_frame trivial)) fun _ => ?_
  exact spares_safe (finishRequest_frame env (fun _ => ⟨rfl, rfl, rfl⟩) fun _ _ => trivial)

/-- An intervention that does not finish the request leaves it its transaction. -/
theorem applyIntervention_safe (upheld : Upheld holds) (live : ∀ w, holds w → w.rsc.tx ≠ none)
    (present : context.responsePresent = true) (canBlock : Bool) :
    Safe holds (applyIntervention env context canBlock)
      (fun blocked w => w.Held ∧ (blocked = false → holds w)) World.Held := by
  have passes : Safe holds (pure false : Program World Bool)
      (fun blocked w => w.Held ∧ (blocked = false → holds w)) World.Held :=
    .pure fun w there => ⟨upheld.held w there, fun _ => there⟩
  refine .seen fun w there => ?_
  cases current : w.rsc.tx with
  | none => exact absurd current (live w there)
  | some tx =>
      refine .at there ?_
      refine .bind _ (upheld.safe (pendingIntervention_frame env tx fun _ _ => trivial))
        fun reported => ?_
      cases reported with
      | none => exact passes
      | some it =>
          refine .bind _ (upheld.safe (mayThrow_frame env)) fun _ => ?_
          split
          · refine .bind (fun _ => World.Held) ?_ fun _ => .pure fun _ held => ⟨held, by simp⟩
            exact (disrupt_safe present tx it).consequence upheld.held (fun _ _ held => held)
              fun _ held => held
          · exact passes

/-! ## The read of the body -/

theorem restoreBody_safe :
    Safe World.Drained (restoreBody env context) (fun _ => World.Drained) World.Held := by
  refine .seen fun w drained => .at drained ?_
  split
  · refine .bind _ (drained_upheld.safe (consult_frame _)) fun allocated => ?_
    split
    · have whole : ¬ dword w.rsc.body.length < w.rsc.body.length := by
        rw [dword, Nat.mod_eq_of_lt drained.fits]
        exact Nat.lt_irrefl _
      rw [if_neg whole]
      refine .bind (fun _ => World.Drained) ?_ fun result => ?_
      · refine .bind _ (drained_upheld.safe (consult_frame _)) fun result => ?_
        refine .bind (fun _ => World.Drained) (.modify fun v holds => ?_) fun _ => .pure fun _ holds => holds
        exact drained_upheld.steady v _ holds ⟨⟨⟨rfl, rfl, rfl⟩, rfl⟩, rfl⟩
      split
      · exact .bind _ (drained_upheld.safe (writeEventViewerLog_frame _ _))
          fun _ => .pure fun _ holds => holds
      · exact .pure fun _ holds => holds
    · exact .bind _ (drained_upheld.safe (writeEventViewerLog_frame _ _))
        fun _ => .pure fun _ holds => holds
  · exact .pure fun _ holds => holds

theorem feedBody_safe : Safe World.Live (feedBody env) (fun _ => World.Live) World.Held := by
  have calls (call : EngineCall) : Safe World.Live (contextCall env call) (fun _ => World.Live)
      World.Held := contextCall_safe live_upheld (fun _ there => there.live) call
  refine .seen fun w there => .at there ?_
  exact .bind _ (.when fun _ => calls _) fun _ => calls _

theorem finishBodyRead_safe (present : context.responsePresent = true) :
    Safe World.Drained (finishBodyRead env context) (fun _ => World.Held) World.Held := by
  have feeds (lost : Bool) : Safe World.Live (feedBody env >>= fun _ => pure (some lost))
      (fun _ => World.Live) World.Held :=
    .bind _ feedBody_safe fun _ => .pure fun _ there => there
  have inspects : Safe World.Drained (restoreAndFeed env context)
      (fun fed w => w.Held ∧ (fed ≠ none → w.Live)) World.Held := by
    have fed {rest : Program World (Option Bool)}
        (safe : Safe World.Live rest (fun _ => World.Live) World.Held) :
        Safe World.Drained rest (fun fed w => w.Held ∧ (fed ≠ none → w.Live)) World.Held :=
      safe.consequence (fun _ drained => drained.toLive)
        (fun _ _ there => ⟨there.toHeld, fun _ => there⟩) fun _ held => held
    refine .bind _ restoreBody_safe fun restoration => ?_
    cases restoration with
    | restored => exact fed (feeds false)
    | allocationFailed => exact fed (feeds true)
    | insertionFailed => exact .pure fun _ drained => ⟨drained.toHeld, by simp⟩
  have reports : Safe World.Held (reportException env "FinishBodyRead" >>= fun _ => pure none)
      (fun (fed : Option Bool) w => w.Held ∧ (fed ≠ none → w.Live)) World.Held :=
    .bind _ (held_upheld.safe (reportException_frame env _))
      fun _ => .pure fun _ held => ⟨held, by simp⟩
  refine .bind _ (.tryCatch inspects reports fun _ held => held) fun fed => ?_
  cases fed with
  | none => exact .pure fun _ done => done.1
  | some restoreFailed =>
      have intervenes : Safe World.Live (applyIntervention env context true)
          (fun blocked w => w.Held ∧ (blocked = false → w.Live)) World.Held :=
        applyIntervention_safe live_upheld (fun _ there => there.live) present true
      refine .bind (fun _ w => w.Held) ?_ fun blocked => ?_
      · exact intervenes.consequence (fun _ done => done.2 (by simp)) (fun _ _ done => done.1)
          fun _ held => held
      split
      · exact .pure fun _ held => held
      · split
        · exact .bind _ (held_upheld.safe (respond_frame trivial)) fun _ => .pure fun _ held => held
        · exact .pure fun _ held => held

theorem resize_length (buffer : Bytes) (size : Nat) : (resize buffer size).length = size := by
  rw [resize, List.length_append, List.length_take, List.length_replicate]
  omega

theorem writeBuffer_keeps_length {buffer bytes : Bytes} (fits : bytes.length ≤ buffer.length) :
    (writeBuffer buffer bytes).length = buffer.length := by
  rw [writeBuffer, List.length_append, List.length_drop]
  omega

theorem exchange_done_safe :
    Safe World.Drained (exchangeBodyReadState .done) (fun _ => World.Drained) World.Held :=
  .modify fun _ drained =>
    ⟨⟨⟨fun pending => absurd pending (by simp), drained.arriving⟩, drained.live⟩, by simp,
      drained.fits⟩

/-- The chunk is appended before the end of the body is looked for, and there was room for a
whole buffer. -/
theorem appendChunk_safe (read : Nat) :
    Safe World.Claimed (appendChunk env read)
      (fun _ w => w.Drained ∧ w.rsc.readBuf.length = kBodyReadChunkSize) World.Held := by
  by_cases some : 0 < read
  · rw [appendChunk, decide_eq_true some, when_true]
    refine .bind _ (claimed_upheld.safe (mayThrow_frame env)) fun _ => .modify fun w claimed => ?_
    have taken := List.length_take_le read w.rsc.readBuf
    have kept := claimed.buffer
    have room := claimed.room
    refine ⟨⟨⟨⟨fun pending => absurd pending claimed.idle, claimed.arriving⟩, claimed.live⟩,
      claimed.idle, ?_⟩, kept⟩
    simp only [List.length_append, List.length_take]
    omega
  · rw [appendChunk, decide_eq_false some, when_false]
    exact .pure fun _ claimed => ⟨claimed.toDrained, claimed.buffer⟩

theorem consumeBodyChunk_safe (present : context.responsePresent = true)
    (capped : getMaxInspectBodyBytes env + kBodyReadChunkSize ≤ 2 ^ 32) (read : Nat)
    (hr : HResult) :
    Safe World.Claimed (consumeBodyChunk env context read hr)
      (fun consumed w => w.Held ∧ (consumed = none → w.Claimed)) World.Held := by
  refine .bind _ (appendChunk_safe read) fun _ => .seen fun w appended => ?_
  cases stops : stopReason env w.rsc read hr with
  | none =>
      have below := (room_of_continued stops).2
      have claimed : w.Claimed := ⟨appended.1, appended.2, by omega⟩
      exact .at claimed (.pure fun v still => ⟨still.toHeld, fun _ => still⟩)
  | some reason =>
      refine .at appended.1 ?_
      have warns : Within (Frame SameReader fun _ => True) logCapReached := by
        intro v
        obtain ⟨logged, entries, applied⟩ := logCapReached_apply v
        rw [applied]
        exact ⟨rfl, rfl, rfl, rfl, refl_of SameReader _, [], (List.append_nil _).symm, by simp⟩
      refine .bind _ (.when fun _ => drained_upheld.safe warns) fun _ => ?_
      refine .bind _ exchange_done_safe fun _ => ?_
      exact .bind _ (finishBodyRead_safe present) fun _ => .pure fun _ held => ⟨held, by simp⟩

theorem exchange_idle_safe {async : Bool} :
    Safe (World.Issuing async) (exchangeBodyReadState .idle) (fun _ => World.Claimed)
      World.Held := by
  refine .modify fun w issuing => ?_
  have room := issuing.room
  refine ⟨⟨⟨⟨fun pending => absurd pending (by simp), issuing.arriving⟩, issuing.live⟩,
    by simp, ?_⟩, issuing.buffer, room⟩
  simp only
  omega

/-- The server hands out no more than the staging buffer holds. -/
theorem readEntityBody_safe (async : Bool) :
    Safe (World.Issuing async) (readEntityBody async) (fun _ => World.Issuing async)
      World.Held := by
  intro w issuing
  unfold readEntityBody
  cases w.reads with
  | nil => exact ⟨by simp, issuing.held⟩
  | cons answer rest =>
      have few : (w.entity.take (min answer.count kBodyReadChunkSize)).length ≤
          kBodyReadChunkSize := by
        rw [List.length_take]
        omega
      by_cases pends : (async && answer.pended) = true
      · simp only [if_pos pends]
        refine ⟨issuing.live, issuing.idle, issuing.buffer, issuing.room, ?_⟩
        intro completion arrives
        cases arrives
        exact few
      · simp only [if_neg pends]
        refine ⟨issuing.live, issuing.idle, ?_, issuing.room, issuing.arriving⟩
        have whole := writeBuffer_keeps_length (few.trans_eq issuing.buffer.symm)
        exact whole.trans issuing.buffer

theorem pumpLoop_safe (present : context.responsePresent = true)
    (capped : getMaxInspectBodyBytes env + kBodyReadChunkSize ≤ 2 ^ 32) (bound : Nat) :
    Safe World.Claimed (pumpLoop env context bound) (fun _ => World.Held) World.Held := by
  induction bound with
  | zero => exact .halt (by simp) fun _ claimed => claimed.toHeld
  | succ bound ih =>
      refine .bind (fun _ => World.Issuing (bodyReadsAsync env)) ?_ fun _ => ?_
      · cases async : bodyReadsAsync env with
        | true =>
            exact .modify fun w claimed =>
              ⟨claimed.live, by simp, claimed.buffer, claimed.room, claimed.arriving⟩
        | false =>
            exact .pure fun w claimed =>
              ⟨claimed.live, fun _ => claimed.idle, claimed.buffer, claimed.room, claimed.arriving⟩
      refine .bind _ (readEntityBody_safe _) fun result => ?_
      split
      · exact .pure fun _ issuing => issuing.held
      refine .bind (fun _ => World.Claimed) ?_ fun _ => ?_
      · cases async : bodyReadsAsync env with
        | true => exact exchange_idle_safe
        | false =>
            refine .pure fun w issuing => ?_
            have room := issuing.room
            exact ⟨⟨⟨issuing.held, issuing.live⟩, issuing.idle rfl, by omega⟩, issuing.buffer, room⟩
      refine .bind _ (consumeBodyChunk_safe present capped _ _) fun consumed => ?_
      cases consumed with
      | some status => exact .pure fun _ done => done.1
      | none =>
          exact ih.consequence (fun _ done => done.2 rfl) (fun _ _ held => held) fun _ held => held

theorem pumpBodyRead_safe (present : context.responsePresent = true)
    (capped : getMaxInspectBodyBytes env + kBodyReadChunkSize ≤ 2 ^ 32) :
    Safe World.Claimed (pumpBodyRead env context) (fun _ => World.Held) World.Held := by
  refine .seen fun w claimed => .at claimed ?_
  split
  · exact pumpLoop_safe present capped _
  · refine .bind _ (exchange_done_safe.consequence (fun _ claimed => claimed.toDrained)
      (fun _ _ done => done) fun _ held => held) fun _ => ?_
    exact finishBodyRead_safe present

theorem beginBodyRead_safe (present : context.responsePresent = true)
    (capped : getMaxInspectBodyBytes env + kBodyReadChunkSize ≤ 2 ^ 32) :
    Safe World.Unread (beginBodyRead env context) (fun _ => World.Held) World.Held := by
  unfold beginBodyRead
  split
  · refine .bind _ (unread_upheld.safe (modifyContext_frame fun _ => ⟨⟨rfl, rfl, rfl⟩, rfl⟩))
      fun _ => ?_
    refine .bind _ (unread_upheld.safe (mayThrow_frame env)) fun _ => ?_
    refine .bind (fun _ => World.Claimed) (.modify fun w unread => ?_) fun _ => ?_
    · have small : w.rsc.body.length + kBodyReadChunkSize < 2 ^ 32 := by
        rw [unread.empty]
        decide
      exact ⟨⟨⟨⟨fun pending => absurd pending unread.idle, unread.arriving⟩, unread.live⟩,
        unread.idle, unread.drained.fits⟩, resize_length _ _, small⟩
    refine .bind _ (.when fun _ => claimed_upheld.safe (mayThrow_frame env)) fun _ => ?_
    exact pumpBodyRead_safe present capped
  · exact (finishBodyRead_safe present).consequence (fun _ unread => unread.drained)
      (fun _ _ held => held) fun _ held => held

/-- A claimed read has its buffer and its room. -/
theorem onAsyncCompletion_safe (present : context.responsePresent = true)
    (capped : getMaxInspectBodyBytes env + kBodyReadChunkSize ≤ 2 ^ 32)
    (completion : Option (Nat × HResult)) :
    Safe World.Held (onAsyncCompletion env (some context) completion) (fun _ => World.Held)
      World.Held := by
  cases completion with
  | none => exact .pure fun _ held => held
  | some completed =>
      refine .seen fun w held => ?_
      by_cases gone : w.stored = false ∨ w.rsc.tx = none
      · rw [if_pos gone]
        exact .at held (.pure fun _ held => held)
      rw [if_neg gone]
      by_cases pending : w.rsc.bodyReadState = .readPending
      · rw [if_pos pending]
        have issuing : w.Issuing true :=
          ⟨fun none => gone (.inr none), by simp, (held.pended pending).1, (held.pended pending).2,
            held.arriving⟩
        refine .at issuing (.bind _ exchange_idle_safe fun _ => ?_)
        apply @Exits.tryCatch _ _ _ _ _ _ _ _ World.Held ?_ ?_ fun _ held => held
        · refine .bind _ (consumeBodyChunk_safe present capped _ _) fun consumed => ?_
          cases consumed with
          | some status => exact .pure fun _ done => done.1
          | none =>
              exact (pumpBodyRead_safe present capped).consequence (fun _ done => done.2 rfl)
                (fun _ _ held => held) fun _ held => held
        · exact .bind _ (held_upheld.safe (reportException_frame env _))
            fun _ => .pure fun _ held => held
      · rw [if_neg pending]
        exact .at held (.pure fun _ held => held)

theorem completeRead_safe (present : context.responsePresent = true)
    (capped : getMaxInspectBodyBytes env + kBodyReadChunkSize ≤ 2 ^ 32) :
    Safe World.Held (completeRead env context) (fun _ => World.Held) World.Held := by
  refine .seen fun w held => ?_
  cases arriving : w.outstanding with
  | none => exact .at held (.halt (by simp) fun _ held => held)
  | some completion =>
      refine .bind (fun _ => World.Held) (.modify ?_) fun _ =>
        onAsyncCompletion_safe present capped _
      intro v same
      rw [same]
      refine ⟨fun pending => ?_, by simp⟩
      obtain ⟨buffer, room⟩ := held.pended pending
      have fits := held.arriving completion arriving
      exact ⟨(writeBuffer_keeps_length (fits.trans_eq buffer.symm)).trans buffer, room⟩

/-! ## The begin-request handler -/

theorem inspectRequest_safe (present : context.responsePresent = true)
    (capped : getMaxInspectBodyBytes env + kBodyReadChunkSize ≤ 2 ^ 32) (req : HttpRequest)
    (tx : TransactionId) :
    Safe World.Unread (inspectRequest env context req tx) (fun _ => World.Held) World.Held := by
  have describes : Safe World.Unread (requestHeaderPhase env context req tx)
      (fun blocked w => w.Held ∧ (blocked = false → w.Unread)) World.Held := by
    refine .bind _ (unread_upheld.safe (describeRequest_frame env context req tx
      (fun _ _ => ⟨⟨rfl, rfl, rfl⟩, rfl⟩) fun _ _ _ => trivial)) fun _ => ?_
    refine .bind _ (unread_upheld.safe (engineCall_frame fun _ => trivial)) fun _ => ?_
    exact applyIntervention_safe unread_upheld (fun _ unread => unread.live) present true
  refine .bind _ describes fun blocked => ?_
  cases blocked with
  | true => exact .pure fun _ done => done.1
  | false =>
      have reads : Safe World.Unread (beginBodyRead env context) (fun _ => World.Held)
          World.Held := beginBodyRead_safe present capped
      refine .bind (fun _ => World.Held) ?_ fun _ => .pure fun _ held => held
      exact reads.consequence (fun _ done => done.2 rfl) (fun _ _ held => held) fun _ held => held

theorem openTransaction_safe (present : context.responsePresent = true)
    (capped : getMaxInspectBodyBytes env + kBodyReadChunkSize ≤ 2 ^ 32)
    (config : ModsecurityStoredContext) (rules : RulesSet) :
    Safe World.Held (openTransaction env context config rules) (fun _ => World.Held)
      World.Held := by
  have stores (tx : TransactionId) (rsc : RequestStoredContext) (current : rsc.tx = some tx)
      (empty : rsc.body = []) (idle : rsc.bodyReadState ≠ .readPending) :
      Safe World.Held (setModuleContext env rsc)
        (fun shr w => w.Held ∧ (shr.failed = false → w.Unread)) World.Held := by
    intro w held
    obtain ⟨shr, after, ran, stores⟩ := setModuleContext_stores env rsc w
    rw [ran]
    cases stores with
    | assigned _ => exact ⟨held, fun passed => absurd passed (by decide)⟩
    | refused failed _ =>
        refine ⟨⟨held.pended, held.arriving⟩, fun passed => ?_⟩
        rw [failed] at passed
        cases passed
    | stored =>
        have unread : World.Unread { w.advance with rsc, stored := true } :=
          ⟨⟨⟨fun pending => absurd pending idle, held.arriving⟩, by simp [current]⟩, idle, empty⟩
        exact ⟨unread.toHeld, fun _ => unread⟩
  refine .bind _ (held_upheld.safe (newTransaction_frame env fun _ => trivial)) fun created => ?_
  cases created with
  | none => exact .pure fun _ held => held
  | some tx =>
      refine .bind _ (held_upheld.safe (consult_frame _)) fun allocated => ?_
      split
      · refine .bind _ (stores tx _ rfl rfl (by simp [RequestStoredContext.new])) fun shr => ?_
        cases failed : shr.failed with
        | true =>
            refine .bind (fun _ => World.Held) ?_ fun _ => ?_
            · exact (held_upheld.safe (finishContext_frame env _ fun _ _ => trivial)).consequence
                (fun _ done => done.1) (fun _ _ held => held) fun _ held => held
            · split <;> exact .pure fun _ held => held
        | false =>
            cases context.rawRequest with
            | none => exact .pure fun _ done => done.1
            | some req =>
                exact (inspectRequest_safe present capped req tx).consequence
                  (fun _ done => done.2 rfl) (fun _ _ held => held) fun _ held => held
      · exact .bind _ (held_upheld.safe (record_frame trivial)) fun _ => .pure fun _ held => held

/-- A lookup that succeeds hands out a configuration, if a request that was faster stored
one. -/
theorem getConfig_given (raced : ∀ tick, env.racingConfiguration tick ≠ none) :
    Ensures World.Held (getConfig env context)
      (fun result _ => result.hr.failed = false → result.config ≠ none) fun _ => True := by
  have stored (config : ModsecurityStoredContext) :
      Ensures (fun _ => True) (storeConfig env config)
        (fun result _ => result.hr.failed = false → result.config ≠ none) fun _ => True := by
    refine .skip (fun _ => trivial) fun hr => ?_
    split
    · next refused =>
        refine .skip (fun _ => trivial) fun _ => ?_
        split
        · refine .bind (fun other _ => other ≠ none) (fun w _ => raced w.tick) fun other => ?_
          refine .assume fun given => ?_
          exact .skip (fun _ => trivial) fun _ => .pure fun _ _ _ => given
        · refine .pure fun _ _ passed => ?_
          rw [refused] at passed
          cases passed
    · exact .skip (fun _ => trivial) fun _ => .pure fun _ _ _ => by simp
  have failing {hr : HResult} (failed : hr.failed = true) {config : Option ModsecurityStoredContext} :
      Ensures (fun _ => True) (pure { hr, config } : Program World ConfigResult)
        (fun result _ => result.hr.failed = false → result.config ≠ none) fun _ => True :=
    .pure fun _ _ passed => by simp [failed] at passed
  refine .skip (fun _ => trivial) fun w => ?_
  split
  · split
    · exact .pure fun _ _ _ => by simp
    · refine .skip (fun _ => trivial) fun allocated => ?_
      split
      · refine .skip (fun _ => trivial) fun _ => .skip (fun _ => trivial) fun result => ?_
        split
        · exact .skip (fun _ => trivial) fun _ => .skip (fun _ => trivial)
            fun _ => failing (by decide)
        · exact stored _
      · exact failing (by decide)
  · exact failing (by decide)

theorem onBeginRequest_safe (present : context.responsePresent = true)
    (capped : getMaxInspectBodyBytes env + kBodyReadChunkSize ≤ 2 ^ 32)
    (raced : ∀ tick, env.racingConfiguration tick ≠ none) :
    Safe World.Held (onBeginRequest env (some context)) (fun _ => World.Held) World.Held := by
  have protects (config : ModsecurityStoredContext) :
      Safe World.Held (protectRequest env context config) (fun _ => World.Held) World.Held := by
    unfold protectRequest
    split
    · split
      · exact .pure fun _ held => held
      · refine .bind _ (held_upheld.safe (mayThrow_frame env)) fun _ => ?_
        refine .bind _ (held_upheld.safe (getRules_frame env _)) fun loaded => ?_
        cases loaded.rules with
        | none => exact held_upheld.safe (rulesFailed_frame trivial env context _ _)
        | some rules => exact openTransaction_safe present capped config rules
    · exact .pure fun _ held => held
  have block : Safe World.Held (beginRequestBlock env (some context)) (fun _ => World.Held)
      World.Held := by
    rw [beginRequestBlock]
    split
    · refine .bind _ ((held_upheld.safe (getConfig_frame env context)).and (getConfig_given raced))
        fun result => ?_
      have looked {rest : Program World BlockExit}
          (safe : Safe World.Held rest (fun _ => World.Held) World.Held) :
          Safe (fun w => w.Held ∧ (result.hr.failed = false → result.config ≠ none)) rest
            (fun _ => World.Held) World.Held :=
        safe.consequence (fun _ done => done.1) (fun _ _ held => held) fun _ held => held
      split
      · exact looked (held_upheld.safe (configFailed_frame trivial env context))
      · next passed =>
          cases found : result.config with
          | none =>
              intro w done
              exact absurd rfl (done.2 (by simpa using passed))
          | some config =>
              rw [found] at looked
              exact looked (protects config)
    · exact .pure fun _ held => held
  refine .bind (fun _ => World.Held) ?_ fun _ => .pure fun _ held => held
  refine .tryCatch block ?_ fun _ held => held
  exact .bind _ (held_upheld.safe (reportException_frame env _)) fun _ => .pure fun _ held => held

/-! ## The send-response handler -/

theorem evaluateBody_safe :
    Safe World.Live (evaluateBody env) (fun _ => World.Live) World.Held := by
  refine .bind _ (live_upheld.safe (modifyContext_frame fun _ => ⟨⟨rfl, rfl, rfl⟩, rfl⟩))
    fun _ => ?_
  exact contextCall_safe live_upheld (fun _ there => there.live) _

theorem headerPhase_safe (present : context.responsePresent = true) (notification : SendResponse)
    (tx : TransactionId) :
    Safe World.Live (headerPhase env context notification tx)
      (fun finished w => w.Held ∧ (finished = false → w.Live)) World.Held := by
  have passes : Safe World.Live (pure false : Program World Bool)
      (fun finished w => w.Held ∧ (finished = false → w.Live)) World.Held :=
    .pure fun _ there => ⟨there.toHeld, fun _ => there⟩
  have feeds : Safe World.Live (feedResponseHeaders env context notification tx)
      (fun finished w => w.Held ∧ (finished = false → w.Live)) World.Held := by
    refine .bind _ (live_upheld.safe (addKnownHeaders_frame _ _ fun _ _ _ => trivial)) fun _ => ?_
    refine .bind _ (live_upheld.safe (addUnknownHeaders_frame _ fun _ _ _ => trivial)) fun _ => ?_
    refine .bind _ (live_upheld.safe (mayThrow_frame env)) fun _ => ?_
    refine .seen fun w there => .at there ?_
    refine .bind _ (live_upheld.safe (engineCall_frame fun _ => trivial)) fun _ => ?_
    refine .bind _ (live_upheld.safe
      (responseBodyBlockingEnabled_frame env fun _ _ => trivial)) fun blocking => ?_
    refine .bind _ (applyIntervention_safe live_upheld (fun _ there => there.live) present _)
      fun blocked => ?_
    cases blocked with
    | true => exact .pure fun _ done => ⟨done.1, by simp⟩
    | false =>
        have marks : Safe World.Live
            (modifyContext fun rsc => { rsc with responseHeadersFed := true })
            (fun _ => World.Live) World.Held :=
          live_upheld.safe (modifyContext_frame fun _ => ⟨⟨rfl, rfl, rfl⟩, rfl⟩)
        refine .bind (fun _ => World.Live) ?_ fun _ => passes
        exact marks.consequence (fun _ done => done.2 rfl) (fun _ _ there => there) fun _ held => held
  refine .seen fun w there => .at there ?_
  split
  · exact passes
  · exact feeds

theorem modeA_safe (present : context.responsePresent = true) (notification : SendResponse)
    (respInspected : Nat) :
    Safe World.Live (modeA env context notification respInspected)
      (fun replaced w => w.Held ∧ (replaced = false → w.Live)) World.Held := by
  have passes : Safe World.Live (pure false : Program World Bool)
      (fun replaced w => w.Held ∧ (replaced = false → w.Live)) World.Held :=
    .pure fun _ there => ⟨there.toHeld, fun _ => there⟩
  refine .bind _ (live_upheld.safe
    (responseBodyBlockingEnabled_frame env fun _ _ => trivial)) fun blocking => ?_
  refine .seen fun w there => .at there ?_
  split
  · split
    · exact .bind _ (live_upheld.safe (modifyContext_frame fun _ => ⟨⟨rfl, rfl, rfl⟩, rfl⟩))
        fun _ => passes
    · refine .bind _ (live_upheld.safe (pinContentLength_frame fun _ _ => trivial)) fun _ => ?_
      refine .bind _ evaluateBody_safe fun _ => ?_
      exact applyIntervention_safe live_upheld (fun _ there => there.live) present true
  · exact passes

theorem modeB_safe (present : context.responsePresent = true) (notification : SendResponse) :
    Safe World.Live (modeB env context notification) (fun _ => World.Held) World.Held := by
  refine .bind _ (live_upheld.safe
    (responseBodyBlockingEnabled_frame env fun _ _ => trivial)) fun blocking => ?_
  refine .seen fun w there => .at there ?_
  cases !blocking && !w.rsc.responseBodyEvaluated && !notification.moreData with
  | false => exact .pure fun _ there => there.toHeld
  | true =>
      refine .bind _ evaluateBody_safe fun _ => ?_
      refine .bind _ (applyIntervention_safe live_upheld (fun _ there => there.live) present false)
        fun _ => ?_
      exact .pure fun _ done => done.1

theorem onSendResponse_safe (present : context.responsePresent = true)
    (notification : SendResponse) :
    Safe World.Held (onSendResponse env context notification) (fun _ => World.Held)
      World.Held := by
  have body (tx : TransactionId) :
      Safe World.Live (bodyPhase env context notification tx) (fun _ => World.Held)
        World.Held := by
    refine .bind _ (live_upheld.safe (inspectChunks_frame (fun _ _ => trivial) _)) fun respInspected => ?_
    refine .bind _ (modeA_safe present notification respInspected) fun replaced => ?_
    cases replaced with
    | true => exact .pure fun _ done => done.1
    | false =>
        refine .bind (fun _ => World.Held) ?_ fun _ => .pure fun _ held => held
        exact (modeB_safe present notification).consequence (fun _ done => done.2 rfl)
          (fun _ _ held => held) fun _ held => held
  have block : Safe World.Held (sendResponseBlock env context notification) (fun _ => World.Held)
      World.Held := by
    refine .seen fun w held => ?_
    cases current : w.rsc.tx with
    | none => exact .at held (.pure fun _ held => held)
    | some tx =>
        have live : w.Live := ⟨held, by simp [current]⟩
        refine .at live ?_
        dsimp only
        split
        · refine .bind _ (headerPhase_safe present notification tx) fun finished => ?_
          cases finished with
          | true => exact .pure fun _ done => done.1
          | false =>
              exact (body tx).consequence (fun _ done => done.2 rfl) (fun _ _ held => held)
                fun _ held => held
        · exact .pure fun _ there => there.toHeld
  refine .tryCatch block ?_ fun _ held => held
  refine .bind _ (held_upheld.safe (reportException_frame env _)) fun _ => ?_
  refine .seen fun w held => .at held ?_
  split
  · exact .bind _ (.when fun _ => held_upheld.safe (respond_frame trivial))
      fun _ => .pure fun _ held => held
  · exact .pure fun _ held => held

end Steps

/-! ## Every run -/

/-- What the callbacks rely on: a response object, a configuration of the request that stored
one first, a cap that leaves room for one more read below 4 GiB, and completions that report
no more bytes than the staging buffer has. -/
structure Occurrence.Sane (occurrence : Occurrence) : Prop where
  present : occurrence.context.responsePresent = true
  raced : ∀ tick, occurrence.env.racingConfiguration tick ≠ none
  capped : getMaxInspectBodyBytes occurrence.env + kBodyReadChunkSize ≤ 2 ^ 32
  reported : ∀ cb ch, occurrence.callback = .asyncCompletion (some (cb, ch)) →
    cb ≤ kBodyReadChunkSize

theorem Occurrence.run_safe {occurrence : Occurrence} (sane : occurrence.Sane) :
    Safe World.Held occurrence.run (fun _ => World.Held) World.Held := by
  obtain ⟨env, context, callback⟩ := occurrence
  obtain ⟨present, raced, capped, _⟩ := sane
  cases callback with
  | beginRequest => exact onBeginRequest_safe present capped raced
  | asyncCompletion completion => exact onAsyncCompletion_safe present capped completion
  | readCompleted => exact completeRead_safe present capped
  | sendResponse notification =>
      refine .bind (fun _ => World.Held) (.modify fun _ held => ⟨held.pended, held.arriving⟩)
        fun _ => ?_
      exact onSendResponse_safe present notification
  | postEndRequest => exact .pure fun _ held => held
  | cleanupStoredContext =>
      refine .bind (fun _ => World.Held) ?_ fun _ => .pure fun _ held => held
      refine .seen fun w held => .at held (.when fun _ => ?_)
      refine .bind _ (spares_safe (finishRequest_frame env (fun _ => ⟨rfl, rfl, rfl⟩)
        fun _ _ => trivial)) fun _ => ?_
      exact .modify fun _ held => ⟨held.pended, held.arriving⟩

theorem held_of_reaches {start s : RequestState} (held : start.world.Held)
    (reached : (requestSystem.startingAt start).Reaches (fun _ occurrence => occurrence.Sane) s) :
    s.world.Held := by
  refine @System.Reaches.invariant _ _ _ _ (fun state => state.world.Held) ?_ ?_ _ reached
  · intro state same
    rw [same]
    exact held
  · intro state occurrence after held sane step
    cases step with
    | @begins env context _ => exact (Occurrence.run_safe sane).state held
    | follows _ _ => exact (Occurrence.run_safe sane).state held

/-- Whatever the engine, the server and the platform answer, and in whatever order the
callbacks come, none of them crashes, and what a completion reports lies in the staging
buffer. -/
theorem callbacks_never_crash {start s : RequestState} (fresh : start.world.rsc = .new)
    (quiet : start.world.outstanding = none)
    (reached : (requestSystem.startingAt start).Reaches (fun _ occurrence => occurrence.Sane) s) :
    (∀ occurrence : Occurrence, occurrence.Sane → ∀ after,
        occurrence.run s.world ≠ .halted .crashed after) ∧
      (s.world.rsc.bodyReadState = .readPending →
        (∀ completion, s.world.outstanding = some completion →
          completion.bytes.length ≤ s.world.rsc.readBuf.length) ∧
        ∀ occurrence : Occurrence, occurrence.Sane → ∀ cb ch,
          occurrence.callback = .asyncCompletion (some (cb, ch)) →
            cb ≤ s.world.rsc.readBuf.length) := by
  have started : start.world.Held := by
    refine ⟨fun pending => ?_, by simp [quiet]⟩
    rw [fresh] at pending
    cases pending
  have held := held_of_reaches started reached
  constructor
  · intro occurrence sane after
    exact (Occurrence.run_safe sane).not_crashed held after
  · intro pending
    have whole := (held.pended pending).1
    constructor
    · intro completion arrives
      rw [whole]
      exact held.arriving completion arrives
    · intro occurrence sane cb ch completed
      rw [whole]
      exact sane.reported cb ch completed

/-- A process in which another request stores the configuration first. -/
def Env.raced : Env :=
  { Env.calm with
    racingConfiguration := fun _ =>
      some { isEnabled := true, path := some [114], responseBodyBlock := true } }

theorem raced_sane {callback : Callback}
    (reported : ∀ cb ch, callback = .asyncCompletion (some (cb, ch)) → cb ≤ kBodyReadChunkSize) :
    Occurrence.Sane ⟨.raced, .plain, callback⟩ := by
  have capped : getMaxInspectBodyBytes .raced + kBodyReadChunkSize ≤ 2 ^ 32 := by decide +kernel
  exact ⟨rfl, by simp [Env.raced], capped, reported⟩

/-- The first read of a body pends; its completion does not crash. -/
theorem callbacks_never_crash_pended : ∃ s : RequestState,
    s.world.rsc.bodyReadState = .readPending ∧ s.world.outstanding = some ⟨[1, 2], .sOk⟩ ∧
      2 ≤ s.world.rsc.readBuf.length ∧
      ∀ after, completeRead .raced .plain s.world ≠ .halted .crashed after := by
  have pended : ∃ s : RequestState, (requestSystem.startingAt
      ⟨World.arrived [1, 2] [⟨2, .sOk, true⟩], false⟩).Reaches
        (fun _ occurrence => occurrence.Sane) s ∧ s.world.rsc.bodyReadState = .readPending ∧
          s.world.outstanding = some ⟨[1, 2], .sOk⟩ :=
    ⟨_, .next (.start rfl) (@raced_sane .beginRequest (by simp)) (.begins rfl),
      by decide +kernel, by decide +kernel⟩
  obtain ⟨s, reached, pending, arriving⟩ := pended
  obtain ⟨safe, inside⟩ := callbacks_never_crash rfl rfl reached
  exact ⟨s, pending, arriving, (inside pending).1 _ arriving,
    safe ⟨.raced, .plain, .readCompleted⟩ (raced_sane (by simp))⟩

end ModSecurityIIS
