import ModSecurityIIS.ClaimProtocolProperties

/-!
# The bound on the body read

Every read that is followed by another one has appended a byte to `m_Body`, and none is
issued once the body has reached the inspection cap. However the server answers, the reads
of a request are at most as many as the cap has bytes.
-/

set_option autoImplicit false

namespace ModSecurityIIS

open Imperative Program Transition

/-! ## What a step does to the body -/

structure SameBody (a b : RequestStoredContext) : Prop where
  body : b.body = a.body
  buffer : b.readBuf = a.readBuf

instance : IsPreorder RequestStoredContext SameBody where
  refl _ := ⟨rfl, rfl⟩
  trans _ _ _ first second :=
    ⟨second.body.trans first.body, second.buffer.trans first.buffer⟩

theorem finishBodyRead_sameBody (env : Env) (context : HttpContext) (w : World) :
    SameBody w.rsc (finishBodyRead env context w).state.rsc :=
  (finishBodyRead_quietly (fun _ => ⟨rfl, rfl⟩) env context w).context

theorem laterCall_sameBody (env : Env) (context : HttpContext) (call : LaterCall) (w : World) :
    SameBody w.rsc (call.run env context w).state.rsc := by
  have changes : ResponseChanges SameBody :=
    ⟨fun _ => ⟨rfl, rfl⟩, fun _ => ⟨rfl, rfl⟩, fun _ => ⟨rfl, rfl⟩, fun _ => ⟨rfl, rfl⟩⟩
  exact (laterCall_quietly changes env context call w).context

/-- The steps of a thread with the token, by what they do to the body: the point it
leaves, the point it reaches, what it queues and what it has done. -/
inductive BodyTurn (env : Env) (w : World) :
    Point → Point → World → List Completion → List Act → Prop where
  | published {after : World} :
      SameBody w.rsc after.rsc → BodyTurn env w .pump .issue after [] []
  | abandoned {after : World} :
      SameBody w.rsc after.rsc → BodyTurn env w .pump .finish after [] []
  | pended {after : World} {answer : ReadAnswer} {rest : List ReadAnswer} :
      w.reads = answer :: rest → SameBody w.rsc after.rsc →
      BodyTurn env w .issue .issued after
        [{ bytes := w.handedOut answer, status := answer.status }] [.issue]
  | answered {after : World} {answer : ReadAnswer} {rest : List ReadAnswer} :
      w.reads = answer :: rest → after.rsc.body = w.rsc.body →
      after.rsc.readBuf = writeBuffer w.rsc.readBuf (w.handedOut answer) →
      BodyTurn env w .issue (.inline (w.handedOut answer).length answer.status) after [] [.issue]
  | reset {read : Nat} {hr : HResult} {after : World} :
      SameBody w.rsc after.rsc →
      BodyTurn env w (.inline read hr) (.consume read hr) after [] []
  | claimed {completion : Completion} {after : World} :
      SameBody w.rsc after.rsc →
      BodyTurn env w (.claim completion) (.consume completion.bytes.length completion.status)
        after [] [.claimOwn]
  | appended {read : Nat} {hr : HResult} {after : World} :
      after.rsc.body = w.rsc.body ++ w.rsc.readBuf.take read →
      BodyTurn env w (.consume read hr) (.decide read hr) after [] []
  | threw {read : Nat} {hr : HResult} {after : World} :
      SameBody w.rsc after.rsc →
      BodyTurn env w (.consume read hr) (.ended .rqNotificationFinishRequest) after [] []
  | continued {read : Nat} {hr : HResult} :
      stopReason env w.rsc read hr = none →
      BodyTurn env w (.decide read hr) .pump w [] []
  | stopped {read : Nat} {hr : HResult} {reason : StopReason} :
      stopReason env w.rsc read hr = some reason →
      BodyTurn env w (.decide read hr) (.stop reason) w [] []
  | settled {reason : StopReason} {after : World} :
      SameBody w.rsc after.rsc → BodyTurn env w (.stop reason) .finish after [] []
  | finished {status : NotificationStatus} {after : World} :
      SameBody w.rsc after.rsc → BodyTurn env w .finish (.ended status) after [] [.finish]

section Turns

variable {env : Env} {context : HttpContext} {handler : Handler} {w : World} {t : Turn}

theorem World.appended_body (w : World) (read : Nat) :
    (w.appended read).rsc.body = w.rsc.body ++ w.rsc.readBuf.take read := by
  unfold World.appended
  split
  · rfl
  · next empty =>
      obtain rfl : read = 0 := by omega
      simp

theorem issue_bodyTurn (took : turn env context ⟨handler, .issue⟩ w = some t) :
    BodyTurn env w .issue t.point t.world t.queued t.acts := by
  cases next : w.reads with
  | nil => simp [turn, readEntityBody, next] at took
  | cons answer rest =>
      by_cases pends : (bodyReadsAsync env && answer.pended) = true
      · simp only [turn, readEntityBody, next, pends, ↓reduceIte, Option.toList_some,
          Bool.and_true] at took
        rw [if_pos (Bool.and_eq_true_iff.mp pends).1] at took
        obtain rfl := Option.some.inj took
        exact .pended next ⟨rfl, rfl⟩
      · simp only [turn, readEntityBody, next, pends, Bool.false_eq_true, ↓reduceIte,
          Bool.and_false] at took
        obtain rfl := Option.some.inj took
        exact .answered next rfl rfl

theorem consume_bodyTurn {read : Nat} {hr : HResult}
    (took : turn env context ⟨handler, .consume read hr⟩ w = some t) :
    BodyTurn env w (.consume read hr) t.point t.world t.queued t.acts := by
  simp only [turn, appendChunk_apply] at took
  by_cases threw : 0 < read ∧ env.throws w.tick = true
  · simp only [if_pos threw] at took
    obtain rfl := Option.some.inj took
    exact .threw ⟨rfl, rfl⟩
  · simp only [if_neg threw] at took
    obtain rfl := Option.some.inj took
    exact .appended (w.appended_body read)

theorem finish_bodyTurn (took : turn env context ⟨handler, .finish⟩ w = some t) :
    BodyTurn env w .finish t.point t.world t.queued t.acts := by
  have same := finishBodyRead_sameBody env context w
  simp only [turn] at took
  cases ran : finishBodyRead env context w with
  | returned status after =>
      rw [ran] at took same
      obtain rfl := Option.some.inj took
      exact .finished same
  | thrown after =>
      rw [ran] at took same
      obtain rfl := Option.some.inj took
      exact .finished same
  | halted reason after => rw [ran] at took; cases took

theorem turn_bodyTurn {thread : Thread} (took : turn env context thread w = some t)
    (holds : thread.token = 1) (fits : thread.point.Fits (bodyReadsAsync env) w.rsc.bodyReadState)
    (tracked : w.Tracked) : BodyTurn env w thread.point t.point t.world t.queued t.acts := by
  obtain ⟨handler, point⟩ := thread
  cases point with
  | pump =>
      simp only [turn] at took
      split at took
      · obtain rfl := Option.some.inj took
        apply BodyTurn.published
        unfold World.published
        split <;> exact ⟨rfl, rfl⟩
      · obtain rfl := Option.some.inj took
        exact .abandoned ⟨rfl, rfl⟩
  | issue => exact issue_bodyTurn took
  | issued => cases holds
  | inline read hr =>
      obtain rfl := Option.some.inj took
      apply BodyTurn.reset
      split <;> exact ⟨rfl, rfl⟩
  | claim completion =>
      simp only [turn, claimRead_of_pending tracked fits] at took
      obtain rfl := Option.some.inj took
      exact .claimed ⟨rfl, rfl⟩
  | consume read hr => exact consume_bodyTurn took
  | decide read hr =>
      simp only [turn] at took
      split at took
      · next goes =>
          obtain rfl := Option.some.inj took
          exact .continued goes
      · next reason stops =>
          obtain rfl := Option.some.inj took
          exact .stopped stops
  | stop reason =>
      obtain rfl := Option.some.inj took
      obtain ⟨logged, entries, applied⟩ := warnCap_apply (decide (reason = .inspectionCapReached)) w
      apply BodyTurn.settled
      rw [applied]
      exact ⟨rfl, rfl⟩
  | finish => exact finish_bodyTurn took
  | ended status => cases holds

end Turns

/-! ## The measure -/

/-- A read in hand: it was issued below the cap, and its bytes are in the staging buffer. -/
structure ReadInHand (cap issued : Nat) (body : Bytes) (read : Nat) : Prop where
  counted : issued ≤ body.length + 1
  room : body.length < cap
  chunk : read ≤ kBodyReadChunkSize

/-- What a thread at this point knows of the reads issued so far. -/
def Point.Metered (cap issued : Nat) (rsc : RequestStoredContext) : Point → Prop
  | .pump => issued ≤ rsc.body.length ∧ rsc.body.length < cap
  | .issue => issued ≤ rsc.body.length ∧ rsc.body.length < cap
  | .inline read _ => ReadInHand cap issued rsc.body read ∧ read ≤ rsc.readBuf.length
  | .claim completion =>
      ReadInHand cap issued rsc.body completion.bytes.length ∧
        completion.bytes.length ≤ rsc.readBuf.length
  | .consume read _ => ReadInHand cap issued rsc.body read ∧ read ≤ rsc.readBuf.length
  | .decide read _ => 0 < read → issued ≤ rsc.body.length
  | _ => True

/-- The reads issued so far, and the body they have left. -/
structure ReadState.Metered (env : Env) (s : ReadState) : Prop where
  issued : s.history.count .issue ≤ getMaxInspectBodyBytes env
  body : s.world.rsc.body.length ≤ getMaxInspectBodyBytes env + (kBodyReadChunkSize - 1)
  points : ∀ thread ∈ s.threads,
    thread.point.Metered (getMaxInspectBodyBytes env) (s.history.count .issue) s.world.rsc
  queued : ∀ completion ∈ s.queued,
    ReadInHand (getMaxInspectBodyBytes env) (s.history.count .issue) s.world.rsc.body
      completion.bytes.length

theorem Point.Metered.of_spent {cap issued : Nat} {rsc : RequestStoredContext} {thread : Thread}
    (spent : thread.token = 0) : thread.point.Metered cap issued rsc := by
  obtain ⟨handler, point⟩ := thread
  cases point with
  | issued => trivial
  | ended status => trivial
  | _ => cases spent

theorem handedOut_length_le (w : World) (answer : ReadAnswer) :
    (w.handedOut answer).length ≤ kBodyReadChunkSize := by
  simp only [World.handedOut, List.length_take]
  omega

theorem length_le_writeBuffer (buffer bytes : Bytes) :
    bytes.length ≤ (writeBuffer buffer bytes).length := by
  simp [writeBuffer]

theorem room_of_continued {env : Env} {rsc : RequestStoredContext} {read : Nat} {hr : HResult}
    (goes : stopReason env rsc read hr = none) :
    0 < read ∧ rsc.body.length < getMaxInspectBodyBytes env := by
  unfold stopReason at goes
  split at goes
  · cases goes
  · next continues =>
      split at goes
      · cases goes
      · split at goes
        · cases goes
        · split at goes
          · cases goes
          · next room =>
              have brought : read ≠ 0 := fun none => continues (.inl none)
              exact ⟨by omega, by omega⟩

/-- What one step leaves of the measure: the counts, the point reached and the queue. -/
structure TurnMetered (cap issued : Nat) (point : Point) (after : World)
    (queued : List Completion) : Prop where
  counted : issued ≤ cap
  body : after.rsc.body.length ≤ cap + (kBodyReadChunkSize - 1)
  point : point.Metered cap issued after.rsc
  queued : ∀ completion ∈ queued,
    ReadInHand cap issued after.rsc.body completion.bytes.length

section Steps

variable {env : Env} {context : HttpContext} {s : ReadState}

theorem bodyTurn_metered {w after : World} {point next : Point} {queued : List Completion}
    {acts : List Act} {issued : Nat} (step : BodyTurn env w point next after queued acts)
    (bounded : issued ≤ getMaxInspectBodyBytes env)
    (small : w.rsc.body.length ≤ getMaxInspectBodyBytes env + (kBodyReadChunkSize - 1))
    (metered : point.Metered (getMaxInspectBodyBytes env) issued w.rsc) :
    TurnMetered (getMaxInspectBodyBytes env) (issued + acts.count .issue) next after queued := by
  have whole : 0 < kBodyReadChunkSize := by decide
  cases step with
  | published same =>
      refine ⟨bounded, ?_, ?_, by simp⟩
      · rwa [same.body]
      · simpa [Point.Metered, same.body] using metered
  | abandoned same =>
      refine ⟨bounded, ?_, trivial, by simp⟩
      rwa [same.body]
  | pended next same =>
      obtain ⟨counted, room⟩ := metered
      refine ⟨?_, ?_, trivial, ?_⟩
      · simp only [List.count_singleton_self]
        omega
      · rwa [same.body]
      · intro completion member
        obtain rfl := List.mem_singleton.mp member
        rw [same.body]
        exact ⟨by simpa using counted, room, handedOut_length_le w _⟩
  | answered next body buffer =>
      obtain ⟨counted, room⟩ := metered
      refine ⟨?_, ?_, ⟨⟨?_, ?_, handedOut_length_le w _⟩, ?_⟩, by simp⟩
      · simp only [List.count_singleton_self]
        omega
      · rwa [body]
      · simpa [body] using counted
      · rwa [body]
      · rw [buffer]
        exact length_le_writeBuffer _ _
  | reset same =>
      refine ⟨bounded, ?_, ?_, by simp⟩
      · rwa [same.body]
      · simpa [Point.Metered, same.body, same.buffer] using metered
  | claimed same =>
      refine ⟨by simpa using bounded, ?_, ?_, by simp⟩
      · rwa [same.body]
      · simpa [Point.Metered, same.body, same.buffer] using metered
  | @appended read hr after grown =>
      obtain ⟨⟨counted, room, chunk⟩, held⟩ := metered
      have length : after.rsc.body.length = w.rsc.body.length + read := by
        rw [grown, List.length_append, List.length_take, Nat.min_eq_left held]
      refine ⟨bounded, ?_, ?_, by simp⟩
      · omega
      · intro brought
        simp only [List.count_nil]
        omega
  | threw same =>
      refine ⟨bounded, ?_, trivial, by simp⟩
      rwa [same.body]
  | continued goes =>
      obtain ⟨brought, room⟩ := room_of_continued goes
      exact ⟨bounded, small, ⟨metered brought, room⟩, by simp⟩
  | stopped stops => exact ⟨bounded, small, trivial, by simp⟩
  | settled same =>
      refine ⟨bounded, ?_, trivial, by simp⟩
      rwa [same.body]
  | finished same =>
      refine ⟨by simpa using bounded, ?_, trivial, by simp⟩
      rwa [same.body]

theorem metered_run (inv : s.Inv env) (metered : s.Metered env) {front back : List Thread}
    {thread : Thread} {t : Turn} (pool : s.threads = front ++ thread :: back)
    (took : turn env context thread s.world = some t) :
    (s.after front thread back t).Metered env := by
  have present : thread ∈ s.threads := by simp [pool]
  rcases Thread.token_eq thread with spent | holds
  · obtain ⟨issued, rfl⟩ := turn_of_spent took spent
    refine ⟨by simpa [ReadState.after] using metered.issued, metered.body, ?_, ?_⟩
    · refine forall_stepped (fun other beside => ?_) trivial
      simpa [ReadState.after] using metered.points other (mem_of_beside pool beside)
    · simpa [ReadState.after] using metered.queued
  · obtain ⟨empty, alone⟩ := holder_alone inv pool holds
    have held := tokens_pos present holds
    have step := turn_bodyTurn took holds (inv.fits thread present) (inv.tracked held)
    have left := bodyTurn_metered step metered.issued metered.body (metered.points thread present)
    have count : (s.after front thread back t).history.count .issue =
        s.history.count .issue + t.acts.count .issue := by
      simp [ReadState.after]
    refine ⟨?_, left.body, ?_, ?_⟩
    · rw [count]
      exact left.counted
    · rw [count]
      refine forall_stepped (fun other beside => ?_) left.point
      exact .of_spent (alone.others other beside)
    · intro completion member
      rw [count]
      exact left.queued completion (by simpa [ReadState.after, empty] using member)

/-- The bytes of a completed read are in the buffer before anybody looks at them. -/
theorem metered_deliver (inv : s.Inv env) (metered : s.Metered env)
    {first second : List Completion} {completion : Completion}
    (queue : s.queued = first ++ completion :: second) :
    (s.delivered first second completion).Metered env := by
  obtain ⟨⟨rfl, rfl⟩, alone⟩ := queued_alone inv queue
  refine ⟨metered.issued, metered.body, ?_, by simp [ReadState.delivered]⟩
  refine forall_stepped (fun other beside => .of_spent (alone.others other beside)) ?_
  exact ⟨metered.queued completion (by simp [queue]), length_le_writeBuffer _ _⟩

theorem Point.Metered.congr {cap issued : Nat} {point : Point} {rsc other : RequestStoredContext}
    (metered : point.Metered cap issued rsc) (same : SameBody rsc other) :
    point.Metered cap issued other := by
  unfold Point.Metered
  rw [same.body, same.buffer]
  exact metered

theorem metered_foreign (inv : s.Inv env) (metered : s.Metered env) (decided : s.verdict ≠ none)
    (completion : Completion) : (s.foreign completion).Metered env := by
  have none : s.tokens = 0 := inv.settled decided
  rw [ReadState.foreign, claimRead_eq_none (inv.free none)]
  have count : (s.history ++ [Act.ignoreForeign]).count .issue = s.history.count .issue := by simp
  constructor
  · rw [count]
    exact metered.issued
  · exact metered.body
  · rw [count]
    exact metered.points
  · rw [count]
    exact metered.queued

theorem metered_later (metered : s.Metered env) (call : LaterCall) :
    ReadState.Metered env { s with world := (call.run env context s.world).state } := by
  have same := laterCall_sameBody env context call s.world
  refine ⟨metered.issued, ?_, ?_, ?_⟩
  · simpa only [same.body] using metered.body
  · intro thread member
    exact (metered.points thread member).congr same
  · intro completion member
    simpa only [same.body] using metered.queued completion member

theorem metered_step {label : ReadLabel} {next : ReadState} (inv : s.Inv env)
    (metered : s.Metered env) (step : ReadStep env context s label next) : next.Metered env := by
  cases step with
  | run pool took => exact metered_run inv metered pool took
  | deliver queue => exact metered_deliver inv metered queue
  | foreign decided => exact metered_foreign inv metered decided _
  | later decided => exact metered_later metered _

/-! ## The bound -/

/-- The runs of a request that has read nothing of its body. -/
def bodySystem (env : Env) (context : HttpContext) : System ReadState ReadLabel :=
  { readSystem env context with
    initial := fun s => (readSystem env context).initial s ∧ s.world.rsc.body = [] }

theorem metered_initial (start : (bodySystem env context).initial s) : s.Metered env := by
  obtain ⟨⟨ready, shape⟩, empty⟩ := start
  have room := (getMaxInspectBodyBytes_bounds env).1
  generalize s.world = world at ready shape empty
  subst shape
  refine ⟨by simp, by simp [empty], ?_, by simp⟩
  intro thread member
  obtain rfl := List.mem_singleton.mp member
  simpa [Point.Metered, empty] using room

theorem metered_of_reachable (reached : (bodySystem env context).Reachable s) :
    s.Inv env ∧ s.Metered env := by
  induction reached with
  | start initial => exact ⟨inv_initial initial.1, metered_initial initial⟩
  | next _ _ step ih => exact ⟨inv_step ih.1 step, metered_step ih.1 ih.2 step⟩

/-- Whatever the server answers, at most as many reads are issued as the inspection cap
has bytes, none of them after `FinishBodyRead`, and the body passes the cap by less than
one chunk. -/
theorem body_pump_bounded (reached : (bodySystem env context).Reachable s) :
    s.history.count .issue ≤ getMaxInspectBodyBytes env ∧
      (∀ before after, s.history = before ++ .finish :: after → .issue ∉ after) ∧
      s.world.rsc.body.length ≤ getMaxInspectBodyBytes env + (kBodyReadChunkSize - 1) := by
  obtain ⟨inv, metered⟩ := metered_of_reachable reached
  refine ⟨metered.issued, ?_, metered.body⟩
  intro before after shape issued
  have ordered := inv.ordered
  rw [shape] at ordered
  have later := (List.pairwise_append.mp ordered).2.1
  exact (List.pairwise_cons.mp later).1 _ issued rfl rfl

end Steps

theorem body_pump_bounded_oneRead : ∃ s : ReadState,
    s.history = [.issue, .claimOwn] ∧ s.world.rsc.body = [104] ∧
      s.history.count .issue ≤ getMaxInspectBodyBytes .calm ∧
      (∀ before after, s.history = before ++ .finish :: after → .issue ∉ after) ∧
      s.world.rsc.body.length ≤ getMaxInspectBodyBytes .calm + (kBodyReadChunkSize - 1) := by
  have ready : Ready tracked := ⟨rfl, by decide, rfl, rfl⟩
  have began : (bodySystem .calm .plain).Reachable
      { threads := [{ handler := .onBeginRequest, point := .pump }]
        queued := []
        world := tracked
        verdict := none
        history := [] } := .start ⟨⟨ready, rfl⟩, rfl⟩
  have published := began.step (@ReadStep.run _ _ _ [] [] _ _ rfl rfl)
  have queued := published.step (@ReadStep.run _ _ _ [] [] _ _ rfl rfl)
  have delivered := queued.step (@ReadStep.deliver _ _ _ [] [] _ rfl)
  let waiting : Thread := { handler := .onBeginRequest, point := .issued }
  have claimed := delivered.step (@ReadStep.run _ _ _ [waiting] [] _ _ rfl rfl)
  have appended := claimed.step (@ReadStep.run _ _ _ [waiting] [] _ _ rfl rfl)
  exact ⟨_, rfl, rfl, body_pump_bounded appended⟩

end ModSecurityIIS
