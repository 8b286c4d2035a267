import ModSecurityIIS.BodyReadProperties
import ModSecurityIIS.Imperative.Transition
import ModSecurityIIS.SendResponseProperties

/-!
# The claim protocol of the asynchronous reads

The threads that run the read code of one request, in any interleaving: the thread in
`PumpBodyRead`, the completions of pended reads, which IIS may deliver before the issuing
call has returned, and completions of other modules' reads once the notification is over.
-/

set_option autoImplicit false

namespace ModSecurityIIS

open Imperative Program Transition

/-! ## Threads -/

/-- The handler that has called the read code, and that catches what it throws. -/
inductive Handler where
  | onBeginRequest
  | onAsyncCompletion
  deriving DecidableEq, Repr

def Handler.name : Handler → String
  | .onBeginRequest => "OnBeginRequest"
  | .onAsyncCompletion => "OnAsyncCompletion"

/-- Where a thread stands in the read code. -/
inductive Point where
  /-- At the head of the loop of `PumpBodyRead`. -/
  | pump
  /-- Before `ReadEntityBody`. -/
  | issue
  /-- `ReadEntityBody` has queued the read; the call is about to return pended. -/
  | issued
  /-- `ReadEntityBody` has returned a completed read. -/
  | inline (read : Nat) (hr : HResult)
  /-- `OnAsyncCompletion` before its compare-exchange. -/
  | claim (completion : Completion)
  /-- `ConsumeBodyChunk` before the insertion. -/
  | consume (read : Nat) (hr : HResult)
  /-- `ConsumeBodyChunk` before the stop conditions. -/
  | decide (read : Nat) (hr : HResult)
  /-- A stop condition holds. -/
  | stop (reason : StopReason)
  /-- Before `FinishBodyRead`. -/
  | finish
  /-- The handler has returned. -/
  | ended (status : NotificationStatus)
  deriving DecidableEq, Repr

structure Thread where
  handler : Handler
  point : Point
  deriving DecidableEq, Repr

/-- What the claims of the protocol are about. -/
inductive Act where
  | issue
  | finish
  | claimOwn
  | ignoreOwn
  | claimForeign
  | ignoreForeign
  deriving DecidableEq, Repr

/-- The effect of one step of a thread: its next point, the shared world, the reads it has
queued and what it has done. -/
structure Turn where
  point : Point
  world : World
  queued : List Completion
  acts : List Act

def World.withState (w : World) (state : BodyReadState) : World :=
  { w with rsc := { w.rsc with bodyReadState := state } }

/-- The world in which a read is issued: an asynchronous one is published first. -/
def World.published (env : Env) (w : World) : World :=
  if bodyReadsAsync env then w.withState .readPending else w

/-- The tests of `OnAsyncCompletion` up to its compare-exchange; the world of a claim. -/
def claimRead (w : World) : Option World :=
  if w.stored = false ∨ w.rsc.tx = none then none
  else if w.rsc.bodyReadState = .readPending then some (w.withState .idle)
  else none

/-- The handler catches what the read code throws and fails the request. -/
def Turn.caught (env : Env) (handler : Handler) (w : World) : Turn where
  point := .ended .rqNotificationFinishRequest
  world := (reportException env handler.name w).state
  queued := []
  acts := []

/-- One step of a thread; there is none from a handler that has returned, and none
while the server does not answer a read. -/
def turn (env : Env) (context : HttpContext) (thread : Thread) (w : World) : Option Turn :=
  match thread.point with
  | .pump =>
      if context.requestPresent then
        some { point := .issue, world := w.published env, queued := [], acts := [] }
      else some { point := .finish, world := w.withState .done, queued := [], acts := [] }
  | .issue =>
      match readEntityBody (bodyReadsAsync env) w with
      | .returned result after =>
          if bodyReadsAsync env && result.pending then
            some
              { point := .issued
                world := { after with outstanding := none }
                queued := after.outstanding.toList
                acts := [.issue] }
          else
            some
              { point := .inline result.read result.status
                world := after
                queued := []
                acts := [.issue] }
      | _ => none
  | .issued =>
      some { point := .ended .rqNotificationPending, world := w, queued := [], acts := [] }
  | .inline read hr =>
      some
        { point := .consume read hr
          world := if bodyReadsAsync env then w.withState .idle else w
          queued := []
          acts := [] }
  | .claim completion =>
      match claimRead w with
      | some claimed =>
          some
            { point := .consume completion.bytes.length completion.status
              world := claimed
              queued := []
              acts := [.claimOwn] }
      | none =>
          some
            { point := .ended .rqNotificationContinue
              world := w
              queued := []
              acts := [.ignoreOwn] }
  | .consume read hr =>
      match appendChunk env read w with
      | .returned _ after =>
          some { point := .decide read hr, world := after, queued := [], acts := [] }
      | .thrown after => some (.caught env thread.handler after)
      | .halted _ _ => none
  | .decide read hr =>
      match stopReason env w.rsc read hr with
      | none => some { point := .pump, world := w, queued := [], acts := [] }
      | some reason => some { point := .stop reason, world := w, queued := [], acts := [] }
  | .stop reason =>
      some
        { point := .finish
          world :=
            (when (decide (reason = .inspectionCapReached)) logCapReached w).state.withState .done
          queued := []
          acts := [] }
  | .finish =>
      match finishBodyRead env context w with
      | .returned status after =>
          some { point := .ended status, world := after, queued := [], acts := [.finish] }
      | .thrown after => some { Turn.caught env thread.handler after with acts := [.finish] }
      | .halted _ _ => none
  | .ended _ => none

/-! ## The system -/

/-- `queued` holds the own reads that pend, `verdict` the status that ended the
notification, and `history` what was done so far. -/
structure ReadState where
  threads : List Thread
  queued : List Completion
  world : World
  verdict : Option NotificationStatus
  history : List Act

/-- The status that ends the notification. -/
def Point.verdict : Point → Option NotificationStatus
  | .ended .rqNotificationPending => none
  | .ended status => some status
  | _ => none

/-- What IIS may still call for the request once the notification is over. -/
inductive LaterCall where
  | sendResponse (notification : SendResponse)
  | cleanup

def LaterCall.run (env : Env) (context : HttpContext) : LaterCall → Program World Unit
  | .sendResponse notification => do
      let _ ← raiseSendResponse env context notification
      pure ()
  | .cleanup => cleanupStoredContext env

inductive ReadLabel where
  | run (index : Nat)
  | deliver
  | foreign (completion : Completion)
  | later (call : LaterCall)

/-- The state after a step of one thread. -/
def ReadState.after (s : ReadState) (front : List Thread) (thread : Thread)
    (back : List Thread) (t : Turn) : ReadState where
  threads := front ++ { thread with point := t.point } :: back
  queued := s.queued ++ t.queued
  world := t.world
  verdict := t.point.verdict.or s.verdict
  history := s.history ++ t.acts

/-- IIS delivers the completion of an own read: its bytes are in the staging buffer. -/
def ReadState.delivered (s : ReadState) (first second : List Completion)
    (completion : Completion) : ReadState where
  threads := s.threads ++ [{ handler := .onAsyncCompletion, point := .claim completion }]
  queued := first ++ second
  world :=
    { s.world with
      rsc := { s.world.rsc with readBuf := writeBuffer s.world.rsc.readBuf completion.bytes } }
  verdict := s.verdict
  history := s.history

/-- `OnAsyncCompletion` on the completion of another module's read. -/
def ReadState.foreign (s : ReadState) (completion : Completion) : ReadState :=
  match claimRead s.world with
  | some claimed =>
      { s with
        threads := s.threads ++
          [{ handler := .onAsyncCompletion
             point := .consume completion.bytes.length completion.status }]
        world := claimed
        history := s.history ++ [.claimForeign] }
  | none => { s with history := s.history ++ [.ignoreForeign] }

inductive ReadStep (env : Env) (context : HttpContext) :
    ReadState → ReadLabel → ReadState → Prop where
  | run {s : ReadState} {front back : List Thread} {thread : Thread} {t : Turn} :
      s.threads = front ++ thread :: back → turn env context thread s.world = some t →
      ReadStep env context s (.run front.length) (s.after front thread back t)
  | deliver {s : ReadState} {first second : List Completion} {completion : Completion} :
      s.queued = first ++ completion :: second →
      ReadStep env context s .deliver (s.delivered first second completion)
  | foreign {s : ReadState} {completion : Completion} :
      s.verdict ≠ none →
      ReadStep env context s (.foreign completion) (s.foreign completion)
  | later {s : ReadState} {call : LaterCall} :
      s.verdict ≠ none →
      ReadStep env context s (.later call)
        { s with world := (call.run env context s.world).state }

/-- The runs of a request whose `BeginBodyRead` has just called `PumpBodyRead`. -/
def readSystem (env : Env) (context : HttpContext) : System ReadState ReadLabel where
  initial s := Ready s.world ∧ s =
    { threads := [{ handler := .onBeginRequest, point := .pump }]
      queued := []
      world := s.world
      verdict := none
      history := [] }
  step := ReadStep env context

/-! ## The steps of one thread add up to its handler -/

/-- The body read stays as it is, and no read is begun. -/
structure SameState (w after : World) : Prop where
  state : after.rsc.bodyReadState = w.rsc.bodyReadState
  outstanding : after.outstanding = w.outstanding

instance : IsPreorder RequestStoredContext fun a b => b.bodyReadState = a.bodyReadState where
  refl _ := rfl
  trans _ _ _ first second := second.trans first

/-- The stored context stays in the relation, and no read is begun. -/
structure Quietly (keeps : RequestStoredContext → RequestStoredContext → Prop) (w after : World) :
    Prop where
  context : keeps w.rsc after.rsc
  outstanding : after.outstanding = w.outstanding

section Quietly

variable {keeps : RequestStoredContext → RequestStoredContext → Prop}
variable [IsPreorder RequestStoredContext keeps]

instance : IsPreorder World (Quietly keeps) where
  refl _ := ⟨refl_of keeps _, rfl⟩
  trans _ _ _ first second :=
    ⟨trans_of keeps first.context second.context, second.outstanding.trans first.outstanding⟩

omit [IsPreorder RequestStoredContext keeps] in
theorem quietly_of_frame {α : Type} {program : Program World α}
    (within : Within (Frame keeps fun _ => True) program) : Within (Quietly keeps) program :=
  within.mono fun _ _ frame => ⟨frame.context, frame.outstanding⟩

theorem finishBodyRead_quietly (released : ∀ rsc, keeps rsc { rsc with tx := none, rules := none })
    (env : Env) (context : HttpContext) : Within (Quietly keeps) (finishBodyRead env context) := by
  have still {α : Type} {program : Program World α}
      (same : ∀ w, (program w).state.rsc = w.rsc ∧ (program w).state.outstanding = w.outstanding) :
      Within (Quietly keeps) program := by
    intro w
    refine ⟨?_, (same w).2⟩
    rw [(same w).1]
    exact refl_of keeps _
  have feeds : Within (Quietly keeps) (feedBody env) := by
    refine .bind .get fun w => .bind (.when fun _ => ?_) fun _ => ?_
    · exact quietly_of_frame (contextCall_frame fun _ _ => trivial)
    · exact quietly_of_frame (contextCall_frame fun _ _ => trivial)
  have reports (message : Bytes) :
      Within (Quietly keeps) (writeEventViewerLog message .eventlogErrorType) :=
    still fun _ => ⟨rfl, rfl⟩
  have restores : Within (Quietly keeps) (restoreBody env context) := by
    refine .bind .get fun w => ?_
    split
    · refine .bind (still fun _ => ⟨rfl, rfl⟩) fun allocated => ?_
      split
      · split
        · exact .halt _
        · have inserts (body : Bytes) : Within (Quietly keeps) (insertEntityBody env body) :=
            .bind (still fun _ => ⟨rfl, rfl⟩) fun result =>
              .bind (still fun _ => ⟨rfl, rfl⟩) fun _ => .pure _
          refine .bind (inserts _) fun result => ?_
          split
          · exact .bind (reports _) fun _ => .pure _
          · exact .pure _
      · exact .bind (reports _) fun _ => .pure _
    · exact .pure _
  have inspects : Within (Quietly keeps) (restoreAndFeed env context) := by
    refine .bind restores fun restoration => ?_
    cases restoration with
    | restored => exact .bind feeds fun _ => .pure _
    | allocationFailed => exact .bind feeds fun _ => .pure _
    | insertionFailed => exact .pure _
  have reported : Within (Quietly keeps) (reportException env "FinishBodyRead") :=
    still fun _ => ⟨rfl, rfl⟩
  refine .bind (.tryCatch inspects (.bind reported fun _ => .pure _)) fun fed => ?_
  cases fed with
  | none => exact .pure _
  | some restoreFailed =>
      refine .bind (quietly_of_frame (applyIntervention_frame env context true
        released fun _ _ => trivial)) fun blocked => ?_
      split
      · exact .pure _
      · split
        · split
          · exact .bind (quietly_of_frame (respond_frame trivial)) fun _ => .pure _
          · exact .halt _
        · exact .pure _

end Quietly

theorem finishBodyRead_sameState (env : Env) (context : HttpContext) :
    Within SameState (finishBodyRead env context) := by
  have quietly := @finishBodyRead_quietly (fun a b => b.bodyReadState = a.bodyReadState) _
    (fun _ => rfl) env context
  exact quietly.mono fun _ _ quiet => ⟨quiet.context, quiet.outstanding⟩

/-- The steps of a thread with nothing in between; `queued` are the reads it leaves. -/
inductive Alone (env : Env) (context : HttpContext) (handler : Handler) :
    Point → World → List Completion → Point → World → Prop where
  | stay (point : Point) (w : World) : Alone env context handler point w [] point w
  | step {point last : Point} {w after : World} {t : Turn} {queued : List Completion} :
      turn env context { handler, point } w = some t →
      Alone env context handler t.point t.world queued last after →
      Alone env context handler point w (t.queued ++ queued) last after

/-- The steps from `point` on do what the outcome says. -/
def Realizes (env : Env) (context : HttpContext) (handler : Handler) (point : Point) (w : World) :
    Outcome World NotificationStatus → Prop
  | .returned status after =>
      Alone env context handler point w after.outstanding.toList (.ended status)
        { after with outstanding := none }
  | .thrown after =>
      after.outstanding = none ∧
        Alone env context handler point w [] (.ended .rqNotificationFinishRequest)
          (reportException env handler.name after).state
  | .halted _ _ => True

section Alone

variable {env : Env} {context : HttpContext} {handler : Handler} {w : World}

theorem Realizes.step {point : Point} {t : Turn} {outcome : Outcome World NotificationStatus}
    (took : turn env context { handler, point } w = some t) (silent : t.queued = [])
    (rest : Realizes env context handler t.point t.world outcome) :
    Realizes env context handler point w outcome := by
  cases outcome with
  | returned status after =>
      have run := Alone.step took rest
      rwa [silent] at run
  | thrown after =>
      have run := Alone.step took rest.2
      rw [silent] at run
      exact ⟨rest.1, run⟩
  | halted reason after => trivial

theorem realizes_ended (quiet : w.outstanding = none) (status : NotificationStatus) :
    Realizes env context handler (.ended status) w (.returned status w) := by
  simp only [Realizes, quiet, Option.toList_none]
  rw [← quiet]
  exact .stay _ _

theorem realizes_caught {point : Point} {after : World} (quiet : after.outstanding = none)
    (took : turn env context { handler, point } w = some (.caught env handler after)) :
    Realizes env context handler point w (.thrown after) :=
  ⟨quiet, .step took (.stay _ _)⟩

theorem realizes_finish (quiet : w.outstanding = none) :
    Realizes env context handler .finish w (finishBodyRead env context w) := by
  have same := finishBodyRead_sameState env context w
  cases run : finishBodyRead env context w with
  | returned status after =>
      rw [run] at same
      exact .step (t := { point := .ended status, world := after, queued := [], acts := [.finish] })
        (by simp only [turn, run]) rfl (realizes_ended (same.outstanding.trans quiet) status)
  | thrown after =>
      rw [run] at same
      refine ⟨same.outstanding.trans quiet, ?_⟩
      exact .step (t := { Turn.caught env handler after with acts := [.finish] })
        (by simp only [turn, run]) (.stay _ _)
  | halted reason after => trivial

theorem realizes_stop (quiet : w.outstanding = none) (reason : StopReason)
    (next : Option NotificationStatus → Program World NotificationStatus)
    (returns : ∀ status, next (some status) = pure status) :
    Realizes env context handler (.stop reason) w
      ((stopAt env context reason >>= next) w) := by
  obtain ⟨logged, entries, warned⟩ := warnCap_apply (decide (reason = .inspectionCapReached)) w
  let settled : World :=
    { w with capLogged := logged, eventLog := w.eventLog ++ entries }
  have finishes : (stopAt env context reason >>= next) w =
      finishBodyRead env context (settled.withState .done) := by
    simp only [stopAt, bind_assoc, pure_bind, returns, bind_pure]
    rw [bind_returned warned, bind_returned (exchangeBodyReadState_apply _ _)]
    rfl
  have took : turn env context { handler, point := .stop reason } w =
      some { point := .finish, world := settled.withState .done, queued := [], acts := [] } := by
    simp only [turn, warned, Outcome.state_returned]
    rfl
  rw [finishes]
  exact .step took rfl (realizes_finish quiet)

theorem realizes_consume (quiet : w.outstanding = none) (read : Nat) (hr : HResult)
    (next : Option NotificationStatus → Program World NotificationStatus)
    (returns : ∀ status, next (some status) = pure status)
    (more : Realizes env context handler .pump (w.appended read) (next none (w.appended read))) :
    Realizes env context handler (.consume read hr) w
      ((consumeBodyChunk env context read hr >>= next) w) := by
  rw [bind_apply, consumeBodyChunk_apply]
  by_cases threw : 0 < read ∧ env.throws w.tick = true
  · simp only [if_pos threw]
    exact realizes_caught quiet (by simp only [turn, appendChunk_apply, if_pos threw])
  · simp only [if_neg threw]
    have appends : turn env context { handler, point := .consume read hr } w =
        some { point := .decide read hr, world := w.appended read, queued := [], acts := [] } := by
      simp only [turn, appendChunk_apply, if_neg threw]
    refine .step appends rfl ?_
    cases stops : stopReason env (w.appended read).rsc read hr with
    | none =>
        refine .step (t := { point := .pump, world := w.appended read, queued := [], acts := [] })
          ?_ rfl more
        simp only [turn, stops]
    | some reason =>
        refine .step (t := { point := .stop reason, world := w.appended read, queued := [], acts := [] })
          ?_ rfl ?_
        · simp only [turn, stops]
        · have pausing : (w.appended read).outstanding = none := by simpa using quiet
          have stopped : Realizes env context handler (.stop reason) (w.appended read)
              ((stopAt env context reason >>= next) (w.appended read)) :=
            realizes_stop pausing reason next returns
          rwa [bind_apply] at stopped

section Issue

variable {answer : ReadAnswer} {rest : List ReadAnswer}

theorem turn_issue_pended (async : bodyReadsAsync env = true) (next : w.reads = answer :: rest)
    (pended : answer.pended = true) :
    turn env context { handler, point := .issue } (w.published env) =
      some
        { point := .issued
          world := { w.suspended answer rest with outstanding := none }
          queued := [{ bytes := w.handedOut answer, status := answer.status }]
          acts := [.issue] } := by
  simp [turn, World.published, async, pended, readEntityBody, World.withState, next,
    World.suspended, World.handedOut]

/-- The world of a completed read, in the state in which it was issued. -/
def World.readInline (env : Env) (w : World) (answer : ReadAnswer) (rest : List ReadAnswer) : World :=
  { w.received answer rest with
    rsc := { (w.received answer rest).rsc with
      bodyReadState := (w.published env).rsc.bodyReadState } }

theorem turn_issue_inline (next : w.reads = answer :: rest)
    (inline : (bodyReadsAsync env && answer.pended) = false) :
    turn env context { handler, point := .issue } (w.published env) =
      some
        { point := .inline (w.handedOut answer).length answer.status
          world := w.readInline env answer rest
          queued := []
          acts := [.issue] } := by
  cases async : bodyReadsAsync env with
  | false =>
      simp [turn, World.published, World.readInline, async, readEntityBody, next,
        World.received, World.handedOut]
  | true =>
      have completed : answer.pended = false := by simpa [async] using inline
      simp [turn, World.published, World.readInline, async, completed, readEntityBody,
        World.withState, next, World.received, World.handedOut]

theorem turn_inline (idle : w.rsc.bodyReadState = .idle) (read : Nat) (hr : HResult) :
    turn env context { handler, point := .inline read hr } (w.readInline env answer rest) =
      some
        { point := .consume read hr
          world := w.received answer rest
          queued := []
          acts := [] } := by
  have reset : (if bodyReadsAsync env then (w.readInline env answer rest).withState .idle
      else w.readInline env answer rest) = w.received answer rest := by
    split <;> simp_all [World.readInline, World.published, World.withState, World.received]
  simp only [turn, reset]

end Issue

theorem realizes_pumpLoop (request : context.requestPresent = true)
    (idle : w.rsc.bodyReadState = .idle) (quiet : w.outstanding = none) {count : Nat}
    (answers : w.reads.length = count) :
    Realizes env context handler .pump w (pumpLoop env context count w) := by
  induction count generalizing w with
  | zero => trivial
  | succ count ih =>
      obtain ⟨answer, rest, next⟩ := List.exists_cons_of_length_eq_add_one answers
      have publishes : turn env context { handler, point := .pump } w =
          some { point := .issue, world := w.published env, queued := [], acts := [] } := by
        simp only [turn, request, ↓reduceIte]
      refine .step publishes rfl ?_
      by_cases pends : bodyReadsAsync env = true ∧ answer.pended = true
      · rw [pumpLoop_async_pended pends.1 next pends.2]
        have returns : turn env context { handler, point := .issued }
            { w.suspended answer rest with outstanding := none } = some _ := rfl
        exact Alone.step (turn_issue_pended pends.1 next pends.2) (Alone.step returns (.stay _ _))
      · have inline : (bodyReadsAsync env && answer.pended) = false := by simpa using pends
        refine .step (turn_issue_inline next inline) rfl ?_
        refine .step (turn_inline idle _ _) rfl ?_
        have loops : pumpLoop env context (count + 1) w =
            consumeThen env context count (w.handedOut answer).length answer.status
              (w.received answer rest) := by
          cases async : bodyReadsAsync env with
          | false => exact pumpLoop_sync async next count
          | true =>
              have completed : answer.pended = false := by simpa [async] using inline
              exact pumpLoop_async_inline async next completed idle count
        have more : Realizes env context handler .pump
            ((w.received answer rest).appended (w.handedOut answer).length)
            (pumpLoop env context count
              ((w.received answer rest).appended (w.handedOut answer).length)) := by
          refine ih ?_ ?_ ?_
          · simpa [World.received] using idle
          · simpa [World.received] using quiet
          · rw [next] at answers
            simpa [World.received] using answers
        rw [loops]
        have received : (w.received answer rest).outstanding = none := by
          simpa [World.received] using quiet
        refine realizes_consume received _ _ _ (fun _ => rfl) ?_
        exact more

/-- The thread that begins the read, alone, does what `PumpBodyRead` does. -/
theorem realizes_pumpBodyRead (idle : w.rsc.bodyReadState = .idle) (quiet : w.outstanding = none) :
    Realizes env context handler .pump w (pumpBodyRead env context w) := by
  rw [pumpBodyRead, bind_returned (get_apply _)]
  split
  · next request => exact realizes_pumpLoop request idle quiet rfl
  · next missing =>
      rw [bind_returned (exchangeBodyReadState_apply _ _)]
      have closes : turn env context { handler, point := .pump } w =
          some { point := .finish, world := w.withState .done, queued := [], acts := [] } := by
        simp only [turn, if_neg missing]
      exact .step closes rfl (realizes_finish quiet)

/-- `OnAsyncCompletion` is its claim and what it does with a claimed read. -/
theorem onAsyncCompletion_apply (cb : Nat) (ch : HResult) :
    onAsyncCompletion env (some context) (some (cb, ch)) w =
      match claimRead w with
      | none => .returned .rqNotificationContinue w
      | some claimed =>
          Program.tryCatch (continueRead env context cb ch) (do
            reportException env Handler.onAsyncCompletion.name
            pure .rqNotificationFinishRequest) claimed := by
  rw [onAsyncCompletion, bind_returned (get_apply _), claimRead]
  split
  · rfl
  · split <;> rfl

theorem claimRead_eq_some {claimed : World} (claim : claimRead w = some claimed) :
    claimed = w.withState .idle := by
  unfold claimRead at claim
  split at claim
  · cases claim
  · split at claim
    · exact (Option.some.inj claim).symm
    · cases claim

theorem Realizes.caught {point : Point} {program : Program World NotificationStatus}
    (realized : Realizes env context handler point w (program w)) :
    Realizes env context handler point w
      (Program.tryCatch program (do
        reportException env handler.name
        pure .rqNotificationFinishRequest) w) := by
  rw [tryCatch_apply]
  cases run : program w with
  | returned status after => rwa [run] at realized
  | halted reason after => trivial
  | thrown after =>
      rw [run] at realized
      obtain ⟨quiet, steps⟩ := realized
      obtain ⟨entries, reported⟩ : ∃ entries, reportException env handler.name after =
          .returned () { after with eventLog := entries } := ⟨_, rfl⟩
      rw [reported] at steps
      dsimp only
      rw [bind_returned reported]
      have silent : ({ after with eventLog := entries } : World).outstanding.toList = [] := by
        simp [quiet]
      simp only [pure_apply, Realizes, silent]
      have same : { after with eventLog := entries, outstanding := none } =
          { after with eventLog := entries } := by rw [← quiet]
      simpa [same] using steps

/-- The thread of a completion, alone, does what `OnAsyncCompletion` does. -/
theorem realizes_onAsyncCompletion (quiet : w.outstanding = none) (completion : Completion) :
    Realizes env context .onAsyncCompletion (.claim completion) w
      (onAsyncCompletion env (some context) (some (completion.bytes.length, completion.status)) w) := by
  rw [onAsyncCompletion_apply]
  cases claim : claimRead w with
  | none =>
      refine .step (t :=
        { point := .ended .rqNotificationContinue, world := w, queued := [], acts := [.ignoreOwn] })
        ?_ rfl (realizes_ended quiet _)
      simp only [turn, claim]
  | some claimed =>
      obtain rfl := claimRead_eq_some claim
      refine .step (t :=
        { point := .consume completion.bytes.length completion.status
          world := w.withState .idle
          queued := []
          acts := [.claimOwn] }) ?_ rfl (.caught ?_)
      · simp only [turn, claim]
      · have claimed : (w.withState .idle).outstanding = none := by
          simpa [World.withState] using quiet
        refine realizes_consume claimed _ _ _ (fun _ => rfl) (realizes_pumpBodyRead ?_ ?_)
        · simp [World.withState]
        · simpa [World.withState] using quiet

end Alone

end ModSecurityIIS
