import ModSecurityIIS.BodyBound

/-!
# Completions that come again

IIS may give the completion of an own read to `OnAsyncCompletion` once more, or late,
after it was claimed. The compare-exchange sees one state for every read: such a completion
is ignored while no read is pending, and claims the next read when one is.
-/

set_option autoImplicit false

namespace ModSecurityIIS

open Imperative Program Transition

/-! ## The system -/

/-- `issued` holds the bytes of the own reads in the order of their calls, `claimed` the
completions claimed for them, and `repeated` those that were claimed once more. -/
structure LateState where
  base : ReadState
  issued : List Bytes
  claimed : List Completion
  repeated : List Completion

def World.issuedBy (w : World) (acts : List Act) : List Bytes :=
  if .issue ∈ acts then (w.reads.head?.map w.handedOut).toList else []

def Thread.claimedBy (thread : Thread) (acts : List Act) : List Completion :=
  match thread.point with
  | .claim completion => if .claimOwn ∈ acts then [completion] else []
  | _ => []

inductive LateLabel where
  | own (label : ReadLabel)
  | late (completion : Completion)

/-- `OnAsyncCompletion` on the completion of a read that has been claimed. -/
def LateState.late (s : LateState) (completion : Completion) : LateState :=
  match claimRead s.base.world with
  | some claimed =>
      { s with
        base :=
          { s.base with
            threads := s.base.threads ++
              [{ handler := .onAsyncCompletion
                 point := .consume completion.bytes.length completion.status }]
            world := claimed }
        repeated := s.repeated ++ [completion] }
  | none => s

inductive LateStep (env : Env) (context : HttpContext) :
    LateState → LateLabel → LateState → Prop where
  | run {s : LateState} {front back : List Thread} {thread : Thread} {t : Turn} :
      s.base.threads = front ++ thread :: back → turn env context thread s.base.world = some t →
      LateStep env context s (.own (.run front.length))
        { base := s.base.after front thread back t
          issued := s.issued ++ s.base.world.issuedBy t.acts
          claimed := s.claimed ++ thread.claimedBy t.acts
          repeated := s.repeated }
  | deliver {s : LateState} {first second : List Completion} {completion : Completion} :
      s.base.queued = first ++ completion :: second →
      LateStep env context s (.own .deliver)
        { s with base := s.base.delivered first second completion }
  | foreign {s : LateState} {completion : Completion} :
      s.base.verdict ≠ none →
      LateStep env context s (.own (.foreign completion))
        { s with base := s.base.foreign completion }
  | later {s : LateState} {call : LaterCall} :
      s.base.verdict ≠ none →
      LateStep env context s (.own (.later call))
        { s with base :=
            { s.base with world := (call.run env context s.base.world).state } }
  | late {s : LateState} {completion : Completion} :
      completion ∈ s.claimed → LateStep env context s (.late completion) (s.late completion)

def lateSystem (env : Env) (context : HttpContext) : System LateState LateLabel where
  initial s := (bodySystem env context).initial s.base ∧
    s.issued = [] ∧ s.claimed = [] ∧ s.repeated = []
  step := LateStep env context

/-- A completion comes late only while no read is pending. -/
def LateState.ComesSettled (s : LateState) : LateLabel → Prop
  | .own _ => True
  | .late _ => s.base.world.rsc.bodyReadState ≠ .readPending

theorem LateState.comesSettled_own (s : LateState) (label : ReadLabel) :
    s.ComesSettled (.own label) := trivial

theorem LateState.comesSettled_late {s : LateState}
    (idle : s.base.world.rsc.bodyReadState = .idle) (completion : Completion) :
    s.ComesSettled (.late completion) := by
  simp [LateState.ComesSettled, idle]

/-! ## What the completions are to leave in the body -/

/-- `bytes` are those of the read issued last, and the body those of every read before. -/
def InHand (issued : List Bytes) (body bytes : Bytes) : Prop :=
  ∃ consumed, issued = consumed ++ [bytes] ∧ body = consumed.flatten

/-- The body is made of the own reads, each once, and a completion stands for the read
that is outstanding. -/
structure LateState.Exact (s : LateState) : Prop where
  unrepeated : s.repeated = []
  whole : ∃ consumed rest, s.issued = consumed ++ rest ∧ rest.length ≤ 1 ∧
    s.base.world.rsc.body = consumed.flatten
  inspected : .finish ∈ s.base.history → s.base.world.rsc.body = s.issued.flatten
  current : ∀ thread ∈ s.base.threads, ∀ completion, thread.point = .claim completion →
    InHand s.issued s.base.world.rsc.body completion.bytes
  appends : ∀ thread ∈ s.base.threads, ∀ read hr, thread.point = .consume read hr →
    InHand s.issued s.base.world.rsc.body (s.base.world.rsc.readBuf.take read)

/-! ## The invariant -/

/-- What a thread at this point knows of the body. -/
def Point.Holds (issued : List Bytes) (rsc : RequestStoredContext) : Point → Prop
  | .inline read _ => InHand issued rsc.body (rsc.readBuf.take read)
  | .claim completion =>
      InHand issued rsc.body completion.bytes ∧
        rsc.readBuf.take completion.bytes.length = completion.bytes
  | .consume read _ => InHand issued rsc.body (rsc.readBuf.take read)
  | .issued => True
  | .ended _ => True
  | _ => rsc.body = issued.flatten

structure LateState.Inv (env : Env) (s : LateState) : Prop where
  base : s.base.Inv env
  unrepeated : s.repeated = []
  whole : ∃ consumed rest, s.issued = consumed ++ rest ∧ rest.length ≤ 1 ∧
    s.base.world.rsc.body = consumed.flatten
  inspected : .finish ∈ s.base.history → s.base.world.rsc.body = s.issued.flatten
  points : ∀ thread ∈ s.base.threads, thread.point.Holds s.issued s.base.world.rsc
  queued : ∀ completion ∈ s.base.queued,
    InHand s.issued s.base.world.rsc.body completion.bytes

theorem InHand.whole {issued : List Bytes} {body bytes : Bytes} (hand : InHand issued body bytes) :
    ∃ consumed rest, issued = consumed ++ rest ∧ rest.length ≤ 1 ∧ body = consumed.flatten := by
  obtain ⟨consumed, split, same⟩ := hand
  exact ⟨consumed, [bytes], split, by simp, same⟩

theorem InHand.appended {issued : List Bytes} {body bytes : Bytes}
    (hand : InHand issued body bytes) : body ++ bytes = issued.flatten := by
  obtain ⟨consumed, rfl, rfl⟩ := hand
  simp

theorem whole_of_flatten {issued : List Bytes} {body : Bytes} (same : body = issued.flatten) :
    ∃ consumed rest, issued = consumed ++ rest ∧ rest.length ≤ 1 ∧ body = consumed.flatten :=
  ⟨issued, [], by simp, by simp, same⟩

theorem inHand_issued {issued : List Bytes} {body : Bytes} (same : body = issued.flatten)
    (bytes : Bytes) : InHand (issued ++ [bytes]) body bytes :=
  ⟨issued, rfl, same⟩

theorem take_writeBuffer (buffer bytes : Bytes) :
    (writeBuffer buffer bytes).take bytes.length = bytes := by
  simp [writeBuffer]

theorem Point.Holds.of_spent {issued : List Bytes} {rsc : RequestStoredContext} {thread : Thread}
    (spent : thread.token = 0) : thread.point.Holds issued rsc := by
  obtain ⟨handler, point⟩ := thread
  cases point with
  | issued => trivial
  | ended status => trivial
  | _ => cases spent

theorem Point.Holds.congr {issued : List Bytes} {point : Point} {rsc other : RequestStoredContext}
    (holds : point.Holds issued rsc) (same : SameBody rsc other) : point.Holds issued other := by
  unfold Point.Holds
  rw [same.body, same.buffer]
  exact holds

structure TurnExact (issued : List Bytes) (point : Point) (after : World)
    (queued : List Completion) (acts : List Act) : Prop where
  whole : ∃ consumed rest, issued = consumed ++ rest ∧ rest.length ≤ 1 ∧
    after.rsc.body = consumed.flatten
  inspected : .finish ∈ acts → after.rsc.body = issued.flatten
  point : point.Holds issued after.rsc
  queued : ∀ completion ∈ queued, InHand issued after.rsc.body completion.bytes

theorem bodyTurn_exact {env : Env} {w after : World} {point next : Point}
    {queued : List Completion} {acts : List Act} {issued : List Bytes}
    (step : BodyTurn env w point next after queued acts) (holds : point.Holds issued w.rsc) :
    TurnExact (issued ++ w.issuedBy acts) next after queued acts := by
  have silent (w : World) {acts : List Act} (none : .issue ∉ acts) :
      issued ++ w.issuedBy acts = issued := by simp [World.issuedBy, none]
  cases step with
  | published same =>
      have kept : after.rsc.body = issued.flatten := same.body.trans holds
      rw [silent w (by simp)]
      exact ⟨whole_of_flatten kept, by simp, kept, by simp⟩
  | abandoned same =>
      have kept : after.rsc.body = issued.flatten := same.body.trans holds
      rw [silent w (by simp)]
      exact ⟨whole_of_flatten kept, by simp, kept, by simp⟩
  | @pended after answer rest next same =>
      have kept : after.rsc.body = issued.flatten := same.body.trans holds
      have hand := inHand_issued kept (w.handedOut answer)
      have given : w.issuedBy [.issue] = [w.handedOut answer] := by simp [World.issuedBy, next]
      rw [given]
      refine ⟨hand.whole, by simp, trivial, ?_⟩
      intro completion member
      obtain rfl := List.mem_singleton.mp member
      exact hand
  | @answered after answer rest next body buffer =>
      have kept : after.rsc.body = issued.flatten := body.trans holds
      have hand := inHand_issued kept (w.handedOut answer)
      have given : w.issuedBy [.issue] = [w.handedOut answer] := by simp [World.issuedBy, next]
      rw [given]
      refine ⟨hand.whole, by simp, ?_, by simp⟩
      rw [Point.Holds, buffer, take_writeBuffer]
      exact hand
  | @reset read hr after same =>
      have hand : InHand issued after.rsc.body (after.rsc.readBuf.take read) := by
        rw [same.body, same.buffer]
        exact holds
      rw [silent w (by simp)]
      exact ⟨hand.whole, by simp, hand, by simp⟩
  | @claimed completion after same =>
      have hand : InHand issued after.rsc.body
          (after.rsc.readBuf.take completion.bytes.length) := by
        rw [same.body, same.buffer, holds.2]
        exact holds.1
      rw [silent w (by simp)]
      exact ⟨hand.whole, by simp, hand, by simp⟩
  | @appended read hr after grown =>
      have hand : InHand issued w.rsc.body (w.rsc.readBuf.take read) := holds
      have kept : after.rsc.body = issued.flatten := grown.trans hand.appended
      rw [silent w (by simp)]
      exact ⟨whole_of_flatten kept, by simp, kept, by simp⟩
  | @threw read hr after same =>
      have hand : InHand issued after.rsc.body (after.rsc.readBuf.take read) := by
        rw [same.body, same.buffer]
        exact holds
      rw [silent w (by simp)]
      exact ⟨hand.whole, by simp, trivial, by simp⟩
  | continued goes =>
      rw [silent w (by simp)]
      exact ⟨whole_of_flatten holds, by simp, holds, by simp⟩
  | @stopped read hr reason stops =>
      rw [silent w (by simp)]
      exact ⟨whole_of_flatten holds, by simp, holds, by simp⟩
  | settled same =>
      have kept : after.rsc.body = issued.flatten := same.body.trans holds
      rw [silent w (by simp)]
      exact ⟨whole_of_flatten kept, by simp, kept, by simp⟩
  | finished same =>
      have kept : after.rsc.body = issued.flatten := same.body.trans holds
      rw [silent w (by simp)]
      exact ⟨whole_of_flatten kept, fun _ => kept, trivial, by simp⟩

section Steps

variable {env : Env} {context : HttpContext} {s : LateState}

theorem lateInv_initial (start : (lateSystem env context).initial s) : s.Inv env := by
  obtain ⟨⟨initial, empty⟩, issued, -, repeated⟩ := start
  have base := inv_initial initial
  obtain ⟨-, shape⟩ := initial
  have kept : s.base.world.rsc.body = s.issued.flatten := by rw [empty, issued]; rfl
  refine ⟨base, repeated, whole_of_flatten kept, fun _ => kept, ?_, ?_⟩
  · rw [shape]
    intro thread member
    obtain rfl := List.mem_singleton.mp member
    exact kept
  · rw [shape]
    simp

theorem lateInv_run (inv : s.Inv env) {front back : List Thread} {thread : Thread} {t : Turn}
    (pool : s.base.threads = front ++ thread :: back)
    (took : turn env context thread s.base.world = some t) :
    LateState.Inv env
      { base := s.base.after front thread back t
        issued := s.issued ++ s.base.world.issuedBy t.acts
        claimed := s.claimed ++ thread.claimedBy t.acts
        repeated := s.repeated } := by
  have base : (s.base.after front thread back t).Inv env :=
    inv_step inv.base (.run pool took)
  have present : thread ∈ s.base.threads := by simp [pool]
  rcases Thread.token_eq thread with spent | holds
  · obtain ⟨-, rfl⟩ := turn_of_spent took spent
    have given : s.issued ++ s.base.world.issuedBy [] = s.issued := by simp [World.issuedBy]
    refine ⟨base, inv.unrepeated, ?_, ?_, ?_, ?_⟩
    · simpa only [given, ReadState.after] using inv.whole
    · simpa [given, ReadState.after] using inv.inspected
    · simp only [given]
      refine forall_stepped (fun other beside => ?_) trivial
      exact inv.points other (mem_of_beside pool beside)
    · simpa [given, ReadState.after] using inv.queued
  · obtain ⟨empty, alone⟩ := holder_alone inv.base pool holds
    have held := tokens_pos present holds
    have step := turn_bodyTurn took holds (inv.base.fits thread present) (inv.base.tracked held)
    have left := bodyTurn_exact step (inv.points thread present)
    refine ⟨base, inv.unrepeated, left.whole, ?_, ?_, ?_⟩
    · intro finished
      rcases List.mem_append.mp finished with before | now
      · exact absurd before (List.count_eq_zero.mp alone.unfinished)
      · exact left.inspected now
    · refine forall_stepped (fun other beside => ?_) left.point
      exact .of_spent (alone.others other beside)
    · intro completion member
      exact left.queued completion (by simpa [ReadState.after, empty] using member)

theorem lateInv_deliver (inv : s.Inv env) {first second : List Completion}
    {completion : Completion} (queue : s.base.queued = first ++ completion :: second) :
    LateState.Inv env { s with base := s.base.delivered first second completion } := by
  obtain ⟨⟨rfl, rfl⟩, alone⟩ := queued_alone inv.base queue
  refine ⟨inv_deliver inv.base queue, inv.unrepeated, inv.whole, inv.inspected, ?_,
    by simp [ReadState.delivered]⟩
  refine forall_stepped (fun other beside => .of_spent (alone.others other beside)) ?_
  exact ⟨inv.queued completion (by simp [queue]), take_writeBuffer _ _⟩

theorem lateInv_foreign (inv : s.Inv env) (decided : s.base.verdict ≠ none)
    (completion : Completion) : LateState.Inv env { s with base := s.base.foreign completion } := by
  have base := inv_foreign inv.base decided completion
  have none : s.base.tokens = 0 := inv.base.settled decided
  rw [ReadState.foreign, claimRead_eq_none (inv.base.free none)] at base ⊢
  exact ⟨base, inv.unrepeated, inv.whole, by simpa using inv.inspected, inv.points, inv.queued⟩

theorem lateInv_later (inv : s.Inv env) (decided : s.base.verdict ≠ none) (call : LaterCall) :
    LateState.Inv env
      { s with base := { s.base with world := (call.run env context s.base.world).state } } := by
  have same := laterCall_sameBody env context call s.base.world
  refine ⟨inv_later inv.base decided call, inv.unrepeated, ?_, ?_, ?_, ?_⟩
  · simpa only [same.body] using inv.whole
  · simpa only [same.body] using inv.inspected
  · intro thread member
    exact (inv.points thread member).congr same
  · simpa only [same.body] using inv.queued

theorem lateInv_step {label : LateLabel} {next : LateState} (inv : s.Inv env)
    (settled : s.ComesSettled label) (step : LateStep env context s label next) : next.Inv env := by
  cases step with
  | run pool took => exact lateInv_run inv pool took
  | deliver queue => exact lateInv_deliver inv queue
  | foreign decided => exact lateInv_foreign inv decided _
  | later decided => exact lateInv_later inv decided _
  | late again =>
      -- with no read pending the compare-exchange fails, and nothing happens
      rw [LateState.late, claimRead_eq_none settled]
      exact inv

theorem exact_of_lateInv (inv : s.Inv env) : s.Exact where
  unrepeated := inv.unrepeated
  whole := inv.whole
  inspected := inv.inspected
  current thread member completion point := by
    have holds := inv.points thread member
    rw [point] at holds
    exact holds.1
  appends thread member read hr point := by
    have holds := inv.points thread member
    rw [point] at holds
    exact holds

/-- While completions come late only when no read is pending, they are inert. -/
theorem late_completions_inert
    (reached : (lateSystem env context).Reaches LateState.ComesSettled s) : s.Exact := by
  have inv : s.Inv env :=
    reached.invariant (fun _ start => lateInv_initial start)
      fun _ _ _ inv settled step => lateInv_step inv settled step
  exact exact_of_lateInv inv

end Steps

section Runs

/-- A request with a body of two bytes, each of them a read that pends. -/
private def begun : LateState where
  base :=
    { threads := [{ handler := .onBeginRequest, point := .pump }]
      queued := []
      world :=
        { tracked with
          reads :=
            [{ count := 1, status := .sOk, pended := true },
             { count := 1, status := .sOk, pended := true }] }
      verdict := none
      history := [] }
  issued := []
  claimed := []
  repeated := []

private theorem begun_reaches (guard : LateState → LateLabel → Prop) :
    (lateSystem .calm .plain).Reaches guard begun := by
  have ready : Ready begun.base.world := ⟨rfl, by decide, rfl, rfl⟩
  exact .start ⟨⟨⟨ready, rfl⟩, rfl⟩, rfl, rfl, rfl⟩

private def waiting : Thread := { handler := .onBeginRequest, point := .issued }

private def firstByte : Completion := { bytes := [104], status := .sOk }

/-- The completion of the first read comes again before the next read is issued. -/
theorem late_completions_inert_settled : ∃ s : LateState,
    s.claimed = [firstByte] ∧ s.base.world.rsc.body = [104] ∧ s.Exact := by
  have began := begun_reaches LateState.ComesSettled
  have published := began.next (LateState.comesSettled_own _ _) (@LateStep.run _ _ _ [] [] _ _ rfl rfl)
  have queued := published.next (LateState.comesSettled_own _ _) (@LateStep.run _ _ _ [] [] _ _ rfl rfl)
  have delivered := queued.next (LateState.comesSettled_own _ _) (@LateStep.deliver _ _ _ [] [] _ rfl)
  have claimed := delivered.next (LateState.comesSettled_own _ _) (@LateStep.run _ _ _ [waiting] [] _ _ rfl rfl)
  have appended := claimed.next (LateState.comesSettled_own _ _) (@LateStep.run _ _ _ [waiting] [] _ _ rfl rfl)
  have again := appended.next (LateState.comesSettled_late rfl firstByte) (.late (.head _))
  exact ⟨_, rfl, rfl, late_completions_inert again⟩

/-- The completion of the first read comes again while the second read is pending, and
its byte is appended twice. -/
theorem late_completion_appended : ∃ s : LateState,
    (lateSystem .calm .plain).Reachable s ∧ s.issued = [[104], [105]] ∧
      s.base.world.rsc.body = [104, 104] ∧ s.repeated = [firstByte] ∧ ¬ s.Exact := by
  have began := begun_reaches fun _ _ => True
  have published := began.next trivial (@LateStep.run _ _ _ [] [] _ _ rfl rfl)
  have queued := published.next trivial (@LateStep.run _ _ _ [] [] _ _ rfl rfl)
  have delivered := queued.next trivial (@LateStep.deliver _ _ _ [] [] _ rfl)
  have claimed := delivered.next trivial (@LateStep.run _ _ _ [waiting] [] _ _ rfl rfl)
  have appended := claimed.next trivial (@LateStep.run _ _ _ [waiting] [] _ _ rfl rfl)
  have continued := appended.next trivial (@LateStep.run _ _ _ [waiting] [] _ _ rfl rfl)
  have publishedNext := continued.next trivial (@LateStep.run _ _ _ [waiting] [] _ _ rfl rfl)
  have queuedNext := publishedNext.next trivial (@LateStep.run _ _ _ [waiting] [] _ _ rfl rfl)
  have again := queuedNext.next trivial (@LateStep.late _ _ _ firstByte (.head _))
  let chained : Thread := { handler := .onAsyncCompletion, point := .issued }
  let repeating : Thread := { handler := .onAsyncCompletion, point := .consume 1 .sOk }
  have twice := again.next trivial
    (@LateStep.run _ _ _ [waiting, chained] [] repeating _ rfl rfl)
  refine ⟨_, twice, rfl, rfl, rfl, ?_⟩
  intro right
  exact absurd right.unrepeated (by decide)

end Runs

end ModSecurityIIS
