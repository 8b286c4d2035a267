import ModSecurityIIS.BodyFraming
import ModSecurityIIS.ClaimProtocol

/-!
# Properties of the claim protocol

What each step of a thread can do, the invariant that follows, and the guarantees of
the protocol in every reachable state.
-/

set_option autoImplicit false

namespace ModSecurityIIS

open Imperative Program Transition

/-! ## What a step can do -/

/-- One more read or one more pass may come from a thread at this point. -/
def Point.token : Point → Nat
  | .issued => 0
  | .ended _ => 0
  | _ => 1

def Thread.token (thread : Thread) : Nat := thread.point.token

/-- The state a thread at this point relies on. -/
def Point.Fits (async : Bool) (state : BodyReadState) : Point → Prop
  | .issue => state = .readPending ↔ async = true
  | .inline _ _ => state = .readPending ↔ async = true
  | .claim _ => state = .readPending
  | .issued => True
  | .ended _ => True
  | _ => state ≠ .readPending

/-- The request has its stored context and its transaction. -/
def World.Tracked (w : World) : Prop := w.stored = true ∧ w.rsc.tx ≠ none

/-- What a step of a thread with the token gives: the token is kept, handed to the
queue or spent, and the shared state fits whoever has it next. -/
structure Turn.Sound (async : Bool) (t : Turn) : Prop where
  token : t.point.token + t.queued.length + t.acts.count .finish ≤ 1
  fits : t.point.Fits async t.world.rsc.bodyReadState
  awaited : t.queued ≠ [] → t.world.rsc.bodyReadState = .readPending
  free : t.point.token + t.queued.length = 0 → t.world.rsc.bodyReadState ≠ .readPending
  tracked : 0 < t.point.token + t.queued.length → t.world.Tracked
  settled : t.point.verdict ≠ none → t.point.token + t.queued.length = 0
  single : t.acts.length ≤ 1
  claimed : .ignoreOwn ∉ t.acts ∧ .claimForeign ∉ t.acts

theorem laterCall_quietly {keeps : RequestStoredContext → RequestStoredContext → Prop}
    [IsPreorder RequestStoredContext keeps] (changes : ResponseChanges keeps) (env : Env)
    (context : HttpContext) (call : LaterCall) : Within (Quietly keeps) (call.run env context) := by
  cases call with
  | sendResponse notification =>
      refine .bind (quietly_of_frame ?_) fun _ => .pure _
      exact raiseSendResponse_frame changes (fun _ _ => trivial) env context notification
  | cleanup =>
      refine .bind .get fun w => .when fun _ => .bind (quietly_of_frame ?_) fun _ => ?_
      · exact finishRequest_frame env changes.released fun _ _ => trivial
      · exact fun _ => ⟨refl_of keeps _, rfl⟩

theorem laterCall_sameState (env : Env) (context : HttpContext) (call : LaterCall) :
    Within SameState (call.run env context) := by
  have changes : ResponseChanges fun a b => b.bodyReadState = a.bodyReadState :=
    ⟨fun _ => rfl, fun _ => rfl, fun _ => rfl, fun _ => rfl⟩
  exact (laterCall_quietly changes env context call).mono
    fun _ _ quiet => ⟨quiet.context, quiet.outstanding⟩

theorem claimRead_of_pending {w : World} (tracked : w.Tracked)
    (pending : w.rsc.bodyReadState = .readPending) : claimRead w = some (w.withState .idle) := by
  simp [claimRead, tracked.1, tracked.2, pending]

theorem claimRead_eq_none {w : World} (settled : w.rsc.bodyReadState ≠ .readPending) :
    claimRead w = none := by
  simp [claimRead, settled]

/-- A thread without the token has seen its read pend, and only returns. -/
theorem turn_of_spent {env : Env} {context : HttpContext} {thread : Thread} {w : World}
    {t : Turn} (took : turn env context thread w = some t) (spent : thread.token = 0) :
    thread.point = .issued ∧
      t = { point := .ended .rqNotificationPending, world := w, queued := [], acts := [] } := by
  obtain ⟨handler, point⟩ := thread
  cases point with
  | issued => exact ⟨rfl, (Option.some.inj took).symm⟩
  | ended status => cases took
  | _ => cases spent

section Turns

variable {env : Env} {context : HttpContext} {handler : Handler} {w : World} {t : Turn}

theorem Turn.Sound.step {async : Bool} {point : Point} {world : World} {acts : List Act}
    (holds : point.token = 1) (fits : point.Fits async world.rsc.bodyReadState)
    (tracked : world.Tracked) (open_ : point.verdict = none) (unfinished : .finish ∉ acts)
    (single : acts.length ≤ 1) (claimed : .ignoreOwn ∉ acts ∧ .claimForeign ∉ acts) :
    Turn.Sound async { point, world, queued := [], acts } where
  token := by simp [holds, List.count_eq_zero.mpr unfinished]
  fits := fits
  awaited none := absurd rfl none
  free none := by simp [holds] at none
  tracked _ := tracked
  settled ended := absurd open_ ended
  single := single
  claimed := claimed

theorem Turn.Sound.last {async : Bool} {status : NotificationStatus} {world : World}
    {acts : List Act} (settled : world.rsc.bodyReadState ≠ .readPending)
    (once : acts = [] ∨ acts = [.finish]) :
    Turn.Sound async { point := .ended status, world, queued := [], acts } where
  token := by rcases once with rfl | rfl <;> simp [Point.token]
  fits := trivial
  awaited none := absurd rfl none
  free _ := settled
  tracked held := by simp [Point.token] at held
  settled _ := rfl
  single := by rcases once with rfl | rfl <;> simp
  claimed := by rcases once with rfl | rfl <;> simp

theorem pump_sound (took : turn env context ⟨handler, .pump⟩ w = some t)
    (fits : w.rsc.bodyReadState ≠ .readPending) (tracked : w.Tracked) :
    t.Sound (bodyReadsAsync env) := by
  simp only [turn] at took
  split at took
  · obtain rfl := Option.some.inj took
    refine .step rfl ?_ ?_ rfl (by simp) (by simp) (by simp)
    · cases async : bodyReadsAsync env with
      | true => simp [Point.Fits, World.published, World.withState, async]
      | false => simpa [Point.Fits, World.published, async] using fits
    · unfold World.published
      split <;> exact tracked
  · obtain rfl := Option.some.inj took
    exact .step rfl (by simp [Point.Fits, World.withState]) tracked rfl (by simp) (by simp) (by simp)

theorem issue_sound (took : turn env context ⟨handler, .issue⟩ w = some t)
    (fits : w.rsc.bodyReadState = .readPending ↔ bodyReadsAsync env = true)
    (tracked : w.Tracked) : t.Sound (bodyReadsAsync env) := by
  cases next : w.reads with
  | nil => simp [turn, readEntityBody, next] at took
  | cons answer rest =>
      by_cases pends : bodyReadsAsync env = true ∧ answer.pended = true
      · simp only [turn, readEntityBody, next, pends.1, pends.2, Bool.and_self, ↓reduceIte,
          Option.toList_some] at took
        obtain rfl := Option.some.inj took
        have pending := fits.mpr pends.1
        exact
          { token := by simp [Point.token]
            fits := trivial
            awaited := fun _ => pending
            free := fun none => by simp [Point.token] at none
            tracked := fun _ => tracked
            settled := fun ended => absurd rfl ended
            single := by simp
            claimed := by simp }
      · have inline : (bodyReadsAsync env && answer.pended) = false := by simpa using pends
        simp only [turn, readEntityBody, next, inline, Bool.false_eq_true, ↓reduceIte,
          Bool.and_false] at took
        obtain rfl := Option.some.inj took
        exact .step rfl fits tracked rfl (by simp) (by simp) (by simp)

theorem inline_sound {read : Nat} {hr : HResult}
    (took : turn env context ⟨handler, .inline read hr⟩ w = some t)
    (fits : w.rsc.bodyReadState = .readPending ↔ bodyReadsAsync env = true)
    (tracked : w.Tracked) : t.Sound (bodyReadsAsync env) := by
  obtain rfl := Option.some.inj took
  refine .step rfl ?_ ?_ rfl (by simp) (by simp) (by simp)
  · cases async : bodyReadsAsync env with
    | true => simp [Point.Fits, World.withState]
    | false => simpa [Point.Fits, async] using fits
  · split <;> exact tracked

theorem claim_sound {completion : Completion}
    (took : turn env context ⟨handler, .claim completion⟩ w = some t)
    (pending : w.rsc.bodyReadState = .readPending) (tracked : w.Tracked) :
    t.Sound (bodyReadsAsync env) := by
  simp only [turn, claimRead_of_pending tracked pending] at took
  obtain rfl := Option.some.inj took
  exact .step rfl (by simp [Point.Fits, World.withState]) tracked rfl (by simp) (by simp) (by simp)

theorem caught_sound {async : Bool} (settled : w.rsc.bodyReadState ≠ .readPending) :
    (Turn.caught env handler w).Sound async :=
  .last settled (.inl rfl)

theorem consume_sound {read : Nat} {hr : HResult}
    (took : turn env context ⟨handler, .consume read hr⟩ w = some t)
    (settled : w.rsc.bodyReadState ≠ .readPending) (tracked : w.Tracked) :
    t.Sound (bodyReadsAsync env) := by
  simp only [turn, appendChunk_apply] at took
  by_cases threw : 0 < read ∧ env.throws w.tick = true
  · simp only [if_pos threw] at took
    obtain rfl := Option.some.inj took
    exact caught_sound settled
  · simp only [if_neg threw] at took
    obtain rfl := Option.some.inj took
    refine .step rfl ?_ ?_ rfl (by simp) (by simp) (by simp)
    · simpa [Point.Fits] using settled
    · simpa [World.Tracked] using tracked

theorem decide_sound {read : Nat} {hr : HResult}
    (took : turn env context ⟨handler, .decide read hr⟩ w = some t)
    (settled : w.rsc.bodyReadState ≠ .readPending) (tracked : w.Tracked) :
    t.Sound (bodyReadsAsync env) := by
  simp only [turn] at took
  split at took
  · obtain rfl := Option.some.inj took
    exact .step rfl settled tracked rfl (by simp) (by simp) (by simp)
  · obtain rfl := Option.some.inj took
    exact .step rfl settled tracked rfl (by simp) (by simp) (by simp)

theorem stop_sound {reason : StopReason}
    (took : turn env context ⟨handler, .stop reason⟩ w = some t) (tracked : w.Tracked) :
    t.Sound (bodyReadsAsync env) := by
  obtain rfl := Option.some.inj took
  refine .step rfl (by simp [Point.Fits, World.withState]) ?_ rfl (by simp) (by simp) (by simp)
  obtain ⟨logged, entries, applied⟩ := warnCap_apply (decide (reason = .inspectionCapReached)) w
  rw [applied]
  exact tracked

theorem finish_sound (took : turn env context ⟨handler, .finish⟩ w = some t)
    (settled : w.rsc.bodyReadState ≠ .readPending) : t.Sound (bodyReadsAsync env) := by
  have kept := finishBodyRead_sameState env context w
  simp only [turn] at took
  cases ran : finishBodyRead env context w with
  | returned status after =>
      rw [ran] at took kept
      obtain rfl := Option.some.inj took
      exact .last (kept.state.trans_ne settled) (.inr rfl)
  | thrown after =>
      rw [ran] at took kept
      obtain rfl := Option.some.inj took
      exact .last (kept.state.trans_ne settled) (.inr rfl)
  | halted reason after => rw [ran] at took; cases took

theorem turn_sound {thread : Thread} (took : turn env context thread w = some t)
    (holds : thread.token = 1) (fits : thread.point.Fits (bodyReadsAsync env) w.rsc.bodyReadState)
    (tracked : w.Tracked) : t.Sound (bodyReadsAsync env) := by
  obtain ⟨handler, point⟩ := thread
  cases point with
  | pump => exact pump_sound took fits tracked
  | issue => exact issue_sound took fits tracked
  | issued => cases holds
  | inline read hr => exact inline_sound took fits tracked
  | claim completion => exact claim_sound took fits tracked
  | consume read hr => exact consume_sound took fits tracked
  | decide read hr => exact decide_sound took fits tracked
  | stop reason => exact stop_sound took tracked
  | finish => exact finish_sound took fits
  | ended status => cases holds

end Turns

/-! ## The invariant -/

def ReadState.tokens (s : ReadState) : Nat := weigh Thread.token s.threads + s.queued.length

/-- There is one token at most, a finished request has none, and the shared state says
whether a read is under way. -/
structure ReadState.Inv (env : Env) (s : ReadState) : Prop where
  token : s.tokens + s.history.count .finish ≤ 1
  fits : ∀ thread ∈ s.threads,
    thread.point.Fits (bodyReadsAsync env) s.world.rsc.bodyReadState
  awaited : s.queued ≠ [] → s.world.rsc.bodyReadState = .readPending
  free : s.tokens = 0 → s.world.rsc.bodyReadState ≠ .readPending
  tracked : 0 < s.tokens → s.world.Tracked
  settled : s.verdict ≠ none → s.tokens = 0
  claimed : .ignoreOwn ∉ s.history ∧ .claimForeign ∉ s.history
  ordered : s.history.Pairwise fun earlier later => earlier = .finish → later ≠ .issue

theorem pairwise_of_length_le_one {α : Type} {relation : α → α → Prop} {items : List α}
    (short : items.length ≤ 1) : items.Pairwise relation := by
  match items, short with
  | [], _ => exact .nil
  | [item], _ => exact List.pairwise_singleton _ item

theorem Thread.token_eq (thread : Thread) : thread.token = 0 ∨ thread.token = 1 := by
  obtain ⟨handler, point⟩ := thread
  cases point <;> first | exact .inl rfl | exact .inr rfl

theorem Point.Fits.of_spent {async : Bool} {state : BodyReadState} {thread : Thread}
    (spent : thread.token = 0) : thread.point.Fits async state := by
  obtain ⟨handler, point⟩ := thread
  cases point with
  | issued => trivial
  | ended status => trivial
  | _ => cases spent

section Steps

variable {env : Env} {context : HttpContext} {s : ReadState}

theorem inv_initial (start : (readSystem env context).initial s) : s.Inv env := by
  obtain ⟨ready, shape⟩ := start
  generalize s.world = world at ready shape
  subst shape
  exact
    { token := by simp [ReadState.tokens, Thread.token, Point.token]
      fits := by simp [Point.Fits, ready.idle]
      awaited := fun none => absurd rfl none
      free := fun none => by simp [ReadState.tokens, Thread.token, Point.token] at none
      tracked := fun _ => ⟨ready.stored, ready.live⟩
      settled := fun ended => absurd rfl ended
      claimed := by simp
      ordered := .nil }

/-- Nothing else is under way: every other thread has seen its read pend. -/
structure ReadState.Alone (s : ReadState) (front back : List Thread) : Prop where
  others : ∀ other, other ∈ front ∨ other ∈ back → other.token = 0
  unfinished : s.history.count .finish = 0
  undecided : s.verdict = none

theorem undecided_of_tokens (inv : s.Inv env) (held : 0 < s.tokens) : s.verdict = none := by
  by_contra decided
  have none := inv.settled decided
  omega

theorem tokens_pos {thread : Thread} (member : thread ∈ s.threads) (holds : thread.token = 1) :
    0 < s.tokens := by
  have weight := weight_le_weigh Thread.token member
  rw [ReadState.tokens]
  omega

theorem holder_alone (inv : s.Inv env) {front back : List Thread} {thread : Thread}
    (pool : s.threads = front ++ thread :: back) (holds : thread.token = 1) :
    s.queued = [] ∧ s.Alone front back := by
  have token := inv.token
  simp only [ReadState.tokens, pool, weigh_append, weigh_cons, holds] at token
  have held : 0 < s.tokens := tokens_pos (by simp [pool]) holds
  refine ⟨List.length_eq_zero_iff.mp (by omega), ?_, by omega, undecided_of_tokens inv held⟩
  intro other member
  have weight : other.token ≤ weigh Thread.token front + weigh Thread.token back := by
    rcases member with early | late
    · exact Nat.le_trans (weight_le_weigh _ early) (Nat.le_add_right _ _)
    · exact Nat.le_trans (weight_le_weigh _ late) (Nat.le_add_left _ _)
  omega

/-- The only read that pends: every thread has seen its read pend. -/
theorem queued_alone (inv : s.Inv env) {first second : List Completion} {completion : Completion}
    (queue : s.queued = first ++ completion :: second) :
    (first = [] ∧ second = []) ∧ s.Alone s.threads [] := by
  have token := inv.token
  have held : 0 < s.tokens := by
    simp only [ReadState.tokens, queue, List.length_append, List.length_cons]
    omega
  simp only [ReadState.tokens, queue, List.length_append, List.length_cons] at token
  refine ⟨⟨List.length_eq_zero_iff.mp (by omega), List.length_eq_zero_iff.mp (by omega)⟩,
    ?_, by omega, undecided_of_tokens inv held⟩
  intro other member
  have weight : other.token ≤ weigh Thread.token s.threads :=
    weight_le_weigh _ (by simpa using member)
  omega

/-- The thread with the token steps. -/
theorem inv_run_holder (inv : s.Inv env) {front back : List Thread} {thread : Thread} {t : Turn}
    (pool : s.threads = front ++ thread :: back)
    (took : turn env context thread s.world = some t) (holds : thread.token = 1) :
    (s.after front thread back t).Inv env := by
  obtain ⟨empty, others, unfinished, undecided⟩ := holder_alone inv pool holds
  have held : 0 < s.tokens := tokens_pos (by simp [pool]) holds
  have sound : t.Sound (bodyReadsAsync env) :=
    turn_sound took holds (inv.fits thread (by simp [pool])) (inv.tracked held)
  have tokens : (s.after front thread back t).tokens = t.point.token + t.queued.length := by
    have rest : ({ thread with point := t.point } : Thread).token = t.point.token := rfl
    simp only [ReadState.tokens, ReadState.after, weigh_append, weigh_cons, rest, empty,
      List.nil_append, weigh_eq_zero _ fun other early => others other (.inl early),
      weigh_eq_zero _ fun other late => others other (.inr late)]
    omega
  have acts := sound.token
  constructor
  · rw [tokens]
    simp only [ReadState.after, List.count_append, unfinished]
    omega
  · refine forall_stepped (fun other beside => ?_) sound.fits
    exact .of_spent (others other beside)
  · simpa [ReadState.after, empty] using sound.awaited
  · rw [tokens]
    exact sound.free
  · rw [tokens]
    exact sound.tracked
  · rw [tokens]
    simpa [ReadState.after, undecided] using sound.settled
  · simp [ReadState.after, inv.claimed, sound.claimed]
  · refine List.pairwise_append.mpr ⟨inv.ordered, ?_, ?_⟩
    · exact pairwise_of_length_le_one sound.single
    · intro earlier member _ _ finished
      exact absurd (finished ▸ member) (List.count_eq_zero.mp unfinished)

theorem inv_run_spent (inv : s.Inv env) {front back : List Thread} {thread : Thread} {t : Turn}
    (pool : s.threads = front ++ thread :: back)
    (took : turn env context thread s.world = some t) (spent : thread.token = 0) :
    (s.after front thread back t).Inv env := by
  obtain ⟨issued, rfl⟩ := turn_of_spent took spent
  have tokens : (s.after front thread back
      { point := .ended .rqNotificationPending, world := s.world, queued := [], acts := [] }).tokens =
      s.tokens := by
    have returned : ({ thread with point := .ended .rqNotificationPending } : Thread).token = 0 := rfl
    simp only [ReadState.tokens, ReadState.after, pool, weigh_append, weigh_cons, spent, returned,
      List.append_nil]
  constructor
  · rw [tokens]
    simpa [ReadState.after] using inv.token
  · refine forall_stepped (fun other beside => ?_) trivial
    exact inv.fits other (mem_of_beside pool beside)
  · simpa [ReadState.after] using inv.awaited
  · rw [tokens]
    exact inv.free
  · rw [tokens]
    exact inv.tracked
  · rw [tokens]
    simpa [ReadState.after, Point.verdict] using inv.settled
  · simpa [ReadState.after] using inv.claimed
  · simpa [ReadState.after] using inv.ordered

/-- The queued read takes its token to the thread that gets its completion. -/
theorem inv_deliver (inv : s.Inv env) {first second : List Completion} {completion : Completion}
    (queue : s.queued = first ++ completion :: second) :
    (s.delivered first second completion).Inv env := by
  have pending : s.world.rsc.bodyReadState = .readPending := inv.awaited (by simp [queue])
  have tokens : (s.delivered first second completion).tokens = s.tokens := by
    simp only [ReadState.tokens, ReadState.delivered, weigh_append, weigh_cons, weigh_nil,
      Thread.token, Point.token, queue, List.length_append, List.length_cons]
    omega
  constructor
  · rw [tokens]
    exact inv.token
  · exact forall_started inv.fits pending
  · exact fun _ => pending
  · rw [tokens]
    exact inv.free
  · rw [tokens]
    exact inv.tracked
  · rw [tokens]
    exact inv.settled
  · exact inv.claimed
  · exact inv.ordered

/-- Once the notification is over no read is pending, so nothing is claimed. -/
theorem inv_foreign (inv : s.Inv env) (decided : s.verdict ≠ none) (completion : Completion) :
    (s.foreign completion).Inv env := by
  have none : s.tokens = 0 := inv.settled decided
  rw [ReadState.foreign, claimRead_eq_none (inv.free none)]
  exact
    { token := by simpa [ReadState.tokens] using inv.token
      fits := inv.fits
      awaited := inv.awaited
      free := inv.free
      tracked := inv.tracked
      settled := inv.settled
      claimed := by simp [inv.claimed]
      ordered := by
        refine List.pairwise_append.mpr ⟨inv.ordered, by simp, ?_⟩
        intro _ _ later member _ issued
        simp [issued] at member }

theorem inv_later (inv : s.Inv env) (decided : s.verdict ≠ none) (call : LaterCall) :
    ReadState.Inv env { s with world := (call.run env context s.world).state } := by
  have none : s.tokens = 0 := inv.settled decided
  have same : (call.run env context s.world).state.rsc.bodyReadState =
      s.world.rsc.bodyReadState := (laterCall_sameState env context call s.world).state
  exact
    { token := inv.token
      fits := by
        intro thread member
        rw [same]
        exact inv.fits thread member
      awaited := by
        intro queue
        rw [same]
        exact inv.awaited queue
      free := by
        intro settled
        rw [same]
        exact inv.free settled
      tracked := fun held => absurd none (Nat.pos_iff_ne_zero.mp held)
      settled := inv.settled
      claimed := inv.claimed
      ordered := inv.ordered }

theorem inv_step {label : ReadLabel} {next : ReadState} (inv : s.Inv env)
    (step : ReadStep env context s label next) : next.Inv env := by
  cases step with
  | run pool took =>
      rcases Thread.token_eq _ with spent | holds
      · exact inv_run_spent inv pool took spent
      · exact inv_run_holder inv pool took holds
  | deliver queue => exact inv_deliver inv queue
  | foreign decided => exact inv_foreign inv decided _
  | later decided => exact inv_later inv decided _

theorem inv_of_reachable (reached : (readSystem env context).Reachable s) : s.Inv env :=
  reached.invariant (fun _ start => inv_initial start) fun _ _ _ inv step => inv_step inv step

/-! ## The guarantees -/

/-- The own reads IIS has not yet given to `OnAsyncCompletion`'s claim. -/
def Point.outstanding : Point → Nat
  | .claim _ => 1
  | _ => 0

def ReadState.outstanding (s : ReadState) : Nat :=
  s.queued.length + weigh (fun thread => thread.point.outstanding) s.threads

/-- The thread has seen its read pend. -/
def Point.SawPending (point : Point) : Prop :=
  point = .issued ∨ point = .ended .rqNotificationPending

/-- What the module relies on: one own read at a time, every own completion claimed and
no other, and one body phase after the last read. -/
structure ReadState.Protocol (env : Env) (context : HttpContext) (s : ReadState) : Prop where
  oneRead : s.outstanding ≤ 1
  claimable : ∀ thread ∈ s.threads, ∀ completion, thread.point = .claim completion →
    s.world.rsc.bodyReadState = .readPending ∧ claimRead s.world = some (s.world.withState .idle)
  noneIgnored : .ignoreOwn ∉ s.history
  noForeign : .claimForeign ∉ s.history
  passive : ∀ thread ∈ s.threads, thread.point.SawPending → ∀ t,
    turn env context thread s.world = some t →
      t = { point := .ended .rqNotificationPending, world := s.world, queued := [], acts := [] }
  finishedOnce : s.history.count .finish ≤ 1
  readsFirst : ∀ before after, s.history = before ++ .finish :: after → .issue ∉ after

theorem outstanding_le_tokens : s.outstanding ≤ s.tokens := by
  have each (thread : Thread) : thread.point.outstanding ≤ thread.token := by
    obtain ⟨handler, point⟩ := thread
    cases point <;> simp [Point.outstanding, Thread.token, Point.token]
  have lighter := weigh_mono each s.threads
  simp only [ReadState.outstanding, ReadState.tokens]
  omega

theorem token_pos_of_claim {thread : Thread} {completion : Completion} (member : thread ∈ s.threads)
    (point : thread.point = .claim completion) : 0 < s.tokens :=
  tokens_pos member (by simp [Thread.token, point, Point.token])

/-- The claim protocol holds in every reachable state. -/
theorem async_claim_protocol (reached : (readSystem env context).Reachable s) :
    s.Protocol env context := by
  have inv := inv_of_reachable reached
  have token := inv.token
  constructor
  · exact Nat.le_trans outstanding_le_tokens (by omega)
  · intro thread member completion point
    have pending := inv.fits thread member
    rw [point] at pending
    have tracked := inv.tracked (token_pos_of_claim member point)
    exact ⟨pending, claimRead_of_pending tracked pending⟩
  · exact inv.claimed.1
  · exact inv.claimed.2
  · intro thread member saw t took
    have spent : thread.token = 0 := by
      rcases saw with issued | pended
      · simp [Thread.token, issued, Point.token]
      · simp [Thread.token, pended, Point.token]
    exact (turn_of_spent took spent).2
  · omega
  · intro before after shape issued
    have ordered := inv.ordered
    rw [shape] at ordered
    have later := (List.pairwise_append.mp ordered).2.1
    exact (List.pairwise_cons.mp later).1 _ issued rfl rfl

end Steps

/-- The completion is delivered before the call that queued its read has returned. -/
theorem async_claim_protocol_interrupted : ∃ s : ReadState,
    s.threads.map Thread.point = [.issued, .claim { bytes := [104], status := .sOk }] ∧
      s.outstanding = 1 ∧ s.Protocol .calm .plain := by
  have ready : Ready tracked := ⟨rfl, by decide, rfl, rfl⟩
  have began : (readSystem .calm .plain).Reachable
      { threads := [{ handler := .onBeginRequest, point := .pump }]
        queued := []
        world := tracked
        verdict := none
        history := [] } := .start ⟨ready, rfl⟩
  have published := began.step (@ReadStep.run _ _ _ [] [] _ _ rfl rfl)
  have queued := published.step (@ReadStep.run _ _ _ [] [] _ _ rfl rfl)
  have delivered := queued.step (@ReadStep.deliver _ _ _ [] [] _ rfl)
  exact ⟨_, rfl, rfl, async_claim_protocol delivered⟩

end ModSecurityIIS
