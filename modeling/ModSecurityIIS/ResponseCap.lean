import ModSecurityIIS.FileRange

/-!
# The cap on the inspected response

How many body bytes one notification hands to the engine, and when the bytes handed out
over all notifications of a request stay within the inspection cap: the count of the
chunk loop starts anew in every notification.
-/

set_option autoImplicit false

namespace ModSecurityIIS

open Imperative Program Transition

/-- The body bytes a call hands to the engine. -/
def Event.handed : Event → Nat
  | .engine _ (.appendResponseBody body) _ => body.length
  | _ => 0

/-- The response bytes handed to the engine over the life of the request. -/
def World.handed (w : World) : Nat := weigh Event.handed w.log

/-- What there is to read of a range of a file that has `rest` bytes from its start on. -/
def rangeBytes (length rest : Nat) : Nat :=
  if length = httpByteRangeToEof then rest else min length rest

/-- The bytes of a chunk that can be inspected. -/
def DataChunk.offered : DataChunk → Nat
  | .fromMemory buffer => buffer.bytes.length
  | .fromFileHandle file start length => rangeBytes length.toNat (file.drop start.toNat).length
  | .other _ => 0

/-- The end of the range does not wrap around when it is added to an inspected count. -/
def DataChunk.Unwrapped (maxInspect : Nat) : DataChunk → Prop
  | .fromFileHandle _ _ length =>
      length.toNat = httpByteRangeToEof ∨ maxInspect + length.toNat < 2 ^ 64
  | _ => True

def SendResponse.offered (notification : SendResponse) : Nat :=
  weigh DataChunk.offered notification.response.entityChunks

theorem Ensures.handed {α : Type} {program : Program World α} {h : Nat}
    (within : Within (Frame (fun _ _ => True) fun event => event.handed = 0) program) :
    Ensures (fun w => w.handed ≤ h) program (fun _ w => w.handed ≤ h) (fun w => w.handed ≤ h) := by
  refine .of_within within fun w after start frame => ?_
  obtain ⟨events, shape, each⟩ := frame.logged
  have none : weigh Event.handed events = 0 := by
    refine List.sum_eq_zero fun count member => ?_
    obtain ⟨event, present, rfl⟩ := List.mem_map.mp member
    exact each event present
  rw [World.handed, shape, weigh_append, none]
  exact start

theorem appendResponseBody_handed (env : Env) (tx : TransactionId) (body : Bytes) (h : Nat) :
    Ensures (fun w => w.handed ≤ h) (engineCall env tx (.appendResponseBody body))
      (fun _ w => w.handed ≤ h + body.length) (fun w => w.handed ≤ h + body.length) := by
  intro w start
  have called : (w.called env tx (.appendResponseBody body)).handed = w.handed + body.length := by
    simp [World.handed, World.called, Event.handed]
  rw [engineCall_apply]
  split
  · simp only [Outcome.Satisfies, called]
    omega
  · simp only [Outcome.Satisfies, called]
    omega

/-! ## File ranges -/

theorem World.handed_eq (w : World) : w.handed = w.bodies.length := by
  have each (event : Event) : event.handed = event.body.length := by
    cases event with
    | engine tx call completed => cases call <;> rfl
    | _ => rfl
  rw [World.handed, weigh, World.bodies, List.length_flatMap, funext each]

theorem appendResponseFileChunk_handed (env : Env) (tx : TransactionId) (file : Bytes)
    (start : Nat) {length : Nat} (bounded : length ≠ httpByteRangeToEof) (h : Nat) :
    Ensures (fun w => w.handed ≤ h) (appendResponseFileChunk env tx file start length)
      (fun total w => total ≤ min length (file.drop start).length ∧ w.handed ≤ h + total)
      (fun w => w.handed ≤ h + min length (file.drop start).length) := by
  intro w within
  have streams := @appendResponseFileChunk_streams env tx file start length w
  have added {more : Nat} {after : World} (most : more ≤ min length (file.drop start).length)
      (found : after.bodies = w.bodies ++ (file.drop start).take more) :
      after.handed = w.handed + more := by
    rw [World.handed_eq, World.handed_eq, found, List.length_append, List.length_take]
    omega
  rw [fileRange_length, if_neg bounded] at streams
  generalize appendResponseFileChunk env tx file start length w = outcome at streams
  cases streams with
  | returned most found _ =>
      have count := added most found
      exact ⟨by omega, by omega⟩
  | thrown most found =>
      have count := added most found
      change _ ≤ _
      omega

/-- What the loop asks for, as long as the cap has not been passed: it stays
within the range of the chunk, and takes all of it where the cap allows. -/
theorem cappedRange_within {maxInspect respInspected length rest : Nat}
    (within : respInspected ≤ maxInspect) (small : maxInspect ≤ 0xFFFFFFFF)
    (fits : length < 2 ^ 64) :
    cappedRange maxInspect respInspected length ≠ httpByteRangeToEof ∧
      min (cappedRange maxInspect respInspected length) rest ≤ rangeBytes length rest ∧
      (respInspected + rangeBytes length rest ≤ maxInspect →
        min (cappedRange maxInspect respInspected length) rest = rangeBytes length rest) ∧
      (length = httpByteRangeToEof ∨ maxInspect + length < 2 ^ 64 →
        respInspected + min (cappedRange maxInspect respInspected length) rest ≤ maxInspect) := by
  have left : sub64 maxInspect respInspected = maxInspect - respInspected :=
    sub64_of_le within (by omega)
  unfold cappedRange rangeBytes httpByteRangeToEof at *
  rw [left]
  split
  · omega
  · by_cases wraps : respInspected + length < 2 ^ 64
    · rw [add64_of_lt wraps]
      split <;> omega
    · have around : add64 respInspected length = respInspected + length - 2 ^ 64 := by
        unfold add64
        omega
      rw [around, if_neg (by omega)]
      omega

/-- The length the loop asks for stays within what is left of the cap. -/
theorem cappedRange_bounds {maxInspect respInspected length rest : Nat}
    (within : respInspected ≤ maxInspect) (small : maxInspect ≤ 0xFFFFFFFF)
    (fits : length < 2 ^ 64)
    (bounded : (length = httpByteRangeToEof ∨ maxInspect + length < 2 ^ 64) ∨
      respInspected + rangeBytes length rest ≤ maxInspect) :
    cappedRange maxInspect respInspected length ≠ httpByteRangeToEof ∧
      respInspected + min (cappedRange maxInspect respInspected length) rest ≤ maxInspect ∧
      min (cappedRange maxInspect respInspected length) rest ≤ rangeBytes length rest := by
  obtain ⟨notEof, available, whole, unwrapped⟩ := @cappedRange_within _ _ _ rest within small fits
  refine ⟨notEof, ?_, available⟩
  rcases bounded with ends | room
  · exact unwrapped ends
  · rw [whole room]
    exact room

/-! ## The chunk loop -/

section Loop

variable {env : Env} {tx : TransactionId}

/-- The turn of a memory chunk without the 64-bit arithmetic: its sums cannot wrap. -/
theorem inspectMemory_eq (respInspected : Nat) (buffer : MemoryBuffer) :
    inspectChunk env tx respInspected (.fromMemory buffer) =
      if respInspected < getMaxInspectBodyBytes env ∧ 0 < buffer.bytes.length then do
        engineCall env tx (.appendResponseBody (buffer.bytes.take
          (min (getMaxInspectBodyBytes env - respInspected) buffer.bytes.length)))
        pure (respInspected +
          min (getMaxInspectBodyBytes env - respInspected) buffer.bytes.length)
      else pure respInspected := by
  have small := (getMaxInspectBodyBytes_bounds env).2
  have fits := buffer.bounded
  rw [inspectChunk]
  by_cases room : respInspected < getMaxInspectBodyBytes env ∧ 0 < buffer.bytes.length
  · rw [if_pos room, if_pos room]
    have sum : add64 respInspected buffer.bytes.length = respInspected + buffer.bytes.length :=
      add64_of_lt (by omega)
    have left : sub64 (getMaxInspectBodyBytes env) respInspected =
        getMaxInspectBodyBytes env - respInspected := sub64_of_le (by omega) (by omega)
    have amount : (if getMaxInspectBodyBytes env < respInspected + buffer.bytes.length then
        getMaxInspectBodyBytes env - respInspected else buffer.bytes.length) =
        min (getMaxInspectBodyBytes env - respInspected) buffer.bytes.length := by
      split <;> omega
    have total : add64 respInspected
        (min (getMaxInspectBodyBytes env - respInspected) buffer.bytes.length) =
        respInspected + min (getMaxInspectBodyBytes env - respInspected) buffer.bytes.length :=
      add64_of_lt (by omega)
    rw [sum, left, amount]
    dsimp only
    rw [total]
  · rw [if_neg room, if_neg room]

theorem inspectChunk_handed {respInspected : Nat} {chunk : DataChunk} (h : Nat)
    (within : respInspected ≤ getMaxInspectBodyBytes env)
    (bounded : chunk.Unwrapped (getMaxInspectBodyBytes env) ∨
      respInspected + chunk.offered ≤ getMaxInspectBodyBytes env) :
    Ensures (fun w => w.handed ≤ h) (inspectChunk env tx respInspected chunk)
      (fun count w => ∃ more, count = respInspected + more ∧
        count ≤ getMaxInspectBodyBytes env ∧ more ≤ chunk.offered ∧ w.handed ≤ h + more)
      (fun w => w.handed ≤
        h + min (getMaxInspectBodyBytes env - respInspected) chunk.offered) := by
  have small := (getMaxInspectBodyBytes_bounds env).2
  cases chunk with
  | other => exact .pure fun w start => ⟨0, rfl, within, Nat.zero_le _, start⟩
  | fromMemory buffer =>
      rw [inspectMemory_eq, DataChunk.offered]
      split
      · refine .bind _ (appendResponseBody_handed env tx _ h |>.consequence
          (fun _ start => start) (fun _ _ after => after) ?_) fun _ => ?_
        · intro w after
          simp only [List.length_take] at after
          omega
        · refine .pure fun w after => ⟨_, rfl, by omega, Nat.min_le_right _ _, ?_⟩
          simp only [List.length_take] at after
          omega
      · exact .pure fun w start => ⟨0, rfl, within, Nat.zero_le _, start⟩
  | fromFileHandle file start length =>
      obtain ⟨notEof, room, available⟩ :=
        cappedRange_bounds within small length.toNat_lt bounded
      rw [inspectChunk]
      split
      · refine .bind _ ((appendResponseFileChunk_handed env tx file start.toNat notEof h).consequence
          (fun _ start => start) (fun _ _ after => after) ?_) fun total => ?_
        · intro w after
          rw [DataChunk.offered]
          omega
        · refine .pure fun w after => ?_
          obtain ⟨counted, handed⟩ := after
          refine ⟨total, add64_of_lt (by omega), ?_, ?_, handed⟩
          · rw [add64_of_lt (by omega)]
            omega
          · rw [DataChunk.offered]
            omega
      · exact .pure fun w start => ⟨0, rfl, within, Nat.zero_le _, start⟩

theorem inspectLoop_handed {chunks : List DataChunk} {respInspected : Nat} (h : Nat)
    (within : respInspected ≤ getMaxInspectBodyBytes env)
    (bounded : (∀ chunk ∈ chunks, chunk.Unwrapped (getMaxInspectBodyBytes env)) ∨
      respInspected + weigh DataChunk.offered chunks ≤ getMaxInspectBodyBytes env) :
    Ensures (fun w => w.handed ≤ h) (foldEach chunks respInspected (inspectChunk env tx))
      (fun _ w => w.handed ≤
        h + min (getMaxInspectBodyBytes env - respInspected) (weigh DataChunk.offered chunks))
      (fun w => w.handed ≤
        h + min (getMaxInspectBodyBytes env - respInspected) (weigh DataChunk.offered chunks)) := by
  induction chunks generalizing respInspected h with
  | nil => exact .pure fun w start => Nat.le_add_right_of_le start
  | cons chunk rest ih =>
      rw [weigh_cons] at bounded ⊢
      have here : chunk.Unwrapped (getMaxInspectBodyBytes env) ∨
          respInspected + chunk.offered ≤ getMaxInspectBodyBytes env := by
        rcases bounded with unwrapped | fits
        · exact .inl (unwrapped chunk List.mem_cons_self)
        · exact .inr (by omega)
      refine .bind _ ((inspectChunk_handed h within here).consequence (fun _ start => start)
        (fun _ _ after => after) ?_) fun count => ?_
      · intro w after
        omega
      · intro w after
        obtain ⟨more, counted, below, offered, handed⟩ := after
        have there : (∀ chunk ∈ rest, chunk.Unwrapped (getMaxInspectBodyBytes env)) ∨
            count + weigh DataChunk.offered rest ≤ getMaxInspectBodyBytes env := by
          rcases bounded with unwrapped | fits
          · exact .inl fun later member => unwrapped later (List.mem_cons_of_mem _ member)
          · exact .inr (by omega)
        refine (ih (h + more) below there).consequence (fun _ start => start) ?_ ?_ w handed
        · intro _ w after
          omega
        · intro w after
          omega

end Loop

/-! ## One notification -/

section Notification

variable {env : Env} {context : HttpContext} {notification : SendResponse}

theorem Event.Intervenes.handed {event : Event} (intervenes : event.Intervenes) :
    event.handed = 0 := by
  cases event with
  | engine tx call completed => cases call <;> first | rfl | exact absurd intervenes id
  | _ => rfl

theorem Event.FeedsHeaders.handed {event : Event} (feeds : event.FeedsHeaders) :
    event.handed = 0 := by
  cases event with
  | engine tx call completed => cases call <;> first | rfl | exact absurd feeds id
  | _ => rfl

theorem Event.EvaluatesResponse.handed {event : Event} (evaluates : event.EvaluatesResponse) :
    event.handed = 0 := by
  cases event with
  | engine tx call completed => cases call <;> first | rfl | exact absurd evaluates id
  | _ => rfl

theorem responseChanges_any : ResponseChanges fun _ _ => True :=
  ⟨fun _ => trivial, fun _ => trivial, fun _ => trivial, fun _ => trivial⟩

theorem onSendResponse_handed {h : Nat}
    (bounded : (∀ chunk ∈ notification.response.entityChunks,
        chunk.Unwrapped (getMaxInspectBodyBytes env)) ∨
      notification.offered ≤ getMaxInspectBodyBytes env) :
    Ensures (fun w => w.handed ≤ h) (onSendResponse env context notification)
      (fun _ w => w.handed ≤ h + min (getMaxInspectBodyBytes env) notification.offered)
      (fun w => w.handed ≤ h + min (getMaxInspectBodyBytes env) notification.offered) := by
  intro w start
  by_cases inspects : w.Inspects context notification
  · obtain ⟨tx, live⟩ := Option.ne_none_iff_exists'.mp inspects.2.1
    rw [onSendResponse_of_inspects inspects live]
    have heads : Ensures (fun w => w.handed ≤ h) (headerPhase env context notification tx)
        (fun _ w => w.handed ≤ h)
        (fun w => w.handed ≤ h + min (getMaxInspectBodyBytes env) notification.offered) :=
      (Ensures.handed (headerPhase_frame (fun _ => trivial) (fun _ => trivial)
        (fun _ feeds => feeds.handed)
        env context notification tx)).consequence (fun _ start => start)
        (fun _ _ start => start) fun _ start => Nat.le_add_right_of_le start
    have inspectsChunks := @inspectLoop_handed env tx notification.response.entityChunks 0 h
      (Nat.zero_le _) (by simpa [SendResponse.offered] using bounded)
    rw [Nat.sub_zero] at inspectsChunks
    have bodies : Ensures (fun w => w.handed ≤ h) (bodyPhase env context notification tx)
        (fun _ w => w.handed ≤ h + min (getMaxInspectBodyBytes env) notification.offered)
        (fun w => w.handed ≤ h + min (getMaxInspectBodyBytes env) notification.offered) := by
      refine .bind _ inspectsChunks fun respInspected => ?_
      refine Ensures.handed (.bind (modeA_frame responseChanges_any (fun _ e => e.handed)
        env context notification respInspected) fun replaced => ?_)
      split
      · exact .pure _
      · exact .bind (modeB_frame (fun _ => trivial)
          (fun _ e => e.evaluatesResponse.handed) env context notification) fun _ => .pure _
    refine Ensures.tryCatch (.bind _ heads fun finished => ?_)
      (Ensures.handed (failSend_frame (by exact rfl) env context)) w start
    split
    · exact .pure fun w start => Nat.le_add_right_of_le start
    · exact bodies
  · rw [onSendResponse_of_not_inspects inspects]
    exact Nat.le_add_right_of_le start

end Notification

/-! ## Whole runs -/

/-- A notification that is inspected offers what is left of the cap at most; the first that
hands anything out may offer any amount, as long as no range wraps around. -/
def capCondition (process : Env) (context : HttpContext) (s : ResponseState) (raised : Raised) :
    Prop :=
  s.world.Inspects context raised.notification →
    s.world.handed + raised.notification.offered ≤ getMaxInspectBodyBytes process ∨
      (s.world.handed = 0 ∧ ∀ chunk ∈ raised.notification.response.entityChunks,
        chunk.Unwrapped (getMaxInspectBodyBytes process))

section Runs

variable {process : Env} {context : HttpContext} {s : ResponseState}

theorem getMaxInspectBodyBytes_of_same {env : Env}
    (same : env.maxInspectBodyBytes = process.maxInspectBodyBytes) :
    getMaxInspectBodyBytes env = getMaxInspectBodyBytes process := by
  unfold getMaxInspectBodyBytes requestedInspectBodyBytes
  rw [same]

theorem handed_step {raised : Raised} {next : ResponseState}
    (within : s.world.handed ≤ getMaxInspectBodyBytes process)
    (condition : capCondition process context s raised)
    (step : (responseSystem process context).step s raised next) :
    next.world.handed ≤ getMaxInspectBodyBytes process := by
  obtain ⟨same, ran⟩ := step
  have cap := getMaxInspectBodyBytes_of_same same
  rw [raiseSendResponse_apply] at ran
  by_cases inspects : s.world.Inspects context raised.notification
  · have room := condition inspects
    rw [← cap] at room within ⊢
    have bounded : (∀ chunk ∈ raised.notification.response.entityChunks,
        chunk.Unwrapped (getMaxInspectBodyBytes raised.env)) ∨
        raised.notification.offered ≤ getMaxInspectBodyBytes raised.env := by
      rcases room with fits | first
      · exact .inr (by omega)
      · exact .inl first.2
    have found : (s.world.raised raised.notification).handed ≤ s.world.handed := Nat.le_refl _
    have handed := (onSendResponse_handed bounded).returned found ran
    rcases room with fits | first
    · exact Nat.le_trans handed (by omega)
    · exact Nat.le_trans handed (by omega)
  · have passes : ¬ (s.world.raised raised.notification).Inspects context
        raised.notification := inspects
    rw [onSendResponse_of_not_inspects passes] at ran
    cases ran
    exact within

/-- In a run whose every notification meets the condition, the engine gets no more of the
response than the cap. -/
theorem response_within_cap
    (reached : (responseSystem process context).Reaches (capCondition process context) s) :
    s.world.handed ≤ getMaxInspectBodyBytes process := by
  refine reached.invariant (fun state start => ?_)
    fun _ _ _ within condition step => handed_step within condition step
  have none : state.world.handed = 0 := by
    refine List.sum_eq_zero fun count member => ?_
    obtain ⟨event, present, rfl⟩ := List.mem_map.mp member
    have silent := start.1.silent event present
    cases event with
    | engine tx call completed => cases call <;> first | rfl | exact absurd trivial silent
    | _ => rfl
  rw [none]
  exact Nat.zero_le _

end Runs

/-- A process that inspects at most three bytes of a body. -/
def Env.threeBytes : Env := { Env.calm with maxInspectBodyBytes := some (bytesOf "3") }

/-- A flush of two bytes in that process. -/
def Raised.twoBytes (moreData : Bool) : Raised where
  env := .threeBytes
  notification := .flush [.twoBytes] moreData

theorem response_within_cap_oneFlush : ∃ s : ResponseState,
    s.world.handed = 2 ∧ s.world.handed ≤ getMaxInspectBodyBytes .threeBytes := by
  have start : (responseSystem .threeBytes .plain).Reaches (capCondition .threeBytes .plain)
      { world := .begun, committed := none } := .start ⟨begun_responseStart, rfl⟩
  have fits : capCondition .threeBytes .plain { world := .begun, committed := none }
      (.twoBytes true) := fun _ => .inl (by decide +kernel)
  have flushed := start.next fits (@ResponseStep.of_value _ _ _ (.twoBytes true) .rqNotificationContinue
    rfl (by decide +kernel))
  exact ⟨_, by decide +kernel, response_within_cap flushed⟩

/-- Two flushes of two bytes each exceed a cap of three. -/
theorem response_over_cap : ∃ s : ResponseState,
    (responseSystem .threeBytes .plain).Reachable s ∧
      getMaxInspectBodyBytes .threeBytes < s.world.handed := by
  have start : (responseSystem .threeBytes .plain).Reachable
      { world := .begun, committed := none } := .start ⟨begun_responseStart, rfl⟩
  have flushed := start.step (@ResponseStep.of_value _ _ _ (.twoBytes true) .rqNotificationContinue
    rfl (by decide +kernel))
  have ended := flushed.step (@ResponseStep.of_value _ _ _ (.twoBytes false) .rqNotificationContinue
    rfl (by decide +kernel))
  exact ⟨_, ended, by decide +kernel⟩

end ModSecurityIIS
