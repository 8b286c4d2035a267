import ModSecurityIIS.FileRange
import ModSecurityIIS.ResponseCap

/-!
# The prefix one notification inspects

The chunk loop hands the first bytes of the response to the engine, up to the cap, as
long as no length of a file range wraps around when it is added to the running count.
-/

set_option autoImplicit false

namespace ModSecurityIIS

open Imperative Program

/-- The bytes of a chunk that can be inspected; file ranges are cut at the end of the file. -/
def DataChunk.content : DataChunk → Bytes
  | .fromMemory buffer => buffer.bytes
  | .fromFileHandle file start length => fileRange file start.toNat length.toNat
  | .other _ => []

/-- The size of a file is a signed 64-bit number. -/
def DataChunk.Small : DataChunk → Prop
  | .fromFileHandle file _ _ => file.length < 2 ^ 63
  | _ => True

/-- No sum and no difference of the turn wraps around. -/
def DataChunk.Exact (maxInspect respInspected : Nat) : DataChunk → Prop
  | .fromMemory buffer =>
      respInspected < maxInspect → respInspected + buffer.bytes.length < 2 ^ 64
  | .fromFileHandle _ _ length =>
      if length.toNat = httpByteRangeToEof then respInspected ≤ maxInspect
      else respInspected + length.toNat < 2 ^ 64 ∧
        (maxInspect < respInspected + length.toNat → respInspected ≤ maxInspect)
  | .other _ => True

/-- Every turn starts within the cap, computes exactly and only adds to the count. -/
inductive LoopExact (env : Env) (tx : TransactionId) : World → Nat → List DataChunk → Prop where
  | nil {w : World} {respInspected : Nat} :
      respInspected ≤ getMaxInspectBodyBytes env → LoopExact env tx w respInspected []
  | cons {w after : World} {respInspected next : Nat} {chunk : DataChunk} {rest : List DataChunk} :
      respInspected ≤ getMaxInspectBodyBytes env →
      chunk.Exact (getMaxInspectBodyBytes env) respInspected →
      inspectChunk env tx respInspected chunk w = .returned next after → respInspected ≤ next →
      LoopExact env tx after next rest → LoopExact env tx w respInspected (chunk :: rest)

/-- The end of a range, counted from what was inspected before it, is a 64-bit number. -/
def DataChunk.Fits (respInspected : Nat) : DataChunk → Prop
  | .fromFileHandle _ _ length =>
      length.toNat = httpByteRangeToEof ∨ respInspected + length.toNat < 2 ^ 64
  | _ => True

/-- The same for all chunks of a list; `before` bytes were offered ahead of it. -/
def RangesFit (maxInspect : Nat) : Nat → List DataChunk → Prop
  | _, [] => True
  | before, chunk :: rest =>
      chunk.Fits (min maxInspect before) ∧ RangesFit maxInspect (before + chunk.content.length) rest

/-! ## One turn -/

section Turn

variable {env : Env} {tx : TransactionId} {respInspected : Nat} {chunk : DataChunk}

theorem exact_iff_fits (within : respInspected ≤ getMaxInspectBodyBytes env) :
    chunk.Exact (getMaxInspectBodyBytes env) respInspected ↔ chunk.Fits respInspected := by
  have small := (getMaxInspectBodyBytes_bounds env).2
  cases chunk with
  | fromMemory buffer =>
      have bounded := buffer.bounded
      simp only [DataChunk.Exact, DataChunk.Fits, iff_true]
      omega
  | fromFileHandle file start length =>
      simp only [DataChunk.Exact, DataChunk.Fits]
      split
      · next toEof => exact ⟨fun _ => .inl toEof, fun _ => within⟩
      · next bounded =>
          constructor
          · exact fun both => .inr both.1
          · rintro (toEof | fits)
            · exact absurd toEof bounded
            · exact ⟨fits, fun _ => within⟩
  | other length => exact Iff.rfl

/-- The end of a turn: it has handed out as much of its chunk as the cap leaves room for,
or a part of that when the engine threw. -/
inductive TurnEnds (maxInspect respInspected : Nat) (chunk : DataChunk) (w : World) :
    Outcome World Nat → Prop where
  | returned {after : World} :
      after.bodies = w.bodies ++ chunk.content.take (maxInspect - respInspected) →
      TurnEnds maxInspect respInspected chunk w
        (.returned (respInspected + min (maxInspect - respInspected) chunk.content.length) after)
  | thrown {after : World} {count : Nat} :
      count ≤ maxInspect - respInspected → after.bodies = w.bodies ++ chunk.content.take count →
      TurnEnds maxInspect respInspected chunk w (.thrown after)

theorem TurnEnds.nothing {maxInspect : Nat} {w : World}
    (full : min (maxInspect - respInspected) chunk.content.length = 0) :
    TurnEnds maxInspect respInspected chunk w (.returned respInspected w) := by
  have ends := @TurnEnds.returned maxInspect respInspected chunk w w
  rw [full, Nat.add_zero] at ends
  apply ends
  have empty : chunk.content.take (maxInspect - respInspected) = [] := by
    apply List.eq_nil_of_length_eq_zero
    rw [List.length_take, full]
  rw [empty, List.append_nil]

theorem inspectMemory_turn {buffer : MemoryBuffer} (w : World)
    (within : respInspected ≤ getMaxInspectBodyBytes env) :
    TurnEnds (getMaxInspectBodyBytes env) respInspected (.fromMemory buffer) w
      (inspectChunk env tx respInspected (.fromMemory buffer) w) := by
  rw [inspectMemory_eq]
  by_cases room : respInspected < getMaxInspectBodyBytes env ∧ 0 < buffer.bytes.length
  · rw [if_pos room, bind_apply, engineCall_apply]
    have bodies := @called_bodies env tx
      (buffer.bytes.take (min (getMaxInspectBodyBytes env - respInspected) buffer.bytes.length)) w
    by_cases threw : env.throws w.tick = true
    · rw [if_pos threw]
      exact .thrown (Nat.min_le_left _ _) bodies
    · rw [if_neg threw]
      refine .returned ?_
      rw [bodies]
      exact congrArg _ List.take_eq_take_min.symm
  · rw [if_neg room, pure_apply]
    refine .nothing ?_
    simp only [DataChunk.content]
    omega

theorem fileRange_capped {maxInspect : Nat} {file : Bytes} {start length : Nat}
    (within : respInspected ≤ maxInspect) (small : maxInspect ≤ 0xFFFFFFFF)
    (fits : length = httpByteRangeToEof ∨ respInspected + length < 2 ^ 64) :
    cappedRange maxInspect respInspected length ≠ httpByteRangeToEof ∧
      fileRange file start (cappedRange maxInspect respInspected length) =
        (fileRange file start length).take (maxInspect - respInspected) := by
  have left : sub64 maxInspect respInspected = maxInspect - respInspected :=
    sub64_of_le within (by omega)
  have below : length < 2 ^ 64 := by
    unfold httpByteRangeToEof at fits
    omega
  have bounded := (@cappedRange_within maxInspect respInspected length 0 within small below).1
  refine ⟨bounded, ?_⟩
  rw [fileRange, if_neg bounded, fileRange]
  unfold cappedRange
  rw [left]
  split
  · rfl
  · next partial_ =>
      have sum := fits.resolve_left partial_
      rw [add64_of_lt sum, List.take_take]
      congr 1
      split <;> omega

theorem inspectFile_turn {file : Bytes} {start length : UInt64} (w : World)
    (within : respInspected ≤ getMaxInspectBodyBytes env)
    (fits : length.toNat = httpByteRangeToEof ∨ respInspected + length.toNat < 2 ^ 64)
    (small : file.length < 2 ^ 63) (opens : ∀ tick, env.succeeds tick = true)
    (reads : env.ReadsOn) :
    TurnEnds (getMaxInspectBodyBytes env) respInspected (.fromFileHandle file start length) w
      (inspectChunk env tx respInspected (.fromFileHandle file start length) w) := by
  have cap := (getMaxInspectBodyBytes_bounds env).2
  obtain ⟨bounded, range⟩ := @fileRange_capped respInspected (getMaxInspectBodyBytes env) file
    start.toNat length.toNat within cap fits
  have count : (fileRange file start.toNat
      (cappedRange (getMaxInspectBodyBytes env) respInspected length.toNat)).length =
      min (getMaxInspectBodyBytes env - respInspected)
        (DataChunk.fromFileHandle file start length).content.length := by
    rw [range, List.length_take]
    rfl
  rw [inspectChunk]
  by_cases wanted : 0 < cappedRange (getMaxInspectBodyBytes env) respInspected length.toNat
  · rw [if_pos wanted, bind_apply]
    have streams := @appendResponseFileChunk_streams env tx file start.toNat
      (cappedRange (getMaxInspectBodyBytes env) respInspected length.toNat) w
    have handed (more : Nat) (most : more ≤ (fileRange file start.toNat
        (cappedRange (getMaxInspectBodyBytes env) respInspected length.toNat)).length) :
        (file.drop start.toNat).take more =
          (DataChunk.fromFileHandle file start length).content.take more := by
      have front := (take_prefix_fileRange most).trans (range ▸ List.take_prefix _ _)
      have size : ((file.drop start.toNat).take more).length = more := by
        rw [fileRange_length] at most
        rw [List.length_take]
        omega
      have same := List.prefix_iff_eq_take.mp front
      rw [size] at same
      exact same
    generalize appendResponseFileChunk env tx file start.toNat
      (cappedRange (getMaxInspectBodyBytes env) respInspected length.toNat) w = outcome at streams
    cases streams with
    | returned most found complete =>
        have all := complete.mpr (reads.streams small (opens _) (opens _) fun _ => opens _)
        dsimp only
        rw [Nat.zero_add, pure_apply, all, count, add64_of_lt (by omega)]
        refine .returned ?_
        rw [found, handed _ most, all, count]
        exact congrArg _ List.take_eq_take_min.symm
    | thrown most found =>
        rw [handed _ most] at found
        rw [count] at most
        exact .thrown (Nat.le_trans most (Nat.min_le_left _ _)) found
  · rw [if_neg wanted, pure_apply]
    refine .nothing ?_
    rw [← count, fileRange_length, if_neg bounded]
    omega

theorem inspectChunk_turn (w : World) (within : respInspected ≤ getMaxInspectBodyBytes env)
    (fits : chunk.Fits respInspected) (small : chunk.Small)
    (opens : ∀ tick, env.succeeds tick = true) (reads : env.ReadsOn) :
    TurnEnds (getMaxInspectBodyBytes env) respInspected chunk w
      (inspectChunk env tx respInspected chunk w) := by
  cases chunk with
  | fromMemory buffer => exact inspectMemory_turn w within
  | fromFileHandle file start length => exact inspectFile_turn w within fits small opens reads
  | other length => exact .nothing (Nat.min_zero _)

end Turn

/-! ## The loop -/

section Loop

variable {env : Env} {tx : TransactionId}

def inspectable (chunks : List DataChunk) : Bytes := chunks.flatMap DataChunk.content

theorem inspectable_cons (chunk : DataChunk) (rest : List DataChunk) :
    inspectable (chunk :: rest) = chunk.content ++ inspectable rest := rfl

/-- The end of the loop after `before` bytes: it has handed out as many bytes of its chunks
as the cap leaves room for, or fewer when the engine threw. -/
inductive LoopEnds (maxInspect before : Nat) (chunks : List DataChunk) (w : World) :
    Outcome World Nat → Prop where
  | returned {total : Nat} {after : World} :
      after.bodies = w.bodies ++ (inspectable chunks).take (maxInspect - before) →
      total = min maxInspect (before + (inspectable chunks).length) →
      LoopEnds maxInspect before chunks w (.returned total after)
  | thrown {after : World} {count : Nat} :
      count ≤ maxInspect - before → after.bodies = w.bodies ++ (inspectable chunks).take count →
      LoopEnds maxInspect before chunks w (.thrown after)

theorem LoopEnds.turn {maxInspect before : Nat} {chunk : DataChunk} {rest : List DataChunk}
    {w middle : World} {outcome : Outcome World Nat}
    (bodies : middle.bodies = w.bodies ++ chunk.content.take (maxInspect - before))
    (ends : LoopEnds maxInspect (before + chunk.content.length) rest middle outcome) :
    LoopEnds maxInspect before (chunk :: rest) w outcome := by
  have joined (count : Nat) (room : maxInspect - before ≤ chunk.content.length → count = 0) :
      w.bodies ++ chunk.content.take (maxInspect - before) ++ (inspectable rest).take count =
        w.bodies ++ (inspectable (chunk :: rest)).take
          (min (maxInspect - before) chunk.content.length + count) := by
    rw [List.append_assoc, inspectable_cons, List.take_append]
    by_cases full : maxInspect - before ≤ chunk.content.length
    · rw [room full, List.take_zero, Nat.add_zero, Nat.min_eq_left full]
      rw [Nat.sub_eq_zero_of_le full, List.take_zero]
    · have wide : chunk.content.length ≤ maxInspect - before := by omega
      rw [Nat.min_eq_right wide, List.take_of_length_le wide,
        List.take_of_length_le (Nat.le_add_right chunk.content.length count),
        Nat.add_sub_cancel_left]
  cases ends with
  | returned found counted =>
      refine .returned ?_ ?_
      · rw [bodies, joined _ (by omega)] at found
        rw [found]
        congr 2
        omega
      · rw [counted, inspectable_cons, List.length_append]
        omega
  | @thrown _ count most found =>
      rw [bodies, joined count (by omega)] at found
      exact .thrown (by omega) found

theorem inspectLoop_ends {chunks : List DataChunk} {before : Nat} (w : World)
    (fits : RangesFit (getMaxInspectBodyBytes env) before chunks)
    (small : ∀ chunk ∈ chunks, chunk.Small) (opens : ∀ tick, env.succeeds tick = true)
    (reads : env.ReadsOn) :
    LoopEnds (getMaxInspectBodyBytes env) before chunks w
      (foldEach chunks (min (getMaxInspectBodyBytes env) before) (inspectChunk env tx) w) := by
  induction chunks generalizing before w with
  | nil =>
      refine .returned ?_ rfl
      rw [inspectable, List.flatMap_nil, List.take_nil, List.append_nil]
  | cons chunk rest ih =>
      have ends := @inspectChunk_turn env tx _ chunk w (Nat.min_le_left _ before) fits.1
        (small chunk List.mem_cons_self) opens reads
      rw [foldEach, bind_apply]
      generalize inspectChunk env tx (min (getMaxInspectBodyBytes env) before) chunk w = outcome
        at ends
      cases ends with
      | returned bodies =>
          rw [show getMaxInspectBodyBytes env - min (getMaxInspectBodyBytes env) before =
            getMaxInspectBodyBytes env - before by omega] at *
          have next : min (getMaxInspectBodyBytes env) before +
              min (getMaxInspectBodyBytes env - before) chunk.content.length =
              min (getMaxInspectBodyBytes env) (before + chunk.content.length) := by
            omega
          dsimp only
          rw [next]
          exact .turn bodies (ih _ fits.2 fun later member =>
            small later (List.mem_cons_of_mem _ member))
      | @thrown _ count most bodies =>
          refine @LoopEnds.thrown _ _ _ _ _ (min count chunk.content.length) (by omega) ?_
          rw [bodies, inspectable_cons, List.take_append_of_le_length (by omega)]
          exact congrArg _ List.take_eq_take_min

/-- A loop that ran to its end computed exactly if its ranges fit. -/
theorem loopExact_of_fits {chunks : List DataChunk} {before total : Nat} {w after : World}
    (fits : RangesFit (getMaxInspectBodyBytes env) before chunks)
    (small : ∀ chunk ∈ chunks, chunk.Small) (opens : ∀ tick, env.succeeds tick = true)
    (reads : env.ReadsOn)
    (ran : foldEach chunks (min (getMaxInspectBodyBytes env) before) (inspectChunk env tx) w =
      .returned total after) :
    LoopExact env tx w (min (getMaxInspectBodyBytes env) before) chunks := by
  induction chunks generalizing before w with
  | nil => exact .nil (Nat.min_le_left _ _)
  | cons chunk rest ih =>
      have within := Nat.min_le_left (getMaxInspectBodyBytes env) before
      have ends := @inspectChunk_turn env tx _ chunk w within fits.1
        (small chunk List.mem_cons_self) opens reads
      rw [foldEach] at ran
      obtain ⟨next, middle, turned, later⟩ := bind_eq_returned ran
      rw [turned] at ends
      cases ends with
      | returned bodies =>
          refine .cons within ((exact_iff_fits within).mpr fits.1) turned
            (Nat.le_add_right _ _) ?_
          rw [show min (getMaxInspectBodyBytes env) before +
            min (getMaxInspectBodyBytes env - min (getMaxInspectBodyBytes env) before)
              chunk.content.length =
            min (getMaxInspectBodyBytes env) (before + chunk.content.length) by omega] at later ⊢
          exact ih fits.2 (fun other member => small other (List.mem_cons_of_mem _ member)) later

theorem fits_of_loopExact {chunks : List DataChunk} {before respInspected : Nat} {w : World}
    (small : ∀ chunk ∈ chunks, chunk.Small) (opens : ∀ tick, env.succeeds tick = true)
    (reads : env.ReadsOn) (exact_ : LoopExact env tx w respInspected chunks)
    (count : respInspected = min (getMaxInspectBodyBytes env) before) :
    RangesFit (getMaxInspectBodyBytes env) before chunks := by
  induction exact_ generalizing before with
  | nil within => trivial
  | @cons w after respInspected next chunk rest within computes turned grows later ih =>
      have fits := (exact_iff_fits within).mp computes
      have ends := @inspectChunk_turn env tx _ chunk w within fits
        (small chunk List.mem_cons_self) opens reads
      rw [turned] at ends
      subst count
      refine ⟨fits, ?_⟩
      cases ends with
      | returned bodies =>
          exact ih (fun other member => small other (List.mem_cons_of_mem _ member)) (by omega)

end Loop

/-! ## One notification -/

theorem Event.body_eq_nil {event : Event} (none : event.handed = 0) : event.body = [] := by
  cases event with
  | engine tx call completed =>
      cases call with
      | appendResponseBody body => exact List.eq_nil_of_length_eq_zero none
      | _ => rfl
  | _ => rfl

theorem bodies_of_frame {α : Type} {program : Program World α}
    (within : Within (Frame (fun _ _ => True) fun event => event.handed = 0) program) (w : World) :
    (program w).state.bodies = w.bodies := by
  obtain ⟨events, shape, each⟩ := (within w).logged
  have nothing : events.flatMap Event.body = [] :=
    List.flatMap_eq_nil_iff.mpr fun event member => Event.body_eq_nil (each event member)
  rw [World.bodies, shape, List.flatMap_append, nothing, List.append_nil]
  rfl

section Notification

variable {env : Env} {context : HttpContext} {notification : SendResponse} {tx : TransactionId}
  {w middle : World}

/-- The notification gets to its chunk loop, which starts in the state `middle`. -/
structure ReachesLoop (env : Env) (context : HttpContext) (notification : SendResponse)
    (tx : TransactionId) (w middle : World) : Prop where
  inspects : w.Inspects context notification
  live : w.rsc.tx = some tx
  heads : headerPhase env context notification tx w = .returned false middle

theorem ReachesLoop.bodies (reaches : ReachesLoop env context notification tx w middle) :
    middle.bodies = w.bodies := by
  have same := bodies_of_frame (headerPhase_frame (fun _ => trivial) (fun _ => trivial)
    (fun _ feeds => feeds.handed) env context notification tx) w
  rw [reaches.heads] at same
  exact same

theorem ReachesLoop.apply (reaches : ReachesLoop env context notification tx w middle) :
    onSendResponse env context notification w =
      Program.tryCatch (bodyPhase env context notification tx) (failSend env context) middle := by
  rw [onSendResponse_of_inspects reaches.inspects reaches.live, tryCatch_apply, tryCatch_apply,
    inspectSend, bind_returned reaches.heads]
  rfl

theorem ReachesLoop.after_loop (reaches : ReachesLoop env context notification tx w middle)
    {total : Nat} {looped : World}
    (ran : inspectChunks env tx notification.response.entityChunks middle =
      .returned total looped) :
    (onSendResponse env context notification w).state.bodies = looped.bodies := by
  have judges : Within (Frame (fun _ _ => True) fun event => event.handed = 0) (do
      let replaced ← modeA env context notification total
      if replaced then pure NotificationStatus.rqNotificationFinishRequest
      else do
        modeB env context notification
        pure NotificationStatus.rqNotificationContinue) := by
    refine .bind (modeA_frame responseChanges_any (fun _ e => e.handed)
      env context notification total) fun replaced => ?_
    split
    · exact .pure _
    · exact .bind (modeB_frame (fun _ => trivial)
        (fun _ e => e.evaluatesResponse.handed) env context notification) fun _ => .pure _
  have same := bodies_of_frame (.tryCatch judges (failSend_frame (by exact rfl) env context)) looped
  rw [reaches.apply, tryCatch_apply, bodyPhase, bind_returned ran]
  rw [tryCatch_apply] at same
  exact same

theorem ReachesLoop.after_throw (reaches : ReachesLoop env context notification tx w middle)
    {looped : World}
    (ran : inspectChunks env tx notification.response.entityChunks middle = .thrown looped) :
    (onSendResponse env context notification w).state.bodies = looped.bodies := by
  rw [reaches.apply, tryCatch_apply, bodyPhase, bind_thrown ran]
  exact bodies_of_frame (failSend_frame (by exact rfl) env context) looped

/-- The notification inspects exactly the capped prefix of its chunks. -/
structure InspectsPrefix (env : Env) (context : HttpContext) (notification : SendResponse)
    (tx : TransactionId) (w middle : World) : Prop where
  handed : (onSendResponse env context notification w).state.bodies =
    w.bodies ++ (inspectable notification.response.entityChunks).take (getMaxInspectBodyBytes env)
  computes : LoopExact env tx middle 0 notification.response.entityChunks

/-- A notification whose chunk loop comes to its end inspects exactly the capped prefix when
no range wraps around; where the engine throws in the loop, it has got a part of it. -/
theorem inspected_prefix_iff (reaches : ReachesLoop env context notification tx w middle)
    (small : ∀ chunk ∈ notification.response.entityChunks, chunk.Small)
    (opens : ∀ tick, env.succeeds tick = true) (reads : env.ReadsOn) :
    (∀ total looped,
      inspectChunks env tx notification.response.entityChunks middle = .returned total looped →
        (InspectsPrefix env context notification tx w middle ↔
          RangesFit (getMaxInspectBodyBytes env) 0 notification.response.entityChunks)) ∧
    (∀ looped, inspectChunks env tx notification.response.entityChunks middle = .thrown looped →
      RangesFit (getMaxInspectBodyBytes env) 0 notification.response.entityChunks →
        ∃ count ≤ getMaxInspectBodyBytes env,
          (onSendResponse env context notification w).state.bodies =
            w.bodies ++ (inspectable notification.response.entityChunks).take count) := by
  have start : inspectChunks env tx notification.response.entityChunks =
      foldEach notification.response.entityChunks (min (getMaxInspectBodyBytes env) 0)
        (inspectChunk env tx) := by
    rw [Nat.min_zero]
    rfl
  constructor
  · intro total looped ran
    constructor
    · intro inspects
      exact fits_of_loopExact small opens reads inspects.computes (Nat.min_zero _).symm
    · intro fits
      have ends := @inspectLoop_ends env tx _ 0 middle fits small opens reads
      have computes := @loopExact_of_fits env tx _ 0 total middle looped fits small opens reads
        (start ▸ ran)
      rw [Nat.min_zero] at computes
      rw [← start, ran] at ends
      refine ⟨?_, computes⟩
      cases ends with
      | returned found counted => rw [reaches.after_loop ran, found, reaches.bodies, Nat.sub_zero]
  · intro looped ran fits
    have ends := @inspectLoop_ends env tx _ 0 middle fits small opens reads
    rw [← start, ran] at ends
    cases ends with
    | @thrown _ count most found =>
        refine ⟨count, most, ?_⟩
        rw [reaches.after_throw ran, found, reaches.bodies]

end Notification

theorem inspected_prefix_iff_twoBytes : ∃ middle,
    InspectsPrefix .calm .plain (.flush [.twoBytes] false) 0 .begun middle := by
  obtain ⟨middle, heads⟩ := Outcome.exists_returned
    (show (headerPhase .calm .plain (.flush [.twoBytes] false) 0 .begun).value = some false by
      decide +kernel)
  have reaches : ReachesLoop .calm .plain (.flush [.twoBytes] false) 0 .begun middle :=
    ⟨⟨rfl, by decide, rfl, rfl⟩, rfl, heads⟩
  have inspects := inspected_prefix_iff reaches (by rintro chunk (_ | ⟨_, none⟩) <;> trivial)
    (fun _ => rfl) fun _ => ⟨65536, rfl, by decide⟩
  exact ⟨middle, (inspects.1 _ _ rfl).mpr ⟨trivial, trivial⟩⟩

def SendResponse.wrapping : SendResponse :=
  .flush [.twoBytes, .fromFileHandle [1, 2, 3, 4, 5] 0 0xFFFFFFFFFFFFFFFE] false

/-- With a cap of three the engine gets all seven bytes. -/
theorem inspected_prefix_exceeded : ∃ middle,
    ReachesLoop .threeBytes .plain .wrapping 0 .begun middle ∧
      (onSendResponse .threeBytes .plain .wrapping .begun).state.bodies.length = 7 ∧
      getMaxInspectBodyBytes .threeBytes = 3 ∧
      ¬ InspectsPrefix .threeBytes .plain .wrapping 0 .begun middle := by
  obtain ⟨middle, heads⟩ := Outcome.exists_returned
    (show (headerPhase .threeBytes .plain .wrapping 0 .begun).value = some false by decide +kernel)
  have all : (onSendResponse .threeBytes .plain .wrapping .begun).state.bodies.length = 7 := by
    decide +kernel
  have cap : getMaxInspectBodyBytes .threeBytes = 3 := by decide +kernel
  refine ⟨middle, ⟨⟨rfl, by decide, rfl, rfl⟩, rfl, heads⟩, all, cap, ?_⟩
  intro inspects
  have handed := congrArg List.length inspects.handed
  rw [all, List.length_append, List.length_take, cap] at handed
  have before : (World.begun).bodies.length = 0 := rfl
  omega

end ModSecurityIIS
