import ModSecurityIIS.SendResponseCases
import ModSecurityIIS.ResponseCap

/-!
# The pinned Content-Length

The header is set to the number of bytes that were inspected. It is the length of what the
client gets exactly when every chunk was inspected in full.
-/

set_option autoImplicit false

namespace ModSecurityIIS

open Imperative Program Transition

/-- The bytes of a chunk that the client gets. -/
def DataChunk.sent : DataChunk → Nat
  | .other length => length
  | chunk => chunk.offered

/-- The bytes behind a chunk, inside its range or not. -/
def DataChunk.size : DataChunk → Nat
  | .fromMemory buffer => buffer.bytes.length
  | .fromFileHandle file _ _ => file.length
  | .other _ => 0

/-- The Windows calls on a file range succeed, or there is nothing to read in it. -/
def Env.ReadsRange (env : Env) (tick start remaining : Nat) : Prop :=
  remaining = 0 ∨ (env.succeeds tick = true ∧ env.succeeds (tick + 1) = true ∧
    start < 2 ^ 63 ∧ env.Brings (tick + 2) remaining)

/-- The turn of the chunk inspects all that the client gets of it. -/
def DataChunk.InFull (env : Env) (tick respInspected : Nat) (chunk : DataChunk) : Prop :=
  match chunk with
  | .fromMemory _ => respInspected + chunk.offered ≤ getMaxInspectBodyBytes env
  | .fromFileHandle _ start _ =>
      respInspected + chunk.offered ≤ getMaxInspectBodyBytes env ∧
        env.ReadsRange tick start.toNat chunk.offered
  | .other length => length = 0

theorem DataChunk.InFull.room {env : Env} {tick respInspected : Nat} {chunk : DataChunk}
    (full : chunk.InFull env tick respInspected)
    (within : respInspected ≤ getMaxInspectBodyBytes env) :
    respInspected + chunk.sent ≤ getMaxInspectBodyBytes env := by
  cases chunk with
  | fromMemory buffer => exact full
  | fromFileHandle file start length => exact full.1
  | other length =>
      rw [DataChunk.sent, show length = 0 from full]
      exact within

/-- Every turn of the chunk loop is in full; each is judged where it starts. -/
inductive InFull (env : Env) (tx : TransactionId) : World → Nat → List DataChunk → Prop where
  | nil {w : World} {respInspected : Nat} : InFull env tx w respInspected []
  | cons {w after : World} {respInspected next : Nat} {chunk : DataChunk} {rest : List DataChunk} :
      chunk.InFull env w.tick respInspected →
      inspectChunk env tx respInspected chunk w = .returned next after →
      InFull env tx after next rest → InFull env tx w respInspected (chunk :: rest)

/-! ## File ranges -/

section Files

variable {env : Env} {tx : TransactionId} {file : Bytes} {start length total : Nat} {w after : World}

/-- The read brings the whole range exactly when its calls succeed. -/
theorem appendResponseFileChunk_whole (bounded : length ≠ httpByteRangeToEof)
    (ran : appendResponseFileChunk env tx file start length w = .returned total after) :
    total ≤ min length (file.drop start).length ∧
      (total = min length (file.drop start).length ↔
        env.ReadsRange w.tick start (min length (file.drop start).length)) := by
  have streams := @appendResponseFileChunk_streams env tx file start length w
  rw [ran, fileRange_length, Env.Streams, if_neg bounded, if_neg bounded] at streams
  cases streams with
  | @returned more _ most _ complete =>
      rw [Nat.zero_add]
      exact ⟨most, complete⟩

theorem appendResponseFileChunk_size
    (ran : appendResponseFileChunk env tx file start length w = .returned total after) :
    total ≤ file.length := by
  have streams := @appendResponseFileChunk_streams env tx file start length w
  rw [ran, fileRange_length, List.length_drop] at streams
  cases streams with
  | returned most _ _ => omega

end Files

/-! ## The chunk loop -/

section Loop

variable {env : Env} {tx : TransactionId}

theorem add64_zero {n : Nat} (small : n < 2 ^ 64) : add64 n 0 = n := add64_of_lt small

theorem inspectMemory_whole {respInspected next : Nat} {buffer : MemoryBuffer} {w after : World}
    (ran : inspectChunk env tx respInspected (.fromMemory buffer) w = .returned next after) :
    next = if respInspected < getMaxInspectBodyBytes env ∧ 0 < buffer.bytes.length then
      respInspected + min (getMaxInspectBodyBytes env - respInspected) buffer.bytes.length
    else respInspected := by
  rw [inspectMemory_eq] at ran
  split at ran
  · next room =>
      obtain ⟨_, middle, _, rested⟩ := bind_eq_returned ran
      cases rested
      rw [if_pos room]
  · next full =>
      cases ran
      rw [if_neg full]

theorem inspectChunk_grows {respInspected next : Nat} {chunk : DataChunk} {w after : World}
    (fits : respInspected + chunk.size < 2 ^ 64)
    (ran : inspectChunk env tx respInspected chunk w = .returned next after) :
    respInspected ≤ next ∧ next ≤ respInspected + chunk.size := by
  cases chunk with
  | other length =>
      cases ran
      exact ⟨Nat.le_refl _, Nat.le_add_right _ _⟩
  | fromMemory buffer =>
      rw [inspectMemory_whole ran, DataChunk.size]
      split <;> omega
  | fromFileHandle file start length =>
      rw [DataChunk.size] at fits ⊢
      rw [inspectChunk] at ran
      split at ran
      · obtain ⟨total, middle, appended, rested⟩ := bind_eq_returned ran
        cases rested
        have most := appendResponseFileChunk_size appended
        rw [add64_of_lt (by omega)]
        omega
      · cases ran
        omega

theorem inspectChunk_whole {respInspected next : Nat} {chunk : DataChunk} {w after : World}
    (within : respInspected ≤ getMaxInspectBodyBytes env)
    (ran : inspectChunk env tx respInspected chunk w = .returned next after) :
    ∃ more, next = add64 respInspected more ∧ more ≤ chunk.size ∧ more ≤ chunk.sent ∧
      (chunk.InFull env w.tick respInspected → more = chunk.sent) ∧
      (more = chunk.sent → respInspected + more ≤ getMaxInspectBodyBytes env →
        chunk.InFull env w.tick respInspected) := by
  have small := (getMaxInspectBodyBytes_bounds env).2
  have unchanged : respInspected = add64 respInspected 0 := (add64_zero (by omega)).symm
  cases chunk with
  | other length =>
      cases ran
      exact ⟨0, unchanged, Nat.le_refl _, Nat.zero_le _, Eq.symm, fun none_left _ => none_left.symm⟩
  | fromMemory buffer =>
      have fits := buffer.bounded
      have counted := inspectMemory_whole ran
      refine ⟨min (getMaxInspectBodyBytes env - respInspected) buffer.bytes.length, ?_,
        Nat.min_le_right _ _, Nat.min_le_right _ _, ?_, ?_⟩
      · rw [counted, add64_of_lt (by omega)]
        split <;> omega
      · intro full
        simp only [DataChunk.InFull, DataChunk.sent, DataChunk.offered] at full ⊢
        omega
      · intro whole room
        simp only [DataChunk.InFull, DataChunk.sent, DataChunk.offered] at whole ⊢
        omega
  | fromFileHandle file start length =>
      obtain ⟨notEof, available, room, _⟩ := @cappedRange_within _ respInspected length.toNat
        (file.drop start.toNat).length within small length.toNat_lt
      have behind : rangeBytes length.toNat (file.drop start.toNat).length ≤ file.length := by
        unfold rangeBytes
        rw [List.length_drop]
        split <;> omega
      simp only [DataChunk.InFull, DataChunk.sent, DataChunk.offered, DataChunk.size]
      rw [inspectChunk] at ran
      split at ran
      · obtain ⟨total, middle, appended, rested⟩ := bind_eq_returned ran
        cases rested
        obtain ⟨most, whole⟩ := appendResponseFileChunk_whole notEof appended
        refine ⟨total, rfl, by omega, by omega, ?_, ?_⟩
        · rintro ⟨left, reads⟩
          rw [room left] at whole
          exact whole.mpr reads
        · intro all left
          have left_ : respInspected + rangeBytes length.toNat (file.drop start.toNat).length ≤
              getMaxInspectBodyBytes env := by omega
          rw [room left_] at whole
          exact ⟨left_, whole.mp all⟩
      · next nothing =>
          cases ran
          refine ⟨0, unchanged, Nat.zero_le _, Nat.zero_le _, ?_, ?_⟩
          · rintro ⟨left, _⟩
            have none_left := room left
            omega
          · intro none_left left
            exact ⟨by omega, .inl none_left.symm⟩

theorem inspectLoop_grows {chunks : List DataChunk} {respInspected total : Nat} {w after : World}
    (fits : respInspected + weigh DataChunk.size chunks < 2 ^ 64)
    (ran : foldEach chunks respInspected (inspectChunk env tx) w = .returned total after) :
    respInspected ≤ total := by
  induction chunks generalizing respInspected w with
  | nil =>
      cases ran
      exact Nat.le_refl _
  | cons chunk rest ih =>
      rw [weigh_cons] at fits
      obtain ⟨next, middle, turn, rested⟩ := bind_eq_returned ran
      obtain ⟨grown, most⟩ := inspectChunk_grows (by omega) turn
      exact Nat.le_trans grown (ih (by omega) rested)

/-- Where every turn is in full, the count is what the client gets. -/
theorem inspectLoop_of_inFull {chunks : List DataChunk} {respInspected total : Nat}
    {w after : World} (within : respInspected ≤ getMaxInspectBodyBytes env)
    (full : InFull env tx w respInspected chunks)
    (ran : foldEach chunks respInspected (inspectChunk env tx) w = .returned total after) :
    total = respInspected + weigh DataChunk.sent chunks := by
  have small := (getMaxInspectBodyBytes_bounds env).2
  induction chunks generalizing respInspected w with
  | nil =>
      cases ran
      rfl
  | cons chunk rest ih =>
      obtain ⟨next, middle, turn, rested⟩ := bind_eq_returned ran
      cases full with
      | cons whole same later =>
          cases turn.symm.trans same
          obtain ⟨more, counted, _, _, all, _⟩ := inspectChunk_whole within turn
          have room := whole.room within
          rw [all whole, add64_of_lt (by omega)] at counted
          rw [ih (by omega) later rested, weigh_cons]
          omega

/-- Where the count is what the client gets and below the cap, every turn was in full. -/
theorem inspectLoop_inFull {chunks : List DataChunk} {respInspected total : Nat}
    {w after : World} (fits : respInspected + weigh DataChunk.size chunks < 2 ^ 64)
    (below : total ≤ getMaxInspectBodyBytes env)
    (ran : foldEach chunks respInspected (inspectChunk env tx) w = .returned total after) :
    total ≤ respInspected + weigh DataChunk.sent chunks ∧
      (total = respInspected + weigh DataChunk.sent chunks →
        InFull env tx w respInspected chunks) := by
  induction chunks generalizing respInspected w with
  | nil =>
      cases ran
      exact ⟨Nat.le_refl _, fun _ => .nil⟩
  | cons chunk rest ih =>
      have room := Nat.le_trans (inspectLoop_grows fits ran) below
      rw [weigh_cons] at fits ⊢
      obtain ⟨next, middle, turn, rested⟩ := bind_eq_returned ran
      obtain ⟨more, counted, most, sent, _, whole⟩ := inspectChunk_whole room turn
      rw [add64_of_lt (by omega)] at counted
      have grown := inspectLoop_grows (by omega) rested
      obtain ⟨bounded, later⟩ := ih (by omega) rested
      refine ⟨by omega, fun all => ?_⟩
      exact .cons (whole (by omega) (by omega)) turn (later (by omega))

end Loop

/-! ## The header -/

/-- Content-Length is set to the given count at most, and only below the cap. -/
def Event.PinsOnly (env : Env) (count : Nat) (event : Event) : Prop :=
  ∀ value, event = .response (.setHeader .contentLength value) →
    value = decimal count ∧ count < getMaxInspectBodyBytes env

def Event.Unpinned (event : Event) : Prop :=
  ∀ value, event ≠ .response (.setHeader .contentLength value)

theorem Event.Unpinned.pinsOnly {event : Event} (unpinned : event.Unpinned) (env : Env)
    (count : Nat) : event.PinsOnly env count :=
  fun value sets => absurd sets (unpinned value)

theorem Event.Intervenes.unpinned {event : Event} (intervenes : event.Intervenes) :
    event.Unpinned := by
  rintro value rfl
  exact intervenes

theorem Event.FeedsHeaders.unpinned {event : Event} (feeds : event.FeedsHeaders) :
    event.Unpinned := by
  rintro value rfl
  exact feeds

/-- Steps that set Content-Length to nothing but the count. -/
abbrev PinFrame (env : Env) (count : Nat) : World → World → Prop :=
  Frame (fun _ _ => True) (Event.PinsOnly env count)

section Header

variable {env : Env} {context : HttpContext} {notification : SendResponse} {tx : TransactionId}

theorem modeA_pins (count : Nat) :
    Within (PinFrame env count) (modeA env context notification count) := by
  refine Within.bind (responseBodyBlockingEnabled_frame env fun _ _ => nofun) fun blocking => ?_
  refine Within.bind Within.get fun w => ?_
  split
  · split
    · exact Within.bind (modifyContext_frame fun _ => trivial) fun _ => Within.pure _
    · refine Within.bind (Within.bind Within.get fun w => Within.when fun guard => ?_) fun _ => ?_
      · apply respond_frame
        rintro value ⟨⟩
        simp only [Bool.and_eq_true, decide_eq_true_eq] at guard
        exact ⟨rfl, guard.1.2⟩
      · refine Within.bind (evaluateBody_frame (fun _ => trivial) fun _ _ => nofun) fun _ => ?_
        exact applyIntervention_frame env context true (fun _ => trivial)
          fun _ intervenes => intervenes.unpinned.pinsOnly env count
  · exact Within.pure _

theorem modes_pin (count : Nat) :
    Within (PinFrame env count) (do
      let replaced ← modeA env context notification count
      if replaced then pure .rqNotificationFinishRequest
      else do
        modeB env context notification
        pure NotificationStatus.rqNotificationContinue) := by
  refine Within.bind (modeA_pins count) fun replaced => ?_
  split
  · exact Within.pure _
  · refine Within.bind ?_ fun _ => Within.pure _
    apply modeB_frame fun _ => trivial
    rintro event detects value rfl
    exact absurd detects id

theorem chunks_pin (count : Nat) (chunks : List DataChunk) :
    Within (PinFrame env count) (inspectChunks env tx chunks) :=
  inspectChunks_frame (fun _ _ => nofun) chunks

theorem bodyPhase_pins (start : World) :
    (∃ count middle,
      inspectChunks env tx notification.response.entityChunks start = .returned count middle ∧
        PinFrame env count start (bodyPhase env context notification tx start).state) ∨
      ∀ count, PinFrame env count start (bodyPhase env context notification tx start).state := by
  have turns (count : Nat) := @chunks_pin env tx count notification.response.entityChunks start
  rw [bodyPhase, bind_apply]
  cases counted : inspectChunks env tx notification.response.entityChunks start with
  | returned count middle =>
      left
      refine ⟨count, middle, rfl, ?_⟩
      have first := turns count
      rw [counted] at first
      exact trans_of (PinFrame env count) first
        (@modes_pin env context notification count middle)
  | thrown middle =>
      right
      intro count
      have first := turns count
      rw [counted] at first
      exact first
  | halted reason middle =>
      right
      intro count
      have first := turns count
      rw [counted] at first
      exact first

theorem onSendResponse_pins {w after : World} {status : NotificationStatus} {value : Bytes}
    (inspects : w.Inspects context notification) (live : w.rsc.tx = some tx)
    (ran : onSendResponse env context notification w = .returned status after)
    (pinned : .response (.setHeader .contentLength value) ∈ after.log.drop w.log.length) :
    ∃ start count middle, headerPhase env context notification tx w = .returned false start ∧
      inspectChunks env tx notification.response.entityChunks start = .returned count middle ∧
      count < getMaxInspectBodyBytes env ∧ value = decimal count := by
  have counts (count : Nat) (frame : PinFrame env count w after) :
      value = decimal count ∧ count < getMaxInspectBodyBytes env := by
    obtain ⟨events, shape, each⟩ := frame.logged
    rw [shape, List.drop_left] at pinned
    exact each _ pinned value rfl
  have header (count : Nat) :
      Within (PinFrame env count) (headerPhase env context notification tx) :=
    headerPhase_frame (fun _ => trivial) (fun _ => trivial)
      (fun _ feeds => feeds.unpinned.pinsOnly env count) env context notification tx
  have fails (count : Nat) : Within (PinFrame env count) (failSend env context) :=
    failSend_frame nofun env context
  -- a frame for one count and for another leave no header at all
  have never (frame : ∀ count, PinFrame env count w after) : False := by
    have zero := (counts 0 (frame 0)).1
    have one := (counts 1 (frame 1)).1
    cases decimal_injective (zero.symm.trans one)
  cases onSendResponse_ends inspects live ran with
  | blocked heads =>
      refine (never fun count => ?_).elim
      have first := header count w
      rw [heads] at first
      exact first
  | @headersFailed middle _ _ heads failed =>
      refine (never fun count => ?_).elim
      have first := header count w
      have last := fails count middle
      rw [heads] at first
      rw [failed] at last
      exact trans_of (PinFrame env count) first last
  | @sent start _ _ heads body =>
      have first (count : Nat) := header count w
      have phases := @bodyPhase_pins env context notification tx start
      rw [heads] at first
      rw [body] at phases
      rcases phases with ⟨count, middle, counted, second⟩ | second
      · obtain ⟨same, below⟩ := counts count (trans_of (PinFrame env count) (first count) second)
        exact ⟨start, count, middle, heads, counted, below, same⟩
      · exact (never fun count => trans_of (PinFrame env count) (first count) (second count)).elim
  | @bodyFailed start failed _ _ heads body recovered =>
      have first (count : Nat) := header count w
      have last (count : Nat) := fails count failed
      have phases := @bodyPhase_pins env context notification tx start
      rw [heads] at first
      rw [body] at phases
      rw [recovered] at last
      have joins (count : Nat) (second : PinFrame env count start failed) :
          PinFrame env count w after :=
        trans_of (PinFrame env count) (first count)
          (trans_of (PinFrame env count) second (last count))
      rcases phases with ⟨count, middle, counted, second⟩ | second
      · obtain ⟨same, below⟩ := counts count (joins count second)
        exact ⟨start, count, middle, heads, counted, below, same⟩
      · exact (never fun count => joins count (second count)).elim

/-- The header that is set is the length of what the client gets exactly when every chunk was
inspected in full. -/
theorem content_length_real {w after : World} {status : NotificationStatus} {value : Bytes}
    (ran : raiseSendResponse env context notification w = .returned status after)
    (pinned : .response (.setHeader .contentLength value) ∈ after.log.drop w.log.length) :
    ∃ tx start,
      headerPhase env context notification tx (w.raised notification) = .returned false start ∧
      (InFull env tx start 0 notification.response.entityChunks →
        value = decimal (weigh DataChunk.sent notification.response.entityChunks)) ∧
      (weigh DataChunk.size notification.response.entityChunks < 2 ^ 64 →
        value = decimal (weigh DataChunk.sent notification.response.entityChunks) →
        InFull env tx start 0 notification.response.entityChunks) := by
  rw [raiseSendResponse_apply] at ran
  by_cases inspects : (w.raised notification).Inspects context notification
  · obtain ⟨tx, live⟩ := Option.ne_none_iff_exists'.mp inspects.2.1
    obtain ⟨start, count, middle, heads, counted, below, rfl⟩ :=
      onSendResponse_pins inspects live ran pinned
    refine ⟨tx, start, heads, ?_, ?_⟩
    · intro full
      rw [inspectLoop_of_inFull (Nat.zero_le _) full counted, Nat.zero_add]
    · intro countable real
      apply (inspectLoop_inFull (by omega) (by omega) counted).2
      rw [Nat.zero_add]
      exact decimal_injective real
  · rw [onSendResponse_of_not_inspects inspects] at ran
    cases ran
    rw [show (w.raised notification).log.drop w.log.length = [] from List.drop_length] at pinned
    cases pinned

end Header

/-- Two bytes in memory: the header says so. -/
theorem content_length_real_inMemory : ∃ after,
    raiseSendResponse Env.calm .plain (.flush [.twoBytes] false) .begun =
        .returned .rqNotificationContinue after ∧
      .response (.setHeader .contentLength (decimal 2)) ∈ after.log.drop World.begun.log.length ∧
      ∃ tx start, headerPhase Env.calm .plain (.flush [.twoBytes] false) tx
        (World.begun.raised (.flush [.twoBytes] false)) = .returned false start ∧
        InFull .calm tx start 0 [.twoBytes] := by
  have value : (raiseSendResponse Env.calm .plain (.flush [.twoBytes] false) .begun).value =
      some .rqNotificationContinue := by decide +kernel
  have pinned : .response (.setHeader .contentLength (decimal 2)) ∈
      (raiseSendResponse Env.calm .plain (.flush [.twoBytes] false) .begun).state.log.drop
        World.begun.log.length := by decide +kernel
  obtain ⟨after, ran⟩ := Outcome.exists_returned value
  rw [ran] at pinned
  obtain ⟨tx, start, heads, _, whole⟩ := content_length_real ran pinned
  exact ⟨after, ran, pinned, tx, start, heads, whole (by decide) rfl⟩

/-- Two bytes in memory and five from the fragment cache: the header says two. -/
theorem content_length_short : ∃ after,
    raiseSendResponse Env.calm .plain (.flush [.twoBytes, .other 5] false) .begun =
        .returned .rqNotificationContinue after ∧
      .response (.setHeader .contentLength (decimal 2)) ∈ after.log.drop World.begun.log.length ∧
      weigh DataChunk.sent [.twoBytes, .other 5] = 7 ∧ decimal 2 ≠ decimal 7 := by
  have value : (raiseSendResponse Env.calm .plain (.flush [.twoBytes, .other 5] false) .begun).value =
      some .rqNotificationContinue := by decide +kernel
  have pinned : .response (.setHeader .contentLength (decimal 2)) ∈
      (raiseSendResponse Env.calm .plain (.flush [.twoBytes, .other 5] false) .begun).state.log.drop
        World.begun.log.length := by decide +kernel
  obtain ⟨after, ran⟩ := Outcome.exists_returned value
  rw [ran] at pinned
  refine ⟨after, ran, pinned, by decide, ?_⟩
  intro same
  cases decimal_injective same

end ModSecurityIIS
