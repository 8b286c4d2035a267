import ModSecurityIIS.BodyDrain
import ModSecurityIIS.Imperative.Transition

/-!
# The length of the drained body

The read stops when the body has reached its limit, the inspection cap or the declared
length, but the last chunk may carry it past the limit. Whether the body still fits a
`DWORD` is a matter of the limit alone.
-/

set_option autoImplicit false

namespace ModSecurityIIS

open Imperative Program Transition

/-- The staging buffer after the server has written the bytes of a read. -/
def World.filled (w : World) (bytes : Bytes) : World :=
  { w with rsc := { w.rsc with readBuf := writeBuffer w.rsc.readBuf bytes } }

/-- `stopped` says that `FinishBodyRead` runs on the body. -/
structure DrainState where
  world : World
  stopped : Bool

/-- A read brings at most a chunk, with any result code. -/
inductive DrainStep (env : Env) : DrainState → Bytes × HResult → DrainState → Prop where
  | read {s : DrainState} {bytes : Bytes} {hr : HResult} :
      s.stopped = false → bytes.length ≤ kBodyReadChunkSize →
      DrainStep env s (bytes, hr)
        { world := (s.world.filled bytes).appended bytes.length
          stopped := (stopReason env ((s.world.filled bytes).appended bytes.length).rsc
            bytes.length hr).isSome }

/-- The drain of a body with the given declared length, zero when there is none. -/
def drainSystem (env : Env) (declared : Nat) : System DrainState (Bytes × HResult) where
  initial s := s.stopped = false ∧ s.world.rsc.body = [] ∧
    s.world.rsc.declaredBodyLength = declared
  step := DrainStep env

/-- The length at which the read stops. -/
def bodyLimit (env : Env) (declared : Nat) : Nat :=
  if 0 < declared then min declared (getMaxInspectBodyBytes env) else getMaxInspectBodyBytes env

/-- The casts of the length to `DWORD` are exact. -/
def FitsDword (body : Bytes) : Prop := body.length ≤ 0xFFFFFFFF ∧ dword body.length = body.length

/-! ## The steps are those of the code -/

theorem filled_appended_body (w : World) (bytes : Bytes) :
    ((w.filled bytes).appended bytes.length).rsc.body = w.rsc.body ++ bytes := by
  unfold World.appended
  split
  · simp [World.filled, writeBuffer]
  · next none_ =>
      rw [List.length_eq_zero_iff.mp (Nat.eq_zero_of_not_pos none_)]
      simp [World.filled]

/-- A chunk is consumed by a step: the read goes on, or `FinishBodyRead` runs on the body. -/
theorem consumeBodyChunk_step (env : Env) (context : HttpContext) (w : World) (bytes : Bytes)
    (hr : HResult) (kept : env.throws w.tick = false) :
    match stopReason env ((w.filled bytes).appended bytes.length).rsc bytes.length hr with
    | none => consumeBodyChunk env context bytes.length hr (w.filled bytes) =
        .returned none ((w.filled bytes).appended bytes.length)
    | some _ => ∃ s, s.rsc.body = w.rsc.body ++ bytes ∧
        consumeBodyChunk env context bytes.length hr (w.filled bytes) =
          (finishBodyRead env context >>= fun status => pure (some status)) s := by
  have ran : consumeBodyChunk env context bytes.length hr (w.filled bytes) =
      match stopReason env ((w.filled bytes).appended bytes.length).rsc bytes.length hr with
      | none => .returned none ((w.filled bytes).appended bytes.length)
      | some reason => stopAt env context reason ((w.filled bytes).appended bytes.length) := by
    have calm : ¬ (0 < bytes.length ∧ env.throws (w.filled bytes).tick = true) := by
      rintro ⟨_, threw⟩
      rw [show (w.filled bytes).tick = w.tick from rfl, kept] at threw
      cases threw
    exact (consumeBodyChunk_apply _ _ _ _ _).trans (if_neg calm)
  cases stop : stopReason env ((w.filled bytes).appended bytes.length).rsc bytes.length hr with
  | none =>
      rw [stop] at ran
      exact ran
  | some reason =>
      rw [stop] at ran
      obtain ⟨s, _, _, _, context_, finished⟩ :=
        stopAt_apply env context reason ((w.filled bytes).appended bytes.length)
      refine ⟨s, ?_, ran.trans finished⟩
      rw [context_]
      exact filled_appended_body w bytes

/-! ## The bound -/

section Bound

variable {env : Env} {declared : Nat}

theorem bodyLimit_pos (env : Env) (declared : Nat) : 0 < bodyLimit env declared := by
  have positive := (getMaxInspectBodyBytes_bounds env).1
  unfold bodyLimit
  split <;> omega

theorem stopReason_none {rsc : RequestStoredContext} {read : Nat} {hr : HResult}
    (more : stopReason env rsc read hr = none) :
    rsc.body.length < bodyLimit env rsc.declaredBodyLength := by
  unfold stopReason at more
  unfold bodyLimit
  split at more
  · cases more
  · split at more
    · cases more
    · split at more
      · cases more
      · split at more
        · cases more
        · split <;> omega

theorem stopReason_sOk {rsc : RequestStoredContext} {read : Nat} (some_ : read ≠ 0) :
    stopReason env rsc read .sOk = none ↔
      rsc.body.length < bodyLimit env rsc.declaredBodyLength := by
  refine ⟨stopReason_none, fun below => ?_⟩
  unfold bodyLimit at below
  unfold stopReason
  rw [if_neg (by rintro (none_ | eof); exact some_ none_; exact absurd eof (by decide)),
    if_neg (by decide), if_neg, if_neg]
  · split at below <;> omega
  · split at below <;> omega

structure DrainState.Bounded (env : Env) (declared : Nat) (s : DrainState) : Prop where
  length : s.world.rsc.declaredBodyLength = declared
  body : s.world.rsc.body.length < bodyLimit env declared ∨
    s.stopped = true ∧ s.world.rsc.body.length < bodyLimit env declared + kBodyReadChunkSize

theorem filled_appended_declared (w : World) (bytes : Bytes) :
    ((w.filled bytes).appended bytes.length).rsc.declaredBodyLength = w.rsc.declaredBodyLength := by
  rw [World.appended_declaredBodyLength]
  rfl

theorem drain_bounded {s : DrainState} (reached : (drainSystem env declared).Reachable s) :
    s.Bounded env declared := by
  apply System.Reachable.invariant _ _ reached
  · rintro state ⟨_, empty, length⟩
    refine ⟨length, .inl ?_⟩
    rw [empty]
    exact bodyLimit_pos env declared
  · rintro state label after ⟨length, body⟩ step
    cases step with
    | @read bytes hr running chunk =>
        have before : state.world.rsc.body.length < bodyLimit env declared := by
          rcases body with below | ⟨stopped, _⟩
          · exact below
          · rw [running] at stopped
            cases stopped
        refine ⟨(filled_appended_declared _ _).trans length, ?_⟩
        cases stop : stopReason env ((state.world.filled bytes).appended bytes.length).rsc
            bytes.length hr with
        | none =>
            have below := stopReason_none stop
            rw [filled_appended_declared, length] at below
            exact .inl below
        | some reason =>
            refine .inr ⟨rfl, ?_⟩
            change ((state.world.filled bytes).appended bytes.length).rsc.body.length < _
            rw [filled_appended_body, List.length_append]
            omega

theorem drain_reaches (length : Nat) (below : length < bodyLimit env declared) :
    ∃ s, (drainSystem env declared).Reachable s ∧ s.stopped = false ∧
      s.world.rsc.body.length = length ∧ s.world.rsc.declaredBodyLength = declared := by
  induction length with
  | zero =>
      let w : World :=
        { World.arrived [] [] with
          rsc := { RequestStoredContext.new with declaredBodyLength := declared } }
      exact ⟨{ world := w, stopped := false }, .start ⟨rfl, rfl, rfl⟩, rfl, rfl, rfl⟩
  | succ length ih =>
      obtain ⟨s, reached, running, size, known⟩ := ih (by omega)
      have grown : ((s.world.filled [0]).appended [(0 : UInt8)].length).rsc.body.length =
          length + 1 := by
        rw [filled_appended_body, List.length_append, size]
        rfl
      have kept := (filled_appended_declared s.world [0]).trans known
      refine ⟨_, reached.step (@DrainStep.read env s [0] .sOk running (by decide)), ?_, grown,
        kept⟩
      rw [(stopReason_sOk (by decide)).mpr (by rw [grown, kept]; exact below)]
      rfl

theorem drain_overshoots (env : Env) (declared : Nat) :
    ∃ s, (drainSystem env declared).Reachable s ∧ s.stopped = true ∧
      s.world.rsc.body.length + 1 = bodyLimit env declared + kBodyReadChunkSize := by
  have positive := bodyLimit_pos env declared
  obtain ⟨s, reached, running, size, known⟩ :=
    @drain_reaches env declared (bodyLimit env declared - 1) (by omega)
  have chunk : (List.replicate kBodyReadChunkSize (0 : UInt8)).length = kBodyReadChunkSize :=
    List.length_replicate
  generalize List.replicate kBodyReadChunkSize (0 : UInt8) = bytes at chunk
  have grown : ((s.world.filled bytes).appended bytes.length).rsc.body.length =
      bodyLimit env declared - 1 + kBodyReadChunkSize := by
    rw [filled_appended_body, List.length_append, size, chunk]
  have kept := (filled_appended_declared s.world bytes).trans known
  refine ⟨_, reached.step (@DrainStep.read env s bytes .sOk running chunk.le), ?_, ?_⟩
  · cases stop : stopReason env ((s.world.filled bytes).appended bytes.length).rsc bytes.length
        .sOk with
    | none =>
        have below := stopReason_none stop
        rw [grown, kept, kBodyReadChunkSize] at below
        omega
    | some reason => rfl
  · change ((s.world.filled bytes).appended bytes.length).rsc.body.length + 1 = _
    rw [grown]
    omega

end Bound

theorem fitsDword_iff {body : Bytes} : FitsDword body ↔ body.length < 2 ^ 32 := by
  unfold FitsDword dword
  omega

/-- Every drained body fits a `DWORD` exactly when its limit leaves room for one more chunk. -/
theorem drained_body_fits_iff (env : Env) (declared : Nat) :
    (∀ s, (drainSystem env declared).Reachable s → s.stopped = true →
        FitsDword s.world.rsc.body) ↔
      bodyLimit env declared + kBodyReadChunkSize ≤ 2 ^ 32 := by
  constructor
  · intro fits
    obtain ⟨s, reached, stopped, size⟩ := drain_overshoots env declared
    have small := fitsDword_iff.mp (fits s reached stopped)
    omega
  · intro room s reached _
    apply fitsDword_iff.mpr
    rcases (drain_bounded reached).body with below | ⟨_, below⟩
    · omega
    · omega

/-- The cap that the clamp lets through does not leave that room. -/
theorem drained_body_overflows :
    ∃ env s, getMaxInspectBodyBytes env = 0xFFFFFFFF ∧ (drainSystem env 0).Reachable s ∧
      s.stopped = true ∧ ¬ FitsDword s.world.rsc.body := by
  obtain ⟨s, reached, stopped, size⟩ :=
    drain_overshoots { Env.calm with maxInspectBodyBytes := some (bytesOf "4294967295") } 0
  have cap : getMaxInspectBodyBytes
      { Env.calm with maxInspectBodyBytes := some (bytesOf "4294967295") } = 0xFFFFFFFF := by
    decide +kernel
  refine ⟨_, s, cap, reached, stopped, fun fits => ?_⟩
  have small := fitsDword_iff.mp fits
  rw [bodyLimit, if_neg (by decide), cap, kBodyReadChunkSize] at size
  omega

end ModSecurityIIS
