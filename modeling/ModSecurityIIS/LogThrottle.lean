import Mathlib.Data.List.Induction
import ModSecurityIIS.Imperative.FixedWindow
import ModSecurityIIS.Imperative.Transition
import ModSecurityIIS.Windows

/-!
# The throttle of the server log

`ServerLogCallback` reads the clock and the throttle under `g_logThrottleMutex`, so its calls
come one after the other. A message that passes is written after the mutex is released.
-/

set_option autoImplicit false

namespace ModSecurityIIS

open Transition FixedWindow

/-! ## The callback -/

def kMaxLogsPerSecond : UInt32 := 100

def eventlogInformationType : UInt16 := 4

/-- What `WriteEventViewerLog` is called with. -/
structure LogLine where
  message : Bytes
  category : UInt16
  deriving DecidableEq, Repr

/-- `g_logWindowStart` and `g_logCount`. -/
structure LogThrottle where
  windowStart : UInt64
  count : UInt32
  deriving DecidableEq, Repr

/-- `now` is what `GetTickCount64` answers; a call without a message does not ask it. -/
def LogThrottle.serverLogCallback (throttle : LogThrottle) (now : UInt64)
    (message : Option Bytes) : LogThrottle × Option LogLine :=
  match message with
  | none => (throttle, none)
  | some message =>
      let throttle :=
        if now - throttle.windowStart ≥ 1000 then { windowStart := now, count := 0 }
        else throttle
      if throttle.count ≥ kMaxLogsPerSecond then (throttle, none)
      else
        ({ throttle with count := throttle.count + 1 },
          some { message, category := eventlogInformationType })

structure LogRequest where
  tickCount : UInt64
  message : Option Bytes
  deriving DecidableEq, Repr

/-- A call that has been made and the line it wrote. -/
structure LogCall extends LogRequest where
  line : Option LogLine
  deriving DecidableEq, Repr

/-- `calls` holds the calls in the order in which they had the mutex. -/
structure LogRun where
  throttle : LogThrottle
  calls : List LogCall
  deriving DecidableEq, Repr

def LogRun.begun : LogRun := { throttle := { windowStart := 0, count := 0 }, calls := [] }

def LogRun.call (s : LogRun) (request : LogRequest) : LogRun :=
  let answer := s.throttle.serverLogCallback request.tickCount request.message
  { throttle := answer.1, calls := s.calls ++ [{ request with line := answer.2 }] }

def logSystem : System LogRun LogRequest where
  initial s := s = .begun
  step s request after := after = s.call request

/-- The clock does not go back between two calls that read it. -/
def LogRun.InOrder (s : LogRun) (request : LogRequest) : Prop :=
  request.message ≠ none →
    ∀ call ∈ s.calls, call.message ≠ none → call.tickCount ≤ request.tickCount

/-! ## What the throttle promises -/

/-- How many messages were written of those that came at such a tick count. -/
def forwarded (during : Nat → Bool) (calls : List LogCall) : Nat :=
  calls.countP fun call => call.line.isSome && during call.tickCount.toNat

def LogCall.Dropped (call : LogCall) : Prop := call.message ≠ none ∧ call.line = none

structure LogRun.Throttled (s : LogRun) : Prop where
  bursts : ∀ start : Nat,
    forwarded (between start (start + 1000)) s.calls ≤ 2 * kMaxLogsPerSecond.toNat
  needed : ∀ earlier call, earlier ++ [call] <+: s.calls → call.Dropped →
    kMaxLogsPerSecond.toNat ≤ forwarded (recent 1000 call.tickCount.toNat) earlier

/-! ## The throttle as a limiter -/

def logLimiter : Limiter Nat where
  width := 1000
  limit := kMaxLogsPerSecond.toNat
  positive := by decide

def LogThrottle.window (throttle : LogThrottle) : Window Nat :=
  { start := throttle.windowStart.toNat, count := throttle.count.toNat }

/-- The calls that came to the throttle. -/
def LogCall.answer (call : LogCall) : Option (Answer Nat) :=
  call.message.map fun _ => { time := call.tickCount.toNat, admitted := call.line.isSome }

/-- The tick count is not before the window, so the difference does not wrap around. -/
theorem windowOver_iff {start now : UInt64} (opened : start ≤ now) :
    now - start ≥ 1000 ↔ start.toNat + 1000 ≤ now.toNat := by
  have le : start.toNat ≤ now.toNat := UInt64.le_iff_toNat_le.mp opened
  have difference := UInt64.toNat_sub_of_le now start opened
  rw [ge_iff_le, UInt64.le_iff_toNat_le, difference]
  change 1000 ≤ _ ↔ _
  omega

theorem full_iff {throttle : LogThrottle} :
    throttle.count ≥ kMaxLogsPerSecond ↔ ¬throttle.window.count < logLimiter.limit := by
  rw [ge_iff_le, UInt32.le_iff_toNat_le, not_lt]
  rfl

theorem window_counts {throttle : LogThrottle} (room : throttle.window.count < logLimiter.limit) :
    ({ throttle with count := throttle.count + 1 } : LogThrottle).window =
      { throttle.window with count := throttle.window.count + 1 } := by
  have small : throttle.count.toNat < 100 := room
  have sum : (throttle.count + 1).toNat = throttle.count.toNat + 1 := by
    rw [UInt32.toNat_add]
    exact Nat.mod_eq_of_lt (by change throttle.count.toNat + 1 < _; omega)
  simp only [LogThrottle.window, sum]

theorem turn_refines {throttle : LogThrottle} {now : UInt64}
    (opened : throttle.windowStart ≤ now) :
    (if now - throttle.windowStart ≥ 1000 then { windowStart := now, count := 0 }
      else throttle : LogThrottle).window = logLimiter.turn throttle.window now.toNat := by
  have ended := windowOver_iff opened
  unfold Limiter.turn
  split
  · next passed => exact (if_pos (ended.mp passed)).symm
  · next within => exact (if_neg fun passed => within (ended.mpr passed)).symm

/-- What the callback does with a message is what the limiter does with its tick count. -/
theorem serverLogCallback_refines {throttle : LogThrottle} {now : UInt64}
    (opened : throttle.windowStart ≤ now) (message : Bytes) :
    ((throttle.serverLogCallback now (some message)).1.window,
        (throttle.serverLogCallback now (some message)).2.isSome) =
      logLimiter.answer throttle.window now.toNat := by
  unfold LogThrottle.serverLogCallback Limiter.answer
  dsimp only
  rw [← turn_refines opened]
  generalize (if now - throttle.windowStart ≥ 1000 then
    { windowStart := now, count := 0 } else throttle : LogThrottle) = turned
  by_cases room : turned.window.count < logLimiter.limit
  · have spare : ¬turned.count ≥ kMaxLogsPerSecond := fun full => full_iff.mp full room
    rw [if_neg spare, if_pos room]
    exact congrArg (·, true) (window_counts room)
  · rw [if_pos (full_iff.mpr room), if_neg room]
    rfl

/-! ## Every run -/

def LogRun.answers (s : LogRun) : List (Answer Nat) := s.calls.filterMap LogCall.answer

/-- A run of the throttle is a run of the limiter, in which the calls without a message are
left out. -/
structure LogRun.Limited (s : LogRun) : Prop where
  run : logLimiter.Run 0 s.throttle.window s.answers
  written : ∀ call ∈ s.calls, ∀ line, call.line = some line →
    call.message = some line.message ∧ line.category = eventlogInformationType

section Runs

variable {s : LogRun} {request : LogRequest}

theorem LogRun.Limited.silent (limited : s.Limited) {call : LogCall} (made : call ∈ s.calls)
    (absent : call.message = none) : call.line = none := by
  cases line : call.line with
  | none => rfl
  | some text =>
      have present := (limited.written call made text line).1
      rw [absent] at present
      cases present

theorem forwarded_eq_admitted (limited : s.Limited) {calls : List LogCall}
    (among : calls ⊆ s.calls) (during : Nat → Bool) :
    forwarded during calls = admitted during (calls.filterMap LogCall.answer) := by
  unfold forwarded admitted
  rw [List.countP_filterMap]
  apply List.countP_congr
  intro call member
  cases message : call.message with
  | none =>
      have silent := limited.silent (among member) message
      simp [LogCall.answer, message, silent]
  | some text => simp [LogCall.answer, message]

theorem limited_begun : LogRun.begun.Limited where
  run := .start
  written call member := by cases member

theorem serverLogCallback_line {throttle : LogThrottle} {now : UInt64} {message : Option Bytes}
    {line : LogLine} (written : (throttle.serverLogCallback now message).2 = some line) :
    message = some line.message ∧ line.category = eventlogInformationType := by
  cases message with
  | none => cases written
  | some text =>
      unfold LogThrottle.serverLogCallback at written
      dsimp only at written
      generalize (if now - throttle.windowStart ≥ 1000 then
        { windowStart := now, count := 0 } else throttle : LogThrottle) = turned at written
      split at written
      · cases written
      · cases written
        exact ⟨rfl, rfl⟩

theorem written_call (limited : s.Limited) : ∀ call ∈ (s.call request).calls, ∀ line,
    call.line = some line →
      call.message = some line.message ∧ line.category = eventlogInformationType := by
  intro call member line wrote
  rcases List.mem_append.mp member with earlier | latest
  · exact limited.written call earlier line wrote
  · rw [List.mem_singleton.mp latest] at wrote ⊢
    exact serverLogCallback_line wrote

theorem answers_ordered (ordered : s.InOrder request) (present : request.message ≠ none) :
    ∀ answer ∈ s.answers, answer.time ≤ request.tickCount.toNat := by
  intro answer member
  obtain ⟨call, made, answered⟩ := List.mem_filterMap.mp member
  cases message : call.message with
  | none => simp [LogCall.answer, message] at answered
  | some text =>
      have le := ordered present call made (by simp [message])
      have time : call.tickCount.toNat = answer.time := by
        simp only [LogCall.answer, message, Option.map_some, Option.some.injEq] at answered
        rw [← answered]
      rw [← time]
      exact UInt64.le_iff_toNat_le.mp le

theorem limited_call (limited : s.Limited) (ordered : s.InOrder request) :
    (s.call request).Limited := by
  refine ⟨?_, written_call limited⟩
  obtain ⟨now, message⟩ := request
  cases message with
  | none =>
      have same : (s.call ⟨now, none⟩).answers = s.answers := by
        simp [LogRun.answers, LogRun.call, LogCall.answer]
      rw [same]
      exact limited.run
  | some text =>
      have before := answers_ordered ordered (by simp)
      have opened := UInt64.le_iff_toNat_le.mpr (limited.run.start_le (Nat.zero_le _) before)
      have next := limited.run.next (Nat.zero_le _) before
      rw [← serverLogCallback_refines opened text] at next
      simpa [LogRun.answers, LogRun.call, LogCall.answer] using next

theorem logSystem_limited (reached : logSystem.Reaches LogRun.InOrder s) : s.Limited := by
  induction reached with
  | start initial =>
      cases initial
      exact limited_begun
  | next _ ordered step limited =>
      cases step
      exact limited_call limited ordered

end Runs

/-- Any 1000 ms have at most `2 * kMaxLogsPerSecond` messages written, and a message is only
dropped after `kMaxLogsPerSecond` within the 1000 ms before it. -/
theorem log_throttled {s : LogRun} (reached : logSystem.Reaches LogRun.InOrder s) :
    s.Throttled := by
  have limited := logSystem_limited reached
  have inv := limited.run.inv
  refine ⟨?_, ?_⟩
  · intro start
    rw [forwarded_eq_admitted limited (List.Subset.refl _)]
    exact inv.bursts start
  · intro earlier call opening dropped
    have among : earlier ⊆ s.calls :=
      ((List.prefix_append earlier [call]).trans opening).subset
    rw [forwarded_eq_admitted limited among]
    obtain ⟨text, message⟩ := Option.ne_none_iff_exists'.mp dropped.1
    have answered : call.answer = some ⟨call.tickCount.toNat, false⟩ := by
      simp [LogCall.answer, message, dropped.2]
    have answers : earlier.filterMap LogCall.answer ++ [⟨call.tickCount.toNat, false⟩] <+:
        s.answers := by
      have mapped := opening.filterMap LogCall.answer
      simpa [LogRun.answers, answered] using mapped
    exact inv.needed _ _ answers rfl

/-! ## Calls one after the other -/

def afterRequests (requests : List LogRequest) : LogRun := requests.foldl LogRun.call .begun

theorem foldl_call_requests (requests : List LogRequest) (s : LogRun) :
    (requests.foldl LogRun.call s).calls.map LogCall.toLogRequest =
      s.calls.map LogCall.toLogRequest ++ requests := by
  induction requests generalizing s with
  | nil => simp
  | cons request rest ih => simp [ih, LogRun.call]

theorem afterRequests_reaches (requests : List LogRequest)
    (ordered : requests.Pairwise fun first second => first.tickCount ≤ second.tickCount) :
    logSystem.Reaches LogRun.InOrder (afterRequests requests) := by
  induction requests using List.reverseRecOn with
  | nil => exact .start rfl
  | append_singleton requests latest ih =>
      obtain ⟨among, -, before⟩ := List.pairwise_append.mp ordered
      have inOrder : (afterRequests requests).InOrder latest := by
        intro _ call made _
        have made : call.toLogRequest ∈ (afterRequests requests).calls.map LogCall.toLogRequest :=
          List.mem_map_of_mem made
        rw [afterRequests, foldl_call_requests] at made
        exact before _ (by simpa [LogRun.begun] using made) latest (List.mem_singleton_self _)
      have step : afterRequests (requests ++ [latest]) = (afterRequests requests).call latest := by
        simp [afterRequests]
      exact .next (ih among) inOrder step

/-- A full window that ends, and one more message than the next one takes. -/
def twoWindows : List LogRequest :=
  List.replicate 100 ⟨999, some (bytesOf "ModSecurity: Warning.")⟩ ++
    List.replicate 101 ⟨1000, some (bytesOf "ModSecurity: Warning.")⟩

theorem log_throttled_twoWindows :
    (afterRequests twoWindows).Throttled ∧
      forwarded (between 999 1999) (afterRequests twoWindows).calls = 200 ∧
      (afterRequests twoWindows).calls.getLast?.map LogCall.line = some none := by
  have ordered : twoWindows.Pairwise fun first second => first.tickCount ≤ second.tickCount := by
    refine List.pairwise_append.mpr ⟨?_, ?_, ?_⟩
    · exact List.pairwise_replicate.mpr (.inr (UInt64.le_refl _))
    · exact List.pairwise_replicate.mpr (.inr (UInt64.le_refl _))
    · intro first memberFirst second memberSecond
      rw [List.eq_of_mem_replicate memberFirst, List.eq_of_mem_replicate memberSecond]
      decide
  exact ⟨log_throttled (afterRequests_reaches twoWindows ordered), by decide +kernel⟩

end ModSecurityIIS
