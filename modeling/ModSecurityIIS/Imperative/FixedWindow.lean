import Mathlib.Algebra.Order.Monoid.Defs
import Mathlib.Order.Basic

/-!
# Fixed-window rate limiters

A limiter admits so many events a window. The first event after the window's end opens the
next window, so the windows follow the events and not the clock.
-/

set_option autoImplicit false

namespace FixedWindow

structure Answer (Time : Type) where
  time : Time
  admitted : Bool
  deriving DecidableEq, Repr

/-- The start of the window and how many events it has admitted. -/
structure Window (Time : Type) where
  start : Time
  count : Nat
  deriving DecidableEq, Repr

/-! ## Counting what is admitted -/

section Counting

variable {Time : Type}

/-- How many events were admitted at such a time. -/
def admitted (during : Time → Bool) (history : List (Answer Time)) : Nat :=
  history.countP fun answer => answer.admitted && during answer.time

variable {during other : Time → Bool} {history : List (Answer Time)}

@[simp] theorem admitted_nil : admitted during [] = 0 := rfl

@[simp] theorem admitted_dropped (time : Time) :
    admitted during (history ++ [⟨time, false⟩]) = admitted during history := by
  simp [admitted]

theorem admitted_passed {time : Time} (hits : during time = true) :
    admitted during (history ++ [⟨time, true⟩]) = admitted during history + 1 := by
  simp [admitted, hits]

theorem admitted_missed {answer : Answer Time} (misses : during answer.time = false) :
    admitted during (history ++ [answer]) = admitted during history := by
  simp [admitted, misses]

theorem admitted_mono
    (implies : ∀ answer ∈ history, during answer.time = true → other answer.time = true) :
    admitted during history ≤ admitted other history := by
  apply List.countP_mono_left
  intro answer member counts
  simp only [Bool.and_eq_true] at counts ⊢
  exact ⟨counts.1, implies answer member counts.2⟩

theorem admitted_le_add {first second : Time → Bool}
    (covers : ∀ time, during time = true → first time = true ∨ second time = true) :
    admitted during history ≤ admitted first history + admitted second history := by
  induction history with
  | nil => simp
  | cons answer rest ih =>
      have head : (if (answer.admitted && during answer.time) = true then 1 else 0) ≤
          (if (answer.admitted && first answer.time) = true then 1 else 0) +
            (if (answer.admitted && second answer.time) = true then 1 else 0) := by
        split
        · next counts =>
            simp only [Bool.and_eq_true] at counts
            rcases covers answer.time counts.2 with hit | hit <;> simp [counts.1, hit]
        · exact Nat.zero_le _
      simp only [admitted, List.countP_cons] at ih ⊢
      omega

theorem admitted_eq_zero (misses : ∀ answer ∈ history, during answer.time = false) :
    admitted during history = 0 := by
  simp only [admitted, List.countP_eq_zero]
  intro answer member
  simp [misses answer member]

end Counting

/-! ## Intervals of time -/

section Intervals

variable {Time : Type} [LinearOrder Time]

def since (start : Time) : Time → Bool := fun time => decide (start ≤ time)

def between (lower upper : Time) : Time → Bool := fun time => decide (lower ≤ time ∧ time < upper)

variable {start lower upper time : Time}

@[simp] theorem since_eq_true : since start time = true ↔ start ≤ time := by simp [since]

@[simp] theorem since_eq_false : since start time = false ↔ time < start := by simp [since]

@[simp] theorem between_eq_true :
    between lower upper time = true ↔ lower ≤ time ∧ time < upper := by
  simp [between]

@[simp] theorem between_eq_false :
    between lower upper time = false ↔ (lower ≤ time → upper ≤ time) := by
  simp [between]

variable [Add Time]

/-- The interval of this width that ends with `now`. -/
def recent (width now : Time) : Time → Bool := fun time => decide (time ≤ now ∧ now < time + width)

@[simp] theorem recent_eq_true {width now : Time} :
    recent width now time = true ↔ time ≤ now ∧ now < time + width := by
  simp [recent]

end Intervals

/-! ## The limiter -/

variable {Time : Type} [AddCommMonoid Time] [LinearOrder Time]

structure Limiter (Time : Type) [AddCommMonoid Time] [LinearOrder Time] where
  width : Time
  limit : Nat
  positive : 0 < width

namespace Limiter

variable (limiter : Limiter Time)

/-- The window that an event at this time falls in. -/
def turn (window : Window Time) (now : Time) : Window Time :=
  if window.start + limiter.width ≤ now then { start := now, count := 0 } else window

def answer (window : Window Time) (now : Time) : Window Time × Bool :=
  let window := limiter.turn window now
  if window.count < limiter.limit then ({ window with count := window.count + 1 }, true)
  else (window, false)

/-- The limiter has answered these events one after the other, at times that do not go back. -/
inductive Run (begun : Time) : Window Time → List (Answer Time) → Prop where
  | start : Run begun { start := begun, count := 0 } []
  | next {window : Window Time} {history : List (Answer Time)} {now : Time} :
      Run begun window history → begun ≤ now → (∀ earlier ∈ history, earlier.time ≤ now) →
      Run begun (limiter.answer window now).1 (history ++ [⟨now, (limiter.answer window now).2⟩])

/-! ## What every run keeps -/

structure Inv (window : Window Time) (history : List (Answer Time)) : Prop where
  room : window.count ≤ limiter.limit
  past : ∀ answer ∈ history, answer.time < window.start + limiter.width
  counted : admitted (since window.start) history = window.count
  /-- An interval that reaches into the window meets one window before it at most. -/
  before : ∀ lower, window.start < lower + limiter.width →
    admitted (between lower window.start) history ≤ limiter.limit
  bursts : ∀ lower, admitted (between lower (lower + limiter.width)) history ≤ 2 * limiter.limit
  needed : ∀ earlier dropped, earlier ++ [dropped] <+: history → dropped.admitted = false →
    limiter.limit ≤ admitted (recent limiter.width dropped.time) earlier

section Steps

variable {limiter} {begun now : Time} {window : Window Time} {history : List (Answer Time)}

theorem inv_start : limiter.Inv { start := begun, count := 0 } [] where
  room := Nat.zero_le _
  past answer member := by cases member
  counted := rfl
  before _ _ := Nat.zero_le _
  bursts _ := Nat.zero_le _
  needed earlier dropped opening := by simp at opening

theorem turn_start_le (opened : window.start ≤ now) : (limiter.turn window now).start ≤ now := by
  unfold turn
  split
  · exact le_rfl
  · exact opened

theorem Inv.past_after (inv : limiter.Inv window history)
    (within : now < window.start + limiter.width) {answered : Bool} :
    ∀ answer ∈ history ++ [⟨now, answered⟩], answer.time < window.start + limiter.width := by
  intro answer member
  rcases List.mem_append.mp member with earlier | latest
  · exact inv.past answer earlier
  · rw [List.mem_singleton.mp latest]
    exact within

theorem Inv.admit (inv : limiter.Inv window history) (opened : window.start ≤ now)
    (within : now < window.start + limiter.width) (room : window.count < limiter.limit) :
    limiter.Inv { window with count := window.count + 1 } (history ++ [⟨now, true⟩]) := by
  have counted : admitted (since window.start) (history ++ [⟨now, true⟩]) = window.count + 1 := by
    rw [admitted_passed (since_eq_true.mpr opened), inv.counted]
  have before (lower : Time) (reaches : window.start < lower + limiter.width) :
      admitted (between lower window.start) (history ++ [⟨now, true⟩]) ≤ limiter.limit := by
    rw [admitted_missed (between_eq_false.mpr fun _ => opened)]
    exact inv.before lower reaches
  constructor
  case room => exact room
  case counted => exact counted
  case before => exact before
  case past => exact inv.past_after within
  case bursts =>
    intro lower
    by_cases meets : lower ≤ now ∧ now < lower + limiter.width
    · -- What the interval holds was admitted in this window or, before it, in one other.
      calc admitted (between lower (lower + limiter.width)) (history ++ [⟨now, true⟩])
          ≤ admitted (between lower window.start) (history ++ [⟨now, true⟩]) +
              admitted (since window.start) (history ++ [⟨now, true⟩]) := by
            apply admitted_le_add
            intro time counts
            simp only [between_eq_true, since_eq_true] at counts ⊢
            exact (lt_or_ge time window.start).imp_left fun early => ⟨counts.1, early⟩
        _ ≤ limiter.limit + limiter.limit :=
            Nat.add_le_add (before lower (opened.trans_lt meets.2)) (counted.trans_le room)
        _ = 2 * limiter.limit := (Nat.two_mul _).symm
    · have misses : between lower (lower + limiter.width) now = false := by
        simpa using meets
      rw [admitted_missed misses]
      exact inv.bursts lower
  case needed =>
    intro earlier dropped opening isDropped
    rcases List.prefix_concat_iff.mp opening with last | inner
    · have same : dropped = ⟨now, true⟩ := by simpa using (List.append_inj' last rfl).2
      rw [same] at isDropped
      cases isDropped
    · exact inv.needed earlier dropped inner isDropped

variable [IsOrderedCancelAddMonoid Time]

theorem lt_turn_end (limiter : Limiter Time) (window : Window Time) (now : Time) :
    now < (limiter.turn window now).start + limiter.width := by
  unfold turn
  split
  · exact lt_add_of_pos_right now limiter.positive
  · next within => exact not_le.mp within

theorem Inv.turn (inv : limiter.Inv window history)
    (ordered : ∀ earlier ∈ history, earlier.time ≤ now) :
    limiter.Inv (limiter.turn window now) history := by
  unfold Limiter.turn
  split
  · next ended =>
      constructor
      case room => exact Nat.zero_le _
      case bursts => exact inv.bursts
      case needed => exact inv.needed
      case past =>
        intro earlier member
        exact (ordered earlier member).trans_lt (lt_add_of_pos_right now limiter.positive)
      case counted =>
        apply admitted_eq_zero
        intro earlier member
        simpa using (inv.past earlier member).trans_le ended
      case before =>
        intro lower reaches
        -- The window that ends is as wide as the interval, which begins after its start.
        have later : window.start < lower :=
          lt_of_add_lt_add_right (ended.trans_lt reaches)
        calc admitted (between lower now) history
            ≤ admitted (since window.start) history := by
              apply admitted_mono
              intro earlier _ counts
              simp only [between_eq_true, since_eq_true] at counts ⊢
              exact later.le.trans counts.1
          _ = window.count := inv.counted
          _ ≤ limiter.limit := inv.room
  · exact inv

theorem Inv.drop (inv : limiter.Inv window history) (within : now < window.start + limiter.width)
    (ordered : ∀ earlier ∈ history, earlier.time ≤ now) (full : limiter.limit ≤ window.count) :
    limiter.Inv window (history ++ [⟨now, false⟩]) := by
  constructor
  case room => exact inv.room
  case past => exact inv.past_after within
  case counted => simpa using inv.counted
  case before => simpa using inv.before
  case bursts => simpa using inv.bursts
  case needed =>
    intro earlier dropped opening isDropped
    rcases List.prefix_concat_iff.mp opening with last | inner
    · obtain ⟨same, latest⟩ := List.append_inj' last rfl
      have time : dropped = ⟨now, false⟩ := by simpa using latest
      subst same time
      -- All that fills the window is as young as the window.
      calc limiter.limit
          ≤ window.count := full
        _ = admitted (since window.start) earlier := inv.counted.symm
        _ ≤ admitted (recent limiter.width now) earlier := by
            apply admitted_mono
            intro answer member counts
            simp only [since_eq_true, recent_eq_true] at counts ⊢
            exact ⟨ordered answer member, within.trans_le (add_le_add_left counts _)⟩
    · exact inv.needed earlier dropped inner isDropped

theorem Inv.answer (inv : limiter.Inv window history) (opened : window.start ≤ now)
    (ordered : ∀ earlier ∈ history, earlier.time ≤ now) :
    limiter.Inv (limiter.answer window now).1
      (history ++ [⟨now, (limiter.answer window now).2⟩]) := by
  have turned := inv.turn ordered
  have within := lt_turn_end limiter window now
  unfold Limiter.answer
  dsimp only
  split
  · next room => exact turned.admit (turn_start_le opened) within room
  · next full => exact turned.drop within ordered (not_lt.mp full)

end Steps

namespace Run

variable {limiter} {begun now : Time} {window : Window Time} {history : List (Answer Time)}

/-- The window was opened at the beginning or by one of the events. -/
theorem start_le (run : limiter.Run begun window history) (later : begun ≤ now)
    (ordered : ∀ earlier ∈ history, earlier.time ≤ now) : window.start ≤ now := by
  induction run generalizing now with
  | start => exact later
  | @next window history latest run began before ih =>
      have latestLe : latest ≤ now := by
        apply ordered ⟨latest, (limiter.answer window latest).2⟩
        simp
      have opened : (limiter.turn window latest).start ≤ latest := turn_start_le (ih began before)
      have kept : (limiter.answer window latest).1.start = (limiter.turn window latest).start := by
        unfold Limiter.answer
        dsimp only
        split <;> rfl
      rw [kept]
      exact opened.trans latestLe

variable [IsOrderedCancelAddMonoid Time]

theorem inv (run : limiter.Run begun window history) : limiter.Inv window history := by
  induction run with
  | start => exact inv_start
  | next run later ordered ih => exact ih.answer (run.start_le later ordered) ordered

end Run

end Limiter

end FixedWindow
