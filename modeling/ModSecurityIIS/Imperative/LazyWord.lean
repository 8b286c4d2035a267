import Mathlib.Order.BoundedOrder.Basic
import ModSecurityIIS.Imperative.Transition

/-!
# Words that are settled at their first use

Threads share an atomic word and settle it without a lock: one that loads the unset word asks a
source and stores what it makes of the answer. Loads and stores are relaxed. All that is known is
the order of the stores of the word: a thread never loads an older store than it has loaded or made
before.
-/

set_option autoImplicit false

namespace LazyWord

open Transition

/-- How a word is settled; no answer of the source leaves it unset. -/
structure Settling (Word Source : Type) where
  unset : Word
  settle : Source → Word
  settles : ∀ source, settle source ≠ unset

/-- A store with its place in the order of the stores. -/
structure Store (Time Word : Type) where
  time : Time
  word : Word
  deriving DecidableEq, Repr

/-- `answers` holds the words with which the calls returned. -/
structure Shared (Time Word Source : Type) where
  stores : List (Store Time Word)
  source : Source
  answers : List Word

inductive Point (Word : Type) where
  | outside
  | asking
  | storing (word : Word)
  deriving DecidableEq, Repr

/-- `view` is the newest store that the thread has met, and `asked` counts its questions. -/
structure Local (Time Word : Type) where
  point : Point Word
  view : Time
  asked : Nat
  deriving DecidableEq, Repr

inductive Action where
  | load
  | ask
  | store
  | change
  deriving DecidableEq, Repr

section Steps

variable {Thread Time Word Source : Type} [LinearOrder Time] [OrderBot Time]

/-- The steps of one thread. The source may take another allowed value at any time. -/
inductive Step (settling : Settling Word Source) (allowed : Source → Prop) :
    Shared Time Word Source × Local Time Word → Action →
      Shared Time Word Source × Local Time Word → Prop where
  | hit {shared : Shared Time Word Source} {thread : Local Time Word} {found : Store Time Word} :
      thread.point = .outside → found ∈ shared.stores → thread.view ≤ found.time →
      found.word ≠ settling.unset →
      Step settling allowed (shared, thread) .load
        ({ shared with answers := shared.answers ++ [found.word] },
          { thread with view := found.time })
  | miss {shared : Shared Time Word Source} {thread : Local Time Word} {found : Store Time Word} :
      thread.point = .outside → found ∈ shared.stores → thread.view ≤ found.time →
      found.word = settling.unset →
      Step settling allowed (shared, thread) .load
        (shared, { thread with point := .asking, view := found.time })
  | ask {shared : Shared Time Word Source} {thread : Local Time Word} :
      thread.point = .asking →
      Step settling allowed (shared, thread) .ask
        (shared,
          { thread with
            point := .storing (settling.settle shared.source)
            asked := thread.asked + 1 })
  | store {shared : Shared Time Word Source} {thread : Local Time Word} {word : Word}
      (time : Time) :
      thread.point = .storing word → thread.view < time →
      (∀ other ∈ shared.stores, other.time ≠ time) →
      Step settling allowed (shared, thread) .store
        ({ shared with
            stores := ⟨time, word⟩ :: shared.stores
            answers := shared.answers ++ [word] },
          { thread with point := .outside, view := time })
  | change {shared : Shared Time Word Source} {thread : Local Time Word} (source : Source) :
      allowed source →
      Step settling allowed (shared, thread) .change ({ shared with source }, thread)

/-- The word is unset at first, and nobody has met another store. -/
structure Start (settling : Settling Word Source) (allowed : Source → Prop)
    (shared : Shared Time Word Source) (threads : Thread → Local Time Word) : Prop where
  stores : shared.stores = [⟨⊥, settling.unset⟩]
  source : allowed shared.source
  answers : shared.answers = []
  threads : ∀ thread, threads thread = ⟨.outside, ⊥, 0⟩

def lazySystem [DecidableEq Thread] (settling : Settling Word Source) (allowed : Source → Prop) :
    System (Shared Time Word Source × (Thread → Local Time Word)) (Thread × Action) :=
  sharing (Start settling allowed) fun _ => Step settling allowed

/-! ## What is settled -/

/-- The word of an allowed value. -/
def Settling.Settled (settling : Settling Word Source) (allowed : Source → Prop) (word : Word) :
    Prop := ∃ source, allowed source ∧ word = settling.settle source

/-- Only the first store is unset, and all else comes from the source. -/
structure Kept (settling : Settling Word Source) (allowed : Source → Prop)
    (shared : Shared Time Word Source) : Prop where
  first : ∀ store ∈ shared.stores, store.word = settling.unset → store.time = ⊥
  stored : ∀ store ∈ shared.stores,
    store.word ≠ settling.unset → settling.Settled allowed store.word
  answered : ∀ word ∈ shared.answers, settling.Settled allowed word
  source : allowed shared.source

/-- A thread that has asked has met a store that is not the first. -/
def Local.Held (settling : Settling Word Source) (allowed : Source → Prop)
    (thread : Local Time Word) : Prop :=
  match thread.point with
  | .outside => thread.asked = 0 ∨ thread.asked = 1 ∧ ⊥ < thread.view
  | .asking => thread.asked = 0
  | .storing word => thread.asked = 1 ∧ settling.Settled allowed word

variable {settling : Settling Word Source} {allowed : Source → Prop}
  {shared after : Shared Time Word Source} {thread next : Local Time Word} {action : Action}

theorem Local.Held.asked_le (held : thread.Held settling allowed) : thread.asked ≤ 1 := by
  unfold Local.Held at held
  cases point : thread.point with
  | outside => rw [point] at held; omega
  | asking => rw [point] at held; omega
  | storing word => rw [point] at held; exact held.1.le

theorem step_kept (kept : Kept settling allowed shared) (held : thread.Held settling allowed)
    (step : Step settling allowed (shared, thread) action (after, next)) :
    Kept settling allowed after := by
  cases step with
  | hit _ inStores _ isSet =>
      refine { kept with answered := List.forall_mem_append.mpr ⟨kept.answered, ?_⟩ }
      simpa using kept.stored _ inStores isSet
  | miss => exact kept
  | ask => exact kept
  | change _ permitted => exact { kept with source := permitted }
  | store _ storing newer _ =>
      rw [Local.Held, storing] at held
      obtain ⟨source, permitted, isWord⟩ := held.2
      refine ⟨List.forall_mem_cons.mpr ⟨fun unset => ?_, kept.first⟩,
        List.forall_mem_cons.mpr ⟨fun _ => held.2, kept.stored⟩,
        List.forall_mem_append.mpr ⟨kept.answered, by simpa using held.2⟩, kept.source⟩
      exact absurd (isWord.symm.trans unset) (settling.settles source)

/-- A thread that has met a store after the first never loads the first again. -/
theorem step_held (kept : Kept settling allowed shared) (held : thread.Held settling allowed)
    (step : Step settling allowed (shared, thread) action (after, next)) :
    next.Held settling allowed := by
  cases step with
  | hit outside inStores newer isSet =>
      rw [Local.Held, outside] at held
      simp only [Local.Held, outside]
      exact held.imp_right fun asked => ⟨asked.1, asked.2.trans_le newer⟩
  | miss outside inStores newer isUnset =>
      rw [Local.Held, outside] at held
      rcases held with unasked | ⟨_, beyond⟩
      · exact unasked
      · rw [kept.first _ inStores isUnset] at newer
        exact absurd newer beyond.not_ge
  | ask asking =>
      rw [Local.Held, asking] at held
      exact ⟨congrArg (· + 1) held, _, kept.source, rfl⟩
  | change => exact held
  | store _ storing newer _ =>
      rw [Local.Held, storing] at held
      exact .inr ⟨held.1, bot_le.trans_lt newer⟩

variable [DecidableEq Thread] {s : Shared Time Word Source × (Thread → Local Time Word)}

theorem reachable_step (thread : Thread) (reached : (lazySystem settling allowed).Reachable s)
    (step : Step settling allowed (s.1, s.2 thread) action (after, next)) :
    (lazySystem settling allowed).Reachable (after, Function.update s.2 thread next) :=
  @System.Reachable.step _ _ _ _ _ (thread, action) reached ⟨next, step, rfl⟩

theorem kept_of_reachable (reached : (lazySystem settling allowed).Reachable s) :
    Kept settling allowed s.1 ∧ ∀ thread, (s.2 thread).Held settling allowed := by
  refine @sharing_invariant _ _ _ _ _ _ _ (Kept settling allowed)
    (fun _ _ own => own.Held settling allowed) ?_ ?_ ?_ _ reached
  · intro shared threads start
    refine ⟨⟨?_, ?_, ?_, start.source⟩, fun thread => ?_⟩
    · simp [start.stores]
    · simp [start.stores]
    · simp [start.answers]
    · rw [start.threads]
      exact .inl rfl
  · exact fun _ _ _ _ _ _ kept held step => ⟨step_kept kept held step, step_held kept held step⟩
  · exact fun _ _ _ _ _ _ _ _ _ _ _ _ other => other

/-- Every call answers with the word of an allowed value. -/
theorem answers_settled (reached : (lazySystem settling allowed).Reachable s) :
    ∀ word ∈ s.1.answers, settling.Settled allowed word :=
  (kept_of_reachable reached).1.answered

/-- No thread asks the source a second time. -/
theorem asked_le_one (reached : (lazySystem settling allowed).Reachable s) (thread : Thread) :
    (s.2 thread).asked ≤ 1 :=
  ((kept_of_reachable reached).2 thread).asked_le

end Steps

end LazyWord
