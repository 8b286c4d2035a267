import ModSecurityIIS.Imperative.Clock

/-!
# Refusals

Programs that may refuse a request, by a value or by a throw, and owe an answer when they do.
`Verdict` says how a run ends whose answer is missing exactly when `lost` holds.
-/

set_option autoImplicit false

namespace Imperative

open Program

/-- What a run has done about the answer: nothing that bears on it, given it, or left it out. -/
structure Answering (σ : Type) where
  calm : σ → σ → Prop
  answered : σ → σ → Prop
  missing : σ → σ → Prop
  refl : ∀ state, calm state state
  trans : ∀ {s t u}, calm s t → calm t u → calm s u
  answered_after : ∀ {s t u}, calm s t → answered t u → answered s u
  missing_after : ∀ {s t u}, calm s t → missing t u → missing s u
  missing_of_calm : ∀ {s t}, calm s t → missing s t
  not_answered : ∀ {s t}, missing s t → ¬ answered s t

variable {σ α β : Type}

/-- How a run ends that refuses with the values `refuses` and with throws: what is refused is
answered exactly when the answer is not lost. -/
inductive Verdict (answering : Answering σ) (refuses : α → Prop) (lost : Prop) (state : σ) :
    Outcome σ α → Prop where
  | passed {value : α} {after : σ} :
      ¬ refuses value → ¬ lost → answering.calm state after →
      Verdict answering refuses lost state (.returned value after)
  | refused {value : α} {after : σ} :
      refuses value → ¬ lost → answering.answered state after →
      Verdict answering refuses lost state (.returned value after)
  | dropped {value : α} {after : σ} :
      refuses value → lost → answering.missing state after →
      Verdict answering refuses lost state (.returned value after)
  | failed {after : σ} :
      ¬ lost → answering.answered state after → Verdict answering refuses lost state (.thrown after)
  | threw {after : σ} :
      lost → answering.missing state after → Verdict answering refuses lost state (.thrown after)
  | halted {reason : Halt} {after : σ} :
      Verdict answering refuses lost state (.halted reason after)

namespace Verdict

variable {answering : Answering σ} {refuses : α → Prop} {judged : β → Prop}
  {lost missing : Prop} {state middle : σ} {program : Program σ α} {next : α → Program σ β}

theorem congr {outcome : Outcome σ α} (verdict : Verdict answering refuses lost state outcome)
    (same : missing ↔ lost) : Verdict answering refuses missing state outcome := by
  rwa [propext same]

theorem after {outcome : Outcome σ α}
    (verdict : Verdict answering refuses lost middle outcome)
    (before : answering.calm state middle) :
    Verdict answering refuses lost state outcome := by
  cases verdict with
  | passed passes kept still => exact .passed passes kept (answering.trans before still)
  | refused refuses kept answer =>
      exact .refused refuses kept (answering.answered_after before answer)
  | dropped refuses gone still => exact .dropped refuses gone (answering.missing_after before still)
  | failed kept answer => exact .failed kept (answering.answered_after before answer)
  | threw gone still => exact .threw gone (answering.missing_after before still)
  | halted => exact .halted

theorem pass {value : α} (passes : ¬ refuses value) (kept : ¬ lost) :
    Verdict answering refuses lost state ((Pure.pure value : Program σ α) state) :=
  .passed passes kept (answering.refl state)

theorem drop {value : α} (refused : refuses value) (gone : lost) :
    Verdict answering refuses lost state ((Pure.pure value : Program σ α) state) :=
  .dropped refused gone (answering.missing_of_calm (answering.refl state))

/-- A calm program on a clock loses the answer by a throw. -/
theorem bind_clocked {tick : σ → Nat} {throws : Nat → Prop} {count : Nat}
    (calm : Within answering.calm program) (clocked : Clocked tick throws count program)
    (rest : ∀ value after, program state = .returned value after →
      tick after = tick state + count → Verdict answering judged missing after (next value after)) :
    Verdict answering judged (AnyFrom throws (tick state) count ∨ missing) state
      ((program >>= next) state) := by
  have before := calm state
  have steps := clocked state
  rw [bind_apply]
  cases run : program state with
  | halted reason after => exact .halted
  | thrown after =>
      rw [run] at before steps
      exact .threw (.inl steps) (answering.missing_of_calm before)
  | returned value after =>
      rw [run] at before steps
      exact ((rest value after run steps.2).after before).congr (or_iff_right steps.1)

/-- A refusal of the first program is that of the whole; where it passes, the rest decides. -/
theorem andThen (first : Verdict answering refuses lost state (program state))
    (stops : ∀ value, refuses value → ∃ result, next value = Pure.pure result ∧ judged result)
    (only : missing → ∃ value after, program state = .returned value after ∧ ¬ refuses value)
    (rest : ∀ value after, program state = .returned value after → ¬ refuses value →
      Verdict answering judged missing after (next value after)) :
    Verdict answering judged (lost ∨ missing) state ((program >>= next) state) := by
  have unreached {value : α} {after : σ} (run : program state = .returned value after)
      (refused : refuses value) : ¬ missing := by
    intro gone
    obtain ⟨other, _, again, passes⟩ := only gone
    rw [run] at again
    cases again
    exact passes refused
  rw [bind_apply]
  cases run : program state with
  | halted reason after => exact .halted
  | returned value after =>
      rw [run] at first
      cases first with
      | passed passes kept still =>
          exact ((rest value after run passes).after still).congr (or_iff_right kept)
      | refused refused kept answer =>
          obtain ⟨result, same, done⟩ := stops value refused
          simp only [same]
          exact .refused done (not_or.mpr ⟨kept, unreached run refused⟩) answer
      | dropped refused gone still =>
          obtain ⟨result, same, done⟩ := stops value refused
          simp only [same]
          exact .dropped done (.inl gone) still
  | thrown after =>
      rw [run] at first
      cases first with
      | failed kept answer =>
          refine .failed (not_or.mpr ⟨kept, ?_⟩) answer
          intro gone
          obtain ⟨_, _, again, _⟩ := only gone
          rw [run] at again
          cases again
      | threw gone still => exact .threw (.inl gone) still

/-- The rest loses nothing. -/
theorem followed (first : Verdict answering refuses lost state (program state))
    (stops : ∀ value, refuses value → ∃ result, next value = Pure.pure result ∧ judged result)
    (rest : ∀ value after, ¬ refuses value →
      Verdict answering judged False after (next value after)) :
    Verdict answering judged lost state ((program >>= next) state) := by
  have whole := first.andThen stops False.elim fun value after _ passes => rest value after passes
  exact whole.congr (or_iff_left id).symm

/-- A handler that refuses keeps the verdict on the throw. -/
theorem tryCatch {handler : Program σ α}
    (body : Verdict answering refuses lost state (program state))
    (handles : ∀ s, ∃ value after, handler s = .returned value after ∧ refuses value ∧
      ∀ start, (answering.answered start s → answering.answered start after) ∧
        (answering.missing start s → answering.missing start after)) :
    Verdict answering refuses lost state (program.tryCatch handler state) := by
  rw [tryCatch_apply]
  cases run : program state with
  | returned value after => rwa [run] at body
  | halted reason after => exact .halted
  | thrown after =>
      rw [run] at body
      obtain ⟨value, final, handled, refused, keeps⟩ := handles after
      simp only [handled]
      cases body with
      | failed kept answer => exact .refused refused kept ((keeps state).1 answer)
      | threw gone still => exact .dropped refused gone ((keeps state).2 still)

/-- A refusal by a value is answered exactly when the answer is not lost. -/
theorem answered_iff {value : α} {after : σ}
    (verdict : Verdict answering refuses lost state (.returned value after))
    (refused : refuses value) : answering.answered state after ↔ ¬ lost := by
  cases verdict with
  | passed passes _ _ => exact absurd refused passes
  | refused _ kept answer => exact iff_of_true answer kept
  | dropped _ gone still => exact iff_of_false (answering.not_answered still) (not_not_intro gone)

end Verdict

end Imperative
