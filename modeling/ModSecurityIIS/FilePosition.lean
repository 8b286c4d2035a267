import Mathlib.Logic.Relation
import ModSecurityIIS.Imperative.Transition
import ModSecurityIIS.SendResponse

/-!
# Concurrent reads of one file

A duplicated handle shares the file object, and with it the file position, with the
original. The calls that inspect chunks of one file therefore move one position, each
between the Windows calls of the others.
-/

set_option autoImplicit false

namespace ModSecurityIIS

open Imperative Program Transition

/-- Where a call of `AppendResponseFileChunk` stands, named after its next Windows call.
A call that met an error has failed. -/
inductive FilePoint where
  | duplicateHandle
  | setFilePointer
  | getFileSize
  | readFile (length : Nat)
  | finished
  | failed
  deriving DecidableEq, Repr

/-- One call, on the range it was given; `appended` is what its transaction has got. -/
structure FileCall where
  start : Nat
  length : Nat
  point : FilePoint
  appended : Bytes
  deriving DecidableEq, Repr

/-- The test of the read loop. -/
def FilePoint.loop (length : Nat) : FilePoint :=
  if length = 0 then .finished else .readFile length

/-- The number of bytes a read brings: as many as Windows has ready of what is asked for. -/
def requestedBytes (content : Bytes) (position length ready : Nat) : Nat :=
  min ready (min (min length 65536) (content.length - position))

/-- One Windows call, on a file with the given content; no answer is an error. -/
def FileCall.next (content : Bytes) (position : Nat) (answer : Option Nat) (call : FileCall) :
    Option (FileCall × Nat) :=
  match call.point with
  | .duplicateHandle =>
      some ({ call with point := if answer.isSome then .setFilePointer else .failed }, position)
  | .setFilePointer =>
      if answer.isSome then
        -- the offset is signed: from 2^63 on it is refused
        if call.start < 2 ^ 63 then
          some
            ({ call with
                point :=
                  if call.length = httpByteRangeToEof then .getFileSize
                  else .loop call.length },
              call.start)
        else some ({ call with point := .finished }, position)
      else some ({ call with point := .failed }, position)
  | .getFileSize =>
      some
        ({ call with
            point := if answer.isSome then .loop (content.length - call.start) else .failed },
          position)
  | .readFile length =>
      match answer with
      | none => some ({ call with point := .failed }, position)
      | some ready =>
          let got := requestedBytes content position length ready
          if got = 0 then
            some ({ call with point := if position < content.length then .failed else .finished },
              position)
          else
            some
              ({ call with
                  point := .loop (length - got)
                  appended := call.appended ++ (content.drop position).take got },
                position + got)
  | .finished => none
  | .failed => none

/-- The ways a Windows call can go. -/
inductive FileCall.Takes (content : Bytes) (position : Nat) (call : FileCall) :
    Option Nat → FileCall → Nat → Prop where
  | failed :
      call.point ≠ .finished → call.point ≠ .failed →
      Takes content position call none { call with point := .failed } position
  | duplicated {ready : Nat} :
      call.point = .duplicateHandle →
      Takes content position call (some ready) { call with point := .setFilePointer } position
  | pointed {ready : Nat} :
      call.point = .setFilePointer → call.start < 2 ^ 63 → call.length ≠ httpByteRangeToEof →
      Takes content position call (some ready) { call with point := .loop call.length } call.start
  | pointedToEof {ready : Nat} :
      call.point = .setFilePointer → call.start < 2 ^ 63 → call.length = httpByteRangeToEof →
      Takes content position call (some ready) { call with point := .getFileSize } call.start
  | refused {ready : Nat} :
      call.point = .setFilePointer → 2 ^ 63 ≤ call.start →
      Takes content position call (some ready) { call with point := .finished } position
  | sized {ready : Nat} :
      call.point = .getFileSize →
      Takes content position call (some ready)
        { call with point := .loop (content.length - call.start) } position
  | stuck {ready rest : Nat} :
      call.point = .readFile rest → requestedBytes content position rest ready = 0 →
      position < content.length →
      Takes content position call (some ready) { call with point := .failed } position
  | ended {ready rest : Nat} :
      call.point = .readFile rest → requestedBytes content position rest ready = 0 →
      content.length ≤ position →
      Takes content position call (some ready) { call with point := .finished } position
  | got {ready rest : Nat} :
      call.point = .readFile rest → requestedBytes content position rest ready ≠ 0 →
      Takes content position call (some ready)
        { call with
          point := .loop (rest - requestedBytes content position rest ready)
          appended := call.appended ++
            (content.drop position).take (requestedBytes content position rest ready) }
        (position + requestedBytes content position rest ready)

theorem FileCall.next_takes {content : Bytes} {position final : Nat} {answer : Option Nat}
    {call after : FileCall} (took : call.next content position answer = some (after, final)) :
    call.Takes content position answer after final := by
  cases answer with
  | none =>
      cases here : call.point with
      | finished => simp only [FileCall.next, here, reduceCtorEq] at took
      | failed => simp only [FileCall.next, here, reduceCtorEq] at took
      | _ =>
          simp only [FileCall.next, here] at took
          cases took
          exact .failed (by simp [here]) (by simp [here])
  | some ready =>
      cases here : call.point with
      | finished => simp only [FileCall.next, here, reduceCtorEq] at took
      | failed => simp only [FileCall.next, here, reduceCtorEq] at took
      | duplicateHandle =>
          simp only [FileCall.next, here] at took
          cases took
          exact .duplicated here
      | setFilePointer =>
          simp only [FileCall.next, here, Option.isSome_some, ↓reduceIte] at took
          split at took
          · next signed =>
              by_cases toEof : call.length = httpByteRangeToEof
              · rw [if_pos toEof] at took
                cases took
                exact .pointedToEof here signed toEof
              · rw [if_neg toEof] at took
                cases took
                exact .pointed here signed toEof
          · next unsigned =>
              cases took
              exact .refused here (Nat.not_lt.mp unsigned)
      | getFileSize =>
          simp only [FileCall.next, here] at took
          cases took
          exact .sized here
      | readFile rest =>
          simp only [FileCall.next, here] at took
          split at took
          · next nothing =>
              by_cases more : position < content.length
              · rw [if_pos more] at took
                cases took
                exact .stuck here nothing more
              · rw [if_neg more] at took
                cases took
                exact .ended here nothing (Nat.not_lt.mp more)
          · next some_ =>
              cases took
              exact .got here some_

def FileCall.Over (call : FileCall) : Prop := call.point = .finished ∨ call.point = .failed

/-- The file with its position, which stood at `original` before the calls. -/
structure FileState where
  content : Bytes
  original : Nat
  position : Nat
  calls : List FileCall

inductive FileLabel where
  | start (start length : Nat)
  | run (index : Nat) (answer : Option Nat)

inductive FileStep : FileState → FileLabel → FileState → Prop where
  | start {s : FileState} {start length : Nat} :
      FileStep s (.start start length)
        { s with calls := s.calls ++ [{ start, length, point := .duplicateHandle, appended := [] }] }
  | run {s : FileState} {front back : List FileCall} {call after : FileCall} {position : Nat}
      {answer : Option Nat} :
      s.calls = front ++ call :: back →
      call.next s.content s.position answer = some (after, position) →
      FileStep s (.run front.length answer)
        { s with position, calls := front ++ after :: back }

/-- The size of a file is a signed 64-bit number. -/
def fileSystem : System FileState FileLabel where
  initial s := s.content.length < 2 ^ 63 ∧ s.calls = [] ∧ s.position = s.original
  step := FileStep

/-- The bytes of a range of a file, cut at its end. -/
def fileRange (content : Bytes) (start length : Nat) : Bytes :=
  if length = httpByteRangeToEof then content.drop start else (content.drop start).take length

/-- Every call that met no error appended its own range, and with no call running the
position is where it was. -/
structure FileState.Right (s : FileState) : Prop where
  ranges : ∀ call ∈ s.calls, call.point = .finished →
    call.appended = fileRange s.content call.start call.length
  position : (∀ call ∈ s.calls, call.Over) → s.position = s.original

/-! ## One call alone -/

/-- The calls of one run of the function with nothing in between. -/
abbrev AloneStep (content : Bytes) (before after : FileCall × Nat) : Prop :=
  ∃ answer, before.1.next content before.2 answer = some after

abbrev ReadsAlone (content : Bytes) : FileCall × Nat → FileCall × Nat → Prop :=
  Relation.ReflTransGen (AloneStep content)

def Event.body : Event → Bytes
  | .engine _ (.appendResponseBody body) _ => body
  | _ => []

/-- The bytes of all bodies that were handed out. -/
def World.bodies (w : World) : Bytes := w.log.flatMap Event.body

section Alone

variable {env : Env} {tx : TransactionId} {content : Bytes}

theorem appendResponseBody_bodies (calm : ∀ n, env.throws n = false) (body : Bytes) (w : World) :
    ∃ after, engineCall env tx (.appendResponseBody body) w = .returned () after ∧
      after.bodies = w.bodies ++ body := by
  refine ⟨w.called env tx (.appendResponseBody body), ?_, ?_⟩
  · rw [engineCall_apply, if_neg (by simp [calm])]
  · simp [World.bodies, World.called, Event.body]

theorem readFile_alone {start range length position ready : Nat} {appended : Bytes}
    (running : length ≠ 0) (some_ : requestedBytes content position length ready ≠ 0) :
    AloneStep content (⟨start, range, .loop length, appended⟩, position)
      (⟨start, range, .loop (length - requestedBytes content position length ready),
        appended ++ (content.drop position).take (requestedBytes content position length ready)⟩,
        position + requestedBytes content position length ready) := by
  refine ⟨some ready, ?_⟩
  rw [FilePoint.loop, if_neg running]
  simp only [FileCall.next, if_neg some_]

theorem readNone_alone {start range length position : Nat} {appended : Bytes}
    {answer : Option Nat} (running : length ≠ 0)
    (nothing : requestedBytes content position length (answer.getD 0) = 0) :
    ∃ point, AloneStep content (⟨start, range, .loop length, appended⟩, position)
      (⟨start, range, point, appended⟩, position) ∧ (point = .finished ∨ point = .failed) := by
  cases answer with
  | none =>
      refine ⟨.failed, ⟨none, ?_⟩, .inr rfl⟩
      rw [FilePoint.loop, if_neg running]
      rfl
  | some ready =>
      refine ⟨if position < content.length then .failed else .finished, ⟨some ready, ?_⟩, ?_⟩
      · rw [FilePoint.loop, if_neg running]
        exact if_pos nothing
      · split
        · exact .inr rfl
        · exact .inl rfl

theorem appendFileLoop_alone (calm : ∀ n, env.throws n = false) {start range : Nat}
    (bound length : Nat) (appended : Bytes) (position : Nat)
    (enough : (content.drop position).length < bound) (w : World) :
    ∃ after bytes point final,
      appendFileLoop env tx bound (content.drop position) length appended.length w =
        .returned (appended ++ bytes).length after ∧
      after.bodies = w.bodies ++ bytes ∧
      ReadsAlone content (⟨start, range, .loop length, appended⟩, position)
        (⟨start, range, point, appended ++ bytes⟩, final) ∧
      (point = .finished ∨ point = .failed) := by
  induction bound generalizing length appended position w with
  | zero => omega
  | succ bound ih =>
      rw [appendFileLoop]
      by_cases done : length = 0
      · refine ⟨w, [], .finished, position, ?_, ?_, ?_, .inl rfl⟩
        · rw [if_pos done, List.append_nil]
          rfl
        · simp
        · rw [List.append_nil, FilePoint.loop, if_pos done]
      · rw [if_neg done, bind_returned (consult_apply w _)]
        have count : min ((env.readFile w.tick).getD 0) (min (min length 65536) (content.drop position).length) =
            requestedBytes content position length ((env.readFile w.tick).getD 0) := by
          rw [requestedBytes, List.length_drop]
        simp only [count]
        by_cases nothing : requestedBytes content position length ((env.readFile w.tick).getD 0) = 0
        · rw [if_pos nothing]
          obtain ⟨point, step, isOver⟩ := @readNone_alone content start range length position appended
            (env.readFile w.tick) done nothing
          refine ⟨w.advance, [], point, position, ?_, ?_, ?_, isOver⟩
          · rw [List.append_nil]
            rfl
          · rw [List.append_nil]
            rfl
          · rw [List.append_nil]
            exact .single step
        · rw [if_neg nothing]
          generalize gotten : requestedBytes content position length ((env.readFile w.tick).getD 0) =
            got at nothing
          have within : got ≤ (content.drop position).length := by
            rw [← gotten, requestedBytes, List.length_drop]
            omega
          obtain ⟨middle, called, bodies⟩ :=
            @appendResponseBody_bodies env tx calm ((content.drop position).take got) w.advance
          rw [bind_returned called]
          have total : appended.length + got =
              (appended ++ (content.drop position).take got).length := by
            rw [List.length_append, List.length_take, Nat.min_eq_left within]
          have shorter : (content.drop (position + got)).length < bound := by
            rw [List.length_drop] at enough within ⊢
            omega
          obtain ⟨after, bytes, point, final, ran, log, alone, isOver⟩ :=
            ih (length - got) (appended ++ (content.drop position).take got) (position + got)
              shorter middle
          refine ⟨after, (content.drop position).take got ++ bytes, point, final, ?_, ?_, ?_, isOver⟩
          · rw [List.drop_drop, total, ran, List.append_assoc]
          · rw [log, bodies, List.append_assoc]
            rfl
          · rw [← List.append_assoc]
            refine .head ?_ alone
            have step := @readFile_alone content start range length position _ appended done
              (gotten ▸ nothing)
            rw [gotten] at step
            exact step

/-- With nothing in between, the Windows calls of a call do what the function does. -/
theorem appendResponseFileChunk_alone (calm : ∀ n, env.throws n = false) (start length : Nat)
    (position : Nat) (w : World) :
    ∃ after bytes point final,
      appendResponseFileChunk env tx content start length w = .returned bytes.length after ∧
      after.bodies = w.bodies ++ bytes ∧
      ReadsAlone content (⟨start, length, .duplicateHandle, []⟩, position)
        (⟨start, length, point, bytes⟩, final) ∧
      (point = .finished ∨ point = .failed) := by
  have same (v : World) : v.advance.bodies = v.bodies ++ [] := (List.append_nil _).symm
  have loop (range : Nat) (v : World) :=
    @appendFileLoop_alone env tx content calm start length ((content.drop start).length + 1) range []
      start (Nat.lt_succ_self _) v
  rw [appendResponseFileChunk, bind_returned (consult_apply w _)]
  cases env.succeeds w.tick with
  | false =>
      exact ⟨_, [], .failed, position, rfl, same w, .single ⟨none, rfl⟩, .inr rfl⟩
  | true =>
      have duplicated : AloneStep content (⟨start, length, .duplicateHandle, []⟩, position)
          (⟨start, length, .setFilePointer, []⟩, position) := ⟨some 0, rfl⟩
      rw [if_pos rfl, bind_returned (consult_apply _ _)]
      cases positioned : env.succeeds w.advance.tick with
      | false =>
          refine ⟨_, [], .failed, position, rfl, ?_, .head duplicated (.single ⟨none, rfl⟩), .inr rfl⟩
          exact same w
      | true =>
          by_cases signed : start < 2 ^ 63
          · have pointed : AloneStep content (⟨start, length, .setFilePointer, []⟩, position)
                (⟨start, length,
                  if length = httpByteRangeToEof then .getFileSize else .loop length, []⟩, start) :=
              ⟨some 0, by simp only [FileCall.next, Option.isSome_some, if_true, if_pos signed]⟩
            rw [if_pos (by rw [decide_eq_true signed]; rfl), rangeLength]
            by_cases toEof : length = httpByteRangeToEof
            · rw [if_pos toEof] at pointed
              rw [if_pos toEof, bind_apply, bind_returned (consult_apply _ _)]
              cases env.succeeds w.advance.advance.tick with
              | false =>
                  refine ⟨w.advance.advance.advance, [], .failed, start, rfl, same w, ?_, .inr rfl⟩
                  exact .head duplicated (.head pointed (.single ⟨none, rfl⟩))
              | true =>
                  have sized : AloneStep content (⟨start, length, .getFileSize, []⟩, start)
                      (⟨start, length, .loop (content.length - start), []⟩, start) := ⟨some 0, rfl⟩
                  have rest : (if true && decide (start < content.length) then content.length - start
                      else 0) = content.length - start := by
                    by_cases inside : start < content.length
                    · simp [inside]
                    · simp only [inside, decide_false, Bool.and_false, Bool.false_eq_true, if_false]
                      omega
                  rw [rest, pure_apply]
                  obtain ⟨after, bytes, point, final, ran, log, alone, isOver⟩ :=
                    loop (content.length - start) w.advance.advance.advance
                  exact ⟨after, bytes, point, final, ran, log,
                    .head duplicated (.head pointed (.head sized alone)), isOver⟩
            · rw [if_neg toEof] at pointed
              rw [if_neg toEof, bind_returned (pure_apply _ _)]
              obtain ⟨after, bytes, point, final, ran, log, alone, isOver⟩ :=
                loop length w.advance.advance
              exact ⟨after, bytes, point, final, ran, log,
                .head duplicated (.head pointed alone), isOver⟩
          · refine ⟨w.advance.advance, [], .finished, position, ?_, same w, ?_, .inl rfl⟩
            · rw [if_neg (by rw [decide_eq_false signed]; simp)]
              rfl
            · refine .head duplicated (.single ⟨some 0, ?_⟩)
              simp only [FileCall.next, Option.isSome_some, if_true, if_neg signed]

end Alone

/-! ## When the calls do not get in each other's way -/

/-- A read finds the position where the call's own reads have left it. -/
def FileState.InPlace (s : FileState) (call : FileCall) : FilePoint → Prop
  | .readFile _ => s.position = call.start + call.appended.length
  | _ => True

/-- Where the Windows call ends its call, it leaves the position that was there before
the calls. -/
def FileState.Restores (s : FileState) (call : FileCall) (answer : Option Nat) : FilePoint → Prop
  | .duplicateHandle => answer = none → s.position = s.original
  | .setFilePointer =>
      (answer = none ∨ 2 ^ 63 ≤ call.start → s.position = s.original) ∧
        (answer ≠ none → call.start < 2 ^ 63 → call.length = 0 → call.start = s.original)
  | .getFileSize => answer = none ∨ s.content.length ≤ call.start → s.position = s.original
  | .readFile length =>
      (requestedBytes s.content s.position length (answer.getD 0) = 0 → s.position = s.original) ∧
        (requestedBytes s.content s.position length (answer.getD 0) = length →
          s.position + length = s.original)
  | .finished => True
  | .failed => True

/-- Every read is in place, and the call that leaves none running restores the position. -/
def fileCondition (s : FileState) : FileLabel → Prop
  | .start _ _ => True
  | .run index answer =>
      ∀ front call back, s.calls = front ++ call :: back → front.length = index →
        s.InPlace call call.point ∧
          ((∀ other ∈ front ++ back, other.Over) → s.Restores call answer call.point)

/-- The condition speaks of the one call that runs. -/
theorem fileCondition_run {s : FileState} {front back : List FileCall} {call : FileCall}
    {answer : Option Nat} (pool : s.calls = front ++ call :: back)
    (place : s.InPlace call call.point)
    (restores : (∀ other ∈ front ++ back, other.Over) → s.Restores call answer call.point) :
    fileCondition s (.run front.length answer) := by
  intro before other behind shape same
  rw [pool] at shape
  obtain ⟨rfl, rest⟩ := List.append_inj shape same.symm
  cases rest
  exact ⟨place, restores⟩

/-- How far a call in its own place has come. -/
def FileCall.Progress (content : Bytes) (call : FileCall) : FilePoint → Prop
  | .duplicateHandle => call.appended = []
  | .setFilePointer => call.appended = []
  | .getFileSize => call.appended = [] ∧ call.length = httpByteRangeToEof
  | .readFile rest =>
      rest ≠ 0 ∧ call.appended = (content.drop call.start).take call.appended.length ∧
        fileRange content call.start call.length =
          (content.drop call.start).take (call.appended.length + rest)
  | .finished => call.appended = fileRange content call.start call.length
  | .failed => True

structure FileState.Orderly (s : FileState) : Prop where
  small : s.content.length < 2 ^ 63
  progress : ∀ call ∈ s.calls, call.Progress s.content call.point
  position : (∀ call ∈ s.calls, call.Over) → s.position = s.original

section Orderly

variable {s : FileState} {call after : FileCall} {answer : Option Nat} {final : Nat}

theorem progress_loop {content : Bytes} {call : FileCall} {rest : Nat}
    (own : call.appended = (content.drop call.start).take call.appended.length)
    (range : fileRange content call.start call.length =
      (content.drop call.start).take (call.appended.length + rest)) :
    call.Progress content (.loop rest) := by
  unfold FilePoint.loop
  split
  · next done =>
      rw [done, Nat.add_zero] at range
      exact own.trans range.symm
  · next running => exact ⟨running, own, range⟩

theorem progress_read {content : Bytes} {rest : Nat} {ready : Nat}
    (progress : call.Progress content (.readFile rest)) {position : Nat}
    (place : position = call.start + call.appended.length) :
    FileCall.Progress content
      { call with
        point := .loop (rest - requestedBytes content position rest ready)
        appended := call.appended ++
          (content.drop position).take (requestedBytes content position rest ready) }
      (.loop (rest - requestedBytes content position rest ready)) := by
  obtain ⟨_, own, range⟩ := progress
  have asked : requestedBytes content position rest ready ≤ rest := by
    unfold requestedBytes
    omega
  have there : requestedBytes content position rest ready ≤ (content.drop position).length := by
    unfold requestedBytes
    rw [List.length_drop]
    omega
  generalize requestedBytes content position rest ready = got at asked there ⊢
  have behind : content.drop position = (content.drop call.start).drop call.appended.length := by
    rw [List.drop_drop, place]
  have grown : (call.appended ++ (content.drop position).take got).length =
      call.appended.length + got := by
    rw [List.length_append, List.length_take, Nat.min_eq_left there]
  apply progress_loop
  · change call.appended ++ _ = (content.drop call.start).take (call.appended ++ _).length
    rw [grown, behind, List.take_add, ← own]
  · change fileRange content call.start call.length =
      (content.drop call.start).take ((call.appended ++ _).length + (rest - got))
    rw [range, grown]
    congr 1
    omega

theorem progress_end {content : Bytes} {rest : Nat} (progress : call.Progress content (.readFile rest))
    (ended : content.length ≤ call.start + call.appended.length) :
    call.appended = fileRange content call.start call.length := by
  obtain ⟨_, own, range⟩ := progress
  have all : (content.drop call.start).length ≤ call.appended.length := by
    rw [List.length_drop]
    omega
  rw [range, List.take_of_length_le (Nat.le_add_right_of_le all)]
  rw [List.take_of_length_le all] at own
  exact own

theorem next_progress (small : s.content.length < 2 ^ 63)
    (progress : call.Progress s.content call.point) (place : s.InPlace call call.point)
    (took : call.next s.content s.position answer = some (after, final)) :
    after.Progress s.content after.point := by
  cases FileCall.next_takes took with
  | failed => trivial
  | duplicated here =>
      rw [here] at progress
      exact progress
  | pointed here _ cut =>
      rw [here] at progress
      apply progress_loop
      · exact (by rw [progress]; rfl)
      · change fileRange _ call.start call.length =
          (s.content.drop call.start).take (call.appended.length + call.length)
        rw [fileRange, if_neg cut, progress, List.length_nil, Nat.zero_add]
  | pointedToEof here _ toEof =>
      rw [here] at progress
      exact ⟨progress, toEof⟩
  | refused here beyond =>
      rw [here] at progress
      change call.appended = fileRange s.content call.start call.length
      rw [progress, fileRange, List.drop_eq_nil_of_le (by omega)]
      simp
  | sized here =>
      rw [here] at progress
      apply progress_loop
      · exact (by rw [progress.1]; rfl)
      · change fileRange _ call.start call.length =
          (s.content.drop call.start).take (call.appended.length + (s.content.length - call.start))
        rw [fileRange, if_pos progress.2, progress.1, List.length_nil, Nat.zero_add]
        exact (List.take_of_length_le (by rw [List.length_drop])).symm
  | stuck => trivial
  | ended here _ done =>
      rw [here] at progress place
      apply progress_end progress
      rw [← place]
      exact done
  | got here =>
      rw [here] at progress place
      exact progress_read progress place

theorem loop_over {length : Nat} (isOver : FilePoint.loop length = .finished ∨
    FilePoint.loop length = .failed) : length = 0 := by
  unfold FilePoint.loop at isOver
  split at isOver
  · next done => exact done
  · rcases isOver with wrong | wrong <;> cases wrong

/-- The Windows call that ends its call leaves the position where the condition says. -/
theorem next_position (restores : s.Restores call answer call.point)
    (took : call.next s.content s.position answer = some (after, final)) (isOver : after.Over) :
    final = s.original := by
  cases FileCall.next_takes took with
  | failed running living =>
      cases here : call.point with
      | duplicateHandle =>
          rw [here] at restores
          exact restores rfl
      | setFilePointer =>
          rw [here] at restores
          exact restores.1 (.inl rfl)
      | getFileSize =>
          rw [here] at restores
          exact restores (.inl rfl)
      | readFile rest =>
          rw [here] at restores
          apply restores.1
          unfold requestedBytes
          rw [Option.getD_none, Nat.zero_min]
      | finished => exact absurd here running
      | failed => exact absurd here living
  | duplicated => rcases isOver with wrong | wrong <;> cases wrong
  | pointed here signed =>
      rw [here] at restores
      exact restores.2 (by simp) signed (loop_over isOver)
  | pointedToEof => rcases isOver with wrong | wrong <;> cases wrong
  | refused here beyond =>
      rw [here] at restores
      exact restores.1 (.inr beyond)
  | sized here =>
      rw [here] at restores
      have done := loop_over isOver
      exact restores (.inr (by omega))
  | stuck here nothing =>
      rw [here] at restores
      exact restores.1 nothing
  | ended here nothing =>
      rw [here] at restores
      exact restores.1 nothing
  | @got ready rest here =>
      rw [here] at restores
      have done := loop_over isOver
      have whole : requestedBytes s.content s.position rest ready = rest := by
        have asked : requestedBytes s.content s.position rest ready ≤ rest := by
          unfold requestedBytes
          omega
        omega
      rw [whole]
      exact restores.2 whole

theorem orderly_start (start : fileSystem.initial s) : s.Orderly := by
  obtain ⟨small, none_, same⟩ := start
  constructor
  · exact small
  · intro call member
    rw [none_] at member
    cases member
  · exact fun _ => same

theorem orderly_step {label : FileLabel} {next : FileState} (orderly : s.Orderly)
    (condition : fileCondition s label) (step : FileStep s label next) : next.Orderly := by
  cases step with
  | start =>
      constructor
      · exact orderly.small
      · exact forall_started orderly.progress rfl
      · intro isOver
        have running := isOver _ (List.mem_append_right _ (List.mem_singleton_self _))
        rcases running with wrong | wrong <;> cases wrong
  | @run front back call after position answer pool took =>
      obtain ⟨place, restores⟩ := condition front call back pool rfl
      have known := orderly.progress call (by simp [pool])
      constructor
      · exact orderly.small
      · refine forall_stepped (fun other beside => ?_)
          (next_progress (s := s) orderly.small known place took)
        exact orderly.progress other (mem_of_beside pool beside)
      · intro isOver
        have others : ∀ other ∈ front ++ back, other.Over := by
          intro other member
          apply isOver other
          rcases List.mem_append.mp member with early | late
          · exact List.mem_append_left _ early
          · exact List.mem_append_right _ (List.mem_cons_of_mem _ late)
        have ended : after.Over := isOver after (by simp)
        exact next_position (s := s) (restores others) took ended

/-- In a run whose every step meets the condition, every call gets its own range and the
position is restored. -/
theorem file_ranges_appended (reached : fileSystem.Reaches fileCondition s) : s.Right := by
  have orderly : s.Orderly :=
    reached.invariant (fun _ start => orderly_start start)
      fun _ _ _ valid condition step => orderly_step valid condition step
  constructor
  · intro call member finished
    have progress := orderly.progress call member
    rw [finished] at progress
    exact progress
  · exact orderly.position

end Orderly

/-- A file of two bytes whose position is where a reader of both leaves it. -/
def FileState.twoBytes (original : Nat) : FileState where
  content := [104, 105]
  original := original
  position := original
  calls := []

/-- Two calls on the whole file, one after the other, once both have duplicated the handle. -/
theorem file_ranges_appended_inTurn : ∃ s : FileState,
    s.calls = [⟨0, 2, .finished, [104, 105]⟩, ⟨0, 2, .finished, [104, 105]⟩] ∧ s.Right := by
  have began : fileSystem.Reaches fileCondition (.twoBytes 2) := .start ⟨by decide, rfl, rfl⟩
  have first := began.next (show fileCondition _ (.start 0 2) from trivial) .start
  have second := first.next (show fileCondition _ (.start 0 2) from trivial) .start
  have waits (other : FileCall) (rest : List FileCall) (running : ¬ other.Over) :
      ¬ ∀ call ∈ other :: rest, call.Over := fun isOver => running (isOver other List.mem_cons_self)
  have duplicated := second.next
    (@fileCondition_run _ [] [_] _ (some 0) rfl trivial fun isOver => absurd isOver (waits _ _ nofun))
    (@FileStep.run _ [] [_] _ _ _ (some 0) rfl rfl)
  have both := duplicated.next
    (@fileCondition_run _ [_] [] _ (some 0) rfl trivial fun isOver => absurd isOver (waits _ _ nofun))
    (@FileStep.run _ [_] [] _ _ _ (some 0) rfl rfl)
  have pointed := both.next
    (@fileCondition_run _ [] [_] _ (some 0) rfl trivial fun isOver => absurd isOver (waits _ _ nofun))
    (@FileStep.run _ [] [_] _ _ _ (some 0) rfl rfl)
  have read := pointed.next
    (@fileCondition_run _ [] [_] _ (some 2) rfl rfl fun isOver => absurd isOver (waits _ _ nofun))
    (@FileStep.run _ [] [_] _ _ _ (some 2) rfl rfl)
  have pointedAgain := read.next
    (@fileCondition_run _ [_] [] _ (some 0) rfl trivial fun _ =>
      ⟨fun refused => absurd refused (by simp), nofun⟩)
    (@FileStep.run _ [_] [] _ _ _ (some 0) rfl rfl)
  have readAgain := pointedAgain.next
    (@fileCondition_run _ [_] [] _ (some 2) rfl rfl fun _ => ⟨by decide, fun _ => rfl⟩)
    (@FileStep.run _ [_] [] _ _ _ (some 2) rfl rfl)
  exact ⟨_, rfl, file_ranges_appended readAgain⟩

/-- The second call moves the position before the first one reads. -/
theorem file_ranges_interleaved : ∃ s : FileState, fileSystem.Reachable s ∧
    s.calls = [⟨0, 2, .finished, [105]⟩, ⟨1, 1, .finished, []⟩] ∧
      s.content = [104, 105] ∧ s.original = 0 ∧ s.position = 2 ∧ ¬ s.Right := by
  have began : fileSystem.Reachable (.twoBytes 0) := .start ⟨by decide, rfl, rfl⟩
  have first := began.step (@FileStep.start _ 0 2)
  have second := first.step (@FileStep.start _ 1 1)
  have duplicated := second.step (@FileStep.run _ [] [_] _ _ _ (some 0) rfl rfl)
  have both := duplicated.step (@FileStep.run _ [_] [] _ _ _ (some 0) rfl rfl)
  have pointed := both.step (@FileStep.run _ [] [_] _ _ _ (some 0) rfl rfl)
  have moved := pointed.step (@FileStep.run _ [_] [] _ _ _ (some 0) rfl rfl)
  have read := moved.step (@FileStep.run _ [] [_] _ _ _ (some 2) rfl rfl)
  have ended := read.step (@FileStep.run _ [] [_] _ _ _ (some 2) rfl rfl)
  have missed := ended.step (@FileStep.run _ [_] [] _ _ _ (some 2) rfl rfl)
  refine ⟨_, missed, rfl, rfl, rfl, rfl, ?_⟩
  intro right
  have whole := right.ranges _ List.mem_cons_self rfl
  cases whole

end ModSecurityIIS
