import ModSecurityIIS.FilePosition
import ModSecurityIIS.SendResponseCases

/-!
# One file range

What `AppendResponseFileChunk` hands to the engine when nobody else moves the position of
the file: the range itself, or a prefix of it when a read brings nothing.
-/

set_option autoImplicit false

namespace ModSecurityIIS

open Imperative Program

/-- The content of a file; its size is a signed 64-bit number. -/
structure FileContent where
  bytes : Bytes
  bounded : bytes.length < 2 ^ 63

/-- Every read succeeds and brings something, in pieces of any size. -/
def Env.ReadsOn (env : Env) : Prop :=
  ∀ tick, ∃ ready, env.readFile tick = some ready ∧ 0 < ready

/-- From the given tick on, no read fails or comes back empty before it has brought all of
`remaining`. -/
inductive Env.Brings (env : Env) : Nat → Nat → Prop where
  | done {tick remaining : Nat} : remaining = 0 → env.Brings tick remaining
  | read {tick remaining ready : Nat} :
      remaining ≠ 0 → env.readFile tick = some ready → ready ≠ 0 →
      env.Brings (tick + 2) (remaining - min ready (min remaining 65536)) →
      env.Brings tick remaining

/-! ## The read loop -/

section Loop

variable {env : Env} {tx : TransactionId}

theorem Env.brings_nothing {tick remaining : Nat}
    (nothing : min ((env.readFile tick).getD 0) (min remaining 65536) = 0) :
    env.Brings tick remaining ↔ remaining = 0 := by
  constructor
  · intro brings
    cases brings with
    | done ended => exact ended
    | read left found some_ _ =>
        rw [found, Option.getD_some] at nothing
        omega
  · exact .done

theorem Env.brings_iff {tick remaining got : Nat}
    (taken : min ((env.readFile tick).getD 0) (min remaining 65536) = got) (some_ : got ≠ 0) :
    env.Brings tick remaining ↔ env.Brings (tick + 2) (remaining - got) := by
  constructor
  · intro brings
    cases brings with
    | done ended => omega
    | read left found _ later =>
        rw [found, Option.getD_some] at taken
        rwa [taken] at later
  · intro later
    cases answered : env.readFile tick with
    | none =>
        rw [answered, Option.getD_none, Nat.zero_min] at taken
        exact absurd taken.symm some_
    | some ready =>
        rw [answered, Option.getD_some] at taken
        apply Env.Brings.read (by omega) answered
        · rintro rfl
          exact some_ (taken.symm.trans (Nat.zero_min _))
        · rwa [taken]

theorem Env.ReadsOn.brings (reads : env.ReadsOn) (tick remaining : Nat) :
    env.Brings tick remaining := by
  induction remaining using Nat.strong_induction_on generalizing tick with
  | h remaining ih =>
      by_cases ended : remaining = 0
      · exact .done ended
      · obtain ⟨ready, found, positive⟩ := reads tick
        exact .read ended found (by omega) (ih _ (by omega) _)

/-- The end of a loop on the bytes `rest`, of which it may take `limit`: it has handed out
`more` bytes, and all it may take exactly if `whole` holds. -/
inductive LoopStream (w : World) (rest : Bytes) (limit appended : Nat) (whole : Prop) :
    Outcome World Nat → Prop where
  | returned {more : Nat} {after : World} :
      more ≤ limit → after.bodies = w.bodies ++ rest.take more → (more = limit ↔ whole) →
      LoopStream w rest limit appended whole (.returned (appended + more) after)
  | thrown {more : Nat} {after : World} :
      more ≤ limit → after.bodies = w.bodies ++ rest.take more →
      LoopStream w rest limit appended whole (.thrown after)

theorem called_bodies (body : Bytes) (w : World) :
    (w.called env tx (.appendResponseBody body)).bodies = w.bodies ++ body := by
  simp [World.bodies, World.called, Event.body]

theorem LoopStream.nothing {w v : World} {rest : Bytes} {limit appended : Nat} {whole : Prop}
    (same : v.bodies = w.bodies) (complete : whole ↔ limit = 0) :
    LoopStream w rest limit appended whole (.returned appended v) := by
  refine @LoopStream.returned _ _ _ _ _ 0 _ (Nat.zero_le _) ?_ (eq_comm.trans complete.symm)
  rw [same, List.take_zero, List.append_nil]

theorem LoopStream.turn {w middle : World} {rest : Bytes} {limit appended got : Nat} {whole : Prop}
    {outcome : Outcome World Nat} (within : got ≤ limit)
    (bodies : middle.bodies = w.bodies ++ rest.take got)
    (streams : LoopStream middle (rest.drop got) (limit - got) (appended + got) whole outcome) :
    LoopStream w rest limit appended whole outcome := by
  have joined (more : Nat) :
      w.bodies ++ rest.take got ++ (rest.drop got).take more = w.bodies ++ rest.take (got + more) := by
    rw [List.append_assoc, List.take_add]
  cases streams with
  | @returned more _ most found complete =>
      rw [bodies, joined] at found
      rw [Nat.add_assoc]
      have all : got + more = limit ↔ more = limit - got := by omega
      exact .returned (by omega) found (all.trans complete)
  | thrown most found =>
      rw [bodies, joined] at found
      exact .thrown (by omega) found

theorem LoopStream.consequence {w v : World} {rest : Bytes} {limit appended : Nat}
    {whole other : Prop} {outcome : Outcome World Nat}
    (streams : LoopStream v rest limit appended whole outcome) (same : v.bodies = w.bodies)
    (equal : whole ↔ other) : LoopStream w rest limit appended other outcome := by
  cases streams with
  | returned most found complete =>
      rw [same] at found
      exact .returned most found (complete.trans equal)
  | thrown most found =>
      rw [same] at found
      exact .thrown most found

/-- Induction on the bound, which stays above the bytes that are left. -/
theorem appendFileLoop_streams (bound : Nat) {rest : Bytes} {length appended : Nat} (w : World)
    (enough : rest.length < bound) :
    LoopStream w rest (min length rest.length) appended
      (env.Brings w.tick (min length rest.length))
      (appendFileLoop env tx bound rest length appended w) := by
  induction bound generalizing rest length appended w with
  | zero => omega
  | succ bound ih =>
      rw [appendFileLoop]
      by_cases done : length = 0
      · rw [if_pos done]
        have none_left : min length rest.length = 0 := by rw [done, Nat.zero_min]
        exact .nothing rfl ⟨fun _ => none_left, .done⟩
      · rw [if_neg done, bind_returned (consult_apply w _), Nat.min_right_comm length]
        generalize taken :
          min ((env.readFile w.tick).getD 0) (min (min length rest.length) 65536) = got
        by_cases empty : got = 0
        · rw [if_pos empty]
          exact .nothing rfl (Env.brings_nothing (taken.trans empty))
        · rw [if_neg empty]
          have within : got ≤ min length rest.length := by omega
          have bodies := @called_bodies env tx (rest.take got) w.advance
          rw [bind_apply, engineCall_apply]
          by_cases threw : env.throws w.advance.tick = true
          · rw [if_pos threw]
            exact .thrown within bodies
          · rw [if_neg threw]
            have left := @ih (rest.drop got) (length - got) (appended + got)
              (w.advance.called env tx (.appendResponseBody (rest.take got)))
              (by rw [List.length_drop]; omega)
            rw [List.length_drop, Nat.sub_min_sub_right] at left
            exact LoopStream.turn within bodies
              (left.consequence rfl (Env.brings_iff taken empty).symm)

/-- The bound is never met: one turn more would make no difference. -/
theorem appendFileLoop_unbounded (bound : Nat) {rest : Bytes} {length appended : Nat}
    (enough : rest.length < bound) :
    appendFileLoop env tx (bound + 1) rest length appended =
      appendFileLoop env tx bound rest length appended := by
  induction bound generalizing rest length appended with
  | zero => omega
  | succ bound ih =>
      rw [appendFileLoop]
      conv => rhs; rw [appendFileLoop]
      by_cases done : length = 0
      · rw [if_pos done, if_pos done]
      · rw [if_neg done, if_neg done]
        congr 1
        funext answer
        dsimp only
        split
        · rfl
        · congr 1
          funext _
          apply ih
          rw [List.length_drop]
          omega

end Loop

/-! ## The whole function -/

theorem fileRange_eq_take (content : Bytes) (start length : Nat) :
    fileRange content start length =
      (content.drop start).take
        (if length = httpByteRangeToEof then content.length - start else length) := by
  unfold fileRange
  split
  · rw [← List.length_drop, List.take_length]
  · rfl

theorem fileRange_length (content : Bytes) (start length : Nat) :
    (fileRange content start length).length =
      min (if length = httpByteRangeToEof then content.length - start else length)
        (content.drop start).length := by
  rw [fileRange_eq_take, List.length_take]

theorem take_prefix_fileRange {content : Bytes} {start length more : Nat}
    (within : more ≤ (fileRange content start length).length) :
    (content.drop start).take more <+: fileRange content start length := by
  rw [fileRange_length] at within
  rw [fileRange_eq_take]
  exact List.take_prefix_take_left (by omega)

/-- The Windows calls on a range of `limit` bytes succeed, or there is nothing to read in
it; the size of the file is asked for where the length is to-EOF. -/
def Env.Streams (env : Env) (tick start length limit : Nat) : Prop :=
  limit = 0 ∨ (env.succeeds tick = true ∧ env.succeeds (tick + 1) = true ∧ start < 2 ^ 63 ∧
    if length = httpByteRangeToEof then
      env.succeeds (tick + 2) = true ∧ env.Brings (tick + 3) limit
    else env.Brings (tick + 2) limit)

section Chunk

variable {env : Env} {tx : TransactionId} {content : Bytes} {start length : Nat}

theorem appendFileLoop_zero (bound : Nat) (rest : Bytes) (appended : Nat) (w : World) :
    appendFileLoop env tx bound rest 0 appended w = .returned appended w := by
  cases bound with
  | zero => rfl
  | succ bound => rw [appendFileLoop, if_pos rfl, pure_apply]

theorem Env.streams_refused {tick limit : Nat}
    (refused : ¬ (env.succeeds tick = true ∧ env.succeeds (tick + 1) = true ∧ start < 2 ^ 63)) :
    env.Streams tick start length limit ↔ limit = 0 := by
  constructor
  · rintro (empty | ⟨duplicated, positioned, signed, _⟩)
    · exact empty
    · exact absurd ⟨duplicated, positioned, signed⟩ refused
  · exact .inl

theorem appendResponseFileChunk_streams (w : World) :
    LoopStream w (content.drop start) (fileRange content start length).length 0
      (env.Streams w.tick start length (fileRange content start length).length)
      (appendResponseFileChunk env tx content start length w) := by
  have loop (remaining : Nat) (v : World) :=
    @appendFileLoop_streams env tx ((content.drop start).length + 1) (content.drop start) remaining
      0 v (Nat.lt_succ_self _)
  rw [appendResponseFileChunk, bind_returned (consult_apply w _)]
  by_cases duplicated : env.succeeds w.tick = true
  · rw [if_pos duplicated, bind_returned (consult_apply _ _)]
    by_cases seeks : (env.succeeds w.advance.tick && decide (start < 2 ^ 63)) = true
    · have found : env.succeeds (w.tick + 1) = true ∧ start < 2 ^ 63 := by
        rwa [Bool.and_eq_true, decide_eq_true_iff] at seeks
      rw [if_pos seeks, rangeLength, fileRange_length]
      by_cases toEof : length = httpByteRangeToEof
      · rw [if_pos toEof, if_pos toEof, bind_assoc, bind_returned (consult_apply _ _), pure_bind]
        by_cases sized : env.succeeds (w.tick + 2) = true
        · have remaining : (if env.succeeds w.advance.advance.tick && decide (start < content.length)
              then content.length - start else 0) = content.length - start := by
            rw [show env.succeeds w.advance.advance.tick = true from sized, Bool.true_and]
            by_cases inside : start < content.length
            · rw [decide_eq_true inside]
              rfl
            · rw [decide_eq_false inside, if_neg (by simp)]
              omega
          rw [remaining]
          refine (loop _ _).consequence rfl ⟨fun brings => ?_, ?_⟩
          · exact .inr ⟨duplicated, found.1, found.2, by rw [if_pos toEof]; exact ⟨sized, brings⟩⟩
          · rintro (empty | ⟨_, _, _, reads⟩)
            · exact .done empty
            · rw [if_pos toEof] at reads
              exact reads.2
        · rw [Bool.eq_false_iff.mpr (show ¬ env.succeeds w.advance.advance.tick = true from sized),
            Bool.false_and, if_neg (by simp), appendFileLoop_zero]
          refine .nothing rfl ⟨?_, .inl⟩
          rintro (empty | ⟨_, _, _, reads⟩)
          · exact empty
          · rw [if_pos toEof] at reads
            exact absurd reads.1 sized
      · rw [if_neg toEof, if_neg toEof, pure_bind]
        refine (loop _ _).consequence rfl ⟨fun brings => ?_, ?_⟩
        · exact .inr ⟨duplicated, found.1, found.2, by rw [if_neg toEof]; exact brings⟩
        · rintro (empty | ⟨_, _, _, reads⟩)
          · exact .done empty
          · rwa [if_neg toEof] at reads
    · rw [if_neg seeks]
      refine .nothing rfl (Env.streams_refused fun fine => seeks ?_)
      rw [show env.succeeds w.advance.tick = true from fine.2.1, decide_eq_true fine.2.2]
      rfl
  · rw [if_neg duplicated]
    exact .nothing rfl (Env.streams_refused fun fine => duplicated fine.1)

/-- Every byte of the range comes when every call succeeds. -/
theorem Env.ReadsOn.streams (reads : env.ReadsOn) {tick : Nat} (small : content.length < 2 ^ 63)
    (duplicated : env.succeeds tick = true) (positioned : env.succeeds (tick + 1) = true)
    (sized : length = httpByteRangeToEof → env.succeeds (tick + 2) = true) :
    env.Streams tick start length (fileRange content start length).length := by
  by_cases signed : start < 2 ^ 63
  · refine .inr ⟨duplicated, positioned, signed, ?_⟩
    split
    · next toEof => exact ⟨sized toEof, reads.brings _ _⟩
    · exact reads.brings _ _
  · -- the offset is past the end of every file
    left
    rw [fileRange_length, List.length_drop]
    omega

theorem appendResponseFileChunk_refused {w : World}
    (refused : env.succeeds w.tick = false ∨ env.succeeds (w.tick + 1) = false ∨
      (length = httpByteRangeToEof ∧ env.succeeds (w.tick + 2) = false)) :
    ∃ after, appendResponseFileChunk env tx content start length w = .returned 0 after ∧
      after.bodies = w.bodies := by
  rw [appendResponseFileChunk, bind_returned (consult_apply w _)]
  by_cases duplicated : env.succeeds w.tick = true
  · rw [if_pos duplicated, bind_returned (consult_apply _ _)]
    by_cases seeks : (env.succeeds w.advance.tick && decide (start < 2 ^ 63)) = true
    · have positioned : env.succeeds (w.tick + 1) = true := (Bool.and_eq_true _ _ ▸ seeks).1
      rcases refused with failed | failed | ⟨toEof, failed⟩
      · rw [failed] at duplicated
        cases duplicated
      · rw [failed] at positioned
        cases positioned
      · have unsized : env.succeeds w.advance.advance.tick = false := failed
        rw [if_pos seeks, rangeLength, if_pos toEof, bind_assoc, bind_returned (consult_apply _ _),
          pure_bind, unsized, Bool.false_and, if_neg (by simp), appendFileLoop_zero]
        exact ⟨_, rfl, rfl⟩
    · rw [if_neg seeks]
      exact ⟨_, rfl, rfl⟩
  · rw [if_neg duplicated]
    exact ⟨_, rfl, rfl⟩

end Chunk

/-- What a run of `AppendResponseFileChunk` on a range of a file does. -/
structure StreamsRange (env : Env) (tx : TransactionId) (content : Bytes) (start length : Nat)
    (w : World) : Prop where
  unbounded : ∀ bound remaining, (content.drop start).length < bound →
    appendFileLoop env tx (bound + 1) (content.drop start) remaining 0 =
      appendFileLoop env tx bound (content.drop start) remaining 0
  returns : (∀ tick, env.throws tick = false) →
    ∃ total after, appendResponseFileChunk env tx content start length w = .returned total after
  counted : ∀ total after,
    appendResponseFileChunk env tx content start length w = .returned total after →
      ∃ bytes, bytes <+: fileRange content start length ∧
        after.bodies = w.bodies ++ bytes ∧ total = bytes.length
  whole : ∀ total after,
    appendResponseFileChunk env tx content start length w = .returned total after →
      env.succeeds w.tick = true → env.succeeds (w.tick + 1) = true →
      (length = httpByteRangeToEof → env.succeeds (w.tick + 2) = true) → env.ReadsOn →
      after.bodies = w.bodies ++ fileRange content start length ∧
        total = (fileRange content start length).length
  refused : env.succeeds w.tick = false ∨ env.succeeds (w.tick + 1) = false ∨
      (length = httpByteRangeToEof ∧ env.succeeds (w.tick + 2) = false) →
    ∃ after, appendResponseFileChunk env tx content start length w = .returned 0 after ∧
      after.bodies = w.bodies
  interrupted : ∀ after, appendResponseFileChunk env tx content start length w = .thrown after →
    ∃ bytes, bytes <+: fileRange content start length ∧ after.bodies = w.bodies ++ bytes

/-- Every call streams its range: any file, any 64-bit start and length, any reads. -/
theorem file_range_streamed (env : Env) (tx : TransactionId) (file : FileContent)
    (start length : UInt64) (w : World) :
    StreamsRange env tx file.bytes start.toNat length.toNat w := by
  have streams := @appendResponseFileChunk_streams env tx file.bytes start.toNat length.toNat w
  constructor
  · intro bound remaining enough
    exact appendFileLoop_unbounded bound enough
  · intro calm
    have steady : Steady 0 fun _ => True :=
      ⟨fun _ _ => Nat.zero_le _, fun _ _ => trivial, fun _ _ _ _ _ => trivial⟩
    obtain ⟨total, after, ran, -⟩ := appendResponseFileChunk_delivers steady
      (fun tick _ => calm tick) tx file.bytes start.toNat length.toNat w trivial
    exact ⟨total, after, ran⟩
  · intro total after ran
    rw [ran] at streams
    cases streams with
    | @returned more _ most found complete =>
        refine ⟨_, take_prefix_fileRange most, found, ?_⟩
        rw [List.length_take]
        have left := fileRange_length file.bytes start.toNat length.toNat
        omega
  · intro total after ran duplicated positioned sized reads
    rw [ran] at streams
    cases streams with
    | @returned more _ most found complete =>
        have all := complete.mpr (reads.streams file.bounded duplicated positioned sized)
        have same := (take_prefix_fileRange most).eq_of_length
          (by
            rw [List.length_take]
            have left := fileRange_length file.bytes start.toNat length.toNat
            omega)
        rw [same] at found
        exact ⟨found, by omega⟩
  · intro failed
    exact appendResponseFileChunk_refused failed
  · intro after ran
    rw [ran] at streams
    cases streams with
    | thrown most found => exact ⟨_, take_prefix_fileRange most, found⟩

end ModSecurityIIS
