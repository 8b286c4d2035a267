import ModSecurityIIS.RequestStage

/-!
# The framing of the request body

Which requests `GetEntityBodyInfo` takes to have a body, and when the engine can be
made to evaluate an empty body although the handler will see one.
-/

set_option autoImplicit false

namespace ModSecurityIIS

open Imperative Program

/-- A request as the server presents it, with a body of which `arrived` bytes came with
the headers. The flag says whether part of the body is still to be received; the body
is framed by its length or in chunks. -/
structure Framed (req : HttpRequest) (body : Bytes) (arrived : Nat) : Prop where
  nonempty : body ≠ []
  within : arrived ≤ body.length
  flag : req.moreEntityBodyExists = decide (arrived < body.length)
  framing :
    (∃ value, req.headers.known .contentLength = some value ∧ value ≠ [] ∧
      (∀ byte ∈ value, isDigit byte = true) ∧ digitsValue value = body.length) ∨
    (req.headers.known .contentLength = none ∧
      req.headers.known .transferEncoding = some (bytesOf "chunked"))

/-- The head says that there is a body: part of it is still to come, or the first 31
bytes of Content-Length are a positive number of 64 bits. -/
def Announces (req : HttpRequest) : Prop :=
  req.moreEntityBodyExists = true ∨
    ∃ value, req.headers.known .contentLength = some value ∧ value ≠ [] ∧
      (∀ byte ∈ value.take 31, isDigit byte = true) ∧
      0 < digitsValue (value.take 31) ∧ digitsValue (value.take 31) < 2 ^ 64

theorem hasBody_iff (req : HttpRequest) :
    (getEntityBodyInfo (some req)).hasBody = true ↔ Announces req := by
  simp only [getEntityBodyInfo, Announces]
  cases flag : req.moreEntityBodyExists with
  | true => simp
  | false =>
      cases header : req.headers.known .contentLength with
      | none => simp
      | some value =>
          by_cases empty : value = []
          · simp [empty]
          · have filled : value.length ≠ 0 := by simpa using empty
            have kept : value.take 31 ≠ [] := by simpa using empty
            cases parsed : wholeNumber (value.take 31) with
            | none =>
                simp only [filled, parsed, ↓reduceIte, Bool.false_eq_true, false_or, false_iff,
                  Option.some.injEq]
                rintro ⟨_, rfl, _, digits, positive, fits⟩
                have found := wholeNumber_eq_some_iff.mpr
                  ⟨kept, digits, rfl, positive, fits⟩
                rw [parsed] at found
                cases found
            | some n =>
                obtain ⟨_, digits, rfl, positive, fits⟩ := wholeNumber_eq_some_iff.mp parsed
                simp only [filled, parsed, ↓reduceIte, Bool.false_eq_true, false_or, true_iff]
                exact ⟨value, rfl, empty, digits, positive, fits⟩

/-- In a run of the body read from `start`, no body phase is called before a read and a
nonempty piece of the body. -/
def EvaluatesBody (start final : World) : Prop :=
  ∀ before after tx completed,
    final.log = start.log ++ (before ++ .engine tx .processRequestBody completed :: after) →
    .readEntityBody ∈ before ∧
      ∃ piece, piece ≠ [] ∧ .engine tx (.appendRequestBody piece) true ∈ before

/-- `GetEntityBodyInfo` reports a body, and whatever the process environment, the engine
and the server answer, the body phase is never called on an empty body. -/
def LooksAtBody (context : HttpContext) (start : World) : Prop :=
  (getEntityBodyInfo context.rawRequest).hasBody = true ∧
    ∀ env bound status final,
      (caughtBodyRead env context >>= awaitBody env context bound) start =
        .returned status final →
      status ≠ .rqNotificationPending → EvaluatesBody start final

/-- The first read of the body brings something of it. -/
def FirstReadBrings (start : World) : Prop :=
  ∀ answer rest, start.reads = answer :: rest → 0 < answer.count

private theorem split_unique {α : Type} {holds : α → Prop} {front back before after : List α}
    {found sought : α} (frontClear : ∀ a ∈ front, ¬ holds a) (backClear : ∀ a ∈ back, ¬ holds a)
    (soughtHolds : holds sought) (same : front ++ found :: back = before ++ sought :: after) :
    before = front := by
  rcases List.append_eq_append_iff.mp same with ⟨extra, shape, rest⟩ | ⟨extra, shape, rest⟩
  · cases extra with
    | nil => simpa using shape
    | cons first others =>
        simp only [List.cons_append, List.cons.injEq] at rest
        exact absurd soughtHolds (backClear sought (by rw [rest.2]; simp))
  · cases extra with
    | nil => simpa using shape.symm
    | cons first others =>
        simp only [List.cons_append, List.cons.injEq] at rest
        exact absurd soughtHolds (frontClear sought (by rw [shape, rest.1]; simp))

/-- The call of the body phase. -/
def Event.Evaluates (event : Event) : Prop :=
  ∃ tx completed, event = .engine tx .processRequestBody completed

theorem Event.OffBody.not_evaluates {event : Event} (off : event.OffBody) : ¬ event.Evaluates := by
  rintro ⟨tx, completed, rfl⟩
  cases off

theorem Inserted.not_evaluates {body : Bytes} {inserted : List Event}
    (inserts : Inserted body inserted) : ∀ event ∈ inserted, ¬ event.Evaluates := by
  cases inserts with
  | skipped => simp
  | attempted result => simp [Event.Evaluates]

theorem PassEvents.evaluates {env : Env} {tx : TransactionId} {body : Bytes}
    {events : List Event} (pass : PassEvents env tx body events) (filled : body ≠ []) :
    (∀ event ∈ events, ¬ event.Evaluates) ∨
      ∃ front completed piece, events = front ++ [.engine tx .processRequestBody completed] ∧
        (∀ event ∈ front, ¬ event.Evaluates) ∧ piece ≠ [] ∧
        .engine tx (.appendRequestBody piece) true ∈ front := by
  cases pass with
  | refused _ => exact .inl (by simp [Event.Evaluates])
  | @fed inserted events inserts ran =>
      have piece : body.take (getMaxInspectBodyBytes env) ≠ [] := by
        have positive := (getMaxInspectBodyBytes_bounds env).1
        simp only [ne_eq, List.take_eq_nil_iff, filled, or_false]
        omega
      have clear (completed : Bool) : ∀ event ∈ inserted ++
          [.engine tx (.appendRequestBody (body.take (getMaxInspectBodyBytes env))) completed],
          ¬ event.Evaluates := by
        intro event member
        rcases List.mem_append.mp member with early | late
        · exact inserts.not_evaluates event early
        · simp [List.mem_singleton.mp late, Event.Evaluates]
      rw [inspectionCalls, if_neg (by simpa using piece)] at ran
      cases ran with
      | threw _ => exact .inl (clear false)
      | completed rest =>
          cases rest with
          | threw _ => exact .inr ⟨_, false, _, by simp, clear true, piece, by simp⟩
          | completed last =>
              cases last
              exact .inr ⟨_, true, _, by simp, clear true, piece, by simp⟩

theorem looksAtBody_of_announced {context : HttpContext} {start : World}
    {req : HttpRequest} {tx : TransactionId} (request : context.requestPresent = true)
    (raw : context.rawRequest = some req) (ready : Ready start)
    (current : start.rsc.tx = some tx) (nonempty : start.entity ≠ [])
    (announces : Announces req) (brings : FirstReadBrings start) :
    LooksAtBody context start := by
  have hasBody : (getEntityBodyInfo context.rawRequest).hasBody = true := by
    rw [raw]
    exact (hasBody_iff req).mpr announces
  refine ⟨hasBody, ?_⟩
  intro env bound status final ran decided before after id completed shape
  have evaluated : Event.Evaluates (.engine id .processRequestBody completed) := ⟨id, completed, rfl⟩
  have readsClear (n : Nat) : ∀ event ∈ List.replicate n Event.readEntityBody,
      ¬ event.Evaluates := by
    intro event member
    rw [List.eq_of_mem_replicate member]
    simp [Event.Evaluates]
  rcases caughtBodyRead_run request ready current ran decided with
    ⟨s, drained, events, rest, log, pass, off⟩ | ⟨_, n, log⟩
  · obtain ⟨n, reads, positive⟩ := drained.reads
    obtain ⟨answer, others, next, drainedFirst⟩ := drained.started hasBody
    have filled : s.rsc.body ≠ [] := by
      have some : 0 < start.entity.length := List.length_pos_iff.mpr nonempty
      have brought := brings answer others next
      have length := drainedFirst.length_le
      simp only [List.length_append, World.handedOut, List.length_take, kBodyReadChunkSize]
        at length
      refine List.length_pos_iff.mp ?_
      omega
    have same : before ++ .engine id .processRequestBody completed :: after =
        List.replicate n .readEntityBody ++ (events ++ rest) := by
      refine (List.append_right_inj start.log).mp ?_
      rw [← shape, log, reads, List.append_assoc]
    rcases pass.evaluates filled with clear |
      ⟨front, final, piece, whole, clear, some, given⟩
    · have member : .engine id .processRequestBody completed ∈
          List.replicate n .readEntityBody ++ (events ++ rest) := by rw [← same]; simp
      rcases List.mem_append.mp member with inReads | late
      · exact absurd evaluated (readsClear n _ inReads)
      rcases List.mem_append.mp late with inPass | inRest
      · exact absurd evaluated (clear _ inPass)
      · exact absurd evaluated (off _ inRest).not_evaluates
    · rw [whole, List.append_assoc, List.singleton_append, ← List.append_assoc] at same
      have frontClear : ∀ event ∈ List.replicate n .readEntityBody ++ front,
          ¬ event.Evaluates :=
        List.forall_mem_append.mpr ⟨readsClear n, clear⟩
      have split := split_unique frontClear (fun event member => (off event member).not_evaluates)
        evaluated same.symm
      rw [split] at same ⊢
      obtain ⟨⟨rfl, _⟩, _⟩ : (tx = id ∧ final = completed) ∧ rest = after := by
        simpa using (List.append_cancel_left same.symm)
      refine ⟨List.mem_append_left _ ?_, piece, some, List.mem_append_right _ given⟩
      exact List.mem_replicate.mpr ⟨Nat.pos_iff_ne_zero.mp (positive hasBody), rfl⟩
  · have member : .engine id .processRequestBody completed ∈
        List.replicate n Event.readEntityBody := by
      rw [← List.append_cancel_left (shape.symm.trans log)]
      simp
    exact absurd evaluated (readsClear n _ member)

theorem finishBodyRead_calm {context : HttpContext} {s : World} {tx : TransactionId}
    (current : s.rsc.tx = some tx) (empty : s.rsc.body = []) :
    ∃ final, finishBodyRead .calm context s = .returned .rqNotificationContinue final ∧
      final.log = s.log ++ [.engine tx .processRequestBody true,
        .engine tx (.intervention none) true] := by
  have restored : restoreBody .calm context s = .returned .restored s := by
    rw [restoreBody, bind_returned (get_apply _), if_neg (by simp [empty])]
    rfl
  have fed : restoreAndFeed .calm context s =
      .returned (some false) (s.called .calm tx .processRequestBody) := by
    rw [restoreAndFeed, bind_returned restored]
    simp only
    rw [bind_apply, feedBody_apply current, empty]
    rfl
  have asked : applyIntervention .calm context true (s.called .calm tx .processRequestBody) =
      .returned false
        ((s.called .calm tx .processRequestBody).advance.called .calm tx (.intervention none)) := by
    have same : (s.called .calm tx .processRequestBody).rsc.tx = some tx := current
    rw [applyIntervention, bind_returned (get_apply _), same]
    rfl
  refine ⟨(s.called .calm tx .processRequestBody).advance.called .calm tx (.intervention none),
    ?_, by simp [World.called, World.advance, Env.calm]⟩
  rw [finishBodyRead, bind_apply, tryCatch_apply, fed]
  simp only
  rw [ruleOnBody, bind_returned asked]
  rfl

theorem mayThrow_calm (w : World) : mayThrow .calm w = .returned () w.advance := rfl

/-- A first read that brings nothing ends the drain: the body phase runs on nothing. -/
theorem pumpBodyRead_empty_read {context : HttpContext} {s : World} {tx : TransactionId}
    (request : context.requestPresent = true) (current : s.rsc.tx = some tx)
    (fresh : s.rsc.body = []) {answer : ReadAnswer} {rest : List ReadAnswer}
    (next : s.reads = answer :: rest) (nothing : answer.count = 0) :
    ∃ final, pumpBodyRead Env.calm.synchronous context s =
        .returned .rqNotificationContinue final ∧
      final.log = s.log ++ [.readEntityBody, .engine tx .processRequestBody true,
        .engine tx (.intervention none) true] := by
  have empty : s.handedOut answer = [] := by simp [World.handedOut, nothing]
  have unchanged : (s.received answer rest).appended (s.handedOut answer).length =
      s.received answer rest := by simp [World.appended, empty]
  have stops : stopReason .calm (s.received answer rest).rsc (s.handedOut answer).length
      answer.status = some .endOfBody := by simp [stopReason, empty]
  obtain ⟨last, _, _, log, rsc, applied⟩ :=
    stopAt_apply .calm context .endOfBody (s.received answer rest)
  have lastCurrent : last.rsc.tx = some tx := by rw [rsc]; exact current
  have lastEmpty : last.rsc.body = [] := by rw [rsc]; exact fresh
  obtain ⟨final, finished, shape⟩ := @finishBodyRead_calm context _ _ lastCurrent lastEmpty
  refine ⟨final, ?_, ?_⟩
  · rw [pumpBodyRead, bind_returned (get_apply _), if_pos request, next, List.length_cons,
      pumpLoop_sync rfl next, consumeThen, consumeBodyChunk_synchronous, bind_apply,
      consumeBodyChunk_apply, unchanged, stops, if_neg (by simp [empty])]
    simp only
    rw [applied, bind_returned finished]
    rfl
  · rw [shape, log]
    simp [World.received]

theorem not_looksAtBody_of_empty_read {context : HttpContext} {start : World}
    {tx : TransactionId} (request : context.requestPresent = true)
    (current : start.rsc.tx = some tx) (fresh : start.rsc.body = []) {answer : ReadAnswer}
    {rest : List ReadAnswer} (next : start.reads = answer :: rest) (nothing : answer.count = 0) :
    ¬ LooksAtBody context start := by
  rintro ⟨hasBody, evaluates⟩
  have prepares : ∃ s, Prepared start s ∧
      beginBodyRead Env.calm.synchronous context start =
        pumpBodyRead Env.calm.synchronous context s := by
    rw [beginBodyRead, if_pos ⟨request, hasBody⟩, mayThrow_synchronous,
      bind_returned (modifyContext_apply _ _), bind_returned (mayThrow_calm _),
      bind_returned (modifyContext_apply _ _)]
    cases decide (0 < (getEntityBodyInfo context.rawRequest).length) with
    | false =>
        rw [when_false, pure_bind]
        refine ⟨_, ?_, rfl⟩
        exact ⟨rfl, rfl, rfl, rfl, rfl, rfl⟩
    | true =>
        rw [when_true, bind_returned (mayThrow_calm _)]
        refine ⟨_, ?_, rfl⟩
        exact ⟨rfl, rfl, rfl, rfl, rfl, rfl⟩
  obtain ⟨s, prepared, started⟩ := prepares
  obtain ⟨final, finished, shape⟩ := pumpBodyRead_empty_read request
    (prepared.current.trans current) (prepared.body.trans fresh) (prepared.reads.trans next) nothing
  have run : (caughtBodyRead Env.calm.synchronous context >>=
      awaitBody Env.calm.synchronous context 0) start =
      .returned .rqNotificationContinue final := by
    have caught : caughtBodyRead Env.calm.synchronous context start =
        .returned .rqNotificationContinue final := by
      rw [caughtBodyRead, bind_returned (started.trans finished)]
      rfl
    rw [bind_returned caught]
    rfl
  rw [prepared.log] at shape
  obtain ⟨_, piece, _, given⟩ :=
    evaluates _ 0 _ final run (by simp) [.readEntityBody] _ tx true shape
  simp at given

/-- The body of a request is looked at exactly when its head announces one and the
first read brings something of it. -/
theorem looksAtBody_iff {context : HttpContext} {start : World} {req : HttpRequest}
    {tx : TransactionId} (request : context.requestPresent = true)
    (raw : context.rawRequest = some req) (ready : Ready start)
    (current : start.rsc.tx = some tx) (fresh : start.rsc.body = [])
    (nonempty : start.entity ≠ []) :
    LooksAtBody context start ↔ Announces req ∧ FirstReadBrings start := by
  constructor
  · intro looks
    refine ⟨?_, fun answer rest next => ?_⟩
    · have hasBody := looks.1
      rw [raw] at hasBody
      exact (hasBody_iff req).mp hasBody
    · by_contra nothing
      exact not_looksAtBody_of_empty_read request current fresh next
        (Nat.eq_zero_of_not_pos nothing) looks
  · rintro ⟨announces, brings⟩
    exact looksAtBody_of_announced request raw ready current nonempty announces brings

/-- A tracked request whose body of two bytes comes in two reads. -/
def tracked : World :=
  { World.arrived [104, 105]
      [{ count := 1, status := .sOk, pended := true },
        { count := 1, status := .fromWin32 errorHandleEof, pended := false }] with
    rsc := { RequestStoredContext.new with tx := some 0 }
    stored := true }

theorem looksAtBody_iff_tracked : LooksAtBody .plain tracked :=
  (looksAtBody_iff rfl rfl ⟨rfl, by decide, rfl, rfl⟩ rfl rfl (by decide)).mpr
    ⟨.inl rfl, by rintro _ _ ⟨⟩; decide⟩

/-! ## What the head announces -/

section Announced

variable {req : HttpRequest} {body : Bytes} {arrived : Nat}

theorem Framed.announces_iff_of_chunked (framed : Framed req body arrived)
    (unsized : req.headers.known .contentLength = none) :
    Announces req ↔ arrived < body.length := by
  simp [Announces, unsized, framed.flag]

/-- A length written in at most 31 bytes announces the body however much of it arrived. -/
theorem Framed.announces_of_contentLength (framed : Framed req body arrived) {value : Bytes}
    (sized : req.headers.known .contentLength = some value) (short : value.length ≤ 31)
    (fits : body.length < 2 ^ 64) : Announces req := by
  rcases framed.framing with ⟨text, found, filled, digits, length⟩ | ⟨unsized, _⟩
  · obtain rfl : value = text := Option.some.inj (sized.symm.trans found)
    have positive : 0 < body.length := List.length_pos_iff.mpr framed.nonempty
    refine .inr ⟨value, sized, filled, ?_⟩
    rw [List.take_of_length_le short, length]
    exact ⟨digits, positive, fits⟩
  · rw [unsized] at sized
    cases sized

end Announced

/-- A chunked POST whose whole body came with the headers. -/
def HttpRequest.chunked : HttpRequest :=
  { HttpRequest.plain with
    headers := { HttpHeaders.empty with
      known := Function.update HttpHeaders.empty.known .transferEncoding (some (bytesOf "chunked")) }
    moreEntityBodyExists := false }

def HttpContext.chunked : HttpContext := { HttpContext.plain with rawRequest := some .chunked }

/-- The engine evaluates an empty body and the handler gets both bytes. -/
theorem chunked_not_looksAtBody :
    Framed .chunked [104, 105] 2 ∧ ¬ LooksAtBody .chunked tracked ∧
      (caughtBodyRead .calm .chunked tracked).value = some .rqNotificationContinue ∧
      (caughtBodyRead .calm .chunked tracked).state.entity = [104, 105] ∧
      (caughtBodyRead .calm .chunked tracked).state.log =
        [.engine 0 .processRequestBody true, .engine 0 (.intervention none) true] := by
  have framed : Framed .chunked [104, 105] 2 :=
    ⟨by decide, by decide, by decide, .inr ⟨by decide, by decide⟩⟩
  refine ⟨framed, fun looks => ?_, by decide +kernel, by decide +kernel, by decide +kernel⟩
  have announced := (hasBody_iff .chunked).mp looks.1
  exact absurd ((framed.announces_iff_of_chunked (by decide)).mp announced) (by decide)

end ModSecurityIIS
