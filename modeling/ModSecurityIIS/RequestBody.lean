import ModSecurityIIS.RequestStage

/-!
# The request body across the stage

What the handler behind the module and the engine get of a request body: every
byte of it in order, whether the reads pend or not, and nothing let through that
the engine has not evaluated.
-/

set_option autoImplicit false

namespace ModSecurityIIS

open Imperative Program

/-! ## The handler gets the whole body -/

/-- A request that is let through reaches its handler with the body it came with. -/
theorem continued_body_conserved {env : Env} {context : HttpContext} {start final : World}
    {bound : Nat} (request : context.requestPresent = true)
    (quiet : start.outstanding = none)
    (run : beginRequestStage env context bound start =
      .returned .rqNotificationContinue final) :
    final.entity = start.entity := by
  cases beginRequestStage_result request quiet run (by simp) with
  | early before _ => exact before.entity
  | reading atBody _ through =>
      obtain ⟨s, drained, passedOn⟩ := through rfl
      calc final.entity = s.rsc.body ++ s.entity := passedOn.entity
        _ = _ := drained.conserved
        _ = start.entity := by rw [atBody.body, atBody.entity, List.nil_append]

/-- A body of two bytes, the first read pending and the second bringing the end. -/
def twoReads : World :=
  .arrived [104, 105]
    [{ count := 1, status := .sOk, pended := true },
      { count := 1, status := .fromWin32 errorHandleEof, pended := false }]

theorem continued_body_conserved_twoReads :
    ∃ final, beginRequestStage .calm .plain 2 twoReads =
        .returned .rqNotificationContinue final ∧ final.entity = [104, 105] := by
  obtain ⟨final, run⟩ := Outcome.exists_returned
    (by decide +kernel : (beginRequestStage .calm .plain 2 twoReads).value =
      some .rqNotificationContinue)
  exact ⟨final, run, continued_body_conserved rfl rfl run⟩

/-! ## Nothing is let through unevaluated -/

/-- On `tx` the header phase and then the body phase ran to completion, and no
disruptive intervention was reported after either. -/
def Served (tx : TransactionId) (log : List Event) : Prop :=
  ∃ before between after,
    log = before ++ .engine tx .processRequestHeaders true ::
      (between ++ .engine tx .processRequestBody true :: after) ∧
    (∀ event ∈ between, ¬ event.Disruptive) ∧ ∀ event ∈ after, ¬ event.Disruptive

theorem HeadersServed.served {tx : TransactionId} {log rest : List Event}
    (headers : HeadersServed tx log) (quiet : ∀ event ∈ rest, ¬ event.Disruptive) :
    Served tx (log ++ .engine tx .processRequestBody true :: rest) := by
  obtain ⟨before, between, rfl, clear⟩ := headers
  exact ⟨before, between, rest, by simp, clear, quiet⟩

theorem inspectionCalls_last (env : Env) (body : Bytes) :
    ∃ pieces, inspectionCalls env body = pieces ++ [.processRequestBody] ∧
      ∀ call ∈ pieces, ∃ piece, call = .appendRequestBody piece := by
  unfold inspectionCalls
  split
  · exact ⟨[], rfl, by simp⟩
  · exact ⟨[_], rfl, by simp⟩

theorem Inserted.not_disruptive {body : Bytes} {inserted : List Event}
    (inserts : Inserted body inserted) : ∀ event ∈ inserted, ¬ event.Disruptive := by
  cases inserts with
  | skipped => simp
  | attempted result => simp [Event.Disruptive]

theorem PassedOn.served {env : Env} {tx : TransactionId} {s after : World}
    (passedOn : PassedOn env tx s after) (headers : HeadersServed tx s.log) :
    Served tx after.log := by
  obtain ⟨inserted, rest, inserts, shape, quiet⟩ := passedOn.log
  obtain ⟨pieces, calls, appends⟩ := inspectionCalls_last env s.rsc.body
  have fed : ∀ event ∈ completedCalls tx pieces, ¬ event.Disruptive := by
    intro event member
    obtain ⟨call, called, rfl⟩ := List.mem_map.mp member
    obtain ⟨piece, rfl⟩ := appends call called
    simp [Event.Disruptive]
  have served := ((headers.append inserts.not_disruptive).append fed).served quiet
  rw [shape, calls]
  simpa [completedCalls] using served

/-- Every exit that lets a protected request continue comes after both request phases. -/
theorem continued_request_served {env : Env} {context : HttpContext} {start final : World}
    {bound : Nat} (request : context.requestPresent = true)
    (quiet : start.outstanding = none) (protects : Protected env context start)
    (run : beginRequestStage env context bound start =
      .returned .rqNotificationContinue final) :
    ∃ tx, final.stored = true ∧ final.rsc.tx = some tx ∧ Served tx final.log := by
  cases beginRequestStage_result request quiet run (by simp) with
  | early _ bypassed => exact absurd protects (bypassed rfl)
  | @reading tx w atBody _ through =>
      obtain ⟨s, drained, passedOn⟩ := through rfl
      refine ⟨tx, ?_, ?_, ?_⟩
      · rw [passedOn.stored, drained.stored, atBody.ready.stored]
      · rw [passedOn.context, drained.current, atBody.current]
      · obtain ⟨n, reads, _⟩ := drained.reads
        refine passedOn.served (reads ▸ atBody.headers.append fun event member => ?_)
        rw [List.eq_of_mem_replicate member]
        exact id

theorem Protected.twoReads : Protected .calm .plain twoReads where
  configured := ⟨⟨rfl, by decide⟩, nofun, nofun⟩
  failClosed := rfl
  fresh := rfl
  raw := nofun

theorem continued_request_served_twoReads :
    ∃ final tx, beginRequestStage .calm .plain 2 twoReads =
        .returned .rqNotificationContinue final ∧ Served tx final.log := by
  obtain ⟨final, run⟩ := Outcome.exists_returned
    (by decide +kernel : (beginRequestStage .calm .plain 2 twoReads).value =
      some .rqNotificationContinue)
  obtain ⟨tx, _, _, served⟩ := continued_request_served rfl rfl .twoReads run
  exact ⟨final, tx, run, served⟩

/-! ## The engine gets what it may inspect -/

/-- The body calls the engine has completed, in order. -/
def engineInput (events : List Event) : List EngineCall :=
  events.filterMap fun event =>
    match event with
    | .engine _ (.appendRequestBody piece) true => some (.appendRequestBody piece)
    | .engine _ .processRequestBody true => some .processRequestBody
    | _ => none

theorem engineInput_append (first second : List Event) :
    engineInput (first ++ second) = engineInput first ++ engineInput second :=
  List.filterMap_append

theorem engineInput_offBody {events : List Event} (off : ∀ event ∈ events, event.OffBody) :
    engineInput events = [] := by
  refine List.filterMap_eq_nil_iff.mpr fun event member => ?_
  have away := off event member
  split
  · cases away
  · cases away
  · rfl

theorem engineInput_reads (n : Nat) :
    engineInput (List.replicate n .readEntityBody) = [] :=
  List.filterMap_eq_nil_iff.mpr fun event member => by
    rw [List.eq_of_mem_replicate member]

theorem Inserted.input {body : Bytes} {inserted : List Event}
    (inserts : Inserted body inserted) : engineInput inserted = [] := by
  cases inserts <;> rfl

/-- The calls of the body phase. -/
def EngineCall.OnBody (call : EngineCall) : Prop :=
  call = .processRequestBody ∨ ∃ piece, call = .appendRequestBody piece

theorem inspectionCalls_onBody (env : Env) (body : Bytes) :
    ∀ call ∈ inspectionCalls env body, call.OnBody := by
  obtain ⟨pieces, shape, appends⟩ := inspectionCalls_last env body
  intro call member
  rw [shape] at member
  rcases List.mem_append.mp member with early | last
  · exact .inr (appends call early)
  · exact .inl (List.mem_singleton.mp last)

theorem Ran.input {env : Env} {tx : TransactionId} {calls : List EngineCall}
    {events : List Event} (ran : Ran env tx calls events)
    (onBody : ∀ call ∈ calls, call.OnBody) : engineInput events <+: calls := by
  induction ran with
  | nothing => exact List.prefix_rfl
  | threw _ =>
      rcases onBody _ List.mem_cons_self with rfl | ⟨piece, rfl⟩ <;> exact List.nil_prefix
  | completed _ ih =>
      have rest := ih fun call member => onBody call (List.mem_cons_of_mem _ member)
      rcases onBody _ List.mem_cons_self with rfl | ⟨piece, rfl⟩ <;>
        exact List.cons_prefix_cons.mpr ⟨rfl, rest⟩

theorem engineInput_completedCalls (tx : TransactionId) {calls : List EngineCall}
    (onBody : ∀ call ∈ calls, call.OnBody) : engineInput (completedCalls tx calls) = calls := by
  induction calls with
  | nil => rfl
  | cons call rest ih =>
      have later := ih fun call member => onBody call (List.mem_cons_of_mem _ member)
      rcases onBody call List.mem_cons_self with rfl | ⟨piece, rfl⟩ <;>
        exact congrArg (List.cons _) later

/-- What the engine gets of a body `unread`: a beginning of the calls that show it the
first bytes up to the cap, and all of these calls once nothing fails. -/
structure Inspected (env : Env) (unread : Bytes) (events : List Event) : Prop where
  beginning : engineInput events <+: inspectionCalls env unread
  whole : (∀ tick, env.throws tick = false) → .readEntityBody ∈ events →
    (∀ body result, .insertEntityBody body result ∈ events → result.failed = false) →
    engineInput events = inspectionCalls env unread

theorem Inspected.of_offBody {env : Env} {unread : Bytes} {events : List Event}
    (off : ∀ event ∈ events, event.OffBody) : Inspected env unread events where
  beginning := by rw [engineInput_offBody off]; exact List.nil_prefix
  whole _ read _ := by cases off _ read

/-- Events off the body around those of the body phase show the engine nothing. -/
theorem Inspected.surround {env : Env} {unread : Bytes} {before events : List Event}
    (off : ∀ event ∈ before, event.OffBody) (inspected : Inspected env unread events) :
    Inspected env unread (before ++ events) where
  beginning := by
    rw [engineInput_append, engineInput_offBody off]
    exact inspected.beginning
  whole calm read restored := by
    rw [engineInput_append, engineInput_offBody off]
    refine inspected.whole calm ?_ fun body result member =>
      restored body result (List.mem_append_right _ member)
    rcases List.mem_append.mp read with early | late
    · cases off _ early
    · exact late

theorem PassEvents.input {env : Env} {tx : TransactionId} {body : Bytes}
    {events : List Event} (pass : PassEvents env tx body events) :
    engineInput events <+: inspectionCalls env body := by
  cases pass with
  | refused _ => exact List.nil_prefix
  | fed inserts ran =>
      rw [engineInput_append, inserts.input, List.nil_append]
      exact ran.input (inspectionCalls_onBody env body)

theorem PassEvents.input_whole {env : Env} {tx : TransactionId} {body : Bytes}
    {events : List Event} (pass : PassEvents env tx body events)
    (calm : ∀ tick, env.throws tick = false)
    (restored : ∀ body result, .insertEntityBody body result ∈ events → result.failed = false) :
    engineInput events = inspectionCalls env body := by
  cases pass with
  | refused failed =>
      have sound := restored _ _ (List.mem_singleton.mpr rfl)
      rw [failed] at sound
      cases sound
  | fed inserts ran =>
      rw [engineInput_append, inserts.input, ran.all calm, List.nil_append]
      exact engineInput_completedCalls tx (inspectionCalls_onBody env body)

theorem BodyRun.inspected {env : Env} {info : EntityBodyInfo} {tx : TransactionId}
    {w after : World} (run : BodyRun env info tx w after) (body : w.rsc.body = [])
    (hasBody : info.hasBody = true) (delivers : Delivers w.entity w.reads)
    (declared : info.length = 0 ∨ info.length = w.entity.length) :
    ∃ events, after.log = w.log ++ events ∧ Inspected env w.entity events := by
  rcases run with ⟨s, drained, events, rest, log, pass, off⟩ | ⟨⟨tick, threw⟩, n, log⟩
  · obtain ⟨n, reads, _⟩ := drained.reads
    have complete := drained.complete hasBody delivers (by simpa [body] using declared)
    have shown : inspectionCalls env s.rsc.body = inspectionCalls env w.entity := by
      rw [body, List.nil_append] at complete
      rw [inspectionCalls, complete, ← inspectionCalls]
    refine ⟨List.replicate n .readEntityBody ++ (events ++ rest), by rw [log, reads]; simp, ?_, ?_⟩
    · rw [engineInput_append, engineInput_reads, engineInput_append, engineInput_offBody off,
        List.append_nil, List.nil_append, ← shown]
      exact pass.input
    · intro calm _ restored
      rw [engineInput_append, engineInput_reads, engineInput_append, engineInput_offBody off,
        List.append_nil, List.nil_append, ← shown]
      exact pass.input_whole calm fun body result member =>
        restored body result (by simp [member])
  · refine ⟨_, log, ?_, fun calm _ _ => ?_⟩
    · rw [engineInput_reads]
      exact List.nil_prefix
    · rw [calm tick] at threw
      cases threw

theorem beginRequestStage_inspected {env : Env} {context : HttpContext}
    (request : context.requestPresent = true)
    (hasBody : (getEntityBodyInfo context.rawRequest).hasBody = true) {start final : World}
    (declared : (getEntityBodyInfo context.rawRequest).length = 0 ∨
      (getEntityBodyInfo context.rawRequest).length = start.entity.length)
    (quiet : start.outstanding = none) (delivers : Delivers start.entity start.reads)
    {bound : Nat} {status : NotificationStatus}
    (run : beginRequestStage env context bound start = .returned status final)
    (decided : status ≠ .rqNotificationPending) :
    ∃ events, final.log = start.log ++ events ∧ Inspected env start.entity events := by
  cases beginRequestStage_result request quiet run decided with
  | early before _ =>
      obtain ⟨events, log, off⟩ := before.logged
      exact ⟨events, log, .of_offBody off⟩
  | @reading tx w atBody run _ =>
      obtain ⟨before, log, off⟩ := atBody.logged
      have same := atBody.entity
      obtain ⟨events, shape, inspected⟩ := run.inspected atBody.body hasBody
        (by rw [same, atBody.reads]; exact delivers) (same ▸ declared)
      refine ⟨before ++ events, by rw [shape, log, List.append_assoc], ?_⟩
      exact same ▸ inspected.surround off

theorem Inspected.evaluated {env : Env} {unread : Bytes} {events : List Event}
    (inspected : Inspected env unread events)
    (evaluated : .processRequestBody ∈ engineInput events) :
    engineInput events = inspectionCalls env unread := by
  obtain ⟨pieces, shape, appends⟩ := inspectionCalls_last env unread
  obtain ⟨missing, whole⟩ := inspected.beginning
  rcases List.eq_nil_or_concat missing with rfl | ⟨front, last, rfl⟩
  · rw [← whole, List.append_nil]
  · rw [shape, List.concat_eq_append, ← List.append_assoc] at whole
    have early : .processRequestBody ∈ pieces := by
      rw [← (List.append_inj' whole rfl).1]
      exact List.mem_append_left _ evaluated
    obtain ⟨piece, impossible⟩ := appends _ early
    cases impossible

/-- A request at the start of its stage whose reads bring the body `unread`. -/
structure Brings (unread : Bytes) (start : World) : Prop where
  entity : start.entity = unread
  delivers : Delivers unread start.reads
  quiet : start.outstanding = none

/-- However the reads cut a body, the engine gets its first bytes up to the cap before
the one body phase; two ways to cut it give the engine the same. -/
theorem body_inspected_for_every_chunking {env : Env} {context : HttpContext}
    (request : context.requestPresent = true)
    (hasBody : (getEntityBodyInfo context.rawRequest).hasBody = true) {unread : Bytes}
    (declared : (getEntityBodyInfo context.rawRequest).length = 0 ∨
      (getEntityBodyInfo context.rawRequest).length = unread.length) :
    (∀ start bound status final, Brings unread start → status ≠ .rqNotificationPending →
      beginRequestStage env context bound start = .returned status final →
      ∃ events, final.log = start.log ++ events ∧ Inspected env unread events) ∧
    ∀ start bound status final start' bound' status' final' events events',
      Brings unread start → status ≠ .rqNotificationPending →
      beginRequestStage env context bound start = .returned status final →
      Brings unread start' → status' ≠ .rqNotificationPending →
      beginRequestStage env context bound' start' = .returned status' final' →
      final.log = start.log ++ events → final'.log = start'.log ++ events' →
      .processRequestBody ∈ engineInput events → .processRequestBody ∈ engineInput events' →
      engineInput events = engineInput events' := by
  have inspects : ∀ start bound status final, Brings unread start →
      status ≠ .rqNotificationPending →
      beginRequestStage env context bound start = .returned status final →
      ∃ events, final.log = start.log ++ events ∧ Inspected env unread events := by
    rintro start bound status final ⟨rfl, delivers, quiet⟩ decided run
    exact beginRequestStage_inspected request hasBody declared quiet delivers run decided
  have shows : ∀ start bound status final events, Brings unread start →
      status ≠ .rqNotificationPending →
      beginRequestStage env context bound start = .returned status final →
      final.log = start.log ++ events → .processRequestBody ∈ engineInput events →
      engineInput events = inspectionCalls env unread := by
    intro start bound status final events brings decided run log evaluated
    obtain ⟨same, shape, inspected⟩ := inspects start bound status final brings decided run
    obtain rfl : events = same := List.append_cancel_left (log.symm.trans shape)
    exact inspected.evaluated evaluated
  refine ⟨inspects, ?_⟩
  intro start bound status final start' bound' status' final' events events' brings decided run
    brings' decided' run' log log' evaluated evaluated'
  rw [shows start bound status final events brings decided run log evaluated,
    shows start' bound' status' final' events' brings' decided' run' log' evaluated']

theorem Brings.twoReads : Brings [104, 105] twoReads where
  entity := rfl
  delivers := .piece (by decide) (by decide) (by decide) (by decide) (.last (by decide) (by decide))
  quiet := rfl

theorem body_inspected_for_every_chunking_twoReads :
    ∃ final events, beginRequestStage .calm .plain 2 twoReads =
        .returned .rqNotificationContinue final ∧
      final.log = twoReads.log ++ events ∧ Inspected .calm [104, 105] events := by
  obtain ⟨final, run⟩ := Outcome.exists_returned
    (by decide +kernel : (beginRequestStage .calm .plain 2 twoReads).value =
      some .rqNotificationContinue)
  obtain ⟨events, log, inspected⟩ := (body_inspected_for_every_chunking rfl rfl (.inl rfl)).1
    twoReads 2 .rqNotificationContinue final .twoReads (by decide) run
  exact ⟨final, events, run, log, inspected⟩

/-! ## Synchronous and asynchronous reads -/

/-- The calls that give the body to the engine or back to the server. -/
def bodyCalls (log : List Event) : List Event :=
  log.filter fun event => event.isBodyEvent && event ≠ .readEntityBody

def readCount (log : List Event) : Nat := log.count .readEntityBody

/-- Two runs read the body alike. -/
structure SameBodyRead (w other : World) : Prop where
  reads : readCount other.log = readCount w.log
  body : other.rsc.body = w.rsc.body
  calls : bodyCalls other.log = bodyCalls w.log

/-- At most one insertion, then at most one piece for the engine, then at most one
body phase. -/
def SinglePass (calls : List Event) : Prop :=
  ∃ tx body result piece appended processed,
    calls.Sublist [.insertEntityBody body result, .engine tx (.appendRequestBody piece) appended,
      .engine tx .processRequestBody processed]

theorem bodyCalls_offBody {events : List Event} (off : ∀ event ∈ events, event.OffBody) :
    bodyCalls events = [] :=
  List.filter_eq_nil_iff.mpr fun event member => by
    rw [off event member]
    simp

theorem bodyCalls_append (first second : List Event) :
    bodyCalls (first ++ second) = bodyCalls first ++ bodyCalls second :=
  List.filter_append _ _

theorem bodyCalls_reads (n : Nat) : bodyCalls (List.replicate n .readEntityBody) = [] :=
  List.filter_eq_nil_iff.mpr fun event member => by
    rw [List.eq_of_mem_replicate member]
    simp

theorem SinglePass.nil : SinglePass [] :=
  ⟨0, [], .sOk, [], true, true, List.nil_sublist _⟩

theorem SinglePass.sublist {calls fewer : List Event} (single : SinglePass calls)
    (sub : fewer.Sublist calls) : SinglePass fewer := by
  obtain ⟨tx, body, result, piece, appended, processed, within⟩ := single
  exact ⟨tx, body, result, piece, appended, processed, sub.trans within⟩

theorem PassEvents.single {env : Env} {tx : TransactionId} {body : Bytes} {events : List Event}
    (pass : PassEvents env tx body events) : SinglePass events := by
  cases pass with
  | @refused result _ =>
      exact ⟨tx, body, result, [], true, true, List.singleton_sublist.mpr List.mem_cons_self⟩
  | @fed inserted events inserts ran =>
      have fed : ∃ piece appended processed,
          events.Sublist [.engine tx (.appendRequestBody piece) appended,
            .engine tx .processRequestBody processed] := by
        rw [inspectionCalls] at ran
        split at ran
        · cases ran with
          | threw _ => exact ⟨[], true, false, .cons _ (.refl _)⟩
          | completed rest =>
              cases rest
              exact ⟨[], true, true, .cons _ (.refl _)⟩
        · cases ran with
          | threw _ => exact ⟨_, false, true, .cons_cons _ (List.nil_sublist _)⟩
          | completed rest =>
              cases rest with
              | threw _ => exact ⟨_, true, false, .refl _⟩
              | completed last =>
                  cases last
                  exact ⟨_, true, true, .refl _⟩
      obtain ⟨piece, appended, processed, after⟩ := fed
      cases inserts with
      | skipped => exact ⟨tx, body, .sOk, piece, appended, processed, after.cons _⟩
      | attempted result => exact ⟨tx, body, result, piece, appended, processed, after.cons_cons _⟩

theorem BodyRun.single {env : Env} {info : EntityBodyInfo} {tx : TransactionId}
    {w after : World} (run : BodyRun env info tx w after) :
    ∃ calls, bodyCalls after.log = bodyCalls w.log ++ calls ∧ SinglePass calls := by
  rcases run with ⟨s, drained, events, rest, log, pass, off⟩ | ⟨_, n, log⟩
  · obtain ⟨n, reads, _⟩ := drained.reads
    refine ⟨bodyCalls events, ?_, pass.single.sublist List.filter_sublist⟩
    rw [log, reads, bodyCalls_append, bodyCalls_append, bodyCalls_append, bodyCalls_reads,
      bodyCalls_offBody off, List.append_nil, List.append_nil]
  · refine ⟨[], ?_, .nil⟩
    rw [log, bodyCalls_append, bodyCalls_reads]

theorem StageResult.single {env : Env} {context : HttpContext} {start final : World}
    {status : NotificationStatus} (result : StageResult env context start status final) :
    ∃ calls, bodyCalls final.log = bodyCalls start.log ++ calls ∧ SinglePass calls := by
  cases result with
  | early before _ =>
      obtain ⟨events, log, off⟩ := before.logged
      exact ⟨[], by rw [log, bodyCalls_append, bodyCalls_offBody off], .nil⟩
  | reading atBody run _ =>
      obtain ⟨events, log, off⟩ := atBody.logged
      obtain ⟨calls, shape, single⟩ := run.single
      refine ⟨calls, ?_, single⟩
      rw [shape, log, bodyCalls_append, bodyCalls_offBody off, List.append_nil]

theorem SameButEventLog.bodyRead {w other : World} (same : SameButEventLog w other) :
    SameBodyRead w other := by
  rw [same]
  exact ⟨rfl, rfl, rfl⟩

/-- The asynchronous stage and the synchronous handler decide alike, after the same
reads and the same single pass over the same body. -/
theorem asynchronous_reads_agree {env : Env} {context : HttpContext} {start : World} {bound : Nat}
    (request : context.requestPresent = true) (quiet : start.outstanding = none)
    (enough : start.reads.length ≤ bound) :
    (∀ status w, onBeginRequest env.synchronous (some context) start = .returned status w →
      (∃ other, beginRequestStage env context bound start = .returned status other ∧
        SameBodyRead w other) ∧
      ∃ calls, bodyCalls w.log = bodyCalls start.log ++ calls ∧ SinglePass calls) ∧
    ∀ status other, beginRequestStage env context bound start = .returned status other →
      ∃ w, onBeginRequest env.synchronous (some context) start = .returned status w ∧
        SameBodyRead w other := by
  have alike := @beginRequestStage_agrees env context request start quiet bound enough
  constructor
  · intro status w run
    refine ⟨?_, (onBeginRequest_synchronous_result request quiet run).single⟩
    rw [run] at alike
    generalize beginRequestStage env context bound start = outcome at alike ⊢
    cases alike with
    | returned same => exact ⟨_, rfl, same.bodyRead⟩
  · intro status other run
    rw [run] at alike
    generalize onBeginRequest env.synchronous (some context) start = outcome at alike ⊢
    cases alike with
    | returned same => exact ⟨_, rfl, same.bodyRead⟩

theorem asynchronous_reads_agree_twoReads :
    ∃ w other,
      onBeginRequest Env.calm.synchronous (some .plain) twoReads =
        .returned .rqNotificationContinue w ∧
      beginRequestStage .calm .plain 2 twoReads = .returned .rqNotificationContinue other ∧
      SameBodyRead w other := by
  obtain ⟨w, run⟩ := Outcome.exists_returned
    (by decide +kernel : (onBeginRequest Env.calm.synchronous (some .plain) twoReads).value =
      some .rqNotificationContinue)
  obtain ⟨⟨other, ran, same⟩, _⟩ :=
    (asynchronous_reads_agree rfl rfl (Nat.le_refl 2)).1 .rqNotificationContinue w run
  exact ⟨w, other, run, ran, same⟩

end ModSecurityIIS
