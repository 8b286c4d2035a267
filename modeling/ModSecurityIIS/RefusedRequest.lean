import ModSecurityIIS.InterventionStatus

/-!
# The status of a refused new request

Where `OnBeginRequest` loses the status of a request it refuses, and with it which requests the
handlers of the request phase answer.
-/

set_option autoImplicit false

namespace ModSecurityIIS

open Imperative Program

section Verdicts

variable {env : Env} {context : HttpContext} {w : World}

/-! ## The configuration -/

/-- Only the clock, the log of the administration API and the stored configuration differ. -/
def Looks (w after : World) : Prop :=
  ∃ tick comLog storedConfiguration, after = { w with tick, comLog, storedConfiguration }

theorem Looks.trans {w middle after : World} (first : Looks w middle)
    (second : Looks middle after) : Looks w after := by
  obtain ⟨_, _, _, rfl⟩ := first
  obtain ⟨tick, comLog, storedConfiguration, rfl⟩ := second
  exact ⟨tick, comLog, storedConfiguration, rfl⟩

/-- Where a property is read: the value is had without an exception, and a copy is allocated. -/
def copyReads (env : Env) (copied : Bool) (tick : Nat) : Bool :=
  propertyReads env tick && (!copied || env.succeeds (tick + 5))

@[simp] theorem copyReads_false (env : Env) (tick : Nat) :
    copyReads env false tick = propertyReads env tick := by
  simp [copyReads]

/-- How a property read ends: with the value, at the tick `next`, or with an error. -/
structure PropertyEnds (reads : Bool) (next : Nat) (w : World) (result : PropertyRead)
    (after : World) : Prop where
  looks : Looks w after
  brought : (result.hr.failed || result.exception) = !reads
  next : reads = true → result.read = true ∧ after.tick = next

theorem propertyValue_ends (env : Env) (property : SectionProperty) (copied : Bool) (w : World) :
    ∃ result after, propertyValue env property copied w = .returned result after ∧
      PropertyEnds (valueReads env w.tick && (!copied || env.succeeds (w.tick + 3)))
        (w.tick + 3 + copied.toNat) w result after := by
  have memory : HResult.eOutOfMemory.failed = true := rfl
  simp only [propertyValue, bind_apply, recordCom_apply, consult_apply, World.advance]
  cases value : (env.hresult w.tick).failed with
  | true => refine ⟨_, _, rfl, ⟨_, _, _, rfl⟩, ?_, ?_⟩ <;> simp [valueReads, value]
  | false =>
      simp only [Bool.false_eq_true, if_false, bind_apply, consult_apply, World.advance]
      cases exception : (env.hresult (w.tick + 1)).failed with
      | true => refine ⟨_, _, rfl, ⟨_, _, _, rfl⟩, ?_, ?_⟩ <;> simp [valueReads, exception]
      | false =>
          simp only [Bool.false_eq_true, if_false, bind_apply, consult_apply, World.advance]
          cases clean : env.succeeds (w.tick + 2) with
          | false => refine ⟨_, _, rfl, ⟨_, _, _, rfl⟩, ?_, ?_⟩ <;> simp [valueReads, clean]
          | true =>
              have reads : valueReads env w.tick = true := by
                simp [valueReads, value, exception, clean]
              cases copied with
              | false =>
                  refine ⟨_, _, rfl, ⟨_, _, _, rfl⟩, ?_, fun _ => ⟨rfl, rfl⟩⟩
                  simp [reads, exception]
              | true =>
                  simp only [if_true, bind_apply, consult_apply, World.advance]
                  cases allocated : env.succeeds (w.tick + 3) with
                  | true =>
                      refine ⟨_, _, rfl, ⟨_, _, _, rfl⟩, ?_, fun _ => ⟨rfl, rfl⟩⟩
                      simp [reads, exception]
                  | false => refine ⟨_, _, rfl, ⟨_, _, _, rfl⟩, ?_, ?_⟩ <;> simp [memory]

theorem getPropertyValue_ends (env : Env) (property : SectionProperty) (copied : Bool) (w : World) :
    ∃ result after, getPropertyValue env property copied true w = .returned result after ∧
      PropertyEnds (copyReads env copied w.tick) (w.tick + 5 + copied.toNat) w result after := by
  have unexpected : HResult.eUnexpected.failed = true := rfl
  simp only [getPropertyValue, if_true, bind_apply, consult_apply, World.advance]
  cases lookup : (env.hresult w.tick).failed with
  | true =>
      refine ⟨_, _, rfl, ⟨_, _, _, rfl⟩, ?_, ?_⟩ <;>
        simp [copyReads, propertyReads, propertyFound, lookup]
  | false =>
      simp only [Bool.false_eq_true, if_false, bind_apply, consult_apply, World.advance]
      cases present : env.succeeds (w.tick + 1) with
      | false =>
          refine ⟨_, _, rfl, ⟨_, _, _, rfl⟩, ?_, ?_⟩ <;>
            simp [copyReads, propertyReads, propertyFound, present, unexpected]
      | true =>
          obtain ⟨result, after, ran, ⟨_, _, _, rfl⟩, brought, next⟩ :=
            propertyValue_ends env property copied
              { w with tick := w.tick + 1 + 1, comLog := w.comLog ++ [.obtainProperty property] }
          have same : copyReads env copied w.tick =
              (valueReads env (w.tick + 2) && (!copied || env.succeeds (w.tick + 5))) := by
            simp [copyReads, propertyReads, propertyFound, lookup, present]
          simp only [if_true, bind_apply, recordCom_apply, ran]
          rw [same]
          exact ⟨_, _, rfl, ⟨_, _, _, rfl⟩, brought, next⟩

/-- How `Initialize` and the reads it makes end: with the section's context when they bring all
of it, and else with an error. -/
structure InitializationEnds (context : ModsecurityStoredContext) (brings : Bool) (next : Nat)
    (w : World) (result : Initialization) (after : World) : Prop where
  looks : Looks w after
  brought : (result.hr.failed || result.exception) = !brings
  next : brings = true → result.context = context ∧ after.tick = next

theorem readSection_ends (env : Env) (site : SiteConfiguration) (w : World) :
    ∃ result after, readSection env site w = .returned result after ∧
      InitializationEnds site.read (sectionReads env site w.tick) (w.tick + sectionSteps site) w
        result after := by
  obtain ⟨enabled, first, ranEnabled, endsEnabled⟩ := getPropertyValue_ends env .enabled false w
  rw [readSection, getBooleanPropertyValue, bind_returned ranEnabled]
  dsimp only
  obtain ⟨looks, brought, next⟩ := endsEnabled
  rw [copyReads_false] at brought next
  cases reads : propertyReads env w.tick with
  | false =>
      have missing : sectionReads env site w.tick = false := by simp [sectionReads, reads]
      rw [reads] at brought
      rw [if_pos (by simp [brought])]
      refine ⟨_, _, rfl, looks, ?_, ?_⟩
      · simpa [missing] using brought
      · simp [missing]
  | true =>
      rw [reads] at brought
      obtain ⟨read, moved⟩ := next reads
      cases on : site.enabled with
      | false =>
          rw [if_pos (by simp)]
          refine ⟨_, _, rfl, looks, ?_, ?_⟩
          · simpa [sectionReads, reads, on] using brought
          · simp [sectionSteps, SiteConfiguration.read, ModsecurityStoredContext.new, on, moved]
      | true =>
          rw [if_neg (by simp [brought, read])]
          obtain ⟨block, second, ranBlock, endsBlock⟩ :=
            getPropertyValue_ends env .responseBodyBlock false first
          obtain ⟨looksBlock, broughtBlock, nextBlock⟩ := endsBlock
          rw [copyReads_false, moved] at broughtBlock nextBlock
          rw [getBooleanPropertyValue, bind_returned ranBlock]
          cases readsBlock : propertyReads env (w.tick + 5) with
          | false =>
              have missing : sectionReads env site w.tick = false := by
                simp [sectionReads, readsBlock, on]
              have failed : (block.hr.failed || block.exception) = true := by
                simpa [readsBlock] using broughtBlock
              rw [if_pos failed]
              refine ⟨_, _, rfl, looks.trans looksBlock, ?_, ?_⟩
              · simpa [missing] using failed
              · simp [missing]
          | true =>
              obtain ⟨readBlock, movedBlock⟩ := nextBlock readsBlock
              have worked : ¬ (block.hr.failed || block.exception) = true := by
                simpa [readsBlock] using broughtBlock
              obtain ⟨file, third, ranFile, endsFile⟩ :=
                getPropertyValue_ends env .configFile true second
              obtain ⟨looksFile, broughtFile, nextFile⟩ := endsFile
              have same : sectionReads env site w.tick = copyReads env true second.tick := by
                simp [sectionReads, copyReads, reads, readsBlock, on, movedBlock]
              rw [if_neg worked, getStringPropertyValue, bind_returned ranFile]
              refine ⟨_, _, rfl, (looks.trans looksBlock).trans looksFile, ?_, ?_⟩
              · rw [same]
                exact broughtFile
              · intro brings
                rw [same] at brings
                obtain ⟨readFile, movedFile⟩ := nextFile brings
                constructor
                · simp [SiteConfiguration.read, on, read, readBlock, readFile]
                · rw [movedFile, movedBlock]
                  simp [sectionSteps, on]

theorem initializeConfig_ends (env : Env) (context : HttpContext) (w : World) :
    ∃ result after, initializeConfig env context w = .returned result after ∧
      InitializationEnds context.site.read (initializes env context w.tick)
        (w.tick + 2 + sectionSteps context.site) w result after := by
  have unexpected : HResult.eUnexpected.failed = true := rfl
  rw [initializeConfig, bind_returned (recordCom_apply _ w)]
  cases admin : context.adminManagerPresent with
  | false => refine ⟨_, _, rfl, ⟨_, _, _, rfl⟩, ?_, ?_⟩ <;> simp [initializes, admin, unexpected]
  | true =>
      simp only [if_true, bind_apply, consult_apply, World.advance]
      cases lookup : (env.hresult w.tick).failed with
      | true => refine ⟨_, _, rfl, ⟨_, _, _, rfl⟩, ?_, ?_⟩ <;> simp [initializes, lookup]
      | false =>
          simp only [Bool.false_eq_true, if_false, bind_apply, consult_apply, World.advance]
          cases given : env.succeeds (w.tick + 1) with
          | false =>
              refine ⟨_, _, rfl, ⟨_, _, _, rfl⟩, ?_, ?_⟩ <;> simp [initializes, given, unexpected]
          | true =>
              obtain ⟨result, after, ran, ⟨_, _, _, rfl⟩, brought, next⟩ :=
                readSection_ends env context.site
                  { w with
                    tick := w.tick + 1 + 1
                    comLog := w.comLog ++ [.sysAllocString] ++ [.obtainSection] }
              have same : initializes env context w.tick =
                  sectionReads env context.site (w.tick + 1 + 1) := by
                simp [initializes, admin, lookup, given]
              simp only [if_true, bind_apply, recordCom_apply, ran]
              rw [same]
              exact ⟨_, _, rfl, ⟨_, _, _, rfl⟩, brought, next⟩

/-- How `GetConfig` ends: with the configuration that is found, or with an error. -/
structure ConfigurationEnds (env : Env) (context : HttpContext) (w : World) (result : ConfigResult)
    (after : World) : Prop where
  looks : Looks w after
  found : ∀ config, result.hr.failed = false → result.config = some config →
    ConfigurationFound env context w config after.tick
  finds : ∀ config tick, ConfigurationFound env context w config tick →
    result.hr.failed = false ∧ result.config = some config ∧ after.tick = tick

theorem ConfigurationEnds.failed {result : ConfigResult} {after : World} (looks : Looks w after)
    (failed : result.hr.failed = true)
    (nothing : ∀ config tick, ¬ ConfigurationFound env context w config tick) :
    ConfigurationEnds env context w result after where
  looks := looks
  found _ worked := absurd failed (Bool.eq_false_iff.mp worked)
  finds config tick found := absurd found (nothing config tick)

/-- The ways `SetModuleContext` on the metadata container can go. -/
inductive ConfigurationStores (env : Env) (config : ModsecurityStoredContext) (w : World) :
    ConfigResult → World → Prop where
  | stored {after : World} :
      (env.hresult w.tick).failed = false → Looks w after → after.tick = w.tick + 1 →
      ConfigurationStores env config w { hr := env.hresult w.tick, config := some config } after
  | raced {after : World} :
      env.hresult w.tick = .fromWin32 errorAlreadyAssigned → Looks w after →
      after.tick = w.tick + 2 →
      ConfigurationStores env config w
        { hr := .sOk, config := env.racingConfiguration (w.tick + 1) } after
  | refused {after : World} :
      (env.hresult w.tick).failed = true →
      env.hresult w.tick ≠ .fromWin32 errorAlreadyAssigned → Looks w after →
      ConfigurationStores env config w { hr := env.hresult w.tick, config := none } after

theorem storeConfig_ends (env : Env) (config : ModsecurityStoredContext) (w : World) :
    ∃ result after, storeConfig env config w = .returned result after ∧
      ConfigurationStores env config w result after := by
  rw [storeConfig, bind_returned (consult_apply _ _)]
  cases failed : (env.hresult w.tick).failed with
  | false => exact ⟨_, _, rfl, .stored failed ⟨_, _, _, rfl⟩ rfl⟩
  | true =>
      rw [if_pos rfl, bind_returned (recordCom_apply _ _)]
      by_cases raced : env.hresult w.tick = .fromWin32 errorAlreadyAssigned
      · rw [if_pos raced]
        exact ⟨_, _, rfl, .raced raced ⟨_, _, _, rfl⟩ rfl⟩
      · rw [if_neg raced]
        exact ⟨_, _, rfl, .refused failed raced ⟨_, _, _, rfl⟩⟩

/-- What is found once the section is read. -/
theorem storeConfig_finds {s : World} (container : context.metadataContainerPresent = true)
    (cached : w.storedConfiguration = none) (allocated : env.succeeds w.tick = true)
    (reads : initializes env context (w.tick + 1) = true) (before : Looks w s)
    (clock : s.tick = w.tick + 3 + sectionSteps context.site) :
    ∃ result after, storeConfig env context.site.read s = .returned result after ∧
      ConfigurationEnds env context w result after := by
  obtain ⟨result, after, ran, ends⟩ := storeConfig_ends env context.site.read s
  refine ⟨result, after, ran, ?_⟩
  have already : (HResult.fromWin32 errorAlreadyAssigned).failed = true := rfl
  cases ends with
  | stored assigned looks later =>
      rw [clock] at assigned later ⊢
      have last : after.tick = w.tick + 4 + sectionSteps context.site := by omega
      refine ⟨before.trans looks, ?_, ?_⟩
      · intro config _ handed
        cases handed
        rw [last]
        exact .read container cached allocated reads assigned
      · intro config tick found
        cases found with
        | cached _ other => simp [cached] at other
        | read => exact ⟨assigned, rfl, last⟩
        | raced _ _ _ _ raced => rw [raced, already] at assigned; cases assigned
  | raced raced looks later =>
      rw [clock] at raced later ⊢
      have last : after.tick = w.tick + 5 + sectionSteps context.site := by omega
      have next : w.tick + 3 + sectionSteps context.site + 1 =
          w.tick + 4 + sectionSteps context.site := by omega
      rw [next]
      refine ⟨before.trans looks, ?_, ?_⟩
      · intro other _ hands
        rw [last]
        exact .raced container cached allocated reads raced hands
      · intro config tick found
        cases found with
        | cached _ other => simp [cached] at other
        | read _ _ _ _ assigned => rw [raced, already] at assigned; cases assigned
        | raced _ _ _ _ _ hands => exact ⟨(rfl : HResult.sOk.failed = false), hands, last⟩
  | refused failed other looks =>
      refine .failed (before.trans looks) failed fun config tick found => ?_
      rw [clock] at failed other
      cases found with
      | cached _ other => simp [cached] at other
      | read _ _ _ _ assigned => rw [failed] at assigned; cases assigned
      | raced _ _ _ _ raced => exact other raced

theorem getConfig_ends (env : Env) (context : HttpContext) (w : World) :
    ∃ result after, getConfig env context w = .returned result after ∧
      ConfigurationEnds env context w result after := by
  rw [getConfig, bind_returned (get_apply w)]
  cases container : context.metadataContainerPresent with
  | false =>
      refine ⟨_, _, rfl, .failed ⟨_, _, _, rfl⟩ rfl fun config tick found => ?_⟩
      cases found <;> simp_all
  | true =>
      rw [if_pos rfl]
      cases cached : w.storedConfiguration with
      | some config =>
          refine ⟨_, w, rfl, ⟨_, _, _, rfl⟩, ?_, ?_⟩
          · intro other _ handed
            cases handed
            exact .cached container cached
          · intro other tick found
            have ok : HResult.sOk.failed = false := rfl
            cases found <;> simp_all
      | none =>
          dsimp only
          rw [bind_returned (consult_apply _ _)]
          cases allocated : env.succeeds w.tick with
          | false =>
              refine ⟨_, _, rfl, .failed ⟨_, _, _, rfl⟩ rfl fun config tick found => ?_⟩
              cases found <;> simp_all
          | true =>
              obtain ⟨result, after, ran, ends⟩ := initializeConfig_ends env context
                { w.advance with comLog := w.comLog ++ [.constructContext] }
              obtain ⟨⟨tick, comLog, storedConfiguration, rfl⟩, brought, next⟩ := ends
              rw [if_pos rfl, bind_returned (recordCom_apply _ _)]
              simp only [bind_apply, World.advance] at ran brought next ⊢
              rw [ran]
              cases reads : initializes env context (w.tick + 1) with
              | false =>
                  have failed : (result.hr.failed || result.exception) = true := by
                    simpa [reads] using brought
                  simp only [failed, if_true, bind_apply]
                  have unread (config : ModsecurityStoredContext) (tick : Nat) :
                      ¬ ConfigurationFound env context w config tick := by
                    intro found
                    cases found <;> simp_all
                  cases result.exception
                  · exact ⟨_, _, rfl, .failed ⟨_, _, _, rfl⟩ rfl unread⟩
                  · exact ⟨_, _, rfl, .failed ⟨_, _, _, rfl⟩ rfl unread⟩
              | true =>
                  obtain ⟨made, moved⟩ := next reads
                  have worked : ¬ (result.hr.failed || result.exception) = true := by
                    simpa [reads] using brought
                  dsimp only
                  rw [if_neg worked, made]
                  refine storeConfig_finds container cached allocated reads ⟨_, _, _, rfl⟩ ?_
                  rw [show tick = _ from moved, Nat.add_assoc w.tick]

/-! ## The transaction -/

theorem beginBodyReadLoses_congr {start : World} {tick : Nat} (reads : w.reads = start.reads)
    (entity : w.entity = start.entity) :
    beginBodyReadLoses env context w tick ↔ beginBodyReadLoses env context start tick := by
  unfold beginBodyReadLoses
  rw [reads, entity]

theorem addKnownHeaders_timed (tx : TransactionId) (add : Bytes → Bytes → EngineCall)
    (headers : HttpHeaders) (table : List (HttpHeaderId × String)) :
    Timed env (table.map fun entry => if (headers.known entry.1).isSome then 2 else 0).sum
      (addKnownHeaders env tx add headers table) := by
  refine .forEach fun entry => ?_
  cases headers.known entry.1 with
  | none => exact .pure ()
  | some raw => exact .bind mayThrow_timed fun _ => engineCall_timed tx _

theorem addUnknownHeaders_timed (tx : TransactionId) (add : Bytes → Bytes → EngineCall)
    (headers : HttpHeaders) :
    Timed env (headers.unknown.map fun _ => 2).sum (addUnknownHeaders env tx add headers) :=
  .forEach fun _ => .bind mayThrow_timed fun _ => engineCall_timed tx _

theorem describeRequest_timed (req : HttpRequest) (tx : TransactionId) :
    Timed env (4 + headerSteps req.headers) (describeRequest env context req tx) := by
  have steps : 4 + headerSteps req.headers =
      1 + (1 + (1 + (0 + (1 + headerSteps req.headers)))) := by
    omega
  rw [steps]
  refine .bind mayThrow_timed fun _ => .bind (engineCall_timed tx _) fun _ => ?_
  refine .bind mayThrow_timed fun _ => .bind (.modify fun _ => rfl) fun _ => ?_
  refine .bind (engineCall_timed tx _) fun _ => ?_
  exact .bind (addKnownHeaders_timed tx _ _ _) fun _ => addUnknownHeaders_timed tx _ _

abbrev BlockExit.Finishes (exit : BlockExit) : Prop := exit.status.Finishes

theorem interventionPasses_unique {tick first second : Nat}
    (one : interventionPasses env tick first) (other : interventionPasses env tick second) :
    first = second := by
  unfold interventionPasses at one other
  cases reports : env.intervention tick <;> simp_all

/-- Phase 1 asks the engine and, unless it disrupts, the body is read. -/
theorem interveneThenRead_judged {tx : TransactionId} (present : context.responsePresent = true)
    (live : w.rsc.tx = some tx) (idle : w.rsc.bodyReadState = .idle) (fresh : w.rsc.body = []) :
    Judged BlockExit.Finishes
      (applyInterventionLoses env w.tick ∨
        ∃ next, interventionPasses env w.tick next ∧ beginBodyReadLoses env context w next) w
      ((do
        let blocked ← applyIntervention env context true
        if blocked then pure (.finish .rqNotificationFinishRequest)
        else do
          let status ← beginBodyRead env context
          pure (.finish status) : Program World BlockExit) w) := by
  refine (applyIntervention_judged present live).andThen ?_ ?_ ?_
  · intro blocked done
    subst done
    exact ⟨_, rfl, rfl⟩
  · intro lost
    obtain ⟨next, passes, _⟩ := lost
    obtain ⟨after, ran, _⟩ := @applyIntervention_passes env context w tx next live passes
    exact ⟨false, after, ran, by simp⟩
  · intro blocked after ran open_
    rw [Bool.not_eq_true] at open_
    subst open_
    obtain ⟨passes, log, same⟩ := applyIntervention_passed live ran
    generalize after.tick = next at passes same
    subst same
    have reads := @beginBodyRead_judged env context { w with tick := next, log } tx present live
      idle fresh
    have whole : Judged BlockExit.Finishes _ _
        ((beginBodyRead env context >>= fun status => pure (.finish status)) _) :=
      reads.followed (fun status done => ⟨_, rfl, done⟩) fun status after passes => .pass passes id
    refine whole.congr ⟨?_, fun gone => ⟨next, passes, gone⟩⟩
    intro lost
    obtain ⟨other, again, gone⟩ := lost
    rw [interventionPasses_unique passes again]
    exact gone

theorem inspectRequest_judged {tx : TransactionId} (present : context.responsePresent = true)
    (live : w.rsc.tx = some tx) (idle : w.rsc.bodyReadState = .idle) (fresh : w.rsc.body = [])
    (req : HttpRequest) :
    Judged BlockExit.Finishes (inspectRequestLoses env context req w w.tick) w
      (inspectRequest env context req tx w) := by
  let describes : Program World Unit := do
    describeRequest env context req tx
    engineCall env tx .processRequestHeaders
  have frame : Within (Frame SameButProtocol Event.Calm) describes := by
    refine .bind (describeRequest_frame env context req tx (fun _ _ => rfl) ?_) fun _ => ?_
    · intro call completed describes
      refine engine_calm fun reported same => ?_
      subst same
      exact describes
    · exact engineCall_frame fun _ => engine_calm (by simp)
  have timed : Timed env (requestHeaderSteps req) describes := by
    have steps : requestHeaderSteps req = 4 + headerSteps req.headers + 1 := by
      unfold requestHeaderSteps
      omega
    rw [steps]
    exact .bind (describeRequest_timed req tx) fun _ => engineCall_timed tx _
  have shape : inspectRequest env context req tx = describes >>= fun _ => (do
      let blocked ← applyIntervention env context true
      if blocked then pure (.finish .rqNotificationFinishRequest)
      else do
        let status ← beginBodyRead env context
        pure (.finish status)) := by
    simp only [inspectRequest, requestHeaderPhase, describes, bind_assoc]
  rw [shape]
  refine Verdict.bind_clocked (calm_of_frame frame) timed fun _ after run moved => ?_
  have kept := frame.returned run
  have same : after.rsc = { w.rsc with protocol := after.rsc.protocol } := kept.context
  have asks := @interveneThenRead_judged env context after tx present (by rw [same]; exact live)
    (by rw [same]; exact idle) (by rw [same]; exact fresh)
  rw [moved] at asks
  refine asks.congr (or_congr_right (exists_congr fun next => and_congr_right fun _ => ?_))
  exact (beginBodyReadLoses_congr kept.reads kept.entity).symm

theorem newTransaction_apply (env : Env) (w : World) :
    newTransaction env w =
      if env.throws w.tick = true then .thrown w.advance
      else if env.succeeds (w.tick + 1) = true then
        if env.throws (w.tick + 2) = true then .thrown w.advance.advance.advance
        else .returned (some w.nextTransaction)
          { w.advance.advance.advance with
            nextTransaction := w.nextTransaction + 1
            log := w.log ++ [.constructTransaction w.nextTransaction] }
      else .returned none w.advance.advance := by
  rw [newTransaction, bind_apply, mayThrow_apply]
  by_cases engine : env.throws w.tick = true
  · rw [if_pos engine, if_pos engine]
  · rw [if_neg engine, if_neg engine]
    dsimp only
    rw [bind_returned (consult_apply _ _)]
    by_cases allocated : env.succeeds (w.tick + 1) = true
    · have made : env.succeeds w.advance.tick = true := allocated
      rw [if_pos made, if_pos allocated, bind_apply, mayThrow_apply]
      by_cases threw : env.throws (w.tick + 2) = true
      · have throws : env.throws w.advance.advance.tick = true := threw
        rw [if_pos throws, if_pos threw]
      · have calm : ¬ env.throws w.advance.advance.tick = true := threw
        rw [if_neg calm, if_neg threw]
        rfl
    · have none : ¬ env.succeeds w.advance.tick = true := allocated
      rw [if_neg none, if_neg allocated]
      rfl

theorem finishContext_calm (env : Env) (rsc : RequestStoredContext) :
    Within Calm (finishContext env rsc) := by
  have frame : Within (Frame (fun _ _ => True) Event.Calm) (finishContext env rsc) := by
    refine finishContext_frame env rsc fun event finalizes => ⟨?_, ?_⟩
    · intro op same
      subst same
      exact finalizes
    · intro disruptive
      cases event with
      | engine tx call completed => cases call <;> first | exact disruptive | exact finalizes
      | _ => exact disruptive
  exact calm_of_frame frame

/-- A context that is not stored is finished; only the assigned one is no error. -/
theorem refuseContext_judged {lost : Prop} (rsc : RequestStoredContext) {shr : HResult}
    (loses : lost ↔ shr ≠ .fromWin32 errorAlreadyAssigned) :
    Judged BlockExit.Finishes lost w ((do
      let _ ← finishContext env rsc
      if shr = .fromWin32 errorAlreadyAssigned then pure (.leave .sOk)
      else pure (.leave .eUnexpected) : Program World BlockExit) w) := by
  obtain ⟨finished, after, ran⟩ := finishContext_returns env rsc w
  have calm := (finishContext_calm env rsc).returned ran
  rw [bind_returned ran]
  by_cases assigned : shr = .fromWin32 errorAlreadyAssigned
  · rw [if_pos assigned]
    exact Verdict.after (.pass (by decide) (by simp [loses, assigned])) calm
  · rw [if_neg assigned]
    exact Verdict.after (.drop (by decide) (loses.mpr assigned)) calm

/-- The world of a request whose transaction and context are allocated. -/
def World.opened (w : World) : World :=
  { w with
    tick := w.tick + 4
    nextTransaction := w.nextTransaction + 1
    log := w.log ++ [.constructTransaction w.nextTransaction] }

/-- From `SetModuleContext` on. -/
theorem storeThenInspect_judged {rsc : RequestStoredContext} {tx : TransactionId}
    (present : context.responsePresent = true) (live : rsc.tx = some tx)
    (idle : rsc.bodyReadState = .idle) (fresh : rsc.body = []) :
    Judged BlockExit.Finishes
      (w.stored = false ∧
        ((env.hresult w.tick).failed = true ∧
            env.hresult w.tick ≠ .fromWin32 errorAlreadyAssigned ∨
          ∃ req, context.rawRequest = some req ∧
            inspectRequestLoses env context req w (w.tick + 1)))
      w
      ((do
        let shr ← setModuleContext env rsc
        if shr.failed then do
          let _ ← finishContext env rsc
          if shr = .fromWin32 errorAlreadyAssigned then pure (.leave .sOk)
          else pure (.leave .eUnexpected)
        else
          match context.rawRequest with
          | none => pure (.leave .sOk)
          | some req => inspectRequest env context req tx : Program World BlockExit) w) := by
  have already : (HResult.fromWin32 errorAlreadyAssigned).failed = true := rfl
  have ok : ¬ HResult.sOk.failed = true := by decide
  cases held : w.stored with
  | true =>
      have assigned : setModuleContext env rsc w =
          .returned (.fromWin32 errorAlreadyAssigned) w := by
        rw [setModuleContext, bind_returned (get_apply w), if_pos held]
        rfl
      rw [bind_returned assigned, if_pos already]
      exact refuseContext_judged rsc (by simp)
  | false =>
      by_cases refused : (env.hresult w.tick).failed = true ∧
          env.hresult w.tick ≠ .fromWin32 errorAlreadyAssigned
      · have answers : setModuleContext env rsc w = .returned (env.hresult w.tick) w.advance := by
          rw [setModuleContext, bind_returned (get_apply w), if_neg (by simp [held]),
            bind_returned (consult_apply _ _), if_pos refused]
          rfl
        rw [bind_returned answers, if_pos refused.1]
        refine Verdict.after (refuseContext_judged rsc ?_) (calm_of_log rfl)
        simp [refused]
      · have stores : setModuleContext env rsc w =
            .returned .sOk { w.advance with rsc, stored := true } := by
          rw [setModuleContext, bind_returned (get_apply w), if_neg (by simp [held]),
            bind_returned (consult_apply _ _), if_neg refused]
          rfl
        rw [bind_returned stores, if_neg ok]
        have still : Calm w { w.advance with rsc, stored := true } := calm_of_log rfl
        cases raw : context.rawRequest with
        | none => exact Verdict.after (.pass (by decide) (by simp [refused])) still
        | some req =>
            have inspects := @inspectRequest_judged env context
              { w.advance with rsc, stored := true } tx present live idle fresh req
            refine (inspects.after still).congr ?_
            simp only [refused, false_or, true_and, Option.some.injEq, exists_eq_left']
            rfl

theorem openTransaction_judged (present : context.responsePresent = true)
    (config : ModsecurityStoredContext) (rules : RulesSet) :
    Judged BlockExit.Finishes (openTransactionLoses env context w w.tick) w
      (openTransaction env context config rules w) := by
  unfold openTransactionLoses
  rw [openTransaction, bind_apply, newTransaction_apply]
  by_cases engine : env.throws w.tick = true
  · rw [if_pos engine]
    exact .threw (.inl engine) (missing_of_silent (List.append_nil _).symm (by simp))
  rw [if_neg engine]
  by_cases allocated : env.succeeds (w.tick + 1) = true
  · rw [if_pos allocated]
    by_cases threw : env.throws (w.tick + 2) = true
    · rw [if_pos threw]
      exact .threw (.inr (.inr (.inl threw)))
        (missing_of_silent (List.append_nil _).symm (by simp))
    rw [if_neg threw]
    dsimp only
    rw [bind_returned (consult_apply _ _)]
    have opened : Calm w w.opened := ⟨_, rfl, by simp [Event.Calm, Event.Disruptive]⟩
    cases room : env.succeeds (w.tick + 3) with
    | true =>
        simp only [World.advance, room, if_true]
        have stores := @storeThenInspect_judged env context w.opened
          { RequestStoredContext.new with
            tx := some w.nextTransaction
            rules := some rules
            responseBodyBlock := config.responseBodyBlock } w.nextTransaction present rfl rfl rfl
        refine (stores.after opened).congr ?_
        simp only [engine, allocated, threw, Bool.true_eq_false, Bool.false_eq_true, false_or]
        rfl
    | false =>
        simp only [World.advance, room, Bool.false_eq_true, if_false]
        rw [bind_returned (record_apply _ _)]
        refine .dropped (by decide) (.inr (.inr (.inr (.inl trivial)))) ?_
        refine @missing_of_silent w _
          [.constructTransaction w.nextTransaction, .destroyTransaction w.nextTransaction] ?_
          (by simp)
        simp
  · rw [if_neg allocated]
    exact .dropped (by decide) (.inr (.inl (Bool.eq_false_iff.mpr allocated)))
      (missing_of_silent (List.append_nil _).symm (by simp))

/-! ## The rules -/

theorem failUnprotected_judged (present : context.responsePresent = true) :
    Judged BlockExit.Finishes False w (failUnprotected env context w) := by
  unfold failUnprotected
  split
  · rw [present, when_true]
    exact fail_judged rfl
  · exact .pass (by decide) id

theorem configFailed_judged (present : context.responsePresent = true) :
    Judged BlockExit.Finishes False w (configFailed env context w) := by
  have fails (s : World) : Judged BlockExit.Finishes False s (failUnprotected env context s) :=
    failUnprotected_judged present
  rw [configFailed, bind_returned (get_apply w), bind_returned (modify_apply _ w)]
  cases w.configFailLogged with
  | true =>
      rw [Bool.not_true, when_false, bind_returned (pure_apply _ _)]
      exact (fails _).after (calm_of_log rfl)
  | false =>
      rw [Bool.not_false, when_true]
      exact (fails _).after (calm_of_log rfl)

theorem rulesFailed_judged (present : context.responsePresent = true) (configFile err : Bytes) :
    Judged BlockExit.Finishes (w.rulesFailLogged = false ∧ env.throws w.tick = true) w
      (rulesFailed env context configFile err w) := by
  have fails (s : World) : Judged BlockExit.Finishes False s (failUnprotected env context s) :=
    failUnprotected_judged present
  rw [rulesFailed, bind_returned (get_apply w), bind_returned (modify_apply _ w)]
  cases logged : w.rulesFailLogged with
  | true =>
      rw [Bool.not_true, when_false, bind_returned (pure_apply _ _)]
      exact Verdict.congr (Verdict.after (fails _) (calm_of_log rfl)) (by simp)
  | false =>
      rw [Bool.not_false, when_true, bind_apply, bind_apply, mayThrow_apply]
      dsimp only
      by_cases threw : env.throws w.tick = true
      · rw [if_pos threw]
        exact .threw ⟨rfl, threw⟩ (missing_of_silent (List.append_nil _).symm (by simp))
      · rw [if_neg threw]
        exact Verdict.congr (Verdict.after (fails _) (calm_of_log rfl)) (by simp [threw])

theorem mayThrow_judged {α : Type} {judged : α → Prop} {missing : Prop}
    {next : Unit → Program World α} (rest : Judged judged missing w.advance (next () w.advance)) :
    Judged judged (env.throws w.tick = true ∨ missing) w ((mayThrow env >>= next) w) := by
  rw [bind_apply, mayThrow_apply]
  by_cases threw : env.throws w.tick = true
  · rw [if_pos threw]
    exact .threw (.inl threw) (missing_of_silent (List.append_nil _).symm (by simp))
  · rw [if_neg threw]
    exact Verdict.congr (Verdict.after rest (calm_of_log rfl)) (or_iff_right threw)

/-- What `OnBeginRequest` does with the rules. -/
def useRules (env : Env) (context : HttpContext) (config : ModsecurityStoredContext)
    (configFile : Bytes) (loaded : RulesResult) : Program World BlockExit :=
  match loaded.rules with
  | none => rulesFailed env context configFile loaded.err
  | some rules => openTransaction env context config rules

theorem loadRules_judged (present : context.responsePresent = true)
    (config : ModsecurityStoredContext) (configFile : Bytes) (curMtime : Option FileTime) :
    Judged BlockExit.Finishes
      (env.throws w.tick = true ∨ env.throws (w.tick + 2) = true ∨ env.throws (w.tick + 3) = true ∨
        if rulesAvailable env (w.rulesCache configFile) w.tick then
          openTransactionLoses env context w (w.tick + 4)
        else w.rulesFailLogged = false ∧ env.throws (w.tick + 4) = true) w
      ((loadRules env configFile curMtime >>= useRules env context config configFile) w) := by
  simp only [loadRules, bind_assoc]
  refine mayThrow_judged ?_
  rw [bind_returned (consult_apply _ _)]
  have loading : Calm w.advance w.advance.advance := calm_of_log rfl
  refine Verdict.after (@mayThrow_judged env w.advance.advance _ _ _ _ ?_) loading
  refine @mayThrow_judged env w.advance.advance.advance _ _ _ _ ?_
  rw [bind_returned (get_apply _)]
  have opens (t : World) (rules : RulesSet) :
      Judged BlockExit.Finishes (openTransactionLoses env context t t.tick) t
        (openTransaction env context config rules t) :=
    openTransaction_judged present config rules
  have clock : w.advance.tick = w.tick + 1 := rfl
  rw [clock]
  cases load : env.loadFromUri (w.tick + 1) with
  | ok rules =>
      have available : rulesAvailable env (w.rulesCache configFile) w.tick = true := by
        simp [rulesAvailable, load, Except.isOk, Except.toBool]
      rw [if_pos available]
      have opened := opens
        { w with
          tick := w.tick + 4
          rulesCache := Function.update w.rulesCache configFile
            (some (publishRules (w.rulesCache configFile) rules curMtime)) }
        (publishRules (w.rulesCache configFile) rules curMtime).rules
      exact opened.after (calm_of_log rfl)
  | error err =>
      have cached : w.advance.advance.advance.advance.rulesCache = w.rulesCache := rfl
      have available : rulesAvailable env (w.rulesCache configFile) w.tick =
          (w.rulesCache configFile).isSome := by
        simp [rulesAvailable, load, Except.isOk, Except.toBool]
      rw [available, cached]
      cases w.rulesCache configFile with
      | none =>
          have fails := @rulesFailed_judged env context { w with tick := w.tick + 4 } present
            configFile err
          exact fails
      | some previous =>
          have opened := opens
            { w with
              tick := w.tick + 4
              eventLog := w.eventLog ++
                [(bytesOf "ModSecurityIIS: rules reload failed, keeping previous config: " ++ err,
                  .eventlogErrorType)] } previous.rules
          exact opened.after (calm_of_log rfl)

theorem getRules_judged (present : context.responsePresent = true)
    (config : ModsecurityStoredContext) (configFile : Bytes) :
    Judged BlockExit.Finishes (getRulesLoses env context configFile w w.tick) w
      ((getRules env configFile >>= useRules env context config configFile) w) := by
  unfold getRulesLoses
  rw [getRules, bind_assoc, bind_returned (consult_apply _ _), bind_assoc,
    bind_returned (get_apply _)]
  have cached : w.advance.rulesCache = w.rulesCache := rfl
  rw [cached]
  cases fastPath (w.rulesCache configFile) (env.rulesFileTime w.tick) with
  | some rules =>
      have opens := @openTransaction_judged env context w.advance present config rules
      exact opens.after (calm_of_log rfl)
  | none =>
      have loads := @loadRules_judged env context w.advance present config configFile
        (env.rulesFileTime w.tick)
      exact loads.after (calm_of_log rfl)

theorem protectRequest_judged (present : context.responsePresent = true)
    (config : ModsecurityStoredContext) :
    Judged BlockExit.Finishes (protectRequestLoses env context config w w.tick) w
      (protectRequest env context config w) := by
  unfold protectRequest protectRequestLoses
  split
  · next enabled =>
      cases (config.path.getD []).takeWhile (· ≠ 0) with
      | nil => exact .pass (by decide) fun lost => lost.2.1 rfl
      | cons first rest =>
          have uses := @getRules_judged env context w.advance present config
            (wToUtf8 env (some (first :: rest)) ((first :: rest).length * 2))
          refine Verdict.congr (mayThrow_judged uses) ?_
          simp only [enabled, ne_eq, reduceCtorEq, not_false_eq_true, true_and]
          rfl
  · next disabled => exact .pass (by decide) fun lost => disabled lost.1

/-- The configuration that is found depends on nothing the lookup changes. -/
theorem protectRequestLoses_looks {after : World} {config : ModsecurityStoredContext} {tick : Nat}
    (looks : Looks w after) :
    protectRequestLoses env context config after tick ↔
      protectRequestLoses env context config w tick := by
  obtain ⟨_, _, _, rfl⟩ := looks
  rfl

/-! ## The handler -/

theorem beginRequestBlock_judged (present : context.responsePresent = true) (w : World) :
    Judged BlockExit.Finishes (onBeginRequestLoses env context w) w
      (beginRequestBlock env (some context) w) := by
  unfold beginRequestBlock onBeginRequestLoses
  dsimp only
  split
  · next requested =>
      obtain ⟨result, after, ran, ends⟩ := getConfig_ends env context w
      have still : Calm w after := by
        obtain ⟨_, _, _, rfl⟩ := ends.looks
        exact calm_of_log rfl
      rw [bind_returned ran]
      cases failed : result.hr.failed with
      | true =>
          rw [if_pos rfl]
          refine Verdict.congr (Verdict.after (configFailed_judged present) still) ?_
          refine iff_false_intro ?_
          intro lost
          obtain absent | ⟨config, tick, found, _⟩ := lost
          · simp [requested] at absent
          · have finds := (ends.finds config tick found).1
            simp [failed] at finds
      | false =>
          rw [if_neg Bool.false_ne_true]
          cases handed : result.config with
          | none => exact .halted
          | some config =>
              have protects := @protectRequest_judged env context after present config
              refine Verdict.congr (Verdict.after protects still) ?_
              rw [protectRequestLoses_looks ends.looks]
              constructor
              · intro gone
                obtain absent | ⟨other, tick, found, lost⟩ := gone
                · simp [requested] at absent
                · obtain ⟨_, same, clock⟩ := ends.finds other tick found
                  rw [handed] at same
                  cases same
                  rw [clock]
                  exact lost
              · exact fun lost => .inr ⟨config, _, ends.found config failed handed, lost⟩
  · next absent => exact .drop (by decide) (.inl (Bool.eq_false_iff.mpr absent))

theorem onBeginRequest_judged (present : context.responsePresent = true) (w : World) :
    Judged NotificationStatus.Finishes (onBeginRequestLoses env context w) w
      (onBeginRequest env (some context) w) := by
  have caught := (@beginRequestBlock_judged env context present w).tryCatch
    (@reported_refuses env _ BlockExit.Finishes (.finish .rqNotificationFinishRequest) rfl
      "OnBeginRequest")
  exact caught.followed (fun exit done => ⟨_, rfl, done⟩) fun exit after passes => .pass passes id

/-- A request the handlers of the request phase finish has the status of a disruptive
intervention or 500, unless the refusal is one of those that lose it. -/
theorem refusal_answered_iff (present : context.responsePresent = true) :
    (∀ w after : World,
      onBeginRequest env (some context) w = .returned .rqNotificationFinishRequest after →
        (Answered w after ↔ ¬ onBeginRequestLoses env context w)) ∧
    (∀ (completion : Option (Nat × HResult)) (w after : World),
      onAsyncCompletion env (some context) completion w =
          .returned .rqNotificationFinishRequest after →
        (Answered w after ↔ ¬ onAsyncCompletionLoses env context completion w)) := by
  constructor
  · intro w after ran
    have verdict := @onBeginRequest_judged env context present w
    rw [ran] at verdict
    exact verdict.answered_iff rfl
  · intro completion w after ran
    have verdict := @onAsyncCompletion_judged env context present completion w
    rw [ran] at verdict
    exact verdict.answered_iff rfl

end Verdicts

/-- Surroundings in which the body cannot be restored: its memory is not allocated, or its
insertion fails. -/
def Env.unrestored (allocates : Bool) : Env :=
  { Env.calm with
    bodyAsync := some (bytesOf "0")
    succeeds := fun tick => allocates || tick ≠ 41
    hresult := fun tick => if tick = 42 then .eUnexpected else .sOk }

/-- The intervention an event reports. -/
def Event.reported? : Event → Option Intervention
  | .engine _ (.intervention reported) _ => reported
  | _ => none

/-- A request denied with status 65736 is answered with 200. -/
theorem denied_cut : ∃ after,
    onBeginRequest (.denying 65736) (some .plain) twoReads =
        .returned .rqNotificationFinishRequest after ∧
      ¬ Answered twoReads after ∧ after.response.statusCode = 200 := by
  have value : (onBeginRequest (.denying 65736) (some .plain) twoReads).value =
      some .rqNotificationFinishRequest := by decide +kernel
  have denials : (onBeginRequest (.denying 65736) (some .plain) twoReads).state.log.filterMap
      Event.reported? = [{ status := 65736, disruptive := 1, url := none }] := by decide +kernel
  have status : (onBeginRequest (.denying 65736) (some .plain) twoReads).state.response.statusCode
      = 200 := by decide +kernel
  obtain ⟨after, ran⟩ := Outcome.exists_returned value
  rw [ran, Outcome.state_returned] at denials status
  refine ⟨after, ran, ?_, status⟩
  intro answered
  obtain ⟨events, statusCode, shape, ⟨has, _⟩, failed | ⟨tx, it, reported, _, told⟩⟩ := answered
  · rw [has, failed] at status
    cases status
  · have member : it ∈ after.log.filterMap Event.reported? := by
      rw [shape]
      exact List.mem_filterMap.mpr ⟨_, List.mem_append_right _ reported, rfl⟩
    rw [denials] at member
    cases List.mem_singleton.mp member
    rw [← has, status] at told
    cases told

theorem refusal_answered_iff_allocation :
    (∃ after,
      onBeginRequest (.unrestored false) (some .plain) twoReads =
          .returned .rqNotificationFinishRequest after ∧
        Answered twoReads after ∧ ¬ onBeginRequestLoses (.unrestored false) .plain twoReads) ∧
      onBeginRequestLoses (.denying 65736) .plain twoReads := by
  constructor
  · have value : (onBeginRequest (.unrestored false) (some .plain) twoReads).value =
        some .rqNotificationFinishRequest := by decide +kernel
    have fails : Event.response (.setStatus 500 "Internal Server Error") ∈
        (onBeginRequest (.unrestored false) (some .plain) twoReads).state.log := by decide +kernel
    have status :
        (onBeginRequest (.unrestored false) (some .plain) twoReads).state.response.statusCode
          = 500 := by decide +kernel
    obtain ⟨after, ran⟩ := Outcome.exists_returned value
    rw [ran] at fails status
    have answered : Answered twoReads after := ⟨_, 500, rfl, ⟨status, _, fails, rfl⟩, .inl rfl⟩
    exact ⟨after, ran, answered, ((refusal_answered_iff rfl).1 twoReads after ran).mp answered⟩
  · obtain ⟨after, ran, unanswered, _⟩ := denied_cut
    have iff := (refusal_answered_iff rfl).1 twoReads after ran
    exact not_not.mp fun kept => unanswered (iff.mpr kept)

/-- When `InsertEntityBody` fails, and when the status of a denial is cut, the request is
finished with status 200. -/
theorem refusal_unanswered :
    (∃ after,
      onBeginRequest (.unrestored true) (some .plain) twoReads =
          .returned .rqNotificationFinishRequest after ∧
        ¬ Answered twoReads after ∧ after.response.statusCode = 200) ∧
    ∃ after,
      onBeginRequest (.denying 65736) (some .plain) twoReads =
          .returned .rqNotificationFinishRequest after ∧
        ¬ Answered twoReads after ∧ after.response.statusCode = 200 := by
  refine ⟨?_, denied_cut⟩
  have value : (onBeginRequest (.unrestored true) (some .plain) twoReads).value =
      some .rqNotificationFinishRequest := by decide +kernel
  have silent : (onBeginRequest (.unrestored true) (some .plain) twoReads).state.log.filterMap
      Event.op? = [] := by decide +kernel
  have status : (onBeginRequest (.unrestored true) (some .plain) twoReads).state.response.statusCode
      = 200 := by decide +kernel
  obtain ⟨after, ran⟩ := Outcome.exists_returned value
  rw [ran] at silent status
  refine ⟨after, ran, (@missing_of_silent twoReads after after.log rfl ?_).2, status⟩
  intro op member
  exact Option.some_ne_none op (List.filterMap_eq_nil_iff.mp silent _ member)

end ModSecurityIIS
