import ModSecurityIIS.SharedState

/-!
# What a callback does to the shared parts

It numbers the transactions it makes, leaves cached rules as they are, and logs a message
that is logged once only while its mark is not set.
-/

set_option autoImplicit false

namespace ModSecurityIIS

open Imperative Program

def Globals.warned (globals : Globals) : Warning → Bool
  | .capReached => globals.capLogged
  | .configFailed => globals.configFailLogged
  | .rulesFailed => globals.rulesFailLogged

/-- The transactions made, in order. -/
def made (events : List Event) : List TransactionId :=
  events.filterMap fun event =>
    match event with
    | .constructTransaction tx => some tx
    | _ => none

theorem mem_made {tx : TransactionId} {events : List Event} :
    tx ∈ made events ↔ .constructTransaction tx ∈ events := by
  unfold made
  rw [List.mem_filterMap]
  constructor
  · intro found
    obtain ⟨event, member, is⟩ := found
    cases event with
    | constructTransaction other =>
        cases is
        exact member
    | _ => cases is
  · exact fun member => ⟨_, member, rfl⟩

theorem made_eq_nil {events : List Event}
    (other : ∀ event ∈ events, ∀ tx, event ≠ .constructTransaction tx) : made events = [] := by
  apply List.eq_nil_iff_forall_not_mem.mpr
  intro tx member
  exact other _ (mem_made.mp member) tx rfl

/-- A message that is logged once may be in the new entries only if it was due; whether it
is can be read off its mark, except that the text of a rules failure may fail to be built. -/
structure Warns (before after : Bool) (warning : Warning)
    (entries : List (Bytes × EventCategory)) : Prop where
  once : entries.countP warning.heads + before.toNat ≤ after.toNat
  marked : warning ≠ .rulesFailed → entries.countP warning.heads + before.toNat = after.toNat

theorem Warns.silent {warning : Warning} {entries : List (Bytes × EventCategory)} (mark : Bool)
    (none : entries.countP warning.heads = 0) : Warns mark mark warning entries :=
  ⟨by omega, fun _ => by omega⟩

theorem Warns.trans {before middle after : Bool} {warning : Warning}
    {entries later : List (Bytes × EventCategory)} (first : Warns before middle warning entries)
    (second : Warns middle after warning later) :
    Warns before after warning (entries ++ later) := by
  constructor
  · have early := first.once
    have late := second.once
    rw [List.countP_append]
    omega
  · intro fixed
    have early := first.marked fixed
    have late := second.marked fixed
    rw [List.countP_append]
    omega

/-- New transactions get the next numbers, rules stay as they are, and messages that are
logged once are not logged again. -/
structure Shares (before after : Globals) (events : List Event) : Prop where
  numbered : ∃ count, made events = List.range' before.nextTransaction count ∧
    after.nextTransaction = before.nextTransaction + count
  rules : ∀ path cached, before.rulesCache path = some cached → after.rulesCache path = some cached
  warned : ∃ entries, after.eventLog = before.eventLog ++ entries ∧
    ∀ warning, Warns (before.warned warning) (after.warned warning) warning entries

theorem Shares.refl (globals : Globals) {events : List Event}
    (other : ∀ event ∈ events, ∀ tx, event ≠ .constructTransaction tx) :
    Shares globals globals events where
  numbered := ⟨0, by rw [made_eq_nil other]; rfl, rfl⟩
  rules _ _ cached := cached
  warned := ⟨[], (List.append_nil _).symm, fun _ => .silent _ rfl⟩

theorem Shares.trans {before middle after : Globals} {events later : List Event}
    (first : Shares before middle events) (second : Shares middle after later) :
    Shares before after (events ++ later) := by
  obtain ⟨count, numbers, next⟩ := first.numbered
  obtain ⟨more, moreNumbers, last⟩ := second.numbered
  obtain ⟨entries, shape, warns⟩ := first.warned
  obtain ⟨others, othersShape, othersWarn⟩ := second.warned
  refine ⟨⟨count + more, ?_, ?_⟩, ?_, entries ++ others, ?_, ?_⟩
  · rw [made, List.filterMap_append, ← made, ← made, numbers, moreNumbers, next,
      List.range'_append_1]
  · rw [last, next, Nat.add_assoc]
  · exact fun path cached there => second.rules path cached (first.rules path cached there)
  · rw [othersShape, shape, List.append_assoc]
  · exact fun warning => (warns warning).trans (othersWarn warning)

/-- What a callback leaves: its log has grown, and the shared parts have changed as above. -/
def KeepsShared (w after : World) : Prop :=
  ∃ events, after.log = w.log ++ events ∧ Shares w.globals after.globals events

instance : IsPreorder World KeepsShared where
  refl w := ⟨[], (List.append_nil _).symm, .refl _ (by simp)⟩
  trans _ _ _ first second := by
    obtain ⟨events, shape, shares⟩ := first
    obtain ⟨later, laterShape, laterShares⟩ := second
    exact ⟨events ++ later, by rw [laterShape, shape, List.append_assoc], shares.trans laterShares⟩

theorem OwnStep.keepsShared {w after : World} (own : OwnStep w after) : KeepsShared w after := by
  obtain ⟨events, shape, other⟩ := own.logged
  refine ⟨events, shape, ?_⟩
  rw [own.globals]
  exact .refl _ other

theorem keepsShared_of_globals {w after : World} (log : after.log = w.log)
    (numbered : after.nextTransaction = w.nextTransaction)
    (rules : ∀ path cached, w.rulesCache path = some cached → after.rulesCache path = some cached)
    (warned : ∃ entries, after.eventLog = w.eventLog ++ entries ∧ ∀ warning,
      Warns (w.globals.warned warning) (after.globals.warned warning) warning entries) :
    KeepsShared w after :=
  ⟨[], by rw [log, List.append_nil], ⟨0, rfl, numbered⟩, rules, warned⟩

theorem writes_keepsShared {message : Bytes} {category : EventCategory}
    (unwarned : Unwarned message) :
    Within KeepsShared (writeEventViewerLog message category) := by
  intro w
  refine keepsShared_of_globals rfl rfl (fun _ _ cached => cached) ⟨[(message, category)], rfl, ?_⟩
  intro warning
  apply Warns.silent
  rw [List.countP_singleton, Warning.heads, unwarned warning]
  rfl

theorem newTransaction_keepsShared (env : Env) : Within KeepsShared (newTransaction env) := by
  intro w
  obtain ⟨tick, made | none | threw⟩ := newTransaction_cases env w
  · rw [made]
    refine ⟨[.constructTransaction w.nextTransaction], rfl, ⟨1, rfl, rfl⟩, ?_, ?_⟩
    · exact fun _ _ cached => cached
    · exact ⟨[], (List.append_nil _).symm, fun _ => .silent _ rfl⟩
  · rw [none]
    exact OwnStep.keepsShared (.silent rfl rfl rfl)
  · rw [threw]
    exact OwnStep.keepsShared (.silent rfl rfl rfl)

theorem storeConfig_keepsShared (env : Env) (config : ModsecurityStoredContext) :
    Within KeepsShared (storeConfig env config) := by
  have leaf {α : Type} {program : Program World α} (within : Within OwnStep program) :
      Within KeepsShared program := within.mono fun _ _ => OwnStep.keepsShared
  have stores (other : Option ModsecurityStoredContext) :
      Within KeepsShared (modify fun w : World => { w with storedConfiguration := other }) :=
    fun _ => keepsShared_of_globals rfl rfl (fun _ _ cached => cached)
      ⟨[], (List.append_nil _).symm, fun _ => .silent _ rfl⟩
  refine Within.bind (leaf (consult_own _)) fun hr => ?_
  split
  · refine Within.bind (leaf (recordCom_own _)) fun _ => ?_
    split
    · refine Within.bind (leaf (consult_own _)) fun other => ?_
      exact Within.bind (stores other) fun _ => Within.pure _
    · exact Within.pure _
  · exact Within.bind (stores _) fun _ => Within.pure _

/-- A cached entry stays as it is, whatever is loaded later. -/
theorem published_rules {cache : Bytes → Option (CachedRules RulesSet)} {configFile path : Bytes}
    {rules : RulesSet} {curMtime : Option FileTime} {cached : CachedRules RulesSet}
    (there : cache path = some cached) :
    Function.update cache configFile (some (publishRules (cache configFile) rules curMtime)) path =
      some cached := by
  by_cases same : path = configFile
  · cases same
    rw [Function.update_self, there]
    rfl
  · rw [Function.update_of_ne same]
    exact there

theorem fastPath_cached {cached : CachedRules RulesSet} {curMtime : Option FileTime}
    {rules : RulesSet} (fast : fastPath (some cached) curMtime = some rules) :
    rules = cached.rules := by
  unfold fastPath at fast
  dsimp only at fast
  split at fast
  · exact (Option.some.inj fast).symm
  · split at fast
    · exact (Option.some.inj fast).symm
    · cases fast

/-- A lookup that returns hands out the cached rules, whatever the file has become. -/
theorem getRules_cached (env : Env) (configFile : Bytes) (cached : CachedRules RulesSet) :
    Ensures (fun w => w.rulesCache configFile = some cached) (getRules env configFile)
      (fun result _ => result.rules = some cached.rules) (fun _ => True) := by
  let holds (w : World) : Prop := w.rulesCache configFile = some cached
  have waits : Ensures holds (mayThrow env) (fun _ => holds) (fun _ => True) := by
    intro w there
    rw [mayThrow_apply]
    cases env.throws w.tick with
    | true => trivial
    | false => exact there
  refine .bind (fun _ => holds) (fun w there => there) fun curMtime => ?_
  intro w there
  rw [bind_returned (get_apply w), there]
  cases fast : fastPath (some cached) curMtime with
  | some rules => exact congrArg some (fastPath_cached fast)
  | none =>
      have loads : Ensures holds (loadRules env configFile curMtime)
          (fun result _ => result.rules = some cached.rules) (fun _ => True) := by
        refine .bind _ waits fun _ => .bind (fun _ => holds) (fun w there => there) fun loaded => ?_
        refine .bind _ waits fun _ => .bind _ waits fun _ => ?_
        intro w there
        rw [bind_returned (get_apply w), there]
        cases loaded <;> rfl
      exact loads w there

theorem loadRules_keepsShared (env : Env) (configFile : Bytes) (curMtime : Option FileTime) :
    Within KeepsShared (loadRules env configFile curMtime) := by
  have waits : Within KeepsShared (mayThrow env) :=
    mayThrow_own.mono fun _ _ => OwnStep.keepsShared
  refine Within.bind waits fun _ => ?_
  refine Within.bind ((consult_own _).mono fun _ _ => OwnStep.keepsShared) fun loaded => ?_
  refine Within.bind waits fun _ => Within.bind waits fun _ => ?_
  intro w
  rw [bind_returned (get_apply w)]
  cases loaded with
  | error err =>
      refine Within.bind (.when fun _ => writes_keepsShared ?_) (fun _ => Within.pure _) w
      exact unwarned_of_start (bytesOf "ModSecurityIIS: rule") (by decide)
        (List.IsPrefix.trans (by decide +kernel) (List.prefix_append _ _)) (by decide)
  | ok rules =>
      exact keepsShared_of_globals rfl rfl (fun _ _ there => published_rules there)
        ⟨[], (List.append_nil _).symm, fun _ => .silent _ rfl⟩

/-- A mark that was not set is set, and its message written. -/
theorem warned_keepsShared {w after : World} {warning : Warning} {message : Bytes}
    {category : EventCategory} (log : after.log = w.log)
    (numbered : after.nextTransaction = w.nextTransaction)
    (rules : after.rulesCache = w.rulesCache)
    (entries : after.eventLog = w.eventLog ++ [(message, category)])
    (text : warning.text <+: message) (unmarked : w.globals.warned warning = false)
    (marked : after.globals.warned warning = true)
    (others : ∀ other, other ≠ warning → after.globals.warned other = w.globals.warned other) :
    KeepsShared w after := by
  refine keepsShared_of_globals log numbered (fun _ _ there => rules ▸ there) ⟨_, entries, ?_⟩
  intro other
  by_cases same : other = warning
  · cases same
    have heads : warning.heads (message, category) = true := List.isPrefixOf_iff_prefix.mpr text
    rw [unmarked, marked]
    exact ⟨by simp [heads], by simp [heads]⟩
  · rw [others other same]
    apply Warns.silent
    rw [List.countP_singleton, if_neg]
    intro heads
    exact same (Warning.eq_of_heads (List.isPrefixOf_iff_prefix.mp heads) text)

theorem logCapReached_keepsShared : Within KeepsShared logCapReached := by
  intro w
  rw [logCapReached, bind_returned (get_apply w)]
  cases marked : w.capLogged with
  | true => exact refl_of KeepsShared w
  | false =>
      refine @warned_keepsShared w _ .capReached _ _ rfl rfl rfl rfl ?_ marked rfl ?_
      · simp only [bytesOf_append, List.append_assoc]
        exact List.prefix_append _ _
      · intro other different
        cases other <;> first | rfl | exact absurd rfl different

theorem configFailed_keepsShared (env : Env) (context : HttpContext) :
    Within KeepsShared (configFailed env context) := by
  have answers : Within KeepsShared (failUnprotected env context) :=
    failUnprotected_own.mono fun _ _ => OwnStep.keepsShared
  intro w
  rw [configFailed, bind_returned (get_apply w), bind_returned (modify_apply _ w)]
  cases marked : w.configFailLogged with
  | true =>
      refine trans_of KeepsShared ?_ (answers { w with configFailLogged := true })
      apply OwnStep.keepsShared
      refine .silent ?_ rfl rfl
      simp only [World.globals, marked]
  | false =>
      refine trans_of KeepsShared ?_ (answers _)
      refine @warned_keepsShared w _ .configFailed _ _ rfl rfl rfl rfl ?_ marked rfl ?_
      · simp only [bytesOf_append]
        exact List.prefix_append _ _
      · intro other different
        cases other <;> first | rfl | exact absurd rfl different

theorem rulesFailed_keepsShared (env : Env) (context : HttpContext) (configFile err : Bytes) :
    Within KeepsShared (rulesFailed env context configFile err) := by
  have answers : Within KeepsShared (failUnprotected env context) :=
    failUnprotected_own.mono fun _ _ => OwnStep.keepsShared
  intro w
  rw [rulesFailed, bind_returned (get_apply w), bind_returned (modify_apply _ w)]
  cases marked : w.rulesFailLogged with
  | true =>
      refine trans_of KeepsShared ?_ (answers { w with rulesFailLogged := true })
      apply OwnStep.keepsShared
      refine .silent ?_ rfl rfl
      simp only [World.globals, marked]
  | false =>
      have sets : ∀ tick, KeepsShared w { w with rulesFailLogged := true, tick } := by
        intro tick
        refine keepsShared_of_globals rfl rfl (fun _ _ there => there)
          ⟨[], (List.append_nil _).symm, ?_⟩
        intro warning
        cases warning with
        | capReached => exact .silent _ rfl
        | configFailed => exact .silent _ rfl
        | rulesFailed => exact ⟨by simp [Globals.warned, World.globals, marked], fun other => absurd rfl other⟩
      rw [Bool.not_false, when_true, bind_apply, bind_apply, mayThrow_apply]
      cases env.throws w.tick with
      | true => exact sets _
      | false =>
          refine trans_of KeepsShared ?_ (answers _)
          refine @warned_keepsShared w _ .rulesFailed _ _ rfl rfl rfl rfl ?_ marked rfl ?_
          · rw [List.append_assoc, List.append_assoc]
            exact List.prefix_append _ _
          · intro other different
            cases other <;> first | rfl | exact absurd rfl different

theorem sharedSteps_keepsShared (env : Env) : SharedSteps env KeepsShared where
  own _ _ := OwnStep.keepsShared
  writes _ _ := writes_keepsShared
  makes := newTransaction_keepsShared env
  configures := getConfig_within (fun _ _ => OwnStep.keepsShared) (storeConfig_keepsShared env)
  loads := loadRules_keepsShared env
  warnsCap := logCapReached_keepsShared
  warnsConfig := configFailed_keepsShared env
  warnsRules := rulesFailed_keepsShared env

theorem Occurrence.run_keepsShared (occurrence : Occurrence) :
    Within KeepsShared occurrence.run :=
  occurrence.run_shares (sharedSteps_keepsShared occurrence.env)

end ModSecurityIIS
