import Mathlib.Data.List.Nodup
import ModSecurityIIS.RulesCache

/-!
# Freshness of the rules

Which calls get rules of the version they are owed, and what the cache entry then
holds: an entry is never replaced, so a call serves its caller only while no edit has
made the entry older than the call.
-/

set_option autoImplicit false

namespace ModSecurityIIS

open Transition

/-- The call, which has read a time, is owed the rules of version `number` or later: the
version parses and was there when the call started. -/
def RulesState.Owes (s : RulesState) (call : RulesCall) (curMtime : Option FileTime)
    (number : Nat) : Prop :=
  curMtime ≠ none ∧ number ≤ call.since ∧
    ∃ version, s.versions[number]? = some version ∧ version.Parses

/-- The call has returned rules that are new enough, and the entry holds them with the
time of their version: a further call on that version takes the fast path. -/
structure RulesState.Serves (s : RulesState) (result : Option LoadedRules) (number : Nat)
    (rules : LoadedRules) (version : FileVersion) : Prop where
  result : result = some rules
  fresh : number ≤ rules.version
  parsed : s.versions[rules.version]? = some version
  entry : s.cache = some { rules, mtime := version.mtime }
  fast : fastPath s.cache (some version.mtime) = some rules

/-- Every call that has returned gave what it owed. -/
def RulesState.Fresh (s : RulesState) : Prop :=
  ∀ call ∈ s.calls, ∀ curMtime result, call.point = .returned curMtime result →
    ∀ number, s.Owes call curMtime number → ∃ rules version, s.Serves result number rules version

/-- What the last lookup of a call must find. A call that stores an entry has parsed the
version whose time it read; a call that finds one, after a load or a failed load, finds
none older than the versions it owes. -/
def RulesState.MeetsAt (s : RulesState) (call : RulesCall) : CallPoint → Prop
  | .publish curMtime loaded =>
      match s.cache with
      | none =>
          ∃ version, s.versions[loaded.version]? = some version ∧ curMtime = some version.mtime
      | some cached => ∀ number, s.Owes call curMtime number → number ≤ cached.rules.version
  | .keep curMtime _ =>
      ∀ number, s.Owes call curMtime number →
        ∃ cached, s.cache = some cached ∧ number ≤ cached.rules.version
  | _ => True

def rulesCondition (s : RulesState) : RulesLabel → Prop
  | .run index true => ∀ call, s.calls[index]? = some call → s.MeetsAt call call.point
  | _ => True

/-! ## The entry -/

theorem fastPath_same (rules : LoadedRules) (mtime : FileTime) :
    fastPath (some { rules, mtime }) (some mtime) = some rules := by
  simp [fastPath]

theorem fastPath_hit {cache : Option (CachedRules LoadedRules)} {time : FileTime}
    {rules : LoadedRules} (hit : fastPath cache (some time) = some rules) :
    cache = some { rules, mtime := time } := by
  cases cache with
  | none => cases hit
  | some cached =>
      simp only [fastPath] at hit
      split at hit
      · next same =>
          obtain ⟨found, low, high⟩ := cached
          obtain ⟨lowRead, highRead⟩ := time
          obtain ⟨rfl, rfl⟩ := same
          cases hit
          rfl
      · cases hit

/-- An entry that is there stays: no section replaces it. -/
theorem CallPoint.next_entry {disk : FileVersion} {number object : Nat} {ok : Bool}
    {cached : CachedRules LoadedRules} {cache : Option (CachedRules LoadedRules)}
    {point after : CallPoint}
    (took : point.next disk number object (some cached) ok = some (after, cache)) :
    cache = some cached := by
  cases CallPoint.next_takes took <;> rfl

/-- Once stored, the rules of a path are in force for good, whatever edits follow. -/
theorem entry_permanent {s next : RulesState} {label : RulesLabel}
    {cached : CachedRules LoadedRules} (stored : s.cache = some cached)
    (step : RulesStep s label next) : next.cache = some cached := by
  cases step with
  | edit fresh => exact stored
  | start => exact stored
  | run pool current took =>
      rw [stored] at took
      exact CallPoint.next_entry took

/-! ## The invariant -/

/-- The time a call has read is that of a version no older than the call. -/
def RulesState.Read (s : RulesState) (since : Nat) (curMtime : Option FileTime) : Prop :=
  ∀ time, curMtime = some time →
    ∃ number version, since ≤ number ∧ s.versions[number]? = some version ∧ time = version.mtime

def RulesState.CallValid (s : RulesState) (call : RulesCall) : CallPoint → Prop
  | .stat => True
  | .lookup curMtime => s.Read call.since curMtime
  | .load curMtime => s.Read call.since curMtime
  | .keep curMtime _ => s.Read call.since curMtime
  | .publish curMtime loaded =>
      s.Read call.since curMtime ∧ call.since ≤ loaded.version ∧ loaded.version < s.versions.length
  | .returned curMtime result =>
      ∀ number, s.Owes call curMtime number → ∃ rules version, s.Serves result number rules version
  | .threw => True

/-- The times of the versions differ, the entry has the time of its version, and every
call is where its history allows. -/
structure RulesState.Inv (s : RulesState) : Prop where
  existing : s.versions ≠ []
  distinct : (s.versions.map FileVersion.mtime).Nodup
  entry : ∀ cached, s.cache = some cached →
    ∃ version, s.versions[cached.rules.version]? = some version ∧ cached.mtime = version.mtime
  started : ∀ call ∈ s.calls, call.since < s.versions.length
  call : ∀ call ∈ s.calls, s.CallValid call call.point

theorem rules_inv_start {s : RulesState} (start : rulesSystem.initial s) : s.Inv := by
  obtain ⟨version, rfl⟩ := start
  exact
    { existing := by simp
      distinct := by simp
      entry := by simp
      started := by simp
      call := by simp }

/-! ## What stays true while the file and the cache grow -/

/-- Versions are only added, and an entry that is there stays. -/
structure RulesState.Grows (s next : RulesState) : Prop where
  versions : s.versions <+: next.versions
  entry : ∀ cached, s.cache = some cached → next.cache = some cached

theorem RulesState.Grows.version {s next : RulesState} (grows : s.Grows next) {number : Nat}
    {version : FileVersion} (found : s.versions[number]? = some version) :
    next.versions[number]? = some version := by
  obtain ⟨later, extended⟩ := grows.versions
  obtain ⟨within, rfl⟩ := List.getElem?_eq_some_iff.mp found
  rw [← extended, List.getElem?_append_left within]
  exact found

theorem RulesState.Grows.owes {s next : RulesState} (grows : s.Grows next) {call : RulesCall}
    (started : call.since < s.versions.length) {curMtime : Option FileTime} {number : Nat}
    (owes : next.Owes call curMtime number) : s.Owes call curMtime number := by
  obtain ⟨readable, reached, version, found, parses⟩ := owes
  have within : number < s.versions.length := Nat.lt_of_le_of_lt reached started
  have here : s.versions[number]? = some s.versions[number] := List.getElem?_eq_getElem within
  obtain rfl : s.versions[number] = version :=
    Option.some.inj ((grows.version here).symm.trans found)
  exact ⟨readable, reached, _, here, parses⟩

theorem RulesState.Grows.serves {s next : RulesState} (grows : s.Grows next)
    {result : Option LoadedRules} {number : Nat} {rules : LoadedRules} {version : FileVersion}
    (serves : s.Serves result number rules version) :
    next.Serves result number rules version where
  result := serves.result
  fresh := serves.fresh
  parsed := grows.version serves.parsed
  entry := grows.entry _ serves.entry
  fast := by
    rw [grows.entry _ serves.entry]
    exact fastPath_same rules version.mtime

theorem RulesState.Grows.read {s next : RulesState} (grows : s.Grows next) {since : Nat}
    {curMtime : Option FileTime} (read : s.Read since curMtime) : next.Read since curMtime := by
  intro time known
  obtain ⟨number, version, late, found, same⟩ := read time known
  exact ⟨number, version, late, grows.version found, same⟩

theorem RulesState.Grows.callValid {s next : RulesState} (grows : s.Grows next) {call : RulesCall}
    (started : call.since < s.versions.length) {point : CallPoint}
    (valid : s.CallValid call point) : next.CallValid call point := by
  cases point with
  | stat => trivial
  | lookup curMtime => exact grows.read valid
  | load curMtime => exact grows.read valid
  | keep curMtime err => exact grows.read valid
  | publish curMtime loaded =>
      obtain ⟨read, late, within⟩ := valid
      exact ⟨grows.read read, late, Nat.lt_of_lt_of_le within grows.versions.length_le⟩
  | returned curMtime result =>
      intro number owes
      obtain ⟨rules, version, serves⟩ := valid number (grows.owes started owes)
      exact ⟨rules, version, grows.serves serves⟩
  | threw => trivial

/-! ## Steps -/

section Steps

variable {s : RulesState}

theorem distinct_edit {versions : List FileVersion} {version : FileVersion}
    (distinct : (versions.map FileVersion.mtime).Nodup)
    (fresh : version.mtime ∉ versions.map FileVersion.mtime) :
    ((versions ++ [version]).map FileVersion.mtime).Nodup := by
  simp only [List.map_append, List.map_cons, List.map_nil]
  refine List.nodup_append.mpr ⟨distinct, List.nodup_singleton _, ?_⟩
  rintro time member _ late rfl
  cases List.mem_singleton.mp late
  exact fresh member

theorem rules_inv_edit (inv : s.Inv) {version : FileVersion}
    (fresh : version.mtime ∉ s.versions.map FileVersion.mtime) :
    RulesState.Inv { s with versions := s.versions ++ [version] } := by
  have grows : s.Grows { s with versions := s.versions ++ [version] } :=
    ⟨List.prefix_append _ _, fun _ stored => stored⟩
  exact
    { existing := by simp
      distinct := distinct_edit inv.distinct fresh
      entry := by
        intro cached stored
        obtain ⟨parsed, found, same⟩ := inv.entry cached stored
        exact ⟨parsed, grows.version found, same⟩
      started := by
        intro call member
        have started := inv.started call member
        simp only [List.length_append, List.length_singleton]
        omega
      call := fun call member =>
        grows.callValid (inv.started call member) (inv.call call member) }

theorem rules_inv_begin (inv : s.Inv) :
    RulesState.Inv
      { s with calls := s.calls ++ [{ since := s.versions.length - 1, point := .stat }] } := by
  have positive := List.length_pos_iff.mpr inv.existing
  have grows : s.Grows
      { s with calls := s.calls ++ [{ since := s.versions.length - 1, point := .stat }] } :=
    ⟨List.prefix_refl _, fun _ stored => stored⟩
  exact
    { existing := inv.existing
      distinct := inv.distinct
      entry := inv.entry
      started := forall_started inv.started (Nat.sub_lt positive Nat.one_pos)
      call := by
        refine forall_started (fun call member => ?_) trivial
        exact grows.callValid (inv.started call member) (inv.call call member) }

theorem version_eq_of_mtime (distinct : (s.versions.map FileVersion.mtime).Nodup) {first second : Nat} {early late : FileVersion}
    (firstFound : s.versions[first]? = some early) (secondFound : s.versions[second]? = some late)
    (same : early.mtime = late.mtime) : first = second := by
  obtain ⟨firstWithin, rfl⟩ := List.getElem?_eq_some_iff.mp firstFound
  obtain ⟨secondWithin, rfl⟩ := List.getElem?_eq_some_iff.mp secondFound
  have firstBound : first < (s.versions.map FileVersion.mtime).length := by simpa using firstWithin
  have secondBound : second < (s.versions.map FileVersion.mtime).length := by
    simpa using secondWithin
  have times : (s.versions.map FileVersion.mtime)[first] =
      (s.versions.map FileVersion.mtime)[second] := by simpa using same
  exact (distinct.getElem_inj_iff).mp times

theorem serves_of_entry (inv : s.Inv) {cached : CachedRules LoadedRules} {number : Nat}
    (stored : s.cache = some cached) (fresh : number ≤ cached.rules.version) :
    ∃ version, s.Serves (some cached.rules) number cached.rules version := by
  obtain ⟨version, found, same⟩ := inv.entry cached stored
  have shape : s.cache = some { rules := cached.rules, mtime := version.mtime } := by
    rw [stored, ← same]
  refine ⟨version, rfl, fresh, found, shape, ?_⟩
  rw [shape]
  exact fastPath_same _ _

/-- The section of a call leaves a valid entry and a valid call. -/
structure Section (s : RulesState) (call : RulesCall) (point : CallPoint)
    (cache : Option (CachedRules LoadedRules)) : Prop where
  entry : ∀ cached, cache = some cached →
    ∃ version, s.versions[cached.rules.version]? = some version ∧ cached.mtime = version.mtime
  call : RulesState.CallValid { s with cache } call point

theorem Section.unchanged (inv : s.Inv) {call : RulesCall} {point : CallPoint}
    (valid : s.CallValid call point) : Section s call point s.cache :=
  ⟨inv.entry, valid⟩

theorem stat_section (inv : s.Inv) {call : RulesCall} (started : call.since < s.versions.length)
    {disk : FileVersion} (current : s.versions.getLast? = some disk) (ok : Bool) :
    Section s call (.lookup (if ok then some disk.mtime else none)) s.cache := by
  refine .unchanged inv ?_
  intro time read
  cases ok with
  | false => cases read
  | true =>
      cases read
      rw [List.getLast?_eq_getElem?] at current
      exact ⟨s.versions.length - 1, disk, by omega, current, rfl⟩

theorem lookup_section (inv : s.Inv) {call : RulesCall} {curMtime : Option FileTime}
    (read : s.Read call.since curMtime) {rules : LoadedRules}
    (hit : fastPath s.cache curMtime = some rules) :
    Section s call (.returned curMtime (some rules)) s.cache := by
  refine .unchanged inv ?_
  intro number owes
  cases curMtime with
  | none => exact absurd rfl owes.1
  | some time =>
      have stored := fastPath_hit hit
      obtain ⟨parsed, parsedFound, parsedSame⟩ := inv.entry _ stored
      obtain ⟨seen, version, late, found, same⟩ := read time rfl
      have agree : rules.version = seen :=
        version_eq_of_mtime inv.distinct parsedFound found (parsedSame.symm.trans same)
      have fresh : number ≤ rules.version := by
        have reached := owes.2.1
        omega
      obtain ⟨version, serves⟩ := serves_of_entry inv stored fresh
      exact ⟨rules, version, serves⟩

theorem keep_section (inv : s.Inv) {call : RulesCall} {curMtime : Option FileTime} {err : Bytes}
    (meets : s.MeetsAt call (.keep curMtime err)) :
    Section s call (.returned curMtime (keepPrevious s.cache)) s.cache := by
  refine .unchanged inv ?_
  intro number owes
  obtain ⟨cached, stored, fresh⟩ := meets number owes
  obtain ⟨version, serves⟩ := serves_of_entry inv stored fresh
  rw [stored]
  exact ⟨cached.rules, version, serves⟩

theorem publish_section (inv : s.Inv) {call : RulesCall} {curMtime : Option FileTime}
    {loaded : LoadedRules} (late : call.since ≤ loaded.version)
    (meets : s.MeetsAt call (.publish curMtime loaded)) :
    Section s call (.returned curMtime (some (publishRules s.cache loaded curMtime).rules))
      (some (publishRules s.cache loaded curMtime)) := by
  cases stored : s.cache with
  | some cached =>
      simp only [RulesState.MeetsAt, stored] at meets
      have same : { s with cache := some cached } = s := by rw [← stored]
      refine ⟨?_, ?_⟩
      · rintro _ ⟨⟩
        exact inv.entry cached stored
      · intro number owes
        obtain ⟨version, serves⟩ := serves_of_entry inv stored (meets number owes)
        rw [← same] at serves
        exact ⟨cached.rules, version, serves⟩
  | none =>
      simp only [RulesState.MeetsAt, stored] at meets
      obtain ⟨version, found, rfl⟩ := meets
      refine ⟨?_, ?_⟩
      · rintro _ ⟨⟩
        exact ⟨version, found, rfl⟩
      · intro number owes
        have fresh : number ≤ loaded.version := Nat.le_trans owes.2.1 late
        exact ⟨loaded, version, rfl, fresh, found, rfl, fastPath_same _ _⟩

/-- The section a call runs, under the condition on its last lookup. -/
theorem next_section (inv : s.Inv) {call : RulesCall} (started : call.since < s.versions.length)
    (valid : s.CallValid call call.point) {disk : FileVersion}
    (current : s.versions.getLast? = some disk) {ok : Bool}
    (meets : ok = true → s.MeetsAt call call.point) {point : CallPoint}
    {cache : Option (CachedRules LoadedRules)}
    (took : call.point.next disk (s.versions.length - 1) s.objects s.cache ok =
      some (point, cache)) :
    Section s call point cache := by
  generalize call.point = origin at took valid meets
  cases CallPoint.next_takes took with
  | stat => exact stat_section inv started current ok
  | hit _ found => exact lookup_section inv valid found
  | miss => exact .unchanged inv valid
  | parsed =>
      exact .unchanged inv ⟨valid, Nat.le_sub_one_of_lt started, Nat.sub_one_lt_of_lt started⟩
  | refused => exact .unchanged inv valid
  | kept => exact keep_section inv (meets rfl)
  | published => exact publish_section inv valid.2.1 (meets rfl)
  | loadThrew => exact .unchanged inv trivial
  | keepThrew => exact .unchanged inv trivial
  | publishThrew => exact .unchanged inv trivial

theorem rules_inv_run (inv : s.Inv) {front back : List RulesCall} {call : RulesCall} {disk : FileVersion}
    {ok : Bool} {point : CallPoint} {cache : Option (CachedRules LoadedRules)}
    (pool : s.calls = front ++ call :: back) (current : s.versions.getLast? = some disk)
    (meets : ok = true → s.MeetsAt call call.point)
    (took : call.point.next disk (s.versions.length - 1) s.objects s.cache ok =
      some (point, cache)) :
    (s.ran front call back point cache).Inv := by
  have member : call ∈ s.calls := by simp [pool]
  have ran := next_section inv (inv.started call member) (inv.call call member) current meets took
  have grows : s.Grows (s.ran front call back point cache) := by
    refine ⟨List.prefix_refl _, fun cached stored => ?_⟩
    rw [stored] at took
    exact CallPoint.next_entry took
  constructor
  · exact inv.existing
  · exact inv.distinct
  · exact ran.entry
  · refine forall_stepped (fun other beside => ?_) (inv.started call member)
    exact inv.started other (mem_of_beside pool beside)
  · refine forall_stepped (fun other beside => ?_) ?_
    · have known := mem_of_beside pool beside
      exact grows.callValid (inv.started other known) (inv.call other known)
    · have moved : RulesState.Grows { s with cache } (s.ran front call back point cache) :=
        ⟨List.prefix_refl _, fun _ stored => stored⟩
      have valid := moved.callValid (inv.started call member) ran.call
      cases point <;> exact valid

theorem rules_inv_step {label : RulesLabel} {next : RulesState} (inv : s.Inv)
    (condition : rulesCondition s label) (step : RulesStep s label next) : next.Inv := by
  cases step with
  | edit fresh => exact rules_inv_edit inv fresh
  | start => exact rules_inv_begin inv
  | @run front back call disk ok point cache pool current took =>
      refine rules_inv_run inv pool current ?_ took
      rintro rfl
      exact condition call (by simp [pool])

theorem rules_inv (reached : rulesSystem.Reaches rulesCondition s) : s.Inv :=
  reached.invariant (fun _ start => rules_inv_start start)
    fun _ _ _ inv condition step => rules_inv_step inv condition step

/-- In a run whose every step meets the condition, every call gave what it owed. -/
theorem rules_fresh (reached : rulesSystem.Reaches rulesCondition s) : s.Fresh := by
  intro call member curMtime result returned number owes
  have valid := (rules_inv reached).call call member
  rw [returned] at valid
  exact valid number owes

end Steps

/-- A version that parses, written at the given time. -/
def FileVersion.written (time : BitVec 32) : FileVersion where
  mtime := { dwLowDateTime := time, dwHighDateTime := 0#32 }
  parsed := .ok { secResponseBodyAccess := .trueConfigBoolean }

def LoadedRules.first : LoadedRules where
  object := 2
  rules := { secResponseBodyAccess := .trueConfigBoolean }
  version := 0

def RulesState.unread : RulesState where
  versions := [.written 1]
  cache := none
  objects := 0
  calls := []

/-- The first call parses the file, the second takes the fast path. -/
theorem rules_fresh_twice : ∃ s : RulesState,
    s.calls.map RulesCall.point =
      [.returned (some (FileVersion.written 1).mtime) (some .first),
        .returned (some (FileVersion.written 1).mtime) (some .first)] ∧ s.Fresh := by
  have began : rulesSystem.Reaches rulesCondition .unread := .start ⟨_, rfl⟩
  have first := began.next (show rulesCondition _ .start from trivial) .start
  have stat := first.next (by rintro _ ⟨⟩; trivial) (@RulesStep.run _ [] [] _ _ true _ _ rfl rfl rfl)
  have missed := stat.next (by rintro _ ⟨⟩; trivial) (@RulesStep.run _ [] [] _ _ true _ _ rfl rfl rfl)
  have loaded := missed.next (by rintro _ ⟨⟩; trivial)
    (@RulesStep.run _ [] [] _ _ true _ _ rfl rfl rfl)
  have published := loaded.next (by rintro _ ⟨⟩; exact ⟨_, rfl, rfl⟩)
    (@RulesStep.run _ [] [] _ _ true _ _ rfl rfl rfl)
  have second := published.next (show rulesCondition _ .start from trivial) .start
  have statAgain := second.next (by rintro _ ⟨⟩; trivial)
    (@RulesStep.run _ [_] [] _ _ true _ _ rfl rfl rfl)
  have hit := statAgain.next (by rintro _ ⟨⟩; trivial)
    (@RulesStep.run _ [_] [] _ _ true _ _ rfl rfl rfl)
  exact ⟨_, rfl, rules_fresh hit⟩

/-- A call that starts after an edit parses the new version and returns the old rules. -/
theorem rules_stale_after_edit : ∃ s : RulesState, rulesSystem.Reachable s ∧
    s.calls.map RulesCall.point =
      [.returned (some (FileVersion.written 1).mtime) (some .first),
        .returned (some (FileVersion.written 2).mtime) (some .first)] ∧
    s.versions = [.written 1, .written 2] ∧ ¬ s.Fresh := by
  have began : rulesSystem.Reachable .unread := .start ⟨_, rfl⟩
  have first := began.step .start
  have stat := first.step (@RulesStep.run _ [] [] _ _ true _ _ rfl rfl rfl)
  have missed := stat.step (@RulesStep.run _ [] [] _ _ true _ _ rfl rfl rfl)
  have loaded := missed.step (@RulesStep.run _ [] [] _ _ true _ _ rfl rfl rfl)
  have published := loaded.step (@RulesStep.run _ [] [] _ _ true _ _ rfl rfl rfl)
  have edited := published.step (@RulesStep.edit _ (.written 2) (by decide))
  have second := edited.step .start
  have statAgain := second.step (@RulesStep.run _ [_] [] _ _ true _ _ rfl rfl rfl)
  have missedAgain := statAgain.step (@RulesStep.run _ [_] [] _ _ true _ _ rfl rfl rfl)
  have reloaded := missedAgain.step (@RulesStep.run _ [_] [] _ _ true _ _ rfl rfl rfl)
  have discarded := reloaded.step (@RulesStep.run _ [_] [] _ _ true _ _ rfl rfl rfl)
  refine ⟨_, discarded, rfl, rfl, fun fresh => ?_⟩
  obtain ⟨rules, version, serves⟩ := fresh _ (List.mem_cons_of_mem _ List.mem_cons_self) _ _ rfl 1
    ⟨by simp, Nat.le_refl 1, .written 2, rfl, _, rfl⟩
  cases serves.result
  exact absurd serves.fresh (by decide)

end ModSecurityIIS
