import ModSecurityIIS.RulesFreshness

/-!
# The last known good rules

An entry is stored once and stays, so a call that finds one never comes away without rules,
and all calls of a path get the same object. An entry is at least as new as the version
whose time it carries, since a call reads the time before it loads.
-/

set_option autoImplicit false

namespace ModSecurityIIS

open Transition

/-- The time of an entry that was stored by a call which could not query the file. -/
def FileTime.zero : FileTime := { dwLowDateTime := 0#32, dwHighDateTime := 0#32 }

/-- An edit stamps the file with its date; the zero time is no date. -/
def datedEdits (_ : RulesState) : RulesLabel → Prop
  | .edit version => version.mtime ≠ .zero
  | _ => True

/-- The version with the time that was read is not newer than the given one. -/
def RulesState.ReadBy (s : RulesState) (time : FileTime) (bound : Nat) : Prop :=
  ∃ number version, s.versions[number]? = some version ∧ version.mtime = time ∧ number ≤ bound

/-- The object holds what parsing its version gave. -/
def RulesState.ParsedFrom (s : RulesState) (loaded : LoadedRules) : Prop :=
  ∃ version, s.versions[loaded.version]? = some version ∧ version.parsed = .ok loaded.rules

def RulesState.Holds (s : RulesState) (rules : LoadedRules) : Prop :=
  ∃ cached, s.cache = some cached ∧ cached.rules = rules

def RulesState.PointKept (s : RulesState) : CallPoint → Prop
  | .lookup curMtime => ∀ time, curMtime = some time → s.ReadBy time (s.versions.length - 1)
  | .load curMtime => ∀ time, curMtime = some time → s.ReadBy time (s.versions.length - 1)
  | .publish curMtime loaded =>
      (∀ time, curMtime = some time → s.ReadBy time loaded.version) ∧ s.ParsedFrom loaded
  | .returned _ (some rules) => s.Holds rules
  | _ => True

structure RulesState.EntryKept (s : RulesState) (cached : CachedRules LoadedRules) : Prop where
  parsed : s.ParsedFrom cached.rules
  read : cached.mtime = .zero ∨ s.ReadBy cached.mtime cached.rules.version

structure RulesState.Kept (s : RulesState) : Prop where
  distinct : (s.versions.map FileVersion.mtime).Nodup
  dated : ∀ number version, s.versions[number]? = some version → version.mtime = .zero → number = 0
  entry : ∀ cached, s.cache = some cached → s.EntryKept cached
  call : ∀ call ∈ s.calls, s.PointKept call.point

/-! ## Growth -/

section Growth

variable {s next : RulesState} (grows : s.Grows next)

include grows

theorem RulesState.Grows.readBy {time : FileTime} {bound wide : Nat} (read : s.ReadBy time bound)
    (wider : bound ≤ wide) : next.ReadBy time wide := by
  obtain ⟨number, version, found, same, within⟩ := read
  exact ⟨number, version, grows.version found, same, Nat.le_trans within wider⟩

theorem RulesState.Grows.parsedFrom {loaded : LoadedRules} (parsed : s.ParsedFrom loaded) :
    next.ParsedFrom loaded := by
  obtain ⟨version, found, same⟩ := parsed
  exact ⟨version, grows.version found, same⟩

theorem RulesState.Grows.entryKept {cached : CachedRules LoadedRules} (kept : s.EntryKept cached) :
    next.EntryKept cached := by
  constructor
  · exact grows.parsedFrom kept.parsed
  · rcases kept.read with zero | read
    · exact .inl zero
    · exact .inr (grows.readBy read (Nat.le_refl _))

theorem RulesState.Grows.pointKept {point : CallPoint} (kept : s.PointKept point) :
    next.PointKept point := by
  have longer : s.versions.length - 1 ≤ next.versions.length - 1 :=
    Nat.sub_le_sub_right grows.versions.length_le 1
  cases point with
  | lookup curMtime => exact fun time read => grows.readBy (kept time read) longer
  | load curMtime => exact fun time read => grows.readBy (kept time read) longer
  | publish curMtime loaded =>
      constructor
      · exact fun time read => grows.readBy (kept.1 time read) (Nat.le_refl _)
      · exact grows.parsedFrom kept.2
  | returned curMtime result =>
      cases result with
      | none => trivial
      | some rules =>
          obtain ⟨cached, stored, same⟩ := kept
          exact ⟨cached, grows.entry cached stored, same⟩
  | stat => trivial
  | keep curMtime err => trivial
  | threw => trivial

end Growth

/-! ## Steps -/

section Steps

variable {s : RulesState}

theorem kept_start (start : rulesSystem.initial s) : s.Kept := by
  obtain ⟨version, rfl⟩ := start
  constructor
  · simp
  · intro number found here _
    obtain ⟨within, _⟩ := List.getElem?_eq_some_iff.mp here
    exact Nat.lt_one_iff.mp within
  · simp
  · simp

theorem kept_edit (kept : s.Kept) {version : FileVersion}
    (fresh : version.mtime ∉ s.versions.map FileVersion.mtime) (dated : version.mtime ≠ .zero) :
    RulesState.Kept { s with versions := s.versions ++ [version] } := by
  have grows : s.Grows { s with versions := s.versions ++ [version] } :=
    ⟨List.prefix_append _ _, fun _ stored => stored⟩
  constructor
  · exact distinct_edit kept.distinct fresh
  · intro number found here zero
    rw [List.getElem?_append] at here
    split at here
    · exact kept.dated number found here zero
    · obtain ⟨_, rfl⟩ := List.getElem?_eq_some_iff.mp here
      simp only [List.getElem_singleton] at zero
      exact absurd zero dated
  · exact fun cached stored => grows.entryKept (kept.entry cached stored)
  · exact fun call member => grows.pointKept (kept.call call member)

theorem kept_begin (kept : s.Kept) :
    RulesState.Kept
      { s with calls := s.calls ++ [{ since := s.versions.length - 1, point := .stat }] } := by
  have grows : s.Grows
      { s with calls := s.calls ++ [{ since := s.versions.length - 1, point := .stat }] } :=
    ⟨List.prefix_refl _, fun _ stored => stored⟩
  constructor
  · exact kept.distinct
  · exact kept.dated
  · exact fun cached stored => grows.entryKept (kept.entry cached stored)
  · exact forall_started (fun call member => grows.pointKept (kept.call call member)) trivial

/-- What a section leaves in the cache and of its call. -/
structure SectionKept (s : RulesState) (point : CallPoint)
    (cache : Option (CachedRules LoadedRules)) : Prop where
  entry : ∀ cached, cache = some cached → s.EntryKept cached
  call : RulesState.PointKept { s with cache } point

theorem SectionKept.unchanged (kept : s.Kept) {point : CallPoint} (valid : s.PointKept point) :
    SectionKept s point s.cache :=
  ⟨kept.entry, valid⟩

theorem fastPath_holds {curMtime : Option FileTime} {rules : LoadedRules}
    (hit : fastPath s.cache curMtime = some rules) : s.Holds rules := by
  cases stored : s.cache with
  | none =>
      rw [stored] at hit
      cases hit
  | some cached =>
      rw [stored] at hit
      refine ⟨cached, stored, ?_⟩
      cases curMtime with
      | none => exact Option.some.inj hit
      | some time =>
          simp only [fastPath] at hit
          split at hit
          · exact Option.some.inj hit
          · cases hit

theorem keepPrevious_holds {rules : LoadedRules} (found : keepPrevious s.cache = some rules) :
    s.Holds rules :=
  Option.map_eq_some_iff.mp found

theorem publish_kept (kept : s.Kept) {curMtime : Option FileTime} {loaded : LoadedRules}
    (valid : s.PointKept (.publish curMtime loaded)) :
    SectionKept s (.returned curMtime (some (publishRules s.cache loaded curMtime).rules))
      (some (publishRules s.cache loaded curMtime)) := by
  constructor
  · rintro _ ⟨⟩
    cases stored : s.cache with
    | some cached => exact kept.entry cached stored
    | none =>
        constructor
        · exact valid.2
        · cases curMtime with
          | none => exact .inl rfl
          | some time => exact .inr (valid.1 time rfl)
  · exact ⟨_, rfl, rfl⟩

theorem next_kept (kept : s.Kept) {call : RulesCall} (valid : s.PointKept call.point)
    {disk : FileVersion} (current : s.versions.getLast? = some disk) {ok : Bool}
    {point : CallPoint} {cache : Option (CachedRules LoadedRules)}
    (took : call.point.next disk (s.versions.length - 1) s.objects s.cache ok =
      some (point, cache)) :
    SectionKept s point cache := by
  have newest : s.versions[s.versions.length - 1]? = some disk := by
    rw [← current, List.getLast?_eq_getElem?]
  generalize call.point = origin at took valid
  cases CallPoint.next_takes took with
  | stat =>
      apply SectionKept.unchanged kept
      intro time read
      cases ok with
      | false => cases read
      | true =>
          cases read
          exact ⟨_, disk, newest, rfl, Nat.le_refl _⟩
  | hit _ found => exact .unchanged kept (fastPath_holds found)
  | miss => exact .unchanged kept valid
  | parsed parsed => exact .unchanged kept ⟨valid, disk, newest, parsed⟩
  | refused => exact .unchanged kept trivial
  | kept =>
      apply SectionKept.unchanged kept
      cases found : keepPrevious s.cache with
      | none => trivial
      | some rules => exact keepPrevious_holds found
  | published => exact publish_kept kept valid
  | loadThrew => exact .unchanged kept trivial
  | keepThrew => exact .unchanged kept trivial
  | publishThrew => exact .unchanged kept trivial

theorem kept_run (kept : s.Kept) {front back : List RulesCall} {call : RulesCall}
    {disk : FileVersion} {ok : Bool} {point : CallPoint} {cache : Option (CachedRules LoadedRules)}
    (pool : s.calls = front ++ call :: back) (current : s.versions.getLast? = some disk)
    (took : call.point.next disk (s.versions.length - 1) s.objects s.cache ok =
      some (point, cache)) :
    (s.ran front call back point cache).Kept := by
  have member : call ∈ s.calls := by simp [pool]
  have ran := next_kept kept (kept.call call member) current took
  have grows : s.Grows (s.ran front call back point cache) := by
    refine ⟨List.prefix_refl _, fun cached stored => ?_⟩
    rw [stored] at took
    exact CallPoint.next_entry took
  have moved : RulesState.Grows { s with cache } (s.ran front call back point cache) :=
    ⟨List.prefix_refl _, fun _ stored => stored⟩
  constructor
  · exact kept.distinct
  · exact kept.dated
  · intro cached stored
    have entry := ran.entry cached stored
    exact ⟨entry.parsed, entry.read⟩
  · refine forall_stepped (fun other beside => ?_) (moved.pointKept ran.call)
    exact grows.pointKept (kept.call other (mem_of_beside pool beside))

theorem kept_step {label : RulesLabel} {next : RulesState} (kept : s.Kept)
    (dated : datedEdits s label) (step : RulesStep s label next) : next.Kept := by
  cases step with
  | edit fresh => exact kept_edit kept fresh dated
  | start => exact kept_begin kept
  | run pool current took => exact kept_run kept pool current took

theorem rules_kept (reached : rulesSystem.Reaches datedEdits s) : s.Kept :=
  reached.invariant (fun _ start => kept_start start)
    fun _ _ _ kept dated step => kept_step kept dated step

end Steps

/-! ## What a call comes away with -/

/-- The guarantees of one section of a call. -/
structure KeepsLastGood (s next : RulesState) (call after : RulesCall) : Prop where
  /-- Once a call has returned rules, no call returns without. -/
  survives : (∃ earlier ∈ s.calls, ∃ curMtime rules, earlier.point = .returned curMtime (some rules)) →
    ∀ curMtime, after.point ≠ .returned curMtime none
  /-- A failed or throwing load does not touch the cache. -/
  unharmed : (after.point = .threw ∨ ∃ curMtime err, after.point = .keep curMtime err ∨
    call.point = .keep curMtime err) → next.cache = s.cache
  /-- The rules returned are those in the cache. -/
  published : ∀ curMtime rules, after.point = .returned curMtime (some rules) → next.Holds rules
  /-- All calls that have returned rules have the same object. -/
  same : ∀ curMtime rules, after.point = .returned curMtime (some rules) →
    ∀ earlier ∈ s.calls, ∀ time shared, earlier.point = .returned time (some shared) →
      shared = rules
  /-- A hit gives rules of the version whose time was read, or of a later one. -/
  hit : ∀ time rules, call.point = .lookup (some time) →
    after.point = .returned (some time) (some rules) → s.ParsedFrom rules ∧
      ∃ number version, s.versions[number]? = some version ∧ version.mtime = time ∧
        (∀ other found, s.versions[other]? = some found → found.mtime = time → other = number) ∧
        number ≤ rules.version

section Guarantees

variable {s : RulesState} {point : CallPoint} {cache : Option (CachedRules LoadedRules)}
  {call : RulesCall} {disk : FileVersion} {number object : Nat} {ok : Bool}

theorem next_survives {cached : CachedRules LoadedRules}
    (took : call.point.next disk number object (some cached) ok = some (point, cache))
    (curMtime : Option FileTime) : point ≠ .returned curMtime none := by
  intro empty
  generalize call.point = origin at took
  cases CallPoint.next_takes took <;> cases empty

/-- Only a load that succeeds reaches the cache. -/
theorem next_unharmed {entry : Option (CachedRules LoadedRules)}
    (took : call.point.next disk number object entry ok = some (point, cache))
    (failed : point = .threw ∨ ∃ curMtime err, point = .keep curMtime err ∨
      call.point = .keep curMtime err) : cache = entry := by
  generalize call.point = origin at took failed
  cases CallPoint.next_takes took with
  | published => rcases failed with threw | ⟨_, _, kept | kept⟩ <;> cases ‹_›
  | _ => rfl

theorem next_hit {entry : Option (CachedRules LoadedRules)} {time : FileTime} {rules : LoadedRules}
    (took : (CallPoint.lookup (some time)).next disk number object entry ok =
      some (.returned (some time) (some rules), cache)) : entry = some { rules, mtime := time } := by
  cases CallPoint.next_takes took with
  | hit _ found => exact fastPath_hit found

end Guarantees

/-- In every run, whatever the calls, the edits and the failures. -/
theorem last_good_survives {s next : RulesState} {index : Nat} {ok : Bool} {call after : RulesCall}
    (reached : rulesSystem.Reaches datedEdits s) (step : RulesStep s (.run index ok) next)
    (before : s.calls[index]? = some call) (now : next.calls[index]? = some after) :
    KeepsLastGood s next call after := by
  have kept := rules_kept reached
  have keptNext := rules_kept (reached.next (show datedEdits s (.run index ok) from trivial) step)
  have returns (curMtime : Option FileTime) (rules : LoadedRules)
      (returned : after.point = .returned curMtime (some rules)) : next.Holds rules := by
    have valid := keptNext.call after (List.mem_of_getElem? now)
    rw [returned] at valid
    exact valid
  cases step with
  | @run front back called disk _ point cache pool current took =>
      obtain rfl : called = call := by simpa [pool] using before
      obtain rfl : { called with point } = after := by simpa [RulesState.ran] using now
      constructor
      · rintro ⟨earlier, member, curMtime, rules, returned⟩
        have valid := kept.call earlier member
        rw [returned] at valid
        obtain ⟨cached, stored, _⟩ := valid
        rw [stored] at took
        exact next_survives took
      · exact next_unharmed took
      · exact returns
      · intro curMtime rules returned earlier member time shared earlierReturned
        have valid := kept.call earlier member
        rw [earlierReturned] at valid
        obtain ⟨cached, stored, rfl⟩ := valid
        obtain ⟨entry, storedNext, rfl⟩ := returns curMtime rules returned
        rw [stored] at took
        have same := CallPoint.next_entry took
        change cache = some entry at storedNext
        rw [same] at storedNext
        cases storedNext
        rfl
      · intro time rules looked returned
        change point = _ at returned
        rw [looked, returned] at took
        have stored := next_hit took
        have entry := kept.entry _ stored
        have read := kept.call called (by simp [pool])
        rw [looked] at read
        obtain ⟨number, version, found, same, _⟩ := read time rfl
        refine ⟨entry.parsed, number, version, found, same, ?_, ?_⟩
        · intro other twin twinFound twinSame
          exact version_eq_of_mtime kept.distinct twinFound found (twinSame.trans same.symm)
        · rcases entry.read with zero | ⟨seen, early, seenFound, seenSame, within⟩
          · rw [kept.dated number version found (same.trans zero)]
            exact Nat.zero_le _
          · have agree : seen = number :=
              version_eq_of_mtime kept.distinct seenFound found (seenSame.trans same.symm)
            rw [← agree]
            exact within

theorem last_good_survives_twice : ∃ s next : RulesState, ∃ call after : RulesCall,
    call.point = .lookup (some (FileVersion.written 1).mtime) ∧
      after.point = .returned (some (FileVersion.written 1).mtime) (some .first) ∧
      KeepsLastGood s next call after := by
  have began : rulesSystem.Reaches datedEdits .unread := .start ⟨_, rfl⟩
  have first := began.next (show datedEdits _ .start from trivial) .start
  have stat := first.next (by trivial) (@RulesStep.run _ [] [] _ _ true _ _ rfl rfl rfl)
  have missed := stat.next (by trivial) (@RulesStep.run _ [] [] _ _ true _ _ rfl rfl rfl)
  have loaded := missed.next (by trivial) (@RulesStep.run _ [] [] _ _ true _ _ rfl rfl rfl)
  have published := loaded.next (by trivial) (@RulesStep.run _ [] [] _ _ true _ _ rfl rfl rfl)
  have second := published.next (show datedEdits _ .start from trivial) .start
  have statAgain := second.next (by trivial) (@RulesStep.run _ [_] [] _ _ true _ _ rfl rfl rfl)
  exact ⟨_, _, _, _, rfl, rfl, last_good_survives statAgain
    (@RulesStep.run _ [_] [] _ _ true _ _ rfl rfl rfl) rfl rfl⟩

end ModSecurityIIS
