import ModSecurityIIS.Imperative.Transition
import ModSecurityIIS.Rules

/-!
# Concurrent rules lookups

Any number of threads in `getRules` on one path, interleaved with edits of the file.
The steps of a call are the sections its locks and its file accesses delimit.
-/

set_option autoImplicit false

namespace ModSecurityIIS

open Imperative Program Transition

/-- A version of the rules file: its last-write time and what parsing it gives. -/
structure FileVersion where
  mtime : FileTime
  parsed : Except Bytes RulesSet

def FileVersion.Parses (version : FileVersion) : Prop := ∃ rules, version.parsed = .ok rules

/-- A shared `RulesSet` object and the number of the version it was parsed from. -/
structure LoadedRules where
  object : Nat
  rules : RulesSet
  version : Nat
  deriving DecidableEq, Repr

/-- Where a call stands; `curMtime` is the time it has read. -/
inductive CallPoint where
  /-- Before `GetRulesFileTime`. -/
  | stat
  /-- Before the fast path. -/
  | lookup (curMtime : Option FileTime)
  /-- Before `loadFromUri`. -/
  | load (curMtime : Option FileTime)
  /-- Before the lookup that follows a failed load. -/
  | keep (curMtime : Option FileTime) (err : Bytes)
  /-- Before the lookup that follows a load. -/
  | publish (curMtime : Option FileTime) (loaded : LoadedRules)
  | returned (curMtime : Option FileTime) (result : Option LoadedRules)
  | threw
  deriving DecidableEq, Repr

/-- One section of a call on the version `disk`; `ok` says whether what may fail in it
succeeds. The result is the next point and the cache entry. -/
def CallPoint.next (disk : FileVersion) (number object : Nat)
    (cache : Option (CachedRules LoadedRules)) (ok : Bool) :
    CallPoint → Option (CallPoint × Option (CachedRules LoadedRules))
  | .stat => some (.lookup (if ok then some disk.mtime else none), cache)
  | .lookup curMtime =>
      match fastPath cache curMtime with
      | some rules => some (.returned curMtime (some rules), cache)
      | none => some (.load curMtime, cache)
  | .load curMtime =>
      if ok then
        match disk.parsed with
        | .ok rules => some (.publish curMtime { object, rules, version := number }, cache)
        | .error err => some (.keep curMtime err, cache)
      else some (.threw, cache)
  | .keep curMtime _ =>
      if ok then some (.returned curMtime (keepPrevious cache), cache)
      else some (.threw, cache)
  | .publish curMtime loaded =>
      if ok then
        some (.returned curMtime (some (publishRules cache loaded curMtime).rules),
          some (publishRules cache loaded curMtime))
      else some (.threw, cache)
  | .returned _ _ => none
  | .threw => none

/-- The ways a section can go: from its point, with its `ok`, to the next point and the entry. -/
inductive CallPoint.Takes (disk : FileVersion) (number object : Nat)
    (cache : Option (CachedRules LoadedRules)) :
    CallPoint → Bool → CallPoint → Option (CachedRules LoadedRules) → Prop where
  | stat (ok : Bool) :
      Takes disk number object cache .stat ok (.lookup (if ok then some disk.mtime else none)) cache
  | hit {curMtime : Option FileTime} {rules : LoadedRules} (ok : Bool) :
      fastPath cache curMtime = some rules →
      Takes disk number object cache (.lookup curMtime) ok (.returned curMtime (some rules)) cache
  | miss {curMtime : Option FileTime} (ok : Bool) :
      fastPath cache curMtime = none →
      Takes disk number object cache (.lookup curMtime) ok (.load curMtime) cache
  | parsed {curMtime : Option FileTime} {rules : RulesSet} :
      disk.parsed = .ok rules →
      Takes disk number object cache (.load curMtime) true
        (.publish curMtime { object, rules, version := number }) cache
  | refused {curMtime : Option FileTime} {err : Bytes} :
      disk.parsed = .error err →
      Takes disk number object cache (.load curMtime) true (.keep curMtime err) cache
  | kept {curMtime : Option FileTime} {err : Bytes} :
      Takes disk number object cache (.keep curMtime err) true
        (.returned curMtime (keepPrevious cache)) cache
  | published {curMtime : Option FileTime} {loaded : LoadedRules} :
      Takes disk number object cache (.publish curMtime loaded) true
        (.returned curMtime (some (publishRules cache loaded curMtime).rules))
        (some (publishRules cache loaded curMtime))
  | loadThrew {curMtime : Option FileTime} :
      Takes disk number object cache (.load curMtime) false .threw cache
  | keepThrew {curMtime : Option FileTime} {err : Bytes} :
      Takes disk number object cache (.keep curMtime err) false .threw cache
  | publishThrew {curMtime : Option FileTime} {loaded : LoadedRules} :
      Takes disk number object cache (.publish curMtime loaded) false .threw cache

theorem CallPoint.next_takes {disk : FileVersion} {number object : Nat}
    {cache entry : Option (CachedRules LoadedRules)} {ok : Bool} {point after : CallPoint}
    (took : point.next disk number object cache ok = some (after, entry)) :
    Takes disk number object cache point ok after entry := by
  cases point with
  | stat =>
      cases took
      exact .stat ok
  | lookup curMtime =>
      simp only [CallPoint.next] at took
      split at took
      · next rules found =>
          cases took
          exact .hit ok found
      · next missed =>
          cases took
          exact .miss ok missed
  | load curMtime =>
      cases ok with
      | false => cases took; exact .loadThrew
      | true =>
          simp only [CallPoint.next, ↓reduceIte] at took
          split at took
          · next rules parsed =>
              cases took
              exact .parsed parsed
          · next err parsed =>
              cases took
              exact .refused parsed
  | keep curMtime err =>
      cases ok with
      | false => cases took; exact .keepThrew
      | true => cases took; exact .kept
  | publish curMtime loaded =>
      cases ok with
      | false => cases took; exact .publishThrew
      | true => cases took; exact .published
  | returned curMtime result => cases took
  | threw => cases took

/-- `since` is the number of the newest version when the call started. -/
structure RulesCall where
  since : Nat
  point : CallPoint
  deriving DecidableEq, Repr

/-- `versions` are the versions of the file up to the current one, `cache` is the entry
of its path, and `objects` counts the objects made. -/
structure RulesState where
  versions : List FileVersion
  cache : Option (CachedRules LoadedRules)
  objects : Nat
  calls : List RulesCall

/-- The state after a section of one call. -/
def RulesState.ran (s : RulesState) (front : List RulesCall) (call : RulesCall)
    (back : List RulesCall) (point : CallPoint) (cache : Option (CachedRules LoadedRules)) :
    RulesState :=
  { s with
    cache
    objects := s.objects + 1
    calls := front ++ { call with point } :: back }

inductive RulesLabel where
  | edit (version : FileVersion)
  | start
  | run (index : Nat) (ok : Bool)

inductive RulesStep : RulesState → RulesLabel → RulesState → Prop where
  /-- An edit gives the file a last-write time it never had. -/
  | edit {s : RulesState} {version : FileVersion} :
      version.mtime ∉ s.versions.map FileVersion.mtime →
      RulesStep s (.edit version) { s with versions := s.versions ++ [version] }
  | start {s : RulesState} :
      RulesStep s .start
        { s with calls := s.calls ++ [{ since := s.versions.length - 1, point := .stat }] }
  | run {s : RulesState} {front back : List RulesCall} {call : RulesCall} {disk : FileVersion}
      {ok : Bool} {point : CallPoint} {cache : Option (CachedRules LoadedRules)} :
      s.calls = front ++ call :: back → s.versions.getLast? = some disk →
      call.point.next disk (s.versions.length - 1) s.objects s.cache ok = some (point, cache) →
      RulesStep s (.run front.length ok) (s.ran front call back point cache)

/-- The runs of a process that has not looked up the rules of the file before. -/
def rulesSystem : System RulesState RulesLabel where
  initial s := ∃ version, s = { versions := [version], cache := none, objects := 0, calls := [] }
  step := RulesStep

/-! ## One call alone -/

/-- The sections of a call with nothing in between; the bound is never met. -/
def CallPoint.alone (disk : FileVersion) (number object : Nat) :
    Nat → CallPoint × Option (CachedRules LoadedRules) →
      CallPoint × Option (CachedRules LoadedRules)
  | 0, reached => reached
  | bound + 1, reached =>
      match reached.1.next disk number object reached.2 true with
      | none => reached
      | some after => CallPoint.alone disk number object bound after

/-- The entry as `getRules` sees it, without the numbers of the versions. -/
def CachedRules.erase (cached : CachedRules LoadedRules) : CachedRules RulesSet where
  rules := cached.rules.rules
  mtime := cached.mtime

theorem fastPath_erase (entry : Option (CachedRules LoadedRules)) (curMtime : Option FileTime) :
    fastPath (entry.map CachedRules.erase) curMtime = (fastPath entry curMtime).map (·.rules) := by
  cases entry with
  | none => rfl
  | some cached =>
      cases curMtime with
      | none => rfl
      | some time =>
          simp only [fastPath, Option.map_some, CachedRules.erase]
          split <;> rfl

theorem keepPrevious_erase (entry : Option (CachedRules LoadedRules)) :
    keepPrevious (entry.map CachedRules.erase) = (keepPrevious entry).map (·.rules) := by
  cases entry <;> rfl

theorem publishRules_erase (entry : Option (CachedRules LoadedRules)) (loaded : LoadedRules)
    (curMtime : Option FileTime) :
    publishRules (entry.map CachedRules.erase) loaded.rules curMtime =
      (publishRules entry loaded curMtime).erase := by
  cases entry <;> rfl

section Alone

variable {env : Env} {configFile : Bytes} {w : World} {disk : FileVersion} {number object : Nat}
  {entry : Option (CachedRules LoadedRules)}

theorem loadRules_alone (number object : Nat) (calm : ∀ n, env.throws n = false)
    (file : ∀ n, env.loadFromUri n = disk.parsed)
    (cached : w.rulesCache configFile = entry.map CachedRules.erase)
    (curMtime : Option FileTime) :
    ∃ result cache err after,
      CallPoint.alone disk number object 2 (.load curMtime, entry) =
        (.returned curMtime result, cache) ∧
      loadRules env configFile curMtime w = .returned { rules := result.map (·.rules), err } after ∧
      after.rulesCache configFile = cache.map CachedRules.erase := by
  have quiet (v : World) : mayThrow env v = .returned () v.advance := by
    rw [mayThrow_apply]
    simp [calm]
  rw [loadRules, bind_returned (quiet _), bind_returned (consult_apply _ _),
    bind_returned (quiet _), bind_returned (quiet _), bind_returned (get_apply _), file]
  have seen : w.advance.advance.advance.advance.rulesCache configFile =
      entry.map CachedRules.erase := cached
  cases parsed : disk.parsed with
  | error err =>
      simp only [seen, keepPrevious_erase]
      cases entry with
      | none =>
          exact ⟨none, none, err, _, by simp [CallPoint.alone, CallPoint.next, parsed, keepPrevious],
            rfl, seen⟩
      | some found =>
          exact ⟨some found.rules, some found, err, _,
            by simp [CallPoint.alone, CallPoint.next, parsed, keepPrevious], rfl, seen⟩
  | ok rules =>
      let loaded : LoadedRules := { object, rules, version := number }
      have published : publishRules (entry.map CachedRules.erase) rules curMtime =
          (publishRules entry loaded curMtime).erase := publishRules_erase entry loaded curMtime
      simp only [seen, published]
      refine ⟨some (publishRules entry loaded curMtime).rules,
        some (publishRules entry loaded curMtime), [], _,
        by simp [CallPoint.alone, CallPoint.next, parsed, loaded], rfl, ?_⟩
      simp

/-- A call that nothing interleaves with does what `getRules` does. -/
theorem getRules_alone (calm : ∀ n, env.throws n = false)
    (file : ∀ n, env.loadFromUri n = disk.parsed)
    (cached : w.rulesCache configFile = entry.map CachedRules.erase)
    {ok : Bool} (readable : env.rulesFileTime w.tick = if ok then some disk.mtime else none) :
    CallPoint.next disk number object entry ok .stat =
      some (.lookup (env.rulesFileTime w.tick), entry) ∧
    ∃ result cache err after,
      CallPoint.alone disk number object 3 (.lookup (env.rulesFileTime w.tick), entry) =
        (.returned (env.rulesFileTime w.tick) result, cache) ∧
      getRules env configFile w = .returned { rules := result.map (·.rules), err } after ∧
      after.rulesCache configFile = cache.map CachedRules.erase := by
  refine ⟨by rw [readable]; rfl, ?_⟩
  rw [getRules, bind_returned (consult_apply _ _), bind_returned (get_apply _)]
  have seen : w.advance.rulesCache configFile = entry.map CachedRules.erase := cached
  simp only [seen, fastPath_erase]
  cases hit : fastPath entry (env.rulesFileTime w.tick) with
  | some rules =>
      exact ⟨some rules, entry, [], _, by simp [CallPoint.alone, CallPoint.next, hit], rfl, seen⟩
  | none =>
      obtain ⟨result, cache, err, after, steps, ran, kept⟩ :=
        loadRules_alone number object calm file seen (env.rulesFileTime w.tick)
      refine ⟨result, cache, err, after, ?_, ran, kept⟩
      rw [← steps]
      simp [CallPoint.alone, CallPoint.next, hit]

end Alone

end ModSecurityIIS
