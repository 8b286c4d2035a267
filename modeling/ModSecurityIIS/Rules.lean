import ModSecurityIIS.World

/-!
# Rules lookup

`iis::getRules`: the three decisions it takes on the cache entry of a path, each
under the lock, and the call that strings them together.
-/

set_option autoImplicit false

namespace ModSecurityIIS

open Imperative

section Decisions

variable {Rules : Type}

/-- The fast path: the cached rules when the file cannot be queried or both words
of its last-write time are unchanged. -/
def fastPath (entry : Option (CachedRules Rules)) (curMtime : Option FileTime) : Option Rules :=
  match entry with
  | none => none
  | some cached =>
      match curMtime with
      | none => some cached.rules
      | some time =>
          if cached.mtime.dwLowDateTime = time.dwLowDateTime ∧
              cached.mtime.dwHighDateTime = time.dwHighDateTime then some cached.rules
          else none

/-- After a failed load: the last known good rules. -/
def keepPrevious (entry : Option (CachedRules Rules)) : Option Rules :=
  entry.map (·.rules)

/-- After a successful load: an entry that is already there wins; else the new
rules are stored with the time queried at the start, zero when that failed. -/
def publishRules (entry : Option (CachedRules Rules)) (rules : Rules)
    (curMtime : Option FileTime) : CachedRules Rules :=
  match entry with
  | some cached => cached
  | none =>
      { rules
        mtime := curMtime.getD { dwLowDateTime := 0#32, dwHighDateTime := 0#32 } }

end Decisions

/-- The rules a call hands out and the text it leaves in `err`. -/
structure RulesResult where
  rules : Option RulesSet
  err : Bytes
  deriving DecidableEq, Repr

/-- `getRules` after the fast path was missed. -/
def loadRules (env : Env) (configFile : Bytes) (curMtime : Option FileTime) :
    Program World RulesResult := do
  mayThrow env
  let loaded ← consult env.loadFromUri
  mayThrow env
  -- past the load only the texts and the map node allocate
  mayThrow env
  let w ← Program.get
  match loaded with
  | .error err => do
      Program.when (w.rulesCache configFile).isSome
        (writeEventViewerLog
          (bytesOf "ModSecurityIIS: rules reload failed, keeping previous config: " ++ err)
          .eventlogErrorType)
      pure { rules := keepPrevious (w.rulesCache configFile), err }
  | .ok rules => do
      let entry := publishRules (w.rulesCache configFile) rules curMtime
      Program.modify fun w =>
        { w with rulesCache := Function.update w.rulesCache configFile (some entry) }
      pure { rules := some entry.rules, err := [] }

/-- `iis::getRules`. -/
def getRules (env : Env) (configFile : Bytes) : Program World RulesResult := do
  let curMtime ← consult env.rulesFileTime
  let w ← Program.get
  match fastPath (w.rulesCache configFile) curMtime with
  | some rules => pure { rules := some rules, err := [] }
  | none => loadRules env configFile curMtime

end ModSecurityIIS
