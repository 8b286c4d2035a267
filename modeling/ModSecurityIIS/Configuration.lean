import ModSecurityIIS.World

/-!
# Configuration lookup

`MODSECURITY_STORED_CONTEXT::GetConfig`: the context cached on the metadata path,
or a new one read through the administration API.
-/

set_option autoImplicit false

namespace ModSecurityIIS

open Imperative

/-- How a property read ended. `read` holds when the value was stored. -/
structure PropertyRead where
  hr : HResult
  exception : Bool
  read : Bool
  deriving DecidableEq, Repr

/-- The steps of a property read from `VariantInit` to the last test. A string
value is copied to a new buffer. -/
def propertyValue (env : Env) (property : SectionProperty) (copied : Bool) :
    Program World PropertyRead := do
  recordCom (.variantInit property)
  let valueHr ← consult env.hresult
  if valueHr.failed then pure { hr := valueHr, exception := false, read := false }
  else do
    let exceptionHr ← consult env.hresult
    if exceptionHr.failed then pure { hr := exceptionHr, exception := false, read := false }
    else do
      let clean ← consult env.succeeds
      if clean then
        if copied then do
          let allocated ← consult env.succeeds
          if allocated then pure { hr := exceptionHr, exception := false, read := true }
          else pure { hr := .eOutOfMemory, exception := false, read := false }
        else pure { hr := exceptionHr, exception := false, read := true }
      else do
        recordCom (.obtainException property)
        pure { hr := exceptionHr, exception := true, read := false }

/-- `GetBooleanPropertyValue` and `GetStringPropertyValue`, which differ in the
copy of the value. Every exit passes `VariantClear`, also those before `VariantInit`. -/
def getPropertyValue (env : Env) (property : SectionProperty) (copied argumentsValid : Bool) :
    Program World PropertyRead :=
  if argumentsValid then do
    let foundHr ← consult env.hresult
    if foundHr.failed then do
      recordCom (.variantClear property)
      pure { hr := foundHr, exception := false, read := false }
    else do
      let found ← consult env.succeeds
      if found then do
        recordCom (.obtainProperty property)
        let result ← propertyValue env property copied
        recordCom (.variantClear property)
        recordCom (.releaseProperty property)
        pure result
      else do
        recordCom (.variantClear property)
        pure { hr := .eUnexpected, exception := false, read := false }
  else do
    recordCom (.variantClear property)
    pure { hr := .eInvalidArg, exception := false, read := false }

def getBooleanPropertyValue (env : Env) (property : SectionProperty) : Program World PropertyRead :=
  getPropertyValue env property false true

def getStringPropertyValue (env : Env) (property : SectionProperty) : Program World PropertyRead :=
  getPropertyValue env property true true

/-- How `Initialize` ended, with the context as far as it was filled. -/
structure Initialization where
  hr : HResult
  exception : Bool
  context : ModsecurityStoredContext
  deriving DecidableEq, Repr

/-- The constructor of `MODSECURITY_STORED_CONTEXT`. -/
def ModsecurityStoredContext.new : ModsecurityStoredContext :=
  { isEnabled := false, path := none, responseBodyBlock := false }

/-- The property reads of `Initialize`, in order; a disabled section ends them. -/
def readSection (env : Env) (site : SiteConfiguration) : Program World Initialization := do
  let enabled ← getBooleanPropertyValue env .enabled
  let initial : ModsecurityStoredContext := .new
  let first := { initial with isEnabled := enabled.read && site.enabled }
  if enabled.hr.failed || enabled.exception || !first.isEnabled then
    pure { hr := enabled.hr, exception := enabled.exception, context := first }
  else do
    let block ← getBooleanPropertyValue env .responseBodyBlock
    let second := { first with responseBodyBlock := block.read && site.responseBodyBlock }
    if block.hr.failed || block.exception then
      pure { hr := block.hr, exception := block.exception, context := second }
    else do
      let file ← getStringPropertyValue env .configFile
      let third := { second with path := if file.read then some site.configFile else none }
      pure { hr := file.hr, exception := file.exception, context := third }

/-- `MODSECURITY_STORED_CONTEXT::Initialize`. -/
def initializeConfig (env : Env) (context : HttpContext) : Program World Initialization := do
  recordCom .sysAllocString
  if context.adminManagerPresent then do
    let sectionHr ← consult env.hresult
    if sectionHr.failed then do
      recordCom .sysFreeString
      pure { hr := sectionHr, exception := false, context := .new }
    else do
      let found ← consult env.succeeds
      if found then do
        recordCom .obtainSection
        let result ← readSection env context.site
        recordCom .releaseSection
        recordCom .sysFreeString
        pure result
      else do
        recordCom .sysFreeString
        pure { hr := .eUnexpected, exception := false, context := .new }
  else do
    recordCom .sysFreeString
    pure { hr := .eUnexpected, exception := false, context := .new }

/-- The result code of `GetConfig` with the context it hands out. -/
structure ConfigResult where
  hr : HResult
  config : Option ModsecurityStoredContext
  deriving DecidableEq, Repr

/-- `SetModuleContext` on the metadata container. When another request stored its
context first, the container's context is handed out instead. -/
def storeConfig (env : Env) (config : ModsecurityStoredContext) :
    Program World ConfigResult := do
  let hr ← consult env.hresult
  if hr.failed then do
    recordCom .deleteContext
    if hr = .fromWin32 errorAlreadyAssigned then do
      let other ← consult env.racingConfiguration
      Program.modify fun w => { w with storedConfiguration := other }
      pure { hr := .sOk, config := other }
    else pure { hr, config := none }
  else do
    Program.modify fun w => { w with storedConfiguration := some config }
    pure { hr, config := some config }

/-- `MODSECURITY_STORED_CONTEXT::GetConfig`. -/
def getConfig (env : Env) (context : HttpContext) : Program World ConfigResult := do
  let w ← Program.get
  if context.metadataContainerPresent then
    match w.storedConfiguration with
    | some config => pure { hr := .sOk, config := some config }
    | none => do
        let allocated ← consult env.succeeds
        if allocated then do
          recordCom .constructContext
          let result ← initializeConfig env context
          if result.hr.failed || result.exception then do
            Program.when result.exception (recordCom .releaseException)
            recordCom .deleteContext
            pure { hr := .eUnexpected, config := none }
          else storeConfig env result.context
        else pure { hr := .eOutOfMemory, config := none }
  else pure { hr := .eUnexpected, config := none }

end ModSecurityIIS
