import ModSecurityIIS.Configuration

/-!
# Properties of the configuration lookup

A lookup that reports success hands out a context that protects the request,
whenever the section of its path does.
-/

set_option autoImplicit false

namespace ModSecurityIIS

open Imperative Program

/-- A property read that reports success has stored its value. -/
def PropertyRead.Sound (result : PropertyRead) : Prop :=
  result.hr.failed = false → result.exception = false → result.read = true

theorem propertyValue_sound (env : Env) (property : SectionProperty) (copied : Bool) :
    Ensures (fun _ => True) (propertyValue env property copied)
      (fun result _ => result.Sound) (fun _ => True) := by
  refine .skip (fun _ => trivial) fun _ => .skip (fun _ => trivial) fun valueHr => ?_
  split
  · next failed => exact .pure fun _ _ succeeded => by simp [failed] at succeeded
  refine .skip (fun _ => trivial) fun exceptionHr => ?_
  split
  · next failed => exact .pure fun _ _ succeeded => by simp [failed] at succeeded
  refine .skip (fun _ => trivial) fun clean => ?_
  split
  · split
    · refine .skip (fun _ => trivial) fun allocated => ?_
      split
      · exact .pure fun _ _ _ _ => rfl
      · exact .pure fun _ _ succeeded => absurd succeeded (by decide)
    · exact .pure fun _ _ _ _ => rfl
  · exact .skip (fun _ => trivial) fun _ => .pure fun _ _ _ clear => by simp at clear

theorem getPropertyValue_sound (env : Env) (property : SectionProperty)
    (copied argumentsValid : Bool) :
    Ensures (fun _ => True) (getPropertyValue env property copied argumentsValid)
      (fun result _ => result.Sound) (fun _ => True) := by
  unfold getPropertyValue
  split
  · refine .skip (fun _ => trivial) fun foundHr => ?_
    split
    · next failed =>
        exact .skip (fun _ => trivial)
          fun _ => .pure fun _ _ succeeded => by simp [failed] at succeeded
    refine .skip (fun _ => trivial) fun found => ?_
    split
    · refine .skip (fun _ => trivial) fun _ => ?_
      refine .bind _ (propertyValue_sound env property copied) fun result => ?_
      refine .assume fun sound => ?_
      exact .skip (fun _ => trivial) fun _ => .skip (fun _ => trivial)
        fun _ => .pure fun _ _ => sound
    · exact .skip (fun _ => trivial)
        fun _ => .pure fun _ _ succeeded => absurd succeeded (by decide)
  · exact .skip (fun _ => trivial)
      fun _ => .pure fun _ _ succeeded => absurd succeeded (by decide)

/-- A configuration under which requests are inspected. -/
def ModsecurityStoredContext.Protects (config : ModsecurityStoredContext) : Prop :=
  config.isEnabled = true ∧ (config.path.getD []).takeWhile (· ≠ 0) ≠ []

/-- The section is enabled with a nonempty `configFile`. -/
def SiteConfiguration.Protects (site : SiteConfiguration) : Prop :=
  site.enabled = true ∧ site.configFile.takeWhile (· ≠ 0) ≠ []

def Initialization.Sound (result : Initialization) : Prop :=
  result.hr.failed = false → result.exception = false → result.context.Protects

/-- The context of a section that was read to its end. -/
def ModsecurityStoredContext.Complete (site : SiteConfiguration) (config : ModsecurityStoredContext) :
    Prop :=
  config.isEnabled = site.enabled ∧ (config.isEnabled = true →
    config.responseBodyBlock = site.responseBodyBlock ∧ config.path = some site.configFile)

def Initialization.Completes (site : SiteConfiguration) (result : Initialization) : Prop :=
  result.hr.failed = false → result.exception = false → result.context.Complete site

theorem readSection_completes (env : Env) (site : SiteConfiguration) :
    Ensures (fun _ => True) (readSection env site)
      (fun result _ => result.Completes site) (fun _ => True) := by
  refine .bind _ (getPropertyValue_sound env .enabled false true) fun enabled => ?_
  refine .assume fun enabledSound => ?_
  dsimp only
  split
  · next stops =>
      refine .pure fun _ _ succeeded clear => ?_
      change enabled.exception = false at clear
      have read := enabledSound succeeded clear
      have disabled : site.enabled = false := by simpa [succeeded, clear, read] using stops
      constructor
      · simp [read, disabled]
      · simp [disabled]
  next continues =>
    simp only [Bool.or_eq_true, Bool.not_eq_true', not_or, Bool.not_eq_false,
      Bool.and_eq_true] at continues
    refine .bind _ (getPropertyValue_sound env .responseBodyBlock false true) fun block => ?_
    refine .assume fun blockSound => ?_
    split
    · next stops =>
        refine .pure fun _ _ succeeded clear => ?_
        change block.exception = false at clear
        simp [succeeded, clear] at stops
    next goes =>
      simp only [Bool.or_eq_true, not_or, Bool.not_eq_true] at goes
      have readBlock := blockSound goes.1 goes.2
      refine .bind _ (getPropertyValue_sound env .configFile true true) fun file => ?_
      refine .assume fun fileSound => .pure fun _ _ succeeded clear => ?_
      have readFile := fileSound succeeded clear
      constructor
      · simp [continues.2]
      · intro _
        simp [readBlock, readFile]

theorem initializeConfig_completes (env : Env) (context : HttpContext) :
    Ensures (fun _ => True) (initializeConfig env context)
      (fun result _ => result.Completes context.site) (fun _ => True) := by
  have failing {hr : HResult} {step : Program World Unit} (failed : hr.failed = true) :
      Ensures (fun _ => True)
        (step >>= fun _ =>
          pure ({ hr, exception := false, context := .new } : Initialization))
        (fun result _ => result.Completes context.site) (fun _ => True) :=
    .skip (fun _ => trivial) fun _ => .pure fun _ _ succeeded => by simp [failed] at succeeded
  refine .skip (fun _ => trivial) fun _ => ?_
  split
  · refine .skip (fun _ => trivial) fun sectionHr => ?_
    split
    · next failed => exact failing failed
    refine .skip (fun _ => trivial) fun found => ?_
    split
    · refine .skip (fun _ => trivial) fun _ => ?_
      refine .bind _ (readSection_completes env context.site) fun result => ?_
      refine .assume fun completes => ?_
      exact .skip (fun _ => trivial) fun _ => .skip (fun _ => trivial)
        fun _ => .pure fun _ _ => completes
    · exact failing (by decide)
  · exact failing (by decide)

theorem ModsecurityStoredContext.Complete.protects {site : SiteConfiguration}
    {config : ModsecurityStoredContext} (complete : config.Complete site)
    (protects : site.Protects) : config.Protects := by
  have enabled : config.isEnabled = true := complete.1.trans protects.1
  refine ⟨enabled, ?_⟩
  rw [(complete.2 enabled).2]
  exact protects.2

theorem initializeConfig_sound (env : Env) {context : HttpContext}
    (protects : context.site.Protects) :
    Ensures (fun _ => True) (initializeConfig env context)
      (fun result _ => result.Sound) (fun _ => True) :=
  (initializeConfig_completes env context).consequence (fun _ start => start)
    (fun _ _ completes succeeded clear => (completes succeeded clear).protects protects)
    fun _ caught => caught

/-- Every context a lookup can meet for this request's path protects it. -/
structure Configured (env : Env) (context : HttpContext) (w : World) : Prop where
  site : context.site.Protects
  cached : ∀ config, w.storedConfiguration = some config → config.Protects
  racing : ∀ tick config, env.racingConfiguration tick = some config → config.Protects

def ConfigResult.Sound (result : ConfigResult) : Prop :=
  result.hr.failed = false → ∀ config, result.config = some config → config.Protects

theorem storeConfig_sound {env : Env} {config : ModsecurityStoredContext}
    (protects : config.Protects)
    (racing : ∀ tick other, env.racingConfiguration tick = some other → other.Protects) :
    Ensures (fun _ => True) (storeConfig env config)
      (fun result _ => result.Sound) (fun _ => True) := by
  refine .skip (fun _ => trivial) fun hr => ?_
  split
  · refine .skip (fun _ => trivial) fun _ => ?_
    split
    · refine .bind (fun other _ => ∀ config, other = some config → config.Protects)
        (fun s _ => racing s.tick) fun other => .assume fun otherProtects => ?_
      exact .skip (fun _ => trivial) fun _ => .pure fun _ _ _ => otherProtects
    · exact .pure fun _ _ _ _ none => by simp at none
  · refine .skip (fun _ => trivial) fun _ => .pure ?_
    rintro _ _ _ _ ⟨⟩
    exact protects

theorem getConfig_sound {env : Env} {context : HttpContext} {w : World}
    (configured : Configured env context w) :
    Ensures (· = w) (getConfig env context) (fun result _ => result.Sound) (fun _ => True) := by
  refine .bind (fun seen _ => seen = w) (fun _ start => start) fun seen => ?_
  refine .assume fun same => ?_
  subst same
  split
  · split
    · next config cached =>
        refine .pure ?_
        rintro _ _ _ _ ⟨⟩
        exact configured.cached config cached
    refine .skip (fun _ => trivial) fun allocated => ?_
    split
    · refine .skip (fun _ => trivial) fun _ => ?_
      refine .bind _ (initializeConfig_sound env configured.site) fun result => ?_
      refine .assume fun sound => ?_
      split
      · exact .skip (fun _ => trivial) fun _ => .skip (fun _ => trivial)
          fun _ => .pure fun _ _ succeeded => absurd succeeded (by decide)
      next succeeded =>
        simp only [Bool.or_eq_true, not_or, Bool.not_eq_true] at succeeded
        exact storeConfig_sound (sound succeeded.1 succeeded.2) configured.racing
    · exact .pure fun _ _ succeeded => absurd succeeded (by decide)
  · exact .pure fun _ _ succeeded => absurd succeeded (by decide)

end ModSecurityIIS
