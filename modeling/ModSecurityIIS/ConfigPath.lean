import ModSecurityIIS.BeginRequest
import ModSecurityIIS.Text.Utf16
import ModSecurityIIS.Text.Utf8

/-!
# The configured path

The path of the rules file is configured in UTF-16. `OnBeginRequest` turns it into UTF-8,
which is the key of the rules cache, and `GetRulesFileTime` turns the key back.
-/

set_option autoImplicit false

namespace ModSecurityIIS

open Imperative Program

/-- The configured path up to its terminator. -/
def ModsecurityStoredContext.wpath (config : ModsecurityStoredContext) : List UInt16 :=
  (config.path.getD []).takeWhile (· ≠ 0)

/-- `configFile` of `OnBeginRequest`. -/
def configFile (env : Env) (config : ModsecurityStoredContext) : Bytes :=
  wToUtf8 env (some config.wpath) (config.wpath.length * 2)

/-- `GetRulesFileTime`, over the platform's conversion and `GetFileAttributesExW`. -/
def getRulesFileTime (multiByteToWideChar : Bytes → Option (List UInt16))
    (getFileAttributesEx : List UInt16 → Option FileTime) (configFile : Bytes) : Option FileTime :=
  match multiByteToWideChar (cStr configFile) with
  | none => none
  | some wpath => getFileAttributesEx (wpath.takeWhile (· ≠ 0))

/-- The platform converts text as documented, and puts the replacement character where
there is none. -/
structure ConvertsText (env : Env) (multiByteToWideChar : Bytes → Option (List UInt16)) : Prop where
  narrow : ∀ units, env.wideCharToMultiByte units = Utf8.encode (Utf16.decode units)
  widen : ∀ text, multiByteToWideChar (Utf8.encode text) = some (Utf16.encode text)

/-- A protected request looks its rules up under its `configFile`. -/
theorem protectRequest_configFile {env : Env} {context : HttpContext}
    {config : ModsecurityStoredContext} (enabled : config.isEnabled = true)
    (named : config.wpath ≠ []) :
    ∃ rest, protectRequest env context config =
      mayThrow env >>= fun _ => getRules env (configFile env config) >>= rest := by
  rw [protectRequest, if_pos enabled]
  cases path : (config.path.getD []).takeWhile (· ≠ 0) with
  | nil => exact absurd path named
  | cons unit units =>
      rw [configFile, ModsecurityStoredContext.wpath, path]
      exact ⟨_, rfl⟩

section Conversions

variable {env : Env} {multiByteToWideChar : Bytes → Option (List UInt16)}

theorem ModsecurityStoredContext.wpath_terminated (config : ModsecurityStoredContext) :
    0 ∉ config.wpath := by
  intro zero
  simpa using List.mem_takeWhile_imp zero

theorem configFile_encodes (converts : ConvertsText env multiByteToWideChar)
    (config : ModsecurityStoredContext) :
    configFile env config = Utf8.encode (Utf16.decode config.wpath) := by
  rw [configFile, wToUtf8]
  cases path : config.wpath with
  | nil => rfl
  | cons unit units =>
      have whole : (unit :: units).length * 2 / 2 = (unit :: units).length := by omega
      rw [if_neg (by simp), if_neg (by omega), whole, List.take_length, converts.narrow]

/-- The key is turned back into the path as it was decoded. -/
theorem getRulesFileTime_configFile (converts : ConvertsText env multiByteToWideChar)
    (getFileAttributesEx : List UInt16 → Option FileTime) (config : ModsecurityStoredContext) :
    getRulesFileTime multiByteToWideChar getFileAttributesEx (configFile env config) =
      getFileAttributesEx (Utf16.encode (Utf16.decode config.wpath)) := by
  have decoded : ∀ char ∈ Utf16.decode config.wpath, char.toNat ≠ 0 :=
    fun _ member zero => config.wpath_terminated (Utf16.zero_mem_of_decode member zero)
  have narrow : cStr (configFile env config) = configFile env config := by
    rw [cStr, List.takeWhile_eq_self_iff]
    intro byte member
    rw [configFile_encodes converts] at member
    rw [decide_eq_true_eq]
    rintro rfl
    obtain ⟨char, there, zero⟩ := Utf8.zero_mem_encode member
    exact decoded char there zero
  have wide : (Utf16.encode (Utf16.decode config.wpath)).takeWhile (· ≠ 0) =
      Utf16.encode (Utf16.decode config.wpath) := by
    rw [List.takeWhile_eq_self_iff]
    intro unit member
    rw [decide_eq_true_eq]
    rintro rfl
    obtain ⟨char, there, zero⟩ := Utf16.zero_mem_of_encode member
    exact decoded char there zero
  rw [getRulesFileTime, narrow, configFile_encodes converts, converts.widen]
  exact congrArg getFileAttributesEx wide

theorem configFile_same_iff (converts : ConvertsText env multiByteToWideChar)
    (config other : ModsecurityStoredContext) :
    configFile env config = configFile env other ↔
      Utf16.decode config.wpath = Utf16.decode other.wpath := by
  rw [configFile_encodes converts, configFile_encodes converts]
  exact Utf8.encode_injective.eq_iff

/-- The file whose time is read is the configured one exactly when its path is text, and
configurations share their rules exactly when their paths decode to the same text. -/
theorem configFile_round_trip (converts : ConvertsText env multiByteToWideChar)
    (config other : ModsecurityStoredContext) :
    (∀ getFileAttributesEx,
      getRulesFileTime multiByteToWideChar getFileAttributesEx (configFile env config) =
        getFileAttributesEx (Utf16.encode (Utf16.decode config.wpath))) ∧
      ((∀ getFileAttributesEx,
        getRulesFileTime multiByteToWideChar getFileAttributesEx (configFile env config) =
          getFileAttributesEx config.wpath) ↔ Utf16.paired config.wpath = true) ∧
      (configFile env config = configFile env other ↔
        Utf16.decode config.wpath = Utf16.decode other.wpath) ∧
      (Utf16.paired config.wpath = true → Utf16.paired other.wpath = true →
        configFile env config = configFile env other → config.wpath = other.wpath) := by
  refine ⟨fun _ => getRulesFileTime_configFile converts _ config, ?_,
    configFile_same_iff converts config other, ?_⟩
  · rw [← Utf16.encode_decode_iff]
    constructor
    · intro same
      -- a volume with the configured file alone tells the two paths apart
      have asked := same fun path => if path = config.wpath then some ⟨0#32, 0#32⟩ else none
      rw [getRulesFileTime_configFile converts, if_pos rfl] at asked
      by_contra differs
      rw [if_neg differs] at asked
      cases asked
    · intro same getFileAttributesEx
      rw [getRulesFileTime_configFile converts, same]
  · intro sound soundToo same
    have decoded := (configFile_same_iff converts config other).mp same
    rw [← Utf16.encode_decode sound, decoded, Utf16.encode_decode soundToo]

end Conversions

/-! ## Unpaired surrogates -/

def Env.converting : Env :=
  { Env.calm with wideCharToMultiByte := fun units => Utf8.encode (Utf16.decode units) }

def widened (bytes : Bytes) : Option (List UInt16) :=
  bytes.toByteArray.utf8Decode?.map fun text => Utf16.encode text.toList

theorem converting_text : ConvertsText Env.converting widened where
  narrow _ := rfl
  widen text := by
    have decoded : (Utf8.encode text).toByteArray.utf8Decode? = some text.toArray :=
      List.utf8Decode?_utf8Encode
    rw [widened, decoded]
    rfl

/-- A configuration whose path is one unit. -/
def ModsecurityStoredContext.named (unit : UInt16) : ModsecurityStoredContext :=
  { isEnabled := true, path := some [unit], responseBodyBlock := false }

/-- Two paths that are no text share their rules. -/
theorem configFile_round_trip_lone :
    configFile .converting (.named 0xD800) = configFile .converting (.named 0xDFFF) ∧
      ¬ ∀ getFileAttributesEx,
        getRulesFileTime widened getFileAttributesEx (configFile .converting (.named 0xD800)) =
          getFileAttributesEx (ModsecurityStoredContext.named 0xD800).wpath := by
  have trip := configFile_round_trip converting_text (.named 0xD800) (.named 0xDFFF)
  constructor
  · exact trip.2.2.1.mpr rfl
  · rw [trip.2.1]
    decide

end ModSecurityIIS
