import Mathlib.Algebra.Group.Nat.Defs
import Mathlib.Data.List.TakeWhile

/-!
# Windows and C++ values

The machine integers, result codes and library functions the module relies on.
`DWORD` and `USHORT` casts and unsigned 64-bit sums are taken modulo their width.
-/

set_option autoImplicit false

namespace ModSecurityIIS

abbrev Bytes := List UInt8

/-- The bytes of an ASCII literal. -/
def bytesOf (text : String) : Bytes := text.toList.map fun char => char.toNat.toUInt8

/-- What a callee sees of a buffer passed as a NUL-terminated string. -/
def cStr (text : Bytes) : Bytes := text.takeWhile (· ≠ 0)

def decimal (n : Nat) : Bytes := bytesOf (toString n)

abbrev HResult := BitVec 32

namespace HResult

def sOk : HResult := 0x00000000#32
def eUnexpected : HResult := 0x8000FFFF#32
def eOutOfMemory : HResult := 0x8007000E#32
def eInvalidArg : HResult := 0x80070057#32

/-- `FAILED(hr)`: the code is negative. -/
def failed (hr : HResult) : Bool := hr.msb

/-- `HRESULT_CODE(hr)`. -/
def code (hr : HResult) : Nat := hr.toNat % 65536

/-- `HRESULT_FROM_WIN32` of a nonzero Win32 error. -/
def fromWin32 (error : Nat) : HResult := BitVec.ofNat 32 (0x80070000 + error)

end HResult

def errorHandleEof : Nat := 38
def errorAlreadyAssigned : Nat := 85

/-- `(DWORD)n` of a 64-bit size. -/
def dword (n : Nat) : Nat := n % 2 ^ 32

/-- Unsigned 64-bit sum. -/
def add64 (a b : Nat) : Nat := (a + b) % 2 ^ 64

/-- Unsigned 64-bit difference. -/
def sub64 (a b : Nat) : Nat := (a + 2 ^ 64 - b) % 2 ^ 64

theorem add64_of_lt {a b : Nat} (small : a + b < 2 ^ 64) : add64 a b = a + b :=
  Nat.mod_eq_of_lt small

theorem sub64_of_le {a b : Nat} (le : b ≤ a) (small : a < 2 ^ 64) : sub64 a b = a - b := by
  unfold sub64
  omega

/-- `REQUEST_NOTIFICATION_STATUS`, as far as the module returns it. -/
inductive NotificationStatus where
  | rqNotificationContinue
  | rqNotificationPending
  | rqNotificationFinishRequest
  deriving DecidableEq, Repr

/-- A variable read with `GetEnvironmentVariableA` into a buffer of `size` bytes:
the call returns the length without the NUL when the value fits, and a number
not below `size` when it does not. The module uses a value only in the first case. -/
def environmentVariable (value : Option Bytes) (size : Nat) : Option Bytes :=
  value.filter fun text => 0 < text.length && text.length < size

def isDigit (byte : UInt8) : Bool := 48 ≤ byte && byte ≤ 57

def digitValue (byte : UInt8) : Nat := byte.toNat - 48

def digitsValue (digits : Bytes) : Nat :=
  digits.foldl (fun value byte => 10 * value + digitValue byte) 0

theorem digitsValue_decimal (n : Nat) : digitsValue (decimal n) = n := by
  have digits : decimal n = (Nat.toDigits 10 n).map fun char => char.toNat.toUInt8 := by
    rw [decimal, bytesOf, Nat.toString_eq_repr, Nat.toList_repr]
  rw [digits]
  clear digits
  induction n using Nat.strongRecOn with
  | ind n ih =>
      have last : ∀ d < 10, digitValue (Nat.digitChar d).toNat.toUInt8 = d := by decide
      by_cases small : n < 10
      · rw [Nat.toDigits_of_lt_base small]
        have digit := last n small
        simp only [digitsValue, List.map_cons, List.map_nil, List.foldl_cons, List.foldl_nil]
        omega
      · have shorter := ih (n / 10) (by omega)
        rw [Nat.toDigits_of_base_le (by omega) (by omega)]
        simp only [List.map_append, List.map_cons, List.map_nil, digitsValue, List.foldl_append,
          List.foldl_cons, List.foldl_nil] at shorter ⊢
        rw [shorter, last (n % 10) (Nat.mod_lt n (by omega))]
        omega

theorem decimal_injective {m n : Nat} (same : decimal m = decimal n) : m = n := by
  rw [← digitsValue_decimal m, ← digitsValue_decimal n, same]

/-- `std::from_chars` for `unsigned long long` in base ten: the value of the
longest prefix of digits with the rest of the input, or nothing when there is
no digit or the value does not fit. -/
def fromChars (text : Bytes) : Option (Nat × Bytes) :=
  if text.takeWhile isDigit = [] then none
  else if digitsValue (text.takeWhile isDigit) < 2 ^ 64 then
    some (digitsValue (text.takeWhile isDigit), text.dropWhile isDigit)
  else none

/-- The common use of `from_chars`: the whole text must be one positive number. -/
def wholeNumber (text : Bytes) : Option Nat :=
  match fromChars text with
  | some (value, []) => if 0 < value then some value else none
  | _ => none

/-- A whole-text parse succeeds exactly on nonempty digit strings whose value is
positive and fits 64 bits. -/
theorem wholeNumber_eq_some_iff {text : Bytes} {n : Nat} :
    wholeNumber text = some n ↔
      text ≠ [] ∧ (∀ byte ∈ text, isDigit byte = true) ∧ digitsValue text = n ∧
        0 < n ∧ n < 2 ^ 64 := by
  unfold wholeNumber fromChars
  by_cases allDigits : ∀ byte ∈ text, isDigit byte = true
  · have taken : text.takeWhile isDigit = text := List.takeWhile_eq_self_iff.mpr allDigits
    have dropped : text.dropWhile isDigit = [] := List.dropWhile_eq_nil_iff.mpr allDigits
    by_cases empty : text = []
    · simp [empty]
    · by_cases fits : digitsValue text < 2 ^ 64
      · simp only [taken, dropped, if_neg empty, if_pos fits]
        by_cases positive : 0 < digitsValue text
        · simp only [if_pos positive, Option.some.injEq]
          constructor
          · rintro rfl
            exact ⟨empty, allDigits, rfl, positive, fits⟩
          · exact fun ⟨_, _, value, _, _⟩ => value
        · simp only [if_neg positive, reduceCtorEq, false_iff]
          rintro ⟨_, _, rfl, less, _⟩
          exact positive less
      · simp only [taken, if_neg empty, if_neg fits, reduceCtorEq, false_iff]
        rintro ⟨_, _, rfl, _, less⟩
        exact fits less
  · have rest : text.dropWhile isDigit ≠ [] :=
      fun none => allDigits (List.dropWhile_eq_nil_iff.mp none)
    constructor
    · intro parsed
      obtain ⟨byte, tail, shape⟩ := List.exists_cons_of_ne_nil rest
      rw [shape] at parsed
      split at parsed
      · next found =>
          split at found
          · cases found
          · split at found <;> cases found
      · cases parsed
    · exact fun ⟨_, digits, _⟩ => absurd digits allDigits

end ModSecurityIIS
