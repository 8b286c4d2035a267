import Mathlib.Data.Char

/-!
# UTF-16

Text as 16-bit units. A character beyond the basic plane takes two units, a high and a low
surrogate; a surrogate that is not part of such a pair is no character, and decoding puts
the replacement character in its place.
-/

set_option autoImplicit false

namespace Utf16

def isHigh (unit : UInt16) : Bool := 0xD800 ≤ unit.toNat && unit.toNat ≤ 0xDBFF

def isLow (unit : UInt16) : Bool := 0xDC00 ≤ unit.toNat && unit.toNat ≤ 0xDFFF

def isSurrogate (unit : UInt16) : Bool := 0xD800 ≤ unit.toNat && unit.toNat ≤ 0xDFFF

/-- The character a unit stands for on its own. -/
def single (unit : UInt16) : Char :=
  if isSurrogate unit then Char.ofNat 0xFFFD else Char.ofNat unit.toNat

/-- The character of a pair. -/
def pair (high low : UInt16) : Char :=
  Char.ofNat (0x10000 + (high.toNat - 0xD800) * 0x400 + (low.toNat - 0xDC00))

def decode : List UInt16 → List Char
  | [] => []
  | [unit] => [single unit]
  | high :: low :: rest =>
      if isHigh high && isLow low then pair high low :: decode rest
      else single high :: decode (low :: rest)

/-- Every surrogate is part of a pair. -/
def paired : List UInt16 → Bool
  | [] => true
  | [unit] => !isSurrogate unit
  | high :: low :: rest =>
      if isHigh high && isLow low then paired rest
      else !isSurrogate high && paired (low :: rest)

def encodeChar (char : Char) : List UInt16 :=
  if char.toNat < 0x10000 then [UInt16.ofNat char.toNat]
  else
    [UInt16.ofNat (0xD800 + (char.toNat - 0x10000) / 0x400),
      UInt16.ofNat (0xDC00 + (char.toNat - 0x10000) % 0x400)]

def encode (text : List Char) : List UInt16 := text.flatMap encodeChar

@[simp] theorem encode_cons (char : Char) (text : List Char) :
    encode (char :: text) = encodeChar char ++ encode text := rfl

theorem toNat_char {code : Nat} (valid : code.isValidChar) : (Char.ofNat code).toNat = code := by
  rw [Char.ofNat, dif_pos valid]
  rfl

theorem valid_char (char : Char) :
    char.toNat < 0xD800 ∨ 0xDFFF < char.toNat ∧ char.toNat < 0x110000 :=
  char.valid

theorem toNat_unit {code : Nat} (small : code < 0x10000) : (UInt16.ofNat code).toNat = code := by
  rw [UInt16.toNat_ofNat']
  exact Nat.mod_eq_of_lt small

/-! ## One character -/

theorem isHigh_of_lone {unit : UInt16} (lone : isSurrogate unit = false) : isHigh unit = false := by
  simp only [isSurrogate, isHigh, Bool.and_eq_false_iff, decide_eq_false_iff_not] at lone ⊢
  omega

/-- A character is a lone unit or a pair. -/
theorem encodeChar_cases (char : Char) :
    (∃ unit, encodeChar char = [unit] ∧ isSurrogate unit = false ∧ single unit = char) ∨
      ∃ high low, encodeChar char = [high, low] ∧ isHigh high = true ∧ isLow low = true ∧
        pair high low = char := by
  have valid := valid_char char
  by_cases small : char.toNat < 0x10000
  · left
    have unit := toNat_unit small
    have lone : isSurrogate (UInt16.ofNat char.toNat) = false := by
      simp only [isSurrogate, unit, Bool.and_eq_false_iff, decide_eq_false_iff_not]
      omega
    refine ⟨_, by rw [encodeChar, if_pos small], lone, ?_⟩
    rw [single, lone, unit]
    simp
  · right
    have high := toNat_unit (by omega : 0xD800 + (char.toNat - 0x10000) / 0x400 < 0x10000)
    have low := toNat_unit (by omega : 0xDC00 + (char.toNat - 0x10000) % 0x400 < 0x10000)
    have code : 0x10000 + (0xD800 + (char.toNat - 0x10000) / 0x400 - 0xD800) * 0x400 +
        (0xDC00 + (char.toNat - 0x10000) % 0x400 - 0xDC00) = char.toNat := by
      omega
    refine ⟨_, _, by rw [encodeChar, if_neg small], ?_, ?_, ?_⟩
    · simp only [isHigh, high, Bool.and_eq_true, decide_eq_true_eq]
      omega
    · simp only [isLow, low, Bool.and_eq_true, decide_eq_true_eq]
      omega
    · rw [pair, high, low, code, Char.ofNat_toNat]

/-! ## Encoding what was decoded -/

theorem encodeChar_single {unit : UInt16} (lone : isSurrogate unit = false) :
    encodeChar (single unit) = [unit] := by
  have small := unit.toNat_lt
  simp only [isSurrogate, Bool.and_eq_false_iff, decide_eq_false_iff_not] at lone
  have code : (single unit).toNat = unit.toNat := by
    rw [single, if_neg]
    · apply toNat_char
      simp only [Nat.isValidChar]
      omega
    · simp only [isSurrogate, Bool.and_eq_true, decide_eq_true_eq]
      omega
  rw [encodeChar, code, if_pos small, UInt16.ofNat_toNat]

theorem encodeChar_pair {high low : UInt16} (opens : isHigh high = true) (closes : isLow low = true) :
    encodeChar (pair high low) = [high, low] := by
  simp only [isHigh, Bool.and_eq_true, decide_eq_true_eq] at opens
  simp only [isLow, Bool.and_eq_true, decide_eq_true_eq] at closes
  have code : (pair high low).toNat =
      0x10000 + (high.toNat - 0xD800) * 0x400 + (low.toNat - 0xDC00) := by
    apply toNat_char
    simp only [Nat.isValidChar]
    omega
  have first : 0xD800 + (0x10000 + (high.toNat - 0xD800) * 0x400 + (low.toNat - 0xDC00) - 0x10000) /
      0x400 = high.toNat := by
    omega
  have second : 0xDC00 + (0x10000 + (high.toNat - 0xD800) * 0x400 + (low.toNat - 0xDC00) - 0x10000) %
      0x400 = low.toNat := by
    omega
  rw [encodeChar, code, if_neg (by omega), first, second, UInt16.ofNat_toNat, UInt16.ofNat_toNat]

theorem encode_decode {units : List UInt16} (sound : paired units = true) :
    encode (decode units) = units := by
  fun_induction decode units with
  | case1 => rfl
  | case2 unit =>
      have lone : isSurrogate unit = false := by simpa [paired] using sound
      rw [encode_cons, encodeChar_single lone]
      rfl
  | case3 high low rest opens ih =>
      rw [paired, if_pos opens] at sound
      have both := (Bool.and_eq_true _ _).mp opens
      rw [encode_cons, encodeChar_pair both.1 both.2, ih sound]
      rfl
  | case4 high low rest closed ih =>
      rw [paired, if_neg closed] at sound
      have parts := (Bool.and_eq_true _ _).mp sound
      have lone : isSurrogate high = false := by simpa using parts.1
      rw [encode_cons, encodeChar_single lone, ih parts.2]
      rfl

/-- Encoded text has no surrogate outside a pair. -/
theorem paired_encode (text : List Char) : paired (encode text) = true := by
  induction text with
  | nil => rfl
  | cons char text ih =>
      rw [encode_cons]
      rcases encodeChar_cases char with
        ⟨unit, shape, lone, same⟩ | ⟨high, low, shape, opens, closes, same⟩
      · rw [shape, List.singleton_append]
        cases rest : encode text with
        | nil => simp [paired, lone]
        | cons next others =>
            rw [rest] at ih
            simp [paired, lone, isHigh_of_lone lone, ih]
      · rw [shape, List.cons_append, List.singleton_append]
        simp [paired, opens, closes, ih]

/-- Decoding loses nothing exactly when every surrogate is part of a pair. -/
theorem encode_decode_iff (units : List UInt16) :
    encode (decode units) = units ↔ paired units = true := by
  constructor
  · intro same
    rw [← same]
    exact paired_encode _
  · exact encode_decode

/-! ## Zero units -/

/-- Decoding makes no zero character of units that are not zero. -/
theorem zero_mem_of_decode {units : List UInt16} {char : Char} (member : char ∈ decode units)
    (zero : char.toNat = 0) : 0 ∈ units := by
  have single_zero {unit : UInt16} (null : (single unit).toNat = 0) : unit = 0 := by
    cases lone : isSurrogate unit with
    | true =>
        rw [single, if_pos lone, toNat_char (.inr (by omega))] at null
        cases null
    | false =>
        have kept := encodeChar_single lone
        rw [encodeChar, null] at kept
        simpa using kept.symm
  fun_induction decode units with
  | case1 => cases member
  | case2 unit =>
      rw [List.mem_singleton] at member
      rw [member] at zero
      simp [single_zero zero]
  | case3 high low rest opens ih =>
      have both := (Bool.and_eq_true _ _).mp opens
      rcases List.mem_cons.mp member with first | later
      · have kept := encodeChar_pair both.1 both.2
        rw [← first, encodeChar, zero] at kept
        simp at kept
      · exact List.mem_cons_of_mem _ (List.mem_cons_of_mem _ (ih later))
  | case4 high low rest closed ih =>
      rcases List.mem_cons.mp member with first | later
      · rw [first] at zero
        simp [single_zero zero]
      · exact List.mem_cons_of_mem _ (ih later)

theorem zero_mem_of_encode {text : List Char} (zero : 0 ∈ encode text) :
    ∃ char ∈ text, char.toNat = 0 := by
  obtain ⟨char, member, found⟩ := List.mem_flatMap.mp zero
  refine ⟨char, member, ?_⟩
  rcases encodeChar_cases char with ⟨unit, shape, lone, same⟩ | ⟨high, low, shape, opens, closes, _⟩
  · rw [shape, List.mem_singleton] at found
    rw [← same, ← found]
    decide
  · rw [shape] at found
    simp only [List.mem_cons, List.not_mem_nil, or_false] at found
    rcases found with rfl | rfl
    · exact absurd opens (by decide)
    · exact absurd closes (by decide)

end Utf16
