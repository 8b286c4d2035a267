import Mathlib.Data.Char

/-!
# UTF-8

The bytes of a text, as Lean's own strings encode it.
-/

set_option autoImplicit false

namespace Utf8

def encode (text : List Char) : List UInt8 := text.flatMap String.utf8EncodeChar

/-- Different texts have different bytes. -/
theorem encode_injective : Function.Injective encode := by
  intro left right same
  have arrays : left.utf8Encode = right.utf8Encode := congrArg List.toByteArray same
  have decoded := congrArg ByteArray.utf8Decode? arrays
  rw [List.utf8Decode?_utf8Encode, List.utf8Decode?_utf8Encode] at decoded
  simpa using decoded

/-- A zero byte is the zero character. -/
theorem zero_mem_encodeChar {char : Char} (zero : 0 ∈ String.utf8EncodeChar char) :
    char.toNat = 0 := by
  have valid : char.toNat < 0x110000 := by
    have := char.valid
    simp only [UInt32.isValidChar, Nat.isValidChar] at this
    simp only [Char.toNat]
    omega
  have unit {n : Nat} (null : 0 = UInt8.ofNat n) : n % 256 = 0 := by
    rw [← UInt8.toNat_ofNat', ← null]
    rfl
  simp only [Char.toNat] at valid ⊢
  simp only [String.utf8EncodeChar] at zero
  split at zero
  · have := unit (List.mem_singleton.mp zero)
    omega
  · split at zero
    · simp only [List.mem_cons, List.not_mem_nil, or_false] at zero
      rcases zero with byte | byte <;> exact absurd (unit byte) (by omega)
    · split at zero
      · simp only [List.mem_cons, List.not_mem_nil, or_false] at zero
        rcases zero with byte | byte | byte <;> exact absurd (unit byte) (by omega)
      · simp only [List.mem_cons, List.not_mem_nil, or_false] at zero
        rcases zero with byte | byte | byte | byte <;> exact absurd (unit byte) (by omega)

theorem zero_mem_encode {text : List Char} (zero : 0 ∈ encode text) :
    ∃ char ∈ text, char.toNat = 0 := by
  obtain ⟨char, member, found⟩ := List.mem_flatMap.mp zero
  exact ⟨char, member, zero_mem_encodeChar found⟩

end Utf8
