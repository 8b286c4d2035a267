import ModSecurityIIS.BodyRead

/-!
# The declared length

Which values of Content-Length `GetEntityBodyInfo` reads exactly, and what follows for
the declared-length stop of `ConsumeBodyChunk`: the value is cut to the parse buffer
before it is parsed.
-/

set_option autoImplicit false

namespace ModSecurityIIS

/-- The whole value is a string of decimal digits for `n`, which is positive and fits
64 bits. -/
structure Declares (value : Bytes) (n : Nat) : Prop where
  nonempty : value ≠ []
  digits : ∀ byte ∈ value, isDigit byte = true
  value : digitsValue value = n
  positive : 1 ≤ n
  fits : n ≤ 2 ^ 64 - 1

theorem declares_iff {value : Bytes} {n : Nat} :
    Declares value n ↔ wholeNumber value = some n := by
  rw [wholeNumber_eq_some_iff]
  constructor
  · rintro ⟨nonempty, digits, same, positive, fits⟩
    exact ⟨nonempty, digits, same, positive, by omega⟩
  · rintro ⟨nonempty, digits, same, positive, fits⟩
    exact ⟨nonempty, digits, same, positive, by omega⟩

/-- The header is read exactly: its length is reported when it is one, no body when it
is none, and a read that knows this length does not stop before it is reached. -/
structure ReadsExactly (req : HttpRequest) (value : Bytes) : Prop where
  reported : ∀ n,
    getEntityBodyInfo (some req) = { hasBody := true, length := n } ↔ Declares value n
  absent : (∀ n, ¬ Declares value n) →
    getEntityBodyInfo (some req) = { hasBody := false, length := 0 }
  stops : ∀ n, Declares value n → ∀ env rsc read hr,
    rsc.declaredBodyLength = (getEntityBodyInfo (some req)).length →
      stopReason env rsc read hr = some .declaredLengthReached → n ≤ rsc.body.length

/-! ## The value of a longer text -/

theorem le_digits_foldl (start : Nat) (digits : Bytes) :
    start ≤ digits.foldl (fun value byte => 10 * value + digitValue byte) start := by
  induction digits generalizing start with
  | nil => exact Nat.le_refl _
  | cons byte rest ih =>
      have grown := ih (10 * start + digitValue byte)
      rw [List.foldl_cons]
      omega

theorem digitsValue_append_ge (front : Bytes) (byte : UInt8) (rest : Bytes) :
    10 * digitsValue front ≤ digitsValue (front ++ byte :: rest) := by
  have grown := le_digits_foldl (10 * digitsValue front + digitValue byte) rest
  have longer : digitsValue (front ++ byte :: rest) =
      rest.foldl (fun value byte => 10 * value + digitValue byte)
        (10 * digitsValue front + digitValue byte) := by
    rw [digitsValue, List.foldl_append, List.foldl_cons]
    rfl
  rw [longer]
  exact Nat.le_trans (Nat.le_add_right _ _) grown

/-- A number is not denoted by a text and by a proper prefix of it. -/
theorem Declares.take_differs {value : Bytes} {n kept : Nat} (whole : Declares value n)
    (cut : Declares (value.take kept) n) : value.length ≤ kept := by
  by_contra longer
  obtain ⟨byte, rest, shape⟩ := List.exists_cons_of_ne_nil
    (l := value.drop kept) (by simpa using Nat.not_le.mp longer)
  have grown := digitsValue_append_ge (value.take kept) byte rest
  rw [← shape, List.take_append_drop, whole.value, cut.value] at grown
  have positive := whole.positive
  omega

/-! ## What the header is read as -/

theorem stopReason_declared {env : Env} {rsc : RequestStoredContext} {read : Nat} {hr : HResult}
    (stopped : stopReason env rsc read hr = some .declaredLengthReached) :
    rsc.declaredBodyLength ≤ rsc.body.length := by
  unfold stopReason at stopped
  split at stopped
  · cases stopped
  · split at stopped
    · cases stopped
    · split at stopped
      · next reached => exact reached.2
      · split at stopped <;> cases stopped

section Header

variable {req : HttpRequest} {value : Bytes}

/-- The value counts as the number its first 31 bytes are. -/
theorem getEntityBodyInfo_declared (received : req.moreEntityBodyExists = false)
    (header : req.headers.known .contentLength = some value) :
    getEntityBodyInfo (some req) =
      match wholeNumber (value.take 31) with
      | some n => { hasBody := true, length := n }
      | none => { hasBody := false, length := 0 } := by
  simp only [getEntityBodyInfo, received, header, Bool.false_eq_true, ↓reduceIte]
  by_cases empty : value.length = 0
  · have none : value.take 31 = [] := by rw [List.length_eq_zero_iff.mp empty, List.take_nil]
    rw [if_pos empty, none]
    rfl
  · exact if_neg empty

theorem reports_iff (received : req.moreEntityBodyExists = false)
    (header : req.headers.known .contentLength = some value) (n : Nat) :
    getEntityBodyInfo (some req) = { hasBody := true, length := n } ↔
      Declares (value.take 31) n := by
  rw [getEntityBodyInfo_declared received header, declares_iff]
  cases wholeNumber (value.take 31) with
  | none => simp
  | some m => simp

theorem reports_absent (received : req.moreEntityBodyExists = false)
    (header : req.headers.known .contentLength = some value)
    (undeclared : ∀ n, ¬ Declares (value.take 31) n) :
    getEntityBodyInfo (some req) = { hasBody := false, length := 0 } := by
  rw [getEntityBodyInfo_declared received header]
  cases parsed : wholeNumber (value.take 31) with
  | none => rfl
  | some n => exact absurd (declares_iff.mpr parsed) (undeclared n)

theorem ReadsExactly.of_same (received : req.moreEntityBodyExists = false)
    (header : req.headers.known .contentLength = some value)
    (same : ∀ n, Declares (value.take 31) n ↔ Declares value n) : ReadsExactly req value where
  reported n := (reports_iff received header n).trans (same n)
  absent undeclared :=
    reports_absent received header fun n declared => undeclared n ((same n).mp declared)
  stops := by
    intro n declared env rsc read hr known stopped
    have reported := (reports_iff received header n).mpr ((same n).mpr declared)
    rw [reported] at known
    have reached := stopReason_declared stopped
    rwa [known] at reached

/-- Content-Length is read exactly when it fits the parse buffer, or when neither it nor
what is left of it there is a length. -/
theorem contentLength_exact_iff (received : req.moreEntityBodyExists = false)
    (header : req.headers.known .contentLength = some value) :
    ReadsExactly req value ↔
      value.length ≤ 31 ∨ ∀ n, ¬ Declares value n ∧ ¬ Declares (value.take 31) n := by
  constructor
  · intro exact_
    have same (n : Nat) : Declares (value.take 31) n ↔ Declares value n :=
      (reports_iff received header n).symm.trans (exact_.reported n)
    by_cases short : value.length ≤ 31
    · exact .inl short
    · refine .inr fun n => ⟨?_, ?_⟩
      · intro whole
        exact short (whole.take_differs ((same n).mpr whole))
      · intro cut
        exact short (((same n).mp cut).take_differs cut)
  · intro condition
    apply ReadsExactly.of_same received header
    intro n
    rcases condition with short | neither
    · rw [List.take_of_length_le short]
    · exact ⟨fun cut => absurd cut (neither n).2, fun whole => absurd whole (neither n).1⟩

end Header

def HttpRequest.declaring (value : Bytes) : HttpRequest where
  verb := .post
  unknownVerb := none
  rawUrl := some [47]
  absPath := { units := none, byteLength := 0 }
  queryString := { units := none, byteLength := 0 }
  version := { majorVersion := 1, minorVersion := 1 }
  headers := { known := Function.update (fun _ => none) .contentLength (some value), unknown := [] }
  moreEntityBodyExists := false

theorem contentLength_exact_iff_zeros :
    ReadsExactly (.declaring (bytesOf "007")) (bytesOf "007") ↔
      (bytesOf "007").length ≤ 31 ∨
        ∀ n, ¬ Declares (bytesOf "007") n ∧ ¬ Declares ((bytesOf "007").take 31) n :=
  contentLength_exact_iff rfl rfl

/-- The number ten, written with 32 digits. -/
def paddedTen : Bytes := List.replicate 30 48 ++ [49, 48]

/-- It is taken for one: the last digit is cut. -/
theorem paddedTen_misread :
    Declares paddedTen 10 ∧
      getEntityBodyInfo (some (.declaring paddedTen)) = { hasBody := true, length := 1 } ∧
      ¬ ReadsExactly (.declaring paddedTen) paddedTen := by
  have ten : Declares paddedTen 10 := declares_iff.mpr (by decide)
  have one : getEntityBodyInfo (some (.declaring paddedTen)) = { hasBody := true, length := 1 } := by
    decide
  refine ⟨ten, one, ?_⟩
  intro exact_
  have read := (exact_.reported 10).mpr ten
  rw [one] at read
  cases read

end ModSecurityIIS
