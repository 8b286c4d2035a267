import ModSecurityIIS.RequestDescription

/-!
# The peer of a connection

The address and the port that the engine is told of an IPv4 peer, over a plain socket or over
a dual-stack one.
-/

set_option autoImplicit false

namespace ModSecurityIIS

/-! ## The text of four octets -/

theorem isDigit_of_mem_decimal {n : Nat} {byte : UInt8} (found : byte ∈ decimal n) :
    isDigit byte = true := by
  have digits : decimal n = (Nat.toDigits 10 n).map fun char => char.toNat.toUInt8 := by
    rw [decimal, bytesOf, Nat.toString_eq_repr, Nat.toList_repr]
  rw [digits] at found
  obtain ⟨char, inDigits, rfl⟩ := List.mem_map.mp found
  have digit := Nat.isDigit_of_mem_toDigits (by decide) (by decide) inDigits
  have lower : 48 ≤ char.toNat := by
    have least : char.val ≥ '0'.val := by simp only [Char.isDigit] at digit; grind
    exact UInt32.le_iff_toNat_le.mp least
  have upper : char.toNat ≤ 57 := by
    have most : char.val ≤ '9'.val := by simp only [Char.isDigit] at digit; grind
    exact UInt32.le_iff_toNat_le.mp most
  have same : char.toNat.toUInt8.toNat = char.toNat := by
    rw [Nat.toUInt8, UInt8.toNat_ofNat']
    omega
  simp only [isDigit, Bool.and_eq_true, decide_eq_true_eq, UInt8.le_iff_toNat_le, same]
  exact ⟨lower, upper⟩

theorem dot_not_mem_decimal (n : Nat) : 46 ∉ decimal n := by
  intro found
  have digit := isDigit_of_mem_decimal found
  exact absurd digit (by decide)

theorem mem_dottedQuad {octets : List UInt8} {byte : UInt8} (found : byte ∈ dottedQuad octets) :
    isDigit byte = true ∨ byte = 46 := by
  unfold dottedQuad at found
  induction octets with
  | nil => simp at found
  | cons octet rest ih =>
      cases rest with
      | nil =>
          left
          exact isDigit_of_mem_decimal (by simpa using found)
      | cons next rest =>
          simp only [List.map_cons, List.intercalate_cons_cons, List.mem_append,
            List.mem_singleton] at found ih
          rcases found with (inFirst | dot) | later
          · exact .inl (isDigit_of_mem_decimal inFirst)
          · exact .inr dot
          · exact ih later

theorem colon_not_mem_dottedQuad (octets : List UInt8) : 58 ∉ dottedQuad octets := by
  intro found
  rcases mem_dottedQuad found with digit | dot
  · exact absurd digit (by decide)
  · exact absurd dot (by decide)

/-- The text has no NUL, so that the engine's C string is the whole of it. -/
theorem cStr_dottedQuad (octets : List UInt8) : cStr (dottedQuad octets) = dottedQuad octets := by
  refine List.takeWhile_eq_self_iff.mpr fun byte found => ?_
  rcases mem_dottedQuad found with digit | rfl
  · simp only [ne_eq, decide_not, Bool.not_eq_true', decide_eq_false_iff_not]
    rintro rfl
    exact absurd digit (by decide)
  · decide

theorem splitOn_dottedQuad {octets : List UInt8} (nonempty : octets ≠ []) :
    (dottedQuad octets).splitOn 46 = octets.map fun octet => decimal octet.toNat := by
  refine List.splitOn_intercalate 46 ?_ (by simpa using nonempty)
  intro part isPart
  obtain ⟨octet, -, rfl⟩ := List.mem_map.mp isPart
  exact dot_not_mem_decimal octet.toNat

theorem dottedQuad_injective {octets others : List UInt8} (nonempty : octets ≠ [])
    (otherNonempty : others ≠ []) (same : dottedQuad octets = dottedQuad others) :
    octets = others := by
  have lists : (octets.map fun octet => decimal octet.toNat) =
      others.map fun octet => decimal octet.toNat := by
    rw [← splitOn_dottedQuad nonempty, ← splitOn_dottedQuad otherNonempty, same]
  refine List.map_injective_iff.mpr ?_ lists
  intro octet other alike
  exact UInt8.toNat_inj.mp (decimal_injective alike)

theorem dottedQuad_ne_nil {octets : List UInt8} (four : octets.length = 4) :
    dottedQuad octets ≠ [] := by
  intro empty
  have parts := splitOn_dottedQuad (List.ne_nil_of_length_pos (by omega : 0 < octets.length))
  have count := congrArg List.length parts
  rw [empty, List.length_map, four] at count
  exact absurd count (by decide)

theorem ntohs_injective {port other : UInt16} (same : ntohs port = ntohs other) : port = other := by
  have := port.toNat_lt
  have := other.toNat_lt
  unfold ntohs at same
  exact UInt16.toNat_inj.mp (by omega)

/-! ## Peers -/

/-- The addresses have the sizes of `SOCKADDR_IN` and `SOCKADDR_IN6`. -/
def SockAddr.Sized : SockAddr → Prop
  | .inet address _ => address.length = 4
  | .inet6 address _ => address.length = 16
  | .other _ => True

/-- `::ffff:a.b.c.d`. -/
def v4Mapped (octets : List UInt8) : List UInt8 :=
  [0, 0, 0, 0, 0, 0, 0, 0, 0, 0, 255, 255] ++ octets

/-- An IPv4 peer, seen by a socket of its own family or by a dual-stack one. -/
def SockAddr.IsV4 (peer : SockAddr) (octets : List UInt8) (port : UInt16) : Prop :=
  peer = .inet octets port ∨ peer = .inet6 (v4Mapped octets) port

/-- `GetNameInfoA` with `NI_NUMERICHOST`: an IPv4 address is its four numbers, the text of an
IPv6 address has a colon, and it knows no other family. -/
structure NumericHost (env : Env) : Prop where
  inet (octets : List UInt8) (port : UInt16) (four : octets.length = 4) :
    env.getNameInfo (.inet octets port) = some (dottedQuad octets)
  inet6 (address : List UInt8) (port : UInt16) (text : Bytes) (sixteen : address.length = 16)
    (answer : env.getNameInfo (.inet6 address port) = some text) : 58 ∈ cStr text
  other (family : Nat) : env.getNameInfo (.other family) = none

theorem isV4Mapped_iff {address : List UInt8} :
    isV4Mapped address = true ↔ address = v4Mapped (address.drop 12) := by
  rw [isV4Mapped, beq_iff_eq, v4Mapped]
  constructor
  · intro front
    rw [← front]
    exact (List.take_append_drop 12 address).symm
  · intro shape
    rw [shape]
    rfl

section Peer

variable {env : Env} {peer : SockAddr} {octets : List UInt8} {port : UInt16}

theorem sockAddrToIp_v4 (numeric : NumericHost env) (four : octets.length = 4)
    (v4 : peer.IsV4 octets port) : sockAddrToIp env (some peer) = dottedQuad octets := by
  rcases v4 with rfl | rfl
  · rw [sockAddrToIp, numeric.inet octets port four]
    · rfl
    · nofun
  · have mapped : isV4Mapped (v4Mapped octets) = true := isV4Mapped_iff.mpr rfl
    rw [sockAddrToIp, if_pos mapped]
    exact congrArg dottedQuad (List.take_of_length_le four.le)

theorem sockAddrToPort_v4 (v4 : peer.IsV4 octets port) :
    sockAddrToPort (some peer) = ntohs port := by
  rcases v4 with rfl | rfl <;> rfl

/-- No peer but an IPv4 one has the text of four octets. -/
theorem v4_of_text (numeric : NumericHost env) (sized : peer.Sized) (four : octets.length = 4)
    (text : cStr (sockAddrToIp env (some peer)) = dottedQuad octets)
    (ports : sockAddrToPort (some peer) = ntohs port) : peer.IsV4 octets port := by
  have nonempty : octets ≠ [] := List.ne_nil_of_length_pos (by omega)
  cases peer with
  | inet address peerPort =>
      rw [sockAddrToIp_v4 numeric sized (.inl rfl), cStr_dottedQuad] at text
      have address := dottedQuad_injective
        (List.ne_nil_of_length_pos (by simp only [SockAddr.Sized] at sized; omega)) nonempty text
      rw [address, ntohs_injective ports]
      exact .inl rfl
  | inet6 address peerPort =>
      simp only [SockAddr.Sized] at sized
      by_cases mapped : isV4Mapped address = true
      · have shape := isV4Mapped_iff.mp mapped
        have rest : (address.drop 12).length = 4 := by
          rw [List.length_drop]
          omega
        rw [sockAddrToIp_v4 numeric rest (.inr (congrArg (SockAddr.inet6 · peerPort) shape)),
          cStr_dottedQuad] at text
        have last := dottedQuad_injective (List.ne_nil_of_length_pos (by omega)) nonempty text
        rw [shape, last, ntohs_injective ports]
        exact .inr rfl
      · rw [sockAddrToIp, if_neg mapped] at text
        cases answer : env.getNameInfo (.inet6 address peerPort) with
        | none =>
            rw [answer] at text
            exact absurd text.symm (dottedQuad_ne_nil four)
        | some host =>
            rw [answer] at text
            have colon := numeric.inet6 address peerPort host sized answer
            rw [Option.getD_some] at text
            rw [text] at colon
            exact absurd colon (colon_not_mem_dottedQuad octets)
  | other family =>
      rw [sockAddrToIp, numeric.other family] at text
      · exact absurd text.symm (dottedQuad_ne_nil four)
      · nofun

/-- The engine is told an IPv4 address and a port exactly of the peer that has them, whichever
family the socket came in over. -/
theorem connection_tells_v4 {context : HttpContext} (numeric : NumericHost env)
    (remote : context.remoteAddress = some peer) (sized : peer.Sized)
    (four : octets.length = 4) :
    (∃ server serverPort,
        connectionCall env context =
          .processConnection (dottedQuad octets) (ntohs port) server serverPort) ↔
      peer.IsV4 octets port := by
  rw [connectionCall, remote]
  constructor
  · rintro ⟨server, serverPort, same⟩
    injection same with text ports
    exact v4_of_text numeric sized four text ports
  · intro v4
    refine ⟨cStr (sockAddrToIp env context.localAddress), sockAddrToPort context.localAddress, ?_⟩
    rw [sockAddrToIp_v4 numeric four v4, sockAddrToPort_v4 v4, cStr_dottedQuad]

end Peer

/-! ## A dual-stack listener -/

/-- The loopback address apart, the host has no IPv6 address. -/
def Env.numeric : Env :=
  { Env.calm with
    getNameInfo := fun
      | .inet octets _ => some (dottedQuad octets)
      | .inet6 address _ =>
          if address = [0, 0, 0, 0, 0, 0, 0, 0, 0, 0, 0, 0, 0, 0, 0, 1] then some (bytesOf "::1")
          else none
      | .other _ => none }

theorem numericHost_numeric : NumericHost Env.numeric where
  inet _ _ _ := rfl
  inet6 address port text _ answer := by
    by_cases loopback : address = [0, 0, 0, 0, 0, 0, 0, 0, 0, 0, 0, 0, 0, 0, 0, 1]
    · simp only [Env.numeric, if_pos loopback, Option.some.injEq] at answer
      rw [← answer]
      decide
    · simp only [Env.numeric, if_neg loopback, reduceCtorEq] at answer
  other _ := rfl

/-- From port 443 of 10.0.0.1 over a socket of the other family. -/
def HttpContext.dualStack : HttpContext :=
  { HttpContext.plain with remoteAddress := some (.inet6 (v4Mapped [10, 0, 0, 1]) 47873) }

theorem connection_tells_v4_dualStack :
    ∃ server serverPort,
      connectionCall Env.numeric HttpContext.dualStack =
        .processConnection (dottedQuad [10, 0, 0, 1]) (ntohs 47873) server serverPort := by
  have sized : SockAddr.Sized (.inet6 (v4Mapped [10, 0, 0, 1]) 47873) := rfl
  exact (connection_tells_v4 numericHost_numeric rfl sized rfl).mpr (.inr rfl)

end ModSecurityIIS
