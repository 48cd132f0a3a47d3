import NatClient.CString

/-!
The pjnath data that both programs exchange: socket addresses, ICE candidates
and the remote description of `rem_info`. A zeroed address has no family. The
candidate fields that no description carries stay zero and are left out.
-/

namespace NatClient.IceTypes

open CString

abbrev pjIceStMaxCand : Nat := 8
abbrev pjIceMaxComp : Nat := 4
def pjInet6Addrstrlen : Nat := 46

inductive Family where
  | inet
  | inet6
  deriving DecidableEq

inductive IpAddr where
  | inet (bits : BitVec 32)
  | inet6 (bits : BitVec 128)
  deriving DecidableEq

def IpAddr.family : IpAddr → Family
  | .inet _ => .inet
  | .inet6 _ => .inet6

structure PjSockaddr where
  ip : IpAddr
  port : BitVec 16
  deriving DecidableEq

inductive IceCandType where
  | host
  | srflx
  | prflx
  | relayed
  deriving DecidableEq

def pjIceGetCandTypeName : IceCandType → CStr
  | .host => "host".toList
  | .srflx => "srflx".toList
  | .prflx => "prflx".toList
  | .relayed => "relay".toList

structure IceSessCand where
  type : IceCandType
  compId : BitVec 8
  foundation : CStr
  prio : BitVec 32
  addr : Option PjSockaddr
  deriving DecidableEq

def IceSessCand.zero : IceSessCand := ⟨.host, 0, [], 0, none⟩

structure RemInfo where
  ufrag : CharArray 80
  pwd : CharArray 80
  compCnt : Nat
  defAddr : Vector (Option PjSockaddr) pjIceMaxComp
  candCnt : Nat
  cand : Vector IceSessCand pjIceStMaxCand
  deriving DecidableEq

def resetRemInfo : RemInfo where
  ufrag := .empty
  pwd := .empty
  compCnt := 0
  defAddr := Vector.replicate pjIceMaxComp none
  candCnt := 0
  cand := Vector.replicate pjIceStMaxCand .zero

def RemInfo.cands (rem : RemInfo) : List IceSessCand := rem.cand.toList.take rem.candCnt

/-! Address text. Printing and reading an address are the library's; a name
that is not numeric may be resolved through the network. -/
section Addresses

structure SockaddrLib where
  print : IpAddr → CStr
  setStrAddr : Family → CStr → Option IpAddr

def familyOf (text : CStr) : Family := if ':' ∈ text then .inet6 else .inet

/-- `pj_sockaddr_init` and `pj_sockaddr_set_str_addr`, as every caller combines
them; the port is set afterwards. -/
def readAddr (lib : SockaddrLib) (text : CStr) : Option IpAddr :=
  lib.setStrAddr (familyOf text) text

def pjSockaddrPrint (lib : SockaddrLib) : Option PjSockaddr → CStr
  | none => []
  | some addr => lib.print addr.ip

/-- `pj_sockaddr_get_port`; the value for an address without family is the one
its assertion returns. -/
def pjSockaddrGetPort : Option PjSockaddr → Nat
  | none => 0xFFFF
  | some addr => addr.port.toNat

def addrChar (c : Char) : Bool :=
  c.isDigit || (65 ≤ c.toNat && c.toNat ≤ 90) ||
    (97 ≤ c.toNat && c.toNat ≤ 122) || c = '.' || c = ':'

/-- What the programs rely on: numeric text of bounded length that is read back
in the family its colon announces. -/
structure SockaddrLib.Numeric (lib : SockaddrLib) : Prop where
  family : ∀ ip, familyOf (lib.print ip) = ip.family
  inverse : ∀ ip, lib.setStrAddr ip.family (lib.print ip) = some ip
  chars : ∀ ip, ∀ c ∈ lib.print ip, addrChar c = true
  nonempty : ∀ ip, lib.print ip ≠ []
  short : ∀ ip, (lib.print ip).length < pjInet6Addrstrlen

theorem SockaddrLib.Numeric.readAddr_print {lib : SockaddrLib} (numeric : lib.Numeric)
    (ip : IpAddr) : readAddr lib (lib.print ip) = some ip := by
  rw [readAddr, numeric.family, numeric.inverse]

end Addresses

/-! A library that meets the contract: dotted quads for IPv4, and for IPv6 the
low part after `::`, which is the usual text of the addresses 1 to 9. -/
section DottedQuad

def dottedQuad (value : Nat) : CStr :=
  decimal (value / 2 ^ 24) ++ '.' :: (decimal (value / 2 ^ 16 % 256) ++ '.' ::
    (decimal (value / 2 ^ 8 % 256) ++ '.' :: decimal (value % 256)))

def readQuad (text : CStr) : Option IpAddr :=
  match text.splitOnP (· = '.') with
  | [a, b, c, d] =>
      let value := Nat.ofDigitChars 10
      some (.inet (BitVec.ofNat 32
        (((value a 0 * 256 + value b 0) * 256 + value c 0) * 256 + value d 0)))
  | _ => none

def dottedLib : SockaddrLib where
  print
    | .inet bits => dottedQuad bits.toNat
    | .inet6 bits => ':' :: ':' :: decimal bits.toNat
  setStrAddr
    | .inet, text => readQuad text
    | .inet6, text => some (.inet6 (BitVec.ofNat 128 (Nat.ofDigitChars 10 (text.drop 2) 0)))

theorem decimal_length_lt (value digits : Nat) (positive : 0 < digits)
    (bound : value < 10 ^ digits) : (decimal value).length ≤ digits :=
  (Nat.length_toDigits_le_iff (by decide) positive).mpr bound

theorem digit_not_dot {value : Nat} : ∀ c ∈ decimal value, decide (c = '.') = false := by
  intro c member
  have digit := decimal_digit value c member
  simp only [decide_eq_false_iff_not]
  rintro rfl
  exact absurd digit (by decide)

theorem readQuad_dotted (bits : BitVec 32) :
    readQuad (dottedQuad bits.toNat) = some (.inet bits) := by
  have fields : (dottedQuad bits.toNat).splitOnP (· = '.') =
      [decimal (bits.toNat / 2 ^ 24), decimal (bits.toNat / 2 ^ 16 % 256),
        decimal (bits.toNat / 2 ^ 8 % 256), decimal (bits.toNat % 256)] := by
    rw [dottedQuad, List.splitOnP_append_cons_of_forall_mem digit_not_dot _ (by decide),
      List.splitOnP_append_cons_of_forall_mem digit_not_dot _ (by decide),
      List.splitOnP_append_cons_of_forall_mem digit_not_dot _ (by decide),
      List.splitOnP_eq_singleton digit_not_dot]
  have joined : (((bits.toNat / 2 ^ 24 * 256 + bits.toNat / 2 ^ 16 % 256) * 256 +
      bits.toNat / 2 ^ 8 % 256) * 256 + bits.toNat % 256) = bits.toNat := by omega
  simp only [readQuad, fields, decimal_value, joined, BitVec.ofNat_toNat, BitVec.setWidth_eq]

theorem dottedQuad_char (value : Nat) : ∀ c ∈ dottedQuad value, c.isDigit = true ∨ c = '.' := by
  intro c member
  simp only [dottedQuad, List.mem_append, List.mem_cons] at member
  rcases member with part | dot | part | dot | part | dot | part
  all_goals first | exact Or.inr dot | exact Or.inl (decimal_digit _ c part)

theorem dottedLib_numeric : dottedLib.Numeric := by
  constructor
  · intro ip
    cases ip with
    | inet bits =>
        have noColon : ':' ∉ dottedQuad bits.toNat := by
          intro member
          have := dottedQuad_char _ _ member
          exact absurd this (by decide)
        simp [familyOf, dottedLib, noColon, IpAddr.family]
    | inet6 bits => simp [familyOf, dottedLib, IpAddr.family]
  · intro ip
    cases ip with
    | inet bits => exact readQuad_dotted bits
    | inet6 bits => simp [dottedLib, IpAddr.family, decimal_value]
  · intro ip c member
    cases ip with
    | inet bits =>
        rcases dottedQuad_char _ c member with digit | dot
        · simp [addrChar, digit]
        · simp [addrChar, dot]
    | inet6 bits =>
        simp only [dottedLib, List.mem_cons] at member
        rcases member with colon | colon | part
        · simp [addrChar, colon]
        · simp [addrChar, colon]
        · simp [addrChar, decimal_digit _ c part]
  · intro ip
    cases ip <;> simp [dottedLib, dottedQuad]
  · intro ip
    cases ip with
    | inet bits =>
        have small := bits.isLt
        have first := decimal_length_lt (bits.toNat / 2 ^ 24) 3 (by decide) (by omega)
        have second := decimal_length_lt (bits.toNat / 2 ^ 16 % 256) 3 (by decide) (by omega)
        have third := decimal_length_lt (bits.toNat / 2 ^ 8 % 256) 3 (by decide) (by omega)
        have fourth := decimal_length_lt (bits.toNat % 256) 3 (by decide) (by omega)
        simp only [dottedLib, dottedQuad, List.length_append, List.length_cons, pjInet6Addrstrlen]
        omega
    | inet6 bits =>
        have small := bits.isLt
        have whole := decimal_length_lt bits.toNat 39 (by decide) (by omega)
        simp only [dottedLib, List.length_cons, pjInet6Addrstrlen]
        omega

end DottedQuad

end NatClient.IceTypes
