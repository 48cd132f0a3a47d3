import NatClient.XmlEncoder
import NatClient.DescriptionVerdict

/-!
The text of the XML encoder as a document, and what the decoder makes of it. The
encoder prints a plain document, so every lookup can be followed in its tree: a
field of a candidate lies inside the element the lookup starts from, although
the search would go on into the siblings after it.
-/

namespace NatClient.DescriptionRoundTrip

open CString XmlForest XmlNode Xml2Wrapper IceTypes XmlDecoder DescriptionReading
  DescriptionVerdict BoundedPrint SessionPrinting XmlEncoder

/-! The document of a session. An element without character data has no child. -/
section Tree

def textNode (data : CStr) (next : XmlNode) : XmlNode :=
  if data = [] then next else .text data next

def field (name data : CStr) (next : XmlNode) : XmlNode :=
  .element name (textNode data .null) next

def blank (next : XmlNode) : XmlNode := .text [' '] next

variable (lib : SockaddrLib)

def candFields (cand : IceSessCand) : XmlNode :=
  field "foundation".toList cand.foundation (blank
    (field "comp_id".toList (decimal cand.compId.toNat) (blank
      (field "transport".toList "UDP".toList (blank
        (field "prio".toList (decimal cand.prio.toNat) (blank
          (field "ip".toList (pjSockaddrPrint lib cand.addr) (blank
            (field "port".toList (decimal (pjSockaddrGetPort cand.addr))
              (field "type".toList (pjIceGetCandTypeName cand.type) (blank .null))))))))))))

def candNode (cand : IceSessCand) (next : XmlNode) : XmlNode :=
  .element "candidate".toList (candFields lib cand) next

def candNodes : List IceSessCand → XmlNode
  | [] => .null
  | cand :: rest => candNode lib cand (.text [' ', '\n'] (candNodes rest))

def comp1Node (default : IceSessCand) (next : XmlNode) : XmlNode :=
  .element "comp_1".toList
    (blank (field "port".toList (decimal (pjSockaddrGetPort default.addr))
      (field "ip".toList (pjSockaddrPrint lib default.addr) (blank .null)))) next

def listNode (default : IceSessCand) (cands : List IceSessCand) (next : XmlNode) : XmlNode :=
  .element "candidateList".toList (comp1Node lib default (candNodes lib cands)) next

def deviceNode (usrid : CStr) (next : XmlNode) : XmlNode :=
  .element "device".toList (blank (field "uniqueId".toList usrid (blank .null))) next

def peerFields (ufrag pwd usrid : CStr) (default : IceSessCand)
    (cands : List IceSessCand) : XmlNode :=
  deviceNode usrid (field "ufrag".toList ufrag (blank (field "pwd".toList pwd
    (blank (listNode lib default cands (blank .null))))))

def document (ufrag pwd usrid : CStr) (default : IceSessCand)
    (cands : List IceSessCand) : XmlNode :=
  .element "registerPeer".toList (peerFields lib ufrag pwd usrid default cands) .null

end Tree

/-! The encoder prints that document after one blank. -/
section Rendering
variable (lib : SockaddrLib)

def opening (name : CStr) : CStr := '<' :: (name ++ ['>'])
def closing (name : CStr) : CStr := '<' :: '/' :: (name ++ ['>'])

theorem render_element (name : CStr) (children next : XmlNode) :
    render (.element name children next) =
      opening name ++ (render children ++ (closing name ++ render next)) := by
  simp only [render, opening, closing, List.cons_append, List.append_assoc, List.nil_append]

theorem render_textNode (data : CStr) (next : XmlNode) :
    render (textNode data next) = data ++ render next := by
  rw [textNode]
  by_cases empty : data = []
  · rw [if_pos empty, empty, List.nil_append]
  · rw [if_neg empty, render]

theorem render_field (name data : CStr) (next : XmlNode) :
    render (field name data next) = opening name ++ (data ++ (closing name ++ render next)) := by
  rw [field, render_element, render_textNode, render, List.append_nil]

theorem render_blank (next : XmlNode) : render (blank next) = ' ' :: render next := rfl

theorem render_text (data : CStr) (next : XmlNode) :
    render (.text data next) = data ++ render next := rfl

theorem render_null : render .null = [] := rfl

theorem render_candNode (cand : IceSessCand) (next : XmlNode) :
    render (candNode lib cand (.text [' ', '\n'] next)) = candText lib cand ++ render next := by
  have toFoundation : "<candidate><foundation>".toList =
      opening "candidate".toList ++ opening "foundation".toList := by decide
  have toCompId : "</foundation> <comp_id>".toList =
      closing "foundation".toList ++ ' ' :: opening "comp_id".toList := by decide
  have toPrio : "</comp_id> <transport>UDP</transport> <prio>".toList =
      closing "comp_id".toList ++ ' ' :: (opening "transport".toList ++ ("UDP".toList ++
        (closing "transport".toList ++ ' ' :: opening "prio".toList))) := by decide
  have toIp : "</prio> <ip>".toList = closing "prio".toList ++ ' ' :: opening "ip".toList := by
    decide
  have toPort : "</ip> <port>".toList = closing "ip".toList ++ ' ' :: opening "port".toList := by
    decide
  have endPort : "</port>".toList = closing "port".toList := by decide
  have toType : "<type>".toList = opening "type".toList := by decide
  have endCandidate : "</type> </candidate> \n".toList =
      closing "type".toList ++ ' ' :: (closing "candidate".toList ++ [' ', '\n']) := by decide
  unfold candNode candFields XmlEncoder.candText candHead candTail
  rw [toFoundation, toCompId, toPrio, toIp, toPort, endPort, toType, endCandidate]
  simp only [render_element, render_field, render_blank, render_text,
    render_null, List.append_assoc,
    List.cons_append, List.nil_append]

theorem render_candNodes (cands : List IceSessCand) :
    render (candNodes lib cands) = cands.flatMap (XmlEncoder.candText lib) := by
  induction cands with
  | nil => rfl
  | cons cand rest ih => rw [candNodes, render_candNode, ih, List.flatMap_cons]

theorem render_comp1Node (default : IceSessCand) (next : XmlNode) :
    render (comp1Node lib default next) = comp1Text lib default ++ render next := by
  have toPort :
      "<comp_1> <port>".toList = opening "comp_1".toList ++ ' ' :: opening "port".toList := by
    decide
  have toIp : "</port><ip>".toList = closing "port".toList ++ opening "ip".toList := by decide
  have endComp1 :
      "</ip> </comp_1>".toList = closing "ip".toList ++ ' ' :: closing "comp_1".toList := by
    decide
  unfold comp1Node comp1Text
  rw [toPort, toIp, endComp1]
  simp only [render_element, render_field, render_blank, render_null, List.append_assoc,
    List.cons_append, List.nil_append]

theorem render_document (session : LocalSession) (usrid : CStr) (default : IceSessCand)
    (cands : List IceSessCand) :
    " <registerPeer>".toList ++ (deviceText usrid ++ (credentialText session ++
      (" <candidateList>".toList ++ ((comp1Text lib default ++
        cands.flatMap (XmlEncoder.candText lib)) ++ ("</candidateList>".toList ++
          " </registerPeer>".toList))))) =
      ' ' :: render (document lib session.ufrag session.pwd usrid default cands) := by
  have start : " <registerPeer>".toList = ' ' :: opening "registerPeer".toList := by decide
  have toId : "<device> <uniqueId>".toList =
      opening "device".toList ++ ' ' :: opening "uniqueId".toList := by decide
  have endDevice : "</uniqueId> </device>".toList =
      closing "uniqueId".toList ++ ' ' :: closing "device".toList := by decide
  have toUfrag : "<ufrag>".toList = opening "ufrag".toList := by decide
  have toPwd : "</ufrag> <pwd>".toList = closing "ufrag".toList ++ ' ' :: opening "pwd".toList := by
    decide
  have endPwd : "</pwd>".toList = closing "pwd".toList := by decide
  have toList : " <candidateList>".toList = ' ' :: opening "candidateList".toList := by decide
  have endList : "</candidateList>".toList = closing "candidateList".toList := by decide
  have ending : " </registerPeer>".toList = ' ' :: closing "registerPeer".toList := by decide
  unfold document peerFields deviceNode listNode deviceText credentialText
  rw [start, toId, endDevice, toUfrag, toPwd, endPwd, toList, endList, ending]
  simp only [render_element, render_field, render_blank, render_comp1Node, render_candNodes,
    render_null, List.append_assoc, List.cons_append, List.nil_append, List.append_nil]

end Rendering

/-! Sessions whose texts stay plain and fit the arrays of the decoder. -/
section Valid

def fieldChar (c : Char) : Bool :=
  32 ≤ c.toNat && c.toNat ≤ 126 && c != '<' && c != '>' && c != '&'

structure ValidCand (compCnt : Nat) (cand : IceSessCand) : Prop where
  type : cand.type ≠ .prflx
  foundation : 1 ≤ cand.foundation.length ∧ cand.foundation.length ≤ 31
  chars : ∀ c ∈ cand.foundation, fieldChar c = true
  compId : 1 ≤ cand.compId.toNat ∧ cand.compId.toNat ≤ compCnt
  prio : cand.prio.toNat < 2 ^ 31
  addr : cand.addr ≠ none

def ValidCredential (text : CStr) : Prop :=
  1 ≤ text.length ∧ text.length ≤ 79 ∧ ∀ c ∈ text, fieldChar c = true

def emitted (session : LocalSession) (compCnt : Nat) : List IceSessCand :=
  (List.range compCnt).flatMap fun comp => (session.enumCands (comp + 1)).toOption.getD []

structure ValidSession (session : LocalSession) (compCnt : Nat) (addr : PjSockaddr) : Prop where
  components : 1 ≤ compCnt ∧ compCnt ≤ 3
  count : 1 ≤ (emitted session compCnt).length ∧ (emitted session compCnt).length ≤ pjIceStMaxCand
  cands : ∀ cand ∈ emitted session compCnt, ValidCand compCnt cand
  ufrag : ValidCredential session.ufrag
  pwd : ValidCredential session.pwd
  default : ∃ cand, session.defCand 1 = .ok cand ∧ cand.addr = some addr
  port : addr.port ≠ 0

theorem textChar_of_field {c : Char} (printable : fieldChar c = true) : textChar c = true := by
  simp only [textChar, Bool.or_eq_true]
  exact Or.inl printable

theorem fieldChar_iff (c : Char) : fieldChar c = true ↔
    32 ≤ c.toNat ∧ c.toNat ≤ 126 ∧ c.toNat ≠ 60 ∧ c.toNat ≠ 62 ∧ c.toNat ≠ 38 := by
  simp only [fieldChar, Bool.and_eq_true, decide_eq_true_eq, bne_iff_ne, ← Char.toNat_inj, ne_eq,
    and_assoc]
  rfl

theorem addr_field {c : Char} (numeric : addrChar c = true) : fieldChar c = true := by
  rw [fieldChar_iff]
  simp only [addrChar, Bool.or_eq_true, Bool.and_eq_true, decide_eq_true_eq, Char.isDigit_iff_toNat,
    ← Char.toNat_inj] at numeric
  change ((((48 ≤ c.toNat ∧ c.toNat ≤ 57) ∨ 65 ≤ c.toNat ∧ c.toNat ≤ 90) ∨
    97 ≤ c.toNat ∧ c.toNat ≤ 122) ∨ c.toNat = 46) ∨ c.toNat = 58 at numeric
  omega

theorem digit_field {c : Char} (digit : c.isDigit = true) : fieldChar c = true :=
  addr_field (by simp [addrChar, digit])

theorem print_field {lib : SockaddrLib} (numeric : lib.Numeric) (addr : Option PjSockaddr) :
    ∀ c ∈ pjSockaddrPrint lib addr, fieldChar c = true := by
  intro c member
  cases addr with
  | none => simp [pjSockaddrPrint] at member
  | some addr => exact addr_field (numeric.chars addr.ip c member)

theorem all_field {text : CStr} (all : text.all fieldChar = true) :
    ∀ c ∈ text, fieldChar c = true :=
  List.all_eq_true.mp all

theorem typeName_field (type : IceCandType) :
    ∀ c ∈ pjIceGetCandTypeName type, fieldChar c = true := by
  apply all_field
  cases type <;> decide

end Valid

/-! The document is plain and no more than four levels deep. -/
section PlainTree

theorem plain_field {name data : CStr} {next : XmlNode} (named : PlainName name)
    (chars : ∀ c ∈ data, fieldChar c = true) (plain : Plain next) :
    Plain (field name data next) := by
  refine ⟨named, ?_, plain⟩
  rw [textNode]
  by_cases empty : data = []
  · rw [if_pos empty]
    exact trivial
  · rw [if_neg empty]
    exact ⟨empty, fun c member => textChar_of_field (chars c member), rfl, trivial⟩

theorem plain_blank {next : XmlNode} (notText : isText next = false) (plain : Plain next) :
    Plain (blank next) :=
  ⟨by simp, List.all_eq_true.mp (by decide), notText, plain⟩

theorem plain_candFields {lib : SockaddrLib} (numeric : lib.Numeric) {cand : IceSessCand}
    (chars : ∀ c ∈ cand.foundation, fieldChar c = true) : Plain (candFields lib cand) := by
  have digits (value : Nat) : ∀ c ∈ decimal value, fieldChar c = true :=
    fun c member => digit_field (decimal_digit value c member)
  unfold candFields
  apply plain_field (by decide) chars
  apply plain_blank rfl
  apply plain_field (by decide) (digits _)
  apply plain_blank rfl
  apply plain_field (by decide) (all_field (by decide))
  apply plain_blank rfl
  apply plain_field (by decide) (digits _)
  apply plain_blank rfl
  apply plain_field (by decide) (print_field numeric _)
  apply plain_blank rfl
  apply plain_field (by decide) (digits _)
  apply plain_field (by decide) (typeName_field _)
  exact plain_blank rfl trivial

theorem isText_candNodes (lib : SockaddrLib) (cands : List IceSessCand) :
    isText (candNodes lib cands) = false := by
  cases cands <;> rfl

theorem plain_candNodes {lib : SockaddrLib} (numeric : lib.Numeric) {cands : List IceSessCand}
    (chars : ∀ cand ∈ cands, ∀ c ∈ cand.foundation, fieldChar c = true) :
    Plain (candNodes lib cands) := by
  induction cands with
  | nil => exact trivial
  | cons cand rest ih =>
      have later : Plain (candNodes lib rest) :=
        ih fun other member => chars other (List.mem_cons_of_mem _ member)
      refine ⟨by decide, plain_candFields numeric (chars cand (by simp)), ?_⟩
      exact ⟨by simp, List.all_eq_true.mp (by decide), isText_candNodes lib rest, later⟩

theorem plain_document {lib : SockaddrLib} (numeric : lib.Numeric) {ufrag pwd usrid : CStr}
    {default : IceSessCand} {cands : List IceSessCand}
    (ufragChars : ∀ c ∈ ufrag, fieldChar c = true)
    (pwdChars : ∀ c ∈ pwd, fieldChar c = true) (usridChars : ∀ c ∈ usrid, fieldChar c = true)
    (chars : ∀ cand ∈ cands, ∀ c ∈ cand.foundation, fieldChar c = true) :
    Plain (document lib ufrag pwd usrid default cands) := by
  have comp1 : Plain (comp1Node lib default (candNodes lib cands)) := by
    refine ⟨by decide, ?_, plain_candNodes numeric chars⟩
    apply plain_blank rfl
    apply plain_field (by decide) fun c member => digit_field (decimal_digit _ c member)
    apply plain_field (by decide) (print_field numeric _)
    exact plain_blank rfl trivial
  have list : Plain (listNode lib default cands (blank .null)) :=
    ⟨by decide, comp1, plain_blank rfl trivial⟩
  have credentials : Plain (field "ufrag".toList ufrag (blank (field "pwd".toList pwd
      (blank (listNode lib default cands (blank .null)))))) :=
    plain_field (by decide) ufragChars (plain_blank rfl
      (plain_field (by decide) pwdChars (plain_blank rfl list)))
  have device : Plain (blank (field "uniqueId".toList usrid (blank .null))) :=
    plain_blank rfl (plain_field (by decide) usridChars (plain_blank rfl trivial))
  exact ⟨by decide, ⟨by decide, device, credentials⟩, trivial⟩

theorem depth_element (name : CStr) (children next : XmlNode) :
    depth (.element name children next) = max (depth children + 1) (depth next) := rfl

theorem depth_blank (next : XmlNode) : depth (blank next) = depth next := rfl

theorem depth_null : depth .null = 0 := rfl

theorem depth_field (name data : CStr) (next : XmlNode) :
    depth (field name data next) = max 1 (depth next) := by
  have flat : depth (textNode data .null) = 0 := by
    rw [textNode]
    split <;> rfl
  rw [field, depth_element, flat]

theorem depth_candFields (lib : SockaddrLib) (cand : IceSessCand) :
    depth (candFields lib cand) = 1 := by
  unfold candFields
  simp only [depth_field, depth_blank, depth_null]
  rfl

theorem depth_candNodes (lib : SockaddrLib) (cands : List IceSessCand) :
    depth (candNodes lib cands) ≤ 2 := by
  induction cands with
  | nil => exact Nat.zero_le _
  | cons cand rest ih =>
      unfold candNodes candNode
      rw [depth_element, depth_candFields, depth]
      omega

theorem depth_document (lib : SockaddrLib) (ufrag pwd usrid : CStr) (default : IceSessCand)
    (cands : List IceSessCand) : depth (document lib ufrag pwd usrid default cands) ≤ 4 := by
  have cells := depth_candNodes lib cands
  unfold document peerFields deviceNode listNode comp1Node
  simp only [depth_element, depth_field, depth_blank, depth_null]
  omega

end PlainTree

/-! Each lookup of the decoder in that document. -/
section Lookups

theorem first_blank (tag : CStr) (next : XmlNode) : (blank next).first tag = next.first tag := rfl

theorem first_textNode (tag data : CStr) (next : XmlNode) :
    (textNode data next).first tag = next.first tag := by
  rw [textNode]
  split <;> rfl

theorem ends_textNode (data : CStr) (next : XmlNode) : ends (textNode data next) = ends next := by
  rw [textNode]
  split <;> rfl

theorem ends_field (name data : CStr) (next : XmlNode) :
    ends (field name data next) = ends next := by
  rw [field, ends, ends_textNode, ends, Bool.true_and]

theorem first_field_same (tag data : CStr) (next : XmlNode) :
    (field tag data next).first tag = some (field tag data next) := by
  simp [field, first_element]

theorem first_field_other {tag name data : CStr} {next : XmlNode} (different : name ≠ tag) :
    (field name data next).first tag = next.first tag := by
  rw [field, first_element, if_neg different, first_textNode, first_null, Option.none_or,
    ends_textNode, ends, if_pos rfl]

theorem content_field (name data : CStr) (next : XmlNode) :
    xmlNodeGetContent (field name data next) = data := by
  rw [field, xmlNodeGetContent, textNode]
  by_cases empty : data = []
  · simp [empty, content]
  · simp [empty, content]

theorem fieldText_inside {tag name text : CStr} {kids next : XmlNode} (different : name ≠ tag)
    (found : fieldText tag kids = some text) :
    fieldText tag (.element name kids next) = some text := by
  obtain ⟨node, present, same⟩ := Option.map_eq_some_iff.mp found
  rw [fieldText, first_inside different present, Option.map_some, same]

variable (lib : SockaddrLib)

def textsOf (cand : IceSessCand) : CandText where
  foundation := cand.foundation
  compId := decimal cand.compId.toNat
  transport := "UDP".toList
  prio := decimal cand.prio.toNat
  ip := pjSockaddrPrint lib cand.addr
  port := decimal (pjSockaddrGetPort cand.addr)
  type := pjIceGetCandTypeName cand.type

theorem candText_candNode (cand : IceSessCand) (next : XmlNode) :
    DescriptionReading.candText (candNode lib cand next) = some (textsOf lib cand) := by
  apply candText_fields.mpr
  refine ⟨?_, ?_, ?_, ?_, ?_, ?_, ?_⟩
  all_goals
    apply fieldText_inside (by decide)
    unfold candFields
    simp (disch := decide) only [fieldText, first_field_other, first_field_same, first_blank,
      Option.map_some, content_field, textsOf]

theorem comp1_fields (default : IceSessCand) (next : XmlNode) :
    fieldText "ip".toList (comp1Node lib default next) = some (pjSockaddrPrint lib default.addr) ∧
    fieldText "port".toList (comp1Node lib default next) =
      some (decimal (pjSockaddrGetPort default.addr)) := by
  constructor
  all_goals
    apply fieldText_inside (by decide)
    simp (disch := decide) only [fieldText, first_field_other, first_field_same, first_blank,
      Option.map_some, content_field]

theorem document_header {ufrag pwd : CStr}
    (ufragFits : ufrag.length < 80) (pwdFits : pwd.length < 80)
    (usrid : CStr) (default : IceSessCand) (cands : List IceSessCand) :
    Header (document lib ufrag pwd usrid default cands) (document lib ufrag pwd usrid default cands)
      (listNode lib default cands (blank .null)) ufrag pwd := by
  have device (tag : CStr) (next : XmlNode) (different : "device".toList ≠ tag)
      (notId : "uniqueId".toList ≠ tag) : (deviceNode usrid next).first tag = next.first tag := by
    have out : ends (blank (field "uniqueId".toList usrid (blank .null))) = true :=
      ends_field "uniqueId".toList usrid (blank .null)
    rw [deviceNode, first_element, if_neg different, first_blank,
      first_field_other notId, first_blank,
      first_null, Option.none_or, if_pos out]
  have list (next : XmlNode) : (listNode lib default cands next).first "candidateList".toList =
      some (listNode lib default cands next) := by
    simp only [listNode, first_element, ↓reduceIte]
  constructor
  · simp only [document, first_element, ↓reduceIte]
  · simp (disch := decide)
      only [document, children, peerFields, fieldText, device, first_field_same,
      Option.map_some, content_field]
  · exact ufragFits
  · simp (disch := decide)
      only [document, children, peerFields, fieldText, device, first_field_other,
      first_blank, first_field_same, Option.map_some, content_field]
  · exact pwdFits
  · apply first_inside (by decide)
    simp (disch := decide) only [peerFields, device, first_field_other, first_blank, list]

end Lookups

/-! The candidates are read back one by one. -/
section Reading
variable {lib : SockaddrLib}

theorem atoi_whole {value : Nat} (bound : value < 2 ^ 31) : atoi (decimal value) = value := by
  have read := atoi_decimal value [] (by simp [EndsNumeral]) bound
  rwa [List.append_nil] at read

theorem print_length (numeric : lib.Numeric) (addr : Option PjSockaddr) :
    (pjSockaddrPrint lib addr).length < 80 := by
  cases addr with
  | none => exact Nat.zero_lt_succ _
  | some addr => exact Nat.lt_trans (numeric.short addr.ip) (by decide)

theorem textsOf_fits (numeric : lib.Numeric) {compCnt : Nat} {cand : IceSessCand}
    (valid : ValidCand compCnt cand) : (textsOf lib cand).Fits where
  foundation := Nat.lt_succ_of_le valid.foundation.2
  transport := by
    simp only [textsOf]
    decide
  ip := print_length numeric cand.addr
  type := by
    simp only [textsOf]
    cases cand.type <;> decide

theorem readCandType_name {type : IceCandType} (printed : type ≠ .prflx) :
    readCandType (pjIceGetCandTypeName type) = some type := by
  cases type with
  | prflx => exact absurd rfl printed
  | host => decide
  | srflx => decide
  | relayed => decide

theorem textsOf_decode (numeric : lib.Numeric) {compCnt : Nat} {cand : IceSessCand}
    (valid : ValidCand compCnt cand) : (textsOf lib cand).decode lib = some cand := by
  obtain ⟨type, compId, foundation, prio, addr⟩ := cand
  have known := readCandType_name valid.type
  cases addr with
  | none => exact absurd rfl valid.addr
  | some addr =>
      have small : compId.toNat < 2 ^ 31 := Nat.lt_trans compId.isLt (by decide)
      have port : addr.port.toNat < 2 ^ 31 := Nat.lt_trans addr.port.isLt (by decide)
      have prioBound : prio.toNat < 2 ^ 31 := valid.prio
      simp only [textsOf, CandText.decode, known, pjSockaddrPrint, numeric.readAddr_print,
        pjSockaddrGetPort, atoi_whole small, atoi_whole port, atoi_whole prioBound,
        Option.bind_eq_bind, Option.bind_some, BitVec.ofInt_natCast, BitVec.ofNat_toNat,
        BitVec.setWidth_eq]

def NodeOf (lib : SockaddrLib) (node : XmlNode) (cand : IceSessCand) : Prop :=
  ∃ next, node = candNode lib cand next

theorem siblings_candNodes (cands : List IceSessCand) :
    List.Forall₂ (NodeOf lib) (candNodes lib cands).siblings cands := by
  induction cands with
  | nil => exact .nil
  | cons cand rest ih => exact .cons ⟨_, rfl⟩ ih

theorem items_listNode (default : IceSessCand) (cands : List IceSessCand) (next : XmlNode) :
    items (listNode lib default cands next) =
      comp1Node lib default (candNodes lib cands) :: (candNodes lib cands).siblings := rfl

theorem candNode_isCand (cand : IceSessCand) (next : XmlNode) :
    isCand (candNode lib cand next) = true := by
  simp [isCand, isComp1, hasName, candNode]

theorem siblings_isCand {cands : List IceSessCand} :
    ∀ node ∈ (candNodes lib cands).siblings, isCand node = true := by
  intro node member
  obtain ⟨cand, _, next, rfl⟩ := forall₂_left (siblings_candNodes cands) member
  exact candNode_isCand cand next

theorem defaultOf_candidates {nodes : List XmlNode} (all : ∀ node ∈ nodes, isCand node = true) :
    defaultOf nodes = none := by
  induction nodes with
  | nil => rfl
  | cons node rest ih =>
      have notComp1 : isComp1 node = false := by simpa [isCand] using all node (by simp)
      simp [defaultOf, notComp1, ih fun later member => all later (by simp [member])]

end Reading

/-! The decoder on that document. -/
section Decoded
variable {lib : SockaddrLib} {compCnt : Nat} {default : IceSessCand} {cands : List IceSessCand}
  {addr : PjSockaddr}

theorem comp1Node_isComp1 (default : IceSessCand) (next : XmlNode) :
    isComp1 (comp1Node lib default next) = true := by
  simp [isComp1, hasName, comp1Node]

theorem list_filter (default : IceSessCand) (cands : List IceSessCand) (next : XmlNode) :
    (items (listNode lib default cands next)).filter isCand = (candNodes lib cands).siblings := by
  rw [items_listNode, List.filter_cons_of_neg (by simp [isCand, comp1Node_isComp1]),
    List.filter_eq_self.mpr siblings_isCand]

theorem siblings_decode (numeric : lib.Numeric) (valid : ∀ cand ∈ cands, ValidCand compCnt cand) :
    List.Forall₂ (Decodes lib) (candNodes lib cands).siblings cands := by
  induction cands with
  | nil => exact .nil
  | cons cand rest ih =>
      refine .cons ⟨_, candText_candNode lib cand _, ?_⟩ (ih fun later member => ?_)
      · exact textsOf_decode numeric (valid cand (by simp))
      · exact valid later (by simp [member])

theorem list_default (numeric : lib.Numeric) (known : default.addr = some addr)
    (port : addr.port ≠ 0) (cands : List IceSessCand) (next : XmlNode) :
    DefaultAddr lib (items (listNode lib default cands next)) addr := by
  have positive : addr.port.toNat ≠ 0 := fun zero => port (BitVec.eq_of_toNat_eq zero)
  have read : toUnsigned (atoi (decimal addr.port.toNat)) = addr.port.toNat := by
    have small : addr.port.toNat < 2 ^ 16 := addr.port.isLt
    rw [atoi_whole (by omega), toUnsigned]
    omega
  obtain ⟨foundIp, foundPort⟩ := comp1_fields lib default (candNodes lib cands)
  rw [known] at foundIp foundPort
  refine ⟨_, _, _, addr.ip, ?_, foundIp, numeric.nonempty addr.ip, foundPort, ?_,
    numeric.readAddr_print addr.ip, ?_⟩
  · rw [items_listNode, defaultOf, defaultOf_candidates siblings_isCand, comp1Node_isComp1]
    rfl
  · rw [pjSockaddrGetPort, read]
    exact positive
  · rw [pjSockaddrGetPort, read, BitVec.ofNat_toNat, BitVec.setWidth_eq]

theorem decodes_unique : Relator.RightUnique (Decodes lib) := by
  rintro node left right ⟨texts, found, decoded⟩ ⟨texts', found', decoded'⟩
  cases found.symm.trans found'
  exact Option.some_inj.mp (decoded.symm.trans decoded')

theorem defaultAddr_unique {nodes : List XmlNode} {left right : PjSockaddr}
    (first : DefaultAddr lib nodes left) (second : DefaultAddr lib nodes right) : left = right := by
  obtain ⟨node, ip, port, _, last, foundIp, _, foundPort, _, read, rfl⟩ := first
  obtain ⟨node', ip', port', _, last', foundIp', _, foundPort', _, read', rfl⟩ := second
  cases last.symm.trans last'
  cases foundIp.symm.trans foundIp'
  cases foundPort.symm.trans foundPort'
  cases read.symm.trans read'
  rfl

theorem document_accepted (numeric : lib.Numeric) {ufrag pwd : CStr}
    (ufragFits : ValidCredential ufrag)
    (pwdFits : ValidCredential pwd) (nonempty : 1 ≤ cands.length)
    (few : cands.length ≤ pjIceStMaxCand) (valid : ∀ cand ∈ cands, ValidCand compCnt cand)
    (known : default.addr = some addr) (port : addr.port ≠ 0) (next : XmlNode) :
    Accepts lib (listNode lib default cands next) ufrag pwd := by
  have decoded := siblings_decode numeric valid
  have member (node : XmlNode) (inside : node ∈ items (listNode lib default cands next)) :
      node = comp1Node lib default (candNodes lib cands) ∨
        ∃ cand ∈ cands, ∃ later, node = candNode lib cand later := by
    rcases List.mem_cons.mp inside with comp1 | later
    · exact Or.inl comp1
    · obtain ⟨cand, present, shape⟩ := forall₂_left (siblings_candNodes cands) later
      exact Or.inr ⟨cand, present, shape⟩
  constructor
  · apply inBounds_of_all
    · intro node inside
      rcases member node inside with rfl | ⟨cand, present, later, rfl⟩
      · obtain ⟨foundIp, foundPort⟩ := comp1_fields lib default (candNodes lib cands)
        rw [FieldsFit, if_pos (comp1Node_isComp1 _ _)]
        exact ⟨_, _, foundIp, print_length numeric _, foundPort⟩
      · have notComp1 : isComp1 (candNode lib cand later) = false := by
          simpa [isCand] using candNode_isCand cand later
        rw [FieldsFit, if_neg (by simp [notComp1])]
        exact ⟨_, candText_candNode lib cand later, textsOf_fits numeric (valid cand present)⟩
    · rw [List.countP_eq_length_filter, list_filter, (siblings_candNodes cands).length_eq]
      omega
  · intro node inside
    rcases member node inside with rfl | ⟨cand, present, later, rfl⟩
    · exact Or.inl (comp1Node_isComp1 _ _)
    · exact Or.inr
        ⟨_, cand, candText_candNode lib cand later, textsOf_decode numeric (valid cand present)⟩
  · exact List.ne_nil_of_length_pos ufragFits.1
  · exact List.ne_nil_of_length_pos pwdFits.1
  · have stored : List.Forall₂ (Decodes lib)
        ((items (listNode lib default cands next)).filter isCand) cands := by
      rw [list_filter]
      exact decoded
    exact (someComponent_iff stored).mpr
      (maxCompId_present nonempty fun cand present => (valid cand present).compId.1)
  · exact ⟨addr, list_default numeric known port cands next⟩

theorem stored_cands {rem : RemInfo} (stored : Stored rem cands) : rem.cands = cands := by
  rw [RemInfo.cands, stored.1, stored.2, List.take_left]

end Decoded

/-! The text the encoder produces is that document. -/
section Encoded
variable {lib : SockaddrLib} {session : LocalSession} {default : IceSessCand}

theorem fullText_document {compCnt : Nat} {usrid text : CStr} (positive : 1 ≤ compCnt)
    (known : session.defCand 1 = .ok default)
    (encoded : fullText lib session compCnt usrid = some text) :
    text = ' ' :: render (document lib session.ufrag session.pwd usrid default
      (emitted session compCnt)) := by
  obtain ⟨components, joined, rfl⟩ := Option.map_eq_some_iff.mp encoded
  have pieces : components = (List.range compCnt).flatMap fun comp =>
      defaultText lib comp default ++
        ((session.enumCands (comp + 1)).toOption.getD []).flatMap (XmlEncoder.candText lib) := by
    apply catAll_known _ joined
    intro comp _ piece found
    rw [componentText, componentTextWith] at found
    -- Only the first component prints its default address.
    by_cases first : comp = 0
    · subst first
      rw [known] at found
      cases listed : session.enumCands (0 + 1) with
      | error status => simp [listed] at found
      | ok cands => simpa [listed, eq_comm, Except.toOption] using found
    · cases other : session.defCand (comp + 1) with
      | error status => simp [other] at found
      | ok own =>
          cases listed : session.enumCands (comp + 1) with
          | error status => simp [other, listed] at found
          | ok cands =>
              simpa [other, listed, eq_comm, defaultText, first, Except.toOption] using found
  have layout : components = comp1Text lib default ++
      (emitted session compCnt).flatMap (XmlEncoder.candText lib) := by
    obtain ⟨count, rfl⟩ := Nat.exists_eq_add_of_le' positive
    rw [pieces, emitted, List.flatMap_assoc, List.range_succ_eq_map]
    simp [defaultText, List.flatMap_map]
  rw [layout]
  exact render_document lib session usrid default (emitted session compCnt)

end Encoded

/-! How long the text of a session gets. -/
section Length
variable {lib : SockaddrLib} {session : LocalSession} {compCnt : Nat}

theorem candText_length (numeric : lib.Numeric) {cand : IceSessCand}
    (valid : ValidCand compCnt cand) :
    (XmlEncoder.candText lib cand).length ≤ 256 := by
  have compId := decimal_length_lt cand.compId.toNat 3 (by decide) (by omega)
  have prio := decimal_length_lt cand.prio.toNat 10 (by decide) (by omega)
  have type : (pjIceGetCandTypeName cand.type).length ≤ 5 := by cases cand.type <;> decide
  obtain ⟨addr, known⟩ := Option.ne_none_iff_exists'.mp valid.addr
  have port := decimal_length_lt addr.port.toNat 5 (by decide) (by omega)
  have ip := numeric.short addr.ip
  have foundation := valid.foundation.2
  have toFoundation : "<candidate><foundation>".toList.length = 23 := by decide
  have toCompId : "</foundation> <comp_id>".toList.length = 23 := by decide
  have toPrio : "</comp_id> <transport>UDP</transport> <prio>".toList.length = 44 := by decide
  have toIp : "</prio> <ip>".toList.length = 12 := by decide
  have toPort : "</ip> <port>".toList.length = 12 := by decide
  have endPort : "</port>".toList.length = 7 := by decide
  have toType : "<type>".toList.length = 6 := by decide
  have endCandidate : "</type> </candidate> \n".toList.length = 22 := by decide
  simp only [pjInet6Addrstrlen] at ip
  unfold XmlEncoder.candText candHead candTail
  rw [known, pjSockaddrPrint, pjSockaddrGetPort]
  simp only [List.length_append]
  omega

theorem candTexts_length (numeric : lib.Numeric) {cands : List IceSessCand}
    (valid : ∀ cand ∈ cands, ValidCand compCnt cand) :
    (cands.flatMap (XmlEncoder.candText lib)).length ≤ 256 * cands.length := by
  induction cands with
  | nil => exact Nat.le_refl _
  | cons cand rest ih =>
      have head := candText_length numeric (valid cand List.mem_cons_self)
      have tail := ih fun later member => valid later (List.mem_cons_of_mem cand member)
      rw [List.flatMap_cons, List.length_append, List.length_cons]
      omega

theorem comp1Text_length (numeric : lib.Numeric) {default : IceSessCand} {addr : PjSockaddr}
    (known : default.addr = some addr) : (comp1Text lib default).length ≤ 100 := by
  have port := decimal_length_lt addr.port.toNat 5 (by decide) (by omega)
  have ip := numeric.short addr.ip
  have toPort : "<comp_1> <port>".toList.length = 15 := by decide
  have toIp : "</port><ip>".toList.length = 11 := by decide
  have endComp1 : "</ip> </comp_1>".toList.length = 15 := by decide
  simp only [pjInet6Addrstrlen] at ip
  unfold comp1Text
  rw [known, pjSockaddrPrint, pjSockaddrGetPort]
  simp only [List.length_append]
  omega

theorem document_length (numeric : lib.Numeric) {addr : PjSockaddr}
    (valid : ValidSession session compCnt addr) {default : IceSessCand}
    (known : default.addr = some addr) {usrid : CStr} (short : usrid.length < 1024) :
    (' ' :: render (document lib session.ufrag session.pwd usrid default
      (emitted session compCnt))).length < buffSize := by
  have cands := candTexts_length numeric valid.cands
  have comp1 := comp1Text_length numeric known
  have few : (emitted session compCnt).length ≤ 8 := valid.count.2
  have ufrag := valid.ufrag.2.1
  have pwd := valid.pwd.2.1
  have start : " <registerPeer>".toList.length = 15 := by decide
  have toId : "<device> <uniqueId>".toList.length = 19 := by decide
  have endDevice : "</uniqueId> </device>".toList.length = 21 := by decide
  have toUfrag : "<ufrag>".toList.length = 7 := by decide
  have toPwd : "</ufrag> <pwd>".toList.length = 14 := by decide
  have endPwd : "</pwd>".toList.length = 6 := by decide
  have toList : " <candidateList>".toList.length = 16 := by decide
  have endList : "</candidateList>".toList.length = 16 := by decide
  have ending : " </registerPeer>".toList.length = 16 := by decide
  rw [← render_document]
  unfold deviceText credentialText buffSize
  simp only [List.length_append]
  omega

end Length

/-! The two ends together. -/
section RoundTrip

/-- `XML_MAX_NAME_LENGTH` and `xmlParserMaxDepth` of libxml2. No part of a document that
is shorter than a name may be passes another of its limits. -/
def xmlMaxNameLength : Nat := 50000
def xmlParserMaxDepth : Nat := 256

/-- The remote description is the session that was sent. -/
structure Restored (session : LocalSession) (compCnt : Nat) (addr : PjSockaddr) (rem : RemInfo) :
    Prop where
  ufrag : rem.ufrag.text = session.ufrag
  pwd : rem.pwd.text = session.pwd
  candCnt : rem.candCnt = (emitted session compCnt).length
  cands : rem.cands = emitted session compCnt
  compCnt : rem.compCnt = maxCompId (emitted session compCnt) 0
  defAddr : rem.defAddr[0] = some addr

theorem document_read {env : PeerEnv}
    (reads : ReadsPlain xmlMaxNameLength xmlParserMaxDepth env.xmlReadMemory)
    (numeric : env.sockaddr.Numeric) {session : LocalSession} {compCnt : Nat} {addr : PjSockaddr}
    (valid : ValidSession session compCnt addr) {usrid : CStr}
    (printable : ∀ c ∈ usrid, fieldChar c = true) {default : IceSessCand}
    (room : (' ' :: render (document env.sockaddr session.ufrag session.pwd usrid default
      (emitted session compCnt))).length < buffSize) :
    env.xmlReadMemory (' ' :: render (document env.sockaddr session.ufrag session.pwd usrid default
      (emitted session compCnt))) =
      some (document env.sockaddr session.ufrag session.pwd usrid default
        (emitted session compCnt)) := by
  have plain : Plain (document env.sockaddr session.ufrag session.pwd usrid default
      (emitted session compCnt)) :=
    plain_document numeric valid.ufrag.2.2 valid.pwd.2.2 printable
      fun cand member => (valid.cands cand member).chars
  have levels : depth (document env.sockaddr session.ufrag session.pwd usrid default
      (emitted session compCnt)) ≤ xmlParserMaxDepth :=
    Nat.le_trans (depth_document _ _ _ _ _ _) (by decide)
  exact reads.root [' '] _ _ (List.all_eq_true.mp (by decide)) plain levels
    (Nat.le_trans (Nat.le_of_lt room) (by decide))

theorem received_restored {env : PeerEnv} (numeric : env.sockaddr.Numeric) {session : LocalSession}
    {compCnt : Nat} {addr : PjSockaddr} (valid : ValidSession session compCnt addr) {usrid : CStr}
    {default : IceSessCand} (known : default.addr = some addr) {peer : CStr}
    (received : Receives env peer (document env.sockaddr session.ufrag session.pwd usrid default
      (emitted session compCnt))) (rem : RemInfo) :
    ∃ rem', natclientConnectWithUser env rem peer = some rem' ∧
      Restored session compCnt addr rem' := by
  have header := document_header env.sockaddr (Nat.lt_succ_of_le valid.ufrag.2.1)
    (Nat.lt_succ_of_le valid.pwd.2.1) usrid default (emitted session compCnt)
  have accepts := document_accepted numeric valid.ufrag valid.pwd valid.count.1 valid.count.2
    valid.cands known valid.port (blank .null)
  obtain ⟨rem', _, list, ufrag, pwd, cands, connected, header', _, describes⟩ :=
    connect_accepted rem received ⟨_, _, _, _, header, accepts⟩
  obtain ⟨rfl, rfl, rfl⟩ := header_unique header header'
  have decoded := describes.decoded
  rw [list_filter] at decoded
  have same : cands = emitted session compCnt :=
    List.right_unique_forall₂' decodes_unique decoded (siblings_decode numeric valid.cands)
  subst same
  obtain ⟨addr', default', stored⟩ := describes.defAddr
  cases defaultAddr_unique default' (list_default numeric known valid.port _ (blank .null))
  exact ⟨rem', connected, describes.ufrag, describes.pwd, describes.stored.1,
    stored_cands describes.stored, describes.compCnt, by simp [stored]⟩

/-- What `extract_sdp_to_xml` publishes, `natclient_connect_with_user` restores, exactly for
the user ids whose URL fits its array and can be logged. -/
theorem published_description_restored_iff (env : PeerEnv)
    (reads : ReadsPlain xmlMaxNameLength xmlParserMaxDepth env.xmlReadMemory)
    (numeric : env.sockaddr.Numeric) (session : LocalSession) (compCnt : Nat) (addr : PjSockaddr)
    (valid : ValidSession session compCnt addr) (usrid : CStr)
    (printable : ∀ c ∈ usrid, fieldChar c = true) (buffer : Memory) (maxlen : Nat)
    (unsigned : maxlen < 2 ^ 32)
    (success : 0 ≤ (extractSdpToXml env.sockaddr session buffer maxlen compCnt usrid).1)
    (served : env.fetch (peerUrl env usrid) =
      readText (extractSdpToXml env.sockaddr session buffer maxlen compCnt usrid).2
        (extractSdpToXml env.sockaddr session buffer maxlen compCnt usrid).1) :
    (∀ rem, ∃ rem', natclientConnectWithUser env rem usrid = some rem' ∧
      Restored session compCnt addr rem') ↔
      (peerUrl env usrid).length < 1024 ∧
        (env.logLevel < 4 ∨ plainFormat (peerUrl env usrid) = true) := by
  constructor
  · intro restored
    obtain ⟨_, connected, _⟩ := restored resetRemInfo
    have fetched := fetched_of_connect connected
    exact ⟨fetched.url, fetched.logged⟩
  · rintro ⟨url, logged⟩
    obtain ⟨positive, bound⟩ := extract_room unsigned success
    obtain ⟨default, known, hasAddr⟩ := valid.default
    obtain ⟨text, encoded, _, written⟩ := extract_text bound positive success
    have shape := fullText_document valid.components.1 known encoded
    have short : usrid.length < 1024 := by
      simp only [peerUrl, List.length_append] at url
      omega
    have room := document_length numeric valid hasAddr short
    have reply : env.fetch (peerUrl env usrid) = _ := (served.trans written).trans shape
    have fetched : Fetched env usrid := ⟨url, logged, reply ▸ room⟩
    have parsed := document_read reads numeric valid printable room
    exact received_restored numeric valid hasAddr ⟨fetched, reply ▸ parsed⟩

/-! A session with two components, one address of each family. -/

def hostCand : IceSessCand :=
  ⟨.host, 1, "Hc0a80001".toList, 2130706431, some ⟨.inet 0xc0a80001, 4000⟩⟩

def relayCand : IceSessCand := ⟨.relayed, 2, "R7f000001".toList, 16777215, some ⟨.inet6 1, 4001⟩⟩

def twoComponents : LocalSession where
  ufrag := "4f2a".toList
  pwd := "7c1d9e".toList
  defCand _ := .ok hostCand
  enumCands comp := .ok (if comp = 1 then [hostCand] else [relayCand])

/-- A server that hands out what it was sent, to a program that logs everything. -/
def publishedBy (session : LocalSession) (compCnt : Nat) (usrid : CStr) : PeerEnv where
  gUrl := "http://server".toList
  logLevel := 5
  fetch _ :=
    readText (extractSdpToXml dottedLib session (fun _ => '\x00') 2048 compCnt usrid).2
      (extractSdpToXml dottedLib session (fun _ => '\x00') 2048 compCnt usrid).1
  xmlReadMemory := parseDocument
  sockaddr := dottedLib

theorem served_text (session : LocalSession) (compCnt : Nat) (usrid url : CStr) :
    (publishedBy session compCnt usrid).fetch url =
      readText (extractSdpToXml dottedLib session (fun _ => '\x00') 2048 compCnt usrid).2
        (extractSdpToXml dottedLib session (fun _ => '\x00') 2048 compCnt usrid).1 :=
  Eq.refl _

theorem twoComponents_cands {cand : IceSessCand} (member : cand ∈ emitted twoComponents 2) :
    cand = hostCand ∨ cand = relayCand := by
  simpa [emitted, twoComponents, List.range_succ, Except.toOption] using member

theorem twoComponents_valid : ValidSession twoComponents 2 ⟨.inet 0xc0a80001, 4000⟩ where
  components := by decide
  count := by decide
  cands := by
    intro cand member
    rcases twoComponents_cands member with rfl | rfl
    all_goals
      constructor
      case chars => exact all_field (by decide)
      all_goals decide
  ufrag := ⟨by decide, by decide, all_field (by decide)⟩
  pwd := ⟨by decide, by decide, all_field (by decide)⟩
  default := ⟨hostCand, rfl, rfl⟩
  port := by decide

theorem twoComponents_published {usrid : CStr} (buffer : Memory)
    (fits :
      (fullText dottedLib twoComponents 2 usrid).any (fun text => text.length < 2048) = true) :
    0 ≤ (extractSdpToXml dottedLib twoComponents buffer 2048 2 usrid).1 := by
  obtain ⟨text, known, short⟩ := (Option.any_eq_true _ _).mp fits
  exact extract_total (by decide) known (of_decide_eq_true short)

theorem published_description_restored_iff_twoComponents :
    (∀ rem, ∃ rem', natclientConnectWithUser (publishedBy twoComponents 2 "lamp".toList) rem
        "lamp".toList = some rem' ∧ Restored twoComponents 2 ⟨.inet 0xc0a80001, 4000⟩ rem') ↔
      (peerUrl (publishedBy twoComponents 2 "lamp".toList) "lamp".toList).length < 1024 ∧
        ((publishedBy twoComponents 2 "lamp".toList).logLevel < 4 ∨
          plainFormat
              (peerUrl (publishedBy twoComponents 2 "lamp".toList) "lamp".toList) = true) := by
  apply published_description_restored_iff (publishedBy twoComponents 2 "lamp".toList)
    (parseDocument_readsPlain _ _) dottedLib_numeric twoComponents 2 _ twoComponents_valid
    "lamp".toList (all_field (by decide)) (fun _ => '\x00') 2048 (by decide)
    (twoComponents_published _ (by decide +kernel))
  exact served_text _ _ _ _

/-- The id of five string conversions is published and then logged as a format. -/
theorem conversions_not_restored :
    (∀ c ∈ "%s%s%s%s%s".toList, fieldChar c = true) ∧
      ValidSession twoComponents 2 ⟨.inet 0xc0a80001, 4000⟩ ∧
      0 ≤ (extractSdpToXml dottedLib twoComponents (fun _ => '\x00') 2048 2 "%s%s%s%s%s".toList).1 ∧
      ∀ rem, natclientConnectWithUser (publishedBy twoComponents 2 "%s%s%s%s%s".toList) rem
        "%s%s%s%s%s".toList = none := by
  refine ⟨all_field (by decide), twoComponents_valid,
    twoComponents_published _ (by decide +kernel), fun rem =>
      connect_unfetched rem fun fetched => ?_⟩
  rcases fetched.logged with quiet | plain
  · exact absurd quiet (by decide)
  · exact absurd plain (by decide)

end RoundTrip

end NatClient.DescriptionRoundTrip
