import NatClient.XmlGrammar
import NatClient.UriGrammar
import NatClient.EncoderBounds
import NatClient.Controller

/-!
The texts that the programs build by formatting strings into markup or into an address:
the published description, the messages of the three device commands and the address of
a peer's description. None of the strings is escaped on the way.
-/

namespace NatClient.SplicedTexts

open XmlForest (XmlNode render)
open CString BoundedPrint IceTypes SessionPrinting XmlEncoder XmlDecoder
    DescriptionRoundTrip Controller
  XmlGrammar UriGrammar

/-! A tree as content: neighbouring texts are one run. -/
section Trees

def content : XmlNode → Content
  | .null => .chars []
  | .element name kids next => .element [] name (content kids) (content next)
  | .text data next => (content next).prepend data
  | .other next => content next
  | .entity _ _ next => content next
  | .endless _ next => content next

theorem content_write (node : XmlNode) : (content node).write = render node := by
  induction node with
  | null => rfl
  | element name kids next first second =>
      simp only [content, Content.write, render, first, second, List.nil_append]
  | text data next ih => rw [content, prepend_write, ih, render]
  | other next ih => exact ih
  | entity _ _ next _ ih => exact ih
  | endless _ next ih => exact ih

end Trees

/-! Trees with plain tag names and with no element left empty. -/
section Shapes

structure Shaped (node : XmlNode) : Prop where
  full : (content node).Full
  named : (content node).Named

theorem word_low {c : Char} (word : XmlForest.nameChar c = true) : c.toNat < 128 := by
  have range :
    (((decide (65 ≤ c.val ∧ c.val ≤ 90) || (decide (97 ≤ c.val) && decide (c.val ≤ 122))) ||
    (decide (48 ≤ c.val) && decide (c.val ≤ 57))) || decide (c = '_')) = true := word
  simp only [Bool.or_eq_true, Bool.and_eq_true, decide_eq_true_eq, UInt32.le_iff_toNat_le,
    ← Char.toNat_inj] at range
  change (((65 ≤ c.toNat ∧ c.toNat ≤ 90) ∨ (97 ≤ c.toNat ∧ c.toNat ≤ 122)) ∨
    (48 ≤ c.toNat ∧ c.toNat ≤ 57)) ∨ c.toNat = 95 at range
  omega

theorem plainName_legal {name : CStr} (plain : XmlForest.PlainName name) :
    Name name ∧ ∀ c ∈ name, c.toNat < 128 := by
  obtain ⟨start, words⟩ := plain
  rw [List.all_eq_true] at words
  refine ⟨?_, fun c member => word_low (words c member)⟩
  cases name with
  | nil => exact absurd start (by decide)
  | cons first rest =>
      refine ⟨?_, fun c member => ?_⟩
      · simp only [List.head?_cons, Option.any_some, XmlForest.nameStart, Bool.or_eq_true,
          decide_eq_true_eq] at start
        rcases start with letter | rfl
        · simp [nameStart, letter]
        · decide
      · have word := words c (List.mem_cons_of_mem _ member)
        simp only [XmlForest.nameChar, Char.isAlphanum, Bool.or_eq_true, decide_eq_true_eq] at word
        rcases word with (letter | digit) | rfl
        · simp [nameChar, nameStart, letter]
        · simp [nameChar, digit]
        · decide

theorem shaped_null : Shaped .null := ⟨trivial, trivial⟩

theorem shaped_text {data : CStr} {next : XmlNode} (shaped : Shaped next) :
    Shaped (.text data next) :=
  ⟨(prepend_full data _).mpr shaped.full, (prepend_named data _).mpr shaped.named⟩

theorem shaped_element {name : CStr} {kids next : XmlNode} (plain : XmlForest.PlainName name)
    (present : content kids ≠ .chars []) (inside : Shaped kids) (behind : Shaped next) :
    Shaped (.element name kids next) :=
  ⟨⟨present, inside.full, behind.full⟩, plainName_legal plain, inside.named, behind.named⟩

theorem shaped_field {name data : CStr} {next : XmlNode} (plain : XmlForest.PlainName name)
    (nonempty : data ≠ []) (behind : Shaped next) : Shaped (field name data next) := by
  rw [field, textNode, if_neg nonempty]
  refine shaped_element plain ?_ (shaped_text shaped_null) behind
  rw [content, content, Content.prepend, List.append_nil]
  exact fun same => nonempty (Content.chars.inj same)

theorem print_present {lib : SockaddrLib} (numeric : lib.Numeric) {addr : Option PjSockaddr}
    (given : addr ≠ none) : pjSockaddrPrint lib addr ≠ [] := by
  cases addr with
  | none => exact absurd rfl given
  | some addr => exact numeric.nonempty addr.ip

theorem typeName_ne_nil (type : IceCandType) :
    pjIceGetCandTypeName type ≠ [] := by cases type <;> decide

theorem shaped_candNodes {lib : SockaddrLib} (numeric : lib.Numeric) {cands : List IceSessCand}
    (given : ∀ cand ∈ cands, cand.foundation ≠ [] ∧ cand.addr ≠ none) :
    Shaped (candNodes lib cands) := by
  induction cands with
  | nil => exact shaped_null
  | cons cand rest ih =>
      obtain ⟨⟨foundation, addr⟩, given⟩ := List.forall_mem_cons.mp given
      refine shaped_element (by decide) (by simp [candFields, field, content]) ?_
        (shaped_text (ih given))
      unfold candFields
      apply shaped_field (by decide) foundation
      apply shaped_text
      apply shaped_field (by decide) (decimal_ne_nil _)
      apply shaped_text
      apply shaped_field (by decide) (by decide)
      apply shaped_text
      apply shaped_field (by decide) (decimal_ne_nil _)
      apply shaped_text
      apply shaped_field (by decide) (print_present numeric addr)
      apply shaped_text
      apply shaped_field (by decide) (decimal_ne_nil _)
      apply shaped_field (by decide) (typeName_ne_nil _)
      exact shaped_text shaped_null

theorem shaped_document {lib : SockaddrLib} (numeric : lib.Numeric) {ufrag pwd usrid : CStr}
    {default : IceSessCand} {cands : List IceSessCand}
    (credentials : ufrag ≠ [] ∧ pwd ≠ []) (user : usrid ≠ [])
    (addr : default.addr ≠ none) (given : ∀ cand ∈ cands, cand.foundation ≠ [] ∧ cand.addr ≠ none) :
    Shaped (document lib ufrag pwd usrid default cands) := by
  have device : Shaped (blank (field "uniqueId".toList usrid (blank .null))) :=
    shaped_text (shaped_field (by decide) user (shaped_text shaped_null))
  have fields : Shaped (blank (field "port".toList (decimal (pjSockaddrGetPort default.addr))
      (field "ip".toList (pjSockaddrPrint lib default.addr) (blank .null)))) :=
    shaped_text (shaped_field (by decide) (decimal_ne_nil _)
      (shaped_field (by decide) (print_present numeric addr) (shaped_text shaped_null)))
  have list : Shaped (listNode lib default cands (blank .null)) := by
    refine shaped_element (by decide) (by simp [comp1Node, content]) ?_ (shaped_text shaped_null)
    exact shaped_element (by decide) (by simp [blank, field, content, Content.prepend]) fields
      (shaped_candNodes numeric given)
  have behind : Shaped (field "ufrag".toList ufrag (blank (field "pwd".toList pwd
      (blank (listNode lib default cands (blank .null)))))) :=
    shaped_field (by decide) credentials.1
      (shaped_text (shaped_field (by decide) credentials.2 (shaped_text list)))
  refine shaped_element (by decide) (by simp [peerFields, deviceNode, content]) ?_ shaped_null
  exact shaped_element (by decide) (by simp [blank, field, content, Content.prepend]) device behind

end Shapes

/-! Trees whose texts all stand for themselves. -/
section Stillness

def Still (node : XmlNode) : Prop := ∀ run ∈ (content node).runs, InertBytes run

theorem still_null : Still .null := by
  intro run member
  rw [content, Content.runs, List.mem_singleton] at member
  rw [member]
  exact inertBytes_nil

theorem still_element {name : CStr} {kids next : XmlNode} :
    Still (.element name kids next) ↔ Still kids ∧ Still next := by
  rw [Still, content, Content.runs, List.forall_mem_cons, List.forall_mem_append]
  exact and_iff_right inertBytes_nil

theorem still_leaf {data : CStr} : Still (textNode data .null) ↔ InertBytes data := by
  rw [textNode]
  by_cases empty : data = []
  · rw [if_pos empty, empty]
    exact iff_of_true still_null inertBytes_nil
  · rw [if_neg empty, Still, content, content, Content.prepend, Content.runs, List.append_nil]
    exact List.forall_mem_singleton

theorem still_field {name data : CStr} {next : XmlNode} :
    Still (field name data next) ↔ InertBytes data ∧ Still next := by
  rw [field, still_element, still_leaf]

def opens : XmlNode → Bool
  | .null => true
  | .element _ _ _ => true
  | _ => false

theorem still_space {space : CStr} {next : XmlNode}
    (inert : InertBytes space) (tag : opens next = true) :
    Still (.text space next) ↔ Still next := by
  cases next with
  | null =>
      refine iff_of_true ?_ still_null
      rw [Still, content, content, Content.prepend, Content.runs, List.append_nil]
      exact List.forall_mem_singleton.mpr inert
  | element name kids next =>
      rw [still_element, Still, content, content, Content.prepend, Content.runs, List.append_nil,
        List.forall_mem_cons, List.forall_mem_append]
      exact and_iff_right inert
  | text data next => exact absurd tag Bool.false_ne_true
  | other next => exact absurd tag Bool.false_ne_true
  | entity _ _ next => exact absurd tag Bool.false_ne_true
  | endless _ next => exact absurd tag Bool.false_ne_true

theorem inert_blanks {space : CStr} (blanks : ∀ c ∈ space, c = ' ' ∨ c = '\n') :
    InertBytes space := by
  have plain {other : Char} (foreign : other ≠ ' ' ∧ other ≠ '\n') : other ∉ space := fun member =>
    (blanks other member).elim foreign.1 foreign.2
  have close : '>' ∉ space := plain (by decide)
  refine (inertBytes_ascii_iff fun c member => ?_).mpr
    ⟨⟨fun c member => ⟨?_, ?_, ?_⟩, fun inside => close (inside.subset (by decide))⟩,
      plain (by decide)⟩
  · rcases blanks c member with rfl | rfl <;> decide
  · rcases blanks c member with rfl | rfl <;> decide
  · rintro rfl
    exact plain (by decide) member
  · rintro rfl
    exact plain (by decide) member

theorem still_blank {next : XmlNode} (tag : opens next = true) : Still (blank next) ↔ Still next :=
  still_space (inert_blanks (by simp)) tag

theorem inert_field {text : CStr} (chars : ∀ c ∈ text, fieldChar c = true) : InertBytes text := by
  have bounds (c : Char) (member : c ∈ text) := (fieldChar_iff c).mp (chars c member)
  have close : '>' ∉ text := fun member => absurd (chars _ member) (by decide)
  refine (inertBytes_ascii_iff fun c member => ?_).mpr
    ⟨⟨fun c member => ⟨?_, ?_, ?_⟩, fun inside => ?_⟩, fun member => ?_⟩
  · have := bounds c member
    omega
  · have := bounds c member
    simp only [xmlChar, Bool.or_eq_true, Bool.and_eq_true, decide_eq_true_eq]
    omega
  · rintro rfl
    exact absurd (chars _ member) (by decide)
  · rintro rfl
    exact absurd (chars _ member) (by decide)
  · exact close (inside.subset (by decide))
  · exact absurd (chars _ member) (by decide)

theorem inert_decimal (value : Nat) : InertBytes (decimal value) :=
  inert_field fun c member => digit_field (decimal_digit value c member)

theorem still_candFields {lib : SockaddrLib} (numeric : lib.Numeric) (cand : IceSessCand) :
    Still (candFields lib cand) ↔ InertBytes cand.foundation := by
  have udp : InertBytes "UDP".toList := inert_field (all_field (by decide))
  have address : InertBytes (pjSockaddrPrint lib cand.addr) :=
    inert_field (print_field numeric cand.addr)
  have type : InertBytes (pjIceGetCandTypeName cand.type) := inert_field (typeName_field cand.type)
  unfold candFields
  rw [still_field, still_blank rfl, still_field, still_blank rfl,
    still_field, still_blank rfl, still_field,
    still_blank rfl, still_field, still_blank rfl, still_field, still_field, still_blank rfl]
  exact and_iff_left
    ⟨inert_decimal _, udp, inert_decimal _, address, inert_decimal _, type, still_null⟩

theorem still_candNodes {lib : SockaddrLib} (numeric : lib.Numeric) (cands : List IceSessCand) :
    Still (candNodes lib cands) ↔ ∀ cand ∈ cands, InertBytes cand.foundation := by
  induction cands with
  | nil => exact iff_of_true still_null (by simp)
  | cons cand rest ih =>
      have space : InertBytes [' ', '\n'] := inert_blanks (by simp)
      have tag : opens (candNodes lib rest) = true := by cases rest <;> rfl
      rw [candNodes, candNode, still_element, still_candFields numeric, still_space space tag, ih,
        List.forall_mem_cons]

theorem still_document {lib : SockaddrLib} (numeric : lib.Numeric) {ufrag pwd usrid : CStr}
    {default : IceSessCand} {cands : List IceSessCand} :
    Still (document lib ufrag pwd usrid default cands) ↔
      InertBytes usrid ∧ InertBytes ufrag ∧ InertBytes pwd ∧
          ∀ cand ∈ cands, InertBytes cand.foundation := by
  have address : InertBytes (pjSockaddrPrint lib default.addr) :=
    inert_field (print_field numeric default.addr)
  unfold document peerFields deviceNode listNode comp1Node
  rw [still_element, still_element, still_blank rfl, still_field,
    still_blank rfl, still_field, still_blank rfl,
    still_field, still_blank rfl, still_element, still_element,
      still_blank rfl, still_field, still_field,
    still_blank rfl, still_candNodes numeric]
  simp only [still_null, address, inert_decimal, and_true, true_and]

/-- A printed tree is read back exactly when its texts stand for themselves. -/
theorem printed_read_iff {lead name : CStr} (leads : lead = [] ∨ lead = [' ']) {kids : XmlNode}
    (shaped : Shaped (.element name kids .null)) :
    ReadsAs (lead ++ render (.element name kids .null)) (content (.element name kids .null)) ↔
      Still (.element name kids .null) := by
  rw [← content_write]
  exact readsAs_iff leads shaped.full shaped.named

end Stillness

/-! What the programs build, and what it is built for. -/
section Splices

def serverUrls : List CStr :=
  ["http://116.100.51.18:5001".toList, "http://115.77.49.188:5001".toList]

inductive Splice where
  | registerPeer (session : LocalSession) (compCnt : Nat) (usrid : CStr)
  | addDevice (usrid : CStr)
  | turnon (usrid nodeId : CStr)
  | turnoff (usrid nodeId : CStr)
  | getPeer (usrId : CStr)

namespace Splice

def inserted : Splice → List CStr
  | .registerPeer session compCnt usrid =>
      usrid :: session.ufrag :: session.pwd :: (emitted session compCnt).map IceSessCand.foundation
  | .addDevice usrid => [usrid]
  | .turnon usrid nodeId => [usrid, nodeId]
  | .turnoff usrid nodeId => [usrid, nodeId]
  | .getPeer usrId => [usrId]

/-- The text that the program builds, without one where it refuses or the text does not
fit its array. The arrays of the published description are static ones. -/
def built (env : PeerEnv) (buffer : Memory) : Splice → Option CStr
  | .registerPeer session compCnt usrid =>
      let printed := extractSdpToXml env.sockaddr session buffer 2048 compCnt usrid
      if 0 ≤ printed.1 then some (readText printed.2 printed.1) else none
  | .addDevice usrid => (xmlMsg (addDeviceText usrid)).map CharArray.text
  | .turnon usrid nodeId => (xmlMsg (switchText usrid "turnon".toList nodeId)).map CharArray.text
  | .turnoff usrid nodeId => (xmlMsg (switchText usrid "turnoff".toList nodeId)).map CharArray.text
  | .getPeer usrId => (getPeerUrl env usrId).map CharArray.text

def natMessage (fields : XmlNode) : XmlNode := .element "NAT".toList fields .null

def addDeviceMessage (usrid : CStr) : XmlNode :=
  natMessage (field "deviceID".toList usrid (field "command".toList "add_device".toList .null))

def switchMessage (usrid command nodeId : CStr) : XmlNode :=
  natMessage (field "deviceID".toList usrid (field "command".toList command
    (field "nodeID".toList nodeId .null)))

/-- The text is a document with the inserted strings in their elements and nothing else,
or an address whose last segment denotes the inserted string. -/
def ReadBack (env : PeerEnv) (text : CStr) : Splice → Prop
  | .registerPeer session compCnt usrid => ∃ default, session.defCand 1 = .ok default ∧
      ReadsAs text (content (document env.sockaddr session.ufrag session.pwd usrid default
        (emitted session compCnt)))
  | .addDevice usrid => ReadsAs text (content (addDeviceMessage usrid))
  | .turnon usrid nodeId => ReadsAs text (content (switchMessage usrid "turnon".toList nodeId))
  | .turnoff usrid nodeId => ReadsAs text (content (switchMessage usrid "turnoff".toList nodeId))
  | .getPeer usrId => LastDenotes text usrId

def Answered : Splice → Prop
  | .registerPeer session compCnt _ => 1 ≤ compCnt ∧
      (∀ default, session.defCand 1 = .ok default → default.addr ≠ none) ∧
        ∀ cand ∈ emitted session compCnt, cand.addr ≠ none
  | _ => True

def Harmless : Splice → Prop
  | .getPeer usrId => (∀ c ∈ usrId, pchar c = true) ∧ usrId ≠ ['.'] ∧ usrId ≠ ['.', '.']
  | splice => ∀ text ∈ splice.inserted, InertBytes text

end Splice

end Splices

section Exact
variable {env : PeerEnv} {buffer : Memory}

open Splice

theorem http_base {host port : CStr} (name : host.all regName = true)
    (digits : port.all Char.isDigit = true) :
    Base ("http://".toList ++ (host ++ ':' :: port)) [] := by
  rw [List.all_eq_true] at name digits
  have letters : ∀ c ∈ "ttp".toList, c.isAlphanum = true := List.all_eq_true.mp (by decide)
  have scheme : Scheme "http".toList := ⟨by decide, fun c member => Or.inl (letters c member)⟩
  refine ⟨"http".toList, host ++ ':' :: port, scheme, ?_, by simp, ?_⟩
  · exact ⟨[], host, ':' :: port, Or.inl rfl, Or.inl ⟨host, decodes_self name⟩,
      Or.inr ⟨port, digits, rfl⟩, rfl⟩
  · rw [path, List.flatMap_nil, List.append_nil]
    rfl

theorem serverUrl_base {url : CStr} (member : url ∈ serverUrls) : Base url [] := by
  have controller : "http://116.100.51.18:5001".toList =
      "http://".toList ++ ("116.100.51.18".toList ++ ':' :: "5001".toList) := by decide
  have client : "http://115.77.49.188:5001".toList =
      "http://".toList ++ ("115.77.49.188".toList ++ ':' :: "5001".toList) := by decide
  rw [serverUrls, controller, client, List.mem_cons, List.mem_singleton] at member
  rcases member with rfl | rfl <;> exact http_base (by decide) (by decide)

/-- The address of a peer ends in the inserted name. -/
theorem peerUrl_read_iff (server : env.gUrl ∈ serverUrls) {usrId : CStr} {url : CharArray 1024}
    (built : getPeerUrl env usrId = some url) :
    LastDenotes url.text usrId ↔ Harmless (.getPeer usrId) := by
  have peer : Encoded pchar "peer".toList := ⟨_, decodes_self (List.all_eq_true.mp (by decide))⟩
  have getPeer : Encoded pchar "getPeer".toList :=
    ⟨_, decodes_self (List.all_eq_true.mp (by decide))⟩
  have based := base_snoc (base_snoc (serverUrl_base server) peer) getPeer
  -- The path of the server and the name behind the last slash.
  have text : url.text =
      ((env.gUrl ++ '/' :: "peer".toList) ++ '/' :: "getPeer".toList) ++ '/' :: usrId := by
    have whole := strcpy_eq_some.mp built
    rw [← Option.some.inj whole, peerUrl]
    have between : "/peer/getPeer/".toList =
        '/' :: "peer".toList ++ '/' :: "getPeer".toList ++ ['/'] := by decide
    rw [between]
    simp only [List.append_assoc, List.cons_append, List.nil_append]
  rw [text]
  exact last_denotes_iff based usrId

theorem shaped_addDevice {usrid : CStr} (user : usrid ≠ []) : Shaped (addDeviceMessage usrid) :=
  shaped_element (by decide) (by simp [field, content])
    (shaped_field (by decide) user (shaped_field (by decide) (by decide) shaped_null)) shaped_null

theorem shaped_switch {usrid command nodeId : CStr} (user : usrid ≠ []) (switch : command ≠ [])
    (node : nodeId ≠ []) : Shaped (switchMessage usrid command nodeId) :=
  shaped_element (by decide) (by simp [field, content])
    (shaped_field (by decide) user (shaped_field (by decide) switch
      (shaped_field (by decide) node shaped_null))) shaped_null

theorem still_addDevice {usrid : CStr} : Still (addDeviceMessage usrid) ↔ InertBytes usrid := by
  have command : InertBytes "add_device".toList := inert_field (all_field (by decide))
  unfold addDeviceMessage natMessage
  rw [still_element, still_field, still_field]
  exact ⟨fun still => still.1.1, fun inert => ⟨⟨inert, command, still_null⟩, still_null⟩⟩

theorem still_switch {usrid command nodeId : CStr} (fixed : InertBytes command) :
    Still (switchMessage usrid command nodeId) ↔ InertBytes usrid ∧ InertBytes nodeId := by
  unfold switchMessage natMessage
  rw [still_element, still_field, still_field, still_field]
  exact ⟨fun still => ⟨still.1.1, still.1.2.2.1⟩,
    fun inert => ⟨⟨inert.1, fixed, inert.2, still_null⟩, still_null⟩⟩

theorem addDevice_render (usrid : CStr) :
    addDeviceText usrid = render (addDeviceMessage usrid) := by
  have start :
    "<NAT><deviceID>".toList = opening "NAT".toList ++ opening "deviceID".toList := by decide
  have ending : "</deviceID><command>add_device</command></NAT>".toList =
      closing "deviceID".toList ++ (opening "command".toList ++ ("add_device".toList ++
        (closing "command".toList ++ closing "NAT".toList))) := by decide
  unfold addDeviceText addDeviceMessage natMessage
  rw [start, ending]
  simp only [render_element, render_field, render_null, List.append_assoc, List.append_nil]

theorem switch_render (usrid command nodeId : CStr) :
    switchText usrid command nodeId = render (switchMessage usrid command nodeId) := by
  have start :
    "<NAT><deviceID>".toList = opening "NAT".toList ++ opening "deviceID".toList := by decide
  have toCommand :
      "</deviceID><command>".toList = closing "deviceID".toList ++ opening "command".toList := by
    decide
  have toNode :
    "</command><nodeID>".toList = closing "command".toList ++ opening "nodeID".toList := by decide
  have ending :
    "</nodeID></NAT>".toList = closing "nodeID".toList ++ closing "NAT".toList := by decide
  unfold switchText switchMessage natMessage
  rw [start, toCommand, toNode, ending]
  simp only [render_element, render_field, render_null, List.append_assoc, List.append_nil]

theorem message_read_iff {kids : XmlNode} {text whole : CStr}
    (printed : whole = render (natMessage kids))
    (shaped : Shaped (natMessage kids)) (built : (xmlMsg whole).map CharArray.text = some text) :
    ReadsAs text (content (natMessage kids)) ↔ Still (natMessage kids) := by
  obtain ⟨array, copied, rfl⟩ := Option.map_eq_some_iff.mp built
  have same : whole = array.text := Option.some.inj (strcpy_eq_some.mp copied)
  rw [← same, printed]
  exact printed_read_iff (Or.inl rfl) shaped

theorem switch_read_iff {usrid command nodeId text : CStr}
    (fixed : command ≠ [] ∧ InertBytes command) (nonempty : ∀ text ∈ [usrid, nodeId], text ≠ [])
    (built : (xmlMsg (switchText usrid command nodeId)).map CharArray.text = some text) :
    ReadsAs text (content (switchMessage usrid command nodeId)) ↔
      ∀ text ∈ [usrid, nodeId], InertBytes text := by
  have user : usrid ≠ [] := nonempty usrid (by simp)
  have node : nodeId ≠ [] := nonempty nodeId (by simp)
  have read :=
    message_read_iff (switch_render usrid command nodeId) (shaped_switch user fixed.1 node) built
  rw [List.forall_mem_cons, List.forall_mem_singleton]
  exact read.trans (still_switch fixed.2)

theorem description_read_iff (numeric : env.sockaddr.Numeric)
    {session : LocalSession} {compCnt : Nat}
    {usrid text : CStr}
    (nonempty : ∀ text ∈ (registerPeer session compCnt usrid).inserted, text ≠ [])
    (answered : (registerPeer session compCnt usrid).Answered)
    (built : (registerPeer session compCnt usrid).built env buffer = some text) :
    (registerPeer session compCnt usrid).ReadBack env text ↔
        (registerPeer session compCnt usrid).Harmless := by
  obtain ⟨positive, defaults, addresses⟩ := answered
  simp only [inserted, List.forall_mem_cons, List.forall_mem_map] at nonempty
  obtain ⟨user, ufrag, pwd, foundations⟩ := nonempty
  simp only [Splice.built, Option.ite_none_right_eq_some, Option.some_inj] at built
  obtain ⟨success, held⟩ := built
  obtain ⟨whole, known, _, same⟩ := extract_text (by decide) (by decide) success
  obtain ⟨components, joined, _⟩ := Option.map_eq_some_iff.mp known
  obtain ⟨⟨default, found⟩, _⟩ :=
    EncoderBounds.components_some_iff.mp ⟨components, joined⟩ 0 positive
  -- What was read from the buffer is the whole text, and that is a printed tree.
  have printed := fullText_document positive found known
  rw [← same, held] at printed
  have shaped : Shaped (document env.sockaddr session.ufrag session.pwd usrid default
      (emitted session compCnt)) :=
    shaped_document numeric ⟨ufrag, pwd⟩ user (defaults default found)
      fun cand member => ⟨foundations cand member, addresses cand member⟩
  have read := (printed_read_iff (Or.inr rfl) shaped).trans (still_document numeric)
  have harmless : (registerPeer session compCnt usrid).Harmless ↔
    InertBytes usrid ∧ InertBytes session.ufrag ∧
      InertBytes session.pwd ∧ ∀ cand ∈ emitted session compCnt, InertBytes cand.foundation := by
    simp only [Harmless, inserted, List.forall_mem_cons, List.forall_mem_map]
  rw [harmless, ← read, printed]
  constructor
  · rintro ⟨other, others, reads⟩
    cases Except.ok.inj (others.symm.trans found)
    exact reads
  · exact fun reads => ⟨default, found, reads⟩

/-- What is built is read back exactly when every inserted string is harmless in its place. -/
theorem reads_back_iff (numeric : env.sockaddr.Numeric)
    (server : env.gUrl ∈ serverUrls) (splice : Splice)
    (nonempty : ∀ text ∈ splice.inserted, text ≠ []) (answered : splice.Answered) {text : CStr}
    (built : splice.built env buffer = some text) : splice.ReadBack env text ↔ splice.Harmless := by
  cases splice with
  | registerPeer session compCnt usrid => exact description_read_iff numeric nonempty answered built
  | addDevice usrid =>
      have user : usrid ≠ [] := nonempty usrid (by simp [inserted])
      have read := message_read_iff (addDevice_render usrid) (shaped_addDevice user) built
      exact read.trans (still_addDevice.trans List.forall_mem_singleton.symm)
  | turnon usrid nodeId =>
      exact switch_read_iff ⟨by decide, inert_field (all_field (by decide))⟩ nonempty built
  | turnoff usrid nodeId =>
      exact switch_read_iff ⟨by decide, inert_field (all_field (by decide))⟩ nonempty built
  | getPeer usrId =>
      obtain ⟨url, copied, rfl⟩ := Option.map_eq_some_iff.mp built
      exact peerUrl_read_iff server copied

def controllerEnv : PeerEnv :=
  { publishedBy twoComponents 2 "lamp".toList with gUrl := "http://116.100.51.18:5001".toList }

theorem reads_back_lamp : ∃ text,
    (registerPeer twoComponents 2 "lamp".toList).built controllerEnv (fun _ => '\x00') = some text ∧
      (registerPeer twoComponents 2 "lamp".toList).ReadBack controllerEnv text := by
  have built : ∃ text,
      (registerPeer twoComponents 2 "lamp".toList).built controllerEnv
          (fun _ => '\x00') = some text := by
    simp only [Splice.built]
    exact ⟨_, if_pos (twoComponents_published _ (by decide +kernel))⟩
  obtain ⟨text, built⟩ := built
  have texts : ∀ text ∈ (registerPeer twoComponents 2 "lamp".toList).inserted,
      text ≠ [] ∧ text.all fieldChar = true := by decide
  refine ⟨text, built,
    (reads_back_iff dottedLib_numeric (by decide) _ (fun text member => (texts text member).1)
    ⟨by decide, ?_, ?_⟩ built).mpr fun text member => inert_field (all_field (texts text member).2)⟩
  · rintro default found
    cases Except.ok.inj found
    decide
  · decide

/-- An ampersand begins a reference, and a slash a segment. -/
theorem ampersand_and_slash_lost :
    (∃ text, (addDevice "R&D".toList).built controllerEnv (fun _ => '\x00') = some text ∧
      ¬ (addDevice "R&D".toList).ReadBack controllerEnv text) ∧
    ∃ text, (getPeer "hall/lamp".toList).built controllerEnv (fun _ => '\x00') = some text ∧
      ¬ (getPeer "hall/lamp".toList).ReadBack controllerEnv text := by
  constructor
  · refine ⟨addDeviceText "R&D".toList, by decide, fun read => ?_⟩
    have still :=
      (message_read_iff (addDevice_render _) (shaped_addDevice (by decide)) (by decide)).mp read
    have inert := (inertBytes_ascii_iff (by simp)).mp (still_addDevice.mp still)
    exact (inert.1.1 '&' (by decide)).2.2 rfl
  · refine ⟨"http://116.100.51.18:5001/peer/getPeer/hall/lamp".toList, by decide, fun read => ?_⟩
    have copied : getPeerUrl controllerEnv "hall/lamp".toList =
        some ⟨"http://116.100.51.18:5001/peer/getPeer/hall/lamp".toList, by decide⟩ := by decide
    have harmless := (peerUrl_read_iff (by decide : controllerEnv.gUrl ∈ serverUrls) copied).mp read
    exact absurd (harmless.1 '/' (by decide)) (by decide)

end Exact

end NatClient.SplicedTexts
