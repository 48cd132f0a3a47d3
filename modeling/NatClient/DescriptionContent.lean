import NatClient.DescriptionFaults

/-!
What an accepted peer description holds. The decoder converts numbers with `atoi`
and narrows them without a look at the text, so the stored numbers are the written
ones exactly when every number text is a numeral inside its range. What it stores
is otherwise complete, or `rem` is zeroed, if the description gets as far as the reader.
-/

namespace NatClient.DescriptionContent

open CString XmlForest XmlNode Xml2Wrapper IceTypes XmlDecoder DescriptionReading
  DescriptionVerdict DescriptionRoundTrip DescriptionFaults

/-! Numbers and their texts. -/
section Written

def InRange (low high : Nat) (text : CStr) : Prop :=
  Numeral text ∧ low ≤ numeralValue text ∧ numeralValue text ≤ high

instance (low high : Nat) : DecidablePred (InRange low high) := fun _ =>
  inferInstanceAs (Decidable (_ ∧ _ ∧ _))

def Written (low high : Nat) (text : Option CStr) (value : Nat) : Prop :=
  ∃ numeral, text = some numeral ∧ InRange low high numeral ∧ numeralValue numeral = value

variable {text : CStr}

theorem atoi_inRange {low high : Nat} (inRange : InRange low high text) (bound : high < 2 ^ 32) :
    atoi text % 2 ^ 32 = numeralValue text := by
  obtain ⟨numeral, _, below⟩ := inRange
  have kept : (numeralValue text : Int).bmod (2 ^ 32) % (2 ^ 32 : Nat) = _ := Int.bmod_emod
  rw [atoi_numeral numeral (by omega)]
  omega

theorem narrow_inRange {low high : Nat} (inRange : InRange low high text) {width : Nat}
    (narrow : width ≤ 32) (bound : high < 2 ^ width) :
    (BitVec.ofInt width (atoi text)).toNat = numeralValue text := by
  have wide : (2 : Nat) ^ width ≤ 2 ^ 32 := Nat.pow_le_pow_right (by decide) narrow
  have kept := atoi_inRange inRange (Nat.lt_of_lt_of_le bound wide)
  have divides : ((2 ^ width : Nat) : Int) ∣ 2 ^ 32 := by exact_mod_cast pow_dvd_pow 2 narrow
  rw [BitVec.toNat_ofInt, ← Int.emod_emod_of_dvd _ divides, kept]
  have small : numeralValue text < 2 ^ width := Nat.lt_of_le_of_lt inRange.2.2 bound
  rw [Int.emod_eq_of_lt (by omega) (by exact_mod_cast small), Int.toNat_natCast]

theorem unsigned_inRange {low high : Nat}
    (inRange : InRange low high text) (bound : high < 2 ^ 32) :
    toUnsigned (atoi text) = numeralValue text := by
  rw [toUnsigned, atoi_inRange inRange bound, Int.toNat_natCast]

end Written

/-! The number fields of a document. -/
section Numbers

structure NumberField where
  name : String
  low : Nat
  high : Nat
  deriving DecidableEq

def compIdField : NumberField := ⟨"comp_id", 1, 2 ^ 8 - 1⟩
def prioField : NumberField := ⟨"prio", 0, 2 ^ 32 - 1⟩
def portField : NumberField := ⟨"port", 0, 2 ^ 16 - 1⟩

def numberFields (node : XmlNode) : List NumberField :=
  if isComp1 node then [portField] else [compIdField, prioField, portField]

def BadNumber (node : XmlNode) : Prop :=
  ∃ field ∈ numberFields node, ∃ text, fieldText field.name.toList node = some text ∧
    ¬ InRange field.low field.high text

def documentItems (doc : XmlNode) : List XmlNode :=
  ((doc.first "candidateList".toList).map items).getD []

structure EntryNumbers (node : XmlNode) (cand : IceSessCand) : Prop where
  compId : Written 1 (2 ^ 8 - 1) (fieldText "comp_id".toList node) cand.compId.toNat
  prio : Written 0 (2 ^ 32 - 1) (fieldText "prio".toList node) cand.prio.toNat
  port : ∃ addr, cand.addr = some addr ∧
    Written 0 (2 ^ 16 - 1) (fieldText "port".toList node) addr.port.toNat

def DefaultNumber (nodes : List XmlNode) (rem : RemInfo) : Prop :=
  ∃ node addr, defaultOf nodes = some node ∧ rem.defAddr[0]? = some (some addr) ∧
    Written 1 (2 ^ 16 - 1) (fieldText "port".toList node) addr.port.toNat

/-- The call has a result. An accepted document is stored with the numbers it writes, and
one with a bad number is rejected. -/
structure NumbersKept (env : PeerEnv) (rem : RemInfo) (usrId : CStr) (doc : XmlNode) : Prop where
  result : natclientConnectWithUser env rem usrId ≠ none
  entries : ∀ rem', natclientConnectWithUser env rem usrId = some rem' → rem'.candCnt ≠ 0 →
    List.Forall₂ EntryNumbers ((documentItems doc).filter isCand) rem'.cands
  default : ∀ rem', natclientConnectWithUser env rem usrId = some rem' → rem'.candCnt ≠ 0 →
    DefaultNumber (documentItems doc) rem'
  rejected : ∀ node ∈ documentItems doc, BadNumber node →
    natclientConnectWithUser env rem usrId = some resetRemInfo

theorem documentItems_of {doc list : XmlNode}
    (found : doc.first "candidateList".toList = some list) :
    documentItems doc = items list := by
  rw [documentItems, found, Option.map_some, Option.getD_some]

theorem inRange_of_good {node : XmlNode} (good : ¬ BadNumber node) (field : NumberField)
    (member : field ∈ numberFields node) {text : CStr}
    (found : fieldText field.name.toList node = some text) : InRange field.low field.high text := by
  by_contra outside
  exact good ⟨field, member, text, found, outside⟩

theorem entryNumbers_of_good {lib : SockaddrLib} {node : XmlNode} {cand : IceSessCand}
    (notComp1 : isComp1 node = false) (good : ¬ BadNumber node) (decodes : Decodes lib node cand) :
    EntryNumbers node cand := by
  obtain ⟨texts, found, decoded⟩ := decodes
  obtain ⟨_, compId, _, prio, _, port, _⟩ := candText_fields.mp found
  have fields : numberFields node = [compIdField, prioField, portField] := by
    simp [numberFields, notComp1]
  have compIdRange := inRange_of_good good compIdField (by simp [fields]) compId
  have prioRange := inRange_of_good good prioField (by simp [fields]) prio
  have portRange := inRange_of_good good portField (by simp [fields]) port
  simp only [CandText.decode, Option.bind_eq_bind, Option.bind_eq_some_iff, Option.some_inj]
    at decoded
  obtain ⟨type, _, ip, _, rfl⟩ := decoded
  constructor
  · exact ⟨_, compId, compIdRange, (narrow_inRange compIdRange (by decide) (by decide)).symm⟩
  · exact ⟨_, prio, prioRange, (narrow_inRange prioRange (by decide) (by decide)).symm⟩
  · exact ⟨_, rfl, _, port, portRange, (narrow_inRange portRange (by decide) (by decide)).symm⟩

theorem defaultOf_mem {nodes : List XmlNode} {node : XmlNode} (last : defaultOf nodes = some node) :
    node ∈ nodes ∧ isComp1 node = true := by
  induction nodes with
  | nil => exact absurd last (by simp [defaultOf])
  | cons first rest ih =>
      cases later : defaultOf rest with
      | some found =>
          rw [defaultOf, later, Option.some_or] at last
          obtain ⟨member, comp1⟩ := ih (later.trans last)
          exact ⟨List.mem_cons_of_mem first member, comp1⟩
      | none =>
          rw [defaultOf, later, Option.none_or] at last
          split at last
          · next comp1 =>
              cases last
              exact ⟨List.mem_cons_self, comp1⟩
          · exact absurd last (by simp)

theorem forall₂_imp_mem {Left Right : Type} {related kept : Left → Right → Prop} {xs : List Left}
    {ys : List Right} (all : List.Forall₂ related xs ys)
    (each : ∀ x ∈ xs, ∀ y, related x y → kept x y) : List.Forall₂ kept xs ys := by
  induction all with
  | nil => exact .nil
  | cons head tail ih =>
      exact .cons (each _ List.mem_cons_self _ head)
        (ih fun x member => each x (List.mem_cons_of_mem _ member))

theorem default_of_good {lib : SockaddrLib} {nodes : List XmlNode} {addr : PjSockaddr}
    (good : ∀ node ∈ nodes, ¬ BadNumber node) (default : DefaultAddr lib nodes addr) :
    ∃ node, defaultOf nodes = some node ∧
      Written 1 (2 ^ 16 - 1) (fieldText "port".toList node) addr.port.toNat := by
  obtain ⟨node, ip, port, ipAddr, last, _, _, foundPort, nonzero, _, rfl⟩ := default
  obtain ⟨member, comp1⟩ := defaultOf_mem last
  have inRange := inRange_of_good (good node member) portField
    (by simp [numberFields, comp1]) foundPort
  have value := unsigned_inRange inRange (by decide)
  -- The decoder takes a port of zero for a missing default address.
  have positive : 1 ≤ numeralValue port := by omega
  refine ⟨node, last, port, foundPort, ⟨inRange.1, positive, inRange.2.2⟩, ?_⟩
  have small : numeralValue port < 2 ^ 16 := Nat.lt_of_le_of_lt inRange.2.2 (by decide)
  rw [value, BitVec.toNat_ofNat, Nat.mod_eq_of_lt small]

section Kept
variable {env : PeerEnv} {rem : RemInfo} {usrId : CStr} {doc : XmlNode}

theorem accepted_describes {rem' : RemInfo} (received : Receives env usrId doc)
    (connected : natclientConnectWithUser env rem usrId = some rem') (nonzero : rem'.candCnt ≠ 0) :
    ∃ list ufrag pwd cands, documentItems doc = items list ∧
      Describes env.sockaddr list ufrag pwd cands rem' := by
  have accepts := accepted_of_connect received connected nonzero
  obtain ⟨rem'', _, list, ufrag, pwd, cands, connected', header, _, describes⟩ :=
    connect_accepted rem received accepts
  cases connected.symm.trans connected'
  exact ⟨list, ufrag, pwd, cands, documentItems_of header.foundList, describes⟩

theorem kept_of_good (received : Receives env usrId doc) (accepts : DocAccepts env.sockaddr doc)
    (good : ∀ node ∈ documentItems doc, ¬ BadNumber node) : NumbersKept env rem usrId doc := by
  constructor
  case result =>
    obtain ⟨_, _, _, _, _, _, connected, _⟩ := connect_accepted rem received accepts
    rw [connected]
    exact Option.some_ne_none _
  case entries =>
    intro rem' connected nonzero
    obtain ⟨list, ufrag, pwd, cands, same, describes⟩ :=
      accepted_describes received connected nonzero
    rw [stored_cands describes.stored, same]
    apply forall₂_imp_mem describes.decoded
    intro node kept cand decodes
    obtain ⟨member, isCandidate⟩ := List.mem_filter.mp kept
    exact entryNumbers_of_good (by simpa [isCand] using isCandidate)
      (good node (same ▸ member)) decodes
  -- The last comp_1 is among the items, so its port is a good one too.
  case default =>
    intro rem' connected nonzero
    obtain ⟨list, ufrag, pwd, cands, same, describes⟩ :=
      accepted_describes received connected nonzero
    obtain ⟨addr, default, stored⟩ := describes.defAddr
    obtain ⟨node, last, written⟩ := default_of_good (same ▸ good) default
    exact ⟨node, addr, same ▸ last, by rw [stored]; rfl, written⟩
  case rejected => exact fun node member bad => absurd bad (good node member)

theorem kept_of_refused (received : Receives env usrId doc) (bounds : DocInBounds env.sockaddr doc)
    (refuses : ¬ DocAccepts env.sockaddr doc) : NumbersKept env rem usrId doc := by
  have rejected := connect_rejected rem received bounds refuses
  have empty (rem' : RemInfo) (connected : natclientConnectWithUser env rem usrId = some rem') :
      ¬ rem'.candCnt ≠ 0 := by
    cases connected.symm.trans rejected
    exact fun nonzero => nonzero rfl
  constructor
  case result =>
    rw [rejected]
    exact Option.some_ne_none _
  case entries => exact fun rem' connected nonzero => absurd nonzero (empty rem' connected)
  case default => exact fun rem' connected nonzero => absurd nonzero (empty rem' connected)
  case rejected => exact fun _ _ _ => rejected

end Kept

/-- The numbers are kept exactly when the document arrives and stays in bounds and, if it is
accepted, all of its number texts are good. -/
theorem numbers_kept_iff (env : PeerEnv) (rem : RemInfo) (usrId : CStr) (doc : XmlNode)
    (served : Serves env usrId doc) :
    NumbersKept env rem usrId doc ↔ Fetched env usrId ∧ DocInBounds env.sockaddr doc ∧
      (DocAccepts env.sockaddr doc → ∀ node ∈ documentItems doc, ¬ BadNumber node) := by
  constructor
  · intro kept
    obtain ⟨fetched, bounds⟩ := (decoder_in_bounds_iff env rem usrId doc served).mp kept.result
    refine ⟨fetched, bounds, fun accepts node member bad => ?_⟩
    obtain ⟨_, _, _, _, _, _, connected, _, nonzero, _⟩ :=
      connect_accepted rem ⟨fetched, served⟩ accepts
    cases connected.symm.trans (kept.rejected node member bad)
    exact nonzero rfl
  · rintro ⟨fetched, bounds, good⟩
    by_cases accepts : DocAccepts env.sockaddr doc
    · exact kept_of_good ⟨fetched, served⟩ accepts (good accepts)
    · exact kept_of_refused ⟨fetched, served⟩ bounds accepts

def wrappingCand (next : XmlNode) : XmlNode :=
  .element "candidate".toList
    (field "foundation".toList "A".toList (field "comp_id".toList "257".toList
      (field "transport".toList "UDP".toList (field "prio".toList "high".toList
        (field "ip".toList "192.168.0.1".toList (field "port".toList "70000".toList
          (field "type".toList "host".toList .null))))))) next

def wrappingNumbers : XmlNode :=
  .element "registerPeer".toList
    (field "ufrag".toList "4f2a".toList (field "pwd".toList "7c1d9e".toList
      (.element "candidateList".toList (comp1Node dottedLib hostCand (wrappingCand .null)) .null)))
        .null

theorem wrappingNumbers_wellFormed :
    parseDocument (render wrappingNumbers) = some wrappingNumbers := by
  decide +kernel

theorem numbers_kept_iff_wrappingNumbers :
    NumbersKept (serverOf wrappingNumbers) resetRemInfo "lamp".toList wrappingNumbers ↔
      Fetched (serverOf wrappingNumbers) "lamp".toList ∧ DocInBounds dottedLib wrappingNumbers ∧
        (DocAccepts dottedLib wrappingNumbers →
          ∀ node ∈ documentItems wrappingNumbers, ¬ BadNumber node) :=
  numbers_kept_iff (serverOf wrappingNumbers) resetRemInfo _ _
    (serverOf_serves wrappingNumbers_wellFormed _)

/-- It is stored as component 1 with port 4464 and priority 0. -/
theorem wrappingNumbers_not_kept :
    parseDocument (render wrappingNumbers) = some wrappingNumbers ∧
      ((natclientConnectWithUser (serverOf wrappingNumbers) resetRemInfo "lamp".toList).map
        RemInfo.cands) = some [⟨.host, 1, "A".toList, 0, some ⟨.inet 0xc0a80001, 4464⟩⟩] ∧
      ¬ NumbersKept (serverOf wrappingNumbers) resetRemInfo "lamp".toList wrappingNumbers := by
  refine ⟨wrappingNumbers_wellFormed, by decide +kernel, fun kept => ?_⟩
  have bad : BadNumber (wrappingCand .null) := by
    refine ⟨compIdField, by decide +kernel, "257".toList, by decide +kernel, by decide⟩
  have member : wrappingCand .null ∈ documentItems wrappingNumbers := by decide +kernel
  have stored : natclientConnectWithUser (serverOf wrappingNumbers) resetRemInfo "lamp".toList ≠
      some resetRemInfo := by decide +kernel
  exact stored (kept.rejected _ member bad)

end Numbers

/-! All of a description or nothing. -/
section Completeness

def FieldThat (name : String) (good : CStr → Prop) (node : XmlNode) : Prop :=
  Holds name.toList node ∧ ∃ text, fieldText name.toList node = some text ∧ good text

instance (name : String) (good : CStr → Prop) [DecidablePred good] :
    DecidablePred (FieldThat name good) := fun node =>
  decidable_of_iff (node.children.elements.any (hasName name.toList) = true ∧
      (fieldText name.toList node).any (fun text => decide (good text)) = true) <| by
    rw [FieldThat, holds_iff, Option.any_eq_true]
    simp only [decide_eq_true_eq]

def TextField (name : String) (capacity : Nat) : XmlNode → Prop :=
  FieldThat name fun text => text.length < capacity

def NumeralField (name : String) (high : Nat) : XmlNode → Prop := FieldThat name (InRange 0 high)

instance (name : String) (capacity : Nat) : DecidablePred (TextField name capacity) :=
  inferInstanceAs (DecidablePred (FieldThat name _))

instance (name : String) (high : Nat) : DecidablePred (NumeralField name high) :=
  inferInstanceAs (DecidablePred (FieldThat name _))

def RegularChild (node : XmlNode) : Prop :=
  isComp1 node = true ∧ TextField "ip" 80 node ∧ NumeralField "port" (2 ^ 16 - 1) node ∨
    isCandidate node = true ∧ TextField "foundation" 32 node ∧
      NumeralField "comp_id" (2 ^ 8 - 1) node ∧
      TextField "transport" 12 node ∧
        NumeralField "prio" (2 ^ 32 - 1) node ∧ TextField "ip" 80 node ∧
      NumeralField "port" (2 ^ 16 - 1) node ∧ TextField "type" 32 node

instance : DecidablePred RegularChild := fun _ => inferInstanceAs (Decidable (_ ∨ _))

structure RegularDoc (doc peer list : XmlNode) : Prop where
  foundPeer : doc.first "registerPeer".toList = some peer
  ufrag : ∃ text, fieldText "ufrag".toList peer.children = some text ∧ text.length < 80
  pwd : ∃ text, fieldText "pwd".toList peer.children = some text ∧ text.length < 80
  foundList : doc.first "candidateList".toList = some list
  children : ∀ node ∈ items list, RegularChild node
  count : (items list).countP isCandidate ≤ pjIceStMaxCand

def DefaultOfLast (lib : SockaddrLib) (nodes : List XmlNode) (rem : RemInfo) : Prop :=
  ∃ node ip port addr, defaultOf nodes = some node ∧ fieldText "ip".toList node = some ip ∧
    fieldText "port".toList node = some port ∧ readAddr lib ip = some addr.ip ∧
    numeralValue port = addr.port.toNat ∧
    rem.defAddr = (Vector.replicate pjIceMaxComp none).setIfInBounds 0 (some addr)

/-- Everything that a usable remote description has, and nothing else. -/
structure CompleteRem (lib : SockaddrLib) (nodes : List XmlNode) (rem : RemInfo) : Prop where
  candCnt : 1 ≤ rem.candCnt ∧ rem.candCnt ≤ pjIceStMaxCand
  decoded : List.Forall₂ (Decodes lib) (nodes.filter isCandidate) rem.cands
  types : ∀ cand ∈ rem.cands, cand.type = .host ∨ cand.type = .srflx ∨ cand.type = .relayed
  addrs : ∀ cand ∈ rem.cands, ∃ text addr, readAddr lib text = some addr.ip ∧ cand.addr = some addr
  ufrag : rem.ufrag.text ≠ []
  pwd : rem.pwd.text ≠ []
  compCnt : rem.compCnt = maxCompId rem.cands 0 ∧ 1 ≤ rem.compCnt
  default : DefaultOfLast lib nodes rem
  zeroes : rem.cand.toList = rem.cands ++ List.replicate (pjIceStMaxCand - rem.candCnt) .zero

theorem regular_isCand {node : XmlNode} (regular : RegularChild node) :
    isCand node = isCandidate node := by
  rcases regular with ⟨comp1, _⟩ | ⟨candidate, _⟩
  · have other : isCand node = false := by simp [isCand, comp1]
    cases candidate : isCandidate node with
    | false => exact other
    | true => exact absurd (isCand_of_isCandidate candidate) (by simp [other])
  · rw [candidate, isCand_of_isCandidate candidate]

theorem regular_fieldsFit {node : XmlNode} (regular : RegularChild node) : FieldsFit node := by
  rcases regular with ⟨comp1, ⟨_, ip, foundIp, fits⟩, ⟨_, port, foundPort, _⟩⟩ | ⟨candidate, fields⟩
  · rw [FieldsFit, if_pos comp1]
    exact ⟨ip, port, foundIp, fits, foundPort⟩
  · obtain ⟨⟨_, foundation, foundationAt, foundationFits⟩, ⟨_, compId, compIdAt, _⟩,
      ⟨_, transport, transportAt, transportFits⟩, ⟨_, prio, prioAt, _⟩, ⟨_, ip, ipAt, ipFits⟩,
      ⟨_, port, portAt, _⟩, ⟨_, type, typeAt, typeFits⟩⟩ := fields
    have notComp1 : ¬ isComp1 node = true := by
      simpa [isCand] using isCand_of_isCandidate candidate
    have found : candText node = some ⟨foundation, compId, transport, prio, ip, port, type⟩ :=
      candText_fields.mpr ⟨foundationAt, compIdAt, transportAt, prioAt, ipAt, portAt, typeAt⟩
    rw [FieldsFit, if_neg notComp1]
    exact ⟨_, found, foundationFits, transportFits, ipFits, typeFits⟩

theorem regular_inBounds {lib : SockaddrLib} {doc peer list : XmlNode}
    (regular : RegularDoc doc peer list) : DocInBounds lib doc := by
  obtain ⟨ufrag, foundUfrag, ufragFits⟩ := regular.ufrag
  obtain ⟨pwd, foundPwd, pwdFits⟩ := regular.pwd
  have header : Header doc peer list ufrag pwd :=
    ⟨regular.foundPeer, foundUfrag, ufragFits, foundPwd, pwdFits, regular.foundList⟩
  have count : (items list).countP isCand = (items list).countP isCandidate :=
    List.countP_congr fun node member => by rw [regular_isCand (regular.children node member)]
  refine ⟨peer, list, ufrag, pwd, header, inBounds_of_all ?_ ?_⟩
  · exact fun node member => regular_fieldsFit (regular.children node member)
  · rw [count, Nat.zero_add]
    exact regular.count

theorem readCandType_known {text : CStr} {type : IceCandType}
    (read : readCandType text = some type) :
    type = .host ∨ type = .srflx ∨ type = .relayed := by
  rw [readCandType] at read
  split at read
  · exact Or.inl (Option.some_inj.mp read).symm
  · split at read
    · exact Or.inr (Or.inl (Option.some_inj.mp read).symm)
    · split at read
      · exact Or.inr (Or.inr (Option.some_inj.mp read).symm)
      · exact absurd read (by simp)

theorem decodes_known {lib : SockaddrLib} {node : XmlNode} {cand : IceSessCand}
    (decodes : Decodes lib node cand) :
    (cand.type = .host ∨ cand.type = .srflx ∨ cand.type = .relayed) ∧
      ∃ text addr, readAddr lib text = some addr.ip ∧ cand.addr = some addr := by
  obtain ⟨texts, _, decoded⟩ := decodes
  simp only [CandText.decode, Option.bind_eq_bind, Option.bind_eq_some_iff, Option.some_inj]
    at decoded
  obtain ⟨type, read, ip, resolved, rfl⟩ := decoded
  exact ⟨readCandType_known read, texts.ip, ⟨ip, _⟩, resolved, rfl⟩

theorem default_complete {lib : SockaddrLib} {doc peer list : XmlNode} {ufrag pwd : CStr}
    {cands : List IceSessCand} {rem : RemInfo} (regular : RegularDoc doc peer list)
    (describes : Describes lib list ufrag pwd cands rem) : DefaultOfLast lib (items list) rem := by
  obtain ⟨addr, ⟨node, ip, port, ipAddr, last, foundIp, _, foundPort, _, resolved, rfl⟩, stored⟩ :=
    describes.defAddr
  obtain ⟨member, comp1⟩ := defaultOf_mem last
  rcases regular.children node member with ⟨_, _, _, port', foundPort', inRange⟩ | ⟨candidate, _⟩
  · cases foundPort.symm.trans foundPort'
    refine ⟨node, ip, port, _, last, foundIp, foundPort, resolved, ?_, by rw [stored]; rfl⟩
    have small : numeralValue port < 2 ^ 16 := Nat.lt_of_le_of_lt inRange.2.2 (by decide)
    rw [unsigned_inRange inRange (by decide), BitVec.toNat_ofNat, Nat.mod_eq_of_lt small]
  · have other := isCand_of_isCandidate candidate
    exact absurd other (by simp [isCand, comp1])

theorem describes_complete {lib : SockaddrLib} {doc peer list : XmlNode} {ufrag pwd : CStr}
    {cands : List IceSessCand} {rem : RemInfo} (regular : RegularDoc doc peer list)
    (accepts : Accepts lib list ufrag pwd) (describes : Describes lib list ufrag pwd cands rem) :
    CompleteRem lib (items list) rem := by
  have same : rem.cands = cands := stored_cands describes.stored
  have component := (someComponent_iff describes.decoded).mp accepts.component
  have candidates : (items list).filter isCandidate = (items list).filter isCand :=
    List.filter_congr fun node member => (regular_isCand (regular.children node member)).symm
  -- Whatever is stored below the count was decoded from an element of the list.
  have each : ∀ cand ∈ rem.cands, ∃ node, Decodes lib node cand := by
    intro cand member
    obtain ⟨node, _, decodes⟩ := forall₂_right describes.decoded (same ▸ member)
    exact ⟨node, decodes⟩
  constructor
  case candCnt =>
    have nonzero := accepted_count accepts describes
    have cells : (cands ++ List.replicate (pjIceStMaxCand - cands.length) IceSessCand.zero).length =
        pjIceStMaxCand := by
      rw [← describes.stored.2, Vector.length_toList]
    have room := describes.stored.1
    rw [List.length_append, List.length_replicate] at cells
    omega
  case decoded =>
    rw [candidates, same]
    exact describes.decoded
  case types =>
    intro cand member
    obtain ⟨node, decodes⟩ := each cand member
    exact (decodes_known decodes).1
  case addrs =>
    intro cand member
    obtain ⟨node, decodes⟩ := each cand member
    exact (decodes_known decodes).2
  case ufrag => exact describes.ufrag ▸ accepts.ufrag
  case pwd => exact describes.pwd ▸ accepts.pwd
  case compCnt =>
    have count := describes.compCnt
    rw [same]
    exact ⟨count, by omega⟩
  case default => exact default_complete regular describes
  case zeroes =>
    rw [describes.stored.2, same, describes.stored.1]

/-- Whatever `rem` held before, it is zero afterwards or holds a complete description. -/
def AllOrNothing (env : PeerEnv) (usrId : CStr) (list : XmlNode) : Prop :=
  ∃ rem', (∀ rem, natclientConnectWithUser env rem usrId = some rem') ∧
    Xor (rem' = resetRemInfo) (CompleteRem env.sockaddr (items list) rem')

theorem received_all_or_nothing {env : PeerEnv} {usrId : CStr} {doc peer list : XmlNode}
    (received : Receives env usrId doc) (regular : RegularDoc doc peer list) :
    AllOrNothing env usrId list := by
  have incomplete : ¬ CompleteRem env.sockaddr (items list) resetRemInfo := fun complete =>
    absurd complete.candCnt.1 (by decide)
  by_cases accepts : DocAccepts env.sockaddr doc
  · obtain ⟨rem', peer', list', ufrag, pwd, cands, connected, header, nonzero, describes⟩ :=
      connect_accepted resetRemInfo received accepts
    obtain ⟨_, _, _, _, header', accepted⟩ := accepts
    -- The look-ups are functions of the document, so both headers are the same.
    obtain ⟨rfl, rfl, rfl⟩ := header_unique header header'
    cases header.foundList.symm.trans regular.foundList
    refine ⟨rem', fun _ => connected, Or.inr ⟨describes_complete regular accepted describes, ?_⟩⟩
    rintro rfl
    exact nonzero rfl
  · have rejected := connect_rejected resetRemInfo received (regular_inBounds regular) accepts
    exact ⟨resetRemInfo, fun _ => rejected, Or.inl ⟨rfl, incomplete⟩⟩

/-- With a regular document nothing can go wrong but what stands before the reader. -/
theorem connect_all_or_nothing_iff (env : PeerEnv) (usrId : CStr) (doc peer list : XmlNode)
    (served : Serves env usrId doc) (regular : RegularDoc doc peer list) :
    AllOrNothing env usrId list ↔ Fetched env usrId := by
  constructor
  · rintro ⟨_, connected, _⟩
    exact fetched_of_connect (connected resetRemInfo)
  · exact fun fetched => received_all_or_nothing ⟨fetched, served⟩ regular

def oneCandidate : XmlNode :=
  document dottedLib "4f2a".toList "7c1d9e".toList "lamp".toList hostCand [hostCand]

def oneCandidateList : XmlNode := listNode dottedLib hostCand [hostCand] (blank .null)

theorem oneCandidate_regular : RegularDoc oneCandidate oneCandidate oneCandidateList where
  foundPeer := by decide +kernel
  ufrag := ⟨"4f2a".toList, by decide +kernel, by decide⟩
  pwd := ⟨"7c1d9e".toList, by decide +kernel, by decide⟩
  foundList := by decide +kernel
  children := by decide +kernel
  count := by decide +kernel

theorem connect_all_or_nothing_iff_oneCandidate :
    AllOrNothing (serverOf oneCandidate) "lamp".toList oneCandidateList ↔
      Fetched (serverOf oneCandidate) "lamp".toList :=
  connect_all_or_nothing_iff (serverOf oneCandidate) "lamp".toList oneCandidate oneCandidate
    oneCandidateList (serverOf_serves (by decide +kernel) _) oneCandidate_regular

def repeatedDefaults : Nat → XmlNode
  | 0 => candNodes dottedLib [hostCand]
  | count + 1 => comp1Node dottedLib hostCand (repeatedDefaults count)

def longList : XmlNode := .element "candidateList".toList (repeatedDefaults 90) .null

def longDescription : XmlNode :=
  .element "registerPeer".toList
    (field "ufrag".toList "4f2a".toList (field "pwd".toList "7c1d9e".toList longList)) .null

theorem longDescription_regular : RegularDoc longDescription longDescription longList where
  foundPeer := by decide +kernel
  ufrag := ⟨"4f2a".toList, by decide +kernel, by decide⟩
  pwd := ⟨"7c1d9e".toList, by decide +kernel, by decide⟩
  foundList := by decide +kernel
  children := by decide +kernel
  count := by decide +kernel

/-- It is regular, and longer than the buffer it is copied to. -/
theorem longDescription_overflow :
    Serves (serverOf longDescription) "lamp".toList longDescription ∧
      RegularDoc longDescription longDescription longList ∧
      ¬ AllOrNothing (serverOf longDescription) "lamp".toList longList := by
  refine ⟨serverOf_serves (by decide +kernel) _, longDescription_regular, ?_⟩
  rintro ⟨_, connected, _⟩
  have reply : (render longDescription).length < buffSize :=
    (fetched_of_connect (connected resetRemInfo)).reply
  exact absurd reply (by decide +kernel)

end Completeness

end NatClient.DescriptionContent
