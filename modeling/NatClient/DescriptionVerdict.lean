import NatClient.DescriptionReading

/-!
The whole document: the lookups in front of the candidate loop, the checks behind it,
and what each outcome of `natclient_connect_with_user` says about the document.
-/

namespace NatClient.DescriptionVerdict

open CString XmlForest Xml2Wrapper IceTypes XmlDecoder DescriptionReading

structure Header (doc peer list : XmlNode) (ufrag pwd : CStr) : Prop where
  foundPeer : doc.first "registerPeer".toList = some peer
  foundUfrag : fieldText "ufrag".toList peer.children = some ufrag
  ufragFits : ufrag.length < 80
  foundPwd : fieldText "pwd".toList peer.children = some pwd
  pwdFits : pwd.length < 80
  foundList : doc.first "candidateList".toList = some list

def items (list : XmlNode) : List XmlNode := list.children.siblings

/-- No step on this document leaves its storage or uses a missing element. -/
def DocInBounds (lib : SockaddrLib) (doc : XmlNode) : Prop :=
  ∃ peer list ufrag pwd, Header doc peer list ufrag pwd ∧ InBounds lib 0 (items list)

def DefaultAddr (lib : SockaddrLib) (items : List XmlNode) (addr : PjSockaddr) : Prop :=
  ∃ node ip port ipAddr, defaultOf items = some node ∧ fieldText "ip".toList node = some ip ∧
    ip ≠ [] ∧ fieldText "port".toList node = some port ∧ toUnsigned (atoi port) ≠ 0 ∧
    readAddr lib ip = some ipAddr ∧ addr = ⟨ipAddr, BitVec.ofNat 16 (toUnsigned (atoi port))⟩

def SomeComponent (items : List XmlNode) : Prop :=
  ∃ node ∈ items, isCand node = true ∧
    ∃ id, fieldText "comp_id".toList node = some id ∧ BitVec.ofInt 8 (atoi id) ≠ 0

structure Accepts (lib : SockaddrLib) (list : XmlNode) (ufrag pwd : CStr) : Prop where
  bounds : InBounds lib 0 (items list)
  passes : ∀ node ∈ items list, Passes lib node
  ufrag : ufrag ≠ []
  pwd : pwd ≠ []
  component : SomeComponent (items list)
  default : ∃ addr, DefaultAddr lib (items list) addr

def DocAccepts (lib : SockaddrLib) (doc : XmlNode) : Prop :=
  ∃ peer list ufrag pwd, Header doc peer list ufrag pwd ∧ Accepts lib list ufrag pwd

/-- The remote description an accepted document leaves behind. -/
structure Describes (lib : SockaddrLib) (list : XmlNode) (ufrag pwd : CStr)
    (cands : List IceSessCand) (rem : RemInfo) : Prop where
  decoded : List.Forall₂ (Decodes lib) ((items list).filter isCand) cands
  stored : Stored rem cands
  ufrag : rem.ufrag.text = ufrag
  pwd : rem.pwd.text = pwd
  compCnt : rem.compCnt = maxCompId cands 0
  defAddr : ∃ addr, DefaultAddr lib (items list) addr ∧
    rem.defAddr = (Vector.replicate pjIceMaxComp none).set 0 (some addr)

theorem header_unique {doc peer list peer' list' : XmlNode} {ufrag pwd ufrag' pwd' : CStr}
    (left : Header doc peer list ufrag pwd) (right : Header doc peer' list' ufrag' pwd') :
    list = list' ∧ ufrag = ufrag' ∧ pwd = pwd' := by
  obtain rfl : peer = peer' := Option.some_inj.mp (left.foundPeer.symm.trans right.foundPeer)
  exact ⟨Option.some_inj.mp (left.foundList.symm.trans right.foundList),
    Option.some_inj.mp (left.foundUfrag.symm.trans right.foundUfrag),
    Option.some_inj.mp (left.foundPwd.symm.trans right.foundPwd)⟩

theorem someComponent_iff {lib : SockaddrLib} {items : List XmlNode} {cands : List IceSessCand}
    (decoded : List.Forall₂ (Decodes lib) (items.filter isCand) cands) :
    SomeComponent items ↔ maxCompId cands 0 ≠ 0 := by
  rw [maxCompId_ne_zero]
  constructor
  · rintro ⟨node, member, isCandidate, id, foundId, nonzero⟩
    have kept : node ∈ items.filter isCand := List.mem_filter.mpr ⟨member, isCandidate⟩
    obtain ⟨cand, stored, decodes⟩ := forall₂_left decoded kept
    obtain ⟨id', foundId', same⟩ := decodes_compId decodes
    cases foundId.symm.trans foundId'
    exact ⟨cand, stored, same ▸ nonzero⟩
  · rintro ⟨cand, stored, nonzero⟩
    obtain ⟨node, kept, decodes⟩ := forall₂_right decoded stored
    obtain ⟨member, isCandidate⟩ := List.mem_filter.mp kept
    obtain ⟨id, foundId, same⟩ := decodes_compId decodes
    exact ⟨node, member, isCandidate, id, foundId, same ▸ nonzero⟩

def startState (ufrag pwd : CharArray 80) : DecodeState :=
  { rem := { resetRemInfo with ufrag := ufrag, pwd := pwd }, comp0Addr := .empty, comp0Port := 0 }

theorem stored_start (ufrag pwd : CharArray 80) : Stored (startState ufrag pwd).rem [] :=
  ⟨rfl, by simp [startState, resetRemInfo]⟩

/-! The checks after the loop, on a state that the loop produced. -/
section Finish
variable {lib : SockaddrLib} {list : XmlNode} {cands : List IceSessCand} {ufrag pwd : CharArray 80}
  {st : DecodeState}

theorem enough_default (loaded : Loaded lib true (items list) cands (startState ufrag pwd) st)
    {ip : IpAddr} (enough : EnoughInfo lib st ip) :
    DefaultAddr lib (items list) ⟨ip, BitVec.ofNat 16 st.comp0Port⟩ := by
  cases known : defaultOf (items list) with
  | none => exact absurd (by rw [(loaded.noComp1 known).1]; rfl) enough.addr
  | some node =>
      obtain ⟨foundIp, port, foundPort, samePort⟩ := loaded.lastComp1 node known
      exact ⟨node, _, port, ip, known, foundIp, enough.addr, foundPort, samePort ▸ enough.port,
        enough.resolved, by rw [samePort]⟩

theorem accepts_enough (loaded : Loaded lib true (items list) cands (startState ufrag pwd) st)
    (accepts : Accepts lib list ufrag.text pwd.text) : ∃ ip, EnoughInfo lib st ip := by
  have component := (someComponent_iff loaded.decoded).mp accepts.component
  obtain ⟨cand, member, _⟩ := (maxCompId_ne_zero cands).mp component
  have stored : Stored st.rem cands := by simpa using loaded.stored [] (stored_start ufrag pwd)
  have sameUfrag : st.rem.ufrag = ufrag := loaded.ufrag
  have samePwd : st.rem.pwd = pwd := loaded.pwd
  have compCnt : st.rem.compCnt = maxCompId cands 0 := loaded.compCnt
  obtain ⟨_, node, text, port, ip, last, foundIp, hasIp, foundPort, hasPort, resolved, _⟩ :=
    accepts.default
  obtain ⟨foundIp', port', foundPort', samePort⟩ := loaded.lastComp1 node last
  cases foundIp.symm.trans foundIp'
  cases foundPort.symm.trans foundPort'
  refine ⟨ip, ?_, sameUfrag ▸ accepts.ufrag, samePwd ▸ accepts.pwd, compCnt ▸ component,
    samePort ▸ hasPort, hasIp, resolved⟩
  rw [stored.1]
  exact Nat.ne_of_gt (List.length_pos_of_mem member)

theorem enough_accepts (bounds : InBounds lib 0 (items list))
    (passes : ∀ node ∈ items list, Passes lib node)
    (loaded : Loaded lib true (items list) cands (startState ufrag pwd) st) {ip : IpAddr}
    (enough : EnoughInfo lib st ip) : Accepts lib list ufrag.text pwd.text := by
  have sameUfrag : st.rem.ufrag = ufrag := loaded.ufrag
  have samePwd : st.rem.pwd = pwd := loaded.pwd
  have compCnt : st.rem.compCnt = maxCompId cands 0 := loaded.compCnt
  exact ⟨bounds, passes, sameUfrag ▸ enough.ufrag, samePwd ▸ enough.pwd,
    (someComponent_iff loaded.decoded).mpr (compCnt ▸ enough.compCnt), _,
    enough_default loaded enough⟩

theorem enough_describes (loaded : Loaded lib true (items list) cands (startState ufrag pwd) st)
    {ip : IpAddr} (enough : EnoughInfo lib st ip) :
    Describes lib list ufrag.text pwd.text cands { st.rem with
      defAddr := st.rem.defAddr.set 0 (some ⟨ip, BitVec.ofNat 16 st.comp0Port⟩) } := by
  have stored : Stored st.rem cands := by simpa using loaded.stored [] (stored_start ufrag pwd)
  constructor
  case decoded => exact loaded.decoded
  case stored => exact stored
  case ufrag => exact congrArg CharArray.text loaded.ufrag
  case pwd => exact congrArg CharArray.text loaded.pwd
  case compCnt => exact loaded.compCnt
  case defAddr =>
    refine ⟨_, enough_default loaded enough, ?_⟩
    rw [loaded.defAddr]
    rfl

end Finish

/-! The lookups in front of the loop. -/
section Lookups
variable {env : PeerEnv} {buff : CStr} {doc peer list : XmlNode} {ufrag pwd : CStr}

theorem readDescription_header (parsed : env.xmlReadMemory buff = some doc)
    (header : Header doc peer list ufrag pwd) :
    readDescription env buff =
      candidateLoop env.sockaddr true list.children
        (startState ⟨ufrag, header.ufragFits⟩ ⟨pwd, header.pwdFits⟩) >>= finish env.sockaddr := by
  rw [readDescription, node_by_name _ _ _ _ parsed, node_by_name _ _ _ _ parsed]
  simp only [copyField_eq, header.foundPeer, header.foundUfrag, header.foundPwd, header.foundList,
    strcpy_of_fits header.ufragFits, strcpy_of_fits header.pwdFits, orAbort, ok_bind]
  rfl

theorem readDescription_headless (parsed : env.xmlReadMemory buff = some doc)
    (headless : ∀ peer list ufrag pwd, ¬ Header doc peer list ufrag pwd) :
    readDescription env buff = .error .abort := by
  rw [readDescription, node_by_name _ _ _ _ parsed, node_by_name _ _ _ _ parsed]
  simp only [copyField_eq]
  cases foundPeer : doc.first "registerPeer".toList with
  | none => rfl
  | some peer =>
  cases copiedUfrag : strcpy 80 (fieldText "ufrag".toList peer.children) with
  | none => simp only [orAbort, ok_bind, copiedUfrag]; rfl
  | some ufrag =>
  cases copiedPwd : strcpy 80 (fieldText "pwd".toList peer.children) with
  | none => simp only [orAbort, ok_bind, copiedUfrag, copiedPwd]; rfl
  | some pwd =>
  cases foundList : doc.first "candidateList".toList with
  | none => simp only [orAbort, ok_bind, copiedUfrag, copiedPwd]; rfl
  | some list =>
      have header : Header doc peer list ufrag.text pwd.text :=
        ⟨foundPeer, strcpy_eq_some.mp copiedUfrag, ufrag.fits,
          strcpy_eq_some.mp copiedPwd, pwd.fits,
          foundList⟩
      exact absurd header (headless peer list ufrag.text pwd.text)

end Lookups

/-- The three outcomes of the decoder, each with what it says about the document. -/
theorem description_verdict (env : PeerEnv) (buff : CStr) (doc : XmlNode)
    (parsed : env.xmlReadMemory buff = some doc) :
    match readDescription env buff with
    | .ok rem => ∃ peer list ufrag pwd cands, Header doc peer list ufrag pwd ∧
        Accepts env.sockaddr list ufrag pwd ∧ Describes env.sockaddr list ufrag pwd cands rem
    | .error .onError => DocInBounds env.sockaddr doc ∧ ¬ DocAccepts env.sockaddr doc
    | .error .abort => ¬ DocInBounds env.sockaddr doc := by
  by_cases found : ∃ peer list ufrag pwd, Header doc peer list ufrag pwd
  -- A look-up outside the list fails, and there is no such document with bounds.
  case neg =>
    push Not at found
    rw [readDescription_headless parsed found]
    rintro ⟨peer, list, ufrag, pwd, header, _⟩
    exact found peer list ufrag pwd header
  case pos =>
    obtain ⟨peer, list, ufrag, pwd, header⟩ := found
    have looped := loop_verdict env.sockaddr true list.children
      (startState ⟨ufrag, header.ufragFits⟩ ⟨pwd, header.pwdFits⟩)
    rw [readDescription_header parsed header]
    cases result : candidateLoop env.sockaddr true list.children
        (startState ⟨ufrag, header.ufragFits⟩ ⟨pwd, header.pwdFits⟩) with
    | error stop =>
        rw [result] at looped
        cases stop with
        | onError =>
            obtain ⟨bounds, node, member, refused⟩ := looped
            refine ⟨⟨peer, list, _, _, header, bounds⟩, ?_⟩
            rintro ⟨peer', list', ufrag', pwd', header', accepts⟩
            obtain ⟨rfl, _⟩ := header_unique header header'
            exact refused (accepts.passes node member)
        | abort =>
            rintro ⟨peer', list', ufrag', pwd', header', bounds⟩
            obtain ⟨rfl, _⟩ := header_unique header header'
            exact looped bounds
    | ok st =>
        rw [result] at looped
        obtain ⟨bounds, passes, cands, loaded⟩ := looped
        rw [ok_bind]
        by_cases checked : ∃ ip, EnoughInfo env.sockaddr st ip
        · obtain ⟨ip, enough⟩ := checked
          rw [finish_enough enough]
          exact ⟨peer, list, ufrag, pwd, cands, header, enough_accepts bounds passes loaded enough,
            enough_describes loaded enough⟩
        · rw [finish_notEnough (not_exists.mp checked)]
          refine ⟨⟨peer, list, _, _, header, bounds⟩, ?_⟩
          rintro ⟨peer', list', ufrag', pwd', header', accepts⟩
          obtain ⟨rfl, rfl, rfl⟩ := header_unique header header'
          exact checked (accepts_enough loaded accepts)

theorem accepted_count {lib : SockaddrLib} {list : XmlNode} {ufrag pwd : CStr}
    {cands : List IceSessCand} {rem : RemInfo} (accepts : Accepts lib list ufrag pwd)
    (describes : Describes lib list ufrag pwd cands rem) : rem.candCnt ≠ 0 := by
  obtain ⟨cand, member, _⟩ :=
    (maxCompId_ne_zero cands).mp ((someComponent_iff describes.decoded).mp accepts.component)
  rw [describes.stored.1]
  exact Nat.ne_of_gt (List.length_pos_of_mem member)

theorem docAccepts_inBounds {lib : SockaddrLib} {doc : XmlNode} (accepts : DocAccepts lib doc) :
    DocInBounds lib doc := by
  obtain ⟨peer, list, ufrag, pwd, header, accepted⟩ := accepts
  exact ⟨peer, list, ufrag, pwd, header, accepted.bounds⟩

/-! The same for the whole call. -/
section Connect
variable {env : PeerEnv} {usrId : CStr} {doc : XmlNode}

/-- What stands before the reader: the URL fits its array and is no format with conversions
where it is logged, and the reply fits the buffer. -/
structure Fetched (env : PeerEnv) (usrId : CStr) : Prop where
  url : (peerUrl env usrId).length < 1024
  logged : env.logLevel < 4 ∨ plainFormat (peerUrl env usrId) = true
  reply : (env.fetch (peerUrl env usrId)).length < buffSize

/-- The reader takes the server's reply for `doc`. -/
def Serves (env : PeerEnv) (usrId : CStr) (doc : XmlNode) : Prop :=
  env.xmlReadMemory (env.fetch (peerUrl env usrId)) = some doc

def Receives (env : PeerEnv) (usrId : CStr) (doc : XmlNode) : Prop :=
  Fetched env usrId ∧ Serves env usrId doc

theorem pjLog_some_iff (maxLevel level : Int) (format : CStr) :
    pjLog maxLevel level format = some () ↔ maxLevel < level ∨ plainFormat format = true := by
  rw [pjLog]
  by_cases fails : level ≤ maxLevel ∧ plainFormat format = false
  · rw [if_pos fails]
    refine iff_of_false (by simp) ?_
    rintro (quiet | plain)
    · omega
    · exact absurd (fails.2.symm.trans plain) (by simp)
  · rw [if_neg fails]
    refine iff_of_true rfl ?_
    by_cases plain : plainFormat format = true
    · exact Or.inr plain
    · exact Or.inl (Int.not_le.mp fun low => fails ⟨low, by simpa using plain⟩)

theorem connect_fetched (rem : RemInfo) (fetched : Fetched env usrId) :
    natclientConnectWithUser env rem usrId =
      leave (readDescription env (env.fetch (peerUrl env usrId))) := by
  have logged := (pjLog_some_iff env.logLevel 4 (peerUrl env usrId)).mpr fetched.logged
  simp only [natclientConnectWithUser, getPeerUrl, strcpy_of_fits fetched.url,
    strcpy_of_fits fetched.reply, Option.bind_eq_bind, Option.bind_some, logged]

theorem connect_unfetched (rem : RemInfo) (fails : ¬ Fetched env usrId) :
    natclientConnectWithUser env rem usrId = none := by
  by_contra ends
  obtain ⟨rem', connected⟩ := Option.ne_none_iff_exists'.mp ends
  simp only [natclientConnectWithUser, getPeerUrl, Option.bind_eq_bind, Option.bind_eq_some_iff]
    at connected
  obtain ⟨url, address, _, logged, buff, copied, _⟩ := connected
  have same : peerUrl env usrId = url.text := Option.some_inj.mp (strcpy_eq_some.mp address)
  have reply : env.fetch url.text = buff.text := Option.some_inj.mp (strcpy_eq_some.mp copied)
  refine fails ⟨same ▸ url.fits, ?_, ?_⟩
  · rw [same]
    exact (pjLog_some_iff _ _ _).mp logged
  · rw [same, reply]
    exact buff.fits

/-- The three ends of a call: a description, a zeroed one, or no defined result. -/
theorem connect_cases (rem : RemInfo) (received : Receives env usrId doc) :
    (∃ rem' peer list ufrag pwd cands, natclientConnectWithUser env rem usrId = some rem' ∧
      Header doc peer list ufrag pwd ∧ Accepts env.sockaddr list ufrag pwd ∧
        Describes env.sockaddr list ufrag pwd cands rem') ∨
    (natclientConnectWithUser env rem usrId = some resetRemInfo ∧ DocInBounds env.sockaddr doc ∧
      ¬ DocAccepts env.sockaddr doc) ∨
    natclientConnectWithUser env rem usrId = none ∧ ¬ DocInBounds env.sockaddr doc := by
  obtain ⟨fetched, parsed⟩ := received
  have verdict := description_verdict env _ doc parsed
  rw [connect_fetched rem fetched]
  cases read : readDescription env (env.fetch (peerUrl env usrId)) with
  | ok rem' =>
      rw [read] at verdict
      obtain ⟨peer, list, ufrag, pwd, cands, header, accepts, describes⟩ := verdict
      exact Or.inl ⟨rem', peer, list, ufrag, pwd, cands, rfl, header, accepts, describes⟩
  | error stop =>
      rw [read] at verdict
      cases stop with
      | abort => exact Or.inr (Or.inr ⟨rfl, verdict⟩)
      | onError => exact Or.inr (Or.inl ⟨rfl, verdict⟩)

theorem connect_fault_iff (rem : RemInfo) (received : Receives env usrId doc) :
    natclientConnectWithUser env rem usrId = none ↔ ¬ DocInBounds env.sockaddr doc := by
  rcases connect_cases rem received with
    ⟨rem', peer, list, ufrag, pwd, _, connected, header, accepts,
      _⟩ | ⟨rejected, bounds, _⟩ | ⟨fault, outside⟩
  · have bounds : DocInBounds env.sockaddr doc := ⟨peer, list, ufrag, pwd, header, accepts.bounds⟩
    rw [connected]
    exact iff_of_false (by simp) (not_not.mpr bounds)
  · rw [rejected]
    exact iff_of_false (by simp) (not_not.mpr bounds)
  · exact iff_of_true fault outside

theorem connect_none_iff (rem : RemInfo) (served : Serves env usrId doc) :
    natclientConnectWithUser env rem usrId = none ↔
      ¬ (Fetched env usrId ∧ DocInBounds env.sockaddr doc) := by
  by_cases fetched : Fetched env usrId
  · rw [connect_fault_iff rem ⟨fetched, served⟩, and_iff_right fetched]
  · exact iff_of_true (connect_unfetched rem fetched) fun both => fetched both.1

theorem connect_accepted (rem : RemInfo) (received : Receives env usrId doc)
    (accepts : DocAccepts env.sockaddr doc) :
    ∃ rem' peer list ufrag pwd cands, natclientConnectWithUser env rem usrId = some rem' ∧
      Header doc peer list ufrag pwd ∧ rem'.candCnt ≠ 0 ∧
        Describes env.sockaddr list ufrag pwd cands rem' := by
  rcases connect_cases rem received with
    ⟨rem', peer, list, ufrag, pwd, cands, connected, header, accepted,
      describes⟩ | ⟨_, _, refuses⟩ | ⟨_, outside⟩
  · exact ⟨rem', peer, list, ufrag, pwd, cands, connected, header,
      accepted_count accepted describes, describes⟩
  · exact absurd accepts refuses
  · exact absurd (docAccepts_inBounds accepts) outside

theorem connect_rejected (rem : RemInfo) (received : Receives env usrId doc)
    (bounds : DocInBounds env.sockaddr doc) (refuses : ¬ DocAccepts env.sockaddr doc) :
    natclientConnectWithUser env rem usrId = some resetRemInfo := by
  rcases connect_cases rem received with
    ⟨_, peer, list, ufrag, pwd, _, _, header, accepts, _⟩ | ⟨rejected, _⟩ | ⟨_, outside⟩
  · exact absurd ⟨peer, list, ufrag, pwd, header, accepts⟩ refuses
  · exact rejected
  · exact absurd bounds outside

theorem accepted_of_connect {rem rem' : RemInfo} (received : Receives env usrId doc)
    (connected : natclientConnectWithUser env rem usrId = some rem') (stored : rem'.candCnt ≠ 0) :
    DocAccepts env.sockaddr doc := by
  by_contra refuses
  by_cases bounds : DocInBounds env.sockaddr doc
  · cases connected.symm.trans (connect_rejected rem received bounds refuses)
    exact stored rfl
  · rw [(connect_fault_iff rem received).mpr bounds] at connected
    exact absurd connected (by simp)

theorem fetched_of_connect {rem rem' : RemInfo}
    (connected : natclientConnectWithUser env rem usrId = some rem') : Fetched env usrId := by
  by_contra fails
  rw [connect_unfetched rem fails] at connected
  exact absurd connected (by simp)

theorem received_of_connect {rem rem' : RemInfo}
    (connected : natclientConnectWithUser env rem usrId = some rem') :
    ∃ doc, Receives env usrId doc := by
  have fetched := fetched_of_connect connected
  cases parsed : env.xmlReadMemory (env.fetch (peerUrl env usrId)) with
  | some doc => exact ⟨doc, fetched, parsed⟩
  | none =>
      have aborted : readDescription env (env.fetch (peerUrl env usrId)) = .error .abort := by
        rw [readDescription, xmlGetNodeByName, parsed]
        rfl
      rw [connect_fetched rem fetched, aborted] at connected
      exact absurd connected (by simp [leave])

theorem stored_iff_accepts {rem rem' : RemInfo} (received : Receives env usrId doc)
    (connected : natclientConnectWithUser env rem usrId = some rem') :
    rem'.candCnt ≠ 0 ↔ DocAccepts env.sockaddr doc := by
  constructor
  · exact accepted_of_connect received connected
  · intro accepts
    obtain ⟨rem'', _, _, _, _, _, connected', _, nonzero, _⟩ :=
      connect_accepted rem received accepts
    cases connected.symm.trans connected'
    exact nonzero

theorem connect_loads {rem rem' : RemInfo}
    (connected : natclientConnectWithUser env rem usrId = some rem') :
    rem' = resetRemInfo ∨ rem'.candCnt ≠ 0 ∧
      ∃ addr, rem'.defAddr = (Vector.replicate pjIceMaxComp none).set 0 (some addr) := by
  obtain ⟨doc, received⟩ := received_of_connect connected
  by_cases accepts : DocAccepts env.sockaddr doc
  · obtain ⟨rem'', _, _, _, _, _, connected', _, nonzero, describes⟩ :=
      connect_accepted rem received accepts
    cases connected.symm.trans connected'
    obtain ⟨addr, _, stored⟩ := describes.defAddr
    exact Or.inr ⟨nonzero, addr, stored⟩
  · have bounds : DocInBounds env.sockaddr doc := by
      by_contra outside
      rw [(connect_fault_iff rem received).mpr outside] at connected
      exact absurd connected (by simp)
    exact Or.inl (Option.some_inj.mp (connected.symm.trans
      (connect_rejected rem received bounds accepts)))

end Connect

end NatClient.DescriptionVerdict
