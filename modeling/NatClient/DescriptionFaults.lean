import NatClient.DescriptionRoundTrip

/-!
What a peer description can do to the decoder. Nothing guards its copies, its
lookups and the candidate index, so a user id or a reply that is not `Fetched` and a
document outside `DocInBounds` drive it out of its storage, and nothing else does. A
lookup runs on into the following siblings, so an accepted document keeps each candidate
to its own element exactly when every element child is a comp_1 or a candidate with all
of its fields.
-/

namespace NatClient.DescriptionFaults

open CString XmlForest XmlNode Xml2Wrapper IceTypes XmlDecoder DescriptionReading
  DescriptionVerdict DescriptionRoundTrip

/-! A server that publishes one document. -/
section Server

def serverOf (doc : XmlNode) : PeerEnv where
  gUrl := "http://server".toList
  logLevel := 5
  fetch _ := render doc
  xmlReadMemory := parseDocument
  sockaddr := dottedLib

theorem serverOf_serves {doc : XmlNode} (wellFormed : parseDocument (render doc) = some doc)
    (usrId : CStr) : Serves (serverOf doc) usrId doc := wellFormed

end Server

section Storage

/-- The decoder stays inside its storage exactly when the URL and the reply fit theirs, no
conversion is in the logged URL, and the document is in bounds. -/
theorem decoder_in_bounds_iff (env : PeerEnv) (rem : RemInfo) (usrId : CStr) (doc : XmlNode)
    (served : Serves env usrId doc) :
    natclientConnectWithUser env rem usrId ≠ none ↔
      Fetched env usrId ∧ DocInBounds env.sockaddr doc := by
  rw [ne_eq, connect_none_iff rem served, not_not]

def nineCandidates : XmlNode :=
  document dottedLib "4f2a".toList "7c1d9e".toList "lamp".toList hostCand
    (List.replicate 5 hostCand ++ List.replicate 4 relayCand)

theorem nineCandidates_wellFormed :
    parseDocument (render nineCandidates) = some nineCandidates := by
  decide +kernel

theorem decoder_in_bounds_iff_nineCandidates :
    natclientConnectWithUser (serverOf nineCandidates) resetRemInfo "lamp".toList ≠ none ↔
      Fetched (serverOf nineCandidates) "lamp".toList ∧ DocInBounds dottedLib nineCandidates :=
  decoder_in_bounds_iff (serverOf nineCandidates) resetRemInfo _ _
    (serverOf_serves nineCandidates_wellFormed _)

theorem nineCandidates_overflow :
    parseDocument (render nineCandidates) = some nineCandidates ∧
      natclientConnectWithUser (serverOf nineCandidates) resetRemInfo "lamp".toList = none := by
  decide +kernel

end Storage

section Ownership

def isCandidate (node : XmlNode) : Bool := node.hasName "candidate".toList

def OwnEntry (lib : SockaddrLib) (node : XmlNode) (cand : IceSessCand) : Prop :=
  ∃ texts : CandText, OwnText "foundation".toList node texts.foundation ∧
    OwnText "comp_id".toList node texts.compId ∧ OwnText "prio".toList node texts.prio ∧
    OwnText "ip".toList node texts.ip ∧ OwnText "port".toList node texts.port ∧
    OwnText "type".toList node texts.type ∧ texts.decode lib = some cand

def Complete (node : XmlNode) : Prop :=
  ∀ name ∈ ["foundation", "comp_id", "transport", "prio", "ip", "port", "type"],
    Holds name.toList node

/-- The call has a result. An accepted list has one entry per candidate child, decoded from
that child; a child without one of its fields makes the document rejected. -/
structure OwnFields (env : PeerEnv) (rem : RemInfo) (usrId : CStr) (list : XmlNode) : Prop where
  result : natclientConnectWithUser env rem usrId ≠ none
  entries : ∀ rem', natclientConnectWithUser env rem usrId = some rem' → rem'.candCnt ≠ 0 →
    List.Forall₂ (OwnEntry env.sockaddr) ((items list).filter isCandidate) rem'.cands
  rejected : ∀ node ∈ items list, isCandidate node = true → ¬ Complete node →
    natclientConnectWithUser env rem usrId = some resetRemInfo

theorem isCand_of_isCandidate {node : XmlNode} (candidate : isCandidate node = true) :
    isCand node = true := by
  obtain ⟨kids, next, rfl⟩ := hasName_shape candidate
  have different : "candidate".toList ≠ "comp_1".toList := by decide
  rw [isCand, isComp1, hasName, decide_eq_false different]
  rfl

theorem complete_ownEntry {lib : SockaddrLib} {node : XmlNode} {cand : IceSessCand}
    (candidate : isCandidate node = true) (complete : Complete node)
    (decodes : Decodes lib node cand) : OwnEntry lib node cand := by
  obtain ⟨kids, next, rfl⟩ := hasName_shape candidate
  obtain ⟨texts, found, decoded⟩ := decodes
  obtain ⟨foundation, compId, _, prio, ip, port, type⟩ := candText_fields.mp found
  have own (field : String) (text : CStr)
      (required : field ∈ ["foundation", "comp_id", "transport", "prio", "ip", "port", "type"])
      (different : "candidate".toList ≠ field.toList)
      (read : fieldText field.toList (.element "candidate".toList kids next) = some text) :
      OwnText field.toList (.element "candidate".toList kids next) text :=
    own_field different (complete field required) read
  exact ⟨texts, own "foundation" _ (by simp) (by decide) foundation,
    own "comp_id" _ (by simp) (by decide) compId, own "prio" _ (by simp) (by decide) prio,
    own "ip" _ (by simp) (by decide) ip, own "port" _ (by simp) (by decide) port,
    own "type" _ (by simp) (by decide) type, decoded⟩

theorem only_candidates {nodes : List XmlNode}
    (same : (nodes.filter isCandidate).length = (nodes.filter isCand).length) :
    ∀ node ∈ nodes, isCand node = true → isCandidate node = true := by
  intro node member isCandidate'
  have filtered : (nodes.filter isCand).filter isCandidate = nodes.filter isCandidate := by
    rw [List.filter_filter]
    apply List.filter_congr
    intro other _
    cases candidate : isCandidate other with
    | false => rfl
    | true => simp [isCand_of_isCandidate candidate]
  have all : ∀ other ∈ nodes.filter isCand, isCandidate other = true := by
    apply List.length_filter_eq_length_iff.mp
    rw [filtered, same]
  exact all node (List.mem_filter.mpr ⟨member, isCandidate'⟩)

/-- Every element child is a comp_1 or a complete candidate. -/
def CleanList (nodes : List XmlNode) : Prop :=
  ∀ node ∈ nodes, isComp1 node = true ∨ isCandidate node = true ∧ Complete node

theorem cleanList_filter {nodes : List XmlNode} (clean : CleanList nodes) :
    nodes.filter isCandidate = nodes.filter isCand := by
  apply List.filter_congr
  intro node member
  rcases clean node member with comp1 | ⟨candidate, _⟩
  · have other : isCand node = false := by simp [isCand, comp1]
    rw [other]
    by_contra candidate
    rw [isCand_of_isCandidate (by simpa using candidate)] at other
    exact absurd other (by simp)
  · rw [candidate, isCand_of_isCandidate candidate]

theorem cleanList_entries {lib : SockaddrLib} {nodes : List XmlNode} {cands : List IceSessCand}
    (clean : CleanList nodes) (decoded : List.Forall₂ (Decodes lib) (nodes.filter isCand) cands) :
    List.Forall₂ (OwnEntry lib) (nodes.filter isCandidate) cands := by
  rw [cleanList_filter clean]
  obtain ⟨length, paired⟩ := List.forall₂_iff_zip.mp decoded
  refine List.forall₂_iff_zip.mpr ⟨length, fun {node cand} pair => ?_⟩
  obtain ⟨member, notComp1⟩ := List.mem_filter.mp (List.of_mem_zip pair).1
  rcases clean node member with comp1 | ⟨candidate, complete⟩
  · exact absurd notComp1 (by simp [isCand, comp1])
  · exact complete_ownEntry candidate complete (paired pair)

theorem ownFields_clean {env : PeerEnv} {rem : RemInfo} {usrId : CStr} {doc list : XmlNode}
    (received : Receives env usrId doc) (found : doc.first "candidateList".toList = some list)
    (own : OwnFields env rem usrId list) (accepts : DocAccepts env.sockaddr doc) :
    CleanList (items list) := by
  intro node member
  obtain ⟨rem', _, list', ufrag, pwd, cands, connected, header, nonzero, describes⟩ :=
    connect_accepted rem received accepts
  cases header.foundList.symm.trans found
  have entries := own.entries rem' connected nonzero
  rw [stored_cands describes.stored] at entries
  have same := entries.length_eq.trans describes.decoded.length_eq.symm
  cases comp1 : isComp1 node with
  | true => exact Or.inl rfl
  | false =>
      have candidate := only_candidates same node member (by simp [isCand, comp1])
      refine Or.inr ⟨candidate, ?_⟩
      by_contra incomplete
      cases connected.symm.trans (own.rejected node member candidate incomplete)
      exact nonzero rfl

/-- Candidates keep to their own elements exactly when the document arrives and stays in
bounds and, if it is accepted, has only comp_1 and complete candidate children. -/
theorem own_fields_iff (env : PeerEnv) (rem : RemInfo) (usrId : CStr) (doc list : XmlNode)
    (served : Serves env usrId doc) (found : doc.first "candidateList".toList = some list) :
    OwnFields env rem usrId list ↔
      Fetched env usrId ∧ DocInBounds env.sockaddr doc ∧
        (DocAccepts env.sockaddr doc → ∀ node ∈ items list,
          isComp1 node = true ∨ isCandidate node = true ∧ Complete node) := by
  constructor
  · intro own
    obtain ⟨fetched, bounds⟩ := (decoder_in_bounds_iff env rem usrId doc served).mp own.result
    exact ⟨fetched, bounds, ownFields_clean ⟨fetched, served⟩ found own⟩
  · rintro ⟨fetched, bounds, clean⟩
    have received : Receives env usrId doc := ⟨fetched, served⟩
    constructor
    case result => exact (decoder_in_bounds_iff env rem usrId doc served).mpr ⟨fetched, bounds⟩
    case entries =>
      intro rem' connected nonzero
      have accepts := accepted_of_connect received connected nonzero
      obtain ⟨rem'', _, list', ufrag, pwd, cands, connected', header, _, describes⟩ :=
        connect_accepted rem received accepts
      cases header.foundList.symm.trans found
      cases connected.symm.trans connected'
      rw [stored_cands describes.stored]
      exact cleanList_entries (clean accepts) describes.decoded
    case rejected =>
      intro node member candidate incomplete
      -- An accepted document has no such child.
      apply connect_rejected rem received bounds
      intro accepts
      rcases clean accepts node member with comp1 | ⟨_, complete⟩
      · have other := isCand_of_isCandidate candidate
        exact absurd other (by simp [isCand, comp1])
      · exact incomplete complete

def withoutIp (next : XmlNode) : XmlNode :=
  .element "candidate".toList
    (field "foundation".toList "A".toList (field "comp_id".toList "1".toList
      (field "transport".toList "UDP".toList (field "prio".toList "1".toList
        (field "port".toList "4002".toList (field "type".toList "host".toList .null)))))) next

def borrowedList : XmlNode :=
  .element "candidateList".toList
    (comp1Node dottedLib hostCand (withoutIp (candNodes dottedLib [hostCand]))) .null

def borrowedIp : XmlNode :=
  .element "registerPeer".toList
    (field "ufrag".toList "4f2a".toList (field "pwd".toList "7c1d9e".toList borrowedList)) .null

theorem borrowedIp_served :
    Serves (serverOf borrowedIp) "lamp".toList borrowedIp ∧
      borrowedIp.first "candidateList".toList = some borrowedList :=
  ⟨serverOf_serves (by decide +kernel) _, by decide +kernel⟩

theorem own_fields_iff_borrowedIp :
    OwnFields (serverOf borrowedIp) resetRemInfo "lamp".toList borrowedList ↔
      Fetched (serverOf borrowedIp) "lamp".toList ∧ DocInBounds dottedLib borrowedIp ∧
        (DocAccepts dottedLib borrowedIp → ∀ node ∈ items borrowedList,
          isComp1 node = true ∨ isCandidate node = true ∧ Complete node) :=
  own_fields_iff (serverOf borrowedIp) resetRemInfo _ _ _ borrowedIp_served.1 borrowedIp_served.2

theorem borrowedIp_not_own :
    Serves (serverOf borrowedIp) "lamp".toList borrowedIp ∧
      borrowedIp.first "candidateList".toList = some borrowedList ∧
      ¬ OwnFields (serverOf borrowedIp) resetRemInfo "lamp".toList borrowedList := by
  refine ⟨borrowedIp_served.1, borrowedIp_served.2, fun own => ?_⟩
  have member : withoutIp (candNodes dottedLib [hostCand]) ∈ items borrowedList := by decide +kernel
  have incomplete : ¬ Complete (withoutIp (candNodes dottedLib [hostCand])) := by
    intro complete
    have noIp : (withoutIp (candNodes dottedLib [hostCand])).children.elements.any
        (hasName "ip".toList) = false := by
      decide +kernel
    rw [(holds_iff _ _).mp (complete "ip" (by simp))] at noIp
    exact absurd noIp (by simp)
  have rejected := own.rejected _ member (by decide +kernel) incomplete
  have stored : natclientConnectWithUser (serverOf borrowedIp) resetRemInfo "lamp".toList ≠
      some resetRemInfo := by decide +kernel
  exact stored rejected

end Ownership

end NatClient.DescriptionFaults
