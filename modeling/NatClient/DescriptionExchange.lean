import NatClient.TransportRuns
import NatClient.DescriptionRoundTrip
import Mathlib.Tactic.IntervalCases

/-!
From the candidates that a transport gathers to the check list of its peer: the session
takes every candidate that is ready, the XML encoder publishes them all, and the agent
that reads the description pairs with them as if the session were its own.
-/

namespace NatClient.DescriptionExchange

open CString IceTypes IceSession IceTransport SessionPrinting XmlEncoder
    DescriptionRoundTrip DescriptionReading
  DescriptionVerdict XmlDecoder XmlForest XmlNode BoundedPrint

section Foundations

theorem hexDigit (value : Nat) : ∀ c ∈ Nat.toDigits 16 value, ∃ d < 16, c = Nat.digitChar d := by
  induction value using Nat.strongRecOn with
  | ind value ih =>
      intro c member
      rw [Nat.toDigits_eq_if (by decide)] at member
      split at member
      case isTrue small => exact ⟨value, small, List.mem_singleton.mp member⟩
      case isFalse large =>
        rcases List.mem_append.mp member with front | last
        · exact ih (value / 16) (by omega) c front
        · exact ⟨value % 16, Nat.mod_lt value (by decide), List.mem_singleton.mp last⟩

theorem digitChar_field : ∀ d < 16, fieldChar (Nat.digitChar d) = true := by decide

theorem foundation_valid (type : IceCandType) (base : PjSockaddr) :
    (1 ≤ (pjIceCalcFoundation type base).length ∧ (pjIceCalcFoundation type base).length ≤ 31) ∧
      ∀ c ∈ pjIceCalcFoundation type base, fieldChar c = true := by
  obtain ⟨val, same⟩ : ∃ val : BitVec 32,
      pjIceCalcFoundation type base = getTypePrefix type :: Nat.toDigits 16 val.toNat := ⟨_, rfl⟩
  rw [same]
  have short : (Nat.toDigits 16 val.toNat).length ≤ 8 :=
    (Nat.length_toDigits_le_iff (by decide) (by decide)).mpr val.isLt
  refine ⟨?_, fun c member => ?_⟩
  · rw [List.length_cons]
    omega
  · rcases List.mem_cons.mp member with rfl | digit
    · cases type <;> decide
    · obtain ⟨d, small, rfl⟩ := hexDigit _ c digit
      exact digitChar_field d small

end Foundations

section Ready
variable {prefs : IceCandType → BitVec 8} {k : Nat} {list : List TransComp}

theorem compId_sessCand {compId : Nat} (small : compId < 256) (cand : GatheredCand) :
    (sessCand prefs compId cand).compId.toNat = compId := by
  rw [sessCand, BitVec.toNat_ofNat]
  exact Nat.mod_eq_of_lt small

theorem mem_readyOf {compId : Nat} {comp : TransComp} {cand : SessCand} :
    cand ∈ readyOf prefs compId comp ↔
      ∃ gathered ∈ comp.candList, gathered.status = .ready ∧
          sessCand prefs compId gathered = cand := by
  rw [readyOf, List.mem_map]
  constructor
  · rintro ⟨gathered, kept, same⟩
    obtain ⟨member, ready⟩ := List.mem_filter.mp kept
    exact ⟨gathered, member, of_decide_eq_true ready, same⟩
  · rintro ⟨gathered, member, ready, same⟩
    exact ⟨gathered, List.mem_filter.mpr ⟨member, decide_eq_true ready⟩, same⟩

theorem mem_readyCands {cand : SessCand} (member : cand ∈ readyCands prefs k list) :
    ∃ i comp, list[i]? = some comp ∧ cand ∈ readyOf prefs (k + i) comp := by
  induction list generalizing k with
  | nil => cases member
  | cons comp rest ih =>
      rw [readyCands] at member
      rcases List.mem_append.mp member with own | later
      · exact ⟨0, comp, rfl, own⟩
      · obtain ⟨i, other, here, inside⟩ := ih later
        refine ⟨i + 1, other, here, ?_⟩
        rwa [Nat.add_right_comm] at inside

theorem compId_readyOf {compId : Nat} (small : compId < 256) {comp : TransComp} {cand : SessCand}
    (member : cand ∈ readyOf prefs compId comp) : cand.compId.toNat = compId := by
  obtain ⟨gathered, _, _, rfl⟩ := mem_readyOf.mp member
  exact compId_sessCand small gathered

theorem readyCands_filter (small : k + list.length ≤ 256) {i : Nat} {comp : TransComp}
    (here : list[i]? = some comp) :
    (readyCands prefs k list).filter (fun cand => cand.compId.toNat = k + i) =
        readyOf prefs (k + i) comp := by
  induction list generalizing k i with
  | nil => cases here
  | cons first rest ih =>
      rw [List.length_cons] at small
      rw [readyCands, List.filter_append]
      -- Either the candidates of the first component or those of a later one pass; none of the
      -- others has that id.
      cases i with
      | zero =>
          obtain rfl := Option.some.inj here
          have own : (readyOf prefs k first).filter
              (fun cand => cand.compId.toNat = k + 0) = readyOf prefs k first :=
            List.filter_eq_self.mpr fun cand member =>
              decide_eq_true (compId_readyOf (by omega) member)
          have none' : (readyCands prefs (k + 1) rest).filter
              (fun cand => cand.compId.toNat = k + 0) = [] := by
            refine List.filter_eq_nil_iff.mpr fun cand member => ?_
            obtain ⟨i, other, there, inside⟩ := mem_readyCands member
            have below := (List.getElem?_eq_some_iff.mp there).1
            rw [compId_readyOf (by omega) inside, decide_eq_true_eq]
            omega
          rw [own, none', List.append_nil, Nat.add_zero]
      | succ i =>
          have none' : (readyOf prefs k first).filter
              (fun cand => cand.compId.toNat = k + (i + 1)) = [] := by
            refine List.filter_eq_nil_iff.mpr fun cand member => ?_
            rw [compId_readyOf (by omega) member, decide_eq_true_eq]
            omega
          have later := @ih (k + 1) (by omega) i here
          rw [none', List.nil_append]
          have place : k + (i + 1) = k + 1 + i := by omega
          rw [place]
          exact later

theorem readyCands_flatMap (small : k + list.length ≤ 256) :
    (List.range list.length).flatMap (fun i =>
      (readyCands prefs k list).filter fun cand =>
          cand.compId.toNat = k + i) = readyCands prefs k list := by
  have blocks (k : Nat) (list : List TransComp) : readyCands prefs k list =
      (List.range list.length).flatMap fun i => (list[i]?).elim [] (readyOf prefs (k + i)) := by
    induction list generalizing k with
    | nil => rfl
    | cons first rest ih =>
        rw [readyCands, ih (k + 1), List.length_cons, List.range_succ_eq_map,
          List.flatMap_cons, List.flatMap_map]
        have shift (i : Nat) : k + 1 + i = k + (i + 1) := by omega
        simp only [shift]
        rfl
  refine Eq.trans ?_ (blocks k list).symm
  refine List.flatMap_congr fun i member => ?_
  have inside := List.mem_range.mp member
  rw [List.getElem?_eq_getElem inside, readyCands_filter small (List.getElem?_eq_getElem inside)]
  rfl

end Ready

section Described
variable {n : Nat} {lcand : List SessCand}

theorem prio_small {prefs : IceCandType → BitVec 8}
    (table : prefs = candTypePrefs ∨ prefs = srflxPrefTable)
    (type : IceCandType) {compId : Nat} (low : 1 ≤ compId) (high : compId ≤ pjIceMaxComp) :
    (calcCandPrio prefs type (localPref.setWidth 32) ((BitVec.ofNat 8 compId).setWidth 32)).toNat <
        2 ^ 31 := by
  have high' : compId ≤ 4 := high
  rcases table with rfl | rfl
  · interval_cases compId <;> cases type <;> decide
  · interval_cases compId <;> cases type <;> decide

theorem own_valid (own : Own n lcand) (few : n ≤ pjIceMaxComp) :
    ∀ cand ∈ lcand, ValidCand n cand.toIceSessCand := by
  obtain ⟨prefs, list, table, rfl, each, rfl⟩ := own
  intro cand member
  obtain ⟨i, comp, here, inside⟩ := mem_readyCands member
  obtain ⟨below, _⟩ := List.getElem?_eq_some_iff.mp here
  obtain ⟨gathered, member', ready, rfl⟩ := mem_readyOf.mp inside
  have known := (each comp (List.mem_of_getElem? here)).gathered gathered member'
  obtain ⟨base, foundation⟩ := known.foundation (Or.inr ready)
  have few' : list.length ≤ 4 := few
  have compId := @compId_sessCand prefs (1 + i) (by omega) gathered
  obtain ⟨lengths, chars⟩ := foundation_valid gathered.type base
  rw [← foundation] at lengths chars
  exact {
    type := known.type
    foundation := lengths
    chars := chars
    compId := by
      rw [compId]
      omega
    prio := prio_small table gathered.type (by omega) (by omega)
    addr := known.addr ready }

def pjEinval : ℕ+ := 70004

def localSession (st : IceStrans) (ufrag pwd : CStr) : LocalSession where
  ufrag := ufrag
  pwd := pwd
  defCand compId :=
    match pjIceStransGetDefCand st compId with
    | .ok (some cand) => .ok cand
    | _ => .error pjEinval
  enumCands compId :=
    match pjIceStransEnumCands st compId pjIceStMaxCand with
    | .ok cands => .ok (cands.map SessCand.toIceSessCand)
    | .error _ => .error pjEinval

/-- The encoder prints every candidate of a session that has no peer yet. -/
theorem emitted_own {st : IceStrans} {ice : IceSess} (here : st.ice = some ice)
    (own : Own st.comps.length ice.lcand)
    (few : st.comps.length ≤ pjIceMaxComp) (ufrag pwd : CStr) :
    emitted (localSession st ufrag pwd) st.comps.length = ice.lcand.map SessCand.toIceSessCand := by
  obtain ⟨prefs, list, _, length, each, lcand⟩ := own
  have few' : st.comps.length ≤ 4 := few
  have blocks := @readyCands_flatMap prefs 1 list (by omega)
  rw [length, ← lcand] at blocks
  rw [emitted]
  conv => rhs; rw [← blocks]
  rw [List.map_flatMap]
  refine List.flatMap_congr fun i member => ?_
  have inside := List.mem_range.mp member
  have found := List.getElem?_eq_getElem (length ▸ inside : i < list.length)
  have block := @readyCands_filter prefs 1 list (by omega) i _ found
  rw [← lcand] at block
  -- A component has no more candidates than the query has room for.
  have short : (readyOf prefs (1 + i) list[i]).length ≤ pjIceStMaxCand := by
    rw [readyOf, List.length_map]
    exact (List.length_filter_le _ _).trans (each _ (List.mem_of_getElem? found)).bound
  have answered : pjIceStransEnumCands st (i + 1) pjIceStMaxCand =
      .ok (ice.lcand.filter fun cand => cand.compId.toNat = 1 + i) := by
    rw [pjIceStransEnumCands, here]
    dsimp only
    rw [if_neg (by omega), Nat.add_comm i 1, block, List.take_of_length_le short]
  rw [localSession]
  dsimp only
  rw [answered]
  rfl

end Described

section Publishing

structure Agent where
  st : IceStrans
  ice : IceSess
  ufrag : CStr
  pwd : CStr
  usrid : CStr
  addr : PjSockaddr
  buffer : Memory
  maxlen : Nat

variable (lib : SockaddrLib) (agent : Agent)

def Agent.session : LocalSession := localSession agent.st agent.ufrag agent.pwd

def Agent.printed : Int × Memory :=
  extractSdpToXml lib agent.session agent.buffer agent.maxlen agent.st.comps.length agent.usrid

def Agent.published : CStr := readText (agent.printed lib).2 (agent.printed lib).1

/-- A transport, in any state that it can reach, with a session that waits for its peer and
whose description fits. -/
structure Publishes : Prop where
  reachable : ∃ env cfg envs first events, pjIceStransCreate cfg envs = some first ∧
    stransRun env first events = some agent.st
  session : agent.st.ice = some agent.ice
  waits : agent.ice.rcand = []
  components : agent.st.comps.length ≤ 3
  some' : agent.ice.lcand ≠ []
  few : agent.ice.lcand.length ≤ pjIceStMaxCand
  ufrag : ValidCredential agent.ufrag
  pwd : ValidCredential agent.pwd
  usrid : ∀ c ∈ agent.usrid, fieldChar c = true
  default : ∃ cand, pjIceStransGetDefCand agent.st 1 = .ok (some cand) ∧ cand.addr = some agent.addr
  port : agent.addr.port ≠ 0
  unsigned : agent.maxlen < 2 ^ 32
  fits : 0 ≤ (agent.printed lib).1

variable {lib agent}

theorem Publishes.own (publishes : Publishes lib agent) :
    SessionOf agent.st.comps.length agent.ice ∧ Own agent.st.comps.length agent.ice.lcand ∧
      agent.st.comps.length ≤ pjIceMaxComp := by
  obtain ⟨env, cfg, envs, first, events, created, ran⟩ := publishes.reachable
  have inv := reached_transInv created ran
  have session := (inv.holds agent.ice publishes.session).session
  exact ⟨session, session.own publishes.waits, inv.few⟩

theorem Publishes.lists (publishes : Publishes lib agent) :
    emitted agent.session agent.st.comps.length = agent.ice.lcand.map SessCand.toIceSessCand := by
  obtain ⟨_, own, few⟩ := publishes.own
  exact emitted_own publishes.session own few agent.ufrag agent.pwd

theorem Publishes.valid (publishes : Publishes lib agent) :
    ValidSession agent.session agent.st.comps.length agent.addr := by
  obtain ⟨_, own, few⟩ := publishes.own
  have lengths : (emitted agent.session agent.st.comps.length).length =
      agent.ice.lcand.length := by
    rw [publishes.lists, List.length_map]
  have cands (cand : IceSessCand) (member : cand ∈ emitted agent.session
      agent.st.comps.length) : ValidCand agent.st.comps.length cand := by
    rw [publishes.lists] at member
    obtain ⟨local', inside, rfl⟩ := List.mem_map.mp member
    exact own_valid own few local' inside
  obtain ⟨cand, inside⟩ := List.exists_mem_of_ne_nil _ publishes.some'
  have compId := (own_valid own few cand inside).compId
  obtain ⟨default, known, addr⟩ := publishes.default
  exact {
    components := ⟨compId.1.trans compId.2, publishes.components⟩
    count := by
      rw [lengths]
      exact ⟨List.length_pos_of_ne_nil publishes.some', publishes.few⟩
    cands := cands
    ufrag := publishes.ufrag
    pwd := publishes.pwd
    default := ⟨default, by rw [Agent.session, localSession]; dsimp only; rw [known], addr⟩
    port := publishes.port }

end Publishing

section Receiving
variable {env : PeerEnv} {agent : Agent}

structure Received (agent : Agent) (rem : RemInfo) : Prop where
  ufrag : rem.ufrag.text = agent.ufrag
  pwd : rem.pwd.text = agent.pwd
  cands : rem.cands = agent.ice.lcand.map SessCand.toIceSessCand
  defAddr : rem.defAddr[0] = some agent.addr

/-- How an agent gets the description that another has published: the server hands it out
under the user id, and the URL with that id fits its array and can be logged. -/
structure Fetches (env : PeerEnv) (agent : Agent) : Prop where
  reads : ReadsPlain xmlMaxNameLength xmlParserMaxDepth env.xmlReadMemory
  numeric : env.sockaddr.Numeric
  url : (peerUrl env agent.usrid).length < 1024
  logged : env.logLevel < 4 ∨ plainFormat (peerUrl env agent.usrid) = true
  served : env.fetch (peerUrl env agent.usrid) = agent.published env.sockaddr

theorem Publishes.received (publishes : Publishes env.sockaddr agent) (fetches : Fetches env agent)
    (rem : RemInfo) :
    ∃ rem', natclientConnectWithUser env rem agent.usrid = some rem' ∧ Received agent rem' := by
  have valid := publishes.valid
  obtain ⟨default, known, hasAddr⟩ := valid.default
  obtain ⟨positive, bound⟩ := extract_room publishes.unsigned publishes.fits
  obtain ⟨text, encoded, _, written⟩ := extract_text bound positive publishes.fits
  have shape := fullText_document valid.components.1 known encoded
  have short : agent.usrid.length < 1024 := by
    have url := fetches.url
    simp only [peerUrl, List.length_append] at url
    omega
  -- What the server hands out is the document of the session, and there is room for it.
  have room := document_length fetches.numeric valid hasAddr short
  have reply : env.fetch (peerUrl env agent.usrid) = _ :=
    (fetches.served.trans written).trans shape
  have fetched : Fetched env agent.usrid := ⟨fetches.url, fetches.logged, reply ▸ room⟩
  have parsed := document_read fetches.reads fetches.numeric valid publishes.usrid room
  obtain ⟨rem', connected, restored⟩ :=
    received_restored fetches.numeric valid hasAddr ⟨fetched, reply ▸ parsed⟩ rem
  exact ⟨rem', connected, restored.ufrag, restored.pwd, restored.cands.trans publishes.lists,
    restored.defAddr⟩

end Receiving

section Pairing

def addrsOf (home : Bool) : List PjSockaddr :=
  if home then [hostAddr, ⟨.inet 0xC0A80001, 4000⟩] else [peerAddr, ⟨.inet 0xC0A80002, 4000⟩]

def sideOf (home : Bool) : Role := if home then .controlling else .controlled

def addressesCfg : StransCfg := ⟨false, 2, false, false, false, true, 10000⟩

def hostState (home : Bool) : Option IceStrans :=
  (pjIceStransCreate addressesCfg [⟨some ((addrsOf home).headD hostAddr, (addrsOf home).tail),
    .refused⟩]).bind fun first => stransRun allSent first [.initIce (sideOf home) 0 none]

theorem hostState_made (home : Bool) : (hostState home).isSome = true := by
  cases home <;> decide

def agentAt (home : Bool) : Agent :=
  let st := (hostState home).get (hostState_made home)
  { st := st
    ice := st.ice.getD (pjIceSessCreate (sideOf home) 1 0)
    ufrag := "4f2a".toList
    pwd := "7c1d9e".toList
    usrid := if home then "home".toList else "lamp".toList
    addr := if home then hostAddr else peerAddr
    buffer := fun _ => '\x00'
    maxlen := 2048 }

def serverOf (home : Bool) : PeerEnv where
  gUrl := "http://server".toList
  logLevel := 5
  fetch _ := (agentAt home).published dottedLib
  xmlReadMemory := parseDocument
  sockaddr := dottedLib

end Pairing

end NatClient.DescriptionExchange
