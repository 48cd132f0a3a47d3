import NatClient.Download
import NatClient.Xml2Wrapper

/-!
`get_peers_from_network` of peers.c. The server's list of devices is downloaded into a
buffer on the stack, and the loop over the elements of DeviceList looks a Device up from
each of them and copies its text into the cell at `count`. No result stands for a copy past
an array, for a cell outside the list and for a NULL pointer that is followed.
-/

namespace NatClient.PeerList

open CString XmlForest Xml2Wrapper HttpWrapper Download

def maxPeer : Nat := 10

structure PeerT where
  name : Vector Char 256

structure PeerListT where
  count : Nat
  peer : Vector PeerT maxPeer

structure Source where
  gUrl : CStr
  buff : Vector Char 1024
  download : CStr → Download
  xmlReadMemory : CStr → Option XmlNode

def urlText (source : Source) (networkId : CStr) : CStr :=
  source.gUrl ++ "/device/getDevicesFromNetwork/".toList ++ networkId

def textOf (buff : Vector Char 1024) : Option CStr :=
  if '\x00' ∈ buff.toList then some (cString buff.toList) else none

def storeName (value : Option CStr) (list : PeerListT) : Option PeerListT :=
  if slot : list.count < maxPeer then do
    let name ← copyInto (list.peer.get ⟨list.count, slot⟩).name (← value)
    some { list with peer := list.peer.set list.count ⟨name⟩ slot }
  else none

/-- The loop over `cur_node`. Nothing in it counts. -/
def deviceLoop : XmlNode → PeerListT → Option PeerListT
  | .null, list => some list
  | .element name children next, list => do
      let value := xmlXmlnodeGetContentByName (.element name children next) "Device".toList
      deviceLoop next (← storeName value list)
  | .text _ next, list => deviceLoop next list
  | .other next, list => deviceLoop next list
  | .entity _ _ next, list => deviceLoop next list
  | .endless _ next, list => deviceLoop next list

def getPeersFromNetwork (source : Source) (networkId : CStr) (peerList : PeerListT) :
    Option (Nat × PeerListT) := do
  let fullUrl ← strcpy 1000 (some (urlText source networkId))
  let (_rc, buff) ← httpGetRequest (source.download fullUrl.text) source.buff
  let text ← textOf buff
  let aNode ← xmlGetNodeByName source.xmlReadMemory text "DeviceList".toList
  let list ← deviceLoop aNode.children { peerList with count := 0 }
  some (list.count, list)

/-! One round of the loop, and the whole of it. -/
section Loop
variable {list after : PeerListT} {value : Option CStr}

/-- At most the cell at `count` is another one, and `count` is the same. -/
structure KeepsOthers (before after : PeerListT) : Prop where
  count : after.count = before.count
  others : ∀ slot : Fin maxPeer, slot.val ≠ before.count →
    after.peer.get slot = before.peer.get slot

theorem KeepsOthers.refl (list : PeerListT) : KeepsOthers list list := ⟨rfl, fun _ _ => rfl⟩

theorem KeepsOthers.trans {before middle after : PeerListT} (first : KeepsOthers before middle)
    (second : KeepsOthers middle after) : KeepsOthers before after := by
  refine ⟨second.count.trans first.count, fun slot different => ?_⟩
  have elsewhere : slot.val ≠ middle.count := first.count ▸ different
  rw [second.others slot elsewhere, first.others slot different]

theorem storeName_keeps (stored : storeName value list = some after) : KeepsOthers list after := by
  rw [storeName] at stored
  split at stored
  · next slot =>
      simp only [Option.bind_eq_bind, Option.bind_eq_some_iff] at stored
      obtain ⟨text, _, name, _, ⟨⟩⟩ := stored
      refine ⟨rfl, fun other different => ?_⟩
      exact Vector.getElem_set_ne slot other.isLt (Ne.symm different)
  · exact absurd stored (by simp)

theorem storeName_some_iff (slot : list.count < maxPeer) :
    (∃ after, storeName value list = some after) ↔
        ∃ text, value = some text ∧ text.length ≤ 255 := by
  rw [storeName, dif_pos slot]
  constructor
  · rintro ⟨after, stored⟩
    simp only [Option.bind_eq_bind, Option.bind_eq_some_iff] at stored
    obtain ⟨text, looked, name, copied, _⟩ := stored
    refine ⟨text, looked, Nat.le_of_not_lt fun long => ?_⟩
    rw [copyInto_long _ long] at copied
    exact absurd copied (by simp)
  · rintro ⟨text, rfl, short⟩
    simp only [Option.bind_eq_bind, Option.bind_some, copyInto_of_fits _ (Nat.lt_succ_of_le short)]
    exact ⟨_, rfl⟩

theorem loop_keeps {chain : XmlNode} (ran : deviceLoop chain list = some after) :
    KeepsOthers list after := by
  induction chain generalizing list with
  | null =>
      cases ran
      exact .refl _
  | element name children next _ ih =>
      simp only [deviceLoop, Option.bind_eq_bind, Option.bind_eq_some_iff] at ran
      obtain ⟨middle, stored, rest⟩ := ran
      exact (storeName_keeps stored).trans (ih rest)
  | text _ next ih => exact ih ran
  | other next ih => exact ih ran
  | entity _ _ next _ ih => exact ih ran
  | endless _ next ih => exact ih ran

def NamesFit (chain : XmlNode) : Prop :=
  ∀ node ∈ chain.siblings, ∃ text, fieldText "Device".toList node = some text ∧ text.length ≤ 255

theorem loop_some_iff (chain : XmlNode) (slot : list.count < maxPeer) :
    (∃ after, deviceLoop chain list = some after) ↔ NamesFit chain := by
  induction chain generalizing list with
  | null => exact iff_of_true ⟨list, rfl⟩ fun node member =>
      absurd member (by simp [XmlNode.siblings])
  | element name children next _ ih =>
      have here := @storeName_some_iff list
        (xmlXmlnodeGetContentByName (.element name children next) "Device".toList) slot
      rw [content_by_name] at here
      rw [NamesFit, XmlNode.siblings, List.forall_mem_cons, ← here]
      simp only [deviceLoop, Option.bind_eq_bind, Option.bind_eq_some_iff, content_by_name]
      constructor
      · rintro ⟨after, middle, stored, rest⟩
        have again : middle.count < maxPeer := (storeName_keeps stored).count ▸ slot
        exact ⟨⟨middle, stored⟩, (ih again).mp ⟨after, rest⟩⟩
      · rintro ⟨⟨middle, stored⟩, later⟩
        have again : middle.count < maxPeer := (storeName_keeps stored).count ▸ slot
        obtain ⟨after, rest⟩ := (ih again).mpr later
        exact ⟨after, middle, stored, rest⟩
  | text _ next ih => exact ih slot
  | other next ih => exact ih slot
  | entity _ _ next _ ih => exact ih slot
  | endless _ next ih => exact ih slot

end Loop

/-! The whole call, for a reply that arrives. -/
section Call
variable {source : Source} {networkId : CStr} {before : PeerListT} {doc list : XmlNode}

def reply (source : Source) (networkId : CStr) : Download :=
  source.download (urlText source networkId)

structure Replies (source : Source) (networkId : CStr) (doc : XmlNode) : Prop where
  handle : (reply source networkId).handle = true
  initial : (reply source networkId).initial ≠ none
  granted : ∀ delivery ∈ (reply source networkId).deliveries, delivery.grant ≠ none
  text : '\x00' ∉ (reply source networkId).body
  read : source.xmlReadMemory (reply source networkId).body = some doc

def TextsFit (source : Source) (networkId : CStr) : Prop :=
  (urlText source networkId).length ≤ 999 ∧ (reply source networkId).body.length ≤ 1023

theorem textOf_fill (buff : Vector Char 1024) (text : CharArray 1024) (clean : '\x00' ∉ text.text) :
    textOf (fill buff text) = some text.text := by
  rw [textOf, fill_toList, if_pos (by simp), cString_terminated _ _ clean]

theorem call_loop (replied : Replies source networkId doc)
    (found : doc.first "DeviceList".toList = some list) (fit : TextsFit source networkId) :
    getPeersFromNetwork source networkId before =
      (deviceLoop list.children { before with count := 0 }).map fun after =>
          (after.count, after) := by
  obtain ⟨handle, initial, granted, text, read⟩ := replied
  have fetched : httpGetRequest (source.download (urlText source networkId)) source.buff =
      some (0, fill source.buff ⟨(reply source networkId).body, Nat.lt_succ_of_le fit.2⟩) :=
    request_granted handle initial granted text (Nat.lt_succ_of_le fit.2)
  have node :=
    node_by_name source.xmlReadMemory (reply source networkId).body "DeviceList".toList doc read
  simp only [getPeersFromNetwork, strcpy_of_fits (Nat.lt_succ_of_le fit.1), Option.bind_eq_bind,
    Option.bind_some, fetched]
  rw [textOf_fill _ _ text, Option.bind_some, node, found, Option.bind_some]
  cases deviceLoop list.children { before with count := 0 } <;> rfl

theorem call_overflows (replied : Replies source networkId doc)
    (large : ¬ TextsFit source networkId) :
    getPeersFromNetwork source networkId before = none := by
  by_cases url : (urlText source networkId).length ≤ 999
  · have long : 1024 ≤ (reply source networkId).body.length := by
      by_contra short
      exact large ⟨url, by omega⟩
    have fetched : httpGetRequest (source.download (urlText source networkId)) source.buff = none :=
      request_overflows replied.handle replied.initial replied.granted replied.text long
    simp only [getPeersFromNetwork, strcpy_of_fits (Nat.lt_succ_of_le url), Option.bind_eq_bind,
      Option.bind_some, fetched, Option.bind_none]
  · rw [getPeersFromNetwork, strcpy_of_long (Nat.not_le.mp url)]
    rfl

/-- The call comes to its end exactly when nothing it copies is too long. -/
theorem call_some_iff (before : PeerListT) (replied : Replies source networkId doc)
    (found : doc.first "DeviceList".toList = some list) :
    (∃ result, getPeersFromNetwork source networkId before = some result) ↔
      TextsFit source networkId ∧ NamesFit list.children := by
  have slot : ({ before with count := 0 } : PeerListT).count < maxPeer := (by decide : 0 < maxPeer)
  by_cases fit : TextsFit source networkId
  · rw [call_loop replied found fit, and_iff_right fit, ← loop_some_iff list.children slot]
    constructor
    · rintro ⟨result, ran⟩
      obtain ⟨after, loop, _⟩ := Option.map_eq_some_iff.mp ran
      exact ⟨after, loop⟩
    · rintro ⟨after, loop⟩
      exact ⟨(after.count, after), by rw [loop, Option.map_some]⟩
  · refine iff_of_false (fun ends => ?_) (fun holds => fit holds.1)
    obtain ⟨result, ran⟩ := ends
    rw [call_overflows replied fit] at ran
    exact absurd ran (by simp)

theorem call_returns_zero (replied : Replies source networkId doc)
    (found : doc.first "DeviceList".toList = some list) {number : Nat} {after : PeerListT}
    (ran : getPeersFromNetwork source networkId before = some (number, after)) :
    number = 0 ∧ after.count = 0 ∧
      ∀ slot : Fin maxPeer, slot.val ≠ 0 → after.peer.get slot = before.peer.get slot := by
  have fit : TextsFit source networkId := by
    by_contra large
    rw [call_overflows replied large] at ran
    exact absurd ran (by simp)
  rw [call_loop replied found fit] at ran
  obtain ⟨final, loop, ⟨⟩⟩ := Option.map_eq_some_iff.mp ran
  have kept := loop_keeps loop
  exact ⟨kept.count, kept.count, kept.others⟩

end Call

/-! What a list of the devices would be. -/
section Claim
variable {source : Source} {networkId : CStr} {before : PeerListT} {doc list : XmlNode}

def childDevices (list : XmlNode) : List XmlNode :=
  list.children.siblings.filter (XmlNode.hasName "Device".toList)

def innerDevices (list : XmlNode) : List XmlNode :=
  list.children.elements.filter (XmlNode.hasName "Device".toList)

/-- The call ends with the number of devices, as far as they find room, and their texts. -/
def Listed (devices : List XmlNode) (result : Option (Nat × PeerListT)) : Prop :=
  ∃ after, result = some (min devices.length maxPeer, after) ∧
    after.count = min devices.length maxPeer ∧
      ∀ (slot : Fin maxPeer) (device : XmlNode), devices[slot.val]? = some device →
        cString (after.peer.get slot).name.toList = xmlNodeGetContent device

theorem listed_iff (replied : Replies source networkId doc)
    (found : doc.first "DeviceList".toList = some list) (devices : List XmlNode) :
    Listed devices (getPeersFromNetwork source networkId before) ↔
      TextsFit source networkId ∧ devices = [] ∧ NamesFit list.children := by
  have ends := call_some_iff before replied found
  constructor
  · rintro ⟨after, ran, _⟩
    obtain ⟨fit, names⟩ := ends.mp ⟨_, ran⟩
    have zero := (call_returns_zero replied found ran).1
    have none : devices.length = 0 := by
      simp only [maxPeer] at zero
      omega
    exact ⟨fit, List.length_eq_zero_iff.mp none, names⟩
  · rintro ⟨fit, rfl, names⟩
    obtain ⟨⟨number, after⟩, ran⟩ := ends.mpr ⟨fit, names⟩
    obtain ⟨rfl, count, _⟩ := call_returns_zero replied found ran
    exact ⟨after, ran, count, fun slot device none => absurd none (by simp)⟩

theorem siblings_inside {forest node inner : XmlNode} (member : node ∈ forest.siblings)
    (below : inner ∈ node.elements) : inner ∈ forest.elements := by
  induction forest with
  | null => exact absurd member (by simp [XmlNode.siblings])
  | element name children next _ ih =>
      rcases List.mem_cons.mp member with rfl | later
      · exact below
      · exact List.mem_cons_of_mem _ (List.mem_append_right _ (ih later))
  | text _ next ih => exact ih member
  | other next ih => exact ih member
  | entity _ _ next _ ih => exact List.mem_append_right _ (ih member)
  | endless _ next ih => exact ih member

theorem no_device_iff (list : XmlNode) :
    innerDevices list = [] ∧ NamesFit list.children ↔
      list.children.siblings = [] ∧ innerDevices list = [] := by
  constructor
  · rintro ⟨none, names⟩
    refine ⟨List.eq_nil_iff_forall_not_mem.mpr ?_, none⟩
    intro node member
    obtain ⟨text, looked, _⟩ := names node member
    obtain ⟨device, found, _⟩ := Option.map_eq_some_iff.mp looked
    have inside : device ∈ innerDevices list := List.mem_filter.mpr
      ⟨siblings_inside member (XmlNode.first_mem found), XmlNode.first_hasName found⟩
    rw [none] at inside
    exact absurd inside List.not_mem_nil
  · rintro ⟨childless, none⟩
    refine ⟨none, ?_⟩
    rw [NamesFit, childless]
    exact fun node member => absurd member List.not_mem_nil

/-- Whether the devices are looked for among the children or at any depth, they are listed
only where there are none: then the call still has to survive the other elements. -/
theorem peers_listed_iff (before : PeerListT) (replied : Replies source networkId doc)
    (found : doc.first "DeviceList".toList = some list) :
    (Listed (childDevices list) (getPeersFromNetwork source networkId before) ↔
        TextsFit source networkId ∧ childDevices list = [] ∧ NamesFit list.children) ∧
      (Listed (innerDevices list) (getPeersFromNetwork source networkId before) ↔
        TextsFit source networkId ∧ list.children.siblings = [] ∧ innerDevices list = []) := by
  refine ⟨listed_iff replied found _, ?_⟩
  rw [listed_iff replied found, no_device_iff]

def lampList : XmlNode :=
  .element "DeviceList".toList (.element "Device".toList (.text "lamp".toList .null) .null) .null

def lampSource : Source where
  gUrl := "http://server".toList
  buff := Vector.replicate 1024 '?'
  download _ := ⟨some fun _ => '?', true, [⟨render lampList, some ⟨true, fun _ => '?'⟩⟩], curleOk⟩
  xmlReadMemory := parseDocument

def noPeers : PeerListT := ⟨0, Vector.replicate maxPeer ⟨Vector.replicate 256 '?'⟩⟩

theorem lamp_replies : Replies lampSource "home".toList lampList where
  handle := rfl
  initial := Option.some_ne_none _
  granted := by
    intro delivery member
    obtain rfl := List.mem_singleton.mp member
    exact Option.some_ne_none _
  text := by decide
  read := by decide +kernel

theorem peers_listed_iff_lamp :
    (Listed (childDevices lampList) (getPeersFromNetwork lampSource "home".toList noPeers) ↔
        TextsFit lampSource "home".toList ∧
          childDevices lampList = [] ∧ NamesFit lampList.children) ∧
      (Listed (innerDevices lampList) (getPeersFromNetwork lampSource "home".toList noPeers) ↔
        TextsFit lampSource "home".toList ∧ lampList.children.siblings = [] ∧
          innerDevices lampList = []) :=
  peers_listed_iff noPeers lamp_replies (by decide)

/-- One device is served, and none is counted. -/
theorem device_not_counted :
    Replies lampSource "home".toList lampList ∧ (childDevices lampList).length = 1 ∧
      childDevices lampList = innerDevices lampList ∧
      ∃ after, getPeersFromNetwork lampSource "home".toList noPeers = some (0, after) ∧
        ¬ Listed (childDevices lampList) (some (0, after)) := by
  have found : lampList.first "DeviceList".toList = some lampList := by decide
  have ends : TextsFit lampSource "home".toList ∧ NamesFit lampList.children := by
    refine ⟨⟨by decide, by decide⟩, fun node member => ?_⟩
    obtain rfl := List.mem_singleton.mp member
    exact ⟨"lamp".toList, by decide, by decide⟩
  obtain ⟨⟨number, after⟩, ran⟩ := (call_some_iff noPeers lamp_replies found).mpr ends
  obtain ⟨rfl, _⟩ := call_returns_zero lamp_replies found ran
  refine ⟨lamp_replies, by decide, by decide, after, ran, fun listed => ?_⟩
  rw [← ran, listed_iff lamp_replies found] at listed
  exact absurd listed.2.1 (by decide)

end Claim

end NatClient.PeerList
