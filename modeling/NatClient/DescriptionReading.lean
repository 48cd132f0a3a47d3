import NatClient.XmlDecoder

/-!
What `natclient_connect_with_user` makes of a document, said about the document:
which lookups a child of candidateList is read through, when every step stays in
its bounds, when a child is refused, and what is stored otherwise. The candidate
loop is proved to follow this reading over every list of children.
-/

namespace NatClient.DescriptionReading

open CString XmlForest Xml2Wrapper IceTypes XmlDecoder

structure CandText where
  foundation : CStr
  compId : CStr
  transport : CStr
  prio : CStr
  ip : CStr
  port : CStr
  type : CStr

def candText (node : XmlNode) : Option CandText := do
  let foundation ← fieldText "foundation".toList node
  let compId ← fieldText "comp_id".toList node
  let transport ← fieldText "transport".toList node
  let prio ← fieldText "prio".toList node
  let ip ← fieldText "ip".toList node
  let port ← fieldText "port".toList node
  let type ← fieldText "type".toList node
  some { foundation, compId, transport, prio, ip, port, type }

structure CandText.Fits (texts : CandText) : Prop where
  foundation : texts.foundation.length < 32
  transport : texts.transport.length < 12
  ip : texts.ip.length < 80
  type : texts.type.length < 32

def CandText.decode (lib : SockaddrLib) (texts : CandText) : Option IceSessCand := do
  let type ← readCandType texts.type
  let ip ← readAddr lib texts.ip
  some
    { type := type
      compId := BitVec.ofInt 8 (atoi texts.compId)
      foundation := texts.foundation
      prio := BitVec.ofInt 32 (atoi texts.prio)
      addr := some ⟨ip, BitVec.ofInt 16 (atoi texts.port)⟩ }

/-- Every element child that is not a comp_1 is read as a candidate. -/
def isComp1 (node : XmlNode) : Bool := node.hasName "comp_1".toList
def isCand (node : XmlNode) : Bool := !isComp1 node

def FieldsFit (node : XmlNode) : Prop :=
  if isComp1 node then
    ∃ ip port, fieldText "ip".toList node = some ip ∧ ip.length < 80 ∧
      fieldText "port".toList node = some port
  else ∃ texts, candText node = some texts ∧ texts.Fits

def Passes (lib : SockaddrLib) (node : XmlNode) : Prop :=
  isComp1 node = true ∨ ∃ texts cand, candText node = some texts ∧ texts.decode lib = some cand

/-- Each child that is reached finds fields that fit and, if it is a candidate,
a free array slot. A child is reached when every earlier one passes. -/
def InBounds (lib : SockaddrLib) (stored : Nat) (items : List XmlNode) : Prop :=
  ∀ before node after, items = before ++ node :: after → (∀ earlier ∈ before, Passes lib earlier) →
    FieldsFit node ∧ (isCand node = true → stored + before.countP isCand < pjIceStMaxCand)

theorem inBounds_nil (lib : SockaddrLib) (stored : Nat) : InBounds lib stored [] := by
  intro before node after shape
  exact absurd shape (by simp)

theorem inBounds_cons (lib : SockaddrLib) (stored : Nat) (node : XmlNode) (rest : List XmlNode) :
    InBounds lib stored (node :: rest) ↔
      (FieldsFit node ∧ (isCand node = true → stored < pjIceStMaxCand)) ∧
        (Passes lib node → InBounds lib (stored + [node].countP isCand) rest) := by
  constructor
  · intro bounds
    refine ⟨by simpa using bounds [] node rest rfl (by simp), ?_⟩
    intro passes before later after shape earlier
    have reached := bounds (node :: before) later after (by simp [shape])
      (by simpa using ⟨passes, earlier⟩)
    simpa [List.countP_cons, Nat.add_assoc, Nat.add_comm, Nat.add_left_comm] using reached
  · rintro ⟨⟨fits, room⟩, later⟩ before chosen after shape earlier
    cases before with
    | nil =>
        simp only [List.nil_append, List.cons.injEq] at shape
        obtain ⟨rfl, rfl⟩ := shape
        exact ⟨fits, by simpa using room⟩
    | cons head before =>
        simp only [List.cons_append, List.cons.injEq] at shape
        obtain ⟨rfl, rfl⟩ := shape
        have reached := later (earlier node (by simp)) before chosen after rfl
          (fun m member => earlier m (by simp [member]))
        simpa [List.countP_cons, Nat.add_assoc, Nat.add_comm, Nat.add_left_comm] using reached

theorem inBounds_of_all {lib : SockaddrLib} {stored : Nat} {items : List XmlNode}
    (fits : ∀ node ∈ items, FieldsFit node) (room : stored + items.countP isCand ≤ pjIceStMaxCand) :
    InBounds lib stored items := by
  intro before node after shape _
  refine ⟨fits node (by simp [shape]), fun isCandidate => ?_⟩
  simp only [shape, List.countP_append, List.countP_cons, isCandidate, ↓reduceIte] at room
  omega

/-- The last comp_1, whose texts remain in the two locals. -/
def defaultOf : List XmlNode → Option XmlNode
  | [] => none
  | node :: rest => (defaultOf rest).or (if isComp1 node then some node else none)

def Stored (rem : RemInfo) (cands : List IceSessCand) : Prop :=
  rem.candCnt = cands.length ∧
    rem.cand.toList = cands ++ List.replicate (pjIceStMaxCand - cands.length) .zero

def Decodes (lib : SockaddrLib) (node : XmlNode) (cand : IceSessCand) : Prop :=
  ∃ texts, candText node = some texts ∧ texts.decode lib = some cand

def maxCompId (cands : List IceSessCand) (start : Nat) : Nat :=
  cands.foldl (fun top cand => max top cand.compId.toNat) start

structure Loaded (lib : SockaddrLib) (first : Bool) (items : List XmlNode)
    (cands : List IceSessCand) (before after : DecodeState) : Prop where
  decoded : List.Forall₂ (Decodes lib) (items.filter isCand) cands
  count : after.rem.candCnt = before.rem.candCnt + cands.length
  stored : ∀ old, Stored before.rem old → Stored after.rem (old ++ cands)
  compCnt : after.rem.compCnt = maxCompId cands before.rem.compCnt
  ufrag : after.rem.ufrag = before.rem.ufrag
  pwd : after.rem.pwd = before.rem.pwd
  defAddr : after.rem.defAddr = before.rem.defAddr
  lastComp1 : ∀ node, defaultOf items = some node →
    fieldText "ip".toList node = some after.comp0Addr.text ∧
      ∃ port, fieldText "port".toList node = some port ∧ after.comp0Port = toUnsigned (atoi port)
  noComp1 : defaultOf items = none → after.comp0Addr = before.comp0Addr ∧
    (first = false → after.comp0Port = before.comp0Port)

theorem loaded_nil (lib : SockaddrLib) (first : Bool) (st : DecodeState) :
    Loaded lib first [] [] st st where
  decoded := .nil
  count := rfl
  stored _ old := by simpa using old
  compCnt := rfl
  ufrag := rfl
  pwd := rfl
  defAddr := rfl
  lastComp1 _ found := by simp [defaultOf] at found
  noComp1 _ := ⟨rfl, fun _ => rfl⟩

theorem loaded_cons {lib : SockaddrLib} {first : Bool} {node : XmlNode} {rest : List XmlNode}
    {early late : List IceSessCand} {before middle after : DecodeState}
    (head : Loaded lib first [node] early before middle)
    (tail : Loaded lib false rest late middle after) :
    Loaded lib first (node :: rest) (early ++ late) before after where
  decoded := by
    rw [show node :: rest = [node] ++ rest from rfl, List.filter_append]
    exact List.rel_append head.decoded tail.decoded
  count := by rw [tail.count, head.count, List.length_append, Nat.add_assoc]
  stored old stored := by
    rw [← List.append_assoc]
    exact tail.stored _ (head.stored old stored)
  compCnt := by rw [tail.compCnt, head.compCnt, maxCompId, maxCompId, maxCompId, List.foldl_append]
  ufrag := tail.ufrag.trans head.ufrag
  pwd := tail.pwd.trans head.pwd
  defAddr := tail.defAddr.trans head.defAddr
  -- The last comp_1 of all is that of the rest if there is one.
  lastComp1 := by
    intro chosen found
    cases known : defaultOf rest with
    | some last =>
        rw [defaultOf, known, Option.some_or, Option.some_inj] at found
        exact found ▸ tail.lastComp1 last known
    | none =>
        have own : defaultOf [node] = some chosen := by simpa [defaultOf, known] using found
        obtain ⟨sameAddr, samePort⟩ := tail.noComp1 known
        rw [sameAddr, samePort rfl]
        exact head.lastComp1 chosen own
  noComp1 := by
    intro absent
    cases known : defaultOf rest with
    | some last => simp [defaultOf, known] at absent
    | none =>
        have own : defaultOf [node] = none := by simpa [defaultOf, known] using absent
        obtain ⟨sameAddr, samePort⟩ := tail.noComp1 known
        obtain ⟨ownAddr, ownPort⟩ := head.noComp1 own
        exact ⟨sameAddr.trans ownAddr, fun notFirst => (samePort rfl).trans (ownPort notFirst)⟩

/-! One child: either all its lookups fit, and then storing it is the whole
effect, or the program leaves its defined behaviour. -/

section Child

theorem ok_bind {Result Next : Type} (result : Result) (next : Result → Except Stop Next) :
    ((.ok result : Except Stop Result) >>= next) = next result := rfl

theorem copyField_eq (capacity : Nat) (node : XmlNode) (name : CStr) :
    copyField capacity node name = orAbort (strcpy capacity (fieldText name node)) := by
  rw [copyField, content_by_name]

theorem numberField_eq (node : XmlNode) (name : CStr) :
    numberField node name = orAbort ((fieldText name node).map atoi) := by
  rw [numberField, content_by_name]

def visit (lib : SockaddrLib) (first : Bool) (node : XmlNode) (st : DecodeState) :
    Except Stop DecodeState :=
  if isComp1 node then readComp1 node st else readCandidate lib first node st

theorem readComp1_spec (node : XmlNode) (st : DecodeState) :
    (∀ ip port, fieldText "ip".toList node = some ip → (fits : ip.length < 80) →
      fieldText "port".toList node = some port →
      readComp1 node st = .ok
        { st with comp0Addr := ⟨ip, fits⟩, comp0Port := toUnsigned (atoi port) }) ∧
    ((¬ ∃ ip port, fieldText "ip".toList node = some ip ∧ ip.length < 80 ∧
      fieldText "port".toList node = some port) → readComp1 node st = .error .abort) := by
  constructor
  · intro ip port foundIp fits foundPort
    simp only [readComp1, copyField_eq, numberField_eq, foundIp, foundPort, strcpy_of_fits fits,
      Option.map_some, orAbort, ok_bind]
  · intro missing
    simp only [readComp1, copyField_eq, numberField_eq]
    cases copied : strcpy 80 (fieldText "ip".toList node) with
    | none => rfl
    | some array =>
        have foundIp := strcpy_eq_some.mp copied
        cases foundPort : fieldText "port".toList node with
        | none => rfl
        | some port => exact absurd ⟨_, port, foundIp, array.fits, foundPort⟩ missing

def push (first : Bool) (port : CStr) (cand : IceSessCand) (st : DecodeState)
    (slot : st.rem.candCnt < pjIceStMaxCand) : DecodeState :=
  { st with
    comp0Port := if first then toUnsigned (atoi port) else st.comp0Port
    rem := addCand st.rem cand slot }

theorem candText_fields {node : XmlNode} {texts : CandText} :
    candText node = some texts ↔
      fieldText "foundation".toList node = some texts.foundation ∧
      fieldText "comp_id".toList node = some texts.compId ∧
      fieldText "transport".toList node = some texts.transport ∧
      fieldText "prio".toList node = some texts.prio ∧
      fieldText "ip".toList node = some texts.ip ∧
      fieldText "port".toList node = some texts.port ∧
      fieldText "type".toList node = some texts.type := by
  cases texts
  simp only [candText, Option.bind_eq_bind, Option.bind_eq_some_iff, Option.some_inj,
    CandText.mk.injEq]
  constructor
  · rintro ⟨_, h1, _, h2, _, h3, _, h4, _, h5, _, h6, _, h7, rfl, rfl, rfl, rfl, rfl, rfl, rfl⟩
    exact ⟨h1, h2, h3, h4, h5, h6, h7⟩
  · rintro ⟨h1, h2, h3, h4, h5, h6, h7⟩
    exact ⟨_, h1, _, h2, _, h3, _, h4, _, h5, _, h6, _, h7, rfl, rfl, rfl, rfl, rfl, rfl, rfl⟩

theorem readCandidate_of_fits {lib : SockaddrLib} {first : Bool} {node : XmlNode} {st : DecodeState}
    {texts : CandText} (found : candText node = some texts) (fits : texts.Fits) :
    readCandidate lib first node st =
      if slot : st.rem.candCnt < pjIceStMaxCand then
        match texts.decode lib with
        | none => .error .onError
        | some cand => .ok (push first texts.port cand st slot)
      else .error .abort := by
  obtain ⟨h1, h2, h3, h4, h5, h6, h7⟩ := candText_fields.mp found
  simp only [readCandidate, copyField_eq, numberField_eq, h1, h2, h3, h4, h5, h6, h7,
    strcpy_of_fits fits.foundation, strcpy_of_fits fits.transport, strcpy_of_fits fits.ip,
    strcpy_of_fits fits.type, Option.map_some, orAbort, ok_bind]
  by_cases slot : st.rem.candCnt < pjIceStMaxCand
  · simp only [slot, ↓reduceDIte, CandText.decode, Option.bind_eq_bind]
    cases readCandType texts.type with
    | none => rfl
    | some kind => cases readAddr lib texts.ip <;> rfl
  · simp only [slot, ↓reduceDIte]

theorem readCandidate_aborts {lib : SockaddrLib} {first : Bool} {node : XmlNode} {st : DecodeState}
    (missing : ¬ ∃ texts, candText node = some texts ∧ texts.Fits) :
    readCandidate lib first node st = .error .abort := by
  simp only [readCandidate, copyField_eq, numberField_eq]
  -- The copies in the order of the source; each that fails ends the call.
  cases c1 : strcpy 32 (fieldText "foundation".toList node) with
  | none => rfl
  | some foundation =>
  cases c2 : fieldText "comp_id".toList node with
  | none => rfl
  | some compId =>
  cases c3 : strcpy 12 (fieldText "transport".toList node) with
  | none => rfl
  | some transport =>
  cases c4 : fieldText "prio".toList node with
  | none => rfl
  | some prio =>
  cases c5 : strcpy 80 (fieldText "ip".toList node) with
  | none => rfl
  | some ip =>
  cases c6 : fieldText "port".toList node with
  | none => rfl
  | some port =>
  cases c7 : strcpy 32 (fieldText "type".toList node) with
  | none => rfl
  | some type =>
      have found : candText node = some ⟨foundation.text, compId, transport.text, prio, ip.text,
          port, type.text⟩ :=
        candText_fields.mpr ⟨strcpy_eq_some.mp c1, c2, strcpy_eq_some.mp c3, c4,
          strcpy_eq_some.mp c5, c6, strcpy_eq_some.mp c7⟩
      exact absurd ⟨_, found, foundation.fits, transport.fits, ip.fits, type.fits⟩ missing

theorem stored_addCand {rem : RemInfo} {cand : IceSessCand} (slot : rem.candCnt < pjIceStMaxCand)
    {old : List IceSessCand} (stored : Stored rem old) :
    Stored (addCand rem cand slot) (old ++ [cand]) := by
  obtain ⟨count, cells⟩ := stored
  refine ⟨by simp [addCand, count], ?_⟩
  have room : old.length < pjIceStMaxCand := count ▸ slot
  have free : pjIceStMaxCand - old.length = (pjIceStMaxCand - (old.length + 1)) + 1 := by omega
  simp only [addCand, Vector.toList_set, cells, count]
  rw [List.set_append_right _ _ (Nat.le_refl _), Nat.sub_self, free, List.replicate_succ]
  simp

theorem compCnt_addCand {rem : RemInfo} {cand : IceSessCand} (slot : rem.candCnt < pjIceStMaxCand) :
    (addCand rem cand slot).compCnt = max rem.compCnt cand.compId.toNat := by
  simp only [addCand]
  split <;> omega

theorem visit_loaded {lib : SockaddrLib} {first : Bool} {node : XmlNode} {st : DecodeState}
    {texts : CandText} {cand : IceSessCand} (notComp1 : isComp1 node = false)
    (found : candText node = some texts) (decoded : texts.decode lib = some cand)
    (slot : st.rem.candCnt < pjIceStMaxCand) :
    Loaded lib first [node] [cand] st (push first texts.port cand st slot) where
  decoded := by
    rw [List.filter_cons_of_pos (by simp [isCand, notComp1]), List.filter_nil]
    exact .cons ⟨texts, found, decoded⟩ .nil
  count := rfl
  stored _ stored := stored_addCand slot stored
  compCnt := compCnt_addCand slot
  ufrag := rfl
  pwd := rfl
  defAddr := rfl
  lastComp1 _ known := by simp [defaultOf, notComp1] at known
  noComp1 _ := ⟨rfl, fun notFirst => by simp [push, notFirst]⟩

theorem visit_comp1 {lib : SockaddrLib} {first : Bool} {node : XmlNode} {st : DecodeState}
    {ip port : CStr} (comp1 : isComp1 node = true) (foundIp : fieldText "ip".toList node = some ip)
    (fits : ip.length < 80) (foundPort : fieldText "port".toList node = some port) :
    Loaded lib first [node] [] st
      { st with comp0Addr := ⟨ip, fits⟩, comp0Port := toUnsigned (atoi port) } where
  decoded := by
    rw [List.filter_cons_of_neg (by simp [isCand, comp1]), List.filter_nil]
    exact .nil
  count := rfl
  stored _ old := by simpa using old
  compCnt := rfl
  ufrag := rfl
  pwd := rfl
  defAddr := rfl
  lastComp1 chosen known := by
    have same : node = chosen := by simpa [defaultOf, comp1] using known
    exact same ▸ ⟨foundIp, port, foundPort, rfl⟩
  noComp1 absent := by simp [defaultOf, comp1] at absent

def Verdict (lib : SockaddrLib) (first : Bool) (items : List XmlNode) (st : DecodeState) :
    Except Stop DecodeState → Prop
  | .ok after => InBounds lib st.rem.candCnt items ∧ (∀ node ∈ items, Passes lib node) ∧
      ∃ cands, Loaded lib first items cands st after
  | .error .onError => InBounds lib st.rem.candCnt items ∧ ∃ node ∈ items, ¬ Passes lib node
  | .error .abort => ¬ InBounds lib st.rem.candCnt items

theorem inBounds_single (lib : SockaddrLib) (stored : Nat) (node : XmlNode) :
    InBounds lib stored [node] ↔
      FieldsFit node ∧ (isCand node = true → stored < pjIceStMaxCand) := by
  rw [inBounds_cons]
  exact ⟨fun bounds => bounds.1, fun fits => ⟨fits, fun _ => inBounds_nil _ _⟩⟩

theorem visit_verdict (lib : SockaddrLib) (first : Bool) (node : XmlNode) (st : DecodeState) :
    Verdict lib first [node] st (visit lib first node st) := by
  by_cases comp1 : isComp1 node = true
  · rw [visit, if_pos comp1]
    by_cases fits : FieldsFit node
    · have lookups := fits
      rw [FieldsFit, if_pos comp1] at lookups
      obtain ⟨ip, port, foundIp, short, foundPort⟩ := lookups
      rw [(readComp1_spec node st).1 ip port foundIp short foundPort]
      refine ⟨(inBounds_single _ _ _).mpr ⟨fits, by simp [isCand, comp1]⟩, ?_, [],
        visit_comp1 comp1 foundIp short foundPort⟩
      intro chosen member
      exact List.mem_singleton.mp member ▸ Or.inl comp1
    · have missing := fits
      rw [FieldsFit, if_pos comp1] at missing
      rw [(readComp1_spec node st).2 missing]
      exact fun bounds => fits ((inBounds_single _ _ _).mp bounds).1
  · have notComp1 : isComp1 node = false := by simpa using comp1
    rw [visit, if_neg comp1]
    by_cases fits : FieldsFit node
    · have lookups := fits
      rw [FieldsFit, if_neg comp1] at lookups
      obtain ⟨texts, found, short⟩ := lookups
      rw [readCandidate_of_fits found short]
      -- The array has no look at its end, so the slot is part of the bounds.
      by_cases slot : st.rem.candCnt < pjIceStMaxCand
      · have bounds : InBounds lib st.rem.candCnt [node] :=
          (inBounds_single _ _ _).mpr ⟨fits, fun _ => slot⟩
        simp only [slot, ↓reduceDIte]
        cases decoded : texts.decode lib with
        | none =>
            refine ⟨bounds, node, by simp, ?_⟩
            rintro (impossible | ⟨texts', cand, found', decoded'⟩)
            · exact comp1 impossible
            · cases found.symm.trans found'
              exact absurd (decoded.symm.trans decoded') (by simp)
        | some cand =>
            refine ⟨bounds, ?_, [cand], visit_loaded notComp1 found decoded slot⟩
            intro chosen member
            exact List.mem_singleton.mp member ▸ Or.inr ⟨texts, cand, found, decoded⟩
      · simp only [slot, ↓reduceDIte]
        exact fun bounds =>
          slot (((inBounds_single _ _ _).mp bounds).2 (by simp [isCand, notComp1]))
    · have missing := fits
      rw [FieldsFit, if_neg comp1] at missing
      rw [readCandidate_aborts missing]
      exact fun bounds => fits ((inBounds_single _ _ _).mp bounds).1

end Child

/-! The loop. -/

theorem loop_element (lib : SockaddrLib) (first : Bool) (name : CStr) (children next : XmlNode)
    (st : DecodeState) :
    candidateLoop lib first (.element name children next) st =
      visit lib first (.element name children next) st >>= candidateLoop lib false next := by
  by_cases comp1 : name = "comp_1".toList
  · simp only [candidateLoop, visit, isComp1, XmlNode.hasName, comp1, ↓reduceIte, decide_true]
  · simp only [candidateLoop, visit, isComp1, XmlNode.hasName, comp1, ↓reduceIte, decide_false,
      Bool.false_eq_true]

theorem verdict_cons {lib : SockaddrLib} {first : Bool} {node : XmlNode} {rest : List XmlNode}
    {st middle : DecodeState} {result : Except Stop DecodeState}
    (head : Verdict lib first [node] st (.ok middle))
    (tail : Verdict lib false rest middle result) :
    Verdict lib first (node :: rest) st result := by
  obtain ⟨bounds, passes, early, loaded⟩ := head
  have fits := (inBounds_single _ _ _).mp bounds
  have passesNode := passes node (by simp)
  have count : middle.rem.candCnt = st.rem.candCnt + [node].countP isCand := by
    rw [loaded.count, ← loaded.decoded.length_eq, List.countP_eq_length_filter]
  -- What the first node takes from the array, the others find taken.
  have whole : InBounds lib st.rem.candCnt (node :: rest) ↔
      InBounds lib middle.rem.candCnt rest := by
    rw [inBounds_cons, count]
    exact ⟨fun all => all.2 passesNode, fun later => ⟨fits, fun _ => later⟩⟩
  cases result with
  | ok after =>
      obtain ⟨laterBounds, laterPasses, late, laterLoaded⟩ := tail
      refine ⟨whole.mpr laterBounds, ?_, early ++ late, loaded_cons loaded laterLoaded⟩
      intro chosen member
      rcases List.mem_cons.mp member with same | later
      · exact same ▸ passesNode
      · exact laterPasses chosen later
  | error stop =>
      cases stop with
      | onError =>
          obtain ⟨laterBounds, refused, member, fails⟩ := tail
          exact ⟨whole.mpr laterBounds, refused, List.mem_cons_of_mem _ member, fails⟩
      | abort => exact fun bounds => tail (whole.mp bounds)

theorem verdict_stopped {lib : SockaddrLib} {first : Bool} {node : XmlNode} {rest : List XmlNode}
    {st : DecodeState} {stop : Stop} (head : Verdict lib first [node] st (.error stop)) :
    Verdict lib first (node :: rest) st (.error stop) := by
  cases stop with
  | onError =>
      obtain ⟨bounds, refused, member, fails⟩ := head
      obtain rfl : refused = node := by simpa using member
      refine ⟨(inBounds_cons _ _ _ _).mpr ⟨(inBounds_single _ _ _).mp bounds, ?_⟩, refused,
        List.mem_cons_self, fails⟩
      exact fun passes => absurd passes fails
  | abort =>
      exact fun bounds => head ((inBounds_single _ _ _).mpr ((inBounds_cons _ _ _ _).mp bounds).1)

theorem verdict_later {lib : SockaddrLib} {first : Bool} {items : List XmlNode} {st : DecodeState}
    {result : Except Stop DecodeState} (later : Verdict lib false items st result) :
    Verdict lib first items st result := by
  cases result with
  | error stop => cases stop <;> exact later
  | ok after =>
      obtain ⟨bounds, passes, cands, loaded⟩ := later
      refine ⟨bounds, passes, cands, { loaded with noComp1 := ?_ }⟩
      intro absent
      exact ⟨(loaded.noComp1 absent).1, fun _ => (loaded.noComp1 absent).2 rfl⟩

/-- The loop follows the reading of the document, whatever was stored before. -/
theorem loop_verdict (lib : SockaddrLib) (first : Bool) (kids : XmlNode) (st : DecodeState) :
    Verdict lib first kids.siblings st (candidateLoop lib first kids st) := by
  -- Along the sibling chain; only the element in front can be the first child.
  induction kids generalizing first st with
  | null => exact ⟨inBounds_nil _ _, by simp [XmlNode.siblings], [], loaded_nil lib first st⟩
  | element name children next _ ih =>
      rw [loop_element, XmlNode.siblings]
      have head := visit_verdict lib first (.element name children next) st
      cases visited : visit lib first (.element name children next) st with
      | error stop =>
          rw [visited] at head
          exact verdict_stopped head
      | ok middle =>
          rw [visited] at head
          exact verdict_cons head (ih false middle)
  | text content next ih => exact verdict_later (ih false st)
  | other next ih => exact verdict_later (ih false st)
  | entity _ _ next _ ih => exact verdict_later (ih false st)
  | endless _ next ih => exact verdict_later (ih false st)

/-! What is stored. -/
section Kept

theorem le_maxCompId (cands : List IceSessCand) (start : Nat) : start ≤ maxCompId cands start := by
  induction cands generalizing start with
  | nil => exact Nat.le_refl _
  | cons cand rest ih => exact Nat.le_trans (Nat.le_max_left _ _) (ih _)

theorem compId_le_maxCompId {cands : List IceSessCand} {start : Nat} {cand : IceSessCand}
    (member : cand ∈ cands) : cand.compId.toNat ≤ maxCompId cands start := by
  induction cands generalizing start with
  | nil => simp at member
  | cons first rest ih =>
      rcases List.mem_cons.mp member with rfl | later
      · exact Nat.le_trans (Nat.le_max_right _ _) (le_maxCompId rest _)
      · exact ih later

theorem maxCompId_le {cands : List IceSessCand} {start bound : Nat} (low : start ≤ bound)
    (all : ∀ cand ∈ cands, cand.compId.toNat ≤ bound) : maxCompId cands start ≤ bound := by
  induction cands generalizing start with
  | nil => exact low
  | cons first rest ih =>
      exact ih (Nat.max_le.mpr ⟨low, all first (by simp)⟩) fun cand member =>
        all cand (by simp [member])

theorem maxCompId_ne_zero (cands : List IceSessCand) :
    maxCompId cands 0 ≠ 0 ↔ ∃ cand ∈ cands, cand.compId ≠ 0 := by
  constructor
  · intro positive
    by_contra none
    push Not at none
    have zero : maxCompId cands 0 ≤ 0 :=
      maxCompId_le (Nat.le_refl _) fun cand member => by simp [none cand member]
    omega
  · rintro ⟨cand, member, nonzero⟩ zero
    have bound : cand.compId.toNat ≤ maxCompId cands 0 := compId_le_maxCompId member
    exact nonzero (BitVec.eq_of_toNat_eq (by simpa [zero] using bound))

theorem maxCompId_present {cands : List IceSessCand} (nonempty : 1 ≤ cands.length)
    (numbered : ∀ cand ∈ cands, 1 ≤ cand.compId.toNat) : maxCompId cands 0 ≠ 0 := by
  obtain ⟨cand, member⟩ := List.exists_mem_of_length_pos nonempty
  have low := numbered cand member
  have high : cand.compId.toNat ≤ maxCompId cands 0 := compId_le_maxCompId member
  omega

theorem decodes_compId {lib : SockaddrLib} {node : XmlNode} {cand : IceSessCand}
    (decodes : Decodes lib node cand) :
    ∃ id, fieldText "comp_id".toList node = some id ∧ cand.compId = BitVec.ofInt 8 (atoi id) := by
  obtain ⟨texts, found, decoded⟩ := decodes
  simp only [CandText.decode, Option.bind_eq_bind, Option.bind_eq_some_iff, Option.some_inj]
    at decoded
  obtain ⟨type, _, ip, _, rfl⟩ := decoded
  exact ⟨texts.compId, (candText_fields.mp found).2.1, rfl⟩

theorem forall₂_left {Left Right : Type} {related : Left → Right → Prop} {xs : List Left}
    {ys : List Right} (all : List.Forall₂ related xs ys) {x : Left} (member : x ∈ xs) :
    ∃ y ∈ ys, related x y := by
  induction all with
  | nil => simp at member
  | cons head tail ih =>
      rcases List.mem_cons.mp member with rfl | later
      · exact ⟨_, List.mem_cons_self, head⟩
      · obtain ⟨y, present, holds⟩ := ih later
        exact ⟨y, List.mem_cons_of_mem _ present, holds⟩

theorem forall₂_right {Left Right : Type} {related : Left → Right → Prop} {xs : List Left}
    {ys : List Right} (all : List.Forall₂ related xs ys) {y : Right} (member : y ∈ ys) :
    ∃ x ∈ xs, related x y := by
  obtain ⟨x, present, holds⟩ := forall₂_left all.flip member
  exact ⟨x, present, holds⟩

end Kept

end NatClient.DescriptionReading
