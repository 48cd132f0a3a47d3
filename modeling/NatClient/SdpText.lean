import NatClient.SessionPrinting
import NatClient.CStdio

/-!
`encode_session` of verikdemo.c. The text is a sequence of lines: four fixed ones,
the credentials, and for each component its default address and its candidates.
-/

namespace NatClient.SdpText

open CString CStdio BoundedPrint IceTypes SessionPrinting

/-! The pieces that are printed, in the order of the source. -/
section Pieces
variable (lib : SockaddrLib)

def candHead (cand : IceSessCand) : CStr :=
  "a=candidate:".toList ++ cand.foundation ++ " ".toList ++ decimal cand.compId.toNat ++
    " UDP ".toList ++ decimal cand.prio.toNat ++ " ".toList ++ pjSockaddrPrint lib cand.addr ++
    " ".toList ++ decimal (pjSockaddrGetPort cand.addr) ++ " typ ".toList

def candTail (cand : IceSessCand) : CStr := pjIceGetCandTypeName cand.type ++ "\n".toList

def dummyText : CStr := "v=0\no=- 3414953978 3414953978 IN IP4 localhost\ns=ice\nt=0 0\n".toList

def credentialText (session : LocalSession) : CStr :=
  "a=ice-ufrag:".toList ++ session.ufrag ++ "\na=ice-pwd:".toList ++ session.pwd ++ "\n".toList

def defaultText (comp : Nat) (cand : IceSessCand) : CStr :=
  if comp = 0 then
    "m=audio ".toList ++ decimal (pjSockaddrGetPort cand.addr) ++ " RTP/AVP 0\nc=IN IP4 ".toList ++
      pjSockaddrPrint lib cand.addr ++ "\n".toList
  else if comp = 1 then
    "a=rtcp:".toList ++ decimal (pjSockaddrGetPort cand.addr) ++ " IN IP4 ".toList ++
      pjSockaddrPrint lib cand.addr ++ "\n".toList
  else
    "a=Xice-defcand:".toList ++ decimal (pjSockaddrGetPort cand.addr) ++ " IN IP4 ".toList ++
      pjSockaddrPrint lib cand.addr ++ "\n".toList

end Pieces

def printCand (lib : SockaddrLib) (buffer maxlen : Nat) (cand : IceSessCand) : Step :=
  printCandidate (candHead lib cand) (candTail cand) buffer maxlen

def printDefault (lib : SockaddrLib) (maxlen comp : Nat) (cand : IceSessCand) : Step :=
  PRINT 0 maxlen (defaultText lib comp cand)

def printComponent (lib : SockaddrLib) (session : LocalSession) (maxlen : Nat) : Nat → Step :=
  printComponentWith (printDefault lib maxlen) (printCand lib) session maxlen

def printSession (lib : SockaddrLib) (session : LocalSession) (compCnt maxlen : Nat) :
    Step := fun c => do
  let c ← PRINT 0 maxlen dummyText c
  let c ← PRINT 0 maxlen (credentialText session) c
  let c ← forEach (printComponent lib session maxlen) (List.range compCnt) c
  terminate pjEtoosmall 0 maxlen c

def encodeSession (lib : SockaddrLib) (session : LocalSession) (compCnt : Nat) (buffer : Memory)
    (maxlen : Nat) : Int × Memory :=
  returned (printSession lib session compCnt maxlen ⟨buffer, 0⟩)

/-! The text that a session stands for, as a whole and line by line. -/
section FullText
variable (lib : SockaddrLib) (session : LocalSession)

def candText (cand : IceSessCand) : CStr := candHead lib cand ++ candTail cand

def componentText : Nat → Option CStr :=
  componentTextWith (defaultText lib) (candText lib) session

def fullText (compCnt : Nat) : Option CStr :=
  (catAll ((List.range compCnt).map (componentText lib session))).map fun components =>
    dummyText ++ (credentialText session ++ components)

def dummyLines : List CStr :=
  ["v=0".toList, "o=- 3414953978 3414953978 IN IP4 localhost".toList,
    "s=ice".toList, "t=0 0".toList]

def ufragLine : CStr := "a=ice-ufrag:".toList ++ session.ufrag

def pwdLine : CStr := "a=ice-pwd:".toList ++ session.pwd

def mediaLine (cand : IceSessCand) : CStr :=
  "m=audio ".toList ++ decimal (pjSockaddrGetPort cand.addr) ++ " RTP/AVP 0".toList

def connectionLine (cand : IceSessCand) : CStr :=
  "c=IN IP4 ".toList ++ pjSockaddrPrint lib cand.addr

def portLine (name : CStr) (cand : IceSessCand) : CStr :=
  name ++ decimal
    (pjSockaddrGetPort cand.addr) ++ " IN IP4 ".toList ++ pjSockaddrPrint lib cand.addr

def defaultLines (comp : Nat) (cand : IceSessCand) : List CStr :=
  if comp = 0 then [mediaLine cand, connectionLine lib cand]
  else if comp = 1 then [portLine lib "a=rtcp:".toList cand]
  else [portLine lib "a=Xice-defcand:".toList cand]

def candLine (cand : IceSessCand) : CStr := candHead lib cand ++ pjIceGetCandTypeName cand.type

def componentLines (comp : Nat) : List CStr :=
  match session.defCand (comp + 1), session.enumCands (comp + 1) with
  | .ok default, .ok cands => defaultLines lib comp default ++ cands.map (candLine lib)
  | _, _ => []

def sdpLines (compCnt : Nat) : List CStr :=
  dummyLines ++ [ufragLine session, pwdLine session] ++
    (List.range compCnt).flatMap (componentLines lib session)

end FullText

section Exact
variable {lib : SockaddrLib} {session : LocalSession} {maxlen : Nat}

theorem candHead_ne_nil (cand : IceSessCand) : candHead lib cand ≠ [] := by
  unfold candHead
  exact closed_ne_nil _ _ (by decide)

theorem candTail_ne_nil (cand : IceSessCand) : candTail cand ≠ [] := by
  unfold candTail
  exact closed_ne_nil _ _ (by decide)

theorem dummyText_ne_nil : dummyText ≠ [] := by
  unfold dummyText
  intro empty
  exact absurd (String.toList_eq_nil_iff.mp empty) (by decide)

theorem credentialText_ne_nil : credentialText session ≠ [] := by
  unfold credentialText
  exact closed_ne_nil _ _ (by decide)

theorem defaultText_ne_nil (comp : Nat) (cand : IceSessCand) : defaultText lib comp cand ≠ [] := by
  unfold defaultText
  split
  · exact closed_ne_nil _ _ (by decide)
  · split <;> exact closed_ne_nil _ _ (by decide)

theorem prints_component (bound : maxlen ≤ intMax) (comp : Nat) :
    Prints 0 maxlen (printComponent lib session maxlen comp) (componentText lib session comp) := by
  apply prints_componentWith
  · intro comp default
    exact prints_whole (defaultText_ne_nil comp default) bound
  · intro cand
    exact prints_candidate (candHead_ne_nil cand) (candTail_ne_nil cand) bound

theorem fullText_cat (compCnt : Nat) :
    fullText lib session compCnt =
      cat (some dummyText) (cat (some (credentialText session))
        (cat (catAll ((List.range compCnt).map (componentText lib session))) (some []))) := by
  rw [fullText]
  cases catAll ((List.range compCnt).map (componentText lib session)) with
  | none => simp only [cat, Option.map_none, Option.bind_none, Option.bind_some]
  | some components => simp only [cat_some, List.append_nil, Option.map_some]

theorem prints_session (bound : maxlen ≤ intMax) (compCnt : Nat) :
    Prints 0 maxlen (printSession lib session compCnt maxlen) (fullText lib session compCnt) := by
  have each : ∀ comp ∈ List.range compCnt, Prints 0 maxlen (printComponent lib session maxlen comp)
      (componentText lib session comp) := fun comp _ => prints_component bound comp
  have components := prints_forEach (List.range compCnt) each
  rw [fullText_cat]
  apply prints_seq (prints_whole dummyText_ne_nil bound)
  apply prints_seq (prints_whole credentialText_ne_nil bound)
  exact prints_seq components prints_end

theorem encode_text (bound : maxlen ≤ intMax) (positive : 0 < maxlen)
    {compCnt : Nat} {buffer : Memory}
    (success : 0 ≤ (encodeSession lib session compCnt buffer maxlen).1) :
    ∃ text, fullText lib session compCnt = some text ∧ text.length < maxlen ∧
      readText (encodeSession lib session compCnt buffer maxlen).2
        (encodeSession lib session compCnt buffer maxlen).1 = text :=
  (prints_session bound compCnt).returned_text positive success

theorem encode_total (bound : maxlen ≤ intMax) {compCnt : Nat} {buffer : Memory} {text : CStr}
    (known : fullText lib session compCnt = some text) (fits : text.length < maxlen) :
    0 ≤ (encodeSession lib session compCnt buffer maxlen).1 := by
  have prints : Prints 0 maxlen (printSession lib session compCnt maxlen)
      (fullText lib session compCnt) := prints_session bound compCnt
  rw [known] at prints
  exact prints.returned_total fits

end Exact

/-! The text is made of its lines. -/
section Lines
variable {lib : SockaddrLib} {session : LocalSession}

theorem dummyText_lines : dummyText = unlines dummyLines := by decide +kernel

theorem credentialText_lines :
    credentialText session = unlines [ufragLine session, pwdLine session] := by
  have between : "\na=ice-pwd:".toList = '\n' :: "a=ice-pwd:".toList := by decide
  have last : "\n".toList = ['\n'] := by decide
  unfold credentialText ufragLine pwdLine
  rw [between, last]
  simp only [unlines, terminated, List.flatMap_cons, List.flatMap_nil, List.append_assoc,
    List.cons_append, List.nil_append, List.append_nil]

theorem defaultText_lines (comp : Nat) (cand : IceSessCand) :
    defaultText lib comp cand = unlines (defaultLines lib comp cand) := by
  have between :
      " RTP/AVP 0\nc=IN IP4 ".toList = " RTP/AVP 0".toList ++ '\n' :: "c=IN IP4 ".toList := by
    decide
  have last : "\n".toList = ['\n'] := by decide
  unfold defaultText defaultLines mediaLine connectionLine portLine
  rw [between, last]
  split
  · simp only [unlines, terminated, List.flatMap_cons, List.flatMap_nil, List.append_assoc,
      List.cons_append, List.nil_append, List.append_nil]
  · split <;> simp only [unlines, terminated, List.flatMap_cons, List.flatMap_nil, List.append_nil]

theorem candText_lines (cands : List IceSessCand) :
    cands.flatMap (candText lib) = unlines (cands.map (candLine lib)) := by
  have last : "\n".toList = ['\n'] := by decide
  have line (cand : IceSessCand) : candText lib cand = terminated (candLine lib cand) := by
    unfold candText candLine candTail
    rw [last, terminated, List.append_assoc]
  rw [unlines, List.flatMap_map]
  exact List.flatMap_congr fun cand _ => line cand

theorem componentText_known {comp : Nat} {text : CStr}
    (known : componentText lib session comp = some text) :
    ∃ default cands, session.defCand (comp + 1) = .ok default ∧
      session.enumCands (comp + 1) = .ok cands ∧
        text = defaultText lib comp default ++ cands.flatMap (candText lib) := by
  rw [componentText, componentTextWith] at known
  split at known
  · rename_i default cands defaultAt candsAt
    exact ⟨default, cands, defaultAt, candsAt, (Option.some_inj.mp known).symm⟩
  · exact absurd known (by simp)

theorem componentText_lines {comp : Nat} {text : CStr}
    (known : componentText lib session comp = some text) :
    text = unlines (componentLines lib session comp) := by
  obtain ⟨default, cands, defaultAt, candsAt, rfl⟩ := componentText_known known
  rw [componentLines, defaultAt, candsAt]
  simp only [unlines_append, ← defaultText_lines, ← candText_lines]

theorem fullText_known {compCnt : Nat} {text : CStr}
    (known : fullText lib session compCnt = some text) {comp : Nat} (below : comp < compCnt) :
    ∃ default cands, session.defCand (comp + 1) = .ok default ∧
      session.enumCands (comp + 1) = .ok cands := by
  obtain ⟨components, joined, _⟩ := Option.map_eq_some_iff.mp known
  obtain ⟨piece, found⟩ := catAll_each joined comp (List.mem_range.mpr below)
  obtain ⟨default, cands, defaultAt, candsAt, _⟩ := componentText_known found
  exact ⟨default, cands, defaultAt, candsAt⟩

theorem fullText_lines {compCnt : Nat} {text : CStr}
    (known : fullText lib session compCnt = some text) :
    text = unlines (sdpLines lib session compCnt) := by
  obtain ⟨components, joined, rfl⟩ := Option.map_eq_some_iff.mp known
  have pieces : components =
      (List.range compCnt).flatMap fun comp => unlines (componentLines lib session comp) :=
    catAll_known (fun comp _ piece found => componentText_lines found) joined
  rw [sdpLines, unlines_append, unlines_append, ← dummyText_lines, ← credentialText_lines,
    List.append_assoc, pieces]
  simp only [unlines, List.flatMap_assoc]

end Lines

end NatClient.SdpText
