import NatClient.SessionPrinting

/-!
`extract_sdp_to_xml` of icewrapper.c. The encoder succeeds exactly when every
query does and the whole text is shorter than the buffer, and then the buffer
holds that text.
-/

namespace NatClient.XmlEncoder

open CString BoundedPrint IceTypes SessionPrinting

/-! The pieces that are printed, in the order of the source. -/
section Pieces
variable (lib : SockaddrLib)

def candHead (cand : IceSessCand) : CStr :=
  "<candidate><foundation>".toList ++ cand.foundation ++ "</foundation> <comp_id>".toList ++
    decimal cand.compId.toNat ++ "</comp_id> <transport>UDP</transport> <prio>".toList ++
    decimal cand.prio.toNat ++ "</prio> <ip>".toList ++ pjSockaddrPrint lib cand.addr ++
    "</ip> <port>".toList ++ decimal (pjSockaddrGetPort cand.addr) ++ "</port>".toList

def candTail (cand : IceSessCand) : CStr :=
  "<type>".toList ++ pjIceGetCandTypeName cand.type ++ "</type> </candidate> \n".toList

def deviceText (usrid : CStr) : CStr :=
  "<device> <uniqueId>".toList ++ usrid ++ "</uniqueId> </device>".toList

def credentialText (session : LocalSession) : CStr :=
  "<ufrag>".toList ++ session.ufrag ++ "</ufrag> <pwd>".toList ++ session.pwd ++ "</pwd>".toList

def comp1Text (cand : IceSessCand) : CStr :=
  "<comp_1> <port>".toList ++ decimal (pjSockaddrGetPort cand.addr) ++ "</port><ip>".toList ++
    pjSockaddrPrint lib cand.addr ++ "</ip> </comp_1>".toList

end Pieces

def printCandToXml (lib : SockaddrLib) (buffer maxlen : Nat) (cand : IceSessCand) : Step :=
  printCandidate (candHead lib cand) (candTail cand) buffer maxlen

def printDefault (lib : SockaddrLib) (maxlen comp : Nat) (cand : IceSessCand) : Step :=
  if comp = 0 then PRINT 0 maxlen (comp1Text lib cand) else .ok

def printComponent (lib : SockaddrLib) (session : LocalSession) (maxlen : Nat) : Nat → Step :=
  printComponentWith (printDefault lib maxlen) (printCandToXml lib) session maxlen

def printSession (lib : SockaddrLib) (session : LocalSession) (compCnt : Nat) (usrid : CStr)
    (maxlen : Nat) : Step := fun c => do
  let c ← PRINT 0 maxlen " <registerPeer>".toList c
  let c ← PRINT 0 maxlen (deviceText usrid) c
  let c ← PRINT 0 maxlen (credentialText session) c
  let c ← PRINT 0 maxlen " <candidateList>".toList c
  let c ← forEach (printComponent lib session maxlen) (List.range compCnt) c
  let c ← PRINT 0 maxlen "</candidateList>".toList c
  let c ← PRINT 0 maxlen " </registerPeer>".toList c
  terminate pjEtoosmall 0 maxlen c

def extractSdpToXml (lib : SockaddrLib) (session : LocalSession) (buffer : Memory)
    (maxlen compCnt : Nat) (usrid : CStr) : Int × Memory :=
  returned (printSession lib session compCnt usrid maxlen ⟨buffer, 0⟩)

/-! The text that a session stands for. -/
section FullText
variable (lib : SockaddrLib) (session : LocalSession)

def candText (cand : IceSessCand) : CStr := candHead lib cand ++ candTail cand

def defaultText (comp : Nat) (cand : IceSessCand) : CStr :=
  if comp = 0 then comp1Text lib cand else []

def componentText (comp : Nat) : Option CStr :=
  componentTextWith (defaultText lib) (candText lib) session comp

def fullText (compCnt : Nat) (usrid : CStr) : Option CStr :=
  (catAll ((List.range compCnt).map (componentText lib session))).map fun components =>
    " <registerPeer>".toList ++ (deviceText usrid ++ (credentialText session ++
      (" <candidateList>".toList ++ (components ++ ("</candidateList>".toList ++
        " </registerPeer>".toList)))))

end FullText

section Exact
variable {lib : SockaddrLib} {session : LocalSession} {maxlen : Nat}

theorem candHead_ne_nil (cand : IceSessCand) : candHead lib cand ≠ [] := by
  unfold candHead
  exact closed_ne_nil _ _ (by decide)

theorem candTail_ne_nil (cand : IceSessCand) : candTail cand ≠ [] := by
  unfold candTail
  exact closed_ne_nil _ _ (by decide)

theorem comp1Text_ne_nil (cand : IceSessCand) : comp1Text lib cand ≠ [] := by
  unfold comp1Text
  exact closed_ne_nil _ _ (by decide)

theorem deviceText_ne_nil (usrid : CStr) : deviceText usrid ≠ [] := by
  unfold deviceText
  exact closed_ne_nil _ _ (by decide)

theorem credentialText_ne_nil : credentialText session ≠ [] := by
  unfold credentialText
  exact closed_ne_nil _ _ (by decide)

theorem prints_component (bound : maxlen ≤ intMax) (comp : Nat) :
    Prints 0 maxlen (printComponent lib session maxlen comp) (componentText lib session comp) := by
  apply prints_componentWith
  · intro comp default
    rw [printDefault, defaultText]
    by_cases zero : comp = 0
    · rw [if_pos zero, if_pos zero]
      exact prints_whole (comp1Text_ne_nil default) bound
    · rw [if_neg zero, if_neg zero]
      exact prints_skip 0 maxlen
  · intro cand
    exact prints_candidate (candHead_ne_nil cand) (candTail_ne_nil cand) bound

theorem fullText_cat (compCnt : Nat) (usrid : CStr) :
    fullText lib session compCnt usrid =
      cat (some " <registerPeer>".toList) (cat (some (deviceText usrid))
        (cat (some (credentialText session)) (cat (some " <candidateList>".toList)
          (cat (catAll ((List.range compCnt).map (componentText lib session)))
            (cat (some "</candidateList>".toList)
                (cat (some " </registerPeer>".toList) (some []))))))) := by
  rw [fullText]
  cases catAll ((List.range compCnt).map (componentText lib session)) with
  | none => simp only [cat, Option.map_none, Option.bind_none, Option.bind_some]
  | some components => simp only [cat_some, List.append_nil, Option.map_some]

theorem prints_session (bound : maxlen ≤ intMax) (compCnt : Nat) (usrid : CStr) :
    Prints 0 maxlen (printSession lib session compCnt usrid maxlen)
      (fullText lib session compCnt usrid) := by
  have fixed (text : String) (nonempty : text ≠ "") :
      Prints 0 maxlen (PRINT 0 maxlen text.toList) (some text.toList) :=
    prints_whole (closed_ne_nil [] text nonempty) bound
  have each : ∀ comp ∈ List.range compCnt, Prints 0 maxlen (printComponent lib session maxlen comp)
      (componentText lib session comp) := fun comp _ => prints_component bound comp
  have components := prints_forEach (List.range compCnt) each
  rw [fullText_cat]
  apply prints_seq (fixed _ (by decide))
  apply prints_seq (prints_whole (deviceText_ne_nil usrid) bound)
  apply prints_seq (prints_whole credentialText_ne_nil bound)
  apply prints_seq (fixed _ (by decide))
  apply prints_seq components
  apply prints_seq (fixed _ (by decide))
  exact prints_seq (fixed _ (by decide)) prints_end

theorem extract_text (bound : maxlen ≤ intMax) (positive : 0 < maxlen)
    {compCnt : Nat} {usrid : CStr}
    {buffer : Memory} (success : 0 ≤ (extractSdpToXml lib session buffer maxlen compCnt usrid).1) :
    ∃ text, fullText lib session compCnt usrid = some text ∧ text.length < maxlen ∧
      readText (extractSdpToXml lib session buffer maxlen compCnt usrid).2
        (extractSdpToXml lib session buffer maxlen compCnt usrid).1 = text :=
  (prints_session bound compCnt usrid).returned_text positive success

/-- The first piece goes into a buffer of a length that an `int` holds, or the call fails. -/
theorem extract_room (unsigned : maxlen < 2 ^ 32) {compCnt : Nat} {usrid : CStr} {buffer : Memory}
    (success : 0 ≤ (extractSdpToXml lib session buffer maxlen compCnt usrid).1) :
    0 < maxlen ∧ maxlen ≤ intMax := by
  by_contra outside
  have room : ((maxlen : Int) - ((0 : Nat) - (0 : Nat))).bmod (2 ^ 32) ≤ 0 := by
    simp only [intMax] at outside
    rw [Int.bmod_def]
    omega
  have refused : PRINT 0 maxlen " <registerPeer>".toList ⟨buffer, 0⟩ =
      .error ⟨-pjEtoosmall,
        snprintf buffer 0 (((maxlen : Int) - ((0 : Nat) - (0 : Nat))) % 2 ^ 64).toNat
        " <registerPeer>".toList⟩ := by
    have printed : 0 ≤ snprintfResult " <registerPeer>".toList := by decide
    rw [PRINT, print]
    exact if_pos (Or.inr (room.trans printed))
  rw [extractSdpToXml, printSession, refused] at success
  have negative : ¬ (0 : Int) ≤ -pjEtoosmall := by decide
  exact negative success

theorem extract_total (bound : maxlen ≤ intMax) {compCnt : Nat} {usrid : CStr} {buffer : Memory}
    {text : CStr} (known : fullText lib session compCnt usrid = some text)
    (fits : text.length < maxlen) :
    0 ≤ (extractSdpToXml lib session buffer maxlen compCnt usrid).1 := by
  have prints : Prints 0 maxlen (printSession lib session compCnt usrid maxlen)
      (fullText lib session compCnt usrid) := prints_session bound compCnt usrid
  rw [known] at prints
  exact prints.returned_total fits

end Exact

end NatClient.XmlEncoder
