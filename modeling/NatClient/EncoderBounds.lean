import NatClient.DescriptionRoundTrip
import NatClient.SdpText

/-!
Both encoders of a local session as functions into a buffer: which length they
return, what the buffer then holds, and that nothing behind it is written.
-/

namespace NatClient.EncoderBounds

open CString BoundedPrint IceTypes SessionPrinting

section Queries

def QueriesSucceed (session : LocalSession) (compCnt : Nat) : Prop :=
  ∀ comp < compCnt, (∃ default, session.defCand (comp + 1) = .ok default) ∧
    ∃ cands, session.enumCands (comp + 1) = .ok cands

variable {session : LocalSession} {compCnt : Nat} {defaultText : Nat → IceSessCand → CStr}
  {candText : IceSessCand → CStr}

theorem componentText_some_iff (comp : Nat) :
    (∃ text, componentTextWith defaultText candText session comp = some text) ↔
      (∃ default, session.defCand (comp + 1) = .ok default) ∧
        ∃ cands, session.enumCands (comp + 1) = .ok cands := by
  rw [componentTextWith]
  cases session.defCand (comp + 1) with
  | error status => simp
  | ok default => cases session.enumCands (comp + 1) <;> simp

theorem components_some_iff :
    (∃ text, catAll ((List.range compCnt).map (componentTextWith defaultText candText session)) =
      some text) ↔ QueriesSucceed session compCnt := by
  constructor
  · rintro ⟨text, joined⟩ comp below
    exact (componentText_some_iff comp).mp (catAll_each joined comp (List.mem_range.mpr below))
  · intro answered
    exact catAll_total fun comp member =>
      (componentText_some_iff comp).mpr (answered comp (List.mem_range.mp member))

end Queries

section Encoders
variable {lib : SockaddrLib} {session : LocalSession} {maxlen : Nat}

theorem xml_closes (compCnt : Nat) (usrid : CStr) :
    Closes (XmlEncoder.printSession lib session compCnt usrid maxlen) := by
  unfold XmlEncoder.printSession
  iterate 7 apply closes_seq
  exact closes_terminate _ _ _

theorem sdp_closes (compCnt : Nat) : Closes (SdpText.printSession lib session compCnt maxlen) := by
  unfold SdpText.printSession
  iterate 3 apply closes_seq
  exact closes_terminate _ _ _

theorem map_some_iff {text : Option CStr} (whole : CStr → CStr) :
    (∃ all, text.map whole = some all) ↔ ∃ known, text = some known := by
  cases text <;> simp

theorem xml_known_iff (compCnt : Nat) (usrid : CStr) :
    (∃ text, XmlEncoder.fullText lib session compCnt usrid = some text) ↔
      QueriesSucceed session compCnt := by
  rw [XmlEncoder.fullText, map_some_iff]
  exact components_some_iff

theorem sdp_known_iff (compCnt : Nat) :
    (∃ text, SdpText.fullText lib session compCnt = some text) ↔
        QueriesSucceed session compCnt := by
  rw [SdpText.fullText, map_some_iff]
  exact components_some_iff

/-- The exact result of an encoder, with the text known when all queries answer. -/
structure ExactEncoder (session : LocalSession) (compCnt maxlen : Nat) (buffer : Memory)
    (full : Option CStr) (result : Int × Memory) : Prop where
  known : (∃ text, full = some text) ↔ QueriesSucceed session compCnt
  exact : ExactResult maxlen buffer full result

/-- Both encoders hand back their full text when it fits with its terminator, a
negative value otherwise, and never write behind the buffer. -/
theorem encoders_exact (lib : SockaddrLib) (session : LocalSession) (buffer : Memory)
    (compCnt maxlen : Nat) (usrid : CStr) (positive : 1 ≤ maxlen) (bound : maxlen ≤ intMax) :
    ExactEncoder session compCnt maxlen buffer (XmlEncoder.fullText lib session compCnt usrid)
        (XmlEncoder.extractSdpToXml lib session buffer maxlen compCnt usrid) ∧
      ExactEncoder session compCnt maxlen buffer (SdpText.fullText lib session compCnt)
        (SdpText.encodeSession lib session compCnt buffer maxlen) := by
  constructor
  · exact ⟨xml_known_iff compCnt usrid,
      (XmlEncoder.prints_session bound compCnt usrid).returned_exact
        (xml_closes compCnt usrid) positive⟩
  · exact ⟨sdp_known_iff compCnt,
      (SdpText.prints_session bound compCnt).returned_exact (sdp_closes compCnt) positive⟩

theorem encoders_exact_twoComponents :
    let session := DescriptionRoundTrip.twoComponents
    let blank : Memory := fun _ => '\x00'
    ExactEncoder session 2 2048 blank (XmlEncoder.fullText dottedLib session 2 "lamp".toList)
        (XmlEncoder.extractSdpToXml dottedLib session blank 2048 2 "lamp".toList) ∧
      ExactEncoder session 2 2048 blank (SdpText.fullText dottedLib session 2)
        (SdpText.encodeSession dottedLib session 2 blank 2048) :=
  encoders_exact dottedLib DescriptionRoundTrip.twoComponents (fun _ => '\x00') 2 2048 "lamp".toList
    (by decide) (by decide)

end Encoders

end NatClient.EncoderBounds
