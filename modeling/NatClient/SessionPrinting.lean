import NatClient.BoundedPrint
import NatClient.IceTypes
import Mathlib.Data.PNat.Basic

/-!
What the two encoders of a local session share: the PRINT macro, the printer of
one candidate and the loop over the components. The local session is what the
library answers to the three queries of an encoder; an error status is positive.
-/

namespace NatClient.SessionPrinting

open CString BoundedPrint IceTypes

def pjEtoosmall : Int := 70019

structure LocalSession where
  ufrag : CStr
  pwd : CStr
  defCand : Nat → Except ℕ+ IceSessCand
  enumCands : Nat → Except ℕ+ (List IceSessCand)

/-- The PRINT macro with the buffer and the length of its surroundings. -/
def PRINT (base maxlen : Nat) (text : CStr) : Step := print pjEtoosmall base maxlen text

def printCandidate (head tail : CStr) (buffer maxlen : Nat) : Step := fun c => do
  let c ← PRINT buffer maxlen head c
  let c ← PRINT buffer maxlen tail c
  terminate pjEtoosmall buffer maxlen c

/-- The candidates go into the rest of the buffer, an `unsigned` length. -/
def printComponentWith (printDefault : Nat → IceSessCand → Step)
    (printCand : Nat → Nat → IceSessCand → Step) (session : LocalSession) (maxlen comp : Nat) :
    Step :=
  match session.defCand (comp + 1) with
  | .error status => fun c => .error ⟨-(status : Int), c.mem⟩
  | .ok default => fun c => do
      let c ← printDefault comp default c
      match session.enumCands (comp + 1) with
      | .error status => .error ⟨-(status : Int), c.mem⟩
      | .ok cands => forEach (fun cand => atCursor fun p => printCand p (maxlen - p) cand) cands c

def componentTextWith (defaultText : Nat → IceSessCand → CStr) (candText : IceSessCand → CStr)
    (session : LocalSession) (comp : Nat) : Option CStr :=
  match session.defCand (comp + 1), session.enumCands (comp + 1) with
  | .ok default, .ok cands => some (defaultText comp default ++ cands.flatMap candText)
  | _, _ => none

section Exact
variable {session : LocalSession} {maxlen : Nat}

theorem closed_ne_nil (front : CStr) (last : String) (nonempty : last ≠ "") :
    front ++ last.toList ≠ [] :=
  List.append_ne_nil_of_right_ne_nil front fun empty => nonempty (String.toList_eq_nil_iff.mp empty)

theorem prints_PRINT {base length : Nat} {text : CStr} (nonempty : text ≠ [])
    (bound : length ≤ intMax) : Prints base (base + length) (PRINT base length text) (some text) :=
  prints_piece (by decide) nonempty bound

theorem prints_whole {text : CStr} (nonempty : text ≠ []) (bound : maxlen ≤ intMax) :
    Prints 0 maxlen (PRINT 0 maxlen text) (some text) := by
  have printed : Prints 0 (0 + maxlen) (PRINT 0 maxlen text) (some text) :=
    prints_PRINT nonempty bound
  rwa [Nat.zero_add] at printed

theorem prints_closing {base length : Nat} :
    Prints base (base + length) (terminate pjEtoosmall base length) (some []) := prints_terminate

theorem prints_end : Prints 0 maxlen (terminate pjEtoosmall 0 maxlen) (some []) := by
  have closing : Prints 0 (0 + maxlen) (terminate pjEtoosmall 0 maxlen) (some []) := prints_closing
  rwa [Nat.zero_add] at closing

theorem prints_candidate {head tail : CStr} (headNonempty : head ≠ []) (tailNonempty : tail ≠ [])
    (bound : maxlen ≤ intMax) :
    Prints 0 maxlen (atCursor fun p => printCandidate head tail p (maxlen - p))
        (some (head ++ tail)) := by
  refine prints_atCursor fun p _ below => ?_
  have region : p + (maxlen - p) = maxlen := by omega
  have room : maxlen - p ≤ intMax := by omega
  have front : Prints p (p + (maxlen - p)) (PRINT p (maxlen - p) head) (some head) :=
    prints_PRINT headNonempty room
  have back : Prints p (p + (maxlen - p)) (PRINT p (maxlen - p) tail) (some tail) :=
    prints_PRINT tailNonempty room
  have whole := prints_seq front (prints_seq back prints_closing)
  rw [region, cat_some, cat_some, List.append_nil] at whole
  exact whole

theorem prints_componentWith {printDefault : Nat → IceSessCand → Step}
    {printCand : Nat → Nat → IceSessCand → Step} {defaultText : Nat → IceSessCand → CStr}
    {candText : IceSessCand → CStr}
    (defaults : ∀ comp default, Prints 0 maxlen (printDefault comp default)
      (some (defaultText comp default)))
    (candidates : ∀ cand, Prints 0 maxlen (atCursor fun p => printCand p (maxlen - p) cand)
      (some (candText cand))) (comp : Nat) :
    Prints 0 maxlen (printComponentWith printDefault printCand session maxlen comp)
      (componentTextWith defaultText candText session comp) := by
  rw [printComponentWith, componentTextWith]
  cases session.defCand (comp + 1) with
  | error status => exact prints_fail 0 maxlen _ (by have := status.pos; omega)
  | ok default =>
      cases session.enumCands (comp + 1) with
      | error status =>
          have failed := prints_seq (defaults comp default) (prints_fail 0 maxlen (-(status : Int))
            (by have := status.pos; omega))
          exact failed
      | ok cands =>
          have rest := prints_forEach cands fun cand _ => candidates cand
          rw [catAll_some fun _ _ => rfl] at rest
          exact prints_seq (defaults comp default) rest

end Exact

end NatClient.SessionPrinting
