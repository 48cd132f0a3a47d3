import NatClient.PeerFetch
import NatClient.Separators

/-!
The requests that verikdemo.c sends to the signalling server: a verb, a length, a name and
an argument between underscores, and a newline. The length counts everything behind the
second underscore, so that it does not tell where the name ends. A request is printed into
an array of 1024 bytes without regard to its size.
-/

namespace NatClient.SignalRequests

open CString IceTypes PeerFetch Separators

def putText (myId dsp : CStr) : CStr :=
  "PUT_".toList ++ decimal
    (myId.length + dsp.length + 2) ++ "_".toList ++ myId ++ "_".toList ++ dsp ++
    "\n".toList

def getallText (arg1 arg2 : CStr) : CStr :=
  "GETALL_".toList ++ decimal (arg1.length + arg2.length + 2) ++ "_".toList ++ arg1 ++ "_".toList ++
    arg2 ++ "\n".toList

/-- What `write` takes from the buffer; no result when the print runs past its end. -/
def peerPutDsp (myId dsp : CStr) : Option (CharArray 1024) := strcpy 1024 (some (putText myId dsp))

def peerGetDsps : Option (CharArray 1024) := do
  let arg1 ← strcpy 256 (some "all".toList)
  let arg2 ← strcpy 256 (some "none".toList)
  strcpy 1024 (some (getallText arg1.text arg2.text))

def getRequest (usrId : CStr) : Option (CharArray 1024) := strcpy 1024 (some (requestText usrId))

/-- A user name is at most 255 bytes long, the description that `icedemo_show_ice` leaves at
most 999. -/
inductive Request where
  | put (myId : CharArray 256) (dsp : CharArray 1000)
  | get (usrId : CharArray 256)
  | getall
  deriving DecidableEq

namespace Request

def buffer : Request → Option (CharArray 1024)
  | .put myId dsp => peerPutDsp myId.text dsp.text
  | .get usrId => getRequest usrId.text
  | .getall => peerGetDsps

def verb : Request → CStr
  | .put _ _ => "PUT".toList
  | .get _ => "GET".toList
  | .getall => "GETALL".toList

def id : Request → CStr
  | .put myId _ => myId.text
  | .get usrId => usrId.text
  | .getall => "all".toList

def arg : Request → CStr
  | .put _ dsp => dsp.text
  | .get _ => "None".toList
  | .getall => "none".toList

end Request

/-! The common shape of the three texts. -/
section Frame

def frame (verb : CStr) (length : Nat) (body : CStr) : CStr :=
  verb ++ '_' :: (decimal length ++ '_' :: body)

def body (id arg : CStr) : CStr := id ++ '_' :: (arg ++ ['\n'])

def Request.text (request : Request) : CStr :=
  frame request.verb (request.id.length + request.arg.length + 2) (body request.id request.arg)

theorem body_length (id arg : CStr) : (body id arg).length = id.length + arg.length + 2 := by
  simp only [body, List.length_append, List.length_cons, List.length_nil]
  omega

theorem printed_frame (verb : CStr) (length : Nat) (id arg : CStr) :
    verb ++ "_".toList ++ decimal length ++ "_".toList ++ id ++ "_".toList ++ arg ++ "\n".toList =
      frame verb length (body id arg) := by
  have separator : "_".toList = ['_'] := rfl
  have newline : "\n".toList = ['\n'] := rfl
  rw [separator, newline, frame, body]
  simp only [List.append_assoc, List.cons_append, List.nil_append]

theorem putText_frame (myId : CharArray 256) (dsp : CharArray 1000) :
    putText myId.text dsp.text = (Request.put myId dsp).text :=
  printed_frame "PUT".toList (myId.text.length + dsp.text.length + 2) myId.text dsp.text

theorem requestText_frame (usrId : CharArray 256) :
    requestText usrId.text = (Request.get usrId).text :=
  printed_frame "GET".toList (usrId.text.length + "None".toList.length + 2) usrId.text "None".toList

theorem request_buffer (request : Request) : request.buffer = strcpy 1024 (some request.text) := by
  cases request with
  | put myId dsp => rw [Request.buffer, peerPutDsp, putText_frame]
  | get usrId => rw [Request.buffer, getRequest, requestText_frame]
  | getall => rfl

theorem decimal_clean (value : Nat) : '_' ∉ decimal value := fun member =>
  absurd (decimal_digit value '_' member) (by decide)

theorem verb_clean (request : Request) : '_' ∉ request.verb := by
  cases request with
  | put myId dsp => exact (by decide : '_' ∉ "PUT".toList)
  | get usrId => exact (by decide : '_' ∉ "GET".toList)
  | getall => exact (by decide : '_' ∉ "GETALL".toList)

theorem put_of_verb {request : Request} (same : request.verb = "PUT".toList) :
    ∃ myId dsp, request = .put myId dsp := by
  cases request with
  | put myId dsp => exact ⟨myId, dsp, rfl⟩
  | get usrId => exact absurd same (by decide : "GET".toList ≠ "PUT".toList)
  | getall => exact absurd same (by decide)

theorem get_of_verb {request : Request} (same : request.verb = "GET".toList) :
    ∃ usrId, request = .get usrId := by
  cases request with
  | put myId dsp => exact absurd same (by decide : "PUT".toList ≠ "GET".toList)
  | get usrId => exact ⟨usrId, rfl⟩
  | getall => exact absurd same (by decide)

theorem getall_of_verb {request : Request} (same : request.verb = "GETALL".toList) :
    request = .getall := by
  cases request with
  | put myId dsp => exact absurd same (by decide : "PUT".toList ≠ "GETALL".toList)
  | get usrId => exact absurd same (by decide : "GET".toList ≠ "GETALL".toList)
  | getall => rfl

theorem behind_frame {verb : CStr} (clean : '_' ∉ verb) (length : Nat) (body : CStr) :
    behind '_' (behind '_' (frame verb length body)) = body := by
  rw [frame, behind_joined clean, behind_joined (decimal_clean length)]

theorem frame_inj {verb verb' body body' : CStr} {length length' : Nat} (clean : '_' ∉ verb)
    (clean' : '_' ∉ verb') (same : frame verb length body = frame verb' length' body') :
    verb = verb' ∧ body = body' := by
  obtain ⟨verbs, rest⟩ := joined_clean clean clean' same
  exact ⟨verbs, (joined_clean (decimal_clean length) (decimal_clean length') rest).2⟩

theorem body_eq_iff {id arg id' arg' : CStr} :
    body id arg = body id' arg' ↔ id ++ '_' :: arg = id' ++ '_' :: arg' := by
  have joined (id arg : CStr) : body id arg = (id ++ '_' :: arg) ++ ['\n'] := by simp [body]
  rw [joined, joined, List.append_left_inj]

end Frame

/-! What is asked of a request, and the requests of which it holds. -/
section Claim

/-- The request fits the buffer, its length field counts the bytes behind the second
underscore, and no request with another verb, name or argument is the same text. -/
structure Framed (request : Request) : Prop where
  built : ∃ buffer, request.buffer = some buffer ∧ ∃ length,
    buffer.text = request.verb ++ '_' ::
        (decimal length ++ '_' :: (request.id ++ '_' :: (request.arg ++ ['\n']))) ∧
      length = (behind '_' (behind '_' buffer.text)).length
  unique : ∀ other : Request, other.buffer = request.buffer →
    other.verb = request.verb ∧ other.id = request.id ∧ other.arg = request.arg

/-- A PUT is short enough, and neither of its parts has an underscore at which the text
could be cut into another name and another description. -/
def Sound : Request → Prop
  | .put myId dsp =>
      myId.text.length + dsp.text.length ≤ 1012 ∧
        (∀ front back, myId.text = front ++ '_' :: back → 999 < back.length + 1 + dsp.text.length) ∧
        ∀ front back, dsp.text = front ++ '_' :: back → 255 < myId.text.length + 1 + front.length
  | .get _ => True
  | .getall => True

theorem text_length (request : Request) :
    request.text.length = request.verb.length + request.id.length + request.arg.length +
      (decimal (request.id.length + request.arg.length + 2)).length + 4 := by
  rw [Request.text, frame, List.length_append, List.length_cons,
    List.length_append, List.length_cons,
    body_length]
  omega

theorem put_fits_iff (myId : CharArray 256) (dsp : CharArray 1000) :
    (Request.put myId dsp).text.length < 1024 ↔ myId.text.length + dsp.text.length ≤ 1012 := by
  have total := text_length (.put myId dsp)
  have name := myId.fits
  have description := dsp.fits
  have verb : (Request.put myId dsp).verb.length = 3 := rfl
  dsimp only [Request.id, Request.arg] at total
  rw [verb] at total
  -- The length field has a fourth digit from 998 bytes on.
  by_cases small : myId.text.length + dsp.text.length + 2 < 10 ^ 3
  · have digits := decimal_length_lt _ 3 (by decide) small
    omega
  · have three : (decimal (myId.text.length + dsp.text.length + 2)).length ≤ 3 ↔
        myId.text.length + dsp.text.length + 2 < 10 ^ 3 :=
          Nat.length_toDigits_le_iff (by decide) (by decide)
    have digits :=
      decimal_length_lt (myId.text.length + dsp.text.length + 2) 4 (by decide) (by omega)
    omega

theorem get_fits (usrId : CharArray 256) : (Request.get usrId).text.length < 1024 := by
  rw [← requestText_frame]
  exact request_length usrId.text (Nat.le_of_lt_succ usrId.fits)

theorem built_iff (request : Request) : (∃ buffer, request.buffer = some buffer ∧ ∃ length,
    buffer.text = request.verb ++ '_' ::
        (decimal length ++ '_' :: (request.id ++ '_' :: (request.arg ++ ['\n']))) ∧
      length = (behind '_' (behind '_' buffer.text)).length) ↔ request.text.length < 1024 := by
  rw [request_buffer]
  constructor
  · rintro ⟨buffer, printed, _⟩
    have same := strcpy_eq_some.mp printed
    exact Option.some_inj.mp same ▸ buffer.fits
  · intro fits
    have counted : (behind '_' (behind '_' request.text)).length =
        request.id.length + request.arg.length + 2 := by
      rw [Request.text, behind_frame (verb_clean request), body_length]
    exact ⟨_, strcpy_of_fits fits, _, rfl, counted.symm⟩

theorem text_eq_iff (request other : Request) : other.text = request.text ↔
    other.verb = request.verb ∧
        other.id ++ '_' :: other.arg = request.id ++ '_' :: request.arg := by
  constructor
  · intro same
    obtain ⟨verbs, bodies⟩ := frame_inj (verb_clean other) (verb_clean request) same
    exact ⟨verbs, body_eq_iff.mp bodies⟩
  · rintro ⟨verbs, joined⟩
    have bodies := body_eq_iff.mpr joined
    have lengths := congrArg List.length bodies
    rw [body_length, body_length] at lengths
    rw [Request.text, Request.text, verbs, bodies, lengths]

theorem same_buffer_iff {request : Request} (fits : request.text.length < 1024) (other : Request) :
    other.buffer = request.buffer ↔ other.text = request.text := by
  rw [request_buffer, request_buffer, strcpy_of_fits fits, strcpy_eq_some, Option.some_inj]

theorem put_unique_iff {myId : CharArray 256} {dsp : CharArray 1000}
    (fits : (Request.put myId dsp).text.length < 1024) :
    (∀ other : Request, other.buffer = (Request.put myId dsp).buffer → other.verb = "PUT".toList ∧
        other.id = myId.text ∧ other.arg = dsp.text) ↔
      OnlyCut (·.length < 256) (·.length < 1000) '_' myId.text dsp.text := by
  constructor
  · intro unique left right allowed admitted joined
    have same :
        (Request.put ⟨left, allowed⟩ ⟨right, admitted⟩).text = (Request.put myId dsp).text :=
      (text_eq_iff _ _).mpr ⟨rfl, joined⟩
    exact (unique _ ((same_buffer_iff fits _).mpr same)).2
  · intro only other printed
    obtain ⟨verbs, joined⟩ := (text_eq_iff _ _).mp ((same_buffer_iff fits _).mp printed)
    obtain ⟨name, description, rfl⟩ := put_of_verb verbs
    exact ⟨verbs, only _ _ name.fits description.fits joined⟩

theorem put_framed_iff (myId : CharArray 256) (dsp : CharArray 1000) :
    Framed (.put myId dsp) ↔ Sound (.put myId dsp) := by
  -- A cut elsewhere gives another name and another description, if both keep to their bounds.
  have cut := @onlyCut_iff Char '_' (·.length < 256) (·.length < 1000) myId.text dsp.text
  constructor
  · rintro ⟨built, unique⟩
    have fits := (built_iff _).mp built
    obtain ⟨inName, inDescription⟩ := cut.mp ((put_unique_iff fits).mp unique)
    refine ⟨(put_fits_iff myId dsp).mp fits, fun front back parts => ?_, fun front back parts => ?_⟩
    · have shorter := congrArg List.length parts
      have name := myId.fits
      have refused := inName front back parts (by simp at shorter; omega)
      simp only [List.length_append, List.length_cons] at refused
      omega
    · have shorter := congrArg List.length parts
      have description := dsp.fits
      have refused := inDescription front back parts (by simp at shorter; omega)
      simp only [List.length_append, List.length_cons] at refused
      omega
  · rintro ⟨short, inName, inDescription⟩
    have fits := (put_fits_iff myId dsp).mpr short
    refine ⟨(built_iff _).mpr fits, (put_unique_iff fits).mpr (cut.mpr ⟨?_, ?_⟩)⟩
    · intro front back parts _
      have long := inName front back parts
      simp only [List.length_append, List.length_cons]
      omega
    · intro front back parts _
      have long := inDescription front back parts
      simp only [List.length_append, List.length_cons]
      omega

/-- The last word of a GET is fixed, so the name is all that stands before it. -/
theorem get_framed (usrId : CharArray 256) : Framed (.get usrId) := by
  refine ⟨(built_iff _).mpr (get_fits usrId), fun other printed => ?_⟩
  obtain ⟨verbs, joined⟩ :=
    (text_eq_iff _ _).mp ((same_buffer_iff (get_fits usrId) other).mp printed)
  obtain ⟨name, rfl⟩ := get_of_verb verbs
  exact ⟨verbs, List.append_cancel_right joined, rfl⟩

theorem getall_framed : Framed .getall := by
  have fits : Request.getall.text.length < 1024 := by decide
  refine ⟨(built_iff _).mpr fits, fun other printed => ?_⟩
  have verbs := ((text_eq_iff _ _).mp ((same_buffer_iff fits other).mp printed)).1
  rw [getall_of_verb verbs]
  exact ⟨rfl, rfl, rfl⟩

/-- The requests that can be read back are exactly the sound ones. -/
theorem request_framed_iff (request : Request) : Framed request ↔ Sound request := by
  cases request with
  | put myId dsp => exact put_framed_iff myId dsp
  | get usrId => exact iff_of_true (get_framed usrId) trivial
  | getall => exact iff_of_true getall_framed trivial

def longName : CharArray 256 := ⟨List.replicate 255 'a', by rw [List.length_replicate]; decide⟩

def longDescription : CharArray 1000 :=
  ⟨List.replicate 999 'b', by rw [List.length_replicate]; decide⟩

/-- An underscore moves from the name to the description, and a long name with a long
description leaves the buffer. -/
theorem requests_confused :
    ¬ Framed (.put ⟨"a_b".toList, by decide⟩ ⟨"c".toList, by decide⟩) ∧
      ¬ Framed (.put longName longDescription) := by
  constructor
  · intro framed
    have same : (Request.put ⟨"a".toList, by decide⟩ ⟨"b_c".toList, by decide⟩).buffer =
        (Request.put ⟨"a_b".toList, by decide⟩ ⟨"c".toList, by decide⟩).buffer := by decide
    exact absurd (framed.unique _ same).2.1 (by decide)
  · intro framed
    have short : longName.text.length + longDescription.text.length ≤ 1012 :=
      ((put_framed_iff _ _).mp framed).1
    have name : longName.text.length = 255 := List.length_replicate
    have description : longDescription.text.length = 999 := List.length_replicate
    omega

end Claim

end NatClient.SignalRequests
