import NatClient.SdpLines

/-!
The text of `encode_session`, read by `icedemo_input_remote2` behind any number of
acknowledgements. What has been read so far is carried from line to line.
-/

namespace NatClient.SdpRoundTrip

open CString CStdio IceTypes BoundedPrint SessionPrinting XmlDecoder DescriptionReading
  DescriptionRoundTrip SdpText SdpReader SdpLines

/-! What a session may hold. -/
section Valid

structure ValidSdpCand (compCnt : Nat) (cand : IceSessCand) : Prop where
  type : cand.type ≠ .prflx
  foundation : 1 ≤ cand.foundation.length ∧ cand.foundation.length ≤ 31
  visible : ∀ c ∈ cand.foundation, isSpace c = false
  terminated : '\x00' ∉ cand.foundation
  compId : 1 ≤ cand.compId.toNat ∧ cand.compId.toNat ≤ compCnt
  prio : cand.prio.toNat < 2 ^ 31
  addr : cand.addr ≠ none

def ValidSdpCredential (text : CStr) : Prop := text ≠ [] ∧ ∀ c ∈ text, lineChar c = true

structure ValidSdpSession (session : LocalSession) (compCnt : Nat)
    (first second : PjSockaddr) : Prop where
  components : 1 ≤ compCnt ∧ compCnt ≤ 3
  count : 1 ≤ (emitted session compCnt).length ∧ (emitted session compCnt).length ≤ pjIceStMaxCand
  cands : ∀ cand ∈ emitted session compCnt, ValidSdpCand compCnt cand
  ufrag : ValidSdpCredential session.ufrag
  pwd : ValidSdpCredential session.pwd
  default : ∃ cand, session.defCand 1 = .ok cand ∧ cand.addr = some first
  port : first.port ≠ 0
  other : 2 ≤ compCnt → ∃ cand, session.defCand 2 = .ok cand ∧ cand.addr = some second

variable {lib : SockaddrLib}

theorem lineChar_of_visible {c : Char} (visible : isSpace c = false) (present : c ≠ '\x00') :
    lineChar c = true := by
  refine lineChar_iff.mpr ⟨present, ?_, ?_⟩
  · rintro rfl
    exact absurd visible (by decide)
  · rintro rfl
    exact absurd visible (by decide)

theorem decimal_chars (value : Nat) : ∀ c ∈ decimal value, lineChar c = true := by
  intro c member
  apply lineChar_of_visible (decimal_visible value c member)
  rintro rfl
  exact absurd (decimal_digit value _ member) (by decide)

theorem print_chars (numeric : lib.Numeric) (addr : Option PjSockaddr) :
    ∀ c ∈ pjSockaddrPrint lib addr, lineChar c = true := by
  intro c member
  cases addr with
  | none => exact absurd member List.not_mem_nil
  | some addr =>
      apply lineChar_of_visible (print_visible numeric addr.ip c member)
      rintro rfl
      exact absurd (numeric.chars addr.ip _ member) (by decide)

theorem word_chars {word : CStr} (all : word.all lineChar = true) : ∀ c ∈ word, lineChar c = true :=
  List.all_eq_true.mp all

theorem plain_of_head {front : Char} {text : CStr} (chars : ∀ c ∈ front :: text, lineChar c = true)
    (short : (front :: text).length ≤ 78) (visible : isSpace front = false) (notAck : front ≠ 'A') :
    PlainLine (front :: text) := ⟨chars, short, front, rfl, visible, notAck⟩

theorem credential_chars {name value : CStr} (named : name.all lineChar = true)
    (chars : ∀ c ∈ value, lineChar c = true) :
    ∀ c ∈ 'a' :: '=' :: (name ++ ':' :: value), lineChar c = true := by
  simp only [List.forall_mem_cons, List.forall_mem_append]
  exact ⟨rfl, rfl, word_chars named, rfl, chars⟩

theorem media_chars (addr : PjSockaddr) :
    ∀ c ∈ 'm' :: '=' :: mediaValue addr, lineChar c = true := by
  simp only [mediaValue, List.forall_mem_cons, List.forall_mem_append]
  exact ⟨rfl, rfl, word_chars (by decide), rfl, decimal_chars _, rfl, word_chars (by decide)⟩

theorem connection_chars (numeric : lib.Numeric) (addr : PjSockaddr) :
    ∀ c ∈ 'c' :: '=' :: connectionValue lib addr, lineChar c = true := by
  simp only [connectionValue, List.forall_mem_cons, List.forall_mem_append]
  exact ⟨rfl, rfl, word_chars (by decide), rfl, word_chars (by decide), rfl,
    print_chars numeric (some addr)⟩

theorem port_chars (numeric : lib.Numeric) (addr : Option PjSockaddr) :
    ∀ c ∈ portValue lib addr, lineChar c = true := by
  simp only [portValue, List.forall_mem_cons, List.forall_mem_append]
  exact ⟨decimal_chars _, rfl, word_chars (by decide), rfl, word_chars (by decide), rfl,
    print_chars numeric addr⟩

theorem foundation_chars {compCnt : Nat} {cand : IceSessCand} (valid : ValidSdpCand compCnt cand) :
    ∀ c ∈ cand.foundation, lineChar c = true := fun c member =>
  lineChar_of_visible (valid.visible c member) fun same => valid.terminated (same ▸ member)

theorem candValue_chars (numeric : lib.Numeric) {compCnt : Nat} {cand : IceSessCand}
    (valid : ValidSdpCand compCnt cand) (addr : PjSockaddr) :
    ∀ c ∈ candValue lib cand addr, lineChar c = true := by
  have type : (pjIceGetCandTypeName cand.type).all lineChar = true := by cases cand.type <;> decide
  simp only [candValue, List.forall_mem_cons, List.forall_mem_append]
  exact ⟨foundation_chars valid, rfl, decimal_chars _, rfl, word_chars (by decide), rfl,
    decimal_chars _, rfl, print_chars numeric (some addr), rfl, decimal_chars _, rfl,
    word_chars (by decide), rfl, word_chars type⟩

end Valid

/-! What has been read, line by line. -/
section Steps
variable {lib : SockaddrLib} {session : LocalSession} {compCnt : Nat} {first second : PjSockaddr}

/-- `defaults` default addresses and the candidates `cands` have been read. -/
structure Progress (lib : SockaddrLib) (session : LocalSession) (first second : PjSockaddr)
    (defaults : Nat) (cands : List IceSessCand) (r : Reader) : Prop where
  media : r.mediaCnt = min defaults 1
  ufrag : r.st.rem.ufrag.text = session.ufrag
  pwd : r.st.rem.pwd.text = session.pwd
  stored : Stored r.st.rem cands
  compCnt : r.st.rem.compCnt = maxCompId cands 0
  port : 1 ≤ defaults → r.st.comp0Port = first.port.toNat
  addr : 1 ≤ defaults → r.st.comp0Addr.text = lib.print first.ip
  other : 2 ≤ defaults → r.st.rem.defAddr[1] = some second

theorem reads_dummy {r : Reader} (media : r.mediaCnt ≤ 1) : Reads lib dummyLines r r :=
  reads_all fun line member => reads_inert (List.all_eq_true.mp (by decide) line member) media

theorem name_token {name : CStr} (all : name.all (fun c => !isDelim c) = true) :
    ∀ c ∈ name, isDelim c = false := fun c member => by simpa using List.all_eq_true.mp all c member

theorem reads_credentials (ufrag : ValidSdpCredential session.ufrag)
    (pwd : ValidSdpCredential session.pwd)
    (ufragShort : (ufragLine session).length ≤ 78) (pwdShort : (pwdLine session).length ≤ 78) :
    ∃ r, Reads lib [ufragLine session, pwdLine session] .start r ∧
      Progress lib session first second 0 [] r := by
  rw [ufragLine_shape] at ufragShort ⊢
  rw [pwdLine_shape] at pwdShort ⊢
  have ufragFits : session.ufrag.length < 80 := by
    simp only [List.length_cons, List.length_append] at ufragShort
    omega
  have pwdFits : session.pwd.length < 80 := by
    simp only [List.length_cons, List.length_append] at pwdShort
    omega
  have ufragPlain := plain_of_head (credential_chars (by decide) ufrag.2) ufragShort rfl (by decide)
  have pwdPlain := plain_of_head (credential_chars (by decide) pwd.2) pwdShort rfl (by decide)
  have readUfrag : applyAttribute lib "ice-ufrag".toList (.ok session.ufrag) resetRemInfo =
      .ok { resetRemInfo with ufrag := ⟨session.ufrag, ufragFits⟩ } := by
    simp only [applyAttribute, ↓reduceIte, bind, Except.bind, strcpy_of_fits ufragFits, orAbort]
  have readPwd (rem : RemInfo) : applyAttribute lib "ice-pwd".toList (.ok session.pwd) rem =
      .ok { rem with pwd := ⟨session.pwd, pwdFits⟩ } := by
    rw [applyAttribute, if_neg (by decide), if_pos rfl]
    simp only [bind, Except.bind, strcpy_of_fits pwdFits, orAbort]
  refine ⟨_, reads_cons
    (reads_attribute ufragPlain (Nat.zero_le 1) (by decide) (name_token (by decide)) readUfrag)
    (reads_attribute pwdPlain (Nat.zero_le 1) (by decide) (name_token (by decide)) (readPwd _)), ?_⟩
  constructor
  case stored => exact ⟨rfl, by simp [resetRemInfo]⟩
  case media => rfl
  case ufrag => rfl
  case pwd => rfl
  case compCnt => rfl
  -- No component has been read, so nothing is claimed of a default address.
  all_goals
    intro impossible
    omega

theorem progress_media {n : Nat} {cands : List IceSessCand} {r : Reader}
    (progress : Progress lib session first second n cands r) : r.mediaCnt ≤ 1 :=
  progress.media ▸ Nat.min_le_right n 1

theorem readCandidate_valid (numeric : lib.Numeric) {cand : IceSessCand}
    (valid : ValidSdpCand compCnt cand) {addr : PjSockaddr}
    (known : cand.addr = some addr) {rem : RemInfo} (slot : rem.candCnt < pjIceStMaxCand) :
    SdpReader.readCandidate lib (candValue lib cand addr) rem = .ok (addCand rem cand slot) := by
  have present : cand.foundation ≠ [] := List.ne_nil_of_length_pos valid.foundation.1
  have scanned :=
    scan_cand numeric addr present valid.visible (Nat.lt_succ_of_le valid.foundation.2)
    valid.prio
  obtain ⟨type, compId, foundation, prio, _⟩ := cand
  cases known
  have readType : readCandType (pjIceGetCandTypeName type) = some type :=
    readCandType_name valid.type
  simp only [SdpReader.readCandidate, scanned, orAbort, bind,
    Except.bind, slot, ↓reduceDIte, readType,
    numeric.readAddr_print, BitVec.ofInt_natCast, BitVec.ofNat_toNat, BitVec.setWidth_eq]

theorem reads_cand (numeric : lib.Numeric) {cand : IceSessCand} (valid : ValidSdpCand compCnt cand)
    (short : (candLine lib cand).length ≤ 78) {n : Nat} {cands : List IceSessCand}
    (room : cands.length < pjIceStMaxCand) {r : Reader}
    (progress : Progress lib session first second n cands r) :
    ∃ r', Reads lib [candLine lib cand] r r' ∧
      Progress lib session first second n (cands ++ [cand]) r' := by
  obtain ⟨addr, known⟩ := Option.ne_none_iff_exists'.mp valid.addr
  have slot : r.st.rem.candCnt < pjIceStMaxCand := progress.stored.1 ▸ room
  rw [candLine_shape known] at short ⊢
  have plain :=
    plain_of_head (credential_chars (by decide) (candValue_chars numeric valid addr)) short
    rfl (by decide)
  have applied : applyAttribute lib "candidate".toList (.ok (candValue lib cand addr)) r.st.rem =
      .ok (addCand r.st.rem cand slot) := by
    rw [applyAttribute, if_neg (by decide), if_neg (by decide), if_neg (by decide), if_pos rfl]
    exact readCandidate_valid numeric valid known slot
  refine ⟨_, reads_attribute plain (progress_media progress) (by decide)
    (name_token (by decide)) applied, ?_⟩
  constructor
  case stored => exact stored_addCand slot progress.stored
  case media => exact progress.media
  case ufrag => exact progress.ufrag
  case pwd => exact progress.pwd
  -- The largest component so far.
  case compCnt =>
    change (addCand r.st.rem cand slot).compCnt = maxCompId (cands ++ [cand]) 0
    rw [compCnt_addCand, progress.compCnt, maxCompId, maxCompId, List.foldl_append]
    rfl
  case port => exact progress.port
  case addr => exact progress.addr
  case other => exact progress.other

theorem reads_cands (numeric : lib.Numeric) {n : Nat} {new : List IceSessCand}
    (valid : ∀ cand ∈ new, ValidSdpCand compCnt cand)
    (short : ∀ cand ∈ new, (candLine lib cand).length ≤ 78) {old : List IceSessCand}
    (room : (old ++ new).length ≤ pjIceStMaxCand) {r : Reader}
    (progress : Progress lib session first second n old r) :
    ∃ r', Reads lib (new.map (candLine lib)) r r' ∧
      Progress lib session first second n (old ++ new) r' := by
  induction new generalizing old r with
  | nil => exact ⟨r, reads_nil r, by rwa [List.append_nil]⟩
  | cons cand rest ih =>
      have here : old.length < pjIceStMaxCand := by
        simp only [List.length_append, List.length_cons] at room
        omega
      obtain ⟨middle, head, reached⟩ := reads_cand numeric (valid cand List.mem_cons_self)
        (short cand List.mem_cons_self) here progress
      obtain ⟨r', tail, done⟩ :=
        ih (fun other member => valid other (List.mem_cons_of_mem cand member))
        (fun other member => short other (List.mem_cons_of_mem cand member))
        (by simpa using room) reached
      refine ⟨r', reads_cons head tail, ?_⟩
      rwa [List.append_assoc, List.singleton_append] at done

theorem toUnsigned_port (addr : PjSockaddr) :
    toUnsigned (atoi (decimal addr.port.toNat)) = addr.port.toNat := by
  have small := addr.port.isLt
  rw [atoi_whole (Nat.lt_trans small (by decide)), toUnsigned]
  omega

theorem reads_first_default (numeric : lib.Numeric) {default : IceSessCand}
    (known : default.addr = some first)
    (short : ∀ line ∈ defaultLines lib 0 default, line.length ≤ 78)
    {cands : List IceSessCand} {r : Reader}
    (progress : Progress lib session first second 0 cands r) :
    ∃ r', Reads lib (defaultLines lib 0 default) r r' ∧
        Progress lib session first second 1 cands r' := by
  rw [firstDefault_shape known] at short ⊢
  have mediaPlain := plain_of_head (media_chars first) (short _ List.mem_cons_self) rfl (by decide)
  have connectionPlain := plain_of_head (connection_chars numeric first)
    (short _ (List.mem_cons_of_mem _ List.mem_cons_self)) rfl (by decide)
  have fits : (lib.print first.ip).length < 80 := Nat.lt_trans (numeric.short first.ip) (by decide)
  refine ⟨_, reads_cons (reads_media mediaPlain progress.media (scan_media first))
    (reads_connection connectionPlain (Nat.le_refl 1) (scan_connection numeric first) fits), ?_⟩
  constructor
  case media => rfl
  case ufrag => exact progress.ufrag
  case pwd => exact progress.pwd
  case stored => exact progress.stored
  case compCnt => exact progress.compCnt
  case port => exact fun _ => toUnsigned_port first
  case addr => exact fun _ => rfl
  case other =>
    intro impossible
    omega

theorem reads_second_default (numeric : lib.Numeric) {default : IceSessCand}
    (known : default.addr = some second)
    (short : ∀ line ∈ defaultLines lib 1 default, line.length ≤ 78)
    {cands : List IceSessCand} {r : Reader}
    (progress : Progress lib session first second 1 cands r) :
    ∃ r', Reads lib (defaultLines lib 1 default) r r' ∧
        Progress lib session first second 2 cands r' := by
  rw [secondDefault_shape, known] at short ⊢
  have plain := plain_of_head (credential_chars (by decide) (port_chars numeric (some second)))
    (short _ List.mem_cons_self) rfl (by decide)
  have applied : applyAttribute lib "rtcp".toList (.ok (portValue lib (some second))) r.st.rem =
      .ok { r.st.rem with defAddr := r.st.rem.defAddr.set 1 (some second) } := by
    rw [applyAttribute, if_neg (by decide), if_neg (by decide), if_pos rfl]
    simp only [readRtcp, bind, Except.bind, scan_rtcp numeric second,
      orAbort, numeric.readAddr_print,
      BitVec.ofInt_natCast, BitVec.ofNat_toNat, BitVec.setWidth_eq]
  refine ⟨_, reads_attribute plain (progress_media progress) (by decide)
    (name_token (by decide)) applied, ?_⟩
  constructor
  case media => exact progress.media
  case ufrag => exact progress.ufrag
  case pwd => exact progress.pwd
  case stored => exact progress.stored
  case compCnt => exact progress.compCnt
  case port => exact fun _ => progress.port (Nat.le_refl 1)
  case addr => exact fun _ => progress.addr (Nat.le_refl 1)
  case other => exact fun _ => by simp

theorem reads_later_default (numeric : lib.Numeric)
    {default : IceSessCand} {n : Nat} (later : 2 ≤ n)
    (short : ∀ line ∈ defaultLines lib n default, line.length ≤ 78)
    {cands : List IceSessCand} {r : Reader}
    (progress : Progress lib session first second n cands r) :
    ∃ r', Reads lib (defaultLines lib n default) r r' ∧
      Progress lib session first second (n + 1) cands r' := by
  rw [laterDefault_shape later] at short ⊢
  have plain := plain_of_head (credential_chars (by decide) (port_chars numeric default.addr))
    (short _ List.mem_cons_self) rfl (by decide)
  have applied (value : Except Stop CStr) :
      applyAttribute lib "Xice-defcand".toList value r.st.rem = .ok r.st.rem := by
    rw [applyAttribute, if_neg (by decide), if_neg (by decide),
      if_neg (by decide), if_neg (by decide)]
  refine ⟨_, reads_attribute plain (progress_media progress) (by decide) (name_token (by decide))
    (applied _), ?_⟩
  constructor
  case media =>
    have before := progress.media
    change r.mediaCnt = min (n + 1) 1
    omega
  case ufrag => exact progress.ufrag
  case pwd => exact progress.pwd
  case stored => exact progress.stored
  case compCnt => exact progress.compCnt
  case port => exact fun _ => progress.port (by omega)
  case addr => exact fun _ => progress.addr (by omega)
  case other => exact fun _ => progress.other later

end Steps

/-! All lines of the text. -/
section Reading
variable {lib : SockaddrLib} {session : LocalSession} {compCnt : Nat} {first second : PjSockaddr}

theorem emitted_succ (session : LocalSession) (n : Nat) :
    emitted session
        (n + 1) = emitted session n ++ (session.enumCands (n + 1)).toOption.getD [] := by
  simp [emitted, List.range_succ]

theorem emitted_sublist (session : LocalSession) {n m : Nat} (below : n ≤ m) :
    (emitted session n).Sublist (emitted session m) := by
  induction m, below using Nat.le_induction with
  | base => exact List.Sublist.refl _
  | succ m _ ih =>
      rw [emitted_succ]
      exact ih.trans (List.sublist_append_left _ _)

theorem reads_component (numeric : lib.Numeric)
    (valid : ValidSdpSession session compCnt first second)
    {n : Nat} (below : n < compCnt) {default : IceSessCand} {cands : List IceSessCand}
    (defaultAt : session.defCand (n + 1) = .ok default)
    (candsAt : session.enumCands (n + 1) = .ok cands)
    (short : ∀ line ∈ componentLines lib session n, line.length ≤ 78) {r : Reader}
    (progress : Progress lib session first second n (emitted session n) r) :
    ∃ r', Reads lib (componentLines lib session n) r r' ∧
      Progress lib session first second (n + 1) (emitted session (n + 1)) r' := by
  have next : emitted session (n + 1) = emitted session n ++ cands := by
    rw [emitted_succ, candsAt]
    rfl
  have kept := emitted_sublist session below
  rw [Nat.succ_eq_add_one, next] at kept
  have lines :
      componentLines lib session n = defaultLines lib n default ++ cands.map (candLine lib) := by
    rw [componentLines, defaultAt, candsAt]
  rw [lines] at short ⊢
  have defaultShort : ∀ line ∈ defaultLines lib n default, line.length ≤ 78 := fun line member =>
    short line (List.mem_append_left _ member)
  have candShort : ∀ cand ∈ cands, (candLine lib cand).length ≤ 78 := fun cand member =>
    short _ (List.mem_append_right _ (List.mem_map_of_mem member))
  have candValid : ∀ cand ∈ cands, ValidSdpCand compCnt cand := fun cand member =>
    valid.cands cand (kept.mem (List.mem_append_right _ member))
  have defaults : ∃ middle, Reads lib (defaultLines lib n default) r middle ∧
      Progress lib session first second (n + 1) (emitted session n) middle := by
    -- The three kinds of default lines: m= and c=, a=rtcp, and one that is not known.
    rcases n with _ | _ | n
    · obtain ⟨cand, found, known⟩ := valid.default
      cases defaultAt.symm.trans found
      exact reads_first_default numeric known defaultShort progress
    · obtain ⟨cand, found, known⟩ := valid.other below
      cases defaultAt.symm.trans found
      exact reads_second_default numeric known defaultShort progress
    · exact reads_later_default numeric (Nat.le_add_left 2 n) defaultShort progress
  obtain ⟨middle, head, reached⟩ := defaults
  have room := Nat.le_trans kept.length_le valid.count.2
  obtain ⟨r', tail, done⟩ := reads_cands numeric candValid candShort room reached
  exact ⟨r', reads_append head tail, next ▸ done⟩

theorem reads_components (numeric : lib.Numeric)
    (valid : ValidSdpSession session compCnt first second)
    (known : ∀ comp < compCnt, ∃ default cands, session.defCand (comp + 1) = .ok default ∧
      session.enumCands (comp + 1) = .ok cands)
    (short : ∀ comp < compCnt, ∀ line ∈ componentLines lib session comp, line.length ≤ 78)
    {r : Reader}
    (progress : Progress lib session first second 0 [] r) {n : Nat} (below : n ≤ compCnt) :
    ∃ r', Reads lib ((List.range n).flatMap (componentLines lib session)) r r' ∧
      Progress lib session first second n (emitted session n) r' := by
  induction n with
  | zero => exact ⟨r, reads_nil r, progress⟩
  | succ n ih =>
      obtain ⟨middle, head, reached⟩ := ih (Nat.le_of_lt below)
      obtain ⟨default, cands, defaultAt, candsAt⟩ := known n below
      obtain ⟨r', tail, done⟩ :=
        reads_component numeric valid below defaultAt candsAt (short n below) reached
      refine ⟨r', ?_, done⟩
      rw [List.range_succ, List.flatMap_append, List.flatMap_singleton]
      exact reads_append head tail

theorem progress_enough (numeric : lib.Numeric)
    (valid : ValidSdpSession session compCnt first second) {r : Reader}
    (progress : Progress lib session first second compCnt (emitted session compCnt) r) :
    EnoughInfo lib r.st first.ip := by
  have port := progress.port valid.components.1
  have addr := progress.addr valid.components.1
  constructor
  case candCnt =>
    rw [progress.stored.1]
    exact Nat.ne_of_gt valid.count.1
  case ufrag => exact progress.ufrag ▸ valid.ufrag.1
  case pwd => exact progress.pwd ▸ valid.pwd.1
  case compCnt =>
    rw [progress.compCnt]
    exact maxCompId_present valid.count.1 fun cand member => (valid.cands cand member).compId.1
  case port =>
    rw [port]
    exact fun zero => valid.port (BitVec.eq_of_toNat_eq zero)
  case addr => exact addr ▸ numeric.nonempty first.ip
  case resolved => rw [addr, numeric.readAddr_print]

theorem finish_progress (numeric : lib.Numeric)
    (valid : ValidSdpSession session compCnt first second) {r : Reader}
    (progress : Progress lib session first second compCnt (emitted session compCnt) r) :
    finish lib r.st = .ok { r.st.rem with defAddr := r.st.rem.defAddr.set 0 (some first) } := by
  have port := progress.port valid.components.1
  rw [finish_enough (progress_enough numeric valid progress), port, BitVec.ofNat_toNat,
    BitVec.setWidth_eq]

structure SdpRestored (session : LocalSession) (compCnt : Nat) (first second : PjSockaddr)
    (rem : RemInfo) : Prop where
  restored : Restored session compCnt first rem
  second : 2 ≤ compCnt → rem.defAddr[1] = some second

theorem finish_restored {r : Reader}
    (progress : Progress lib session first second compCnt (emitted session compCnt) r) :
    SdpRestored session compCnt first second
      { r.st.rem with defAddr := r.st.rem.defAddr.set 0 (some first) } := by
  have stored : Stored { r.st.rem with defAddr := r.st.rem.defAddr.set 0 (some first) }
      (emitted session compCnt) := progress.stored
  constructor
  case restored =>
    exact ⟨progress.ufrag, progress.pwd, stored.1, stored_cands stored, progress.compCnt, by simp⟩
  case second =>
    intro two
    have other := progress.other two
    simpa using other

end Reading

/-! No line of the text holds a line end, so the text is cut where it was put together. -/
section Whole
variable {lib : SockaddrLib} {session : LocalSession} {compCnt : Nat} {first second : PjSockaddr}

theorem mem_emitted {comp : Nat} (below : comp < compCnt) {cands : List IceSessCand}
    (candsAt : session.enumCands (comp + 1) = .ok cands)
    {cand : IceSessCand} (member : cand ∈ cands) :
    cand ∈ emitted session compCnt :=
  List.mem_flatMap.mpr
    ⟨comp, List.mem_range.mpr below, by simpa [candsAt, Except.toOption] using member⟩

theorem defaultLines_chars (numeric : lib.Numeric) {comp : Nat} {default : IceSessCand}
    (known : comp = 0 → default.addr = some first) :
    ∀ line ∈ defaultLines lib comp default, ∀ c ∈ line, lineChar c = true := by
  intro line member
  rcases comp with _ | _ | comp
  · rw [firstDefault_shape (known rfl), List.mem_pair] at member
    rcases member with rfl | rfl
    · exact media_chars first
    · exact connection_chars numeric first
  · rw [secondDefault_shape, List.mem_singleton] at member
    exact member ▸ credential_chars (by decide) (port_chars numeric default.addr)
  · rw [laterDefault_shape (Nat.le_add_left 2 comp), List.mem_singleton] at member
    exact member ▸ credential_chars (by decide) (port_chars numeric default.addr)

theorem componentLines_chars (numeric : lib.Numeric)
    (valid : ValidSdpSession session compCnt first second) {comp : Nat} (below : comp < compCnt) :
    ∀ line ∈ componentLines lib session comp, ∀ c ∈ line, lineChar c = true := by
  intro line member
  unfold componentLines at member
  split at member
  · next default cands defaultAt candsAt =>
      rcases List.mem_append.mp member with header | listed
      · have known : comp = 0 → default.addr = some first := by
          rintro rfl
          obtain ⟨cand, found, known⟩ := valid.default
          cases defaultAt.symm.trans found
          exact known
        exact defaultLines_chars numeric known line header
      · obtain ⟨cand, inside, rfl⟩ := List.mem_map.mp listed
        have cand_valid := valid.cands cand (mem_emitted below candsAt inside)
        obtain ⟨addr, known⟩ := Option.ne_none_iff_exists'.mp cand_valid.addr
        rw [candLine_shape known]
        exact credential_chars (by decide) (candValue_chars numeric cand_valid addr)
  · exact absurd member List.not_mem_nil

theorem sdpLines_chars (numeric : lib.Numeric)
    (valid : ValidSdpSession session compCnt first second) :
    ∀ line ∈ sdpLines lib session compCnt, ∀ c ∈ line, lineChar c = true := by
  intro line member
  rw [sdpLines, List.mem_append, List.mem_append, List.mem_pair, List.mem_flatMap] at member
  rcases member with (fixed | rfl | rfl) | ⟨comp, below, inside⟩
  · have passed :=
      List.all_eq_true.mp (show dummyLines.all (·.all lineChar) = true by decide) line fixed
    exact List.all_eq_true.mp passed
  · rw [ufragLine_shape]
    exact credential_chars (by decide) valid.ufrag.2
  · rw [pwdLine_shape]
    exact credential_chars (by decide) valid.pwd.2
  · exact componentLines_chars numeric valid (List.mem_range.mp below) line inside

/-- The loop reads the whole file: acknowledgements, fixed lines, credentials, components. -/
theorem reads_sdp (numeric : lib.Numeric) (valid : ValidSdpSession session compCnt first second)
    {text : CStr} (known : fullText lib session compCnt = some text)
    (short : ∀ line ∈ sdpLines lib session compCnt, line.length ≤ 78) {acks : List CStr}
    (acknowledged : ∀ line ∈ acks, line.take 4 = "ACK:".toList ∧ line.length ≤ 78) :
    ∃ r, Reads lib (acks ++ sdpLines lib session compCnt) .start r ∧
      Progress lib session first second compCnt (emitted session compCnt) r := by
  have credentials_short (line : CStr) (member : line ∈ [ufragLine session, pwdLine session]) :
      line.length ≤ 78 :=
        short line (by simp only [sdpLines, List.mem_append, member, or_true, true_or])
  have components_short (comp : Nat) (below : comp < compCnt) (line : CStr)
      (member : line ∈ componentLines lib session comp) : line.length ≤ 78 := by
    apply short line
    rw [sdpLines]
    exact List.mem_append_right _ (List.mem_flatMap.mpr ⟨comp, List.mem_range.mpr below, member⟩)
  have skipped : Reads lib acks .start .start := reads_all fun line member =>
    reads_ack (acknowledged line member).1 (acknowledged line member).2
  have fixed : Reads lib dummyLines .start .start := reads_dummy (Nat.zero_le 1)
  have credentials : ∃ r, Reads lib [ufragLine session, pwdLine session] .start r ∧
      Progress lib session first second 0 [] r :=
    reads_credentials valid.ufrag valid.pwd (credentials_short _ (by simp))
      (credentials_short _ (by simp))
  obtain ⟨middle, header, begun⟩ := credentials
  obtain ⟨r, body, done⟩ :=
    reads_components numeric valid (fun _ below => fullText_known known below)
    components_short begun (Nat.le_refl compCnt)
  exact ⟨r, reads_append skipped (reads_append (reads_append fixed header) body), done⟩

theorem input_lines {lines : List CStr} (each : ∀ line ∈ lines, '\n' ∉ line ∧ line.length ≤ 78)
    {r : Reader} (reads : Reads lib lines .start r) {rem : RemInfo}
    (closed : finish lib r.st = .ok rem) (stack : LineBuf) (prior : RemInfo) :
    icedemoInputRemote2 lib stack (unlines lines) prior = some rem := by
  have fits : ∀ line ∈ lines, '\n' ∉ line ∧ line.length < 79 := fun line member =>
    ⟨(each line member).1, Nat.lt_succ_of_le (each line member).2⟩
  have chunks := fgetsAll_unlines fits []
  rw [List.append_nil, fgetsAll] at chunks
  obtain ⟨buf, read⟩ := reads stack []
  rw [icedemoInputRemote2, chunks, read]
  simp only [readLines, bind, Except.bind, closed]

/-- What `encode_session` prints, `icedemo_input_remote2` restores, behind any number of
acknowledgements that fit its line buffer. -/
theorem sdp_text_restored (numeric : lib.Numeric)
    (valid : ValidSdpSession session compCnt first second)
    (buffer : Memory) (maxlen : Nat) (positive : 0 < maxlen) (bound : maxlen ≤ intMax)
    (success : 0 ≤ (encodeSession lib session compCnt buffer maxlen).1)
    (short : ∀ line ∈ (readText (encodeSession lib session compCnt buffer maxlen).2
      (encodeSession lib session compCnt buffer maxlen).1).splitOnP (· = '\n'), line.length ≤ 78)
    (acks : List CStr)
    (acknowledged : ∀ line ∈ acks, line.take 4 = "ACK:".toList ∧ '\n' ∉ line ∧ line.length ≤ 78)
    (stack : LineBuf) (prior : RemInfo) :
    ∃ rem, icedemoInputRemote2 lib stack
        (unlines acks ++ readText (encodeSession lib session compCnt buffer maxlen).2
          (encodeSession lib session compCnt buffer maxlen).1) prior = some rem ∧
      SdpRestored session compCnt first second rem := by
  obtain ⟨text, known, _, written⟩ := encode_text bound positive success
  have chars := sdpLines_chars numeric valid
  have whole : ∀ line ∈ sdpLines lib session compCnt, '\n' ∉ line := fun line member lineEnd =>
    (lineChar_iff.mp (chars line member _ lineEnd)).2.1 rfl
  rw [written, fullText_lines known] at short ⊢
  rw [splitOnP_unlines whole] at short
  have each_short : ∀ line ∈ sdpLines lib session compCnt, line.length ≤ 78 := fun line member =>
    short line (List.mem_append_left _ member)
  obtain ⟨r, reads, progress⟩ := reads_sdp numeric valid known each_short fun line member =>
    ⟨(acknowledged line member).1, (acknowledged line member).2.2⟩
  have each : ∀ line ∈ acks ++ sdpLines lib session compCnt, '\n' ∉ line ∧ line.length ≤ 78 := by
    intro line member
    rcases List.mem_append.mp member with ack | printed
    · exact (acknowledged line ack).2
    · exact ⟨whole line printed, each_short line printed⟩
  rw [← unlines_append]
  exact ⟨_, input_lines each reads (finish_progress numeric valid progress) stack prior,
    finish_restored progress⟩

end Whole

/-! Two components behind an acknowledgement, once short and once too long for the buffer. -/
section TwoComponents

theorem twoComponents_sdp : ValidSdpSession twoComponents 2 ⟨.inet 0xc0a80001, 4000⟩
    ⟨.inet 0xc0a80001, 4000⟩ where
  components := by decide
  count := by decide
  cands := by
    intro cand member
    rcases twoComponents_cands member with rfl | rfl
    all_goals
      constructor
      case visible => exact word_visible (by decide)
      all_goals decide
  ufrag := ⟨by decide, word_chars (by decide)⟩
  pwd := ⟨by decide, word_chars (by decide)⟩
  default := ⟨hostCand, rfl, rfl⟩
  port := by decide
  other _ := ⟨hostCand, rfl, rfl⟩

def lampSdp : CStr := (fullText dottedLib twoComponents 2).getD []

theorem lampSdp_printed (buffer : Memory) :
    0 ≤ (encodeSession dottedLib twoComponents 2 buffer 2048).1 ∧
      readText (encodeSession dottedLib twoComponents 2 buffer 2048).2
        (encodeSession dottedLib twoComponents 2 buffer 2048).1 = lampSdp := by
  have known : fullText dottedLib twoComponents 2 = some lampSdp :=
    (Option.some_get (by decide +kernel)).symm
  have fits : lampSdp.length < 2048 := by decide +kernel
  have success : 0 ≤ (encodeSession dottedLib twoComponents 2 buffer 2048).1 :=
    encode_total (by decide) known fits
  obtain ⟨text, printed, _, written⟩ := encode_text (by decide) (by decide) success
  cases known.symm.trans printed
  exact ⟨success, written⟩

theorem lampSdp_short : ∀ line ∈ lampSdp.splitOnP (· = '\n'), line.length ≤ 78 := by
  decide +kernel

theorem sdp_text_restored_twoComponents :
    ∃ rem, icedemoInputRemote2 dottedLib (Vector.replicate 80 '\x00')
        (unlines ["ACK:peer".toList] ++
          readText (encodeSession dottedLib twoComponents 2 (fun _ => '\x00') 2048).2
            (encodeSession dottedLib twoComponents 2 (fun _ => '\x00') 2048).1)
              resetRemInfo = some rem ∧
      SdpRestored twoComponents 2 ⟨.inet 0xc0a80001, 4000⟩ ⟨.inet 0xc0a80001, 4000⟩ rem := by
  obtain ⟨success, written⟩ := lampSdp_printed fun _ => '\x00'
  apply sdp_text_restored dottedLib_numeric twoComponents_sdp _ 2048 (by decide) (by decide) success
  · rw [written]
    exact lampSdp_short
  · intro line member
    cases List.mem_singleton.mp member
    decide

def longAck : CStr := "ACK:".toList ++ List.replicate 75 'x'

/-- The line end of such an acknowledgement is read as a blank line, which ends the loop. -/
theorem longAck_ends_input :
    dottedLib.Numeric ∧
      ValidSdpSession twoComponents 2 ⟨.inet 0xc0a80001, 4000⟩ ⟨.inet 0xc0a80001, 4000⟩ ∧
      0 ≤ (encodeSession dottedLib twoComponents 2 (fun _ => '\x00') 2048).1 ∧
      (∀ line ∈ (readText (encodeSession dottedLib twoComponents 2 (fun _ => '\x00') 2048).2
        (encodeSession dottedLib twoComponents 2 (fun _ => '\x00') 2048).1).splitOnP (· = '\n'),
          line.length ≤ 78) ∧
      longAck.take 4 = "ACK:".toList ∧ '\n' ∉ longAck ∧
      ¬ ∃ rem, icedemoInputRemote2 dottedLib (Vector.replicate 80 '\x00')
          (unlines [longAck] ++
            readText (encodeSession dottedLib twoComponents 2 (fun _ => '\x00') 2048).2
              (encodeSession dottedLib twoComponents 2 (fun _ => '\x00') 2048).1)
                resetRemInfo = some rem ∧
        SdpRestored twoComponents 2 ⟨.inet 0xc0a80001, 4000⟩ ⟨.inet 0xc0a80001, 4000⟩ rem := by
  obtain ⟨success, written⟩ := lampSdp_printed fun _ => '\x00'
  -- The buffer takes all 79 characters but not the line end, which comes by itself.
  have emptied : (icedemoInputRemote2 dottedLib (Vector.replicate 80 '\x00')
      (unlines [longAck] ++ lampSdp) resetRemInfo).map (·.candCnt) = some 0 := by
    decide +kernel
  rw [written]
  refine ⟨dottedLib_numeric, twoComponents_sdp, success, lampSdp_short, by decide +kernel,
    by decide +kernel, ?_⟩
  rintro ⟨rem, read, restored⟩
  rw [read] at emptied
  have count : rem.candCnt = 0 := Option.some_inj.mp emptied
  have two := restored.restored.candCnt
  rw [count] at two
  exact absurd two (by decide)

end TwoComponents

end NatClient.SdpRoundTrip
