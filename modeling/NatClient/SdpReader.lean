import NatClient.CStdio
import NatClient.XmlDecoder

/-!
`icedemo_input_remote2` of verikdemo.c: a line buffer of 80 bytes that is filled
by `fgets`, cut in place by `strtok` and scanned by `sscanf`. What a line leaves
behind its terminator stays for the next one. A read past the buffer, a missing
token, a text too long for its array and a candidate past the last cell have no
defined result (`abort`); the `on_error` exits reset `rem`.
-/

namespace NatClient.SdpReader

open CString CStdio IceTypes XmlDecoder

abbrev LineBuf := Vector Char 80

/-- `media_cnt` and the locals that the XML decoder has as well. -/
structure Reader where
  mediaCnt : Nat
  st : DecodeState

def Reader.start : Reader := ⟨0, ⟨resetRemInfo, .empty, 0⟩⟩

/-- The text at an offset of the buffer, which may be one of an earlier line. -/
def textAt (buf : LineBuf) (offset : Nat) : Except Stop CStr :=
  if '\x00' ∈ buf.toList.drop offset then .ok (cString (buf.toList.drop offset)) else .error .abort

def trimEnd : LineBuf → Nat → LineBuf × Nat
  | buf, 0 => (buf, 0)
  | buf, len + 1 =>
      if buf[len]? = some '\r' ∨ buf[len]? = some '\n' then trimEnd
        (buf.setIfInBounds len '\x00') len
      else (buf, len + 1)

def skipLead (buf : LineBuf) : Nat → Nat → Nat × Nat
  | line, 0 => (line, 0)
  | line, len + 1 => if buf[line]?.any isSpace then skipLead buf (line + 1) len else (line, len + 1)

def mediaFormat : List Directive :=
  [.text 32, .blank, .text 32, .blank, .literal 'R', .literal 'T', .literal 'P', .literal '/']

def readMedia (buf : LineBuf) (line : Nat) (r : Reader) : Except Stop Reader :=
  if 1 < r.mediaCnt + 1 then .ok { r with mediaCnt := r.mediaCnt + 1 }
  else do
    let fields ← orAbort (sscanf mediaFormat (← textAt buf (line + 2)))
    match fields with
    | [.text _media, .text portstr] =>
        .ok ⟨r.mediaCnt + 1, { r.st with comp0Port := toUnsigned (atoi portstr) }⟩
    | _ => .error .onError

def connectionFormat : List Directive := [.text 32, .blank, .text 32, .blank, .text 80]

def readConnection (buf : LineBuf) (line : Nat) (r : Reader) : Except Stop Reader := do
  let fields ← orAbort (sscanf connectionFormat (← textAt buf (line + 2)))
  match fields with
  | [.text _c, .text _net, .text ip] => do
      let comp0Addr ← orAbort (strcpy 80 (some ip))
      .ok { r with st := { r.st with comp0Addr := comp0Addr } }
  | _ => .error .onError

def rtcpFormat : List Directive :=
  [.number, .blank, .literal 'I', .literal 'N', .blank, .text 32, .blank, .text 64]

def readRtcp (lib : SockaddrLib) (val : CStr) (rem : RemInfo) : Except Stop RemInfo := do
  let fields ← orAbort (sscanf rtcpFormat val)
  match fields with
  | [.number port, .text _net, .text ip] => match readAddr lib ip with
      | none => .error .onError
      | some ip => .ok { rem with defAddr := rem.defAddr.set 1 (some ⟨ip, BitVec.ofInt 16 port⟩) }
  | _ => .error .onError

def candFormat : List Directive :=
  [.text 32, .blank, .number, .blank, .text 12, .blank, .number, .blank, .text 80, .blank, .number,
    .blank, .literal 't', .literal 'y', .literal 'p', .blank, .text 32]

def readCandidate (lib : SockaddrLib) (sdpcand : CStr) (rem : RemInfo) : Except Stop RemInfo := do
  let fields ← orAbort (sscanf candFormat sdpcand)
  match fields with
  | [.text foundation, .number compId, .text _transport, .number prio, .text ipaddr, .number port,
      .text type] =>
      -- The cell is cleared before the type is looked at, without a look at its index.
      if slot : rem.candCnt < pjIceStMaxCand then
        match readCandType type with
        | none => .error .onError
        | some candType =>
            match readAddr lib ipaddr with
            | none => .error .onError
            | some ip => .ok (addCand rem
                { type := candType
                  compId := BitVec.ofInt 8 compId
                  foundation := foundation
                  prio := BitVec.ofInt 32 prio
                  addr := some ⟨ip, BitVec.ofInt 16 port⟩ } slot)
      else .error .abort
  | _ => .error .onError

def isDelim (c : Char) : Bool := c = ':' || c = ' ' || c = '\t' || c = '\r' || c = '\n'

def applyAttribute (lib : SockaddrLib) (attr : CStr) (value : Except Stop CStr) (rem : RemInfo) :
    Except Stop RemInfo :=
  if attr = "ice-ufrag".toList then do
    let ufrag ← orAbort (strcpy 80 (some (← value)))
    .ok { rem with ufrag := ufrag }
  else if attr = "ice-pwd".toList then do
    let pwd ← orAbort (strcpy 80 (some (← value)))
    .ok { rem with pwd := pwd }
  else if attr = "rtcp".toList then do readRtcp lib (← value) rem
  else if attr = "candidate".toList then do readCandidate lib (← value) rem
  else .ok rem

/-- `case 'a'`. `strtok` overwrites the delimiter behind the token. -/
def readAttribute (lib : SockaddrLib) (buf : LineBuf) (line : Nat) (r : Reader) :
    Except Stop (LineBuf × Reader) := do
  let text ← textAt buf (line + 2)
  let lead := (text.takeWhile isDelim).length
  let attr := (text.drop lead).takeWhile fun c => !isDelim c
  if attr = [] then .error .abort
  else
    let stop := line + 2 + lead + attr.length
    let buf := buf.setIfInBounds stop '\x00'
    let rem ← applyAttribute lib attr (textAt buf (stop + 1)) r.st.rem
    .ok (buf, { r with st := { r.st with rem := rem } })

def readCase (lib : SockaddrLib) (buf : LineBuf) (line : Nat) (r : Reader) :
    Except Stop (LineBuf × Reader) :=
  match buf[line]? with
  | some 'm' => do .ok (buf, ← readMedia buf line r)
  | some 'c' => do .ok (buf, ← readConnection buf line r)
  | some 'a' => readAttribute lib buf line r
  | _ => .ok (buf, r)

/-- One turn of the loop; `false` leaves it at a blank line. -/
def readLine (lib : SockaddrLib) (buf : LineBuf) (chunk : CStr) (r : Reader) :
    Except Stop (Bool × LineBuf × Reader) :=
  let buf := overlay buf (chunk ++ ['\x00'])
  -- The test sees four bytes of the buffer, so only the front of an acknowledgement.
  if buf.toList.take 4 = "ACK:".toList then .ok (true, buf, r)
  else
    let (buf, len) := trimEnd buf (cString buf.toList).length
    let (line, len) := skipLead buf 0 len
    if len = 0 then .ok (false, buf, r)
    else if 1 < r.mediaCnt then .ok (true, buf, r)
    else do .ok (true, ← readCase lib buf line r)

def readLines (lib : SockaddrLib) : List CStr → LineBuf → Reader → Except Stop Reader
  | [], _, r => .ok r
  | chunk :: rest, buf, r => do
      let (more, buf, r) ← readLine lib buf chunk r
      if more then readLines lib rest buf r else .ok r

/-- The checks behind the loop are those of the XML decoder. The buffer starts with
what the stack holds; no result means that the program left its defined behaviour. -/
def icedemoInputRemote2 (lib : SockaddrLib) (stack : LineBuf) (file : List Char) (_rem : RemInfo) :
    Option RemInfo :=
  let read := do
    let r ← readLines lib (fgetsAll 79 79 file) stack .start
    finish lib r.st
  match read with
  | .ok rem => some rem
  | .error .onError => some resetRemInfo
  | .error .abort => none

end NatClient.SdpReader
