import NatClient.CString

/-!
The upload of httpwrapper.c. libcurl asks `read_callback` for the next piece of the
body until it has the announced number of bytes; how much it asks for at a time is its
own affair. `size_t` and `long` have 64 bits, `int` has 32. A copy past the room that
libcurl offers has no result.
-/

namespace NatClient.PostBody

open CString

def sizeT (value : Int) : Nat := (value % 2 ^ 64).toNat

def toInt (size : Nat) : Int := (size : Int).bmod (2 ^ 32)

def toLong (size : Nat) : Int := (size : Int).bmod (2 ^ 64)

def strncpy (capacity : Nat) (source : List Char) (count : Nat) : Option (List Char) :=
  if count ≤ capacity then some ((cString source ++ List.replicate count '\x00').take count)
  else none

/-- `BufferData` where it is read: `data` stands for the bytes from its pointer on. -/
structure UnreadData where
  size : Nat
  data : List Char

structure Request where
  size : Nat
  nmemb : Nat

def Request.room (request : Request) : Nat := request.size * request.nmemb

structure Reply where
  value : Nat
  bytes : List Char

def readCallback (pooh : UnreadData) (request : Request) : Option (Reply × UnreadData) :=
  let product := request.room % 2 ^ 64
  if product < 1 then some (⟨0, []⟩, pooh)
  else
    let read := if product < pooh.size then toInt product else toInt pooh.size
    if read ≠ 0 then do
      let bytes ← strncpy request.room pooh.data (sizeT read)
      some (⟨sizeT read, bytes⟩, ⟨sizeT (pooh.size - read), pooh.data.drop (sizeT read)⟩)
    else some (⟨0, []⟩, pooh)

def readAll : UnreadData → List Request → Option (List Reply)
  | _, [] => some []
  | pooh, request :: rest => do
      let (reply, pooh) ← readCallback pooh request
      let replies ← readAll pooh rest
      some (reply :: replies)

/-- A string in memory. No object is larger than what a `long` counts. -/
structure PostText where
  text : CStr
  clean : '\x00' ∉ text
  addressable : text.length < 2 ^ 63

/-- What libcurl does with the request, and the bytes that happen to lie behind the string. -/
structure CurlRun where
  globalInit : Bool
  handle : Bool
  requests : List Request
  beyond : List Char

structure Transfer where
  postFieldSize : Int
  replies : List Reply

def httpPostRequest (curl : CurlRun) (str : PostText) : Option (Int × Option Transfer) :=
  let pooh : UnreadData := ⟨sizeT (toLong str.text.length), str.text ++ '\x00' :: curl.beyond⟩
  if curl.globalInit then
    if curl.handle then do
      let replies ← readAll pooh curl.requests
      some (0, some ⟨toLong pooh.size, replies⟩)
    else some (0, none)
  else some (1, none)

/-! The body cut as libcurl asks for it. -/
section Pieces

def asked : List Request → Nat
  | [] => 0
  | request :: rest => request.room + asked rest

def delivered (replies : List Reply) : List Char := replies.flatMap Reply.bytes

def answers : CStr → List Request → List Reply
  | _, [] => []
  | text, request :: rest =>
      ⟨min request.room text.length, text.take request.room⟩ :: answers
        (text.drop request.room) rest

theorem answers_length (text : CStr) (requests : List Request) :
    (answers text requests).length = requests.length := by
  induction requests generalizing text with
  | nil => rfl
  | cons request rest ih => rw [answers, List.length_cons, List.length_cons, ih]

theorem answers_take (text : CStr) (requests : List Request) (count : Nat) :
    (answers text requests).take count = answers text (requests.take count) := by
  induction requests generalizing text count with
  | nil => rw [answers, List.take_nil, List.take_nil, answers]
  | cons request rest ih =>
      cases count with
      | zero => rfl
      | succ count => rw [answers, List.take_succ_cons, List.take_succ_cons, answers, ih]

/-- Together the pieces are the front of the body that was asked for. -/
theorem delivered_answers (text : CStr) (requests : List Request) :
    delivered (answers text requests) = text.take (asked requests) := by
  induction requests generalizing text with
  | nil => rw [asked, List.take_zero]; rfl
  | cons request rest ih =>
      have later := ih (text.drop request.room)
      rw [delivered] at later
      rw [answers, asked, delivered, List.flatMap_cons, later, List.take_add]

theorem answers_get (text : CStr) {requests : List Request} {index : Nat} {request : Request}
    (there : requests[index]? = some request) :
    (answers text requests)[index]? = some
      ⟨min request.room (text.length - asked (requests.take index)),
      (text.drop (asked (requests.take index))).take request.room⟩ := by
  induction requests generalizing text index with
  | nil => exact absurd there (by simp)
  | cons first rest ih =>
      cases index with
      | zero =>
          obtain rfl : first = request := Option.some_inj.mp there
          rfl
      | succ index =>
          have later := ih (text.drop first.room) there
          rw [answers, List.getElem?_cons_succ, later, List.take_succ_cons, asked, List.drop_drop,
            List.length_drop, Nat.sub_sub]

end Pieces

/-! What the callback is left with: the rest of the body, and its length. -/
section Callback

theorem sizeT_nat {value : Nat} (small : value < 2 ^ 64) : sizeT value = value := by
  unfold sizeT
  omega

theorem toInt_small {value : Nat} (small : value < 2 ^ 31) : toInt value = value :=
  Int.bmod_eq_of_le (by omega) (by omega)

theorem toLong_small {value : Nat} (small : value < 2 ^ 63) : toLong value = value :=
  Int.bmod_eq_of_le (by omega) (by omega)

def pending (text : CStr) (beyond : List Char) : UnreadData :=
  ⟨text.length, text ++ '\x00' :: beyond⟩

variable {text : CStr} {beyond : List Char} {request : Request}

theorem strncpy_text {capacity count : Nat} (clean : '\x00' ∉ text) (room : count ≤ capacity)
    (inside : count ≤ text.length) :
    strncpy capacity (text ++ '\x00' :: beyond) count = some (text.take count) := by
  rw [strncpy, if_pos room, cString_terminated text beyond clean,
    List.take_append_of_le_length inside]

theorem front_cut (text : CStr) (room : Nat) :
    text.take (min room text.length) = text.take room ∧
      text.drop (min room text.length) = text.drop room := by
  rcases Nat.le_total room text.length with inside | beyond
  · rw [Nat.min_eq_left inside]
    exact ⟨rfl, rfl⟩
  · rw [Nat.min_eq_right beyond, List.take_length, List.drop_length, List.take_of_length_le beyond,
      List.drop_of_length_le beyond]
    exact ⟨rfl, rfl⟩

theorem readCallback_pending (clean : '\x00' ∉ text) (addressable : text.length < 2 ^ 63)
    (some_room : 1 ≤ request.room) (small : request.room < 2 ^ 31) :
    readCallback (pending text beyond) request =
      some (⟨min request.room text.length, text.take request.room⟩,
        pending (text.drop request.room) beyond) := by
  have product : request.room % 2 ^ 64 = request.room := Nat.mod_eq_of_lt (by omega)
  have read : (if request.room < text.length then toInt request.room else toInt text.length) =
      ((min request.room text.length : Nat) : Int) := by
    split
    · rw [toInt_small small]
      omega
    · rw [toInt_small (by omega)]
      omega
  obtain ⟨taken, left⟩ := front_cut text request.room
  have behind : text.length - min request.room text.length = (text.drop request.room).length := by
    rw [← left, List.length_drop]
  -- The casts to `int` and back change nothing below 2^31.
  have sized : sizeT (min request.room text.length : Nat) = min request.room text.length :=
    sizeT_nat (by omega)
  unfold readCallback
  simp only [product, pending, read]
  rw [if_neg (by omega)]
  cases text with
  | nil => simp
  | cons c rest =>
      have positive : ((min request.room (c :: rest).length : Nat) : Int) ≠ 0 := by
        rw [List.length_cons]
        omega
      have size : sizeT (((c :: rest).length : Int) - (min request.room (c :: rest).length : Nat)) =
          ((c :: rest).drop request.room).length := by
        rw [← Int.ofNat_sub (Nat.min_le_right _ _), behind, sizeT_nat]
        rw [List.length_drop]
        omega
      rw [if_pos positive, sized, size,
        strncpy_text clean (Nat.min_le_left _ _) (Nat.min_le_right _ _),
        List.drop_append_of_le_length (Nat.min_le_right _ _), taken, left]
      rfl

theorem readAll_pending (clean : '\x00' ∉ text) (addressable : text.length < 2 ^ 63)
    {requests : List Request}
    (proper : ∀ request ∈ requests, 1 ≤ request.room ∧ request.room < 2 ^ 31) :
    readAll (pending text beyond) requests = some (answers text requests) := by
  induction requests generalizing text with
  | nil => rfl
  | cons request rest ih =>
      obtain ⟨some_room, small⟩ := proper request List.mem_cons_self
      have shorter : (text.drop request.room).length < 2 ^ 63 := by
        rw [List.length_drop]
        omega
      have later := ih (fun member => clean (List.mem_of_mem_drop member)) shorter
        fun other member => proper other (List.mem_cons_of_mem request member)
      rw [readAll, readCallback_pending clean addressable some_room small, Option.bind_eq_bind,
        Option.bind_some]
      simp only [later, Option.bind_eq_bind, Option.bind_some, answers]

end Callback

section Delivery

/-- After any number of calls: the next one answers with the next bytes of the body, as
many as it is asked for while they last; together the answers are a front of the body, no
more than was announced, and the whole of it once that much was asked for. -/
structure DeliveredOnce (text : CStr) (requests : List Request) (transfer : Transfer) : Prop where
  calls : transfer.replies.length = requests.length
  next : ∀ count request, requests[count]? = some request →
    ∃ reply, transfer.replies[count]? = some reply ∧
      reply.value = min request.room
        (text.length - (delivered (transfer.replies.take count)).length) ∧
      reply.bytes = (text.drop (delivered (transfer.replies.take count)).length).take reply.value
  front : ∀ count, delivered (transfer.replies.take count) <+: text
  whole : ∀ count, text.length ≤ asked (requests.take count) →
    delivered (transfer.replies.take count) = text
  silent : ∀ count reply, text.length ≤ asked (requests.take count) →
    transfer.replies[count]? = some reply → reply.value = 0
  announced : ((delivered transfer.replies).length : Int) ≤ transfer.postFieldSize

theorem answers_deliver {text : CStr}
    (addressable : text.length < 2 ^ 63) (requests : List Request) :
    DeliveredOnce text requests ⟨toLong text.length, answers text requests⟩ := by
  -- After any number of calls a front of the body has been delivered.
  have sofar : ∀ count, delivered ((answers text requests).take count) =
      text.take (asked (requests.take count)) := fun count => by
    rw [answers_take, delivered_answers]
  refine ⟨answers_length text requests, ?_, ?_, ?_, ?_, ?_⟩
  · intro count request there
    refine ⟨_, answers_get text there, ?_, ?_⟩
    · dsimp only
      rw [sofar, List.length_take]
      omega
    · rw [sofar, List.length_take]
      have moved := (front_cut text (asked (requests.take count))).2
      have taken := (front_cut (text.drop (asked (requests.take count))) request.room).1
      rw [List.length_drop] at taken
      rw [moved, taken]
  · intro count
    rw [sofar]
    exact List.take_prefix _ _
  · intro count enough
    rw [sofar, List.take_of_length_le enough]
  · intro count reply enough there
    have inside : count < requests.length := by
      rw [← answers_length text requests]
      exact (List.getElem?_eq_some_iff.mp there).choose
    have answer := answers_get text (List.getElem?_eq_getElem inside)
    obtain rfl := Option.some_inj.mp (there.symm.trans answer)
    dsimp only
    omega
  · dsimp only
    rw [delivered_answers, List.length_take, toLong_small addressable]
    omega

/-- The body reaches libcurl once and in order, whatever sizes it asks for. -/
theorem post_delivers_once (str : PostText) (curl : CurlRun)
    (ready : curl.globalInit = true ∧ curl.handle = true)
    (proper : ∀ request ∈ curl.requests, 1 ≤ request.room ∧ request.room < 2 ^ 31) :
    ∃ transfer, httpPostRequest curl str = some (0, some transfer) ∧
      DeliveredOnce str.text curl.requests transfer := by
  have size : sizeT (toLong str.text.length) = str.text.length := by
    rw [toLong_small str.addressable]
    have small := str.addressable
    exact sizeT_nat (by omega)
  have ran : readAll (pending str.text curl.beyond) curl.requests = _ :=
    readAll_pending str.clean str.addressable proper
  rw [pending] at ran
  refine ⟨_, ?_, answers_deliver str.addressable curl.requests⟩
  unfold httpPostRequest
  simp only [size, ready.1, ready.2, ↓reduceIte, ran]
  rfl

def shortBody : PostText := ⟨"body".toList, by decide, by decide⟩

def threeReads : CurlRun := ⟨true, true, [⟨3, 1⟩, ⟨1, 1⟩, ⟨16, 1024⟩], []⟩

theorem post_delivers_once_shortBody :
    ∃ transfer, httpPostRequest threeReads shortBody = some (0, some transfer) ∧
      DeliveredOnce shortBody.text threeReads.requests transfer :=
  post_delivers_once shortBody threeReads ⟨rfl, rfl⟩ (by decide)

end Delivery

end NatClient.PostBody
