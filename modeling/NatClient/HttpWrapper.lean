import NatClient.CString
import NatClient.HeapBlocks

/-!
The download of httpwrapper.c. `write_data` appends each chunk that libcurl delivers
to a growing block, and `http_get_request` copies what is there into the caller's
buffer. No result stands for a block that is used after it was freed, for a text
without terminator and for a copy that overflows. Sizes are those of objects in
memory, so their sums do not wrap.
-/

namespace NatClient.HttpWrapper

open CString HeapBlocks

structure BufferData where
  size : Nat
  data : Option Ptr

abbrev CHeap := Heap Char

def curleOk : Nat := 0
def curleWriteError : Nat := 23

/-- The returned count is compared with the chunk's length by libcurl. -/
def writeData (heap : CHeap) (data : BufferData) (chunk : List Char) (grant : Option (Grant Char)) :
    Option (CHeap × BufferData × Nat) := do
  let index := data.size
  let size := data.size + chunk.length
  let (heap, tmp) ← heap.realloc (size + 1) data.data grant
  match tmp with
  | some tmp => do
      let heap ← heap.write tmp index chunk
      let heap ← heap.write tmp size ['\x00']
      some (heap, ⟨size, some tmp⟩, chunk.length)
  | none =>
      -- The old block goes, and both fields of the structure stay as they are now.
      let heap ← match data.data with
        | some old => heap.free old
        | none => some heap
      some (heap, ⟨size, data.data⟩, 0)

structure Delivery where
  chunk : List Char
  grant : Option (Grant Char)

def deliverAll : CHeap → BufferData → List Delivery → Option (CHeap × BufferData × Bool)
  | heap, data, [] => some (heap, data, true)
  | heap, data, delivery :: rest => do
      let (heap, data, taken) ← writeData heap data delivery.chunk delivery.grant
      if taken = delivery.chunk.length then deliverAll heap data rest else some (heap, data, false)

/-- The surroundings of a request: the first allocation, the handle, what the server's
answer is cut into, and the result when every call took its chunk. -/
structure Download where
  initial : Option (Nat → Char)
  handle : Bool
  deliveries : List Delivery
  result : Nat

def Download.body (download : Download) : List Char := download.deliveries.flatMap Delivery.chunk

def initialSize : Nat := 1024 * 1024

def startBuffer (stale : Nat → Char) : Option (CHeap × BufferData) := do
  let (heap, ptr) := (Heap.empty : CHeap).malloc initialSize stale
  let heap ← heap.write ptr 0 ['\x00']
  some (heap, ⟨0, some ptr⟩)

def curlEasyPerform (download : Download) (heap : CHeap) (data : BufferData) :
    Option (CHeap × BufferData × Nat) := do
  let (heap, data, whole) ← deliverAll heap data download.deliveries
  some (heap, data, if whole then download.result else curleWriteError)

def stringAt (heap : CHeap) (ptr : Option Ptr) : Option CStr := do
  let bytes ← heap.block (← ptr)
  if '\x00' ∈ bytes then some (cString bytes) else none

/-- Without a handle nothing is fetched. The result code of the transfer is printed
and not looked at again. -/
def fetchInto (download : Download) (heap : CHeap) (data : BufferData) :
    Option (CHeap × BufferData) :=
  if download.handle then
    (curlEasyPerform download heap data).map fun (heap, data, _res) => (heap, data)
  else some (heap, data)

def copyOut {capacity : Nat} (heap : CHeap) (data : BufferData) (buff : Vector Char capacity) :
    Option (Vector Char capacity) := do
  let text ← stringAt heap data.data
  let buff ← copyInto buff text
  let _heap ← heap.free (← data.data)
  some buff

def httpGetRequest {capacity : Nat} (download : Download) (buff : Vector Char capacity) :
    Option (Int × Vector Char capacity) :=
  match download.initial with
  -- `return NULL` of a function that returns an `int`.
  | none => some (0, buff)
  | some stale => do
      let (heap, data) ← startBuffer stale
      let (heap, data) ← fetchInto download heap data
      let buff ← copyOut heap data buff
      some (0, buff)

end NatClient.HttpWrapper
