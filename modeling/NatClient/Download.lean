import NatClient.HttpWrapper
import NatClient.Runs

/-!
When a download can be trusted. The buffer holds what was received as long as the
allocator grants every request; a refused one frees the block and leaves the pointer
to it. `http_get_request` looks at no result, so it reports success in every case.
-/

namespace NatClient.Download

open CString HeapBlocks HttpWrapper Runs

/-! One call of `write_data`. -/
section Calls
variable {heap : CHeap} {data : BufferData} {content chunk : List Char}

/-- A live block starts with the content and its terminator. -/
structure ValidBuffer (heap : CHeap) (data : BufferData) (content : List Char) : Prop where
  size : data.size = content.length
  stored : ∃ ptr rest, data.data = some ptr ∧ heap.block ptr = some (content ++ '\x00' :: rest)

def Dangling (heap : CHeap) (data : BufferData) : Prop :=
  ∃ ptr, data.data = some ptr ∧ heap.block ptr = none

theorem writeData_granted (valid : ValidBuffer heap data content) (chunk : List Char)
    (grant : Grant Char) :
    ∃ heap' data', writeData heap data chunk (some grant) = some (heap', data', chunk.length) ∧
      ValidBuffer heap' data' (content ++ chunk) := by
  obtain ⟨ptr, rest, pointer, live⟩ := valid.stored
  have size := valid.size
  obtain ⟨grown, tmp, moved, block⟩ :=
    Heap.realloc_granted (data.size + chunk.length + 1) grant live
  obtain ⟨tail, shape, length⟩ := Heap.resized_front content ('\x00' :: rest) grant.stale
    (show content.length ≤ data.size + chunk.length + 1 by omega)
  -- Behind the content there is room for the chunk and for one more byte.
  have parts : content ++ tail = content ++ tail.take chunk.length ++ tail.drop chunk.length := by
    rw [List.append_assoc, List.take_append_drop]
  rw [shape, parts] at block
  obtain ⟨copied, wroteChunk, chunkBlock⟩ := Heap.write_over block
    (show chunk.length = (tail.take chunk.length).length by rw [List.length_take]; omega)
  rw [← List.append_nil (tail.drop chunk.length), ← List.append_assoc] at chunkBlock
  obtain ⟨after, wroteEnd, endBlock⟩ := Heap.write_over chunkBlock
    (show ['\x00'].length = (tail.drop chunk.length).length by
      rw [List.length_drop, List.length_singleton]; omega)
  have whole : (content ++ chunk).length = data.size + chunk.length := by
    rw [List.length_append, size]
  rw [whole] at wroteEnd
  rw [← size] at wroteChunk
  refine ⟨after, ⟨data.size + chunk.length, some tmp⟩, ?_, whole.symm, tmp, [], rfl, ?_⟩
  · simp only [writeData, pointer, moved, wroteChunk, wroteEnd,
      Option.bind_eq_bind, Option.bind_some]
  · rw [endBlock, List.append_nil]

theorem writeData_refused (valid : ValidBuffer heap data content) (chunk : List Char) :
    ∃ heap', writeData heap data chunk none = some
      (heap', ⟨data.size + chunk.length, data.data⟩, 0) ∧
      Dangling heap' ⟨data.size + chunk.length, data.data⟩ := by
  obtain ⟨ptr, rest, pointer, live⟩ := valid.stored
  obtain ⟨after, freed, dead⟩ := Heap.free_live live
  refine ⟨after, ?_, ptr, pointer, dead⟩
  simp only [writeData, pointer, Heap.realloc_refused _ live, freed,
    Option.bind_eq_bind, Option.bind_some]

theorem writeData_dangling (dangling : Dangling heap data) (chunk : List Char)
    (grant : Option (Grant Char)) : writeData heap data chunk grant = none := by
  obtain ⟨ptr, pointer, dead⟩ := dangling
  simp only [writeData, pointer, Heap.realloc_dead _ grant dead,
    Option.bind_eq_bind, Option.bind_none]

theorem dangling_invalid (dangling : Dangling heap data) : ¬ ValidBuffer heap data content := by
  intro valid
  obtain ⟨ptr, pointer, dead⟩ := dangling
  obtain ⟨other, rest, same, live⟩ := valid.stored
  cases pointer.symm.trans same
  exact absurd (dead.symm.trans live) (by simp)

end Calls

/-! Any sequence of calls on one buffer. -/
section Filling

structure FillState where
  heap : CHeap
  data : BufferData
  accepted : List Char
  stopped : Bool

def fillStep : StepFn FillState Delivery Nat := fun state delivery =>
  if state.stopped then none
  else (writeData state.heap state.data delivery.chunk delivery.grant).map
      fun (heap, data, taken) =>
    let whole := taken = delivery.chunk.length
    (⟨heap, data, if whole then state.accepted ++ delivery.chunk else state.accepted, ¬ whole⟩,
      [taken])

def FillSound : StepProp FillState Delivery Nat := fun _ delivery returned state' =>
  ValidBuffer state'.heap state'.data state'.accepted ∧
    (delivery.grant = none → delivery.chunk ≠ [] →
      ∀ taken ∈ returned, taken ≠ delivery.chunk.length)

theorem fillStep_granted {state : FillState} (running : state.stopped = false)
    (valid : ValidBuffer state.heap state.data state.accepted)
    (chunk : List Char) (grant : Grant Char) :
    ∃ state', fillStep state ⟨chunk, some grant⟩ = some (state', [chunk.length]) ∧
      state'.stopped = false ∧ ValidBuffer state'.heap state'.data state'.accepted := by
  obtain ⟨heap', data', wrote, valid'⟩ := writeData_granted valid chunk grant
  refine ⟨⟨heap', data', state.accepted ++ chunk, false⟩, ?_, rfl, valid'⟩
  simp [fillStep, running, wrote]

theorem fillStep_refused {state : FillState} (running : state.stopped = false)
    (valid : ValidBuffer state.heap state.data state.accepted) (chunk : List Char) :
    ∃ state', fillStep state ⟨chunk, none⟩ = some (state', [0]) ∧
        Dangling state'.heap state'.data := by
  obtain ⟨heap', wrote, dangling⟩ := writeData_refused valid chunk
  refine ⟨⟨heap', _, if 0 = chunk.length then state.accepted ++ chunk else state.accepted,
    ¬ 0 = chunk.length⟩, ?_, dangling⟩
  simp only [fillStep, running, wrote]
  rfl

def Filling (state : FillState) : Prop :=
  state.stopped = true ∨ ValidBuffer state.heap state.data state.accepted

theorem filling_valid {state : FillState} (holds : Filling state) {delivery : Delivery}
    {result : FillState × List Nat} (taken : fillStep state delivery = some result) :
    state.stopped = false ∧ ValidBuffer state.heap state.data state.accepted := by
  rcases holds with stopped | valid
  · rw [fillStep, if_pos stopped] at taken
    exact absurd taken (by simp)
  · cases stopped : state.stopped with
    | false => exact ⟨rfl, valid⟩
    | true =>
        rw [fillStep, if_pos stopped] at taken
        exact absurd taken (by simp)

theorem step_sound_iff {state state' : FillState} (holds : Filling state) {delivery : Delivery}
    {returned : List Nat} (taken : fillStep state delivery = some (state', returned)) :
    FillSound state delivery returned state' ↔ delivery.grant ≠ none := by
  obtain ⟨running, valid⟩ := filling_valid holds taken
  obtain ⟨chunk, grant⟩ := delivery
  cases grant with
  | none =>
      obtain ⟨after, same, dangling⟩ := fillStep_refused running valid chunk
      cases taken.symm.trans same
      exact iff_of_false (fun sound => dangling_invalid dangling sound.1)
        (fun impossible => impossible rfl)
  | some grant =>
      obtain ⟨after, same, _, valid'⟩ := fillStep_granted running valid chunk grant
      cases taken.symm.trans same
      exact iff_of_true ⟨valid', fun impossible => absurd impossible (by simp)⟩ (by simp)

/-- The buffer stays valid exactly as long as every allocation is granted. -/
theorem buffer_valid_iff (start : FillState)
    (valid : ValidBuffer start.heap start.data start.accepted) (deliveries : List Delivery) :
    Along fillStep FillSound start deliveries ↔
      Along fillStep (fun _ delivery _ _ => delivery.grant ≠ none) start deliveries := by
  have holds : Filling start := Or.inr valid
  apply along_congr _ _ holds
  · intro state delivery returned state' here taken granted
    exact Or.inr ((step_sound_iff here taken).mpr granted).1
  · intro state delivery returned state' here taken
    exact step_sound_iff here taken

theorem malloc_first {size : Nat} (positive : 0 < size) (stale : Nat → Char) :
    ∃ after rest,
      ((Heap.empty : CHeap).malloc size stale).1.write (Heap.empty.malloc size stale).2 0 ['\x00'] =
        some after ∧
          after.block ((Heap.empty : CHeap).malloc size stale).2 = some ('\x00' :: rest) := by
  obtain ⟨count, rfl⟩ := Nat.exists_eq_succ_of_ne_zero (Nat.ne_of_gt positive)
  have bytes : (List.range (count + 1)).map stale =
      [] ++ [stale 0] ++ (List.range count).map (stale ∘ Nat.succ) := by
    simp [List.range_succ_eq_map]
  have block : ((Heap.empty : CHeap).malloc (count + 1) stale).1.block _ = _ :=
    Heap.malloc_block (count + 1) stale
  rw [bytes] at block
  obtain ⟨after, wrote, front⟩ :=
    Heap.write_over block (show ['\x00'].length = [stale 0].length from rfl)
  exact ⟨after, _, wrote, front⟩

theorem startBuffer_valid (stale : Nat → Char) :
    ∃ heap data, startBuffer stale = some (heap, data) ∧ ValidBuffer heap data [] := by
  have positive : 0 < initialSize := by decide
  obtain ⟨after, rest, wrote, front⟩ := malloc_first positive stale
  refine ⟨after, ⟨0, some ((Heap.empty : CHeap).malloc initialSize stale).2⟩, ?_, rfl, _,
    rest, rfl, front⟩
  simp only [startBuffer, Option.bind_eq_bind]
  rw [wrote, Option.bind_some]

/-- The buffer of a request before its first chunk. -/
theorem refused_invalid :
    ∃ heap data, startBuffer (fun _ => '?') = some (heap, data) ∧
      ¬ Along fillStep FillSound ⟨heap, data, [], false⟩ [⟨"<NAT>".toList, none⟩] := by
  obtain ⟨heap, data, started, valid⟩ := startBuffer_valid fun _ => '?'
  refine ⟨heap, data, started, fun along => ?_⟩
  have running : (FillState.mk heap data [] false).stopped = false := rfl
  obtain ⟨state', taken, dangling⟩ := fillStep_refused running valid "<NAT>".toList
  exact dangling_invalid dangling (along _ _ taken).1.1

theorem buffer_valid_iff_oneChunk :
    ∃ heap data, startBuffer (fun _ => '?') = some (heap, data) ∧
      (Along fillStep FillSound ⟨heap, data, [], false⟩
        [⟨"<NAT>".toList, some ⟨true, fun _ => '?'⟩⟩] ↔
        Along fillStep (fun _ delivery _ _ => delivery.grant ≠ none) ⟨heap, data, [], false⟩
          [⟨"<NAT>".toList, some ⟨true, fun _ => '?'⟩⟩]) := by
  obtain ⟨heap, data, started, valid⟩ := startBuffer_valid fun _ => '?'
  exact ⟨heap, data, started, buffer_valid_iff ⟨heap, data, [], false⟩ valid _⟩

end Filling

/-! A whole request. -/
section Request
variable {heap : CHeap} {data : BufferData} {content : List Char}

theorem deliverAll_granted (valid : ValidBuffer heap data content) {deliveries : List Delivery}
    (granted : ∀ delivery ∈ deliveries, delivery.grant ≠ none) :
    ∃ heap' data', deliverAll heap data deliveries = some (heap', data', true) ∧
      ValidBuffer heap' data' (content ++ deliveries.flatMap Delivery.chunk) := by
  induction deliveries generalizing heap data content with
  | nil => exact ⟨heap, data, rfl, by rwa [List.flatMap_nil, List.append_nil]⟩
  | cons delivery rest ih =>
      obtain ⟨grant, given⟩ := Option.ne_none_iff_exists'.mp (granted delivery List.mem_cons_self)
      obtain ⟨heap1, data1, wrote, valid1⟩ := writeData_granted valid delivery.chunk grant
      obtain ⟨heap2, data2, delivered, valid2⟩ :=
        ih valid1 fun later member => granted later (List.mem_cons_of_mem delivery member)
      refine ⟨heap2, data2, ?_, ?_⟩
      · simp only [deliverAll, given, wrote, Option.bind_eq_bind,
          Option.bind_some, ↓reduceIte, delivered]
      · rwa [List.flatMap_cons, ← List.append_assoc]

theorem deliverAll_refused (valid : ValidBuffer heap data content) {deliveries : List Delivery}
    (refused : ∃ delivery ∈ deliveries, delivery.grant = none) {heap' : CHeap} {data' : BufferData}
    {whole : Bool} (delivered : deliverAll heap data deliveries = some (heap', data', whole)) :
    Dangling heap' data' := by
  induction deliveries generalizing heap data content with
  | nil =>
      obtain ⟨_, member, _⟩ := refused
      exact absurd member List.not_mem_nil
  | cons delivery rest ih =>
      obtain ⟨chunk, grant⟩ := delivery
      cases grant with
      | some grant =>
          obtain ⟨heap1, data1, wrote, valid1⟩ := writeData_granted valid chunk grant
          simp only [deliverAll, wrote, Option.bind_eq_bind, Option.bind_some, ↓reduceIte]
            at delivered
          obtain ⟨other, member, none⟩ := refused
          rcases List.mem_cons.mp member with rfl | later
          · exact absurd none (by simp)
          · exact ih valid1 ⟨other, later, none⟩ delivered
      | none =>
          obtain ⟨heap1, wrote, dangling⟩ := writeData_refused valid chunk
          simp only [deliverAll, wrote, Option.bind_eq_bind, Option.bind_some] at delivered
          split at delivered
          · -- An empty chunk counts as taken, and the next call meets the freed block.
            cases rest with
            | nil =>
                cases delivered
                exact dangling
            | cons later rest =>
                rw [deliverAll, writeData_dangling dangling] at delivered
                exact absurd delivered (by simp)
          · cases delivered
            exact dangling

def Completes (download : Download) : Prop :=
  download.handle = true ∧ ∃ stale heap data heap' data', download.initial = some stale ∧
    startBuffer stale = some (heap, data) ∧
      curlEasyPerform download heap data = some (heap', data', curleOk)

def HoldsText {capacity : Nat} (buff : Vector Char capacity) (text : List Char) : Prop :=
  '\x00' ∉ text ∧ ∃ rest, buff.toList = text ++ '\x00' :: rest

/-- The request stays inside the caller's buffer and returns 0 exactly for a complete
body that the buffer holds. -/
def ReportsFaithfully {capacity : Nat} (download : Download) (buff : Vector Char capacity) : Prop :=
  ∃ ret after, httpGetRequest download buff = some (ret, after) ∧
    (ret = 0 ↔ Completes download ∧ HoldsText after download.body)

structure GoodDownload (capacity : Nat) (download : Download) : Prop where
  initial : download.initial ≠ none
  handle : download.handle = true
  granted : ∀ delivery ∈ download.deliveries, delivery.grant ≠ none
  result : download.result = curleOk
  text : '\x00' ∉ download.body
  fits : download.body.length < capacity

variable {capacity : Nat} {download : Download} {buff : Vector Char capacity}

theorem stringAt_valid (valid : ValidBuffer heap data content) (text : '\x00' ∉ content) :
    stringAt heap data.data = some content := by
  obtain ⟨ptr, rest, pointer, live⟩ := valid.stored
  simp only [stringAt, pointer, Option.bind_eq_bind, Option.bind_some, live,
    cString_terminated content rest text]
  rw [if_pos (by simp)]

theorem stringAt_dangling (dangling : Dangling heap data) : stringAt heap data.data = none := by
  obtain ⟨ptr, pointer, dead⟩ := dangling
  simp only [stringAt, pointer, Option.bind_eq_bind, Option.bind_some, dead, Option.bind_none]

theorem fetchInto_granted (valid : ValidBuffer heap data []) (handle : download.handle = true)
    (granted : ∀ delivery ∈ download.deliveries, delivery.grant ≠ none) :
    ∃ heap' data', fetchInto download heap data = some (heap', data') ∧
      ValidBuffer heap' data' download.body := by
  obtain ⟨heap', data', delivered, valid'⟩ := deliverAll_granted valid granted
  refine ⟨heap', data', ?_, valid'⟩
  simp only [fetchInto, handle, ↓reduceIte, curlEasyPerform, delivered, Option.bind_eq_bind,
    Option.bind_some, Option.map_some]

theorem fetchInto_refused (valid : ValidBuffer heap data []) (handle : download.handle = true)
    (refused : ∃ delivery ∈ download.deliveries, delivery.grant = none) {heap' : CHeap}
    {data' : BufferData} (fetched : fetchInto download heap data = some (heap', data')) :
    Dangling heap' data' := by
  simp only [fetchInto, handle, ↓reduceIte, curlEasyPerform,
    Option.bind_eq_bind, Option.map_eq_some_iff,
    Option.bind_eq_some_iff, Option.some_inj] at fetched
  obtain ⟨_, ⟨⟨heap1, data1, whole⟩, delivered, rfl⟩, same⟩ := fetched
  cases same
  exact deliverAll_refused valid refused delivered

theorem copyOut_valid (valid : ValidBuffer heap data content) (text : '\x00' ∉ content)
    (fits : content.length < capacity) :
    copyOut heap data buff = some (fill buff ⟨content, fits⟩) := by
  obtain ⟨ptr, rest, pointer, live⟩ := valid.stored
  obtain ⟨after, freed, _⟩ := Heap.free_live live
  have read : stringAt heap data.data = some content := stringAt_valid valid text
  rw [pointer] at read
  simp only [copyOut, pointer, read, copyInto_of_fits buff fits, freed, Option.bind_eq_bind,
    Option.bind_some]

theorem copyOut_long (valid : ValidBuffer heap data content) (text : '\x00' ∉ content)
    (long : capacity ≤ content.length) : copyOut heap data buff = none := by
  rw [copyOut, stringAt_valid valid text]
  simp only [copyInto_long buff long, Option.bind_eq_bind, Option.bind_some, Option.bind_none]

theorem copyOut_dangling (dangling : Dangling heap data) : copyOut heap data buff = none := by
  rw [copyOut, stringAt_dangling dangling]
  rfl

/-- When every allocation is granted, the request is the copy of the whole body. -/
theorem request_copies (handle : download.handle = true) (initial : download.initial ≠ none)
    (granted : ∀ delivery ∈ download.deliveries, delivery.grant ≠ none) :
    ∃ heap data, ValidBuffer heap data download.body ∧
      httpGetRequest download buff = (copyOut heap data buff).map fun after => (0, after) := by
  obtain ⟨stale, first⟩ := Option.ne_none_iff_exists'.mp initial
  obtain ⟨heap, data, started, empty⟩ := startBuffer_valid stale
  obtain ⟨heap', data', fetched, valid⟩ := fetchInto_granted empty handle granted
  refine ⟨heap', data', valid, ?_⟩
  simp only [httpGetRequest, first, started, fetched, Option.bind_eq_bind, Option.bind_some]
  cases copyOut heap' data' buff <;> rfl

theorem request_granted (handle : download.handle = true) (initial : download.initial ≠ none)
    (granted : ∀ delivery ∈ download.deliveries, delivery.grant ≠ none)
    (text : '\x00' ∉ download.body) (fits : download.body.length < capacity) :
    httpGetRequest download buff = some (0, fill buff ⟨download.body, fits⟩) := by
  obtain ⟨heap, data, valid, ran⟩ := request_copies handle initial granted
  rw [ran, copyOut_valid valid text fits, Option.map_some]

theorem request_overflows (handle : download.handle = true) (initial : download.initial ≠ none)
    (granted : ∀ delivery ∈ download.deliveries, delivery.grant ≠ none)
    (text : '\x00' ∉ download.body) (long : capacity ≤ download.body.length) :
    httpGetRequest download buff = none := by
  obtain ⟨heap, data, valid, ran⟩ := request_copies handle initial granted
  rw [ran, copyOut_long valid text long, Option.map_none]

/-- The value that is returned says nothing. -/
theorem request_zero {ret : Int} {after : Vector Char capacity}
    (ran : httpGetRequest download buff = some (ret, after)) : ret = 0 := by
  rw [httpGetRequest] at ran
  split at ran
  · cases ran
    rfl
  · simp only [Option.bind_eq_bind, Option.bind_eq_some_iff] at ran
    obtain ⟨_, _, _, _, _, _, same⟩ := ran
    cases same
    rfl

/-- After a refused allocation the request copies from a freed block. -/
theorem request_refused (handle : download.handle = true) {stale : Nat → Char}
    (first : download.initial = some stale)
    (refused : ∃ delivery ∈ download.deliveries, delivery.grant = none) :
    httpGetRequest download buff = none := by
  obtain ⟨heap, data, started, valid⟩ := startBuffer_valid stale
  simp only [httpGetRequest, first, started, Option.bind_eq_bind, Option.bind_some]
  cases fetched : fetchInto download heap data with
  | none => rfl
  | some result =>
      rw [Option.bind_some, copyOut_dangling (fetchInto_refused valid handle refused fetched),
        Option.bind_none]

/-- Success is reported faithfully for exactly the downloads in which nothing goes wrong. -/
theorem request_faithful_iff (download : Download) (buff : Vector Char capacity) :
    ReportsFaithfully download buff ↔ GoodDownload capacity download := by
  constructor
  · rintro ⟨ret, after, ran, faithful⟩
    obtain ⟨⟨handle, stale, heap, data, heap', data', first, started, performed⟩,
        text, rest, whole⟩ :=
      faithful.mp (request_zero ran)
    -- With a refused chunk the request would have had no result.
    have granted : ∀ delivery ∈ download.deliveries, delivery.grant ≠ none := by
      intro delivery member none
      rw [request_refused handle first ⟨delivery, member, none⟩] at ran
      exact absurd ran (by simp)
    have length := congrArg List.length whole
    rw [Vector.length_toList, List.length_append, List.length_cons] at length
    refine ⟨by simp [first], handle, granted, ?_, text, by omega⟩
    obtain ⟨heap1, data1, started1, empty⟩ := startBuffer_valid stale
    cases started.symm.trans started1
    obtain ⟨heap2, data2, delivered, _⟩ := deliverAll_granted empty granted
    simp only [curlEasyPerform, delivered, Option.bind_eq_bind, Option.bind_some, ↓reduceIte,
      Option.some_inj, Prod.mk.injEq] at performed
    exact performed.2.2
  · rintro ⟨initial, handle, granted, result, text, fits⟩
    obtain ⟨stale, first⟩ := Option.ne_none_iff_exists'.mp initial
    obtain ⟨heap, data, started, empty⟩ := startBuffer_valid stale
    obtain ⟨heap', data', delivered, _⟩ := deliverAll_granted empty granted
    have completes : Completes download := by
      refine ⟨handle, stale, heap, data, heap', data', first, started, ?_⟩
      simp only [curlEasyPerform, delivered, Option.bind_eq_bind,
        Option.bind_some, ↓reduceIte, result]
    exact ⟨0, _, request_granted handle initial granted text fits,
      iff_of_true rfl ⟨completes, text, _, fill_toList buff ⟨download.body, fits⟩⟩⟩

def unreachable : Download := ⟨some fun _ => '?', true, [], 7⟩

theorem unreachable_reported :
    httpGetRequest unreachable (Vector.replicate 1024 '?') =
        some (0, fill (Vector.replicate 1024 '?') .empty) ∧
      ¬ ReportsFaithfully unreachable (Vector.replicate 1024 '?') := by
  have ran : httpGetRequest unreachable (Vector.replicate 1024 '?') = some (0, _) :=
    request_granted rfl (by simp [unreachable]) (by simp [unreachable])
      (by simp [unreachable, Download.body])
      (by simp [unreachable, Download.body])
  refine ⟨ran, ?_⟩
  rintro ⟨ret, after, ran', faithful⟩
  obtain ⟨⟨_, stale, heap, data, heap', data', _, _, performed⟩, _⟩ :=
    faithful.mp (request_zero ran')
  simp [curlEasyPerform, unreachable, deliverAll, curleOk] at performed

end Request

end NatClient.Download
