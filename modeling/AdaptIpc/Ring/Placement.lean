import AdaptIpc.Ring.Layout

/-!
# Where a push places its record

The word arithmetic of the two push functions in terms of unbounded positions:
when the space check passes, how far the head moves, and which bytes are stored
where. Both functions have the same placement, so everything above this file is
about one `recordStores`.
-/

namespace AdaptIpc.Ring

open AdaptIpc.Library.Bytes AdaptIpc.Library.Cursor

set_option autoImplicit false

theorem RingCapacity.bytes_positive (capacity : RingCapacity) : 0 < capacity.bytes :=
  Nat.pow_pos (by decide)

theorem RingCapacity.bytes_page (capacity : RingCapacity) : 4096 ≤ capacity.bytes := by
  change 2 ^ 12 ≤ 2 ^ capacity.log
  exact Nat.pow_le_pow_right (by decide) capacity.page

theorem RingCapacity.bytes_le (capacity : RingCapacity) : capacity.bytes ≤ 2 ^ 63 :=
  Nat.pow_le_pow_right (by decide) capacity.word

theorem RingCapacity.size_toNat (capacity : RingCapacity) :
    capacity.size.toNat = capacity.bytes := by
  have small := capacity.bytes_le
  exact cursor_toNat _ (by omega)

theorem RingCapacity.masked (capacity : RingCapacity) (position : Nat) :
    cursor position &&& (capacity.size - 1) = cursor (position % capacity.bytes) :=
  masked_eq_cursor position capacity.log capacity.word

theorem RingCapacity.aligned (capacity : RingCapacity) (position : Nat) :
    (cursor position &&& ~~~(capacity.size - 1)) + capacity.size =
      cursor ((position / capacity.bytes + 1) * capacity.bytes) := by
  have below : cursor position &&& ~~~(capacity.size - 1) =
      cursor (position / capacity.bytes * capacity.bytes) :=
    aligned_eq_cursor position capacity.log capacity.word
  rw [below, Nat.add_mul, Nat.one_mul, RingCapacity.size, cursor_add]

/-- The record with its header does not fit before the end of the buffer. -/
def Wraps (size head need : Nat) : Prop := size - head % size < need

instance (size head need : Nat) : Decidable (Wraps size head need) :=
  inferInstanceAs (Decidable (_ < _))

/-- Cursor space a record takes at `head`, its padding included. -/
def requiredBytes (size head need : Nat) : Nat :=
  if Wraps size head need then size - head % size + need else need

theorem required_bytes_lt {size need : Nat} (head : Nat) (positive : 0 < size)
    (fits : need ≤ size) : requiredBytes size head need < 2 * size := by
  unfold requiredBytes
  split
  · next crosses =>
    unfold Wraps at crosses
    omega
  · omega

theorem need_le_required (size head need : Nat) : need ≤ requiredBytes size head need := by
  unfold requiredBytes
  split <;> omega

theorem required_le_double (size head need : Nat) : requiredBytes size head need ≤ 2 * need := by
  unfold requiredBytes
  split
  · next crosses =>
    unfold Wraps at crosses
    omega
  · omega

def recordSlots (size head : Nat) (payload : List UInt8) : List Slot :=
  if Wraps size head (payload.length + 4) then [.padding, .record payload]
  else [.record payload]

def recordStores (size head : Nat) (payload : List UInt8) : List Store :=
  if Wraps size head (payload.length + 4) then
    blockStores (head % size) (leBytes 4 wrapSentinelLen) ++ blockStores 0 (frameBytes payload)
  else blockStores (head % size) (frameBytes payload)

theorem payloads_record_slots (size head : Nat) (payload : List UInt8) :
    payloads (recordSlots size head payload) = [payload] := by
  unfold recordSlots
  split <;> rfl

theorem closed_record_slots (size head : Nat) (payload : List UInt8) :
    Closed (recordSlots size head payload) := by
  unfold recordSlots
  split
  · exact ⟨⟨payload, [], rfl⟩, trivial⟩
  · exact trivial

/-- The space check on images of positions: it compares the required cursor
space with what the tail leaves free. -/
theorem reserve_spec (capacity : RingCapacity) {head tail need : Nat} (ordered : tail ≤ head)
    (room : head ≤ tail + capacity.bytes) (fits : need ≤ capacity.bytes) :
    reserve capacity (cursor head) (cursor tail) (cursor need) =
      if capacity.bytes - (head - tail) < requiredBytes capacity.bytes head need then
        .error .eagain
      else .ok
        { pos := cursor (head % capacity.bytes)
          contiguous := cursor (capacity.bytes - head % capacity.bytes)
          wrap := decide (Wraps capacity.bytes head need)
          required := cursor (requiredBytes capacity.bytes head need) } := by
  have small := capacity.bytes_le
  have remainder := Nat.mod_lt head capacity.bytes_positive
  have contiguousWord : capacity.size - cursor (head % capacity.bytes) =
      cursor (capacity.bytes - head % capacity.bytes) :=
    cursor_sub _ _ (by omega)
  have usedWord : capacity.size - (cursor head - cursor tail) =
      cursor (capacity.bytes - (head - tail)) := by
    rw [cursor_sub _ _ ordered]
    exact cursor_sub _ _ (by omega)
  have wrapWord : (cursor (capacity.bytes - head % capacity.bytes) < cursor need) ↔
      Wraps capacity.bytes head need := by
    rw [UInt64.lt_iff_toNat_lt, cursor_toNat _ (by omega), cursor_toNat _ (by omega)]
    rfl
  have requiredWord :
      (if decide (Wraps capacity.bytes head need) then
        cursor (capacity.bytes - head % capacity.bytes) + cursor need else cursor need) =
      cursor (requiredBytes capacity.bytes head need) := by
    simp only [requiredBytes, decide_eq_true_eq]
    split
    · rw [cursor_add]
    · rfl
  have requiredSmall : requiredBytes capacity.bytes head need < 2 ^ 64 := by
    have doubled := required_bytes_lt head capacity.bytes_positive fits
    omega
  have fullWord : (cursor (capacity.bytes - (head - tail)) <
      cursor (requiredBytes capacity.bytes head need)) ↔
      capacity.bytes - (head - tail) < requiredBytes capacity.bytes head need := by
    rw [UInt64.lt_iff_toNat_lt, cursor_toNat _ (by omega), cursor_toNat _ requiredSmall]
  simp only [reserve, capacity.masked, contiguousWord, usedWord, wrapWord, requiredWord, fullWord]

theorem reserve_slot {capacity : RingCapacity} {head need : Nat} {tail : UInt64}
    {slot : Reservation}
    (fits : need ≤ capacity.bytes)
    (reserved : reserve capacity (cursor head) tail (cursor need) = .ok slot) :
    slot.pos = cursor (head % capacity.bytes) ∧
      slot.contiguous = cursor (capacity.bytes - head % capacity.bytes) ∧
      slot.wrap = decide (Wraps capacity.bytes head need) ∧
      slot.required = cursor (requiredBytes capacity.bytes head need) := by
  have small := capacity.bytes_le
  have remainder := Nat.mod_lt head capacity.bytes_positive
  have contiguous : capacity.size - cursor (head % capacity.bytes) =
      cursor (capacity.bytes - head % capacity.bytes) :=
    cursor_sub _ _ (by omega)
  have crosses : (cursor (capacity.bytes - head % capacity.bytes) < cursor need) ↔
      Wraps capacity.bytes head need := by
    rw [UInt64.lt_iff_toNat_lt, cursor_toNat _ (by omega), cursor_toNat _ (by omega)]
    rfl
  simp only [reserve, capacity.masked, contiguous, crosses, decide_eq_true_eq] at reserved
  by_cases wraps : Wraps capacity.bytes head need
  · simp only [wraps, if_true] at reserved
    split at reserved <;> cases reserved
    simp only [requiredBytes, wraps, if_true, cursor_add, and_self]
  · simp only [wraps, if_false] at reserved
    split at reserved <;> cases reserved
    simp only [requiredBytes, wraps, if_false, and_self]

theorem reserve_refuses {capacity : RingCapacity} {head tail need : UInt64} {code : Errno}
    (refused : reserve capacity head tail need = .error code) : code = .eagain := by
  simp only [reserve] at refused
  split_ifs at refused <;> cases refused <;> rfl

/-- A word need of a record within the capacity is the image of its length plus
the header. -/
theorem record_need (capacity : RingCapacity) {length : Nat} (fits : length + 4 ≤ capacity.bytes) :
    (cursor (length + 4) - shmRingMsgHdrSize).toNat = length := by
  have small := capacity.bytes_le
  rw [show shmRingMsgHdrSize = cursor 4 from rfl, cursor_sub _ _ (by omega), Nat.add_sub_cancel]
  exact cursor_toNat _ (by omega)

theorem push_plan_eq (capacity : RingCapacity) {head : Nat} {payload : List UInt8}
    {slot : Reservation} (pos : slot.pos = cursor (head % capacity.bytes))
    (wrap : slot.wrap = decide (Wraps capacity.bytes head (payload.length + 4))) :
    shmRingPushPlan capacity (cursor head) (cursor (payload.length + 4)) slot payload =
      (recordStores capacity.bytes head payload,
        cursor (head + requiredBytes capacity.bytes head (payload.length + 4))) := by
  have small := capacity.bytes_le
  have remainder := Nat.mod_lt head capacity.bytes_positive
  have posNat : slot.pos.toNat = head % capacity.bytes := by
    rw [pos, cursor_toNat _ (by omega)]
  have header : shmRingMsgHdrSize.toNat = 4 := rfl
  by_cases crosses : Wraps capacity.bytes head (payload.length + 4)
  · have boundary : (head / capacity.bytes + 1) * capacity.bytes + (payload.length + 4) =
        head + (capacity.bytes - head % capacity.bytes + (payload.length + 4)) := by
      have reached := boundary_eq head capacity.bytes
      omega
    simp only [shmRingPushPlan, recordStores, requiredBytes, wrap, crosses, decide_true, if_true,
      posNat, header, frameBytes, block_stores_append, le_bytes_length, capacity.aligned,
      cursor_add, boundary, List.append_assoc, Nat.zero_add]
  · simp only [shmRingPushPlan, recordStores, requiredBytes, wrap, crosses, decide_false, if_false,
      posNat, header, frameBytes, block_stores_append, le_bytes_length, cursor_add,
      Bool.false_eq_true]

theorem scatter_segment_straight {size fuel p : Nat} {bytes : List UInt8} (inside : p < size)
    (enough : bytes.length ≤ fuel) (fits : p + bytes.length ≤ size) :
    scatterSegment size fuel p bytes = (blockStores p bytes, (p + bytes.length) % size) := by
  cases fuel with
  | zero =>
      have empty : bytes = [] := List.length_eq_zero_iff.mp (by omega)
      simp [scatterSegment, empty, blockStores, Nat.mod_eq_of_lt inside]
  | succ fuel =>
      by_cases empty : bytes = []
      · simp [scatterSegment, empty, blockStores, Nat.mod_eq_of_lt inside]
      · have whole : min (size - p) bytes.length = bytes.length := by omega
        have nonempty : bytes.length ≠ 0 := fun zero => empty (List.length_eq_zero_iff.mp zero)
        -- The first chunk is the whole segment, so the loop ends after one round.
        have finished : scatterSegment size fuel ((p + bytes.length) % size) [] =
            ([], (p + bytes.length) % size) := by
          cases fuel <;> simp [scatterSegment]
        simp only [scatterSegment, nonempty, if_false, whole, List.take_length, List.drop_length,
          finished, List.append_nil]

theorem scatter_segments_empty {size p : Nat} {segs : List ShmSegment}
    (empty : (segs.map ShmSegment.content).flatten = []) : scatterSegments size p segs = [] := by
  induction segs generalizing p with
  | nil => rfl
  | cons seg rest ih =>
      simp only [List.map_cons, List.flatten_cons, List.append_eq_nil_iff] at empty
      simp [scatterSegments, empty.1, scatterSegment, ih empty.2]

theorem scatter_segments_straight {size p : Nat} {segs : List ShmSegment} (inside : p < size)
    (fits : p + (segs.map ShmSegment.content).flatten.length ≤ size) :
    scatterSegments size p segs = blockStores p (segs.map ShmSegment.content).flatten := by
  induction segs generalizing p with
  | nil => rfl
  | cons seg rest ih =>
      simp only [List.map_cons, List.flatten_cons, List.length_append] at fits ⊢
      have copied := scatter_segment_straight inside (Nat.le_refl seg.content.length) (by omega)
      simp only [scatterSegments, copied, block_stores_append]
      by_cases reached : p + seg.content.length < size
      · rw [Nat.mod_eq_of_lt reached, ih reached (by omega)]
      · -- The buffer end is reached exactly, so nothing is left to copy.
        have empty : (rest.map ShmSegment.content).flatten = [] :=
          List.length_eq_zero_iff.mp (by omega)
        rw [scatter_segments_empty empty, empty]
        rfl

theorem scatter_plan_eq (capacity : RingCapacity) {head : Nat} {segs : List ShmSegment}
    {slot : Reservation} (payload : List UInt8)
    (content : (segs.map ShmSegment.content).flatten = payload)
    (nonempty : payload ≠ []) (fits : payload.length + 4 ≤ capacity.bytes)
    (pos : slot.pos = cursor (head % capacity.bytes))
    (wrap : slot.wrap = decide (Wraps capacity.bytes head (payload.length + 4)))
    (required : slot.required =
      cursor (requiredBytes capacity.bytes head (payload.length + 4))) :
    shmRingPushScatterPlan capacity (cursor head) (cursor (payload.length + 4)) slot segs =
      (recordStores capacity.bytes head payload,
        cursor (head + requiredBytes capacity.bytes head (payload.length + 4))) := by
  have small := capacity.bytes_le
  have page := capacity.bytes_page
  have remainder := Nat.mod_lt head capacity.bytes_positive
  have positive : 0 < payload.length := List.length_pos_iff.mpr nonempty
  have posNat : slot.pos.toNat = head % capacity.bytes := by
    rw [pos, cursor_toNat _ (by omega)]
  by_cases crosses : Wraps capacity.bytes head (payload.length + 4)
  · have start : (0 + 4) % capacity.bytes = 4 := Nat.mod_eq_of_lt (by omega)
    have copied : scatterSegments capacity.bytes 4 segs = blockStores 4 payload := by
      rw [scatter_segments_straight (by omega) (by rw [content]; omega), content]
    simp only [shmRingPushScatterPlan, recordStores, wrap, crosses, decide_true, if_true, posNat,
      record_need capacity fits, start, copied, required, cursor_add, frameBytes,
      block_stores_append, le_bytes_length, List.append_assoc, Nat.zero_add]
  · have inside : head % capacity.bytes + 4 + payload.length ≤ capacity.bytes := by
      unfold Wraps at crosses
      omega
    have start : (head % capacity.bytes + 4) % capacity.bytes = head % capacity.bytes + 4 :=
      Nat.mod_eq_of_lt (by omega)
    have copied : scatterSegments capacity.bytes (head % capacity.bytes + 4) segs =
        blockStores (head % capacity.bytes + 4) payload := by
      rw [scatter_segments_straight (by omega) (by rw [content]; omega), content]
    simp only [shmRingPushScatterPlan, recordStores, requiredBytes, wrap, crosses, decide_false,
      if_false, posNat, record_need capacity fits, start, copied, cursor_add, frameBytes,
      block_stores_append, le_bytes_length, List.nil_append, Bool.false_eq_true]

theorem block_within {size lower upper address : Nat} {bytes : List UInt8} {write : Store}
    (position : Nat) (cell : address = position % size) (inside : address + bytes.length ≤ size)
    (above : lower ≤ position) (below : position + bytes.length ≤ upper)
    (member : write ∈ blockStores address bytes) : StoreWithin size lower upper write := by
  obtain ⟨offset, bound, target, _⟩ := mem_block_stores member
  refine Or.inl ⟨position + offset, by omega, by omega, ?_⟩
  rw [target, cell, mod_add_of_fits (by omega)]

theorem sentinel_within {size head upper : Nat} {write : Store} (positive : 0 < size)
    (padded : head + (size - head % size) ≤ upper)
    (member : write ∈ blockStores (head % size) (leBytes 4 wrapSentinelLen)) :
    StoreWithin size head upper write := by
  obtain ⟨offset, bound, target, content⟩ := mem_block_stores member
  have remainder := Nat.mod_lt head positive
  by_cases inside : head % size + offset < size
  · refine Or.inl ⟨head + offset, by omega, by omega, ?_⟩
    rw [target, mod_add_of_fits inside]
  · refine Or.inr ⟨by omega, ?_⟩
    simp only [le_bytes_length] at bound
    have zeros : leBytes 4 wrapSentinelLen = List.replicate 4 0 := rfl
    rw [zeros, List.getElem?_replicate, if_pos bound] at content
    exact (Option.some.inj content).symm

theorem record_stores_within {size head : Nat} {payload : List UInt8} (positive : 0 < size)
    (room : requiredBytes size head (payload.length + 4) ≤ size) {write : Store}
    (member : write ∈ recordStores size head payload) :
    StoreWithin size head (head + requiredBytes size head (payload.length + 4)) write := by
  have remainder := Nat.mod_lt head positive
  unfold recordStores at member
  unfold requiredBytes at room ⊢
  split at member
  · next crosses =>
    simp only [crosses, if_true] at room ⊢
    rcases List.mem_append.mp member with sentinel | record
    · exact sentinel_within positive (by omega) sentinel
    · have boundary := boundary_eq head size
      exact block_within ((head / size + 1) * size) (boundary_mod head size).symm
        (by simp only [frame_bytes_length]; omega) (by omega)
        (by simp only [frame_bytes_length]; omega) record
  · next straight =>
    simp only [straight, if_false] at room ⊢
    unfold Wraps at straight
    exact block_within head rfl (by simp only [frame_bytes_length]; omega) (Nat.le_refl _)
      (by simp only [frame_bytes_length]; omega) member

theorem read_after_disjoint (data : Memory) {address count : Nat} {writes : List Store}
    (disjoint : ∀ write ∈ writes, write.1 < address ∨ address + count ≤ write.1) :
    readBytes (applyStores data writes) address count = readBytes data address count := by
  apply read_bytes_congr
  intro offset bound
  apply apply_stores_other
  intro write member
  have apart := disjoint write member
  omega

/-- Once all stores of a push are made, the reserved positions parse as its
padding, if any, and its record. -/
theorem record_stores_parse {size head : Nat} {payload : List UInt8} (data : Memory)
    (positive : 0 < size) (nonempty : payload ≠ []) (short : payload.length < 2 ^ 32)
    (room : requiredBytes size head (payload.length + 4) ≤ size) :
    Parses size (applyStores data (recordStores size head payload)) head
      (recordSlots size head payload)
      (head + requiredBytes size head (payload.length + 4)) := by
  have remainder := Nat.mod_lt head positive
  unfold recordStores recordSlots
  unfold requiredBytes at room ⊢
  by_cases crosses : Wraps size head (payload.length + 4)
  · simp only [crosses, if_true] at room ⊢
    have boundary := boundary_eq head size
    have cell := boundary_mod head size
    refine ⟨⟨trivial, ?_⟩, ⟨⟨nonempty, short, by simp only [slotEnd, cell]; omega⟩, ?_⟩, ?_⟩
    · -- The record is written below the sentinel, in the part already consumed.
      rw [apply_stores_append, read_after_disjoint]
      · exact read_block_stores data _ _
      · intro write member
        obtain ⟨offset, bound, target, _⟩ := mem_block_stores member
        simp only [frame_bytes_length] at bound
        omega
    · change readBytes _ ((head / size + 1) * size % size) _ = _
      rw [apply_stores_append, cell]
      exact read_block_stores _ 0 (frameBytes payload)
    · simp only [Parses, slotEnd, boundary]
      omega
  · simp only [crosses, if_false] at room ⊢
    unfold Wraps at crosses
    refine ⟨⟨⟨nonempty, short, by omega⟩, read_block_stores data _ _⟩, ?_⟩
    simp only [Parses, slotEnd]
    omega

theorem segments_body_ok (start : Nat) {segs : List ShmSegment} {body : UInt64}
    (checked : segmentsBody (cursor start) segs = .ok body) :
    body = cursor (start + (segs.map ShmSegment.content).flatten.length) := by
  induction segs generalizing start with
  | nil =>
      simp only [segmentsBody, Except.ok.injEq] at checked
      simp [← checked]
  | cons seg rest ih =>
      simp only [segmentsBody] at checked
      split at checked
      · cases checked
      · next readable =>
        have added : cursor start + seg.len = cursor (start + seg.content.length) := by
          cases seg with
          | null len =>
              have empty : len = 0 := by simpa [ShmSegment.isNull, ShmSegment.len] using readable
              simp [ShmSegment.len, ShmSegment.content, empty]
          | bytes content => exact cursor_add start content.length
        rw [added] at checked
        rw [ih _ checked]
        simp only [List.map_cons, List.flatten_cons, List.length_append, Nat.add_assoc]

theorem header_limit (capacity : RingCapacity) :
    (capacity.size - shmRingMsgHdrSize).toNat = capacity.bytes - 4 := by
  have page := capacity.bytes_page
  have small := capacity.bytes_le
  have subtracted : capacity.size - shmRingMsgHdrSize = cursor (capacity.bytes - 4) :=
    cursor_sub capacity.bytes 4 (by omega)
  rw [subtracted, cursor_toNat _ (by omega)]

theorem push_need_accepts {capacity : RingCapacity} {data : Option (List UInt8)} {need : UInt64}
    (accepted : shmRingPushNeed capacity data = .ok need) :
    ∃ bytes, data = some bytes ∧ UInt64.ofNat bytes.length ≠ 0 ∧
      (UInt64.ofNat bytes.length).toNat + 4 ≤ capacity.bytes ∧
      need = UInt64.ofNat bytes.length + shmRingMsgHdrSize := by
  have page := capacity.bytes_page
  cases data with
  | none => simp [shmRingPushNeed] at accepted
  | some bytes =>
      simp only [shmRingPushNeed] at accepted
      split at accepted
      · cases accepted
      · next nonzero =>
        split at accepted
        · cases accepted
        · next below =>
          rw [gt_iff_lt, UInt64.lt_iff_toNat_lt, header_limit] at below
          exact ⟨bytes, rfl, nonzero, by omega, (Except.ok.inj accepted).symm⟩

theorem scatter_need_accepts {capacity : RingCapacity} {segs : List ShmSegment} {need : UInt64}
    (accepted : shmRingPushScatterNeed capacity segs = .ok need) :
    ∃ body, segmentsBody 0 segs = .ok body ∧ body ≠ 0 ∧ need = body + shmRingMsgHdrSize ∧
      need.toNat + 4 ≤ capacity.bytes := by
  have page := capacity.bytes_page
  simp only [shmRingPushScatterNeed] at accepted
  split at accepted
  · cases accepted
  · split at accepted
    · cases accepted
    · next body checked =>
      split at accepted
      · cases accepted
      · next below =>
        cases accepted
        rw [not_or, gt_iff_lt, UInt64.lt_iff_toNat_lt, header_limit] at below
        exact ⟨body, checked, below.1, rfl, by omega⟩

/-- What passes the argument checks is a non-empty record that fits the
capacity with its header. -/
theorem need_ok {capacity : RingCapacity} {call : PushCall} {need : UInt64}
    (short : call.record.length < 2 ^ 32) (accepted : call.need capacity = .ok need) :
    need = cursor (call.record.length + 4) ∧ call.record ≠ [] ∧
      call.record.length + 4 ≤ capacity.bytes := by
  cases call with
  | push data =>
      obtain ⟨bytes, rfl, nonzero, fits, rfl⟩ := push_need_accepts accepted
      simp only [PushCall.record, Option.getD_some] at short ⊢
      have size : (UInt64.ofNat bytes.length).toNat = bytes.length :=
        cursor_toNat bytes.length (by omega)
      refine ⟨cursor_add bytes.length 4, ?_, by omega⟩
      rintro rfl
      exact nonzero rfl
  | scatter segs =>
      obtain ⟨body, checked, nonzero, word, fits⟩ := scatter_need_accepts accepted
      simp only [PushCall.record] at short ⊢
      have total : body = cursor (segs.map ShmSegment.content).flatten.length := by
        simpa using segments_body_ok 0 checked
      have reached : need = cursor ((segs.map ShmSegment.content).flatten.length + 4) := by
        rw [word, total]
        exact cursor_add _ 4
      rw [reached, cursor_toNat _ (by omega)] at fits
      refine ⟨reached, ?_, by omega⟩
      intro empty
      rw [empty] at total
      exact nonzero total

theorem plan_eq (capacity : RingCapacity) {call : PushCall} {head : Nat} {slot : Reservation}
    (nonempty : call.record ≠ []) (fits : call.record.length + 4 ≤ capacity.bytes)
    (pos : slot.pos = cursor (head % capacity.bytes))
    (wrap : slot.wrap = decide (Wraps capacity.bytes head (call.record.length + 4)))
    (required : slot.required =
      cursor (requiredBytes capacity.bytes head (call.record.length + 4))) :
    call.plan capacity (cursor head) (cursor (call.record.length + 4)) slot =
      (recordStores capacity.bytes head call.record,
        cursor (head + requiredBytes capacity.bytes head (call.record.length + 4))) := by
  cases call with
  | push data => exact push_plan_eq capacity pos wrap
  | scatter segs => exact scatter_plan_eq capacity _ rfl nonempty fits pos wrap required

end AdaptIpc.Ring
