import AdaptIpc.Ring.Placement
import AdaptIpc.Ring.Machine

/-!
# The scatter push against the plain push

`shm_ring_push_scatter` and `shm_ring_push` of the concatenated segments make
the same space check, the same stores and the same head, at every cursor
position. Their size checks differ: the scatter push takes the header off the
capacity twice, so the four largest records of the plain push are refused.
-/

namespace AdaptIpc.Ring

open AdaptIpc.Library.Bytes AdaptIpc.Library.Cursor AdaptIpc.Library.Transition

set_option autoImplicit false

def concatenation (segs : List ShmSegment) : List UInt8 := (segs.map ShmSegment.content).flatten

section Checks

variable {capacity : RingCapacity} {segs : List ShmSegment} {data : List UInt8}

theorem segments_body_based (start : Nat) (based : ∀ seg ∈ segs, seg.isNull = false) :
    segmentsBody (cursor start) segs = .ok (cursor (start + (concatenation segs).length)) := by
  induction segs generalizing start with
  | nil => simp [segmentsBody, concatenation]
  | cons seg rest ih =>
      have own := based seg (by simp)
      have others : ∀ other ∈ rest, other.isNull = false := fun other member =>
        based other (by simp [member])
      cases seg with
      | null len => cases own
      | bytes content =>
          have added : cursor start + (ShmSegment.bytes content).len =
              cursor (start + content.length) := cursor_add start content.length
          simp only [segmentsBody, ShmSegment.isNull, Bool.false_eq_true, false_and, if_false]
          rw [added, ih _ others]
          simp only [concatenation, List.map_cons, List.flatten_cons, List.length_append,
            ShmSegment.content, Nat.add_assoc]

theorem push_need_eq (nonempty : data ≠ []) (short : data.length < 2 ^ 32) :
    shmRingPushNeed capacity (some data) =
      if capacity.bytes < data.length + 4 then .error .emsgsize
      else .ok (cursor (data.length + 4)) := by
  have positive := List.length_pos_iff.mpr nonempty
  have page := capacity.bytes_page
  have size : (cursor data.length).toNat = data.length := cursor_toNat _ (by omega)
  have nonzero : cursor data.length ≠ 0 := by
    intro zero
    rw [zero] at size
    exact absurd size.symm (Nat.ne_of_gt positive)
  have exceeds : cursor data.length > capacity.size - shmRingMsgHdrSize ↔
      capacity.bytes < data.length + 4 := by
    rw [gt_iff_lt, UInt64.lt_iff_toNat_lt, header_limit, size]
    omega
  have need : cursor data.length + shmRingMsgHdrSize = cursor (data.length + 4) :=
    cursor_add data.length 4
  simp only [shmRingPushNeed, nonzero, if_false, exceeds, need]

theorem scatter_need_eq (based : ∀ seg ∈ segs, seg.isNull = false)
    (nonempty : concatenation segs ≠ []) (short : (concatenation segs).length ≤ 2 ^ 63) :
    shmRingPushScatterNeed capacity segs =
      if capacity.bytes < (concatenation segs).length + 8 then .error .emsgsize
      else .ok (cursor ((concatenation segs).length + 4)) := by
  have positive := List.length_pos_iff.mpr nonempty
  have page := capacity.bytes_page
  have body : segmentsBody 0 segs = .ok (cursor (concatenation segs).length) := by
    simpa using segments_body_based 0 based
  have size : (cursor (concatenation segs).length).toNat = (concatenation segs).length :=
    cursor_toNat _ (by omega)
  have nonzero : cursor (concatenation segs).length ≠ 0 := by
    intro zero
    rw [zero] at size
    exact absurd size.symm (Nat.ne_of_gt positive)
  have need : cursor (concatenation segs).length + shmRingMsgHdrSize =
      cursor ((concatenation segs).length + 4) := cursor_add _ 4
  have exceeds : cursor ((concatenation segs).length + 4) > capacity.size - shmRingMsgHdrSize ↔
      capacity.bytes < (concatenation segs).length + 8 := by
    rw [gt_iff_lt, UInt64.lt_iff_toNat_lt, header_limit, cursor_toNat _ (by omega)]
    omega
  cases segs with
  | nil => exact absurd rfl nonempty
  | cons seg rest => simp only [shmRingPushScatterNeed, body, nonzero, false_or, need, exceeds]

theorem run_push_congr {first second : PushCall} {object : ShmObject}
    (record : first.record = second.record) (nonempty : second.record ≠ [])
    (fits : second.record.length + 4 ≤ capacity.bytes)
    (needFirst : first.need capacity = .ok (cursor (second.record.length + 4)))
    (needSecond : second.need capacity = .ok (cursor (second.record.length + 4))) :
    runPush capacity first object = runPush capacity second object := by
  have head : object.head = cursor object.head.toNat := by simp [cursor]
  simp only [runPush, needFirst, needSecond]
  cases reserved : reserve capacity object.head object.tail
      (cursor (second.record.length + 4)) with
  | error code => rfl
  | ok slot =>
      rw [head] at reserved
      obtain ⟨pos, _, wrap, required⟩ := reserve_slot fits reserved
      have planned := plan_eq capacity nonempty fits pos wrap required
      rw [← record] at nonempty fits wrap required
      have same := plan_eq capacity nonempty fits pos wrap required
      rw [record] at same
      simp only
      rw [head, planned, same]

end Checks

/-- The two push functions agree, in code and object, exactly on the records whose
size both accept or both refuse. -/
theorem scatter_matches_push_iff (capacity : RingCapacity) (object : ShmObject)
    (segs : List ShmSegment) (based : ∀ seg ∈ segs, seg.isNull = false)
    (nonempty : concatenation segs ≠ []) (short : (concatenation segs).length < 2 ^ 32) :
    shmRingPushScatter capacity segs object =
        shmRingPush capacity (some (concatenation segs)) object ↔
      (concatenation segs).length + 8 ≤ capacity.bytes ∨
        capacity.bytes < (concatenation segs).length + 4 := by
  have scatter : (PushCall.scatter segs).need capacity = _ :=
    scatter_need_eq based nonempty (by omega)
  have push : (PushCall.push (some (concatenation segs))).need capacity = _ :=
    push_need_eq nonempty short
  by_cases within : (concatenation segs).length + 8 ≤ capacity.bytes
  · rw [if_neg (by omega)] at scatter push
    refine iff_of_true ?_ (Or.inl within)
    apply run_push_congr
    · rfl
    · exact nonempty
    · simp only [PushCall.record, Option.getD_some]
      omega
    · exact scatter
    · exact push
  · rw [if_pos (by omega)] at scatter
    by_cases exceeds : capacity.bytes < (concatenation segs).length + 4
    · rw [if_pos exceeds] at push
      refine iff_of_true ?_ (Or.inr exceeds)
      simp only [shmRingPushScatter, shmRingPush, runPush, scatter, push]
    · rw [if_neg exceeds] at push
      refine iff_of_false ?_ (by omega)
      intro same
      simp only [shmRingPushScatter, shmRingPush, runPush, scatter, push] at same
      split at same
      · next code refused =>
        rw [reserve_refuses refused] at same
        have codes : Errno.emsgsize = Errno.eagain := Except.error.inj (congrArg Prod.fst same)
        exact absurd codes (by decide)
      · have codes := congrArg Prod.fst same
        cases codes

theorem scatter_matches_push_two_segments :
    shmRingPushScatter page [.bytes [1], .bytes [7, 8]] (freshObject page fun _ => 255) =
      shmRingPush page (some [1, 7, 8]) (freshObject page fun _ => 255) :=
  (scatter_matches_push_iff page (freshObject page fun _ => 255) [.bytes [1], .bytes [7, 8]]
    (by decide) (by decide) (by decide)).mpr (Or.inl (by decide))

/-- A record of the capacity less seven bytes fits a new ring; only the plain push
takes it. -/
theorem scatter_refuses_large_record :
    ∃ state : RingState, (ringMachine page).Reachable state ∧
      ∃ segs : List ShmSegment, (∀ seg ∈ segs, seg.isNull = false) ∧
        (concatenation segs).length = 4089 ∧
        (shmRingPush page (some (concatenation segs)) state.object).1 = .ok () ∧
        (shmRingPushScatter page segs state.object).1 = .error .emsgsize := by
  let content : List UInt8 := List.replicate 4089 0
  have whole : concatenation [.bytes content] = content := by
    simp [concatenation, ShmSegment.content]
  have length : content.length = 4089 := List.length_replicate
  have nonempty : content ≠ [] := by
    intro empty
    rw [empty] at length
    cases length
  have based : ∀ seg ∈ [ShmSegment.bytes content], seg.isNull = false := by
    intro seg member
    rw [List.mem_singleton.mp member]
    rfl
  refine ⟨freshRing page fun _ => 0, Machine.reachable_initial ⟨_, rfl⟩, [.bytes content],
    based, by rw [whole, length], ?_, ?_⟩
  · have accepted : (PushCall.push (some content)).need page = .ok (cursor 4093) := by
      have need := @push_need_eq page content nonempty (by rw [length]; decide)
      rw [length] at need
      exact need
    have room : ∃ slot, reserve page 0 0 (cursor 4093) = .ok slot := ⟨_, rfl⟩
    obtain ⟨slot, reserved⟩ := room
    rw [whole]
    simp only [shmRingPush, runPush, accepted, freshRing, freshObject, reserved]
  · have refused : (PushCall.scatter [.bytes content]).need page = .error .emsgsize := by
      have need := @scatter_need_eq page [.bytes content] based (by rw [whole]; exact nonempty)
        (by rw [whole, length]; decide)
      rw [whole, length] at need
      exact need
    simp only [shmRingPushScatter, runPush, refused]

end AdaptIpc.Ring
