import AdaptIpc.Ring.Buffer
import Mathlib.Tactic.Linarith

/-!
# Slots and the parse of the unread region

The bytes between tail and head are a sequence of slots: a record with its
length word, or padding to the end of the buffer announced by a zero length
word. Positions here are unbounded; the code's 64-bit cursors are their images.
The frame lemma says which byte stores leave the unread region alone, and the
placement lemma says what a completed push has appended.
-/

namespace AdaptIpc.Ring

open AdaptIpc.Library.Bytes AdaptIpc.Library.Cursor

set_option autoImplicit false

inductive Slot where
  | record (payload : List UInt8)
  | padding
  deriving DecidableEq

def frameBytes (payload : List UInt8) : List UInt8 := leBytes 4 payload.length ++ payload

def Slot.bytes : Slot → List UInt8
  | .record payload => frameBytes payload
  | .padding => leBytes 4 wrapSentinelLen

/-- The position after a slot: past the record, or at the next buffer boundary. -/
def slotEnd (size position : Nat) : Slot → Nat
  | .record payload => position + 4 + payload.length
  | .padding => (position / size + 1) * size

/-- A stored record is non-empty, has an exact length word and does not cross
the end of the buffer; padding can start anywhere. -/
def SlotFits (size position : Nat) : Slot → Prop
  | .record payload =>
      payload ≠ [] ∧ payload.length < 2 ^ 32 ∧ position % size + 4 + payload.length ≤ size
  | .padding => True

def SlotStored (size : Nat) (data : Memory) (position : Nat) (slot : Slot) : Prop :=
  SlotFits size position slot ∧
    readBytes data (position % size) slot.bytes.length = slot.bytes

/-- The bytes from `position` to `limit` are exactly these slots. -/
def Parses (size : Nat) (data : Memory) : Nat → List Slot → Nat → Prop
  | position, [], limit => position = limit
  | position, slot :: rest, limit =>
      SlotStored size data position slot ∧
        Parses size data (slotEnd size position slot) rest limit

def Slot.payload? : Slot → Option (List UInt8)
  | .record payload => some payload
  | .padding => none

def payloads (slots : List Slot) : List (List UInt8) := slots.filterMap Slot.payload?

@[simp] theorem payloads_nil : payloads [] = [] := rfl

@[simp] theorem payloads_record (payload : List UInt8) (rest : List Slot) :
    payloads (.record payload :: rest) = payload :: payloads rest := rfl

@[simp] theorem payloads_padding (rest : List Slot) :
    payloads (.padding :: rest) = payloads rest := rfl

@[simp] theorem payloads_append (first second : List Slot) :
    payloads (first ++ second) = payloads first ++ payloads second := by
  simp [payloads]

/-- Every padding has its record right behind it: the two are published together. -/
def Closed : List Slot → Prop
  | [] => True
  | .record _ :: rest => Closed rest
  | .padding :: rest => (∃ payload more, rest = .record payload :: more) ∧ Closed rest

theorem closed_append {first second : List Slot} (left : Closed first) (right : Closed second) :
    Closed (first ++ second) := by
  induction first with
  | nil => exact right
  | cons slot rest ih =>
      cases slot with
      | record payload => exact ih left
      | padding =>
          obtain ⟨⟨payload, more, follows⟩, remaining⟩ := left
          exact ⟨⟨payload, more ++ second, by rw [follows]; rfl⟩, ih remaining⟩

theorem closed_tail {slot : Slot} {rest : List Slot} (closed : Closed (slot :: rest)) :
    Closed rest := by
  cases slot with
  | record payload => exact closed
  | padding => exact closed.2

@[simp] theorem frame_bytes_length (payload : List UInt8) :
    (frameBytes payload).length = 4 + payload.length := by
  simp [frameBytes]

theorem slot_end_gt {size : Nat} (position : Nat) (slot : Slot) (positive : 0 < size) :
    position < slotEnd size position slot := by
  cases slot with
  | record payload =>
      simp only [slotEnd]
      omega
  | padding =>
      have remainder := Nat.mod_lt position positive
      simp only [slotEnd, boundary_eq]
      omega

theorem parses_le {size position limit : Nat} {data : Memory} {slots : List Slot}
    (positive : 0 < size) (parsed : Parses size data position slots limit) :
    position ≤ limit := by
  induction slots generalizing position with
  | nil => exact Nat.le_of_eq parsed
  | cons slot rest ih =>
      have advanced := slot_end_gt position slot positive
      have remaining := ih parsed.2
      omega

theorem parses_nonempty {size position limit : Nat} {data : Memory} {slots : List Slot}
    (parsed : Parses size data position slots limit) (different : position ≠ limit) :
    ∃ slot rest, slots = slot :: rest := by
  cases slots with
  | nil => exact absurd parsed different
  | cons slot rest => exact ⟨slot, rest, rfl⟩

def spanEnd (size : Nat) : Nat → List Slot → Nat
  | position, [] => position
  | position, slot :: rest => spanEnd size (slotEnd size position slot) rest

theorem parses_span {size position limit : Nat} {data : Memory} {slots : List Slot}
    (parsed : Parses size data position slots limit) : spanEnd size position slots = limit := by
  induction slots generalizing position with
  | nil => exact parsed
  | cons slot rest ih => exact ih parsed.2

theorem span_end_ge {size : Nat} (position : Nat) (slots : List Slot) (positive : 0 < size) :
    position ≤ spanEnd size position slots := by
  induction slots generalizing position with
  | nil => exact Nat.le_refl _
  | cons slot rest ih =>
      have advanced := slot_end_gt position slot positive
      have remaining := ih (slotEnd size position slot)
      simp only [spanEnd]
      omega

theorem span_end_append (size position : Nat) (first second : List Slot) :
    spanEnd size position (first ++ second) =
      spanEnd size (spanEnd size position first) second := by
  induction first generalizing position with
  | nil => rfl
  | cons slot rest ih => exact ih _

theorem parses_append {size position middle limit : Nat} {data : Memory}
    {first second : List Slot} (before : Parses size data position first middle)
    (after : Parses size data middle second limit) :
    Parses size data position (first ++ second) limit := by
  induction first generalizing position with
  | nil =>
      have same : position = middle := before
      simpa [same] using after
  | cons slot rest ih => exact ⟨before.1, ih before.2⟩

/-- The store hits a cell of the positions `[lower, upper)`, or writes zero to
the scratch bytes beyond the buffer. -/
def StoreWithin (size lower upper : Nat) (write : Store) : Prop :=
  (∃ position, lower ≤ position ∧ position < upper ∧ write.1 = position % size) ∨
    (size ≤ write.1 ∧ write.2 = 0)

theorem slot_stored_after_store {size position lower upper : Nat} {data : Memory}
    {slot : Slot} {write : Store} (positive : 0 < size)
    (stored : SlotStored size data position slot)
    (before : slotEnd size position slot ≤ lower) (near : upper ≤ position + size)
    (within : StoreWithin size lower upper write) :
    SlotStored size (store data write) position slot := by
  refine ⟨stored.1, ?_⟩
  have remainder := Nat.mod_lt position positive
  -- Every byte of the slot is a cell of its own positions or a zero scratch byte.
  have unchanged : ∀ offset, offset < slot.bytes.length →
      store data write (position % size + offset) = data (position % size + offset) := by
    intro offset bound
    by_cases inside : position % size + offset < size
    · apply store_other
      intro same
      rcases within with ⟨other, above, below, cell⟩ | ⟨beyond, _⟩
      · have own : (position + offset) % size = position % size + offset :=
          mod_add_of_fits inside
        have ahead : position + offset < other := by
          cases slot with
          | record payload =>
              simp only [Slot.bytes, frame_bytes_length] at bound
              simp only [slotEnd] at before
              omega
          | padding =>
              simp only [slotEnd, boundary_eq] at before
              omega
        have apart := mod_ne_of_near ahead (show other < position + offset + size by omega)
        exact apart (by rw [own, same, cell])
      · omega
    · by_cases same : position % size + offset = write.1
      · cases slot with
        | record payload =>
            have fits := stored.1.2.2
            simp only [Slot.bytes, frame_bytes_length] at bound
            omega
        | padding =>
            have zero : data (position % size + offset) = 0 := by
              have read := congrArg (fun bytes => bytes[offset]?) stored.2
              simp only [read_bytes_get bound] at read
              simp only [Slot.bytes, le_bytes_length] at bound
              have cases : offset = 0 ∨ offset = 1 ∨ offset = 2 ∨ offset = 3 := by omega
              rcases cases with rfl | rfl | rfl | rfl <;>
                simpa [Slot.bytes, leBytes, wrapSentinelLen] using read
            rcases within with ⟨other, _, _, cell⟩ | ⟨_, value⟩
            · have cellBound := Nat.mod_lt other positive
              omega
            · rw [zero, same, store_same, value]
      · exact store_other same
  rw [read_bytes_congr unchanged]
  exact stored.2

/-- The frame lemma: stores into positions at or after `lower` keep what is
parsed up to `lower`, as long as they stay within one buffer of its start. -/
theorem parses_after_store {size position limit lower upper : Nat} {data : Memory}
    {slots : List Slot} {write : Store} (positive : 0 < size)
    (parsed : Parses size data position slots limit) (before : limit ≤ lower)
    (near : upper ≤ position + size) (within : StoreWithin size lower upper write) :
    Parses size (store data write) position slots limit := by
  induction slots generalizing position with
  | nil => exact parsed
  | cons slot rest ih =>
      have remaining := parses_le positive parsed.2
      have advanced := slot_end_gt position slot positive
      exact ⟨slot_stored_after_store positive parsed.1 (by omega) near within,
        ih parsed.2 (by omega)⟩

theorem take_stored {size position offset : Nat} {data : Memory} {slot : Slot}
    (stored : SlotStored size data position slot) (bound : offset < slot.bytes.length) :
    slot.bytes.take offset ++ [data (position % size + offset)] =
      slot.bytes.take (offset + 1) := by
  have byte : slot.bytes[offset]? = some (data (position % size + offset)) := by
    rw [← stored.2]
    exact read_bytes_get (by simpa using bound)
  rw [List.take_add_one, byte]
  rfl

theorem slot_header_length (slot : Slot) : 4 ≤ slot.bytes.length := by
  cases slot with
  | record payload => simp [Slot.bytes]
  | padding => simp [Slot.bytes]

/-- The length word: zero for padding, the payload length for a record. -/
def Slot.lengthWord : Slot → Nat
  | .record payload => payload.length
  | .padding => wrapSentinelLen

theorem header_value {size position : Nat} {slot : Slot} (fits : SlotFits size position slot) :
    leValue (slot.bytes.take 4) = slot.lengthWord := by
  cases slot with
  | record payload =>
      have word : (frameBytes payload).take 4 = leBytes 4 payload.length := by
        simp [frameBytes]
      simp only [Slot.bytes, Slot.lengthWord, word]
      exact le_value_bytes_of_lt 4 _ (by have short := fits.2.1; norm_num; omega)
  | padding => rfl

theorem take_payload {payload : List UInt8} {offset : Nat} {byte : UInt8}
    (next : (frameBytes payload).take (4 + offset) ++ [byte] =
      (frameBytes payload).take (4 + (offset + 1))) :
    payload.take offset ++ [byte] = payload.take (offset + 1) := by
  have split : ∀ count, (frameBytes payload).take (4 + count) =
      leBytes 4 payload.length ++ payload.take count := by
    intro count
    simp [frameBytes, List.take_append, List.take_of_length_le]
  rw [split, split, List.append_assoc] at next
  exact List.append_cancel_left next

end AdaptIpc.Ring
