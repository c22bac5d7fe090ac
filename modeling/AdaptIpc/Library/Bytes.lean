import Mathlib.Logic.Function.Basic
import Mathlib.Tactic.Ring

/-!
# Byte memory and little-endian words

Memory is a total map from addresses to bytes; a block copy is the list of its
single-byte stores, so a copy can be interleaved with anything. The word codec
is little-endian at a fixed width.
-/

namespace AdaptIpc.Library.Bytes

set_option autoImplicit false

abbrev Memory := Nat → UInt8

abbrev Store := Nat × UInt8

def store (memory : Memory) (write : Store) : Memory :=
  Function.update memory write.1 write.2

def applyStores (memory : Memory) (writes : List Store) : Memory :=
  writes.foldl store memory

/-- The stores of one block copy to `address`, in ascending order. -/
def blockStores (address : Nat) : List UInt8 → List Store
  | [] => []
  | byte :: rest => (address, byte) :: blockStores (address + 1) rest

def readBytes (memory : Memory) (address : Nat) : Nat → List UInt8
  | 0 => []
  | count + 1 => memory address :: readBytes memory (address + 1) count

def leBytes : Nat → Nat → List UInt8
  | 0, _ => []
  | width + 1, value => UInt8.ofNat value :: leBytes width (value / 256)

def leValue : List UInt8 → Nat
  | [] => 0
  | byte :: rest => byte.toNat + 256 * leValue rest

@[simp] theorem le_bytes_length (width value : Nat) : (leBytes width value).length = width := by
  induction width generalizing value with
  | zero => rfl
  | succ width ih => simp [leBytes, ih]

theorem le_value_bytes (width value : Nat) :
    leValue (leBytes width value) = value % 256 ^ width := by
  induction width generalizing value with
  | zero => simp [leBytes, leValue, Nat.mod_one]
  | succ width ih =>
      have low : (UInt8.ofNat value).toNat = value % 256 := by simp
      simp only [leBytes, leValue, ih, low]
      rw [Nat.pow_succ, Nat.mul_comm (256 ^ width) 256, Nat.mod_mul]

theorem le_value_bytes_of_lt (width value : Nat) (bound : value < 256 ^ width) :
    leValue (leBytes width value) = value := by
  rw [le_value_bytes, Nat.mod_eq_of_lt bound]

@[simp] theorem read_bytes_length (memory : Memory) (address count : Nat) :
    (readBytes memory address count).length = count := by
  induction count generalizing address with
  | zero => rfl
  | succ count ih => simp [readBytes, ih]

theorem read_bytes_add (memory : Memory) (address first second : Nat) :
    readBytes memory address (first + second) =
      readBytes memory address first ++ readBytes memory (address + first) second := by
  induction first generalizing address with
  | zero => simp [readBytes]
  | succ first ih =>
      rw [show first + 1 + second = first + second + 1 by omega]
      simp only [readBytes, List.cons_append, ih]
      rw [show address + 1 + first = address + (first + 1) by omega]

theorem read_bytes_congr {left right : Memory} {address count : Nat}
    (same : ∀ offset, offset < count → left (address + offset) = right (address + offset)) :
    readBytes left address count = readBytes right address count := by
  induction count generalizing address with
  | zero => rfl
  | succ count ih =>
      have head := same 0 (by omega)
      simp only [Nat.add_zero] at head
      simp only [readBytes, head]
      refine congrArg _ (ih ?_)
      intro offset bound
      have later := same (offset + 1) (by omega)
      rwa [show address + (offset + 1) = address + 1 + offset by omega] at later

theorem read_bytes_get {memory : Memory} {address count offset : Nat} (bound : offset < count) :
    (readBytes memory address count)[offset]? = some (memory (address + offset)) := by
  induction count generalizing address offset with
  | zero => omega
  | succ count ih =>
      cases offset with
      | zero => simp [readBytes]
      | succ offset =>
          simp only [readBytes, List.getElem?_cons_succ]
          rw [ih (by omega), show address + 1 + offset = address + (offset + 1) by omega]

theorem store_other {memory : Memory} {write : Store} {address : Nat}
    (different : address ≠ write.1) : store memory write address = memory address := by
  simp [store, Function.update_of_ne different]

theorem store_same (memory : Memory) (write : Store) : store memory write write.1 = write.2 := by
  simp [store]

theorem apply_stores_cons (memory : Memory) (write : Store) (rest : List Store) :
    applyStores memory (write :: rest) = applyStores (store memory write) rest := rfl

theorem apply_stores_append (memory : Memory) (first second : List Store) :
    applyStores memory (first ++ second) = applyStores (applyStores memory first) second := by
  simp [applyStores, List.foldl_append]

theorem apply_stores_other {memory : Memory} {writes : List Store} {address : Nat}
    (untouched : ∀ write ∈ writes, write.1 ≠ address) :
    applyStores memory writes address = memory address := by
  induction writes generalizing memory with
  | nil => rfl
  | cons write rest ih =>
      rw [apply_stores_cons, ih (fun later member => untouched later (by simp [member])),
        store_other (untouched write (by simp)).symm]

theorem mem_block_stores {address : Nat} {bytes : List UInt8} {write : Store}
    (member : write ∈ blockStores address bytes) :
    ∃ offset, offset < bytes.length ∧ write.1 = address + offset ∧
      bytes[offset]? = some write.2 := by
  induction bytes generalizing address with
  | nil => simp [blockStores] at member
  | cons byte rest ih =>
      simp only [blockStores, List.mem_cons] at member
      rcases member with rfl | later
      · exact ⟨0, by simp, rfl, rfl⟩
      · obtain ⟨offset, bound, position, content⟩ := ih later
        exact ⟨offset + 1, by simp [bound], by omega, by simpa using content⟩

theorem block_stores_length (address : Nat) (bytes : List UInt8) :
    (blockStores address bytes).length = bytes.length := by
  induction bytes generalizing address with
  | nil => rfl
  | cons byte rest ih => simp [blockStores, ih]

theorem block_stores_append (address : Nat) (first second : List UInt8) :
    blockStores address (first ++ second) =
      blockStores address first ++ blockStores (address + first.length) second := by
  induction first generalizing address with
  | nil => simp [blockStores]
  | cons byte rest ih =>
      simp only [List.cons_append, blockStores, ih, List.length_cons]
      rw [show address + 1 + rest.length = address + (rest.length + 1) by omega]

theorem read_block_stores (memory : Memory) (address : Nat) (bytes : List UInt8) :
    readBytes (applyStores memory (blockStores address bytes)) address bytes.length = bytes := by
  induction bytes generalizing memory address with
  | nil => rfl
  | cons byte rest ih =>
      simp only [blockStores, apply_stores_cons, List.length_cons, readBytes]
      rw [ih, apply_stores_other, store_same]
      intro write member
      obtain ⟨offset, _, position, _⟩ := mem_block_stores member
      omega

end AdaptIpc.Library.Bytes
