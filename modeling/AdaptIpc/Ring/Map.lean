import AdaptIpc.Ring.Placement

/-!
# Mapping a ring

`round_pow2` and the part of `ring_map` before the header is written. The
results of the system calls are parameters; what the code decides from them is
modelled: the checked name, the rounded capacity and the size of the mapping.
A capacity above 2^63 has no power of two to be rounded to, and the loop shifts
its bit out and never ends.
-/

namespace AdaptIpc.Ring

open AdaptIpc.Library.Cursor

set_option autoImplicit false

/-- The rounds of `while (p < v) p <<= 1`; none when the fuel is used up. -/
def roundPow2Loop : Nat → UInt64 → UInt64 → Option UInt64
  | 0, _, _ => none
  | fuel + 1, p, v => if p < v then roundPow2Loop fuel (p <<< 1) v else some p

/-- Whoever returns does so within 64 rounds, see `round_pow2_spec` and
`round_pow2_diverges`. -/
def roundPow2 (v : UInt64) : Option UInt64 := roundPow2Loop 64 4096 v

theorem shift_power (log : Nat) : cursor (2 ^ log) <<< 1 = cursor (2 ^ (log + 1)) := by
  have one : (1 : UInt64).toNat % 64 = 1 := rfl
  apply UInt64.toNat.inj
  simp only [UInt64.toNat_shiftLeft, one, cursor, UInt64.toNat_ofNat', Nat.shiftLeft_eq, pow_one,
    Nat.pow_succ]
  exact Nat.mod_mul_mod _ _ _

theorem round_loop_power {log fuel : Nat} {v : UInt64} (word : log ≤ 63)
    (enough : 64 ≤ log + fuel) (small : v.toNat ≤ 2 ^ 63) :
    ∃ reached, log ≤ reached ∧ reached ≤ 63 ∧
      roundPow2Loop fuel (cursor (2 ^ log)) v = some (cursor (2 ^ reached)) ∧
      v.toNat ≤ 2 ^ reached ∧ (reached = log ∨ 2 ^ reached < 2 * v.toNat) := by
  induction fuel generalizing log with
  | zero => omega
  | succ fuel ih =>
      have below := pow_lt_word log word
      have word64 := cursor_toNat (2 ^ log) below
      by_cases more : cursor (2 ^ log) < v
      · have larger : 2 ^ log < v.toNat := by
          rw [UInt64.lt_iff_toNat_lt, word64] at more
          exact more
        have room : log < 63 := by
          by_contra last
          have same : log = 63 := by omega
          rw [same] at larger
          omega
        obtain ⟨reached, above, bound, result, covers, tight⟩ :=
          @ih (log + 1) (by omega) (by omega)
        refine ⟨reached, by omega, bound, ?_, covers, Or.inr ?_⟩
        · simp only [roundPow2Loop, more, if_true, shift_power]
          exact result
        · rcases tight with same | close
          · rw [same, Nat.pow_succ]
            omega
          · exact close
      · have covers : v.toNat ≤ 2 ^ log := by
          rw [UInt64.lt_iff_toNat_lt, word64] at more
          omega
        exact ⟨log, Nat.le_refl _, word, by simp only [roundPow2Loop, more, if_false], covers,
          Or.inl rfl⟩

theorem page_size : (4096 : UInt64) = cursor (2 ^ 12) := rfl

theorem round_pow2_spec {v : UInt64} (small : v.toNat ≤ 2 ^ 63) :
    ∃ capacity : RingCapacity, roundPow2 v = some capacity.size ∧ v.toNat ≤ capacity.bytes ∧
      (capacity.bytes = 4096 ∨ capacity.bytes < 2 * v.toNat) := by
  obtain ⟨log, page, word, result, covers, tight⟩ :=
    @round_loop_power 12 64 v (by decide) (by decide) small
  refine ⟨⟨log, page, word⟩, ?_, covers, ?_⟩
  · rw [roundPow2, page_size, result]
    rfl
  · rcases tight with same | close
    · left
      simp only [RingCapacity.bytes, same]
      rfl
    · exact Or.inr close

theorem round_loop_diverges {v : UInt64} (large : 2 ^ 63 < v.toNat) (fuel log : Nat) :
    roundPow2Loop fuel (cursor (2 ^ log)) v = none := by
  induction fuel generalizing log with
  | zero => rfl
  | succ fuel ih =>
      have more : cursor (2 ^ log) < v := by
        rw [UInt64.lt_iff_toNat_lt]
        by_cases word : log ≤ 63
        · have bound : 2 ^ log ≤ 2 ^ 63 := Nat.pow_le_pow_right (by decide) word
          rw [cursor_toNat _ (pow_lt_word log word)]
          omega
        · have lost : 2 ^ log % 2 ^ 64 = 0 :=
            Nat.mod_eq_zero_of_dvd (pow_dvd_pow 2 (by omega))
          simp only [cursor, UInt64.toNat_ofNat', lost]
          omega
      simp only [roundPow2Loop, more, if_true, shift_power]
      exact ih (log + 1)

theorem round_pow2_diverges {v : UInt64} (large : 2 ^ 63 < v.toNat) (fuel : Nat) :
    roundPow2Loop fuel 4096 v = none :=
  round_loop_diverges large fuel 12

theorem size_injective {left right : RingCapacity} (same : left.size = right.size) :
    left = right := by
  have bytes : left.bytes = right.bytes := by
    rw [← left.size_toNat, ← right.size_toNat, same]
  have log : left.log = right.log := Nat.pow_right_injective (Nat.le_refl 2) bytes
  cases left
  cases right
  cases log
  rfl

def RingCapacity.ofSize (size : UInt64) : RingCapacity where
  log := max 12 (min 63 (Nat.log2 size.toNat))
  page := Nat.le_max_left _ _
  word := by omega

theorem of_size (capacity : RingCapacity) : RingCapacity.ofSize capacity.size = capacity := by
  have log : Nat.log2 capacity.size.toNat = capacity.log := by
    rw [capacity.size_toNat, RingCapacity.bytes, Nat.log2_two_pow]
  have page := capacity.page
  have word := capacity.word
  cases capacity
  simp only [RingCapacity.ofSize, log, RingCapacity.mk.injEq]
  omega

/-- What the system calls of one `ring_map` return. -/
structure MapEnv where
  shmOpen : Except Errno Unit
  fstatSize : Except Errno UInt64
  ftruncate : UInt64 → Except Errno Unit
  mmap : UInt64 → Except Errno Unit
  calloc : Bool

def shmRingHeaderSize : UInt64 := 48
def shmHdrPad : UInt64 := 128

/-- The system calls of `ring_map`: the object is only grown, never shrunk. -/
def mapObject (env : MapEnv) (cap : UInt64) : Except Errno UInt64 := do
  let mapSize := shmRingHeaderSize + shmHdrPad + cap
  env.shmOpen
  let size ← env.fstatSize
  let _ ← (if size < mapSize then env.ftruncate mapSize else .ok ())
  env.mmap mapSize
  if env.calloc then return cap else throw .enomem

/-- `ring_map` up to the header stores; the result is the capacity of the handle,
or none where `round_pow2` does not return. -/
def ringMap (env : MapEnv) (name : List UInt8) (capacity : UInt64) :
    Option (Except Errno UInt64) :=
  if name.head? ≠ some 47 then some (.error .einval)
  else match roundPow2 (if capacity = 0 then 65536 else capacity) with
    | none => none
    | some cap => some (mapObject env cap)

def MapEnv.succeeding : MapEnv where
  shmOpen := .ok ()
  fstatSize := .ok 0
  ftruncate _ := .ok ()
  mmap _ := .ok ()
  calloc := true

theorem bind_ok {α β : Type} {first : Except Errno α} {rest : α → Except Errno β} {result : β}
    (ran : first >>= rest = .ok result) : ∃ value, first = .ok value ∧ rest value = .ok result := by
  cases first with
  | error code => cases ran
  | ok value => exact ⟨value, rfl, ran⟩

theorem map_object_capacity {env : MapEnv} {cap mapped : UInt64}
    (succeeded : mapObject env cap = .ok mapped) : mapped = cap := by
  unfold mapObject at succeeded
  obtain ⟨_, _, opened⟩ := bind_ok succeeded
  obtain ⟨size, _, sized⟩ := bind_ok opened
  obtain ⟨_, _, grown⟩ := bind_ok sized
  obtain ⟨_, _, placed⟩ := bind_ok grown
  split at placed <;> cases placed
  rfl

theorem ring_map_capacity {env : MapEnv} {name : List UInt8} {request cap : UInt64}
    (mapped : ringMap env name request = some (.ok cap)) :
    roundPow2 (if request = 0 then 65536 else request) = some cap := by
  unfold ringMap at mapped
  split at mapped
  · cases mapped
  · split at mapped
    · cases mapped
    · next rounded result =>
      simp only [Option.some.injEq] at mapped
      rw [result, map_object_capacity mapped]

end AdaptIpc.Ring
