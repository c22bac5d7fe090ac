import AdaptIpc.Endpoint.Dwell

/-!
# The flip time after a regime change

Against messages of one size above the high threshold the distance of the
smoothed size to that size decays geometrically, so the route flips to SHM at
the first message at which the distance has come down to that of the threshold,
and stays there.
-/

namespace AdaptIpc.Endpoint

open AdaptIpc.Ring AdaptIpc.Policy AdaptIpc.Library.Transition AdaptIpc.Library.Smoothing

set_option autoImplicit false

/-- After `count` messages of the size the distance is still larger than that of the
threshold. -/
def Approaching (alpha ewmaSize : ℚ) (size : UInt64) (count : ℕ) : Prop :=
  size.toNat - adaptTauHigh < (1 - alpha) ^ count * (size.toNat - ewmaSize)

instance (alpha ewmaSize : ℚ) (size : UInt64) (count : ℕ) :
    Decidable (Approaching alpha ewmaSize size count) :=
  inferInstanceAs (Decidable (_ < _))

/-- The route decided for message `count`; at 0, the one before the stream. -/
def approachRoute (alpha ewmaSize : ℚ) (size : UInt64) (count : ℕ) : AdaptRoute :=
  if Approaching alpha ewmaSize size count then .uds else .shm

section Approach

variable {alpha ewmaSize : ℚ} {size : UInt64}

theorem approach_step (alpha ewmaSize : ℚ) (size : UInt64) (count : ℕ) :
    Approaching alpha (ewmaUpdate ewmaSize alpha size) size count ↔
      Approaching alpha ewmaSize size (count + 1) := by
  have closer : (size.toNat : ℚ) - ewmaUpdate ewmaSize alpha size =
      (1 - alpha) * (size.toNat - ewmaSize) := by
    simp only [ewmaUpdate]
    ring
  rw [Approaching, Approaching, closer, pow_succ, mul_assoc]

theorem approaching_now (alpha ewmaSize : ℚ) (size : UInt64) :
    Approaching alpha ewmaSize size 0 ↔ ewmaSize < adaptTauHigh := by
  rw [Approaching, pow_zero, one_mul]
  constructor <;> intro near <;> linarith

theorem arrived_stays (positive : 0 < alpha) (proper : alpha < 1)
    (large : adaptTauHigh < size.toNat) {count more : ℕ} (later : count ≤ more)
    (arrived : ¬Approaching alpha ewmaSize size count) :
    ¬Approaching alpha ewmaSize size more := by
  induction more, later using Nat.le_induction with
  | base => exact arrived
  | succ more later ih =>
      have close := not_lt.mp ih
      have keeps : 0 ≤ 1 - alpha := (sub_pos.mpr proper).le
      have room : 0 ≤ (size.toNat : ℚ) - adaptTauHigh := (sub_pos.mpr large).le
      apply not_lt.mpr
      rw [pow_succ', mul_assoc]
      calc (1 - alpha) * ((1 - alpha) ^ more * (size.toNat - ewmaSize))
          ≤ (1 - alpha) * (size.toNat - adaptTauHigh) := mul_le_mul_of_nonneg_left close keeps
        _ ≤ 1 * (size.toNat - adaptTauHigh) :=
            mul_le_mul_of_nonneg_right (sub_le_self 1 positive.le) room
        _ = size.toNat - adaptTauHigh := one_mul _

theorem first_approach (positive : 0 < alpha) (proper : alpha < 1)
    (large : adaptTauHigh < size.toNat) {last : AdaptRoute}
    (settled : last = .shm → adaptTauHigh ≤ ewmaSize) :
    sizeHysteresisRoute (ewmaUpdate ewmaSize alpha size) last =
      approachRoute alpha ewmaSize size 1 := by
  have near := (approach_step alpha ewmaSize size 0).symm.trans
    (approaching_now alpha (ewmaUpdate ewmaSize alpha size) size)
  simp only [approachRoute, near, sizeHysteresisRoute]
  by_cases high : adaptTauHigh ≤ ewmaUpdate ewmaSize alpha size
  · rw [if_pos high, if_neg (not_lt.mpr high)]
  · have other : last ≠ .shm := by
      intro shm
      exact high (le_smooth positive.le proper.le large.le (settled shm))
    rw [if_neg high, if_pos (not_le.mp high), if_neg other]
    split <;> rfl

theorem approach_route_settled {count : ℕ}
    (shm : approachRoute alpha ewmaSize size (count + 1) = .shm) :
    ¬Approaching alpha (ewmaUpdate ewmaSize alpha size) size count := by
  rw [approach_step]
  intro near
  rw [approachRoute, if_pos near] at shm
  cases shm

theorem constant_routes (positive : 0 < alpha) (proper : alpha < 1)
    (large : adaptTauHigh < size.toNat) (count : ℕ) :
    ∀ (ewmaSize : ℚ) (last : AdaptRoute), (last = .shm → adaptTauHigh ≤ ewmaSize) →
      hysteresisRoutes alpha ewmaSize last (List.replicate count size) =
        (List.range count).map fun k => approachRoute alpha ewmaSize size (k + 1) := by
  induction count with
  | zero => exact fun _ _ _ => rfl
  | succ count ih =>
      intro ewmaSize last settled
      have route := first_approach positive proper large settled
      have next : approachRoute alpha ewmaSize size 1 = .shm →
          adaptTauHigh ≤ ewmaUpdate ewmaSize alpha size := by
        intro shm
        have arrived := approach_route_settled shm
        rw [approaching_now] at arrived
        exact not_lt.mp arrived
      have shift : ∀ k, approachRoute alpha (ewmaUpdate ewmaSize alpha size) size (k + 1) =
          approachRoute alpha ewmaSize size (k + 1 + 1) := by
        intro k
        simp only [approachRoute, approach_step]
      simp only [List.replicate_succ, hysteresisRoutes, route, ih _ _ next,
        List.range_succ_eq_map, List.map_cons, List.map_map, Nat.zero_add]
      congr 1
      apply List.map_congr_left
      intro k _
      exact shift k

theorem flip_exists (positive : 0 < alpha) (proper : alpha < 1)
    (large : adaptTauHigh < size.toNat) :
    ∃ count, IsLeast {count : ℕ | 1 ≤ count ∧ ¬Approaching alpha ewmaSize size count} count := by
  classical
  have room : 0 < (size.toNat : ℚ) - adaptTauHigh := sub_pos.mpr large
  obtain ⟨count, small⟩ := excess_contracts (size.toNat - ewmaSize) proper positive room
  have arrived : ¬Approaching alpha ewmaSize size (count + 1) :=
    arrived_stays positive proper large (Nat.le_succ count) (not_lt.mpr small.le)
  have some : ∃ count, 1 ≤ count ∧ ¬Approaching alpha ewmaSize size count :=
    ⟨count + 1, Nat.succ_pos count, arrived⟩
  exact ⟨Nat.find some, Nat.find_spec some, fun count early => Nat.find_min' some early⟩

theorem flip_once (positive : 0 < alpha) (proper : alpha < 1) (large : adaptTauHigh < size.toNat)
    (below : ewmaSize < adaptTauHigh) {flip : ℕ}
    (least : IsLeast {count : ℕ | 1 ≤ count ∧ ¬Approaching alpha ewmaSize size count} flip)
    (count : ℕ) :
    approachRoute alpha ewmaSize size count ≠ approachRoute alpha ewmaSize size (count + 1) ↔
      count + 1 = flip := by
  have early : ∀ k, k < flip → Approaching alpha ewmaSize size k := by
    intro k before
    rcases Nat.eq_zero_or_pos k with zero | some
    · rw [zero, approaching_now]
      exact below
    · by_contra arrived
      exact absurd (least.2 ⟨some, arrived⟩) (not_le.mpr before)
  have late : ∀ k, flip ≤ k → ¬Approaching alpha ewmaSize size k := fun k after =>
    arrived_stays positive proper large after least.1.2
  rcases Nat.lt_trichotomy (count + 1) flip with before | same | after
  · have now := early count (Nat.lt_of_succ_lt before)
    simp only [approachRoute, now, early _ before, if_true, ne_eq, not_true, false_iff]
    exact before.ne
  · have now := early count (by omega)
    have arrived := late (count + 1) same.ge
    simp only [approachRoute, now, arrived, if_true, if_false]
    exact iff_of_true (by decide) same
  · have now := late count (by omega)
    simp only [approachRoute, now, late _ after.le, if_false, ne_eq, not_true, false_iff]
    exact after.ne'

end Approach

/-- The routes decided for messages of one size: UDS while the distance is too large, SHM
from the flip on, which is the only switch. -/
structure FlipsOnce (alpha ewmaSize : ℚ) (size : UInt64) (last : AdaptRoute)
    (routes : List AdaptRoute) : Prop where
  decided : ∀ count, 1 ≤ count → count ≤ routes.length →
    routes[count - 1]? = some (if size.toNat - adaptTauHigh < (1 - alpha) ^ count *
      (size.toNat - ewmaSize) then .uds else .shm)
  flip : ∃ flip, IsLeast {count : ℕ | 1 ≤ count ∧
      (1 - alpha) ^ count * (size.toNat - ewmaSize) ≤ size.toNat - adaptTauHigh} flip ∧
    ∀ count, count < routes.length →
      ((last :: routes)[count]? ≠ (last :: routes)[count + 1]? ↔ count + 1 = flip)

theorem routes_flip_once {alpha ewmaSize : ℚ} {size : UInt64} (positive : 0 < alpha)
    (proper : alpha < 1) (large : adaptTauHigh < size.toNat) (below : ewmaSize < adaptTauHigh)
    (count : ℕ) :
    FlipsOnce alpha ewmaSize size .uds
      (hysteresisRoutes alpha ewmaSize .uds (List.replicate count size)) := by
  have start : approachRoute alpha ewmaSize size 0 = .uds :=
    if_pos ((approaching_now alpha ewmaSize size).mpr below)
  rw [constant_routes positive proper large count ewmaSize .uds (fun other => by cases other)]
  have length : ((List.range count).map fun k =>
      approachRoute alpha ewmaSize size (k + 1)).length = count := by
    rw [List.length_map, List.length_range]
  have message : ∀ k, k < count → ((List.range count).map fun k =>
      approachRoute alpha ewmaSize size (k + 1))[k]? =
        some (approachRoute alpha ewmaSize size (k + 1)) := by
    intro k inside
    rw [List.getElem?_map, List.getElem?_range inside]
    rfl
  constructor
  · intro k some inside
    rw [length] at inside
    rw [message (k - 1) (by omega), Nat.sub_add_cancel some]
    rfl
  · obtain ⟨flip, least⟩ := @flip_exists alpha ewmaSize size positive proper large
    refine ⟨flip, ?_, ?_⟩
    · have same : {k : ℕ | 1 ≤ k ∧ ¬Approaching alpha ewmaSize size k} =
          {k : ℕ | 1 ≤ k ∧ (1 - alpha) ^ k * (size.toNat - ewmaSize) ≤
            size.toNat - adaptTauHigh} := by
        ext k
        exact and_congr_right fun _ => not_lt
      rw [← same]
      exact least
    · intro k inside
      rw [length] at inside
      have here : (AdaptRoute.uds :: (List.range count).map fun k =>
          approachRoute alpha ewmaSize size (k + 1))[k]? =
            some (approachRoute alpha ewmaSize size k) := by
        cases k with
        | zero => rw [List.getElem?_cons_zero, start]
        | succ k =>
            rw [List.getElem?_cons_succ]
            exact message k (Nat.lt_of_succ_lt inside)
      rw [here, List.getElem?_cons_succ, message k inside, ne_eq, Option.some.injEq]
      exact flip_once positive proper large below least k

/-- From a producer on UDS below the high threshold, between two calls: whatever happens to
the messages of one larger size, the route flips once, at the message of the bound. -/
theorem flip_time {start final : Sender} {rc : Option Status} {size : UInt64}
    (idle : start.pc = .idle rc) (policy : start.ctx.policy = .sizeHysteresis)
    (positive : 0 < start.ctx.alpha) (proper : start.ctx.alpha < 1)
    (route : start.ctx.lastRoute = .uds) (below : start.ctx.ewmaSize < adaptTauHigh)
    (large : adaptTauHigh < size.toNat)
    (path : Relation.ReflTransGen (SizedStep (· = size)) start final) :
    ∃ news, final.messages = start.messages ++ news ∧ (∀ message ∈ news, message.1 = size) ∧
      FlipsOnce start.ctx.alpha start.ctx.ewmaSize size .uds (news.map Prod.snd) := by
  have awaiting : Awaiting (· = size) start := decided_awaits (by rw [idle]; rfl)
  obtain ⟨news, classified⟩ := run_classifies path policy awaiting
  have same : news.map Prod.fst = List.replicate news.length size := by
    apply List.eq_replicate_iff.mpr
    refine ⟨List.length_map _, ?_⟩
    intro other member
    obtain ⟨message, sent, rfl⟩ := List.mem_map.mp member
    exact classified.sizes message sent
  refine ⟨news, classified.messages, classified.sizes, ?_⟩
  rw [classified.routes, same, route]
  exact routes_flip_once positive proper large below news.length

def smallSender : Sender :=
  startSender { plainContext 4096 with
    policy := .sizeHysteresis, alpha := 1 / 5, lastRoute := .uds } pageRing

def refusedTooLarge : List SendAction :=
  List.replicate 9 (.call quietEnv (some (List.replicate 5000 0)))

theorem refused_too_large_sizes : ∀ action ∈ refusedTooLarge, admits (· = 5000) action := by
  intro action member
  rw [List.eq_of_mem_replicate member]
  simp only [admits, List.length_replicate]
  rfl

/-- Seven messages are decided for UDS; the eighth flips the route. -/
theorem flip_time_eighth_message :
    ∃ (final : Sender) (news : List (UInt64 × AdaptRoute)),
      (sendMachine (plainConfig 4096) plainEnv).run smallSender refusedTooLarge = some final ∧
      news.map Prod.snd = [.uds, .uds, .uds, .uds, .uds, .uds, .uds, .shm, .shm] ∧
      IsLeast {count : ℕ | 1 ≤ count ∧
        (1 - 1 / 5 : ℚ) ^ count * ((5000 : UInt64).toNat - 0) ≤
          (5000 : UInt64).toNat - adaptTauHigh} 8 := by
  have ran : ((sendMachine (plainConfig 4096) plainEnv).run smallSender refusedTooLarge).map
      (fun final => final.messages.map Prod.snd) =
        some [.uds, .uds, .uds, .uds, .uds, .uds, .uds, .shm, .shm] := by decide +kernel
  obtain ⟨final, run, routes⟩ := Option.map_eq_some_iff.mp ran
  obtain ⟨news, seen, _, law⟩ := @flip_time smallSender final none 5000 rfl rfl
    (by decide +kernel) (by decide +kernel) rfl (by decide +kernel) (by decide +kernel)
    (sized_run refused_too_large_sizes run)
  have first : smallSender.messages = [] := rfl
  rw [first, List.nil_append] at seen
  rw [seen] at routes
  obtain ⟨flip, least, switches⟩ := law.flip
  rw [routes] at switches
  have eighth : 7 + 1 = flip := (switches 7 (by decide)).mp (by decide)
  rw [← eighth] at least
  exact ⟨final, news, run, routes, least⟩

end AdaptIpc.Endpoint
