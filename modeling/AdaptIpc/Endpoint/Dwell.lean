import AdaptIpc.Endpoint.Stability
import Mathlib.Order.Bounds.Defs

/-!
# Minimum dwell on SHM

A route that has just changed to SHM has a smoothed size at the high threshold,
and messages of at least one byte let it decay no faster than geometrically, so
it takes some messages to fall to the low threshold. Between two changes to SHM
lies at least that dwell, whatever is sent, which bounds the switches among any
number of consecutive messages.
-/

namespace AdaptIpc.Endpoint

open AdaptIpc.Ring AdaptIpc.Policy AdaptIpc.Library.Transition AdaptIpc.Library.Smoothing

set_option autoImplicit false

/-- The routes that the hysteresis decides for the sizes, from a smoothed size and a
route. -/
def hysteresisRoutes (alpha : ℚ) : ℚ → AdaptRoute → List UInt64 → List AdaptRoute
  | _, _, [] => []
  | ewmaSize, last, size :: later =>
      let next := ewmaUpdate ewmaSize alpha size
      let route := sizeHysteresisRoute next last
      route :: hysteresisRoutes alpha next route later

theorem hysteresis_routes_length (alpha : ℚ) (sizes : List UInt64) :
    ∀ ewmaSize last, (hysteresisRoutes alpha ewmaSize last sizes).length = sizes.length := by
  induction sizes with
  | nil => exact fun _ _ => rfl
  | cons size later ih =>
      intro ewmaSize last
      simp only [hysteresisRoutes, List.length_cons, ih]

def SizedStep (admitted : UInt64 → Prop) (before after : Sender) : Prop :=
  ∃ action, admits admitted action ∧ sendStep before action = some after

theorem sized_run {admitted : UInt64 → Prop} {cfg : AdaptConfig} {env : InitEnv}
    {final : Sender} : ∀ {actions : List SendAction} {start : Sender},
    (∀ action ∈ actions, admits admitted action) →
      (sendMachine cfg env).run start actions = some final →
        Relation.ReflTransGen (SizedStep admitted) start final := by
  intro actions
  induction actions with
  | nil =>
      intro start _ ran
      cases ran
      exact .refl
  | cons action rest ih =>
      intro start sized ran
      simp only [Machine.run] at ran
      split at ran
      · next next stepped =>
        exact .head ⟨action, sized action (List.mem_cons_self ..), stepped⟩
          (ih (fun other member => sized other (List.mem_cons_of_mem _ member)) ran)
      · cases ran

/-- From `start` a producer has classified `news`, of admitted sizes, by the hysteresis. -/
structure Classifies (admitted : UInt64 → Prop) (start final : Sender)
    (news : List (UInt64 × AdaptRoute)) : Prop where
  messages : final.messages = start.messages ++ news
  sizes : ∀ message ∈ news, admitted message.1
  routes : news.map Prod.snd = hysteresisRoutes start.ctx.alpha start.ctx.ewmaSize
    start.ctx.lastRoute (news.map Prod.fst)

theorem run_classifies {admitted : UInt64 → Prop} {start final : Sender}
    (path : Relation.ReflTransGen (SizedStep admitted) start final)
    (policy : start.ctx.policy = .sizeHysteresis) (awaiting : Awaiting admitted start) :
    ∃ news, Classifies admitted start final news := by
  induction path using Relation.ReflTransGen.head_induction_on with
  | refl => exact ⟨[], (List.append_nil _).symm, by simp, rfl⟩
  | @head start next stepped rest ih =>
      obtain ⟨action, welcome, stepped⟩ := stepped
      have move := send_step_move stepped
      have config := move_config move
      obtain ⟨waits, routed⟩ := move_routed awaiting welcome move
      obtain ⟨news, later⟩ := ih (config.policy.trans policy) waits
      cases routed with
      | kept router messages =>
          refine ⟨news, later.messages.trans (by rw [messages]), later.sizes, ?_⟩
          rw [later.routes, config.alpha, router.ewmaSize, router.lastRoute]
      | classified ctx size now waitClock allowed settled asked router messages =>
          have decided : decidedRoute ctx size now waitClock = sizeHysteresisRoute
              (ewmaUpdate ctx.ewmaSize ctx.alpha size) ctx.lastRoute := by
            rw [decidedRoute, settled.policy, policy]
            rfl
          have route : next.ctx.lastRoute = sizeHysteresisRoute
              (ewmaUpdate start.ctx.ewmaSize start.ctx.alpha size) start.ctx.lastRoute := by
            rw [router.lastRoute, classify_route, decided, asked.ewmaSize, settled.alpha,
              asked.lastRoute]
          have ewma : next.ctx.ewmaSize = ewmaUpdate start.ctx.ewmaSize start.ctx.alpha size := by
            rw [router.ewmaSize, classify_ewma, asked.ewmaSize, settled.alpha]
          refine ⟨(size, next.ctx.lastRoute) :: news, ?_, ?_, ?_⟩
          · rw [later.messages, messages, List.append_assoc]
            rfl
          · intro message member
            rcases List.mem_cons.mp member with first | behind
            · rw [first]
              exact allowed
            · exact later.sizes message behind
          · simp only [List.map_cons, hysteresisRoutes, later.routes, config.alpha, ewma, route]

/-- The smoothed size is at least the high threshold after `age` decays. -/
def Aged (alpha : ℚ) (age : ℕ) (ewmaSize : ℚ) : Prop :=
  (1 - alpha) ^ age * adaptTauHigh ≤ ewmaSize

theorem high_low : adaptTauHigh = 4 * adaptTauLow := by decide +kernel

theorem low_positive : 0 < adaptTauLow := by decide +kernel

theorem enters_high {alpha ewmaSize : ℚ} {last : AdaptRoute} (other : last ≠ .shm)
    (route : sizeHysteresisRoute ewmaSize last = .shm) : Aged alpha 0 ewmaSize := by
  simp only [sizeHysteresisRoute, other, if_false] at route
  split at route
  · next high => simpa only [Aged, pow_zero, one_mul] using high
  · split at route <;> cases route

theorem leaves_low {ewmaSize : ℚ} (route : sizeHysteresisRoute ewmaSize .shm ≠ .shm) :
    ewmaSize ≤ adaptTauLow := by
  simp only [sizeHysteresisRoute, if_true] at route
  split at route
  · exact absurd rfl route
  · split at route
    · next low => exact low
    · exact absurd rfl route

theorem hysteresis_uds {ewmaSize : ℚ} {last : AdaptRoute}
    (other : sizeHysteresisRoute ewmaSize last ≠ .shm) :
    sizeHysteresisRoute ewmaSize last = .uds :=
  (size_hysteresis_route ewmaSize last).resolve_left other

section Dwell

variable {alpha ewmaSize : ℚ} {age : ℕ} {size : UInt64} {sizes : List UInt64} {last : AdaptRoute}

theorem aged_message (positive : 0 < alpha) (proper : alpha < 1) (sized : 1 ≤ size)
    (aged : Aged alpha age ewmaSize) :
    (1 - alpha) ^ (age + 1) * adaptTauHigh < ewmaUpdate ewmaSize alpha size := by
  have bytes : 0 < (size.toNat : ℚ) := Nat.cast_pos.mpr sized
  have keeps : 0 ≤ 1 - alpha := (sub_pos.mpr proper).le
  calc (1 - alpha) ^ (age + 1) * adaptTauHigh
      = (1 - alpha) * ((1 - alpha) ^ age * adaptTauHigh) := by rw [pow_succ', mul_assoc]
    _ ≤ (1 - alpha) * ewmaSize := mul_le_mul_of_nonneg_left aged keeps
    _ < ewmaUpdate ewmaSize alpha size := decay_lt_smooth positive bytes

theorem leaves_after (positive : 0 < alpha) (proper : alpha < 1) (sized : 1 ≤ size)
    (aged : Aged alpha age ewmaSize)
    (leaves : sizeHysteresisRoute (ewmaUpdate ewmaSize alpha size) .shm ≠ .shm) :
    4 * (1 - alpha) ^ (age + 1) < 1 := by
  have decayed := (aged_message positive proper sized aged).trans_le (leaves_low leaves)
  rw [high_low] at decayed
  have scaled : (4 * (1 - alpha) ^ (age + 1)) * adaptTauLow < 1 * adaptTauLow := by linarith
  exact lt_of_mul_lt_mul_right scaled low_positive.le

/-- From SHM at some age, the first UDS decision comes late enough. -/
theorem first_return (positive : 0 < alpha) (proper : alpha < 1) :
    ∀ (sizes : List UInt64) (ewmaSize : ℚ) (age later : ℕ), (∀ size ∈ sizes, 1 ≤ size) →
      Aged alpha age ewmaSize →
      (∀ k, k < later → (hysteresisRoutes alpha ewmaSize .shm sizes)[k]? = some .shm) →
      (hysteresisRoutes alpha ewmaSize .shm sizes)[later]? = some .uds →
      4 * (1 - alpha) ^ (age + later + 1) < 1 := by
  intro sizes
  induction sizes with
  | nil =>
      intro ewmaSize age later _ _ _ returned
      cases returned
  | cons size rest ih =>
      intro ewmaSize age later sized aged stays returned
      have first := sized size (List.mem_cons_self ..)
      cases later with
      | zero =>
          have leaves : sizeHysteresisRoute (ewmaUpdate ewmaSize alpha size) .shm = .uds := by
            simpa [hysteresisRoutes] using returned
          exact leaves_after positive proper first aged (by rw [leaves]; decide)
      | succ later =>
          have kept : sizeHysteresisRoute (ewmaUpdate ewmaSize alpha size) .shm = .shm := by
            simpa [hysteresisRoutes] using stays 0 (Nat.succ_pos later)
          have older : Aged alpha (age + 1) (ewmaUpdate ewmaSize alpha size) :=
            (aged_message positive proper first aged).le
          have rest_sized : ∀ size ∈ rest, 1 ≤ size := fun other member =>
            sized other (List.mem_cons_of_mem _ member)
          simp only [hysteresisRoutes, kept, List.getElem?_cons_succ] at returned
          have bound := ih _ (age + 1) later rest_sized older (fun k before => by
            have still := stays (k + 1) (Nat.succ_lt_succ before)
            simpa only [hysteresisRoutes, kept, List.getElem?_cons_succ] using still) returned
          rwa [show age + 1 + later + 1 = age + (later + 1) + 1 by omega] at bound

/-- From a change to SHM to the first return to UDS. -/
theorem dwell_between (positive : 0 < alpha) (proper : alpha < 1) :
    ∀ (sizes : List UInt64) (ewmaSize : ℚ) (last before : AdaptRoute) (i j : ℕ),
      (∀ size ∈ sizes, 1 ≤ size) →
      (last :: hysteresisRoutes alpha ewmaSize last sizes)[i]? = some before → before ≠ .shm →
      (hysteresisRoutes alpha ewmaSize last sizes)[i]? = some .shm → i < j →
      (∀ k, i < k → k < j → (hysteresisRoutes alpha ewmaSize last sizes)[k]? = some .shm) →
      (hysteresisRoutes alpha ewmaSize last sizes)[j]? = some .uds →
      4 * (1 - alpha) ^ (j - i) < 1 := by
  intro sizes
  induction sizes with
  | nil =>
      intro ewmaSize last before i j _ _ _ changed
      cases changed
  | cons size rest ih =>
      intro ewmaSize last before i j sized previous other changed behind stays returned
      have rest_sized : ∀ size ∈ rest, 1 ≤ size := fun other member =>
        sized other (List.mem_cons_of_mem _ member)
      obtain ⟨later, rfl⟩ := Nat.exists_eq_add_of_lt behind
      cases i with
      | zero =>
          have same : last = before := by simpa using previous
          have route : sizeHysteresisRoute (ewmaUpdate ewmaSize alpha size) last = .shm := by
            simpa [hysteresisRoutes] using changed
          have high : Aged alpha 0 (ewmaUpdate ewmaSize alpha size) :=
            enters_high (by rw [same]; exact other) route
          rw [Nat.zero_add] at returned stays
          simp only [hysteresisRoutes, route, List.getElem?_cons_succ] at returned
          have bound := first_return positive proper rest _ 0 later rest_sized high
            (fun k before => by
              have still := stays (k + 1) (Nat.succ_pos k) (Nat.succ_lt_succ before)
              simpa only [hysteresisRoutes, route, List.getElem?_cons_succ] using still) returned
          rwa [show 0 + later + 1 = 0 + later + 1 - 0 by omega] at bound
      | succ i =>
          have bound := ih (ewmaUpdate ewmaSize alpha size)
            (sizeHysteresisRoute (ewmaUpdate ewmaSize alpha size) last) before i (i + later + 1)
            rest_sized previous other changed (by omega)
            (fun k after before => stays (k + 1) (by omega) (by omega))
            (by
              rw [show i + 1 + later + 1 = i + later + 1 + 1 by omega] at returned
              exact returned)
          rwa [show i + later + 1 - i = i + 1 + later + 1 - (i + 1) by omega] at bound

end Dwell

/-- The switches of the decided routes, as `adapt_send` counts them. -/
def switchesFrom : AdaptRoute → List AdaptRoute → ℕ
  | _, [] => 0
  | last, route :: later =>
      (if last ≠ .none ∧ route ≠ last then 1 else 0) + switchesFrom route later

/-- A bound for `count` messages from UDS: two switches for every dwell. -/
def udsBound (dwell count : ℕ) : ℕ := 2 * ((count + dwell - 1) / dwell)

/-- A bound from SHM, which cannot be left before `left` messages. -/
def shmBound (dwell left count : ℕ) : ℕ :=
  if count < left then 0 else udsBound dwell (count - left) + 1

section Bounds

variable {dwell count left : ℕ}

theorem uds_bound_mono (dwell : ℕ) {count more : ℕ} (grown : count ≤ more) :
    udsBound dwell count ≤ udsBound dwell more := by
  apply Nat.mul_le_mul_left
  apply Nat.div_le_div_right
  omega

theorem bound_enters (some : 0 < dwell) :
    shmBound dwell dwell count + 1 ≤ udsBound dwell (count + 1) := by
  have whole : (count + 1 + dwell - 1) / dwell = count / dwell + 1 := by
    rw [show count + 1 + dwell - 1 = count + dwell by omega]
    exact Nat.add_div_right count some
  simp only [shmBound, udsBound, whole]
  have quotient := Nat.zero_le (count / dwell)
  split
  · omega
  · next long =>
    have shorter : (count - dwell + dwell - 1) / dwell ≤ count / dwell := by
      apply Nat.div_le_div_right
      omega
    omega

theorem bound_stays : shmBound dwell (left - 1) count ≤ shmBound dwell left (count + 1) := by
  have grows := uds_bound_mono dwell (Nat.le_succ count)
  simp only [shmBound]
  split
  · exact Nat.zero_le _
  · next long =>
    rw [if_neg (by omega)]
    cases left with
    | zero => exact Nat.succ_le_succ grows
    | succ left =>
        rw [show count + 1 - (left + 1) = count - (left + 1 - 1) by omega]

theorem bound_leaves (due : left ≤ 1) :
    udsBound dwell count + 1 ≤ shmBound dwell left (count + 1) := by
  rw [shmBound, if_neg (by omega)]
  exact Nat.succ_le_succ (uds_bound_mono dwell (by omega))

end Bounds

def LeastDwell (alpha : ℚ) (dwell : ℕ) : Prop :=
  IsLeast {count : ℕ | 4 * (1 - alpha) ^ count < 1} dwell

theorem least_dwell_exists {alpha : ℚ} (positive : 0 < alpha) (proper : alpha < 1) :
    ∃ dwell, LeastDwell alpha dwell := by
  classical
  have some : ∃ count : ℕ, 4 * (1 - alpha) ^ count < 1 := by
    obtain ⟨count, small⟩ := excess_contracts 4 proper positive one_pos
    exact ⟨count, by linarith⟩
  exact ⟨Nat.find some, Nat.find_spec some, fun count small => Nat.find_min' some small⟩

theorem LeastDwell.pos {alpha : ℚ} {dwell : ℕ} (least : LeastDwell alpha dwell) : 0 < dwell := by
  rcases Nat.eq_zero_or_pos dwell with zero | positive
  · have small : 4 * (1 - alpha) ^ dwell < 1 := least.1
    rw [zero, pow_zero] at small
    exact absurd small (by norm_num)
  · exact positive

structure SwitchesBounded (alpha : ℚ) (dwell : ℕ) (ewmaSize : ℚ) (last : AdaptRoute)
    (sizes : List UInt64) : Prop where
  uds : last ≠ .shm → switchesFrom last (hysteresisRoutes alpha ewmaSize last sizes) ≤
    udsBound dwell sizes.length
  shm : ∀ age, last = .shm → dwell ≤ age ∨ Aged alpha age ewmaSize →
    switchesFrom last (hysteresisRoutes alpha ewmaSize last sizes) ≤
      shmBound dwell (dwell - age) sizes.length

theorem switches_bounded {alpha : ℚ} {dwell : ℕ} (positive : 0 < alpha) (proper : alpha < 1)
    (least : LeastDwell alpha dwell) :
    ∀ (sizes : List UInt64) (ewmaSize : ℚ) (last : AdaptRoute), (∀ size ∈ sizes, 1 ≤ size) →
      SwitchesBounded alpha dwell ewmaSize last sizes := by
  intro sizes
  induction sizes with
  | nil =>
      intro ewmaSize last _
      exact ⟨fun _ => Nat.zero_le _, fun _ _ _ => Nat.zero_le _⟩
  | cons size rest ih =>
      intro ewmaSize last sized
      have first := sized size (List.mem_cons_self ..)
      have later := ih (ewmaUpdate ewmaSize alpha size)
        (sizeHysteresisRoute (ewmaUpdate ewmaSize alpha size) last)
        fun other member => sized other (List.mem_cons_of_mem _ member)
      have one : ∀ route, (if last ≠ .none ∧ route ≠ last then 1 else 0) ≤ 1 := by
        intro route
        split <;> decide
      constructor
      · intro other
        simp only [hysteresisRoutes, switchesFrom, List.length_cons]
        generalize entered : sizeHysteresisRoute (ewmaUpdate ewmaSize alpha size) last = route
          at later ⊢
        by_cases shm : route = .shm
        · have high : Aged alpha 0 (ewmaUpdate ewmaSize alpha size) :=
            enters_high other (entered.trans shm)
          have bound := later.shm 0 shm (Or.inr high)
          have enters := @bound_enters dwell rest.length least.pos
          have counted := one route
          rw [Nat.sub_zero] at bound
          omega
        · have uds : route = .uds := by
            rw [← entered] at shm ⊢
            exact hysteresis_uds shm
          have still : ¬(last ≠ .none ∧ route ≠ last) := by
            rintro ⟨decided, moved⟩
            cases last with
            | none => exact decided rfl
            | shm => exact other rfl
            | uds => exact moved uds
          have bound := later.uds shm
          have grows := @uds_bound_mono dwell rest.length (rest.length + 1) (Nat.le_succ _)
          rw [if_neg still]
          omega
      · intro age onShm old
        subst onShm
        simp only [hysteresisRoutes, switchesFrom, List.length_cons]
        generalize entered : sizeHysteresisRoute (ewmaUpdate ewmaSize alpha size) .shm = route
          at later ⊢
        by_cases stays : route = .shm
        · have older : dwell ≤ age + 1 ∨ Aged alpha (age + 1) (ewmaUpdate ewmaSize alpha size) :=
            old.imp Nat.le_succ_of_le fun aged => (aged_message positive proper first aged).le
          have bound := later.shm (age + 1) stays older
          have shorter := @bound_stays dwell rest.length (dwell - age)
          rw [if_neg fun moved => moved.2 stays]
          rw [show dwell - (age + 1) = dwell - age - 1 by omega] at bound
          omega
        · have due : dwell ≤ age + 1 := by
            rcases old with long | aged
            · omega
            · apply least.2
              apply leaves_after positive proper first aged
              rw [entered]
              exact stays
          have bound := later.uds stays
          have leaves := @bound_leaves dwell rest.length (dwell - age) (by omega)
          have counted := one route
          omega

theorem hysteresis_routes_take (alpha : ℚ) : ∀ (count : ℕ) (sizes : List UInt64) (ewmaSize : ℚ)
    (last : AdaptRoute), (hysteresisRoutes alpha ewmaSize last sizes).take count =
      hysteresisRoutes alpha ewmaSize last (sizes.take count) := by
  intro count
  induction count with
  | zero =>
      intro sizes ewmaSize last
      rw [List.take_zero, List.take_zero]
      rfl
  | succ count ih =>
      intro sizes ewmaSize last
      cases sizes with
      | nil => rfl
      | cons size rest => simp only [hysteresisRoutes, List.take_succ_cons, ih]

theorem window_routes (alpha : ℚ) {window after : List AdaptRoute} : ∀ (before : List AdaptRoute)
    (sizes : List UInt64) (ewmaSize : ℚ) (last : AdaptRoute),
    hysteresisRoutes alpha ewmaSize last sizes = before ++ window ++ after →
      ∃ meanSize inside, (∀ size ∈ inside, size ∈ sizes) ∧
        window = hysteresisRoutes alpha meanSize (lastOf (last :: before)) inside := by
  intro before
  induction before with
  | nil =>
      intro sizes ewmaSize last routes
      refine ⟨ewmaSize, sizes.take window.length, fun _ => List.mem_of_mem_take, ?_⟩
      rw [← hysteresis_routes_take]
      change window = (hysteresisRoutes alpha ewmaSize last sizes).take window.length
      rw [routes, List.nil_append, List.take_left]
  | cons route before ih =>
      intro sizes ewmaSize last routes
      cases sizes with
      | nil => cases routes
      | cons size rest =>
          simp only [hysteresisRoutes, List.cons_append, List.cons.injEq] at routes
          obtain ⟨meanSize, inside, sized, decided⟩ := ih rest _ _ routes.2
          refine ⟨meanSize, inside, fun other member => List.mem_cons_of_mem _ (sized other member), ?_⟩
          rw [decided, routes.1]
          simp only [lastOf, List.getLast?_cons_cons]

/-- What holds of the routes decided after `last`: a minimum dwell on SHM, and the bound on
the switches that follows from it. -/
structure MinimumDwell (alpha : ℚ) (last : AdaptRoute) (routes : List AdaptRoute) : Prop where
  dwell : ∀ i j before, (last :: routes)[i]? = some before → before ≠ .shm →
    routes[i]? = some .shm → i < j → (∀ k, i < k → k < j → routes[k]? = some .shm) →
      routes[j]? = some .uds → 4 * (1 - alpha) ^ (j - i) < 1 ∧ (alpha = 1 / 5 → 7 ≤ j - i)
  switches : ∃ dwell, LeastDwell alpha dwell ∧ ∀ before window after,
    routes = before ++ window ++ after → switchesFrom (lastOf (last :: before)) window ≤
      2 * ((window.length + dwell - 1) / dwell) + 1

theorem default_dwell {count : ℕ} (small : 4 * (1 - 1 / 5 : ℚ) ^ count < 1) : 7 ≤ count := by
  by_contra short
  have shrinks : (1 - 1 / 5 : ℚ) ^ 6 ≤ (1 - 1 / 5) ^ count :=
    pow_le_pow_of_le_one (by norm_num) (by norm_num) (by omega)
  have large : (1 : ℚ) ≤ 4 * (1 - 1 / 5) ^ 6 := by norm_num
  linarith

theorem routes_dwell {alpha : ℚ} (positive : 0 < alpha) (proper : alpha < 1) (ewmaSize : ℚ)
    (last : AdaptRoute) {sizes : List UInt64} (sized : ∀ size ∈ sizes, 1 ≤ size) :
    MinimumDwell alpha last (hysteresisRoutes alpha ewmaSize last sizes) := by
  constructor
  · intro i j before previous other changed behind stays returned
    have bound := dwell_between positive proper sizes ewmaSize last before i j sized previous other
      changed behind stays returned
    refine ⟨bound, ?_⟩
    intro default
    rw [default] at bound
    exact default_dwell bound
  · obtain ⟨dwell, least⟩ := least_dwell_exists positive proper
    refine ⟨dwell, least, ?_⟩
    intro before window after routes
    obtain ⟨meanSize, inside, members, decided⟩ := window_routes alpha before sizes ewmaSize last routes
    have bounded := switches_bounded positive proper least inside meanSize (lastOf (last :: before))
      fun size member => sized size (members size member)
    have length : inside.length = window.length := by
      rw [decided, hysteresis_routes_length]
    rw [← length]
    by_cases onShm : lastOf (last :: before) = .shm
    · have bound := bounded.shm dwell onShm (Or.inl (Nat.le_refl _))
      rw [← decided, Nat.sub_self, shmBound, if_neg (Nat.not_lt_zero _), Nat.sub_zero] at bound
      exact bound
    · have bound := bounded.uds onShm
      rw [← decided] at bound
      exact bound.trans (Nat.le_succ _)

/-- Whatever a producer sends under the hysteresis, from any state between two calls: the
route dwells on SHM, and the switches among any consecutive messages are bounded. -/
theorem shm_dwell {start final : Sender} {rc : Option Status} (idle : start.pc = .idle rc)
    (policy : start.ctx.policy = .sizeHysteresis) (positive : 0 < start.ctx.alpha)
    (proper : start.ctx.alpha < 1)
    (path : Relation.ReflTransGen (SizedStep (1 ≤ ·)) start final) :
    ∃ news, final.messages = start.messages ++ news ∧
      MinimumDwell start.ctx.alpha start.ctx.lastRoute (news.map Prod.snd) := by
  have awaiting : Awaiting (1 ≤ ·) start := decided_awaits (by rw [idle]; rfl)
  obtain ⟨news, classified⟩ := run_classifies path policy awaiting
  refine ⟨news, classified.messages, ?_⟩
  rw [classified.routes]
  apply routes_dwell positive proper
  intro size member
  obtain ⟨message, sent, same⟩ := List.mem_map.mp member
  rw [← same]
  exact classified.sizes message sent

/-- A producer on UDS whose smoothed size is just below the high threshold. -/
def risingSender : Sender :=
  startSender { plainContext 65536 with
    policy := .sizeHysteresis, alpha := 1 / 5, ewmaSize := 4000, lastRoute := .uds } pageRing

def refusedLarge : List SendAction :=
  [.call quietEnv (some (List.replicate 5000 0)),
    .step { quietEnv with status := .error .econnrefused }]

def degradedByte : List SendAction :=
  [.call quietEnv (some [0]), .step { quietEnv with status := .error .econnrefused },
    .step quietEnv]

def riseAndReturn : List SendAction :=
  refusedLarge ++ (List.replicate 6 degradedByte).flatten ++
    [.call quietEnv (some [0]), .step quietEnv]

theorem refused_large_sized : ∀ action ∈ refusedLarge, admits (1 ≤ ·) action := by
  have large : admits (1 ≤ ·) (.call quietEnv (some (List.replicate 5000 0))) := by
    simp only [admits, List.length_replicate]
    decide
  exact List.forall_mem_cons.mpr ⟨large, List.forall_mem_singleton.mpr trivial⟩

theorem rise_and_return_sized : ∀ action ∈ riseAndReturn, admits (1 ≤ ·) action := by
  intro action member
  rcases List.mem_append.mp member with earlier | last
  · rcases List.mem_append.mp earlier with large | degraded
    · exact refused_large_sized action large
    · obtain ⟨message, repeated, inside⟩ := List.mem_flatten.mp degraded
      rw [List.eq_of_mem_replicate repeated] at inside
      simp only [degradedByte, List.mem_cons, List.not_mem_nil, or_false] at inside
      rcases inside with rfl | rfl | rfl <;> simp [admits]
  · simp only [List.mem_cons, List.not_mem_nil, or_false] at last
    rcases last with rfl | rfl <;> simp [admits]

/-- The route is on SHM from the first message to the seventh and returns at the eighth,
so at least seven messages have been decided since. -/
theorem shm_dwell_seven_messages :
    ∃ (final : Sender) (news : List (UInt64 × AdaptRoute)),
      (sendMachine (plainConfig 65536) plainEnv).run risingSender riseAndReturn = some final ∧
      news.map Prod.snd = [.shm, .shm, .shm, .shm, .shm, .shm, .shm, .uds] ∧
      4 * (1 - 1 / 5 : ℚ) ^ (7 - 0) < 1 ∧ 7 ≤ 7 - 0 := by
  have ran : ((sendMachine (plainConfig 65536) plainEnv).run risingSender riseAndReturn).map
      (fun final => final.messages.map Prod.snd) =
        some [.shm, .shm, .shm, .shm, .shm, .shm, .shm, .uds] := by decide +kernel
  obtain ⟨final, run, routes⟩ := Option.map_eq_some_iff.mp ran
  obtain ⟨news, seen, law⟩ := @shm_dwell risingSender final none rfl rfl (by decide +kernel)
    (by decide +kernel) (sized_run rise_and_return_sized run)
  have first : risingSender.messages = [] := rfl
  rw [first, List.nil_append] at seen
  rw [seen] at routes
  have bound := law.dwell 0 7 .uds rfl (by decide) (by rw [routes]; rfl) (by decide)
    (by
      intro k behind early
      rw [routes]
      have stays : ∀ k < 7, ([.shm, .shm, .shm, .shm, .shm, .shm, .shm, .uds] :
          List AdaptRoute)[k]? = some .shm := by decide
      exact stays k early)
    (by rw [routes]; rfl)
  exact ⟨final, news, run, routes, bound.1, bound.2 rfl⟩

end AdaptIpc.Endpoint
