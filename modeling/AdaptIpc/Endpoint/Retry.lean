import AdaptIpc.Endpoint.SendFrame

/-!
# Each logical message is classified once

The attempts of a producer fall into logical messages: an attempt repeats the
one before it if that one had the same size and returned `-EAGAIN`. The retry
state of `adapt_send` is to recognise exactly the repeats, so that the smoothed
size and the decision counters are folds over the messages. It does, except
directly after a handshake that failed under an oversize payload with another
errno than a timeout: that exit stores the message for resumption, too.
-/

namespace AdaptIpc.Endpoint

open AdaptIpc.Ring AdaptIpc.Policy AdaptIpc.Library.Transition

set_option autoImplicit false

/-- A call of `size` after `previous` is a retry. -/
def retries (previous : Option Attempt) (size : UInt64) : Bool :=
  match previous with
  | none => false
  | some last => decide (last.size = size ∧ last.result = .error .eagain)

def logicalFrom : Option Attempt → List Attempt → List Attempt
  | _, [] => []
  | previous, attempt :: rest =>
      if retries previous attempt.size then logicalFrom (some attempt) rest
      else attempt :: logicalFrom (some attempt) rest

/-- The attempts that start a logical message. -/
def logicalMessages (attempts : List Attempt) : List Attempt := logicalFrom none attempts

theorem logical_from_append (attempts : List Attempt) (attempt : Attempt)
    (previous : Option Attempt) :
    logicalFrom previous (attempts ++ [attempt]) = logicalFrom previous attempts ++
      if retries (attempts.getLast?.or previous) attempt.size then [] else [attempt] := by
  induction attempts generalizing previous with
  | nil => by_cases repeated : retries previous attempt.size = true <;>
      simp [logicalFrom, repeated]
  | cons first rest ih =>
      have last : (first :: rest).getLast?.or previous = rest.getLast?.or (some first) := by
        cases rest.eq_nil_or_concat <;> simp_all [List.getLast?_cons]
      simp only [List.cons_append, logicalFrom, ih (some first), last]
      split <;> simp

theorem logical_append (attempts : List Attempt) (attempt : Attempt) :
    logicalMessages (attempts ++ [attempt]) = logicalMessages attempts ++
      if retries attempts.getLast? attempt.size then [] else [attempt] := by
  simpa [logicalMessages] using logical_from_append attempts attempt none

def routeChanges : List AdaptRoute → Nat
  | [] => 0
  | [_] => 0
  | first :: second :: rest => (if second = first then 0 else 1) + routeChanges (second :: rest)

/-- Whether a route after `last` is a change; the first route is none. -/
def changeAfter (last : Option AdaptRoute) (route : AdaptRoute) : Nat :=
  match last with
  | none => 0
  | some last => if route = last then 0 else 1

theorem route_changes_append (routes : List AdaptRoute) (route : AdaptRoute) :
    routeChanges (routes ++ [route]) =
      routeChanges routes + changeAfter routes.getLast? route := by
  induction routes using routeChanges.induct with
  | case1 => rfl
  | case2 first => simp [routeChanges, changeAfter]
  | case3 first second rest ih =>
      simp only [List.cons_append, routeChanges, List.getLast?_cons_cons] at ih ⊢
      rw [ih]
      omega

/-- The fold of `ewma_update` over the sizes of the messages. -/
def smoothedSize (alpha : ℚ) (sizes : List UInt64) : ℚ :=
  sizes.foldl (fun ewmaSize size => ewmaUpdate ewmaSize alpha size) 0

def sizeRoute (policy : AdaptPolicyMode) (ewmaSize : ℚ) (current : AdaptRoute) : AdaptRoute :=
  if policy = .sizeOnly then sizeOnlyRoute ewmaSize else sizeHysteresisRoute ewmaSize current

def lastOf (routes : List AdaptRoute) : AdaptRoute := routes.getLast?.getD .none

def sizeDecisions (policy : AdaptPolicyMode) (alpha : ℚ) (sizes : List UInt64) :
    ℚ × List AdaptRoute :=
  sizes.foldl (fun seen size =>
    let ewmaSize := ewmaUpdate seen.1 alpha size
    (ewmaSize, seen.2 ++ [sizeRoute policy ewmaSize (lastOf seen.2)])) (0, [])

theorem smoothed_append (alpha : ℚ) (sizes : List UInt64) (size : UInt64) :
    smoothedSize alpha (sizes ++ [size]) = ewmaUpdate (smoothedSize alpha sizes) alpha size := by
  simp [smoothedSize]

theorem size_decisions_smoothed (policy : AdaptPolicyMode) (alpha : ℚ) (sizes : List UInt64) :
    (sizeDecisions policy alpha sizes).1 = smoothedSize alpha sizes := by
  induction sizes using List.reverseRecOn with
  | nil => rfl
  | append_singleton sizes size ih =>
      rw [smoothed_append, ← ih]
      simp [sizeDecisions]

theorem size_decisions_append (policy : AdaptPolicyMode) (alpha : ℚ) (sizes : List UInt64)
    (size : UInt64) :
    (sizeDecisions policy alpha (sizes ++ [size])).2 = (sizeDecisions policy alpha sizes).2 ++
      [sizeRoute policy (smoothedSize alpha (sizes ++ [size]))
        (lastOf (sizeDecisions policy alpha sizes).2)] := by
  rw [smoothed_append, ← size_decisions_smoothed policy]
  simp [sizeDecisions]

/-- The state of the classifier after the messages, each with its size and the route
decided for it. -/
structure Tally (ctx : AdaptCtx) (messages : List (UInt64 × AdaptRoute)) : Prop where
  ewma : ctx.ewmaSize = smoothedSize ctx.alpha (messages.map Prod.fst)
  decisions : ctx.statsOn = true → ctx.st.decisions = UInt64.ofNat messages.length
  switches : ctx.statsOn = true →
    ctx.st.routeSwitches = UInt64.ofNat (routeChanges (messages.map Prod.snd))
  last : ctx.lastRoute = lastOf (messages.map Prod.snd)
  decided : ∀ message ∈ messages, message.2 ≠ .none
  bySize : ctx.policy = .sizeOnly ∨ ctx.policy = .sizeHysteresis →
    messages.map Prod.snd = (sizeDecisions ctx.policy ctx.alpha (messages.map Prod.fst)).2

theorem Tally.same {before after : AdaptCtx} {messages : List (UInt64 × AdaptRoute)}
    (tally : Tally before messages) (config : SameConfig before after)
    (router : SameRouter before after) : Tally after messages where
  ewma := by rw [router.ewmaSize, config.alpha]; exact tally.ewma
  decisions := by rw [router.decisions, config.statsOn]; exact tally.decisions
  switches := by rw [router.routeSwitches, config.statsOn]; exact tally.switches
  last := by rw [router.lastRoute]; exact tally.last
  decided := tally.decided
  bySize := by rw [config.policy, config.alpha]; exact tally.bySize

theorem decided_by_size (ctx : AdaptCtx) (size now waitClock : UInt64)
    (bySize : ctx.policy = .sizeOnly ∨ ctx.policy = .sizeHysteresis) :
    decidedRoute ctx size now waitClock =
      sizeRoute ctx.policy (ewmaUpdate ctx.ewmaSize ctx.alpha size) ctx.lastRoute := by
  rcases bySize with policy | policy <;> rw [decidedRoute, policy] <;> rfl

theorem Tally.classify {ctx : AdaptCtx} {messages : List (UInt64 × AdaptRoute)}
    (tally : Tally ctx messages) (size now waitClock : UInt64) :
    Tally (classify ctx size now waitClock)
      (messages ++ [(size, decidedRoute ctx size now waitClock)]) := by
  have config := classify_config ctx size now waitClock
  constructor
  case ewma =>
    rw [classify_ewma, config.alpha, tally.ewma]
    simp [smoothed_append]
  case decisions =>
    intro statsOn
    rw [config.statsOn] at statsOn
    rw [(classify_counters ctx size now waitClock statsOn).1, tally.decisions statsOn]
    simp
  case switches =>
    intro statsOn
    rw [config.statsOn] at statsOn
    rw [(classify_counters ctx size now waitClock statsOn).2, tally.switches statsOn, tally.last]
    simp only [List.map_append, List.map_cons, List.map_nil, route_changes_append, lastOf]
    rcases Option.eq_none_or_eq_some (messages.map Prod.snd).getLast? with empty | ⟨route, final⟩
    · simp [empty, changeAfter]
    · have seen : route ∈ messages.map Prod.snd := List.mem_of_getLast? final
      have decided : route ≠ .none := by
        obtain ⟨message, member, rfl⟩ := List.mem_map.mp seen
        exact tally.decided message member
      by_cases kept : decidedRoute ctx size now waitClock = route
      · simp [final, changeAfter, kept]
      · simp [final, changeAfter, kept, decided]
  case last => simp [classify_route, lastOf]
  case decided =>
    intro message member
    rcases List.mem_append.mp member with old | new
    · exact tally.decided message old
    · rw [List.mem_singleton.mp new]
      exact decide_selects _ _ _
  case bySize =>
    intro bySize
    rw [config.policy] at bySize
    rw [config.policy, config.alpha]
    simp only [List.map_append, List.map_cons, List.map_nil]
    rw [size_decisions_append, ← tally.bySize bySize, decided_by_size ctx _ _ _ bySize,
      smoothed_append, ← tally.ewma, ← tally.last]

/-- The two exits that set `retry_pending`: a full ring, and a failed handshake under
a payload no datagram carries. -/
def Attempt.leavesRetry (attempt : Attempt) : Bool :=
  decide (attempt.transport = .shm ∧ attempt.result = .error .eagain) ||
    (attempt.handshake.isSome && oversize attempt.size)

structure Stored (ctx : AdaptCtx) (last : Option Attempt) : Prop where
  pending : ctx.retryPending = last.any Attempt.leavesRetry
  size : ctx.retryPending = true → last.map Attempt.size = some ctx.pendingSize
  route : ctx.retryPending = true → ctx.pendingRoute = .shm
  fits : ctx.retryPending = true → ¬ctx.shmCapacity < ctx.pendingSize + 1
  large : ctx.retryPending = true → ctx.ring = none → oversize ctx.pendingSize = true

/-- How the result of an attempt came about. -/
structure Explained (attempt : Attempt) : Prop where
  refused : ∀ code, attempt.handshake = some code → oversize attempt.size = true →
    attempt.transport = .none ∧
      attempt.result = .error (if code = .etimedout then .eagain else code)
  unsent : attempt.transport = .none → attempt.result = .error .eagain →
    attempt.handshake.isSome = true ∧ oversize attempt.size = true

/-- A handshake that failed with another errno than a timeout, under an oversize
payload: stored for resumption, but not reported as `-EAGAIN`. -/
def Attempt.refusedLarge (attempt : Attempt) : Bool :=
  match attempt.handshake with
  | some code => oversize attempt.size && decide (code ≠ .etimedout ∧ code ≠ .eagain)
  | none => false

/-- `uds_send` itself answered `-EAGAIN`, which a blocking socket never does. -/
def Attempt.blockedDatagram (attempt : Attempt) : Bool :=
  decide (attempt.transport = .uds ∧ attempt.result = .error .eagain)

/-- An attempt of `size` directly after `last` is taken for what it is not. -/
def misjudged (last : Option Attempt) (size : UInt64) : Bool :=
  last.any fun attempt =>
    decide (attempt.size = size) && (attempt.refusedLarge || attempt.blockedDatagram)

theorem resumes_stored {ctx : AdaptCtx} {last : Option Attempt} (stored : Stored ctx last)
    (size : UInt64) :
    resumes ctx size = last.any fun attempt => attempt.leavesRetry && decide (attempt.size = size) := by
  cases last with
  | none =>
      have idle : ctx.retryPending = false := stored.pending
      simp [resumes, idle]
  | some attempt =>
      have pending : ctx.retryPending = attempt.leavesRetry := stored.pending
      cases leaves : attempt.leavesRetry with
      | false => simp [resumes, pending, leaves]
      | true =>
          have waiting : ctx.retryPending = true := pending.trans leaves
          have same : attempt.size = ctx.pendingSize := Option.some.inj (stored.size waiting)
          simp [resumes, waiting, stored.route waiting, leaves, same]

theorem leaves_retry_iff {attempt : Attempt} (explained : Explained attempt) :
    attempt.leavesRetry = decide (attempt.result = .error .eagain) ↔
      (attempt.refusedLarge || attempt.blockedDatagram) = false := by
  have unsent := explained.unsent
  have refused := explained.refused
  unfold Attempt.leavesRetry Attempt.refusedLarge Attempt.blockedDatagram
  cases failed : attempt.handshake with
  | none =>
      simp only [failed] at unsent
      cases tried : attempt.transport <;> simp [tried] at unsent ⊢
      · exact unsent
  | some code =>
      have exit := refused code failed
      cases large : oversize attempt.size with
      | false =>
          simp only [large] at unsent
          cases tried : attempt.transport <;> simp [tried] at unsent ⊢
          · exact unsent
      | true =>
          obtain ⟨tried, result⟩ := exit large
          by_cases timeout : code = .etimedout
          · simp [tried, result, timeout]
          · by_cases again : code = .eagain <;> simp [tried, result, timeout, again]

theorem resumes_iff {ctx : AdaptCtx} {last : Option Attempt} (stored : Stored ctx last)
    (explained : ∀ attempt, last = some attempt → Explained attempt) (size : UInt64) :
    resumes ctx size = retries last size ↔ misjudged last size = false := by
  rw [resumes_stored stored]
  cases last with
  | none => simp [retries, misjudged]
  | some attempt =>
      by_cases same : attempt.size = size
      · simpa [retries, misjudged, same] using leaves_retry_iff (explained attempt rfl)
      · simp [retries, misjudged, same]

def escalated (route : AdaptRoute) (size : UInt64) : AdaptRoute :=
  if route ≠ .shm ∧ oversize size = true then .shm else route

theorem guard_result (ctx : AdaptCtx) (route : AdaptRoute) (size : UInt64) :
    (guardRails ctx route size).1 =
      if escalated route size = .shm ∧ ctx.shmCapacity < size + 1 then .error .emsgsize
      else .ok (escalated route size) := by
  simp only [guardRails, escalated]
  split_ifs <;> rfl

theorem guard_refuses {ctx : AdaptCtx} {route : AdaptRoute} {size : UInt64} {code : Errno}
    (refused : (guardRails ctx route size).1 = .error code) :
    ctx.shmCapacity < size + 1 ∧ SameRetry ctx (guardRails ctx route size).2 := by
  rw [guard_result] at refused
  split at refused
  · next large =>
    constructor
    · exact large.2
    · simp only [escalated] at large
      simp only [guardRails, large, and_self, if_true, count_fields]
      split_ifs <;> constructor <;> rfl
  · cases refused

theorem guard_accepts {ctx : AdaptCtx} {route sent : AdaptRoute} {size : UInt64}
    (accepted : (guardRails ctx route size).1 = .ok sent) :
    sent = escalated route size ∧ (sent = .shm → ¬ctx.shmCapacity < size + 1) ∧
      (guardRails ctx route size).2.retryPending = ctx.retryPending ∧
      (guardRails ctx route size).2.pendingSize = size ∧
      (guardRails ctx route size).2.pendingRoute = sent := by
  rw [guard_result] at accepted
  split at accepted
  · cases accepted
  · next fits =>
    cases accepted
    refine ⟨rfl, fun shm large => fits ⟨shm, large⟩, ?_⟩
    simp only [escalated] at fits
    simp only [guardRails, fits, if_false, count_fields]
    constructor
    · split_ifs <;> rfl
    · exact ⟨trivial, rfl⟩

def Attempt.message (attempt : Attempt) : UInt64 × AdaptRoute := (attempt.size, attempt.lastRoute)

def counted (attempts : List Attempt) : List (UInt64 × AdaptRoute) :=
  (logicalMessages attempts).map Attempt.message

structure Settled (ctx : AdaptCtx) (attempts : List Attempt) : Prop where
  tally : Tally ctx (counted attempts)
  flags : attempts.filter Attempt.classified = logicalMessages attempts
  stored : Stored ctx attempts.getLast?
  explained : ∀ last, attempts.getLast? = some last → Explained last

structure Opening (ctx : AdaptCtx) (attempts : List Attempt) (draft : Attempt) : Prop extends
    Settled ctx attempts where
  judged : resumes ctx draft.size = retries attempts.getLast? draft.size
  unsent : draft.transport = .none
  unasked : draft.handshake = none

structure Judged (ctx : AdaptCtx) (attempts : List Attempt) (draft : Attempt) : Prop where
  tally : Tally ctx (counted attempts ++
    if draft.classified then [(draft.size, ctx.lastRoute)] else [])
  flags : attempts.filter Attempt.classified = logicalMessages attempts
  flag : draft.classified = !retries attempts.getLast? draft.size

theorem Judged.same {before after : AdaptCtx} {attempts : List Attempt} {draft : Attempt}
    (judged : Judged before attempts draft) (config : SameConfig before after)
    (router : SameRouter before after) : Judged after attempts draft where
  tally := by rw [router.lastRoute]; exact judged.tally.same config router
  flags := judged.flags
  flag := judged.flag

theorem Judged.settle {ctx : AdaptCtx} {attempts : List Attempt} {attempt : Attempt}
    (judged : Judged ctx attempts attempt) (route : attempt.lastRoute = ctx.lastRoute)
    (stored : Stored ctx (some attempt)) (explained : Explained attempt) :
    Settled ctx (attempts ++ [attempt]) where
  tally := by
    have tally := judged.tally
    rw [judged.flag] at tally
    rw [counted, logical_append, List.map_append]
    cases repeated : retries attempts.getLast? attempt.size with
    | true => simpa [repeated, counted] using tally
    | false => simpa [repeated, counted, Attempt.message, route] using tally
  flags := by
    rw [List.filter_append, judged.flags, logical_append]
    cases repeated : retries attempts.getLast? attempt.size with
    | true => simp [judged.flag, repeated]
    | false => simp [judged.flag, repeated]
  stored := by simpa using stored
  explained := by
    intro last final
    simp only [List.getLast?_append, List.getLast?_singleton, Option.some_or,
      Option.some.injEq] at final
    rw [← final]
    exact explained

theorem Stored.same {before after : AdaptCtx} {last : Option Attempt} (stored : Stored before last)
    (quiet : Quiet before after) : Stored after last where
  pending := by rw [quiet.retryPending]; exact stored.pending
  size := by rw [quiet.retryPending, quiet.pendingSize]; exact stored.size
  route := by rw [quiet.retryPending, quiet.pendingRoute]; exact stored.route
  fits := by rw [quiet.retryPending, quiet.shmCapacity, quiet.pendingSize]; exact stored.fits
  large := by rw [quiet.retryPending, quiet.ring, quiet.pendingSize]; exact stored.large

theorem Opening.same {before after : AdaptCtx} {attempts : List Attempt} {draft : Attempt}
    (opening : Opening before attempts draft) (quiet : Quiet before after) :
    Opening after attempts draft where
  tally := opening.tally.same quiet.toSameConfig quiet.toSameRouter
  flags := opening.flags
  stored := opening.stored.same quiet
  explained := opening.explained
  judged := by
    rw [← opening.judged, resumes, resumes, quiet.retryPending, quiet.pendingSize,
      quiet.pendingRoute]
  unsent := opening.unsent
  unasked := opening.unasked

structure InCall (ctx : AdaptCtx) (attempts : List Attempt) (draft : Attempt) : Prop extends
    Judged ctx attempts draft where
  pending : ctx.retryPending = !draft.classified
  size : ctx.pendingSize = draft.size

structure Bound (ctx : AdaptCtx) (draft : Attempt) : Prop where
  route : ctx.pendingRoute = .shm
  fits : ¬ctx.shmCapacity < draft.size + 1
  unasked : draft.handshake = none

/-- In the handshake: a resumed message is one no datagram carries. -/
structure Negotiating (ctx : AdaptCtx) (attempts : List Attempt) (draft : Attempt) : Prop extends
    InCall ctx attempts draft, Bound ctx draft where
  unsent : draft.transport = .none
  large : ctx.retryPending = true → oversize draft.size = true

structure Pushing (ctx : AdaptCtx) (attempts : List Attempt) (draft : Attempt) : Prop extends
    InCall ctx attempts draft, Bound ctx draft where
  sent : draft.transport = .shm

/-- In the UDS branch: nothing is resumed on it. -/
structure Mailing (ctx : AdaptCtx) (attempts : List Attempt) (draft : Attempt) : Prop extends
    InCall ctx attempts draft where
  sent : draft.transport = .uds
  fresh : ctx.retryPending = false
  small : ∀ code, draft.handshake = some code → oversize draft.size = false

def AccountedAt (ctx : AdaptCtx) (attempts : List Attempt) (draft : Attempt) : SendPc → Prop
  | .idle _ => Settled ctx attempts
  | .request _ => Negotiating ctx attempts draft
  | .awaitAck _ => Negotiating ctx attempts draft
  | .mapping => Negotiating ctx attempts draft
  | .pushDirect _ => Pushing ctx attempts draft
  | .pushBlocking _ => Pushing ctx attempts draft
  | .udsSend _ => Mailing ctx attempts draft
  | _ => Opening ctx attempts draft

def Accounted (sender : Sender) : Prop :=
  AccountedAt sender.ctx sender.attempts sender.draft sender.pc

theorem decide_resumed {sender : Sender} {now waitClock : UInt64}
    (resumed : resumes sender.ctx sender.draft.size = true) :
    routeMessage sender.ctx sender.draft.size now waitClock =
      (sender.ctx.pendingRoute, sender.ctx) := by
  simp only [routeMessage, resumed, if_true]

theorem decide_fresh {sender : Sender} {now waitClock : UInt64}
    (fresh : resumes sender.ctx sender.draft.size = false) :
    routeMessage sender.ctx sender.draft.size now waitClock =
      (decidedRoute sender.ctx sender.draft.size now waitClock,
        classify sender.ctx sender.draft.size now waitClock) := by
  simp only [routeMessage, fresh, Bool.false_eq_true, if_false, classify_route]

theorem decide_judged {sender : Sender} (now waitClock : UInt64)
    (opening : Opening sender.ctx sender.attempts sender.draft) :
    Judged (sender.decide now waitClock).2.ctx sender.attempts
      (sender.decide now waitClock).2.draft := by
  have guarded := guard_retry_only (routeMessage sender.ctx sender.draft.size now waitClock).2
    (routeMessage sender.ctx sender.draft.size now waitClock).1 sender.draft.size
  apply Judged.same _ guarded.toSameConfig guarded.toSameRouter
  have flag : (sender.decide now waitClock).2.draft.classified =
      !retries sender.attempts.getLast? sender.draft.size :=
    congrArg not opening.judged
  cases resumed : resumes sender.ctx sender.draft.size with
  | true =>
      have kept : (sender.decide now waitClock).2.draft.classified = false := by
        simp [Sender.decide, resumed]
      rw [decide_resumed resumed]
      constructor
      · simpa [kept] using opening.tally
      · exact opening.flags
      · exact flag
  | false =>
      have fresh : (sender.decide now waitClock).2.draft.classified = true := by
        simp [Sender.decide, resumed]
      rw [decide_fresh resumed]
      constructor
      · rw [if_pos fresh]
        exact opening.tally.classify sender.draft.size now waitClock
      · exact opening.flags
      · exact flag

/-- What the decision leaves in the retry state when it goes on to send. -/
theorem decide_pending {sender : Sender} {now waitClock : UInt64} {sent : AdaptRoute}
    (opening : Opening sender.ctx sender.attempts sender.draft)
    (accepted : (sender.decide now waitClock).1 = .ok sent) :
    InCall (sender.decide now waitClock).2.ctx sender.attempts
        (sender.decide now waitClock).2.draft ∧
      (sender.decide now waitClock).2.ctx.pendingRoute = sent ∧
      (sent = .shm → ¬(sender.decide now waitClock).2.ctx.shmCapacity < sender.draft.size + 1) ∧
      ((sender.decide now waitClock).2.ctx.retryPending = true → sent = .shm ∧
        ((sender.decide now waitClock).2.ctx.ring = none → oversize sender.draft.size = true)) := by
  have judged := decide_judged now waitClock opening
  have mapping := decide_mapping sender now waitClock
  have guarded := guard_retry_only (routeMessage sender.ctx sender.draft.size now waitClock).2
    (routeMessage sender.ctx sender.draft.size now waitClock).1 sender.draft.size
  obtain ⟨escalation, fits, pending, size, route⟩ := guard_accepts accepted
  have capacity : (sender.decide now waitClock).2.ctx.shmCapacity =
      (routeMessage sender.ctx sender.draft.size now waitClock).2.shmCapacity :=
    guarded.shmCapacity
  cases resumed : resumes sender.ctx sender.draft.size with
  | true =>
      rw [decide_resumed resumed] at escalation
      have waiting : sender.ctx.retryPending = true ∧ sender.ctx.pendingSize = sender.draft.size := by
        simp only [resumes, Bool.and_eq_true, decide_eq_true_eq] at resumed
        exact resumed.1
      have stored := opening.stored
      have kept : (sender.decide now waitClock).2.draft.classified = false := by
        simp [Sender.decide, resumed]
      refine ⟨⟨judged, ?_, size⟩, route, ?_, ?_⟩
      · rw [kept]
        apply pending.trans
        rw [decide_resumed resumed]
        exact waiting.1
      · rw [capacity]
        exact fits
      · intro _
        constructor
        · rw [escalation, stored.route waiting.1]
          simp [escalated]
        · intro unmapped
          rw [mapping.ring] at unmapped
          rw [← waiting.2]
          exact stored.large waiting.1 unmapped
  | false =>
      have dropped : (sender.decide now waitClock).2.ctx.retryPending = false := by
        apply pending.trans
        rw [decide_fresh resumed]
        exact (classify_retry _ _ _ _).1
      have fresh : (sender.decide now waitClock).2.draft.classified = true := by
        simp [Sender.decide, resumed]
      refine ⟨⟨judged, ?_, size⟩, route, ?_, ?_⟩
      · rw [fresh]
        exact dropped
      · rw [capacity]
        exact fits
      · intro waiting
        rw [dropped] at waiting
        cases waiting

theorem decide_refused {sender : Sender} {now waitClock : UInt64}
    (opening : Opening sender.ctx sender.attempts sender.draft)
    (refused : (sender.decide now waitClock).1 = .error .emsgsize) :
    (sender.decide now waitClock).2.ctx.retryPending = false := by
  obtain ⟨large, retry⟩ := guard_refuses refused
  cases resumed : resumes sender.ctx sender.draft.size with
  | true =>
      rw [decide_resumed resumed] at large
      have waiting : sender.ctx.retryPending = true ∧ sender.ctx.pendingSize = sender.draft.size := by
        simp only [resumes, Bool.and_eq_true, decide_eq_true_eq] at resumed
        exact resumed.1
      have fits := opening.stored.fits waiting.1
      rw [waiting.2] at fits
      exact absurd large fits
  | false =>
      apply retry.retryPending.trans
      rw [decide_fresh resumed]
      exact (classify_retry _ _ _ _).1

theorem Judged.finish {sender : Sender} {rc : Status}
    (judged : Judged sender.ctx sender.attempts sender.draft)
    (stored : Stored sender.ctx (some (sender.closed rc)))
    (explained : Explained (sender.closed rc)) : Accounted (sender.finish rc) := by
  have closed : Judged sender.ctx sender.attempts (sender.closed rc) :=
    ⟨judged.tally, judged.flags, judged.flag⟩
  exact closed.settle rfl stored explained

theorem InCall.same {before after : AdaptCtx} {attempts : List Attempt} {draft : Attempt}
    (inCall : InCall before attempts draft) (kept : MappingOnly before after) :
    InCall after attempts draft where
  toJudged := inCall.toJudged.same kept.toSameConfig kept.toSameRouter
  pending := by rw [kept.retryPending]; exact inCall.pending
  size := by rw [kept.pendingSize]; exact inCall.size

theorem Bound.same {before after : AdaptCtx} {draft : Attempt} (bound : Bound before draft)
    (kept : MappingOnly before after) : Bound after draft where
  route := by rw [kept.pendingRoute]; exact bound.route
  fits := by rw [kept.shmCapacity]; exact bound.fits
  unasked := bound.unasked

theorem Negotiating.same {before after : AdaptCtx} {attempts : List Attempt} {draft : Attempt}
    (negotiating : Negotiating before attempts draft) (kept : MappingOnly before after) :
    Negotiating after attempts draft where
  toInCall := negotiating.toInCall.same kept
  toBound := negotiating.toBound.same kept
  unsent := negotiating.unsent
  large := by rw [kept.retryPending]; exact negotiating.large

theorem InCall.noted {ctx : AdaptCtx} {attempts : List Attempt} {draft noted : Attempt}
    (inCall : InCall ctx attempts draft) (payload : noted.payload = draft.payload)
    (flag : noted.classified = draft.classified) : InCall ctx attempts noted := by
  have size : noted.size = draft.size := by rw [Attempt.size, Attempt.size, payload]
  refine ⟨⟨?_, inCall.flags, ?_⟩, ?_, ?_⟩
  · rw [flag, size]
    exact inCall.tally
  · rw [flag, size]
    exact inCall.flag
  · rw [flag]
    exact inCall.pending
  · rw [size]
    exact inCall.size

theorem push_accounted {sender : Sender} (ring : RingState) (tMeas : UInt64)
    (inCall : InCall sender.ctx sender.attempts sender.draft)
    (bound : Bound sender.ctx sender.draft) : Accounted (sender.startPush ring tMeas) := by
  have quiet := (quiet_push sender ring tMeas).mappingOnly
  have pushing : Pushing (sender.startPush ring tMeas).ctx sender.attempts
      (sender.startPush ring tMeas).draft := by
    have noted : InCall (sender.startPush ring tMeas).ctx sender.attempts
        (sender.startPush ring tMeas).draft := (inCall.same quiet).noted rfl rfl
    have route := bound.same quiet
    exact ⟨noted, ⟨route.route, route.fits, route.unasked⟩, rfl⟩
  simp only [Accounted, Sender.startPush] at pushing ⊢
  split <;> exact pushing

theorem datagram_accounted {sender : Sender} (tMeas : UInt64)
    (inCall : InCall sender.ctx sender.attempts sender.draft)
    (fresh : sender.ctx.retryPending = false)
    (small : ∀ code, sender.draft.handshake = some code → oversize sender.draft.size = false) :
    Accounted (sender.startDatagram tMeas) := by
  have quiet := (quiet_datagram sender tMeas).mappingOnly
  have noted : InCall (sender.startDatagram tMeas).ctx sender.attempts
      (sender.startDatagram tMeas).draft := (inCall.same quiet).noted rfl rfl
  exact ⟨noted, rfl, quiet.retryPending.trans fresh, small⟩

theorem failed_accounted {sender next : Sender} {hrc : Errno}
    (negotiating : Negotiating sender.ctx sender.attempts sender.draft)
    (failed : HandshakeFailed sender hrc next) : Accounted next := by
  have kept := handshake_failed_retry_only sender.ctx sender.draft.size hrc
  have judged := negotiating.toJudged.same kept.toSameConfig kept.toSameRouter
  cases failed with
  | refused large =>
      have left : (sender.handshakeFailure hrc).2.ctx =
          { sender.ctx with retryPending := true } := by
        simp only [Sender.handshakeFailure, handshakeFailed, large, if_true]
      apply Judged.finish
      · exact ⟨judged.tally, judged.flags, judged.flag⟩
      · rw [left]
        constructor
        · simp only [Option.any_some, Attempt.leavesRetry, Bool.true_eq, Bool.or_eq_true]
          exact Or.inr large
        · exact fun _ => congrArg some negotiating.size.symm
        · exact fun _ => negotiating.route
        · intro _
          rw [negotiating.size]
          exact negotiating.fits
        · intro _ _
          rw [negotiating.size]
          exact large
      · constructor
        · intro code failed _
          cases failed
          exact ⟨negotiating.unsent, rfl⟩
        · exact fun _ _ => ⟨rfl, large⟩
  | degraded tMeas small =>
      have left : (handshakeFailed sender.ctx sender.draft.size hrc).2.retryPending =
            sender.ctx.retryPending ∧
          (handshakeFailed sender.ctx sender.draft.size hrc).2.pendingSize =
            sender.ctx.pendingSize := by
        simp only [handshakeFailed, small, count_fields, Bool.false_eq_true, if_false]
        exact ⟨trivial, trivial⟩
      have fresh : sender.ctx.retryPending = false := by
        cases waiting : sender.ctx.retryPending with
        | false => rfl
        | true =>
            rw [negotiating.large waiting] at small
            cases small
      apply datagram_accounted tMeas
      · refine ⟨⟨judged.tally, judged.flags, judged.flag⟩, ?_, ?_⟩
        · exact left.1.trans negotiating.pending
        · exact left.2.trans negotiating.size
      · exact left.1.trans fresh
      · exact fun _ _ => small

theorem dispatched_accounted {sender next : Sender}
    (opening : Opening sender.ctx sender.attempts sender.draft)
    (dispatched : Dispatched sender next) : Accounted next := by
  cases dispatched with
  | tooLarge now waitClock refused =>
      have judged := decide_judged now waitClock opening
      have pending := decide_refused opening refused
      apply Judged.finish judged
      · have unsent : (sender.decide now waitClock).2.draft.transport = .none := opening.unsent
        have unasked : (sender.decide now waitClock).2.draft.handshake = none := opening.unasked
        constructor
        · rw [pending]
          simp [Attempt.leavesRetry, Sender.closed, unsent, unasked]
        all_goals
          intro waiting
          rw [pending] at waiting
          cases waiting
      · constructor
        · intro code failed _
          exact absurd (opening.unasked.symm.trans failed) (by simp)
        · intro _ again
          cases again
  | negotiating now waitClock env route unmapped waiting =>
      obtain ⟨inCall, pendingRoute, fits, resumed⟩ := decide_pending opening route
      have kept := name_mapping_only (sender.decide now waitClock).2.ctx env.pid env.negCounter
      have negotiating : Negotiating (sender.decide now waitClock).2.ctx sender.attempts
          (sender.decide now waitClock).2.draft :=
        ⟨inCall, ⟨pendingRoute, fits rfl, opening.unasked⟩, opening.unsent,
          fun pending => (resumed pending).2 unmapped⟩
      have named := negotiating.same kept
      simp only [Accounted, Sender.negotiate]
      split <;> exact named
  | sent now waitClock route next decided ready transmitted =>
      obtain ⟨inCall, pendingRoute, fits, resumed⟩ := decide_pending opening decided
      cases transmitted with
      | push ring tMeas shm called =>
          subst shm
          exact push_accounted ring tMeas inCall ⟨pendingRoute, fits rfl, opening.unasked⟩
      | datagram tMeas other =>
          apply datagram_accounted tMeas inCall
          · cases pending : (sender.decide now waitClock).2.ctx.retryPending with
            | false => rfl
            | true => exact absurd (resumed pending).1 other
          · intro code failed
            exact absurd (opening.unasked.symm.trans failed) (by simp)

theorem pushed_accounted {sender : Sender} {env : SendEnv} {tMeas : UInt64} {rc : Status}
    (pushing : Pushing sender.ctx sender.attempts sender.draft)
    (mapped : sender.ctx.ring.isSome = true) : Accounted (sender.finishPush env tMeas rc) := by
  have kept := finish_shm_retry_only sender.ctx sender.draft.size tMeas env.clock
    sender.ring.object.parks rc
  have judged := pushing.toJudged.same kept.toSameConfig kept.toSameRouter
  have left : (finishShm sender.ctx sender.draft.size tMeas env.clock sender.ring.object.parks
        rc).pendingSize = sender.draft.size ∧
      (finishShm sender.ctx sender.draft.size tMeas env.clock sender.ring.object.parks
        rc).pendingRoute = .shm := by
    rw [← pushing.size, ← pushing.route]
    simp only [finishShm, observeCost, count_fields]
    split_ifs <;> exact ⟨rfl, rfl⟩
  apply Judged.finish
  · exact ⟨judged.tally, judged.flags, judged.flag⟩
  · constructor
    · simp [finishShm, Attempt.leavesRetry, Sender.closed, pushing.sent, pushing.unasked]
    · exact fun _ => congrArg some left.1.symm
    · exact fun _ => left.2
    · intro _
      rw [left.1, kept.shmCapacity]
      exact pushing.fits
    · intro _ unmapped
      rw [kept.ring] at unmapped
      rw [unmapped] at mapped
      cases mapped
  · constructor
    · intro code failed _
      exact absurd (pushing.unasked.symm.trans failed) (by simp)
    · intro unsent _
      exact absurd (pushing.sent.symm.trans unsent) (by decide)

theorem mailed_accounted {sender : Sender} {env : SendEnv} {tMeas : UInt64}
    (mailing : Mailing sender.ctx sender.attempts sender.draft) :
    Accounted ({ sender with
      ctx := finishUds sender.ctx sender.draft.size tMeas env.clock env.status
      draft := { sender.draft with
        placed := if env.status = Except.ok () then some .uds else none } }.finish
          env.status) := by
  have kept := finish_uds_retry_only sender.ctx sender.draft.size tMeas env.clock env.status
  have judged := mailing.toJudged.same kept.toSameConfig kept.toSameRouter
  have fresh : (finishUds sender.ctx sender.draft.size tMeas env.clock
      env.status).retryPending = false := by
    have before := mailing.fresh
    simp only [finishUds, observeCost]
    split_ifs <;> first | exact before | rfl
  apply Judged.finish
  · exact ⟨judged.tally, judged.flags, judged.flag⟩
  · constructor
    · rw [fresh]
      cases failed : sender.draft.handshake with
      | none => simp [Attempt.leavesRetry, Sender.closed, mailing.sent, failed]
      | some code =>
          have small := mailing.small code failed
          simp only [Attempt.size] at small
          simp [Attempt.leavesRetry, Sender.closed, mailing.sent, Attempt.size, small]
    all_goals
      intro waiting
      rw [fresh] at waiting
      cases waiting
  · constructor
    · intro code failed large
      have small := mailing.small code failed
      exact absurd (small.symm.trans large) (by decide)
    · intro unsent _
      exact absurd (mailing.sent.symm.trans unsent) (by decide)

/-- The assumption: no call is made directly after an attempt it would be misjudged
by. -/
def wellJudged (sender : Sender) : SendAction → Bool
  | .call _ (some payload) =>
      !misjudged sender.attempts.getLast? (UInt64.ofNat payload.length)
  | _ => true

theorem opening_call {sender : Sender} {payload : List UInt8}
    (settled : Settled sender.ctx sender.attempts)
    (allowed : misjudged sender.attempts.getLast? (openAttempt payload).size = false) :
    Opening sender.ctx sender.attempts (openAttempt payload) :=
  ⟨settled, (resumes_iff settled.stored settled.explained _).mpr allowed, rfl, rfl⟩

theorem move_accounted {sender next : Sender} {action : SendAction} (accounted : Accounted sender)
    (mapped : SenderMapped sender) (allowed : wellJudged sender action = true)
    (move : SendMove sender action next) : Accounted next := by
  cases move with
  | rejected env data before code idle bad =>
      rw [Accounted, idle] at accounted
      exact accounted
  | opened env data before payload idle good held =>
      rw [Accounted, idle] at accounted
      cases arguments_payload good
      exact opening_call accounted (Bool.eq_false_of_not_eq_true' allowed)
  | openedUnmapped env data before payload next idle good none dispatched =>
      rw [Accounted, idle] at accounted
      cases arguments_payload good
      have opening := opening_call accounted (Bool.eq_false_of_not_eq_true' allowed)
      exact dispatched_accounted (opening.same (quiet_sample _ _ _ _)) dispatched
  | usedHead env now here =>
      rw [Accounted, here] at accounted
      exact accounted
  | usedTail env now head here =>
      rw [Accounted, here] at accounted
      exact Opening.same accounted (quiet_sample _ _ _ _)
  | freeHead env now occ here =>
      rw [Accounted, here] at accounted
      exact accounted
  | freeTail env now occ head cap next here dispatched =>
      rw [Accounted, here] at accounted
      apply dispatched_accounted _ dispatched
      exact Opening.same accounted (quiet_monitor _ occ cap)
  | requestFailed env nowNs code next here refused failed =>
      rw [Accounted, here] at accounted
      exact failed_accounted accounted failed
  | requested env nowNs here delivered =>
      rw [Accounted, here] at accounted
      exact Negotiating.same accounted (quiet_request _ nowNs).mappingOnly
  | ackFailed env deadline received code next here arrived failed =>
      rw [Accounted, here] at accounted
      exact failed_accounted accounted failed
  | polled env deadline here quiet => exact accounted
  | ackUnmappable env deadline frame code next here arrived acknowledged failed =>
      rw [Accounted, here] at accounted
      apply failed_accounted _ failed
      exact Negotiating.same accounted (quiet_ack _).mappingOnly
  | ackMapped env deadline frame attachedCtx here arrived acknowledged attached =>
      rw [Accounted, here] at accounted
      exact Negotiating.same accounted
        ((quiet_ack _).mappingOnly.trans (map_mapping_only attached))
  | mappingFailed env before next here written short failed =>
      rw [Accounted, here] at accounted
      have closed : MappingOnly sender.ctx { sender.ctx with ring := none } := by
        constructor <;> constructor <;> rfl
      apply failed_accounted _ failed
      exact Negotiating.same accounted closed
  | negotiated env before grown next here written room transmitted =>
      rw [Accounted, here] at accounted
      have done : MappingOnly sender.ctx { grown with negotDone := true } := by
        apply (grow_mapping_only room).trans
        constructor <;> constructor <;> rfl
      have negotiating := Negotiating.same accounted done
      cases transmitted with
      | push ring tMeas shm called =>
          exact push_accounted ring tMeas negotiating.toInCall negotiating.toBound
      | datagram tMeas other => exact absurd rfl other
  | pushAgain env tMeas ring here full blocks called =>
      rw [Accounted, here] at accounted
      exact accounted
  | pushed env tMeas rc here returned =>
      rcases here with here | here <;> rw [Accounted, here] at accounted <;>
        rw [SenderMapped, here] at mapped <;> exact pushed_accounted accounted mapped
  | datagramSent env tMeas here =>
      rw [Accounted, here] at accounted
      exact mailed_accounted accounted
  | ring action after foreign moved => exact accounted

theorem move_stays_accounted {cfg : AdaptConfig} {env : InitEnv} {sender : Sender}
    (reached : ((sendMachine cfg env).guarded wellJudged).Reachable sender) :
    Accounted sender ∧ SenderMapped sender ∧
      SameConfig (blankContext .producer cfg env) sender.ctx := by
  apply Machine.invariant_of_reachable ((sendMachine cfg env).guarded wellJudged)
    (fun sender => Accounted sender ∧ SenderMapped sender ∧
      SameConfig (blankContext .producer cfg env) sender.ctx) _ _ reached
  · intro start starts
    obtain ⟨accepted, ⟨before, idle⟩, none, _⟩ := starts
    obtain ⟨kept, mapped⟩ := init_starts accepted
    have empty : Settled start.ctx start.attempts := by
      have pending : start.ctx.retryPending = false := kept.retryPending
      rw [none]
      constructor
      · apply Tally.same _ kept.toSameConfig kept.toSameRouter
        constructor <;> simp [counted, logicalMessages, logicalFrom, smoothedSize, blankContext,
          zeroStats, routeChanges, lastOf, sizeDecisions]
      · rfl
      · constructor
        · exact pending
        all_goals
          intro waiting
          rw [pending] at waiting
          cases waiting
      · intro last final
        cases final
    refine ⟨?_, ?_, kept.toSameConfig⟩
    · rw [Accounted, idle]
      exact empty
    · rw [SenderMapped, idle]
      exact mapped
  · intro before action after ih stepped
    obtain ⟨accounted, mapped, config⟩ := ih
    obtain ⟨allowed, stepped⟩ := Machine.guarded_step stepped
    have move := send_step_move stepped
    exact ⟨move_accounted accounted mapped allowed move, move_mapped mapped move,
      config.trans (move_config move)⟩

/-- The classifier of a producer between two calls is what its logical messages make
it, each counted once. -/
structure ClassifiedOnce (env : InitEnv) (sender : Sender) : Prop where
  once : sender.attempts.filter Attempt.classified = logicalMessages sender.attempts
  ewma : sender.ctx.ewmaSize =
    smoothedSize (resolveAlpha env) ((logicalMessages sender.attempts).map Attempt.size)
  decisions : env.stats = true →
    sender.ctx.st.decisions = UInt64.ofNat (logicalMessages sender.attempts).length
  switches : env.stats = true → sender.ctx.st.routeSwitches =
    UInt64.ofNat (routeChanges ((logicalMessages sender.attempts).map Attempt.lastRoute))

theorem counted_sizes (attempts : List Attempt) :
    (counted attempts).map Prod.fst = (logicalMessages attempts).map Attempt.size := by
  simp [counted, Attempt.message, Function.comp_def]

theorem counted_routes (attempts : List Attempt) :
    (counted attempts).map Prod.snd = (logicalMessages attempts).map Attempt.lastRoute := by
  simp [counted, Attempt.message, Function.comp_def]

theorem routes_by_size {cfg : AdaptConfig} {env : InitEnv} {sender : Sender} {rc : Option Status}
    (reached : ((sendMachine cfg env).guarded wellJudged).Reachable sender)
    (idle : sender.pc = .idle rc)
    (bySize : resolvePolicy cfg env = .sizeOnly ∨ resolvePolicy cfg env = .sizeHysteresis) :
    (logicalMessages sender.attempts).map Attempt.lastRoute =
      (sizeDecisions (resolvePolicy cfg env) (resolveAlpha env)
        ((logicalMessages sender.attempts).map Attempt.size)).2 := by
  obtain ⟨accounted, _, config⟩ := move_stays_accounted reached
  rw [Accounted, idle] at accounted
  have policy : sender.ctx.policy = resolvePolicy cfg env := config.policy
  have alpha : sender.ctx.alpha = resolveAlpha env := config.alpha
  have tally := accounted.tally.bySize (by rw [policy]; exact bySize)
  rw [counted_routes, counted_sizes, policy, alpha] at tally
  exact tally

theorem messages_classified_once {cfg : AdaptConfig} {env : InitEnv} {sender : Sender}
    {rc : Option Status} (reached : ((sendMachine cfg env).guarded wellJudged).Reachable sender)
    (idle : sender.pc = .idle rc) :
    ClassifiedOnce env sender ∧
      (resolvePolicy cfg env = .sizeOnly ∨ resolvePolicy cfg env = .sizeHysteresis →
        ∀ (otherCfg : AdaptConfig) (otherEnv : InitEnv) (other : Sender) (otherRc : Option Status),
          ((sendMachine otherCfg otherEnv).guarded wellJudged).Reachable other →
          other.pc = .idle otherRc →
          resolvePolicy otherCfg otherEnv = resolvePolicy cfg env →
          resolveAlpha otherEnv = resolveAlpha env →
          (logicalMessages other.attempts).map Attempt.size =
            (logicalMessages sender.attempts).map Attempt.size →
          (logicalMessages other.attempts).map Attempt.lastRoute =
            (logicalMessages sender.attempts).map Attempt.lastRoute) := by
  constructor
  · obtain ⟨accounted, _, config⟩ := move_stays_accounted reached
    rw [Accounted, idle] at accounted
    have alpha : sender.ctx.alpha = resolveAlpha env := config.alpha
    have stats : sender.ctx.statsOn = env.stats := config.statsOn
    have tally := accounted.tally
    constructor
    · exact accounted.flags
    · rw [← alpha, ← counted_sizes]
      exact tally.ewma
    · intro statsOn
      rw [tally.decisions (stats.trans statsOn), counted, List.length_map]
    · intro statsOn
      rw [tally.switches (stats.trans statsOn), counted_routes]
  · intro bySize otherCfg otherEnv other otherRc otherReached otherIdle policy alpha sizes
    rw [routes_by_size reached idle bySize,
      routes_by_size otherReached otherIdle (by rw [policy]; exact bySize), policy, alpha, sizes]

/-- Two calls of 3 bytes each: the first is answered `-ECONNREFUSED` by the socket, the
second is sent, and both are smoothed in. -/
def refusedThenSent : List SendAction :=
  [.call quietEnv (some [1, 2, 3]),
    .step { quietEnv with status := .error .econnrefused },
    .call quietEnv (some [1, 2, 3]), .step quietEnv]

def SendPc.isIdle : SendPc → Bool
  | .idle _ => true
  | _ => false

theorem SendPc.returned {pc : SendPc} (idle : pc.isIdle = true) : ∃ rc, pc = .idle rc := by
  cases pc with
  | idle rc => exact ⟨rc, rfl⟩
  | _ => cases idle

/-- A producer that does not block, with its ring mapped from the start. -/
def unblockedConfig : AdaptConfig := { plainConfig 4096 with nonblockingSend := true }

def unblockedContext : AdaptCtx := { eagerContext with nonblockingSend := true }

/-- A record of two bytes and one of 4086 fill the page. -/
def filledRing : RingState :=
  { pageRing with
    object := { pageRing.object with
      head := 4096
      data := fun i => (Library.Bytes.leBytes 4 2 ++ [1, 7] ++ Library.Bytes.leBytes 4 4086).getD i 0 } }

def loadedCall (payload : List UInt8) : List SendAction :=
  .call quietEnv (some payload) :: List.replicate 4 (.step quietEnv)

/-- 25000 bytes raise the average and are refused for their size; the byte after them finds
the ring full, and is tried again when the consumer has taken the first record. -/
def retriedOnRing : List SendAction :=
  loadedCall (List.replicate 25000 0) ++
    loadedCall [1] ++ [.ring .producer, .ring .producer, .step quietEnv] ++
    .ring (.callPop 16) :: List.replicate 9 (.ring .consumer) ++
    loadedCall [1] ++ List.replicate 9 (.ring .producer) ++ [.step quietEnv]

def sentOnRing : List SendAction :=
  loadedCall (List.replicate 25000 1) ++
    loadedCall [2] ++ List.replicate 9 (.ring .producer) ++ [.step quietEnv]

def callsOutcome (sender : Sender) : Bool × List Status × List UInt64 :=
  (sender.pc.isIdle, sender.attempts.map Attempt.result,
    (logicalMessages sender.attempts).map Attempt.size)

/-- The retried run and the direct one decide alike. -/
theorem messages_classified_once_retried :
    ∃ retried direct,
      ((sendMachine unblockedConfig eagerEnv).guarded wellJudged).run
        (startSender unblockedContext filledRing) retriedOnRing = some retried ∧
      ((sendMachine unblockedConfig eagerEnv).guarded wellJudged).run
        (startSender unblockedContext pageRing) sentOnRing = some direct ∧
      retried.attempts.map Attempt.result = [.error .emsgsize, .error .eagain, .ok ()] ∧
      (logicalMessages retried.attempts).map Attempt.size = [25000, 1] ∧
      ClassifiedOnce eagerEnv retried ∧
      (logicalMessages direct.attempts).map Attempt.lastRoute =
        (logicalMessages retried.attempts).map Attempt.lastRoute := by
  have first : (((sendMachine unblockedConfig eagerEnv).guarded wellJudged).run
      (startSender unblockedContext filledRing) retriedOnRing).map callsOutcome =
      some (true, [.error .emsgsize, .error .eagain, .ok ()], [25000, 1]) := by
    decide +kernel
  have second : (((sendMachine unblockedConfig eagerEnv).guarded wellJudged).run
      (startSender unblockedContext pageRing) sentOnRing).map callsOutcome =
      some (true, [.error .emsgsize, .ok ()], [25000, 1]) := by
    decide +kernel
  obtain ⟨retried, ranFirst, outcomeFirst⟩ := Option.map_eq_some_iff.mp first
  obtain ⟨direct, ranSecond, outcomeSecond⟩ := Option.map_eq_some_iff.mp second
  simp only [callsOutcome, Prod.mk.injEq] at outcomeFirst outcomeSecond
  obtain ⟨restsFirst, statuses, sizesFirst⟩ := outcomeFirst
  obtain ⟨restsSecond, _, sizesSecond⟩ := outcomeSecond
  obtain ⟨_, idleFirst⟩ := SendPc.returned restsFirst
  obtain ⟨_, idleSecond⟩ := SendPc.returned restsSecond
  have reachedFirst := Machine.reachable_run
    ((sendMachine unblockedConfig eagerEnv).guarded wellJudged)
    ⟨rfl, ⟨none, rfl⟩, rfl, rfl⟩ ranFirst
  have reachedSecond := Machine.reachable_run
    ((sendMachine unblockedConfig eagerEnv).guarded wellJudged)
    ⟨rfl, ⟨none, rfl⟩, rfl, rfl⟩ ranSecond
  obtain ⟨once, sameRoutes⟩ := messages_classified_once reachedFirst idleFirst
  refine ⟨retried, direct, ranFirst, ranSecond, statuses, sizesFirst, once, ?_⟩
  exact sameRoutes (by decide) unblockedConfig eagerEnv direct _ reachedSecond idleSecond rfl
    rfl (sizesSecond.trans sizesFirst.symm)

structure Unconnected (ctx : AdaptCtx) : Prop where
  role : ctx.role = .producer
  ring : ctx.ring = none
  negotDone : ctx.negotDone = false

theorem escalated_large (route : AdaptRoute) {size : UInt64} (large : oversize size = true) :
    escalated route size = .shm := by
  simp only [escalated, large, and_true]
  split
  · rfl
  · next shm => simpa using shm

/-- An oversize call of an unconnected producer ends up waiting on the socket. -/
theorem large_call_negotiates {sender : Sender} {before : Option Status} {payload : List UInt8}
    (unconnected : Unconnected sender.ctx) (idle : sender.pc = .idle before) (env : SendEnv)
    (nonempty : payload.length ≠ 0)
    (large : oversize (UInt64.ofNat payload.length) = true)
    (fits : ¬sender.ctx.shmCapacity < UInt64.ofNat payload.length + 1) :
    ∃ next, sendStep sender (.call env (some payload)) = some next ∧
      ((∃ now, next.pc = .request now) ∨ ∃ deadline, next.pc = .awaitAck deadline) ∧
      next.attempts = sender.attempts ∧ next.draft.payload = payload ∧
      next.draft.handshake = none ∧
      next.draft.classified = !resumes sender.ctx (UInt64.ofNat payload.length) ∧
      Unconnected next.ctx ∧ next.ctx.shmCapacity = sender.ctx.shmCapacity ∧
      next.ctx.alpha = sender.ctx.alpha ∧
      next.ctx.pendingSize = UInt64.ofNat payload.length ∧ next.ctx.pendingRoute = .shm ∧
      next.ctx.ewmaSize =
        if resumes sender.ctx (UInt64.ofNat payload.length) then sender.ctx.ewmaSize
        else ewmaUpdate sender.ctx.ewmaSize sender.ctx.alpha (UInt64.ofNat payload.length) := by
  let opened := { sender with draft := openAttempt payload }.sample 0 env.clock none
  have config := decide_config opened env.clock env.waitClock
  have mapping := decide_mapping opened env.clock env.waitClock
  have guarded := guard_retry_only
    (routeMessage opened.ctx opened.draft.size env.clock env.waitClock).2
    (routeMessage opened.ctx opened.draft.size env.clock env.waitClock).1 opened.draft.size
  have admitted : ¬(routeMessage opened.ctx opened.draft.size env.clock
      env.waitClock).2.shmCapacity < opened.draft.size + 1 := by
    rw [← guarded.shmCapacity]
    exact config.shmCapacity ▸ fits
  have accepted : (opened.decide env.clock env.waitClock).1 = .ok .shm := by
    have result := guard_result
      (routeMessage opened.ctx opened.draft.size env.clock env.waitClock).2
      (routeMessage opened.ctx opened.draft.size env.clock env.waitClock).1 opened.draft.size
    have shm := escalated_large
      (routeMessage opened.ctx opened.draft.size env.clock env.waitClock).1 large
    exact result.trans (by rw [if_neg (fun both => admitted both.2)]; exact congrArg Except.ok shm)
  obtain ⟨_, _, _, size, route⟩ := guard_accepts accepted
  have unmapped : (opened.decide env.clock env.waitClock).2.ctx.ring = none :=
    mapping.ring.trans unconnected.ring
  have waiting : (opened.decide env.clock env.waitClock).2.ctx.negotDone = false :=
    mapping.negotDone.trans unconnected.negotDone
  have good : checkArguments sender.ctx (some payload) = .ok payload := by
    simp only [checkArguments, nonempty, unconnected.role, ne_eq, not_true, if_false]
  have dispatched : opened.dispatch env env.clock =
      some ((opened.decide env.clock env.waitClock).2.negotiate env) := by
    simp only [Sender.dispatch, accepted, unmapped, and_self, if_true, Sender.ensureShm, waiting,
      Bool.false_eq_true, if_false]
  have called : sendStep sender (.call env (some payload)) =
      some ((opened.decide env.clock env.waitClock).2.negotiate env) := by
    rw [← dispatched, sendStep, Sender.call]
    split
    · simp only [good, unconnected.ring, Option.isSome_none, Bool.false_eq_true, if_false]
      rfl
    · next other => exact absurd idle (other before)
  have named := name_mapping_only (opened.decide env.clock env.waitClock).2.ctx env.pid
    env.negCounter
  have link := name_keeps_ring (opened.decide env.clock env.waitClock).2.ctx env.pid
    env.negCounter
  refine ⟨_, called, ?_, rfl, rfl, rfl, rfl, ?_, ?_, ?_, ?_, ?_, ?_⟩
  · simp only [Sender.negotiate]
    split
    · exact Or.inl ⟨_, rfl⟩
    · exact Or.inr ⟨_, rfl⟩
  · exact ⟨named.role.trans (config.role.trans unconnected.role), link.1.trans unmapped,
      link.2.trans waiting⟩
  · exact named.shmCapacity.trans config.shmCapacity
  · exact named.alpha.trans config.alpha
  · exact named.pendingSize.trans size
  · exact named.pendingRoute.trans route
  · apply (named.ewmaSize.trans guarded.ewmaSize).trans
    cases resumed : resumes sender.ctx (UInt64.ofNat payload.length) with
    | true => rw [decide_resumed resumed]; rfl
    | false => rw [decide_fresh resumed]; exact classify_ewma _ _ _ _

theorem refused_handshake_returns {sender : Sender} {code : Errno}
    (waiting : (∃ now, sender.pc = .request now) ∨ ∃ deadline, sender.pc = .awaitAck deadline)
    (large : oversize sender.draft.size = true) (env : SendEnv)
    (refused : env.status = .error code) (failed : env.received = .error code)
    (other : code ≠ .eagain) :
    sendStep sender (.step env) = some ((sender.handshakeFailure code).2.finish
      (.error (if code = .etimedout then .eagain else code))) := by
  have failing : sender.failHandshake code env.later = some
      ((sender.handshakeFailure code).2.finish
        (.error (if code = .etimedout then .eagain else code))) := by
    simp only [Sender.failHandshake, Sender.handshakeFailure, handshakeFailed, large, if_true]
  rcases waiting with ⟨now, here⟩ | ⟨deadline, here⟩
  · simp only [sendStep, Sender.step, here, refused, failing]
  · simp only [sendStep, Sender.step, here, failed, other, if_false, failing]

/-- Such a call, refused: whatever the errno, the next call of the size resumes it. -/
theorem refused_call {cfg : AdaptConfig} {init : InitEnv} {sender : Sender}
    {before : Option Status} {payload : List UInt8} {code : Errno}
    (unconnected : Unconnected sender.ctx) (idle : sender.pc = .idle before) (env : SendEnv)
    (nonempty : payload.length ≠ 0) (large : oversize (UInt64.ofNat payload.length) = true)
    (fits : ¬sender.ctx.shmCapacity < UInt64.ofNat payload.length + 1)
    (refused : env.status = .error code) (failed : env.received = .error code)
    (other : code ≠ .eagain) :
    ∃ next attempt, (sendMachine cfg init).run sender [.call env (some payload), .step env] =
        some next ∧
      (∃ rc, next.pc = .idle rc) ∧ next.attempts = sender.attempts ++ [attempt] ∧
      attempt.payload = payload ∧
      attempt.result = .error (if code = .etimedout then .eagain else code) ∧
      Unconnected next.ctx ∧ next.ctx.shmCapacity = sender.ctx.shmCapacity ∧
      next.ctx.alpha = sender.ctx.alpha ∧
      resumes next.ctx (UInt64.ofNat payload.length) = true ∧
      next.ctx.ewmaSize =
        if resumes sender.ctx (UInt64.ofNat payload.length) then sender.ctx.ewmaSize
        else ewmaUpdate sender.ctx.ewmaSize sender.ctx.alpha (UInt64.ofNat payload.length) := by
  obtain ⟨waiting, called, place, kept, draft, asked, flag, still, capacity, alpha, size, route,
    ewma⟩ := large_call_negotiates unconnected idle env nonempty large fits
  have drafted : waiting.draft.size = UInt64.ofNat payload.length := by
    rw [Attempt.size, draft]
  have returned := refused_handshake_returns place (by rw [drafted]; exact large) env refused
    failed other
  have noted := handshake_failed_retry_only waiting.ctx waiting.draft.size code
  have left : (waiting.handshakeFailure code).2.ctx = { waiting.ctx with retryPending := true } := by
    simp only [Sender.handshakeFailure, handshakeFailed, drafted, large, if_true]
  refine ⟨(waiting.handshakeFailure code).2.finish
      (.error (if code = .etimedout then .eagain else code)),
    (waiting.handshakeFailure code).2.closed
      (.error (if code = .etimedout then .eagain else code)),
    ?_, ⟨_, rfl⟩, ?_, draft, rfl, ?_, ?_, ?_, ?_, ?_⟩
  · simp only [Machine.run, sendMachine, called, returned]
  · rw [← kept]
    rfl
  · exact ⟨noted.role.trans still.role, noted.ring.trans still.ring,
      noted.negotDone.trans still.negotDone⟩
  · exact noted.shmCapacity.trans capacity
  · exact noted.alpha.trans alpha
  · simp [Sender.finish, left, resumes, size, route]
  · exact noted.ewmaSize.trans ewma

/-- A refused peer, answered twice: both sends return `-ECONNREFUSED`, so they are two
messages, and the second is not smoothed in. -/
theorem refused_message_is_not_counted :
    ∃ sender rc, (sendMachine (plainConfig 65536) plainEnv).Reachable sender ∧
      sender.pc = .idle rc ∧
      (logicalMessages sender.attempts).map Attempt.size = [5000, 5000] ∧
      sender.ctx.ewmaSize = 1000 ∧
      smoothedSize (resolveAlpha plainEnv) [5000, 5000] = 1800 := by
  let payload : List UInt8 := List.replicate 5000 0
  have length : payload.length = 5000 := List.length_replicate
  have size : UInt64.ofNat payload.length = 5000 := by rw [length]; rfl
  let env : SendEnv := { quietEnv with
    status := .error .econnrefused
    received := .error .econnrefused }
  let start := startSender (plainContext 65536) pageRing
  have unconnected : Unconnected start.ctx := ⟨rfl, rfl, rfl⟩
  have large : oversize (UInt64.ofNat payload.length) = true := by rw [size]; decide
  have small : ¬start.ctx.shmCapacity < UInt64.ofNat payload.length + 1 := by rw [size]; decide
  obtain ⟨first, one, ran, ⟨rc, idle⟩, attempts, drafted, result, still, capacity, alpha, resumed,
    ewma⟩ := @refused_call (plainConfig 65536) plainEnv start none payload .econnrefused unconnected
      rfl env (by rw [length]; decide) large small rfl rfl (by decide)
  obtain ⟨second, two, again, ⟨code, ended⟩, twice, redrafted, repeated, _, _, _, _, smoothed⟩ :=
    @refused_call (plainConfig 65536) plainEnv first rc payload .econnrefused still idle env
      (by rw [length]; decide) large (by rw [capacity]; exact small) rfl rfl (by decide)
  have fresh : resumes start.ctx (UInt64.ofNat payload.length) = false := rfl
  have start_reached : (sendMachine (plainConfig 65536) plainEnv).Reachable start :=
    Machine.reachable_initial ⟨plain_init 65536, ⟨none, rfl⟩, rfl, rfl⟩
  have reached := Machine.reachable_path
    (Machine.reachable_path start_reached (Machine.reachable_from_run ran))
    (Machine.reachable_from_run again)
  refine ⟨second, code, reached, ended, ?_, ?_, ?_⟩
  · have history : second.attempts = [one, two] := by rw [twice, attempts]; rfl
    have sizes : one.size = 5000 ∧ two.size = 5000 := by
      rw [Attempt.size, Attempt.size, drafted, redrafted]
      exact ⟨size, size⟩
    have separate : retries (some one) two.size = false := by
      have refused : one.result = .error .econnrefused := result
      simp [retries, refused, Errno.eagain, Errno.econnrefused]
    have messages : logicalMessages second.attempts = [one, two] := by
      rw [history]
      simp only [logicalMessages, logicalFrom, separate]
      rfl
    rw [messages]
    simp [sizes]
  · have once : ewmaUpdate 0 (1 / 5) 5000 = 1000 := by decide +kernel
    rw [smoothed, if_pos resumed, ewma, fresh, size]
    exact once
  · decide +kernel

end AdaptIpc.Endpoint
