import AdaptIpc.Endpoint.Redelivery
import AdaptIpc.Library.Ledger

/-!
# The counters of a consumer against its history

With statistics on, `adapt_recv` counts each message it hands out once, on the
transport the frame came over, and every round of its loop is the first of a
call, one behind a served control frame, or one behind a timeout it counts.
Refused calls, refused buffers and `adapt_recv_uds_timeout` count nothing.
-/

namespace AdaptIpc.Endpoint

open AdaptIpc.Ring AdaptIpc.Policy AdaptIpc.Library.Transition AdaptIpc.Library.Ledger

set_option autoImplicit false

inductive RecvCounter where
  | msgs
  | shm
  | uds
  | rounds

def AdaptStats.got (st : AdaptStats) : RecvCounter → UInt64
  | .msgs => st.recvMsgs
  | .shm => st.rxShmFirst + st.rxShmLater
  | .uds => st.rxUdsPrompt + st.rxUdsLater
  | .rounds => st.recvLoopIters - st.pollTimeouts

def succeeded : Except Int (List UInt8) → Bool
  | .ok _ => true
  | .error _ => false

/-- A call of `adapt_recv` that handed out a message. -/
def Receipt.handsOut (receipt : Receipt) : Bool :=
  decide (receipt.entry = .recv) && succeeded receipt.result

def Receipt.source (receipt : Receipt) : Option AdaptRoute := receipt.met.getLast?.map Prod.fst

def Receipt.handsOutOver (receipt : Receipt) (route : AdaptRoute) : Bool :=
  receipt.handsOut && decide (receipt.source = some route)

/-- A call of `adapt_recv` that passed the checks of its arguments. -/
def Receipt.admitted (receipt : Receipt) : Bool :=
  decide (receipt.entry = .recv) && decide (2 ≤ receipt.maxSize)

def Receipt.rounds (receipt : Receipt) : UInt64 :=
  if receipt.admitted then UInt64.ofNat (receipt.handled.length + 1) else 0

def Receipt.adds (receipt : Receipt) : RecvCounter → UInt64
  | .msgs => one receipt.handsOut
  | .shm => one (receipt.handsOutOver .shm)
  | .uds => one (receipt.handsOutOver .uds)
  | .rounds => receipt.rounds

def Receipt.looping (receipt : Receipt) : RecvCounter → UInt64
  | .rounds => receipt.rounds
  | _ => 0

def messageAdds (route : AdaptRoute) : RecvCounter → UInt64
  | .msgs => 1
  | .shm => one (decide (route = .shm))
  | .uds => one (decide (route = .uds))
  | .rounds => 0

def roundAdds : RecvCounter → UInt64
  | .rounds => 1
  | _ => 0

def Receiver.running (receiver : Receiver) (counter : RecvCounter) : UInt64 :=
  match receiver.pc with
  | .popping _ => receiver.draft.looping counter
  | .polling _ => receiver.draft.looping counter
  | _ => 0

def countingConsumer : Machine Receiver RecvAction where
  initial receiver := (∃ before, receiver.pc = .idle before) ∧ receiver.receipts = [] ∧
    receiver.ctx.statsOn = true ∧ receiver.ctx.role = .consumer ∧ receiver.ctx.st = zeroStats
  step := recvStep

/-- The books with the call in progress. -/
structure RecvBooks (receiver : Receiver) (pending : RecvCounter → UInt64) : Prop where
  on : receiver.ctx.statsOn = true
  role : receiver.ctx.role = .consumer
  posted : ∀ counter, receiver.ctx.st.got counter =
    total Receipt.adds receiver.receipts counter + pending counter
  halves : receiver.ctx.st.recvMsgs = receiver.ctx.st.got .shm + receiver.ctx.st.got .uds

structure RecvBooked (receiver : Receiver) : Prop where
  books : RecvBooks receiver receiver.running
  call : CallAt receiver.ctx receiver.draft receiver.pc

section Parts

variable {receiver next : Receiver}

/-- `handle_control` moves no counter of the receive calls. -/
theorem control_counts {env : ControlEnv} {ctx after : AdaptCtx} {frame : List UInt8}
    {ack : Option (List UInt8)} (handled : handleControl env ctx frame = some (after, ack)) :
    after.statsOn = ctx.statsOn ∧ after.st.recvMsgs = ctx.st.recvMsgs ∧
      ∀ counter, after.st.got counter = ctx.st.got counter := by
  have attached : ∀ {cap32 : UInt32} {name : List UInt8} {mapped : AdaptCtx} {status : UInt8},
      attachNamed env ctx cap32 name = some (mapped, status) →
        mapped.statsOn = ctx.statsOn ∧ mapped.st = ctx.st := by
    intro cap32 name mapped status answered
    simp only [attachNamed] at answered
    split at answered
    · cases answered
      exact ⟨rfl, rfl⟩
    · split at answered
      · cases answered
      · cases answered
        exact ⟨rfl, rfl⟩
      · split at answered
        · cases answered
          exact ⟨rfl, rfl⟩
        · next grown room =>
          cases answered
          rw [grow_context room]
          exact ⟨rfl, rfl⟩
  simp only [handleControl] at handled
  split at handled
  · cases handled
    exact ⟨rfl, rfl, fun _ => rfl⟩
  · split at handled
    · cases handled
    · next mapped status answered =>
      obtain ⟨on, same⟩ := attached answered
      simp only [Option.some.injEq, Prod.mk.injEq] at handled
      rw [← handled.1, ← same, ← on]
      split
      · simp only [AdaptCtx.count]
        split
        · exact ⟨rfl, rfl, fun counter => by cases counter <;> rfl⟩
        · exact ⟨rfl, rfl, fun _ => rfl⟩
      · exact ⟨rfl, rfl, fun _ => rfl⟩

theorem serve_counts {env : RecvEnv} {frame : List UInt8} {served : Receiver}
    (handled : receiver.serve env frame = some served) :
    served.ctx.statsOn = receiver.ctx.statsOn ∧
      served.ctx.st.recvMsgs = receiver.ctx.st.recvMsgs ∧
      ∀ counter, served.ctx.st.got counter = receiver.ctx.st.got counter := by
  obtain ⟨⟨ctx, ack⟩, control, rfl⟩ := Option.map_eq_some_iff.mp handled
  exact control_counts control

theorem adds_refused_receipt (receipt : Receipt) (n : Int) (counter : RecvCounter) :
    ({ receipt with result := .error n } : Receipt).adds counter = receipt.looping counter := by
  cases counter with
  | rounds => rfl
  | _ => simp [Receipt.adds, Receipt.looping, Receipt.handsOutOver, Receipt.handsOut,
      succeeded, one]

theorem adds_delivered_receipt {receipt : Receipt} {route : AdaptRoute}
    (entry : receipt.entry = .recv) (source : receipt.source = some route)
    (payload : List UInt8) (counter : RecvCounter) :
    ({ receipt with result := .ok payload } : Receipt).adds counter =
      receipt.looping counter + messageAdds route counter := by
  have delivered : ({ receipt with result := .ok payload } : Receipt).handsOut = true := by
    simp [Receipt.handsOut, succeeded, entry]
  have across : ∀ other, ({ receipt with result := .ok payload } : Receipt).handsOutOver other =
      decide (route = other) := by
    intro other
    have same : ({ receipt with result := .ok payload } : Receipt).source = some route := source
    rw [Receipt.handsOutOver, delivered, same]
    simp
  cases counter with
  | rounds => exact (UInt64.add_zero _).symm
  | msgs =>
      rw [Receipt.adds, delivered]
      rfl
  | shm =>
      rw [Receipt.adds, across]
      exact (UInt64.zero_add _).symm
  | uds =>
      rw [Receipt.adds, across]
      exact (UInt64.zero_add _).symm

theorem refused_booked {n : Int} (books : RecvBooks receiver receiver.draft.looping) :
    RecvBooked (receiver.finish (.error n)) := by
  constructor
  · constructor
    case on => exact books.on
    case role => exact books.role
    case halves => exact books.halves
    case posted =>
      intro counter
      have still : (receiver.finish (.error n)).running counter = 0 := rfl
      rw [still, UInt64.add_zero]
      simp only [Receiver.finish, total_append, Receiver.closed, adds_refused_receipt]
      exact books.posted counter
  · trivial

theorem count_shm_got (tmoInMsg : Nat) (st : AdaptStats) (counter : RecvCounter) :
    (countShm tmoInMsg st).got counter = st.got counter + messageAdds .shm counter := by
  simp only [countShm]
  split <;> cases counter
  · rfl
  · exact (UInt64.add_assoc _ _ _).symm
  · exact (UInt64.add_zero _).symm
  · exact (UInt64.add_zero _).symm
  · rfl
  · exact add_right_comm st.rxShmFirst 1 st.rxShmLater
  · exact (UInt64.add_zero _).symm
  · exact (UInt64.add_zero _).symm

theorem count_uds_got (tmoInMsg : Nat) (st : AdaptStats) (counter : RecvCounter) :
    (countUds tmoInMsg st).got counter = st.got counter + messageAdds .uds counter := by
  simp only [countUds]
  split <;> cases counter
  · rfl
  · exact (UInt64.add_zero _).symm
  · exact (UInt64.add_assoc _ _ _).symm
  · exact (UInt64.add_zero _).symm
  · rfl
  · exact (UInt64.add_zero _).symm
  · exact add_right_comm st.rxUdsPrompt 1 st.rxUdsLater
  · exact (UInt64.add_zero _).symm

/-- The end of a call that took a data frame. -/
theorem deliver_booked {n : Int} {tmp : List UInt8} {update : AdaptStats → AdaptStats}
    {route : AdaptRoute} (books : RecvBooks receiver receiver.draft.looping)
    (entry : receiver.draft.entry = .recv) (source : receiver.draft.source = some route)
    (counts : ∀ st counter, (update st).got counter = st.got counter + messageAdds route counter)
    (carried : route = .shm ∨ route = .uds) :
    RecvBooked (receiver.deliver n tmp update) := by
  simp only [Receiver.deliver]
  split
  · exact refused_booked books
  · have counted : receiver.ctx.count update =
        { receiver.ctx with st := update receiver.ctx.st } := by
      simp only [AdaptCtx.count, books.on, if_true]
    rw [counted]
    constructor
    · constructor
      case on => exact books.on
      case role => exact books.role
      case posted =>
        intro counter
        have still : ∀ rc, ({ receiver with
            ctx := { receiver.ctx with st := update receiver.ctx.st } }.finish rc).running
              counter = 0 := fun _ => rfl
        rw [still, UInt64.add_zero]
        simp only [Receiver.finish, total_append, Receiver.closed,
          adds_delivered_receipt entry source, counts]
        rw [books.posted counter, UInt64.add_assoc]
      case halves =>
        have msgs := counts receiver.ctx.st .msgs
        refine msgs.trans ?_
        simp only [Receiver.finish]
        rw [counts, counts,
          show receiver.ctx.st.got .msgs = receiver.ctx.st.recvMsgs from rfl, books.halves]
        rcases carried with rfl | rfl
        · exact add_right_comm _ _ _ |>.trans (by simp [messageAdds, one])
        · exact (UInt64.add_assoc _ _ _).trans (by simp [messageAdds, one])
    · trivial

theorem looped_booked {pending : RecvCounter → UInt64} (looped : Looped receiver next)
    (books : RecvBooks receiver pending)
    (opens : ∀ counter, pending counter + roundAdds counter = receiver.draft.looping counter)
    (entry : receiver.draft.entry = .recv) (room : 2 ≤ receiver.draft.maxSize) :
    RecvBooked next := by
  have counted : receiver.ctx.count countLoop =
      { receiver.ctx with st := countLoop receiver.ctx.st } := by
    simp only [AdaptCtx.count, books.on, if_true]
  have posted : ∀ counter, (countLoop receiver.ctx.st).got counter =
      total Receipt.adds receiver.receipts counter + receiver.draft.looping counter := by
    intro counter
    have round : (countLoop receiver.ctx.st).got counter =
        receiver.ctx.st.got counter + roundAdds counter := by
      cases counter with
      | rounds =>
          simp only [AdaptStats.got, countLoop, roundAdds]
          grind
      | _ => exact (UInt64.add_zero _).symm
    rw [round, books.posted counter, UInt64.add_assoc, opens counter]
  have call := looped_call_at looped entry room books.role
  cases looped with
  | polls tmoInMsg ring mapped called =>
      simp only [Receiver.counted, counted] at call ⊢
      exact ⟨⟨books.on, books.role, posted, books.halves⟩, call⟩
  | waits tmoInMsg unmapped =>
      simp only [Receiver.counted, counted] at call ⊢
      exact ⟨⟨books.on, books.role, posted, books.halves⟩, call⟩

theorem received_source {env : RecvEnv} {maxSize : Nat} {frame : List UInt8}
    {received : Receiver} (answered : Received env receiver maxSize (.ok frame) received) :
    received.draft.source = some .uds := by
  generalize outcome : (Except.ok frame : Except Errno (List UInt8)) = result at answered
  cases answered with
  | failed code cause => cases outcome
  | datagram datagram rest queued room => simp [Receipt.source, Receiver.note]

theorem positive_ok {result : Except Errno (List UInt8)} (positive : 0 < intResult result) :
    ∃ frame, result = .ok frame := by
  cases result with
  | ok frame => exact ⟨frame, rfl⟩
  | error code => exact absurd positive (error_not_positive code)

theorem taken_looping {received : Receiver} (taken : Taken receiver received) :
    received.draft.looping = receiver.draft.looping := by
  funext counter
  cases counter with
  | rounds =>
      simp [Receipt.looping, Receipt.rounds, Receipt.admitted, taken.entry, taken.maxSize,
        taken.handled]
  | _ => rfl

theorem RecvBooks.taken {received : Receiver} {pending : RecvCounter → UInt64}
    (books : RecvBooks receiver pending) (taken : Taken receiver received) :
    RecvBooks received pending where
  on := by rw [taken.ctx]; exact books.on
  role := by rw [taken.ctx]; exact books.role
  posted := by rw [taken.ctx, taken.receipts]; exact books.posted
  halves := by rw [taken.ctx]; exact books.halves

theorem RecvBooks.polled {pending : RecvCounter → UInt64} (books : RecvBooks receiver pending) :
    RecvBooks (receiver.counted countPoll) pending := by
  have counted : receiver.counted countPoll =
      { receiver with ctx := { receiver.ctx with st := countPoll receiver.ctx.st } } := by
    simp only [Receiver.counted, AdaptCtx.count, books.on, if_true]
  rw [counted]
  refine ⟨books.on, books.role, ?_, books.halves⟩
  intro counter
  refine Eq.trans ?_ (books.posted counter)
  cases counter <;> rfl

theorem RecvBooks.timedOut (books : RecvBooks receiver receiver.draft.looping) :
    RecvBooks (receiver.counted countTimeout)
      (fun counter => receiver.draft.looping counter - roundAdds counter) := by
  have counted : receiver.counted countTimeout =
      { receiver with ctx := { receiver.ctx with st := countTimeout receiver.ctx.st } } := by
    simp only [Receiver.counted, AdaptCtx.count, books.on, if_true]
  rw [counted]
  refine ⟨books.on, books.role, ?_, books.halves⟩
  intro counter
  have posted := books.posted counter
  cases counter with
  | rounds =>
      simp only [AdaptStats.got, countTimeout, roundAdds] at posted ⊢
      grind
  | _ =>
      refine posted.trans ?_
      simp only [roundAdds, UInt64.sub_zero]

theorem RecvBooks.served {env : RecvEnv} {frame : List UInt8} {served : Receiver}
    {pending : RecvCounter → UInt64} (books : RecvBooks receiver pending)
    (handled : receiver.serve env frame = some served) : RecvBooks served pending := by
  obtain ⟨on, msgs, got⟩ := serve_counts handled
  constructor
  · exact on.trans books.on
  · exact (serve_role handled).trans books.role
  · intro counter
    rw [got, (serve_served handled).receipts]
    exact books.posted counter
  · rw [msgs, got, got]
    exact books.halves

theorem looping_served {draft : Receipt} (entry : draft.entry = .recv) (room : 2 ≤ draft.maxSize)
    (frame : List UInt8) (counter : RecvCounter) :
    draft.looping counter + roundAdds counter =
      ({ draft with handled := draft.handled ++ [frame] } : Receipt).looping counter := by
  cases counter with
  | rounds =>
      simp only [Receipt.looping, Receipt.rounds, Receipt.admitted, entry, room, decide_true,
        Bool.and_self, if_true, List.length_append, List.length_singleton, UInt64.ofNat_add]
      rfl
  | _ => exact UInt64.add_zero _

/-- A call of `adapt_recv_uds_timeout` adds nothing. -/
theorem uds_finish_booked {rc : Except Int (List UInt8)} (books : RecvBooks receiver fun _ => 0)
    (entry : receiver.draft.entry = .recvUds) : RecvBooked (receiver.finish rc) := by
  have nothing : ∀ counter, (receiver.closed rc).adds counter = 0 := by
    have uds : (receiver.closed rc).entry = .recvUds := entry
    intro counter
    cases counter <;>
      simp [Receipt.adds, Receipt.handsOutOver, Receipt.handsOut, Receipt.rounds,
        Receipt.admitted, uds, one]
  refine ⟨⟨books.on, books.role, ?_, books.halves⟩, trivial⟩
  intro counter
  have still : (receiver.finish rc).running counter = 0 := rfl
  rw [still]
  simp only [Receiver.finish, total_append, nothing, UInt64.add_zero]
  exact (books.posted counter).trans (UInt64.add_zero _)

theorem looping_barred {ctx : AdaptCtx} {buffer : Option Nat} {code : Errno}
    (role : ctx.role = .consumer) (bad : checkBuffer ctx buffer = .error code) :
    (openReceipt .recv (buffer.getD 0)).looping = fun _ => 0 := by
  have small : buffer.getD 0 < 2 := by
    cases buffer with
    | none => exact Nat.zero_lt_two
    | some size =>
        simp only [checkBuffer, role] at bad
        split_ifs at bad with zero other few
        · simp [zero]
        · exact absurd rfl other
        · exact few
  have barred : (openReceipt .recv (buffer.getD 0)).admitted = false := by
    have few : ¬2 ≤ buffer.getD 0 := by omega
    simp only [Receipt.admitted, openReceipt, decide_true, Bool.true_and]
    exact decide_eq_false few
  funext counter
  cases counter <;> simp [Receipt.looping, Receipt.rounds, barred]

end Parts

section Steps

variable {receiver next : Receiver}

/-- Every step of a consumer keeps its books. -/
theorem move_recv_booked {action : RecvAction} (booked : RecvBooked receiver)
    (move : RecvMove receiver action next) : RecvBooked next := by
  obtain ⟨books, call⟩ := booked
  have between : ∀ before, receiver.pc = .idle before → RecvBooks receiver fun _ => 0 := by
    intro before idle
    have none : receiver.running = fun _ => 0 := by
      funext counter
      simp only [Receiver.running, idle]
    exact none ▸ books
  have looping : ∀ tmoInMsg, receiver.pc = .popping tmoInMsg ∨ receiver.pc = .polling tmoInMsg →
      RecvBooks receiver receiver.draft.looping := by
    intro tmoInMsg here
    have busy : receiver.running = receiver.draft.looping := by
      funext counter
      rcases here with here | here <;> simp only [Receiver.running, here]
    exact busy ▸ books
  have polling : receiver.pc = .pollingUds → RecvBooks receiver fun _ => 0 := by
    intro here
    have none : receiver.running = fun _ => 0 := by
      funext counter
      simp only [Receiver.running, here]
    exact none ▸ books
  cases move with
  | rejected buffer before code idle bad =>
      have opened := between before idle
      apply refused_booked
      rw [Receiver.opened, looping_barred opened.role bad]
      exact ⟨opened.on, opened.role, opened.posted, opened.halves⟩
  | entered buffer before maxSize next idle good looped =>
      have opened := between before idle
      obtain ⟨rfl, _, room⟩ := check_buffer_ok good
      apply looped_booked looped
        ⟨opened.on, opened.role, opened.posted, opened.halves⟩ _ rfl room
      intro counter
      cases counter with
      | rounds =>
          simp only [Receipt.looping, Receipt.rounds, Receipt.admitted, Receiver.opened,
            openReceipt, Option.getD_some, room, decide_true, Bool.and_self, if_true]
          rfl
      | _ => rfl
  | rejectedUds buffer before code idle bad =>
      have opened := between before idle
      exact uds_finish_booked ⟨opened.on, opened.role, opened.posted, opened.halves⟩ rfl
  | enteredUds buffer before maxSize idle good =>
      have opened := between before idle
      exact ⟨⟨opened.on, opened.role, opened.posted, opened.halves⟩, rfl⟩
  | popped env tmoInMsg result here returned positive =>
      rw [here] at call
      have looped := looping tmoInMsg (Or.inl here)
      obtain ⟨frame, rfl⟩ := positive_ok positive
      have noted : (receiver.notePopped (.ok frame)).draft.looping = receiver.draft.looping := by
        funext counter
        cases counter <;> rfl
      have books : RecvBooks (receiver.notePopped (.ok frame)) receiver.draft.looping :=
        ⟨looped.on, looped.role, looped.posted, looped.halves⟩
      have source : (receiver.notePopped (.ok frame)).draft.source = some .shm := by
        simp [Receiver.notePopped, Receiver.note, Receipt.source]
      rw [← noted] at books
      exact deliver_booked books call.1 source (count_shm_got tmoInMsg) (Or.inl rfl)
  | popFailed env tmoInMsg result here returned nonpositive other =>
      have looped := looping tmoInMsg (Or.inl here)
      apply refused_booked
      cases result <;> exact ⟨looped.on, looped.role, looped.posted, looped.halves⟩
  | popEmpty env tmoInMsg result here returned empty =>
      rw [here] at call
      have looped := looping tmoInMsg (Or.inl here)
      cases result <;> exact ⟨⟨looped.on, looped.role, looped.posted, looped.halves⟩, call⟩
  | served env tmoInMsg result received served next here answered more control handled looped =>
      rw [here] at call
      have taken := received_taken answered
      have entry : received.draft.entry = .recv := taken.entry.trans call.1
      have room : 2 ≤ received.draft.maxSize := taken.maxSize ▸ call.2.1
      have books := (((looping tmoInMsg (Or.inr here)).taken taken).polled).served handled
      have draft := (serve_served handled).draft
      apply looped_booked looped books
      · rw [draft, ← taken_looping taken]
        exact looping_served entry room (bufferBytes result)
      · rw [draft]
        exact entry
      · rw [draft]
        exact room
  | received env tmoInMsg result received here answered more data =>
      rw [here] at call
      have taken := received_taken answered
      have books := ((looping tmoInMsg (Or.inr here)).taken taken).polled
      rw [← taken_looping taken] at books
      obtain ⟨frame, rfl⟩ := positive_ok (show 0 < intResult result by omega)
      have source : received.draft.source = some .uds := received_source answered
      exact deliver_booked books (taken.entry.trans call.1) source (count_uds_got tmoInMsg)
        (Or.inr rfl)
  | pollFailed env tmoInMsg result received here answered nonpositive other =>
      have taken := received_taken answered
      have books := ((looping tmoInMsg (Or.inr here)).taken taken).polled
      rw [← taken_looping taken] at books
      exact refused_booked books
  | pollQuiet env tmoInMsg result received next here answered nothing looped =>
      rw [here] at call
      have taken := received_taken answered
      have books := ((looping tmoInMsg (Or.inr here)).taken taken).polled
      rw [← taken_looping taken] at books
      apply looped_booked looped books.timedOut
      · intro counter
        exact UInt64.sub_add_cancel _ _
      · exact taken.entry.trans call.1
      · exact taken.maxSize ▸ call.2.1
  | udsFailed env result received here answered nonpositive =>
      rw [here] at call
      have taken := received_taken answered
      exact uds_finish_booked ((polling here).taken taken) (taken.entry.trans call)
  | udsServed env result received next here answered positive control handled =>
      rw [here] at call
      have taken := received_taken answered
      have kept := serve_served handled
      have place : next.pc = .pollingUds := kept.pc.trans (taken.pc.trans here)
      have still : next.running = fun _ => 0 := by
        funext counter
        simp only [Receiver.running, place]
      constructor
      · rw [still]
        exact ((polling here).taken taken).served handled
      · rw [place, kept.draft]
        exact taken.entry.trans call
  | udsTooLarge env result received here answered positive data large =>
      rw [here] at call
      have taken := received_taken answered
      exact uds_finish_booked ((polling here).taken taken) (taken.entry.trans call)
  | udsReceived env result received here answered positive data fits =>
      rw [here] at call
      have taken := received_taken answered
      exact uds_finish_booked ((polling here).taken taken) (taken.entry.trans call)
  | ring action after foreign moved =>
      exact ⟨⟨books.on, books.role, books.posted, books.halves⟩, call⟩
  | arrived datagram => exact ⟨⟨books.on, books.role, books.posted, books.halves⟩, call⟩

end Steps

theorem reachable_recv_booked {receiver : Receiver} (reached : countingConsumer.Reachable receiver) :
    RecvBooked receiver := by
  apply Machine.invariant_of_reachable countingConsumer RecvBooked _ _ reached
  · intro start starts
    obtain ⟨⟨before, idle⟩, none, on, role, blank⟩ := starts
    constructor
    · refine ⟨on, role, ?_, ?_⟩
      · intro counter
        simp only [Receiver.running, idle, none, blank]
        cases counter <;> rfl
      · rw [blank]
        rfl
    · rw [idle]
      trivial
  · intro before action after booked stepped
    exact move_recv_booked booked (recv_step_move stepped)

/-- Between two calls `recv_msgs` counts the messages `adapt_recv` has handed out, the four
transport counters count them by the transport they came over, and the rounds of the loop
are the admitted calls, the control frames these served and the timeouts. -/
theorem receive_counters {receiver : Receiver} {before : Option (Except Int (List UInt8))}
    (reached : countingConsumer.Reachable receiver) (idle : receiver.pc = .idle before) :
    receiver.ctx.st.recvMsgs = UInt64.ofNat (receiver.receipts.countP Receipt.handsOut) ∧
      receiver.ctx.st.rxShmFirst + receiver.ctx.st.rxShmLater =
        UInt64.ofNat (receiver.receipts.countP fun receipt => receipt.handsOutOver .shm) ∧
      receiver.ctx.st.rxUdsPrompt + receiver.ctx.st.rxUdsLater =
        UInt64.ofNat (receiver.receipts.countP fun receipt => receipt.handsOutOver .uds) ∧
      receiver.ctx.st.recvMsgs = receiver.ctx.st.rxShmFirst + receiver.ctx.st.rxShmLater +
        (receiver.ctx.st.rxUdsPrompt + receiver.ctx.st.rxUdsLater) ∧
      receiver.ctx.st.recvLoopIters =
        (receiver.receipts.map Receipt.rounds).sum + receiver.ctx.st.pollTimeouts := by
  have booked := reachable_recv_booked reached
  have sums : ∀ counter, receiver.ctx.st.got counter =
      total Receipt.adds receiver.receipts counter := by
    intro counter
    have posted := booked.books.posted counter
    simp only [Receiver.running, idle, UInt64.add_zero] at posted
    exact posted
  refine ⟨?_, ?_, ?_, booked.books.halves, ?_⟩
  · rw [← counted_word, ← @total_count _ _ _ _ _ Receipt.adds .msgs _ (fun _ => rfl)]
    exact sums .msgs
  · rw [← counted_word, ← @total_count _ _ _ _ _ Receipt.adds .shm _ (fun _ => rfl)]
    exact sums .shm
  · rw [← counted_word, ← @total_count _ _ _ _ _ Receipt.adds .uds _ (fun _ => rfl)]
    exact sums .uds
  · have rounds : receiver.ctx.st.recvLoopIters - receiver.ctx.st.pollTimeouts =
        (receiver.receipts.map Receipt.rounds).sum := sums .rounds
    rw [← rounds]
    exact (UInt64.sub_add_cancel _ _).symm

def RecvPc.isIdle : RecvPc → Bool
  | .idle _ => true
  | _ => false

def countingThreeBytes : Receiver :=
  { threeBytesWaiting with ctx := { threeBytesWaiting.ctx with statsOn := true } }

/-- A timeout, then the datagram: one message over the socket, two rounds. -/
theorem receive_counters_three_bytes :
    ∃ receiver rc, countingConsumer.run countingThreeBytes
        [.call .recv (some 16), .step { quietRecv with failure := some .eagain },
          .step quietRecv] = some receiver ∧
      receiver.pc = .idle rc ∧ receiver.ctx.st.rxUdsLater = 1 ∧
      receiver.ctx.st.recvLoopIters = 2 ∧
      receiver.ctx.st.recvMsgs = UInt64.ofNat (receiver.receipts.countP Receipt.handsOut) ∧
      receiver.ctx.st.recvLoopIters =
        (receiver.receipts.map Receipt.rounds).sum + receiver.ctx.st.pollTimeouts := by
  have measured : (countingConsumer.run countingThreeBytes
      [.call .recv (some 16), .step { quietRecv with failure := some .eagain },
        .step quietRecv]).map (fun receiver => (receiver.pc.isIdle,
          receiver.ctx.st.rxUdsLater, receiver.ctx.st.recvLoopIters)) =
      some (true, 1, 2) := by decide +kernel
  obtain ⟨receiver, ran, result⟩ := Option.map_eq_some_iff.mp measured
  simp only [Prod.mk.injEq] at result
  obtain ⟨returned, later, rounds⟩ := result
  have reached := Machine.reachable_run countingConsumer
    ⟨⟨none, rfl⟩, rfl, rfl, rfl, rfl⟩ ran
  cases idle : receiver.pc with
  | idle rc =>
      have counters := receive_counters reached idle
      exact ⟨receiver, rc, ran, idle, later, rounds, counters.1, counters.2.2.2.2⟩
  | _ => simp [idle, RecvPc.isIdle] at returned

end AdaptIpc.Endpoint
