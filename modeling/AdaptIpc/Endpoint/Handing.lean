import AdaptIpc.Endpoint.Placing
import AdaptIpc.Endpoint.Redelivery

/-!
# What a receive call hands over

Every datagram that arrives is taken off the socket once and in order. A call of
`adapt_recv` with room for its message services the control frames it meets and
returns the payload of the first data frame, of whichever transport, whole and
without its tag.
-/

namespace AdaptIpc.Endpoint

open AdaptIpc.Ring AdaptIpc.Policy AdaptIpc.Library.Transition

set_option autoImplicit false

def datagramsOf (met : List (AdaptRoute × List UInt8)) : List (List UInt8) :=
  met.filterMap fun message => if message.1 = .uds then some message.2 else none

theorem datagrams_append (met more : List (AdaptRoute × List UInt8)) :
    datagramsOf (met ++ more) = datagramsOf met ++ datagramsOf more := List.filterMap_append

/-- The datagrams taken so far and those still queued. -/
def Receiver.arrivals (receiver : Receiver) : List (List UInt8) :=
  datagramsOf (metBy receiver.receipts receiver.draft receiver.pc) ++ receiver.inbox

def Receiver.callArrivals (receiver : Receiver) : List (List UInt8) :=
  datagramsOf (receiver.receipts.flatMap Receipt.met ++ receiver.draft.met) ++ receiver.inbox

section Arrivals

variable {receiver next received : Receiver}

theorem finish_arrivals (receiver : Receiver) (result : Except Int (List UInt8)) :
    (receiver.finish result).arrivals = receiver.callArrivals := by
  simp [Receiver.arrivals, Receiver.callArrivals, Receiver.finish, metBy, Receiver.closed]

theorem busy_arrivals (busy : ∀ result, receiver.pc ≠ .idle result) :
    receiver.arrivals = receiver.callArrivals := by
  simp only [Receiver.arrivals, Receiver.callArrivals]
  cases here : receiver.pc with
  | idle result => exact absurd here (busy result)
  | _ => rfl

theorem opened_arrivals {before : Option (Except Int (List UInt8))} (idle : receiver.pc = .idle before)
    (entry : RecvEntry) (buffer : Option Nat) :
    (receiver.opened entry buffer).callArrivals = receiver.arrivals := by
  simp [Receiver.arrivals, Receiver.callArrivals, Receiver.opened, openReceipt, metBy, idle]

theorem looped_arrivals (looped : Looped receiver next) :
    next.arrivals = receiver.callArrivals := by
  cases looped <;> exact busy_arrivals (by simp)

theorem noted_arrivals (receiver : Receiver) (result : Except Errno (List UInt8)) :
    (receiver.notePopped result).callArrivals = receiver.callArrivals := by
  cases result with
  | error code => rfl
  | ok frame =>
      simp only [Receiver.callArrivals, Receiver.notePopped, Receiver.note, ← List.append_assoc]
      rw [datagrams_append _ [(AdaptRoute.shm, frame)]]
      simp [datagramsOf]

theorem received_arrivals {env : RecvEnv} {maxSize : Nat} {result : Except Errno (List UInt8)}
    (answered : Received env receiver maxSize result received) :
    received.callArrivals = receiver.callArrivals := by
  cases answered with
  | failed code cause => rfl
  | datagram frame rest queued room =>
      simp only [Receiver.callArrivals, Receiver.note, ← List.append_assoc, queued]
      rw [datagrams_append _ [(AdaptRoute.uds, frame)]]
      simp [datagramsOf]

theorem served_arrivals {env : RecvEnv} {frame : List UInt8} {served : Receiver}
    (handled : receiver.serve env frame = some served) :
    served.callArrivals = receiver.callArrivals := by
  have kept := serve_served handled
  simp only [Receiver.callArrivals, kept.inbox, kept.receipts, kept.draft]

theorem delivered_arrivals (receiver : Receiver) (n : Int) (tmp : List UInt8)
    (counter : AdaptStats → AdaptStats) :
    (receiver.deliver n tmp counter).arrivals = receiver.callArrivals := by
  obtain ⟨ctx, finished⟩ := deliver_finishes receiver n tmp counter
  rw [finished, finish_arrivals]
  rfl

/-- A step of the endpoint or of the ring takes datagrams in their order and loses none. -/
theorem move_arrivals {action : RecvAction} (own : ∀ datagram, action ≠ .arrive datagram)
    (move : RecvMove receiver action next) : next.arrivals = receiver.arrivals := by
  cases move with
  | rejected buffer before code idle bad =>
      rw [finish_arrivals, opened_arrivals idle]
  | entered buffer before maxSize next idle good looped =>
      rw [looped_arrivals looped, opened_arrivals idle]
  | rejectedUds buffer before code idle bad =>
      rw [finish_arrivals, opened_arrivals idle]
  | enteredUds buffer before maxSize idle good =>
      rw [busy_arrivals (by simp), ← opened_arrivals idle .recvUds buffer]
      rfl
  | popped env tmoInMsg result here returned positive =>
      rw [delivered_arrivals, noted_arrivals, busy_arrivals (by simp [here])]
  | popFailed env tmoInMsg result here returned nonpositive other =>
      rw [finish_arrivals, noted_arrivals, busy_arrivals (by simp [here])]
  | popEmpty env tmoInMsg result here returned empty =>
      rw [busy_arrivals (by simp), busy_arrivals (by simp [here]), ← noted_arrivals receiver result]
      rfl
  | served env tmoInMsg result received served next here answered more control handled looped =>
      rw [looped_arrivals looped, served_arrivals handled, busy_arrivals (by simp [here]),
        ← received_arrivals answered]
      rfl
  | received env tmoInMsg result received here answered more data =>
      rw [delivered_arrivals, busy_arrivals (by simp [here]), ← received_arrivals answered]
      rfl
  | pollFailed env tmoInMsg result received here answered nonpositive other =>
      rw [finish_arrivals, busy_arrivals (by simp [here]), ← received_arrivals answered]
      rfl
  | pollQuiet env tmoInMsg result received next here answered nothing looped =>
      rw [looped_arrivals looped, busy_arrivals (by simp [here]), ← received_arrivals answered]
      rfl
  | udsFailed env result received here answered nonpositive =>
      rw [finish_arrivals, busy_arrivals (by simp [here]), ← received_arrivals answered]
  | udsServed env result received next here answered positive control handled =>
      have same : next.pc = .pollingUds :=
        (serve_served handled).pc.trans ((received_taken answered).pc.trans here)
      rw [busy_arrivals (by simp [same]), served_arrivals handled, busy_arrivals (by simp [here]),
        received_arrivals answered]
  | udsTooLarge env result received here answered positive data large =>
      rw [finish_arrivals, busy_arrivals (by simp [here]), ← received_arrivals answered]
  | udsReceived env result received here answered positive data fits =>
      rw [finish_arrivals, busy_arrivals (by simp [here]), ← received_arrivals answered]
  | ring action after foreign moved => rfl
  | arrived datagram => exact absurd rfl (own datagram)

end Arrivals

structure Serviced (draft : Receipt) (controls : List (List UInt8)) : Prop where
  met : draft.met = controls.map (Prod.mk .uds)
  handled : draft.handled = controls
  control : ∀ frame ∈ controls, isControl frame = true

/-- What a finished call returned: an error and no message, or the payload of the only
data frame it met, which was the last. -/
inductive Handed (receipt : Receipt) : Prop where
  | failed (controls : List (List UInt8)) (code : Int) (serviced : Serviced receipt controls)
      (result : receipt.result = .error code)
  | delivered (controls : List (List UInt8)) (route : AdaptRoute) (payload : List UInt8)
      (transport : route = .shm ∨ route = .uds)
      (met : receipt.met = controls.map (Prod.mk .uds) ++ [(route, AdaptRoute.tag route :: payload)])
      (handled : receipt.handled = controls) (control : ∀ frame ∈ controls, isControl frame = true)
      (result : receipt.result = .ok payload)

/-- The frame whose payload the next step hands to the caller. -/
def Receiver.hands (receiver : Receiver) : Option (List UInt8) :=
  match receiver.pc with
  | .popping _ => (popResult receiver.ring).bind Except.toOption
  | .polling _ => receiver.takes.filter fun frame => !isControl frame
  | _ => none

/-- The consumer receives through `adapt_recv`, with room for the message. -/
def ampleBuffer (receiver : Receiver) : RecvAction → Bool
  | .call entry _ => decide (entry = .recv)
  | .step _ => receiver.hands.all fun frame => decide (frame.length ≤ receiver.draft.maxSize + 1)
  | _ => true

def HandAt (draft : Receipt) : RecvPc → Prop
  | .idle _ => True
  | .pollingUds => False
  | _ => ∃ controls, Serviced draft controls

structure Handing (receiver : Receiver) : Prop where
  receipts : ∀ receipt ∈ receiver.receipts, Handed receipt
  place : HandAt receiver.draft receiver.pc

structure Servicing (receiver : Receiver) : Prop where
  receipts : ∀ receipt ∈ receiver.receipts, Handed receipt
  serviced : ∃ controls, Serviced receiver.draft controls

section Hands

variable {receiver next received : Receiver}

theorem Servicing.finish {code : Int} (servicing : Servicing receiver) :
    Handing (receiver.finish (.error code)) where
  receipts := by
    intro receipt member
    rcases List.mem_append.mp member with old | new
    · exact servicing.receipts receipt old
    · obtain ⟨controls, serviced⟩ := servicing.serviced
      rw [List.mem_singleton.mp new]
      exact .failed controls code ⟨serviced.met, serviced.handled, serviced.control⟩ rfl
  place := trivial

theorem Servicing.looped (servicing : Servicing receiver) (looped : Looped receiver next) :
    Handing next := by
  cases looped <;> exact ⟨servicing.receipts, servicing.serviced⟩

theorem Servicing.delivered {route : AdaptRoute} {payload frame : List UInt8}
    (servicing : Servicing receiver) (short : frame.length < 2 ^ 31)
    (room : frame.length ≤ receiver.draft.maxSize + 1) (transport : route = .shm ∨ route = .uds)
    (framed : frame = AdaptRoute.tag route :: payload) (counter : AdaptStats → AdaptStats) :
    Handing ((receiver.note route frame).deliver (intOf frame.length) frame counter) := by
  obtain ⟨_, receipts, idle, _, _⟩ := @delivers_whole (receiver.note route frame) _ counter short room
  constructor
  · intro receipt member
    rw [receipts] at member
    rcases List.mem_append.mp member with old | new
    · exact servicing.receipts receipt old
    · obtain ⟨controls, serviced⟩ := servicing.serviced
      have met : receiver.draft.met ++ [(route, frame)] =
          controls.map (Prod.mk .uds) ++ [(route, AdaptRoute.tag route :: payload)] := by
        rw [serviced.met, framed]
      have result : (Except.ok (frame.drop 1) : Except Int (List UInt8)) = .ok payload := by
        rw [framed]
        rfl
      rw [List.mem_singleton.mp new]
      exact @Handed.delivered ((receiver.note route frame).closed (.ok (frame.drop 1))) controls
        route payload transport met serviced.handled serviced.control result
  · rw [idle]
    exact True.intro

theorem Servicing.served {env : RecvEnv} {frame : List UInt8} {served before : Receiver}
    (handled : before.serve env frame = some served) (servicing : Servicing receiver)
    (control : isControl frame = true) (receipts : before.receipts = receiver.receipts)
    (draft : before.draft = (receiver.note .uds frame).draft) : Servicing served := by
  have kept := serve_served handled
  obtain ⟨controls, serviced⟩ := servicing.serviced
  constructor
  · rw [kept.receipts, receipts]
    exact servicing.receipts
  · refine ⟨controls ++ [frame], ?_, ?_, ?_⟩
    · rw [kept.draft, draft]
      simp only [Receiver.note, serviced.met, List.map_append, List.map_cons, List.map_nil]
    · rw [kept.draft, draft]
      simp only [Receiver.note, serviced.handled]
    · intro other member
      rcases List.mem_append.mp member with old | new
      · exact serviced.control other old
      · rw [List.mem_singleton.mp new]
        exact control

theorem Handing.elsewhere (held : Handing receiver) : receiver.pc ≠ .pollingUds := by
  intro here
  have place := held.place
  rw [here] at place
  exact place

theorem Handing.servicing (held : Handing receiver) (busy : ∀ result, receiver.pc ≠ .idle result) :
    Servicing receiver := by
  have place := held.place
  refine ⟨held.receipts, ?_⟩
  cases here : receiver.pc with
  | idle result => exact absurd here (busy result)
  | pollingUds => exact absurd here held.elsewhere
  | _ =>
      rw [here] at place
      exact place

theorem Handing.opened (held : Handing receiver) (entry : RecvEntry) (buffer : Option Nat) :
    Servicing (receiver.opened entry buffer) :=
  ⟨held.receipts, [], rfl, rfl, by simp⟩

theorem whole_received {env : RecvEnv} {result : Except Errno (List UInt8)}
    (scratch : udsMaxDgram ≤ receiver.ctx.rxbufCap)
    (inbox : ∀ frame ∈ receiver.inbox, PeerDatagram frame)
    (answered : Received env receiver receiver.ctx.rxbufCap.toNat result received) :
    (received = receiver ∧ ∃ code, result = .error code) ∨
      ∃ frame rest, receiver.inbox = frame :: rest ∧ PeerDatagram frame ∧ result = .ok frame ∧
        intResult result = intOf frame.length ∧ 1 < intResult result ∧
        received = { receiver with inbox := rest }.note .uds frame := by
  cases answered with
  | failed code cause => exact Or.inl ⟨rfl, code, rfl⟩
  | datagram frame rest queued room =>
      have peer := inbox frame (by rw [queued]; exact List.mem_cons_self)
      have most := UInt64.le_iff_toNat_le.mp scratch
      have whole : frame.take receiver.ctx.rxbufCap.toNat = frame :=
        List.take_of_length_le (Nat.le_trans peer.2.1 most)
      obtain ⟨same, value, _⟩ := peer_received peer room
      have large := peer.1
      rw [same]
      rw [whole] at value ⊢
      refine Or.inr ⟨frame, rest, queued, peer, rfl, rfl, ?_, rfl⟩
      rw [value]
      omega

theorem popped_record {origin : List (List UInt8)} {head tail : Nat} {slots : List Slot}
    {tmoInMsg : Nat} {frame : List UInt8}
    (ring : RecvRing origin receiver head tail slots) (limit : receiver.ctx.rxbufCap.toNat < 2 ^ 31)
    (records : ∀ tmoInMsg frame, receiver.pc = .popping tmoInMsg →
      popResult receiver.ring = some (.ok frame) → ∃ payload, frame = shmFrame payload)
    (here : receiver.pc = .popping tmoInMsg) (returned : popResult receiver.ring = some (.ok frame)) :
    (∃ payload, frame = shmFrame payload) ∧ frame.length < 2 ^ 31 ∧ 0 < intResult (.ok frame) := by
  obtain ⟨_, fits, _⟩ := ring.returned here returned
  obtain ⟨payload, rfl⟩ := records tmoInMsg frame here returned
  have bound := fits (shmFrame payload) rfl
  have short : (shmFrame payload).length < 2 ^ 31 := by omega
  exact ⟨⟨payload, rfl⟩, short, positive_length (List.cons_ne_nil _ payload) short⟩

theorem move_handing {origin : List (List UInt8)} {head tail : Nat} {slots : List Slot}
    {action : RecvAction} (held : Handing receiver)
    (ring : RecvRing origin receiver head tail slots)
    (limit : receiver.ctx.rxbufCap.toNat < 2 ^ 31)
    (records : ∀ tmoInMsg frame, receiver.pc = .popping tmoInMsg →
      popResult receiver.ring = some (.ok frame) → ∃ payload, frame = shmFrame payload)
    (ample : ampleBuffer receiver action = true) (move : RecvMove receiver action next) :
    Handing next := by
  have peers : ∀ frame ∈ receiver.inbox, PeerDatagram frame :=
    fun frame member => (ring.inbox frame member).1
  cases move with
  | rejected buffer before code idle bad => exact (held.opened .recv buffer).finish
  | entered buffer before maxSize next idle good looped =>
      exact (held.opened .recv buffer).looped looped
  | rejectedUds buffer before code idle bad => cases ample
  | enteredUds buffer before maxSize idle good => cases ample
  | popped env tmoInMsg result here returned positive =>
      have servicing := held.servicing (by simp [here])
      cases result with
      | error code =>
          exact absurd positive (error_not_positive code)
      | ok frame =>
          obtain ⟨⟨payload, rfl⟩, short, _⟩ := popped_record ring limit records here returned
          have room : (shmFrame payload).length ≤ receiver.draft.maxSize + 1 := by
            simpa [ampleBuffer, Receiver.hands, here, returned, Except.toOption] using ample
          exact servicing.delivered short room (Or.inl rfl) rfl (countShm tmoInMsg)
  | popFailed env tmoInMsg result here returned nonpositive other =>
      have servicing := held.servicing (by simp [here])
      cases result with
      | error code => exact servicing.finish
      | ok frame =>
          obtain ⟨_, _, value⟩ := popped_record ring limit records here returned
          omega
  | popEmpty env tmoInMsg result here returned empty =>
      have servicing := held.servicing (by simp [here])
      cases result with
      | error code => exact ⟨servicing.receipts, servicing.serviced⟩
      | ok frame =>
          obtain ⟨_, _, value⟩ := popped_record ring limit records here returned
          have negative := int_code_negative .eagain
          omega
  | served env tmoInMsg result received served next here answered more control handled looped =>
      have servicing := held.servicing (by simp [here])
      rcases whole_received ring.scratch peers answered with
        ⟨_, code, rfl⟩ | ⟨frame, rest, queued, peer, rfl, value, _, rfl⟩
      · exact absurd (Int.lt_trans Int.one_pos more) (error_not_positive code)
      · exact (Servicing.served handled servicing control rfl rfl).looped looped
  | received env tmoInMsg result received here answered more data =>
      have servicing := held.servicing (by simp [here])
      rcases whole_received ring.scratch peers answered with
        ⟨_, code, rfl⟩ | ⟨frame, rest, queued, peer, rfl, value, _, rfl⟩
      · exact absurd (Int.lt_trans Int.one_pos more) (error_not_positive code)
      · obtain ⟨payload, rfl⟩ := peer_data peer data
        have most : udsMaxDgram.toNat = 4096 := rfl
        have small := peer.2.1
        have scratch := UInt64.le_iff_toNat_le.mp ring.scratch
        have whole : (udsFrame payload).take receiver.ctx.rxbufCap.toNat = udsFrame payload :=
          List.take_of_length_le (Nat.le_trans small scratch)
        have room : (udsFrame payload).length ≤ receiver.draft.maxSize + 1 := by
          simpa [ampleBuffer, Receiver.hands, Receiver.takes, here, queued, whole,
            uds_frame_data] using ample
        have taken : Servicing ({ receiver with inbox := rest }.counted countPoll) :=
          ⟨servicing.receipts, servicing.serviced⟩
        have short : (udsFrame payload).length < 2 ^ 31 := by omega
        exact taken.delivered short room (Or.inr rfl) rfl (countUds tmoInMsg)
  | pollFailed env tmoInMsg result received here answered nonpositive other =>
      have servicing := held.servicing (by simp [here])
      rcases whole_received ring.scratch peers answered with
        ⟨rfl, _⟩ | ⟨frame, rest, queued, peer, _, _, more, _⟩
      · have counted : Servicing (received.counted countPoll) :=
          ⟨servicing.receipts, servicing.serviced⟩
        exact counted.finish
      · omega
  | pollQuiet env tmoInMsg result received next here answered nothing looped =>
      have servicing := held.servicing (by simp [here])
      rcases whole_received ring.scratch peers answered with
        ⟨rfl, _⟩ | ⟨frame, rest, queued, peer, _, _, more, _⟩
      · have counted : Servicing ((received.counted countPoll).counted countTimeout) :=
          ⟨servicing.receipts, servicing.serviced⟩
        exact counted.looped looped
      · have negative := int_code_negative .eagain
        omega
  | udsFailed env result received here answered nonpositive =>
      exact absurd here held.elsewhere
  | udsServed env result received next here answered positive control handled =>
      exact absurd here held.elsewhere
  | udsTooLarge env result received here answered positive data large =>
      exact absurd here held.elsewhere
  | udsReceived env result received here answered positive data fits =>
      exact absurd here held.elsewhere
  | ring action after foreign moved => exact ⟨held.receipts, held.place⟩
  | arrived datagram => exact ⟨held.receipts, held.place⟩

end Hands

end AdaptIpc.Endpoint
