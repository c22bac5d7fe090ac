import AdaptIpc.Endpoint.Backlog
import AdaptIpc.Endpoint.Handing
import AdaptIpc.Endpoint.Handshake

/-!
# Delivery from end to end

Producer and consumer over one ring object and a reliable, ordered socket: what
`adapt_send` hands to the kernel is queued at the consumer at once, the handshake
shares that socket with the data, and the two ring threads interleave as they
like. Each send that returns 0 has put its payload on one transport, and what the
consumer returns from either transport is a prefix of what was put there.
-/

namespace AdaptIpc.Endpoint

open AdaptIpc.Ring AdaptIpc.Policy AdaptIpc.Library.Transition

set_option autoImplicit false

/-- The consumer's calls are its own: a step of the producer or of the ring enters none. -/
def SendAction.entersNoPop : SendAction → Bool
  | .ring action => !action.entersConsumer
  | _ => true

def Link.afterSend (link : Link) (action : SendAction) (sender : Sender) : Link where
  sender := sender
  receiver := { link.receiver with
    ring := sender.ring
    inbox := link.receiver.inbox ++ link.sender.datagrams action }
  sent := link.sent ++ link.sender.datagrams action

def Link.afterRecv (link : Link) (receiver : Receiver) : Link :=
  { link with
    sender := { link.sender with ring := receiver.ring }
    receiver := receiver }

/-- The ring is one object: a step of either endpoint, or of the ring itself, is seen
by both. The ACKs may be late or repeated, nothing rests on their order. -/
def deliveryStep (link : Link) : LinkAction → Option Link
  | .send action =>
      if (link.sender.takes action).all (fun frame => decide (frame ∈ link.receiver.outbox)) &&
          action.entersNoPop then
        (sendStep link.sender action).map (link.afterSend action)
      else none
  | .recv (.ring _) => none
  | .recv (.arrive _) => none
  | .recv action => (recvStep link.receiver action).map link.afterRecv

/-- Two endpoints as `adapt_init` sets them up, in the same mode and with nothing under
way: both hold the ring, a new one, or neither does. -/
structure FreshLink (cfg : AdaptConfig) (env : InitEnv) (consumerCfg : AdaptConfig)
    (consumerEnv : InitEnv) (link : Link) : Prop where
  producer : (sharedMachine cfg env).initial link.sender
  consumer : adaptInit .consumer consumerCfg consumerEnv = some (.ok link.receiver.ctx)
  mode : link.receiver.ctx.ring = link.sender.ctx.ring
  ring : link.receiver.ring = link.sender.ring
  attached : link.receiver.ring.consumer =
    if link.receiver.ctx.ring.isSome then .idle none else .detached
  idle : ∃ before, link.receiver.pc = .idle before
  receipts : link.receiver.receipts = []
  inbox : link.receiver.inbox = []
  outbox : link.receiver.outbox = []
  sent : link.sent = []

def deliveryMachine (cfg : AdaptConfig) (env : InitEnv) (consumerCfg : AdaptConfig)
    (consumerEnv : InitEnv) : Machine Link LinkAction where
  initial := FreshLink cfg env consumerCfg consumerEnv
  step := deliveryStep

/-- The promises of the callers: payloads are objects, and the consumer receives with
room for its message. -/
def careful (link : Link) : LinkAction → Bool
  | .send action => sizedPayload action
  | .recv action => ampleBuffer link.receiver action

/-- The payloads of the finished sends that placed their frame there. -/
def Link.placed (link : Link) (route : AdaptRoute) : List (List UInt8) :=
  link.sender.attempts.filterMap fun attempt =>
    if attempt.placed = some route then some attempt.payload else none

/-- The payload of a send whose push has returned 0 already. -/
def Sender.publishing (sender : Sender) : List (List UInt8) :=
  match sender.pc with
  | .pushDirect _ | .pushBlocking _ =>
      if pushResult sender.ring = some (.ok ()) then [sender.draft.payload] else []
  | _ => []

/-- What a call returned from that transport: its message is the last it met. -/
def Receipt.delivered (receipt : Receipt) (route : AdaptRoute) : List (List UInt8) :=
  match receipt.result, receipt.met.getLast? with
  | .ok payload, some (source, _) => if source = route then [payload] else []
  | _, _ => []

def Link.delivered (link : Link) (route : AdaptRoute) : List (List UInt8) :=
  link.receiver.receipts.flatMap fun receipt => receipt.delivered route

/-- The frames given to `handle_control`, with those of the running call. -/
def Receiver.controlled (receiver : Receiver) : List (List UInt8) :=
  match receiver.pc with
  | .idle _ => receiver.receipts.flatMap Receipt.handled
  | _ => receiver.receipts.flatMap Receipt.handled ++ receiver.draft.handled

/-- Exactly-once delivery on each transport. -/
structure ExactlyOnce (link : Link) : Prop where
  answers : ∀ attempt ∈ link.sender.attempts, Truthful attempt
  ring : link.sender.ring.pushed = (link.placed .shm ++ link.sender.publishing).map shmFrame
  socket : dataFrames link.sent = (link.placed .uds).map udsFrame
  fromRing : link.delivered .shm <+: link.placed .shm ++ link.sender.publishing
  fromSocket : link.delivered .uds <+: link.placed .uds
  returned : ∀ receipt ∈ link.receiver.receipts, Handed receipt
  controlled : ∀ frame ∈ link.receiver.controlled, frame ∈ link.sent ∧
    ∃ name, frame = setupReqFrame link.sender.ctx.shmCapacity name

theorem placed_frames (attempts : List Attempt) (route : AdaptRoute)
    (frames : Attempt → List (List UInt8)) (framed : List UInt8 → List UInt8)
    (each : ∀ attempt, frames attempt =
      if attempt.placed = some route then [framed attempt.payload] else []) :
    attempts.flatMap frames = (attempts.filterMap fun attempt =>
      if attempt.placed = some route then some attempt.payload else none).map framed := by
  induction attempts with
  | nil => rfl
  | cons attempt rest ih =>
      rw [List.flatMap_cons, ih, each]
      by_cases here : attempt.placed = some route <;> simp [here]

theorem link_shm_frames (link : Link) :
    shmFrames link.sender.attempts = (link.placed .shm).map shmFrame :=
  placed_frames link.sender.attempts .shm Attempt.shmFrames shmFrame fun _ => rfl

theorem link_uds_frames (link : Link) :
    udsFrames link.sender.attempts = (link.placed .uds).map udsFrame :=
  placed_frames link.sender.attempts .uds Attempt.udsFrames udsFrame fun _ => rfl

theorem data_frames_append (frames more : List (List UInt8)) :
    dataFrames (frames ++ more) = dataFrames frames ++ dataFrames more := List.filter_append ..

theorem payloads_ordered {framed : List UInt8 → List UInt8} {some all : List (List UInt8)}
    (tagged : ∀ payload, (framed payload).drop 1 = payload)
    (frames : some.map framed <+: all.map framed) : some <+: all := by
  have unframed : ∀ payloads : List (List UInt8),
      (payloads.map framed).map (List.drop 1) = payloads := by
    intro payloads
    rw [List.map_map]
    conv_rhs => rw [← List.map_id payloads]
    exact List.map_congr_left fun payload _ => tagged payload
  have stripped := frames.map (List.drop 1)
  rw [unframed, unframed] at stripped
  exact stripped

theorem last_delivered {receipt : Receipt} {before : List (AdaptRoute × List UInt8)}
    {source : AdaptRoute} {frame payload : List UInt8} (route : AdaptRoute)
    (met : receipt.met = before ++ [(source, frame)]) (result : receipt.result = .ok payload) :
    receipt.delivered route = if source = route then [payload] else [] := by
  simp [Receipt.delivered, result, met]

theorem failed_delivered {receipt : Receipt} {code : Int} (route : AdaptRoute)
    (result : receipt.result = .error code) : receipt.delivered route = [] := by
  simp [Receipt.delivered, result]

theorem control_records (controls : List (List UInt8)) :
    recordsOf (controls.map (Prod.mk .uds)) = [] := by
  simp [recordsOf]

theorem control_datagrams (controls : List (List UInt8)) :
    datagramsOf (controls.map (Prod.mk .uds)) = controls := by
  simp [datagramsOf]

theorem control_frames {controls : List (List UInt8)}
    (control : ∀ frame ∈ controls, isControl frame = true) : dataFrames controls = [] := by
  rw [dataFrames, List.filter_eq_nil_iff]
  intro frame member
  simp [control frame member]

theorem handed_records {receipt : Receipt} (handed : Handed receipt) :
    recordsOf receipt.met = (receipt.delivered .shm).map shmFrame := by
  cases handed with
  | failed controls code serviced result =>
      rw [failed_delivered .shm result, serviced.met, control_records]
      rfl
  | delivered controls route payload transport met handled control result =>
      rw [last_delivered .shm met result, met, records_append, control_records]
      rcases transport with rfl | rfl <;> rfl

theorem handed_datagrams {receipt : Receipt} (handed : Handed receipt) :
    dataFrames (datagramsOf receipt.met) = (receipt.delivered .uds).map udsFrame := by
  cases handed with
  | failed controls code serviced result =>
      rw [failed_delivered .uds result, serviced.met, control_datagrams,
        control_frames serviced.control]
      rfl
  | delivered controls route payload transport met handled control result =>
      rw [last_delivered .uds met result, met, datagrams_append, control_datagrams,
        data_frames_append, control_frames control]
      rcases transport with rfl | rfl <;> rfl

structure CleanName (ctx : AdaptCtx) : Prop where
  clean : 0 ∉ ctx.negName
  short : ctx.negName.length ≤ 63

structure LinkHolds (link : Link) (head tail : Nat) (slots : List Slot) : Prop where
  shared : link.receiver.ring = link.sender.ring
  carries : Carries link.sender head tail slots
  mapped : SenderMapped link.sender
  received : RecvRing [] link.receiver head tail slots
  conserved : link.sender.ring.pushed = link.sender.ring.taken ++ payloads slots
  nonzero : link.sender.ctx.shmCapacity ≠ 0
  small : link.sender.ctx.shmCapacity.toNat ≤ 2 ^ 30
  named : CleanName link.sender.ctx
  place : PlaceAt link.sender.draft link.sender.pc
  truthful : ∀ attempt ∈ link.sender.attempts, Truthful attempt
  socket : dataFrames link.sent = udsFrames link.sender.attempts
  requests : ∀ frame ∈ link.sent, isControl frame = true →
    ∃ name, frame = setupReqFrame link.sender.ctx.shmCapacity name
  arrivals : link.receiver.arrivals = link.sent
  handing : Handing link.receiver
  limit : link.receiver.ctx.rxbufCap.toNat ≤ 2 ^ 30

section Steps

variable {link next : Link} {head tail : Nat} {slots : List Slot}

theorem Carries.inv {sender : Sender} (held : Carries sender head tail slots) :
    RingInv sender.ring head tail slots ∧ Fitted sender.ctx sender.ring := by
  rcases held with held | ⟨_, _, _, held⟩
  · exact ⟨held.inv, held.fitted⟩
  · exact ⟨held.inv, held.fitted⟩

theorem CleanName.once {before after : AdaptCtx} (named : CleanName before)
    (once : NamedOnce before after) : CleanName after := by
  rcases once with same | ⟨_, pid, negCounter, generated⟩
  · exact ⟨same ▸ named.clean, same ▸ named.short⟩
  · constructor
    · rw [generated]
      exact name_no_nul pid negCounter
    · rw [generated]
      exact name_length pid negCounter

theorem OwnRing.consumer_side {sender : Sender} {after : RingState} (own : OwnRing sender after) :
    after.consumer = sender.ring.consumer ∧ after.popped = sender.ring.popped ∧
      after.producerCapacity = sender.ring.producerCapacity := by
  cases own with
  | untouched same => rw [same]; exact ⟨rfl, rfl, rfl⟩
  | called call idle direct entered => rw [entered]; exact ⟨rfl, rfl, rfl⟩
  | attached detached mapped => rw [mapped]; exact ⟨rfl, rfl, rfl⟩

/-- What the producer sends may arrive: a request asks for the ring it has or will map. -/
theorem datagrams_arrivable {action : SendAction} {frame : List UInt8}
    (held : LinkHolds link head tail slots) (member : frame ∈ link.sender.datagrams action) :
    Arrivable link.receiver frame := by
  cases control : isControl frame with
  | true =>
      obtain ⟨_, same⟩ := datagrams_request member control
      have fitted := held.carries.inv.2
      rw [Fitted, if_neg held.nonzero] at fitted
      rw [same]
      refine ⟨request_frame_peer _ held.named.clean held.named.short, fun _ => ?_⟩
      rw [sameObject, parse_setup_req_frame _ held.named.clean]
      split_ifs with tagged range
      · rfl
      · have word : link.sender.ctx.shmCapacity.toUInt32.toUInt64 = link.sender.ctx.shmCapacity := by
          have small := held.small
          apply UInt64.toNat.inj
          rw [UInt32.toNat_toUInt64, UInt64.toNat_toUInt32]
          omega
        simp only [word, held.shared, fitted, decide_true]
      · rfl
  | false =>
      refine ⟨?_, fun _ => by simp [sameObject, control]⟩
      have place := held.place
      simp only [Sender.datagrams] at member
      split at member
      · split at member
        · split at member
          · rw [List.mem_singleton.mp member] at control
            cases control
          · next t here =>
            rw [here] at place
            rcases held.carries with carried | ⟨observing, _⟩
            · have opened := carried.opened (by simp [here])
              have short := opened.short
              simp only [shmFrame, List.length_cons] at short
              have framed := @framed_toNat link.sender.draft (by omega)
              have most : udsMaxDgram.toNat = 4096 := rfl
              have small := place.2
              simp only [oversize, decide_eq_false_iff_not, UInt64.lt_iff_toNat_lt, framed] at small
              rw [List.mem_singleton.mp member]
              exact uds_frame_peer opened.nonempty (by omega)
            · rw [here] at observing
              cases observing
          · cases member
        · cases member
      · cases member

theorem RecvRing.moved {origin : List (List UInt8)} {receiver : Receiver} {ring : RingState}
    {more : List (List UInt8)} {head' tail' : Nat} {slots' : List Slot}
    (held : RecvRing origin receiver head tail slots) (inv : RingInv ring head' tail' slots')
    (effect : RingEffect receiver.ring ring head tail slots head' tail' slots')
    (consumer : ring.consumer = receiver.ring.consumer)
    (popped : ring.popped = receiver.ring.popped)
    (capacity : ring.producerCapacity = receiver.ring.producerCapacity)
    (arrive : ∀ frame ∈ more, Arrivable receiver frame) :
    RecvRing origin { receiver with ring := ring, inbox := receiver.inbox ++ more } head' tail'
      slots' := by
  refine ⟨inv, held.scratch, ?_, ?_⟩
  · intro frame member
    rcases List.mem_append.mp member with old | new
    · exact (held.inbox frame old).same id capacity
    · exact (arrive frame new).same id capacity
  · have place := held.place
    cases here : receiver.pc with
    | popping tmoInMsg =>
        rw [here] at place
        obtain ⟨mapped, popping⟩ := place
        refine ⟨mapped, pop_at_effect effect popping ?_⟩
        rw [consumer, popped]
        exact popping
    | _ =>
        rw [here] at place
        exact ⟨consumer ▸ place.1, popped.trans place.2⟩

theorem queued_arrivals (receiver : Receiver) (ring : RingState) (more : List (List UInt8)) :
    Receiver.arrivals { receiver with ring := ring, inbox := receiver.inbox ++ more } =
      receiver.arrivals ++ more := by
  simp [Receiver.arrivals]

/-- What a step of the producer leaves of the link, but for the two sides of the ring. -/
theorem send_holds {action : SendAction} {sender : Sender} {head' tail' : Nat}
    {slots' : List Slot} (held : LinkHolds link head tail slots)
    (move : SendMove link.sender action sender) (carries : Carries sender head' tail' slots')
    (received : RecvRing [] (link.afterSend action sender).receiver head' tail' slots')
    (effect : RingEffect link.sender.ring sender.ring head tail slots head' tail' slots') :
    LinkHolds (link.afterSend action sender) head' tail' slots' := by
  have config := move_config move
  obtain ⟨closes, place⟩ := move_places held.place move
  constructor
  case shared => rfl
  case carries => exact carries
  case mapped => exact move_mapped held.mapped move
  case received => exact received
  case conserved => exact effect_conserves effect held.conserved
  case nonzero =>
    rw [show (link.afterSend action sender).sender.ctx.shmCapacity = _ from config.shmCapacity]
    exact held.nonzero
  case small =>
    rw [show (link.afterSend action sender).sender.ctx.shmCapacity = _ from config.shmCapacity]
    exact held.small
  case named => exact held.named.once (move_negotiation move).named
  case place => exact place
  case truthful =>
    intro attempt member
    cases closes with
    | running attempts silent =>
        rw [show (link.afterSend action sender).sender.attempts = _ from attempts] at member
        exact held.truthful attempt member
    | closed closed attempts truthful sent =>
        rw [show (link.afterSend action sender).sender.attempts = _ from attempts] at member
        rcases List.mem_append.mp member with old | new
        · exact held.truthful attempt old
        · rw [List.mem_singleton.mp new]
          exact truthful
  case socket =>
    simp only [Link.afterSend]
    rw [data_frames_append, held.socket]
    cases closes with
    | running attempts silent => rw [attempts, silent, List.append_nil]
    | closed closed attempts truthful sent =>
        rw [attempts, sent, udsFrames, udsFrames, List.flatMap_append]
        simp
  case requests =>
    intro frame member control
    rw [show (link.afterSend action sender).sender.ctx.shmCapacity = _ from config.shmCapacity]
    rcases List.mem_append.mp member with old | new
    · exact held.requests frame old control
    · exact ⟨_, (datagrams_request new control).2⟩
  case arrivals =>
    simp only [Link.afterSend]
    rw [queued_arrivals, held.arrivals]
  case handing => exact ⟨held.handing.receipts, held.handing.place⟩
  case limit => exact held.limit

theorem own_send_holds {action : SendAction} {sender : Sender}
    (held : LinkHolds link head tail slots) (sized : sizedPayload action = true)
    (own : ∀ moved, action ≠ .ring moved) (move : SendMove link.sender action sender) :
    ∃ head' tail' slots', LinkHolds (link.afterSend action sender) head' tail' slots' := by
  obtain ⟨head', tail', slots', carries, effect, ring⟩ :=
    held.carries.moves held.mapped sized held.small own move
  obtain ⟨consumer, popped, capacity⟩ := ring.consumer_side
  rw [← held.shared] at consumer popped capacity
  have received : RecvRing [] (link.afterSend action sender).receiver head' tail' slots' :=
    held.received.moved carries.inv.1 (held.shared ▸ effect) consumer popped capacity
      fun frame member => datagrams_arrivable held member
  exact ⟨head', tail', slots', send_holds held move carries received effect⟩

theorem ring_send_holds {action : RingAction} {after : RingState}
    (held : LinkHolds link head tail slots) (producer : action.entersProducer = false)
    (consumer : action.entersConsumer = false)
    (moved : ringStep link.sender.ring action = some after) :
    ∃ head' tail' slots', LinkHolds
      (link.afterSend (.ring action) { link.sender with ring := after }) head' tail' slots' := by
  have short : action.recordsBelow (2 ^ 32) = true := by
    cases action with
    | callProducer call => cases producer
    | _ => rfl
  have shared : ringStep link.receiver.ring action = some after := held.shared ▸ moved
  obtain ⟨head', tail', slots', kept, effect⟩ :=
    ring_move_recv held.received short consumer shared
  rw [held.shared] at effect
  have carries := held.carries.ring_moved held.mapped producer moved kept.inv effect
  have received : RecvRing []
      (link.afterSend (.ring action) { link.sender with ring := after }).receiver head' tail'
      slots' := by
    simp only [Link.afterSend, Sender.datagrams, List.append_nil]
    exact kept
  exact ⟨head', tail', slots',
    send_holds held (.ring action after producer moved) carries received effect⟩

/-- What the ring has been given: the frames of the finished sends, and the one a running
send has published. -/
theorem SendRing.given {sender : Sender} (held : SendRing sender head tail slots) :
    sender.ring.pushed = shmFrames sender.attempts ++ sender.publishing.map shmFrame := by
  have pushing : PushPlace sender.ring (shmFrame sender.draft.payload)
      (shmFrames sender.attempts) → sender.ring.pushed = shmFrames sender.attempts ++
        (if pushResult sender.ring = some (.ok ()) then [sender.draft.payload] else []).map
          shmFrame := by
    intro place
    by_cases done : pushResult sender.ring = some (.ok ())
    · rw [if_pos done, (push_returned place done).2, if_pos rfl]
      rfl
    · rw [if_neg done, List.map_nil, List.append_nil]
      cases place with
      | waiting place pushed => exact pushed
      | done place pushed => exact absurd (by simp [pushResult, place]) done
  have place := held.place
  rw [Sender.publishing]
  cases here : sender.pc with
  | pushDirect t =>
      rw [here] at place
      exact pushing place
  | pushBlocking t =>
      rw [here] at place
      exact pushing place
  | _ =>
      rw [here] at place
      exact place.2.trans (List.append_nil _).symm

theorem Carries.given (held : Carries link.sender head tail slots) :
    link.sender.ring.pushed = (link.placed .shm ++ link.sender.publishing).map shmFrame := by
  rw [List.map_append, ← link_shm_frames]
  rcases held with held | ⟨observing, _, _, held⟩
  · exact held.given
  · have given := held.given
    rw [Sender.publishing] at given ⊢
    cases here : link.sender.pc <;> rw [here] at observing given <;>
      first | exact given | cases observing

/-- The consumer has moved its own thread only. -/
theorem Carries.side {sender : Sender} {ring : RingState} (held : Carries sender head tail slots)
    (same : SameProducerSide sender.ring ring) (inv : RingInv ring head tail slots) :
    Carries { sender with ring := ring } head tail slots := by
  have kept : ∀ {busy : Sender}, busy.ring = sender.ring → SendRing busy head tail slots →
      SendRing { busy with ring := ring } head tail slots := by
    intro busy shared held
    refine ⟨inv, ?_, held.vacant, ?_, held.running⟩
    · have fitted := held.fitted
      rw [Fitted, shared] at fitted
      rw [Fitted, same.producerCapacity]
      exact fitted
    · have place := held.place
      rw [shared] at place
      have pushed := same.pushed
      have producer := same.producer
      cases here : busy.pc with
      | mapping =>
          rw [here] at place
          exact ⟨by rw [producer]; exact place.1, pushed.trans place.2⟩
      | pushDirect t =>
          rw [here] at place
          cases place with
          | waiting place before => exact .waiting (by rw [producer]; exact place) (pushed.trans before)
          | done place after => exact .done (producer.trans place) (pushed.trans after)
      | pushBlocking t =>
          rw [here] at place
          cases place with
          | waiting place before => exact .waiting (by rw [producer]; exact place) (pushed.trans before)
          | done place after => exact .done (producer.trans place) (pushed.trans after)
      | _ =>
          rw [here] at place
          exact ⟨by rw [producer]; exact place.1, pushed.trans place.2⟩
  rcases held with held | ⟨observing, long, unplaced, held⟩
  · exact Or.inl (kept rfl held)
  · have masked := @kept { sender with draft := openAttempt [0] } rfl held
    exact Or.inr ⟨observing, long, unplaced, masked⟩

theorem popped_framed {tmoInMsg : Nat} {frame : List UInt8} (held : LinkHolds link head tail slots)
    (here : link.receiver.pc = .popping tmoInMsg)
    (returned : popResult link.receiver.ring = some (.ok frame)) :
    ∃ payload, frame = shmFrame payload := by
  have place := held.received.place
  rw [here] at place
  obtain ⟨_, popping⟩ := place
  simp only [popResult] at returned
  split at returned
  · next result idle =>
    cases returned
    rw [idle] at popping
    have pushed : frame ∈ link.sender.ring.pushed := by
      rw [held.conserved, RingState.taken, ← held.shared, popping.2]
      simp
    rw [held.carries.given] at pushed
    obtain ⟨payload, _, same⟩ := List.mem_map.mp pushed
    exact ⟨payload, same.symm⟩
  · cases returned

theorem own_recv_holds {action : RecvAction} {receiver : Receiver}
    (held : LinkHolds link head tail slots) (ample : ampleBuffer link.receiver action = true)
    (own : ∀ moved, action ≠ .ring moved) (quiet : ∀ datagram, action ≠ .arrive datagram)
    (move : RecvMove link.receiver action receiver) :
    LinkHolds (link.afterRecv receiver) head tail slots := by
  obtain ⟨received, same⟩ := own_move_recv held.received own
    (fun datagram arrives => absurd arrives (quiet datagram)) move
  rw [held.shared] at same
  have limit := held.limit
  constructor
  case shared => rfl
  case carries => exact held.carries.side same received.inv
  case mapped => exact held.mapped
  case received => exact received
  case conserved =>
    simp only [Link.afterRecv]
    rw [RingState.taken, same.pushed, same.popped, same.inFlight]
    exact held.conserved
  case nonzero => exact held.nonzero
  case small => exact held.small
  case named => exact held.named
  case place => exact held.place
  case truthful => exact held.truthful
  case socket => exact held.socket
  case requests => exact held.requests
  case arrivals => exact (move_arrivals quiet move).trans held.arrivals
  case handing =>
    exact move_handing held.handing held.received (by omega)
      (fun tmoInMsg frame here returned => popped_framed held here returned) ample move
  case limit =>
    rcases (move_polls move).scratch with kept | bounded
    · rw [show (link.afterRecv receiver).receiver.ctx.rxbufCap = _ from kept]
      exact limit
    · exact bounded

theorem delivery_step_holds {action : LinkAction} (held : LinkHolds link head tail slots)
    (allowed : careful link action = true) (stepped : deliveryStep link action = some next) :
    ∃ head' tail' slots', LinkHolds next head' tail' slots' := by
  cases action with
  | send action =>
      simp only [deliveryStep] at stepped
      split at stepped
      · next granted =>
        obtain ⟨sender, moved, rfl⟩ := Option.map_eq_some_iff.mp stepped
        have move := send_step_move moved
        rw [Bool.and_eq_true] at granted
        cases action with
        | call env data => exact own_send_holds held allowed (by simp) move
        | step env => exact own_send_holds held allowed (by simp) move
        | ring action =>
            cases move with
            | ring action after foreign shared =>
                exact ring_send_holds held foreign (by simpa [SendAction.entersNoPop] using granted.2)
                  shared
      · cases stepped
  | recv action =>
      cases action with
      | ring action => cases stepped
      | arrive datagram => cases stepped
      | call entry buffer =>
          obtain ⟨receiver, moved, rfl⟩ := Option.map_eq_some_iff.mp stepped
          have ample : ampleBuffer link.receiver (.call entry buffer) = true := allowed
          exact ⟨head, tail, slots,
            own_recv_holds held ample (by simp) (by simp) (recv_step_move moved)⟩
      | step env =>
          obtain ⟨receiver, moved, rfl⟩ := Option.map_eq_some_iff.mp stepped
          have ample : ampleBuffer link.receiver (.step env) = true := allowed
          exact ⟨head, tail, slots,
            own_recv_holds held ample (by simp) (by simp) (recv_step_move moved)⟩

theorem Serviced.taken {draft : Receipt} {controls : List (List UInt8)} {frame : List UInt8}
    (serviced : Serviced draft controls) (member : frame ∈ draft.handled) :
    isControl frame = true ∧ frame ∈ datagramsOf draft.met := by
  rw [serviced.handled] at member
  rw [serviced.met, control_datagrams]
  exact ⟨serviced.control frame member, member⟩

theorem Handed.taken {receipt : Receipt} {frame : List UInt8} (handed : Handed receipt)
    (member : frame ∈ receipt.handled) :
    isControl frame = true ∧ frame ∈ datagramsOf receipt.met := by
  cases handed with
  | failed controls code serviced result => exact serviced.taken member
  | delivered controls route payload transport met handled control result =>
      rw [handled] at member
      rw [met, datagrams_append, control_datagrams]
      exact ⟨control frame member, List.mem_append_left _ member⟩

theorem datagrams_flat (receipts : List Receipt) :
    datagramsOf (receipts.flatMap Receipt.met) =
      receipts.flatMap fun receipt => datagramsOf receipt.met := List.filterMap_flatMap ..

theorem records_flat (receipts : List Receipt) :
    recordsOf (receipts.flatMap Receipt.met) =
      receipts.flatMap fun receipt => recordsOf receipt.met := List.filterMap_flatMap ..

/-- Whatever reached `handle_control` is a control frame taken off the socket. -/
theorem Handing.taken {receiver : Receiver} (handing : Handing receiver) {frame : List UInt8}
    (member : frame ∈ receiver.controlled) :
    isControl frame = true ∧
      frame ∈ datagramsOf (metBy receiver.receipts receiver.draft receiver.pc) := by
  have finished : frame ∈ receiver.receipts.flatMap Receipt.handled → isControl frame = true ∧
      frame ∈ datagramsOf (receiver.receipts.flatMap Receipt.met) := by
    intro served
    obtain ⟨receipt, old, inside⟩ := List.mem_flatMap.mp served
    obtain ⟨control, taken⟩ := (handing.receipts receipt old).taken inside
    rw [datagrams_flat]
    exact ⟨control, List.mem_flatMap.mpr ⟨receipt, old, taken⟩⟩
  have running : (∀ result, receiver.pc ≠ .idle result) →
      frame ∈ receiver.receipts.flatMap Receipt.handled ++ receiver.draft.handled →
      isControl frame = true ∧
        frame ∈ datagramsOf (receiver.receipts.flatMap Receipt.met ++ receiver.draft.met) := by
    intro busy served
    rw [datagrams_append, List.mem_append]
    rcases List.mem_append.mp served with old | new
    · exact (finished old).imp_right Or.inl
    · obtain ⟨controls, serviced⟩ := (handing.servicing busy).serviced
      exact (serviced.taken new).imp_right Or.inr
  rw [Receiver.controlled] at member
  cases here : receiver.pc with
  | idle result =>
      rw [here] at member
      exact finished member
  | _ =>
      rw [here] at member
      exact running (by simp [here]) member

theorem finished_met (receipts : List Receipt) (draft : Receipt) (pc : RecvPc) :
    receipts.flatMap Receipt.met <+: metBy receipts draft pc := by
  cases pc with
  | idle result => exact List.prefix_refl _
  | _ => exact List.prefix_append _ _

theorem finished_records (held : LinkHolds link head tail slots) :
    recordsOf (link.receiver.receipts.flatMap Receipt.met) <+: link.sender.ring.pushed := by
  have popped : recordsOf (metBy link.receiver.receipts link.receiver.draft link.receiver.pc) <+:
      link.receiver.ring.popped := by
    have place := held.received.place
    rw [List.nil_append] at place
    cases here : link.receiver.pc with
    | popping tmoInMsg =>
        rw [here] at place
        exact pop_at_extends place.2
    | _ =>
        rw [here] at place
        exact place.2 ▸ List.prefix_refl _
  have taken : link.receiver.ring.popped <+: link.sender.ring.pushed := by
    rw [held.conserved, RingState.taken, ← held.shared, List.append_assoc]
    exact List.prefix_append _ _
  have finished := (finished_met link.receiver.receipts link.receiver.draft
    link.receiver.pc).filterMap fun message : AdaptRoute × List UInt8 =>
      if message.1 = .shm then some message.2 else none
  exact (finished.trans popped).trans taken

theorem finished_datagrams (held : LinkHolds link head tail slots) :
    datagramsOf (link.receiver.receipts.flatMap Receipt.met) <+: link.sent := by
  have finished := (finished_met link.receiver.receipts link.receiver.draft
    link.receiver.pc).filterMap fun message : AdaptRoute × List UInt8 =>
      if message.1 = .uds then some message.2 else none
  rw [← held.arrivals]
  exact finished.trans (List.prefix_append _ _)

theorem LinkHolds.exactlyOnce (held : LinkHolds link head tail slots) : ExactlyOnce link := by
  have socket := held.socket.trans (link_uds_frames link)
  constructor
  case answers => exact held.truthful
  case ring => exact held.carries.given
  case socket => exact socket
  case fromRing =>
    apply payloads_ordered (fun payload => show (shmFrame payload).drop 1 = payload from rfl)
    rw [← held.carries.given, Link.delivered, List.map_flatMap]
    have records := finished_records held
    rw [records_flat] at records
    rw [List.flatMap_congr fun receipt member =>
      (handed_records (held.handing.receipts receipt member)).symm]
    exact records
  case fromSocket =>
    apply payloads_ordered (fun payload => show (udsFrame payload).drop 1 = payload from rfl)
    rw [← socket, Link.delivered, List.map_flatMap]
    have datagrams := (finished_datagrams held).filter fun frame => !isControl frame
    rw [datagrams_flat, List.filter_flatMap] at datagrams
    rw [List.flatMap_congr fun receipt member =>
      (handed_datagrams (held.handing.receipts receipt member)).symm]
    exact datagrams
  case returned => exact held.handing.receipts
  case controlled =>
    intro frame member
    obtain ⟨control, taken⟩ := held.handing.taken member
    have sent : frame ∈ link.sent := by
      rw [← held.arrivals]
      exact List.mem_append_left _ taken
    exact ⟨sent, held.requests frame sent control⟩

end Steps

theorem open_scratch {env : InitEnv} {ctx opened : AdaptCtx}
    (succeeded : openUds env ctx = .ok opened) (small : ctx.rxbufCap.toNat ≤ 2 ^ 30) :
    udsMaxDgram ≤ opened.rxbufCap ∧ opened.rxbufCap.toNat ≤ 2 ^ 30 := by
  obtain ⟨enough, _, size⟩ := grow_covers (open_succeeds succeeded)
  refine ⟨enough, ?_⟩
  rcases size with same | larger
  · rw [same]
    exact small
  · rw [larger]
    decide

theorem eager_scratch {env : InitEnv} {ctx mapped : AdaptCtx}
    (succeeded : eagerMap env ctx = some (.ok mapped)) (small : ctx.rxbufCap.toNat ≤ 2 ^ 30)
    (capacity : ctx.shmCapacity.toNat ≤ 2 ^ 30) : mapped.rxbufCap.toNat ≤ 2 ^ 30 := by
  obtain ⟨_, room⟩ := eager_succeeds succeeded
  rcases (grow_covers room).2.2 with same | larger
  · rw [same]
    exact small
  · rw [larger]
    exact capacity

theorem init_scratch {role : AdaptRole} {cfg : AdaptConfig} {env : InitEnv} {ctx : AdaptCtx}
    (accepted : adaptInit role cfg env = some (.ok ctx)) (small : cfg.shmCapacity.toNat ≤ 2 ^ 30) :
    udsMaxDgram ≤ ctx.rxbufCap ∧ ctx.rxbufCap.toNat ≤ 2 ^ 30 := by
  have capacity : (blankContext role cfg env).shmCapacity.toNat ≤ 2 ^ 30 := by
    simp only [blankContext]
    split
    · decide
    · exact small
  have empty : (blankContext role cfg env).rxbufCap.toNat ≤ 2 ^ 30 := Nat.zero_le _
  rcases init_succeeds accepted with succeeded | ⟨mapped, eager, succeeded⟩
  · exact open_scratch succeeded empty
  · exact open_scratch succeeded (eager_scratch eager empty capacity)

section Runs

variable {cfg consumerCfg : AdaptConfig} {env consumerEnv : InitEnv}

theorem fresh_link_holds {link : Link} (fresh : FreshLink cfg env consumerCfg consumerEnv link)
    (small : cfg.shmCapacity.toNat ≤ 2 ^ 30)
    (consumerSmall : consumerCfg.shmCapacity.toNat ≤ 2 ^ 30) : LinkHolds link 0 0 [] := by
  obtain ⟨sends, mapped⟩ := shared_starts fresh.producer
  obtain ⟨⟨accepted, ⟨before, idle⟩, attempts, _⟩, new⟩ := fresh.producer
  obtain ⟨capacity, unnamed⟩ := init_capacity accepted
  obtain ⟨scratch, limit⟩ := init_scratch fresh.consumer consumerSmall
  obtain ⟨waiting, rests⟩ := fresh.idle
  constructor
  case shared => exact fresh.ring
  case carries => exact Or.inl sends
  case mapped => exact mapped
  case received =>
    refine ⟨?_, scratch, ?_, ?_⟩
    · rw [fresh.ring]
      exact sends.inv
    · rw [fresh.inbox]
      simp
    · rw [rests]
      constructor
      · have attached := fresh.attached
        cases held : link.receiver.ctx.ring with
        | none =>
            rw [held] at attached
            exact Or.inr ⟨held, attached⟩
        | some handle =>
            rw [held] at attached
            exact Or.inl ⟨by rw [held]; rfl, none, attached⟩
      · rw [fresh.ring, new.popped, metBy, fresh.receipts]
        rfl
  case conserved =>
    rw [new.pushed, RingState.taken, new.popped]
    rcases new.consumer with rest | rest <;> rw [rest] <;> rfl
  case nonzero =>
    rw [capacity]
    split
    · decide
    · assumption
  case small =>
    rw [capacity]
    split
    · decide
    · exact small
  case named => constructor <;> rw [unnamed] <;> simp
  case place =>
    rw [idle]
    exact True.intro
  case truthful =>
    rw [attempts]
    simp
  case socket =>
    rw [fresh.sent, attempts]
    rfl
  case requests =>
    rw [fresh.sent]
    simp
  case arrivals => simp [Receiver.arrivals, rests, metBy, fresh.receipts, fresh.inbox, fresh.sent,
      datagramsOf]
  case handing =>
    refine ⟨?_, ?_⟩
    · rw [fresh.receipts]
      simp
    · rw [rests]
      exact True.intro
  case limit => exact limit

/-- Every payload a send has reported is on one transport, once; what the consumer has
returned from a transport is a prefix of what was put there; and control frames and
payloads are never taken for each other. -/
theorem exactly_once_delivery (cfg consumerCfg : AdaptConfig) (env consumerEnv : InitEnv)
    (small : cfg.shmCapacity.toNat ≤ 2 ^ 30)
    (consumerSmall : consumerCfg.shmCapacity.toNat ≤ 2 ^ 30) {link : Link}
    (reached : ((deliveryMachine cfg env consumerCfg consumerEnv).guarded careful).Reachable
      link) : ExactlyOnce link := by
  have holds : ∃ head tail slots, LinkHolds link head tail slots := by
    refine Machine.invariant_of_reachable
      ((deliveryMachine cfg env consumerCfg consumerEnv).guarded careful)
      (fun link => ∃ head tail slots, LinkHolds link head tail slots) ?_ ?_ reached
    · intro start fresh
      exact ⟨0, 0, [], fresh_link_holds fresh small consumerSmall⟩
    · rintro before action after ⟨head, tail, slots, held⟩ stepped
      obtain ⟨allowed, stepped⟩ := Machine.guarded_step stepped
      exact delivery_step_holds held allowed stepped
  obtain ⟨head, tail, slots, held⟩ := holds
  exact held.exactlyOnce

end Runs

def eagerLink : Link where
  sender := timedSender
  receiver := eagerConsumer
  sent := []

theorem eager_link_fresh : FreshLink timedConfig eagerEnv (plainConfig 4096) eagerEnv eagerLink where
  producer := timed_starts
  consumer := eager_consumer_init
  mode := rfl
  ring := rfl
  attached := rfl
  idle := ⟨none, rfl⟩
  receipts := rfl
  inbox := rfl
  outbox := rfl
  sent := rfl

/-- One byte through the ring: the pop takes three loads and one step for each byte. -/
theorem exactly_once_one_byte : ∃ link : Link,
    link.placed .shm = [[1]] ∧ link.delivered .shm = [[1]] ∧ ExactlyOnce link := by
  have ran : (((deliveryMachine timedConfig eagerEnv (plainConfig 4096) eagerEnv).guarded
      careful).run eagerLink ((timedSend [1]).map .send ++ [.recv (.call .recv (some 2))] ++
        List.replicate 10 (.send (.ring .consumer)) ++ [.recv (.step quietRecv)])).map
          (fun link => (link.placed .shm, link.delivered .shm)) = some ([[1]], [[1]]) := by
    decide +kernel
  obtain ⟨link, run, facts⟩ := Option.map_eq_some_iff.mp ran
  have reached := Machine.reachable_run
    ((deliveryMachine timedConfig eagerEnv (plainConfig 4096) eagerEnv).guarded careful)
    eager_link_fresh run
  simp only [Prod.mk.injEq] at facts
  exact ⟨link, facts.1, facts.2, exactly_once_delivery timedConfig (plainConfig 4096) eagerEnv
    eagerEnv (by decide) (by decide) reached⟩

end AdaptIpc.Endpoint
