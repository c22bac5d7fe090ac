import AdaptIpc.Endpoint.Control
import AdaptIpc.Ring.Machine

/-!
# `adapt_send` over a shared ring

The producer endpoint as a machine: each step of `adapt_send` is one load of a
ring cursor, one call on the socket, or one step of the ring call it is in; the
ring's consumer moves in between. Clock readings, socket results and mapping
results come with the step. What is thread-local between two such steps is the
functions of the first part. `attempts` and `observations` only record what calls
returned and sampled.
-/

namespace AdaptIpc.Endpoint

open AdaptIpc.Ring AdaptIpc.Policy AdaptIpc.Library.Bytes AdaptIpc.Library.Transition

set_option autoImplicit false

def AdaptRoute.tag : AdaptRoute → UInt8
  | .none => 0
  | .shm => 1
  | .uds => 2

def sampleContext (ctx : AdaptCtx) (size occ now : UInt64) : AdaptCtx :=
  { ctx with rt := adaptRtctxSample ctx.rt size occ now ctx.alpha }

def monitorHealth (ctx : AdaptCtx) (occ cap : UInt64) : AdaptCtx :=
  let health := (adaptHealthUpdateShm ctx.health occ cap ctx.rt.drainValid
    ctx.rt.ewmaArrivalBps ctx.rt.ewmaDrainBps).1
  { ctx with health := health }.count fun st =>
    { st with healthTransitions := health.transitions.toUInt64 }

/-- The previous attempt of this message failed with a route in store. -/
def resumes (ctx : AdaptCtx) (size : UInt64) : Bool :=
  ctx.retryPending && decide (ctx.pendingSize = size) && decide (ctx.pendingRoute ≠ .none)

def decideInput (ctx : AdaptCtx) (size now waitClock : UInt64) : DecideInput where
  rt := some ctx.rt
  learn := if ctx.policy.measures then some ctx.learn else none
  health := if ctx.policy = .fullAdaptive then some ctx.health else none
  shmMapped := ctx.ring.isSome
  ewmaSize := ctx.ewmaSize
  current := ctx.lastRoute
  payload := size
  nowNs := now
  waitClock := waitClock

def logDecision (ctx : AdaptCtx) (d : AdaptDecision) : AdaptCtx :=
  if ctx.declog.enabled then
    { ctx with
      declog := adaptDeclogRecord ctx.declog { d with seq := ctx.decisionSeq + 1 }
      decisionSeq := ctx.decisionSeq + 1 }
  else ctx

def classify (ctx : AdaptCtx) (size now waitClock : UInt64) : AdaptCtx :=
  let smoothed := { ctx with ewmaSize := ewmaUpdate ctx.ewmaSize ctx.alpha size }
  let decided := adaptPolicyDecide ctx.policy ctx.cmcfg (decideInput smoothed size now waitClock)
  let route := decided.1.selected
  let learned := { smoothed with learn := decided.2.getD smoothed.learn }
  let counted := (logDecision learned decided.1).count fun st =>
    { st with
      decisions := st.decisions + 1
      routeSwitches :=
        if ctx.lastRoute ≠ .none ∧ route ≠ ctx.lastRoute then st.routeSwitches + 1
        else st.routeSwitches }
  { counted with lastRoute := route, retryPending := false, pendingRoute := .none }

/-- Classification or resumption; the route is the one to send on. -/
def routeMessage (ctx : AdaptCtx) (size now waitClock : UInt64) : AdaptRoute × AdaptCtx :=
  if resumes ctx size then (ctx.pendingRoute, ctx)
  else
    let classified := classify ctx size now waitClock
    (classified.lastRoute, classified)

/-- Whether the payload with its tag exceeds a datagram. -/
def oversize (size : UInt64) : Bool := decide (udsMaxDgram < size + 1)

/-- The size guard rails: what no datagram carries escalates to the ring, what the
ring's configured capacity does not carry is refused. -/
def guardRails (ctx : AdaptCtx) (route : AdaptRoute) (size : UInt64) :
    Except Errno AdaptRoute × AdaptCtx :=
  let sending := ctx.count fun st => { st with sends := st.sends + 1 }
  let escalates := route ≠ .shm ∧ oversize size = true
  let escalated :=
    if escalates then
      sending.count fun st => { st with sendEscalations := st.sendEscalations + 1 }
    else sending
  let route := if escalates then .shm else route
  if route = .shm ∧ ctx.shmCapacity < size + 1 then (.error .emsgsize, escalated)
  else (.ok route, { escalated with pendingSize := size, pendingRoute := route })

/-- After a failed handshake: small payloads degrade to UDS, the others are left to
be resumed. -/
def handshakeFailed (ctx : AdaptCtx) (size : UInt64) (hrc : Errno) :
    Except Errno AdaptRoute × AdaptCtx :=
  if oversize size then
    (.error (if hrc = .etimedout then .eagain else hrc), { ctx with retryPending := true })
  else
    (.ok .uds, { ctx.count (fun st => { st with sendEscalations := st.sendEscalations + 1 }) with
      pendingRoute := .uds })

def elapsedUs (tMeas now : UInt64) : ℚ := ((now - tMeas).toNat : ℚ) / 1000

def observeCost (ctx : AdaptCtx) (route : AdaptRoute) (size tMeas now : UInt64) : AdaptCtx :=
  if tMeas ≠ 0 then
    let us := elapsedUs tMeas now
    { ctx with
      learn := adaptLearnObserve ctx.learn ctx.cmcfg route size us
      rt := { ctx.rt with
        ewmaLatencyUs := ctx.alpha * us + (1 - ctx.alpha) * ctx.rt.ewmaLatencyUs } }
  else ctx

def finishShm (ctx : AdaptCtx) (size tMeas now parks : UInt64) (rc : Status) : AdaptCtx :=
  let observed := (observeCost ctx .shm size tMeas now).count fun st =>
    { st with sendCopyBytes := st.sendCopyBytes + size + 1, backpressureParks := parks }
  { observed with retryPending := decide (rc = .error .eagain) }

/-- The end of the UDS branch: only successful sends are measured, and a refused
connection leaves the retry state alone. -/
def finishUds (ctx : AdaptCtx) (size tMeas now : UInt64) (rc : Status) : AdaptCtx :=
  let observed := if rc = .ok () then observeCost ctx .uds size tMeas now else ctx
  if rc = .error .econnrefused then observed else { observed with retryPending := false }

/-- One completed or running call: its payload, whether it classified the payload as
a new message, `last_route` at its end, how its handshake failed, the transport it
called, where it put a frame, and its result. -/
structure Attempt where
  payload : List UInt8
  classified : Bool
  lastRoute : AdaptRoute
  handshake : Option Errno
  transport : AdaptRoute
  placed : Option AdaptRoute
  result : Status

def Attempt.size (attempt : Attempt) : UInt64 := UInt64.ofNat attempt.payload.length

inductive SendPc where
  | idle (result : Option Status)
  | usedHead (now : UInt64)
  | usedTail (now head : UInt64)
  | freeHead (now occ : UInt64)
  | freeTail (now occ head : UInt64)
  | request (nowNs : UInt64)
  | awaitAck (deadline : UInt64)
  | mapping
  | pushDirect (tMeas : UInt64)
  | pushBlocking (tMeas : UInt64)
  | udsSend (tMeas : UInt64)

/-- One context sample: the tail it observed, where a ring was mapped, and the bytes it
credited to the consumer. -/
structure Observation where
  tail : Option UInt64
  credit : ℚ

/-- `draft` is the call in progress. -/
structure Sender where
  ring : RingState
  ctx : AdaptCtx
  pc : SendPc
  draft : Attempt
  attempts : List Attempt
  observations : List Observation

/-- What the calls of one step answer; a step uses what it needs. `clock` is its
first clock reading, `later` the one at the start of a handshake or a branch;
`received` is the return of `uds_recv_timeout`, whose timeout is `-EAGAIN`. -/
structure SendEnv where
  clock : UInt64
  later : UInt64
  waitClock : UInt64
  pid : Nat
  negCounter : UInt32
  status : Status
  received : Except Errno (List UInt8)
  map : MapEnv
  realloc : Bool

def shmFrame (payload : List UInt8) : List UInt8 := AdaptRoute.tag .shm :: payload

def udsFrame (payload : List UInt8) : List UInt8 := AdaptRoute.tag .uds :: payload

def shmSegments (payload : List UInt8) : List ShmSegment :=
  [.bytes [AdaptRoute.tag .shm], .bytes payload]

def Sender.closed (sender : Sender) (rc : Status) : Attempt :=
  { sender.draft with lastRoute := sender.ctx.lastRoute, result := rc }

def Sender.finish (sender : Sender) (rc : Status) : Sender :=
  { sender with
    pc := .idle (some rc)
    attempts := sender.attempts ++ [sender.closed rc] }

/-- The first push is non-blocking where the caller asked for that or where it is
timed. -/
def pushesDirectly (ctx : AdaptCtx) : Bool := ctx.nonblockingSend || ctx.policy.measures

def shmCall (ctx : AdaptCtx) (payload : List UInt8) : ProducerCall :=
  if pushesDirectly ctx then .push (.scatter (shmSegments payload))
  else .pushScatterBlocking (shmSegments payload)

def Sender.startPush (sender : Sender) (ring : RingState) (tMeas : UInt64) : Sender :=
  { sender with
    ring := ring
    ctx := sender.ctx.count fun st => { st with sendsShm := st.sendsShm + 1 }
    draft := { sender.draft with transport := .shm }
    pc := if pushesDirectly sender.ctx then .pushDirect tMeas else .pushBlocking tMeas }

def Sender.startDatagram (sender : Sender) (tMeas : UInt64) : Sender :=
  { sender with
    ctx := sender.ctx.count fun st =>
      { st with
        sendsUds := st.sendsUds + 1
        sendCopyBytes := st.sendCopyBytes + sender.draft.size + 1 }
    draft := { sender.draft with transport := .uds }
    pc := .udsSend tMeas }

/-- The start of the SHM or UDS branch, where `now` is the clock read for timing. -/
def Sender.transmit (sender : Sender) (route : AdaptRoute) (now : UInt64) : Option Sender :=
  let tMeas := if sender.ctx.policy.measures then now else 0
  if route = .shm then
    (callProducer sender.ring (shmCall sender.ctx sender.draft.payload)).map fun ring =>
      sender.startPush ring tMeas
  else some (sender.startDatagram tMeas)

/-- `producer_ensure_shm` up to its first call on the socket. -/
def Sender.negotiate (sender : Sender) (env : SendEnv) : Sender :=
  { sender with
    ctx := nameRing sender.ctx env.pid env.negCounter
    pc := if requestDue sender.ctx env.later then .request env.later
      else .awaitAck (env.later + adaptNegotDeadlineNs) }

/-- A context that has negotiated passes. -/
def Sender.ensureShm (sender : Sender) (env : SendEnv) : Option Sender :=
  if sender.ctx.negotDone then sender.transmit .shm env.later else some (sender.negotiate env)

/-- `hrc != 0` in `adapt_send`: the route to go on with, or the code to return. -/
def Sender.handshakeFailure (sender : Sender) (hrc : Errno) : Except Errno AdaptRoute × Sender :=
  let failed := handshakeFailed sender.ctx sender.draft.size hrc
  (failed.1, { sender with
    ctx := failed.2
    draft := { sender.draft with handshake := some hrc } })

def Sender.failHandshake (sender : Sender) (hrc : Errno) (now : UInt64) : Option Sender :=
  let failed := sender.handshakeFailure hrc
  match failed.1 with
  | .error code => some (failed.2.finish (.error code))
  | .ok route => failed.2.transmit route now

/-- The decision and the guard rails: the route to send on, or the code to return. -/
def Sender.decide (sender : Sender) (now waitClock : UInt64) :
    Except Errno AdaptRoute × Sender :=
  let routed := routeMessage sender.ctx sender.draft.size now waitClock
  let guarded := guardRails routed.2 routed.1 sender.draft.size
  (guarded.1, { sender with
    ctx := guarded.2
    draft := { sender.draft with classified := !resumes sender.ctx sender.draft.size } })

def Sender.dispatch (sender : Sender) (env : SendEnv) (now : UInt64) : Option Sender :=
  let decided := sender.decide now env.waitClock
  match decided.1 with
  | .error code => some (decided.2.finish (.error code))
  | .ok route =>
      if route = .shm ∧ decided.2.ctx.ring = none then decided.2.ensureShm env
      else decided.2.transmit route env.later

def openAttempt (payload : List UInt8) : Attempt where
  payload := payload
  classified := false
  lastRoute := .none
  handshake := none
  transport := .none
  placed := none
  result := .ok ()

/-- The argument checks of `adapt_send`. -/
def checkArguments (ctx : AdaptCtx) (data : Option (List UInt8)) : Except Errno (List UInt8) :=
  match data with
  | none => .error .einval
  | some payload =>
      if payload.length = 0 then .error .einval
      else if ctx.role ≠ .producer then .error .eperm
      else .ok payload

/-- The context sample of a call; without a ring the occupancy is 0. -/
def Sender.sample (sender : Sender) (occ now : UInt64) (tail : Option UInt64) : Sender :=
  { sender with
    ctx := sampleContext sender.ctx sender.draft.size occ now
    observations := sender.observations ++
      [{ tail := tail, credit := drainCredit sender.ctx.rt occ now }] }

/-- The argument checks and the first clock reading. Without a ring there is
no occupancy to load and the health is not monitored. -/
def Sender.call (sender : Sender) (env : SendEnv) (data : Option (List UInt8)) : Option Sender :=
  match sender.pc with
  | .idle _ =>
      match checkArguments sender.ctx data with
      | .error code => some { sender with pc := .idle (some (.error code)) }
      | .ok payload =>
          let opened := { sender with draft := openAttempt payload }
          if sender.ctx.ring.isSome then some { opened with pc := .usedHead env.clock }
          else (opened.sample 0 env.clock none).dispatch env env.clock
  | _ => none

def pushResult (ring : RingState) : Option Status :=
  match ring.producer with
  | .idle (some rc) => some rc
  | _ => none

def Sender.finishPush (sender : Sender) (env : SendEnv) (tMeas : UInt64) (rc : Status) : Sender :=
  { sender with
    ctx := finishShm sender.ctx sender.draft.size tMeas env.clock sender.ring.object.parks rc
    draft := { sender.draft with placed := if rc = Except.ok () then some .shm else none } }.finish rc

/-- The ring object as `ring_map` hands it to the producer, with the header stores
ahead. -/
def attachRing (ring : RingState) (mapped : AdaptCtx) : RingState :=
  { ring with
    producerCapacity :=
      match mapped.ring with
      | some handle => .ofSize handle.capacity
      | none => ring.producerCapacity
    producer := .initHeader headerInit }

def Sender.step (sender : Sender) (env : SendEnv) : Option Sender :=
  let object := sender.ring.object
  match sender.pc with
  | .idle _ => none
  | .usedHead now => some { sender with pc := .usedTail now object.head }
  | .usedTail now head =>
      let occ := head - object.tail
      some { sender.sample occ now (some object.tail) with pc := .freeHead now occ }
  | .freeHead now occ => some { sender with pc := .freeTail now occ object.head }
  | .freeTail now occ head =>
      let cap := occ + (sender.ring.producerCapacity.size - (head - object.tail))
      { sender with ctx := monitorHealth sender.ctx occ cap }.dispatch env now
  | .request nowNs =>
      match env.status with
      | .error code => sender.failHandshake code env.later
      | .ok () =>
          some { sender with
            ctx := requestSent sender.ctx nowNs
            pc := .awaitAck (nowNs + adaptNegotDeadlineNs) }
  | .awaitAck deadline =>
      match env.received with
      | .error code =>
          if code = .eagain then
            if deadline < env.clock then sender.failHandshake .etimedout env.later
            else some sender
          else sender.failHandshake code env.later
      | .ok frame =>
          if isSetupAck frame then
            match mapNegotiated env.map (ackReceived sender.ctx) with
            | none => none
            | some (.error code) =>
                { sender with ctx := ackReceived sender.ctx }.failHandshake code env.later
            | some (.ok mapped) =>
                some { sender with
                  ring := attachRing sender.ring mapped
                  ctx := mapped
                  pc := .mapping }
          else some sender
  | .mapping =>
      match sender.ring.producer with
      | .idle _ =>
          let finished := finishMapping env.realloc sender.ctx
          match finished.1 with
          | .error code => { sender with ctx := finished.2 }.failHandshake code env.later
          | .ok () => { sender with ctx := finished.2 }.transmit .shm env.later
      | _ => none
  | .pushDirect tMeas =>
      match pushResult sender.ring with
      | none => none
      | some rc =>
          if sender.ctx.nonblockingSend = false ∧ rc = .error .eagain then
            (callProducer sender.ring
                (.pushScatterBlocking (shmSegments sender.draft.payload))).map fun ring =>
              { sender with ring := ring, pc := .pushBlocking tMeas }
          else some (sender.finishPush env tMeas rc)
  | .pushBlocking tMeas =>
      match pushResult sender.ring with
      | none => none
      | some rc => some (sender.finishPush env tMeas rc)
  | .udsSend tMeas =>
      some ({ sender with
        ctx := finishUds sender.ctx sender.draft.size tMeas env.clock env.status
        draft := { sender.draft with
          placed := if env.status = Except.ok () then some .uds else none } }.finish env.status)

inductive SendAction where
  | call (env : SendEnv) (data : Option (List UInt8))
  | step (env : SendEnv)
  | ring (action : RingAction)

def sendStep (sender : Sender) : SendAction → Option Sender
  | .call env data => sender.call env data
  | .step env => sender.step env
  | .ring action =>
      if action.entersProducer then none
      else (ringStep sender.ring action).map fun ring => { sender with ring := ring }

/-- Every run of a producer that `adapt_init` has set up, over any state of its ring. -/
def sendMachine (cfg : AdaptConfig) (env : InitEnv) : Machine Sender SendAction where
  initial sender := adaptInit .producer cfg env = some (.ok sender.ctx) ∧
    (∃ before, sender.pc = .idle before) ∧ sender.attempts = [] ∧ sender.observations = []
  step := sendStep

def quietEnv : SendEnv where
  clock := 1000000000
  later := 1000000000
  waitClock := 1000000000
  pid := 4711
  negCounter := 0
  status := .ok ()
  received := .error .eagain
  map := MapEnv.succeeding
  realloc := true

def startSender (ctx : AdaptCtx) (ring : RingState) : Sender where
  ring := ring
  ctx := ctx
  pc := .idle none
  draft := openAttempt []
  attempts := []
  observations := []

def pageRing : RingState := freshRing page fun _ => 0

end AdaptIpc.Endpoint
