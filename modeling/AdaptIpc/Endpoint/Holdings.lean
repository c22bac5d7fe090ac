import AdaptIpc.Endpoint.Control
import AdaptIpc.Library.Custody

/-!
# What an endpoint holds

The calls of the library that acquire and release, each with the trace it leaves
under the answers of the system: `ring_map` and `shm_ring_close`, `uds_open` and
`uds_close`, `grow_rxbuf`, `adapt_init` with its `fail:` path, and
`adapt_shutdown`. A context holds a descriptor, a mapping and a handle where it
has a ring, the scratch buffer once that has a capacity, and an open endpoint
from `adapt_init` on. The object `shm_open` creates is not held but named: it is
shared, and it stays until a close with `unlink_obj` removes its name.
-/

namespace AdaptIpc.Endpoint

open AdaptIpc.Ring AdaptIpc.Policy AdaptIpc.Library.Custody

set_option autoImplicit false

/-- `context` is the `adapt_ctx_t`, `endpoint` the `uds_endpoint_t`, `handle` the
`shm_ring_t`; `sockFile` is the file `bind` creates. The objects `shm_open` creates are not
among these: they have names and outlive their descriptors. -/
inductive Resource where
  | context
  | endpoint
  | socket
  | sockFile
  | shmFd
  | mapping
  | handle
  | rxbuf
  deriving DecidableEq

/-- Uses by an endpoint; the names created and unlinked are those of the shared memory
objects. -/
abbrev EndpointUse := Use Resource (List UInt8)

/-- What the system calls of `ring_map` acquire and release. `flow` is the result of the
flow initialisation, which cannot fail where the platform has a futex. No error path
unlinks the object. -/
def mapObjectUses (env : MapEnv) (flow : Status) (name : List UInt8) (cap : UInt64) :
    List EndpointUse :=
  let mapSize := shmRingHeaderSize + shmHdrPad + cap
  match env.shmOpen with
  | .error _ => []
  | .ok _ =>
      [.create name, .acquire .shmFd] ++
        match env.fstatSize with
        | .error _ => [.release .shmFd]
        | .ok size =>
            match if size < mapSize then env.ftruncate mapSize else .ok () with
            | .error _ => [.release .shmFd]
            | .ok _ =>
                match env.mmap mapSize with
                | .error _ => [.release .shmFd]
                | .ok _ =>
                    if env.calloc then
                      match flow with
                      | .error _ =>
                          [.acquire .mapping, .acquire .handle, .release .mapping,
                            .release .shmFd, .release .handle]
                      | .ok _ => [.acquire .mapping, .acquire .handle]
                    else [.acquire .mapping, .release .mapping, .release .shmFd]

def ringMapUses (env : MapEnv) (flow : Status) (name : List UInt8) (capacity : UInt64) :
    List EndpointUse :=
  if name.head? ≠ some 47 then []
  else
    match roundPow2 (if capacity = 0 then 65536 else capacity) with
    | none => []
    | some cap => mapObjectUses env flow name cap

/-- `ring_map` with its flow initialisation. -/
def ringMapFlow (env : MapEnv) (flow : Status) (name : List UInt8) (capacity : UInt64) :
    Option (Except Errno UInt64) :=
  (ringMap env name capacity).map fun placed => placed.bind fun cap => flow.map fun _ => cap

/-- The name in the handle has room for 63 bytes, the longer one is cut. -/
def handleName (name : List UInt8) : List UInt8 := name.take 63

def shmRingCloseUses (name : List UInt8) (unlinkObj : Bool) : List EndpointUse :=
  [.release .mapping, .release .shmFd] ++
    (if unlinkObj then [.unlink (handleName name)] else []) ++ [.release .handle]

def ringParts : Finset Resource := {.handle, .mapping, .shmFd}

def succeeds {α : Type} : Except Errno α → Bool
  | .ok _ => true
  | .error _ => false

theorem map_object_custody (env : MapEnv) (flow : Status) (name : List UInt8) (cap : UInt64) :
    custody ∅ (mapObjectUses env flow name cap) =
      some (if succeeds (mapObject env cap) && succeeds flow then ringParts else ∅) := by
  obtain ⟨shmOpen, fstatSize, ftruncate, mmap, calloc⟩ := env
  cases shmOpen with
  | error code => rfl
  | ok _ =>
      cases fstatSize with
      | error code => rfl
      | ok size =>
          simp only [mapObjectUses, mapObject, bind, Except.bind]
          generalize (if size < shmRingHeaderSize + shmHdrPad + cap then
            ftruncate (shmRingHeaderSize + shmHdrPad + cap) else .ok ()) = grown
          generalize mmap (shmRingHeaderSize + shmHdrPad + cap) = placed
          cases grown with
          | error code => rfl
          | ok _ =>
              cases placed with
              | error code => rfl
              | ok _ => cases calloc <;> cases flow <;> rfl

theorem ring_map_custody {env : MapEnv} {flow : Status} {name : List UInt8} {capacity : UInt64}
    {result : Except Errno UInt64} (returned : ringMapFlow env flow name capacity = some result) :
    custody ∅ (ringMapUses env flow name capacity) =
      some (if succeeds result then ringParts else ∅) := by
  obtain ⟨placed, called, rfl⟩ := Option.map_eq_some_iff.mp returned
  simp only [ringMap] at called
  simp only [ringMapUses]
  by_cases unnamed : name.head? ≠ some 47
  · rw [if_pos unnamed] at called ⊢
    cases called
    rfl
  · rw [if_neg unnamed] at called ⊢
    cases rounded : roundPow2 (if capacity = 0 then 65536 else capacity) with
    | none => simp [rounded] at called
    | some cap =>
        simp only [rounded, Option.some.injEq] at called ⊢
        rw [← called, map_object_custody]
        cases mapObject env cap <;> cases flow <;> rfl

theorem ring_map_futex (env : MapEnv) (name : List UInt8) (capacity : UInt64) :
    ringMapFlow env (.ok ()) name capacity = ringMap env name capacity := by
  simp only [ringMapFlow]
  cases ringMap env name capacity with
  | none => rfl
  | some result => cases result <;> rfl

/-- What `ring_map` may do to the parts of a ring and to no other name. -/
inductive MapUse (name : List UInt8) : EndpointUse → Prop where
  | create : MapUse name (.create name)
  | acquire {part : Resource} (inside : part ∈ ringParts) : MapUse name (.acquire part)
  | release {part : Resource} (inside : part ∈ ringParts) : MapUse name (.release part)

theorem map_object_uses (env : MapEnv) (flow : Status) (name : List UInt8) (cap : UInt64) :
    ∀ use ∈ mapObjectUses env flow name cap, MapUse name use := by
  have fd : Resource.shmFd ∈ ringParts := by decide
  have mapping : Resource.mapping ∈ ringParts := by decide
  have handle : Resource.handle ∈ ringParts := by decide
  intro use member
  simp only [mapObjectUses] at member
  split at member
  · cases member
  · rcases List.mem_append.mp member with opened | later
    · simp only [List.mem_cons, List.not_mem_nil, or_false] at opened
      rcases opened with rfl | rfl
      · exact .create
      · exact .acquire fd
    · split at later
      · rw [List.mem_singleton.mp later]
        exact .release fd
      · split at later
        · rw [List.mem_singleton.mp later]
          exact .release fd
        · split at later
          · rw [List.mem_singleton.mp later]
            exact .release fd
          · split at later
            · split at later <;>
                simp only [List.mem_cons, List.not_mem_nil, or_false] at later
              · rcases later with rfl | rfl | rfl | rfl | rfl
                · exact .acquire mapping
                · exact .acquire handle
                · exact .release mapping
                · exact .release fd
                · exact .release handle
              · rcases later with rfl | rfl
                · exact .acquire mapping
                · exact .acquire handle
            · simp only [List.mem_cons, List.not_mem_nil, or_false] at later
              rcases later with rfl | rfl | rfl
              · exact .acquire mapping
              · exact .release mapping
              · exact .release fd

theorem ring_map_uses (env : MapEnv) (flow : Status) (name : List UInt8) (capacity : UInt64) :
    ∀ use ∈ ringMapUses env flow name capacity, MapUse name use := by
  intro use member
  simp only [ringMapUses] at member
  split at member
  · cases member
  · split at member
    · cases member
    · exact map_object_uses env flow name _ use member

theorem MapUse.subject {name : List UInt8} {use : EndpointUse} (part : MapUse name use) :
    ∀ resource ∈ use.subject, resource ∈ ringParts := by
  intro resource member
  cases part with
  | create => cases member
  | acquire inside =>
      cases member
      exact inside
  | release inside =>
      cases member
      exact inside

theorem MapUse.keeps {name : List UInt8} {use : EndpointUse} (part : MapUse name use) :
    use.keeps = true := by
  cases part <;> rfl

/-- The object is there once it is opened, whatever fails behind that. -/
def objectOpened (env : MapEnv) (name : List UInt8) : Bool :=
  decide (name.head? = some 47) && succeeds env.shmOpen

theorem map_object_created (env : MapEnv) (flow : Status) (name : List UInt8) (cap : UInt64) :
    created (mapObjectUses env flow name cap) = if succeeds env.shmOpen then {name} else ∅ := by
  simp only [mapObjectUses]
  cases env.shmOpen with
  | error code => rfl
  | ok _ =>
      simp only [succeeds, created_append]
      have opened : created [Use.create name, Use.acquire Resource.shmFd] = {name} := rfl
      rw [opened]
      split
      · rfl
      · split
        · rfl
        · split
          · rfl
          · split
            · split <;> rfl
            · rfl

theorem ring_map_created {env : MapEnv} {flow : Status} {name : List UInt8} {capacity : UInt64}
    {result : Except Errno UInt64} (returned : ringMapFlow env flow name capacity = some result) :
    created (ringMapUses env flow name capacity) =
      if objectOpened env name then {name} else ∅ := by
  obtain ⟨placed, called, rfl⟩ := Option.map_eq_some_iff.mp returned
  simp only [ringMap] at called
  simp only [ringMapUses]
  by_cases unnamed : name.head? ≠ some 47
  · have shut : objectOpened env name = false := by
      rw [objectOpened, decide_eq_false unnamed, Bool.false_and]
    rw [if_pos unnamed, shut]
    rfl
  · have opened : objectOpened env name = succeeds env.shmOpen := by
      rw [objectOpened, decide_eq_true (not_not.mp unnamed), Bool.true_and]
    rw [if_neg unnamed] at called ⊢
    rw [opened]
    cases rounded : roundPow2 (if capacity = 0 then 65536 else capacity) with
    | none => simp [rounded] at called
    | some cap => exact map_object_created env flow name cap

theorem map_object_opened {env : MapEnv} {cap mapped : UInt64}
    (succeeded : mapObject env cap = .ok mapped) : succeeds env.shmOpen = true := by
  unfold mapObject at succeeded
  obtain ⟨_, opened, _⟩ := bind_ok succeeded
  rw [opened]
  rfl

theorem ring_map_opened {env : MapEnv} {name : List UInt8} {request cap : UInt64}
    (mapped : ringMap env name request = some (.ok cap)) : objectOpened env name = true := by
  unfold ringMap at mapped
  split at mapped
  · cases mapped
  · next slash =>
    split at mapped
    · cases mapped
    · have opened := map_object_opened (Option.some.inj mapped)
      rw [objectOpened, decide_eq_true (not_not.mp slash), opened]
      rfl

/-- What is there behind a `ring_map` that returned. -/
theorem ring_map_remaining {env : MapEnv} {name : List UInt8} {capacity : UInt64}
    {result : Except Errno UInt64} (objects : Finset (List UInt8))
    (returned : ringMap env name capacity = some result) :
    remaining objects (ringMapUses env (.ok ()) name capacity) =
      if objectOpened env name then insert name objects else objects := by
  rw [← ring_map_futex] at returned
  have kept : ∀ use ∈ ringMapUses env (.ok ()) name capacity, use.keeps = true :=
    fun use member => (ring_map_uses env (.ok ()) name capacity use member).keeps
  rw [remaining_kept objects kept, ring_map_created returned]
  split
  · rw [Finset.union_comm, ← Finset.insert_eq]
  · rw [Finset.union_empty]

/-- What the calls inside `uds_open` return. -/
structure UdsOpenEnv where
  calloc : Bool
  socket : Status
  bind : Status

def Errno.enametoolong : Errno := ⟨36, by decide, by decide⟩

/-- `uds_open`; the paths are those a `sockaddr_un` holds. -/
def udsOpen (env : UdsOpenEnv) (localPath : List UInt8) : Status :=
  if 108 ≤ localPath.length then .error Errno.enametoolong
  else if env.calloc = false then .error .enomem
  else
    match env.socket with
    | .error code => .error code
    | .ok _ => env.bind

def sockFileUses (localPath : List UInt8) (use : EndpointUse) : List EndpointUse :=
  if localPath = [] then [] else [use]

def udsOpenUses (env : UdsOpenEnv) (localPath : List UInt8) : List EndpointUse :=
  if 108 ≤ localPath.length then []
  else if env.calloc = false then []
  else
    match env.socket with
    | .error _ => [.acquire .endpoint, .release .endpoint]
    | .ok _ =>
        match env.bind with
        | .error _ =>
            [.acquire .endpoint, .acquire .socket, .release .socket, .release .endpoint]
        | .ok _ =>
            [.acquire .endpoint, .acquire .socket] ++
              sockFileUses localPath (.acquire .sockFile)

def udsCloseUses (localPath : List UInt8) : List EndpointUse :=
  [.release .socket] ++ sockFileUses localPath (.release .sockFile) ++ [.release .endpoint]

/-- `realloc` gives the old buffer back where it moves; a failed one leaves it. -/
def growRxbufUses (realloc : Bool) (ctx : AdaptCtx) (cap : UInt64) : List EndpointUse :=
  if cap ≤ ctx.rxbufCap then []
  else if realloc then
    if ctx.rxbufCap = 0 then [.acquire .rxbuf] else [.release .rxbuf, .acquire .rxbuf]
  else []

/-- `free` of the scratch buffer, which is null as long as it has no capacity. -/
def freeRxbufUses (ctx : AdaptCtx) : List EndpointUse :=
  if ctx.rxbufCap = 0 then [] else [.release .rxbuf]

/-- The close of the context's ring, which does nothing where that is null. -/
def closeRingUses (unlinkObj : Bool) (ctx : AdaptCtx) : List EndpointUse :=
  match ctx.ring with
  | some handle => shmRingCloseUses handle.name unlinkObj
  | none => []

/-- The `fail:` path of `adapt_init`. -/
def failUses (role : AdaptRole) (ctx : AdaptCtx) : List EndpointUse :=
  closeRingUses (decide (role = .producer)) ctx ++ freeRxbufUses ctx ++ [.release .context]

def eagerMapUses (role : AdaptRole) (env : InitEnv) (ctx : AdaptCtx) : List EndpointUse :=
  ringMapUses env.map (.ok ()) ctx.shmName ctx.shmCapacity ++
    match ringMap env.map ctx.shmName ctx.shmCapacity with
    | none => []
    | some (.error _) => failUses role ctx
    | some (.ok capacity) =>
        let mapped := { ctx with
          ring := some { name := ctx.shmName, capacity := capacity }
          negotDone := true }
        match growRxbuf env.growEager mapped ctx.shmCapacity with
        | none => failUses role mapped
        | some _ => growRxbufUses env.growEager mapped ctx.shmCapacity

/-- `uds` answers the calls inside `uds_open`. -/
def openUdsUses (role : AdaptRole) (env : InitEnv) (uds : UdsOpenEnv) (localPath : List UInt8)
    (ctx : AdaptCtx) : List EndpointUse :=
  udsOpenUses uds localPath ++
    match env.udsOpen with
    | .error _ => failUses role ctx
    | .ok _ =>
        match growRxbuf env.growLazy ctx udsMaxDgram with
        | none => failUses role ctx
        | some _ => growRxbufUses env.growLazy ctx udsMaxDgram

def adaptInitUses (role : AdaptRole) (cfg : AdaptConfig) (env : InitEnv) (uds : UdsOpenEnv) :
    List EndpointUse :=
  match cfg.localSock, cfg.peerSock with
  | some localPath, some _ =>
      if env.calloc = false then []
      else
        let ctx := blankContext role cfg env
        [.acquire .context] ++
          if env.eagerShm then
            eagerMapUses role env ctx ++
              match eagerMap env ctx with
              | some (.ok mapped) => openUdsUses role env uds localPath mapped
              | _ => []
          else openUdsUses role env uds localPath ctx
  | _, _ => []

def adaptShutdownUses (localPath : List UInt8) (ctx : AdaptCtx) : List EndpointUse :=
  closeRingUses (decide (ctx.role = .producer)) ctx ++ udsCloseUses localPath ++
    freeRxbufUses ctx ++ [.release .context]

def endpointParts (named : Bool) : Finset Resource :=
  if named then {.sockFile, .socket, .endpoint} else {.socket, .endpoint}

def holdings (opened named ring buffered : Bool) : Finset Resource :=
  {.context} ∪ (if opened then endpointParts named else ∅) ∪ (if ring then ringParts else ∅) ∪
    (if buffered then {.rxbuf} else ∅)

def buffered (ctx : AdaptCtx) : Bool := decide (ctx.rxbufCap ≠ 0)

def named (localPath : List UInt8) : Bool := decide (localPath ≠ [])

def footprint (localPath : List UInt8) (ctx : AdaptCtx) : Finset Resource :=
  holdings true (named localPath) ctx.ring.isSome (buffered ctx)

section Calls

variable {ctx : AdaptCtx} {localPath : List UInt8} (opened bound ring full : Bool)

/-- `ring_map` in a context without a ring. -/
theorem ring_map_holdings {env : MapEnv} {name : List UInt8} {capacity : UInt64}
    {result : Except Errno UInt64} (returned : ringMap env name capacity = some result) :
    custody (holdings opened bound false full) (ringMapUses env (.ok ()) name capacity) =
      some (holdings opened bound (succeeds result) full) := by
  rw [← ring_map_futex] at returned
  have apart : ∀ use ∈ ringMapUses env (.ok ()) name capacity, ∀ resource ∈ use.subject,
      resource ∉ holdings opened bound false full := by
    intro use member resource subject
    have part := (ring_map_uses env (.ok ()) name capacity use member).subject resource subject
    revert part
    cases opened <;> cases bound <;> cases full <;> cases resource <;> decide
  have around := custody_around (ring_map_custody returned) apart
  rw [Finset.empty_union] at around
  rw [around]
  cases opened <;> cases bound <;> cases full <;> cases succeeds result <;> decide

theorem ring_close_holdings (name : List UInt8) (unlinkObj : Bool) :
    custody (holdings opened bound true full) (shmRingCloseUses name unlinkObj) =
      some (holdings opened bound false full) := by
  cases unlinkObj <;> cases opened <;> cases bound <;> cases full <;> rfl

theorem close_ring_holdings (unlinkObj : Bool) :
    custody (holdings opened bound ctx.ring.isSome full) (closeRingUses unlinkObj ctx) =
      some (holdings opened bound false full) := by
  simp only [closeRingUses]
  cases ctx.ring with
  | none => rfl
  | some handle => exact ring_close_holdings opened bound full handle.name unlinkObj

theorem free_rxbuf_holdings :
    custody (holdings opened bound ring (buffered ctx)) (freeRxbufUses ctx) =
      some (holdings opened bound ring false) := by
  rw [freeRxbufUses]
  by_cases empty : ctx.rxbufCap = 0
  · rw [if_pos empty, show buffered ctx = false from decide_eq_false (not_not.mpr empty)]
    rfl
  · rw [if_neg empty, show buffered ctx = true from decide_eq_true empty]
    cases opened <;> cases bound <;> cases ring <;> decide

theorem grow_holdings {realloc : Bool} {cap : UInt64} {grown : AdaptCtx}
    (room : growRxbuf realloc ctx cap = some grown) :
    custody (holdings opened bound ring (buffered ctx)) (growRxbufUses realloc ctx cap) =
      some (holdings opened bound ring (buffered grown)) := by
  simp only [growRxbuf] at room
  simp only [growRxbufUses]
  split at room
  · next enough =>
    cases room
    rw [if_pos enough]
    rfl
  · next small =>
    split at room
    · next moved =>
      cases room
      have nonzero : cap ≠ 0 := by
        intro zero
        rw [zero] at small
        exact small (UInt64.zero_le)
      have full : buffered { ctx with rxbufCap := cap } = true := decide_eq_true nonzero
      rw [if_neg small, if_pos moved, full]
      by_cases empty : ctx.rxbufCap = 0
      · rw [if_pos empty, show buffered ctx = false from decide_eq_false (not_not.mpr empty)]
        cases opened <;> cases bound <;> cases ring <;> decide
      · rw [if_neg empty, show buffered ctx = true from decide_eq_true empty]
        cases opened <;> cases bound <;> cases ring <;> decide
    · cases room

theorem uds_open_holdings (env : UdsOpenEnv) :
    custody (holdings false (named localPath) ring full) (udsOpenUses env localPath) =
      some (holdings (succeeds (udsOpen env localPath)) (named localPath) ring full) := by
  obtain ⟨calloc, socket, bind⟩ := env
  simp only [udsOpenUses, udsOpen, sockFileUses]
  split
  · rfl
  · split
    · rfl
    · by_cases empty : localPath = []
      · rw [if_pos empty, show named localPath = false from decide_eq_false (not_not.mpr empty)]
        cases socket <;> cases bind <;> dsimp only [succeeds] <;> cases ring <;> cases full <;>
          decide
      · rw [if_neg empty, show named localPath = true from decide_eq_true empty]
        cases socket <;> cases bind <;> dsimp only [succeeds] <;> cases ring <;> cases full <;>
          decide

theorem uds_close_holdings :
    custody (holdings true (named localPath) ring full) (udsCloseUses localPath) =
      some (holdings false (named localPath) ring full) := by
  simp only [udsCloseUses, sockFileUses]
  by_cases empty : localPath = []
  · rw [if_pos empty, show named localPath = false from decide_eq_false (not_not.mpr empty)]
    cases ring <;> cases full <;> decide
  · rw [if_neg empty, show named localPath = true from decide_eq_true empty]
    cases ring <;> cases full <;> decide

theorem fail_holdings (role : AdaptRole) :
    custody (holdings opened bound ctx.ring.isSome (buffered ctx)) (failUses role ctx) =
      some (if opened then endpointParts bound else ∅) := by
  have closed := @close_ring_holdings ctx opened bound (buffered ctx) (decide (role = .producer))
  have freed := @free_rxbuf_holdings ctx opened bound false
  apply custody_chain (custody_chain closed freed)
  cases opened <;> cases bound <;> decide

theorem shutdown_holdings :
    custody (footprint localPath ctx) (adaptShutdownUses localPath ctx) = some ∅ := by
  have closed := @close_ring_holdings ctx true (named localPath) (buffered ctx)
    (decide (ctx.role = .producer))
  have left := @uds_close_holdings localPath false (buffered ctx)
  have freed := @free_rxbuf_holdings ctx false (named localPath) false
  apply custody_chain (custody_chain (custody_chain closed left) freed)
  cases named localPath <;> decide

end Calls

section Objects

variable {role : AdaptRole} {cfg : AdaptConfig} {env : InitEnv} {uds : UdsOpenEnv}
variable {ctx : AdaptCtx} {localPath : List UInt8} {objects : Finset (List UInt8)}

theorem grow_resources (realloc : Bool) (ctx : AdaptCtx) (cap : UInt64) :
    ∀ use ∈ growRxbufUses realloc ctx cap, use.subject.isSome = true := by
  simp only [growRxbufUses]
  split
  · simp
  · split
    · split <;> simp [Use.subject]
    · simp

theorem free_rxbuf_resources (ctx : AdaptCtx) :
    ∀ use ∈ freeRxbufUses ctx, use.subject.isSome = true := by
  simp only [freeRxbufUses]
  split <;> simp [Use.subject]

theorem sock_file_resources {use : EndpointUse} (resource : use.subject.isSome = true) :
    ∀ other ∈ sockFileUses localPath use, other.subject.isSome = true := by
  intro other member
  simp only [sockFileUses] at member
  split at member
  · cases member
  · rw [List.mem_singleton.mp member]
    exact resource

theorem uds_open_resources (env : UdsOpenEnv) :
    ∀ use ∈ udsOpenUses env localPath, use.subject.isSome = true := by
  simp only [udsOpenUses]
  split
  · simp
  · split
    · simp
    · split
      · simp [Use.subject]
      · split
        · simp [Use.subject]
        · intro use member
          rcases List.mem_append.mp member with opened | bound
          · simp only [List.mem_cons, List.not_mem_nil, or_false] at opened
            rcases opened with rfl | rfl <;> rfl
          · exact sock_file_resources rfl use bound

theorem uds_close_resources :
    ∀ use ∈ udsCloseUses localPath, use.subject.isSome = true := by
  intro use member
  simp only [udsCloseUses, List.mem_append, List.mem_singleton] at member
  rcases member with (rfl | file) | rfl
  · rfl
  · exact sock_file_resources rfl use file
  · rfl

/-- What a close leaves: an unlinked name is the one the handle has room for. -/
def closedObjects (unlinkObj : Bool) (ctx : AdaptCtx) (objects : Finset (List UInt8)) :
    Finset (List UInt8) :=
  match ctx.ring with
  | some handle => if unlinkObj then objects.erase (handleName handle.name) else objects
  | none => objects

theorem close_ring_remaining (unlinkObj : Bool) :
    remaining objects (closeRingUses unlinkObj ctx) = closedObjects unlinkObj ctx objects := by
  simp only [closeRingUses, closedObjects]
  cases ctx.ring with
  | none => rfl
  | some handle => cases unlinkObj <;> rfl

theorem fail_remaining :
    remaining objects (failUses role ctx) =
      closedObjects (decide (role = .producer)) ctx objects := by
  rw [failUses, remaining_append, remaining_append, close_ring_remaining,
    remaining_resources _ (free_rxbuf_resources ctx)]
  rfl

theorem shutdown_remaining :
    remaining objects (adaptShutdownUses localPath ctx) =
      closedObjects (decide (ctx.role = .producer)) ctx objects := by
  rw [adaptShutdownUses, remaining_append, remaining_append, remaining_append,
    close_ring_remaining, remaining_resources _ uds_close_resources,
    remaining_resources _ (free_rxbuf_resources ctx)]
  rfl

theorem open_uds_remaining :
    remaining objects (openUdsUses role env uds localPath ctx) =
      if succeeds (openUds env ctx) then objects
      else closedObjects (decide (role = .producer)) ctx objects := by
  rw [openUdsUses, remaining_append, remaining_resources _ (uds_open_resources uds)]
  cases socket : env.udsOpen with
  | error code =>
      simp only [openUds, socket]
      exact fail_remaining
  | ok _ =>
      cases room : growRxbuf env.growLazy ctx udsMaxDgram with
      | none =>
          simp only [openUds, socket, room]
          exact fail_remaining
      | some grown =>
          simp only [openUds, socket, room]
          exact remaining_resources objects (grow_resources env.growLazy ctx _)

/-- What a failure of `adapt_init` leaves behind a tried mapping: only a mapped ring is
closed, and only a producer's close unlinks it. -/
def eagerRemains (role : AdaptRole) (env : MapEnv) (ctx : AdaptCtx)
    (objects : Finset (List UInt8)) : Finset (List UInt8) :=
  match ringMap env ctx.shmName ctx.shmCapacity with
  | some (.ok capacity) =>
      closedObjects (decide (role = .producer))
        { ctx with ring := some { name := ctx.shmName, capacity := capacity } }
        (insert ctx.shmName objects)
  | _ => if objectOpened env ctx.shmName then insert ctx.shmName objects else objects

def eagerObjects (role : AdaptRole) (env : MapEnv) (ctx : AdaptCtx)
    (objects : Finset (List UInt8)) : Except Errno AdaptCtx → Finset (List UInt8)
  | .ok _ => insert ctx.shmName objects
  | .error _ => eagerRemains role env ctx objects

theorem eager_map_remaining {result : Except Errno AdaptCtx} (vacant : ctx.ring = none)
    (returned : eagerMap env ctx = some result) :
    remaining objects (eagerMapUses role env ctx) =
      eagerObjects role env.map ctx objects result := by
  simp only [eagerMap] at returned
  rw [eagerMapUses, remaining_append]
  cases called : ringMap env.map ctx.shmName ctx.shmCapacity with
  | none => simp only [called] at returned; cases returned
  | some placed =>
      rw [ring_map_remaining objects called]
      cases placed with
      | error code =>
          simp only [called, Option.some.injEq] at returned ⊢
          rw [← returned, fail_remaining, closedObjects, vacant, eagerObjects, eagerRemains, called]
      | ok capacity =>
          rw [ring_map_opened called, if_pos rfl]
          simp only [called] at returned ⊢
          cases room : growRxbuf env.growEager { ctx with
              ring := some { name := ctx.shmName, capacity := capacity }
              negotDone := true } ctx.shmCapacity with
          | none =>
              simp only [room, Option.some.injEq] at returned ⊢
              rw [← returned, fail_remaining, eagerObjects, eagerRemains, called]
              rfl
          | some grown =>
              simp only [room, Option.some.injEq] at returned ⊢
              rw [← returned]
              exact remaining_resources _ (grow_resources env.growEager _ _)

theorem eager_map_ring {mapped : AdaptCtx} (succeeded : eagerMap env ctx = some (.ok mapped)) :
    ∃ capacity, ringMap env.map ctx.shmName ctx.shmCapacity = some (.ok capacity) ∧
      mapped.ring = some { name := ctx.shmName, capacity := capacity } := by
  simp only [eagerMap] at succeeded
  split at succeeded
  · cases succeeded
  · cases succeeded
  · next capacity called =>
    split at succeeded
    · cases succeeded
    · next grown room =>
      cases succeeded
      refine ⟨capacity, called, ?_⟩
      rw [grow_context room]

theorem open_uds_ring {opened : AdaptCtx} (succeeded : openUds env ctx = .ok opened) :
    opened.ring = ctx.ring := by
  rw [open_context succeeded]

theorem close_keeps (ctx : AdaptCtx) : ∀ use ∈ closeRingUses false ctx, use.keeps = true := by
  intro use member
  simp only [closeRingUses] at member
  split at member
  · simp only [shmRingCloseUses, Bool.false_eq_true, if_false, List.append_nil, List.mem_append,
      List.mem_cons, List.not_mem_nil, or_false] at member
    rcases member with (rfl | rfl) | rfl <;> rfl
  · cases member

theorem shutdown_keeps (bare : ctx.ring = none ∨ ctx.role = .consumer) :
    ∀ use ∈ adaptShutdownUses localPath ctx, use.keeps = true := by
  have closing : ∀ use ∈ closeRingUses (decide (ctx.role = .producer)) ctx, use.keeps = true := by
    rcases bare with vacant | role
    · rw [closeRingUses, vacant]
      intro use member
      cases member
    · rw [role]
      exact close_keeps ctx
  intro use member
  simp only [adaptShutdownUses, List.mem_append, List.mem_singleton] at member
  rcases member with ((close | socket) | scratch) | rfl
  · exact closing use close
  · exact Use.keeps_resource (uds_close_resources use socket)
  · exact Use.keeps_resource (free_rxbuf_resources ctx use scratch)
  · rfl

theorem eager_map_keeps {mapped : AdaptCtx} (succeeded : eagerMap env ctx = some (.ok mapped)) :
    ∀ use ∈ eagerMapUses role env ctx, use.keeps = true := by
  simp only [eagerMap] at succeeded
  intro use member
  rcases List.mem_append.mp member with placing | growing
  · exact (ring_map_uses env.map (.ok ()) ctx.shmName ctx.shmCapacity use placing).keeps
  · split at succeeded
    · cases succeeded
    · cases succeeded
    · next capacity called =>
      simp only [called] at growing
      split at succeeded
      · cases succeeded
      · next grown room =>
        simp only [room] at growing
        exact Use.keeps_resource (grow_resources env.growEager _ _ use growing)

theorem open_uds_keeps {opened : AdaptCtx} (succeeded : openUds env ctx = .ok opened) :
    ∀ use ∈ openUdsUses role env uds localPath ctx, use.keeps = true := by
  simp only [openUds] at succeeded
  intro use member
  rcases List.mem_append.mp member with opening | growing
  · exact Use.keeps_resource (uds_open_resources uds use opening)
  · split at succeeded
    · cases succeeded
    · next connected =>
      simp only [connected] at growing
      split at succeeded
      · cases succeeded
      · next grown room =>
        simp only [room] at growing
        exact Use.keeps_resource (grow_resources env.growLazy _ _ use growing)

/-- An accepted `adapt_init` unlinks nothing. -/
theorem init_keeps {ctx : AdaptCtx} (accepted : adaptInit role cfg env = some (.ok ctx)) :
    ∀ use ∈ adaptInitUses role cfg env uds, use.keeps = true := by
  simp only [adaptInit] at accepted
  intro use member
  simp only [adaptInitUses] at member
  split at member
  · next socket peer =>
    split at member
    · cases member
    · next alloc =>
      simp only [socket, peer, reduceCtorEq, or_self, alloc, if_false] at accepted
      rcases List.mem_append.mp member with first | later
      · rw [List.mem_singleton.mp first]
        rfl
      · split at later
        · next eager =>
          simp only [eager, if_true] at accepted
          split at accepted
          · cases accepted
          · cases accepted
          · next mapped placed =>
            simp only [placed] at later
            rcases List.mem_append.mp later with mapping | opening
            · exact eager_map_keeps placed use mapping
            · exact open_uds_keeps (Option.some.inj accepted) use opening
        · next lazy =>
          simp only [lazy] at accepted
          exact open_uds_keeps (Option.some.inj accepted) use later
  · cases member

/-- The objects behind an `adapt_init` that returned. -/
def initRemains (role : AdaptRole) (cfg : AdaptConfig) (env : InitEnv)
    (objects : Finset (List UInt8)) : Except Errno AdaptCtx → Finset (List UInt8)
  | .ok ctx =>
      match ctx.ring with
      | some handle => insert handle.name objects
      | none => objects
  | .error _ =>
      if env.eagerShm && env.calloc && cfg.peerSock.isSome then
        eagerRemains role env.map (blankContext role cfg env) objects
      else objects

theorem init_remaining {result : Except Errno AdaptCtx} (socket : cfg.localSock = some localPath)
    (returned : adaptInit role cfg env = some result) :
    remaining objects (adaptInitUses role cfg env uds) =
      initRemains role cfg env objects result := by
  simp only [adaptInit, socket, reduceCtorEq, false_or] at returned
  cases peer : cfg.peerSock with
  | none =>
      simp only [peer, if_true, Option.some.injEq] at returned
      simp only [adaptInitUses, socket, peer, ← returned, initRemains, Option.isSome_none,
        Bool.and_false, Bool.false_eq_true, if_false]
      rfl
  | some peerPath =>
      simp only [peer, reduceCtorEq, if_false] at returned
      cases alloc : env.calloc with
      | false =>
          simp only [alloc, if_true, Option.some.injEq] at returned
          simp only [adaptInitUses, socket, peer, alloc, ← returned, initRemains, Bool.and_false,
            Bool.false_and, Bool.false_eq_true, if_false, if_true]
          rfl
      | true =>
          simp only [alloc, Bool.true_eq_false, if_false] at returned
          have start : remaining objects ([.acquire .context] : List EndpointUse) = objects := rfl
          simp only [adaptInitUses, socket, peer, alloc, Bool.true_eq_false, if_false]
          rw [remaining_append]
          cases eager : env.eagerShm with
          | false =>
              simp only [eager, Bool.false_eq_true, if_false, Option.some.injEq] at returned ⊢
              rw [start, open_uds_remaining, ← returned]
              cases opened : openUds env (blankContext role cfg env) with
              | ok ctx =>
                  simp only [initRemains, open_uds_ring opened]
                  rfl
              | error code =>
                  simp only [initRemains, eager, Bool.false_and, Bool.false_eq_true, if_false]
                  rfl
          | true =>
              simp only [eager, if_true] at returned ⊢
              cases mapping : eagerMap env (blankContext role cfg env) with
              | none => simp [mapping] at returned
              | some prepared =>
                  have eagerly := @eager_map_remaining role env (blankContext role cfg env) objects
                    prepared rfl mapping
                  cases prepared with
                  | error code =>
                      simp only [mapping, Option.some.injEq] at returned ⊢
                      rw [remaining_append, start, eagerly, ← returned]
                      simp only [initRemains, eager, alloc, peer, Option.isSome_some,
                        Bool.and_self, if_true]
                      rfl
                  | ok mapped =>
                      simp only [mapping, Option.some.injEq] at returned ⊢
                      obtain ⟨capacity, called, ring⟩ := eager_map_ring mapping
                      rw [remaining_append, start, eagerly, open_uds_remaining, ← returned]
                      cases opened : openUds env mapped with
                      | ok ctx =>
                          simp only [initRemains, open_uds_ring opened, ring]
                          rfl
                      | error code =>
                          simp only [initRemains, eager, alloc, peer, Option.isSome_some,
                            Bool.and_self, if_true, eagerRemains, called, closedObjects, ring]
                          rfl

end Objects

section Init

variable {role : AdaptRole} {cfg : AdaptConfig} {env : InitEnv} {uds : UdsOpenEnv}
variable {ctx : AdaptCtx} {localPath : List UInt8}

/-- The datagram-sized buffer is the one allocation that fails behind `uds_open`. -/
def strandsEndpoint (env : InitEnv) (ctx : AdaptCtx) : Bool :=
  succeeds env.udsOpen && (growRxbuf env.growLazy ctx udsMaxDgram).isNone

theorem open_uds_custody (answered : env.udsOpen = udsOpen uds localPath) :
    custody (holdings false (named localPath) ctx.ring.isSome (buffered ctx))
        (openUdsUses role env uds localPath ctx) =
      some (match openUds env ctx with
        | .ok opened => footprint localPath opened
        | .error _ =>
            if strandsEndpoint env ctx then endpointParts (named localPath) else ∅) := by
  have connected := @uds_open_holdings localPath ctx.ring.isSome (buffered ctx) uds
  rw [← answered] at connected
  cases socket : env.udsOpen with
  | error code =>
      rw [socket] at connected
      have failed := @fail_holdings ctx false (named localPath) role
      simp only [openUdsUses, openUds, strandsEndpoint, socket]
      exact custody_chain connected failed
  | ok _ =>
      rw [socket] at connected
      cases room : growRxbuf env.growLazy ctx udsMaxDgram with
      | none =>
          have failed := @fail_holdings ctx true (named localPath) role
          simp only [openUdsUses, openUds, strandsEndpoint, socket, room]
          exact custody_chain connected failed
      | some grown =>
          have roomy := @grow_holdings ctx true (named localPath) ctx.ring.isSome _ _ _ room
          simp only [openUdsUses, openUds, socket, room]
          rw [custody_chain connected roomy, footprint, grow_context room]

def scaffold (localPath : List UInt8) : Except Errno AdaptCtx → Finset Resource
  | .ok ctx => holdings false (named localPath) ctx.ring.isSome (buffered ctx)
  | .error _ => ∅

theorem eager_map_custody {result : Except Errno AdaptCtx} (vacant : ctx.ring = none)
    (empty : ctx.rxbufCap = 0) (returned : eagerMap env ctx = some result) :
    custody (holdings false (named localPath) false false) (eagerMapUses role env ctx) =
      some (scaffold localPath result) := by
  simp only [eagerMap] at returned
  simp only [eagerMapUses]
  have start : buffered ctx = false := decide_eq_false (not_not.mpr empty)
  cases called : ringMap env.map ctx.shmName ctx.shmCapacity with
  | none => simp only [called] at returned; cases returned
  | some placed =>
      have tried := @ring_map_holdings false (named localPath) false _ _ _ _ called
      cases placed with
      | error code =>
          simp only [called, Option.some.injEq] at returned ⊢
          have failed := @fail_holdings ctx false (named localPath) role
          rw [vacant, start] at failed
          rw [← returned]
          exact custody_chain tried failed
      | ok capacity =>
          simp only [called] at returned ⊢
          cases room : growRxbuf env.growEager { ctx with
              ring := some { name := ctx.shmName, capacity := capacity }
              negotDone := true } ctx.shmCapacity with
          | none =>
              have failed := @fail_holdings { ctx with
                ring := some { name := ctx.shmName, capacity := capacity }
                negotDone := true } false (named localPath) role
              rw [show buffered { ctx with
                ring := some { name := ctx.shmName, capacity := capacity }
                negotDone := true } = false from start] at failed
              simp only [room, Option.some.injEq] at returned ⊢
              rw [← returned]
              exact custody_chain tried failed
          | some grown =>
              have roomy := @grow_holdings { ctx with
                ring := some { name := ctx.shmName, capacity := capacity }
                negotDone := true } false (named localPath) true _ _ _ room
              rw [show buffered { ctx with
                ring := some { name := ctx.shmName, capacity := capacity }
                negotDone := true } = false from start] at roomy
              have kept : grown.ring =
                  some { name := ctx.shmName, capacity := capacity } := by
                rw [grow_context room]
              simp only [room, Option.some.injEq] at returned ⊢
              rw [← returned, custody_chain tried roomy, scaffold, kept]
              rfl

/-- What a returned `adapt_init` leaves: the footprint of its context, or nothing but an
endpoint that was open when the last allocation failed. -/
def initLeaves (role : AdaptRole) (cfg : AdaptConfig) (env : InitEnv) (localPath : List UInt8) :
    Except Errno AdaptCtx → Finset Resource
  | .ok ctx => footprint localPath ctx
  | .error _ =>
      let start := blankContext role cfg env
      let prepared := if env.eagerShm then eagerMap env start else some (.ok start)
      match prepared with
      | some (.ok ctx) =>
          if env.calloc && cfg.peerSock.isSome && strandsEndpoint env ctx then
            endpointParts (named localPath)
          else ∅
      | _ => ∅

theorem init_custody {result : Except Errno AdaptCtx} (socket : cfg.localSock = some localPath)
    (answered : env.udsOpen = udsOpen uds localPath)
    (returned : adaptInit role cfg env = some result) :
    custody ∅ (adaptInitUses role cfg env uds) =
      some (initLeaves role cfg env localPath result) := by
  simp only [adaptInit, socket, reduceCtorEq, false_or] at returned
  cases peer : cfg.peerSock with
  | none =>
      simp only [peer, if_true, Option.some.injEq] at returned
      simp only [adaptInitUses, socket, peer, ← returned, initLeaves, Option.isSome_none,
        Bool.and_false, Bool.false_and]
      split <;> rfl
  | some peerPath =>
      simp only [peer, reduceCtorEq, if_false] at returned
      cases alloc : env.calloc with
      | false =>
          simp only [alloc, if_true, Option.some.injEq] at returned
          simp only [adaptInitUses, socket, peer, alloc, ← returned, initLeaves,
            Bool.false_and, if_true]
          split <;> rfl
      | true =>
          simp only [alloc, Bool.true_eq_false, if_false] at returned
          have fresh : custody ∅ ([.acquire .context] : List EndpointUse) =
              some (holdings false (named localPath) false false) := by
            cases named localPath <;> decide
          simp only [adaptInitUses, socket, peer, alloc, Bool.true_eq_false, if_false]
          cases eager : env.eagerShm with
          | false =>
              simp only [eager, Bool.false_eq_true, if_false, Option.some.injEq] at returned ⊢
              have opened := @open_uds_custody role env uds (blankContext role cfg env) localPath
                answered
              rw [custody_chain fresh opened, ← returned]
              cases openUds env (blankContext role cfg env) with
              | ok ctx => rfl
              | error code => simp [initLeaves, eager, alloc, peer]
          | true =>
              simp only [eager, if_true] at returned ⊢
              cases mapping : eagerMap env (blankContext role cfg env) with
              | none => simp [mapping] at returned
              | some prepared =>
                  have eagerly := @eager_map_custody role env (blankContext role cfg env) localPath
                    prepared rfl rfl mapping
                  cases prepared with
                  | error code =>
                      simp only [mapping, Option.some.injEq] at returned ⊢
                      rw [custody_chain fresh (custody_chain eagerly rfl), ← returned]
                      simp [initLeaves, eager, mapping, scaffold]
                  | ok mapped =>
                      simp only [mapping, Option.some.injEq] at returned ⊢
                      have opened := @open_uds_custody role env uds mapped localPath answered
                      rw [custody_chain fresh (custody_chain eagerly opened), ← returned]
                      cases openUds env mapped with
                      | ok ctx => rfl
                      | error code => simp [initLeaves, eager, mapping, alloc, peer]

theorem stranded_out_of_memory (stranded : strandsEndpoint env ctx = true) :
    openUds env ctx = .error .enomem ∧ env.udsOpen = .ok () ∧ env.growLazy = false := by
  simp only [strandsEndpoint, Bool.and_eq_true, Option.isNone_iff_eq_none] at stranded
  obtain ⟨connected, short⟩ := stranded
  cases socket : env.udsOpen with
  | error code => simp [socket, succeeds] at connected
  | ok _ =>
      refine ⟨by simp only [openUds, socket, short], rfl, ?_⟩
      cases failed : env.growLazy with
      | false => rfl
      | true =>
          simp only [growRxbuf, failed, if_true] at short
          split at short <;> cases short

theorem init_settles {result : Except Errno AdaptCtx} (socket : cfg.localSock = some localPath)
    (answered : env.udsOpen = udsOpen uds localPath)
    (returned : adaptInit role cfg env = some result) :
    match result with
    | .ok ctx => custody ∅ (adaptInitUses role cfg env uds) = some (footprint localPath ctx)
    | .error code =>
        custody ∅ (adaptInitUses role cfg env uds) = some ∅ ∨
          custody ∅ (adaptInitUses role cfg env uds) = some (endpointParts (named localPath)) ∧
            code = .enomem ∧ env.udsOpen = .ok () ∧ env.growLazy = false := by
  have left := init_custody socket answered returned
  cases result with
  | ok ctx => exact left
  | error code =>
      simp only [initLeaves] at left
      split at left
      · next prepared =>
        split at left
        · next stranded =>
          simp only [Bool.and_eq_true] at stranded
          obtain ⟨⟨alloc, peer⟩, strands⟩ := stranded
          obtain ⟨failed, connected, short⟩ := stranded_out_of_memory strands
          refine Or.inr ⟨left, ?_, connected, short⟩
          have present : ¬cfg.peerSock = none := Option.isSome_iff_ne_none.mp peer
          simp only [adaptInit, socket, reduceCtorEq, false_or, present, alloc,
            Bool.true_eq_false, if_false] at returned
          cases eager : env.eagerShm with
          | false =>
              simp only [eager, Bool.false_eq_true, if_false, Option.some.injEq,
                Except.ok.injEq] at returned prepared
              rw [prepared, failed] at returned
              cases returned
              rfl
          | true =>
              simp only [eager, if_true] at returned prepared
              simp only [prepared, failed, Option.some.injEq] at returned
              cases returned
              rfl
        · exact Or.inl left
      · exact Or.inl left

/-- A failed `adapt_init` has given everything back, but for the socket that stays open
where the datagram buffer cannot be allocated, and for the object of a ring that no
producer has closed. -/
theorem init_holds {result : Except Errno AdaptCtx} (socket : cfg.localSock = some localPath)
    (answered : env.udsOpen = udsOpen uds localPath)
    (returned : adaptInit role cfg env = some result) (objects : Finset (List UInt8)) :
    (match result with
      | .ok ctx => custody ∅ (adaptInitUses role cfg env uds) = some (footprint localPath ctx)
      | .error code =>
          custody ∅ (adaptInitUses role cfg env uds) = some ∅ ∨
            custody ∅ (adaptInitUses role cfg env uds) =
                some (endpointParts (named localPath)) ∧
              code = .enomem ∧ env.udsOpen = .ok () ∧ env.growLazy = false) ∧
      remaining objects (adaptInitUses role cfg env uds) =
        initRemains role cfg env objects result := by
  constructor
  · exact init_settles socket answered returned
  · exact init_remaining socket returned

/-- The buffer of a lazy start is refused with the socket open and its file bound; a
consumer that has mapped eagerly finds no memory for its endpoint. -/
theorem init_holds_failures :
    custody ∅ (adaptInitUses .producer (plainConfig 4096) { plainEnv with growLazy := false }
        { calloc := true, socket := .ok (), bind := .ok () }) =
        some {.sockFile, .socket, .endpoint} ∧
      remaining ∅ (adaptInitUses .producer (plainConfig 4096)
        { plainEnv with growLazy := false } { calloc := true, socket := .ok (), bind := .ok () }) =
        ∅ ∧
      custody ∅ (adaptInitUses .consumer (plainConfig 4096)
        { plainEnv with eagerShm := true, udsOpen := .error .enomem }
        { calloc := false, socket := .ok (), bind := .ok () }) = some ∅ ∧
      remaining ∅ (adaptInitUses .consumer (plainConfig 4096)
        { plainEnv with eagerShm := true, udsOpen := .error .enomem }
        { calloc := false, socket := .ok (), bind := .ok () }) = {adaptShmNameDefault} := by
  have refused : adaptInit .producer (plainConfig 4096) { plainEnv with growLazy := false } =
      some (.error .enomem) := by rfl
  have stranded := @init_holds .producer (plainConfig 4096) { plainEnv with growLazy := false }
    { calloc := true, socket := .ok (), bind := .ok () } [97] _ rfl rfl refused ∅
  have failed : adaptInit .consumer (plainConfig 4096)
      { plainEnv with eagerShm := true, udsOpen := .error .enomem } = some (.error .enomem) := by
    rfl
  have abandoned := @init_holds .consumer (plainConfig 4096)
    { plainEnv with eagerShm := true, udsOpen := .error .enomem }
    { calloc := false, socket := .ok (), bind := .ok () } [97] _ rfl rfl failed ∅
  have held : custody ∅ (adaptInitUses .producer (plainConfig 4096)
      { plainEnv with growLazy := false } { calloc := true, socket := .ok (), bind := .ok () }) ≠
      some ∅ := by decide +kernel
  refine ⟨?_, stranded.2, ?_, abandoned.2⟩
  · rcases stranded.1 with nothing | left
    · exact absurd nothing held
    · exact left.1
  · rcases abandoned.1 with nothing | left
    · exact nothing
    · cases left.2.2.1

end Init

end AdaptIpc.Endpoint
