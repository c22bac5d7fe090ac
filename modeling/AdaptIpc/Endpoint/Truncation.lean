import AdaptIpc.Endpoint.RecvMove
import AdaptIpc.Endpoint.SetupFrame
import AdaptIpc.Endpoint.Send

/-!
# Receiving from the socket alone

`adapt_recv_uds_timeout` receives a framed datagram straight into the caller's
buffer, so the kernel cuts the frame where `adapt_recv` would have had it whole.
A cut data frame is delivered without its end, and a cut setup request is not
recognised. A call is right exactly when every frame it met fitted, the requests
that `handle_control` ignores anyway apart.
-/

namespace AdaptIpc.Endpoint

open AdaptIpc.Ring AdaptIpc.Policy AdaptIpc.Library.Bytes AdaptIpc.Library.Transition

set_option autoImplicit false

/-- A data frame, or a request whose name ends at its only NUL; both fit a datagram. -/
def PeerDatagram (frame : List UInt8) : Prop :=
  2 ≤ frame.length ∧ frame.length ≤ udsMaxDgram.toNat ∧
    (frame.head? = some (AdaptRoute.tag .uds) ∨
      (isControl frame = true ∧ 7 ≤ frame.length ∧ frame[1]? = some adaptCtrlShmSetupReq ∧
        0 ∉ (frame.drop 6).dropLast))

instance : DecidablePred PeerDatagram := fun frame =>
  inferInstanceAs (Decidable (2 ≤ frame.length ∧ frame.length ≤ udsMaxDgram.toNat ∧
    (frame.head? = some (AdaptRoute.tag .uds) ∨
      (isControl frame = true ∧ 7 ≤ frame.length ∧ frame[1]? = some adaptCtrlShmSetupReq ∧
        0 ∉ (frame.drop 6).dropLast))))

theorem uds_frame_peer {payload : List UInt8} (nonempty : payload ≠ [])
    (small : payload.length + 1 ≤ udsMaxDgram.toNat) : PeerDatagram (udsFrame payload) := by
  have length := List.length_pos_iff.mpr nonempty
  have framed : (udsFrame payload).length = payload.length + 1 := rfl
  exact ⟨by omega, by omega, Or.inl rfl⟩

theorem request_frame_peer (cap : UInt64) {name : List UInt8} (clean : 0 ∉ name)
    (short : name.length ≤ 63) : PeerDatagram (setupReqFrame cap name) := by
  obtain ⟨b0, b1, b2, b3, bytes⟩ : ∃ b0 b1 b2 b3,
      leBytes 4 cap.toUInt32.toNat = [b0, b1, b2, b3] := ⟨_, _, _, _, rfl⟩
  have frame : setupReqFrame cap name =
      adaptWireTagCtrl :: adaptCtrlShmSetupReq :: b0 :: b1 :: b2 :: b3 :: (name ++ [0]) := by
    simp only [setupReqFrame, bytes]
    simp
  have most : udsMaxDgram.toNat = 4096 := rfl
  have length : (setupReqFrame cap name).length = name.length + 7 := by
    rw [frame]
    simp
  have inside : ((setupReqFrame cap name).drop 6).dropLast = name := by
    rw [frame]
    simp
  refine ⟨by omega, by omega, Or.inr ⟨?_, by omega, ?_, ?_⟩⟩
  · rw [frame]
    rfl
  · rw [frame]
    rfl
  · rw [inside]
    exact clean

theorem uds_frame_data (payload : List UInt8) : isControl (udsFrame payload) = false := rfl

theorem peer_data {frame : List UInt8} (peer : PeerDatagram frame)
    (data : isControl frame = false) : ∃ payload, frame = udsFrame payload := by
  rcases peer.2.2 with tag | request
  · cases frame with
    | nil => cases tag
    | cons first payload =>
        cases tag
        exact ⟨payload, rfl⟩
  · rw [data] at request
    cases request.1

theorem parse_unterminated {frame : List UInt8} (unterminated : 0 ∉ frame.drop 6) :
    parseSetupReq frame = none := by
  simp only [parseSetupReq, unterminated, not_false_eq_true, if_true]
  split_ifs <;> rfl

theorem parse_truncated {frame : List UInt8} {cap : Nat} (peer : PeerDatagram frame)
    (control : isControl frame = true) (short : cap < frame.length) :
    parseSetupReq (frame.take cap) = none := by
  apply parse_unterminated
  rcases peer.2.2 with tag | request
  · simp only [isControl, decide_eq_true_eq] at control
    rw [control] at tag
    cases tag
  · intro ended
    apply request.2.2.2
    rw [List.drop_take] at ended
    rw [List.dropLast_eq_take]
    have sooner : cap - 6 ≤ (frame.drop 6).length - 1 := by
      have length := request.2.1
      rw [List.length_drop]
      omega
    exact List.take_subset_take_left (frame.drop 6) sooner ended

structure OnlyControls (receipt : Receipt) (controls : List (List UInt8)) : Prop where
  handled : receipt.handled = controls.map (List.take receipt.maxSize)
  control : ∀ frame ∈ controls, isControl frame = true ∧ PeerDatagram frame

inductive UdsReturn (receipt : Receipt) : Prop where
  | coded (controls : List (List UInt8)) (code : Int) (only : OnlyControls receipt controls)
      (met : receipt.met = controls.map (Prod.mk .uds)) (negative : code < 0)
      (result : receipt.result = .error code)
  | delivered (controls : List (List UInt8)) (payload : List UInt8)
      (only : OnlyControls receipt controls) (room : 0 < receipt.maxSize)
      (met : receipt.met = controls.map (Prod.mk .uds) ++ [(.uds, udsFrame payload)])
      (result : receipt.result = .ok (payload.take (receipt.maxSize - 1)))

def UdsAt (draft : Receipt) : RecvPc → Prop
  | .idle _ => True
  | .pollingUds => draft.entry = .recvUds ∧ 0 < draft.maxSize ∧
      ∃ controls, OnlyControls draft controls ∧ draft.met = controls.map (Prod.mk .uds)
  | _ => draft.entry = .recv

structure UdsInv (receiver : Receiver) : Prop where
  inbox : ∀ frame ∈ receiver.inbox, PeerDatagram frame
  place : UdsAt receiver.draft receiver.pc
  returned : ∀ receipt ∈ receiver.receipts, receipt.entry = .recvUds → UdsReturn receipt

section Steps

variable {receiver next received : Receiver}

theorem uds_finish (inv : UdsInv receiver) {ended : Receiver} {result : Except Int (List UInt8)}
    (inbox : ended.inbox ⊆ receiver.inbox) (receipts : ended.receipts = receiver.receipts)
    (returned : ended.draft.entry = .recvUds → UdsReturn (ended.closed result)) :
    UdsInv (ended.finish result) where
  inbox := fun frame member => inv.inbox frame (inbox member)
  place := trivial
  returned := by
    intro receipt member entry
    simp only [Receiver.finish, receipts, List.mem_append, List.mem_singleton] at member
    rcases member with old | rfl
    · exact inv.returned receipt old entry
    · exact returned entry

theorem uds_looped (inv : UdsInv receiver) {entered : Receiver} (looped : Looped entered next)
    (inbox : entered.inbox ⊆ receiver.inbox) (receipts : entered.receipts = receiver.receipts)
    (entry : entered.draft.entry = .recv) : UdsInv next := by
  obtain ⟨sameDraft, sameReceipts, sameInbox, _⟩ := looped_same looped
  constructor
  · intro frame member
    rw [sameInbox] at member
    exact inv.inbox frame (inbox member)
  · cases looped <;> exact entry
  · intro receipt member
    rw [sameReceipts, receipts] at member
    exact inv.returned receipt member

theorem recv_entry {draft : Receipt} {p : Prop} (entry : draft.entry = .recv)
    (other : draft.entry = .recvUds) : p := by
  rw [entry] at other
  cases other

theorem peer_received {maxSize : Nat} {frame : List UInt8} (peer : PeerDatagram frame)
    (room : 0 < maxSize) :
    (if frame.take maxSize = [] then (.error .econnreset : Except Errno (List UInt8))
      else .ok (frame.take maxSize)) = .ok (frame.take maxSize) ∧
    intResult (.ok (frame.take maxSize)) = ((frame.take maxSize).length : Int) ∧
    0 < (frame.take maxSize).length := by
  have large := peer.1
  have small := peer.2.1
  have most : udsMaxDgram.toNat = 4096 := rfl
  have length : (frame.take maxSize).length = min maxSize frame.length := List.length_take
  have positive : 0 < (frame.take maxSize).length := by omega
  have nonempty : frame.take maxSize ≠ [] := List.length_pos_iff.mp positive
  refine ⟨if_neg nonempty, ?_, positive⟩
  exact int_of_short (by omega)

theorem uds_step_failed {env : RecvEnv} {result : Except Errno (List UInt8)} (inv : UdsInv receiver)
    (here : receiver.pc = .pollingUds)
    (answered : Received env receiver receiver.draft.maxSize result received)
    (nonpositive : intResult result ≤ 0) :
    UdsInv (received.finish (.error (intResult result))) := by
  have place := inv.place
  rw [here] at place
  obtain ⟨_, room, controls, only, met⟩ := place
  have taken := received_taken answered
  apply uds_finish inv taken.inbox taken.receipts
  intro _
  cases answered with
  | failed code cause =>
      exact .coded controls (intCode code) ⟨only.handled, only.control⟩ met
        (int_code_negative code) rfl
  | datagram frame rest queued large =>
      have peer := inv.inbox frame (by rw [queued]; exact List.mem_cons_self)
      obtain ⟨same, value, positive⟩ := peer_received peer room
      rw [same, value] at nonpositive
      omega

theorem uds_step_received {env : RecvEnv} {result : Except Errno (List UInt8)} (inv : UdsInv receiver)
    (here : receiver.pc = .pollingUds)
    (answered : Received env receiver receiver.draft.maxSize result received)
    (positive : 0 < intResult result) :
    ∃ frame controls, PeerDatagram frame ∧ 0 < receiver.draft.maxSize ∧
      result = .ok (frame.take receiver.draft.maxSize) ∧
      intResult result = ((frame.take receiver.draft.maxSize).length : Int) ∧
      OnlyControls received.draft controls ∧
      received.draft.met = controls.map (Prod.mk .uds) ++ [(.uds, frame)] ∧
      isControl (frame.take receiver.draft.maxSize) = isControl frame := by
  have place := inv.place
  rw [here] at place
  obtain ⟨_, room, controls, only, met⟩ := place
  cases answered with
  | failed code cause =>
      exact absurd positive (error_not_positive code)
  | datagram frame rest queued large =>
      have peer := inv.inbox frame (by rw [queued]; exact List.mem_cons_self)
      obtain ⟨same, value, _⟩ := peer_received peer room
      refine ⟨frame, controls, peer, room, same, by rw [same, value],
        ⟨only.handled, only.control⟩, ?_, ?_⟩
      · simp only [Receiver.note, met]
      · simp only [isControl, List.head?_take, Nat.ne_of_gt room, if_false]

/-- A control frame is handled and the poll goes on. -/
theorem uds_step_served {env : RecvEnv} {result : Except Errno (List UInt8)} (inv : UdsInv receiver)
    (here : receiver.pc = .pollingUds)
    (answered : Received env receiver receiver.draft.maxSize result received)
    (positive : 0 < intResult result) (control : isControl (bufferBytes result) = true)
    (handled : received.serve env (bufferBytes result) = some next) : UdsInv next := by
  have place := inv.place
  rw [here] at place
  have taken := received_taken answered
  have kept := serve_served handled
  obtain ⟨frame, controls, known, room, bytes, _, only, met, same⟩ :=
    uds_step_received inv here answered positive
  rw [bytes, bufferBytes] at control kept
  have samePc : next.pc = .pollingUds := kept.pc.trans (taken.pc.trans here)
  refine ⟨?_, ?_, ?_⟩
  · intro frame member
    rw [kept.inbox] at member
    exact inv.inbox frame (taken.inbox member)
  · rw [samePc, kept.draft]
    refine ⟨taken.entry.trans place.1, taken.maxSize ▸ room, controls ++ [frame], ⟨?_, ?_⟩, ?_⟩
    · simp only [only.handled, List.map_append, List.map_cons, List.map_nil, taken.maxSize]
    · intro other member
      rcases List.mem_append.mp member with old | new
      · exact only.control other old
      · rw [List.mem_singleton.mp new]
        exact ⟨same ▸ control, known⟩
    · simp only [met, List.map_append, List.map_cons, List.map_nil]
  · intro receipt member
    rw [kept.receipts, taken.receipts] at member
    exact inv.returned receipt member

/-- A data message is handed out as far as the buffer goes. -/
theorem uds_step_delivered {env : RecvEnv} {result : Except Errno (List UInt8)}
    (inv : UdsInv receiver) (here : receiver.pc = .pollingUds)
    (answered : Received env receiver receiver.draft.maxSize result received)
    (positive : 0 < intResult result) (data : isControl (bufferBytes result) = false) :
    UdsInv (received.finish
      (.ok (((bufferBytes result).drop 1).take ((intResult result).toNat - 1)))) := by
  have taken := received_taken answered
  obtain ⟨frame, controls, known, room, bytes, value, only, met, same⟩ :=
    uds_step_received inv here answered positive
  have whole : isControl frame = false := by
    rw [← same]
    rw [bytes] at data
    exact data
  obtain ⟨payload, rfl⟩ := peer_data known whole
  apply uds_finish inv taken.inbox taken.receipts
  intro _
  have behind : ((udsFrame payload).take receiver.draft.maxSize).drop 1 =
      payload.take (receiver.draft.maxSize - 1) := by
    rw [List.drop_take]
    rfl
  have length : (intResult result).toNat - 1 =
      (payload.take (receiver.draft.maxSize - 1)).length := by
    rw [value, ← behind, List.length_drop]
    rfl
  have returned : ((bufferBytes result).drop 1).take ((intResult result).toNat - 1) =
      payload.take (received.draft.maxSize - 1) := by
    rw [length, bytes, taken.maxSize]
    simp only [bufferBytes, behind, List.take_length]
  rw [returned]
  exact .delivered controls payload ⟨only.handled, only.control⟩ (taken.maxSize ▸ room) met rfl

theorem move_uds_inv {action : RecvAction} (inv : UdsInv receiver)
    (peer : ∀ datagram, action = .arrive datagram → PeerDatagram datagram)
    (move : RecvMove receiver action next) : UdsInv next := by
  have place := inv.place
  cases move with
  | rejected buffer before code idle bad =>
      exact uds_finish inv (fun _ member => member) rfl (recv_entry rfl)
  | entered buffer before maxSize next idle good looped =>
      exact uds_looped inv looped (fun _ member => member) rfl rfl
  | rejectedUds buffer before code idle bad =>
      refine uds_finish inv (fun _ member => member) rfl ?_
      intro _
      exact .coded [] (intCode code) ⟨rfl, by simp⟩ rfl (int_code_negative code) rfl
  | enteredUds buffer before maxSize idle good =>
      refine ⟨inv.inbox, ⟨rfl, ?_, [], ⟨rfl, by simp⟩, rfl⟩, inv.returned⟩
      cases buffer with
      | none => cases good
      | some size =>
          simp only [checkBufferUds] at good
          split at good
          · cases good
          · next room => exact Nat.pos_of_ne_zero room
  | popped env tmoInMsg result here returned positive =>
      rw [here] at place
      obtain ⟨ctx, finished⟩ := deliver_finishes (receiver.notePopped result) (intResult result)
        (bufferBytes result) (countShm tmoInMsg)
      rw [finished]
      cases result <;> exact uds_finish inv (fun _ member => member) rfl (recv_entry place)
  | popFailed env tmoInMsg result here returned nonpositive other =>
      rw [here] at place
      cases result <;> exact uds_finish inv (fun _ member => member) rfl (recv_entry place)
  | popEmpty env tmoInMsg result here returned empty =>
      rw [here] at place
      cases result <;> exact ⟨inv.inbox, place, inv.returned⟩
  | served env tmoInMsg result received served next here answered more control handled looped =>
      rw [here] at place
      have taken := received_taken answered
      have kept := serve_served handled
      apply uds_looped inv looped
      · rw [kept.inbox]
        exact taken.inbox
      · rw [kept.receipts]
        exact taken.receipts
      · rw [kept.draft]
        exact taken.entry.trans place
  | received env tmoInMsg result received here answered more data =>
      rw [here] at place
      have taken := received_taken answered
      obtain ⟨ctx, finished⟩ := deliver_finishes (received.counted countPoll) (intResult result)
        (bufferBytes result) (countUds tmoInMsg)
      rw [finished]
      exact uds_finish inv taken.inbox taken.receipts (recv_entry (taken.entry.trans place))
  | pollFailed env tmoInMsg result received here answered nonpositive other =>
      rw [here] at place
      have taken := received_taken answered
      exact uds_finish inv taken.inbox taken.receipts (recv_entry (taken.entry.trans place))
  | pollQuiet env tmoInMsg result received next here answered nothing looped =>
      rw [here] at place
      have taken := received_taken answered
      exact uds_looped inv looped taken.inbox taken.receipts (taken.entry.trans place)
  | udsFailed env result received here answered nonpositive =>
      exact uds_step_failed inv here answered nonpositive
  | udsServed env result received next here answered positive control handled =>
      exact uds_step_served inv here answered positive control handled
  | udsTooLarge env result received here answered positive data large =>
      have taken := received_taken answered
      obtain ⟨frame, controls, known, room, bytes, value, _⟩ :=
        uds_step_received inv here answered positive
      have cut : (frame.take receiver.draft.maxSize).length ≤ receiver.draft.maxSize :=
        List.length_take_le _ _
      rw [value, taken.maxSize] at large
      omega
  | udsReceived env result received here answered positive data fits =>
      exact uds_step_delivered inv here answered positive data
  | ring action after foreign moved => exact ⟨inv.inbox, place, inv.returned⟩
  | arrived datagram =>
      refine ⟨?_, place, inv.returned⟩
      intro frame member
      rcases List.mem_append.mp member with old | new
      · exact inv.inbox frame old
      · rw [List.mem_singleton.mp new]
        exact peer datagram rfl

end Steps

/-- What a call on the socket is to return: the whole payload of the data message it met,
or a negative code; the payload for certain where the buffer holds it; and the control
frames handled as `adapt_recv` handles them, from the whole frame. -/
structure Untruncated (receipt : Receipt) : Prop where
  whole : ∀ payload, receipt.result = .ok payload → ∃ controls,
    receipt.met = controls ++ [(.uds, udsFrame payload)] ∧
      ∀ frame ∈ controls, isControl frame.2 = true
  coded : ∀ code, receipt.result = .error code → code < 0
  returned : ∀ controls payload, receipt.met = controls ++ [(.uds, udsFrame payload)] →
    payload.length ≤ receipt.maxSize → receipt.result = .ok payload
  handled : ∀ env ctx, receipt.handled.map (handleControl env ctx) =
    ((receipt.met.map Prod.snd).filter isControl).map (handleControl env ctx)

section Receipts

variable {receipt : Receipt} {controls : List (List UInt8)}

theorem controls_met (only : OnlyControls receipt controls) :
    ((controls.map (Prod.mk AdaptRoute.uds)).map Prod.snd).filter isControl = controls := by
  have same : (controls.map (Prod.mk AdaptRoute.uds)).map Prod.snd = controls := by
    rw [List.map_map]
    exact List.map_id controls
  rw [same, List.filter_eq_self]
  exact fun frame member => (only.control frame member).1

/-- A cut control frame does what the whole one does if and only if it is not cut, or
the whole one does nothing. -/
theorem handled_alike_iff {frame : List UInt8} {cap : Nat} (peer : PeerDatagram frame)
    (control : isControl frame = true) :
    (∀ env ctx, handleControl env ctx (frame.take cap) = handleControl env ctx frame) ↔
      frame.length ≤ cap ∨ parseSetupReq frame = none := by
  constructor
  · intro alike
    by_cases fits : frame.length ≤ cap
    · exact Or.inl fits
    · right
      have cut := parse_truncated peer control (Nat.not_le.mp fits)
      cases whole : parseSetupReq frame with
      | none => rfl
      | some request =>
          have same := alike ⟨MapEnv.succeeding, true⟩ eagerContext
          simp [handleControl, cut, whole, attachNamed, eagerContext] at same
  · rintro (fits | ignored) env ctx
    · rw [List.take_of_length_le fits]
    · by_cases fits : frame.length ≤ cap
      · rw [List.take_of_length_le fits]
      · have cut := parse_truncated peer control (Nat.not_le.mp fits)
        simp only [handleControl, cut, ignored]

theorem handled_iff (only : OnlyControls receipt controls) :
    (∀ env ctx, receipt.handled.map (handleControl env ctx) =
        controls.map (handleControl env ctx)) ↔
      ∀ frame ∈ controls, frame.length ≤ receipt.maxSize ∨ parseSetupReq frame = none := by
  have pointwise : (∀ env ctx, receipt.handled.map (handleControl env ctx) =
        controls.map (handleControl env ctx)) ↔
      ∀ frame ∈ controls, ∀ env ctx,
        handleControl env ctx (frame.take receipt.maxSize) = handleControl env ctx frame := by
    simp only [only.handled, List.map_map, List.map_inj_left, Function.comp_apply]
    constructor
    · exact fun alike frame member env ctx => alike env ctx frame member
    · exact fun alike env ctx frame member => alike frame member env ctx
  rw [pointwise]
  constructor
  · intro alike frame member
    obtain ⟨control, peer⟩ := only.control frame member
    exact (handled_alike_iff peer control).mp (alike frame member)
  · intro fits frame member
    obtain ⟨control, peer⟩ := only.control frame member
    exact (handled_alike_iff peer control).mpr (fits frame member)

/-- Each datagram the call met fits its buffer, or is a request that is ignored anyway. -/
def FramesFit (receipt : Receipt) : Prop :=
  ∀ frame, (AdaptRoute.uds, frame) ∈ receipt.met →
    frame.length ≤ receipt.maxSize ∨ (isControl frame = true ∧ parseSetupReq frame = none)

theorem controls_fit_iff (only : OnlyControls receipt controls) :
    (∀ frame ∈ controls, frame.length ≤ receipt.maxSize ∨
      (isControl frame = true ∧ parseSetupReq frame = none)) ↔
      ∀ env ctx, receipt.handled.map (handleControl env ctx) =
        controls.map (handleControl env ctx) := by
  rw [handled_iff only]
  constructor
  · exact fun fits frame member => (fits frame member).imp_right And.right
  · intro fits frame member
    exact (fits frame member).imp_right fun ignored =>
      ⟨(only.control frame member).1, ignored⟩

theorem coded_untruncated_iff (only : OnlyControls receipt controls) {code : Int}
    (met : receipt.met = controls.map (Prod.mk .uds)) (negative : code < 0)
    (result : receipt.result = .error code) : Untruncated receipt ↔ FramesFit receipt := by
  have handled : (receipt.met.map Prod.snd).filter isControl = controls := by
    rw [met]
    exact controls_met only
  have fits : FramesFit receipt ↔ ∀ frame ∈ controls, frame.length ≤ receipt.maxSize ∨
      (isControl frame = true ∧ parseSetupReq frame = none) := by
    simp only [FramesFit, met, List.mem_map, Prod.mk.injEq, true_and, exists_eq_right]
  rw [fits, controls_fit_iff only]
  constructor
  · intro untruncated
    have alike := untruncated.handled
    rw [handled] at alike
    exact alike
  · intro alike
    refine ⟨?_, ?_, ?_, by rw [handled]; exact alike⟩
    · intro payload returned
      rw [result] at returned
      cases returned
    · intro other returned
      rw [result] at returned
      cases returned
      exact negative
    · intro before payload ended _
      have last : (AdaptRoute.uds, udsFrame payload) ∈ controls.map (Prod.mk AdaptRoute.uds) := by
        rw [← met, ended]
        simp
      obtain ⟨frame, member, same⟩ := List.mem_map.mp last
      cases same
      have control := (only.control _ member).1
      rw [uds_frame_data] at control
      cases control

theorem delivered_untruncated_iff (only : OnlyControls receipt controls) {payload : List UInt8}
    (met : receipt.met = controls.map (Prod.mk .uds) ++ [(.uds, udsFrame payload)])
    (result : receipt.result = .ok (payload.take (receipt.maxSize - 1))) (room : 0 < receipt.maxSize) :
    Untruncated receipt ↔ FramesFit receipt := by
  have handled : (receipt.met.map Prod.snd).filter isControl = controls := by
    rw [met, List.map_append, List.filter_append, controls_met only]
    simp [uds_frame_data]
  have length : (udsFrame payload).length = payload.length + 1 := rfl
  have fits : FramesFit receipt ↔ (∀ frame ∈ controls, frame.length ≤ receipt.maxSize ∨
      (isControl frame = true ∧ parseSetupReq frame = none)) ∧
      payload.length + 1 ≤ receipt.maxSize := by
    simp only [FramesFit, met, List.mem_append, List.mem_map, List.mem_singleton, Prod.mk.injEq,
      true_and, exists_eq_right]
    constructor
    · intro every
      refine ⟨fun frame member => every frame (Or.inl member), ?_⟩
      rcases every (udsFrame payload) (Or.inr rfl) with small | ignored
      · exact small
      · cases ignored.1
    · rintro ⟨controls, small⟩ frame (member | rfl)
      · exact controls frame member
      · exact Or.inl small
  rw [fits, controls_fit_iff only]
  constructor
  · intro untruncated
    have alike := untruncated.handled
    rw [handled] at alike
    refine ⟨alike, ?_⟩
    obtain ⟨before, same, _⟩ := untruncated.whole _ result
    rw [met] at same
    have last := List.append_inj_right' same rfl
    have cut : payload = payload.take (receipt.maxSize - 1) := by
      simpa [udsFrame] using last
    have short := congrArg List.length cut
    rw [List.length_take] at short
    omega
  · rintro ⟨alike, whole⟩
    have complete : payload.take (receipt.maxSize - 1) = payload :=
      List.take_of_length_le (by omega)
    rw [complete] at result
    refine ⟨?_, ?_, ?_, by rw [handled]; exact alike⟩
    · intro returned same
      rw [result] at same
      cases same
      refine ⟨_, met, ?_⟩
      intro frame member
      obtain ⟨control, known, rfl⟩ := List.mem_map.mp member
      exact (only.control control known).1
    · intro code returned
      rw [result] at returned
      cases returned
    · intro before other ended _
      rw [met] at ended
      have last := List.append_inj_right' ended rfl
      have same : payload = other := by simpa [udsFrame] using last
      rw [result, same]

end Receipts

def RecvAction.fromPeer : RecvAction → Bool
  | .arrive datagram => decide (PeerDatagram datagram)
  | _ => true

/-- Every run of the receive calls, over any ring, on what a peer's `adapt_send` sends. -/
def datagramMachine : Machine Receiver RecvAction where
  initial receiver := (∃ before, receiver.pc = .idle before) ∧ receiver.receipts = [] ∧
    ∀ frame ∈ receiver.inbox, PeerDatagram frame
  step receiver action := if action.fromPeer then recvStep receiver action else none

theorem datagram_reachable {receiver : Receiver}
    (reached : datagramMachine.Reachable receiver) : UdsInv receiver := by
  apply Machine.invariant_of_reachable datagramMachine UdsInv _ _ reached
  · rintro start ⟨⟨before, idle⟩, none, inbox⟩
    refine ⟨inbox, ?_, ?_⟩
    · rw [idle]
      trivial
    · rw [none]
      simp
  · intro before action after held stepped
    simp only [datagramMachine] at stepped
    split at stepped
    · next allowed =>
      apply move_uds_inv held _ (recv_step_move stepped)
      rintro datagram rfl
      simpa [RecvAction.fromPeer] using allowed
    · cases stepped

/-- A call returns only whole messages and handles every request if and only if what it
met fitted its buffer with the tag. -/
theorem uds_receive_untruncated_iff {receiver : Receiver}
    (reached : datagramMachine.Reachable receiver) {receipt : Receipt}
    (member : receipt ∈ receiver.receipts) (entry : receipt.entry = .recvUds) :
    Untruncated receipt ↔ FramesFit receipt := by
  cases (datagram_reachable reached).returned receipt member entry with
  | coded controls code only met negative result =>
      exact coded_untruncated_iff only met negative result
  | delivered controls payload only room met result =>
      exact delivered_untruncated_iff only met result room

def threeBytesWaiting : Receiver where
  ring := pageRing
  ctx := { blankContext .consumer (plainConfig 4096) plainEnv with rxbufCap := udsMaxDgram }
  inbox := [udsFrame [1, 2, 3]]
  outbox := []
  pc := .idle none
  draft := openReceipt .recv 0
  receipts := []

def quietRecv : RecvEnv where
  failure := none
  control := { map := MapEnv.succeeding, realloc := true }
  ackSent := true

theorem three_bytes_start : datagramMachine.initial threeBytesWaiting := by
  refine ⟨⟨none, rfl⟩, rfl, ?_⟩
  intro frame member
  rw [List.mem_singleton.mp member]
  exact uds_frame_peer (by decide) (by decide)

def receiptOfThree (maxSize : Nat) (payload : List UInt8) : Receipt where
  entry := .recvUds
  maxSize := maxSize
  met := [(.uds, udsFrame [1, 2, 3])]
  handled := []
  result := .ok payload

/-- A buffer for the message and its tag. -/
theorem uds_receive_four_bytes : ∃ receiver, datagramMachine.Reachable receiver ∧
    receiptOfThree 4 [1, 2, 3] ∈ receiver.receipts ∧ Untruncated (receiptOfThree 4 [1, 2, 3]) := by
  have ran : (datagramMachine.run threeBytesWaiting
      [.call .recvUds (some 4), .step quietRecv]).map Receiver.receipts =
      some [receiptOfThree 4 [1, 2, 3]] := by
    decide +kernel
  obtain ⟨receiver, run, returned⟩ := Option.map_eq_some_iff.mp ran
  have reached := Machine.reachable_run datagramMachine three_bytes_start run
  have member : receiptOfThree 4 [1, 2, 3] ∈ receiver.receipts := by
    rw [returned]
    exact List.mem_singleton_self _
  have fit : FramesFit (receiptOfThree 4 [1, 2, 3]) := by
    intro frame met
    have same : (AdaptRoute.uds, frame) = (.uds, udsFrame [1, 2, 3]) := List.mem_singleton.mp met
    cases same
    exact Or.inl (by decide)
  exact ⟨receiver, reached, member, (uds_receive_untruncated_iff reached member rfl).mpr fit⟩

/-- A buffer for the message alone: its last byte is cut and the call reports two. -/
theorem three_bytes_cut_to_two : ∃ receiver, datagramMachine.Reachable receiver ∧
    receiptOfThree 3 [1, 2] ∈ receiver.receipts ∧ ¬Untruncated (receiptOfThree 3 [1, 2]) := by
  have ran : (datagramMachine.run threeBytesWaiting
      [.call .recvUds (some 3), .step quietRecv]).map Receiver.receipts =
      some [receiptOfThree 3 [1, 2]] := by
    decide +kernel
  obtain ⟨receiver, run, returned⟩ := Option.map_eq_some_iff.mp ran
  have reached := Machine.reachable_run datagramMachine three_bytes_start run
  refine ⟨receiver, reached, by rw [returned]; exact List.mem_singleton_self _, ?_⟩
  intro untruncated
  have whole := untruncated.returned [] [1, 2, 3] rfl (by decide)
  cases whole

end AdaptIpc.Endpoint
