import NgBigCache.Cluster.Node

/-! # The handshake filter and the dispatch of inbound frames

In `Handshake`, `queueInboundMessage` lets only VERIFY and VERIFY_OK frames into the
inbound queue, and `handleVerify` moves the node to `Connected` when `handleMessage`
dispatches an admitted VERIFY.  The filter runs in `networkConsumer`'s goroutine when a
frame is read, the state change in `handleMessage`'s when the VERIFY is handled, so the
frames the filter tests between the two are tested against `Handshake`.

`Flow` is what the two goroutines read and write, and `FlowStep` its transitions: the
consumer reads, filters and queues a frame, the handler takes one and handles a VERIFY.
`step_flow` shows that every step of the node but the interrupt functions and a
`shutDown()` value taken by a parked `networkConsumer` (`KeepsFlow`) is a `FlowStep` of
its flow or leaves the flow as it is.  Over `FlowStep`,
`Flow.Dispatching` is kept: what the handler has dispatched, followed by what is queued
and what the consumer holds, is `passed`, the VERIFY and VERIFY_OK frames among those
tested before the acceptance and every frame tested after it
(`handshake_dispatch_split`).  `handshake_drops_put` is a run in which a PUT that follows
the accepted VERIFY on the wire is dropped.

`dropedMsg` counts what the filter refuses.  Only the filter moves it and the frames
tested (`step_tally`).  So over those steps, `dropedMsg` is the number of non-VERIFY frames
tested before the acceptance, and every other frame tested has been dispatched, is queued,
or is on its way to the queue (`dropped_frames_counted`).  A `shutDown()` value that
`networkConsumer` takes while parked on a full queue sends it back to its loop without
the frame it holds: that frame is lost uncounted. -/

set_option autoImplicit false

namespace NgBigCache

namespace Cluster

/-- The VERIFY body of a frame, if it is one. -/
def NodeMessage.verifyBody : NodeMessage → Option VerifyMessage
  | verify msg => some msg
  | _ => none

/-- A frame `networkConsumer` holds: read and not yet tested, or let through and not yet
in the queue. -/
inductive Holding
  | idle
  | unread (msg : NodeMessage)
  | passing (msg : NodeMessage)
  deriving DecidableEq, Repr

def ConsumerPc.holding : ConsumerPc → Holding
  | .queueing msg => .unread msg
  | .sending msg => .passing msg
  | _ => .idle

/-- The frame held before the filter, as a list. -/
def Holding.unreadList : Holding → List NodeMessage
  | unread msg => [msg]
  | _ => []

/-- The frame held after the filter, as a list. -/
def Holding.passingList : Holding → List NodeMessage
  | passing msg => [msg]
  | _ => []

/-- What `networkConsumer` and `handleMessage` read and write. -/
structure Flow where
  state : NodeState
  done : Bool
  inboundClosed : Bool
  wire : List NodeMessage
  holding : Holding
  inbound : List NodeMessage
  verifying : Option VerifyMessage
  examined : List NodeMessage
  dispatched : List NodeMessage
  acceptedAt : Option Nat

/-- The VERIFY `handleMessage` is handling, between its test and `handleVerify`'s end. -/
def HandlerPc.verifyingBody : HandlerPc → Option VerifyMessage
  | .verifying msg => some msg
  | _ => none

def Node.flow (s : Node) : Flow :=
  ⟨s.state, s.done, s.inboundClosed, s.wire, s.consumer.holding, s.inbound,
    s.handler.verifyingBody, s.examined, s.dispatched, s.acceptedAt⟩

/-- The transitions of the flow, for a parent in mode `parentMode`. -/
inductive FlowStep (parentMode : ClusterMode) : Flow → Flow → Prop
  | read {f : Flow} {msg : NodeMessage} {rest : List NodeMessage} :
      f.holding = .idle → f.wire = msg :: rest →
      FlowStep parentMode f { f with wire := rest, holding := .unread msg }
  | drop {f : Flow} {msg : NodeMessage} :
      f.holding = .unread msg → f.state = .handshake → msg.isVerify = false →
      FlowStep parentMode f { f with holding := .idle, examined := f.examined ++ [msg] }
  | pass {f : Flow} {msg : NodeMessage} :
      f.holding = .unread msg → ¬ (f.state = .handshake ∧ msg.isVerify = false) →
      f.state ≠ .disconnected →
      FlowStep parentMode f { f with holding := .passing msg, examined := f.examined ++ [msg] }
  | discard {f : Flow} {msg : NodeMessage} :
      f.holding = .unread msg → f.state = .disconnected →
      FlowStep parentMode f { f with holding := .idle, examined := f.examined ++ [msg] }
  | deliver {f : Flow} {msg : NodeMessage} :
      f.holding = .passing msg →
      FlowStep parentMode f { f with holding := .idle, inbound := f.inbound ++ [msg] }
  | abort {f : Flow} {msg : NodeMessage} :
      f.holding = .passing msg → f.done ∨ f.inboundClosed →
      FlowStep parentMode f { f with holding := .idle }
  | skip {f : Flow} {msg : NodeMessage} {rest : List NodeMessage} :
      f.inbound = msg :: rest → f.state = .disconnected →
      FlowStep parentMode f { f with inbound := rest }
  | take {f : Flow} {msg : NodeMessage} {rest : List NodeMessage} :
      f.verifying = none → f.inbound = msg :: rest → f.state ≠ .disconnected →
      FlowStep parentMode f
        { f with inbound := rest, dispatched := f.dispatched ++ [msg], verifying := msg.verifyBody }
  | refuse {f : Flow} {msg : VerifyMessage} :
      f.verifying = some msg → FlowStep parentMode f { f with verifying := none }
  | accept {f : Flow} {msg : VerifyMessage} :
      f.verifying = some msg → ¬ (msg.mode = .passive ∧ parentMode = .passive) →
      FlowStep parentMode f
        { f with verifying := none, state := .connected,
                 acceptedAt := f.acceptedAt.orElse fun _ => some f.examined.length }

/-- The events before a node starts coming down: all but the interrupt functions and
`shutDown()`. -/
def BeforeTeardown : Event → Prop
  | .interrupt | .shutDown _ => False
  | _ => True

/-- The events that keep every frame where the flow has it: all but the interrupt
functions and a `shutDown()` value taken by `networkConsumer` parked on a full inbound
queue, which goes back to its loop without the frame it holds. -/
def KeepsFlow : Event → Prop
  | .interrupt | .shutDown (some .consumer) => False
  | _ => True

theorem BeforeTeardown.keepsFlow {e : Event} (before : BeforeTeardown e) : KeepsFlow e := by
  cases e <;> first | exact before.elim | trivial

/-! ## Every step of the node is a step of its flow -/

section Refinement
variable {ctx : Context} {s s' : Node}

theorem Node.wgDone_eq_some {t : Node} (done : t.wgDone = some s') : s' = { t with wg := t.wg - 1 } := by
  unfold Node.wgDone at done
  split at done
  · cases done
  · exact (Option.some.inj done).symm

theorem Node.flow_wgDone {t : Node} (done : t.wgDone = some s') : s'.flow = t.flow := by
  rw [Node.wgDone_eq_some done]; rfl

theorem Node.flow_toSelect (g : Sender) : (s.toSelect g).flow = s.flow := by
  cases g <;> simp only [Node.toSelect] <;> split <;>
    simp only [Node.flow, HandlerPc.verifyingBody, *]

theorem Node.flow_resume {g : Sender} {call : SendPhase × NodeMessage} (calling : s.sendCall g = some call) :
    (s.resume g).flow = s.flow := by
  cases g with
  | starter => rfl
  | pinger => simp only [Node.resume]; split <;> rfl
  | handler =>
    simp only [Node.sendCall] at calling
    split at calling
    · simp only [Node.flow, Node.resume, HandlerPc.verifyingBody, *]
    · cases calling

theorem Node.flow_receiveDone {r : Receiver} (other : r ≠ .consumer)
    (waiting : s.waitsOnDone ctx r = true) : (s.receiveDone r).flow = s.flow := by
  cases r with
  | terminator => rfl
  | sender g =>
    cases calling : s.sendCall g with
    | none => simp only [Node.waitsOnDone, Node.atSelect, calling, Bool.false_and] at waiting; cases waiting
    | some call => exact Node.flow_resume calling
  | consumer => exact absurd rfl other

theorem Node.flow_dispatch {msg : NodeMessage} (dispatched : Node.dispatch ctx s msg = some s') :
    s'.flow = { s.flow with verifying := msg.verifyBody } := by
  cases msg <;> simp only [Node.dispatch] at dispatched <;>
    (try split at dispatched) <;> cases dispatched <;> rfl

theorem Node.handleVerify_refused {msg : VerifyMessage} {admitted : Bool}
    (refused : (Node.handleVerify ctx s msg admitted).2 = false) :
    (Node.handleVerify ctx s msg admitted).1.flow = s.flow := by
  unfold Node.handleVerify at refused ⊢
  split_ifs at refused ⊢ <;> rfl

theorem Node.handleVerify_accepted {msg : VerifyMessage} {admitted : Bool}
    (accepted : (Node.handleVerify ctx s msg admitted).2 = true) :
    (Node.handleVerify ctx s msg admitted).1.flow =
      { s.flow with state := .connected,
                    acceptedAt := s.acceptedAt.orElse fun _ => some s.examined.length } := by
  unfold Node.handleVerify at accepted ⊢
  split_ifs at accepted ⊢ <;> rfl

theorem Node.handleVerify_not_passive_pair {msg : VerifyMessage} {admitted : Bool}
    (accepted : (Node.handleVerify ctx s msg admitted).2 = true) :
    ¬ (msg.mode = .passive ∧ ctx.parentMode = .passive) := by
  intro pair
  unfold Node.handleVerify at accepted
  rw [if_pos pair] at accepted
  cases accepted

/-- Every step that keeps the flow leaves it as it is or is a step of it. -/
theorem step_flow {e : Event} (allowed : KeepsFlow e) (stepped : step ctx s e = some s') :
    s'.flow = s.flow ∨ FlowStep ctx.parentMode s.flow s'.flow := by
  cases e with
  | interrupt => exact allowed.elim
  | shutDown receiver =>
    left
    cases receiver with
    | none =>
      simp only [step] at stepped
      split at stepped <;> cases stepped
      rfl
    | some r =>
      simp only [step] at stepped
      split at stepped
      · rename_i waiting
        cases stepped
        exact Node.flow_receiveDone (by rintro rfl; exact allowed) waiting.2
      · cases stepped
  | sendCheck g | sendDeliver g | sendAbort g =>
    simp only [step] at stepped
    split at stepped
    · rename_i calling
      (repeat' split at stepped) <;> cases stepped
      all_goals first | exact .inl (Node.flow_resume calling) | exact .inl (Node.flow_toSelect g)
    · cases stepped
  | consumerRead =>
    simp only [step] at stepped
    split at stepped
    · rename_i msg rest reading onWire
      split at stepped
      · cases stepped
        refine .inr ?_
        have read : FlowStep ctx.parentMode s.flow _ :=
          FlowStep.read (by simp only [Node.flow, reading, ConsumerPc.holding]) onWire
        simpa only [Node.flow, ConsumerPc.holding] using read
      · cases stepped
    · cases stepped
  | consumerFilter =>
    simp only [step] at stepped
    split at stepped
    · rename_i msg queueing
      have held : s.flow.holding = .unread msg := by simp only [Node.flow, queueing, ConsumerPc.holding]
      refine .inr ?_
      split at stepped
      · rename_i dropped
        cases stepped
        simpa only [Node.flow, ConsumerPc.holding] using
          FlowStep.drop held dropped.1 (by simpa using dropped.2)
      · split at stepped
        · rename_i kept live
          cases stepped
          simpa only [Node.flow, ConsumerPc.holding] using
            FlowStep.pass held (by simpa using kept) live
        · rename_i kept closed
          cases stepped
          simpa only [Node.flow, ConsumerPc.holding] using
            FlowStep.discard held (by simpa using closed)
    · cases stepped
  | consumerDeliver =>
    simp only [step] at stepped
    split at stepped
    · rename_i msg sending
      split at stepped
      · cases stepped
        refine .inr ?_
        simpa only [Node.flow, ConsumerPc.holding] using
          (FlowStep.deliver (show s.flow.holding = .passing msg by
            simp only [Node.flow, sending, ConsumerPc.holding]) : FlowStep ctx.parentMode _ _)
      · cases stepped
    · cases stepped
  | consumerAbort =>
    simp only [step] at stepped
    split at stepped
    · rename_i msg sending
      split at stepped
      · rename_i closed
        cases stepped
        refine .inr ?_
        simpa only [Node.flow, ConsumerPc.holding] using
          FlowStep.abort (show s.flow.holding = .passing msg by
              simp only [Node.flow, sending, ConsumerPc.holding])
            (by simpa only [Node.flow, Bool.or_eq_true] using closed)
      · cases stepped
    · cases stepped
  | handlerTake =>
    simp only [step] at stepped
    split at stepped
    · rename_i msg rest looping queued
      have idle : s.flow.verifying = none := by simp only [Node.flow, looping, HandlerPc.verifyingBody]
      refine .inr ?_
      split at stepped
      · rename_i closed
        cases stepped
        exact FlowStep.skip queued closed
      · rename_i live
        rw [Node.flow_dispatch stepped]
        exact FlowStep.take idle queued live
    · cases stepped
  | handlerVerify admitted =>
    simp only [step] at stepped
    split at stepped
    · rename_i msg verifying
      have busy : s.flow.verifying = some msg := by
        simp only [Node.flow, verifying, HandlerPc.verifyingBody]
      refine .inr ?_
      generalize verdict : Node.handleVerify ctx s msg admitted = outcome at stepped
      obtain ⟨t, _ | _⟩ := outcome
      · have kept := Node.handleVerify_refused
          (show (Node.handleVerify ctx s msg admitted).2 = false by rw [verdict])
        rw [verdict] at kept
        rw [(Node.flow_wgDone stepped).trans rfl]
        show FlowStep ctx.parentMode s.flow { t.flow with verifying := none }
        rw [kept]
        exact FlowStep.refuse busy
      · cases stepped
        have accepted := Node.handleVerify_accepted
          (show (Node.handleVerify ctx s msg admitted).2 = true by rw [verdict])
        rw [verdict] at accepted
        show FlowStep ctx.parentMode s.flow { t.flow with verifying := none }
        rw [accepted]
        exact FlowStep.accept busy (Node.handleVerify_not_passive_pair
          (show (Node.handleVerify ctx s msg admitted).2 = true by rw [verdict]))
    · cases stepped
  | _ =>
    -- every other step moves nothing the flow sees
    left
    simp only [step, Node.wgDone, Node.tearDown] at stepped
    (repeat' split at stepped) <;> cases stepped <;>
      simp only [Node.flow, ConsumerPc.holding, HandlerPc.verifyingBody, *]

/-- Only `accept` moves the state of a flow, to `Connected`. -/
theorem FlowStep.state_eq {parentMode : ClusterMode} {f f' : Flow} (stepped : FlowStep parentMode f f') :
    f'.state = f.state ∨ ∃ msg, f.verifying = some msg ∧
      ¬ (msg.mode = .passive ∧ parentMode = .passive) ∧ f'.state = .connected := by
  cases stepped with
  | @accept msg busy unpaired => exact .inr ⟨msg, busy, unpaired, rfl⟩
  | _ => exact .inl rfl

theorem Node.interruptOf_state {next : Nat} {t : Node} (interrupted : s.interruptOf next = some t) :
    t.state = s.state ∨ t.state = .disconnected := by
  unfold Node.interruptOf at interrupted
  split at interrupted
  all_goals first
    | (cases interrupted; first | exact .inl rfl | exact .inr rfl)
    | (rw [Node.wgDone_eq_some interrupted]; exact .inr rfl)
    | cases interrupted

theorem Node.state_receiveDone (r : Receiver) : (s.receiveDone r).state = s.state := by
  cases r with
  | terminator | consumer => rfl
  | sender g =>
    cases g with
    | starter | handler => rfl
    | pinger => simp only [Node.receiveDone, Node.resume]; split <;> rfl

/-- A step keeps the state, or an interrupt function sets `Disconnected`, or
`handleVerify` sets `Connected` for a VERIFY that does not pair two passive nodes. -/
theorem step_state {e : Event} (stepped : step ctx s e = some s') :
    s'.state = s.state ∨ (e = .interrupt ∧ s'.state = .disconnected) ∨
      ∃ msg, s.handler = .verifying msg ∧ ¬ (msg.mode = .passive ∧ ctx.parentMode = .passive) ∧
        s'.state = .connected := by
  cases e with
  | interrupt =>
    simp only [step] at stepped
    split at stepped
    · obtain ⟨t, interrupted, rfl⟩ := Option.map_eq_some'.mp stepped
      rcases Node.interruptOf_state interrupted with same | disconnected
      · exact .inl same
      · exact .inr (.inl ⟨rfl, disconnected⟩)
    · cases stepped
  | shutDown receiver =>
    cases receiver with
    | none =>
      simp only [step] at stepped
      split at stepped <;> cases stepped; exact .inl rfl
    | some r =>
      simp only [step] at stepped
      split at stepped
      · cases stepped; exact .inl (Node.state_receiveDone r)
      · cases stepped
  | _ =>
    rcases step_flow (by trivial) stepped with same | next
    · exact .inl (congrArg Flow.state same)
    · rcases next.state_eq with same | ⟨msg, busy, unpaired, connected⟩
      · exact .inl same
      · refine .inr (.inr ⟨msg, ?_, unpaired, connected⟩)
        simp only [Node.flow] at busy
        revert busy
        cases s.handler <;> simp [HandlerPc.verifyingBody]

/-- A node reaches `Connected` only in `handleVerify`, for a VERIFY that does not pair
two passive nodes. -/
theorem step_connected {e : Event} (stepped : step ctx s e = some s')
    (reached : s'.state = .connected) (before : s.state ≠ .connected) :
    ∃ msg, s.handler = .verifying msg ∧ ¬ (msg.mode = .passive ∧ ctx.parentMode = .passive) := by
  rcases step_state stepped with same | ⟨-, disconnected⟩ | ⟨msg, busy, unpaired, -⟩
  · exact absurd (same ▸ reached) before
  · simp [reached] at disconnected
  · exact ⟨msg, busy, unpaired⟩

/-- An active peer's VERIFY, taken by `handleMessage` in `Handshake` and admitted. -/
theorem step_connected_admitted :
    let ctx : Context := ⟨1, "node", "9911", .active, fun _ => [], fun _ => [], 1⟩
    let init := started ctx ⟨"peer", "localhost:9911", 0, 0, 0, 0, "", false, true⟩
      [.verify ⟨"peer", "9911", .active⟩]
    let s := (run ctx init [.launch, .consumerAdd, .handlerAdd, .consumerCheck, .consumerRead,
      .consumerFilter, .consumerDeliver, .handlerTake]).getD init
    ∃ msg, s.handler = .verifying msg ∧ ¬ (msg.mode = .passive ∧ ctx.parentMode = .passive) := by
  intro ctx init s
  exact @step_connected ctx s _ (.handlerVerify true) rfl rfl (by decide)

/-- A disconnected node leaves `Disconnected` only by `handleVerify`'s
`setState(nodeStateConnected)`, for a VERIFY the handler took before. -/
theorem step_leaves_disconnected {e : Event} (stepped : step ctx s e = some s')
    (disconnected : s.state = .disconnected) (left : s'.state ≠ .disconnected) :
    ∃ msg, s.handler = .verifying msg ∧ s'.state = .connected := by
  rcases step_state stepped with same | ⟨-, again⟩ | ⟨msg, busy, -, connected⟩
  · exact absurd (same.trans disconnected) left
  · exact absurd again left
  · exact ⟨msg, busy, connected⟩

/-- `handleMessage` takes the peer's VERIFY; the peer hangs up, `g.Run()` calls every
interrupt function, and `handleVerify` then sets `Connected`. -/
theorem step_leaves_disconnected_after_interrupts :
    let ctx : Context := ⟨1, "node", "9911", .active, fun _ => [], fun _ => [], 1⟩
    let init := started ctx ⟨"peer", "localhost:9911", 0, 0, 0, 0, "", false, true⟩
      [.verify ⟨"peer", "9911", .active⟩]
    let s := (run ctx init [.launch, .consumerAdd, .handlerAdd, .consumerCheck, .consumerRead,
      .consumerFilter, .consumerDeliver, .handlerTake, .consumerCheck, .consumerFail, .runnerFirst,
      .interrupt, .interrupt, .interrupt, .interrupt, .interrupt, .interrupt, .interrupt]).getD init
    ∃ msg, s.handler = .verifying msg ∧ ((step ctx s (.handlerVerify true)).getD s).state = .connected := by
  intro ctx init s
  exact @step_leaves_disconnected ctx s _ (.handlerVerify true) rfl rfl (by decide)

end Refinement

/-! ## What the handler dispatches -/

/-- The frames `handleMessage` may get of those the filter has tested, when the
acceptance came after the first `k` of them: the VERIFY and VERIFY_OK frames among
these, and every later one. -/
def passed (examined : List NodeMessage) : Option Nat → List NodeMessage
  | none => examined.filter (·.isVerify)
  | some k => (examined.take k).filter (·.isVerify) ++ examined.drop k

section Passed
variable (examined : List NodeMessage) {msg : NodeMessage}

theorem passed_append_of_drop (dropped : msg.isVerify = false) :
    passed (examined ++ [msg]) none = passed examined none := by
  simp [passed, List.filter_append, dropped]

theorem passed_append_of_verify (kept : msg.isVerify = true) :
    passed (examined ++ [msg]) none = passed examined none ++ [msg] := by
  simp [passed, List.filter_append, kept]

theorem passed_append_of_le {k : Nat} (le : k ≤ examined.length) :
    passed (examined ++ [msg]) (some k) = passed examined (some k) ++ [msg] := by
  simp [passed, List.take_append_of_le_length le, List.drop_append_of_le_length le]

theorem passed_length : passed examined (some examined.length) = passed examined none := by
  simp [passed]

theorem passed_sublist (acceptedAt : Option Nat) : (passed examined acceptedAt).Sublist examined := by
  cases acceptedAt with
  | none => exact List.filter_sublist _
  | some k =>
    have sub : ((examined.take k).filter (·.isVerify) ++ examined.drop k).Sublist
        (examined.take k ++ examined.drop k) :=
      (List.filter_sublist _).append (List.Sublist.refl _)
    rwa [List.take_append_drop] at sub

end Passed

/-- What a flow keeps from the start of a node on `wire` until its teardown starts: the
node is in `Handshake` until the acceptance and `Connected` after it; the frames tested,
the one read and the ones left are the wire; what is dispatched, queued and held is
`passed`; the VERIFY being handled was dispatched; and the acceptance came after a VERIFY
the filter had tested. -/
structure Flow.Dispatching (wire : List NodeMessage) (f : Flow) : Prop where
  running : f.done = false ∧ f.inboundClosed = false
  connected : f.state = if f.acceptedAt.isSome then .connected else .handshake
  order : f.examined ++ f.holding.unreadList ++ f.wire = wire
  conserved : f.dispatched ++ f.inbound ++ f.holding.passingList = passed f.examined f.acceptedAt
  verifying : ∀ msg, f.verifying = some msg → .verify msg ∈ f.dispatched
  split : ∀ k, f.acceptedAt = some k → k ≤ f.examined.length ∧
    ∃ msg, .verify msg ∈ f.examined.take k

section Dispatching
variable {wire : List NodeMessage} {f : Flow}

theorem Flow.Dispatching.not_disconnected (inv : f.Dispatching wire) : f.state ≠ .disconnected := by
  rw [inv.connected]; split <;> simp

theorem Flow.Dispatching.handshake (inv : f.Dispatching wire) (handshake : f.state = .handshake) :
    f.acceptedAt = none := by
  rw [inv.connected] at handshake
  cases accepted : f.acceptedAt <;> simp_all

theorem Flow.Dispatching.dispatched_mem (inv : f.Dispatching wire) {msg : NodeMessage}
    (mem : msg ∈ f.dispatched) : msg ∈ f.examined := by
  have inPassed : msg ∈ passed f.examined f.acceptedAt := by
    rw [← inv.conserved]; simp [mem]
  exact (passed_sublist _ _).subset inPassed

/-- Every step of the flow keeps the invariant. -/
theorem Flow.Dispatching.step {parentMode : ClusterMode} {f' : Flow} (inv : f.Dispatching wire)
    (stepped : FlowStep parentMode f f') :
    f'.Dispatching wire := by
  cases stepped with
  | read idle onWire =>
    refine ⟨inv.running, inv.connected, ?_, ?_, inv.verifying, inv.split⟩
    · rw [← inv.order, idle, onWire]; simp [Holding.unreadList]
    · simpa [idle, Holding.passingList] using inv.conserved
  | drop held handshake dropped =>
    have none := inv.handshake handshake
    refine ⟨inv.running, inv.connected, ?_, ?_, inv.verifying, by simp [none]⟩
    · rw [← inv.order, held]; simp [Holding.unreadList]
    · simpa [held, none, Holding.passingList, passed_append_of_drop _ dropped] using inv.conserved
  | pass held kept live =>
    refine ⟨inv.running, inv.connected, ?_, ?_, inv.verifying, fun k accepted => ?_⟩
    · rw [← inv.order, held]; simp [Holding.unreadList]
    · have conserved := inv.conserved
      rw [held] at conserved
      simp only [Holding.passingList, List.append_nil] at conserved ⊢
      cases accepted : f.acceptedAt with
      | none =>
        have handshake : f.state = .handshake := by simpa [accepted] using inv.connected
        have verify : ¬ (_ = false) := fun dropped => kept ⟨handshake, dropped⟩
        rw [Bool.not_eq_false] at verify
        rw [accepted] at conserved
        rw [passed_append_of_verify _ verify, ← conserved]
      | some k =>
        rw [accepted] at conserved
        rw [passed_append_of_le _ (inv.split k accepted).1, ← conserved]
    · obtain ⟨le, msg, mem⟩ := inv.split k accepted
      exact ⟨le.trans (by simp), msg, by rwa [List.take_append_of_le_length le]⟩
  | discard _ disconnected => exact absurd disconnected inv.not_disconnected
  | deliver held =>
    refine ⟨inv.running, inv.connected, ?_, ?_, inv.verifying, inv.split⟩
    · rw [← inv.order, held]; rfl
    · rw [← inv.conserved, held]; simp [Holding.passingList]
  | abort _ closed => rcases closed with closed | closed <;> simp [inv.running] at closed
  | skip _ disconnected => exact absurd disconnected inv.not_disconnected
  | @take frame rest _ queued _ =>
    refine ⟨inv.running, inv.connected, inv.order, ?_, fun msg body => ?_, inv.split⟩
    · rw [← inv.conserved, queued]; simp
    · cases frame <;> simp_all [NodeMessage.verifyBody]
  | refuse _ => exact ⟨inv.running, inv.connected, inv.order, inv.conserved, by simp, inv.split⟩
  | @accept msg busy _ =>
    cases accepted : f.acceptedAt with
    | none =>
      refine ⟨inv.running, by simp [accepted], inv.order, ?_, by simp, fun k atK => ?_⟩
      · simpa [accepted, passed_length] using inv.conserved
      · simp only [accepted, Option.orElse, Option.some.injEq] at atK
        subst atK
        exact ⟨le_refl _, msg, by simpa using inv.dispatched_mem (inv.verifying msg busy)⟩
    | some k =>
      refine ⟨inv.running, by simp [accepted], inv.order, ?_, by simp, ?_⟩
      · simpa [accepted] using inv.conserved
      · simpa [accepted] using inv.split

end Dispatching

theorem dispatching_started (ctx : Context) (config : RemoteNodeConfig) (wire : List NodeMessage) :
    (started ctx config wire).flow.Dispatching wire :=
  ⟨⟨rfl, rfl⟩, rfl, rfl, rfl, fun _ absent => (nomatch absent), fun _ absent => (nomatch absent)⟩

theorem dispatching_reachable {ctx : Context} {config : RemoteNodeConfig} {wire : List NodeMessage}
    {s : Node} (reach : Reachable ctx KeepsFlow (started ctx config wire) s) :
    s.flow.Dispatching wire := by
  induction reach with
  | refl => exact dispatching_started ctx config wire
  | step e _ allowed stepped inv =>
    rcases step_flow allowed stepped with same | next
    · exact same ▸ inv
    · exact inv.step next

/-- Until its teardown starts, a node has tested a prefix of the peer's frames, and
what `handleMessage` has dispatched, followed by what is queued and what
`networkConsumer` holds, is the VERIFY and VERIFY_OK frames among the first `k` frames
tested and every frame tested after them, where `k` is the number tested when
`handleVerify` set `Connected`, after a VERIFY among them. -/
theorem handshake_dispatch_split {ctx : Context} {config : RemoteNodeConfig}
    {wire : List NodeMessage} {s : Node}
    (reach : Reachable ctx BeforeTeardown (started ctx config wire) s) :
    s.examined <+: wire ∧
      s.dispatched ++ s.inbound ++ s.consumer.holding.passingList = passed s.examined s.acceptedAt ∧
      (s.state = .connected ↔ s.acceptedAt.isSome) ∧
      ∀ k, s.acceptedAt = some k → k ≤ s.examined.length ∧ ∃ msg, .verify msg ∈ s.examined.take k := by
  have inv := dispatching_reachable (reach.mono fun _ => BeforeTeardown.keepsFlow)
  refine ⟨⟨_, (List.append_assoc _ _ _).symm.trans inv.order⟩, inv.conserved, ?_, inv.split⟩
  have connected := inv.connected
  simp only [Node.flow] at connected
  rw [connected]
  split <;> simp_all

/-- A VERIFY, a PUT the filter drops before the acceptance, and two PUTs tested after
it: the handler has dispatched the VERIFY and sent its VERIFY_OK, the first PUT is
queued, and `networkConsumer` holds the second on the full queue. -/
theorem handshake_dispatch_split_after_accept :
    let ctx : Context := ⟨1, "node", "9911", .active, fun _ => [], fun _ => [], 1⟩
    let wire : List NodeMessage := [.verify ⟨"peer", "9911", .active⟩, .put ⟨[1], 0, [2]⟩,
      .put ⟨[3], 0, [4]⟩, .put ⟨[5], 0, [6]⟩]
    let init := started ctx ⟨"peer", "localhost:9911", 0, 0, 0, 0, "", false, true⟩ wire
    let s := (run ctx init [.launch, .consumerAdd, .handlerAdd, .consumerCheck, .consumerRead,
      .consumerFilter, .consumerDeliver, .consumerCheck, .consumerRead, .consumerFilter,
      .handlerTake, .handlerVerify true, .sendCheck .handler, .sendDeliver .handler,
      .consumerCheck, .consumerRead, .consumerFilter, .consumerDeliver, .consumerCheck,
      .consumerRead, .consumerFilter]).getD init
    s.examined <+: wire ∧
      s.dispatched ++ s.inbound ++ s.consumer.holding.passingList = passed s.examined s.acceptedAt ∧
      (s.state = .connected ↔ s.acceptedAt.isSome) ∧
      ∀ k, s.acceptedAt = some k → k ≤ s.examined.length ∧ ∃ msg, .verify msg ∈ s.examined.take k := by
  intro ctx wire init s
  exact handshake_dispatch_split (Reachable.of_run_isSome _ (by simp [BeforeTeardown]) rfl)

/-! ## What `dropedMsg` counts -/

section Dropped
variable {ctx : Context} {s s' : Node}

theorem Node.handleVerify_tally (msg : VerifyMessage) (admitted : Bool) :
    (Node.handleVerify ctx s msg admitted).1.droppedMsg = s.droppedMsg ∧
      (Node.handleVerify ctx s msg admitted).1.examined = s.examined := by
  unfold Node.handleVerify
  split_ifs <;> exact ⟨rfl, rfl⟩

/-- Only `queueInboundMessage`'s filter moves `dropedMsg` and the frames tested. -/
theorem step_tally {e : Event} (other : e ≠ .consumerFilter) (stepped : step ctx s e = some s') :
    s'.droppedMsg = s.droppedMsg ∧ s'.examined = s.examined := by
  cases e with
  | consumerFilter => exact absurd rfl other
  | handlerVerify admitted =>
    simp only [step] at stepped
    split at stepped
    · rename_i msg _
      have tally := @Node.handleVerify_tally ctx s msg admitted
      generalize Node.handleVerify ctx s msg admitted = outcome at stepped tally
      obtain ⟨t, _ | _⟩ := outcome <;> simp only [Node.wgDone] at stepped <;>
        (repeat' split at stepped) <;> cases stepped <;> exact tally
    · cases stepped
  | shutDown receiver =>
    cases receiver <;> simp only [step, Node.receiveDone, Node.resume] at stepped <;>
      (repeat' split at stepped) <;> cases stepped <;> exact ⟨rfl, rfl⟩
  | _ =>
    dsimp only [step, Node.resume, Node.toSelect, Node.dispatch, Node.interruptOf, Node.wgDone]
      at stepped
    (repeat' split at stepped) <;> cases stepped <;> exact ⟨rfl, rfl⟩

/-- Only `accept` moves the acceptance point, from none to the number of frames tested. -/
theorem FlowStep.acceptedAt_eq {parentMode : ClusterMode} {f f' : Flow} (stepped : FlowStep parentMode f f') :
    f'.acceptedAt = f.acceptedAt ∨ (f.acceptedAt = none ∧ f'.acceptedAt = some f.examined.length) := by
  cases stepped with
  | accept =>
    cases accepted : f.acceptedAt with
    | none => exact .inr ⟨rfl, by simp [accepted]⟩
    | some k => exact .inl (by simp [accepted])
  | _ => exact .inl rfl

/-- The frames the filter has tested are those it dropped, counted in `dropedMsg`, and
those it let through. -/
def DroppedCounted (s : Node) : Prop :=
  s.droppedMsg + (passed s.examined s.acceptedAt).length = s.examined.length

/-- The filter's three branches: a drop is counted, a frame let through is passed, and the
branch for `Disconnected` is not taken before the teardown. -/
theorem DroppedCounted.filter {wire : List NodeMessage} (inv : s.flow.Dispatching wire)
    (counted : DroppedCounted s) (stepped : step ctx s .consumerFilter = some s') :
    DroppedCounted s' := by
  simp only [step] at stepped
  split at stepped
  · rename_i msg _
    have state := inv.connected
    simp only [Node.flow] at state
    split at stepped
    · rename_i dropped
      cases stepped
      have unaccepted : s.acceptedAt = none := inv.handshake dropped.1
      have same := passed_append_of_drop s.examined (by simpa using dropped.2)
      simp only [DroppedCounted, List.length_append, List.length_singleton, unaccepted, same] at counted ⊢
      omega
    · split at stepped
      · rename_i kept live
        cases stepped
        have grown : passed (s.examined ++ [msg]) s.acceptedAt = passed s.examined s.acceptedAt ++ [msg] := by
          cases accepted : s.acceptedAt with
          | none =>
            simp only [accepted, Option.isSome_none] at state
            exact passed_append_of_verify s.examined (by simpa [state] using kept)
          | some k => exact passed_append_of_le s.examined (inv.split k accepted).1
        simp only [DroppedCounted, List.length_append, List.length_singleton, grown] at counted ⊢
        omega
      · rename_i _ closed
        exact absurd (by simpa using closed) inv.not_disconnected
  · cases stepped

theorem DroppedCounted.step {e : Event} {wire : List NodeMessage} (inv : s.flow.Dispatching wire)
    (counted : DroppedCounted s) (allowed : KeepsFlow e) (stepped : step ctx s e = some s') :
    DroppedCounted s' := by
  by_cases filtering : e = .consumerFilter
  · subst filtering
    exact counted.filter inv stepped
  · obtain ⟨sameDropped, sameExamined⟩ := step_tally filtering stepped
    have accepted : s'.acceptedAt = s.acceptedAt ∨
        (s.acceptedAt = none ∧ s'.acceptedAt = some s.examined.length) := by
      rcases step_flow allowed stepped with same | next
      · exact .inl (congrArg Flow.acceptedAt same)
      · exact next.acceptedAt_eq
    unfold DroppedCounted at counted ⊢
    rw [sameDropped, sameExamined]
    rcases accepted with same | ⟨before, after⟩
    · rwa [same]
    · rwa [after, passed_length, ← before]

theorem droppedCounted_reachable {config : RemoteNodeConfig} {wire : List NodeMessage}
    (reach : Reachable ctx KeepsFlow (started ctx config wire) s) : DroppedCounted s := by
  induction reach with
  | refl => rfl
  | step e reach allowed stepped counted => exact counted.step (dispatching_reachable reach) allowed stepped

/-- A `shutDown()` value taken by `networkConsumer` parked on a full inbound queue
sends it back to its loop without the frame it held. -/
theorem step_consumer_shutDown (stepped : step ctx s (.shutDown (some .consumer)) = some s') :
    ∃ msg, s.consumer.holding.passingList = [msg] ∧ s'.consumer.holding.passingList = [] ∧
      s'.droppedMsg = s.droppedMsg ∧ s'.examined = s.examined ∧ s'.dispatched = s.dispatched ∧
      s'.inbound = s.inbound := by
  simp only [step] at stepped
  split at stepped
  · rename_i waiting
    cases stepped
    simp only [Node.waitsOnDone, Bool.and_eq_true] at waiting
    obtain ⟨-, ⟨sending, -⟩, -⟩ := waiting
    split at sending
    · rename_i msg parked
      exact ⟨msg, by simp only [parked, ConsumerPc.holding, Holding.passingList], rfl, rfl, rfl, rfl, rfl⟩
    · cases sending
  · cases stepped

/-- Until its teardown starts, and unless `networkConsumer` takes a `shutDown()` value
while parked on a full inbound queue, `dropedMsg` counts exactly the frames the
handshake filter refused, the non-VERIFY frames among those tested before the
acceptance, and every other frame tested has been dispatched, is queued, or is on its
way to the queue: no frame is lost uncounted and none is counted twice.  The step left
out loses exactly the frame `networkConsumer` holds, uncounted. -/
theorem dropped_frames_counted {config : RemoteNodeConfig} {wire : List NodeMessage}
    (reach : Reachable ctx KeepsFlow (started ctx config wire) s) :
    s.droppedMsg =
        ((s.examined.take (s.acceptedAt.getD s.examined.length)).filter fun m => !m.isVerify).length ∧
      s.droppedMsg + (s.dispatched ++ s.inbound ++ s.consumer.holding.passingList).length =
        s.examined.length ∧
      ∀ s', step ctx s (.shutDown (some .consumer)) = some s' →
        s'.droppedMsg + (s'.dispatched ++ s'.inbound ++ s'.consumer.holding.passingList).length + 1 =
          s'.examined.length := by
  have counted : DroppedCounted s := droppedCounted_reachable reach
  have conserved := (dispatching_reachable reach).conserved
  simp only [Node.flow] at conserved
  have kept : s.droppedMsg + (s.dispatched ++ s.inbound ++ s.consumer.holding.passingList).length =
      s.examined.length := by rw [conserved]; exact counted
  refine ⟨?_, kept, fun s' stepped => ?_⟩
  · have split := @List.length_eq_length_filter_add _
      (s.examined.take (s.acceptedAt.getD s.examined.length)) fun m => m.isVerify
    unfold DroppedCounted passed at counted
    cases accepted : s.acceptedAt with
    | none =>
      simp only [accepted, Option.getD_none, List.take_length] at counted split ⊢
      omega
    | some k =>
      simp only [accepted, Option.getD_some, List.length_append, List.length_drop, List.length_take]
        at counted split ⊢
      omega
  · obtain ⟨msg, held, lost, dropped, examined, dispatched, inbound⟩ := step_consumer_shutDown stepped
    simp only [held, List.length_append, List.length_singleton] at kept
    simp only [lost, dropped, examined, dispatched, inbound, List.length_append, List.length_nil]
    omega

/-- The run of `handshake_dispatch_split_after_accept`: one PUT dropped and counted,
and `networkConsumer` parked on the full queue with the last PUT. -/
theorem dropped_frames_counted_after_drop :
    let ctx : Context := ⟨1, "node", "9911", .active, fun _ => [], fun _ => [], 1⟩
    let wire : List NodeMessage := [.verify ⟨"peer", "9911", .active⟩, .put ⟨[1], 0, [2]⟩,
      .put ⟨[3], 0, [4]⟩, .put ⟨[5], 0, [6]⟩]
    let init := started ctx ⟨"peer", "localhost:9911", 0, 0, 0, 0, "", false, true⟩ wire
    let s := (run ctx init [.launch, .consumerAdd, .handlerAdd, .consumerCheck, .consumerRead,
      .consumerFilter, .consumerDeliver, .consumerCheck, .consumerRead, .consumerFilter,
      .handlerTake, .handlerVerify true, .sendCheck .handler, .sendDeliver .handler,
      .consumerCheck, .consumerRead, .consumerFilter, .consumerDeliver, .consumerCheck,
      .consumerRead, .consumerFilter]).getD init
    s.droppedMsg =
        ((s.examined.take (s.acceptedAt.getD s.examined.length)).filter fun m => !m.isVerify).length ∧
      s.droppedMsg + (s.dispatched ++ s.inbound ++ s.consumer.holding.passingList).length =
        s.examined.length ∧
      ∀ s', step ctx s (.shutDown (some .consumer)) = some s' →
        s'.droppedMsg + (s'.dispatched ++ s'.inbound ++ s'.consumer.holding.passingList).length + 1 =
          s'.examined.length := by
  intro ctx wire init s
  exact dropped_frames_counted (Reachable.of_run_isSome _ (by simp [KeepsFlow]) rfl)

end Dropped

/-- The peer sends a VERIFY and then a PUT.  `networkConsumer` reads and queues the
VERIFY and reads and tests the PUT before `handleMessage` handles the VERIFY: the PUT is
dropped in `Handshake`, and once the VERIFY is admitted the node is `Connected` with the
PUT neither dispatched, nor queued, nor held, nor left on the wire. -/
theorem handshake_drops_put :
    (run ⟨1, "node", "9911", .active, fun _ => [], fun _ => [], 1⟩
      (started ⟨1, "node", "9911", .active, fun _ => [], fun _ => [], 1⟩
        ⟨"peer", "localhost:9911", 0, 0, 0, 0, "", false, true⟩
        [.verify ⟨"peer", "9911", .active⟩, .put ⟨[1], 0, [2]⟩])
      [.launch, .consumerAdd, .handlerAdd, .consumerCheck, .consumerRead, .consumerFilter,
        .consumerDeliver, .consumerCheck, .consumerRead, .consumerFilter, .handlerTake,
        .handlerVerify true]).map
      (fun s => (s.state, s.wire, s.examined, s.dispatched, s.inbound, s.consumer, s.droppedMsg)) =
      some (.connected, [], [.verify ⟨"peer", "9911", .active⟩, .put ⟨[1], 0, [2]⟩],
        [.verify ⟨"peer", "9911", .active⟩], [], .loop, 1) := rfl

/-- A passive peer announces itself to a passive node whose config asks to reconnect.
`handleVerify` refuses the pair before it clears `ReconnectOnDisconnect`, and the
`tearDown` that follows puts the peer back on the parent's join queue. -/
theorem passive_peer_rejoins :
    (run ⟨1, "seed-node", "9911", .passive, fun _ => [], fun _ => [], 1⟩
      (started ⟨1, "seed-node", "9911", .passive, fun _ => [], fun _ => [], 1⟩
        ⟨"seed", "10.0.0.2:9911", 5, 5, 3, 0, "9911", false, true⟩ [.verify ⟨"peer", "9911", .passive⟩])
      [.launch, .consumerAdd, .handlerAdd, .consumerCheck, .consumerRead, .consumerFilter,
        .consumerDeliver, .handlerTake, .handlerVerify true, .runnerFirst, .interrupt, .interrupt,
        .interrupt, .interrupt, .interrupt, .interrupt, .interrupt, .consumerCheck,
        .closerTearDown]).map
      (fun s => (s.state, s.closer, s.joinQueue)) =
      some (.disconnected, .returned, [⟨"peer", "10.0.0.2:9911"⟩]) := rfl

end Cluster

end NgBigCache
