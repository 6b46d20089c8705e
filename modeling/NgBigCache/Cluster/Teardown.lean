import NgBigCache.Cluster.Handshake

/-! # Coming down: the wait group, the interrupts and `shutDown()`

A remote node comes down when one actor of its `run.Group` returns: `g.Run()` then calls
the interrupt functions, which close `r.done`, the two queues and the ping actors' own
`done` channels and set `Disconnected`, and the teardown actor's interrupt drops the
temporary count `start()` put on `r.wg`, so that `r.wg.Wait()` can return and
`tearDown()` run.

`wg_reachable` says what `r.wg` counts: that temporary count until its interrupt, and
each worker between its `r.wg.Add(1)` and its `r.wg.Done()`.  So when `tearDown()` runs,
every worker that had reached its `Add(1)` has returned (`tearDown_after_added_workers`),
and it runs at most once in a run (`tearDown_at_most_once`); a worker that had not
reached its `Add(1)` is not waited for (`tearDown_before_pinger`).

The ping-timeout watcher is the actor that brings a silent peer down.  Each timeout is an
`atomic.AddInt32` on `r.pingFailure` followed by a separate read of it against the
threshold, and a PONG's `StoreInt32(0)` can fall between the two.  For a positive
`PingFailureThreshHold` the count never exceeds the threshold, and it stays below it
while the watcher waits at its select (`watcher_below_threshold`).

`shutDown()` hands its value to the terminator when the terminator is the only
goroutine parked on `r.done` (`shutDown_reaches_parked_terminator`), and otherwise may
drop it or hand it to a `sendMessage` (`shutDown_signal_lost`).  The last run is
`handleVerify`'s `setState(nodeStateConnected)` after the interrupts have set
`Disconnected` (`verify_reconnects_after_teardown`). -/

set_option autoImplicit false

namespace NgBigCache

namespace Cluster

/-! ## Who holds a count of `r.wg` -/

/-- The count of `r.wg` the goroutine of `g.Run()` stands for: the temporary `Add(1)`
of `start()`, until the seventh interrupt function, the teardown actor's, has run. -/
def RunnerPc.wgCount : RunnerPc → Nat
  | .launch | .waiting => 1
  | .interrupting next => if next ≤ 6 then 1 else 0

/-- The ping ticker holds a count from its `r.wg.Add(1)`, after the first PING. -/
def PingerPc.wgCount : PingerPc → Nat
  | .start | .firstPing _ | .adding | .returned => 0
  | .loop | .ping _ => 1

def WatcherPc.wgCount : WatcherPc → Nat
  | .start | .returned => 0
  | .loop | .checking => 1

def ConsumerPc.wgCount : ConsumerPc → Nat
  | .start | .returned => 0
  | .loop | .reading | .queueing _ | .sending _ => 1

def HandlerPc.wgCount : HandlerPc → Nat
  | .start | .returned => 0
  | .loop | .verifying _ | .replying _ _ => 1

def SenderPc.wgCount : SenderPc → Nat
  | .start | .returned => 0
  | .loop => 1

/-- The counts held on `r.wg`. -/
def Node.wgHolders (s : Node) : Nat :=
  s.runner.wgCount + s.pinger.wgCount + s.watcher.wgCount + s.consumer.wgCount +
    s.handler.wgCount + s.sender.wgCount

section Counting
variable {ctx : Context} {s s' : Node}

theorem Node.wg_toSelect (g : Sender) :
    (s.toSelect g).wg = s.wg ∧ (s.toSelect g).wgHolders = s.wgHolders := by
  cases g <;> simp only [Node.toSelect] <;> split <;>
    simp only [Node.wgHolders, PingerPc.wgCount, HandlerPc.wgCount, *, and_self]

theorem Node.wg_resume {g : Sender} {call : SendPhase × NodeMessage} (calling : s.sendCall g = some call) :
    (s.resume g).wg = s.wg ∧ (s.resume g).wgHolders = s.wgHolders := by
  cases g <;> simp only [Node.sendCall] at calling <;> (try split at calling) <;> cases calling <;>
    simp only [Node.resume, Node.wgHolders, PingerPc.wgCount, HandlerPc.wgCount, *, and_self]

theorem Node.wg_receiveDone {r : Receiver} (waiting : s.waitsOnDone ctx r = true) :
    (s.receiveDone r).wg = s.wg ∧ (s.receiveDone r).wgHolders = s.wgHolders := by
  cases r with
  | terminator => exact ⟨rfl, rfl⟩
  | sender g =>
    cases calling : s.sendCall g with
    | none => simp only [Node.waitsOnDone, Node.atSelect, calling, Bool.false_and] at waiting; cases waiting
    | some call => exact Node.wg_resume calling
  | consumer =>
    simp only [Node.waitsOnDone, Bool.and_eq_true] at waiting
    obtain ⟨⟨sending, -⟩, -⟩ := waiting
    split at sending
    · simp only [Node.receiveDone, Node.wgHolders, ConsumerPc.wgCount, *, and_self]
    · cases sending

theorem Node.wg_dispatch {msg : NodeMessage} (dispatched : Node.dispatch ctx s msg = some s')
    (looping : s.handler = .loop) : s'.wg = s.wg ∧ s'.wgHolders = s.wgHolders := by
  cases msg <;> simp only [Node.dispatch] at dispatched <;> (try split at dispatched) <;>
    cases dispatched <;> simp only [Node.wgHolders, HandlerPc.wgCount, looping, and_self]

/-- `handleVerify` changes the peer's id, port and `ReconnectOnDisconnect`, the state and
the acceptance point, and nothing else. -/
theorem Node.handleVerify_frame (ctx : Context) (s : Node) (msg : VerifyMessage) (admitted : Bool) :
    ∃ id servicePort reconnect state acceptedAt, (Node.handleVerify ctx s msg admitted).1 =
      { s with config := { s.config with id := id, servicePort := servicePort,
                                         reconnectOnDisconnect := reconnect },
               state := state, acceptedAt := acceptedAt } := by
  unfold Node.handleVerify
  split_ifs <;> exact ⟨_, _, _, _, _, rfl⟩

theorem wg_counted_of_same {t : Node} (counted : s.wg = s.wgHolders)
    (kept : t.wg = s.wg ∧ t.wgHolders = s.wgHolders) : t.wg = t.wgHolders :=
  kept.1.trans (counted.trans kept.2.symm)

/-- Every step keeps `r.wg` equal to the counts held on it. -/
theorem wg_step {e : Event} (counted : s.wg = s.wgHolders) (stepped : step ctx s e = some s') :
    s'.wg = s'.wgHolders := by
  cases e with
  | sendCheck g | sendDeliver g | sendAbort g =>
    simp only [step] at stepped
    split at stepped
    · rename_i calling
      (repeat' split at stepped) <;> cases stepped
      all_goals first
        | exact wg_counted_of_same counted (Node.wg_resume calling)
        | exact wg_counted_of_same counted (Node.wg_toSelect g)
    · cases stepped
  | handlerTake =>
    simp only [step] at stepped
    split at stepped
    · rename_i looping _
      split at stepped
      · cases stepped; exact counted
      · have kept := Node.wg_dispatch stepped looping
        exact wg_counted_of_same counted kept
    · cases stepped
  | handlerVerify admitted =>
    rw [Node.wgHolders] at counted
    simp only [step] at stepped
    split at stepped
    · rename_i msg verifying
      obtain ⟨id, port, reconnect, state, acceptedAt, frame⟩ :=
        Node.handleVerify_frame ctx s msg admitted
      generalize Node.handleVerify ctx s msg admitted = outcome at stepped frame
      obtain ⟨t, _ | _⟩ := outcome <;> simp only at frame <;> subst frame <;>
        simp only [Node.wgDone] at stepped <;> (repeat' split at stepped) <;> cases stepped <;>
        simp only [Node.wgHolders, HandlerPc.wgCount, verifying] at counted ⊢ <;> omega
    · cases stepped
  | interrupt =>
    rw [Node.wgHolders] at counted
    simp only [step] at stepped
    split at stepped
    · rename_i next running
      obtain ⟨t, interrupted, rfl⟩ := Option.map_eq_some'.1 stepped
      rcases next with _ | _ | _ | _ | _ | _ | _ | next <;>
        simp only [Node.interruptOf, Node.wgDone] at interrupted <;>
        (repeat' split at interrupted) <;> cases interrupted <;>
        simp only [Node.wgHolders, RunnerPc.wgCount, running, Nat.reduceAdd, Nat.reduceLeDiff,
          ↓reduceIte] at counted ⊢ <;> omega
    · cases stepped
  | shutDown receiver =>
    cases receiver with
    | none =>
      simp only [step] at stepped
      split at stepped <;> cases stepped
      exact counted
    | some r =>
      simp only [step] at stepped
      split at stepped
      · rename_i waiting
        cases stepped
        exact wg_counted_of_same counted (Node.wg_receiveDone waiting.2)
      · cases stepped
  | _ =>
    -- every other step moves one goroutine, by its `Add(1)`, its `Done()` or neither
    rw [Node.wgHolders] at counted
    dsimp only [step, Node.wgDone, Node.tearDown] at stepped
    (repeat' split at stepped) <;> cases stepped <;>
      simp only [Node.wgHolders, RunnerPc.wgCount, PingerPc.wgCount, WatcherPc.wgCount,
        ConsumerPc.wgCount, HandlerPc.wgCount, SenderPc.wgCount, Nat.zero_le, ↓reduceIte, *] <;> omega


theorem wg_started (ctx : Context) (config : RemoteNodeConfig) (wire : List NodeMessage) :
    (started ctx config wire).wg = (started ctx config wire).wgHolders := rfl

/-- In every state a run from `start()` reaches, `r.wg` is the number of counts held. -/
theorem wg_reachable {allowed : Event → Prop} {config : RemoteNodeConfig} {wire : List NodeMessage}
    (reach : Reachable ctx allowed (started ctx config wire) s) : s.wg = s.wgHolders := by
  induction reach with
  | refl => exact wg_started ctx config wire
  | step _ _ _ stepped counted => exact wg_step counted stepped

/-- When `r.wg.Wait()` has returned and `tearDown()` runs, `g.Run()` has called the
teardown actor's interrupt function and no worker is between its `r.wg.Add(1)` and its
`r.wg.Done()`. -/
theorem tearDown_after_added_workers {allowed : Event → Prop} {config : RemoteNodeConfig}
    {wire : List NodeMessage} (reach : Reachable ctx allowed (started ctx config wire) s)
    (stepped : step ctx s .closerTearDown = some s') :
    (∃ next, s.runner = .interrupting next ∧ 6 < next) ∧ s.pinger.wgCount = 0 ∧
      s.watcher.wgCount = 0 ∧ s.consumer.wgCount = 0 ∧ s.handler.wgCount = 0 ∧
      s.sender.wgCount = 0 := by
  have waited : s.wg = 0 := by
    simp only [step] at stepped
    split at stepped
    · rename_i guard; exact guard.2.2
    · cases stepped
  have counted := wg_reachable reach
  rw [Node.wgHolders, waited] at counted
  refine ⟨?_, by omega, by omega, by omega, by omega, by omega⟩
  have released : s.runner.wgCount = 0 := by omega
  cases running : s.runner with
  | interrupting next =>
    rw [running, RunnerPc.wgCount] at released
    exact ⟨next, rfl, by split_ifs at released; omega⟩
  | _ => simp only [running, RunnerPc.wgCount, Nat.one_ne_zero] at released

/-- A passive pair: the peer's VERIFY is refused, `handleMessage` returns, `g.Run()` calls
every interrupt function and `networkConsumer` returns, so that `tearDown()` can run. -/
theorem tearDown_after_added_workers_passive_pair :
    let ctx : Context := ⟨1, "seed-node", "9911", .passive, fun _ => [], fun _ => [], 1⟩
    let init := started ctx ⟨"seed", "10.0.0.2:9911", 5, 5, 3, 0, "9911", false, true⟩
      [.verify ⟨"peer", "9911", .passive⟩]
    let s := (run ctx init [.launch, .consumerAdd, .handlerAdd, .consumerCheck, .consumerRead,
      .consumerFilter, .consumerDeliver, .handlerTake, .handlerVerify true, .runnerFirst, .interrupt,
      .interrupt, .interrupt, .interrupt, .interrupt, .interrupt, .interrupt, .consumerCheck]).getD init
    (∃ next, s.runner = .interrupting next ∧ 6 < next) ∧ s.pinger.wgCount = 0 ∧
      s.watcher.wgCount = 0 ∧ s.consumer.wgCount = 0 ∧ s.handler.wgCount = 0 ∧
      s.sender.wgCount = 0 :=
  tearDown_after_added_workers (Reachable.of_run_isSome _ (fun _ _ => trivial) rfl) rfl

end Counting

/-! ## `tearDown()` runs at most once -/

section Closer
variable {ctx : Context} {s s' : Node}

/-- Only the teardown actor's own step moves it, from `r.wg.Wait()` to its return. -/
theorem step_closer {e : Event} (stepped : step ctx s e = some s') :
    if e = .closerTearDown then s.closer = .waiting ∧ s'.closer = .returned
    else s'.closer = s.closer := by
  cases e with
  | closerTearDown =>
    simp only [step] at stepped
    split at stepped
    · rename_i guard
      cases stepped
      exact ⟨guard.2.1, rfl⟩
    · cases stepped
  | handlerVerify admitted =>
    simp only [step] at stepped
    split at stepped
    · rename_i msg _
      obtain ⟨id, port, reconnect, state, acceptedAt, frame⟩ :=
        Node.handleVerify_frame ctx s msg admitted
      generalize Node.handleVerify ctx s msg admitted = outcome at stepped frame
      obtain ⟨t, _ | _⟩ := outcome <;> simp only at frame <;> subst frame <;>
        simp only [Node.wgDone] at stepped <;> (repeat' split at stepped) <;> cases stepped <;> rfl
    · cases stepped
  | shutDown receiver =>
    cases receiver <;> simp only [step, Node.receiveDone, Node.resume] at stepped <;>
      (repeat' split at stepped) <;> cases stepped <;> rfl
  | _ =>
    dsimp only [step, Node.resume, Node.toSelect, Node.dispatch, Node.interruptOf, Node.wgDone]
      at stepped
    (repeat' split at stepped) <;> cases stepped <;> rfl

/-- A run calls `tearDown()` at most once, and not at all once the teardown actor has
returned. -/
theorem tearDown_count_le : ∀ {s s' : Node} (events : List Event), run ctx s events = some s' →
    events.count .closerTearDown ≤ if s.closer = .waiting then 1 else 0
  | _, _, [], _ => Nat.zero_le _
  | s, _, e :: rest, ran => by
    simp only [run] at ran
    split at ran
    · rename_i t stepped
      have later := tearDown_count_le rest ran
      have moved := step_closer stepped
      rw [List.count_cons]
      split_ifs at moved ⊢ with tearing <;> simp_all
    · cases ran

/-- In every run from `start()`, `tearDown()` runs at most once. -/
theorem tearDown_at_most_once {config : RemoteNodeConfig} {wire : List NodeMessage}
    {events : List Event} (ran : run ctx (started ctx config wire) events = some s') :
    events.count .closerTearDown ≤ 1 :=
  tearDown_count_le events ran

end Closer

/-! ## The ping-timeout watcher -/

/-- The watcher's count of timeouts against `threshold`, the `PingFailureThreshHold`
that `checkConfig` left: no step changes the threshold; the count is never negative, is
zero until the watcher starts, stays below the threshold while the watcher waits at its
select, and never exceeds it. -/
structure WatcherCount (threshold : Int) (s : Node) : Prop where
  threshold_eq : s.config.pingFailureThreshHold = threshold
  nonneg : 0 ≤ s.pingFailure
  before : s.watcher = .start → s.pingFailure = 0
  below : s.watcher = .loop → s.pingFailure < threshold
  atMost : s.pingFailure ≤ threshold

section Watcher
variable {ctx : Context} {s s' : Node} {threshold : Int}

theorem WatcherCount.congr (inv : WatcherCount threshold s) {t : Node}
    (same : t.config.pingFailureThreshHold = s.config.pingFailureThreshHold)
    (watcher : t.watcher = s.watcher) (count : t.pingFailure = s.pingFailure) :
    WatcherCount threshold t :=
  ⟨same.trans inv.threshold_eq, count ▸ inv.nonneg, watcher ▸ count ▸ inv.before,
    watcher ▸ count ▸ inv.below, count ▸ inv.atMost⟩

/-- A PONG is the one frame `handleMessage` dispatches that moves the count: it resets it. -/
theorem Node.dispatch_pingFailure {msg : NodeMessage} (dispatched : Node.dispatch ctx s msg = some s') :
    s'.config = s.config ∧ s'.watcher = s.watcher ∧
      (s'.pingFailure = s.pingFailure ∨ s'.pingFailure = 0) := by
  cases msg <;> simp only [Node.dispatch] at dispatched <;> (try split at dispatched) <;>
    cases dispatched <;> simp

/-- Every step keeps the count, for a positive threshold. -/
theorem WatcherCount.step {e : Event} (positive : 0 < threshold) (inv : WatcherCount threshold s)
    (stepped : step ctx s e = some s') : WatcherCount threshold s' := by
  cases e with
  | watcherStart =>
    simp only [Cluster.step] at stepped
    split at stepped
    · rename_i guard
      cases stepped
      exact ⟨inv.threshold_eq, inv.nonneg, nofun, fun _ => (inv.before guard.2).symm ▸ positive,
        inv.atMost⟩
    · cases stepped
  | watcherFire =>
    simp only [Cluster.step] at stepped
    split at stepped
    · rename_i guard
      cases stepped
      have below := inv.below guard.1
      have nonneg := inv.nonneg
      exact ⟨inv.threshold_eq, by simp only; omega, nofun, nofun, by simp only; omega⟩
    · cases stepped
  | watcherCheck =>
    simp only [Cluster.step, Node.wgDone] at stepped
    (repeat' split at stepped) <;> cases stepped
    · exact ⟨inv.threshold_eq, inv.nonneg, nofun, nofun, inv.atMost⟩
    · rename_i _ read
      have threshold_eq := inv.threshold_eq
      exact ⟨threshold_eq, inv.nonneg, nofun, fun _ => by simp only at read ⊢; omega, inv.atMost⟩
  | watcherExit =>
    simp only [Cluster.step, Node.wgDone] at stepped
    (repeat' split at stepped) <;> cases stepped
    exact ⟨inv.threshold_eq, inv.nonneg, nofun, nofun, inv.atMost⟩
  | handlerTake =>
    simp only [Cluster.step] at stepped
    split at stepped
    · split at stepped
      · cases stepped; exact inv.congr rfl rfl rfl
      · obtain ⟨config, watcher, count⟩ := Node.dispatch_pingFailure stepped
        rcases count with count | reset
        · exact inv.congr (by rw [config]) watcher count
        · exact ⟨by rw [config]; exact inv.threshold_eq, by omega, fun _ => reset,
            fun _ => reset ▸ positive, reset ▸ positive.le⟩
    · cases stepped
  | handlerVerify admitted =>
    simp only [Cluster.step] at stepped
    split at stepped
    · rename_i msg _
      obtain ⟨id, port, reconnect, state, acceptedAt, frame⟩ :=
        Node.handleVerify_frame ctx s msg admitted
      generalize Node.handleVerify ctx s msg admitted = outcome at stepped frame
      obtain ⟨t, _ | _⟩ := outcome <;> simp only at frame <;> subst frame <;>
        simp only [Node.wgDone] at stepped <;> (repeat' split at stepped) <;> cases stepped <;>
        exact inv.congr rfl rfl rfl
    · cases stepped
  | shutDown receiver =>
    cases receiver <;> simp only [Cluster.step, Node.receiveDone, Node.resume] at stepped <;>
      (repeat' split at stepped) <;> cases stepped <;> exact inv.congr rfl rfl rfl
  | _ =>
    -- every other step leaves the threshold, the watcher and the count as they are
    dsimp only [Cluster.step, Node.resume, Node.toSelect, Node.interruptOf, Node.wgDone, Node.tearDown]
      at stepped
    (repeat' split at stepped) <;> cases stepped <;> exact inv.congr rfl rfl rfl

/-- For a positive `PingFailureThreshHold`, in every state a run from `start()` reaches,
at most the threshold of timeouts have been counted since the last PONG, and fewer while
the watcher waits at its select. -/
theorem watcher_below_threshold {allowed : Event → Prop} {config : RemoteNodeConfig}
    {wire : List NodeMessage} (positive : 0 < (checkConfig config).1.pingFailureThreshHold)
    (reach : Reachable ctx allowed (started ctx config wire) s) :
    WatcherCount (checkConfig config).1.pingFailureThreshHold s := by
  induction reach with
  | refl => exact ⟨rfl, le_refl 0, fun _ => rfl, nofun, positive.le⟩
  | step _ _ _ stepped inv => exact inv.step positive stepped

/-- With the default threshold of 5, once the watcher has counted a timeout and read
the count back. -/
theorem watcher_below_threshold_after_timeout :
    let ctx : Context := ⟨1, "node", "9911", .active, fun _ => [], fun _ => [], 1⟩
    let config : RemoteNodeConfig := ⟨"peer", "localhost:9911", 0, 0, 0, 0, "", false, true⟩
    0 < (checkConfig config).1.pingFailureThreshHold ∧
      WatcherCount (checkConfig config).1.pingFailureThreshHold
        ((run ctx (started ctx config []) [.launch, .watcherStart, .watcherFire, .watcherCheck]).getD
          (started ctx config [])) :=
  ⟨by decide, watcher_below_threshold (by decide) (Reachable.of_run_isSome _ (fun _ _ => trivial) rfl)⟩

end Watcher

/-! ## `shutDown()` -/

section ShutDown
variable {ctx : Context} {s s' : Node}

/-- While `r.done` is open and the terminator is the only goroutine parked on it, a
`shutDown()` call hands its value to the terminator. -/
theorem shutDown_reaches_parked_terminator {receiver : Option Receiver} (live : s.done = false)
    (parked : s.terminator = .receiving)
    (alone : ∀ r, r ≠ .terminator → s.waitsOnDone ctx r = false)
    (stepped : step ctx s (.shutDown receiver) = some s') :
    receiver = some .terminator ∧ s'.terminator = .returned := by
  have waits : s.waitsOnDone ctx .terminator = true := by simp [Node.waitsOnDone, parked]
  cases receiver with
  | none =>
    simp only [step, Node.anyWaitsOnDone, waits, live] at stepped
    cases stepped
  | some r =>
    simp only [step] at stepped
    split at stepped
    · rename_i ready
      by_cases other : r = .terminator
      · subst other
        cases stepped
        exact ⟨rfl, rfl⟩
      · simp [alone r other] at ready
    · cases stepped

end ShutDown

/-! ## Runs -/

/-- The peer sends a VERIFY.  `handleMessage` takes it and passes its test for
`Disconnected`; then `networkConsumer` finds the peer gone and returns, `g.Run()` calls
every interrupt function, and the node is `Disconnected`.  `handleVerify` goes on and
sets `Connected`. -/
theorem verify_reconnects_after_teardown :
    (run ⟨1, "node", "9911", .active, fun _ => [], fun _ => [], 1⟩
      (started ⟨1, "node", "9911", .active, fun _ => [], fun _ => [], 1⟩
        ⟨"peer", "localhost:9911", 0, 0, 0, 0, "", false, true⟩ [.verify ⟨"peer", "9911", .active⟩])
      [.launch, .consumerAdd, .handlerAdd, .consumerCheck, .consumerRead, .consumerFilter,
        .consumerDeliver, .handlerTake, .consumerCheck, .consumerFail, .runnerFirst, .interrupt,
        .interrupt, .interrupt, .interrupt, .interrupt, .interrupt, .interrupt]).bind
      (fun s => (step ⟨1, "node", "9911", .active, fun _ => [], fun _ => [], 1⟩ s
        (.handlerVerify true)).map fun s' => (s.state, s'.state)) =
      some (.disconnected, .connected) := rfl

/-- With a `PingFailureThreshHold` of one, the watcher's first timeout brings the count
to the threshold.  If `handleMessage` handles the peer's PONG before the watcher reads
the count back, the watcher goes back to its select; read at once, the same count ends
it. -/
theorem pong_between_timeout_and_read :
    let ctx : Context := ⟨1, "node", "9911", .active, fun _ => [], fun _ => [], 1⟩
    let init := started ctx ⟨"peer", "localhost:9911", 1, 0, 0, 0, "", false, true⟩
      [.verify ⟨"peer", "9911", .active⟩, .pong]
    let fired : List Event := [.launch, .watcherStart, .consumerAdd, .handlerAdd, .consumerCheck,
      .consumerRead, .consumerFilter, .consumerDeliver, .handlerTake, .handlerVerify true,
      .sendCheck .handler, .sendDeliver .handler, .consumerCheck, .consumerRead, .consumerFilter,
      .consumerDeliver, .watcherFire]
    (run ctx init fired).map (fun s => (s.watcher, s.pingFailure)) = some (.checking, 1) ∧
      (run ctx init (fired ++ [.handlerTake, .watcherCheck])).map
        (fun s => (s.watcher, s.pingFailure)) = some (.loop, 0) ∧
      (run ctx init (fired ++ [.watcherCheck])).map
        (fun s => (s.watcher, s.pingFailure)) = some (.returned, 1) :=
  ⟨rfl, rfl, rfl⟩

/-- The peer's connection fails at once: `networkConsumer` returns before the ping
ticker actor has run, `g.Run()` calls every interrupt function, `r.wg.Wait()` returns
and `tearDown()` runs.  Only then does the ping ticker create its ticker, and its
`r.wg.Add(1)` comes after the `Wait()`; the ticker `tearDown()` should have stopped is
left running. -/
theorem tearDown_before_pinger :
    (run ⟨1, "node", "9911", .active, fun _ => [], fun _ => [], 1⟩
      (started ⟨1, "node", "9911", .active, fun _ => [], fun _ => [], 1⟩
        ⟨"peer", "localhost:9911", 0, 0, 0, 0, "", false, true⟩ [])
      [.launch, .consumerAdd, .consumerCheck, .consumerFail, .runnerFirst, .interrupt,
        .interrupt, .interrupt, .interrupt, .interrupt, .interrupt, .interrupt]).bind
      (fun s => (run ⟨1, "node", "9911", .active, fun _ => [], fun _ => [], 1⟩ s
        [.closerTearDown, .pingerStart, .sendCheck .pinger, .pingerAdd]).map
        fun s' => (s.pinger, s'.closer, s'.wg, s'.pinger, s'.pingTimer)) =
      some (.start, .returned, 1, .loop, .running) := rfl

/-- Two `shutDown()` calls made while `r.done` is open that do not bring the node down.
The first comes before the terminator is parked on `r.done` and is dropped by the
`default` case.  The second, with queues of capacity one that the VERIFY fills, comes
while the ping ticker's first `sendMessage` and, after it, the terminator are parked on
`r.done`, and the ping ticker takes it. -/
theorem shutDown_signal_lost :
    (run ⟨1, "node", "9911", .active, fun _ => [], fun _ => [], 1⟩
      (started ⟨1, "node", "9911", .active, fun _ => [], fun _ => [], 1⟩
        ⟨"peer", "localhost:9911", 0, 0, 0, 0, "", false, true⟩ [])
      [.launch, .shutDown none, .terminatorReceive]).map
        (fun s => (s.done, s.state, s.terminator)) = some (false, .handshake, .receiving) ∧
      (run ⟨1, "node", "9911", .active, fun _ => [], fun _ => [], 1⟩
        (started ⟨1, "node", "9911", .active, fun _ => [], fun _ => [], 1⟩
          ⟨"peer", "localhost:9911", 0, 0, 0, 0, "", false, true⟩ [])
        [.launch, .sendCheck .starter, .sendDeliver .starter, .pingerStart, .sendCheck .pinger,
          .terminatorReceive, .shutDown (some (.sender .pinger))]).map
        (fun s => (s.done, s.state, s.terminator, s.pinger)) =
        some (false, .handshake, .receiving, .adding) :=
  ⟨rfl, rfl⟩

end Cluster

end NgBigCache
