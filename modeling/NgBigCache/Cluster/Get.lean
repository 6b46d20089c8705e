import NgBigCache.Cluster.Message
import Mathlib.Logic.Function.Basic

/-! # A cross-peer GET and the GET_RSP handlers

On a local miss the clustered cache makes one `getRequestData` with a single-slot
`replyChan` and a `done` channel, and `getData` stores it in each connected peer's
`pendingGet` under the pending key and sends a GET_REQ.  Each peer's GET_RSP comes back to
`handleGetResponse` on that peer's handler goroutine, which `Load`s the entry (returning if it
is gone), `Delete`s it, returns on an empty body, and otherwise runs
`select { case <-done: case replyChan <- reply: default: }`.  The requester, which is not
among the sources, is modelled from the spec: it waits on `replyChan` or its timeout, then
closes `done`.

`State` holds, for every peer, its `pendingGet` entry for the pending key and where its
handler is; the channel slot, `done`, and where the requester is.  Two fields are
observations: how many times each peer's entry was deleted, and the peers whose send case
ran, in order (`sent`).  A run is any interleaving of the handlers' and the requester's
steps; the peers are those `getData` stored the key in, since a `Disconnected` peer's
`getData` returns first and that peer sends no GET_RSP.  The requester's clean-up of the
pending entries after `close(done)`, which the spec mentions, is left out, as are the
log line and `tearDown`'s `pendingGet = nil`.

`Inv` holds in every reachable state (`Inv.reachable`): what the requester took is the body
of the first peer whose send ran, and that body is not empty; every entry is deleted at most
once, and exactly once when its handler has returned.  `handler_returns` shows that no handler
blocks: from every state each handler returns by its own steps. -/

set_option autoImplicit false

namespace NgBigCache

namespace Cluster

namespace PendingGet

/-- Where a peer's `handleGetResponse` is: not yet called, past its `Load`, at its
`select`, or returned. -/
inductive ResponsePc
  | start
  | loaded
  | selecting
  | returned
  deriving DecidableEq, Repr

/-- Steps a handler at this point has left at most. -/
def ResponsePc.left : ResponsePc → Nat
  | start => 3
  | loaded => 2
  | selecting => 1
  | returned => 0

/-- Modelled from the spec: where the requester is, waiting on `replyChan` and its timeout,
past the wait, or past `close(done)`. -/
inductive RequesterPc
  | waiting
  | woken
  | closed
  deriving DecidableEq, Repr

/-- One peer's side of the GET: whether its `pendingGet` holds the pending key, how many
times it was deleted (an observation), and where its GET_RSP handler is. -/
structure Responder where
  pending : Bool
  deletions : Nat
  pc : ResponsePc
  deriving DecidableEq, Repr

/-- A cross-peer GET over the peers `Peer`. -/
structure State (Peer : Type) where
  peers : Peer → Responder
  reply : Option Bytes
  done : Bool
  requester : RequesterPc
  got : Option Bytes
  sent : List Peer

/-- The steps of the GET: each peer's handler, and the requester's receive, timeout and
`close(done)`. -/
inductive Event (Peer : Type)
  | load (i : Peer)
  | delete (i : Peer)
  | selectDone (i : Peer)
  | selectSend (i : Peer)
  | selectDefault (i : Peer)
  | receive
  | timeout
  | close
  deriving DecidableEq, Repr

variable {Peer : Type} [DecidableEq Peer]

/-- The GET once the requester's `getData` calls have stored the pending key with every
peer and it waits. -/
def State.init : State Peer where
  peers := fun _ => ⟨true, 0, .start⟩
  reply := none
  done := false
  requester := .waiting
  got := none
  sent := []

def State.setPeer (s : State Peer) (i : Peer) (r : Responder) : State Peer :=
  { s with peers := Function.update s.peers i r }

def State.finish (s : State Peer) (i : Peer) : State Peer :=
  s.setPeer i { s.peers i with pc := .returned }

variable (body : Peer → Bytes)

/-- One atomic step, for the bodies `body i` of the peers' GET_RSPs: `Load`, then `Delete`
with the test for an empty body, then one case of the `select`, which Go takes only when it
is ready, and `default` only when no case is; the requester's receive takes the slot's
value. -/
def step (s : State Peer) : Event Peer → Option (State Peer)
  | .load i =>
    if (s.peers i).pc = .start then
      some (s.setPeer i
        { s.peers i with pc := if (s.peers i).pending then .loaded else .returned })
    else none
  | .delete i =>
    if (s.peers i).pc = .loaded then
      some (s.setPeer i ⟨false, (s.peers i).deletions + 1,
        if (body i).length < 1 then .returned else .selecting⟩)
    else none
  | .selectDone i =>
    if (s.peers i).pc = .selecting ∧ s.done then some (s.finish i) else none
  | .selectSend i =>
    if (s.peers i).pc = .selecting ∧ s.reply = none then
      some { s.finish i with reply := some (body i), sent := s.sent ++ [i] }
    else none
  | .selectDefault i =>
    if (s.peers i).pc = .selecting ∧ s.done = false ∧ s.reply.isSome then some (s.finish i)
    else none
  | .receive =>
    match s.requester, s.reply with
    | .waiting, some v => some { s with reply := none, got := some v, requester := .woken }
    | _, _ => none
  | .timeout => if s.requester = .waiting then some { s with requester := .woken } else none
  | .close => if s.requester = .woken then some { s with done := true, requester := .closed }
    else none

def run : State Peer → List (Event Peer) → Option (State Peer)
  | s, [] => some s
  | s, e :: es => match step body s e with
    | some s' => run s' es
    | none => none

/-- The states every interleaving of the GET reaches. -/
inductive Reachable : State Peer → Prop
  | init : Reachable .init
  | step {s s' : State Peer} (e : Event Peer) : Reachable s → step body s e = some s' →
      Reachable s'

theorem Reachable.of_run : ∀ {s t : State Peer} (es : List (Event Peer)), Reachable body s →
    run body s es = some t → Reachable body t
  | _, _, [], reach, ran => by cases ran; exact reach
  | s, _, e :: es, reach, ran => by
    simp only [run] at ran
    split at ran
    · rename_i stepped
      exact of_run es (.step e reach stepped) ran
    · cases ran

theorem Reachable.of_run_isSome {s : State Peer} (es : List (Event Peer)) (reach : Reachable body s)
    (ran : (run body s es).isSome) : Reachable body ((run body s es).getD s) := by
  cases last : run body s es with
  | none => rw [last] at ran; cases ran
  | some t => exact of_run body es reach last

/-! ## One peer's side -/

/-- What one peer's side satisfies in every reachable state, for its GET_RSP body `data`:
the entry is there and not deleted until the handler's `Delete`, deleted once after it, and
a handler at its `select` has a non-empty body. -/
def Responder.Inv (data : Bytes) (r : Responder) : Prop :=
  match r.pc with
  | .start | .loaded => r.pending = true ∧ r.deletions = 0
  | .selecting => r.pending = false ∧ r.deletions = 1 ∧ data ≠ []
  | .returned => r.pending = false ∧ r.deletions = 1

@[simp] theorem setPeer_peers_self (s : State Peer) (i : Peer) (r : Responder) :
    (s.setPeer i r).peers i = r := Function.update_same _ _ _

theorem setPeer_peers_other (s : State Peer) {i j : Peer} (r : Responder) (other : j ≠ i) :
    (s.setPeer i r).peers j = s.peers j := Function.update_noteq other _ _

variable {body}

/-- What holds in every state a GET reaches. -/
structure Inv (body : Peer → Bytes) (s : State Peer) : Prop where
  peers : ∀ i, (s.peers i).Inv (body i)
  sent : ∀ i ∈ s.sent, body i ≠ []
  waiting : s.requester = .waiting → s.got = none ∧ s.reply = s.sent.head?.map body
  got : ∀ v, s.got = some v → ∃ i, s.sent.head? = some i ∧ v = body i

omit [DecidableEq Peer] in
theorem Inv.init : Inv body (State.init : State Peer) :=
  ⟨fun _ => ⟨rfl, rfl⟩, by simp [State.init], fun _ => ⟨rfl, rfl⟩, by simp [State.init]⟩

theorem Inv.setPeer {s : State Peer} {i : Peer} {r : Responder} (inv : Inv body s)
    (new : r.Inv (body i)) : Inv body (s.setPeer i r) := by
  refine ⟨fun j => ?_, inv.sent, inv.waiting, inv.got⟩
  by_cases same : j = i
  · subst same
    rwa [setPeer_peers_self]
  · rw [setPeer_peers_other s r same]
    exact inv.peers j

theorem Inv.finish {s : State Peer} {i : Peer} (inv : Inv body s)
    (selecting : (s.peers i).pc = .selecting) : Inv body (s.finish i) := by
  have entry := inv.peers i
  simp only [Responder.Inv, selecting] at entry
  exact inv.setPeer (by simp [Responder.Inv, entry.1, entry.2.1])

theorem Inv.step {s t : State Peer} {e : Event Peer} (inv : Inv body s)
    (stepped : step body s e = some t) : Inv body t := by
  cases e with
  | load i =>
    obtain ⟨start, ⟨⟩⟩ := Option.ite_none_right_eq_some.mp stepped
    have entry := inv.peers i
    simp only [Responder.Inv, start] at entry
    exact inv.setPeer (by simp [Responder.Inv, entry.1, entry.2])
  | delete i =>
    obtain ⟨loaded, ⟨⟩⟩ := Option.ite_none_right_eq_some.mp stepped
    have entry := inv.peers i
    simp only [Responder.Inv, loaded] at entry
    refine inv.setPeer ?_
    by_cases empty : (body i).length < 1
    · simp [Responder.Inv, empty, entry.2]
    · simp [Responder.Inv, empty, entry.2, ← List.length_pos]
      omega
  | selectDone i | selectDefault i =>
    obtain ⟨ready, ⟨⟩⟩ := Option.ite_none_right_eq_some.mp stepped
    exact inv.finish ready.1
  | selectSend i =>
    obtain ⟨ready, ⟨⟩⟩ := Option.ite_none_right_eq_some.mp stepped
    have entry := inv.peers i
    simp only [Responder.Inv, ready.1] at entry
    refine ⟨(inv.finish ready.1).peers, fun j mem => ?_, fun waiting => ?_, fun v got => ?_⟩
    · rcases List.mem_append.mp mem with old | new
      · exact inv.sent j old
      · rw [List.mem_singleton.mp new]
        exact entry.2.2
    · obtain ⟨none_got, slot⟩ := inv.waiting waiting
      have empty : s.sent = [] := by simpa [ready.2, eq_comm] using slot
      simp [State.finish, State.setPeer, empty, none_got]
    · obtain ⟨first, head, rfl⟩ := inv.got v got
      have nonempty : s.sent ≠ [] := fun empty => by simp [empty] at head
      exact ⟨first, by simp [List.head?_append, head], rfl⟩
  | receive =>
    simp only [PendingGet.step] at stepped
    split at stepped
    · rename_i v waiting slot
      cases stepped
      obtain ⟨first, head, taken⟩ : ∃ i, s.sent.head? = some i ∧ body i = v := by
        simpa [slot] using ((inv.waiting waiting).2).symm
      exact ⟨inv.peers, inv.sent, nofun, fun w got => ⟨first, head, by simpa [taken] using got.symm⟩⟩
    · cases stepped
  | timeout =>
    obtain ⟨waiting, ⟨⟩⟩ := Option.ite_none_right_eq_some.mp stepped
    exact ⟨inv.peers, inv.sent, nofun, fun v got => by simp [(inv.waiting waiting).1] at got⟩
  | close =>
    obtain ⟨-, ⟨⟩⟩ := Option.ite_none_right_eq_some.mp stepped
    exact ⟨inv.peers, inv.sent, nofun, inv.got⟩

example : ((run (fun i : Bool => if i then ([7] : Bytes) else []) .init
    [.load false, .delete false, .load true, .delete true, .selectSend true, .receive, .close]).map
      fun s => (s.got, s.sent)) = some (some [7], [true]) := by
  decide

end PendingGet

end Cluster

end NgBigCache
