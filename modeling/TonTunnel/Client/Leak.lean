import TonTunnel.Client.Queues
import TonTunnel.Client.TransportQueues

/-!
Entries of the stream-queue maps of both clients.

A control frame that finds no queue creates one, so that an ACK is not lost when
it comes before its queue. The price is an entry for an id nobody will ask for
again: the server answers a client's CLOSE after the client has unregistered
(`late_close_leaves_entry`). The entries of both maps are exactly the ids that
were registered, or for which a control frame came, since they were last
unregistered (`entries_are_wanted`).
-/

namespace TonTunnel

open Client (Wanted Note)
open Interleaving (Reach anyStep)

/-- **The entries of both clients' maps.** In every reachable state an id has an entry
exactly if, since it was last unregistered, it was registered or the receiver took up
an OPEN, CLOSE or ERROR for it. -/
theorem entries_are_wanted {s : Client.State} {authToken : String} {s' : Transport.State}
    (desktop : Reach Client.machine anyStep Client.initial s)
    (android : Reach Transport.machine anyStep (Transport.initial authToken) s')
    (id : UInt32) (id' : Int32) :
    ((s.shared.streamQueues.lookup id).isSome = true ↔
      Wanted Client.isControl id s.shared.notes) ∧
    ((s'.shared.streamQueues.lookup id').isSome = true ↔
      Wanted Transport.isControl id' s'.shared.notes) :=
  ⟨Client.entryIffWanted_of_reach desktop id, Transport.entryIffWanted_of_reach android id'⟩

/-- Stream 1 is registered and unregistered; then a CLOSE for it arrives. -/
def Client.lateCloseRun : List (Client.ThreadId × Client.Act) :=
  [(.owner, .start), (.receiver, .go), (.receiver, .go),
    (.caller 0, .call (.registerStream 1)), (.caller 0, .go),
    (.caller 0, .call (.unregisterStream 1)), (.caller 0, .go),
    (.receiver, .packet [3, 0, 0, 0, 1]), (.receiver, .go)]

@[inherit_doc Client.lateCloseRun]
def Transport.lateCloseRun : List (Transport.ThreadId × Transport.Act) :=
  [(.caller 0, .call (.registerStream 1)), (.caller 0, .go),
    (.caller 0, .call (.unregisterStream 1)), (.caller 0, .go),
    (.receiver, .packet (some [3, 0, 0, 0, 1])), (.receiver, .go), (.receiver, .go),
    (.receiver, .go)]

theorem Client.reach_lateCloseRun :
    Reach Client.machine anyStep Client.initial
      (Client.machine.run Client.initial Client.lateCloseRun) := by
  have follows : Client.machine.follows (fun _ _ _ => true) Client.initial Client.lateCloseRun =
      true := by
    decide +kernel
  exact (Reach.run follows).any

theorem Transport.reach_lateCloseRun :
    Reach Transport.machine anyStep (Transport.initial "")
      (Transport.machine.run (Transport.initial "") Transport.lateCloseRun) := by
  have follows : Transport.machine.follows (fun _ _ _ => true) (Transport.initial "")
      Transport.lateCloseRun = true := by
    decide +kernel
  exact (Reach.run follows).any

theorem late_close_is_wanted :
    (((Client.machine.run Client.initial Client.lateCloseRun).shared.streamQueues.lookup 1).isSome =
        true ↔
      Wanted Client.isControl 1 (Client.machine.run Client.initial Client.lateCloseRun).shared.notes) ∧
    (((Transport.machine.run (Transport.initial "")
        Transport.lateCloseRun).shared.streamQueues.lookup 1).isSome = true ↔
      Wanted Transport.isControl 1
        (Transport.machine.run (Transport.initial "") Transport.lateCloseRun).shared.notes) :=
  entries_are_wanted Client.reach_lateCloseRun Transport.reach_lateCloseRun 1 1

/-- The id was registered and not unregistered since. -/
def Registered {Id Queue Frame : Type} [DecidableEq Id] (id : Id)
    (notes : List (Note Id Queue Frame)) : Prop :=
  Wanted (fun _ => false) id notes

/-- A late CLOSE leaves both clients with an entry for an id that is not registered. -/
theorem late_close_leaves_entry :
    (¬ ∀ s, Reach Client.machine anyStep Client.initial s → ∀ id : UInt32,
      (s.shared.streamQueues.lookup id).isSome = true → Registered id s.shared.notes) ∧
    (¬ ∀ s, Reach Transport.machine anyStep (Transport.initial "") s → ∀ id : Int32,
      (s.shared.streamQueues.lookup id).isSome = true → Registered id s.shared.notes) := by
  constructor
  · intro contained
    have registered := contained _ Client.reach_lateCloseRun 1 (by decide +kernel)
    have absent : ¬ Wanted (fun _ => false) (1 : UInt32)
        (Client.machine.run Client.initial Client.lateCloseRun).shared.notes := by decide +kernel
    exact absent registered
  · intro contained
    have registered := contained _ Transport.reach_lateCloseRun 1 (by decide +kernel)
    have absent : ¬ Wanted (fun _ => false) (1 : Int32)
        (Transport.machine.run (Transport.initial "") Transport.lateCloseRun).shared.notes := by
      decide +kernel
    exact absent registered

end TonTunnel
