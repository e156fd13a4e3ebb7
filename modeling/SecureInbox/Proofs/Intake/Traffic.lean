import Mathlib.Order.OrderIsoNat
import SecureInbox.Proofs.Intake.Reply
import SecureInbox.Proofs.Intake.Setting
import SecureInbox.Proofs.Intake.Talk

/-! # Frames between two endpoints

Two endpoints have envelopes on their way to each other, any number and of any kind.  In a
`Traffic.Step` one of them is delivered, and what is said to it sets out; or the stores change in
any way, while nothing sets out.

Each envelope is on account of one that was there at first.  What a delivery puts on its way comes
to less than what it takes off it (`Step.load_le`), so that traffic subsides, after as many
deliveries as the first frames allow (`traffic_subsides`). -/
set_option autoImplicit false

namespace SecureInbox

/-- An envelope on its way. -/
structure Packet where
  /-- To whom it goes. -/
  side : SessionRole
  envelope : Envelope
  /-- Which of the first envelopes it is on account of. -/
  origin : Nat

structure Traffic (σ : Type) where
  worlds : Both (World σ)
  flying : List Packet

namespace Traffic

def packets (first : List (SessionRole × Envelope)) : List Packet :=
  first.zipIdx.map fun x => ⟨x.1.1, x.1.2, x.2⟩

variable {σ : Type} (ends : Both Endpoint)

def hear (t : Traffic σ) (host : Host σ) (packet : Packet) (outer : Message) (senderKey : Key) :
    Ran σ (Except ProcessError Received) :=
  ((ends.get packet.side).receive outer senderKey packet.envelope).run.run (ends.get packet.side).suite
    host (t.worlds.get packet.side)

def replies (packet : Packet) (xs : List Exchange) : List Packet :=
  (posts xs).map fun sent => ⟨packet.side.other, sent.2, packet.origin⟩

def delivered (t : Traffic σ) (host : Host σ) (before after : List Packet) (packet : Packet)
    (outer : Message) (senderKey : Key) : Traffic σ :=
  let ran := t.hear ends host packet outer senderKey
  ⟨t.worlds.set packet.side ran.world, before ++ after ++ replies packet ran.exchanges⟩

/-- A delivery is told by the first envelope that it is on account of. -/
inductive Step : Traffic σ → Option Nat → Traffic σ → Prop where
  | delivers (t : Traffic σ) (host : Host σ) (before after : List Packet) (packet : Packet)
      (outer : Message) (senderKey : Key) (flying : t.flying = before ++ packet :: after)
      (sender : outer.sender = (ends.get packet.side.other).identity) :
      Step t (some packet.origin) (t.delivered ends host before after packet outer senderKey)
  | changes (t : Traffic σ) (worlds : Both (World σ)) : Step t none ⟨worlds, t.flying⟩

inductive Run : Traffic σ → List (Option Nat) → Traffic σ → Prop where
  | nil (t : Traffic σ) : Run t [] t
  | cons {t u v : Traffic σ} {event : Option Nat} {events : List (Option Nat)}
      (step : Step ends t event u) (later : Run u events v) : Run t (event :: events) v

/-! ## The load -/

/-- How many deliveries may come of some packets, on account of those envelopes that count. -/
def load (counts : Nat → Bool) (packets : List Packet) : Nat :=
  ((packets.filter fun packet => counts packet.origin).map fun packet =>
    packet.envelope.frame.deliveries).sum

section Load

variable (counts : Nat → Bool)

theorem load_append (a b : List Packet) : load counts (a ++ b) = load counts a + load counts b := by
  simp [load]

theorem load_cons (packet : Packet) (rest : List Packet) : load counts (packet :: rest) =
    (if counts packet.origin then packet.envelope.frame.deliveries else 0) + load counts rest := by
  cases here : counts packet.origin <;> simp [load, here]

theorem load_replies (packet : Packet) (xs : List Exchange) :
    load counts (replies packet xs) = if counts packet.origin
      then ((posts xs).map fun sent => sent.2.frame.deliveries).sum else 0 := by
  unfold replies
  induction posts xs with
  | nil => cases counts packet.origin <;> rfl
  | cons sent rest ih =>
      rw [List.map_cons, load_cons, ih, List.map_cons, List.sum_cons]
      cases counts packet.origin <;> rfl

/-- On account of one number, there is the first envelope of that number. -/
theorem load_packets (n : Nat) (first : List (SessionRole × Envelope)) :
    load (· == n) (packets first) = (first[n]?.map fun x => x.2.frame.deliveries).getD 0 := by
  have general : ∀ k, load (· == n) ((first.zipIdx k).map fun x => ⟨x.1.1, x.1.2, x.2⟩) =
      if k ≤ n then (first[n - k]?.map fun x => x.2.frame.deliveries).getD 0 else 0 := by
    induction first with
    | nil => intro k; simp [load]
    | cons x rest ih =>
        intro k
        rw [List.zipIdx_cons, List.map_cons, load_cons, ih]
        rcases Nat.lt_trichotomy k n with less | rfl | more
        · have later : n - k = (n - (k + 1)) + 1 := by omega
          have ne : ¬k = n := by omega
          have le : k ≤ n := by omega
          have next : k + 1 ≤ n := less
          simp [later, ne, le, next]
        · have past : ¬k + 1 ≤ k := by omega
          simp [past]
        · have ne : ¬k = n := by omega
          have le : ¬k ≤ n := by omega
          have next : ¬k + 1 ≤ n := by omega
          simp [ne, le, next]
  exact (general 0).trans (by simp)

end Load

theorem hear_allowed (t : Traffic σ) (host : Host σ) (packet : Packet) (outer : Message)
    (senderKey : Key) : (Reply.rules outer.sender packet.envelope).AllowsAll false
      (t.hear ends host packet outer senderKey).exchanges := by
  have replies : ((ends.get packet.side).receive outer senderKey packet.envelope).Replies outer.sender
      packet.envelope := (ends.get packet.side).receive_replies packet.envelope senderKey
  exact replies.allowed (Script.reaches_run _ host _ (t.worlds.get packet.side))
    (Rules.admitsAll_of_mem (fun _ _ _ => trivial) _)

variable {ends} {t u : Traffic σ} {event : Option Nat}

/-- A delivery takes one off the load that it counts for, and nothing adds to any. -/
theorem Step.load_le (counts : Nat → Bool) (step : Step ends t event u) :
    (if event.any counts then 1 else 0) + load counts u.flying ≤ load counts t.flying := by
  cases step with
  | changes worlds => simp
  | delivers host before after packet outer senderKey flying sender =>
      have less := Reply.deliveries_posts_lt (t.hear_allowed ends host packet outer senderKey)
      rw [flying]
      simp only [delivered, load_append, load_cons, load_replies, Option.any_some]
      split <;> omega

theorem Run.load_le (counts : Nat → Bool) {events : List (Option Nat)} (run : Run ends t events u) :
    events.countP (·.any counts) + load counts u.flying ≤ load counts t.flying := by
  induction run with
  | nil t => simp
  | cons step later ih =>
      have first := step.load_le counts
      rw [List.countP_cons]
      omega

structure Subsides (ends : Both Endpoint) (worlds : Both (World σ))
    (first : List (SessionRole × Envelope)) : Prop where
  /-- Each first envelope has as many deliveries at most as its frame says, and others have none. -/
  each : ∀ events t, Run ends ⟨worlds, packets first⟩ events t → ∀ n,
    events.count (some n) ≤ (first[n]?.map fun x => x.2.frame.deliveries).getD 0
  /-- What is said to a packet goes to the one from whom it came. -/
  back : ∀ (t : Traffic σ) (host : Host σ) (packet : Packet) (outer : Message) (senderKey : Key),
    ∀ sent ∈ posts (t.hear ends host packet outer senderKey).exchanges, sent.1 = outer.sender
  /-- What is in flight can be delivered, whatever stands next to it. -/
  onward : ∀ events t, Run ends ⟨worlds, packets first⟩ events t → ∀ packet ∈ t.flying,
    ∀ (_ : Host σ) (outer : Message), outer.sender = (ends.get packet.side.other).identity →
      ∃ u, Step ends t (some packet.origin) u
  /-- However long it goes on, there is a last delivery. -/
  last : ∀ (states : Nat → Traffic σ) (events : Nat → Option Nat),
    states 0 = ⟨worlds, packets first⟩ → (∀ i, Step ends (states i) (events i) (states (i + 1))) →
      ∃ n, ∀ i, n ≤ i → events i = none

theorem traffic_subsides (ends : Both Endpoint) (worlds : Both (World σ))
    (first : List (SessionRole × Envelope)) : Subsides ends worlds first := by
  refine ⟨?_, ?_, ?_, ?_⟩
  · intro events t run n
    have bound := run.load_le (· == n)
    have same : (fun event : Option Nat => event.any (· == n)) = (· == some n) := by
      funext event
      cases event <;> rfl
    rw [load_packets, same] at bound
    exact le_trans (Nat.le_add_right _ _) bound
  · intro t host packet outer senderKey sent member
    obtain ⟨x, made, posted⟩ := List.mem_filterMap.mp member
    have allowed := t.hear_allowed ends host packet outer senderKey
    have answers := allowed.each (fun _ _ => Reply.answers_of_allowed) x made
    exact (answers sent.1 sent.2 (Exchange.request_of_posted posted)).1
  · intro events t _ packet member host outer sender
    obtain ⟨before, after, flying⟩ := List.append_of_mem member
    exact ⟨_, .delivers t host before after packet outer (Block.zero 32) flying sender⟩
  · intro states events _ steps
    have one : ∀ i, (if (events i).any fun _ => true then 1 else 0) +
        load (fun _ => true) (states (i + 1)).flying ≤ load (fun _ => true) (states i).flying :=
      fun i => (steps i).load_le fun _ => true
    have down : Antitone fun i => load (fun _ => true) (states i).flying :=
      antitone_nat_of_succ_le fun i => le_trans (Nat.le_add_left _ _) (one i)
    obtain ⟨n, same⟩ := WellFoundedLT.antitone_chain_condition down
    refine ⟨n, fun i le => ?_⟩
    have still := (same i le).symm.trans (same (i + 1) (le_trans le (Nat.le_succ i)))
    cases event : events i with
    | none => rfl
    | some origin =>
        have step := one i
        rw [event, Option.any_some, if_pos rfl, ← still] at step
        omega

section Example

def pair : Both Endpoint :=
  ⟨Setting.processor.endpoint, ⟨.plain, Setting.peer, Setting.peerKey, .standard⟩⟩

def outer (side : SessionRole) : Message :=
  ⟨Block.zero 8, (pair.get side.other).identity, (pair.get side).identity, .ofSeconds 0, ⟨0⟩, none, .empty⟩

def deliverFirst (t : Traffic Unit) : Traffic Unit :=
  match t.flying with
  | [] => t
  | packet :: rest =>
    t.delivered pair (.plain Setting.peerKey) [] rest packet (outer packet.side) Setting.peerKey

theorem step_deliverFirst {t : Traffic Unit} {origin : Nat}
    (first : t.flying.head?.map Packet.origin = some origin) :
    Step pair t (some origin) t.deliverFirst := by
  unfold deliverFirst
  cases flying : t.flying with
  | nil =>
      rw [flying] at first
      cases first
  | cons packet rest =>
      rw [flying] at first
      obtain rfl := Option.some.inj first
      exact .delivers t _ [] rest packet _ _ flying rfl

/-- Nobody has asked for the session that is opened: the answer to it ends it. -/
def unasked : Traffic Unit :=
  ⟨⟨.plain, .plain⟩, packets [(.responder, ⟨Block.zero 16, .init .supported Setting.peerKey⟩)]⟩

/-- An opening frame has as many deliveries as it can have. -/
theorem traffic_subsides_unasked :
    Subsides pair ⟨World.plain, .plain⟩
        [(.responder, ⟨Block.zero 16, .init .supported Setting.peerKey⟩)] ∧
      Run pair unasked [some 0, some 0, some 0] unasked.deliverFirst.deliverFirst.deliverFirst ∧
        unasked.deliverFirst.deliverFirst.deliverFirst.flying = [] := by
  refine ⟨traffic_subsides _ _ _, ?_, ?_⟩
  · refine .cons (step_deliverFirst rfl) (.cons (step_deliverFirst ?_) (.cons (step_deliverFirst ?_) (.nil _)))
    · decide +kernel
    · decide +kernel
  · rw [← List.isEmpty_iff]
    decide +kernel

end Example

end Traffic

end SecureInbox
