import SecureInbox.Identity

/-! # Peer locks

Messages of one peer are processed one at a time.  Each peer has a lock, made when
it is first asked for.  Whoever asks gets a ticket and refers to the peer's lock
from then on, first waiting and then holding it; tickets for one lock are served in
order.  A wait may be abandoned.  When there are many locks, those to which no
ticket refers are removed before another one is looked up. -/
set_option autoImplicit false

namespace SecureInbox

/-- The number of a lock; a peer whose lock was removed gets one with a new number. -/
abbrev LockId := Nat

structure LockTicket where
  number : Nat
  peer : Identity
  lock : LockId
  holds : Bool
deriving DecidableEq

structure PeerLocks where
  /-- The lock of each peer. -/
  locks : List (Identity × LockId)
  /-- All who wait for or hold a lock, in the order in which they asked. -/
  tickets : List LockTicket
  nextLock : LockId
  nextTicket : Nat

namespace PeerLocks

/-- Locks beyond this number are removed when nobody needs them. -/
def pruneThreshold : Nat := 1024

def empty : PeerLocks := ⟨[], [], 0, 0⟩

def size (s : PeerLocks) : Nat := s.locks.length

/-- Whether a ticket refers to a lock. -/
def isUsed (s : PeerLocks) (lock : LockId) : Bool := s.tickets.any fun t => t.lock == lock

/-- Removes the locks that nobody refers to, if there are many locks. -/
def prune (s : PeerLocks) : PeerLocks :=
  if pruneThreshold < s.locks.length then
    { s with locks := s.locks.filter fun entry => s.isUsed entry.2 }
  else s

/-- Looks up or makes the lock of a peer and adds a ticket that waits for it. -/
def ask (s : PeerLocks) (peer : Identity) : LockTicket × PeerLocks :=
  let s := s.prune
  match s.locks.lookup peer with
  | some lock =>
    let t : LockTicket := ⟨s.nextTicket, peer, lock, false⟩
    (t, { s with tickets := s.tickets ++ [t], nextTicket := s.nextTicket + 1 })
  | none =>
    let t : LockTicket := ⟨s.nextTicket, peer, s.nextLock, false⟩
    (t, { locks := s.locks ++ [(peer, s.nextLock)], tickets := s.tickets ++ [t]
          nextLock := s.nextLock + 1, nextTicket := s.nextTicket + 1 })

/-- Whether a ticket is the first of its lock. -/
def isFirst (s : PeerLocks) (number : Nat) (lock : LockId) : Bool :=
  match s.tickets.find? fun t => t.lock == lock with
  | some t => t.number == number
  | none => false

/-- Lets a waiting ticket hold its lock, if it is the first one there. -/
def acquire (s : PeerLocks) (number : Nat) : PeerLocks :=
  { s with
    tickets := s.tickets.map fun t =>
      if t.number == number && s.isFirst number t.lock then { t with holds := true } else t }

/-- Gives up a ticket, whether it waits or holds. -/
def release (s : PeerLocks) (number : Nat) : PeerLocks :=
  { s with tickets := s.tickets.filter fun t => t.number != number }

def isHeld (s : PeerLocks) (number : Nat) : Bool :=
  s.tickets.any fun t => t.number == number && t.holds

/-- Asks for the lock of a peer and takes it if it is free; otherwise the wait is
abandoned. -/
def tryLock (s : PeerLocks) (peer : Identity) : Option LockTicket × PeerLocks :=
  let (t, s) := s.ask peer
  let s := s.acquire t.number
  if s.isHeld t.number then (some t, s) else (none, s.release t.number)

/-- Whether nobody holds a lock. -/
def isFree (s : PeerLocks) (lock : LockId) : Bool := s.tickets.all fun t => t.lock != lock || !t.holds

/-- Lets a ticket hold its lock. -/
def take (s : PeerLocks) (number : Nat) : PeerLocks :=
  { s with tickets := s.tickets.map fun t => if t.number == number then { t with holds := true } else t }

/-- One step of whoever uses the locks.  A lock that is free may be taken by any ticket
that waits for it, since those who ask need not come to the lock in the same order. -/
inductive Step : PeerLocks → PeerLocks → Prop where
  | ask (s : PeerLocks) (peer : Identity) : Step s (s.ask peer).2
  | take (s : PeerLocks) (t : LockTicket) (waits : t ∈ s.tickets) (free : s.isFree t.lock = true) :
      Step s (s.take t.number)
  | release (s : PeerLocks) (number : Nat) : Step s (s.release number)

/-- The states that can be reached from no locks at all. -/
inductive Reachable : PeerLocks → Prop where
  | empty : Reachable PeerLocks.empty
  | step {s t : PeerLocks} (start : Reachable s) (step : Step s t) : Reachable t

end PeerLocks

end SecureInbox
