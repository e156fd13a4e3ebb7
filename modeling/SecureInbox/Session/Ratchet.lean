import SecureInbox.Crypto.Suite

/-! # The key ratchet

A ratchet hands out one key for each counter.  Turning it forgets the chain key,
so that a key behind the current counter cannot be had again.  `turnUntil` moves
forward to a counter that a frame names, but only so far; `advance_add` says that
steps add up. -/
set_option autoImplicit false

namespace SecureInbox

structure Ratchet where
  counter : UInt64
  chainKey : Key
deriving DecidableEq

namespace Ratchet

/-- How far one frame may move a ratchet unless settings say otherwise. -/
def defaultMaxSkip : UInt64 := 25000

/-- The key for the current counter. -/
def key (suite : Suite) (r : Ratchet) : Key := suite.messageKey r.chainKey

/-- One step forward. -/
def turn (suite : Suite) (r : Ratchet) : Ratchet := ⟨r.counter + 1, suite.nextChainKey r.chainKey⟩

/-- A number of steps forward. -/
def advance (suite : Suite) : Nat → Ratchet → Ratchet
  | 0, r => r
  | n + 1, r => advance suite n (r.turn suite)

theorem advance_add (suite : Suite) (m n : Nat) (r : Ratchet) :
    advance suite (m + n) r = advance suite n (advance suite m r) := by
  induction m generalizing r with
  | zero => simp [advance]
  | succ m ih => rw [Nat.succ_add, advance, ih, advance]

/-- Forward until `target` is the current counter, with the number of steps. -/
def turnUntil (suite : Suite) (r : Ratchet) (target maxSkip : UInt64) :
    Except CryptoError (UInt64 × Ratchet) :=
  if target < r.counter then .error (.ratchetBehind r.counter target)
  else
    let turns := target - r.counter
    if maxSkip < turns then .error (.skipTooLarge turns maxSkip)
    else .ok (turns, advance suite turns.toNat r)

/-- The ratchet without its secret. -/
def description (r : Ratchet) : String :=
  "KdfRatchet \x7b counter: " ++ toString r.counter ++ ", .. \x7d"

end Ratchet

end SecureInbox
