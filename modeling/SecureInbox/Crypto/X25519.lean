import SecureInbox.Bytes.Basic

/-! # X25519

The scalar multiplication on the Montgomery form of Curve25519, on the first
coordinate alone, in exact arithmetic modulo the prime. -/
set_option autoImplicit false

namespace SecureInbox.X25519

def prime : Nat := 1 <<< 255 - 19

def add (x y : Nat) : Nat := (x + y) % prime

def sub (x y : Nat) : Nat := (x + (prime - y)) % prime

def mul (x y : Nat) : Nat := x * y % prime

/-- `x ^ (2 ^ n)`. -/
def square : Nat → Nat → Nat
  | 0, x => x
  | n + 1, x => square n (mul x x)

/-- `x ^ e` from the bits of the exponent, lowest first. -/
def power : Nat → Nat → Nat → Nat → Nat
  | 0, _, _, acc => acc
  | bits + 1, x, e, acc => power bits (mul x x) (e / 2) (if e % 2 = 1 then mul acc x else acc)

/-- The inverse of a nonzero residue; zero for zero. -/
def inverse (x : Nat) : Nat := power 255 x (prime - 2) 1

/-- The two points of the ladder, each as a quotient. -/
structure Ladder where
  x2 : Nat
  z2 : Nat
  x3 : Nat
  z3 : Nat

def Ladder.swap (l : Ladder) : Ladder := ⟨l.x3, l.z3, l.x2, l.z2⟩

/-- Doubles the first point and adds it to the second. -/
def Ladder.step (x1 : Nat) (l : Ladder) : Ladder :=
  let a := add l.x2 l.z2
  let aa := mul a a
  let b := sub l.x2 l.z2
  let bb := mul b b
  let e := sub aa bb
  let da := mul (sub l.x3 l.z3) a
  let cb := mul (add l.x3 l.z3) b
  let sum := add da cb
  let difference := sub da cb
  ⟨mul aa bb, mul e (add aa (mul 121665 e)), mul sum sum, mul x1 (mul difference difference)⟩

/-- The ladder over the lowest `bits` bits of the scalar, highest first. -/
def ladder (scalar x1 : Nat) : Nat → Ladder → Ladder
  | 0, l => l
  | bits + 1, l =>
    if scalar.testBit bits then ladder scalar x1 bits (l.swap.step x1).swap
    else ladder scalar x1 bits (l.step x1)

/-- The three lowest bits cleared, the highest two set to zero and one. -/
def clamp (secret : Block 32) : Nat :=
  let n := secret.toNat % (1 <<< 254)
  n - n % 8 + 1 <<< 254

/-- The first coordinate of the secret multiple of a point. -/
def multiply (secret point : Block 32) : Block 32 :=
  let x1 := point.toNat % (1 <<< 255) % prime
  let l := ladder (clamp secret) x1 255 ⟨1, 0, x1, 1⟩
  Block.ofNat 32 (mul l.x2 (inverse l.z2))

def basePoint : Block 32 := Block.ofNat 32 9

end SecureInbox.X25519
