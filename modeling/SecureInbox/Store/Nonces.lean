import SecureInbox.Bytes.Basic

/-! # The nonce register

The keyed hashes of all nonces that have completed the pipeline.  The register
only grows, and holds a hash at most once. -/
set_option autoImplicit false

namespace SecureInbox

abbrev NonceHash := Block 32

structure NonceRegister where
  hashes : List NonceHash

namespace NonceRegister

def empty : NonceRegister := ⟨[]⟩

def contains (r : NonceRegister) (hash : NonceHash) : Bool := r.hashes.contains hash

def size (r : NonceRegister) : Nat := r.hashes.length

/-- The register with one more hash, and whether it is new. -/
def insert (r : NonceRegister) (hash : NonceHash) : Bool × NonceRegister :=
  if r.contains hash then (false, r) else (true, ⟨hash :: r.hashes⟩)

theorem contains_insert (r : NonceRegister) (hash other : NonceHash) :
    (r.insert hash).2.contains other = (other == hash || r.contains other) := by
  unfold insert
  by_cases h : r.contains hash = true
  · rw [if_pos h]
    by_cases same : other = hash
    · subst same; simp [h]
    · simp [same]
  · rw [if_neg h]
    exact List.contains_cons

theorem fst_insert (r : NonceRegister) (hash : NonceHash) :
    (r.insert hash).1 = !r.contains hash := by
  unfold insert
  by_cases h : r.contains hash = true <;> simp [h]

end NonceRegister

end SecureInbox
