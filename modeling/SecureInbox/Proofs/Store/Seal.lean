import SecureInbox.Proofs.Bytes.Base64
import SecureInbox.Proofs.Session.Json

/-! # Sealed values

A value is read back under the key it was stored under (`Vault.decrypt_encrypt`), and so is a
session in a row (`SessionTable.read_sealed`).  A locked vault gives nothing back, and another key
nothing that it does not decrypt. -/
set_option autoImplicit false

namespace SecureInbox

namespace Vault

variable {suite : Suite} {v : Vault} {nonce : Nonce} {value : Bytes} {key other : Key}

def sealed (suite : Suite) (key : Key) (nonce : Nonce) (value : Bytes) : String :=
  Base64.encode (suite.wrap key nonce value label)

theorem decrypt_unlocked (suite : Suite) (key other : Key) (nonce : Nonce) (value : Bytes) :
    (unlocked other).decrypt suite (sealed suite key nonce value) =
      (suite.unwrap other (suite.wrap key nonce value label) label).mapError .crypto := by
  rw [decrypt, sealed, Base64.decode?_encode]
  rfl

theorem decrypt_locked (suite : Suite) (key : Key) (nonce : Nonce) (value : Bytes) :
    locked.decrypt suite (sealed suite key nonce value) = .error .vaultLocked := by
  rw [decrypt, sealed, Base64.decode?_encode]
  rfl

theorem decrypt_self (opens : suite.Opens) (key : Key) (nonce : Nonce) (value : Bytes) :
    (unlocked key).decrypt suite (sealed suite key nonce value) = .ok value := by
  rw [decrypt_unlocked, Suite.unwrap_wrap opens]
  rfl

/-- What a vault stores, it reads back. -/
theorem decrypt_encrypt (opens : suite.Opens) {text : String}
    (stored : v.encrypt suite nonce value = .ok text) : v.decrypt suite text = .ok value := by
  obtain ⟨_ | key⟩ := v
  · cases stored
  · cases stored
    exact decrypt_self opens key nonce value

end Vault

namespace SessionTable

variable {suite : Suite} {key other : Key} {nonce : Nonce} {row : SessionRow} {s : Session}

def sealed (suite : Suite) (key : Key) (nonce : Nonce) (s : Session) : String :=
  Vault.sealed suite key nonce (Text.utf8 s.toJson.compact)

theorem read_sealed (opens : suite.Opens) (kept : s.Keeps)
    (stored : row.value = sealed suite key nonce s) : read suite (.unlocked key) row = .ok s := by
  rw [read, stored, sealed, Vault.decrypt_self opens]
  simp only [bind, Except.bind]
  rw [kept]
  rfl

theorem read_locked (stored : row.value = sealed suite key nonce s) :
    read suite .locked row = .error .vaultLocked := by
  rw [read, stored, sealed, Vault.decrypt_locked]
  rfl

theorem read_other (stored : row.value = sealed suite key nonce s)
    (closed : suite.decrypt? other nonce
      (suite.encrypt key nonce (Text.utf8 s.toJson.compact) Vault.label) Vault.label = none) :
    read suite (.unlocked other) row = .error (.crypto .notAuthentic) := by
  rw [read, stored, sealed, Vault.decrypt_unlocked, Suite.unwrap_wrap_eq, closed]
  rfl

end SessionTable

end SecureInbox
