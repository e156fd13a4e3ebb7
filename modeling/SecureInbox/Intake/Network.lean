import SecureInbox.Intake.Application
import SecureInbox.Intake.Endpoint

/-! # Ends that talk to each other

A `Network` holds the ends of sessions by their identities, each with its own
surroundings.  Envelopes do not travel by themselves: a script that receives one is
run at the end that it is for. -/
set_option autoImplicit false

namespace SecureInbox

structure Site where
  endpoint : Endpoint
  world : World Application

structure Network where
  sites : List (Identity × Site)

namespace Network

def site? (n : Network) (id : Identity) : Option Site := n.sites.lookup id

/-- Puts an end in the place of the one with its identity. -/
def put (n : Network) (id : Identity) (s : Site) : Network :=
  ⟨(id, s) :: n.sites.filter fun other => other.1 ≠ id⟩

/-- Runs a script at an end, if it is there. -/
def run {α : Type} (n : Network) (id : Identity) (script : Script α) :
    Option (α × List Exchange × Network) := do
  let s ← n.site? id
  let ran := script.run s.endpoint.suite Application.host s.world
  return (ran.value, ran.exchanges, n.put id { s with world := ran.world })

end Network

end SecureInbox
