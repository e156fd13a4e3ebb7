import SecureInbox.Intake.Error
import SecureInbox.Rejection.Record
import SecureInbox.Store.Nonces
import SecureInbox.Store.Sessions

/-! # Scripts

The pipeline owns no contacts, conversations, stores or transport.  What it does is
a script: a tree of requests, each with its answer deciding how the script goes on.
What answers a script is up to its surroundings; laws about all of them are
inductions on the tree.  `Intake` is a script that may end in a failure. -/
set_option autoImplicit false

namespace SecureInbox

/-- A change of the application's records. -/
inductive Change where
  | store (message : Message)
  | receipt (sender : Identity) (group : Option GroupRef) (type : ReceiptType) (ids : List MessageId)
  | reaction (sender : Identity) (group : Option GroupRef) (id : MessageId) (action : ReactionAction)
      (emoji : String)
  | edit (sender : Identity) (group : Option GroupRef) (id : MessageId) (text : String)
  | delete (sender : Identity) (group : Option GroupRef) (id : MessageId)
  | photo (sender : Identity) (photo : Option BlobRef)
  | photoRequested (sender : Identity)
  | dirty (contact : Identity)

inductive GroupDecision where
  /-- The message is done. -/
  | handled
  /-- The message goes on like any other. -/
  | declined
deriving DecidableEq

/-- What the application is asked to say or do; it may fail to. -/
inductive HostCall where
  | publicKey (identity : Identity)
  | isBlocked (identity : Identity)
  | isMember (group : GroupRef)
  | handleGroup (message : Message) (group : GroupRef)
  | change (change : Change)
  | schedule (message : Message)
  | send (receiver : Identity) (envelope : Envelope)

abbrev HostCall.Answer : HostCall → Type
  | .publicKey _ => Option Key
  | .isBlocked _ => Bool
  | .isMember _ => Bool
  | .handleGroup _ _ => GroupDecision
  | .change _ => Unit
  | .schedule _ => Unit
  | .send _ _ => Unit

/-- What the application is told; there is no answer. -/
inductive Notice where
  | beforeDecode
  | started (message : Message)
  | changed (message : Message)
  | finished (message : Message)
  | failed (sender : Identity) (id : MessageId) (error : ProcessError)
  | typing (sender : Identity) (active : Bool)
  | call (sender : Identity) (body : Body)
  | downgraded (peer : Identity) (message : Message)

/-- What the nonce register and the session store are asked. -/
inductive StoreCall where
  | seen (hash : NonceHash)
  | mark (hash : NonceHash)
  | best (mine peer : String)
  | find (key : SessionKey)
  | put (session : Session)
  | erase (key : SessionKey)
  | erasePair (mine peer : String)

abbrev StoreCall.Answer : StoreCall → Type
  | .seen _ => Bool
  | .mark _ => Bool
  | .best _ _ => Option Session
  | .find _ => Option Session
  | .put _ => Unit
  | .erase _ => Bool
  | .erasePair _ _ => Nat

/-- What is drawn at random.  A padding length is one more than the number drawn. -/
inductive Draw where
  | key
  | sessionId
  | nonce
  | padding
deriving DecidableEq

abbrev Draw.Answer : Draw → Type
  | .key => Key
  | .sessionId => SessionId
  | .nonce => Nonce
  | .padding => Fin 255

inductive Request where
  | host (call : HostCall)
  | store (call : StoreCall)
  | notice (notice : Notice)
  /-- Puts a record into the rejection log, if there is one. -/
  | record (rejection : Rejection)
  | draw (draw : Draw)
  | now
  /-- Waits until no other message of the peer is being processed. -/
  | enter (peer : Identity)
  | leave (peer : Identity)

abbrev Request.Answer : Request → Type
  | .host c => Except HandlerError c.Answer
  | .store c => Except StoreError c.Answer
  | .notice _ => Unit
  | .record _ => Option Record
  | .draw d => d.Answer
  | .now => Instant
  | .enter _ => Unit
  | .leave _ => Unit

inductive Script (α : Type) where
  | done (value : α)
  | ask (request : Request) (next : request.Answer → Script α)

namespace Script

/-- One script after another. -/
def andThen {α β : Type} : Script α → (α → Script β) → Script β
  | .done value, f => f value
  | .ask request next, f => .ask request fun answer => (next answer).andThen f

instance : Monad Script where
  pure := .done
  bind := andThen

@[simp] theorem pure_eq {α : Type} (a : α) : (pure a : Script α) = .done a := rfl

@[simp] theorem bind_eq {α β : Type} (s : Script α) (f : α → Script β) : s >>= f = s.andThen f := rfl

@[simp] theorem andThen_done {α : Type} (s : Script α) : s.andThen .done = s := by
  induction s with
  | done _ => rfl
  | ask request next ih => rw [andThen]; congr 1; funext answer; exact ih answer

theorem andThen_andThen {α β γ : Type} (s : Script α) (f : α → Script β) (g : β → Script γ) :
    (s.andThen f).andThen g = s.andThen fun a => (f a).andThen g := by
  induction s with
  | done _ => rfl
  | ask request next ih =>
      simp only [andThen]
      congr 1
      funext answer
      exact ih answer

instance : LawfulMonad Script := LawfulMonad.mk' Script andThen_done (fun _ _ => rfl) andThen_andThen

/-- A single request. -/
def request (r : Request) : Script r.Answer := .ask r .done

end Script

abbrev Intake := ExceptT ProcessError Script

namespace Intake

def request (r : Request) : Intake r.Answer := ExceptT.lift (Script.request r)

def notify (notice : Notice) : Intake Unit := request (.notice notice)

def draw (d : Draw) : Intake d.Answer := request (.draw d)

/-- A store's answer; its failure ends the message. -/
def store (call : StoreCall) : Intake call.Answer := do
  match ← request (.store call) with
  | .ok answer => return answer
  | .error e => throw (.store e)

/-- The application's answer; its failure ends the message. -/
def host (call : HostCall) : Intake call.Answer := do
  match ← request (.host call) with
  | .ok answer => return answer
  | .error e => throw (.handler e)

/-- The result of a pure step. -/
def ofExcept {α : Type} (result : Except ProcessError α) : Intake α := ExceptT.mk (.done result)

/-- Runs a part and gives its failure as a value. -/
def attempt {α : Type} (part : Intake α) : Intake (Except ProcessError α) := ExceptT.lift part.run

end Intake

end SecureInbox
