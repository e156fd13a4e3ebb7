import SecureInbox.Proofs.Intake.Requests
import SecureInbox.Proofs.Intake.StoreView
import SecureInbox.Proofs.Session.Shape
import SecureInbox.Proofs.Session.Spending

/-! # A frame that arrives

What a call does before and after it handles its message changes neither sessions nor
nonces, so that `process_opened` goes straight to the handling.  For an authentic frame
under a new nonce there are then three ends (`Ending`): it is to come again and nothing has
changed, or it has failed and its session has moved on, or it is done and its nonce is
marked as well. -/
set_option autoImplicit false

namespace SecureInbox

/-- A message has the header of the box it came in. -/
theorem Boxed.message_header {suite : Suite} {secret key : Key} {b : Boxed} {m : Message}
    (read : b.message suite secret key = .ok m) : m.sender = b.sender ∧ m.id = b.id := by
  unfold Boxed.message at read
  cases opened : suite.boxOpen secret key b.nonce b.content with
  | error error =>
      rw [opened] at read
      cases read
  | ok plaintext =>
      rw [opened] at read
      have read : (do return b.withBody (← (Body.ofPlaintext plaintext).mapError .format) :
          Except OpenError Message) = .ok m := read
      cases decoded : Body.ofPlaintext plaintext with
      | error error =>
          rw [decoded] at read
          cases read
      | ok body =>
          rw [decoded] at read
          have same : b.withBody body = m := Except.ok.inj read
          subst same
          exact ⟨rfl, rfl⟩

/-- A message in a frame has the header of the message around it. -/
theorem Endpoint.innerMessage_header {outer inner : Message} {plaintext : Bytes}
    {group : Option GroupRef} (read : innerMessage outer plaintext group = .ok inner) :
    inner.sender = outer.sender ∧ inner.id = outer.id := by
  obtain ⟨⟨typeByte, content⟩, _, read⟩ := exists_of_bind_ok read
  obtain ⟨body, _, read⟩ := exists_of_bind_ok read
  dsimp only at read
  split at read
  · obtain rfl := Except.ok.inj read
    exact ⟨rfl, rfl⟩
  · cases read

/-! ## Around the handling of a message -/

def Request.isAround : Request → Prop
  | .host (.publicKey _) => True
  | .record _ => True
  | .notice .beforeDecode => True
  | .notice (.started _) => True
  | .notice (.finished _) => True
  | .notice (.failed _ _ _) => True
  | .enter _ => True
  | .leave _ => True
  | _ => False

def Rules.SparesAround {σ : Type} (rules : Rules σ) : Prop :=
  ∀ s r, r.isAround → rules.allows s r ∧ ∀ answer, rules.after s ⟨r, answer⟩ = s

namespace Processor

variable {σ : Type} {rules : Rules σ} {s : σ} {p : Processor} {boxed : Boxed}

theorem obeys_around_bind {α : Type} {r : Request} {f : r.Answer → Intake α}
    {post : σ → Except ProcessError α → Prop} (spares : rules.SparesAround) (around : r.isAround)
    (rest : ∀ answer, rules.admits s ⟨r, answer⟩ → (f answer).Obeys rules s post) :
    (Intake.request r >>= f).Obeys rules s post := by
  rw [Intake.obeys_bind, Intake.obeys_request]
  refine ⟨(spares s r around).1, ?_⟩
  intro answer admitted
  rw [(spares s r around).2 answer]
  exact rest answer admitted

theorem obeys_around_script {α : Type} {r : Request} {f : r.Answer → Script α} {post : σ → α → Prop}
    (spares : rules.SparesAround) (around : r.isAround)
    (rest : ∀ answer, (f answer).Obeys rules s post) :
    (Script.request r >>= f).Obeys rules s post := by
  refine ⟨(spares s r around).1, fun answer _ => ?_⟩
  rw [(spares s r around).2 answer]
  exact rest answer

/-- A call comes to what the handling of its message comes to. -/
theorem process_opened {post : σ → ProcessResult → Prop} (spares : rules.SparesAround)
    (unknown : ∀ reason, post s (.error (.senderUnknown boxed.sender.text reason)))
    (handled : ∀ key, rules.admits s ⟨.host (.publicKey boxed.sender), .ok (some key)⟩ →
      ∃ message, p.opening boxed key = .ok message ∧
        (p.handle message key boxed.nonce.bytes).Obeys rules s post) :
    (p.process boxed).Obeys rules s post := by
  have ran : (p.run boxed).Obeys rules s post := by
    unfold run senderKey
    rw [bind_assoc]
    refine obeys_around_bind spares trivial fun answer admitted => ?_
    match answer with
    | .error error => exact unknown _
    | .ok none => exact unknown _
    | .ok (some key) =>
        obtain ⟨message, opened, obeys⟩ := handled key admitted
        have decoded : p.decode boxed key = pure message := by
          rw [decode_eq, opened]
        show ((p.decode boxed key) >>= _).Obeys rules s post
        rw [decoded, pure_bind]
        refine obeys_around_bind spares trivial fun _ _ => ?_
        refine obeys_around_bind spares trivial fun _ _ => ?_
        rw [Intake.obeys_bind, Intake.obeys_attempt]
        refine obeys.mono ?_
        intro t r holds
        cases r with
        | error error => exact obeys_around_bind spares trivial fun _ _ => holds
        | ok outcome =>
            refine obeys_around_bind spares trivial fun _ _ => ?_
            exact obeys_around_bind spares trivial fun _ _ => holds
  refine obeys_around_script spares trivial fun _ => ?_
  refine (Intake.obeys_run_bind _ _ _ _ _).mpr (ran.mono ?_)
  intro t r holds
  cases r with
  | ok outcome => exact holds
  | error error => exact obeys_around_script spares trivial fun _ => holds

/-- What is done with the message in a frame: its session is stored behind it, unless it is
to come again. -/
def settleInner (p : Processor) (outer inner : Message) (t : Session) : Intake Outcome := do
  match ← Intake.attempt (p.handleInner outer inner) with
  | .error e =>
    if e.disposition ≠ .retry then p.endpoint.commit t
    throw e
  | .ok outcome =>
    p.endpoint.commit t
    return outcome

/-- An envelope is admitted unless its nonce is known. -/
theorem handle_envelope {message : Message} {envelope : Envelope}
    (isEnvelope : message.body = .envelope envelope) (key : Key) (nonce : Bytes) :
    p.handle message key nonce = (do
      if ← Intake.store (.seen (p.nonceHash nonce)) then return .dropped .alreadyProcessed
      let outcome ← p.handleEnvelope message key envelope
      let _ ← Intake.request (.store (.mark (p.nonceHash nonce)))
      return outcome) := by
  have admitted : p.admission message = pure none := by
    have valid : message.hasValidContent p.limits = true := by
      rw [Message.hasValidContent, isEnvelope]
      rfl
    rw [admission_eq, isEnvelope, contentCheck, if_pos valid]
    rfl
  have settled : p.settle message key = p.handleEnvelope message key envelope := by
    rw [settle, isEnvelope]
  rw [handle_eq, admitted, pure_bind, settled]

theorem opening_ok {key : Key} {message : Message} (opened : p.opening boxed key = .ok message) :
    boxed.receiver = p.endpoint.identity ∧
      boxed.message p.endpoint.suite p.endpoint.secret key = .ok message ∧
        ∀ typeByte content, message.body ≠ .unknown typeByte content := by
  unfold opening at opened
  split at opened
  · cases opened
  · next addressed =>
    cases read : boxed.message p.endpoint.suite p.endpoint.secret key with
    | error error =>
        rw [read] at opened
        cases opened
    | ok m =>
        rw [read] at opened
        dsimp only at opened
        split at opened
        · cases opened
        · next known =>
          obtain rfl := Except.ok.inj opened
          exact ⟨Decidable.not_not.mp addressed, rfl, known⟩

theorem opening_header {key : Key} {message : Message} (opened : p.opening boxed key = .ok message) :
    message.sender = boxed.sender ∧ message.id = boxed.id := Boxed.message_header (opening_ok opened).2.1

end Processor

/-! ## A frame in its box -/

def Exchange.Resolves (sender : Identity) (key : Key) : Exchange → Prop
  | ⟨.host (.publicKey identity), .ok (some other)⟩ => identity = sender → other = key
  | _ => True

/-- A box with a protected frame, and the key and the message around the frame. -/
structure Arrival where
  boxed : Boxed
  key : Key
  outer : Message
  session : SessionId
  content : Encapsulated

namespace Arrival

def hash (p : Processor) (a : Arrival) : NonceHash := p.nonceHash a.boxed.nonce.bytes

def place (p : Processor) (a : Arrival) : SessionKey := p.endpoint.sessionKey a.boxed.sender a.session

structure Opens (p : Processor) (a : Arrival) : Prop where
  enabled : p.endpoint.policy.enabled = true
  opened : p.opening a.boxed a.key = .ok a.outer
  body : a.outer.body = .envelope ⟨a.session, .encapsulated a.content⟩

/-- How a call ends with a frame that is authentic and has a new nonce; `t` is the session
behind the frame. -/
inductive Ending (p : Processor) (helps : Exchange → Prop) (a : Arrival) (r : StoreView) (t : Session) :
    StoreView → ProcessResult → Prop where
  | retried (e : ProcessError) (retry : e.disposition = .retry) : Ending p helps a r t r (.error e)
  | failed (e : ProcessError) (done : e.disposition ≠ .retry) :
      Ending p helps a r t (r.put t) (.error e)
  | done (outcome : Outcome) : Ending p helps a r t ((r.put t).mark (a.hash p)) (.ok outcome)
  | unmarked (outcome : Outcome) (error : StoreError)
      (admitted : helps ⟨.store (.mark (a.hash p)), .error error⟩) :
      Ending p helps a r t (r.put t) (.ok outcome)

end Arrival

namespace StoreView

variable {helps : Exchange → Prop} {r : StoreView} {p : Processor}

theorem sparesAround_confined {allowed : Request → Prop} (helps : Exchange → Prop)
    (around : ∀ request : Request, request.isAround → allowed request) :
    (confined helps allowed).SparesAround := by
  intro s request isAround
  refine ⟨around request isAround, fun answer => ?_⟩
  cases request with
  | host c => cases c <;> first | rfl | exact isAround.elim
  | store c => exact isAround.elim
  | _ => rfl

theorem sparesAround (helps : Exchange → Prop) : (rules helps).SparesAround := by
  show (confined helps fun _ => True).SparesAround
  exact sparesAround_confined helps fun _ _ => trivial

theorem after_of_ofHandling {request : Request} (handling : request.ofHandling)
    (answer : request.Answer) : r.after ⟨request, answer⟩ = r := by
  cases request with
  | host c => cases c <;> first | rfl | exact handling.elim False.elim False.elim
  | store c => exact handling.elim False.elim False.elim
  | _ => rfl

theorem handleInner_view (outer inner : Message) :
    (p.handleInner outer inner).Obeys (rules helps) r fun u _ => u = r :=
  (p.handleInner_asks outer inner).obeys fun _ handling =>
    ⟨trivial, fun answer _ => after_of_ofHandling handling answer⟩

theorem record_bind {α : Type} {sender : Identity} {id : MessageId} {typeByte : Option UInt8}
    {error : ProcessError} {f : Unit → Intake α} {post : StoreView → Except ProcessError α → Prop}
    (rest : (f ()).Obeys (rules helps) r post) :
    (Processor.record sender id typeByte error >>= f).Obeys (rules helps) r post := by
  unfold Processor.record
  rw [bind_assoc]
  exact Processor.obeys_around_bind (sparesAround helps) trivial fun _ _ => rest

theorem handleEnvelope_failed {outer : Message} {key : Key} {id : SessionId} {content : Encapsulated}
    {e : ProcessError} {left : StoreView} (enabled : p.endpoint.policy.enabled = true)
    (failed : (p.endpoint.receiveEncapsulated outer key id content).Obeys (rules helps) r
      fun u o => o = .error e ∧ u = left) :
    (p.handleEnvelope outer key ⟨id, .encapsulated content⟩).Obeys (rules helps) r
      fun u o => o = .error e ∧ u = left := by
  unfold Processor.handleEnvelope
  rw [Endpoint.receive_encapsulated enabled, Intake.obeys_bind, Intake.obeys_attempt]
  refine failed.mono ?_
  rintro u o ⟨rfl, rfl⟩
  dsimp only [Intake.onward]
  split
  · exact record_bind ⟨rfl, rfl⟩
  · exact ⟨rfl, rfl⟩

/-- What comes of an authentic frame: it is to come again and all is as it was, or its
session has moved on. -/
def Settles (r : StoreView) (t : Session) (u : StoreView) (o : ProcessResult) : Prop :=
  (∃ e, o = .error e ∧ e.disposition = .retry ∧ u = r) ∨
    (∀ e, o = .error e → e.disposition ≠ .retry) ∧ u = r.put t

theorem settleInner_view (outer inner : Message) (t : Session) :
    (p.settleInner outer inner t).Obeys (rules helps) r (Settles r t) := by
  unfold Processor.settleInner
  rw [Intake.obeys_bind, Intake.obeys_attempt]
  refine (handleInner_view outer inner).mono ?_
  rintro u settled rfl
  cases settled with
  | error e =>
      dsimp only [Intake.onward]
      by_cases retry : e.disposition = .retry
      · rw [if_neg (not_not_intro retry)]
        exact .inl ⟨e, rfl, retry, rfl⟩
      · rw [if_pos retry, Intake.obeys_bind]
        refine Endpoint.commit_view.mono ?_
        rintro w o (⟨rfl, rfl⟩ | ⟨call, error, _, rfl, rfl⟩)
        · exact .inr ⟨fun _ same => Except.error.inj same ▸ retry, rfl⟩
        · exact .inl ⟨_, rfl, rfl, rfl⟩
  | ok outcome =>
      dsimp only [Intake.onward]
      rw [Intake.obeys_bind]
      refine Endpoint.commit_view.mono ?_
      rintro w o (⟨rfl, rfl⟩ | ⟨call, error, _, rfl, rfl⟩)
      · exact .inr ⟨fun _ same => (nomatch same), rfl⟩
      · exact .inl ⟨_, rfl, rfl, rfl⟩

/-- An authentic frame moves its session on exactly if it is settled. -/
theorem handleEnvelope_authentic {outer : Message} {key : Key} {id : SessionId} {content : Encapsulated}
    {s t : Session} {plaintext : Bytes} (enabled : p.endpoint.policy.enabled = true)
    (found : r.filed (p.endpoint.sessionKey outer.sender id) = some s)
    (authentic : p.endpoint.Authentic key content s plaintext t) :
    (p.handleEnvelope outer key ⟨id, .encapsulated content⟩).Obeys (rules helps) r
      (Settles r t) := by
  unfold Processor.handleEnvelope
  rw [Endpoint.receive_encapsulated enabled, Intake.obeys_bind, Intake.obeys_attempt]
  refine (Endpoint.receiveEncapsulated_reading found authentic).mono ?_
  intro u o reading
  cases reading with
  | broken call error admitted => exact .inl ⟨_, rfl, rfl, rfl⟩
  | unread fault unread =>
      refine record_bind ?_
      exact .inr ⟨fun e same => by rw [← Except.error.inj same]; exact nofun, rfl⟩
  | opened inner read => exact settleInner_view outer inner t

/-- A call that may make only some requests comes to what follows its nonce check. -/
theorem process_checked_confined {allowed : Request → Prop} {a : Arrival}
    {post : StoreView → ProcessResult → Prop} (opens : a.Opens p)
    (around : ∀ request : Request, request.isAround → allowed request)
    (may : allowed (.store (.seen (a.hash p))))
    (resolves : ∀ x, helps x → x.Resolves a.boxed.sender a.key)
    (unknown : ∀ reason, post r (.error (.senderUnknown a.boxed.sender.text reason)))
    (failed : ∀ error, helps ⟨.store (.seen (a.hash p)), .error error⟩ →
      post r (.error (.store error)))
    (marked : r.register.contains (a.hash p) = true → post r (.ok (.dropped .alreadyProcessed)))
    (unused : r.register.contains (a.hash p) = false →
      (do let outcome ← p.handleEnvelope a.outer a.key ⟨a.session, .encapsulated a.content⟩
          let _ ← Intake.request (.store (.mark (a.hash p)))
          return outcome : Intake Outcome).Obeys (confined helps allowed) r post) :
    (p.process a.boxed).Obeys (confined helps allowed) r post := by
  refine Processor.process_opened (sparesAround_confined helps around) unknown ?_
  intro key admitted
  have same : key = a.key := resolves _ admitted.2 rfl
  subst same
  refine ⟨a.outer, opens.opened, ?_⟩
  rw [Processor.handle_envelope opens.body]
  refine confined_store_bind may ?_ failed
  intro seen true _
  cases seen with
  | true =>
      rw [if_pos rfl]
      exact marked true.symm
  | false =>
      rw [if_neg Bool.false_ne_true]
      exact unused true.symm

/-- A call comes to what follows its nonce check. -/
theorem process_checked {a : Arrival} {post : StoreView → ProcessResult → Prop} (opens : a.Opens p)
    (resolves : ∀ x, helps x → x.Resolves a.boxed.sender a.key)
    (unknown : ∀ reason, post r (.error (.senderUnknown a.boxed.sender.text reason)))
    (failed : ∀ error, helps ⟨.store (.seen (a.hash p)), .error error⟩ →
      post r (.error (.store error)))
    (marked : r.register.contains (a.hash p) = true → post r (.ok (.dropped .alreadyProcessed)))
    (unused : r.register.contains (a.hash p) = false →
      (do let outcome ← p.handleEnvelope a.outer a.key ⟨a.session, .encapsulated a.content⟩
          let _ ← Intake.request (.store (.mark (a.hash p)))
          return outcome : Intake Outcome).Obeys (rules helps) r post) :
    (p.process a.boxed).Obeys (rules helps) r post := by
  show (p.process a.boxed).Obeys (confined helps fun _ => True) r post
  exact process_checked_confined opens (fun _ _ => trivial) trivial resolves unknown failed marked
    unused

/-- A call that gets an authentic frame under a new nonce comes to one of the ends. -/
theorem process_ending {a : Arrival} {s t : Session} {plaintext : Bytes} (opens : a.Opens p)
    (resolves : ∀ x, helps x → x.Resolves a.boxed.sender a.key)
    (found : r.filed (a.place p) = some s)
    (unused : r.register.contains (a.hash p) = false)
    (authentic : p.endpoint.Authentic a.key a.content s plaintext t) :
    (p.process a.boxed).Obeys (rules helps) r (a.Ending p helps r t) := by
  have sender : a.outer.sender = a.boxed.sender := (Processor.opening_header opens.opened).1
  have found : r.filed (p.endpoint.sessionKey a.outer.sender a.session) = some s := by
    rw [sender]
    exact found
  refine process_checked opens resolves (fun reason => .retried _ rfl) (fun error _ => .retried _ rfl)
    ?_ fun _ => ?_
  · intro old
    rw [unused] at old
    cases old
  · rw [Intake.obeys_bind]
    refine (handleEnvelope_authentic opens.enabled found authentic).mono ?_
    rintro u o (⟨e, rfl, retry, rfl⟩ | ⟨settled, rfl⟩)
    · exact .retried e retry
    · cases o with
      | error e => exact .failed e (settled e rfl)
      | ok outcome =>
          refine (Intake.obeys_bind _ _ _ _ _).mpr ((Intake.obeys_request _ _ _ _).mpr ⟨trivial, ?_⟩)
          rintro answer ⟨_, helpful⟩
          cases answer with
          | ok isNew => exact .done outcome
          | error error => exact .unmarked outcome error helpful

end StoreView

end SecureInbox
