import Mathlib.Logic.Function.Basic
import SecureInbox.Proofs.Intake.EndpointState
import SecureInbox.Proofs.Intake.Requests

/-! # Stores that tell the truth

A `StoreView` is what the stores of an endpoint hold, whatever they are made of: each session
under its own key, the nonces, and beside them what was sent.  Under `StoreView.rules` a store
may fail, and then nothing has changed; what it says otherwise is so.

`Endpoint.Receipt` lists what can come of a protected frame there, and
`receiveEncapsulated_receipt` says that there is nothing else.  The state of an endpoint
has such a view (`EndpointState.view_admits`). -/
set_option autoImplicit false

namespace SecureInbox

structure StoreView where
  filed : SessionKey → Option Session
  own : ∀ key s, filed key = some s → s.fileKey = key
  register : NonceRegister
  /-- What was sent to whom, the first first. -/
  sent : List (Identity × Envelope)

namespace StoreView

def empty : StoreView := ⟨fun _ => none, fun _ _ found => (nomatch found), .empty, []⟩

def put (r : StoreView) (s : Session) : StoreView where
  filed := Function.update r.filed s.fileKey (some s)
  own key t found := by
    by_cases here : key = s.fileKey
    · subst here
      rw [Function.update_self] at found
      rw [Option.some.inj found]
    · rw [Function.update_of_ne here] at found
      exact r.own key t found
  register := r.register
  sent := r.sent

def without (r : StoreView) (gone : SessionKey → Bool) : StoreView where
  filed key := if gone key = true then none else r.filed key
  own key t found := by
    split at found
    · cases found
    · exact r.own key t found
  register := r.register
  sent := r.sent

def erase (r : StoreView) (key : SessionKey) : StoreView := r.without (· == key)

def erasePair (r : StoreView) (mine peer : String) : StoreView := r.without (·.isOfPair mine peer)

def mark (r : StoreView) (hash : NonceHash) : StoreView :=
  { r with register := (r.register.insert hash).2 }

def post (r : StoreView) (peer : Identity) (envelope : Envelope) : StoreView :=
  { r with sent := r.sent ++ [(peer, envelope)] }

@[simp] theorem filed_put (r : StoreView) (s : Session) :
    (r.put s).filed = Function.update r.filed s.fileKey (some s) := rfl

theorem filed_erase (r : StoreView) (key : SessionKey) :
    (r.erase key).filed = Function.update r.filed key none := by
  funext other
  by_cases here : other = key
  · subst here
    simp [erase, without]
  · simp [erase, without, here]

/-- A session that is filed is one that was there or the one that was put. -/
theorem filed_put_cases {r : StoreView} {s t : Session} {key : SessionKey}
    (found : (r.put s).filed key = some t) : t = s ∧ s.fileKey = key ∨ r.filed key = some t := by
  by_cases here : key = s.fileKey
  · subst here
    rw [filed_put, Function.update_self] at found
    exact .inl ⟨(Option.some.inj found).symm, rfl⟩
  · rw [filed_put, Function.update_of_ne here] at found
    exact .inr found

theorem filed_without_some {r : StoreView} {gone : SessionKey → Bool} {t : Session} {key : SessionKey}
    (found : (r.without gone).filed key = some t) : r.filed key = some t := by
  simp only [without] at found
  split at found
  · cases found
  · exact found

/-! ## The rules -/

def answers (r : StoreView) : Exchange → Prop
  | ⟨.store (.seen hash), .ok seen⟩ => seen = r.register.contains hash
  | ⟨.store (.best mine peer), .ok best⟩ =>
      ∀ s, best = some s → r.filed s.fileKey = some s ∧ s.fileKey.isOfPair mine peer = true
  | ⟨.store (.find key), .ok found⟩ => found = r.filed key
  | _ => True

def after (r : StoreView) : Exchange → StoreView
  | ⟨.store (.mark hash), .ok _⟩ => r.mark hash
  | ⟨.store (.put s), .ok _⟩ => r.put s
  | ⟨.store (.erase key), .ok _⟩ => r.erase key
  | ⟨.store (.erasePair mine peer), .ok _⟩ => r.erasePair mine peer
  | ⟨.host (.send peer envelope), .ok _⟩ => r.post peer envelope
  | _ => r

/-- Answers are true, and also as `helps` tells. -/
def rules (helps : Exchange → Prop) : Rules StoreView where
  allows _ _ := True
  admits r x := answers r x ∧ helps x
  after := after

def confined (helps : Exchange → Prop) (allowed : Request → Prop) : Rules StoreView where
  allows _ r := allowed r
  admits r x := answers r x ∧ helps x
  after := after

theorem after_failed (r : StoreView) (c : StoreCall) (error : StoreError) :
    r.after ⟨.store c, .error error⟩ = r := by
  cases c <;> rfl

variable {α : Type} {helps : Exchange → Prop} {r : StoreView}
variable {post : StoreView → Except ProcessError α → Prop}

theorem admitsAll_confined {allowed : Request → Prop} (xs : List Exchange) : ∀ r : StoreView,
    (confined helps allowed).AdmitsAll r xs ↔ (rules helps).AdmitsAll r xs := by
  induction xs with
  | nil => exact fun _ => Iff.rfl
  | cons x xs ih => exact fun r => and_congr Iff.rfl (ih (r.after x))

/-- A part that begins with a question to a store which it may ask. -/
theorem confined_store_bind {allowed : Request → Prop} {c : StoreCall} {f : c.Answer → Intake α}
    (may : allowed (.store c))
    (answered : ∀ a : c.Answer, r.answers ⟨.store c, .ok a⟩ → helps ⟨.store c, .ok a⟩ →
      (f a).Obeys (confined helps allowed) (r.after ⟨.store c, .ok a⟩) post)
    (failed : ∀ error, helps ⟨.store c, .error error⟩ → post r (.error (.store error))) :
    (Intake.store c >>= f).Obeys (confined helps allowed) r post := by
  rw [Intake.obeys_bind, Intake.obeys_store]
  refine ⟨may, ?_⟩
  rintro answer ⟨true, helpful⟩
  cases answer with
  | ok a => exact answered a true helpful
  | error error =>
      show post (r.after ⟨.store c, .error error⟩) (.error (.store error))
      rw [after_failed]
      exact failed error helpful

/-- A part that begins with a question to a store. -/
theorem obeys_store_bind {c : StoreCall} {f : c.Answer → Intake α}
    (answered : ∀ a : c.Answer, r.answers ⟨.store c, .ok a⟩ → helps ⟨.store c, .ok a⟩ →
      (f a).Obeys (rules helps) (r.after ⟨.store c, .ok a⟩) post)
    (failed : ∀ error, helps ⟨.store c, .error error⟩ → post r (.error (.store error))) :
    (Intake.store c >>= f).Obeys (rules helps) r post := by
  show (Intake.store c >>= f).Obeys (confined helps fun _ => True) r post
  exact confined_store_bind trivial answered failed

/-- A part that begins with a look at one session. -/
theorem confined_find_bind {allowed : Request → Prop} {key : SessionKey}
    {f : Option Session → Intake α} (may : allowed (.store (.find key)))
    (found : (f (r.filed key)).Obeys (confined helps allowed) r post)
    (failed : ∀ error, helps ⟨.store (.find key), .error error⟩ → post r (.error (.store error))) :
    (Intake.store (.find key) >>= f).Obeys (confined helps allowed) r post := by
  refine confined_store_bind may (fun a true _ => ?_) failed
  have same : a = r.filed key := true
  subst same
  exact found

theorem obeys_find_bind {key : SessionKey} {f : Option Session → Intake α}
    (found : (f (r.filed key)).Obeys (rules helps) r post)
    (failed : ∀ error, helps ⟨.store (.find key), .error error⟩ → post r (.error (.store error))) :
    (Intake.store (.find key) >>= f).Obeys (rules helps) r post := by
  show (Intake.store (.find key) >>= f).Obeys (confined helps fun _ => True) r post
  exact confined_find_bind trivial found failed

def Goes (helps : Exchange → Prop) (part : Intake α) (before : StoreView) (result : Except ProcessError α)
    (after : StoreView) : Prop :=
  ∃ xs, Script.Reaches part.run xs (.done result) ∧ (rules helps).AdmitsAll before xs ∧
    after = (rules helps).afterAll before xs

theorem Goes.holds {part : Intake α} {result : Except ProcessError α} {left : StoreView}
    (goes : Goes helps part r result left) (obeys : part.Obeys (rules helps) r post) :
    post left result := by
  obtain ⟨xs, reaches, admitted, rfl⟩ := goes
  exact obeys.rest reaches admitted

end StoreView

namespace Endpoint

/-! ## A protected frame -/

inductive Refuses (e : Endpoint) (senderKey : Key) (content : Encapsulated) (s : Session) :
    Refusal → Prop where
  | keyChanged (unbound : s.isBoundTo senderKey = false) : Refuses e senderKey content s .keyChanged
  | version (bound : s.isBoundTo senderKey = true)
      (unknown : e.policy.versions.contains content.applied = false) :
      Refuses e senderKey content s (.unsupportedVersion content.applied)
  | decrypt (bound : s.isBoundTo senderKey = true)
      (known : e.policy.versions.contains content.applied = true)
      (ready : ¬(content.sealed.agreement = .four ∧ s.role = .initiator ∧ s.state = .l20))
      (error : CryptoError) (t : Session)
      (failed : s.decrypt e.suite content.sealed e.policy.maxSkip = (.error error, t)) :
      Refuses e senderKey content s (.decrypt error)

theorem Authentic.not_refuses {e : Endpoint} {senderKey : Key} {content : Encapsulated} {s t : Session}
    {plaintext : Bytes} (authentic : Authentic e senderKey content s plaintext t) (refusal : Refusal) :
    ¬Refuses e senderKey content s refusal := by
  intro refuses
  cases refuses with
  | keyChanged unbound =>
      rw [authentic.bound] at unbound
      cases unbound
  | version bound unknown =>
      rw [authentic.known] at unknown
      cases unknown
  | decrypt bound known ready error u failed =>
      rw [authentic.decrypted] at failed
      cases failed

variable (e : Endpoint) (helps : Exchange → Prop) (outer : Message) (senderKey : Key) (id : SessionId)
variable (content : Encapsulated) (r : StoreView)

inductive Receipt : StoreView → Except ProcessError Received → Prop where
  | broken (call : StoreCall) (error : StoreError) (admitted : helps ⟨.store call, .error error⟩) :
      Receipt r (.error (.store error))
  /-- A rejection could not be sent. -/
  | unsent (left : StoreView) (reason : String) (envelope : Envelope) (error : HandlerError)
      (cause : r.filed (e.sessionKey outer.sender id) = none ∧ left = r ∨
        (∃ s refusal, r.filed (e.sessionKey outer.sender id) = some s ∧
          Refuses e senderKey content s refusal) ∧ left = r.erase (e.sessionKey outer.sender id))
      (admitted : helps ⟨.host (.send outer.sender envelope), .error error⟩) :
      Receipt left (.error (.notReady reason))
  | unknown (gone : r.filed (e.sessionKey outer.sender id) = none) :
      Receipt (r.post outer.sender ⟨id, .reject outer.id .unknownSession⟩)
        (.error (.ofRefusal .unknownSession))
  | refused (s : Session) (refusal : Refusal) (found : r.filed (e.sessionKey outer.sender id) = some s)
      (why : Refuses e senderKey content s refusal) :
      Receipt ((r.erase (e.sessionKey outer.sender id)).post outer.sender
        ⟨id, .reject outer.id .stateMismatch⟩) (.error (.ofRefusal refusal))
  | early (s : Session) (found : r.filed (e.sessionKey outer.sender id) = some s)
      (known : e.policy.versions.contains content.applied = true)
      (early : content.sealed.agreement = .four ∧ s.role = .initiator ∧ s.state = .l20) :
      Receipt r (.error (.notReady "4DH message before accept"))
  /-- The frame is authentic, but holds no message. -/
  | unread (s t : Session) (plaintext : Bytes) (fault : FormatFault)
      (found : r.filed (e.sessionKey outer.sender id) = some s)
      (authentic : Authentic e senderKey content s plaintext t)
      (unread : innerMessage outer plaintext content.group = .error fault) :
      Receipt (r.put t) (.error (.ofFault outer.sender fault))
  | opened (s t : Session) (plaintext : Bytes) (inner : Message)
      (found : r.filed (e.sessionKey outer.sender id) = some s)
      (authentic : Authentic e senderKey content s plaintext t)
      (read : innerMessage outer plaintext content.group = .ok inner) :
      Receipt r (.ok ⟨some inner, .ofSession t, some t⟩)

variable {e helps outer senderKey id content r}

theorem send_view {peer : Identity} {session : SessionId} {frame : Frame} :
    (send peer session frame).Obeys (StoreView.rules helps) r fun u o =>
      o = .ok () ∧ u = r.post peer ⟨session, frame⟩ ∨
        ∃ reason error, helps ⟨.host (.send peer ⟨session, frame⟩), .error error⟩ ∧
          o = .error (.notReady reason) ∧ u = r := by
  unfold send
  rw [Intake.obeys_bind, Intake.obeys_request]
  refine ⟨trivial, ?_⟩
  rintro answer ⟨_, helpful⟩
  cases answer with
  | ok _ => exact .inl ⟨rfl, rfl⟩
  | error error => exact .inr ⟨_, error, helpful, rfl, rfl⟩

theorem refuse_view {α : Type} {cause : Cause} {refusal : Refusal} :
    (refuse (α := α) outer id cause refusal).Obeys (StoreView.rules helps) r fun u o =>
      o = .error (.ofRefusal refusal) ∧ u = r.post outer.sender ⟨id, .reject outer.id cause⟩ ∨
        ∃ reason error, helps ⟨.host (.send outer.sender ⟨id, .reject outer.id cause⟩), .error error⟩ ∧
          o = .error (.notReady reason) ∧ u = r := by
  unfold refuse
  rw [Intake.obeys_bind]
  refine send_view.mono ?_
  rintro u o (⟨rfl, rfl⟩ | ⟨reason, error, helpful, rfl, rfl⟩)
  · exact .inl ⟨rfl, rfl⟩
  · exact .inr ⟨reason, error, helpful, rfl, rfl⟩

theorem commit_view {s : Session} :
    (e.commit s).Obeys (StoreView.rules helps) r fun u o =>
      o = .ok () ∧ u = r.put s ∨
        ∃ call error, helps ⟨.store call, .error error⟩ ∧ o = .error (.store error) ∧ u = r := by
  unfold commit
  refine StoreView.obeys_find_bind ?_ fun error helpful => .inr ⟨_, error, helpful, rfl, rfl⟩
  rw [Intake.obeys_store]
  refine ⟨trivial, ?_⟩
  rintro answer ⟨_, helpful⟩
  cases answer with
  | ok _ => exact .inl ⟨rfl, rfl⟩
  | error error => exact .inr ⟨_, error, helpful, rfl, rfl⟩

theorem dropAndRefuse_receipt {s : Session} {refusal : Refusal}
    (found : r.filed (e.sessionKey outer.sender id) = some s)
    (why : Refuses e senderKey content s refusal) :
    (e.dropAndRefuse outer id refusal).Obeys (StoreView.rules helps) r
      (Receipt e helps outer senderKey id content r) := by
  unfold dropAndRefuse
  refine StoreView.obeys_store_bind ?_ fun error helpful => .broken _ error helpful
  intro _ _ _
  refine refuse_view.mono ?_
  rintro u o (⟨rfl, rfl⟩ | ⟨reason, error, helpful, rfl, rfl⟩)
  · exact .refused s refusal found why
  · exact .unsent _ reason _ error (.inr ⟨⟨s, refusal, found, why⟩, rfl⟩) helpful

theorem receiveEncapsulated_receipt :
    (e.receiveEncapsulated outer senderKey id content).Obeys (StoreView.rules helps) r
      (Receipt e helps outer senderKey id content r) := by
  unfold receiveEncapsulated
  refine StoreView.obeys_find_bind ?_ fun error helpful => .broken _ error helpful
  cases found : r.filed (e.sessionKey outer.sender id) with
  | none =>
      refine refuse_view.mono ?_
      rintro u o (⟨rfl, rfl⟩ | ⟨reason, error, helpful, rfl, rfl⟩)
      · exact .unknown found
      · exact .unsent _ reason _ error (.inl ⟨found, rfl⟩) helpful
  | some s =>
      dsimp only
      cases bound : s.isBoundTo senderKey with
      | false => exact dropAndRefuse_receipt found (.keyChanged bound)
      | true =>
      rw [if_neg (by decide)]
      cases known : e.policy.versions.contains content.applied with
      | false => exact dropAndRefuse_receipt found (.version bound known)
      | true =>
      rw [if_neg (by decide)]
      by_cases early : content.sealed.agreement = .four ∧ s.role = .initiator ∧ s.state = .l20
      · rw [if_pos early]
        exact .early s found known early
      · rw [if_neg early]
        cases decrypted : s.decrypt e.suite content.sealed e.policy.maxSkip with
        | mk opened t =>
        cases opened with
        | error error =>
            exact dropAndRefuse_receipt found (.decrypt bound known early error t decrypted)
        | ok plaintext =>
            have authentic : Authentic e senderKey content s plaintext t := ⟨bound, known, early, decrypted⟩
            dsimp only
            cases read : innerMessage outer plaintext content.group with
            | ok inner => exact .opened s t plaintext inner found authentic read
            | error fault =>
                rw [Intake.obeys_bind]
                refine commit_view.mono ?_
                rintro u o (⟨rfl, rfl⟩ | ⟨call, error, helpful, rfl, rfl⟩)
                · exact .unread s t plaintext fault found authentic read
                · exact .broken call error helpful

/-- What can come of an authentic frame: `plaintext` is what it held, and `t` the session behind
it. -/
inductive Reading (helps : Exchange → Prop) (outer : Message) (content : Encapsulated)
    (plaintext : Bytes) (t : Session) (r : StoreView) :
    StoreView → Except ProcessError Received → Prop where
  | broken (call : StoreCall) (error : StoreError) (admitted : helps ⟨.store call, .error error⟩) :
      Reading helps outer content plaintext t r r (.error (.store error))
  | unread (fault : FormatFault) (unread : innerMessage outer plaintext content.group = .error fault) :
      Reading helps outer content plaintext t r (r.put t) (.error (.ofFault outer.sender fault))
  | opened (inner : Message) (read : innerMessage outer plaintext content.group = .ok inner) :
      Reading helps outer content plaintext t r r (.ok ⟨some inner, .ofSession t, some t⟩)

theorem receiveEncapsulated_reading {s t : Session} {plaintext : Bytes}
    (found : r.filed (e.sessionKey outer.sender id) = some s)
    (authentic : Authentic e senderKey content s plaintext t) :
    (e.receiveEncapsulated outer senderKey id content).Obeys (StoreView.rules helps) r
      (Reading helps outer content plaintext t r) := by
  have only : ∀ other, r.filed (e.sessionKey outer.sender id) = some other → s = other :=
    fun _ again => Option.some.inj (found.symm.trans again)
  have unrefused : ∀ other refusal, r.filed (e.sessionKey outer.sender id) = some other →
      ¬e.Refuses senderKey content other refusal := by
    intro other refusal again
    obtain rfl := only other again
    exact authentic.not_refuses refusal
  refine receiveEncapsulated_receipt.mono ?_
  intro u o receipt
  cases receipt with
  | broken call error admitted => exact .broken call error admitted
  | unsent left reason envelope error cause admitted =>
      rcases cause with ⟨gone, _⟩ | ⟨⟨other, refusal, again, why⟩, _⟩
      · rw [found] at gone
        cases gone
      · exact (unrefused other refusal again why).elim
  | unknown gone =>
      rw [found] at gone
      cases gone
  | refused other refusal again why => exact (unrefused other refusal again why).elim
  | early other again _ early =>
      obtain rfl := only other again
      exact (authentic.ready early).elim
  | unread other u bytes fault again authentic' unread =>
      obtain rfl := only other again
      obtain ⟨⟨⟩, rfl⟩ := Prod.mk.inj (authentic.decrypted.symm.trans authentic'.decrypted)
      exact .unread fault unread
  | opened other u bytes inner again authentic' read =>
      obtain rfl := only other again
      obtain ⟨⟨⟩, rfl⟩ := Prod.mk.inj (authentic.decrypted.symm.trans authentic'.decrypted)
      exact .opened inner read

theorem receive_encapsulated {e : Endpoint} (enabled : e.policy.enabled = true)
    {outer : Message} {key : Key} {id : SessionId} {content : Encapsulated} :
    e.receive outer key ⟨id, .encapsulated content⟩ = e.receiveEncapsulated outer key id content := by
  unfold receive
  rw [enabled]
  rfl

theorem receive_disabled {e : Endpoint} (disabled : e.policy.enabled = false)
    {outer : Message} {key : Key} {id : SessionId} {content : Encapsulated} :
    e.receive outer key ⟨id, .encapsulated content⟩ = refuse outer id .disabledByLocal .disabled := by
  unfold receive
  rw [disabled]
  rfl

inductive Sealing (e : Endpoint) (peer : Identity) (plaintext : Bytes) (group : Option GroupRef)
    (r : StoreView) : StoreView → Except ProcessError Envelope → Prop where
  | failed (error : ProcessError) : Sealing e peer plaintext group r r (.error error)
  | framed (s t : Session) (nonce : Nonce) (sealed : Session.Protected)
      (found : r.filed s.fileKey = some s)
      (ofPair : s.fileKey.isOfPair e.identity.text peer.text = true)
      (encrypted : s.encrypt e.suite nonce plaintext = .ok (sealed, t)) :
      Sealing e peer plaintext group r (r.put t)
        (.ok ⟨t.id, .encapsulated ⟨sealed, e.policy.versions.max, t.version, group⟩⟩)

theorem protect_sealing {peer : Identity} {plaintext : Bytes} {group : Option GroupRef} :
    (e.protect peer plaintext group).Obeys (StoreView.rules helps) r
      (Sealing e peer plaintext group r) := by
  unfold protect
  refine StoreView.obeys_store_bind ?_ fun error _ => .failed _
  intro best true _
  cases best with
  | none => exact .failed _
  | some s =>
      obtain ⟨found, ofPair⟩ := true s rfl
      refine (Intake.obeys_bind _ _ _ _ _).mpr ((Intake.obeys_draw _ _ _ _).mpr ⟨trivial, ?_⟩)
      intro nonce _
      show Intake.Obeys _ _ r _
      split
      · exact .failed _
      · next sealed t encrypted =>
        refine StoreView.obeys_store_bind ?_ fun error _ => .failed _
        intro _ _ _
        exact .framed s t nonce sealed found ofPair encrypted

/-- A message is put into a frame as its padded plaintext, unless it is an envelope. -/
theorem encapsulate_sealing {peer : Identity} {message : Message} :
    (e.encapsulate peer message).Obeys (StoreView.rules helps) r fun u o =>
      (∃ error, u = r ∧ o = .error error) ∨ message.body.isEnvelope = false ∧
        ∃ padding : Fin 255, Sealing e peer (message.body.toPlaintext (padding.val + 1))
          message.group? r u o := by
  unfold encapsulate
  split
  · exact .inl ⟨_, rfl, rfl⟩
  · next plain =>
    refine (Intake.obeys_bind _ _ _ _ _).mpr ((Intake.obeys_draw _ _ _ _).mpr ⟨trivial, ?_⟩)
    intro padding _
    exact protect_sealing.mono fun u o sealing =>
      .inr ⟨Bool.eq_false_iff.2 plain, padding, sealing⟩

/-- What can come of a message that is to be put into a frame: nothing, or a frame of a
session of the pair, which has moved on. -/
inductive Framing (e : Endpoint) (peer : Identity) (r : StoreView) :
    StoreView → Except ProcessError Envelope → Prop where
  | failed (error : ProcessError) : Framing e peer r r (.error error)
  | framed (s t : Session) (nonce : Nonce) (plaintext : Bytes) (sealed : Session.Protected)
      (group : Option GroupRef) (found : r.filed s.fileKey = some s)
      (ofPair : s.fileKey.isOfPair e.identity.text peer.text = true)
      (encrypted : s.encrypt e.suite nonce plaintext = .ok (sealed, t)) :
      Framing e peer r (r.put t)
        (.ok ⟨t.id, .encapsulated ⟨sealed, e.policy.versions.max, t.version, group⟩⟩)

theorem encapsulate_framing {peer : Identity} {message : Message} :
    (e.encapsulate peer message).Obeys (StoreView.rules helps) r (Framing e peer r) := by
  refine encapsulate_sealing.mono ?_
  rintro u o (⟨error, rfl, rfl⟩ | ⟨-, padding, sealing⟩)
  · exact .failed error
  · cases sealing with
    | failed error => exact .failed error
    | framed s t nonce sealed found ofPair encrypted =>
        exact .framed s t nonce _ sealed _ found ofPair encrypted

end Endpoint

/-! ## The view of an endpoint's state -/

def Exchange.works : Exchange → Prop
  | ⟨.store _, .error _⟩ => False
  | ⟨.host (.send _ _), .error _⟩ => False
  | _ => True

namespace SessionBook

theorem find?_own {b : SessionBook} {key : SessionKey} {s : Session} (found : b.find? key = some s) :
    s.fileKey = key := by
  have here := List.find?_some found
  exact beq_iff_eq.mp here

/-- The best session of a pair is the one that is filed under its key. -/
theorem find?_best {b : SessionBook} {mine peer : String} {s : Session}
    (best : b.best mine peer = some s) :
    b.find? s.fileKey = some s ∧ s.fileKey.isOfPair mine peer = true := by
  obtain ⟨sessions⟩ := b
  unfold SessionBook.best at best
  dsimp only at best
  have ofPair := List.find?_some best
  refine ⟨?_, ofPair⟩
  induction sessions with
  | nil => cases best
  | cons first rest ih =>
      unfold SessionBook.find?
      rw [List.find?_cons] at best ⊢
      cases pair : first.fileKey.isOfPair mine peer with
      | true =>
          rw [pair] at best
          obtain rfl := Option.some.inj best
          rw [beq_self_eq_true]
      | false =>
          rw [pair] at best
          have unlike : (first.fileKey == s.fileKey) = false := by
            refine beq_eq_false_iff_ne.mpr fun same => ?_
            rw [same, ofPair] at pair
            cases pair
          rw [unlike]
          exact ih best

end SessionBook

namespace EndpointState

variable {secrets : Key → Prop} {helps : Exchange → Prop}

def view (d : EndpointState) : StoreView :=
  ⟨d.book.find?, fun _ _ => SessionBook.find?_own, d.register, d.sent⟩

theorem view_answer {d : EndpointState} {x : Exchange} (admitted : answers secrets d x) :
    d.view.answers x ∧ x.works ∧ (d.after x).view = d.view.after x := by
  have refiled : ∀ {after : SessionBook} {register : NonceRegister}
      {sent : List (Identity × Envelope)} {r : StoreView}, after.find? = r.filed → register = r.register →
      sent = r.sent → (⟨after, register, sent⟩ : EndpointState).view = r := by
    rintro after _ _ ⟨filed, own, register, sent⟩ rfl rfl rfl
    rfl
  obtain ⟨request, answer⟩ := x
  cases request with
  | host c =>
      cases c with
      | send peer envelope =>
          obtain rfl : answer = .ok () := admitted
          exact ⟨trivial, trivial, rfl⟩
      | _ => exact ⟨trivial, trivial, rfl⟩
  | store c =>
      cases c with
      | seen hash =>
          obtain rfl : answer = .ok (d.register.contains hash) := admitted
          exact ⟨rfl, trivial, rfl⟩
      | mark hash =>
          obtain rfl : answer = .ok (d.register.insert hash).1 := admitted
          exact ⟨trivial, trivial, rfl⟩
      | best mine peer =>
          obtain rfl : answer = .ok (d.book.best mine peer) := admitted
          exact ⟨fun s best => SessionBook.find?_best best, trivial, rfl⟩
      | find key =>
          obtain rfl : answer = .ok (d.book.find? key) := admitted
          exact ⟨rfl, trivial, rfl⟩
      | put s =>
          obtain rfl : answer = .ok () := admitted
          refine ⟨trivial, trivial, refiled ?_ rfl rfl⟩
          funext key
          rw [SessionBook.find?_put]
          by_cases here : s.fileKey = key
          · subst here
            simp [StoreView.after]
          · rw [if_neg here]
            exact (Function.update_of_ne (Ne.symm here) _ _).symm
      | erase key =>
          obtain rfl : answer = .ok (d.book.find? key).isSome := admitted
          refine ⟨trivial, trivial, refiled ?_ rfl rfl⟩
          funext other
          show _ = (d.view.erase key).filed other
          rw [SessionBook.find?_erase, StoreView.filed_erase]
          by_cases here : key = other
          · subst here
            simp
          · rw [if_neg here]
            exact (Function.update_of_ne (Ne.symm here) _ _).symm
      | erasePair mine peer =>
          obtain rfl : answer = .ok _ := admitted
          refine ⟨trivial, trivial, refiled ?_ rfl rfl⟩
          funext other
          exact SessionBook.find?_erasePair d.book mine peer other
  | _ => exact ⟨trivial, trivial, rfl⟩

/-- What can happen at an endpoint's state can happen at its view. -/
theorem view_admits {xs : List Exchange} : ∀ {d : EndpointState}, (rules secrets).AdmitsAll d xs →
    (∀ x ∈ xs, x.works → helps x) →
      (StoreView.rules helps).AdmitsAll d.view xs ∧
        (StoreView.rules helps).afterAll d.view xs = ((rules secrets).afterAll d xs).view := by
  induction xs with
  | nil => exact fun _ _ => ⟨trivial, rfl⟩
  | cons x xs ih =>
      intro d admitted helpful
      obtain ⟨answered, works, same⟩ := view_answer admitted.1
      have first := helpful x List.mem_cons_self works
      have rest := ih admitted.2 fun y member => helpful y (List.mem_cons_of_mem x member)
      rw [show (rules secrets).after d x = d.after x from rfl, same] at rest
      exact ⟨⟨⟨answered, first⟩, rest.1⟩, rest.2⟩

/-- What a part comes to where everything succeeds and this key is drawn. -/
def outcome {α : Type} (suite : Suite) (key : Key) (part : Intake α) (d : EndpointState) :
    Except ProcessError α × EndpointState :=
  let ran := part.run.run suite (.plain key) ⟨(), d.register, .memory d.book, none⟩
  (ran.value, (rules fun _ => True).afterAll d ran.exchanges)

def outcomeAt {α : Type} (suite : Suite) (host : Host Unit) (part : Intake α) (d : EndpointState) :
    Except ProcessError α × EndpointState :=
  let ran := part.run.run suite host ⟨(), d.register, .memory d.book, none⟩
  (ran.value, (rules fun _ => True).afterAll d ran.exchanges)

/-- A part goes at the view as it runs at the state, if what is met on the way helps. -/
theorem view_meets_at {α : Type} (suite : Suite) {host : Host Unit} (serves : host.Serves fun _ => True)
    (part : Intake α) (d : EndpointState)
    (helpful : ∀ x ∈ (part.run.run suite host ⟨(), d.register, .memory d.book, none⟩).exchanges,
      x.works → helps x) :
    StoreView.Goes helps part d.view (d.outcomeAt suite host part).1
      (d.outcomeAt suite host part).2.view := by
  have keeps : Keeps (⟨(), d.register, .memory d.book, none⟩ : World Unit) d := ⟨rfl, rfl⟩
  have admitted := (admits_run suite serves part.run keeps).1
  obtain ⟨honest, same⟩ := view_admits admitted helpful
  exact ⟨_, Script.reaches_run suite host _ _, honest, same.symm⟩

theorem view_meets {α : Type} (suite : Suite) (key : Key) (part : Intake α) (d : EndpointState)
    (helpful : ∀ x ∈ (part.run.run suite (.plain key) ⟨(), d.register, .memory d.book, none⟩).exchanges,
      x.works → helps x) :
    StoreView.Goes helps part d.view (d.outcome suite key part).1
      (d.outcome suite key part).2.view :=
  view_meets_at suite (plain_serves trivial) part d helpful

theorem view_goes {α : Type} (suite : Suite) (key : Key) (part : Intake α) (d : EndpointState)
    (helpful : ∀ x : Exchange, x.works → helps x) :
    StoreView.Goes helps part d.view (d.outcome suite key part).1
      (d.outcome suite key part).2.view :=
  view_meets suite key part d fun x _ => helpful x

def plainOutcome {α : Type} (part : Intake α) (d : EndpointState) :
    Except ProcessError α × EndpointState :=
  d.outcome .plain Setting.peerKey part

theorem plain_goes {α : Type} (part : Intake α) (d : EndpointState) :
    StoreView.Goes (fun _ => True) part d.view (plainOutcome part d).1 (plainOutcome part d).2.view :=
  view_goes .plain Setting.peerKey part d fun _ _ => trivial

end EndpointState

/-- Where results cannot be compared, what they hold can. -/
theorem ok_of_toOption {ε α : Type} {r : Except ε α} {a : α} (some : r.toOption = some a) :
    r = .ok a := by
  cases r with
  | ok b => exact congrArg Except.ok (Option.some.inj some)
  | error error => cases some

end SecureInbox
