import SecureInbox.Proofs.Intake.Settled
import SecureInbox.Proofs.Wire.Content

/-! # Envelopes inside frames

A sender does not put an envelope into a frame, and a receiver does not process an envelope that
it finds in one.  The sender goes by the form of the body and the receiver by its type byte, so
the two differ on one kind of body: an unknown one that has the type byte of envelopes over the
bytes of one (`Body.IsDisguised`).  Just such a body is put into a frame and is an envelope for the
receiver (`Endpoint.reads_envelope_iff`).  The receiver refuses it: it hands nothing on, sends
nothing, and stores no session but the one of the frame (`StoreView.process_nested`). -/
set_option autoImplicit false

namespace SecureInbox

/-! ## What the receiver takes for an envelope -/

/-- A body of an unknown kind that is read as an envelope all the same. -/
def Body.IsDisguised (body : Body) : Prop :=
  ∃ bytes nested, body = .unknown Kind.forwardSecurity.byte bytes ∧
    Envelope.decode bytes = .ok nested

theorem Body.isEnvelope_iff_kind? {body : Body} :
    body.isEnvelope = true ↔ body.kind? = some .forwardSecurity := by
  cases body with
  | envelope e => exact iff_of_true rfl rfl
  | text g t | location g l | video g v | audio g a | ballotCreate g id v | ballotVote g c id v
  | file g v | receipt g t ids | reaction g id a e | edit g id t | delete g id =>
    cases g <;> exact ⟨nofun, nofun⟩
  | _ => exact ⟨nofun, nofun⟩

theorem Body.isEnvelope_of_decode {typeByte : UInt8} {content : Bytes} {body : Body}
    (decoded : decode typeByte content = .ok body) :
    body.isEnvelope = true ↔ typeByte = Kind.forwardSecurity.byte := by
  rw [isEnvelope_iff_kind?, kind?_of_decode decoded]
  constructor
  · exact fun known => (Kind.byte_of_ofByte? known).symm
  · rintro rfl
    exact Kind.ofByte?_byte _

theorem Body.decode_disguised {bytes : Bytes} {body : Body} :
    decode Kind.forwardSecurity.byte bytes = .ok body ↔
      ∃ nested, body = .envelope nested ∧ Envelope.decode bytes = .ok nested := by
  rw [decode_eq_ok (Kind.ofByte?_byte _)]
  simp only [Envelope.decode, Reader.result_eq_ok]
  constructor
  · rintro ⟨rest, read⟩
    obtain ⟨nested, rfl, held⟩ := Reader.give_eq_ok.1 read
    exact ⟨nested, rfl, rest, held⟩
  · rintro ⟨nested, rfl, rest, read⟩
    exact ⟨rest, Reader.give_eq_ok.2 ⟨nested, rfl, read⟩⟩

/-- Of bodies that are no envelopes just the disguised ones have the type byte of envelopes. -/
theorem Body.typeByte_eq_envelope {body : Body} (plain : body.isEnvelope = false)
    (same : body.typeByte = Kind.forwardSecurity.byte) :
    ∃ bytes, body = .unknown Kind.forwardSecurity.byte bytes := by
  cases kind : body.kind? with
  | some k =>
      rw [typeByte_of_kind? kind] at same
      have known := Kind.ofByte?_byte k
      rw [same, Kind.ofByte?_byte] at known
      rw [isEnvelope_iff_kind?.2 (kind.trans known.symm)] at plain
      cases plain
  | none =>
      cases body with
      | unknown typeByte bytes =>
          obtain rfl : typeByte = Kind.forwardSecurity.byte := same
          exact ⟨bytes, rfl⟩
      | _ => cases kind

namespace Endpoint

/-- A padded plaintext holds an envelope for its receiver just if its body is disguised. -/
theorem reads_envelope_iff {message : Message} (plain : message.body.isEnvelope = false)
    (padding : Fin 255) (outer : Message) :
    (∃ inner, innerMessage outer (message.body.toPlaintext (padding.val + 1)) message.group? = .ok inner ∧
        inner.body.isEnvelope = true) ↔ message.body.IsDisguised := by
  have small : padding.val + 1 < 256 := by omega
  have unpadded : Padding.decode (message.body.toPlaintext (padding.val + 1)) =
      .ok (message.body.typeByte, message.body.content) :=
    Padding.decode_encode (Nat.succ_pos _) small _ _
  rw [innerMessage_of_unpadded unpadded]
  constructor
  · rintro ⟨inner, read, nested⟩
    cases decoded : Body.decode message.body.typeByte message.body.content with
    | error e =>
        rw [decoded] at read
        cases read
    | ok body =>
        rw [decoded] at read
        dsimp only at read
        split at read
        · obtain rfl := Except.ok.inj read
          obtain ⟨bytes, same⟩ :=
            Body.typeByte_eq_envelope plain ((Body.isEnvelope_of_decode decoded).1 nested)
          rw [same] at decoded
          obtain ⟨e, -, held⟩ := Body.decode_disguised.1 decoded
          exact ⟨bytes, e, same, held⟩
        · cases read
  · rintro ⟨bytes, e, same, held⟩
    have decoded : Body.decode message.body.typeByte message.body.content = .ok (.envelope e) := by
      rw [same]
      exact Body.decode_disguised.2 ⟨e, rfl, held⟩
    have group : message.group? = none := by rw [Message.group?, same]
    rw [decoded, group]
    exact ⟨_, if_pos rfl, rfl⟩

/-- A frame that is found to be authentic and to hold a message is given back as that. -/
theorem receiveEncapsulated_opened {e : Endpoint} {outer inner : Message} {senderKey : Key}
    (id : SessionId) {content : Encapsulated} {s t : Session} {plaintext : Bytes}
    (authentic : e.Authentic senderKey content s plaintext t)
    (read : innerMessage outer plaintext content.group = .ok inner) :
    ∃ rest, e.receiveEncapsulated outer senderKey id content =
        Intake.store (.find (e.sessionKey outer.sender id)) >>= rest ∧
      rest (some s) = pure ⟨some inner, .ofSession t, some t⟩ := by
  refine ⟨_, rfl, ?_⟩
  dsimp only
  rw [authentic.bound, authentic.known, if_neg (by decide), if_neg (by decide),
    if_neg authentic.ready, authentic.decrypted]
  dsimp only
  rw [read]

end Endpoint

/-! ## What the receiver does with it -/

/-- What is asked for a message that is refused for what is in its frame.  Of the sessions only
`t` is stored. -/
def Request.isRefusal (t : Session) (request : Request) : Prop :=
  request.isAround ∨
    match request with
    | .store (.seen _) => True
    | .store (.find _) => True
    | .store (.put s) => s = t
    | _ => False

inductive Refused (sender : Identity) : ProcessResult → Prop where
  | nested : Refused sender (.error (.ofFault sender .nestedEnvelope))
  | retried (e : ProcessError) (retry : e.disposition = .retry) : Refused sender (.error e)
  | known : Refused sender (.ok (.dropped .alreadyProcessed))

namespace StoreView

variable {helps : Exchange → Prop} {r : StoreView} {p : Processor} {t : Session}

theorem put_put (r : StoreView) (t : Session) : (r.put t).put t = r.put t := by
  simp only [put, Function.update_idem]

theorem after_refusal {x : Exchange} (refusal : x.request.isRefusal t) (r : StoreView) :
    r.after x = r ∨ r.after x = r.put t := by
  obtain ⟨request, answer⟩ := x
  rcases refusal with around | store
  · exact .inl ((sparesAround (fun _ => True) r request around).2 answer)
  · cases request with
    | store c =>
        cases c with
        | seen hash => exact .inl rfl
        | find key => exact .inl rfl
        | put s =>
            obtain rfl : s = t := store
            cases answer with
            | ok _ => exact .inr rfl
            | error error => exact .inl rfl
        | _ => exact store.elim
    | _ => exact store.elim

/-- Requests of a refusal change nothing but the session `t`. -/
theorem afterAll_refusal {xs : List Exchange} (refusal : ∀ x ∈ xs, x.request.isRefusal t) :
    ∀ r : StoreView, (rules helps).afterAll r xs = r ∨ (rules helps).afterAll r xs = r.put t := by
  induction xs with
  | nil => exact fun _ => .inl rfl
  | cons x xs ih =>
      intro r
      have rest : (rules helps).afterAll r (x :: xs) = r.after x ∨
          (rules helps).afterAll r (x :: xs) = (r.after x).put t :=
        ih (fun y member => refusal y (List.mem_cons_of_mem x member)) (r.after x)
      rcases after_refusal (refusal x List.mem_cons_self) r with same | moved
      · rw [same] at rest
        exact rest
      · rw [moved, put_put, or_self] at rest
        exact .inr rest

/-- A message that is found to hold an envelope is recorded and refused. -/
theorem handleInner_nested {outer inner : Message} (nested : inner.body.isEnvelope = true) :
    p.handleInner outer inner = Processor.reject outer.sender outer.id (some inner.body.typeByte)
      (.ofFault outer.sender .nestedEnvelope) := by
  unfold Processor.handleInner
  split
  · rfl
  · next same =>
    rw [same] at nested
    cases nested
  · next other _ =>
    cases same : inner.body with
    | envelope e => exact absurd same (other e)
    | _ =>
      rw [same] at nested
      cases nested

theorem commit_confined (e : Endpoint) :
    (e.commit t).Obeys (confined helps (Request.isRefusal t)) r fun _ o =>
      ∀ error, o = .error error → error.disposition = .retry := by
  unfold Endpoint.commit
  refine confined_find_bind (.inr trivial) ?_ ?_
  · rw [Intake.obeys_store]
    refine ⟨.inr rfl, fun answer _ => ?_⟩
    cases answer with
    | ok _ => exact nofun
    | error error =>
        rintro _ ⟨⟩
        rfl
  · rintro error _ _ ⟨⟩
    rfl

theorem settleInner_nested {outer inner : Message} (nested : inner.body.isEnvelope = true) :
    (p.settleInner outer inner t).Obeys (confined helps (Request.isRefusal t)) r fun _ o =>
      ∃ e, o = .error e ∧ (e = .ofFault outer.sender .nestedEnvelope ∨ e.disposition = .retry) := by
  have spares : (confined helps (Request.isRefusal t)).SparesAround :=
    sparesAround_confined helps fun _ around => .inl around
  have final : (ProcessError.ofFault outer.sender .nestedEnvelope).disposition ≠ .retry := nofun
  unfold Processor.settleInner
  rw [handleInner_nested nested, Intake.obeys_bind, Intake.obeys_attempt]
  unfold Processor.reject Processor.record
  rw [bind_assoc]
  refine Processor.obeys_around_bind spares trivial fun _ _ => ?_
  show Intake.Obeys _ (if _ then _ else _) r _
  rw [if_pos final, Intake.obeys_bind]
  refine (commit_confined p.endpoint).mono ?_
  intro u o retry
  cases o with
  | ok _ => exact ⟨_, rfl, .inl rfl⟩
  | error error => exact ⟨_, rfl, .inr (retry error rfl)⟩

theorem handleEnvelope_nested {outer inner : Message} {key : Key} {id : SessionId}
    {content : Encapsulated} {s : Session} {plaintext : Bytes}
    (enabled : p.endpoint.policy.enabled = true)
    (found : r.filed (p.endpoint.sessionKey outer.sender id) = some s)
    (authentic : p.endpoint.Authentic key content s plaintext t)
    (read : Endpoint.innerMessage outer plaintext content.group = .ok inner)
    (nested : inner.body.isEnvelope = true) :
    (p.handleEnvelope outer key ⟨id, .encapsulated content⟩).Obeys
      (confined helps (Request.isRefusal t)) r fun _ o => ∃ e, o = .error e ∧
        (e = .ofFault outer.sender .nestedEnvelope ∨ e.disposition = .retry) := by
  obtain ⟨rest, asks, opened⟩ := Endpoint.receiveEncapsulated_opened id authentic read
  unfold Processor.handleEnvelope
  rw [Endpoint.receive_encapsulated enabled, asks, Intake.obeys_bind, Intake.obeys_attempt]
  refine confined_find_bind (.inr trivial) ?_ fun error _ => ⟨_, rfl, .inr rfl⟩
  rw [found, opened]
  exact settleInner_nested nested

/-- A call that gets an envelope in an authentic frame makes no requests but those of a refusal,
and refuses it. -/
theorem process_nested {a : Arrival} {s : Session} {plaintext : Bytes} {inner : Message}
    (opens : a.Opens p) (resolves : ∀ x, helps x → x.Resolves a.boxed.sender a.key)
    (found : r.filed (a.place p) = some s)
    (authentic : p.endpoint.Authentic a.key a.content s plaintext t)
    (read : Endpoint.innerMessage a.outer plaintext a.content.group = .ok inner)
    (nested : inner.body.isEnvelope = true) :
    (p.process a.boxed).Obeys (confined helps (Request.isRefusal t)) r
      fun _ o => Refused a.boxed.sender o := by
  have sender : a.outer.sender = a.boxed.sender := (Processor.opening_header opens.opened).1
  have found : r.filed (p.endpoint.sessionKey a.outer.sender a.session) = some s := by
    rw [sender]
    exact found
  refine process_checked_confined opens (fun _ around => .inl around) (.inr trivial) resolves
    (fun reason => .retried _ rfl) (fun error _ => .retried _ rfl) (fun _ => .known) fun _ => ?_
  rw [Intake.obeys_bind]
  refine (handleEnvelope_nested opens.enabled found authentic read nested).mono ?_
  rintro u _ ⟨e, rfl, rfl | retry⟩
  · rw [sender]
    exact .nested
  · exact .retried e retry

end StoreView

/-- A message that is no envelope goes into a frame as its padded plaintext, and the receiver finds
an envelope in it just if its body is disguised.  The receiver does not process an envelope that it
finds in an authentic frame: whatever it is answered and however far it has come, it has handed
nothing on, sent nothing, and changed no session but that of the frame, and it refuses the message
unless it is to come again or its nonce was known. -/
theorem nested_envelopes (e : Endpoint) (p : Processor) (r : StoreView) :
    (∀ (helps : Exchange → Prop) (peer : Identity) (message : Message),
      (e.encapsulate peer message).Obeys (StoreView.rules helps) r fun u o =>
        ∀ envelope, o = .ok envelope → ∃ padding : Fin 255,
          e.Sealing peer (message.body.toPlaintext (padding.val + 1)) message.group? r u o ∧
            ∀ outer, (∃ inner, Endpoint.innerMessage outer
                (message.body.toPlaintext (padding.val + 1)) message.group? = .ok inner ∧
              inner.body.isEnvelope = true) ↔ message.body.IsDisguised) ∧
    ∀ (a : Arrival) (s t : Session) (plaintext : Bytes) (inner : Message),
      a.Opens p → r.filed (a.place p) = some s →
      p.endpoint.Authentic a.key a.content s plaintext t →
      Endpoint.innerMessage a.outer plaintext a.content.group = .ok inner →
      inner.body.isEnvelope = true → ∀ xs rest, Script.Reaches (p.process a.boxed) xs rest →
      (StoreView.rules (Exchange.Resolves a.boxed.sender a.key)).AdmitsAll r xs →
        (∀ x ∈ xs, x.request.isRefusal t) ∧
        ((StoreView.rules (Exchange.Resolves a.boxed.sender a.key)).afterAll r xs = r ∨
          (StoreView.rules (Exchange.Resolves a.boxed.sender a.key)).afterAll r xs = r.put t ∧
            t.fileKey = a.place p) ∧
        ∀ o, rest = .done o → Refused a.boxed.sender o := by
  constructor
  · intro helps peer message
    refine Endpoint.encapsulate_sealing.mono ?_
    rintro u o (⟨error, -, rfl⟩ | ⟨plain, padding, sealing⟩) envelope same
    · cases same
    · exact ⟨padding, sealing, Endpoint.reads_envelope_iff plain padding⟩
  · intro a s t plaintext inner opens found authentic read nested xs rest reaches admitted
    have obeys := StoreView.process_nested opens (fun _ resolves => resolves) found authentic read nested
    have confined : (StoreView.confined (Exchange.Resolves a.boxed.sender a.key)
        (Request.isRefusal t)).AdmitsAll r xs := (StoreView.admitsAll_confined xs r).2 admitted
    have refusal : ∀ x ∈ xs, x.request.isRefusal t :=
      Rules.AllowsAll.each (fun _ _ allowed => allowed) (obeys.allowed reaches confined)
    have place : t.fileKey = a.place p :=
      (Session.decrypt_spends authentic.decrypted).fileKey.trans (r.own _ s found)
    refine ⟨refusal, (StoreView.afterAll_refusal refusal r).imp_right fun moved => ⟨moved, place⟩, ?_⟩
    rintro o rfl
    exact obeys.rest reaches confined

section Example

/-- The end of a session, as bytes of an unknown kind. -/
def disguise : Body :=
  .unknown Kind.forwardSecurity.byte (Envelope.encode ⟨Block.zero 16, .terminate .reset⟩)

theorem disguise_isDisguised : disguise.IsDisguised :=
  ⟨_, ⟨Block.zero 16, .terminate .reset⟩, rfl, rfl⟩

def disguisedArrival : Arrival := plainArrival 0 disguise

def behindDisguise : Session :=
  (plainSession.decrypt .plain disguisedArrival.content.sealed Ratchet.defaultMaxSkip).2

theorem disguised_authentic :
    Setting.processor.endpoint.Authentic disguisedArrival.key disguisedArrival.content plainSession
      (disguise.toPlaintext 1) behindDisguise where
  bound := by decide +kernel
  known := by decide
  ready := by decide
  decrypted := rfl

/-- It is put into a frame, and is refused at the other end for what it is there. -/
theorem nested_envelopes_disguised :
    (∃ envelope u padding, StoreView.Goes (fun _ => True)
        (Setting.processor.endpoint.encapsulate Setting.peer (Setting.message disguise))
        (EndpointState.single plainSession).view (.ok envelope) u ∧
      ∀ outer, ∃ inner, Endpoint.innerMessage outer (disguise.toPlaintext padding) none = .ok inner ∧
        inner.body.isEnvelope = true) ∧
    ∃ xs, Script.Reaches (Setting.processor.process disguisedArrival.boxed) xs
        (.done (.error (.ofFault Setting.peer .nestedEnvelope))) ∧
      ∀ x ∈ xs, x.request.isRefusal behindDisguise := by
  obtain ⟨sends, receives⟩ := nested_envelopes Setting.processor.endpoint Setting.processor
    (EndpointState.single plainSession).view
  constructor
  · let ran := EndpointState.plainOutcome
      (Setting.processor.endpoint.encapsulate Setting.peer (Setting.message disguise))
      (EndpointState.single plainSession)
    have sealed : ran.1.toOption.isSome = true := by decide +kernel
    obtain ⟨envelope, some⟩ := Option.isSome_iff_exists.1 sealed
    have goes := EndpointState.plain_goes
      (Setting.processor.endpoint.encapsulate Setting.peer (Setting.message disguise))
      (EndpointState.single plainSession)
    obtain ⟨padding, -, reads⟩ := goes.holds (sends _ _ _) envelope (ok_of_toOption some)
    rw [show _ = _ from ok_of_toOption some] at goes
    exact ⟨envelope, _, _, goes, fun outer => (reads outer).2 disguise_isDisguised⟩
  · have keeps : EndpointState.Keeps (plainWorld []) (.single plainSession) := ⟨rfl, rfl⟩
    obtain ⟨reaches, admitted, -⟩ := deliver_view keeps disguisedArrival.boxed
      (Exchange.Resolves Setting.peer Setting.peerKey) fun _ _ resolves => resolves
    have found : (EndpointState.single plainSession).view.filed
        (disguisedArrival.place Setting.processor) = some plainSession := SessionBook.find?_single plainSession_stands.filed
    have plain : (Setting.message disguise).body.isEnvelope = false := rfl
    obtain ⟨inner, read, nested⟩ :=
      (Endpoint.reads_envelope_iff plain 0 disguisedArrival.outer).2 disguise_isDisguised
    have fails : (Setting.deliver (plainWorld []) disguisedArrival.boxed).value =
        .error (.ofFault Setting.peer .nestedEnvelope) := Setting.eq_error (by decide +kernel)
    obtain ⟨refusal, -, -⟩ := receives disguisedArrival plainSession behindDisguise _ inner
      (plainArrival_opens (by decide +kernel)) found disguised_authentic read nested _ _ reaches admitted
    rw [fails] at reaches
    exact ⟨_, reaches, refusal⟩

end Example

end SecureInbox
