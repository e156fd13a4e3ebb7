import SecureInbox.Proofs.Intake.Arrival
import SecureInbox.Proofs.Intake.Redelivery

/-! # Frames that are settled

A frame that is authentic and does not have to come again spends its counter, whatever
becomes of the message in it (`settled_spends`).  If it comes again all the same, because
its acknowledgement was lost, that does no harm exactly if the first call had an outcome:
a call that failed has spent the counter but has not marked the nonce, so that the frame
gets to its session once more and is behind it (`acknowledged_again_harmless_iff`). -/
set_option autoImplicit false

namespace SecureInbox

/-! ## The first time -/

/-- Unless a frame is to come again, its session is afterwards the one behind it, and all
other sessions are as they were. -/
theorem settled_spends (p : Processor) (a : Arrival) (r : StoreView) (s t : Session) (plaintext : Bytes)
    (opens : a.Opens p) (found : r.filed (a.place p) = some s)
    (unused : r.register.contains (a.hash p) = false)
    (authentic : p.endpoint.Authentic a.key a.content s plaintext t) (xs : List Exchange)
    (o : ProcessResult) (reaches : Script.Reaches (p.process a.boxed) xs (.done o))
    (admitted : (StoreView.rules (Exchange.Resolves a.boxed.sender a.key)).AdmitsAll r xs)
    (settled : ∀ e, o = .error e → e.disposition ≠ .retry) :
    ((StoreView.rules (Exchange.Resolves a.boxed.sender a.key)).afterAll r xs).filed =
        Function.update r.filed (a.place p) (some t) ∧
      s.Spends a.content.sealed t := by
  have spends := Session.decrypt_spends authentic.decrypted
  have filed : (r.put t).filed = Function.update r.filed (a.place p) (some t) := by
    rw [StoreView.filed_put, spends.fileKey, r.own _ s found]
  refine ⟨?_, spends⟩
  have ending := (StoreView.process_ending opens (fun _ resolves => resolves) found unused authentic).rest
    reaches admitted
  generalize (StoreView.rules (Exchange.Resolves a.boxed.sender a.key)).afterAll r xs = u at ending ⊢
  cases ending with
  | retried e retry => exact (settled e rfl retry).elim
  | failed e done => exact filed
  | done outcome => exact filed
  | unmarked outcome error _ => exact filed

section Example

def Setting.failsWith (error : ProcessError) : ProcessResult → Bool
  | .error e => e == error
  | .ok _ => false

theorem Setting.eq_error {error : ProcessError} {r : ProcessResult}
    (fails : Setting.failsWith error r = true) : r = .error error := by
  cases r with
  | error e => rw [show e = error from eq_of_beq fails]
  | ok outcome => cases fails

def plainArrival (steps : Nat) (body : Body) : Arrival :=
  ⟨(plainBoxedFrame steps body).boxed, Setting.peerKey,
    (plainBoxedFrame steps body).outer plainLink.session (plainContent steps body), plainLink.session,
    plainContent steps body⟩

theorem plainArrival_opens {steps : Nat} {body : Body}
    (carried : Setting.isCarried ⟨Block.zero 16, .encapsulated (plainContent steps body)⟩ = true) :
    (plainArrival steps body).Opens Setting.processor where
  enabled := rfl
  opened := Setting.opening_boxed (Setting.survives_envelope carried)
    (fun _ _ other => nomatch other) steps
  body := rfl

/-- What a plain world does with a box can happen at the view of its stores. -/
theorem deliver_view {w : World Unit} {d : EndpointState} (keeps : EndpointState.Keeps w d) (b : Boxed)
    (helps : Exchange → Prop) (helpful : ∀ x, x.works → x.Resolves Setting.peer Setting.peerKey → helps x) :
    Script.Reaches (Setting.processor.process b) (Setting.deliver w b).exchanges
        (.done (Setting.deliver w b).value) ∧
      (StoreView.rules helps).AdmitsAll d.view (Setting.deliver w b).exchanges ∧
      ∃ after, EndpointState.Keeps (Setting.deliver w b).world after ∧
        (StoreView.rules helps).afterAll d.view (Setting.deliver w b).exchanges = after.view := by
  have serves : (Host.plain Setting.peerKey).Serves fun _ => True := EndpointState.plain_serves trivial
  obtain ⟨admitted, keepsAfter⟩ :=
    EndpointState.admits_run .plain serves (Setting.processor.process b) keeps
  have resolves : ∀ x ∈ (Setting.deliver w b).exchanges, x.works → helps x := by
    intro x member works
    refine helpful x works ?_
    obtain ⟨n, found⟩ := List.mem_iff_getElem?.mp member
    obtain ⟨r, answer⟩ := x
    cases r with
    | host c =>
        cases c with
        | publicKey identity =>
            have same := Host.plain_answers _ _ _ _ n _ answer found
            subst same
            exact fun _ => rfl
        | _ => trivial
    | _ => trivial
  obtain ⟨honest, same⟩ := EndpointState.view_admits admitted resolves
  exact ⟨Script.reaches_run _ _ _ _, honest, _, keepsAfter, same⟩

def unreadable : Arrival := plainArrival 0 (.unknown 0xee [])

def behindUnreadable : Session :=
  (plainSession.decrypt .plain unreadable.content.sealed Ratchet.defaultMaxSkip).2

theorem unreadable_opens : unreadable.Opens Setting.processor :=
  plainArrival_opens (by decide +kernel)

theorem unreadable_authentic :
    Setting.processor.endpoint.Authentic unreadable.key unreadable.content plainSession
      ((Body.unknown 0xee []).toPlaintext 1) behindUnreadable where
  bound := by decide +kernel
  known := by decide
  ready := by decide
  decrypted := rfl

theorem unreadable_fails : (Setting.deliver (plainWorld []) unreadable.boxed).value =
    .error (.unknownType 0xee) := Setting.eq_error (by decide +kernel)

/-- A frame with a message of an unknown kind spends its counter. -/
theorem settled_spends_unknown :
    ∃ xs o, o = .error (.unknownType 0xee) ∧
      Script.Reaches (Setting.processor.process unreadable.boxed) xs (.done o) ∧
      ((StoreView.rules (Exchange.Resolves Setting.peer Setting.peerKey)).afterAll
        (EndpointState.single plainSession).view xs).filed =
          Function.update (EndpointState.single plainSession).view.filed plainLink.key
            (some behindUnreadable) ∧
      behindUnreadable.peerTwo.map Ratchet.counter = some 2 := by
  have keeps : EndpointState.Keeps (plainWorld []) (.single plainSession) := ⟨rfl, rfl⟩
  obtain ⟨reaches, admitted, _⟩ := deliver_view keeps unreadable.boxed _ fun _ _ resolves => resolves
  have found : (EndpointState.single plainSession).view.filed (unreadable.place Setting.processor) =
      some plainSession := SessionBook.find?_single plainSession_stands.filed
  have settled := settled_spends Setting.processor unreadable (EndpointState.single plainSession).view
    plainSession behindUnreadable _ unreadable_opens found rfl unreadable_authentic _ _ reaches
    admitted fun e failed => by
      obtain rfl := Except.error.inj (unreadable_fails.symm.trans failed)
      decide
  rw [unreadable_fails] at reaches
  exact ⟨_, _, rfl, reaches, settled.1, settled.2.counter⟩

end Example

/-! ## The second time -/

/-- Stores and transport do not fail, and the sender has no other key than the given one. -/
def Exchange.steady (sender : Identity) (key : Key) (x : Exchange) : Prop :=
  x.works ∧ x.Resolves sender key

namespace Arrival

abbrev steady (a : Arrival) : Rules StoreView := StoreView.rules (Exchange.steady a.boxed.sender a.key)

def behind (a : Arrival) : ProcessResult :=
  .error (.ofRefusal (.decrypt
    (.ratchetBehind (a.content.sealed.counter + 1) a.content.sealed.counter)))

/-- Without the session of a frame, and with a rejection of it on its way. -/
def rejected (p : Processor) (a : Arrival) (r : StoreView) : StoreView :=
  (r.erase (a.place p)).post a.boxed.sender ⟨a.session, .reject a.boxed.id .stateMismatch⟩

def IsUnknown (a : Arrival) (o : ProcessResult) : Prop :=
  ∃ reason, o = .error (.senderUnknown a.boxed.sender.text reason)

end Arrival

namespace StoreView

variable {helps : Exchange → Prop} {r : StoreView} {p : Processor}

/-- A frame that its session has passed ends the session, and the peer is told. -/
theorem handleEnvelope_spent {outer : Message} {key : Key} {id : SessionId} {content : Encapsulated}
    {s t : Session} {plaintext : Bytes} (works : ∀ x, helps x → x.works)
    (enabled : p.endpoint.policy.enabled = true)
    (found : r.filed (p.endpoint.sessionKey outer.sender id) = some t)
    (authentic : p.endpoint.Authentic key content s plaintext t)
    (fits : content.sealed.counter.toNat + 1 < UInt64.size) :
    (p.handleEnvelope outer key ⟨id, .encapsulated content⟩).Obeys (rules helps) r fun u o =>
      o = .error (.ofRefusal (.decrypt
        (.ratchetBehind (content.sealed.counter + 1) content.sealed.counter))) ∧
      u = (r.erase (p.endpoint.sessionKey outer.sender id)).post outer.sender
        ⟨id, .reject outer.id .stateMismatch⟩ := by
  have spends := Session.decrypt_spends authentic.decrypted
  have bound : t.isBoundTo key = true := by
    rw [Session.isBoundTo, spends.peerKey]
    exact authentic.bound
  have spent := spends.decrypt_spent p.endpoint.suite p.endpoint.policy.maxSkip fits
  have only : ∀ other, r.filed (p.endpoint.sessionKey outer.sender id) = some other → t = other :=
    fun _ again => Option.some.inj (found.symm.trans again)
  have unopened : ∀ other bytes u, r.filed (p.endpoint.sessionKey outer.sender id) = some other →
      ¬p.endpoint.Authentic key content other bytes u := by
    intro other bytes u again opened
    obtain rfl := only other again
    have same := spent.symm.trans opened.decrypted
    cases same
  refine handleEnvelope_failed enabled ?_
  refine Endpoint.receiveEncapsulated_receipt.mono ?_
  intro u o receipt
  cases receipt with
  | broken call error admitted => exact (works _ admitted).elim
  | unsent left reason envelope error cause admitted => exact (works _ admitted).elim
  | unknown gone =>
      rw [found] at gone
      cases gone
  | early other again _ early =>
      obtain rfl := only other again
      exact (spends.ready authentic.ready early).elim
  | unread other u bytes fault again opened unread => exact (unopened other bytes u again opened).elim
  | opened other u bytes inner again opened read => exact (unopened other bytes u again opened).elim
  | refused other refusal again why =>
      obtain rfl := only other again
      cases why with
      | keyChanged unbound =>
          rw [bound] at unbound
          cases unbound
      | version bound unknown =>
          rw [authentic.known] at unknown
          cases unknown
      | decrypt bound known ready error u failed =>
          have same := spent.symm.trans failed
          cases same
          exact ⟨rfl, rfl⟩

variable {a : Arrival}

/-- A frame whose nonce is marked is dropped. -/
theorem process_marked (opens : a.Opens p) (marked : r.register.contains (a.hash p) = true) :
    (p.process a.boxed).Obeys a.steady r fun u o =>
      u = r ∧ (o = .ok (.dropped .alreadyProcessed) ∨ a.IsUnknown o) := by
  refine process_checked opens (fun _ steady => steady.2) (fun reason => ⟨rfl, .inr ⟨reason, rfl⟩⟩)
    (fun _ steady => steady.1.elim) (fun _ => ⟨rfl, .inl rfl⟩) ?_
  intro unused
  rw [marked] at unused
  cases unused

/-- A frame that its session has passed is refused. -/
theorem process_spent {s t : Session} {plaintext : Bytes} (opens : a.Opens p)
    (unused : r.register.contains (a.hash p) = false) (found : r.filed (a.place p) = some t)
    (authentic : p.endpoint.Authentic a.key a.content s plaintext t)
    (fits : a.content.sealed.counter.toNat + 1 < UInt64.size) :
    (p.process a.boxed).Obeys a.steady r fun u o =>
      a.IsUnknown o ∧ u = r ∨ o = a.behind ∧ u = a.rejected p r := by
  have header := Processor.opening_header opens.opened
  have place : p.endpoint.sessionKey a.outer.sender a.session = a.place p := by
    rw [header.1]
    rfl
  have here : r.filed (p.endpoint.sessionKey a.outer.sender a.session) = some t := by
    rw [place]
    exact found
  refine process_checked opens (fun _ steady => steady.2) (fun reason => .inl ⟨⟨reason, rfl⟩, rfl⟩)
    (fun _ steady => steady.1.elim) ?_ fun _ => ?_
  · intro marked
    rw [unused] at marked
    cases marked
  · rw [Intake.obeys_bind]
    refine (handleEnvelope_spent (fun _ steady => steady.1) opens.enabled here authentic fits).mono ?_
    rintro u o ⟨rfl, rfl⟩
    refine .inr ⟨rfl, ?_⟩
    rw [place, header.1, header.2]
    rfl

theorem sent_rejected (a : Arrival) (r : StoreView) : (a.rejected p r).sent ≠ r.sent := by
  intro same
  have lengths : r.sent.length + 1 = r.sent.length := by
    simpa [Arrival.rejected, post, erase, without] using congrArg List.length same
  omega

end StoreView

/-- What comes of an acknowledged frame that arrives once more, after a call with the result
`first`. -/
structure Arrival.Again (p : Processor) (a : Arrival) (first : ProcessResult) (before after : StoreView)
    (second : ProcessResult) : Prop where
  /-- The sessions are as before and nothing is sent exactly if the first call had an
  outcome, or the sender's key is not known at the moment. -/
  harmless : after.filed = before.filed ∧ after.sent = before.sent ↔
    (∃ outcome, first = .ok outcome) ∨ a.IsUnknown second
  dropped : ∀ outcome, first = .ok outcome →
    second = .ok (.dropped .alreadyProcessed) ∨ a.IsUnknown second
  /-- After a failure the frame is refused, its session is gone, and the peer is told. -/
  refused : ∀ e, first = .error e →
    second = a.behind ∧ after = a.rejected p before ∨ a.IsUnknown second

/-- A frame that was acknowledged and arrives again leaves its session alone exactly if its
message had an outcome; when the message had failed, the session is lost. -/
theorem acknowledged_again_harmless_iff (p : Processor) (a : Arrival) (r : StoreView) (s t : Session)
    (plaintext : Bytes) (opens : a.Opens p) (found : r.filed (a.place p) = some s)
    (unused : r.register.contains (a.hash p) = false)
    (authentic : p.endpoint.Authentic a.key a.content s plaintext t)
    (fits : a.content.sealed.counter.toNat + 1 < UInt64.size) (xs : List Exchange) (o : ProcessResult)
    (reaches : Script.Reaches (p.process a.boxed) xs (.done o)) (admitted : a.steady.AdmitsAll r xs)
    (acknowledged : ∀ e, o = .error e → e.disposition = .ack) (u : StoreView)
    (session : u.filed (a.place p) = (a.steady.afterAll r xs).filed (a.place p))
    (register : u.register.contains (a.hash p) =
      (a.steady.afterAll r xs).register.contains (a.hash p))
    (ys : List Exchange) (o' : ProcessResult)
    (again : Script.Reaches (p.process a.boxed) ys (.done o'))
    (admittedAgain : a.steady.AdmitsAll u ys) :
    a.Again p o u (a.steady.afterAll u ys) o' := by
  have ending := (StoreView.process_ending opens (fun _ steady => steady.2) found unused authentic).rest
    reaches admitted
  generalize a.steady.afterAll r xs = left at ending session register
  cases ending with
  | retried e retry =>
      rw [acknowledged e rfl] at retry
      cases retry
  | unmarked outcome error failed => exact failed.1.elim
  | done outcome =>
      have marked : u.register.contains (a.hash p) = true := by
        show u.register.contains _ = _
        rw [register]
        show (r.register.insert (a.hash p)).2.contains (a.hash p) = true
        rw [NonceRegister.contains_insert, beq_self_eq_true, Bool.true_or]
      obtain ⟨same, result⟩ := (StoreView.process_marked opens marked).rest again admittedAgain
      rw [same]
      exact ⟨⟨fun _ => .inl ⟨outcome, rfl⟩, fun _ => ⟨rfl, rfl⟩⟩, fun _ _ => result,
        fun _ other => (nomatch other)⟩
  | failed e done =>
      -- The session has moved on, but the register is as it was.
      have filed : u.filed (a.place p) = some t := by
        have place : t.fileKey = a.place p :=
          (Session.decrypt_spends authentic.decrypted).fileKey.trans (r.own _ s found)
        rw [session, StoreView.filed_put, place, Function.update_self]
      rcases (StoreView.process_spent opens (register.trans unused) filed authentic fits).rest again
        admittedAgain with ⟨unknown, same⟩ | ⟨result, same⟩
      · rw [same]
        exact ⟨⟨fun _ => .inr unknown, fun _ => ⟨rfl, rfl⟩⟩, fun _ other => (nomatch other),
          fun _ _ => .inr unknown⟩
      · rw [same, result]
        refine ⟨⟨?_, ?_⟩, fun _ other => (nomatch other), fun _ _ => .inl ⟨rfl, rfl⟩⟩
        · rintro ⟨_, sent⟩
          exact (StoreView.sent_rejected a u sent).elim
        · rintro (⟨_, other⟩ | ⟨_, other⟩)
          · cases other
          · cases other

/-- When it arrives again, the session is lost. -/
theorem acknowledged_again_lost :
    ∃ xs o ys o', o = .error (.unknownType 0xee) ∧
      Script.Reaches (Setting.processor.process unreadable.boxed) xs (.done o) ∧
      Script.Reaches (Setting.processor.process unreadable.boxed) ys (.done o') ∧
      o' = unreadable.behind ∧
      unreadable.steady.afterAll
          (unreadable.steady.afterAll (EndpointState.single plainSession).view xs) ys =
        unreadable.rejected Setting.processor
          (unreadable.steady.afterAll (EndpointState.single plainSession).view xs) := by
  have keeps : EndpointState.Keeps (plainWorld []) (.single plainSession) := ⟨rfl, rfl⟩
  obtain ⟨reaches, admitted, left, keepsLeft, same⟩ :=
    deliver_view keeps unreadable.boxed (Exchange.steady Setting.peer Setting.peerKey)
      fun _ works resolves => ⟨works, resolves⟩
  obtain ⟨again, admittedAgain, _⟩ :=
    deliver_view keepsLeft unreadable.boxed (Exchange.steady Setting.peer Setting.peerKey)
      fun _ works resolves => ⟨works, resolves⟩
  have found : (EndpointState.single plainSession).view.filed (unreadable.place Setting.processor) =
      some plainSession := SessionBook.find?_single plainSession_stands.filed
  rw [← same] at admittedAgain
  have lost := acknowledged_again_harmless_iff Setting.processor unreadable
    (EndpointState.single plainSession).view plainSession behindUnreadable _ unreadable_opens found rfl
    unreadable_authentic (by decide) _ _ reaches admitted (fun e failed => by
      obtain rfl := Except.error.inj (unreadable_fails.symm.trans failed)
      rfl) _ rfl rfl _ _ again admittedAgain
  have known : Setting.failsWith (.refused "decrypt: Ratchet counter 1 is behind the current position 2")
      (Setting.deliver (Setting.deliver (plainWorld []) unreadable.boxed).world unreadable.boxed).value =
        true := by decide +kernel
  have unlike : ¬unreadable.IsUnknown
      (Setting.deliver (Setting.deliver (plainWorld []) unreadable.boxed).world unreadable.boxed).value := by
    rw [Setting.eq_error known]
    rintro ⟨_, other⟩
    cases other
  obtain ⟨result, rejected⟩ := (lost.refused _ unreadable_fails).resolve_right unlike
  rw [unreadable_fails] at reaches
  exact ⟨_, _, _, _, rfl, reaches, again, result, rejected⟩

end SecureInbox
