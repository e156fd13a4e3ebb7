import SecureInbox.Proofs.Intake.EndpointState
import SecureInbox.Proofs.Intake.Requests

/-! # A retried message leaves no trace

A request is quiet if nothing changes by it.  While the stores and the transport do
not fail, each stage either has made quiet requests only, or ends in a way that is no
reason to deliver the message again (`Spares`).  So a message that is to be delivered
again has left everything as it was, and comes to the same end when it is answered in
the same way (`retry_leaves_no_trace`). -/
set_option autoImplicit false

namespace SecureInbox

def Request.isQuiet : Request → Bool
  | .host (.change _) => false
  | .host (.schedule _) => false
  | .host (.send _ _) => false
  | .host _ => true
  | .store (.seen _) => true
  | .store (.best _ _) => true
  | .store (.find _) => true
  | .store _ => false
  | .notice _ => true
  | .enter _ => true
  | .leave _ => true
  | _ => false

def Exchange.succeeds : Exchange → Prop
  | ⟨.store _, .error _⟩ => False
  | ⟨.host (.send _ _), .error _⟩ => False
  | _ => True

namespace Retry

/-- The state tells whether all requests so far were quiet. -/
def rules : Rules Bool where
  allows _ _ := True
  admits _ x := x.succeeds
  after s x := s && x.request.isQuiet

/-- An end that is no reason to deliver the message again, nor, as far as `keeps`
tells, to go on as if nothing had been written. -/
def Settles {α : Type} (keeps : α → Prop) : Except ProcessError α → Prop
  | .error e => e.disposition ≠ .retry
  | .ok a => ¬keeps a

/-- An end that settles, or before which only quiet requests were made. -/
def Spares {α : Type} (s : Bool) (keeps : α → Prop) (t : Bool) (r : Except ProcessError α) : Prop :=
  t = s ∨ Settles keeps r

abbrev never {α : Type} (_ : α) : Prop := False

section Parts

variable {α β : Type} {s : Bool} {part : Intake α} {f : α → Intake β}
variable {keeps : α → Prop} {keepsAfter : β → Prop}

theorem obeys_quiet (asks : part.Asks fun r => r.isQuiet = true) :
    part.Obeys rules s fun t _ => t = s :=
  asks.obeys fun r quiet => ⟨trivial, fun answer _ => by
    rw [show rules.after s ⟨r, answer⟩ = (s && r.isQuiet) from rfl, quiet, Bool.and_true]⟩

theorem spares_quiet (asks : part.Asks fun r => r.isQuiet = true) :
    part.Obeys rules s (Spares s keeps) :=
  (obeys_quiet asks).mono fun _ _ same => .inl same

theorem spares_of_settles {t : Bool} (settles : part.Obeys rules t fun _ r => Settles keeps r) :
    part.Obeys rules t (Spares s keeps) :=
  settles.mono fun _ _ => .inr

theorem spares_bind (keeps : α → Prop) (first : part.Obeys rules s (Spares s keeps))
    (kept : ∀ a, (f a).Obeys rules s (Spares s keepsAfter))
    (lost : ∀ a t, ¬keeps a → (f a).Obeys rules t fun _ r => Settles keepsAfter r) :
    (part >>= f).Obeys rules s (Spares s keepsAfter) := by
  rw [Intake.obeys_bind]
  refine first.mono ?_
  intro t r spares
  cases r with
  | error e => exact spares.imp id id
  | ok a =>
      obtain rfl | settles := spares
      · exact kept a
      · exact (lost a t settles).mono fun _ _ => .inr

theorem settles_bind (first : part.Obeys rules s fun _ r => ∃ a, r = .ok a)
    (rest : ∀ a t, (f a).Obeys rules t fun _ r => Settles keepsAfter r) :
    (part >>= f).Obeys rules s fun _ r => Settles keepsAfter r := by
  rw [Intake.obeys_bind]
  refine first.mono ?_
  rintro t r ⟨a, rfl⟩
  exact rest a t

theorem ok_bind (first : part.Obeys rules s fun _ r => ∃ a, r = .ok a)
    (rest : ∀ a t, (f a).Obeys rules t fun _ r => ∃ b, r = .ok b) :
    (part >>= f).Obeys rules s fun _ r => ∃ b, r = .ok b := by
  rw [Intake.obeys_bind]
  refine first.mono ?_
  rintro t r ⟨a, rfl⟩
  exact rest a t

theorem settles_bind_settles (first : part.Obeys rules s fun _ r => Settles never r)
    (rest : ∀ a t, (f a).Obeys rules t fun _ r => Settles keepsAfter r) :
    (part >>= f).Obeys rules s fun _ r => Settles keepsAfter r := by
  rw [Intake.obeys_bind]
  refine first.mono ?_
  intro t r settles
  cases r with
  | error e => exact settles
  | ok a => exact rest a t

theorem request_ok (r : Request) :
    (Intake.request r).Obeys rules s fun _ r => ∃ a, r = .ok a :=
  (Intake.obeys_request _ _ _ _).mpr ⟨trivial, fun answer _ => ⟨answer, rfl⟩⟩

theorem store_ok (c : StoreCall) : (Intake.store c).Obeys rules s fun _ r => ∃ a, r = .ok a := by
  refine (Intake.obeys_store _ _ _ _).mpr ⟨trivial, fun answer succeeds => ?_⟩
  cases answer with
  | error e => exact succeeds.elim
  | ok answer => exact ⟨answer, rfl⟩

/-- A failure of the application is no reason to deliver the message again. -/
theorem host_settles (c : HostCall) : (Intake.host c).Obeys rules s fun _ r => Settles never r := by
  refine (Intake.obeys_host _ _ _ _).mpr ⟨trivial, fun answer _ => ?_⟩
  cases answer with
  | error e => exact fun retry => nomatch retry
  | ok answer => exact id

end Parts

/-! ## The endpoint -/

section Endpoint

variable (e : Endpoint) {s : Bool}

theorem send_ok (peer : Identity) (session : SessionId) (frame : Frame) :
    (Endpoint.send peer session frame).Obeys rules s fun _ r => ∃ a, r = .ok a := by
  refine (Intake.obeys_bind _ _ _ _ _).mpr ((Intake.obeys_request _ _ _ _).mpr ?_)
  refine ⟨trivial, fun answer succeeds => ?_⟩
  cases answer with
  | error e => exact succeeds.elim
  | ok answer => exact ⟨(), rfl⟩

theorem commit_ok (session : Session) :
    (e.commit session).Obeys rules s fun _ r => ∃ a, r = .ok a :=
  ok_bind (store_ok _) fun _ _ => store_ok _

theorem refuse_settles {α : Type} {keeps : α → Prop} (outer : Message) (session : SessionId)
    (cause : Cause) (refusal : Refusal) :
    (Endpoint.refuse outer session cause refusal).Obeys rules s fun _ r => Settles keeps r :=
  settles_bind (send_ok _ _ _) fun _ _ retry => nomatch retry

theorem dropAndRefuse_settles {α : Type} {keeps : α → Prop} (outer : Message) (session : SessionId)
    (refusal : Refusal) :
    (e.dropAndRefuse outer session refusal).Obeys rules s fun _ r => Settles keeps r :=
  settles_bind (store_ok _) fun _ _ => refuse_settles _ _ _ _

abbrev hasInner (received : Received) : Prop := received.inner.isSome = true

theorem control_settles (session : SessionInfo) : Settles hasInner (.ok (.control session)) := nofun

theorem receiveDisabled_settles (outer : Message) (envelope : Envelope) :
    (Endpoint.receiveDisabled outer envelope).Obeys rules s fun _ r => Settles hasInner r := by
  have answered : ∀ frame, (Endpoint.send outer.sender envelope.session frame >>= fun _ =>
      pure (Received.control (.gone envelope.session))).Obeys rules s fun _ r => Settles hasInner r :=
    fun frame => settles_bind (send_ok _ _ _) fun _ _ => control_settles _
  unfold Endpoint.receiveDisabled
  cases envelope.frame with
  | init versions key => exact answered _
  | accept versions key => exact answered _
  | reject rejected cause => exact control_settles _
  | terminate cause => exact control_settles _
  | encapsulated content => exact refuse_settles _ _ _ _

theorem receiveInit_settles (peer : Identity) (senderKey : Key) (id : SessionId)
    (offered : VersionRange) (peerEphemeral : Key) :
    (e.receiveInit peer senderKey id offered peerEphemeral).Obeys rules s
      fun _ r => Settles hasInner r := by
  unfold Endpoint.receiveInit
  cases e.policy.versions.negotiate offered with
  | none => exact settles_bind (send_ok _ _ _) fun _ _ => control_settles _
  | some version =>
      refine settles_bind (store_ok _) fun _ _ => settles_bind (request_ok _) fun ephemeral _ => ?_
      refine settles_bind (request_ok _) fun created _ => ?_
      split
      · exact fun retry => nomatch retry
      · refine settles_bind (store_ok _) fun _ _ => ?_
        exact settles_bind (send_ok _ _ _) fun _ _ => control_settles _

theorem receiveAccept_settles (peer : Identity) (id : SessionId) (offered : VersionRange)
    (peerEphemeral : Key) :
    (e.receiveAccept peer id offered peerEphemeral).Obeys rules s
      fun _ r => Settles hasInner r := by
  refine settles_bind (store_ok _) fun found _ => ?_
  cases found with
  | none => exact settles_bind (send_ok _ _ _) fun _ _ => control_settles _
  | some session =>
      dsimp only
      split
      · exact control_settles _
      · split
        · refine settles_bind (store_ok _) fun _ _ => ?_
          exact settles_bind (send_ok _ _ _) fun _ _ => control_settles _
        · split
          · exact fun retry => nomatch retry
          · exact settles_bind (store_ok _) fun _ _ => control_settles _

theorem receiveEncapsulated_spares (outer : Message) (senderKey : Key) (id : SessionId)
    (content : Encapsulated) :
    (e.receiveEncapsulated outer senderKey id content).Obeys rules s (Spares s hasInner) := by
  refine spares_bind (fun _ => True) (spares_quiet ((Intake.asks_store _).mpr rfl))
    (fun found => ?_) (fun _ _ lost => (lost trivial).elim)
  cases found with
  | none => exact spares_of_settles (refuse_settles _ _ _ _)
  | some stored =>
      dsimp only
      split
      · exact spares_of_settles (dropAndRefuse_settles e _ _ _)
      · split
        · exact spares_of_settles (dropAndRefuse_settles e _ _ _)
        · split
          · exact .inl rfl
          · split
            · exact spares_of_settles (dropAndRefuse_settles e _ _ _)
            · split
              · exact spares_of_settles (settles_bind (commit_ok e _) fun _ _ retry => nomatch retry)
              · exact .inl rfl

theorem receive_spares (outer : Message) (senderKey : Key) (envelope : Envelope) :
    (e.receive outer senderKey envelope).Obeys rules s (Spares s hasInner) := by
  unfold Endpoint.receive
  split
  · exact spares_of_settles (receiveDisabled_settles _ _)
  · cases envelope.frame with
    | init versions key => exact spares_of_settles (receiveInit_settles e _ _ _ _ _)
    | accept versions key => exact spares_of_settles (receiveAccept_settles e _ _ _ _)
    | encapsulated content => exact receiveEncapsulated_spares e _ _ _ _
    | reject rejected cause =>
        exact spares_of_settles (settles_bind (store_ok _) fun _ _ => control_settles _)
    | terminate cause =>
        exact spares_of_settles (settles_bind (store_ok _) fun _ _ => control_settles _)

end Endpoint

/-! ## The stages -/

section Stages

open Processor

variable (p : Processor) {s : Bool}

theorem senderKey_quiet (sender : Identity) :
    (senderKey sender).Asks fun r => r.isQuiet = true := by
  refine Intake.Asks.bind ((Intake.asks_request _).mpr rfl) fun answer => ?_
  split <;> trivial

theorem record_ok (sender : Identity) (id : MessageId) (typeByte : Option UInt8)
    (error : ProcessError) :
    (record sender id typeByte error).Obeys rules s fun _ r => ∃ a, r = .ok a :=
  ok_bind (request_ok _) fun _ _ => ⟨(), rfl⟩

theorem reject_settles {α : Type} {keeps : α → Prop} (sender : Identity) (id : MessageId)
    (typeByte : Option UInt8) {error : ProcessError} (settles : error.disposition ≠ .retry) :
    (reject sender id typeByte error).Obeys rules s fun _ r => Settles keeps r :=
  settles_bind (record_ok _ _ _ _) fun _ _ => settles

theorem decode_spares (boxed : Boxed) (key : Key) :
    (p.decode boxed key).Obeys rules s (Spares s fun _ => True) := by
  rw [decode_eq]
  cases opened : p.opening boxed key with
  | ok message => exact .inl rfl
  | error failure =>
      have settles : failure.2.disposition ≠ .retry := by
        revert opened
        unfold opening
        split
        · rintro ⟨⟩
          exact nofun
        · split
          · rintro ⟨⟩
            exact nofun
          · split
            · rintro ⟨⟩
              exact nofun
            · rintro ⟨⟩
      exact spares_of_settles (reject_settles _ _ _ settles)

theorem isBlocked_quiet (message : Message) :
    (isBlocked message).Asks fun r => r.isQuiet = true := by
  refine Intake.Asks.bind ((Intake.asks_host _).mpr rfl) fun blocked => ?_
  cases blocked with
  | false => trivial
  | true =>
      rw [if_neg (by decide)]
      split
      · exact Intake.Asks.bind ((Intake.asks_host _).mpr rfl) fun _ => trivial
      · trivial

theorem admission_spares (message : Message) :
    (p.admission message).Obeys rules s (Spares s (· = none)) := by
  have checked : (p.contentCheck message).Obeys rules s (Spares s (· = none)) := by
    unfold contentCheck
    split
    · exact .inl rfl
    · refine spares_of_settles (settles_bind (record_ok _ _ _ _) fun _ _ => ?_)
      exact Option.some_ne_none _
  rw [admission_eq]
  split
  · refine spares_bind (fun _ => True) (spares_quiet (isBlocked_quiet message))
      (fun blocked => ?_) (fun _ _ lost => (lost trivial).elim)
    cases blocked with
    | false => exact checked
    | true => exact .inl rfl
  · exact checked

/-- A change that the application makes, with or without a notice. -/
theorem change_settles (message : Message) (c : Change) (isTold : Bool) :
    (Handling.part message (.change c isTold)).Obeys rules s fun _ r => Settles never r := by
  cases isTold with
  | true =>
      refine settles_bind_settles (host_settles _) fun _ _ => ?_
      exact (Intake.obeys_notify _ _ _ _).mpr ⟨trivial, fun _ => id⟩
  | false => exact host_settles _

theorem handleByKind_spares (message : Message) :
    (handleByKind message).Obeys rules s (Spares s never) := by
  have fetches : ∀ t, (fetchBlobs message).Obeys rules t fun _ r => Settles never r := by
    intro t
    unfold fetchBlobs
    split
    · exact host_settles _
    · exact id
  rw [handleByKind_eq]
  refine spares_bind never ?_ (fun _ => spares_of_settles (fetches _))
    fun _ t _ => fetches t
  cases message.handling with
  | change c isTold => exact spares_of_settles (change_settles message c isTold)
  | notice n => exact spares_quiet ((Intake.asks_notify _).mpr rfl)
  | nothing => exact .inl rfl
  | failure e => exact .inl rfl

theorem dispatch_spares (message : Message) :
    (dispatch message).Obeys rules s (Spares s never) := by
  have byKind : (handleByKind message >>= fun _ => pure (Outcome.processed message)).Obeys
      rules s (Spares s never) :=
    spares_bind never (handleByKind_spares message) (fun _ => .inl rfl)
      fun _ _ _ => id
  unfold dispatch
  cases message.group? with
  | none => exact byKind
  | some group =>
      refine spares_bind (fun _ => True) (spares_quiet ((Intake.asks_host _).mpr rfl))
        (fun decision => ?_) (fun _ _ lost => (lost trivial).elim)
      cases decision with
      | handled => exact .inl rfl
      | declined => exact byKind

theorem handleInner_spares (outer inner : Message) :
    (p.handleInner outer inner).Obeys rules s (Spares s never) := by
  unfold handleInner
  split
  · refine spares_of_settles (reject_settles _ _ _ ?_)
    exact fun retry => nomatch retry
  · refine spares_of_settles (reject_settles _ _ _ ?_)
    exact fun retry => nomatch retry
  · refine spares_bind (· = none) (admission_spares p inner) (fun reason => ?_) fun reason t lost => ?_
    · cases reason with
      | none => exact dispatch_spares inner
      | some reason => exact .inl rfl
    · cases reason with
      | none => exact (lost rfl).elim
      | some reason => exact id

theorem isRecorded_settles {e : ProcessError} (recorded : isRecorded e = true) :
    e.disposition ≠ .retry := by
  cases e <;> first | exact (Bool.false_ne_true recorded).elim | exact fun retry => nomatch retry

theorem handleEnvelope_spares (outer : Message) (key : Key) (envelope : Envelope) :
    (p.handleEnvelope outer key envelope).Obeys rules s (Spares s never) := by
  unfold handleEnvelope
  rw [Intake.obeys_bind, Intake.obeys_attempt]
  refine (receive_spares p.endpoint outer key envelope).mono ?_
  intro t received spares
  cases received with
  | error e =>
      dsimp only [Intake.onward]
      by_cases recorded : isRecorded e = true
      · rw [if_pos recorded]
        exact spares_of_settles
          (settles_bind (record_ok _ _ _ _) fun _ _ => isRecorded_settles recorded)
      · rw [if_neg recorded]
        exact spares.imp id id
  | ok received =>
      dsimp only [Intake.onward]
      cases hasMessage : received.inner with
      | none => exact spares_of_settles (settles_bind_settles (host_settles _) fun _ _ => id)
      | some inner =>
          have same : t = s := by
            refine spares.resolve_right fun settles => settles ?_
            rw [hasInner, hasMessage]
            rfl
          subst same
          refine (Intake.obeys_bind _ _ _ _ _).mpr ((Intake.obeys_attempt _ _ _ _).mpr ?_)
          refine (handleInner_spares p outer inner).mono ?_
          intro u settled spares
          cases received.pending with
          | none => exact spares
          | some session =>
              cases settled with
              | ok outcome =>
                  exact spares_of_settles (settles_bind (commit_ok _ _) fun _ _ => id)
              | error e =>
                  dsimp only [Intake.onward]
                  by_cases retry : e.disposition = .retry
                  · rw [if_neg (not_not_intro retry)]
                    exact spares.imp id id
                  · rw [if_pos retry]
                    exact spares_of_settles (settles_bind (commit_ok _ _) fun _ _ => retry)

theorem isDowngrade_quiet (e : Endpoint) (sender : Identity) (message : Message) :
    (e.isDowngrade sender message).Asks fun r => r.isQuiet = true := by
  unfold Endpoint.isDowngrade
  split
  · trivial
  · exact Intake.Asks.bind ((Intake.asks_store _).mpr rfl) fun _ => trivial

theorem settle_spares (message : Message) (key : Key) :
    (p.settle message key).Obeys rules s (Spares s never) := by
  unfold settle
  split
  · exact handleEnvelope_spares p _ _ _
  · refine spares_bind (fun _ => True) (spares_quiet (isDowngrade_quiet _ _ _))
      (fun downgraded => ?_) (fun _ _ lost => (lost trivial).elim)
    cases downgraded with
    | false => exact dispatch_spares message
    | true =>
        exact spares_bind (fun _ => True) (spares_quiet ((Intake.asks_notify _).mpr rfl))
          (fun _ => dispatch_spares message) (fun _ _ lost => (lost trivial).elim)

theorem handle_spares (message : Message) (key : Key) (nonce : Bytes) :
    (p.handle message key nonce).Obeys rules s (Spares s never) := by
  rw [handle_eq]
  refine spares_bind (· = none) (admission_spares p message) (fun reason => ?_) fun reason t lost => ?_
  · cases reason with
    | some reason => exact .inl rfl
    | none =>
        refine spares_bind (fun _ => True) (spares_quiet ((Intake.asks_store _).mpr rfl))
          (fun seen => ?_) (fun _ _ lost => (lost trivial).elim)
        cases seen with
        | true => exact .inl rfl
        | false =>
            -- Once the message is settled the mark is made, and its failure is ignored.
            have marks : ∀ (outcome : Outcome) (t : Bool),
                (Intake.request (.store (.mark (p.nonceHash nonce))) >>= fun _ =>
                  pure outcome).Obeys rules t fun _ r => Settles never r :=
              fun outcome t => settles_bind (request_ok _) fun _ _ => id
            exact spares_bind never (settle_spares p message key)
              (fun outcome => spares_of_settles (marks outcome _)) fun outcome t _ => marks outcome t
  · cases reason with
    | none => exact (lost rfl).elim
    | some reason => exact id

theorem run_spares (boxed : Boxed) : (p.run boxed).Obeys rules s (Spares s never) := by
  have quietly : ∀ {α β : Type} {part : Intake α} {f : α → Intake β},
      (part.Asks fun r => r.isQuiet = true) → (∀ a, (f a).Obeys rules s (Spares s never)) →
        (part >>= f).Obeys rules s (Spares s never) :=
    fun quiet rest => spares_bind (fun _ => True) (spares_quiet quiet) rest
      fun _ _ lost => (lost trivial).elim
  refine quietly (senderKey_quiet _) fun key => ?_
  refine spares_bind (fun _ => True) (decode_spares p boxed key) (fun message => ?_)
    (fun _ _ lost => (lost trivial).elim)
  refine quietly ((Intake.asks_request _).mpr rfl) fun _ => ?_
  refine quietly ((Intake.asks_notify _).mpr rfl) fun _ => ?_
  refine (Intake.obeys_bind _ _ _ _ _).mpr ((Intake.obeys_attempt _ _ _ _).mpr ?_)
  refine (handle_spares p message key _).mono ?_
  intro t r spares
  cases r with
  | ok outcome =>
      refine spares_of_settles (settles_bind ?_ fun _ _ => settles_bind (request_ok _) fun _ _ => id)
      exact request_ok _
  | error e =>
      obtain rfl | settles := spares
      · exact quietly ((Intake.asks_request _).mpr rfl) fun _ => .inl rfl
      · exact spares_of_settles (settles_bind (request_ok _) fun _ _ => settles)

theorem process_spares (boxed : Boxed) :
    Script.Obeys rules (p.process boxed) s (Spares s never) := by
  have quiet : ∀ n : Notice, ∀ t, rules.after t ⟨.notice n, ()⟩ = t := fun n t => Bool.and_true t
  refine ⟨trivial, fun _ _ => ?_⟩
  rw [quiet]
  refine (Intake.obeys_run_bind _ _ _ _ _).mpr ((run_spares p boxed).mono ?_)
  intro t r spares
  cases r with
  | ok outcome => exact .inr id
  | error e =>
      refine ⟨trivial, fun _ _ => ?_⟩
      rw [quiet]
      exact spares.imp id id

end Stages

/-! ## Whole runs -/

theorem isQuiet_of_afterAll : ∀ (xs : List Exchange) {s : Bool},
    rules.afterAll s xs = true → s = true ∧ ∀ x ∈ xs, x.request.isQuiet = true := by
  intro xs
  induction xs with
  | nil =>
      intro s h
      exact ⟨h, fun x member => (List.not_mem_nil member).elim⟩
  | cons x xs ih =>
      intro s h
      obtain ⟨both, rest⟩ := ih (s := rules.after s x) h
      obtain ⟨clean, first⟩ := Bool.and_eq_true_iff.mp both
      refine ⟨clean, fun y member => ?_⟩
      rcases List.mem_cons.mp member with rfl | member
      · exact first
      · exact rest y member

theorem admitsAll_iff : ∀ (xs : List Exchange) {s : Bool},
    rules.AdmitsAll s xs ↔ ∀ x ∈ xs, x.succeeds := by
  intro xs
  induction xs with
  | nil => intro s; simp [Rules.AdmitsAll]
  | cons x xs ih => intro s; simp only [Rules.AdmitsAll, ih, List.forall_mem_cons]; rfl

/-- A call that is to be repeated has made quiet requests only. -/
theorem quiet_of_retry {σ : Type} (p : Processor) (boxed : Boxed) (suite : Suite) (host : Host σ)
    (w : World σ) (succeeds : ∀ x ∈ ((p.process boxed).run suite host w).exchanges, x.succeeds)
    {e : ProcessError} (failed : ((p.process boxed).run suite host w).value = .error e)
    (retry : e.disposition = .retry) :
    ∀ x ∈ ((p.process boxed).run suite host w).exchanges, x.request.isQuiet = true := by
  have ended := (process_spares p boxed (s := true)).run suite host w
    ((admitsAll_iff _).mpr succeeds)
  rw [failed] at ended
  exact (isQuiet_of_afterAll _ (ended.resolve_right fun settles => settles retry)).2

theorem stores_answer {σ : Type} (suite : Suite) (host : Host σ) (w : World σ) {r : Request}
    (quiet : r.isQuiet = true) :
    (w.answer suite host r).2.nonces = w.nonces ∧
      (w.answer suite host r).2.sessions = w.sessions := by
  cases r with
  | store c =>
      simp only [World.answer]
      split
      · exact ⟨rfl, rfl⟩
      · cases c <;> first | exact (Bool.false_ne_true quiet).elim | exact ⟨rfl, rfl⟩
  | record rejection => exact (Bool.false_ne_true quiet).elim
  | _ => exact ⟨rfl, rfl⟩

theorem stores_run {σ α : Type} (suite : Suite) (host : Host σ) (script : Script α) :
    ∀ w : World σ, (∀ x ∈ (script.run suite host w).exchanges, x.request.isQuiet = true) →
      (script.run suite host w).world.nonces = w.nonces ∧
        (script.run suite host w).world.sessions = w.sessions := by
  induction script with
  | done value => intro w _; exact ⟨rfl, rfl⟩
  | ask request next ih =>
      intro w quiet
      have first := stores_answer suite host w (quiet _ List.mem_cons_self)
      have rest := ih _ (w.answer suite host request).2
        fun x member => quiet x (List.mem_cons_of_mem _ member)
      exact ⟨rest.1.trans first.1, rest.2.trans first.2⟩

/-- Two histories in which the application answers the same question at the same place
in the same way. -/
def SameAnswers (xs ys : List Exchange) : Prop :=
  ∀ (n : Nat) (c : HostCall) (a b : Request.Answer (.host c)),
    xs[n]? = some ⟨.host c, a⟩ → ys[n]? = some ⟨.host c, b⟩ → a = b

theorem answer_store {σ : Type} (suite : Suite) (host : Host σ) (w : World σ) {c : StoreCall}
    (quiet : (Request.store c).isQuiet = true)
    (succeeds : Exchange.succeeds ⟨.store c, (w.answer suite host (.store c)).1⟩) :
    (w.answer suite host (.store c)).1 = (w.answerStore suite host c).1 := by
  simp only [World.answer] at succeeds ⊢
  split
  · next fault =>
      rw [fault] at succeeds
      exact succeeds.elim
  · cases c <;> first | exact (Bool.false_ne_true quiet).elim | rfl

section Again

variable {σ τ : Type} (suite : Suite) (host : Host σ) (other : Host τ)

/-- The answer to a quiet request is decided by what the stores hold and by what the
application answers. -/
theorem answer_again {w : World σ} {v : World τ} (nonces : v.nonces = w.nonces)
    (sessions : v.sessions = w.sessions) {r : Request} (quiet : r.isQuiet = true)
    (succeeds : Exchange.succeeds ⟨r, (w.answer suite host r).1⟩)
    (again : Exchange.succeeds ⟨r, (v.answer suite other r).1⟩)
    (same : ∀ (c : HostCall) (a b : Request.Answer (.host c)),
      (⟨r, (w.answer suite host r).1⟩ : Exchange) = ⟨.host c, a⟩ →
        (⟨r, (v.answer suite other r).1⟩ : Exchange) = ⟨.host c, b⟩ → a = b) :
    (v.answer suite other r).1 = (w.answer suite host r).1 := by
  cases r with
  | host c => exact (same c _ _ rfl rfl).symm
  | store c =>
      rw [answer_store suite host w quiet succeeds, answer_store suite other v quiet again]
      cases c with
      | seen hash => exact congrArg (fun n => Except.ok (n.contains hash)) nonces
      | best mine peer => exact congrArg (SessionStore.best suite mine peer) sessions
      | find key => exact congrArg (SessionStore.find suite key) sessions
      | _ => exact (Bool.false_ne_true quiet).elim
  | record rejection => exact (Bool.false_ne_true quiet).elim
  | draw d => exact (Bool.false_ne_true quiet).elim
  | now => exact (Bool.false_ne_true quiet).elim
  | _ => rfl

theorem run_again {α : Type} (script : Script α) : ∀ (w : World σ) (v : World τ),
    v.nonces = w.nonces → v.sessions = w.sessions →
    (∀ x ∈ (script.run suite host w).exchanges, x.request.isQuiet = true) →
    (∀ x ∈ (script.run suite host w).exchanges, x.succeeds) →
    (∀ x ∈ (script.run suite other v).exchanges, x.succeeds) →
    SameAnswers (script.run suite host w).exchanges (script.run suite other v).exchanges →
    (script.run suite other v).value = (script.run suite host w).value := by
  induction script with
  | done value => intro w v _ _ _ _ _ _; rfl
  | ask request next ih =>
      intro w v nonces sessions quiet succeeds again same
      simp only [Script.run] at quiet succeeds again same ⊢
      obtain ⟨quietFirst, quietRest⟩ := List.forall_mem_cons.mp quiet
      obtain ⟨succeedsFirst, succeedsRest⟩ := List.forall_mem_cons.mp succeeds
      have answer : (v.answer suite other request).1 = (w.answer suite host request).1 := by
        refine answer_again suite host other nonces sessions quietFirst succeedsFirst
          (again _ List.mem_cons_self) ?_
        intro c a b first second
        exact same 0 c a b (congrArg some first) (congrArg some second)
      rw [answer] at again same ⊢
      have kept := stores_answer suite host w quietFirst
      have keptAgain := stores_answer suite other v quietFirst
      refine ih _ _ _ (keptAgain.1.trans (nonces.trans kept.1.symm))
        (keptAgain.2.trans (sessions.trans kept.2.symm)) quietRest succeedsRest
        (List.forall_mem_cons.mp again).2 ?_
      intro n c a b first second
      exact same (n + 1) c a b first second

end Again

/-- While the stores and the transport do not fail, a message that is to be delivered
again leaves the nonce register and the sessions as they were, changes none of the
application's records, has no blobs fetched and sends nothing; and when it is processed
again, with the same answers of the application, it fails in the same way. -/
theorem retry_leaves_no_trace {σ τ : Type} (p : Processor) (boxed : Boxed) (suite : Suite)
    (host : Host σ) (w : World σ) (e : ProcessError) :
    let ran := (p.process boxed).run suite host w
    (∀ x ∈ ran.exchanges, x.succeeds) → ran.value = .error e → e.disposition = .retry →
      ran.world.nonces = w.nonces ∧ ran.world.sessions = w.sessions ∧
      (∀ x ∈ ran.exchanges, x.request.isQuiet = true) ∧
      ∀ (other : Host τ) (v : World τ),
        v.nonces = ran.world.nonces → v.sessions = ran.world.sessions →
        let again := (p.process boxed).run suite other v
        (∀ x ∈ again.exchanges, x.succeeds) → SameAnswers ran.exchanges again.exchanges →
          again.value = .error e := by
  intro ran succeeds failed retry
  have quiet := quiet_of_retry p boxed suite host w succeeds failed retry
  obtain ⟨nonces, sessions⟩ := stores_run suite host _ w quiet
  refine ⟨nonces, sessions, quiet, ?_⟩
  intro other v sameNonces sameSessions again succeedsAgain same
  have value := run_again suite host other (p.process boxed) w v (sameNonces.trans nonces)
    (sameSessions.trans sessions) quiet succeeds succeedsAgain same
  exact value.trans failed

/-- What can happen at an endpoint's state fails neither in a store nor in the transport. -/
theorem succeeds_of_answers {secrets : Key → Prop} {d : EndpointState} {x : Exchange}
    (answered : EndpointState.answers secrets d x) : x.succeeds := by
  obtain ⟨r, answer⟩ := x
  cases r with
  | store c =>
      cases answer with
      | ok value => trivial
      | error e => cases c <;> cases answered
  | host c =>
      cases c with
      | send peer envelope =>
          obtain rfl : answer = .ok () := answered
          trivial
      | _ => trivial
  | _ => trivial

theorem succeeds_of_state {secrets : Key → Prop} : ∀ {xs : List Exchange} {d : EndpointState},
    (EndpointState.rules secrets).AdmitsAll d xs → ∀ x ∈ xs, x.succeeds := by
  intro xs
  induction xs with
  | nil => exact fun _ x member => absurd member List.not_mem_nil
  | cons x xs ih =>
      intro d admitted
      exact List.forall_mem_cons.mpr ⟨succeeds_of_answers admitted.1, ih admitted.2⟩

theorem deliver_succeeds (w : World Unit) (memory : w.sessions = .memory .empty) (b : Boxed) :
    ∀ x ∈ (Setting.deliver w b).exchanges, x.succeeds := by
  have serves : (Host.plain Setting.peerKey).Serves fun _ => True := EndpointState.plain_serves trivial
  have keeps : EndpointState.Keeps w ⟨.empty, w.nonces, []⟩ := ⟨rfl, memory⟩
  exact succeeds_of_state (EndpointState.admits_run _ serves (Setting.processor.process b) keeps).1

/-- A member's farewell in a group that we do not know is declined each time. -/
theorem retry_leaves_no_trace_declined :
    let box := Setting.boxed (.groupLeave ⟨Block.zero 8, Setting.peer⟩) 7
    let ran := Setting.deliver .plain box
    ∃ e, ran.value = .error e ∧ e.disposition = .retry ∧ (∀ x ∈ ran.exchanges, x.succeeds) ∧
      ran.world.sessions = World.plain.sessions ∧
      (Setting.deliver ran.world box).value = .error e := by
  intro box ran
  obtain ⟨e, failed, retry⟩ := Setting.exists_retry
    (r := (Setting.deliver .plain (Setting.boxed (.groupLeave ⟨Block.zero 8, Setting.peer⟩) 7)).value)
    (by decide +kernel)
  have succeeds : ∀ x ∈ ran.exchanges, x.succeeds := deliver_succeeds .plain rfl box
  obtain ⟨nonces, sessions, _, again⟩ :=
    retry_leaves_no_trace (τ := Unit) Setting.processor box Setting.processor.endpoint.suite
      (.plain Setting.peerKey) .plain e succeeds failed retry
  have repeats := again (.plain Setting.peerKey) ran.world rfl rfl
    (deliver_succeeds ran.world sessions box) fun n c a b first second =>
      (Host.plain_answers _ _ _ _ n c a first).trans (Host.plain_answers _ _ _ _ n c b second).symm
  exact ⟨e, failed, retry, succeeds, sessions, repeats⟩

end Retry

end SecureInbox
