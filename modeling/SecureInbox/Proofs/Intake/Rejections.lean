import SecureInbox.Proofs.Intake.Refusals
import SecureInbox.Proofs.Intake.Retry
import SecureInbox.Proofs.Intake.Settled

/-! # What goes into the rejection log

Whatever a part of the pipeline comes to, the rejection log has been told of it once if that is a
rejection, and not at all otherwise (`Journal.Told`).  The stages keep to this one after the other,
so that a call adds one record to the log, of the message in the box and under the tag of what the
call ended with, or none (`rejection_logged_once`).  Only the session store may not fail: behind a
frame whose message was rejected its session is stored, and a failure there is what the call ends
with, although the rejection is in the log already. -/
set_option autoImplicit false

namespace SecureInbox

/-- The tag under which a failure goes into the rejection log, if it does. -/
def ProcessError.rejectionTag (e : ProcessError) : Option String :=
  match e with
  | .badFormat _ _ => some e.tag
  | .unknownType _ => some e.tag
  | .refused _ => some e.tag
  | _ => none

def DropReason.rejectionTag (reason : DropReason) : Option String :=
  match reason with
  | .invalidContent => some reason.tag
  | _ => none

def Outcome.rejectionTag : Outcome → Option String
  | .processed _ => none
  | .dropped reason => reason.rejectionTag

/-- The tag under which the end of a part goes into the rejection log, given that of its values. -/
def rejectionTag {α : Type} (ofValue : α → Option String) : Except ProcessError α → Option String
  | .ok a => ofValue a
  | .error e => e.rejectionTag

def Processor.rejectionTag (result : ProcessResult) : Option String :=
  SecureInbox.rejectionTag Outcome.rejectionTag result

namespace Exchange

def rejected : Exchange → Option Rejection
  | ⟨.record rejection, _⟩ => some rejection
  | _ => none

def sessionsHold : Exchange → Prop
  | ⟨.store (.seen _), _⟩ => True
  | ⟨.store (.mark _), _⟩ => True
  | ⟨.store _, .error _⟩ => False
  | _ => True

end Exchange

/-! ## Telling once -/

namespace Journal

/-- The state are the rejections that have gone into the log. -/
def rules : Rules (List Rejection) := .collecting Exchange.rejected Exchange.sessionsHold

/-- Whether a list of rejections has got one more, of this message and under this tag, or none if
there is no tag. -/
inductive Told (sender : Identity) (id : MessageId) (before : List Rejection) :
    Option String → List Rejection → Prop where
  | nothing : Told sender id before none before
  | once (tag : String) (typeByte : Option UInt8) (detail : Option String) :
      Told sender id before (some tag) (before ++ [⟨sender.text, id.hex, typeByte, tag, detail⟩])

def Tells {α : Type} (sender : Identity) (id : MessageId) (before : List Rejection)
    (ofValue : α → Option String) (after : List Rejection) (o : Except ProcessError α) : Prop :=
  Told sender id before (rejectionTag ofValue o) after

abbrev silent {α : Type} (_ : α) : Option String := none

def isUnlogged : Request → Prop
  | .record _ => False
  | _ => True

theorem rejected_unlogged {r : Request} (unlogged : isUnlogged r) (answer : r.Answer) :
    (⟨r, answer⟩ : Exchange).rejected = none := by
  cases r <;> first | rfl | exact unlogged.elim

section Parts

variable {α β : Type} {sender : Identity} {id : MessageId} {before now : List Rejection}
  {part : Intake α} {f : α → Intake β} {ofValue : α → Option String} {ofNext : β → Option String}

theorem obeys_unlogged {post : Except ProcessError α → Prop} (gives : part.Gives isUnlogged post) :
    part.Obeys rules now fun after o => after = now ∧ post o :=
  gives.obeys fun _ unlogged =>
    ⟨trivial, fun answer _ => Rules.after_collecting (rejected_unlogged unlogged answer) _⟩

/-- A part that does not ask for the log, and has nothing to tell it. -/
theorem tells_unlogged
    (gives : part.Gives isUnlogged fun o => rejectionTag ofValue o = none) :
    part.Obeys rules before (Tells sender id before ofValue) := by
  refine (obeys_unlogged gives).mono ?_
  rintro after o ⟨rfl, nothing⟩
  rw [Tells, nothing]
  exact .nothing

theorem tells_bind (first : part.Obeys rules now (Tells sender id before ofValue))
    (rest : ∀ a after, Told sender id before (ofValue a) after →
      (f a).Obeys rules after (Tells sender id before ofNext)) :
    (part >>= f).Obeys rules now (Tells sender id before ofNext) := by
  rw [Intake.obeys_bind]
  refine first.mono ?_
  intro after o told
  cases o with
  | error e => exact told
  | ok a => exact rest a after told

/-- A part that is followed by another after telling nothing. -/
theorem tells_silent_bind (first : part.Obeys rules before (Tells sender id before silent))
    (rest : ∀ a, (f a).Obeys rules before (Tells sender id before ofNext)) :
    (part >>= f).Obeys rules before (Tells sender id before ofNext) := by
  refine tells_bind first ?_
  rintro a _ ⟨⟩
  exact rest a

/-- A request that is not for the log, wherever the log stands. -/
theorem request_bind {r : Request} {f : r.Answer → Intake β}
    {post : List Rejection → Except ProcessError β → Prop} (unlogged : isUnlogged r)
    (rest : ∀ answer, Exchange.sessionsHold ⟨r, answer⟩ → (f answer).Obeys rules now post) :
    (Intake.request r >>= f).Obeys rules now post :=
  Intake.obeys_unpicked_bind (rejected_unlogged unlogged) rest

theorem gives_request (r : Request) (unlogged : isUnlogged r) :
    (Intake.request r).Gives isUnlogged fun o => rejectionTag silent o = none :=
  (Intake.obeys_request _ _ _ _).mpr ⟨unlogged, fun _ _ => rfl⟩

theorem gives_store (c : StoreCall) :
    (Intake.store c).Gives isUnlogged fun o => rejectionTag silent o = none := by
  refine (Intake.obeys_store _ _ _ _).mpr ⟨trivial, fun answer _ => ?_⟩
  cases answer <;> rfl

theorem gives_host (c : HostCall) :
    (Intake.host c).Gives isUnlogged fun o => rejectionTag silent o = none := by
  refine (Intake.obeys_host _ _ _ _).mpr ⟨trivial, fun answer _ => ?_⟩
  cases answer <;> rfl

/-- Parts without a rejection, one after the other. -/
theorem gives_bind (first : part.Gives isUnlogged fun o => rejectionTag silent o = none)
    (rest : ∀ a, (f a).Gives isUnlogged fun o => rejectionTag ofNext o = none) :
    (part >>= f).Gives isUnlogged fun o => rejectionTag ofNext o = none := by
  rw [Intake.Gives, Intake.obeys_bind]
  refine Intake.Obeys.mono first ?_
  intro _ o nothing
  cases o with
  | error e => exact nothing
  | ok a => exact rest a

end Parts

/-! ## The stages -/

section Stages

open Processor

variable (p : Processor) {sender : Identity} {id : MessageId} {before : List Rejection}

/-- A record of a failure, under its tag. -/
theorem record_bind {β : Type} {typeByte : Option UInt8} {e : ProcessError} {f : Unit → Intake β}
    {post : List Rejection → Except ProcessError β → Prop}
    (rest : (f ()).Obeys rules
      (before ++ [⟨sender.text, id.hex, typeByte, e.tag, some e.message⟩]) post) :
    (record sender id typeByte e >>= f).Obeys rules before post := by
  unfold record
  rw [bind_assoc, Intake.obeys_bind, Intake.obeys_request]
  exact ⟨trivial, fun _ _ => rest⟩

/-- A failure that goes into the log ends what it is a failure of. -/
theorem reject_tells {α : Type} {typeByte : Option UInt8} {e : ProcessError}
    {ofValue : α → Option String} (tagged : e.rejectionTag = some e.tag) :
    (reject (α := α) sender id typeByte e).Obeys rules before (Tells sender id before ofValue) := by
  refine record_bind ?_
  show Told sender id before e.rejectionTag _
  rw [tagged]
  exact .once _ _ _

theorem senderKey_unlogged (peer : Identity) :
    (senderKey peer).Gives isUnlogged fun o => rejectionTag silent o = none := by
  refine gives_bind (gives_request _ trivial) fun answer => ?_
  split <;> rfl

theorem opening_tagged {boxed : Boxed} {key : Key} {typeByte : Option UInt8} {e : ProcessError}
    (failed : p.opening boxed key = .error (typeByte, e)) : e.rejectionTag = some e.tag := by
  unfold opening at failed
  split at failed
  · cases failed
    rfl
  · split at failed
    · cases failed
      rfl
    · split at failed
      · cases failed
        rfl
      · cases failed

theorem isBlocked_unlogged (message : Message) :
    (isBlocked message).Gives isUnlogged fun o => rejectionTag silent o = none := by
  refine gives_bind (gives_host _) fun blocked => ?_
  cases blocked with
  | false => rfl
  | true =>
      rw [if_neg (by decide)]
      split
      · exact gives_bind (gives_host _) fun _ => rfl
      · rfl

def ofAdmission (dropped : Option DropReason) : Option String := dropped.bind DropReason.rejectionTag

theorem admission_tells (m : Message) :
    (p.admission m).Obeys rules before (Tells m.sender m.id before ofAdmission) := by
  have checked : (p.contentCheck m).Obeys rules before (Tells m.sender m.id before ofAdmission) := by
    unfold contentCheck
    split
    · exact .nothing
    · exact record_bind (.once _ _ _)
  rw [admission_eq]
  split
  · refine tells_silent_bind (tells_unlogged (isBlocked_unlogged m)) fun blocked => ?_
    cases blocked with
    | false => exact checked
    | true => exact .nothing
  · exact checked

/-- A message is handled without a rejection, unless it is of a kind that comes to no handler. -/
theorem handleByKind_unlogged {m : Message} (noEnvelope : ∀ envelope, m.body ≠ .envelope envelope)
    (known : ∀ typeByte content, m.body ≠ .unknown typeByte content) :
    (handleByKind m).Gives isUnlogged fun o => rejectionTag silent o = none := by
  have fetches : (fetchBlobs m).Gives isUnlogged fun o => rejectionTag silent o = none := by
    unfold fetchBlobs
    split
    · exact gives_host _
    · rfl
  rw [handleByKind_eq]
  refine gives_bind ?_ fun _ => fetches
  cases handling : m.handling with
  | change c isTold =>
      cases isTold with
      | true => exact gives_bind (gives_host _) fun _ => gives_request _ trivial
      | false => exact gives_host _
  | notice n => exact gives_request _ trivial
  | nothing => rfl
  | failure e =>
      show e.rejectionTag = none
      unfold Message.handling at handling
      split at handling <;> first
        | cases handling
          done
        | obtain rfl := Handling.failure.inj handling
          rfl
        | next body => exact (noEnvelope _ body).elim
        | next body => exact (known _ _ body).elim

theorem dispatch_unlogged {m : Message} (noEnvelope : ∀ envelope, m.body ≠ .envelope envelope)
    (known : ∀ typeByte content, m.body ≠ .unknown typeByte content) :
    (dispatch m).Gives isUnlogged fun o => rejectionTag Outcome.rejectionTag o = none := by
  have byKind : (do handleByKind m; return .processed m : Intake Outcome).Gives isUnlogged
      fun o => rejectionTag Outcome.rejectionTag o = none :=
    gives_bind (handleByKind_unlogged noEnvelope known) fun _ => rfl
  unfold dispatch
  cases m.group? with
  | none => exact byKind
  | some group =>
      refine gives_bind (gives_host _) fun decision => ?_
      cases decision with
      | handled => rfl
      | declined => exact byKind

/-- The message in a frame is told of as the message around it. -/
theorem handleInner_tells {outer inner : Message}
    (header : inner.sender = outer.sender ∧ inner.id = outer.id) :
    (p.handleInner outer inner).Obeys rules before
      (Tells outer.sender outer.id before Outcome.rejectionTag) := by
  unfold handleInner
  split
  · exact reject_tells rfl
  · exact reject_tells rfl
  · next noEnvelope known =>
    have admitted : (p.admission inner).Obeys rules before
        (Tells outer.sender outer.id before ofAdmission) := by
      rw [← header.1, ← header.2]
      exact admission_tells p inner
    refine tells_bind admitted ?_
    intro reason after told
    cases reason with
    | none =>
        cases told
        exact tells_unlogged (dispatch_unlogged noEnvelope known)
    | some reason => exact told

/-- The session store does not fail. -/
theorem sessions_bind {β : Type} {now : List Rejection} {c : StoreCall} {f : c.Answer → Intake β}
    {post : List Rejection → Except ProcessError β → Prop}
    (ofSessions : ∀ error, ¬Exchange.sessionsHold ⟨.store c, .error error⟩)
    (rest : ∀ answer, (f answer).Obeys rules now post) :
    (Intake.store c >>= f).Obeys rules now post := by
  unfold Intake.store
  rw [bind_assoc]
  refine request_bind trivial fun answer holds => ?_
  cases answer with
  | ok answer => exact rest answer
  | error error => exact (ofSessions error holds).elim

theorem commit_bind {β : Type} {now : List Rejection} {e : Endpoint} {session : Session}
    {f : Unit → Intake β} {post : List Rejection → Except ProcessError β → Prop}
    (rest : (f ()).Obeys rules now post) : (e.commit session >>= f).Obeys rules now post := by
  unfold Endpoint.commit
  rw [bind_assoc]
  refine sessions_bind (fun _ => id) fun _ => ?_
  exact sessions_bind (fun _ => id) fun _ => rest

theorem receive_unlogged (e : Endpoint) (outer : Message) (key : Key) (envelope : Envelope) :
    (e.receive outer key envelope).Gives isUnlogged fun o =>
      ∃ sent, Endpoint.Verdict e outer key envelope [] sent o :=
  ((e.receive_asks outer key envelope).mono fun r ofEndpoint => by
    cases r <;> first | exact trivial | exact ofEndpoint.elim).gives
    (Endpoint.receive_verdict e outer key envelope []) fun _ _ => trivial

theorem handleEnvelope_tells (outer : Message) (key : Key) (envelope : Envelope) :
    (p.handleEnvelope outer key envelope).Obeys rules before
      (Tells outer.sender outer.id before Outcome.rejectionTag) := by
  unfold handleEnvelope
  rw [Intake.obeys_bind, Intake.obeys_attempt]
  refine (obeys_unlogged (receive_unlogged _ _ _ _)).mono ?_
  rintro now o ⟨rfl, sent, verdict⟩
  cases verdict with
  | broken sent error => exact .nothing
  | waits sent reason => exact .nothing
  | unread sent fault => exact record_bind (.once _ _ _)
  | refused cause refusal which => exact record_bind (.once _ _ _)
  | unmade refusal enabled unmade => exact record_bind (.once _ _ _)
  | received sent received header =>
      dsimp only [Intake.onward]
      cases hasMessage : received.inner with
      | none => exact tells_unlogged (gives_bind (gives_host _) fun _ => rfl)
      | some inner =>
          refine (Intake.obeys_bind _ _ _ _ _).mpr ((Intake.obeys_attempt _ _ _ _).mpr ?_)
          refine (handleInner_tells p (header inner hasMessage)).mono ?_
          -- What has been told is also what the call ends with, since the session can be stored.
          intro after settled told
          cases received.pending with
          | none => exact told
          | some session =>
              cases settled with
              | ok outcome => exact commit_bind told
              | error e =>
                  dsimp only [Intake.onward]
                  split
                  · exact commit_bind told
                  · exact told

theorem isDowngrade_unlogged (e : Endpoint) (peer : Identity) (m : Message) :
    (e.isDowngrade peer m).Gives isUnlogged fun o => rejectionTag silent o = none := by
  unfold Endpoint.isDowngrade
  split
  · rfl
  · exact gives_bind (gives_store _) fun _ => rfl

theorem settle_tells {m : Message} (known : ∀ typeByte content, m.body ≠ .unknown typeByte content)
    (key : Key) : (p.settle m key).Obeys rules before
      (Tells m.sender m.id before Outcome.rejectionTag) := by
  unfold settle
  split
  · exact handleEnvelope_tells p _ _ _
  · next noEnvelope =>
    have dispatched := dispatch_unlogged noEnvelope known
    refine tells_unlogged (gives_bind (isDowngrade_unlogged _ _ _) fun downgraded => ?_)
    cases downgraded with
    | false => exact dispatched
    | true => exact gives_bind (gives_request _ trivial) fun _ => dispatched

theorem handle_tells {m : Message} (known : ∀ typeByte content, m.body ≠ .unknown typeByte content)
    (key : Key) (nonce : Bytes) : (p.handle m key nonce).Obeys rules before
      (Tells m.sender m.id before Outcome.rejectionTag) := by
  rw [handle_eq]
  refine tells_bind (admission_tells p m) ?_
  intro reason after told
  cases reason with
  | some reason => exact told
  | none =>
      cases told
      refine tells_silent_bind (tells_unlogged (gives_store _)) fun seen => ?_
      cases seen with
      | true => exact .nothing
      | false =>
          refine tells_bind (settle_tells p known key) fun outcome after told => ?_
          exact request_bind trivial fun _ _ => told

theorem run_tells (boxed : Boxed) : (p.run boxed).Obeys rules before
    (Tells boxed.sender boxed.id before Outcome.rejectionTag) := by
  refine tells_silent_bind (tells_unlogged (senderKey_unlogged _)) fun key => ?_
  rw [decode_eq]
  cases opened : p.opening boxed key with
  | error failure => exact reject_tells (opening_tagged p opened)
  | ok m =>
      obtain ⟨_, _, known⟩ := opening_ok opened
      have handled : (p.handle m key boxed.nonce.bytes).Obeys rules before
          (Tells boxed.sender boxed.id before Outcome.rejectionTag) := by
        rw [← (opening_header opened).1, ← (opening_header opened).2]
        exact handle_tells p known key boxed.nonce.bytes
      refine request_bind (r := .enter boxed.sender) trivial fun _ _ => ?_
      refine request_bind (r := .notice (.started m)) trivial fun _ _ => ?_
      refine (Intake.obeys_bind _ _ _ _ _).mpr ((Intake.obeys_attempt _ _ _ _).mpr ?_)
      refine handled.mono ?_
      intro after o told
      cases o with
      | error e => exact request_bind (r := .leave boxed.sender) trivial fun _ _ => told
      | ok outcome =>
          refine request_bind (r := .notice (.finished m)) trivial fun _ _ => ?_
          exact request_bind (r := .leave boxed.sender) trivial fun _ _ => told

theorem process_tells (before : List Rejection) (boxed : Boxed) : Script.Obeys rules (p.process boxed) before
    (Tells boxed.sender boxed.id before Outcome.rejectionTag) := by
  have quiet : ∀ (n : Notice) (now : List Rejection), rules.after now ⟨.notice n, ()⟩ = now :=
    fun n now => Rules.after_collecting (rejected_unlogged (r := .notice n) trivial ()) now
  refine ⟨trivial, fun _ _ => ?_⟩
  rw [quiet]
  refine (Intake.obeys_run_bind _ _ _ _ _).mpr ((run_tells p boxed).mono ?_)
  intro after o told
  cases o with
  | ok outcome => exact told
  | error e =>
      refine ⟨trivial, fun _ _ => ?_⟩
      rw [quiet]
      exact told

end Stages

end Journal

/-! ## The log behind it -/

def RejectionLog.appendAll (log : RejectionLog) (entries : List (Instant × Rejection)) : RejectionLog :=
  entries.foldl (fun log entry => (log.append entry.1 entry.2).2) log

section Worlds

variable {σ α : Type} (suite : Suite) (host : Host σ)

theorem World.log_answer {w : World σ} {log : RejectionLog} (logged : w.log = some log) (r : Request) :
    ∃ entries : List (Instant × Rejection),
      entries.map Prod.snd = (Exchange.rejected ⟨r, (w.answer suite host r).1⟩).toList ∧
        (w.answer suite host r).2.log = some (log.appendAll entries) := by
  cases r with
  | record rejection =>
      refine ⟨[((host.now w.host).1, rejection)], rfl, ?_⟩
      simp only [World.answer, logged]
      rfl
  | store c =>
      refine ⟨[], rfl, ?_⟩
      simp only [World.answer]
      split
      · exact logged
      · cases c with
        | put session =>
            simp only [World.answerStore]
            split <;> exact logged
        | _ => exact logged
  | _ => exact ⟨[], rfl, logged⟩

/-- A run appends to the log the rejections that it puts there, in their order. -/
theorem Script.log_run (script : Script α) : ∀ {w : World σ} {log : RejectionLog}, w.log = some log →
    ∃ entries : List (Instant × Rejection),
      entries.map Prod.snd = (script.run suite host w).exchanges.filterMap Exchange.rejected ∧
        (script.run suite host w).world.log = some (log.appendAll entries) := by
  induction script with
  | done value => exact fun logged => ⟨[], rfl, logged⟩
  | ask request next ih =>
      intro w log logged
      obtain ⟨first, same, now⟩ := World.log_answer suite host logged request
      obtain ⟨rest, others, last⟩ := ih (w.answer suite host request).1 now
      refine ⟨first ++ rest, ?_, ?_⟩
      · rw [List.map_append, same, others, run, List.filterMap_cons]
        cases Exchange.rejected ⟨request, (w.answer suite host request).1⟩ <;> rfl
      · rw [run, last, RejectionLog.appendAll, RejectionLog.appendAll, RejectionLog.appendAll,
          List.foldl_append]

end Worlds

/-- While the session store does not fail, a call whose end is a rejection appends exactly one
record to the log, which names the sender and the identifier of the box and has the tag of that end
as its reason; every other call leaves the log as it is. -/
theorem rejection_logged_once {σ : Type} (p : Processor) (boxed : Boxed) (suite : Suite)
    (host : Host σ) (w : World σ) (log : RejectionLog) (logged : w.log = some log) :
    let ran := (p.process boxed).run suite host w
    (∀ x ∈ ran.exchanges, x.sessionsHold) →
      (∀ tag, Processor.rejectionTag ran.value = some tag →
        ∃ now rejection, ran.world.log = some (log.append now rejection).2 ∧
          rejection.sender = boxed.sender.text ∧ rejection.messageId = boxed.id.hex ∧
            rejection.reason = tag) ∧
      (Processor.rejectionTag ran.value = none → ran.world.log = some log) := by
  intro ran holds
  have told := (Journal.process_tells p [] boxed).run suite host w
    (Rules.admitsAll_of_mem (fun x member _ => holds x member) _)
  obtain ⟨entries, same, after⟩ := (p.process boxed).log_run suite host logged
  rw [show Journal.rules.afterAll [] ran.exchanges = [] ++ ran.exchanges.filterMap Exchange.rejected from
    Rules.afterAll_collecting _ _ _ _, List.nil_append, ← same] at told
  rw [after]
  change Journal.Told boxed.sender boxed.id [] (Processor.rejectionTag ran.value) _ at told
  generalize Processor.rejectionTag ran.value = ended at told ⊢
  generalize mapped : entries.map Prod.snd = rejections at told
  cases told with
  | nothing =>
      obtain rfl := List.map_eq_nil_iff.mp mapped
      exact ⟨fun _ other => (nomatch other), fun _ => rfl⟩
  | once tag typeByte detail =>
      obtain ⟨⟨now, _⟩, rfl, rfl⟩ := List.map_eq_singleton_iff.mp mapped
      refine ⟨?_, fun other => (nomatch other)⟩
      rintro _ ⟨⟩
      exact ⟨now, _, rfl, rfl, rfl, rfl⟩

section Example

def loggedWorld : World Unit := { plainWorld [] with log := some (.empty "intake.log" 512) }

theorem loggedWorld_holds (b : Boxed) :
    ∀ x ∈ (Setting.deliver loggedWorld b).exchanges, x.sessionsHold := by
  intro x member
  have serves : (Host.plain Setting.peerKey).Serves fun _ => True := EndpointState.plain_serves trivial
  have keeps : EndpointState.Keeps loggedWorld (.single plainSession) := ⟨rfl, rfl⟩
  have succeeds := Retry.succeeds_of_state
    (EndpointState.admits_run .plain serves (Setting.processor.process b) keeps).1 x member
  obtain ⟨r, answer⟩ := x
  cases r with
  | store c =>
      cases answer with
      | error error => exact succeeds.elim
      | ok answer => cases c <;> trivial
  | _ => trivial

/-- An unreadable message in a frame is logged once, although its frame was opened. -/
theorem rejection_logged_unreadable : ∃ now rejection,
    (Setting.deliver loggedWorld unreadable.boxed).world.log =
        some ((RejectionLog.empty "intake.log" 512).append now rejection).2 ∧
      rejection.sender = "BBBBBBBB" ∧ rejection.reason = "unknown_message_type" := by
  have fails : (Setting.deliver loggedWorld unreadable.boxed).value = .error (.unknownType 0xee) :=
    Setting.eq_error (by decide +kernel)
  have tagged : Processor.rejectionTag (Setting.deliver loggedWorld unreadable.boxed).value =
      some "unknown_message_type" := by
    rw [fails]
    rfl
  obtain ⟨now, rejection, appended, sender, _, reason⟩ :=
    (rejection_logged_once Setting.processor unreadable.boxed Setting.processor.endpoint.suite
      (.plain Setting.peerKey) loggedWorld (.empty "intake.log" 512) rfl (loggedWorld_holds _)).1
      _ tagged
  exact ⟨now, rejection, appended, sender.trans (by decide +kernel), reason⟩

end Example

end SecureInbox
