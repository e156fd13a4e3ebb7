import SecureInbox.Proofs.Intake.Admitted
import SecureInbox.Proofs.Intake.Settled
import SecureInbox.Proofs.Script.Refinement
import SecureInbox.Proofs.Wire.Body

/-! # Two ways to the application

The same content can come in a box of its own or in a frame in a box.  What the application
sees of either call is what it sees of one script, `Processor.outline`: both calls refine it
(`direct_refines`, `framed_refines`).  So the application is asked and told the same in the same
order, and the calls come to the same (`routes_agree`). -/
set_option autoImplicit false

namespace SecureInbox

/-! ## What the application sees -/

/-- Whether a request is one that the application, its contacts and groups see: all that they are
asked, and what they are told about the content of a message. -/
def Request.isObserved : Request → Bool
  | .host (.send _ _) => false
  | .host _ => true
  | .notice (.changed _) => true
  | .notice (.typing _ _) => true
  | .notice (.call _ _) => true
  | _ => false

def observed (xs : List Exchange) : List Exchange := xs.filter fun x => x.request.isObserved

theorem Request.unobserved_of_ofEndpoint {r : Request} (ofEndpoint : r.ofEndpoint) :
    r.isObserved = false := by
  cases r with
  | host c => cases c <;> first | rfl | exact ofEndpoint.elim
  | notice n => exact ofEndpoint.elim
  | _ => rfl

theorem Message.Serves.isObserved {m : Message} {r : Request} (serves : m.Serves r) :
    r.isObserved = true := by
  cases serves with
  | notice n handling =>
      unfold Message.handling at handling
      split at handling <;> first | cases handling; rfl | cases handling
  | _ => rfl

/-- What the application sees leaves the stores as they are. -/
theorem StoreView.after_observed (r : StoreView) (request : Request) (seen : request.isObserved = true)
    (answer : request.Answer) : r.after ⟨request, answer⟩ = r := by
  cases request with
  | host c => cases c <;> first | rfl | cases seen
  | store c => cases seen
  | _ => rfl

namespace Processor

open Intake (Asks)

theorem dispatch_observed (m : Message) : Asks (fun r => r.isObserved = true) (dispatch m) :=
  (dispatch_serves m).mono fun _ serves => serves.isObserved

theorem isBlocked_observed (m : Message) : Asks (fun r => r.isObserved = true) (isBlocked m) :=
  isBlocked_asks_only m rfl fun _ => rfl

/-! ## The outline of a call -/

/-- What is done with a message that is no envelope, as far as it is observed. -/
def accept (p : Processor) (m : Message) : Intake Outcome := do
  if ← isBlocked m then return .dropped .blockedSender
  if m.hasValidContent p.limits then dispatch m else return .dropped .invalidContent

def acceptBox (p : Processor) (boxed : Boxed) (key : Key) : Intake Outcome := do
  p.accept (← Intake.ofExcept ((p.opening boxed key).mapError Prod.snd))

/-- What is done with a box that holds no envelope, as far as it is observed. -/
def outline (p : Processor) (boxed : Boxed) : Intake Outcome := do
  p.acceptBox boxed (← senderKey boxed.sender)

variable {p : Processor} {boxed : Boxed} {key : Key} {m : Message}

theorem acceptBox_error {typeByte : Option UInt8} {e : ProcessError}
    (opening : p.opening boxed key = .error (typeByte, e)) : p.acceptBox boxed key = throw e := by
  unfold acceptBox
  rw [opening]
  rfl

theorem acceptBox_ok (opening : p.opening boxed key = .ok m) : p.acceptBox boxed key = p.accept m := by
  unfold acceptBox
  rw [opening]
  rfl

end Processor

/-! ## Stages that refine theirs -/

namespace StoreView

open Intake (Refines)

variable {helps : Exchange → Prop} {r : StoreView} {p : Processor} {m : Message}
variable {post : ProcessResult → ProcessResult → Prop} {core : Intake Outcome}

def NeverFails (helps : Exchange → Prop) : Prop :=
  ∀ (c : StoreCall) (error : StoreError), ¬helps ⟨.store c, .error error⟩

/-- Whether the application sees of a part what it sees of another one. -/
abbrev Shows (helps : Exchange → Prop) (post : ProcessResult → ProcessResult → Prop)
    (part core : Intake Outcome) (r : StoreView) : Prop :=
  Refines (rules helps) Request.isObserved post part core r

theorem skip_store {c : StoreCall} {f : c.Answer → Intake Outcome} (works : NeverFails helps)
    (rest : ∀ a, r.answers ⟨.store c, .ok a⟩ →
      Shows helps post (f a) core (r.after ⟨.store c, .ok a⟩)) :
    Shows helps post (Intake.store c >>= f) core r := by
  refine Refines.skip_bind ((Intake.asks_store c).mpr rfl)
    ((Intake.obeys_store _ _ _ _).mpr ⟨trivial, ?_⟩)
  rintro answer ⟨true, helpful⟩
  cases answer with
  | ok a => exact ⟨a, rfl, rest a true⟩
  | error error => exact (works c error helpful).elim

theorem dispatch_refines : Shows helps Eq (Processor.dispatch m) (Processor.dispatch m) r :=
  .self (Processor.dispatch_observed m) (after_observed r)

/-- Admission and what follows it refine the acceptance of a message. -/
theorem admission_refines {next : Option DropReason → Intake Outcome}
    (noEnvelope : ∀ envelope, m.body ≠ .envelope envelope)
    (dropped : ∀ reason, next (some reason) = pure (.dropped reason))
    (rest : Shows helps Eq (next none) (Processor.dispatch m) r) :
    Shows helps Eq (p.admission m >>= next) (p.accept m) r := by
  rw [Processor.admission_eq, Processor.isEnvelope_false noEnvelope]
  show Shows helps Eq ((Processor.isBlocked m >>= _) >>= next) (p.accept m) r
  rw [bind_assoc]
  refine Refines.same_bind (Processor.isBlocked_observed m) (after_observed r) ?_ fun _ => rfl
  intro blocked
  cases blocked with
  | true =>
      show Shows helps Eq (next (some .blockedSender)) _ r
      rw [dropped]
      exact .done rfl
  | false =>
      show Shows helps Eq (p.contentCheck m >>= next) _ r
      unfold Processor.contentCheck
      split
      · exact rest
      · refine Refines.skip_request rfl fun _ _ => ?_
        show Shows helps Eq (next (some .invalidContent)) _ r
        rw [dropped]
        exact .done rfl

theorem settle_refines {key : Key} (works : NeverFails helps)
    (noEnvelope : ∀ envelope, m.body ≠ .envelope envelope) :
    Shows helps Eq (p.settle m key) (Processor.dispatch m) r := by
  have downgraded : ∀ b : Bool, Shows helps Eq
      (do if b then Intake.notify (.downgraded m.sender m)
          Processor.dispatch m : Intake Outcome) (Processor.dispatch m) r := by
    intro b
    cases b with
    | true => exact Refines.skip_request rfl fun _ _ => dispatch_refines
    | false => exact dispatch_refines
  unfold Processor.settle
  split
  · next envelope body => exact (noEnvelope envelope body).elim
  · unfold Endpoint.isDowngrade
    split
    · exact downgraded false
    · rw [bind_assoc]
      refine skip_store works fun best _ => ?_
      exact downgraded _

/-- A message that is no envelope, under a nonce that is not known. -/
theorem handle_refines {key : Key} {nonce : Bytes} (works : NeverFails helps)
    (noEnvelope : ∀ envelope, m.body ≠ .envelope envelope)
    (unused : r.register.contains (p.nonceHash nonce) = false) :
    Shows helps Eq (p.handle m key nonce) (p.accept m) r := by
  rw [Processor.handle_eq]
  refine admission_refines noEnvelope (fun _ => rfl) ?_
  refine skip_store works fun seen true => ?_
  obtain rfl : seen = false := true.trans unused
  rw [if_neg Bool.false_ne_true]
  refine Refines.bind_last (settle_refines works noEnvelope) ?_ fun _ _ same => same
  rintro t outcome _ rfl
  exact Refines.skip_request rfl fun _ _ => .done rfl

/-- A call refines what begins with the same look-up of a key, if it does so for each box that
it opens and for each that it does not. -/
theorem run_refines {boxed : Boxed} {core : Key → Intake Outcome}
    (unknown : ∀ reason, post (.error (.senderUnknown boxed.sender.text reason))
      (.error (.senderUnknown boxed.sender.text reason)))
    (unopened : ∀ key typeByte e, helps ⟨.host (.publicKey boxed.sender), .ok (some key)⟩ →
      p.opening boxed key = .error (typeByte, e) → Shows helps post (throw e) (core key) r)
    (opened : ∀ key m, helps ⟨.host (.publicKey boxed.sender), .ok (some key)⟩ →
      p.opening boxed key = .ok m →
        Shows helps post (p.handle m key boxed.nonce.bytes) (core key) r) :
    Shows helps post (p.run boxed) (Processor.senderKey boxed.sender >>= core) r := by
  unfold Processor.run Processor.senderKey
  rw [bind_assoc, bind_assoc]
  refine .seen rfl fun answer admitted => ?_
  match answer with
  | .error error => exact .done (unknown _)
  | .ok none => exact .done (unknown _)
  | .ok (some key) =>
      show Shows helps post (p.decode boxed key >>= _) (core key) r
      rw [Processor.decode_eq]
      cases opening : p.opening boxed key with
      | error failure =>
          exact Refines.skip_request rfl fun _ _ => unopened key _ _ admitted.2 opening
      | ok m =>
          dsimp only
          rw [pure_bind]
          refine Refines.skip_request rfl fun _ _ => Refines.skip_request rfl fun _ _ => ?_
          refine Refines.attempt_bind (opened key m admitted.2 opening) ?_
          intro t o c holds
          cases o with
          | error e => exact Refines.skip_request rfl fun _ _ => .done holds
          | ok outcome =>
              exact Refines.skip_request rfl fun _ _ => Refines.skip_request rfl fun _ _ => .done holds

theorem process_refines {boxed : Boxed} (ran : Shows helps post (p.run boxed) core r) :
    Script.Refines (rules helps) Request.isObserved post (p.process boxed) core.run r := by
  refine .unseen rfl fun _ _ => ?_
  show Script.Refines _ _ post ((p.run boxed).run.andThen _) _ r
  rw [← Script.andThen_done core.run]
  refine Script.Refines.andThen ran ?_
  intro t o c holds
  cases o with
  | ok outcome => exact .done holds
  | error e => exact .unseen rfl fun _ _ => .done holds

/-- A call for a box that holds no envelope, under a nonce that is not known. -/
theorem direct_refines {boxed : Boxed} (works : NeverFails helps)
    (noEnvelope : ∀ key m, helps ⟨.host (.publicKey boxed.sender), .ok (some key)⟩ →
      p.opening boxed key = .ok m → ∀ envelope, m.body ≠ .envelope envelope)
    (unused : r.register.contains (p.nonceHash boxed.nonce.bytes) = false) :
    Script.Refines (rules helps) Request.isObserved Eq (p.process boxed) (p.outline boxed).run r := by
  refine process_refines (run_refines (fun _ => rfl) ?_ ?_)
  · intro key typeByte e _ opening
    rw [Processor.acceptBox_error opening]
    exact .done rfl
  · intro key m resolved opening
    rw [Processor.acceptBox_ok opening]
    exact handle_refines works (noEnvelope key m resolved opening) unused

end StoreView

/-! ## The same content in two boxes -/

/-- A content in a box of its own, and in a frame in a box. -/
structure BoxedTwice where
  key : Key
  typeByte : UInt8
  content : Bytes
  direct : Boxed
  framed : Boxed
  session : SessionId
  frame : Encapsulated

/-- Whether two calls come to the same, or both to a fault of format, which may be worded in
another way. -/
def Alike (o o' : ProcessResult) : Prop :=
  o = o' ∨ ∃ sender reason reason', o = .error (.badFormat sender reason) ∧
    o' = .error (.badFormat sender reason')

namespace BoxedTwice

/-- Whether the boxes hold what they are to hold, under one header and new nonces, and the frame
is an authentic one of a session that is filed. -/
structure Fit (p : Processor) (r : StoreView) (w : BoxedTwice) : Prop where
  enabled : p.endpoint.policy.enabled = true
  header : w.framed.withBody = w.direct.withBody
  noEnvelope : w.typeByte ≠ 0xa0
  direct : ∃ plaintext,
    p.endpoint.suite.boxOpen p.endpoint.secret w.key w.direct.nonce w.direct.content = .ok plaintext ∧
      Padding.decode plaintext = .ok (w.typeByte, w.content)
  framed : w.framed.message p.endpoint.suite p.endpoint.secret w.key =
    .ok (w.framed.withBody (.envelope ⟨w.session, .encapsulated w.frame⟩))
  frame : ∃ s plaintext t,
    r.filed (p.endpoint.sessionKey w.framed.sender w.session) = some s ∧
      p.endpoint.Authentic w.key w.frame s plaintext t ∧
        Padding.decode plaintext = .ok (w.typeByte, w.content)
  group : ∀ body, Body.decode w.typeByte w.content = .ok body →
    (w.direct.withBody body).group? = w.frame.group
  unused : r.register.contains (p.nonceHash w.direct.nonce.bytes) = false
  unusedFramed : r.register.contains (p.nonceHash w.framed.nonce.bytes) = false

end BoxedTwice

theorem Body.decode_noEnvelope {typeByte : UInt8} {content : Bytes} {body : Body}
    (other : typeByte ≠ 0xa0) (decoded : Body.decode typeByte content = .ok body)
    (envelope : Envelope) : body ≠ .envelope envelope := by
  rintro rfl
  have kind := Body.kind?_of_decode decoded
  exact other (Kind.byte_of_ofByte? kind.symm).symm

namespace Processor

/-- A box of its own holds what came of a frame: a message that is no envelope, or nothing that
can be read. -/
inductive Mirrors (p : Processor) (boxed : Boxed) (key : Key) : Except FormatFault Message → Prop where
  | unread (fault : FormatFault) {e : OpenError}
      (unread : boxed.message p.endpoint.suite p.endpoint.secret key = .error e) :
      Mirrors p boxed key (.error fault)
  | read (inner : Message) (read : boxed.message p.endpoint.suite p.endpoint.secret key = .ok inner)
      (noEnvelope : ∀ envelope, inner.body ≠ .envelope envelope) : Mirrors p boxed key (.ok inner)

end Processor

namespace BoxedTwice

variable {p : Processor} {r : StoreView} {w : BoxedTwice}

theorem Fit.sender (fit : w.Fit p r) : w.framed.sender = w.direct.sender :=
  congrArg Message.sender (congrFun fit.header .empty)

theorem Fit.receiver (fit : w.Fit p r) : w.framed.receiver = w.direct.receiver :=
  congrArg Message.receiver (congrFun fit.header .empty)

theorem Fit.direct_message (fit : w.Fit p r) :
    w.direct.message p.endpoint.suite p.endpoint.secret w.key =
      ((Body.decode w.typeByte w.content).mapError OpenError.format).map w.direct.withBody := by
  obtain ⟨plaintext, opened, unpadded⟩ := fit.direct
  exact Boxed.message_of_unpadded opened unpadded

theorem Fit.direct_noEnvelope (fit : w.Fit p r) {m : Message}
    (read : w.direct.message p.endpoint.suite p.endpoint.secret w.key = .ok m) (envelope : Envelope) :
    m.body ≠ .envelope envelope := by
  rw [fit.direct_message] at read
  cases decoded : Body.decode w.typeByte w.content with
  | error e =>
      rw [decoded] at read
      cases read
  | ok body =>
      rw [decoded] at read
      obtain rfl := Except.ok.inj read
      exact Body.decode_noEnvelope fit.noEnvelope decoded envelope

theorem Fit.mirrors (fit : w.Fit p r) {plaintext : Bytes}
    (unpadded : Padding.decode plaintext = .ok (w.typeByte, w.content)) (around : Body) :
    p.Mirrors w.direct w.key
      (Endpoint.innerMessage (w.framed.withBody around) plaintext w.frame.group) := by
  have direct := fit.direct_message
  rw [Endpoint.innerMessage_of_unpadded unpadded]
  cases decoded : Body.decode w.typeByte w.content with
  | error e =>
      rw [decoded] at direct
      exact .unread _ direct
  | ok body =>
      rw [decoded] at direct
      have same : ({ w.framed.withBody around with body } : Message) = w.direct.withBody body :=
        congrFun fit.header body
      dsimp only
      rw [same, if_pos (fit.group body decoded)]
      exact .read _ direct (Body.decode_noEnvelope fit.noEnvelope decoded)

end BoxedTwice

namespace StoreView

open Intake (Refines)

variable {helps : Exchange → Prop} {r : StoreView} {p : Processor} {boxed : Boxed} {key : Key}
variable {post : ProcessResult → ProcessResult → Prop} {core : Intake Outcome}

theorem handleInner_refines {outer inner : Message} (addressed : boxed.receiver = p.endpoint.identity)
    (read : boxed.message p.endpoint.suite p.endpoint.secret key = .ok inner)
    (noEnvelope : ∀ envelope, inner.body ≠ .envelope envelope) :
    Shows helps Eq (p.handleInner outer inner) (p.acceptBox boxed key) r := by
  unfold Processor.handleInner
  split
  · next envelope body => exact (noEnvelope envelope body).elim
  · next typeByte content body =>
    rw [Processor.acceptBox_error (Processor.opening_unknown addressed read body)]
    exact Refines.skip_request rfl fun _ _ => .done rfl
  · next known =>
    rw [Processor.acceptBox_ok (Processor.opening_known addressed read known)]
    exact admission_refines noEnvelope (fun _ => rfl) dispatch_refines

theorem skip_commit {s : Session} {f : Unit → Intake Outcome} (works : NeverFails helps)
    (rest : ∀ t, Shows helps post (f ()) core t) :
    Shows helps post (p.endpoint.commit s >>= f) core r := by
  refine Refines.skip_bind ((p.endpoint.commit_asks s).mono fun _ => Request.unobserved_of_ofEndpoint)
    (Endpoint.commit_view.mono ?_)
  rintro t o (⟨rfl, _⟩ | ⟨call, error, helpful, _⟩)
  · exact ⟨(), rfl, rest t⟩
  · exact (works call error helpful).elim

theorem settleInner_refines {outer inner : Message} {t : Session} (works : NeverFails helps)
    (inside : Shows helps Eq (p.handleInner outer inner) core r) :
    Shows helps Eq (p.settleInner outer inner t) core r := by
  unfold Processor.settleInner
  refine Refines.attempt_bind inside ?_
  rintro u settled _ rfl
  cases settled with
  | error e =>
      dsimp only
      split
      · exact skip_commit works fun _ => .done rfl
      · exact .done rfl
  | ok outcome => exact skip_commit works fun _ => .done rfl

/-- A message in an authentic frame is treated like one in a box of its own. -/
theorem handleEnvelope_refines {outer : Message} {id : SessionId} {content : Encapsulated}
    {s t : Session} {plaintext : Bytes} (works : NeverFails helps)
    (enabled : p.endpoint.policy.enabled = true)
    (found : r.filed (p.endpoint.sessionKey outer.sender id) = some s)
    (authentic : p.endpoint.Authentic key content s plaintext t)
    (addressed : boxed.receiver = p.endpoint.identity) (sender : outer.sender = boxed.sender)
    (inside : p.Mirrors boxed key (Endpoint.innerMessage outer plaintext content.group)) :
    Shows helps (fun o c => Alike c o) (p.handleEnvelope outer key ⟨id, .encapsulated content⟩)
      (p.acceptBox boxed key) r := by
  unfold Processor.handleEnvelope
  refine Refines.skip_attempt ((p.endpoint.receive_asks outer key _).mono fun _ =>
    Request.unobserved_of_ofEndpoint) ?_
  rw [Endpoint.receive_encapsulated enabled]
  refine (Endpoint.receiveEncapsulated_reading found authentic).mono ?_
  intro u o reading
  cases reading with
  | broken call error admitted => exact (works call error admitted).elim
  | unread fault failed =>
      rw [failed] at inside
      cases inside with
      | unread _ unread =>
          rw [Processor.acceptBox_error (Processor.opening_unread addressed unread), sender]
          exact Refines.skip_request rfl fun _ _ => .done (.inr ⟨_, _, _, rfl, rfl⟩)
  | opened inner opened =>
      rw [opened] at inside
      cases inside with
      | read _ read noEnvelope =>
          have settled : Shows helps Eq (p.settleInner outer inner t) (p.acceptBox boxed key) r :=
            settleInner_refines works (handleInner_refines addressed read noEnvelope)
          exact Script.Refines.mono settled fun _ _ same => .inl same.symm

/-- A call for a box with an authentic frame, under a nonce that is not known, refines what is
done with the other box of its content. -/
theorem framed_refines {w : BoxedTwice} (fit : w.Fit p r) (works : NeverFails helps)
    (resolves : ∀ x, helps x → x.Resolves w.direct.sender w.key) :
    Script.Refines (rules helps) Request.isObserved (fun o c => Alike c o) (p.process w.framed)
      (p.outline w.direct).run r := by
  unfold Processor.outline
  rw [← fit.sender]
  refine process_refines (run_refines (fun _ => .inl rfl) ?_ ?_)
  · intro key typeByte e resolved opening
    obtain rfl : key = w.key := resolves _ resolved fit.sender
    -- What does not open is not for us, since the box around a frame opens under this key.
    by_cases addressed : w.framed.receiver = p.endpoint.identity
    · have known := Processor.opening_known addressed fit.framed fun _ _ other => nomatch other
      rw [known] at opening
      cases opening
    · rw [Processor.opening_misaddressed addressed] at opening
      cases opening
      rw [fit.receiver] at addressed
      rw [Processor.acceptBox_error (Processor.opening_misaddressed addressed _), fit.sender,
        fit.receiver]
      exact .done (.inl rfl)
  · intro key m resolved opening
    obtain rfl : key = w.key := resolves _ resolved fit.sender
    obtain ⟨addressed, read, _⟩ := Processor.opening_ok opening
    obtain rfl := Except.ok.inj (fit.framed.symm.trans read)
    obtain ⟨s, plaintext, t, found, authentic, unpadded⟩ := fit.frame
    rw [Processor.handle_envelope rfl]
    refine skip_store works fun seen true => ?_
    obtain rfl : seen = false := true.trans fit.unusedFramed
    rw [if_neg Bool.false_ne_true]
    refine Refines.bind_last (handleEnvelope_refines works fit.enabled found authentic
      (fit.receiver.symm.trans addressed) fit.sender (fit.mirrors unpadded _)) ?_ fun _ _ alike => alike
    exact fun _ _ _ alike => Refines.skip_request rfl fun _ _ => .done alike

end StoreView

/-- A content that comes in a box of its own and one that comes in an authentic frame have the
same effect: as long as no store fails, and the application answers the same to the same
questions, it is asked and told the same in the same order, and the calls come to the same. -/
theorem routes_agree {p : Processor} {r : StoreView} {w : BoxedTwice} (fit : w.Fit p r)
    {helps : Exchange → Prop} (works : StoreView.NeverFails helps)
    (resolves : ∀ x, helps x → x.Resolves w.direct.sender w.key)
    {answers : List Exchange → (request : Request) → request.Answer} {xs ys : List Exchange}
    {o o' : ProcessResult} (direct : Script.Reaches (p.process w.direct) xs (.done o))
    (framed : Script.Reaches (p.process w.framed) ys (.done o'))
    (admitted : (StoreView.rules helps).AdmitsAll r xs)
    (admittedFramed : (StoreView.rules helps).AdmitsAll r ys)
    (answered : (Rules.answering answers).AdmitsAll [] (observed xs))
    (answeredFramed : (Rules.answering answers).AdmitsAll [] (observed ys)) :
    observed xs = observed ys ∧ Alike o o' := by
  have noEnvelope : ∀ key m, helps ⟨.host (.publicKey w.direct.sender), .ok (some key)⟩ →
      p.opening w.direct key = .ok m → ∀ envelope, m.body ≠ .envelope envelope := by
    intro key m resolved opening
    obtain rfl : key = w.key := resolves _ resolved rfl
    exact fit.direct_noEnvelope (Processor.opening_ok opening).2.1
  obtain ⟨_, first, rfl⟩ := (StoreView.direct_refines works noEnvelope fit.unused).reaches direct admitted
  obtain ⟨c, second, alike⟩ := (StoreView.framed_refines fit works resolves).reaches framed admittedFramed
  obtain ⟨same, rfl⟩ := first.unique second answered answeredFramed
  exact ⟨same, alike⟩

section Example

/-- What the small host answers does not depend on what was asked before. -/
theorem Host.plain_answered {α : Type} (suite : Suite) (key : Key) (script : Script α) :
    ∀ (w : World Unit) (past : List Exchange),
      (Rules.answering fun _ request => (World.plain.answer suite (.plain key) request).1).AdmitsAll past
        (observed (script.run suite (.plain key) w).exchanges) := by
  induction script with
  | done value => exact fun _ _ => trivial
  | ask request next ih =>
      intro w past
      unfold observed Script.run
      rw [List.filter_cons]
      split
      · next seen =>
        refine ⟨?_, ih _ _ _⟩
        cases request with
        | host c => rfl
        | notice n => rfl
        | _ => cases seen
      · exact ih _ _ _

def photoBoxedTwice : BoxedTwice where
  key := Setting.peerKey
  typeByte := Body.contactDeletePhoto.typeByte
  content := []
  direct := Setting.boxed .contactDeletePhoto 7
  framed := (plainBoxedFrame 0 .contactDeletePhoto).boxed
  session := Block.zero 16
  frame := plainContent 0 .contactDeletePhoto

theorem photoBoxedTwice_fit :
    photoBoxedTwice.Fit Setting.processor (EndpointState.single plainSession).view where
  enabled := rfl
  header := rfl
  noEnvelope := by decide
  direct := ⟨_, Setting.boxed_opens .contactDeletePhoto 7, Setting.unpadded _⟩
  framed := (Processor.opening_ok (plainArrival_opens (by decide +kernel)).opened).2.1
  frame := ⟨plainSession, _, _, SessionBook.find?_single plainSession_stands.filed,
    ⟨by decide +kernel, by decide, by decide, rfl⟩, Setting.unpadded .contactDeletePhoto⟩
  group := by
    intro body decoded
    obtain rfl : Body.contactDeletePhoto = body := Except.ok.inj decoded
    rfl
  unused := rfl
  unusedFramed := rfl

/-- In either way the sender's key is looked up, the blocklist asked, and the photo removed. -/
theorem routes_agree_photo :
    ∃ xs ys o o', Script.Reaches (Setting.processor.process photoBoxedTwice.direct) xs (.done o) ∧
      Script.Reaches (Setting.processor.process photoBoxedTwice.framed) ys (.done o') ∧
      (observed xs).length = 3 ∧ observed xs = observed ys ∧ Alike o o' := by
  have keeps : EndpointState.Keeps (plainWorld []) (.single plainSession) := ⟨rfl, rfl⟩
  obtain ⟨direct, admitted, _⟩ := deliver_view keeps photoBoxedTwice.direct
    (Exchange.steady Setting.peer Setting.peerKey) fun _ works resolves => ⟨works, resolves⟩
  obtain ⟨framed, admittedFramed, _⟩ := deliver_view keeps photoBoxedTwice.framed
    (Exchange.steady Setting.peer Setting.peerKey) fun _ works resolves => ⟨works, resolves⟩
  have agreed := routes_agree photoBoxedTwice_fit (fun _ _ steady => steady.1.elim)
    (fun _ steady => steady.2) direct framed admitted admittedFramed
    (Host.plain_answered _ _ _ _ _) (Host.plain_answered _ _ _ _ _)
  exact ⟨_, _, _, _, direct, framed, by decide +kernel, agreed⟩

end Example

end SecureInbox
