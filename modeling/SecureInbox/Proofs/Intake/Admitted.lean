import SecureInbox.Proofs.Intake.Arrival
import SecureInbox.Proofs.Intake.Redelivery
import SecureInbox.Proofs.Script.History
import SecureInbox.Proofs.Session.Shape

/-! # What reaches the application

A call for a boxed message changes the application's records, gives messages to the group
processor, has blobs fetched and tells of calls and typing only for a message that it has
admitted.  The message is the one in the box or the one in the frame in the box, and all that
admits it has been asked and answered before (`applied_admitted`), whoever answers and however.

To say so, a call is followed with all its exchanges, stage by stage (`Intake.Follows`). -/
set_option autoImplicit false

namespace SecureInbox

/-! ## What a request is for -/

/-- Whether a request is one by which the application's records change, a message is handed on
or the application is told what came; that a contact is to be looked at again is none. -/
def Request.isApplied : Request → Bool
  | .host (.handleGroup _ _) => true
  | .host (.schedule _) => true
  | .host (.change (.dirty _)) => false
  | .host (.change _) => true
  | .notice (.changed _) => true
  | .notice (.typing _ _) => true
  | .notice (.call _ _) => true
  | _ => false

inductive Message.Serves (m : Message) : Request → Prop where
  | group (group : GroupRef) (ofGroup : m.group? = some group) : Serves m (.host (.handleGroup m group))
  | change (c : Change) (isTold : Bool) (handling : m.handling = .change c isTold) :
      Serves m (.host (.change c))
  | told (c : Change) (handling : m.handling = .change c true) : Serves m (.notice (.changed m))
  | notice (n : Notice) (handling : m.handling = .notice n) : Serves m (.notice n)
  | blobs (needs : m.needsBlobs = true) : Serves m (.host (.schedule m))

namespace Processor

open Intake (Asks)

theorem part_serves (m : Message) : Asks m.Serves (m.handling.part m) := by
  cases handling : m.handling with
  | change c isTold =>
      have first : Asks m.Serves (Intake.host (.change c)) :=
        (Intake.asks_host _).mpr (.change c isTold handling)
      cases isTold with
      | true => exact first.bind fun _ => (Intake.asks_notify _).mpr (.told c handling)
      | false => exact first
  | notice n => exact (Intake.asks_notify n).mpr (.notice n handling)
  | nothing => trivial
  | failure e => trivial

theorem handleByKind_serves (m : Message) : Asks m.Serves (handleByKind m) := by
  rw [handleByKind_eq]
  refine (part_serves m).bind fun _ => ?_
  unfold fetchBlobs
  split
  · next needs => exact (Intake.asks_host _).mpr (.blobs needs)
  · trivial

theorem dispatch_serves (m : Message) : Asks m.Serves (dispatch m) := by
  unfold dispatch
  cases ofGroup : m.group? with
  | none => exact (handleByKind_serves m).bind fun _ => trivial
  | some group =>
      refine Asks.bind ((Intake.asks_host _).mpr (.group group ofGroup)) fun decision => ?_
      cases decision with
      | handled => trivial
      | declined => exact (handleByKind_serves m).bind fun _ => trivial

end Processor

/-! ## Who is admitted -/

def Message.IsInside (p : Processor) (m outer : Message) (key : Key) (past : List Exchange) : Prop :=
  ∃ id content s plaintext t, outer.body = .envelope ⟨id, .encapsulated content⟩ ∧
    ⟨.store (.find (p.endpoint.sessionKey outer.sender id)), .ok (some s)⟩ ∈ past ∧
      p.endpoint.Authentic key content s plaintext t ∧
        Endpoint.innerMessage outer plaintext content.group = .ok m

/-- Whether the sender of a message is not blocked, or the message changes a group that we are
in. -/
def Message.IsWelcome (past : List Exchange) (m : Message) : Prop :=
  ⟨.host (.isBlocked m.sender), .ok false⟩ ∈ past ∨
    ∃ group, m.isGroupControl = true ∧ m.group? = some group ∧
      ⟨.host (.isMember group), .ok true⟩ ∈ past

structure Admitted (p : Processor) (boxed : Boxed) (past : List Exchange) (m : Message) : Prop where
  addressed : boxed.receiver = p.endpoint.identity
  opened : ∃ key outer, ⟨.host (.publicKey boxed.sender), .ok (some key)⟩ ∈ past ∧
    boxed.message p.endpoint.suite p.endpoint.secret key = .ok outer ∧
      (m = outer ∨ m.IsInside p outer key past)
  sender : m.sender = boxed.sender
  valid : m.hasValidContent p.limits = true
  noEnvelope : ∀ envelope, m.body ≠ .envelope envelope
  known : ∀ typeByte content, m.body ≠ .unknown typeByte content
  unused : ⟨.store (.seen (p.nonceHash boxed.nonce.bytes)), .ok false⟩ ∈ past
  welcome : m.IsWelcome past

namespace Message

variable {p : Processor} {outer m : Message} {key : Key} {past more : List Exchange}

theorem IsInside.mono (inside : m.IsInside p outer key past) (grown : past ⊆ more) :
    m.IsInside p outer key more := by
  obtain ⟨id, content, s, plaintext, t, body, found, authentic, read⟩ := inside
  exact ⟨id, content, s, plaintext, t, body, grown found, authentic, read⟩

theorem IsWelcome.mono (welcome : m.IsWelcome past) (grown : past ⊆ more) : m.IsWelcome more := by
  rcases welcome with free | ⟨group, control, ofGroup, member⟩
  · exact .inl (grown free)
  · exact .inr ⟨group, control, ofGroup, grown member⟩

end Message

theorem Admitted.mono {p : Processor} {boxed : Boxed} {m : Message} {past more : List Exchange}
    (admitted : Admitted p boxed past m) (grown : past ⊆ more) : Admitted p boxed more m := by
  obtain ⟨key, outer, resolved, read, origin⟩ := admitted.opened
  exact { admitted with
    opened := ⟨key, outer, grown resolved, read, origin.imp id (·.mono grown)⟩
    unused := grown admitted.unused
    welcome := admitted.welcome.mono grown }

def Admitted.allows (p : Processor) (boxed : Boxed) (past : List Exchange) (r : Request) : Prop :=
  r.isApplied = true → ∃ m, Admitted p boxed past m ∧ m.Serves r

theorem Admitted.grows (p : Processor) (boxed : Boxed) : Grows (Admitted.allows p boxed) := by
  intro past more r grown allowed applied
  obtain ⟨m, admitted, serves⟩ := allowed applied
  exact ⟨m, admitted.mono grown, serves⟩

namespace Request

theorem unapplied_of_ofEndpoint {r : Request} (ofEndpoint : r.ofEndpoint) : r.isApplied = false := by
  cases r with
  | host c => cases c <;> first | rfl | exact ofEndpoint.elim
  | notice n => exact ofEndpoint.elim
  | _ => rfl

theorem unapplied_of_ofAdmission {r : Request} (ofAdmission : r.ofAdmission) : r.isApplied = false := by
  cases r with
  | host c => cases c <;> first | rfl | exact ofAdmission.elim
  | notice n => exact ofAdmission.elim
  | _ => rfl

end Request

/-! ## The stages -/

namespace Processor

open Intake (Gives Follows)

variable {p : Processor} {boxed : Boxed} {past : List Exchange} {outer m : Message} {key : Key}

theorem allows_unapplied {r : Request} (unapplied : r.isApplied = false) :
    Admitted.allows p boxed past r := by
  intro applied
  rw [unapplied] at applied
  cases applied

theorem follows_endpoint {α : Type} {part : Intake α} {post : Except ProcessError α → Prop}
    (gives : Gives Request.ofEndpoint part post) :
    part.Follows (Admitted.allows p boxed) past fun _ => post :=
  .gives (Admitted.grows p boxed) (gives.more fun _ ofEndpoint =>
    allows_unapplied (Request.unapplied_of_ofEndpoint ofEndpoint))

theorem follows_admission {α : Type} {part : Intake α} {post : Except ProcessError α → Prop}
    (gives : Gives Request.ofAdmission part post) :
    part.Follows (Admitted.allows p boxed) past fun _ => post :=
  .gives (Admitted.grows p boxed) (gives.more fun _ ofAdmission =>
    allows_unapplied (Request.unapplied_of_ofAdmission ofAdmission))

theorem senderKey_follows :
    (senderKey boxed.sender).Follows (Admitted.allows p boxed) past fun more o =>
      ∀ key, o = .ok key → ⟨.host (.publicKey boxed.sender), .ok (some key)⟩ ∈ more := by
  unfold senderKey
  refine Follows.bind (Follows.request (allows_unapplied rfl)) ?_ ?_
  · rintro more answer _ ⟨_, ⟨⟩, member⟩
    match answer with
    | .error error => exact ⟨List.Subset.refl _, fun _ other => nomatch other⟩
    | .ok none => exact ⟨List.Subset.refl _, fun _ other => nomatch other⟩
    | .ok (some key) =>
        refine .pure ?_
        rintro _ ⟨⟩
        exact member
  · exact fun _ _ _ _ _ other => nomatch other

theorem isBlocked_follows (m : Message) :
    (isBlocked m).Follows (Admitted.allows p boxed) past fun more o => o = .ok false → m.IsWelcome more := by
  unfold isBlocked
  refine Follows.bind (Follows.host (allows_unapplied rfl)) ?_ fun _ _ _ _ other => nomatch other
  intro more blocked _ asked
  cases blocked with
  | false => exact .pure fun _ => .inl (asked false rfl)
  | true =>
      rw [if_neg (by decide)]
      split
      · next group control ofGroup =>
        refine Follows.bind (Follows.host (allows_unapplied rfl)) ?_ fun _ _ _ _ other => nomatch other
        intro later member _ answered
        cases member with
        | true => exact .pure fun _ => .inr ⟨group, control, ofGroup, answered true rfl⟩
        | false => exact .pure fun other => nomatch other
      · exact .pure fun other => nomatch other

theorem contentCheck_follows (m : Message) :
    (p.contentCheck m).Follows (Admitted.allows p boxed) past fun _ o =>
      o = .ok none → m.hasValidContent p.limits = true := by
  unfold contentCheck
  split
  · next valid => exact .pure fun _ => valid
  · exact Follows.bind (follows_admission (record_asks _ _ _ _))
      (fun _ _ _ _ => .pure fun other => nomatch other) fun _ _ _ _ other => nomatch other

theorem admission_follows (m : Message) :
    (p.admission m).Follows (Admitted.allows p boxed) past fun more o =>
      o = .ok none → m.hasValidContent p.limits = true ∧
        (m.body.isEnvelope = false → m.IsWelcome more) := by
  rw [admission_eq]
  split
  · refine Follows.bind (isBlocked_follows m) ?_ fun _ _ _ _ other => nomatch other
    intro more blocked _ welcome
    cases blocked with
    | true => exact .pure fun other => nomatch other
    | false =>
        refine (contentCheck_follows m).mono ?_
        exact fun _ _ grown valid same => ⟨valid same, fun _ => (welcome rfl).mono grown⟩
  · next isEnvelope =>
    refine (contentCheck_follows m).mono ?_
    intro _ _ _ valid same
    refine ⟨valid same, fun other => ?_⟩
    rw [other] at isEnvelope
    exact (isEnvelope rfl).elim

theorem receive_follows {envelope : Envelope} (body : outer.body = .envelope envelope) :
    (p.endpoint.receive outer key envelope).Follows (Admitted.allows p boxed) past fun more o =>
      ∀ received m, o = .ok received → received.inner = some m → m.IsInside p outer key more := by
  have control : ∀ {part : Intake Received},
      Gives Request.ofEndpoint part Endpoint.IsControl →
        part.Follows (Admitted.allows p boxed) past fun more o =>
          ∀ received m, o = .ok received → received.inner = some m → m.IsInside p outer key more := by
    intro part gives
    refine (follows_endpoint gives).mono ?_
    intro more o _ none received m same some
    rw [none received same] at some
    cases some
  have ended : ∀ id, Gives Request.ofEndpoint (Intake.store (.erase (p.endpoint.sessionKey outer.sender id))
      >>= fun _ => (return .control (.gone id) : Intake Received)) Endpoint.IsControl := fun id =>
    ((Intake.asks_store _).mpr trivial).gives_bind
      (fun _ => Endpoint.isControl_control _) Endpoint.isControl_error
  obtain ⟨id, frame⟩ := envelope
  unfold Endpoint.receive
  split
  · exact control (Endpoint.receiveDisabled_gives _ _)
  · cases frame with
    | init offered peerEphemeral => exact control (p.endpoint.receiveInit_gives _ _ _ _ _)
    | accept offered peerEphemeral => exact control (p.endpoint.receiveAccept_gives _ _ _ _)
    | reject rejected cause => exact control (ended id)
    | terminate cause => exact control (ended id)
    | encapsulated content =>
        obtain ⟨rest, same, gives⟩ := p.endpoint.receiveEncapsulated_gives outer key id content
        show (p.endpoint.receiveEncapsulated outer key id content).Follows _ _ _
        rw [same]
        refine Follows.bind (Follows.store (allows_unapplied rfl)) ?_ ?_
        · intro more found _ asked
          refine (follows_endpoint (gives found)).mono ?_
          intro later o grown carries received m same inner
          obtain ⟨s, plaintext, t, rfl, authentic, read⟩ := carries received m same inner
          exact ⟨id, content, s, plaintext, t, body, grown (asked _ rfl), authentic, read⟩
        · exact fun _ _ _ _ _ _ other => nomatch other

theorem dispatch_follows (admitted : Admitted p boxed past m) :
    (dispatch m).Follows (Admitted.allows p boxed) past fun _ _ => True :=
  .gives (Admitted.grows p boxed) ((dispatch_serves m).mono fun _ serves _ => ⟨m, admitted, serves⟩)

/-- A box that is ours, with the key and the message that were found for it, under a nonce that
was not known. -/
structure Opened (p : Processor) (boxed : Boxed) (past : List Exchange) (key : Key) (outer : Message) :
    Prop where
  addressed : boxed.receiver = p.endpoint.identity
  resolved : ⟨.host (.publicKey boxed.sender), .ok (some key)⟩ ∈ past
  read : boxed.message p.endpoint.suite p.endpoint.secret key = .ok outer
  unused : ⟨.store (.seen (p.nonceHash boxed.nonce.bytes)), .ok false⟩ ∈ past

theorem Opened.mono {more : List Exchange} (opened : Opened p boxed past key outer)
    (grown : past ⊆ more) : Opened p boxed more key outer :=
  { opened with resolved := grown opened.resolved, unused := grown opened.unused }

theorem isEnvelope_false (noEnvelope : ∀ envelope, m.body ≠ .envelope envelope) :
    m.body.isEnvelope = false := by
  cases body : m.body with
  | envelope envelope => exact (noEnvelope envelope body).elim
  | _ => rfl

theorem handleInner_follows (opened : Opened p boxed past key outer)
    (inside : m.IsInside p outer key past) :
    (p.handleInner outer m).Follows (Admitted.allows p boxed) past fun _ _ => True := by
  unfold handleInner
  split
  · exact follows_admission (reject_asks _ _ _ _)
  · exact follows_admission (reject_asks _ _ _ _)
  · next noEnvelope known =>
    refine Follows.bind (admission_follows m) ?_ fun _ _ _ _ => trivial
    intro more reason grown admitted
    cases reason with
    | some reason => exact .pure trivial
    | none =>
        obtain ⟨valid, welcome⟩ := admitted rfl
        have sender : m.sender = boxed.sender := by
          obtain ⟨_, _, _, _, _, _, _, _, read⟩ := inside
          exact (Endpoint.innerMessage_header read).1.trans (Boxed.message_header opened.read).1
        exact dispatch_follows
          { addressed := opened.addressed
            opened := ⟨key, outer, grown opened.resolved, opened.read, .inr (inside.mono grown)⟩
            sender, valid, noEnvelope, known
            unused := grown opened.unused
            welcome := welcome (isEnvelope_false noEnvelope) }

theorem handleEnvelope_follows (opened : Opened p boxed past key outer) {envelope : Envelope}
    (body : outer.body = .envelope envelope) :
    (p.handleEnvelope outer key envelope).Follows (Admitted.allows p boxed) past fun _ _ => True := by
  have commits : ∀ {past} session,
      (p.endpoint.commit session).Follows (Admitted.allows p boxed) past fun _ _ => True :=
    fun session => follows_endpoint (p.endpoint.commit_asks session)
  have ends : ∀ {past} {o : Except ProcessError Outcome},
      (Intake.ofExcept o).Follows (Admitted.allows p boxed) past fun _ _ => True :=
    ⟨List.Subset.refl _, trivial⟩
  unfold handleEnvelope
  refine Follows.attempt_bind (receive_follows body) ?_
  intro more o grown inside
  cases o with
  | error e =>
      dsimp only
      split
      · exact Follows.bind (follows_admission (record_asks _ _ _ _)) (fun _ _ _ _ => ends)
          fun _ _ _ _ => trivial
      · exact ends
  | ok received =>
      dsimp only
      split
      · exact Follows.bind (Follows.host (allows_unapplied rfl)) (fun _ _ _ _ => ends)
          fun _ _ _ _ => trivial
      · next inner found =>
        refine Follows.attempt_bind
          (handleInner_follows (opened.mono grown) (inside received inner rfl found)) ?_
        intro later settled _ _
        split
        · exact ends
        · split
          · split
            · exact Follows.bind (commits _) (fun _ _ _ _ => ends) fun _ _ _ _ => trivial
            · exact ends
          · exact Follows.bind (commits _) (fun _ _ _ _ => ends) fun _ _ _ _ => trivial

theorem settle_follows (opened : Opened p boxed past key m)
    (known : ∀ typeByte content, m.body ≠ .unknown typeByte content)
    (valid : m.hasValidContent p.limits = true)
    (welcome : m.body.isEnvelope = false → m.IsWelcome past) :
    (p.settle m key).Follows (Admitted.allows p boxed) past fun _ _ => True := by
  unfold settle
  split
  · next envelope body => exact handleEnvelope_follows opened body
  · next noEnvelope =>
    have admitted : Admitted p boxed past m :=
      { addressed := opened.addressed
        opened := ⟨key, m, opened.resolved, opened.read, .inl rfl⟩
        sender := (Boxed.message_header opened.read).1
        valid, noEnvelope, known, unused := opened.unused
        welcome := welcome (isEnvelope_false noEnvelope) }
    refine Follows.bind (follows_endpoint (isDowngrade_asks _ _ _)) ?_ fun _ _ _ _ => trivial
    intro more downgraded grown _
    cases downgraded with
    | false => exact dispatch_follows (admitted.mono grown)
    | true =>
        refine Follows.bind (Follows.request (allows_unapplied rfl)) ?_ fun _ _ _ _ => trivial
        exact fun _ _ later _ => dispatch_follows (admitted.mono (List.Subset.trans grown later))

theorem handle_follows (addressed : boxed.receiver = p.endpoint.identity)
    (resolved : ⟨.host (.publicKey boxed.sender), .ok (some key)⟩ ∈ past)
    (read : boxed.message p.endpoint.suite p.endpoint.secret key = .ok m)
    (known : ∀ typeByte content, m.body ≠ .unknown typeByte content) :
    (p.handle m key boxed.nonce.bytes).Follows (Admitted.allows p boxed) past fun _ _ => True := by
  rw [handle_eq]
  refine Follows.bind (admission_follows m) ?_ fun _ _ _ _ => trivial
  intro more reason grown admitted
  cases reason with
  | some reason => exact .pure trivial
  | none =>
      obtain ⟨valid, welcome⟩ := admitted rfl
      refine Follows.bind (Follows.store (allows_unapplied rfl)) ?_ fun _ _ _ _ => trivial
      intro later seen after asked
      cases seen with
      | true => exact .pure trivial
      | false =>
          have opened : Opened p boxed later key m :=
            ⟨addressed, after (grown resolved), read, asked false rfl⟩
          rw [if_neg Bool.false_ne_true]
          refine Follows.bind (settle_follows opened known valid fun plain => (welcome plain).mono after)
            ?_ fun _ _ _ _ => trivial
          intro _ outcome _ _
          exact Follows.bind (Follows.request (allows_unapplied rfl)) (fun _ _ _ _ => .pure trivial)
            fun _ _ _ _ => trivial

theorem run_follows : (p.run boxed).Follows (Admitted.allows p boxed) past fun _ _ => True := by
  have last : ∀ {past} {α : Type} (r : Request) (part : Intake α), r.isApplied = false →
      (∀ past, part.Follows (Admitted.allows p boxed) past fun _ _ => True) →
        (Intake.request r >>= fun _ => part).Follows (Admitted.allows p boxed) past fun _ _ => True :=
    fun _ _ unapplied ends => Follows.bind (Follows.request (allows_unapplied unapplied))
      (fun _ _ _ _ => ends _) fun _ _ _ _ => trivial
  unfold run
  refine Follows.bind senderKey_follows ?_ fun _ _ _ _ => trivial
  intro more key _ resolved
  rw [decode_eq]
  cases opening : p.opening boxed key with
  | error failure => exact follows_admission (reject_asks _ _ _ _)
  | ok m =>
      obtain ⟨addressed, read, known⟩ := opening_ok opening
      dsimp only
      rw [pure_bind]
      refine Follows.bind (Follows.request (allows_unapplied rfl)) ?_ fun _ _ _ _ => trivial
      intro entered _ first _
      refine Follows.bind (Follows.request (allows_unapplied rfl)) ?_ fun _ _ _ _ => trivial
      intro started _ second _
      refine Follows.attempt_bind
        (handle_follows addressed (second (first (resolved key rfl))) read known) ?_
      intro handled o _ _
      cases o with
      | error e => exact last _ _ rfl fun _ => ⟨List.Subset.refl _, trivial⟩
      | ok outcome => exact last _ _ rfl fun _ => last _ _ rfl fun _ => .pure trivial

end Processor

open Processor in
/-- Whatever is answered to a call for a boxed message, each request that is for the application is
made for a message that was admitted before it. -/
theorem applied_admitted (p : Processor) (boxed : Boxed) {xs : List Exchange}
    {rest : Script ProcessResult} (reaches : Script.Reaches (p.process boxed) xs rest) :
    ∀ front x back, xs = front ++ x :: back → x.request.isApplied = true →
      ∃ m, Admitted p boxed front m ∧ m.Serves x.request := by
  have obeys : (p.process boxed).Obeys (.history (Admitted.allows p boxed)) [] fun _ _ => True := by
    refine ⟨allows_unapplied rfl, fun _ _ => ?_⟩
    refine (Intake.obeys_run_bind _ _ _ _ _).mpr (Intake.Obeys.mono run_follows ?_)
    intro more o _
    cases o with
    | ok outcome => trivial
    | error e => exact ⟨allows_unapplied rfl, fun _ _ => trivial⟩
  rintro front x back rfl applied
  exact Rules.history_allows (obeys.allowed reaches (Rules.history_admits _ _)) applied

/-- A request of a contact's in a frame, which has the contact's photo removed. -/
theorem applied_admitted_photo :
    ∃ front x back m,
      (plainRun [] (plainBoxedFrame 0 .contactDeletePhoto)).exchanges = front ++ x :: back ∧
      x.request.isApplied = true ∧
        Admitted plainLink.processor (plainBoxedFrame 0 .contactDeletePhoto).boxed front m ∧
          m.Serves x.request := by
  have any : (plainRun [] (plainBoxedFrame 0 .contactDeletePhoto)).exchanges.any
      (·.request.isApplied) = true := by
    decide +kernel
  obtain ⟨x, member, applied⟩ := List.any_eq_true.mp any
  obtain ⟨front, back, split⟩ := List.append_of_mem member
  obtain ⟨m, admitted, serves⟩ := applied_admitted _ _ (Script.reaches_run _ _ _ _) front x back split applied
  exact ⟨front, x, back, m, split, applied, admitted, serves⟩

end SecureInbox
