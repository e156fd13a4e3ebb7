import SecureInbox.Proofs.Intake.Conduct
import SecureInbox.Proofs.Intake.Talk
import SecureInbox.Proofs.Session.Shape
import SecureInbox.Proofs.Session.Version

/-! # Which version two parties speak

Two parties whose ranges of versions overlap, of which one opens sessions with the other.
The version of a session is chosen three times: by the one who opens it, which takes the
highest it knows, and by each of them once it has the range of the other.

From then on both speak the highest version that they share, and no frame is refused for
its version.  The frames that are made before the answer are under the version chosen
first, and are refused exactly if the other party does not know it (`parley_refuses_iff`). -/
set_option autoImplicit false

namespace SecureInbox

/-! ## The conduct of the parties -/

namespace Negotiation

variable (a b : VersionRange) (common : Version)

/-- What the party tells that opens the sessions: until the answer is there its frames are
under the highest version it knows. -/
def openerTells : Frame → Prop
  | .init offered _ => offered = a
  | .accept _ _ => False
  | .encapsulated content =>
      content.applied = match content.sealed.agreement with
        | .two => a.max
        | .four => common
  | _ => True

def answererTells : Frame → Prop
  | .init _ _ => False
  | .accept offered _ => offered = b
  | .encapsulated content => content.sealed.agreement = .four ∧ content.applied = common
  | _ => True

def opener : Conduct where
  session s := s.role = .initiator ∧ (s.state = .l20 ∧ s.myFour = none ∧ s.version = a.max ∨
    s.state = .l40 ∧ s.myFour.isSome = true ∧ s.version = common)
  hears := answererTells b common
  tells := openerTells a common

def answerer : Conduct where
  session s := s.role = .responder ∧ s.myFour.isSome = true ∧ s.version = common
  hears := openerTells a common
  tells := answererTells b common

def conduct : SessionRole → Conduct
  | .initiator => opener a b common
  | .responder => answerer a b common

variable {a b common} {e : Endpoint}

theorem opener_sound (highest : VersionRange.IsHighest a b common)
    (versions : e.policy.versions = a) : (opener a b common).Sound e where
  rejects _ _ := trivial
  terminates _ := trivial
  spends s frame t holds spends := by
    have unlike : ¬s.IsConfirmedBy frame.agreement := by
      rintro ⟨_, responder, _⟩
      rw [holds.1] at responder
      cases responder
    show t.role = _ ∧ _
    rw [spends.role, spends.version, spends.outgoing.2, (spends.unconfirmed unlike).1]
    exact holds
  encrypts s nonce plaintext sealed t group holds encrypted := by
    obtain ⟨same, _, agreement⟩ := Session.encrypt_ok encrypted
    have header : t.role = s.role ∧ t.state = s.state ∧ t.version = s.version := by
      rw [same]
      exact ⟨rfl, rfl, rfl⟩
    obtain ⟨role, ⟨state, two, version⟩ | ⟨state, four, version⟩⟩ := holds
    · rcases agreement with ⟨_, none, isTwo⟩ | ⟨some, _⟩
      · refine ⟨⟨header.1.trans role, .inl ⟨header.2.1.trans state, none,
          header.2.2.trans version⟩⟩, ?_⟩
        show t.version = _
        simp only [isTwo, header.2.2, version]
      · rw [two] at some
        cases some
    · rcases agreement with ⟨none, _⟩ | ⟨_, some, isFour⟩
      · rw [none] at four
        cases four
      · refine ⟨⟨header.1.trans role, .inr ⟨header.2.1.trans state, some,
          header.2.2.trans version⟩⟩, ?_⟩
        show t.version = _
        simp only [isFour, header.2.2, version]
  answers offered _ _ _ _ _ _ _ _ _ hears := hears.elim
  completes offered peerEphemeral version s t hears negotiated holds accepted := by
    have offered : offered = b := hears
    rw [versions, offered, highest.negotiated] at negotiated
    obtain ⟨_, _, out, back, rfl⟩ := Session.accept_ok accepted
    exact ⟨holds.1, .inr ⟨rfl, rfl, (Option.some.inj negotiated).symm⟩⟩

theorem opener_opens (versions : e.policy.versions = a) : (opener a b common).Opens e := by
  intro ephemeral id peer peerKey created s key opened
  obtain ⟨is, _, version⟩ := Session.initiate_ok opened
  have four : s.myFour = none :=
    Option.isNone_iff_eq_none.mp (Option.isSome_eq_false_iff.mp is.myFour)
  rw [versions] at version
  exact ⟨⟨is.role, .inl ⟨is.state, four, version⟩⟩, versions⟩

theorem answerer_sound (highest : VersionRange.IsHighest a b common)
    (versions : e.policy.versions = b) : (answerer a b common).Sound e where
  rejects _ _ := trivial
  terminates _ := trivial
  spends s frame t holds spends := by
    show t.role = _ ∧ _
    rw [spends.role, spends.version, spends.outgoing.2]
    exact holds
  encrypts s nonce plaintext sealed t group holds encrypted := by
    obtain ⟨role, four, version⟩ := holds
    obtain ⟨same, _, agreement⟩ := Session.encrypt_ok encrypted
    have header : t.role = s.role ∧ t.version = s.version := by
      rw [same]
      exact ⟨rfl, rfl⟩
    rcases agreement with ⟨none, _⟩ | ⟨_, some, isFour⟩
    · rw [none] at four
      cases four
    · exact ⟨⟨header.1.trans role, some, header.2.trans version⟩, isFour, header.2.trans version⟩
  answers offered _ version _ _ _ _ _ _ _ hears negotiated answered := by
    have offered : offered = a := hears
    rw [versions, offered, highest.symm.negotiated] at negotiated
    obtain ⟨is, _, applied⟩ := Session.respond_ok answered
    exact ⟨⟨is.role, is.myFour, applied.trans (Option.some.inj negotiated).symm⟩, versions⟩
  completes _ _ _ _ _ hears := hears.elim

end Negotiation

/-! ## Runs of two parties -/

structure Correspondent where
  view : StoreView
  /-- The sessions that received frames have left to be stored. -/
  pending : List Session
  /-- The frames that were handed out to be sent. -/
  handed : List Envelope

def Correspondent.mail (c : Correspondent) : List Envelope := c.view.sent.map Prod.snd ++ c.handed

abbrev Negotiation := Both Correspondent

namespace Negotiation

def silent : Negotiation := ⟨⟨.empty, [], []⟩, ⟨.empty, [], []⟩⟩

def handedOut : Except ProcessError Envelope → List Envelope
  | .ok envelope => [envelope]
  | .error _ => []

variable (ends : Both Endpoint)

/-- What the parties can do.  What was sent is delivered at any time, in any order, and as
often as one likes; its session is stored at any time after that.  Stores and transport may
fail. -/
inductive Step : Negotiation → Negotiation → Prop where
  | opens (t : Negotiation) (peerKey : Key) (r : Except ProcessError Envelope) (left : StoreView)
      (goes : StoreView.Goes (fun _ => True)
        (ends.initiator.initiate ends.responder.identity peerKey) t.initiator.view r left) :
      Step t (t.set .initiator ⟨left, t.initiator.pending, t.initiator.handed ++ handedOut r⟩)
  | speaks (t : Negotiation) (side : SessionRole) (message : Message) (r : Except ProcessError Envelope)
      (left : StoreView)
      (goes : StoreView.Goes (fun _ => True)
        ((ends.get side).encapsulate (ends.get side.other).identity message) (t.get side).view r left) :
      Step t (t.set side ⟨left, (t.get side).pending, (t.get side).handed ++ handedOut r⟩)
  | hears (t : Negotiation) (side : SessionRole) (envelope : Envelope) (outer : Message) (senderKey : Key)
      (r : Except ProcessError Received) (left : StoreView) (isMail : envelope ∈ (t.get side.other).mail)
      (sender : outer.sender = (ends.get side.other).identity)
      (goes : StoreView.Goes (fun _ => True) ((ends.get side).receive outer senderKey envelope)
        (t.get side).view r left) :
      Step t (t.set side ⟨left, (t.get side).pending ++ Conduct.pending r, (t.get side).handed⟩)
  | stores (t : Negotiation) (side : SessionRole) (s : Session) (r : Except ProcessError Unit)
      (left : StoreView) (isPending : s ∈ (t.get side).pending)
      (goes : StoreView.Goes (fun _ => True) ((ends.get side).commit s) (t.get side).view r left) :
      Step t (t.set side ⟨left, (t.get side).pending, (t.get side).handed⟩)

inductive Reachable : Negotiation → Prop where
  | silent : Reachable silent
  | step {t u : Negotiation} (reachable : Reachable t) (step : Step ends t u) : Reachable u

structure Proper (c : Conduct) (party : Correspondent) : Prop where
  keeps : c.Keeps party.view
  pending : ∀ s ∈ party.pending, c.session s
  handed : ∀ envelope ∈ party.handed, c.tells envelope.frame

theorem Proper.mail {c : Conduct} {party : Correspondent} (proper : Proper c party) :
    ∀ envelope ∈ party.mail, c.tells envelope.frame := by
  intro envelope member
  rcases List.mem_append.mp member with sent | handed
  · obtain ⟨x, isSent, rfl⟩ := List.mem_map.mp sent
    exact proper.keeps.sent x isSent
  · exact proper.handed envelope handed

variable {ends} {a b : VersionRange} {common : Version} {t u : Negotiation}

theorem Proper.hand {c : Conduct} {party : Correspondent} (proper : Proper c party) {left : StoreView}
    {r : Except ProcessError Envelope}
    (said : c.Keeps left ∧ ∀ envelope, r = .ok envelope → c.tells envelope.frame) :
    Proper c ⟨left, party.pending, party.handed ++ handedOut r⟩ := by
  refine ⟨said.1, proper.pending, ?_⟩
  intro envelope member
  rcases List.mem_append.mp member with before | new
  · exact proper.handed envelope before
  · cases r with
    | error error => cases new
    | ok other =>
        obtain rfl := List.mem_singleton.mp new
        exact said.2 _ rfl

def Holds (a b : VersionRange) (common : Version) (t : Negotiation) : Prop :=
  ∀ side, Proper (conduct a b common side) (t.get side)

theorem Holds.set (holds : Holds a b common t) {side : SessionRole} {party : Correspondent}
    (proper : Proper (conduct a b common side) party) : Holds a b common (t.set side party) := by
  intro other
  cases side <;> cases other <;> first | exact proper | exact holds _

theorem conduct_sound (highest : VersionRange.IsHighest ends.initiator.policy.versions
    ends.responder.policy.versions common) (side : SessionRole) :
    (conduct ends.initiator.policy.versions ends.responder.policy.versions common side).Sound
      (ends.get side) := by
  cases side with
  | initiator => exact opener_sound highest rfl
  | responder => exact answerer_sound highest rfl

/-- Each party hears what the other one tells. -/
theorem hears_of_tells {side : SessionRole} {frame : Frame}
    (tells : (conduct a b common side.other).tells frame) : (conduct a b common side).hears frame := by
  cases side <;> exact tells

theorem Holds.step (highest : VersionRange.IsHighest ends.initiator.policy.versions
    ends.responder.policy.versions common)
    (holds : Holds ends.initiator.policy.versions ends.responder.policy.versions common t)
    (step : Step ends t u) :
    Holds ends.initiator.policy.versions ends.responder.policy.versions common u := by
  cases step with
  | opens peerKey r left goes =>
      have proper := holds .initiator
      exact holds.set (proper.hand (goes.holds (Conduct.initiate_keeps (opener_opens rfl) proper.keeps)))
  | speaks side message r left goes =>
      have proper := holds side
      exact holds.set (proper.hand (goes.holds
        (Conduct.encapsulate_keeps (conduct_sound highest side) proper.keeps)))
  | hears side envelope outer senderKey r left isMail sender goes =>
      have proper := holds side
      have hears := hears_of_tells ((holds side.other).mail envelope isMail)
      have heard := goes.holds (Conduct.receive_keeps ((conduct_sound highest side).at proper.keeps)
        proper.keeps hears)
      refine holds.set ⟨heard.1, ?_, proper.handed⟩
      intro s member
      rcases List.mem_append.mp member with before | new
      · exact proper.pending s before
      · exact heard.2 s new
  | stores side s r left isPending goes =>
      have proper := holds side
      have kept := goes.holds (Conduct.commit_keeps proper.keeps (proper.pending s isPending))
      exact holds.set ⟨kept, proper.pending, proper.handed⟩

theorem Reachable.holds (highest : VersionRange.IsHighest ends.initiator.policy.versions
    ends.responder.policy.versions common) (reachable : Reachable ends t) :
    Holds ends.initiator.policy.versions ends.responder.policy.versions common t := by
  induction reachable with
  | silent =>
      intro side
      cases side <;> exact ⟨.empty _, fun _ member => (nomatch member), fun _ member => nomatch member⟩
  | step _ step ih => exact ih.step highest step

/-! ## Which frames are refused for their version -/

theorem take_append {n : Nat} (a b : String) (fits : n ≤ a.toList.length) :
    (a ++ b).toList.take n = a.toList.take n := by
  rw [String.toList_append, List.take_append_of_le_length fits]

/-- Only the refusal for a version has its text: no other one starts like it. -/
theorem eq_unsupportedVersion {refusal : Refusal} {v : Version}
    (same : ProcessError.ofRefusal refusal = .ofRefusal (.unsupportedVersion v)) :
    ∃ w, refusal = .unsupportedVersion w := by
  have text : refusal.message = "unsupported version " ++ v.text := ProcessError.refused.inj same
  have start : refusal.message.toList.take 3 = "uns".toList := by
    rw [text]
    exact take_append _ _ (by decide)
  cases refusal with
  | unsupportedVersion w => exact ⟨w, rfl⟩
  | disabled | unknownSession | keyChanged => exact absurd start (by decide)
  | _ => exact absurd ((take_append _ _ (by decide)).symm.trans start) (by decide)

def IsVersionRefused (r : Except ProcessError Received) : Prop :=
  ∃ version, r = .error (.ofRefusal (.unsupportedVersion version))

theorem not_versionRefused {refusal : Refusal} (other : ∀ v, refusal ≠ .unsupportedVersion v) :
    ¬IsVersionRefused (.error (.ofRefusal refusal)) := by
  rintro ⟨version, same⟩
  obtain ⟨w, is⟩ := eq_unsupportedVersion (Except.error.inj same)
  exact other w is

section Refused

variable {e : Endpoint} {outer : Message} {key : Key} {id : SessionId} {content : Encapsulated}
variable {before left : StoreView} {r : Except ProcessError Received}

theorem versionRefused_of_receipt
    (receipt : e.Receipt Exchange.works outer key id content before left r) :
    IsVersionRefused r ↔ e.policy.versions.contains content.applied = false ∧
      ∃ s, before.filed (e.sessionKey outer.sender id) = some s ∧ s.isBoundTo key = true := by
  -- What else can come of the frame is no such failure, and not for an unknown version.
  have unrefused (other : ¬IsVersionRefused r)
      (known : ∀ s, before.filed (e.sessionKey outer.sender id) = some s →
        s.isBoundTo key = true → e.policy.versions.contains content.applied = true) :
      IsVersionRefused r ↔ e.policy.versions.contains content.applied = false ∧
        ∃ s, before.filed (e.sessionKey outer.sender id) = some s ∧ s.isBoundTo key = true := by
    refine iff_of_false other ?_
    rintro ⟨unknown, s, found, bound⟩
    rw [known s found bound] at unknown
    cases unknown
  cases receipt with
  | broken _ _ impossible => cases impossible
  | unsent _ _ _ _ _ impossible => cases impossible
  | unknown gone =>
      refine unrefused (not_versionRefused nofun) fun s found => ?_
      rw [gone] at found
      cases found
  | refused s refusal found why =>
      cases why with
      | keyChanged unbound =>
          refine unrefused (not_versionRefused nofun) fun t other bound => ?_
          obtain rfl := Option.some.inj (found.symm.trans other)
          rw [bound] at unbound
          cases unbound
      | version bound unknown => exact iff_of_true ⟨_, rfl⟩ ⟨unknown, s, found, bound⟩
      | decrypt bound known ready error t failed =>
          exact unrefused (not_versionRefused nofun) fun _ _ _ => known
  | early s found known early => exact unrefused nofun fun _ _ _ => known
  | unread s t plaintext fault found authentic unread =>
      exact unrefused nofun fun _ _ _ => authentic.known
  | opened s t plaintext inner found authentic read =>
      exact unrefused nofun fun _ _ _ => authentic.known

/-- A protected frame is refused for its version exactly if it is bound to a session and the
version is not known. -/
theorem versionRefused_iff
    (goes : StoreView.Goes Exchange.works (e.receive outer key ⟨id, .encapsulated content⟩)
      before r left) :
    IsVersionRefused r ↔ e.policy.enabled = true ∧ e.policy.versions.contains content.applied = false ∧
      ∃ s, before.filed (e.sessionKey outer.sender id) = some s ∧ s.isBoundTo key = true := by
  cases enabled : e.policy.enabled with
  | false =>
      rw [Endpoint.receive_disabled enabled] at goes
      rcases goes.holds Endpoint.refuse_view with ⟨rfl, _⟩ | ⟨_, _, impossible, _⟩
      · exact iff_of_false (not_versionRefused nofun) fun known => nomatch known.1
      · cases impossible
  | true =>
      rw [Endpoint.receive_encapsulated enabled] at goes
      rw [versionRefused_of_receipt (goes.holds Endpoint.receiveEncapsulated_receipt)]
      exact (and_iff_right rfl).symm

end Refused

/-- A frame has a version that the other party does not know exactly if it was made before
the answer was there, under a version above the other party's. -/
theorem Holds.unknown_iff (highest : VersionRange.IsHighest ends.initiator.policy.versions
    ends.responder.policy.versions common)
    (holds : Holds ends.initiator.policy.versions ends.responder.policy.versions common t)
    {side : SessionRole} {id : SessionId} {content : Encapsulated}
    (isMail : ⟨id, .encapsulated content⟩ ∈ (t.get side.other).mail) :
    (ends.get side).policy.versions.contains content.applied = false ↔
      side = .responder ∧ content.sealed.agreement = .two ∧
        ¬ends.initiator.policy.versions.max ≤ ends.responder.policy.versions.max := by
  have tells := (holds side.other).mail _ isMail
  cases side with
  | initiator =>
      obtain ⟨_, applied⟩ : content.sealed.agreement = .four ∧ content.applied = common := tells
      have known : (ends.get .initiator).policy.versions.contains common = true := highest.left
      rw [applied, known]
      exact iff_of_false Bool.false_ne_true.symm fun other => nomatch other.1
  | responder =>
      have applied : content.applied = match content.sealed.agreement with
        | .two => ends.initiator.policy.versions.max
        | .four => common := tells
      show ends.responder.policy.versions.contains content.applied = false ↔ _
      cases agreement : content.sealed.agreement with
      | four =>
          rw [agreement] at applied
          rw [applied, highest.right]
          exact iff_of_false Bool.false_ne_true.symm fun other => nomatch other.2.1
      | two =>
          rw [agreement] at applied
          rw [applied, ← Bool.not_eq_true, highest.contains_max]
          exact ⟨fun above => ⟨rfl, rfl, above⟩, fun other => other.2.2⟩

/-- An established session has the version of the other party's session. -/
theorem Holds.version_eq (holds : Holds a b common t) {mine yours : SessionKey} {s u : Session}
    (foundS : t.initiator.view.filed mine = some s) (foundU : t.responder.view.filed yours = some u)
    (established : s.state = .l40) : s.version = common ∧ u.version = common := by
  obtain ⟨_, ⟨opened, _⟩ | ⟨_, _, version⟩⟩ := (holds .initiator).keeps.filed _ s foundS
  · rw [opened] at established
    cases established
  · exact ⟨version, ((holds .responder).keeps.filed _ u foundU).2.2⟩

structure Interoperates (ends : Both Endpoint) (t : Negotiation) : Prop where
  /-- A frame is refused for its version exactly if it was made before the answer was there,
  under a version that the other party does not know. -/
  refused : ∀ side id content outer key r left,
    ⟨id, .encapsulated content⟩ ∈ (t.get side.other).mail →
      StoreView.Goes Exchange.works ((ends.get side).receive outer key ⟨id, .encapsulated content⟩)
        (t.get side).view r left →
        (IsVersionRefused r ↔ side = .responder ∧ content.sealed.agreement = .two ∧
          ¬ends.initiator.policy.versions.max ≤ ends.responder.policy.versions.max ∧
          (ends.get side).policy.enabled = true ∧
          ∃ s, (t.get side).view.filed ((ends.get side).sessionKey outer.sender id) = some s ∧
            s.isBoundTo key = true)
  /-- The sessions of both parties have the highest version that both know. -/
  agreed : ∀ mine yours s u, t.initiator.view.filed mine = some s →
    t.responder.view.filed yours = some u → s.state = .l40 → VersionRange.IsHighest ends.initiator.policy.versions
      ends.responder.policy.versions s.version ∧ u.version = s.version

/-- Parties whose ranges overlap come to the highest version that both know, and nothing is
refused for its version but what was said before under a higher one. -/
theorem negotiation_refuses_iff (ends : Both Endpoint)
    (overlap : ∃ v, ends.initiator.policy.versions.contains v = true ∧
      ends.responder.policy.versions.contains v = true) :
    ∀ t, Reachable ends t → Interoperates ends t := by
  obtain ⟨common, _, highest⟩ := VersionRange.exists_negotiated overlap
  intro t reachable
  have holds := reachable.holds highest
  refine ⟨?_, ?_⟩
  · intro side id content outer key r left isMail goes
    rw [versionRefused_iff goes, holds.unknown_iff highest isMail]
    constructor
    · rintro ⟨enabled, ⟨responder, two, above⟩, bound⟩
      exact ⟨responder, two, above, enabled, bound⟩
    · rintro ⟨responder, two, above, enabled, bound⟩
      exact ⟨enabled, ⟨responder, two, above⟩, bound⟩
  · intro mine yours s u foundS foundU established
    obtain ⟨version, other⟩ := holds.version_eq foundS foundU established
    rw [version, other]
    exact ⟨highest, rfl⟩

section Example

def v1_1 : Version := ⟨0x0101⟩

/-- The party that opens knows a higher version than the other one. -/
def uneven : Both Endpoint :=
  ⟨⟨.plain, Setting.us, Block.ofNat 32 1, .standard⟩,
    ⟨.plain, Setting.peer, Setting.peerKey, ⟨true, Ratchet.defaultMaxSkip, ⟨.v1_0, v1_1⟩⟩⟩⟩

def opening : Except ProcessError Envelope × EndpointState :=
  EndpointState.plainOutcome (uneven.initiator.initiate Setting.peer Setting.peerKey) (Talk.state .empty)

def greeting : Envelope := ⟨Block.zero 16, .init .supported Setting.peerKey⟩

def spoken : Except ProcessError Envelope × EndpointState :=
  EndpointState.plainOutcome
    (uneven.initiator.encapsulate Setting.peer (Setting.message .contactDeletePhoto)) opening.2

def carrier : Message :=
  ⟨Block.zero 8, Setting.us, Setting.peer, .ofSeconds 0, ⟨0⟩, none, .empty⟩

def answered : Except ProcessError Received × EndpointState :=
  EndpointState.plainOutcome (uneven.responder.receive carrier (Block.ofNat 32 1) greeting)
    (Talk.state .empty)

def isTwo : Except ProcessError Envelope → Bool
  | .ok ⟨id, .encapsulated content⟩ => id == Block.zero 16 && content.sealed.agreement == .two
  | _ => false

/-- The frame is refused, although the party has answered. -/
theorem negotiation_refuses_early :
    ∃ t content r left, Reachable uneven t ∧ Interoperates uneven t ∧
      ⟨Block.zero 16, .encapsulated content⟩ ∈ t.initiator.mail ∧
      StoreView.Goes Exchange.works (uneven.responder.receive carrier (Block.ofNat 32 1)
        ⟨Block.zero 16, .encapsulated content⟩) t.responder.view r left ∧ IsVersionRefused r := by
  have greets : opening.1 = .ok greeting := ok_of_toOption (by decide +kernel)
  have speaks : ∃ content, spoken.1 = .ok ⟨Block.zero 16, .encapsulated content⟩ ∧
      content.sealed.agreement = .two := by
    have two : isTwo spoken.1 = true := by decide +kernel
    unfold isTwo at two
    split at two
    · next id content said =>
      obtain ⟨zero, agreement⟩ := Bool.and_eq_true_iff.mp two
      rw [eq_of_beq zero] at said
      exact ⟨content, said, eq_of_beq agreement⟩
    · cases two
  obtain ⟨content, tells, two⟩ := speaks
  have opened : Reachable uneven ⟨⟨opening.2.view, [], [] ++ handedOut opening.1⟩, ⟨.empty, [], []⟩⟩ :=
    .step .silent (.opens silent Setting.peerKey _ _ (EndpointState.plain_goes _ _))
  have said : Reachable uneven
      ⟨⟨spoken.2.view, [], [] ++ handedOut opening.1 ++ handedOut spoken.1⟩, ⟨.empty, [], []⟩⟩ :=
    .step opened (.speaks _ .initiator (Setting.message .contactDeletePhoto) _ _
      (EndpointState.plain_goes _ _))
  rw [greets, tells] at said
  have met : Reachable uneven
      ⟨⟨spoken.2.view, [], [] ++ [greeting] ++ [⟨Block.zero 16, .encapsulated content⟩]⟩,
        ⟨answered.2.view, [] ++ Conduct.pending answered.1, []⟩⟩ :=
    .step said (.hears _ .responder greeting carrier (Block.ofNat 32 1) _ _
      (List.mem_append_right _ List.mem_cons_self) rfl (EndpointState.plain_goes _ (Talk.state .empty)))
  have interoperates := negotiation_refuses_iff uneven ⟨v1_1, by decide, by decide⟩ _ met
  have mail : ⟨Block.zero 16, .encapsulated content⟩ ∈
      Correspondent.mail ⟨spoken.2.view, [],
        [] ++ [greeting] ++ [⟨Block.zero 16, .encapsulated content⟩]⟩ :=
    List.mem_append_right _ (List.mem_append_right _ List.mem_cons_self)
  have bound : (answered.2.book.find? (uneven.responder.sessionKey Setting.us (Block.zero 16))).any
      (·.isBoundTo (Block.ofNat 32 1)) = true := by decide +kernel
  let refused := EndpointState.plainOutcome (uneven.responder.receive carrier (Block.ofNat 32 1)
    ⟨Block.zero 16, .encapsulated content⟩) answered.2
  have receives : StoreView.Goes Exchange.works _ answered.2.view refused.1 refused.2.view :=
    EndpointState.view_goes .plain Setting.peerKey _ _ fun _ works => works
  refine ⟨_, content, _, _, met, interoperates, mail, receives, ?_⟩
  exact (interoperates.refused .responder _ content carrier _ _ _ mail receives).mpr
    ⟨rfl, two, by decide, rfl, (Option.any_eq_true _ _).mp bound⟩

end Example

end Negotiation

end SecureInbox
