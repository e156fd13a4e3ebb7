import Mathlib.Data.List.Nodup
import SecureInbox.Proofs.Intake.Redelivery
import SecureInbox.Proofs.Intake.StoreView
import SecureInbox.Proofs.Session.Spending

/-! # Counters of outgoing frames

One end of a session receives frames, stores the copies that come of them at a later time,
and puts messages into frames of its own in between.  `Sending` is its state, with the
counters of the frames it has made.

A copy carries its outgoing chain as it was when the copy was taken.  As long as no frame
is made between the taking and the storing of a copy, no counter is used twice; and when a
copy is stored late, the next frame repeats a counter (`counters_distinct`). -/
set_option autoImplicit false

namespace SecureInbox

/-- The chain of a frame and its counter there. -/
abbrev FrameNumber := Agreement × UInt64

namespace FrameNumber

def later (f : FrameNumber) (n : Nat) : FrameNumber := (f.1, f.2 + UInt64.ofNat n)

theorem later_zero (f : FrameNumber) : f.later 0 = f := by
  simp [later]

theorem later_succ (f : FrameNumber) (n : Nat) : (f.later n).later 1 = f.later (n + 1) := by
  simp only [later, UInt64.ofNat_add, UInt64.add_assoc]

theorem later_inj (f : FrameNumber) {m n : Nat} (fitsLeft : m < UInt64.size)
    (fitsRight : n < UInt64.size) (same : f.later m = f.later n) : m = n := by
  have counters : f.2 + UInt64.ofNat m = f.2 + UInt64.ofNat n := congrArg Prod.snd same
  have words : UInt64.ofNat m = UInt64.ofNat n := (UInt64.add_right_inj f.2).mp counters
  have values := congrArg UInt64.toNat words
  rwa [UInt64.toNat_ofNat_of_lt' fitsLeft, UInt64.toNat_ofNat_of_lt' fitsRight] at values

def firsts (f : FrameNumber) (n : Nat) : List FrameNumber := (List.range n).map f.later

@[simp] theorem length_firsts (f : FrameNumber) (n : Nat) : (f.firsts n).length = n := by
  simp [firsts]

theorem firsts_succ (f : FrameNumber) (n : Nat) : f.firsts (n + 1) = f.firsts n ++ [f.later n] := by
  simp [firsts, List.range_succ]

theorem nodup_firsts (f : FrameNumber) {n : Nat} (fits : n ≤ UInt64.size) : (f.firsts n).Nodup := by
  refine List.Nodup.map_on ?_ List.nodup_range
  intro i memI j memJ same
  have := List.mem_range.mp memI
  have := List.mem_range.mp memJ
  exact f.later_inj (by omega) (by omega) same

theorem mem_firsts (f : FrameNumber) {m n : Nat} (fits : n < UInt64.size) (le : m ≤ n) :
    f.later m ∈ f.firsts n ↔ m < n := by
  constructor
  · intro member
    obtain ⟨i, inRange, same⟩ := List.mem_map.mp member
    have := List.mem_range.mp inRange
    have := f.later_inj (by omega) (by omega) same
    omega
  · intro lt
    exact List.mem_map_of_mem (List.mem_range.mpr lt)

end FrameNumber

namespace Session

def outgoing (s : Session) : Option FrameNumber :=
  match s.myFour, s.myTwo with
  | some r, _ => some (.four, r.counter)
  | none, some r => some (.two, r.counter)
  | none, none => none

/-- A frame has the number of its session, which then has the number after it. -/
theorem encrypt_outgoing {suite : Suite} {nonce : Nonce} {plaintext : Bytes} {s t : Session}
    {sealed : Protected} (encrypted : s.encrypt suite nonce plaintext = .ok (sealed, t)) :
    s.outgoing = some (sealed.agreement, sealed.counter) ∧
      t.outgoing = some (FrameNumber.later (sealed.agreement, sealed.counter) 1) ∧
      t.fileKey = s.fileKey := by
  unfold encrypt at encrypted
  unfold outgoing
  cases four : s.myFour with
  | some r =>
      rw [four] at encrypted
      cases encrypted
      exact ⟨rfl, rfl, rfl⟩
  | none =>
      cases two : s.myTwo with
      | some r =>
          rw [four, two] at encrypted
          cases encrypted
          exact ⟨rfl, rfl, rfl⟩
      | none =>
          rw [four, two] at encrypted
          cases encrypted

theorem Spends.outgoing_eq {s t : Session} {frame : Protected} (spends : s.Spends frame t) :
    t.outgoing = s.outgoing := by
  obtain ⟨two, four⟩ := spends.outgoing
  unfold Session.outgoing
  rw [two, four]

end Session

/-! ## One end at work -/

/-- A copy of a session that is to be stored, and how many frames had been made when it was
taken. -/
structure Copy where
  session : Session
  taken : Nat
deriving DecidableEq

structure Sending where
  view : StoreView
  copies : List Copy
  /-- The numbers of the frames that were made, the first one first. -/
  made : List FrameNumber

inductive SendingEvent where
  | received
  | stored (copy : Copy) (result : Except ProcessError Unit)
  | framed (result : Except ProcessError Envelope)

namespace Sending

def copyOf (taken : Nat) : Except ProcessError Received → List Copy
  | .ok ⟨_, _, some session⟩ => [⟨session, taken⟩]
  | _ => []

def numberOf (id : SessionId) : Except ProcessError Envelope → List FrameNumber
  | .ok ⟨session, .encapsulated content⟩ =>
      if session = id then [(content.sealed.agreement, content.sealed.counter)] else []
  | _ => []

/-- A message that is put into a frame moves on the session of the frame, which is this one
or another one of the pair. -/
theorem framing_cases {e : Endpoint} {peer : Identity} {id : SessionId} {r u : StoreView}
    {o : Except ProcessError Envelope} (framing : e.Framing peer r u o) :
    (numberOf id o = [] ∧ (u = r ∨ ∃ t, u = r.put t ∧ t.fileKey ≠ e.sessionKey peer id)) ∨
      ∃ s t f, r.filed (e.sessionKey peer id) = some s ∧ s.outgoing = some f ∧ numberOf id o = [f] ∧
        u = r.put t ∧ t.fileKey = e.sessionKey peer id ∧ t.outgoing = some (f.later 1) := by
  cases framing with
  | failed error => exact .inl ⟨rfl, .inl rfl⟩
  | framed s t nonce plaintext sealed group found ofPair encrypted =>
      obtain ⟨number, next, fileKey⟩ := Session.encrypt_outgoing encrypted
      by_cases here : t.id = id
      · have pair : s.mine = e.identity.text ∧ s.peer = peer.text := by
          simpa [SessionKey.isOfPair, Session.fileKey] using ofPair
        have name : s.id = id := (congrArg SessionKey.id fileKey).symm.trans here
        have place : s.fileKey = e.sessionKey peer id := by
          rw [Session.fileKey, Endpoint.sessionKey, pair.1, pair.2, name]
        rw [place] at found fileKey
        exact .inr ⟨s, t, _, found, number, if_pos here, rfl, fileKey, next⟩
      · refine .inl ⟨if_neg here, .inr ⟨t, rfl, ?_⟩⟩
        intro same
        exact here (congrArg SessionKey.id same)

variable (e : Endpoint) (peer : Identity) (id : SessionId)

/-- What an end can do, in any order and with any answers of its surroundings. -/
inductive Step : Sending → SendingEvent → Sending → Prop where
  | receives (t : Sending) (outer : Message) (senderKey : Key) (session : SessionId)
      (content : Encapsulated) (r : Except ProcessError Received) (left : StoreView)
      (goes : StoreView.Goes (fun _ => True) (e.receive outer senderKey ⟨session, .encapsulated content⟩)
        t.view r left) :
      Step t .received ⟨left, t.copies ++ copyOf t.made.length r, t.made⟩
  | stores (t : Sending) (copy : Copy) (r : Except ProcessError Unit) (left : StoreView)
      (isCopy : copy ∈ t.copies)
      (goes : StoreView.Goes (fun _ => True) (e.commit copy.session) t.view r left) :
      Step t (.stored copy r) ⟨left, t.copies, t.made⟩
  | frames (t : Sending) (message : Message) (r : Except ProcessError Envelope) (left : StoreView)
      (goes : StoreView.Goes (fun _ => True) (e.encapsulate peer message) t.view r left) :
      Step t (.framed r) ⟨left, t.copies, t.made ++ numberOf id r⟩

/-- Whether no frame has been made since a copy of the session was taken that is now stored. -/
def InTime (t : Sending) : SendingEvent → Prop
  | .stored copy _ => copy.session.fileKey = e.sessionKey peer id → copy.taken = t.made.length
  | _ => True

inductive Timely : Sending → Prop where
  | start (view : StoreView) : Timely ⟨view, [], []⟩
  | step {t u : Sending} {event : SendingEvent} (timely : Timely t) (step : Step e peer id t event u)
      (inTime : InTime e peer id t event) : Timely u

/-- The session stands where its frames end, and each copy where it was taken. -/
structure Counts (first : Option FrameNumber) (t : Sending) : Prop where
  stands : ∀ s, t.view.filed (e.sessionKey peer id) = some s →
    s.outgoing = first.map (·.later t.made.length)
  made : t.made = (first.map (·.firsts t.made.length)).getD []
  copies : ∀ copy ∈ t.copies, copy.session.fileKey = e.sessionKey peer id →
    copy.taken ≤ t.made.length ∧ copy.session.outgoing = first.map (·.later copy.taken)

namespace Counts

variable {e : Endpoint} {peer : Identity} {id : SessionId} {first : Option FrameNumber} {t : Sending}
variable {r : StoreView}

theorem start (view : StoreView) :
    Counts e peer id ((view.filed (e.sessionKey peer id)).bind Session.outgoing) ⟨view, [], []⟩ := by
  refine ⟨?_, ?_, ?_⟩
  · intro s found
    have found : view.filed (e.sessionKey peer id) = some s := found
    rw [found, Option.bind_some]
    cases s.outgoing with
    | none => rfl
    | some f => exact congrArg some f.later_zero.symm
  · cases (view.filed (e.sessionKey peer id)).bind Session.outgoing <;> rfl
  · intro copy member
    cases member

/-- Other stores do not matter as long as the session stands where it stood. -/
theorem moved (counts : Counts e peer id first t) (same : ∀ s, r.filed (e.sessionKey peer id) = some s →
    s.outgoing = first.map (·.later t.made.length)) : Counts e peer id first ⟨r, t.copies, t.made⟩ :=
  ⟨same, counts.made, counts.copies⟩

theorem put (counts : Counts e peer id first t) {s : Session}
    (stands : s.fileKey = e.sessionKey peer id → s.outgoing = first.map (·.later t.made.length)) :
    Counts e peer id first ⟨t.view.put s, t.copies, t.made⟩ := by
  refine counts.moved fun u found => ?_
  rcases StoreView.filed_put_cases found with ⟨rfl, here⟩ | before
  · exact stands here
  · exact counts.stands u before

/-- A session that a frame moves on stands with its outgoing chain where it stood. -/
theorem spent (counts : Counts e peer id first t) {key : SessionKey} {s u : Session}
    {frame : Session.Protected} (found : t.view.filed key = some s) (spends : s.Spends frame u)
    (here : u.fileKey = e.sessionKey peer id) : u.outgoing = first.map (·.later t.made.length) := by
  have own := t.view.own key s found
  have place : key = e.sessionKey peer id := by
    rw [← own, ← spends.fileKey]
    exact here
  subst place
  rw [spends.outgoing_eq]
  exact counts.stands s found

theorem receives (counts : Counts e peer id first t) {outer : Message} {senderKey : Key}
    {session : SessionId} {content : Encapsulated} :
    (e.receive outer senderKey ⟨session, .encapsulated content⟩).Obeys
      (StoreView.rules fun _ => True) t.view
      fun u r => Counts e peer id first ⟨u, t.copies ++ copyOf t.made.length r, t.made⟩ := by
  have unchanged : ∀ u error, (∀ key s, u.filed key = some s → t.view.filed key = some s) →
      Counts e peer id first ⟨u, t.copies ++ copyOf t.made.length (.error error), t.made⟩ := by
    intro u error less
    have same := counts.moved (r := u) fun s found => counts.stands s (less _ s found)
    exact ⟨same.stands, same.made, by simpa [copyOf] using same.copies⟩
  cases enabled : e.policy.enabled with
  | false =>
      rw [Endpoint.receive_disabled enabled]
      refine Endpoint.refuse_view.mono ?_
      rintro u o (⟨rfl, rfl⟩ | ⟨reason, error, _, rfl, rfl⟩)
      · exact unchanged _ _ fun _ _ found => found
      · exact unchanged _ _ fun _ _ found => found
  | true =>
      rw [Endpoint.receive_encapsulated enabled]
      refine Endpoint.receiveEncapsulated_receipt.mono ?_
      intro u o receipt
      have erased : ∀ key s, (t.view.erase (e.sessionKey outer.sender session)).filed key = some s →
          t.view.filed key = some s := fun _ _ found => StoreView.filed_without_some found
      cases receipt with
      | broken call error admitted => exact unchanged _ _ fun _ _ found => found
      | unsent left reason envelope error cause admitted =>
          rcases cause with ⟨_, rfl⟩ | ⟨_, rfl⟩
          · exact unchanged _ _ fun _ _ found => found
          · exact unchanged _ _ erased
      | unknown gone => exact unchanged _ _ fun _ _ found => found
      | refused s refusal found why => exact unchanged _ _ erased
      | early s found _ early => exact unchanged _ _ fun _ _ found => found
      | unread s u plaintext fault found authentic unread =>
          have spends := Session.decrypt_spends authentic.decrypted
          have moved := counts.put (counts.spent found spends)
          exact ⟨moved.stands, moved.made, by simpa [copyOf] using moved.copies⟩
      | opened s u plaintext inner found authentic read =>
          have spends := Session.decrypt_spends authentic.decrypted
          refine ⟨counts.stands, counts.made, ?_⟩
          intro copy member here
          rcases List.mem_append.mp member with old | new
          · exact counts.copies copy old here
          · obtain rfl := List.mem_singleton.mp new
            exact ⟨Nat.le_refl _, counts.spent found spends here⟩

theorem stores (counts : Counts e peer id first t) {copy : Copy} (isCopy : copy ∈ t.copies)
    (inTime : copy.session.fileKey = e.sessionKey peer id → copy.taken = t.made.length) :
    (e.commit copy.session).Obeys (StoreView.rules fun _ => True) t.view
      fun u _ => Counts e peer id first ⟨u, t.copies, t.made⟩ := by
  refine Endpoint.commit_view.mono ?_
  rintro u o (⟨rfl, rfl⟩ | ⟨call, error, _, rfl, rfl⟩)
  · refine counts.put fun here => ?_
    rw [← inTime here]
    exact (counts.copies copy isCopy here).2
  · exact counts

/-- The session makes its next frame. -/
theorem next {f : FrameNumber} (counts : Counts e peer id (some f) t) {u : Session}
    (here : u.fileKey = e.sessionKey peer id)
    (outgoing : u.outgoing = some (f.later (t.made.length + 1))) :
    Counts e peer id (some f) ⟨t.view.put u, t.copies, t.made ++ [f.later t.made.length]⟩ := by
  have length : (t.made ++ [f.later t.made.length]).length = t.made.length + 1 := by simp
  have made : t.made = f.firsts t.made.length := counts.made
  refine ⟨?_, ?_, ?_⟩
  · intro s found
    have found : (t.view.put u).filed (e.sessionKey peer id) = some s := found
    rw [← here, StoreView.filed_put, Function.update_self] at found
    obtain rfl := Option.some.inj found
    rw [outgoing]
    show _ = some (f.later (t.made ++ [f.later t.made.length]).length)
    rw [length]
  · show t.made ++ [f.later t.made.length] = f.firsts (t.made ++ [f.later t.made.length]).length
    rw [length, FrameNumber.firsts_succ, ← made]
  · intro copy member place
    obtain ⟨before, outgoing⟩ := counts.copies copy member place
    refine ⟨?_, outgoing⟩
    show copy.taken ≤ (t.made ++ [f.later t.made.length]).length
    omega

theorem frames (counts : Counts e peer id first t) {u : StoreView} {r : Except ProcessError Envelope}
    (framing : e.Framing peer t.view u r) :
    Counts e peer id first ⟨u, t.copies, t.made ++ numberOf id r⟩ := by
  rcases framing_cases framing with ⟨none, rfl | ⟨s, rfl, elsewhere⟩⟩ |
    ⟨s, u, f, found, number, one, rfl, here, next⟩
  · rw [none, List.append_nil]
    exact counts
  · rw [none, List.append_nil]
    exact counts.put fun same => (elsewhere same).elim
  · have stands := counts.stands s found
    rw [number] at stands
    obtain ⟨g, rfl, now⟩ := Option.map_eq_some_iff.mp stands.symm
    rw [one, ← now]
    refine counts.next here ?_
    rw [next, ← now, g.later_succ]

theorem step {u : Sending} {event : SendingEvent} (counts : Counts e peer id first t)
    (step : Step e peer id t event u) (inTime : InTime e peer id t event) :
    Counts e peer id first u := by
  cases step with
  | receives outer senderKey session content r left goes => exact goes.holds counts.receives
  | stores copy r left isCopy goes => exact goes.holds (counts.stores isCopy inTime)
  | frames message r left goes => exact counts.frames (goes.holds Endpoint.encapsulate_framing)

end Counts

theorem Timely.counts {e : Endpoint} {peer : Identity} {id : SessionId} {t : Sending}
    (timely : Timely e peer id t) : ∃ first, Counts e peer id first t := by
  induction timely with
  | start view => exact ⟨_, Counts.start view⟩
  | step _ step inTime ih =>
      obtain ⟨first, counts⟩ := ih
      exact ⟨first, counts.step step inTime⟩

structure Distinct (e : Endpoint) (peer : Identity) (id : SessionId) (t : Sending) : Prop where
  /-- No two frames have the same number. -/
  nodup : t.made.length ≤ UInt64.size → t.made.Nodup
  /-- When a copy of the session is stored, the next frame repeats a number exactly if a frame
  was made since the copy was taken. -/
  repeats : t.made.length < UInt64.size → ∀ copy u v r f,
    copy.session.fileKey = e.sessionKey peer id → Step e peer id t (.stored copy (.ok ())) u →
      Step e peer id u (.framed r) v → numberOf id r = [f] →
        (f ∈ t.made ↔ copy.taken < t.made.length)

/-- The counters of outgoing frames are distinct as long as no frame is made between the
taking and the storing of a copy of the session, and no longer. -/
theorem counters_distinct (e : Endpoint) (peer : Identity) (id : SessionId) :
    ∀ t, Timely e peer id t → Distinct e peer id t := by
  intro t timely
  obtain ⟨first, counts⟩ := timely.counts
  refine ⟨?_, ?_⟩
  · intro fits
    rw [counts.made]
    cases first with
    | none => exact List.nodup_nil
    | some f => exact f.nodup_firsts fits
  · intro fits copy u v r f here stored framed number
    cases stored with
    | stores copy o left isCopy goes =>
    cases framed with
    | frames message o right goesOn =>
    obtain ⟨before, outgoing⟩ := counts.copies copy isCopy here
    have stored : left = t.view.put copy.session := by
      rcases goes.holds Endpoint.commit_view with ⟨_, same⟩ | ⟨_, _, _, other, _⟩
      · exact same
      · cases other
    -- The frame is made by the copy, which stands where it was taken.
    rcases framing_cases (goesOn.holds Endpoint.encapsulate_framing) with ⟨none, _⟩ |
      ⟨s, _, g, found, stands, one, _⟩
    · rw [number] at none
      cases none
    · have found : left.filed (e.sessionKey peer id) = some s := found
      rw [stored, ← here, StoreView.filed_put, Function.update_self] at found
      obtain rfl := Option.some.inj found
      obtain rfl : f = g := List.head_eq_of_cons_eq (number.symm.trans one)
      rw [stands] at outgoing
      obtain ⟨h, rfl, taken⟩ := Option.map_eq_some_iff.mp outgoing.symm
      have made : t.made = h.firsts t.made.length := counts.made
      rw [← taken, made, FrameNumber.length_firsts]
      exact h.mem_firsts fits before

/-! ## A copy that is stored late -/

section Example

def plainEndpoint : Endpoint := Setting.processor.endpoint

def received : Except ProcessError Received × EndpointState :=
  EndpointState.plainOutcome (plainEndpoint.receive
    ((plainBoxedFrame 0 .contactDeletePhoto).outer plainLink.session (plainContent 0 .contactDeletePhoto))
    Setting.peerKey ⟨plainLink.session, .encapsulated (plainContent 0 .contactDeletePhoto)⟩)
    (.single plainSession)

def answered : Except ProcessError Envelope × EndpointState :=
  EndpointState.plainOutcome
    (plainEndpoint.encapsulate Setting.peer (Setting.message .contactDeletePhoto)) received.2

/-- The copy that the received frame has left, before our frame was made. -/
def lateCopy : Copy :=
  ⟨(plainSession.decrypt .plain (plainContent 0 .contactDeletePhoto).sealed
    Ratchet.defaultMaxSkip).2, 0⟩

def storedLate : Except ProcessError Unit × EndpointState :=
  EndpointState.plainOutcome (plainEndpoint.commit lateCopy.session) answered.2

def repeated : Except ProcessError Envelope × EndpointState :=
  EndpointState.plainOutcome
    (plainEndpoint.encapsulate Setting.peer (Setting.message .contactDeletePhoto)) storedLate.2

/-- When a frame is made before the copy of a received one is stored, the next frame has its
number again. -/
theorem counters_distinct_late :
    ∃ t u v r f, Timely plainEndpoint Setting.peer plainLink.session t ∧
      Distinct plainEndpoint Setting.peer plainLink.session t ∧ lateCopy.taken < t.made.length ∧
      Step plainEndpoint Setting.peer plainLink.session t (.stored lateCopy (.ok ())) u ∧
      Step plainEndpoint Setting.peer plainLink.session u (.framed r) v ∧
      numberOf plainLink.session r = [f] ∧ f ∈ t.made := by
  have receives : Step plainEndpoint Setting.peer plainLink.session
      ⟨(EndpointState.single plainSession).view, [], []⟩ .received
      ⟨received.2.view, copyOf 0 received.1, []⟩ :=
    .receives ⟨_, [], []⟩ _ _ _ _ _ _ (EndpointState.plain_goes _ _)
  have frames : Step plainEndpoint Setting.peer plainLink.session
      ⟨received.2.view, copyOf 0 received.1, []⟩ (.framed answered.1)
      ⟨answered.2.view, copyOf 0 received.1, numberOf plainLink.session answered.1⟩ :=
    .frames ⟨_, _, []⟩ _ _ _ (EndpointState.plain_goes _ _)
  have second : Timely plainEndpoint Setting.peer plainLink.session
      ⟨answered.2.view, copyOf 0 received.1, numberOf plainLink.session answered.1⟩ :=
    .step (.step (.start _) receives trivial) frames trivial
  have left : copyOf 0 received.1 = [lateCopy] := by decide +kernel
  have made : numberOf plainLink.session answered.1 = [(.four, 1)] := by decide +kernel
  have again : numberOf plainLink.session repeated.1 = [(.four, 1)] := by decide +kernel
  have ok : storedLate.1 = .ok () := ok_of_toOption (by decide +kernel)
  rw [left, made] at second
  have distinct := counters_distinct plainEndpoint Setting.peer plainLink.session _ second
  have stored : Step plainEndpoint Setting.peer plainLink.session
      ⟨answered.2.view, [lateCopy], [(.four, 1)]⟩ (.stored lateCopy (.ok ()))
      ⟨storedLate.2.view, [lateCopy], [(.four, 1)]⟩ := by
    rw [← ok]
    exact .stores _ lateCopy _ _ List.mem_cons_self (EndpointState.plain_goes _ _)
  have framed : Step plainEndpoint Setting.peer plainLink.session
      ⟨storedLate.2.view, [lateCopy], [(.four, 1)]⟩ (.framed repeated.1) _ :=
    .frames _ _ _ _ (EndpointState.plain_goes _ _)
  have repeats := distinct.repeats (by decide) lateCopy _ _ _ _ (by decide +kernel) stored framed again
  exact ⟨_, _, _, _, _, second, distinct, Nat.zero_lt_one, stored, framed, again,
    repeats.mpr Nat.zero_lt_one⟩

end Example

end Sending

end SecureInbox
