import SecureInbox.Proofs.Intake.Conduct
import SecureInbox.Proofs.Intake.Reply
import SecureInbox.Proofs.Intake.Trail
import SecureInbox.Proofs.Store.Table

/-! # Peers that share a store

All peers' sessions are in one store, and what is done for one peer may stand between any two
requests of what is done for another.  A `SharedWorld` has such a store and all that is being done;
an `Operation` says what is done, and for whom.

What is done for a peer stays in the peer's scope (`Operation.script_scope`), as long as sessions
are found under their own keys, which they are in any store that was empty at first.  So nothing
that is done for others touches the sessions of a peer, and what is sent answers the one who is
served (`neighbours_apart`). -/
set_option autoImplicit false

namespace SecureInbox

inductive Operation where
  | process (boxed : Boxed)
  | receive (outer : Message) (senderKey : Key) (envelope : Envelope)
  /-- Stores the session that a frame of a peer's left to be stored. -/
  | commit (peer : Identity) (session : Session)
  | initiate (peer : Identity) (peerKey : Key)
  | encapsulate (peer : Identity) (message : Message)

namespace Operation

def peer : Operation → Identity
  | .process boxed => boxed.sender
  | .receive outer _ _ => outer.sender
  | .commit peer _ => peer
  | .initiate peer _ => peer
  | .encapsulate peer _ => peer

/-- What is done; it gives the sessions that wait to be stored. -/
def script (p : Processor) : Operation → Script (List Session)
  | .process boxed => (p.process boxed).andThen fun _ => .done []
  | .receive outer senderKey envelope =>
    (p.endpoint.receive outer senderKey envelope).run.andThen fun o => .done (Conduct.pending o)
  | .commit _ session => (p.endpoint.commit session).run.andThen fun _ => .done []
  | .initiate peer peerKey => (p.endpoint.initiate peer peerKey).run.andThen fun _ => .done []
  | .encapsulate peer message => (p.endpoint.encapsulate peer message).run.andThen fun _ => .done []

def Holds (p : Processor) (past : List Exchange) (envelope : Envelope) : Operation → Prop
  | .process boxed => boxed.Holds p past envelope
  | .receive _ _ heard => heard = envelope
  | _ => False

/-- Whether what a request sends, if it sends anything, answers the envelope that is processed. -/
def Answered (p : Processor) (operation : Operation) (past : List Exchange) (r : Request) : Prop :=
  r.Answers operation.peer fun envelope => operation.Holds p past envelope

end Operation

/-- Something that is being done, with what was asked and answered so far. -/
structure Execution where
  operation : Operation
  past : List Exchange
  rest : Script (List Session)

structure SharedWorld (σ : Type) where
  world : World σ
  executions : List Execution

inductive OperationEvent where
  | started (operation : Operation)
  | asked (operation : Operation) (x : Exchange)

def OperationEvent.IsFor (peer : Identity) : OperationEvent → Prop
  | .started _ => False
  | .asked operation _ => operation.peer = peer

namespace SharedWorld

variable {σ : Type} (p : Processor)

/-- Whether something may be begun: a session is only stored that a frame of the peer's left. -/
def Allows (b : SharedWorld σ) : Operation → Prop
  | .commit peer session => ∃ outer senderKey envelope past pending,
      outer.sender = peer ∧ session ∈ pending ∧
        ⟨.receive outer senderKey envelope, past, .done pending⟩ ∈ b.executions
  | _ => True

inductive Step : SharedWorld σ → OperationEvent → SharedWorld σ → Prop where
  | start (b : SharedWorld σ) (operation : Operation) (allowed : b.Allows operation) :
      Step b (.started operation) ⟨b.world, b.executions ++ [⟨operation, [], operation.script p⟩]⟩
  | ask (b : SharedWorld σ) (host : Host σ) (before after : List Execution) (operation : Operation)
      (past : List Exchange) (request : Request) (next : request.Answer → Script (List Session))
      (turn : b.executions = before ++ ⟨operation, past, .ask request next⟩ :: after) :
      Step b (.asked operation ⟨request, (b.world.answer p.endpoint.suite host request).1⟩)
        ⟨(b.world.answer p.endpoint.suite host request).2,
          before ++ ⟨operation, past ++ [⟨request, (b.world.answer p.endpoint.suite host request).1⟩],
            next (b.world.answer p.endpoint.suite host request).1⟩ :: after⟩

inductive Run : SharedWorld σ → List OperationEvent → SharedWorld σ → Prop where
  | nil (b : SharedWorld σ) : Run b [] b
  | cons {b c d : SharedWorld σ} {event : OperationEvent} {events : List OperationEvent}
      (step : Step p b event c) (later : Run c events d) : Run b (event :: events) d

end SharedWorld

/-! ## Stores that were empty at first -/

def Exchange.isBest : Exchange → Prop
  | ⟨.store (.best mine peer), answer⟩ =>
      ∀ s, answer = .ok (some s) → s.fileKey.isOfPair mine peer = true
  | _ => True

namespace SessionStore

variable {suite : Suite} {store : SessionStore}

theorem Filed.best (filed : store.Filed suite) {mine peer : String} {s : Session}
    (found : store.best suite mine peer = .ok (some s)) : s.fileKey.isOfPair mine peer = true := by
  cases store with
  | memory book => exact (SessionBook.find?_best (Except.ok.inj found)).2
  | table vault rows =>
      simp only [SessionStore.best] at found
      rcases rows.best_cases mine peer with ⟨row, best, member, ofPair, _⟩ | ⟨none, _⟩
      · rw [best] at found
        cases read : SessionTable.read suite vault row with
        | error error =>
            rw [opened, read] at found
            cases found
        | ok t =>
            rw [opened, read] at found
            obtain rfl := Option.some.inj (Except.ok.inj found)
            rw [filed row member t read]
            exact ofPair
      · rw [none] at found
        cases found

/-- A store without sessions, in which what is sealed can be opened. -/
inductive Begins (suite : Suite) : SessionStore → Prop where
  | memory : Begins suite (.memory .empty)
  | table (vault : Vault) (opens : suite.Opens) : Begins suite (.table vault .empty)

/-- Whether sessions are found under their own keys, and will be. -/
structure Sound (suite : Suite) (store : SessionStore) : Prop where
  filed : store.Filed suite
  opens : (∃ book, store = .memory book) ∨ suite.Opens

theorem Begins.sound (begins : store.Begins suite) : store.Sound suite := by
  cases begins with
  | memory => exact ⟨trivial, .inl ⟨_, rfl⟩⟩
  | table vault opens => exact ⟨fun _ member => (nomatch member), .inr opens⟩

end SessionStore

namespace World

variable {σ : Type} {suite : Suite} {host : Host σ} {w : World σ} {r : Request}
  {nonces : NonceRegister} {sessions : SessionStore}

theorem StoresAfter.sound (after : w.StoresAfter suite r nonces sessions)
    (sound : w.sessions.Sound suite) : sessions.Sound suite := by
  obtain ⟨filed, ⟨book, memory⟩ | opens⟩ := sound
  · have still : ∃ book, sessions = .memory book := by
      cases after with
      | put stored =>
          rw [memory] at stored
          exact ⟨_, (Except.ok.inj stored).symm⟩
      | erased key =>
          rw [memory]
          exact ⟨_, rfl⟩
      | pairErased mine peer =>
          rw [memory]
          exact ⟨_, rfl⟩
      | _ => exact ⟨book, memory⟩
    obtain ⟨book, rfl⟩ := still
    exact ⟨trivial, .inl ⟨book, rfl⟩⟩
  · exact ⟨after.filed opens filed, .inr opens⟩

theorem isBest_answer (filed : w.sessions.Filed suite) (r : Request) :
    Exchange.isBest ⟨r, (w.answer suite host r).1⟩ := by
  cases r with
  | store call =>
      cases call with
      | best mine peer =>
          intro s found
          simp only [answer] at found
          split at found
          · cases found
          · exact SessionStore.Filed.best filed found
      | _ => trivial
  | _ => trivial

end World

/-! ## Each in the scope of its peer -/

theorem Script.Obeys.restrict {σ α : Type} {rules : Rules σ} {admits : σ → Exchange → Prop}
    (fewer : ∀ s x, admits s x → rules.admits s x) {script : Script α} :
    ∀ {s : σ} {post : σ → α → Prop}, Obeys rules script s post →
      Obeys { rules with admits } script s post := by
  induction script with
  | done value => exact fun holds => holds
  | ask request next ih =>
      intro s post obeys
      exact ⟨obeys.1, fun answer admitted => ih answer (obeys.2 answer (fewer _ _ admitted))⟩

namespace PeerScope

variable {c : PeerScope}

/-- The rules of a scope, where also the best session of a pair is one of the pair. -/
def home (c : PeerScope) : Rules Bool := { c.rules with admits := fun _ x => x.isFiled ∧ x.isBest }

theorem Keeps.home {α : Type} {part : Intake α} {inside : Bool} {post : Except ProcessError α → Prop}
    (keeps : c.Keeps inside part post) : part.Obeys c.home inside fun _ o => post o :=
  (Intake.Obeys.mono keeps fun _ _ both => both.2).restrict fun _ _ known => known.1

end PeerScope

namespace Endpoint

variable (e : Endpoint) {peer : Identity} {traces : NonceHash → Prop} {inside : Bool}

theorem initiate_scope (peerKey : Key) :
    (e.scope peer traces).Keeps inside (e.initiate peer peerKey) fun _ => True := by
  unfold initiate
  refine PeerScope.Keeps.asks_bind ((Intake.asks_draw _).mpr trivial) ?_ fun _ => trivial
  intro ephemeral
  refine PeerScope.Keeps.asks_bind ((Intake.asks_draw _).mpr trivial) ?_ fun _ => trivial
  intro id
  refine PeerScope.Keeps.asks_bind ((Intake.asks_request _).mpr trivial) ?_ fun _ => trivial
  intro created
  split
  · exact .throw trivial
  · next session ephemeralKey opened =>
    have own : (e.scope peer traces).holds session.fileKey := by
      rw [(Session.initiate_ok opened).2.1]
      exact e.holds_sessionKey id
    exact .store_bind own (fun _ _ => .pure trivial) fun _ => trivial

theorem encapsulate_home (message : Message) :
    (e.encapsulate peer message).Obeys (e.scope peer traces).home inside fun _ _ => True := by
  unfold encapsulate
  split
  · trivial
  · refine (Intake.obeys_bind _ _ _ _ _).mpr ((Intake.obeys_draw _ _ _ _).mpr ⟨⟨trivial, nofun⟩, ?_⟩)
    intro padding _
    show (e.protect peer _ _).Obeys _ inside _
    unfold protect
    refine (Intake.obeys_bind _ _ _ _ _).mpr ((Intake.obeys_store _ _ _ _).mpr ⟨⟨⟨rfl, rfl⟩, nofun⟩, ?_⟩)
    rintro answer ⟨_, isBest⟩
    match answer with
    | .error error => trivial
    | .ok none => trivial
    | .ok (some session) =>
        have ofPair : (e.scope peer traces).holds session.fileKey := isBest session rfl
        refine PeerScope.Keeps.home (.asks_bind ((Intake.asks_draw _).mpr trivial) ?_ fun _ => trivial)
        intro nonce
        split
        · exact .throw trivial
        · next sealed moved encrypted =>
          have own : (e.scope peer traces).holds moved.fileKey := by
            rw [(Session.encrypt_ok encrypted).1]
            exact ofPair
          exact .store_bind own (fun _ _ => .pure trivial) fun _ => trivial

theorem initiate_silent (peerKey : Key) : Intake.Asks Request.IsSilent (e.initiate peer peerKey) := by
  refine ((Intake.asks_draw _).mpr trivial).bind fun ephemeral => ?_
  refine ((Intake.asks_draw _).mpr trivial).bind fun id => ?_
  refine ((Intake.asks_request _).mpr trivial).bind fun created => ?_
  split
  · trivial
  · exact ((Intake.asks_store _).mpr trivial).bind fun _ => trivial

theorem encapsulate_silent (message : Message) :
    Intake.Asks Request.IsSilent (e.encapsulate peer message) := by
  unfold encapsulate
  split
  · trivial
  · refine ((Intake.asks_draw _).mpr trivial).bind fun padding => ?_
    refine ((Intake.asks_store _).mpr trivial).bind fun best => ?_
    cases best with
    | none => trivial
    | some session =>
        refine ((Intake.asks_draw _).mpr trivial).bind fun nonce => ?_
        split
        · trivial
        · exact ((Intake.asks_store _).mpr trivial).bind fun _ => trivial

end Endpoint

namespace Operation

variable (p : Processor)

/-- What belongs to the peer for whom something is done; whose the nonces are does not matter here. -/
def scope (operation : Operation) : PeerScope := p.endpoint.scope operation.peer fun _ => True

def IsOwn : Operation → Prop
  | .commit peer session => (p.endpoint.scope peer fun _ => True).holds session.fileKey
  | _ => True

variable {p} {operation : Operation}

/-- What is done for a peer stays in the peer's scope, and the sessions that it leaves to be stored
belong there too. -/
theorem script_scope (own : operation.IsOwn p) :
    (operation.script p).Obeys (operation.scope p).home false fun _ pending =>
      ∀ s ∈ pending, (operation.scope p).holds s.fileKey := by
  have nothing {α : Type} {first : Script α} {s : Bool} {post : Bool → α → Prop}
      (obeys : first.Obeys (operation.scope p).home s post) :
      (first.andThen fun _ => .done []).Obeys (operation.scope p).home s fun _ (pending : List Session) =>
        ∀ s ∈ pending, (operation.scope p).holds s.fileKey :=
    (Script.obeys_andThen _ _ _ _ _).mpr (obeys.mono fun _ _ _ _ member => nomatch member)
  cases operation with
  | process boxed =>
      have keeps : (p.process boxed).Obeys (p.endpoint.scope boxed.sender fun _ => True).rules false
        fun inside _ => inside = false := p.process_scope trivial
      exact nothing (keeps.restrict fun _ _ known => known.1)
  | receive outer senderKey envelope =>
      refine (Script.obeys_andThen _ _ _ _ _).mpr ?_
      refine Script.Obeys.mono (p.endpoint.receive_scope outer senderKey envelope).home ?_
      intro _ o isPending s member
      match o, member with
      | .ok ⟨_, _, some session⟩, member =>
          obtain rfl := List.mem_singleton.mp member
          exact isPending _ s rfl rfl
  | commit peer session => exact nothing (p.endpoint.commit_scope own).home
  | initiate peer peerKey => exact nothing (p.endpoint.initiate_scope peerKey).home
  | encapsulate peer message => exact nothing (p.endpoint.encapsulate_home message)

theorem grows (p : Processor) (operation : Operation) : Grows (operation.Answered p) := by
  cases operation with
  | process boxed => exact p.boxed_grows boxed
  | _ => exact fun _ _ _ _ answered => answered

/-- What is sent for a peer answers the envelope that is processed. -/
theorem script_answered (p : Processor) (operation : Operation) :
    (operation.script p).Obeys (.history (operation.Answered p)) [] fun _ _ => True := by
  have within {α : Type} {first : Script α} {f : α → Script (List Session)} (pending : α → List Session)
      (same : ∀ a, f a = .done (pending a))
      (obeys : first.Obeys (.history (operation.Answered p)) [] fun _ _ => True) :
      (first.andThen f).Obeys (.history (operation.Answered p)) [] fun _ _ => True := by
    refine (Script.obeys_andThen _ _ _ _ _).mpr (obeys.mono fun _ a _ => ?_)
    rw [same]
    trivial
  have asking {α : Type} {part : Intake α} (asks : Intake.Asks (operation.Answered p []) part) :
      part.run.Obeys (.history (operation.Answered p)) [] fun _ _ => True :=
    Script.Obeys.mono (Intake.Follows.gives (grows p operation) asks) fun _ _ _ => trivial
  have quiet {α : Type} {part : Intake α} (silent : Intake.Asks Request.IsSilent part) :
      part.run.Obeys (.history (operation.Answered p)) [] fun _ _ => True :=
    asking (silent.mono fun _ => Request.answers_of_silent)
  cases operation with
  | process boxed => exact within _ (fun _ => rfl) (p.process_replies boxed)
  | receive outer senderKey envelope =>
      have answers := p.endpoint.receive_answers outer senderKey envelope
      exact within _ (fun _ => rfl) (asking (answers.mono fun _ answers => answers.mono fun _ => Eq.symm))
  | commit peer session => exact within _ (fun _ => rfl) (quiet (p.endpoint.commit_silent session))
  | initiate peer peerKey => exact within _ (fun _ => rfl) (quiet (p.endpoint.initiate_silent peerKey))
  | encapsulate peer message =>
      exact within _ (fun _ => rfl) (quiet (p.endpoint.encapsulate_silent message))

end Operation

/-! ## The run -/

/-- What is being done has come so far as its script says, is for a peer of its own, and all that
it was told is so. -/
structure Execution.Proper (p : Processor) (execution : Execution) : Prop where
  reaches : (execution.operation.script p).Reaches execution.past execution.rest
  known : ∀ x ∈ execution.past, x.isFiled ∧ x.isBest
  own : execution.operation.IsOwn p

namespace Execution.Proper

variable {p : Processor} {execution : Execution}

theorem admitted (proper : execution.Proper p) :
    (execution.operation.scope p).home.AdmitsAll false execution.past :=
  Rules.admitsAll_of_mem (fun x member _ => proper.known x member) false

theorem has (proper : execution.Proper p) :
    ∀ x ∈ execution.past, (execution.operation.scope p).has x.request := by
  have allowed := (Operation.script_scope proper.own).allowed proper.reaches proper.admitted
  exact allowed.each fun _ _ => And.left

theorem pending (proper : execution.Proper p) {sessions : List Session}
    (ended : execution.rest = .done sessions) :
    ∀ s ∈ sessions, (execution.operation.scope p).holds s.fileKey := by
  have rest := (Operation.script_scope proper.own).rest proper.reaches proper.admitted
  rw [ended] at rest
  exact rest

theorem answered (proper : execution.Proper p) {front back : List Exchange} {x : Exchange}
    (past : execution.past = front ++ x :: back) : execution.operation.Answered p front x.request := by
  have allowed := (Operation.script_answered p execution.operation).allowed proper.reaches
    (Rules.history_admits _ _)
  rw [past] at allowed
  exact Rules.history_allows allowed

/-- It goes on with what it was told. -/
theorem next {operation : Operation} {past : List Exchange} {request : Request}
    {next : request.Answer → Script (List Session)} {answer : request.Answer}
    (proper : Execution.Proper p ⟨operation, past, .ask request next⟩)
    (known : Exchange.isFiled ⟨request, answer⟩ ∧ Exchange.isBest ⟨request, answer⟩) :
    Execution.Proper p ⟨operation, past ++ [⟨request, answer⟩], next answer⟩ := by
  refine ⟨proper.reaches.snoc answer, ?_, proper.own⟩
  intro x member
  rcases List.mem_append.mp member with before | new
  · exact proper.known x before
  · obtain rfl := List.mem_singleton.mp new
    exact known

end Execution.Proper

namespace SharedWorld

variable {σ : Type} {p : Processor} {b c : SharedWorld σ} {event : OperationEvent}
    {events : List OperationEvent}

structure Sound (p : Processor) (b : SharedWorld σ) : Prop where
  store : b.world.sessions.Sound p.endpoint.suite
  executions : ∀ execution ∈ b.executions, execution.Proper p

theorem Sound.own (sound : b.Sound p) {operation : Operation} (allowed : b.Allows operation) :
    operation.IsOwn p := by
  cases operation with
  | commit peer session =>
      obtain ⟨outer, senderKey, envelope, past, pending, rfl, waits, member⟩ := allowed
      exact (sound.executions _ member).pending rfl session waits
  | _ => trivial

theorem Step.sound (step : Step p b event c) (sound : b.Sound p) : c.Sound p := by
  cases step with
  | start operation allowed =>
      refine ⟨sound.store, fun execution member => ?_⟩
      rcases List.mem_append.mp member with before | new
      · exact sound.executions execution before
      · obtain rfl := List.mem_singleton.mp new
        exact ⟨.refl _, fun _ none => (nomatch none), sound.own allowed⟩
  | ask host before after operation past request next turn =>
      have kept := (World.storesAfter_answer p.endpoint.suite host b.world request).sound sound.store
      refine ⟨kept, ?_⟩
      have all := sound.executions
      rw [turn] at all
      obtain ⟨front, mine, back⟩ : _ ∧ _ ∧ _ := by
        simpa only [List.forall_mem_append, List.forall_mem_cons] using all
      have filed := sound.store.filed
      simp only [List.forall_mem_append, List.forall_mem_cons]
      exact ⟨front, mine.next ⟨World.isFiled_answer filed request, World.isBest_answer filed request⟩, back⟩

theorem Run.sound (run : Run p b events c) (sound : b.Sound p) : c.Sound p := by
  induction run with
  | nil b => exact sound
  | cons step later ih => exact ih (step.sound sound)

/-- A request for one peer does not touch the sessions of another. -/
theorem Step.ofPair (step : Step p b event c) (sound : b.Sound p) {peer : Identity}
    (other : ¬event.IsFor peer) :
    c.world.sessions.ofPair p.endpoint.identity.text peer.text =
      b.world.sessions.ofPair p.endpoint.identity.text peer.text := by
  have after := step.sound sound
  cases step with
  | start operation allowed => rfl
  | ask host before behind operation past request next turn =>
      have proper := after.executions _ (List.mem_append_right _ List.mem_cons_self)
      have own := proper.has _ (List.mem_append_right _ (List.mem_singleton_self _))
      refine (World.storesAfter_answer p.endpoint.suite host b.world request).ofPair_of_ne own ?_
      rintro ⟨_, same⟩
      exact other (Identity.text_injective same)

theorem Run.ofPair (run : Run p b events c) (sound : b.Sound p) {peer : Identity}
    (others : ∀ event ∈ events, ¬event.IsFor peer) :
    c.world.sessions.ofPair p.endpoint.identity.text peer.text =
      b.world.sessions.ofPair p.endpoint.identity.text peer.text := by
  induction run with
  | nil b => rfl
  | cons step later ih =>
      have rest := ih (step.sound sound) fun event member => others event (List.mem_cons_of_mem _ member)
      exact rest.trans (step.ofPair sound (others _ List.mem_cons_self))

structure Apart (p : Processor) (b : SharedWorld σ) (events : List OperationEvent) (c : SharedWorld σ) :
    Prop where
  /-- While nothing is asked for a peer, the peer's sessions stay as they are. -/
  sessions : ∀ peer : Identity, (∀ event ∈ events, ¬event.IsFor peer) →
    c.world.sessions.ofPair p.endpoint.identity.text peer.text =
        b.world.sessions.ofPair p.endpoint.identity.text peer.text ∧
      c.world.sessions.best p.endpoint.suite p.endpoint.identity.text peer.text =
        b.world.sessions.best p.endpoint.suite p.endpoint.identity.text peer.text
  /-- What is sent goes to the peer who is served, in the session of the envelope that is
  processed. -/
  replies : ∀ execution ∈ c.executions, ∀ front x back, execution.past = front ++ x :: back →
    execution.operation.Answered p front x.request

/-- From an empty store on, peers do not touch each other's sessions, whatever is done for them at
the same time and whoever answers. -/
theorem neighbours_apart (p : Processor) {w : World σ} (begins : w.sessions.Begins p.endpoint.suite)
    {earlier events : List OperationEvent} (before : Run p ⟨w, []⟩ earlier b) (run : Run p b events c) :
    Apart p b events c := by
  have start : Sound p (⟨w, []⟩ : SharedWorld σ) := ⟨begins.sound, fun _ none => nomatch none⟩
  have sound := before.sound start
  refine ⟨fun peer others => ?_, fun execution member front x back past => ?_⟩
  · have same := run.ofPair sound others
    refine ⟨same, ?_⟩
    rw [← SessionStore.best_ofPair, same, SessionStore.best_ofPair]
  · exact ((run.sound sound).executions execution member).answered past

section Example

/-- Something that is done to its end while nothing else is. -/
def serve (p : Processor) (host : Host σ) (b : SharedWorld σ) (operation : Operation) :
    List OperationEvent × SharedWorld σ :=
  let ran := (operation.script p).run p.endpoint.suite host b.world
  (.started operation :: ran.exchanges.map (.asked operation),
    ⟨ran.world, b.executions ++ [⟨operation, ran.exchanges, .done ran.value⟩]⟩)

theorem run_serve (host : Host σ) (b : SharedWorld σ) (operation : Operation)
    (allowed : b.Allows operation) :
    Run p b (serve p host b operation).1 (serve p host b operation).2 := by
  have onward : ∀ (script : Script (List Session)) (w : World σ) (past : List Exchange),
      Run p ⟨w, b.executions ++ [⟨operation, past, script⟩]⟩
        ((script.run p.endpoint.suite host w).exchanges.map (.asked operation))
        ⟨(script.run p.endpoint.suite host w).world, b.executions ++ [⟨operation,
          past ++ (script.run p.endpoint.suite host w).exchanges,
          .done (script.run p.endpoint.suite host w).value⟩]⟩ := by
    intro script
    induction script with
    | done value =>
        intro w past
        simp only [Script.run, List.append_nil]
        exact .nil _
    | ask request next ih =>
        intro w past
        refine .cons (.ask _ host b.executions [] operation past request next rfl) ?_
        have rest := ih (w.answer p.endpoint.suite host request).1 (w.answer p.endpoint.suite host request).2
          (past ++ [⟨request, (w.answer p.endpoint.suite host request).1⟩])
        rw [List.append_assoc] at rest
        exact rest
  exact .cons (.start b operation allowed) (onward (operation.script p) b.world [])

def hello : Envelope := ⟨Block.zero 16, .init .supported Setting.peerKey⟩

def visited : List OperationEvent × SharedWorld Unit :=
  serve Setting.processor (.plain Setting.peerKey) ⟨.plain, []⟩
    (.receive { Setting.message (.envelope hello) with sender := Setting.bystander } Setting.peerKey hello)

def revisited : List OperationEvent × SharedWorld Unit :=
  serve Setting.processor (.plain Setting.peerKey) visited.2 (.process (Setting.boxed (.envelope hello) 1))

def bestId (b : SharedWorld Unit) (peer : Identity) : Option SessionId :=
  (b.world.sessions.best .plain Setting.us.text peer.text).toOption.join.map Session.id

/-- Sessions of one number with two peers are two sessions. -/
theorem neighbours_apart_sameId :
    bestId visited.2 Setting.bystander = some (Block.zero 16) ∧
      bestId revisited.2 Setting.bystander = some (Block.zero 16) ∧
        bestId revisited.2 Setting.peer = some (Block.zero 16) ∧
          Apart Setting.processor visited.2 revisited.1 revisited.2 := by
  have apart : Apart Setting.processor visited.2 revisited.1 revisited.2 :=
    neighbours_apart Setting.processor .memory (run_serve _ ⟨World.plain, []⟩ _ trivial)
      (run_serve _ visited.2 _ trivial)
  have unlike : Setting.peer ≠ Setting.bystander := by decide
  have others : ∀ event ∈ revisited.1, ¬event.IsFor Setting.bystander := by
    intro event member
    rcases List.mem_cons.mp member with rfl | asked
    · exact id
    · obtain ⟨x, _, rfl⟩ := List.mem_map.mp asked
      exact unlike
  have first : bestId visited.2 Setting.bystander = some (Block.zero 16) := by decide +kernel
  refine ⟨first, ?_, by decide +kernel, apart⟩
  have same := (apart.sessions Setting.bystander others).2
  exact (congrArg (fun best => best.toOption.join.map Session.id) same).trans first

end Example

end SharedWorld

end SecureInbox
