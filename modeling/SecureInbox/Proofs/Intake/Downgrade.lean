import Mathlib.Data.Set.Subsingleton
import SecureInbox.Proofs.Intake.Bindings
import SecureInbox.Proofs.Intake.Crossing
import SecureInbox.Proofs.Store.Agreement

/-! # Messages outside of a session

An endpoint that has a finished session with a peer minds when a message of the peer comes outside
of it.  Whether it has one it tells from one session, the one of the peer that was written last.
Which one that is, a `DatedView` knows: what the stores hold, with the ledger of the writings.

So a finished session is overlooked as long as the session that was written last is not finished
(`downgrade_noticed_iff`), and it is as soon as another session is opened with the same peer
(`initiate_hides`).  An endpoint that writes no session of a peer beside another one (`Act.Adds`)
overlooks none. -/
set_option autoImplicit false

namespace SecureInbox

/-! ## Stores with the order of writing -/

def Ledger.record (l : Ledger Session) : Exchange → Ledger Session
  | ⟨.store (.put s), .ok _⟩ => l.put s.fileKey s
  | ⟨.store (.erase key), .ok _⟩ => l.remove (· == key)
  | ⟨.store (.erasePair mine peer), .ok _⟩ => l.remove (SessionKey.isOfPair mine peer)
  | _ => l

theorem Ledger.record_failed (l : Ledger Session) (c : StoreCall) (error : StoreError) :
    l.record ⟨.store c, .error error⟩ = l := by
  cases c <;> rfl

theorem Ledger.Sound.record {l : Ledger Session} (sound : l.Sound) (x : Exchange) :
    (l.record x).Sound := by
  obtain ⟨request, answer⟩ := x
  cases request with
  | store c =>
      cases answer with
      | error error =>
          rw [record_failed]
          exact sound
      | ok a =>
          cases c with
          | put s => exact sound.put s.fileKey s
          | erase key => exact sound.remove _
          | erasePair mine peer => exact sound.remove _
          | _ => exact sound
  | _ => exact sound

/-- What the stores of an endpoint hold, with the ledger of what was written in them. -/
structure DatedView where
  view : StoreView
  ledger : Ledger Session
  filed : ∀ key, ledger.find? key = view.filed key
  sound : ledger.Sound

namespace DatedView

def empty : DatedView := ⟨.empty, .empty, fun _ => rfl, .empty⟩

/-- An exchange changes what is filed and the ledger alike. -/
theorem filed_record {r : StoreView} {l : Ledger Session} (filed : ∀ key, l.find? key = r.filed key)
    (x : Exchange) (key : SessionKey) : (l.record x).find? key = (r.after x).filed key := by
  obtain ⟨request, answer⟩ := x
  cases request with
  | store c =>
      cases answer with
      | error error =>
          rw [Ledger.record_failed, StoreView.after_failed]
          exact filed key
      | ok a =>
          cases c with
          | put s =>
              show (l.put s.fileKey s).find? key = (r.put s).filed key
              rw [Ledger.find?_put, StoreView.filed_put, Function.update_apply, filed key]
          | erase gone =>
              show (l.remove _).find? key = (r.without _).filed key
              rw [Ledger.find?_remove, filed key]
              rfl
          | erasePair mine peer =>
              show (l.remove _).find? key = (r.without _).filed key
              rw [Ledger.find?_remove, filed key]
              rfl
          | _ => exact filed key
  | host c =>
      cases c with
      | send peer envelope => cases answer <;> exact filed key
      | _ => exact filed key
  | _ => exact filed key

def after (a : DatedView) (x : Exchange) : DatedView :=
  ⟨a.view.after x, a.ledger.record x, filed_record a.filed x, a.sound.record x⟩

/-- Whether the session that a store calls the best one of a pair was written last, as it is in both
kinds of store (`SessionStore.stores_agree`). -/
def dates (a : DatedView) : Exchange → Prop
  | ⟨.store (.best mine peer), .ok best⟩ => a.ledger.IsBest mine peer best
  | _ => True

def rules (helps : Exchange → Prop) : Rules DatedView where
  allows _ _ := True
  admits a x := (a.view.answers x ∧ helps x) ∧ a.dates x
  after := after

variable {α : Type} {helps : Exchange → Prop} {a left : DatedView}

theorem admits_view (xs : List Exchange) : ∀ a : DatedView, (rules helps).AdmitsAll a xs →
    (StoreView.rules helps).AdmitsAll a.view xs ∧
      ((rules helps).afterAll a xs).view = (StoreView.rules helps).afterAll a.view xs := by
  induction xs with
  | nil => exact fun _ _ => ⟨trivial, rfl⟩
  | cons x xs ih =>
      intro a admitted
      obtain ⟨rest, same⟩ := ih (a.after x) admitted.2
      exact ⟨⟨admitted.1.1, rest⟩, same⟩

def Goes (helps : Exchange → Prop) (part : Intake α) (before : DatedView)
    (result : Except ProcessError α) (after : DatedView) : Prop :=
  ∃ xs, Script.Reaches part.run xs (.done result) ∧ (rules helps).AdmitsAll before xs ∧
    after = (rules helps).afterAll before xs

variable {part : Intake α} {o : Except ProcessError α}

theorem Goes.view (goes : Goes helps part a o left) : StoreView.Goes helps part a.view o left.view := by
  obtain ⟨xs, reaches, admitted, rfl⟩ := goes
  obtain ⟨admitted, same⟩ := admits_view xs a admitted
  exact ⟨xs, reaches, admitted, same⟩

theorem Goes.holds {post : DatedView → Except ProcessError α → Prop} (goes : Goes helps part a o left)
    (obeys : part.Obeys (rules helps) a post) : post left o := by
  obtain ⟨xs, reaches, admitted, rfl⟩ := goes
  exact obeys.rest reaches admitted

def LastIs (a : DatedView) (mine peer : String) (state : SessionState) : Prop :=
  ∃ s, a.ledger.IsBest mine peer (some s) ∧ s.state = state

def Finished (a : DatedView) (mine peer : String) : Prop :=
  ∃ key s, key.isOfPair mine peer = true ∧ a.view.filed key = some s ∧ s.state = .l40

variable {mine peer : String} {state : SessionState} {best : Option Session}

theorem lastIs_iff (isBest : a.ledger.IsBest mine peer best) :
    a.LastIs mine peer state ↔ ∃ s, best = some s ∧ s.state = state := by
  constructor
  · rintro ⟨s, last, same⟩
    exact ⟨s, a.sound.best_unique isBest last, same⟩
  · rintro ⟨s, rfl, same⟩
    exact ⟨s, isBest, same⟩

theorem LastIs.finished (last : a.LastIs mine peer .l40) : a.Finished mine peer := by
  obtain ⟨s, best, state⟩ := last
  obtain ⟨key, ofPair, found⟩ := best.filed
  exact ⟨key, s, ofPair, (a.filed key).symm.trans found, state⟩

/-- Some session of the pair was written last if there is one at all. -/
theorem Finished.last (finished : a.Finished mine peer) :
    ∃ key s, key.isOfPair mine peer = true ∧ a.view.filed key = some s ∧
      a.ledger.IsBest mine peer (some s) := by
  obtain ⟨known, t, ofPair, there, _⟩ := finished
  obtain ⟨best, isBest⟩ := a.sound.exists_best mine peer
  cases best with
  | none =>
      have gone := isBest.unfiled ofPair
      rw [a.filed known, there] at gone
      cases gone
  | some s =>
      obtain ⟨key, ofPair, found⟩ := isBest.filed
      exact ⟨key, s, ofPair, (a.filed key).symm.trans found, isBest⟩

end DatedView

namespace EndpointState

structure Files (d : EndpointState) (a : DatedView) : Prop where
  view : a.view = d.view
  follows : d.book.Follows a.ledger

theorem files_empty : (⟨.empty, .empty, []⟩ : EndpointState).Files .empty := ⟨rfl, .empty⟩

variable {secrets : Key → Prop} {d : EndpointState} {a : DatedView} {x : Exchange}

theorem Files.answer (files : d.Files a) (admitted : answers secrets d x) :
    a.view.answers x ∧ a.dates x ∧ (d.after x).Files (a.after x) := by
  obtain ⟨answered, _, same⟩ := view_answer admitted
  have view : (a.after x).view = (d.after x).view := by
    rw [same, ← files.view]
    rfl
  rw [← files.view] at answered
  suffices dated : a.dates x ∧ (d.after x).book.Follows (a.ledger.record x) from
    ⟨answered, dated.1, view, dated.2⟩
  obtain ⟨request, answer⟩ := x
  have follows := files.follows
  cases request with
  | store c =>
      cases c with
      | put s =>
          obtain rfl : answer = .ok () := admitted
          exact ⟨trivial, follows.put a.sound s⟩
      | erase key =>
          obtain rfl : answer = .ok (d.book.find? key).isSome := admitted
          exact ⟨trivial, follows.remove (· == key)⟩
      | erasePair mine peer =>
          obtain rfl : answer = .ok _ := admitted
          exact ⟨trivial, follows.remove _⟩
      | best mine peer =>
          obtain rfl : answer = .ok (d.book.best mine peer) := admitted
          exact ⟨follows.best mine peer, follows⟩
      | _ => exact ⟨trivial, follows⟩
  | host c => cases c <;> exact ⟨trivial, follows⟩
  | _ => exact ⟨trivial, follows⟩

/-- What can happen at an endpoint with its stores in memory can happen at their dated view. -/
theorem Files.admits (xs : List Exchange) : ∀ {d : EndpointState} {a : DatedView}, d.Files a →
    (rules secrets).AdmitsAll d xs → (DatedView.rules fun _ => True).AdmitsAll a xs ∧
      ((rules secrets).afterAll d xs).Files ((DatedView.rules fun _ => True).afterAll a xs) := by
  induction xs with
  | nil => exact fun files _ => ⟨trivial, files⟩
  | cons x xs ih =>
      intro d a files admitted
      obtain ⟨answered, dated, next⟩ := files.answer admitted.1
      obtain ⟨rest, last⟩ := ih next admitted.2
      exact ⟨⟨⟨⟨answered, trivial⟩, dated⟩, rest⟩, last⟩

/-- A part goes at the dated view as it runs with the stores in memory. -/
theorem files_goes {α : Type} (suite : Suite) {host : Host Unit} (serves : host.Serves fun _ => True)
    (part : Intake α) (files : d.Files a) :
    ∃ left, DatedView.Goes (fun _ => True) part a (d.outcomeAt suite host part).1 left ∧
      (d.outcomeAt suite host part).2.Files left := by
  have keeps : Keeps (⟨(), d.register, .memory d.book, none⟩ : World Unit) d := ⟨rfl, rfl⟩
  have admitted := (admits_run suite serves part.run keeps).1
  obtain ⟨honest, last⟩ := Files.admits _ files admitted
  exact ⟨_, ⟨_, Script.reaches_run suite host _ _, honest, rfl⟩, last⟩

end EndpointState

/-! ## One session or several -/

namespace StoreView

def ofPair (r : StoreView) (mine peer : String) : Set SessionKey :=
  {key | key.isOfPair mine peer = true ∧ (r.filed key).isSome = true}

variable {r : StoreView} {mine peer : String} {s : Session} {key : SessionKey}

theorem mem_ofPair (ofPair : key.isOfPair mine peer = true) (found : r.filed key = some s) :
    key ∈ r.ofPair mine peer := ⟨ofPair, found ▸ rfl⟩

theorem ofPair_without (gone : SessionKey → Bool) :
    (r.without gone).ofPair mine peer ⊆ r.ofPair mine peer := by
  rintro key ⟨ofPair, there⟩
  obtain ⟨s, found⟩ := Option.isSome_iff_exists.mp there
  exact mem_ofPair ofPair (filed_without_some found)

theorem ofPair_erasePair : (r.erasePair mine peer).ofPair mine peer = ∅ := by
  refine Set.eq_empty_iff_forall_notMem.mpr ?_
  rintro key ⟨ofPair, there⟩
  simp only [erasePair, without, if_pos ofPair] at there
  cases there

theorem mem_ofPair_put (member : key ∈ (r.put s).ofPair mine peer) :
    key = s.fileKey ∨ key ∈ r.ofPair mine peer := by
  obtain ⟨ofPair, there⟩ := member
  obtain ⟨t, found⟩ := Option.isSome_iff_exists.mp there
  rcases filed_put_cases found with ⟨_, here⟩ | before
  · exact .inl here.symm
  · exact .inr (mem_ofPair ofPair before)

/-- A session that is written where no other one of its pair is leaves no two of them. -/
theorem subsingleton_put (single : (r.ofPair mine peer).Subsingleton)
    (alone : s.fileKey.isOfPair mine peer = true → r.ofPair mine peer ⊆ {s.fileKey}) :
    ((r.put s).ofPair mine peer).Subsingleton := by
  intro key member other member'
  rcases mem_ofPair_put member with rfl | before <;> rcases mem_ofPair_put member' with rfl | before'
  · rfl
  · exact (alone member.1 before').symm
  · exact alone member'.1 before
  · exact single before before'

/-- A session that is written in the place of one that is there. -/
theorem subsingleton_replace {t : Session} (single : (r.ofPair mine peer).Subsingleton)
    (found : r.filed s.fileKey = some t) : ((r.put s).ofPair mine peer).Subsingleton :=
  subsingleton_put single fun ofPair _ member => single member (mem_ofPair ofPair found)

theorem subsingleton_without (single : (r.ofPair mine peer).Subsingleton) (gone : SessionKey → Bool) :
    ((r.without gone).ofPair mine peer).Subsingleton := single.anti (ofPair_without gone)

end StoreView

namespace Endpoint

section Hearing

variable {e : Endpoint} {helps : Exchange → Prop} {r : StoreView} {mine peer : String}

/-- An opening frame leaves its own session alone with the peer. -/
theorem subsingleton_answer {s : Session} {opener : String} {id : SessionId}
    (single : (r.ofPair mine peer).Subsingleton) (own : s.fileKey = ⟨e.identity.text, opener, id⟩) :
    (((r.erasePair e.identity.text opener).put s).ofPair mine peer).Subsingleton := by
  refine StoreView.subsingleton_put (StoreView.subsingleton_without single _) fun ofPair => ?_
  obtain ⟨rfl, rfl⟩ := SessionKey.isOfPair_iff.mp ofPair
  rw [own, StoreView.ofPair_erasePair]
  exact Set.empty_subset _

/-- Hearing an envelope leaves a peer with one session if it had no more. -/
theorem Hearing.subsingleton {outer : Message} {senderKey : Key} {envelope : Envelope} {u : StoreView}
    {o : Except ProcessError Received} (hearing : Hearing e helps r outer senderKey envelope u o)
    (single : (r.ofPair mine peer).Subsingleton) : (u.ofPair mine peer).Subsingleton := by
  have fewer := StoreView.subsingleton_without single
  cases hearing with
  | ended isEnd => exact fewer _
  | unended isEnd call error admitted => exact single
  | dismissed disabled dismissing =>
      cases dismissing with
      | unsent error => exact single
      | ended => exact single
      | rejected result what => exact single
  | answered enabled answering =>
      cases answering with
      | failed error => exact single
      | declined none => exact single
      | cleared error => exact fewer _
      | unsent version ephemeral created s key negotiated responded error =>
          exact subsingleton_answer single (Session.respond_ok responded).2.1
      | answered version ephemeral created s key negotiated responded =>
          exact subsingleton_answer single (Session.respond_ok responded).2.1
  | completed enabled completing =>
      cases completing with
      | failed error => exact single
      | unknown gone => exact single
      | ignored s found ready => exact single
      | undone s found waiting error => exact fewer _
      | declined s found waiting none => exact fewer _
      | completed version s t found negotiated accepted =>
          obtain ⟨_, _, out, back, rfl⟩ := Session.accept_ok accepted
          exact StoreView.subsingleton_replace single ((r.own _ s found).symm ▸ found)
  | read enabled receipt =>
      cases receipt with
      | broken call error admitted => exact single
      | unsent left reason envelope error cause admitted =>
          rcases cause with ⟨_, rfl⟩ | ⟨_, rfl⟩
          · exact single
          · exact fewer _
      | unknown gone => exact single
      | refused s refusal found why => exact fewer _
      | early s found known early => exact single
      | unread s t plaintext fault found authentic unread =>
          have keyed := (Session.decrypt_spends authentic.decrypted).fileKey
          refine StoreView.subsingleton_replace single (t := s) ?_
          rw [keyed, r.own _ s found]
          exact found
      | opened s t plaintext inner found authentic read => exact single

end Hearing

/-! ## Acts -/

namespace Act

/-- Whether an act is to write a session of a peer beside another one. -/
def Adds (e : Endpoint) (peer : Identity) (h : Holding) : Act → Prop
  | .initiate other _ => other.text = peer.text ∧ (h.view.ofPair e.identity.text peer.text).Nonempty
  | .store s _ => s.fileKey.isOfPair e.identity.text peer.text = true ∧
      ∃ key ∈ h.view.ofPair e.identity.text peer.text, key ≠ s.fileKey
  | _ => False

variable {e : Endpoint} {act : Act} {h k : Holding}

theorem Does.subsingleton {peer : Identity} (does : act.Does e h k) (alone : ¬act.Adds e peer h)
    (single : (h.view.ofPair e.identity.text peer.text).Subsingleton) :
    (k.view.ofPair e.identity.text peer.text).Subsingleton := by
  cases does with
  | hear goes => exact (goes.holds receive_hearing).subsingleton single
  | @store _ s _ _ _ held goes =>
      rcases goes.holds commit_view with ⟨_, rfl⟩ | ⟨_, _, _, _, rfl⟩
      · refine StoreView.subsingleton_put single fun ofPair key member => ?_
        exact Decidable.not_not.mp fun unlike => alone ⟨ofPair, key, member, unlike⟩
      · exact single
  | initiate goes =>
      cases goes.holds initiate_opening with
      | failed error => exact single
      | opened ephemeral id created s key drawn initiated =>
          refine StoreView.subsingleton_put single fun ofPair key member => ?_
          have own := (Session.initiate_ok initiated).2.1
          rw [own] at ofPair
          exact (alone ⟨(SessionKey.isOfPair_iff.mp ofPair).2, key, member⟩).elim
  | encapsulate goes =>
      cases goes.holds encapsulate_framing with
      | failed error => exact single
      | framed s t nonce plaintext sealed group found ofPair encrypted =>
          refine StoreView.subsingleton_replace single (t := s) ?_
          rw [(Session.encrypt_ok encrypted).1]
          exact found

end Act

def shapes : Conduct := ⟨fun s => ∃ shape, s.IsOf shape, fun _ => True, fun _ => True⟩

theorem shapes_sound {e : Endpoint} {r : StoreView} (keeps : shapes.Keeps r) : shapes.SoundAt e r where
  rejects _ _ := trivial
  terminates _ := trivial
  opens := by
    intro _ content s plaintext t _ found authentic
    obtain ⟨shape, is⟩ := keeps.filed _ s found
    rcases (Session.decrypt_trial authentic.decrypted).isOf is with after | ⟨_, after⟩
    · exact ⟨_, after⟩
    · exact ⟨_, after⟩
  answers := by
    intro _ _ _ _ _ _ _ _ s _ _ _ responded
    exact ⟨⟨_, (Session.respond_ok responded).1⟩, trivial⟩
  completes := by
    intro _ _ _ s t _ _ found accepted
    obtain ⟨shape, is⟩ := keeps.filed _ s found
    exact ⟨_, is.accepts accepted⟩

def Holding.Shaped (h : Holding) : Prop := shapes.Keeps h.view ∧ ∀ x ∈ h.held, shapes.session x.1

theorem Act.Does.shaped {e : Endpoint} {act : Act} {h k : Holding} (does : act.Does e h k)
    (shaped : h.Shaped) : k.Shaped := by
  obtain ⟨filed, held⟩ := shaped
  cases does with
  | hear goes =>
      obtain ⟨after, pending⟩ := goes.holds (Conduct.receive_keeps (shapes_sound filed) filed trivial)
      refine ⟨after, fun x member => ?_⟩
      rcases List.mem_append.mp member with new | old
      · obtain ⟨s, isNew, rfl⟩ := List.mem_map.mp new
        exact pending s isNew
      · exact held x old
  | store waiting goes => exact ⟨goes.holds (Conduct.commit_keeps filed (held _ waiting)), held⟩
  | initiate goes =>
      cases goes.holds initiate_opening with
      | failed error => exact ⟨filed, held⟩
      | opened ephemeral id created s key drawn initiated =>
          exact ⟨filed.put ⟨_, (Session.initiate_ok initiated).1⟩, held⟩
  | encapsulate goes =>
      cases goes.holds encapsulate_framing with
      | failed error => exact ⟨filed, held⟩
      | framed s t nonce plaintext sealed group found ofPair encrypted =>
          obtain ⟨shape, is⟩ := filed.filed _ s found
          exact ⟨filed.put ⟨shape, is.encrypts encrypted⟩, held⟩

/-! ## Over a run -/

structure DatedHolding where
  dated : DatedView
  held : List (Session × Key)

namespace DatedHolding

def empty : DatedHolding := ⟨.empty, []⟩

def holding (o : DatedHolding) : Holding := ⟨o.dated.view, o.held⟩

variable (e : Endpoint)

inductive Step : Act → DatedHolding → DatedHolding → Prop where
  | hear {o : DatedHolding} {outer : Message} {senderKey : Key} {envelope : Envelope}
      {r : Except ProcessError Received} {left : DatedView}
      (goes : DatedView.Goes (fun _ => True) (e.receive outer senderKey envelope) o.dated r left) :
      Step (.hear outer senderKey envelope) o
        ⟨left, (Conduct.pending r).map (·, senderKey) ++ o.held⟩
  | store {o : DatedHolding} {session : Session} {senderKey : Key} {r : Except ProcessError Unit}
      {left : DatedView} (held : (session, senderKey) ∈ o.held)
      (goes : DatedView.Goes (fun _ => True) (e.commit session) o.dated r left) :
      Step (.store session senderKey) o ⟨left, o.held⟩
  | initiate {o : DatedHolding} {peer : Identity} {peerKey : Key} {r : Except ProcessError Envelope}
      {left : DatedView}
      (goes : DatedView.Goes (fun _ => True) (e.initiate peer peerKey) o.dated r left) :
      Step (.initiate peer peerKey) o ⟨left, o.held⟩
  | encapsulate {o : DatedHolding} {peer : Identity} {message : Message}
      {r : Except ProcessError Envelope} {left : DatedView}
      (goes : DatedView.Goes (fun _ => True) (e.encapsulate peer message) o.dated r left) :
      Step (.encapsulate peer message) o ⟨left, o.held⟩

/-- What an endpoint can come to by acts that are allowed where they are done. -/
def Run (may : DatedHolding → Act → Prop) : DatedHolding → DatedHolding → Prop :=
  Relation.ReflTransGen fun o p => ∃ act, may o act ∧ Step e act o p

def Reachable : DatedHolding → Prop := Run e (fun _ _ => True) .empty

/-- What it can come to without writing a session of a peer beside another one. -/
def Tidy (peer : Identity) : DatedHolding → Prop :=
  Run e (fun o act => ¬act.Adds e peer o.holding) .empty

variable {e} {o p : DatedHolding}

theorem Step.does {act : Act} (step : Step e act o p) : act.Does e o.holding p.holding := by
  cases step with
  | hear goes => exact .hear goes.view
  | store held goes => exact .store held goes.view
  | initiate goes => exact .initiate goes.view
  | encapsulate goes => exact .encapsulate goes.view

theorem Reachable.shaped (reachable : Reachable e o) : o.holding.Shaped := by
  induction reachable with
  | refl => exact ⟨.empty shapes, fun _ member => nomatch member⟩
  | tail _ step ih =>
      obtain ⟨act, _, step⟩ := step
      exact step.does.shaped ih

theorem Tidy.subsingleton {peer : Identity} (tidy : Tidy e peer o) :
    (o.dated.view.ofPair e.identity.text peer.text).Subsingleton := by
  induction tidy with
  | refl => exact fun _ member => nomatch member.2
  | tail _ step ih =>
      obtain ⟨act, alone, step⟩ := step
      exact step.does.subsingleton alone ih

/-- Of sessions in a shape the one that was written last is finished or is not yet. -/
theorem last_l20_or_l40 {mine peer : String} (shaped : o.holding.Shaped)
    (finished : o.dated.Finished mine peer) :
    o.dated.LastIs mine peer .l20 ∨ o.dated.LastIs mine peer .l40 := by
  obtain ⟨key, s, _, found, best⟩ := finished.last
  obtain ⟨shape, is⟩ := shaped.1.filed key s found
  have state := is.state
  cases shape with
  | waiting => exact .inl ⟨s, best, state⟩
  | completed => exact .inr ⟨s, best, state⟩
  | answering => exact .inl ⟨s, best, state⟩
  | established => exact .inr ⟨s, best, state⟩

end DatedHolding

/-! ## The check -/

def Minds (e : Endpoint) (message : Message) : Prop :=
  e.policy.enabled = true ∧ message.allowedOutsideSession = false

variable {e : Endpoint} {o : DatedHolding} {a : DatedView} {sender : Identity} {message : Message}

/-- While no store fails the check says whether the session that was written last is finished. -/
theorem isDowngrade_dated :
    (e.isDowngrade sender message).Obeys (DatedView.rules Exchange.works) a fun left r =>
      left = a ∧ ∃ noticed, r = .ok noticed ∧
        (noticed = true ↔ e.Minds message ∧ a.LastIs e.identity.text sender.text .l40) := by
  unfold isDowngrade Minds
  split
  · next outside =>
    refine ⟨rfl, false, rfl, fun impossible => (nomatch impossible), ?_⟩
    rintro ⟨⟨enabled, inside⟩, _⟩
    rw [enabled, inside] at outside
    cases outside
  · next minds =>
    have minds : e.policy.enabled = true ∧ message.allowedOutsideSession = false := by
      simpa using minds
    rw [Intake.obeys_bind, Intake.obeys_store]
    refine ⟨trivial, ?_⟩
    rintro answer ⟨⟨_, works⟩, dated⟩
    cases answer with
    | error error => cases works
    | ok best =>
        refine ⟨rfl, best.any fun s => s.state == .l40, rfl, ?_⟩
        rw [DatedView.lastIs_iff dated, and_iff_right minds]
        simp only [Option.any_eq_true, beq_iff_eq]

/-- When another session is opened with a peer, it is the one that was written last, whatever there
is beside it; and it is not finished. -/
theorem initiate_hides {peerKey : Key} {envelope : Envelope} {left : DatedView}
    (goes : DatedView.Goes (fun _ => True) (e.initiate sender peerKey) a (.ok envelope) left) :
    left.LastIs e.identity.text sender.text .l20 := by
  have hides : (e.initiate sender peerKey).Obeys (DatedView.rules fun _ => True) a fun left r =>
      ∀ envelope, r = .ok envelope → left.LastIs e.identity.text sender.text .l20 := by
    unfold initiate
    refine (Intake.obeys_bind _ _ _ _ _).mpr ((Intake.obeys_draw _ _ _ _).mpr ⟨trivial, ?_⟩)
    intro ephemeral _
    refine (Intake.obeys_bind _ _ _ _ _).mpr ((Intake.obeys_draw _ _ _ _).mpr ⟨trivial, ?_⟩)
    intro id _
    refine (Intake.obeys_bind _ _ _ _ _).mpr ((Intake.obeys_request _ _ _ _).mpr ⟨trivial, ?_⟩)
    intro created _
    show Intake.Obeys _ _ a _
    split
    · exact fun _ other => nomatch other
    · next s key initiated =>
      rw [Intake.obeys_bind, Intake.obeys_store]
      refine ⟨trivial, fun answer _ => ?_⟩
      cases answer with
      | error error => exact fun _ other => nomatch other
      | ok _ =>
          obtain ⟨is, own, _⟩ := Session.initiate_ok initiated
          refine fun _ _ => ⟨s, a.sound.isBest_put ?_ s, is.state⟩
          rw [own]
          exact SessionKey.isOfPair_iff.mpr ⟨rfl, rfl⟩
  exact goes.holds hides envelope rfl

/-- Whatever an endpoint has done, and while no store fails: the check says that a message is a
downgrade exactly if the endpoint minds it and the session with the sender that was written last is
finished.  Then a finished session is there; but one that is there is overlooked exactly if the one
that was written last is not finished.  If no session with the sender was written beside another
one, none is overlooked. -/
theorem downgrade_noticed_iff (e : Endpoint) (o : DatedHolding) (reachable : DatedHolding.Reachable e o)
    (sender : Identity) (message : Message) :
    (e.isDowngrade sender message).Obeys (DatedView.rules Exchange.works) o.dated fun left r =>
      left = o.dated ∧ ∃ noticed, r = .ok noticed ∧
        (noticed = true ↔ e.Minds message ∧ o.dated.LastIs e.identity.text sender.text .l40) ∧
        (noticed = true → o.dated.Finished e.identity.text sender.text) ∧
        (e.Minds message → o.dated.Finished e.identity.text sender.text →
          (noticed = false ↔ o.dated.LastIs e.identity.text sender.text .l20)) ∧
        (DatedHolding.Tidy e sender o →
          (noticed = true ↔ e.Minds message ∧ o.dated.Finished e.identity.text sender.text)) := by
  refine isDowngrade_dated.mono ?_
  rintro _ _ ⟨rfl, noticed, rfl, told⟩
  refine ⟨rfl, noticed, rfl, told, fun yes => (told.mp yes).2.finished, ?_, fun tidy => ?_⟩
  · intro minds finished
    have notBoth : o.dated.LastIs e.identity.text sender.text .l20 →
        ¬o.dated.LastIs e.identity.text sender.text .l40 := by
      rintro ⟨s, best, state⟩ other
      obtain ⟨_, same, state'⟩ := (DatedView.lastIs_iff best).mp other
      obtain rfl := Option.some.inj same
      rw [state] at state'
      cases state'
    rw [← Bool.not_eq_true, told, and_iff_right minds]
    exact ⟨(DatedHolding.last_l20_or_l40 reachable.shaped finished).resolve_right, notBoth⟩
  · rw [told]
    refine and_congr_right fun minds => ⟨DatedView.LastIs.finished, fun finished => ?_⟩
    obtain ⟨key, s, ofPair, found, best⟩ := finished.last
    obtain ⟨other, t, ofPair', found', state⟩ := finished
    obtain rfl := tidy.subsingleton (StoreView.mem_ofPair ofPair found)
      (StoreView.mem_ofPair ofPair' found')
    obtain rfl := Option.some.inj (found.symm.trans found')
    exact ⟨s, best, state⟩

section Example

def answered : EndpointState :=
  (EndpointState.plainOutcome (ours.receive (Setting.message .contactDeletePhoto) Setting.peerKey
    ⟨Block.zero 16, .accept .supported (Block.ofNat 32 4)⟩) opened).2

def reopened : EndpointState :=
  (answered.outcomeAt .plain (Crossing.numbered (Block.ofNat 16 1))
    (ours.initiate Setting.peer Setting.peerKey)).2

theorem answered_reachable : ∃ o, DatedHolding.Reachable ours o ∧ answered.Files o.dated := by
  have plain : (Host.plain Setting.peerKey).Serves fun _ => True := EndpointState.plain_serves trivial
  obtain ⟨a, opens, files⟩ := EndpointState.files_goes .plain plain
    (ours.initiate Setting.peer Setting.peerKey) EndpointState.files_empty
  obtain ⟨b, hears, files⟩ := EndpointState.files_goes .plain plain
    (ours.receive (Setting.message .contactDeletePhoto) Setting.peerKey
      ⟨Block.zero 16, .accept .supported (Block.ofNat 32 4)⟩) files
  have first : DatedHolding.Reachable ours ⟨a, []⟩ := .single ⟨_, trivial, .initiate opens⟩
  exact ⟨⟨b, _⟩, first.tail ⟨_, trivial, .hear hears⟩, files⟩

/-- A message outside of the finished session is noticed, and is not any more when another session
is opened beside it. -/
theorem downgrade_noticed_reopened :
    ∃ o p, DatedHolding.Reachable ours o ∧
      DatedHolding.Step ours (.initiate Setting.peer Setting.peerKey) o p ∧
      (ours.isDowngrade Setting.peer (Setting.message .contactDeletePhoto)).Obeys
        (DatedView.rules Exchange.works) o.dated (fun _ r => r = .ok true) ∧
      (ours.isDowngrade Setting.peer (Setting.message .contactDeletePhoto)).Obeys
        (DatedView.rules Exchange.works) p.dated (fun _ r => r = .ok false) ∧
      p.dated.Finished ours.identity.text Setting.peer.text := by
  obtain ⟨o, reachable, files⟩ := answered_reachable
  have serves : (Crossing.numbered (Block.ofNat 16 1)).Serves fun _ => True :=
    ⟨fun _ _ => rfl, fun _ _ _ => rfl, fun _ => trivial⟩
  obtain ⟨left, reopens, after⟩ := EndpointState.files_goes .plain serves
    (ours.initiate Setting.peer Setting.peerKey) files
  have step : DatedHolding.Step ours (.initiate Setting.peer Setting.peerKey) o ⟨left, o.held⟩ :=
    .initiate reopens
  have minds : ours.Minds (Setting.message .contactDeletePhoto) := ⟨rfl, rfl⟩
  have done : o.dated.LastIs ours.identity.text Setting.peer.text .l40 := by
    have states : (answered.book.best ours.identity.text Setting.peer.text).map Session.state =
        some .l40 := by decide +kernel
    obtain ⟨s, best, state⟩ := Option.map_eq_some_iff.mp states
    exact ⟨s, best ▸ files.follows.best _ _, state⟩
  have kept : left.Finished ours.identity.text Setting.peer.text := by
    have states : (reopened.view.filed (ours.sessionKey Setting.peer (Block.zero 16))).map Session.state =
        some .l40 := by decide +kernel
    obtain ⟨s, found, state⟩ := Option.map_eq_some_iff.mp states
    rw [← show left.view = reopened.view from after.view] at found
    exact ⟨_, s, SessionKey.isOfPair_iff.mpr ⟨rfl, rfl⟩, found, state⟩
  have next : DatedHolding.Reachable ours ⟨left, o.held⟩ := reachable.tail ⟨_, trivial, step⟩
  refine ⟨o, ⟨left, o.held⟩, reachable, step, ?_, ?_, kept⟩
  · refine (downgrade_noticed_iff ours o reachable _ _).mono ?_
    rintro _ _ ⟨_, noticed, rfl, told, _⟩
    rw [told.mpr ⟨minds, done⟩]
  · refine (downgrade_noticed_iff ours _ next _ _).mono ?_
    rintro _ _ ⟨_, noticed, rfl, _, _, overlooked, _⟩
    have opened : ∃ envelope, (answered.outcomeAt .plain (Crossing.numbered (Block.ofNat 16 1))
        (ours.initiate Setting.peer Setting.peerKey)).1 = .ok envelope := ⟨_, rfl⟩
    obtain ⟨envelope, opened⟩ := opened
    rw [show (EndpointState.outcomeAt _ _ _ _).1 = _ from opened] at reopens
    rw [(overlooked minds kept).mpr (initiate_hides reopens)]

end Example

end Endpoint

end SecureInbox
