import SecureInbox.Proofs.Intake.Requests

/-! # A call's way past the nonce check

`CallProgress` is how far one call of `Processor.process` has come: whether it has its
sender's turn, what the nonce check said, and whether its nonce is marked.
`CallProgress.rules` say what a call may do at which point: it takes the turn once, checks
the nonce once and only in its turn, and has effects only between a check that passed
and the end of its turn.  `process_obeys` is the law of a whole call. -/
set_option autoImplicit false

namespace SecureInbox

/-- Whether a request concerns the group processor, changes the application's records
or a session, has blobs fetched, or sends an envelope. -/
def Request.isEffect : Request → Prop
  | .host (.handleGroup _ _) => True
  | .host (.change _) => True
  | .host (.schedule _) => True
  | .host (.send _ _) => True
  | .store (.put _) => True
  | .store (.erase _) => True
  | .store (.erasePair _ _) => True
  | _ => False

def Exchange.registerWorks : Exchange → Prop
  | ⟨.store (.seen _), .error _⟩ => False
  | ⟨.store (.mark _), .error _⟩ => False
  | _ => True

structure CallProgress where
  isInside : Bool
  /-- Whether the nonce was in the register, once that is known. -/
  check : Option Bool
  isMarked : Bool
deriving DecidableEq

namespace CallProgress

def start : CallProgress := ⟨false, none, false⟩

def after (s : CallProgress) : Exchange → CallProgress
  | ⟨.enter _, _⟩ => { s with isInside := true }
  | ⟨.leave _, _⟩ => { s with isInside := false }
  | ⟨.store (.seen _), .ok seen⟩ => { s with check := some seen }
  | ⟨.store (.mark _), .ok _⟩ => { s with isMarked := true }
  | _ => s

def allows (sender : Identity) (hash : NonceHash) (s : CallProgress) : Request → Prop
  | .enter peer => peer = sender ∧ s = start
  | .leave peer => peer = sender ∧ s.isInside = true
  | .store (.seen h) => h = hash ∧ s.isInside = true ∧ s.check = none ∧ s.isMarked = false
  | .store (.mark h) => h = hash ∧ s.isInside = true ∧ s.check = some false ∧ s.isMarked = false
  | r => r.isEffect → s.isInside = true ∧ s.check = some false

def rules (sender : Identity) (hash : NonceHash) : Rules CallProgress where
  allows := allows sender hash
  admits _ x := x.registerWorks
  after := after

/-- How a call may end: its nonce is marked exactly if it passed the check and did not
fail, and nothing else was processed. -/
def Ends (s : CallProgress) (result : ProcessResult) : Prop :=
  (s.isMarked = true ↔ s.check = some false ∧ ∃ outcome, result = .ok outcome) ∧
    ∀ message, result = .ok (.processed message) → s.check = some false

variable {sender : Identity} {hash : NonceHash} {s : CallProgress} {r : Request}

theorem ends_error (e : ProcessError) (unmarked : s.isMarked = false) : Ends s (.error e) := by
  simp [Ends, unmarked]

theorem ends_dropped (reason : DropReason) (unmarked : s.isMarked = false)
    (stale : s.check ≠ some false) : Ends s (.ok (.dropped reason)) := by
  simp [Ends, unmarked, stale]

theorem ends_ok (outcome : Outcome) (marked : s.isMarked = true) (fresh : s.check = some false) :
    Ends s (.ok outcome) := by
  simp [Ends, marked, fresh]

theorem allows_of_isInner (inner : r.isInner) (isInside : s.isInside = true)
    (fresh : s.check = some false) : allows sender hash s r := by
  cases r with
  | enter peer => exact inner.elim
  | leave peer => exact inner.elim
  | store c => cases c <;> first | exact inner.elim | exact fun _ => ⟨isInside, fresh⟩
  | _ => exact fun _ => ⟨isInside, fresh⟩

theorem after_of_isInner (inner : r.isInner) (answer : r.Answer) : s.after ⟨r, answer⟩ = s := by
  cases r with
  | enter peer => exact inner.elim
  | leave peer => exact inner.elim
  | store c => cases c <;> first | exact inner.elim | rfl
  | _ => rfl

theorem allows_of_ofAdmission (h : r.ofAdmission) : allows sender hash s r := by
  cases r with
  | host c => cases c <;> first | exact h.elim | exact False.elim
  | record rejection => exact False.elim
  | _ => exact h.elim

theorem fresh_of_isEffect (allowed : allows sender hash s r) (isEffect : r.isEffect) :
    s.isInside = true ∧ s.check = some false := by
  cases r with
  | host c => exact allowed isEffect
  | store c => cases c <;> first | exact isEffect.elim | exact allowed isEffect
  | _ => exact isEffect.elim

/-- A part of the middle of a call, with the turn and past the check. -/
theorem obeys_inner {α : Type} {part : Intake α} (asks : Intake.Asks Request.isInner part)
    (isInside : s.isInside = true) (fresh : s.check = some false) :
    part.Obeys (rules sender hash) s fun t _ => t = s :=
  asks.obeys fun _ inner =>
    ⟨allows_of_isInner inner isInside fresh, fun answer _ => after_of_isInner inner answer⟩

theorem obeys_admission {α : Type} {part : Intake α} (asks : Intake.Asks Request.ofAdmission part) :
    part.Obeys (rules sender hash) s fun t _ => t = s :=
  asks.obeys fun _ h => ⟨allows_of_ofAdmission h, fun answer _ =>
    after_of_isInner (Request.isInner_of_ofAdmission h) answer⟩

/-! ## What progress says of exchanges -/

theorem check_after (x : Exchange) (allowed : allows sender hash s x.request) :
    (s.after x).check = some false ↔
      s.check = some false ∨ x = ⟨.store (.seen hash), .ok false⟩ := by
  obtain ⟨r, answer⟩ := x
  by_cases inner : r.isInner
  · rw [after_of_isInner inner]
    refine ⟨.inl, fun h => h.resolve_right ?_⟩
    intro same
    cases same
    exact inner
  · cases r with
    | enter peer => exact ⟨.inl, fun h => h.resolve_right nofun⟩
    | leave peer => exact ⟨.inl, fun h => h.resolve_right nofun⟩
    | store c =>
        cases c with
        | seen h =>
            obtain ⟨rfl, _, unchecked, _⟩ := allowed
            cases answer with
            | error e => simp [after]
            | ok seen => simp [after, unchecked]
        | mark h => cases answer <;> simp [after]
        | _ => exact (inner trivial).elim
    | _ => exact (inner trivial).elim

theorem isMarked_after (x : Exchange) (works : x.registerWorks) :
    (s.after x).isMarked = true ↔ s.isMarked = true ∨ ∃ h, x.request = .store (.mark h) := by
  obtain ⟨r, answer⟩ := x
  by_cases inner : r.isInner
  · rw [after_of_isInner inner]
    refine ⟨.inl, fun h => h.resolve_right ?_⟩
    rintro ⟨h, rfl⟩
    exact inner
  · cases r with
    | enter peer => simp [after]
    | leave peer => simp [after]
    | store c =>
        cases c with
        | seen h => cases answer <;> simp [after]
        | mark h =>
            cases answer with
            | error e => exact works.elim
            | ok isNew => simp [after]
        | _ => exact (inner trivial).elim
    | _ => exact (inner trivial).elim

theorem isInside_after (x : Exchange) (isInside : (s.after x).isInside = true) :
    (∃ peer, x.request = .enter peer) ∨ s.isInside = true ∧ ∀ peer, x.request ≠ .leave peer := by
  obtain ⟨r, answer⟩ := x
  cases r with
  | enter peer => exact .inl ⟨peer, rfl⟩
  | leave peer => exact (Bool.false_ne_true isInside).elim
  | store c =>
      refine .inr ⟨?_, nofun⟩
      cases c with
      | seen h => cases answer <;> exact isInside
      | mark h => cases answer <;> exact isInside
      | _ => exact isInside
  | _ => exact .inr ⟨isInside, nofun⟩

variable {xs : List Exchange}

theorem check_afterAll : ∀ {s : CallProgress}, (rules sender hash).AllowsAll s xs →
    (((rules sender hash).afterAll s xs).check = some false ↔
      s.check = some false ∨ ⟨.store (.seen hash), .ok false⟩ ∈ xs) := by
  induction xs with
  | nil => intro s _; simp [Rules.afterAll]
  | cons x xs ih =>
      intro s allowed
      refine (ih allowed.2).trans ?_
      rw [show (rules sender hash).after s x = s.after x from rfl, check_after x allowed.1,
        List.mem_cons, or_assoc, eq_comm (a := x)]

theorem isMarked_afterAll : ∀ {s : CallProgress}, (rules sender hash).AdmitsAll s xs →
    (((rules sender hash).afterAll s xs).isMarked = true ↔
      s.isMarked = true ∨ ∃ x ∈ xs, ∃ h, x.request = .store (.mark h)) := by
  induction xs with
  | nil => intro s _; simp [Rules.afterAll]
  | cons x xs ih =>
      intro s works
      refine (ih works.2).trans ?_
      rw [show (rules sender hash).after s x = s.after x from rfl, isMarked_after x works.1,
        or_assoc]
      simp only [List.mem_cons, exists_eq_or_imp]

theorem mark_own : ∀ {s : CallProgress}, (rules sender hash).AllowsAll s xs →
    ∀ x ∈ xs, ∀ h, x.request = .store (.mark h) → h = hash := by
  induction xs with
  | nil => intro s _ x member; cases member
  | cons y xs ih =>
      intro s allowed x member h isMark
      rcases List.mem_cons.mp member with rfl | member
      · have first : allows sender hash s x.request := allowed.1
        rw [isMark] at first
        exact first.1
      · exact ih allowed.2 x member h isMark

/-- An effect tells that the check has passed. -/
theorem check_of_isEffect : ∀ {s : CallProgress}, (rules sender hash).AllowsAll s xs →
    ∀ x ∈ xs, x.request.isEffect → ((rules sender hash).afterAll s xs).check = some false := by
  induction xs with
  | nil => intro s _ x member; cases member
  | cons y xs ih =>
      intro s allowed x member isEffect
      rcases List.mem_cons.mp member with rfl | member
      · refine (check_afterAll allowed.2).mpr (.inl ?_)
        refine (check_after x allowed.1).mpr (.inl ?_)
        exact (fresh_of_isEffect allowed.1 isEffect).2
      · exact ih allowed.2 x member isEffect

end CallProgress

namespace Processor

open CallProgress (rules Ends)

variable (p : Processor) {s : CallProgress}

/-- The part of a call after a nonce check that passed. -/
theorem settle_mark_obeys {sender : Identity} {hash : NonceHash} (message : Message) (key : Key)
    (isInside : s.isInside = true) (fresh : s.check = some false) (unmarked : s.isMarked = false) :
    (p.settle message key >>= fun outcome =>
        Intake.request (.store (.mark hash)) >>= fun _ => pure outcome).Obeys
      (rules sender hash) s fun t r => t.isInside = true ∧ Ends t r := by
  rw [Intake.obeys_bind]
  refine (CallProgress.obeys_inner (p.settle_asks message key) isInside fresh).mono ?_
  rintro t r rfl
  cases r with
  | error e => exact ⟨isInside, CallProgress.ends_error e unmarked⟩
  | ok outcome =>
      refine (Intake.obeys_bind _ _ _ _ _).mpr ((Intake.obeys_request _ _ _ _).mpr ?_)
      refine ⟨⟨rfl, isInside, fresh, unmarked⟩, fun answer works => ?_⟩
      cases answer with
      | error e => exact works.elim
      | ok isNew => exact ⟨isInside, CallProgress.ends_ok outcome rfl fresh⟩

theorem handle_obeys (sender : Identity) (message : Message) (key : Key) (nonce : Bytes)
    (isInside : s.isInside = true) (unchecked : s.check = none) (unmarked : s.isMarked = false) :
    (p.handle message key nonce).Obeys (rules sender (p.nonceHash nonce)) s
      fun t r => t.isInside = true ∧ Ends t r := by
  rw [handle_eq, Intake.obeys_bind]
  generalize p.nonceHash nonce = hash
  refine (CallProgress.obeys_admission (p.admission_asks message)).mono ?_
  rintro t r rfl
  cases r with
  | error e => exact ⟨isInside, CallProgress.ends_error e unmarked⟩
  | ok reason =>
      cases reason with
      | some reason =>
          exact ⟨isInside, CallProgress.ends_dropped reason unmarked (by rw [unchecked]; decide)⟩
      | none =>
          refine (Intake.obeys_bind _ _ _ _ _).mpr ((Intake.obeys_store _ _ _ _).mpr ?_)
          refine ⟨⟨rfl, isInside, unchecked, unmarked⟩, fun answer works => ?_⟩
          cases answer with
          | error e => exact works.elim
          | ok seen =>
              cases seen with
              | true =>
                  have stale : (some true : Option Bool) ≠ some false := by decide
                  exact ⟨isInside, CallProgress.ends_dropped _ unmarked stale⟩
              | false => exact settle_mark_obeys p message key isInside rfl unmarked

theorem run_obeys (boxed : Boxed) :
    (p.run boxed).Obeys (rules boxed.sender (p.nonceHash boxed.nonce.bytes)) CallProgress.start
      fun s r => s.isInside = false ∧ Ends s r := by
  unfold run
  rw [Intake.obeys_bind]
  refine (CallProgress.obeys_admission (senderKey_asks _)).mono ?_
  rintro s r rfl
  cases r with
  | error e => exact ⟨rfl, CallProgress.ends_error e rfl⟩
  | ok key =>
      refine (Intake.obeys_bind _ _ _ _ _).mpr ?_
      refine (CallProgress.obeys_admission (p.decode_asks boxed key)).mono ?_
      rintro s r rfl
      cases r with
      | error e => exact ⟨rfl, CallProgress.ends_error e rfl⟩
      | ok message =>
          refine (Intake.obeys_bind _ _ _ _ _).mpr ((Intake.obeys_request _ _ _ _).mpr ?_)
          refine ⟨⟨rfl, rfl⟩, fun _ _ => ?_⟩
          refine (Intake.obeys_bind _ _ _ _ _).mpr ((Intake.obeys_notify _ _ _ _).mpr ?_)
          refine ⟨False.elim, fun _ => ?_⟩
          refine (Intake.obeys_bind _ _ _ _ _).mpr ((Intake.obeys_attempt _ _ _ _).mpr ?_)
          refine (p.handle_obeys boxed.sender message key _ rfl rfl rfl).mono ?_
          rintro t r ⟨isInside, ends⟩
          cases r with
          | error e =>
              refine (Intake.obeys_bind _ _ _ _ _).mpr ((Intake.obeys_request _ _ _ _).mpr ?_)
              exact ⟨⟨rfl, isInside⟩, fun _ _ => ⟨rfl, ends⟩⟩
          | ok outcome =>
              refine (Intake.obeys_bind _ _ _ _ _).mpr ((Intake.obeys_notify _ _ _ _).mpr ?_)
              refine ⟨False.elim, fun _ => ?_⟩
              refine (Intake.obeys_bind _ _ _ _ _).mpr ((Intake.obeys_request _ _ _ _).mpr ?_)
              exact ⟨⟨rfl, isInside⟩, fun _ _ => ⟨rfl, ends⟩⟩

theorem process_obeys (boxed : Boxed) :
    (p.process boxed).Obeys (rules boxed.sender (p.nonceHash boxed.nonce.bytes)) CallProgress.start
      fun s r => s.isInside = false ∧ Ends s r := by
  refine ⟨False.elim, fun _ _ => ?_⟩
  refine (Intake.obeys_run_bind _ _ _ _ _).mpr ((p.run_obeys boxed).mono ?_)
  intro s r ended
  cases r with
  | ok outcome => exact ended
  | error e => exact ⟨False.elim, fun _ _ => ended⟩

end Processor

end SecureInbox
