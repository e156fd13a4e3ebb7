import Mathlib.Logic.Relation
import SecureInbox.Proofs.Intake.CallProgress
import SecureInbox.Proofs.Intake.Setting

/-! # Calls that run side by side

`Calls` are any number of calls of `Processor.process` that share one nonce register,
and whose turns are given out one at a time for each sender.  A `Step` starts a call or
answers the next request of one; what the register and the turns do not decide is
answered in any way.

The invariant is `Calls.Fair`: each call makes `CallProgress`, and calls of one sender
with one nonce are `Compatible`, so that at most one of them marks it. -/
set_option autoImplicit false

namespace SecureInbox

structure Call where
  boxed : Boxed
  past : List Exchange
  /-- What is left to do. -/
  rest : Script ProcessResult

structure Calls where
  register : NonceRegister
  /-- The senders whose turn is taken. -/
  taken : List Identity
  calls : List Call

namespace Call

def progress (call : Call) : CallProgress := call.past.foldl CallProgress.after CallProgress.start

def sender (call : Call) : Identity := call.boxed.sender

def hash (p : Processor) (call : Call) : NonceHash := p.nonceHash call.boxed.nonce.bytes

def onward (call : Call) (x : Exchange) (rest : Script ProcessResult) : Call :=
  ⟨call.boxed, call.past ++ [x], rest⟩

def Returned (call : Call) (result : ProcessResult) : Prop := call.rest = .done result

def Marked (call : Call) (hash : NonceHash) : Prop :=
  ∃ x ∈ call.past, x.request = .store (.mark hash)

def Passed (p : Processor) (call : Call) : Prop :=
  ⟨.store (.seen (call.hash p)), .ok false⟩ ∈ call.past

def Checked (call : Call) : Prop := ∃ x ∈ call.past, ∃ hash, x.request = .store (.seen hash)

end Call

namespace Calls

/-- The answers that the register and the turns allow. -/
def Grants (c : Calls) : Exchange → Prop
  | ⟨.enter peer, _⟩ => peer ∉ c.taken
  | ⟨.store (.seen hash), answer⟩ => answer = .ok (c.register.contains hash)
  | ⟨.store (.mark hash), answer⟩ => answer = .ok (c.register.insert hash).1
  | _ => True

def registerAfter (register : NonceRegister) : Request → NonceRegister
  | .store (.mark hash) => (register.insert hash).2
  | _ => register

def takenAfter (taken : List Identity) : Request → List Identity
  | .enter peer => peer :: taken
  | .leave peer => taken.erase peer
  | _ => taken

variable (p : Processor)

inductive Step : Calls → Calls → Prop where
  | start (c : Calls) (boxed : Boxed) :
      Step c { c with calls := c.calls ++ [⟨boxed, [], p.process boxed⟩] }
  | answer (c : Calls) (i : Nat) (a : Call) (request : Request)
      (next : request.Answer → Script ProcessResult) (answer : request.Answer)
      (found : c.calls[i]? = some a) (asks : a.rest = .ask request next)
      (granted : c.Grants ⟨request, answer⟩) :
      Step c ⟨registerAfter c.register request, takenAfter c.taken request,
        c.calls.set i (a.onward ⟨request, answer⟩ (next answer))⟩

def Reachable (register : NonceRegister) (c : Calls) : Prop :=
  Relation.ReflTransGen (Step p) ⟨register, [], []⟩ c

end Calls

/-! ## One call -/

namespace Call

variable {p : Processor} {call : Call}

abbrev rules (p : Processor) (call : Call) : Rules CallProgress :=
  CallProgress.rules call.sender (call.hash p)

structure Orderly (p : Processor) (call : Call) : Prop where
  reaches : Script.Reaches (p.process call.boxed) call.past call.rest
  admitted : (call.rules p).AdmitsAll CallProgress.start call.past

theorem Orderly.obeys (orderly : call.Orderly p) :
    Script.Obeys (call.rules p) call.rest call.progress
      fun s r => s.isInside = false ∧ CallProgress.Ends s r :=
  (p.process_obeys call.boxed).rest orderly.reaches orderly.admitted

theorem Orderly.allowed (orderly : call.Orderly p) :
    (call.rules p).AllowsAll CallProgress.start call.past :=
  (p.process_obeys call.boxed).allowed orderly.reaches orderly.admitted

theorem Orderly.passed_iff (orderly : call.Orderly p) :
    call.progress.check = some false ↔ call.Passed p :=
  (CallProgress.check_afterAll orderly.allowed).trans (or_iff_right nofun)

theorem Orderly.marked_iff (orderly : call.Orderly p) (h : NonceHash) :
    call.Marked h ↔ h = call.hash p ∧ call.progress.isMarked = true := by
  have isMarked := CallProgress.isMarked_afterAll orderly.admitted
  have own := CallProgress.mark_own orderly.allowed
  constructor
  · rintro ⟨x, member, isMark⟩
    exact ⟨own x member h isMark, isMarked.mpr (.inr ⟨x, member, h, isMark⟩)⟩
  · rintro ⟨rfl, marked⟩
    obtain impossible | ⟨x, member, h, isMark⟩ := isMarked.mp marked
    · cases impossible
    · obtain rfl := own x member h isMark
      exact ⟨x, member, isMark⟩

theorem Orderly.ends {result : ProcessResult} (orderly : call.Orderly p)
    (returned : call.Returned result) : CallProgress.Ends call.progress result := by
  have obeys := orderly.obeys
  rw [returned] at obeys
  exact obeys.2

/-- What a call that has returned did with the register. -/
theorem Orderly.marked_of_returned {result : ProcessResult} (orderly : call.Orderly p)
    (returned : call.Returned result) (h : NonceHash) :
    call.Marked h ↔ h = call.hash p ∧ call.Passed p ∧ ∃ outcome, result = .ok outcome := by
  rw [orderly.marked_iff, (orderly.ends returned).1, orderly.passed_iff]

theorem Orderly.isMarked_of_processed {message : Message} (orderly : call.Orderly p)
    (returned : call.Returned (.ok (.processed message))) : call.progress.isMarked = true := by
  obtain ⟨marked, passed⟩ := orderly.ends returned
  exact marked.mpr ⟨passed message rfl, .processed message, rfl⟩

/-- A call that has had an effect has passed the check. -/
theorem Orderly.fresh_of_isEffect {x : Exchange} (orderly : call.Orderly p) (member : x ∈ call.past)
    (isEffect : x.request.isEffect) : call.progress.check = some false :=
  CallProgress.check_of_isEffect orderly.allowed x member isEffect

theorem progress_onward (x : Exchange) (rest : Script ProcessResult) :
    (call.onward x rest).progress = call.progress.after x := List.foldl_append

theorem Orderly.onward {request : Request} {next : request.Answer → Script ProcessResult}
    (orderly : call.Orderly p) (asks : call.rest = .ask request next) (answer : request.Answer)
    (works : Exchange.registerWorks ⟨request, answer⟩) :
    (call.onward ⟨request, answer⟩ (next answer)).Orderly p where
  reaches := by
    have reaches := orderly.reaches
    rw [asks] at reaches
    exact reaches.snoc answer
  admitted := ((call.rules p).admitsAll_append _ _ _).mpr ⟨orderly.admitted, works, trivial⟩

/-- What two calls of one sender owe to the turns and the register. -/
def Compatible (p : Processor) (a b : Call) : Prop :=
  a.sender = b.sender →
    ¬(a.progress.isInside = true ∧ b.progress.isInside = true) ∧
    (a.hash p = b.hash p →
      (a.progress.isInside = true → a.progress.check = some false → b.progress.isMarked = false) ∧
      (b.progress.isInside = true → b.progress.check = some false → a.progress.isMarked = false) ∧
      ¬(a.progress.isMarked = true ∧ b.progress.isMarked = true))

theorem Compatible.symm {a b : Call} (h : Compatible p a b) : Compatible p b a := by
  intro sender
  obtain ⟨apart, nonces⟩ := h sender.symm
  refine ⟨fun both => apart both.symm, fun hash => ?_⟩
  obtain ⟨first, second, once⟩ := nonces hash.symm
  exact ⟨second, first, fun both => once both.symm⟩

/-- A call that has not begun is compatible with all. -/
theorem compatible_start (a : Call) (boxed : Boxed) :
    Compatible p a ⟨boxed, [], p.process boxed⟩ := by
  intro _
  refine ⟨fun both => Bool.false_ne_true both.2, fun _ => ⟨fun _ _ => rfl, ?_, ?_⟩⟩
  · intro isInside
    exact (Bool.false_ne_true isInside).elim
  · intro both
    exact Bool.false_ne_true both.2

end Call

/-! ## All calls -/

namespace Calls

/-- The invariant of a run that began with the register `initial`. -/
structure Fair (p : Processor) (initial : NonceRegister) (c : Calls) : Prop where
  orderly : ∀ (i : Nat) (a : Call), c.calls[i]? = some a → a.Orderly p
  taken : ∀ (i : Nat) (a : Call), c.calls[i]? = some a → a.progress.isInside = true →
    a.sender ∈ c.taken
  register : ∀ h, c.register.contains h = true ↔ initial.contains h = true ∨
    ∃ (i : Nat) (a : Call), c.calls[i]? = some a ∧ a.progress.isMarked = true ∧ a.hash p = h
  compatible : ∀ (i j : Nat) (a b : Call), i ≠ j → c.calls[i]? = some a → c.calls[j]? = some b →
    Call.Compatible p a b

variable {p : Processor} {initial : NonceRegister} {c : Calls}

theorem Grants.registerWorks {x : Exchange} (granted : c.Grants x) : x.registerWorks := by
  obtain ⟨r, answer⟩ := x
  cases r with
  | store call =>
      cases call with
      | seen h => cases granted; trivial
      | mark h => cases granted; trivial
      | _ => trivial
  | _ => trivial

/-- What one exchange of a call keeps of its relation to another call. -/
theorem compatible_onward {i j : Nat} {a b : Call} (fair : Fair p initial c) (different : i ≠ j)
    (foundA : c.calls[i]? = some a) (foundB : c.calls[j]? = some b) (x : Exchange)
    (allowed : CallProgress.allows a.sender (a.hash p) a.progress x.request) (granted : c.Grants x)
    (rest : Script ProcessResult) : Call.Compatible p (a.onward x rest) b := by
  intro sender
  obtain ⟨apart, nonces⟩ := fair.compatible i j a b different foundA foundB sender
  rw [Call.progress_onward]
  obtain ⟨r, answer⟩ := x
  by_cases inner : r.isInner
  · rw [CallProgress.after_of_isInner inner]
    exact ⟨apart, nonces⟩
  · cases r with
    | enter peer =>
        obtain ⟨rfl, atStart⟩ := allowed
        -- The turn is free, so the other call of the sender is not inside.
        have outside : ¬b.progress.isInside = true := by
          intro isInside
          have isTaken := fair.taken j b foundB isInside
          rw [← sender] at isTaken
          exact granted isTaken
        refine ⟨fun both => outside both.2, fun hash => ⟨?_, ?_, ?_⟩⟩
        · intro _ fresh
          rw [atStart] at fresh
          cases fresh
        · intro isInside
          exact (outside isInside).elim
        · exact (nonces hash).2.2
    | leave peer =>
        refine ⟨fun both => Bool.false_ne_true both.1, fun hash => ⟨?_, (nonces hash).2⟩⟩
        intro isInside
        exact (Bool.false_ne_true isInside).elim
    | store call =>
        cases call with
        | seen h =>
            obtain ⟨rfl, _⟩ := allowed
            cases granted
            refine ⟨apart, fun (hash : a.hash p = b.hash p) => ⟨?_, (nonces hash).2⟩⟩
            intro _ fresh
            -- Had the other call marked the nonce, the register would have it.
            have unseen : c.register.contains (a.hash p) = false := Option.some.inj fresh
            refine Bool.eq_false_iff.mpr fun marked => ?_
            rw [(fair.register _).mpr (.inr ⟨j, b, foundB, marked, hash.symm⟩)] at unseen
            cases unseen
        | mark h =>
            obtain ⟨rfl, isInside, fresh, _⟩ := allowed
            cases granted
            refine ⟨apart, fun hash => ⟨fun _ _ => (nonces hash).1 isInside fresh, ?_, ?_⟩⟩
            · intro other
              exact (apart ⟨isInside, other⟩).elim
            · intro both
              rw [(nonces hash).1 isInside fresh] at both
              exact Bool.false_ne_true both.2
        | _ => exact (inner trivial).elim
    | _ => exact (inner trivial).elim

theorem orderly_onward {i : Nat} {a : Call} {request : Request}
    {next : request.Answer → Script ProcessResult} (fair : Fair p initial c)
    (found : c.calls[i]? = some a) (asks : a.rest = .ask request next) (answer : request.Answer)
    (granted : c.Grants ⟨request, answer⟩) :
    (a.onward ⟨request, answer⟩ (next answer)).Orderly p :=
  (fair.orderly i a found).onward asks answer granted.registerWorks

/-- The request that a call is at is one that its progress allows. -/
theorem Fair.allows {i : Nat} {a : Call} {request : Request}
    {next : request.Answer → Script ProcessResult} (fair : Fair p initial c)
    (found : c.calls[i]? = some a) (asks : a.rest = .ask request next) :
    CallProgress.allows a.sender (a.hash p) a.progress request := by
  have obeys := (fair.orderly i a found).obeys
  rw [asks] at obeys
  exact obeys.1

/-- What one step must keep of a single call for all calls to remain fair. -/
theorem Fair.replace {i : Nat} {a : Call} {d : Calls} (fair : Fair p initial c)
    (others : ∀ j, d.calls[j]? = if j = i then some a else c.calls[j]?)
    (orderly : a.Orderly p) (own : a.progress.isInside = true → a.sender ∈ d.taken)
    (taken : ∀ (j : Nat) (b : Call), i ≠ j → c.calls[j]? = some b → b.progress.isInside = true →
      b.sender ∈ d.taken)
    (kept : ∀ before, c.calls[i]? = some before →
      before.progress.isMarked = true → a.progress.isMarked = true ∧ before.hash p = a.hash p)
    (register : ∀ h, d.register.contains h = true ↔
      c.register.contains h = true ∨ a.progress.isMarked = true ∧ a.hash p = h)
    (compatible : ∀ (j : Nat) (b : Call), i ≠ j → c.calls[j]? = some b →
      Call.Compatible p a b) : Fair p initial d := by
  have which : ∀ (j : Nat) (b : Call), d.calls[j]? = some b →
      j = i ∧ b = a ∨ i ≠ j ∧ c.calls[j]? = some b := by
    intro j b found
    rw [others] at found
    by_cases same : j = i
    · rw [if_pos same] at found
      exact .inl ⟨same, (Option.some.inj found).symm⟩
    · rw [if_neg same] at found
      exact .inr ⟨Ne.symm same, found⟩
  refine ⟨?_, ?_, ?_, ?_⟩
  · intro j b found
    obtain ⟨_, rfl⟩ | ⟨_, found⟩ := which j b found
    · exact orderly
    · exact fair.orderly j b found
  · intro j b found isInside
    obtain ⟨_, rfl⟩ | ⟨different, found⟩ := which j b found
    · exact own isInside
    · exact taken j b different found isInside
  · intro h
    rw [register, fair.register]
    constructor
    · rintro ((isInitial | ⟨j, b, found, marked, hash⟩) | ⟨marked, hash⟩)
      · exact .inl isInitial
      · by_cases same : j = i
        · subst same
          obtain ⟨markedAfter, hashAfter⟩ := kept b found marked
          exact .inr ⟨j, a, by rw [others, if_pos rfl], markedAfter, hashAfter.symm.trans hash⟩
        · exact .inr ⟨j, b, by rw [others, if_neg same, found], marked, hash⟩
      · exact .inr ⟨i, a, by rw [others, if_pos rfl], marked, hash⟩
    · rintro (isInitial | ⟨j, b, found, marked, hash⟩)
      · exact .inl (.inl isInitial)
      · obtain ⟨_, rfl⟩ | ⟨_, found⟩ := which j b found
        · exact .inr ⟨marked, hash⟩
        · exact .inl (.inr ⟨j, b, found, marked, hash⟩)
  · intro j k b d different foundB foundD
    obtain ⟨rfl, rfl⟩ | ⟨differentB, foundB⟩ := which j b foundB
    · obtain ⟨rfl, rfl⟩ | ⟨differentD, foundD⟩ := which k d foundD
      · exact (different rfl).elim
      · exact compatible k d differentD foundD
    · obtain ⟨rfl, rfl⟩ | ⟨_, foundD⟩ := which k d foundD
      · exact (compatible j b differentB foundB).symm
      · exact fair.compatible j k b d different foundB foundD

theorem at_start (c : Calls) (a : Call) (j : Nat) :
    (c.calls ++ [a])[j]? = if j = c.calls.length then some a else c.calls[j]? := by
  by_cases old : j < c.calls.length
  · rw [List.getElem?_append_left old, if_neg (Nat.ne_of_lt old)]
  · rw [List.getElem?_append_right (Nat.le_of_not_lt old)]
    by_cases same : j = c.calls.length
    · rw [if_pos same, same, Nat.sub_self]
      rfl
    · rw [if_neg same, List.getElem?_eq_none, List.getElem?_eq_none]
      · exact Nat.le_of_not_lt old
      · rw [List.length_singleton]
        omega

theorem at_answer {i : Nat} {a : Call} (found : c.calls[i]? = some a) (b : Call) (j : Nat) :
    (c.calls.set i b)[j]? = if j = i then some b else c.calls[j]? := by
  have inRange : i < c.calls.length := (List.getElem?_eq_some_iff.mp found).1
  by_cases same : j = i
  · rw [if_pos same, same, List.getElem?_set_self inRange]
  · rw [if_neg same, List.getElem?_set_ne (Ne.symm same)]

theorem fair_start (boxed : Boxed) (fair : Fair p initial c) :
    Fair p initial { c with calls := c.calls ++ [⟨boxed, [], p.process boxed⟩] } := by
  refine fair.replace (i := c.calls.length) (a := ⟨boxed, [], p.process boxed⟩) ?_
    ⟨.refl _, trivial⟩ nofun (fun j b _ => fair.taken j b) ?_ ?_ ?_
  · exact at_start c _
  · intro before found
    rw [List.getElem?_eq_none (Nat.le_refl _)] at found
    cases found
  · intro h
    exact ⟨.inl, fun h => h.resolve_right fun marked => Bool.false_ne_true marked.1⟩
  · intro j b _ _
    exact (Call.compatible_start b boxed).symm

theorem mem_takenAfter {taken : List Identity} {r : Request} {peer : Identity}
    (member : peer ∈ taken) (stays : r ≠ .leave peer) : peer ∈ takenAfter taken r := by
  cases r with
  | enter other => exact List.mem_cons_of_mem _ member
  | leave other =>
      refine (List.mem_erase_of_ne ?_).mpr member
      rintro rfl
      exact stays rfl
  | _ => exact member

theorem registerAfter_of_ne {register : NonceRegister} {r : Request}
    (other : ∀ h, r ≠ .store (.mark h)) : registerAfter register r = register := by
  cases r with
  | store call =>
      cases call with
      | mark h => exact (other h rfl).elim
      | _ => rfl
  | _ => rfl

theorem fair_answer {i : Nat} {a : Call} {request : Request}
    {next : request.Answer → Script ProcessResult} (fair : Fair p initial c)
    (found : c.calls[i]? = some a) (asks : a.rest = .ask request next) (answer : request.Answer)
    (granted : c.Grants ⟨request, answer⟩) :
    Fair p initial ⟨registerAfter c.register request, takenAfter c.taken request,
      c.calls.set i (a.onward ⟨request, answer⟩ (next answer))⟩ := by
  have allowed := fair.allows found asks
  refine fair.replace (i := i) (a := a.onward ⟨request, answer⟩ (next answer)) ?_
    (orderly_onward fair found asks answer granted) ?_ ?_ ?_ ?_
    fun j b different foundB => compatible_onward fair different found foundB _ allowed granted _
  · exact at_answer found _
  · intro isInside
    rw [Call.progress_onward] at isInside
    obtain ⟨peer, rfl⟩ | ⟨wasInside, stays⟩ := CallProgress.isInside_after _ isInside
    · obtain ⟨rfl, _⟩ := allowed
      exact List.mem_cons_self
    · exact mem_takenAfter (fair.taken i a found wasInside) (stays _)
  · intro j b different foundB isInside
    refine mem_takenAfter (fair.taken j b foundB isInside) ?_
    rintro rfl
    obtain ⟨sameSender, wasInside⟩ := allowed
    exact (fair.compatible i j a b different found foundB sameSender.symm).1 ⟨wasInside, isInside⟩
  · intro before foundBefore marked
    obtain rfl : a = before := Option.some.inj (found.symm.trans foundBefore)
    rw [Call.progress_onward]
    exact ⟨(CallProgress.isMarked_after _ granted.registerWorks).mpr (.inl marked), rfl⟩
  · intro h
    rw [Call.progress_onward, CallProgress.isMarked_after _ granted.registerWorks]
    by_cases marks : ∃ g, request = .store (.mark g)
    · obtain ⟨g, rfl⟩ := marks
      obtain ⟨rfl, _⟩ := allowed
      rw [registerAfter, NonceRegister.contains_insert, Bool.or_eq_true, beq_iff_eq]
      refine ⟨fun either => either.elim (fun hash => ?_) .inl, fun either => either.elim .inr ?_⟩
      · exact .inr ⟨.inr ⟨_, rfl⟩, hash.symm⟩
      · rintro ⟨_, hash⟩
        exact .inl hash.symm
    · rw [registerAfter_of_ne fun g same => marks ⟨g, same⟩]
      refine ⟨.inl, fun either => either.elim id ?_⟩
      rintro ⟨marked | marked, hash⟩
      · exact (fair.register h).mpr (.inr ⟨i, a, found, marked, hash⟩)
      · exact (marks marked).elim

theorem fair_step {d : Calls} (step : Step p c d) (fair : Fair p initial c) :
    Fair p initial d := by
  cases step with
  | start boxed => exact fair_start boxed fair
  | answer i a request next answer found asks granted =>
      exact fair_answer fair found asks answer granted

theorem fair_of_reachable (reachable : Reachable p initial c) : Fair p initial c := by
  induction reachable with
  | refl =>
      refine ⟨nofun, nofun, fun h => ⟨.inl, fun either => either.resolve_right ?_⟩, nofun⟩
      rintro ⟨i, a, found, _⟩
      cases found
  | tail _ step ih => exact fair_step step ih

theorem contains_registerAfter {register : NonceRegister} {h : NonceHash} {r : Request}
    (stored : register.contains h = true) : (registerAfter register r).contains h = true := by
  by_cases marks : ∃ g, r = .store (.mark g)
  · obtain ⟨g, rfl⟩ := marks
    rw [registerAfter, NonceRegister.contains_insert, stored, Bool.or_true]
  · rw [registerAfter_of_ne fun g same => marks ⟨g, same⟩]
    exact stored

/-- A call that has not passed the check, of a nonce that is in the register, never does. -/
theorem unpassed_step {d : Calls} {i : Nat} {hash : NonceHash} (step : Step p c d)
    (fair : Fair p initial c) (stored : c.register.contains hash = true)
    (unpassed : ∀ a, c.calls[i]? = some a → a.hash p = hash → a.progress.check ≠ some false) :
    d.register.contains hash = true ∧
      ∀ a, d.calls[i]? = some a → a.hash p = hash → a.progress.check ≠ some false := by
  cases step with
  | start boxed =>
      refine ⟨stored, fun a found own => ?_⟩
      rw [at_start] at found
      split at found
      · cases found
        exact nofun
      · exact unpassed a found own
  | answer j before request next answer foundBefore asks granted =>
      refine ⟨contains_registerAfter stored, fun a found own => ?_⟩
      rw [at_answer foundBefore] at found
      by_cases same : i = j
      · subst same
        rw [if_pos rfl] at found
        obtain rfl := Option.some.inj found
        rw [Call.progress_onward]
        intro passed
        have allowed := fair.allows foundBefore asks
        obtain passedBefore | isSeen := (CallProgress.check_after _ allowed).mp passed
        · exact unpassed before foundBefore own passedBefore
        · rw [isSeen] at granted
          have unseen : Except.ok false = Except.ok (c.register.contains (before.hash p)) := granted
          rw [show before.hash p = hash from own, stored] at unseen
          cases unseen
      · rw [if_neg same] at found
        exact unpassed a found own

theorem unpassed_steps {d : Calls} {i : Nat} {hash : NonceHash}
    (steps : Relation.ReflTransGen (Step p) c d) (reachable : Reachable p initial c)
    (stored : c.register.contains hash = true)
    (unpassed : ∀ a, c.calls[i]? = some a → a.hash p = hash → a.progress.check ≠ some false) :
    ∀ a, d.calls[i]? = some a → a.hash p = hash → a.progress.check ≠ some false := by
  have both : d.register.contains hash = true ∧
      ∀ a, d.calls[i]? = some a → a.hash p = hash → a.progress.check ≠ some false := by
    induction steps with
    | refl => exact ⟨stored, unpassed⟩
    | tail steps step ih =>
        have fair : Fair p initial _ := fair_of_reachable (Relation.ReflTransGen.trans reachable steps)
        exact unpassed_step step fair ih.1 ih.2
  exact both.2

/-! ## One call after another -/

section Worlds

variable {σ : Type} (suite : Suite) (host : Host σ)

def Calm (host : Host σ) : Prop :=
  ∀ (s : σ) (h : NonceHash),
    (host.storeFault (.seen h) s).1 = none ∧ (host.storeFault (.mark h) s).1 = none

/-- What a world answers is granted, if its register is that of the calls. -/
theorem grants_answer (calm : Calm host) (w : World σ) (same : w.nonces = c.register)
    (r : Request) (turn : ∀ peer, r = .enter peer → peer ∉ c.taken) :
    c.Grants ⟨r, (w.answer suite host r).1⟩ ∧
      (w.answer suite host r).2.nonces = registerAfter c.register r := by
  cases r with
  | enter peer => exact ⟨turn peer rfl, same⟩
  | store call =>
      cases call with
      | seen h =>
          have calmHere := (calm w.host h).1
          cases answered : host.storeFault (.seen h) w.host with
          | mk fault state =>
              rw [answered] at calmHere
              obtain rfl : fault = none := calmHere
              simp only [World.answer, answered, World.answerStore, Grants, registerAfter, same,
                and_self]
      | mark h =>
          have calmHere := (calm w.host h).2
          cases answered : host.storeFault (.mark h) w.host with
          | mk fault state =>
              rw [answered] at calmHere
              obtain rfl : fault = none := calmHere
              simp only [World.answer, answered, World.answerStore, Grants, registerAfter, same,
                and_self]
      | put session =>
          refine ⟨trivial, ?_⟩
          simp only [World.answer, World.answerStore]
          split
          · exact same
          · split <;> exact same
      | _ =>
          refine ⟨trivial, ?_⟩
          simp only [World.answer, World.answerStore]
          split <;> exact same
  | record rejection =>
      refine ⟨trivial, ?_⟩
      simp only [World.answer]
      split <;> exact same
  | _ => exact ⟨trivial, same⟩

/-- A call that runs alone has its sender's turn exactly while it is inside. -/
theorem takenAfter_turn {taken free : List Identity} {sender : Identity} {hash : NonceHash}
    {s : CallProgress} (turn : taken = if s.isInside = true then sender :: free else free) (x : Exchange)
    (allowed : CallProgress.allows sender hash s x.request) :
    takenAfter taken x.request =
      if (s.after x).isInside = true then sender :: free else free := by
  obtain ⟨r, answer⟩ := x
  cases r with
  | enter peer =>
      obtain ⟨rfl, rfl⟩ := allowed
      rw [turn]
      rfl
  | leave peer =>
      obtain ⟨rfl, isInside⟩ := allowed
      rw [turn, if_pos isInside]
      exact List.erase_cons_head ..
  | store call =>
      cases call with
      | seen h => cases answer <;> exact turn
      | mark h => cases answer <;> exact turn
      | _ => exact turn
  | _ => exact turn

theorem steps_of_run (calm : Calm host) {free : List Identity} (before : List Call) :
    ∀ (script : Script ProcessResult) (a : Call) (w : World σ) (taken : List Identity),
      a.rest = script → a.sender ∉ free →
      (taken = if a.progress.isInside = true then a.sender :: free else free) →
      Script.Obeys (a.rules p) script a.progress (fun s _ => s.isInside = false) →
      Relation.ReflTransGen (Step p) ⟨w.nonces, taken, before ++ [a]⟩
        ⟨(script.run suite host w).world.nonces, free, before ++
          [⟨a.boxed, a.past ++ (script.run suite host w).exchanges,
            .done (script.run suite host w).value⟩]⟩ := by
  intro script
  induction script with
  | done result =>
      intro a w taken asks free turn obeys
      rw [turn, if_neg (by rw [show a.progress.isInside = false from obeys]; decide)]
      obtain ⟨boxed, past, rest⟩ := a
      obtain rfl : rest = .done result := asks
      simp only [Script.run, List.append_nil]
      exact .refl
  | ask request next ih =>
      intro a w taken asks outside turn obeys
      have found : (before ++ [a])[before.length]? = some a := List.getElem?_concat_length
      obtain ⟨granted, register⟩ :=
        grants_answer suite host calm w (c := ⟨w.nonces, taken, before ++ [a]⟩) rfl request (by
          rintro peer rfl
          obtain ⟨rfl, atStart⟩ := obeys.1
          rw [turn, atStart]
          exact outside)
      refine .head (Step.answer _ _ a request next _ found asks granted) ?_
      have later := ih (w.answer suite host request).1
        (a.onward ⟨request, (w.answer suite host request).1⟩ (next _))
        (w.answer suite host request).2 (takenAfter taken request) rfl outside ?_ ?_
      · rw [List.set_append_right _ _ (Nat.le_refl _), Nat.sub_self]
        rw [register] at later
        simpa [Script.run, Call.onward] using later
      · rw [Call.progress_onward]
        exact takenAfter_turn turn ⟨request, _⟩ obeys.1
      · rw [Call.progress_onward]
        exact obeys.2 _ granted.registerWorks

/-- A call that a world answers from its beginning to its end, while no other call of its
sender is inside, is one way for calls to go on. -/
theorem reachable_run (calm : Calm host) (boxed : Boxed) (w : World σ) (taken : List Identity)
    (calls : List Call) (free : boxed.sender ∉ taken)
    (reachable : Reachable p initial ⟨w.nonces, taken, calls⟩) :
    let ran := (p.process boxed).run suite host w
    Reachable p initial
      ⟨ran.world.nonces, taken, calls ++ [⟨boxed, ran.exchanges, .done ran.value⟩]⟩ := by
  have obeys := (p.process_obeys boxed).mono (fun s r ended => ended.1)
  have steps := steps_of_run suite host calm calls _ ⟨boxed, [], p.process boxed⟩ w taken rfl
    free rfl obeys
  exact (reachable.tail (Step.start _ boxed)).trans steps

end Worlds

/-! ## Exactly once -/

/-- Exactly once by nonce, of calls that began with the register `initial`. -/
structure OnceByNonce (p : Processor) (initial : NonceRegister) (c : Calls) : Prop where
  /-- Of the calls of one sender with one nonce at most one processes its message. -/
  once : ∀ (i j : Nat) (a b : Call) (m n : Message), c.calls[i]? = some a → c.calls[j]? = some b →
    a.Returned (.ok (.processed m)) → b.Returned (.ok (.processed n)) →
      a.boxed.sender = b.boxed.sender → a.boxed.nonce = b.boxed.nonce → i = j
  /-- A call that has returned has put its own nonce into the register if it passed the
  check and did not fail, and otherwise nothing. -/
  marked : ∀ a ∈ c.calls, ∀ result, a.Returned result → ∀ h,
    a.Marked h ↔ h = a.hash p ∧ a.Passed p ∧ ∃ outcome, result = .ok outcome
  /-- Nothing else is put into the register. -/
  register : ∀ h, c.register.contains h = true ↔
    initial.contains h = true ∨ ∃ a ∈ c.calls, a.Marked h
  /-- From when a nonce is in the register, a call with it that was not past the check
  by then has no effect. -/
  spent : ∀ d : Calls, Relation.ReflTransGen (Step p) c d →
    ∀ (i : Nat) (a : Call), d.calls[i]? = some a → c.register.contains (a.hash p) = true →
      (∀ before, c.calls[i]? = some before → ¬before.Checked) →
        ∀ x ∈ a.past, ¬x.request.isEffect

/-- Whatever calls there are and however they are answered, each nonce of a sender is
processed once. -/
theorem process_exactly_once (p : Processor) (initial : NonceRegister) :
    ∀ c : Calls, Reachable p initial c → OnceByNonce p initial c := by
  intro c reachable
  have fair := fair_of_reachable reachable
  refine ⟨?_, ?_, ?_, ?_⟩
  · intro i j a b m n foundA foundB returnedA returnedB sender nonce
    refine Decidable.byContradiction fun different => ?_
    have markedA := (fair.orderly i a foundA).isMarked_of_processed returnedA
    have markedB := (fair.orderly j b foundB).isMarked_of_processed returnedB
    have hash : a.hash p = b.hash p := by rw [Call.hash, Call.hash, nonce]
    exact ((fair.compatible i j a b different foundA foundB sender).2 hash).2.2 ⟨markedA, markedB⟩
  · intro a member result returned h
    obtain ⟨i, found⟩ := List.mem_iff_getElem?.mp member
    exact (fair.orderly i a found).marked_of_returned returned h
  · intro h
    rw [fair.register]
    refine or_congr Iff.rfl ⟨?_, ?_⟩
    · rintro ⟨i, a, found, marked, hash⟩
      have isMarked := ((fair.orderly i a found).marked_iff h).mpr ⟨hash.symm, marked⟩
      exact ⟨a, List.mem_iff_getElem?.mpr ⟨i, found⟩, isMarked⟩
    · rintro ⟨a, member, marked⟩
      obtain ⟨i, found⟩ := List.mem_iff_getElem?.mp member
      obtain ⟨hash, isMarked⟩ := ((fair.orderly i a found).marked_iff h).mp marked
      exact ⟨i, a, found, isMarked, hash.symm⟩
  · intro d steps i a found stored unchecked x member isEffect
    have fairLater := fair_of_reachable (Relation.ReflTransGen.trans reachable steps)
    refine unpassed_steps steps reachable stored ?_ a found rfl
      ((fairLater.orderly i a found).fresh_of_isEffect member isEffect)
    intro before foundBefore _ fresh
    have passed := (fair.orderly i before foundBefore).passed_iff.mp fresh
    exact unchecked before foundBefore ⟨_, passed, _, rfl⟩

/-- A message that is delivered twice is processed the first time and dropped the second. -/
theorem process_exactly_once_redelivered :
    ∃ c, Reachable Setting.processor .empty c ∧ OnceByNonce Setting.processor .empty c ∧
      c.calls.map (fun a => a.boxed.nonce) = [Block.ofNat 24 7, Block.ofNat 24 7] ∧
      (∃ a m, c.calls[0]? = some a ∧ a.Returned (.ok (.processed m))) ∧
      ∃ a, c.calls[1]? = some a ∧ a.Returned (.ok (.dropped .alreadyProcessed)) := by
  have calm : Calm (Host.plain Setting.peerKey) := fun _ _ => ⟨rfl, rfl⟩
  obtain ⟨m, processed⟩ := Setting.exists_processed
    (r := (Setting.deliver .plain (Setting.boxed .contactDeletePhoto 7)).value) (by decide +kernel)
  have dropped := Setting.eq_dropped .alreadyProcessed
    (r := (Setting.deliver (Setting.deliver .plain (Setting.boxed .contactDeletePhoto 7)).world
      (Setting.boxed .contactDeletePhoto 7)).value) (by decide +kernel)
  have once := reachable_run .plain _ calm (Setting.boxed .contactDeletePhoto 7) .plain [] []
    List.not_mem_nil (p := Setting.processor) .refl
  have twice := reachable_run .plain _ calm (Setting.boxed .contactDeletePhoto 7) _ [] _
    List.not_mem_nil once
  refine ⟨_, twice, process_exactly_once _ _ _ twice, rfl, ⟨_, m, rfl, ?_⟩, _, rfl, ?_⟩
  · exact congrArg Script.done processed
  · exact congrArg Script.done dropped

end Calls

end SecureInbox
