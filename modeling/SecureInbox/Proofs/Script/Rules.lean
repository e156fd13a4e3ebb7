import SecureInbox.Intake.World

/-! # What holds of a script under all answers

`Rules` say which requests a script may make in a state, which answers it may count
on, and what an exchange makes of the state.  `Script.Obeys` holds of a script that
keeps to the rules and ends as it should under every answer that they admit;
`obeys_andThen` cuts it at a sequence, and `obeys_bind` and its like do so for parts
that may fail.

`Script.Reaches` says how far a script has come after some exchanges.  A script that
obeys has made only allowed requests wherever it is (`Obeys.allowed`), and what is
left of it obeys as well (`Obeys.rest`); `reaches_run` is for the exchanges of a run.  Under
the rules of a world (`World.rules`) what a script obeys is what it comes to there. -/
set_option autoImplicit false

namespace SecureInbox

structure Rules (σ : Type) where
  /-- The requests that may be made. -/
  allows : σ → Request → Prop
  /-- The answers that may come. -/
  admits : σ → Exchange → Prop
  after : σ → Exchange → σ

namespace Rules

variable {σ : Type} (rules : Rules σ)

def afterAll (s : σ) (xs : List Exchange) : σ := xs.foldl rules.after s

/-- Whether all answers are admitted, each in the state it comes in. -/
def AdmitsAll : σ → List Exchange → Prop
  | _, [] => True
  | s, x :: xs => rules.admits s x ∧ AdmitsAll (rules.after s x) xs

def AllowsAll : σ → List Exchange → Prop
  | _, [] => True
  | s, x :: xs => rules.allows s x.request ∧ AllowsAll (rules.after s x) xs

theorem admitsAll_append : ∀ (xs ys : List Exchange) (s : σ), rules.AdmitsAll s (xs ++ ys) ↔
    rules.AdmitsAll s xs ∧ rules.AdmitsAll (rules.afterAll s xs) ys := by
  intro xs ys
  induction xs with
  | nil => intro s; simp [AdmitsAll, afterAll]
  | cons x xs ih =>
      intro s
      simp only [List.cons_append, AdmitsAll, ih, and_assoc]
      rfl

variable {rules} {xs : List Exchange}

/-- Answers that are admitted in any state. -/
theorem admitsAll_of_mem (known : ∀ x ∈ xs, ∀ s, rules.admits s x) : ∀ s, rules.AdmitsAll s xs := by
  induction xs with
  | nil => exact fun _ => trivial
  | cons x xs ih =>
      intro s
      exact ⟨known x List.mem_cons_self s, ih (fun y mem => known y (List.mem_cons_of_mem x mem)) _⟩

def collecting {β : Type} (pick : Exchange → Option β) (admits : Exchange → Prop) : Rules (List β) where
  allows _ _ := True
  admits _ x := admits x
  after s x := s ++ (pick x).toList

theorem afterAll_collecting {β : Type} (pick : Exchange → Option β) (admits : Exchange → Prop)
    (xs : List Exchange) : ∀ s, (collecting pick admits).afterAll s xs = s ++ xs.filterMap pick := by
  induction xs with
  | nil => exact fun s => (List.append_nil s).symm
  | cons x xs ih =>
      intro s
      show (collecting pick admits).afterAll (s ++ (pick x).toList) xs = _
      rw [ih, List.append_assoc, List.filterMap_cons]
      cases pick x <;> rfl

theorem after_collecting {β : Type} {pick : Exchange → Option β} {admits : Exchange → Prop}
    {x : Exchange} (picked : pick x = none) (s : List β) : (collecting pick admits).after s x = s := by
  show s ++ (pick x).toList = s
  rw [picked]
  exact List.append_nil s

/-- What follows from being allowed in any state holds of each request. -/
theorem AllowsAll.each {allowed : Request → Prop} (imp : ∀ s r, rules.allows s r → allowed r) :
    ∀ {s : σ}, rules.AllowsAll s xs → ∀ x ∈ xs, allowed x.request := by
  induction xs with
  | nil => exact fun _ x mem => nomatch mem
  | cons y ys ih =>
      intro s all x mem
      rcases List.mem_cons.mp mem with rfl | mem
      · exact imp s x.request all.1
      · exact ih all.2 x mem

end Rules

namespace Script

variable {σ α β : Type} (rules : Rules σ)

/-- Whether a script makes only allowed requests and ends as `post` says, under all
answers that are admitted. -/
def Obeys : Script α → σ → (σ → α → Prop) → Prop
  | .done value, s, post => post s value
  | .ask request next, s, post =>
      rules.allows s request ∧ ∀ answer, rules.admits s ⟨request, answer⟩ →
        Obeys (next answer) (rules.after s ⟨request, answer⟩) post

theorem obeys_andThen (script : Script α) (f : α → Script β) : ∀ (s : σ) (post : σ → β → Prop),
    Obeys rules (script.andThen f) s post ↔
      Obeys rules script s fun s a => Obeys rules (f a) s post := by
  induction script with
  | done value => intro s post; rfl
  | ask request next ih =>
      intro s post
      simp only [andThen, Obeys, ih]

theorem Obeys.mono {rules : Rules σ} {script : Script α} : ∀ {s : σ} {post weaker : σ → α → Prop},
    Obeys rules script s post → (∀ s a, post s a → weaker s a) → Obeys rules script s weaker := by
  induction script with
  | done value => intro s post weaker h imp; exact imp s value h
  | ask request next ih =>
      intro s post weaker h imp
      exact ⟨h.1, fun answer admitted => ih answer (h.2 answer admitted) imp⟩

theorem Obeys.and {rules : Rules σ} {script : Script α} : ∀ {s : σ} {p q : σ → α → Prop},
    Obeys rules script s p → Obeys rules script s q →
      Obeys rules script s fun s a => p s a ∧ q s a := by
  induction script with
  | done value => intro s p q hp hq; exact ⟨hp, hq⟩
  | ask request next ih =>
      intro s p q hp hq
      exact ⟨hp.1, fun answer admitted => ih answer (hp.2 answer admitted) (hq.2 answer admitted)⟩

/-- The exchanges of a script up to where `rest` is left of it. -/
inductive Reaches : Script α → List Exchange → Script α → Prop where
  | refl (script : Script α) : Reaches script [] script
  | ask {request : Request} {next : request.Answer → Script α} {answer : request.Answer}
      {xs : List Exchange} {rest : Script α} (later : Reaches (next answer) xs rest) :
      Reaches (.ask request next) (⟨request, answer⟩ :: xs) rest

theorem Reaches.snoc {script : Script α} {xs : List Exchange} {request : Request}
    {next : request.Answer → Script α} (reaches : Reaches script xs (.ask request next))
    (answer : request.Answer) : Reaches script (xs ++ [⟨request, answer⟩]) (next answer) := by
  generalize left : Script.ask request next = rest at reaches
  induction reaches with
  | refl script =>
      subst left
      exact .ask (.refl _)
  | ask later ih => exact .ask (ih left)

theorem reaches_run {τ : Type} (suite : Suite) (host : Host τ) (script : Script α) :
    ∀ w : World τ, Reaches script (script.run suite host w).exchanges
      (.done (script.run suite host w).value) := by
  induction script with
  | done value => intro w; exact .refl _
  | ask request next ih => intro w; exact .ask (ih _ _)

variable {rules}

theorem Obeys.rest {script rest : Script α} {xs : List Exchange} {s : σ} {post : σ → α → Prop}
    (obeys : Obeys rules script s post) (reaches : Reaches script xs rest)
    (admitted : rules.AdmitsAll s xs) : Obeys rules rest (rules.afterAll s xs) post := by
  induction reaches generalizing s with
  | refl script => exact obeys
  | ask later ih => exact ih (obeys.2 _ admitted.1) admitted.2

theorem Obeys.allowed {script rest : Script α} {xs : List Exchange} {s : σ} {post : σ → α → Prop}
    (obeys : Obeys rules script s post) (reaches : Reaches script xs rest)
    (admitted : rules.AdmitsAll s xs) : rules.AllowsAll s xs := by
  induction reaches generalizing s with
  | refl script => trivial
  | ask later ih => exact ⟨obeys.1, ih (obeys.2 _ admitted.1) admitted.2⟩

theorem Obeys.run {τ : Type} {script : Script α} {s : σ} {post : σ → α → Prop}
    (obeys : Obeys rules script s post) (suite : Suite) (host : Host τ) (w : World τ)
    (admitted : rules.AdmitsAll s (script.run suite host w).exchanges) :
    post (rules.afterAll s (script.run suite host w).exchanges) (script.run suite host w).value :=
  obeys.rest (reaches_run suite host script w) admitted

end Script

/-! ## The rules of a world -/

/-- A world has one answer to each request, and one world comes after it. -/
def World.rules {σ : Type} (suite : Suite) (host : Host σ) : Rules (World σ) where
  allows _ _ := True
  admits w x := x.answer = (w.answer suite host x.request).1
  after w x := (w.answer suite host x.request).2

theorem Script.Obeys.world {σ α : Type} {suite : Suite} {host : Host σ} {script : Script α} :
    ∀ {w : World σ} {post : World σ → α → Prop}, script.Obeys (World.rules suite host) w post →
      post (script.run suite host w).world (script.run suite host w).value := by
  induction script with
  | done value => exact fun obeys => obeys
  | ask request next ih => exact fun obeys => ih _ (obeys.2 _ rfl)

/-! ## Parts that may fail -/

namespace Intake

variable {σ α β : Type} (rules : Rules σ)

/-- `Script.Obeys` of a part; its failure is a value as well. -/
def Obeys (part : Intake α) (s : σ) (post : σ → Except ProcessError α → Prop) : Prop :=
  Script.Obeys rules part.run s post

/-- How a part goes on: after a value with what follows, after a failure not at all. -/
def onward (post : σ → Except ProcessError β → Prop) (follow : σ → α → Prop) (s : σ) :
    Except ProcessError α → Prop
  | .ok a => follow s a
  | .error e => post s (.error e)

theorem obeys_bind (part : Intake α) (f : α → Intake β) (s : σ)
    (post : σ → Except ProcessError β → Prop) :
    Obeys rules (part >>= f) s post ↔
      Obeys rules part s (onward post fun s a => Obeys rules (f a) s post) := by
  have cut := Script.obeys_andThen rules part.run (ExceptT.bindCont f) s post
  refine cut.trans (Iff.of_eq (congrArg (fun q => Script.Obeys rules part.run s q) ?_))
  funext s r
  cases r <;> rfl

theorem obeys_request (r : Request) (s : σ) (post : σ → Except ProcessError r.Answer → Prop) :
    Obeys rules (request r) s post ↔ rules.allows s r ∧
      ∀ answer, rules.admits s ⟨r, answer⟩ → post (rules.after s ⟨r, answer⟩) (.ok answer) :=
  Iff.rfl

theorem obeys_notify (n : Notice) (s : σ) (post : σ → Except ProcessError Unit → Prop) :
    Obeys rules (notify n) s post ↔ rules.allows s (.notice n) ∧
      (rules.admits s ⟨.notice n, ()⟩ → post (rules.after s ⟨.notice n, ()⟩) (.ok ())) := by
  rw [notify, obeys_request]
  exact and_congr Iff.rfl ⟨fun h => h (), fun h _ => h⟩

theorem obeys_draw (d : Draw) (s : σ) (post : σ → Except ProcessError d.Answer → Prop) :
    Obeys rules (draw d) s post ↔ rules.allows s (.draw d) ∧
      ∀ answer : d.Answer, rules.admits s ⟨.draw d, answer⟩ →
        post (rules.after s ⟨.draw d, answer⟩) (.ok answer) :=
  Iff.rfl

theorem obeys_store (c : StoreCall) (s : σ) (post : σ → Except ProcessError c.Answer → Prop) :
    Obeys rules (store c) s post ↔ rules.allows s (.store c) ∧
      ∀ answer : Except StoreError c.Answer, rules.admits s ⟨.store c, answer⟩ →
        post (rules.after s ⟨.store c, answer⟩) (answer.mapError .store) := by
  rw [store, obeys_bind, obeys_request]
  refine and_congr Iff.rfl (forall_congr' fun answer => imp_congr Iff.rfl ?_)
  cases answer <;> rfl

theorem obeys_host (c : HostCall) (s : σ) (post : σ → Except ProcessError c.Answer → Prop) :
    Obeys rules (host c) s post ↔ rules.allows s (.host c) ∧
      ∀ answer : Except HandlerError c.Answer, rules.admits s ⟨.host c, answer⟩ →
        post (rules.after s ⟨.host c, answer⟩) (answer.mapError .handler) := by
  rw [host, obeys_bind, obeys_request]
  refine and_congr Iff.rfl (forall_congr' fun answer => imp_congr Iff.rfl ?_)
  cases answer <;> rfl

variable {rules} in
/-- A part that begins with a question to a store, when there is but one answer. -/
theorem Obeys.after_store {c : StoreCall} {f : c.Answer → Intake β} {s : σ}
    {post : σ → Except ProcessError β → Prop} (allowed : rules.allows s (.store c)) (value : c.Answer)
    (exact : ∀ answer, rules.admits s ⟨.store c, answer⟩ → answer = .ok value)
    (rest : Obeys rules (f value) (rules.after s ⟨.store c, .ok value⟩) post) :
    Obeys rules (store c >>= f) s post := by
  rw [obeys_bind, obeys_store]
  refine ⟨allowed, fun answer admitted => ?_⟩
  obtain rfl := exact answer admitted
  exact rest

/-- A part that begins with a request of which nothing is picked out. -/
theorem obeys_unpicked_bind {γ : Type} {pick : Exchange → Option γ} {admits : Exchange → Prop}
    {r : Request} {f : r.Answer → Intake β} {s : List γ}
    {post : List γ → Except ProcessError β → Prop} (unpicked : ∀ answer, pick ⟨r, answer⟩ = none)
    (rest : ∀ answer, admits ⟨r, answer⟩ → Obeys (.collecting pick admits) (f answer) s post) :
    Obeys (.collecting pick admits) (request r >>= f) s post := by
  rw [obeys_bind, obeys_request]
  refine ⟨trivial, fun answer admitted => ?_⟩
  rw [Rules.after_collecting (unpicked answer)]
  exact rest answer admitted

theorem obeys_attempt (part : Intake α) (s : σ)
    (post : σ → Except ProcessError (Except ProcessError α) → Prop) :
    Obeys rules (attempt part) s post ↔ Obeys rules part s fun s r => post s (.ok r) :=
  Script.obeys_andThen rules part.run
    (fun r => .done (.ok r : Except ProcessError (Except ProcessError α))) s post

/-- A script that runs a part to its end and goes on with what came of it. -/
theorem obeys_run_bind {γ : Type} (part : Intake α) (f : Except ProcessError α → Script γ) (s : σ)
    (post : σ → γ → Prop) :
    Script.Obeys rules (part.run >>= f) s post ↔
      Obeys rules part s fun s r => Script.Obeys rules (f r) s post :=
  Script.obeys_andThen rules part.run f s post

theorem Obeys.mono {rules : Rules σ} {part : Intake α} {s : σ}
    {post weaker : σ → Except ProcessError α → Prop} (h : Obeys rules part s post)
    (imp : ∀ s r, post s r → weaker s r) : Obeys rules part s weaker :=
  Script.Obeys.mono h imp

end Intake

/-! ## Scripts that only make some kinds of requests -/

def Rules.only (allowed : Request → Prop) : Rules Unit where
  allows _ r := allowed r
  admits _ _ := True
  after _ _ := ()

def Intake.Asks {α : Type} (allowed : Request → Prop) (part : Intake α) : Prop :=
  Intake.Obeys (.only allowed) part () fun _ _ => True

def Intake.Gives {α : Type} (allowed : Request → Prop) (part : Intake α)
    (post : Except ProcessError α → Prop) : Prop :=
  Intake.Obeys (.only allowed) part () fun _ o => post o

namespace Intake

variable {α β : Type} {allowed : Request → Prop}

theorem Gives.mono {part : Intake α} {post weaker : Except ProcessError α → Prop}
    (gives : Gives allowed part post) (imp : ∀ o, post o → weaker o) : Gives allowed part weaker :=
  Obeys.mono gives fun _ o => imp o

theorem Gives.asks {part : Intake α} {post : Except ProcessError α → Prop}
    (gives : Gives allowed part post) : Asks allowed part := gives.mono fun _ _ => trivial

@[simp] theorem asks_request (r : Request) : Asks allowed (request r) ↔ allowed r :=
  ⟨fun h => h.1, fun h => ⟨h, fun _ _ => trivial⟩⟩

theorem Asks.bind {part : Intake α} {f : α → Intake β} (first : Asks allowed part)
    (second : ∀ a, Asks allowed (f a)) : Asks allowed (part >>= f) := by
  rw [Asks, obeys_bind]
  refine Obeys.mono first ?_
  intro s r _
  cases r with
  | ok a => exact second a
  | error e => trivial

theorem Asks.gives_bind {part : Intake α} {f : α → Intake β} {post : Except ProcessError β → Prop}
    (first : Asks allowed part) (second : ∀ a, Gives allowed (f a) post)
    (failed : ∀ e, post (.error e)) : Gives allowed (part >>= f) post := by
  rw [Gives, obeys_bind]
  refine Obeys.mono first ?_
  intro s r _
  cases r with
  | ok a => exact second a
  | error e => exact failed e

theorem Gives.more {part : Intake α} {post : Except ProcessError α → Prop} {more : Request → Prop}
    (gives : Gives allowed part post) (imp : ∀ r, allowed r → more r) : Gives more part post := by
  have general : ∀ script : Script (Except ProcessError α),
      Script.Obeys (.only allowed) script () (fun _ o => post o) →
        Script.Obeys (.only more) script () fun _ o => post o := by
    intro script
    induction script with
    | done value => exact id
    | ask request next ih =>
        intro obeys
        exact ⟨imp request obeys.1, fun answer _ => ih answer (obeys.2 answer trivial)⟩
  exact general part.run gives

theorem Asks.mono {part : Intake α} {more : Request → Prop} (h : Asks allowed part)
    (imp : ∀ r, allowed r → more r) : Asks more part := Gives.more h imp

theorem Asks.attempt {part : Intake α} (h : Asks allowed part) : Asks allowed (attempt part) :=
  (obeys_attempt _ part () _).mpr h

@[simp] theorem asks_notify (n : Notice) : Asks allowed (notify n) ↔ allowed (.notice n) :=
  asks_request _

@[simp] theorem asks_draw (d : Draw) : Asks allowed (draw d) ↔ allowed (.draw d) := asks_request _

@[simp] theorem asks_store (c : StoreCall) : Asks allowed (store c) ↔ allowed (.store c) := by
  rw [Asks, obeys_store]
  exact ⟨fun h => h.1, fun h => ⟨h, fun _ _ => trivial⟩⟩

@[simp] theorem asks_host (c : HostCall) : Asks allowed (host c) ↔ allowed (.host c) := by
  rw [Asks, obeys_host]
  exact ⟨fun h => h.1, fun h => ⟨h, fun _ _ => trivial⟩⟩

/-- Rules whose state such requests leave alone are obeyed, and the state is kept. -/
theorem Gives.obeys {σ : Type} {rules : Rules σ} {part : Intake α} {s : σ}
    {post : Except ProcessError α → Prop} (gives : Gives allowed part post)
    (kept : ∀ r, allowed r → rules.allows s r ∧
      ∀ answer, rules.admits s ⟨r, answer⟩ → rules.after s ⟨r, answer⟩ = s) :
    Obeys rules part s fun t o => t = s ∧ post o := by
  have general : ∀ script : Script (Except ProcessError α),
      Script.Obeys (.only allowed) script () (fun _ o => post o) →
        Script.Obeys rules script s fun t o => t = s ∧ post o := by
    intro script
    induction script with
    | done value => exact fun holds => ⟨rfl, holds⟩
    | ask request next ih =>
        intro h
        refine ⟨(kept request h.1).1, fun answer admitted => ?_⟩
        rw [(kept request h.1).2 answer admitted]
        exact ih answer (h.2 answer trivial)
  exact general part.run gives

theorem Asks.obeys {σ : Type} {rules : Rules σ} {part : Intake α} {s : σ}
    (asks : Asks allowed part)
    (kept : ∀ r, allowed r → rules.allows s r ∧
      ∀ answer, rules.admits s ⟨r, answer⟩ → rules.after s ⟨r, answer⟩ = s) :
    Obeys rules part s fun t _ => t = s :=
  (Gives.obeys asks kept).mono fun _ _ both => both.1

/-- What a part comes to under rules that admit all answers it comes to whatever it asks. -/
theorem Asks.gives {σ : Type} {rules : Rules σ} {part : Intake α} {s : σ}
    {post : σ → Except ProcessError α → Prop} (asks : Asks allowed part)
    (obeys : Obeys rules part s post) (admits : ∀ s x, rules.admits s x) :
    Gives allowed part fun o => ∃ t, post t o := by
  have general : ∀ (script : Script (Except ProcessError α)) (s : σ),
      Script.Obeys (.only allowed) script () (fun _ _ => True) → Script.Obeys rules script s post →
        Script.Obeys (.only allowed) script () fun _ o => ∃ t, post t o := by
    intro script
    induction script with
    | done value => exact fun s _ holds => ⟨s, holds⟩
    | ask request next ih =>
        intro s asks obeys
        exact ⟨asks.1, fun answer _ => ih answer _ (asks.2 answer trivial) (obeys.2 answer (admits _ _))⟩
  exact general part.run s asks obeys

end Intake

end SecureInbox
