import SecureInbox.Proofs.Script.Rules

/-! # Scripts that show the same

Of some requests it is looked at when they are made and how they are answered.  A script
refines another one if it makes the other's requests one by one, and besides them only
requests that are not looked at (`Script.Refines`).  What is looked at in its exchanges are
then the exchanges of the other one (`Refines.reaches`), and those are given by how its
requests are answered (`Reaches.unique`). -/
set_option autoImplicit false

namespace SecureInbox

def Rules.answering (f : List Exchange → (r : Request) → r.Answer) : Rules (List Exchange) where
  allows _ _ := True
  admits past x := x.answer = f past x.request
  after past x := past ++ [x]

namespace Script

variable {σ α β γ δ : Type}

/-- There is only one way through a script whose requests are answered by a function. -/
theorem Reaches.unique {f : List Exchange → (r : Request) → r.Answer} {script : Script α}
    {xs ys : List Exchange} {a b : α} (first : Reaches script xs (.done a))
    (second : Reaches script ys (.done b)) :
    ∀ {past}, (Rules.answering f).AdmitsAll past xs → (Rules.answering f).AdmitsAll past ys →
      xs = ys ∧ a = b := by
  induction script generalizing xs ys with
  | done value =>
      cases first
      cases second
      exact fun _ _ => ⟨rfl, rfl⟩
  | ask request next ih =>
      cases first with
      | @ask _ _ answer xs _ later =>
      cases second with
      | @ask _ _ other ys _ again =>
      intro past answered answeredAgain
      obtain rfl : answer = other := answered.1.trans answeredAgain.1.symm
      obtain ⟨rfl, same⟩ := ih answer later again answered.2 answeredAgain.2
      exact ⟨rfl, same⟩

/-- A script makes the requests of another one that are looked at, in their order, and no others
of them, and ends as that does, under all answers that are admitted. -/
inductive Refines (rules : Rules σ) (isSeen : Request → Bool) (post : α → β → Prop) :
    Script α → Script β → σ → Prop where
  | done {a : α} {b : β} {s : σ} (holds : post a b) : Refines rules isSeen post (.done a) (.done b) s
  | seen {r : Request} {next : r.Answer → Script α} {follow : r.Answer → Script β} {s : σ}
      (seen : isSeen r = true)
      (rest : ∀ answer, rules.admits s ⟨r, answer⟩ →
        Refines rules isSeen post (next answer) (follow answer) (rules.after s ⟨r, answer⟩)) :
      Refines rules isSeen post (.ask r next) (.ask r follow) s
  | unseen {r : Request} {next : r.Answer → Script α} {core : Script β} {s : σ}
      (unseen : isSeen r = false)
      (rest : ∀ answer, rules.admits s ⟨r, answer⟩ →
        Refines rules isSeen post (next answer) core (rules.after s ⟨r, answer⟩)) :
      Refines rules isSeen post (.ask r next) core s

namespace Refines

variable {rules : Rules σ} {isSeen : Request → Bool} {post : α → β → Prop}
variable {script : Script α} {core : Script β} {s : σ}

theorem reaches {a : α} (refines : Refines rules isSeen post script core s) :
    ∀ {xs}, Reaches script xs (.done a) → rules.AdmitsAll s xs →
      ∃ b, Reaches core (xs.filter fun x => isSeen x.request) (.done b) ∧ post a b := by
  induction refines with
  | done holds =>
      intro xs reaches _
      cases reaches
      exact ⟨_, .refl _, holds⟩
  | seen seen rest ih =>
      intro xs reaches admitted
      cases reaches with
      | ask later =>
      obtain ⟨b, reaches, holds⟩ := ih _ admitted.1 later admitted.2
      refine ⟨b, ?_, holds⟩
      rw [List.filter_cons, if_pos seen]
      exact .ask reaches
  | unseen unseen rest ih =>
      intro xs reaches admitted
      cases reaches with
      | ask later =>
      obtain ⟨b, reaches, holds⟩ := ih _ admitted.1 later admitted.2
      refine ⟨b, ?_, holds⟩
      rw [List.filter_cons, if_neg (ne_true_of_eq_false unseen)]
      exact reaches

theorem mono {weaker : α → β → Prop} (refines : Refines rules isSeen post script core s)
    (imp : ∀ a b, post a b → weaker a b) : Refines rules isSeen weaker script core s := by
  induction refines with
  | done holds => exact .done (imp _ _ holds)
  | seen seen rest ih => exact .seen seen ih
  | unseen unseen rest ih => exact .unseen unseen ih

theorem andThen {f : α → Script γ} {g : β → Script δ} {final : γ → δ → Prop}
    (first : Refines rules isSeen post script core s)
    (second : ∀ t a b, post a b → Refines rules isSeen final (f a) (g b) t) :
    Refines rules isSeen final (script.andThen f) (core.andThen g) s := by
  induction first with
  | done holds => exact second _ _ _ holds
  | seen seen rest ih => exact .seen seen ih
  | unseen unseen rest ih => exact .unseen unseen ih

theorem skip {f : γ → Script α} {first : Script γ}
    (unseen : Obeys (.only fun r => isSeen r = false) first () fun _ _ => True)
    (obeys : Obeys rules first s fun t c => Refines rules isSeen post (f c) core t) :
    Refines rules isSeen post (first.andThen f) core s := by
  induction first generalizing s with
  | done value => exact obeys
  | ask request next ih =>
      exact .unseen unseen.1 fun answer admitted =>
        ih answer (unseen.2 answer trivial) (obeys.2 answer admitted)

theorem same {f : γ → Script α} {g : γ → Script β} {first : Script γ}
    (seen : Obeys (.only fun r => isSeen r = true) first () fun _ _ => True)
    (kept : ∀ r, isSeen r = true → ∀ answer, rules.after s ⟨r, answer⟩ = s)
    (rest : ∀ c, Refines rules isSeen post (f c) (g c) s) :
    Refines rules isSeen post (first.andThen f) (first.andThen g) s := by
  induction first with
  | done value => exact rest value
  | ask request next ih =>
      refine .seen seen.1 fun answer _ => ?_
      rw [kept request seen.1 answer]
      exact ih answer (seen.2 answer trivial)

end Refines

end Script

/-! ## Parts that may fail

`same_bind` is for parts that begin alike, `skip_bind` and its like for one that first makes
requests which are not looked at, and `bind_last` and `attempt_bind` for one that makes them at
its end. -/

namespace Intake

variable {σ α β γ : Type}

/-- `Script.Refines` of parts; their failures are values as well. -/
def Refines (rules : Rules σ) (isSeen : Request → Bool)
    (post : Except ProcessError α → Except ProcessError β → Prop) (part : Intake α) (core : Intake β)
    (s : σ) : Prop :=
  Script.Refines rules isSeen post part.run core.run s

namespace Refines

variable {rules : Rules σ} {isSeen : Request → Bool} {s : σ}
variable {post : Except ProcessError β → Except ProcessError γ → Prop} {core : Intake γ}

theorem same_bind {part : Intake α} {f : α → Intake β} {g : α → Intake γ}
    (seen : Asks (fun r => isSeen r = true) part)
    (kept : ∀ r, isSeen r = true → ∀ answer, rules.after s ⟨r, answer⟩ = s)
    (rest : ∀ a, Refines rules isSeen post (f a) (g a) s)
    (failed : ∀ e, post (.error e) (.error e)) :
    Refines rules isSeen post (part >>= f) (part >>= g) s := by
  refine Script.Refines.same (f := ExceptT.bindCont f) (g := ExceptT.bindCont g) seen kept ?_
  intro o
  cases o with
  | ok a => exact rest a
  | error e => exact .done (failed e)

theorem self {part : Intake β} (seen : Asks (fun r => isSeen r = true) part)
    (kept : ∀ r, isSeen r = true → ∀ answer, rules.after s ⟨r, answer⟩ = s) :
    Refines rules isSeen Eq part part s := by
  have whole : Refines rules isSeen Eq (part >>= pure) (part >>= pure) s :=
    same_bind seen kept (fun _ => .done rfl) fun _ => rfl
  rwa [bind_pure] at whole

theorem skip_request {r : Request} {f : r.Answer → Intake β} (unseen : isSeen r = false)
    (rest : ∀ answer, rules.admits s ⟨r, answer⟩ →
      Refines rules isSeen post (f answer) core (rules.after s ⟨r, answer⟩)) :
    Refines rules isSeen post (request r >>= f) core s := .unseen unseen rest

theorem skip_attempt {part : Intake α} {f : Except ProcessError α → Intake β}
    (unseen : Asks (fun r => isSeen r = false) part)
    (obeys : part.Obeys rules s fun t o => Refines rules isSeen post (f o) core t) :
    Refines rules isSeen post (attempt part >>= f) core s := by
  have run : (attempt part >>= f).run = part.run.andThen fun o => (f o).run :=
    Script.andThen_andThen _ _ _
  rw [Refines, run]
  exact .skip unseen obeys

theorem skip_bind {part : Intake α} {f : α → Intake β}
    (unseen : Asks (fun r => isSeen r = false) part)
    (obeys : part.Obeys rules s fun t o => ∃ a, o = .ok a ∧ Refines rules isSeen post (f a) core t) :
    Refines rules isSeen post (part >>= f) core s := by
  refine Script.Refines.skip (f := ExceptT.bindCont f) unseen (obeys.mono ?_)
  rintro t _ ⟨a, rfl, refines⟩
  exact refines

theorem bind_last {part : Intake α} {f : α → Intake β}
    {mid : Except ProcessError α → Except ProcessError γ → Prop}
    (first : Refines rules isSeen mid part core s)
    (second : ∀ t a c, mid (.ok a) c → Refines rules isSeen post (f a) (ofExcept c) t)
    (failed : ∀ e c, mid (.error e) c → post (.error e) c) :
    Refines rules isSeen post (part >>= f) core s := by
  rw [Refines, ← Script.andThen_done core.run]
  refine Script.Refines.andThen (f := ExceptT.bindCont f) first ?_
  intro t o c holds
  cases o with
  | ok a => exact second t a c holds
  | error e => exact .done (failed e c holds)

theorem attempt_bind {part : Intake α} {f : Except ProcessError α → Intake β}
    {mid : Except ProcessError α → Except ProcessError γ → Prop}
    (first : Refines rules isSeen mid part core s)
    (second : ∀ t o c, mid o c → Refines rules isSeen post (f o) (ofExcept c) t) :
    Refines rules isSeen post (attempt part >>= f) core s := by
  have run : (attempt part >>= f).run = part.run.andThen fun o => (f o).run :=
    Script.andThen_andThen _ _ _
  rw [Refines, run, ← Script.andThen_done core.run]
  exact Script.Refines.andThen first second

end Refines

end Intake

end SecureInbox
