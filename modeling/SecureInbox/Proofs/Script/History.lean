import SecureInbox.Proofs.Script.Rules

/-! # Scripts that are followed with their past

Rules whose state are the exchanges so far admit every answer, so that what a script does
under them it does whatever it is answered; what they allow can hang on what was answered
before.  As long as what is allowed stays allowed (`Grows`), a script can be followed part by
part (`Intake.Follows`), and `Rules.history_allows` reads the result off a list of exchanges. -/
set_option autoImplicit false

namespace SecureInbox

def Rules.history (allows : List Exchange → Request → Prop) : Rules (List Exchange) where
  allows := allows
  admits _ _ := True
  after past x := past ++ [x]

namespace Rules

variable {allows : List Exchange → Request → Prop}

theorem history_admits (xs : List Exchange) : ∀ past, (history allows).AdmitsAll past xs :=
  admitsAll_of_mem fun _ _ _ => trivial

/-- Each request was allowed after the exchanges before it. -/
theorem history_allows {x : Exchange} {back : List Exchange} : ∀ {front past : List Exchange},
    (history allows).AllowsAll past (front ++ x :: back) → allows (past ++ front) x.request := by
  intro front
  induction front with
  | nil =>
      intro past allowed
      rw [List.append_nil]
      exact allowed.1
  | cons y front ih =>
      intro past allowed
      have rest := ih allowed.2
      rw [show (history allows).after past y = past ++ [y] from rfl, List.append_assoc] at rest
      exact rest

end Rules

def Grows (allows : List Exchange → Request → Prop) : Prop :=
  ∀ past more r, past ⊆ more → allows past r → allows more r

def Intake.Follows {α : Type} (allows : List Exchange → Request → Prop) (part : Intake α)
    (past : List Exchange) (post : List Exchange → Except ProcessError α → Prop) : Prop :=
  part.Obeys (.history allows) past fun more o => past ⊆ more ∧ post more o

namespace Intake.Follows

variable {α β : Type} {allows : List Exchange → Request → Prop} {past : List Exchange}

theorem mono {part : Intake α} {post weaker : List Exchange → Except ProcessError α → Prop}
    (follows : part.Follows allows past post)
    (imp : ∀ more o, past ⊆ more → post more o → weaker more o) : part.Follows allows past weaker :=
  Obeys.mono follows fun more o both => ⟨both.1, imp more o both.1 both.2⟩

theorem pure {a : α} {post : List Exchange → Except ProcessError α → Prop}
    (holds : post past (.ok a)) : (Pure.pure a : Intake α).Follows allows past post :=
  ⟨List.Subset.refl _, holds⟩

theorem bind {part : Intake α} {f : α → Intake β} {mid : List Exchange → Except ProcessError α → Prop}
    {post : List Exchange → Except ProcessError β → Prop} (first : part.Follows allows past mid)
    (second : ∀ more a, past ⊆ more → mid more (.ok a) → (f a).Follows allows more post)
    (failed : ∀ more e, past ⊆ more → mid more (.error e) → post more (.error e)) :
    (part >>= f).Follows allows past post := by
  refine (obeys_bind _ _ _ _ _).mpr (Obeys.mono first ?_)
  rintro more o ⟨grown, holds⟩
  cases o with
  | error e => exact ⟨grown, failed more e grown holds⟩
  | ok a =>
      refine Obeys.mono (second more a grown holds) ?_
      exact fun _ _ both => ⟨List.Subset.trans grown both.1, both.2⟩

theorem attempt_bind {part : Intake α} {f : Except ProcessError α → Intake β}
    {mid : List Exchange → Except ProcessError α → Prop}
    {post : List Exchange → Except ProcessError β → Prop} (first : part.Follows allows past mid)
    (second : ∀ more o, past ⊆ more → mid more o → (f o).Follows allows more post) :
    (Intake.attempt part >>= f).Follows allows past post := by
  refine (obeys_bind _ _ _ _ _).mpr ((obeys_attempt _ _ _ _).mpr (Obeys.mono first ?_))
  rintro more o ⟨grown, holds⟩
  refine Obeys.mono (second more o grown holds) ?_
  exact fun _ _ both => ⟨List.Subset.trans grown both.1, both.2⟩

theorem request {r : Request} (allowed : allows past r) :
    (Intake.request r).Follows allows past fun more o =>
      ∃ answer, o = .ok answer ∧ ⟨r, answer⟩ ∈ more :=
  (obeys_request _ _ _ _).mpr ⟨allowed, fun answer _ =>
    ⟨List.subset_append_left _ _, answer, rfl, List.mem_append_right _ (List.mem_singleton_self _)⟩⟩

theorem store {c : StoreCall} (allowed : allows past (.store c)) :
    (Intake.store c).Follows allows past fun more o => ∀ a, o = .ok a → ⟨.store c, .ok a⟩ ∈ more := by
  refine (obeys_store _ _ _ _).mpr ⟨allowed, fun answer _ => ⟨List.subset_append_left _ _, ?_⟩⟩
  cases answer with
  | error error => exact fun _ other => nomatch other
  | ok a =>
      rintro _ ⟨⟩
      exact List.mem_append_right _ (List.mem_singleton_self _)

theorem host {c : HostCall} (allowed : allows past (.host c)) :
    (Intake.host c).Follows allows past fun more o => ∀ a, o = .ok a → ⟨.host c, .ok a⟩ ∈ more := by
  refine (obeys_host _ _ _ _).mpr ⟨allowed, fun answer _ => ⟨List.subset_append_left _ _, ?_⟩⟩
  cases answer with
  | error error => exact fun _ other => nomatch other
  | ok a =>
      rintro _ ⟨⟩
      exact List.mem_append_right _ (List.mem_singleton_self _)

/-- A part that makes only requests that are allowed when it starts. -/
theorem gives (grows : Grows allows) {part : Intake α} {post : Except ProcessError α → Prop}
    (gives : Gives (allows past) part post) : part.Follows allows past fun _ => post := by
  have general : ∀ (script : Script (Except ProcessError α)) (now : List Exchange), past ⊆ now →
      Script.Obeys (.only (allows past)) script () (fun _ o => post o) →
        Script.Obeys (.history allows) script now fun more o => past ⊆ more ∧ post o := by
    -- Generalized over what has happened since, after which the same is still allowed.
    intro script
    induction script with
    | done value => exact fun now grown holds => ⟨grown, holds⟩
    | ask request next ih =>
        intro now grown obeys
        refine ⟨grows _ _ _ grown obeys.1, fun answer _ => ?_⟩
        exact ih answer _ (List.Subset.trans grown (List.subset_append_left _ _)) (obeys.2 answer trivial)
  exact general part.run past (List.Subset.refl _) gives

end Intake.Follows

end SecureInbox
