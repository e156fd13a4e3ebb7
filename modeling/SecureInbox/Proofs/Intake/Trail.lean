import Mathlib.Data.List.Perm.Subperm
import SecureInbox.Intake.Batch
import SecureInbox.Proofs.Intake.Mirror

/-! # Requests for several senders

A `Trail` are requests that were made for several senders in some order, each answered by its
sender's host, with the worlds before and after.  `madeFor` picks those for one sender.

Let a script be given for each sender that stays in the sender's scope.  Whatever the order in
which their requests come, each script goes on as it would alone (`Trail.alone`); so two trails on
which all scripts come to their ends agree (`Trail.agree`).  Only the records that the rejection
log gives back may differ, and `Exchange.told` leaves them out. -/
set_option autoImplicit false

namespace SecureInbox

def madeFor (sender : Identity) (xs : List (Identity × Exchange)) : List Exchange :=
  (xs.filter fun x => x.1 = sender).map Prod.snd

section MadeFor

variable {sender other : Identity} {x : Exchange} {xs ys : List (Identity × Exchange)}

@[simp] theorem madeFor_nil : madeFor sender [] = [] := rfl

@[simp] theorem madeFor_cons_self : madeFor sender ((sender, x) :: xs) = x :: madeFor sender xs := by
  simp [madeFor]

theorem madeFor_cons_of_ne (ne : other ≠ sender) :
    madeFor sender ((other, x) :: xs) = madeFor sender xs := by
  simp [madeFor, ne]

@[simp] theorem madeFor_append :
    madeFor sender (xs ++ ys) = madeFor sender xs ++ madeFor sender ys := by
  simp [madeFor]

theorem mem_madeFor : x ∈ madeFor sender xs ↔ (sender, x) ∈ xs := by
  simp [madeFor]

@[simp] theorem madeFor_map_self (own : List Exchange) :
    madeFor sender (own.map fun x => (sender, x)) = own := by
  induction own with
  | nil => rfl
  | cons x rest ih => rw [List.map_cons, madeFor_cons_self, ih]

theorem madeFor_map_of_ne (ne : other ≠ sender) (own : List Exchange) :
    madeFor sender (own.map fun x => (other, x)) = [] := by
  induction own with
  | nil => rfl
  | cons x rest ih => rw [List.map_cons, madeFor_cons_of_ne ne, ih]

theorem length_madeFor : (madeFor sender xs).length = (xs.map Prod.fst).count sender := by
  induction xs with
  | nil => rfl
  | cons x rest ih =>
      obtain ⟨maker, x⟩ := x
      by_cases own : maker = sender
      · subst own
        simp [ih]
      · simp [madeFor_cons_of_ne own, List.count_cons_of_ne own, ih]

/-- Where no sender makes more requests, there are no more of them in all. -/
theorem length_le_of_madeFor (le : ∀ sender, (madeFor sender xs).length ≤ (madeFor sender ys).length) :
    xs.length ≤ ys.length := by
  have counts : ∀ sender ∈ xs.map Prod.fst,
      (xs.map Prod.fst).count sender ≤ (ys.map Prod.fst).count sender := by
    intro sender _
    rw [← length_madeFor, ← length_madeFor]
    exact le sender
  have most := (List.subperm_ext_iff.mpr counts).length_le
  simpa using most

end MadeFor

/-- Requests for several senders, with their answers, and the worlds before and after. -/
inductive Trail {σ : Type} (suite : Suite) (hosts : Identity → Host σ) :
    World σ → List (Identity × Exchange) → World σ → Prop where
  | nil (w : World σ) : Trail suite hosts w [] w
  | cons {w after : World σ} {xs : List (Identity × Exchange)} (sender : Identity) (r : Request)
      (later : Trail suite hosts (w.answer suite (hosts sender) r).2 xs after) :
      Trail suite hosts w ((sender, ⟨r, (w.answer suite (hosts sender) r).1⟩) :: xs) after

def Exchange.told : Exchange → Exchange
  | ⟨.record rejection, _⟩ => ⟨.record rejection, none⟩
  | x => x

theorem Exchange.told_eq {r : Request} {a b : r.Answer} (same : r.isLogged = false → a = b) :
    (⟨r, a⟩ : Exchange).told = (⟨r, b⟩ : Exchange).told := by
  cases r with
  | record rejection => rfl
  | _ => rw [same rfl]

namespace Trail

section Worlds

variable {σ : Type} {suite : Suite} {hosts : Identity → Host σ} {w between after : World σ}
  {xs ys : List (Identity × Exchange)}

theorem append (first : Trail suite hosts w xs between) (second : Trail suite hosts between ys after) :
    Trail suite hosts w (xs ++ ys) after := by
  induction first with
  | nil w => exact second
  | cons sender r later ih => exact .cons sender r (ih second)

/-- The requests of a script, made for one sender. -/
theorem of_run {α : Type} (sender : Identity) (script : Script α) : ∀ w : World σ,
    Trail suite hosts w ((script.run suite (hosts sender) w).exchanges.map fun x => (sender, x))
      (script.run suite (hosts sender) w).world := by
  induction script with
  | done value => exact .nil
  | ask request next ih => exact fun w => .cons sender request (ih _ _)

theorem filed (opens : suite.Opens) (trail : Trail suite hosts w xs after)
    (filed : w.sessions.Filed suite) : ∀ x ∈ xs, x.2.isFiled := by
  induction trail with
  | nil w => simp
  | @cons w after xs sender r later ih =>
      have kept := (World.storesAfter_answer suite (hosts sender) w r).filed opens filed
      intro x mem
      rcases List.mem_cons.mp mem with rfl | mem
      · exact World.isFiled_answer filed r
      · exact ih kept x mem

/-- All answers that a sender was given can be counted on in the sender's scope. -/
theorem admitsAll (opens : suite.Opens) (trail : Trail suite hosts w xs after)
    (filed : w.sessions.Filed suite) (sender : Identity) (c : PeerScope) :
    c.rules.AdmitsAll false (madeFor sender xs) := by
  have all := trail.filed opens filed
  exact Rules.admitsAll_of_mem (fun x made _ => all (sender, x) (mem_madeFor.mp made)) false

/-- What every request leaves as it is is the same afterwards. -/
theorem kept {β : Type} (value : World σ → β) (trail : Trail suite hosts w xs after)
    (keeps : ∀ x ∈ xs, ∀ w : World σ, value (w.answer suite (hosts x.1) x.2.request).2 = value w) :
    value after = value w := by
  induction trail with
  | nil w => rfl
  | cons sender r later ih =>
      rw [ih fun x mem => keeps x (List.mem_cons_of_mem _ mem)]
      exact keeps _ List.mem_cons_self _

end Worlds

end Trail

/-! ## Scripts in their scopes -/

def InScopes (e : Endpoint) (traces : Identity → NonceHash → Prop) (xs : List (Identity × Exchange)) :
    Prop :=
  ∀ x ∈ xs, (e.scope x.1 (traces x.1)).has x.2.request

/-- Scripts for several senders, of which each stays in the scope of its sender and goes on in one
way whatever the rejection log gives back. -/
structure Separate {α : Type} (e : Endpoint) (traces : Identity → NonceHash → Prop)
    (script : Identity → Script α) : Prop where
  apart : ∀ {i j : Identity} {hash : NonceHash}, traces i hash → traces j hash → i = j
  obeys : ∀ i, (script i).Obeys (e.scope i (traces i)).rules false fun s _ => s = false
  ignoresLog : ∀ i, (script i).IgnoresLog

/-- Whether a script alone goes on from a second point as it does from a first, after the exchanges
between them. -/
structure LeadsTo {τ α : Type} (suite : Suite) (host : Host τ) (script : Script α) (v : World τ)
    (xs : List Exchange) (rest : Script α) (u : World τ) : Prop where
  value : (script.run suite host v).value = (rest.run suite host u).value
  world : (script.run suite host v).world = (rest.run suite host u).world
  exchanges : (script.run suite host v).exchanges.map Exchange.told =
    xs.map Exchange.told ++ (rest.run suite host u).exchanges.map Exchange.told

namespace Trail

section Scopes

variable {σ α : Type} {suite : Suite} {hosts : Identity → Host σ} {e : Endpoint}
  {traces : Identity → NonceHash → Prop} {script : Identity → Script α} {w after : World σ}
  {xs : List (Identity × Exchange)}

/-- Scripts that stay in their scopes have only made requests in them. -/
theorem own (opens : suite.Opens)
    (obeys : ∀ i, (script i).Obeys (e.scope i (traces i)).rules false fun s _ => s = false)
    (filed : w.sessions.Filed suite) (trail : Trail suite hosts w xs after)
    (reaches : ∀ i, ∃ rest, (script i).Reaches (madeFor i xs) rest) : InScopes e traces xs := by
  intro x mem
  obtain ⟨rest, reaches⟩ := reaches x.1
  have allowed := (obeys x.1).allowed reaches (trail.admitsAll opens filed x.1 _)
  exact allowed.each (fun _ _ => And.left) x.2 (mem_madeFor.mpr mem)

theorem contains_of_not (trail : Trail suite hosts w xs after)
    (own : InScopes e traces xs) {hash : NonceHash}
    (foreign : ∀ i, ¬traces i hash) : after.nonces.contains hash = w.nonces.contains hash :=
  trail.kept (fun w => w.nonces.contains hash) fun x mem w =>
    (World.storesAfter_answer _ _ w x.2.request).contains_of_not (own x mem) (foreign x.1)

theorem ofPair_of_ne (trail : Trail suite hosts w xs after)
    (own : InScopes e traces xs) {mine peer : String}
    (foreign : ∀ i : Identity, ¬(e.identity.text = mine ∧ i.text = peer)) :
    after.sessions.ofPair mine peer = w.sessions.ofPair mine peer :=
  trail.kept (fun w => w.sessions.ofPair mine peer) fun x mem w =>
    (World.storesAfter_answer _ _ w x.2.request).ofPair_of_ne (own x mem) (foreign x.1)

end Scopes

variable {τ α : Type} {suite : Suite} {hosts : Identity → Host τ} {e : Endpoint}
  {traces : Identity → NonceHash → Prop} {script : Identity → Script α}
  {w after : World (Identity → τ)} {xs : List (Identity × Exchange)}

/-- A script goes on as it would alone, whatever the others do in their scopes. -/
theorem alone {i : Identity} {first rest : Script α} {v : World τ}
    (apart : ∀ {j k : Identity} {hash : NonceHash}, traces j hash → traces k hash → j = k)
    (trail : Trail suite (Host.serving hosts) w xs after) (own : InScopes e traces xs)
    (mirrors : Mirrors (e.scope i (traces i)) w v) (ignoresLog : first.IgnoresLog)
    (reaches : first.Reaches (madeFor i xs) rest) :
    ∃ u, Mirrors (e.scope i (traces i)) after u ∧
      LeadsTo suite (hosts i) first v (madeFor i xs) rest u := by
  induction trail generalizing first v with
  | nil w =>
      cases reaches
      exact ⟨v, mirrors, rfl, rfl, rfl⟩
  | @cons w after xs sender r later ih =>
      have here : (e.scope sender (traces sender)).has r := own _ List.mem_cons_self
      have others : InScopes e traces xs := fun x mem => own x (List.mem_cons_of_mem _ mem)
      by_cases same : sender = i
      · subst same
        rw [madeFor_cons_self] at reaches ⊢
        cases reaches with
        | @ask _ next _ _ _ further =>
            have answered : r.isLogged = false → (w.answer suite (.serving hosts sender) r).1 =
                (v.answer suite (hosts sender) r).1 := (mirrors.own suite hosts here).1
            have kept : Mirrors (e.scope sender (traces sender))
                (w.answer suite (.serving hosts sender) r).2 (v.answer suite (hosts sender) r).2 :=
              (mirrors.own suite hosts here).2
            have onward : next (w.answer suite (.serving hosts sender) r).1 =
                next (v.answer suite (hosts sender) r).1 := by
              cases logged : r.isLogged with
              | true => exact ignoresLog.1 logged _ _
              | false => rw [answered logged]
            obtain ⟨u, alike, leads⟩ := ih others kept (ignoresLog.2 _) further
            rw [onward] at leads
            refine ⟨u, alike, leads.value, leads.world, ?_⟩
            simp only [Script.run, List.map_cons, leads.exchanges, List.cons_append,
              Exchange.told_eq answered]
      · rw [madeFor_cons_of_ne same] at reaches ⊢
        have kept := mirrors.other suite hosts here same fun hash mine other => same (apart other mine)
        exact ih others kept ignoresLog reaches

end Trail

/-! ## Trails that agree -/

/-- Whether two worlds have the same nonces and, pair by pair, the same sessions, in the same
surroundings. -/
structure World.SameButLog {σ : Type} (w v : World σ) : Prop where
  host : w.host = v.host
  nonces : ∀ hash, w.nonces.contains hash = v.nonces.contains hash
  sessions : ∀ mine peer, w.sessions.ofPair mine peer = v.sessions.ofPair mine peer

namespace Trail

variable {τ α : Type} {suite : Suite} {hosts : Identity → Host τ} {e : Endpoint}
  {traces : Identity → NonceHash → Prop} {script : Identity → Script α}
  {w after : World (Identity → τ)} {xs : List (Identity × Exchange)}

/-- What a script has done is the beginning of what it does alone. -/
theorem leadsTo (opens : suite.Opens) (separate : Separate e traces script)
    (filed : w.sessions.Filed suite) (trail : Trail suite (Host.serving hosts) w xs after)
    (reaches : ∀ i, ∃ rest, (script i).Reaches (madeFor i xs) rest) {i : Identity} {rest : Script α}
    (here : (script i).Reaches (madeFor i xs) rest) :
    ∃ u, Mirrors (e.scope i (traces i)) after u ∧
      LeadsTo suite (hosts i) (script i) (w.aloneIn (e.scope i (traces i))) (madeFor i xs) rest u :=
  trail.alone separate.apart (trail.own opens separate.obeys filed reaches) (.aloneIn _ w)
    (separate.ignoresLog i) here

section Agree

variable {other : World (Identity → τ)} {ys : List (Identity × Exchange)} {r q : Identity → α}
  (opens : suite.Opens) (separate : Separate e traces script) (filed : w.sessions.Filed suite)
  (first : Trail suite (Host.serving hosts) w xs after)
  (second : Trail suite (Host.serving hosts) w ys other)
  (ends : ∀ i, (script i).Reaches (madeFor i xs) (.done (r i)))
  (ends' : ∀ i, (script i).Reaches (madeFor i ys) (.done (q i)))
include opens separate filed first second ends ends'

/-- What a script did alone it did in either order. -/
theorem alike (i : Identity) :
    ∃ u, Mirrors (e.scope i (traces i)) after u ∧ Mirrors (e.scope i (traces i)) other u ∧
      r i = q i ∧ (madeFor i xs).map Exchange.told = (madeFor i ys).map Exchange.told := by
  obtain ⟨u, mirrors, leads⟩ := first.leadsTo opens separate filed (fun i => ⟨_, ends i⟩) (ends i)
  obtain ⟨v, mirrors', leads'⟩ :=
    second.leadsTo opens separate filed (fun i => ⟨_, ends' i⟩) (ends' i)
  have same : u = v := leads.world.symm.trans leads'.world
  have told := leads.exchanges.symm.trans leads'.exchanges
  simp only [Script.run, List.map_nil, List.append_nil] at told
  exact ⟨u, mirrors, same ▸ mirrors', leads.value.symm.trans leads'.value, told⟩

/-- Whatever the order in which the requests of the scripts came, what they did is the same. -/
theorem agree : after.SameButLog other ∧ ∀ i, r i = q i ∧
    (madeFor i xs).map Exchange.told = (madeFor i ys).map Exchange.told := by
  have alike := first.alike opens separate filed second ends ends'
  have own := first.own opens separate.obeys filed fun i => ⟨_, ends i⟩
  have own' := second.own opens separate.obeys filed fun i => ⟨_, ends' i⟩
  refine ⟨⟨?_, ?_, ?_⟩, ?_⟩
  · funext i
    obtain ⟨u, mirrors, mirrors', -⟩ := alike i
    exact mirrors.host.trans mirrors'.host.symm
  · intro hash
    by_cases traced : ∃ i, traces i hash
    · obtain ⟨i, traced⟩ := traced
      obtain ⟨u, mirrors, mirrors', -⟩ := alike i
      exact (mirrors.nonces hash traced).trans (mirrors'.nonces hash traced).symm
    · have foreign : ∀ i, ¬traces i hash := fun i here => traced ⟨i, here⟩
      rw [first.contains_of_not own foreign, second.contains_of_not own' foreign]
  · intro mine peer
    by_cases paired : ∃ i : Identity, e.identity.text = mine ∧ i.text = peer
    · obtain ⟨i, rfl, rfl⟩ := paired
      obtain ⟨u, mirrors, mirrors', -⟩ := alike i
      exact mirrors.sessions.trans mirrors'.sessions.symm
    · have foreign : ∀ i : Identity, ¬(e.identity.text = mine ∧ i.text = peer) :=
        fun i here => paired ⟨i, here⟩
      rw [first.ofPair_of_ne own foreign, second.ofPair_of_ne own' foreign]
  · intro i
    obtain ⟨u, -, -, same⟩ := alike i
    exact same

end Agree

end Trail

end SecureInbox
