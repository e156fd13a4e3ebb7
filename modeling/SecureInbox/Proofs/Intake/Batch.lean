import SecureInbox.Proofs.Entries
import SecureInbox.Proofs.Intake.Trail

/-! # Messages one after another

The lanes of a batch hold for each sender the messages of that sender with their places, in the order
of arrival (`Batch.lookup_lanes`).

When messages are processed in the order of arrival, what is done for one sender is what the sender's
lane does, and its results are those of that sender's messages (`Processor.reaches_processEach`). -/
set_option autoImplicit false

namespace SecureInbox

namespace Batch

def queue (sender : Identity) (messages : List (Placed Boxed)) : List (Placed Boxed) :=
  messages.filter fun m => m.2.sender = sender

variable {sender : Identity} {m : Placed Boxed} {messages : List Boxed}
  {lanes : List (Identity × List (Placed Boxed))}

theorem mem_of_mem_placed {first : Nat} (mem : m ∈ placed first messages) : m.2 ∈ messages := by
  induction messages generalizing first with
  | nil => simp [placed] at mem
  | cons boxed rest ih =>
      rcases List.mem_cons.mp mem with rfl | later
      · exact List.mem_cons_self
      · exact List.mem_cons_of_mem _ (ih later)

/-! ## Lanes -/

theorem senders_insert (m : Placed Boxed) (lanes : List (Identity × List (Placed Boxed))) :
    (insert m lanes).map Prod.fst =
      if m.2.sender ∈ lanes.map Prod.fst then lanes.map Prod.fst
      else lanes.map Prod.fst ++ [m.2.sender] := by
  induction lanes with
  | nil => simp [insert]
  | cons lane rest ih =>
      by_cases here : lane.1 = m.2.sender
      · simp [insert, here]
      · have ne : m.2.sender ≠ lane.1 := Ne.symm here
        simp only [insert, here, if_false, List.map_cons, ih, List.mem_cons, ne, false_or]
        split <;> rfl

theorem nodup_insert (distinct : (lanes.map Prod.fst).Nodup) (m : Placed Boxed) :
    ((insert m lanes).map Prod.fst).Nodup := by
  rw [senders_insert]
  split
  · exact distinct
  · next fresh =>
    refine List.nodup_append.mpr ⟨distinct, List.nodup_singleton _, ?_⟩
    rintro sender old _ new rfl
    rw [List.mem_singleton.mp new] at old
    exact fresh old

/-- Each sender has one lane. -/
theorem nodup_lanes (messages : List Boxed) : ((Batch.lanes messages).map Prod.fst).Nodup := by
  have kept : ∀ (placed : List (Placed Boxed)) (lanes : List (Identity × List (Placed Boxed))),
      (lanes.map Prod.fst).Nodup →
        ((placed.foldl (fun lanes m => insert m lanes) lanes).map Prod.fst).Nodup := by
    intro placed
    induction placed with
    | nil => exact fun _ distinct => distinct
    | cons m rest ih => exact fun lanes distinct => ih _ (nodup_insert distinct m)
  exact kept _ [] List.nodup_nil

theorem lookup_insert (m : Placed Boxed) (lanes : List (Identity × List (Placed Boxed)))
    (sender : Identity) :
    ((insert m lanes).lookup sender).getD [] = (lanes.lookup sender).getD [] ++ queue sender [m] := by
  induction lanes with
  | nil =>
      by_cases own : m.2.sender = sender
      · simp [insert, queue, own]
      · simp [insert, queue, own, List.lookup_cons, beq_eq_false_iff_ne.mpr (Ne.symm own)]
  | cons lane rest ih =>
      obtain ⟨owner, waiting⟩ := lane
      by_cases here : owner = m.2.sender
      · simp only [insert, here, if_true, List.lookup_cons]
        by_cases own : m.2.sender = sender
        · simp [queue, own]
        · simp [queue, own, beq_eq_false_iff_ne.mpr (Ne.symm own)]
      · simp only [insert, here, if_false, List.lookup_cons]
        by_cases same : sender = owner
        · subst same
          simp [queue, Ne.symm here]
        · rw [beq_eq_false_iff_ne.mpr same]
          exact ih

/-- The lane of a sender holds the messages of that sender. -/
theorem lookup_lanes (messages : List Boxed) (sender : Identity) :
    ((Batch.lanes messages).lookup sender).getD [] = queue sender (placed 0 messages) := by
  have added : ∀ (placed : List (Placed Boxed)) (lanes : List (Identity × List (Placed Boxed))),
      ((placed.foldl (fun lanes m => insert m lanes) lanes).lookup sender).getD [] =
        (lanes.lookup sender).getD [] ++ queue sender placed := by
    intro placed
    induction placed with
    | nil => simp [queue]
    | cons m rest ih =>
        intro lanes
        rw [List.foldl_cons, ih, lookup_insert, List.append_assoc, queue, queue, queue,
          ← List.filter_append]
        rfl
  exact added _ []

/-! ## Results -/

def resultsFor (sender : Identity) : Nat → List Boxed → List ProcessResult → List (Placed ProcessResult)
  | first, boxed :: rest, result :: results =>
    if boxed.sender = sender then (first, result) :: resultsFor sender (first + 1) rest results
    else resultsFor sender (first + 1) rest results
  | _, _, _ => []

theorem mem_resultsFor {first place : Nat} {result : ProcessResult} {results : List ProcessResult} :
    (place, result) ∈ resultsFor sender first messages results ↔
      ∃ offset boxed, place = first + offset ∧ messages[offset]? = some boxed ∧ boxed.sender = sender ∧
        results[offset]? = some result := by
  induction messages generalizing first results with
  | nil => simp [resultsFor]
  | cons boxed rest ih =>
      cases results with
      | nil => simp [resultsFor]
      | cons head results =>
          have later : (place, result) ∈ resultsFor sender (first + 1) rest results ↔
              ∃ offset other, place = first + (offset + 1) ∧ rest[offset]? = some other ∧
                other.sender = sender ∧ results[offset]? = some result := by
            rw [ih]
            simp only [Nat.add_assoc, Nat.add_comm 1]
          constructor
          · intro mem
            have cases : (boxed.sender = sender ∧ (place, result) = (first, head)) ∨
                (place, result) ∈ resultsFor sender (first + 1) rest results := by
              rw [resultsFor] at mem
              split at mem
              · next own => exact (List.mem_cons.mp mem).imp (fun same => ⟨own, same⟩) id
              · exact .inr mem
            rcases cases with ⟨own, same⟩ | others
            · cases same
              exact ⟨0, boxed, rfl, rfl, own, rfl⟩
            · obtain ⟨offset, other, counted, there, sent, found⟩ := later.mp others
              exact ⟨offset + 1, other, counted, there, sent, found⟩
          · rintro ⟨offset, other, counted, there, sent, found⟩
            rw [resultsFor]
            cases offset with
            | zero =>
                obtain rfl := Option.some.inj there
                obtain rfl := Option.some.inj found
                rw [if_pos sent, counted]
                exact List.mem_cons_self
            | succ offset =>
                have mem := later.mpr ⟨offset, other, counted, there, sent, found⟩
                split
                · exact List.mem_cons_of_mem _ mem
                · exact mem

/-- Results stand in the order of arrival when there is the right one for each place and no other. -/
theorem inOrder_eq {results : List (Placed ProcessResult)} {arrived : List ProcessResult}
    (right : ∀ place result, (place, result) ∈ results → arrived[place]? = some result)
    (complete : ∀ place < arrived.length, ∃ result, (place, result) ∈ results) :
    inOrder arrived.length results = arrived := by
  apply List.ext_getElem
  · simp [inOrder]
  · intro place _ inside
    obtain ⟨result, member⟩ := complete place inside
    obtain ⟨found, same⟩ := Entries.exists_of_mem member
    have exact := right place found (Entries.mem_of_lookup same)
    rw [List.getElem?_eq_getElem inside] at exact
    simp [inOrder, same, Option.some.inj exact]

end Batch

/-! ## In the order of arrival -/

theorem Script.Reaches.andThen {α β : Type} {script : Script α} {f : α → Script β}
    {xs ys : List Exchange} {a : α} {rest : Script β} (first : script.Reaches xs (.done a))
    (second : (f a).Reaches ys rest) : (script.andThen f).Reaches (xs ++ ys) rest := by
  generalize ended : Script.done a = last at first
  induction first with
  | refl script =>
      subst ended
      exact second
  | ask later ih => exact .ask (ih ended)

theorem Script.Reaches.map {α β : Type} {script : Script α} {xs : List Exchange} {a : α}
    (reaches : script.Reaches xs (.done a)) (f : α → β) :
    (script.andThen fun a => .done (f a)).Reaches xs (.done (f a)) := by
  have ended := reaches.andThen (f := fun a => .done (f a)) (.refl (.done (f a)))
  rw [List.append_nil] at ended
  exact ended

namespace Processor

variable {σ : Type} (p : Processor) (hosts : Identity → Host σ)

theorem length_processEach (messages : List Boxed) : ∀ w : World σ,
    (p.processEach hosts messages w).results.length = messages.length := by
  induction messages with
  | nil => exact fun _ => rfl
  | cons boxed rest ih => exact fun w => congrArg (· + 1) (ih _)

theorem trail_processEach (messages : List Boxed) : ∀ w : World σ,
    Trail p.endpoint.suite hosts w (p.processEach hosts messages w).exchanges
      (p.processEach hosts messages w).world := by
  induction messages with
  | nil => exact .nil
  | cons boxed rest ih => exact fun w => (Trail.of_run boxed.sender _ w).append (ih _)

/-- What is done for a sender is what the sender's lane does. -/
theorem reaches_processEach (sender : Identity) (messages : List Boxed) :
    ∀ (first : Nat) (w : World σ),
      (p.processLane (Batch.queue sender (Batch.placed first messages))).Reaches
        (madeFor sender (p.processEach hosts messages w).exchanges)
        (.done (Batch.resultsFor sender first messages (p.processEach hosts messages w).results)) := by
  induction messages with
  | nil => exact fun _ _ => .refl _
  | cons boxed rest ih =>
      intro first w
      have others := ih (first + 1) ((p.process boxed).run p.endpoint.suite (hosts boxed.sender) w).world
      simp only [processEach, madeFor_append, Batch.placed, Batch.queue, Batch.resultsFor]
      by_cases own : boxed.sender = sender
      · subst own
        rw [madeFor_map_self, List.filter_cons_of_pos (by simp), if_pos rfl]
        apply Script.Reaches.andThen (Script.reaches_run _ _ _ w)
        exact others.map _
      · rw [madeFor_map_of_ne own, List.filter_cons_of_neg (by simpa using own), if_neg own]
        exact others

/-! ## Lanes in their scopes -/

theorem processLane_scope {sender : Identity} {traces : NonceHash → Prop}
    {queue : List (Placed Boxed)}
    (own : ∀ m ∈ queue, m.2.sender = sender ∧ traces (p.nonceHash m.2.nonce.bytes)) :
    (p.processLane queue).Obeys (p.endpoint.scope sender traces).rules false fun s _ => s = false := by
  induction queue with
  | nil => rfl
  | cons m rest ih =>
      obtain ⟨rfl, trace⟩ := own m List.mem_cons_self
      have others := ih fun m mem => own m (List.mem_cons_of_mem _ mem)
      refine (Script.obeys_andThen _ _ _ _ _).mpr ((p.process_scope trace).mono ?_)
      rintro s result rfl
      exact (Script.obeys_andThen _ _ _ _ _).mpr (others.mono fun _ _ => id)

theorem processLane_ignoresLog (queue : List (Placed Boxed)) : (p.processLane queue).IgnoresLog := by
  induction queue with
  | nil => trivial
  | cons m rest ih =>
      apply Script.IgnoresLog.andThen (p.process_ignoresLog m.2)
      exact fun _ => ih.andThen fun _ => trivial

end Processor

/-- A sender's lane stays in the sender's scope. -/
theorem Processor.lane_scope (p : Processor) (messages : List Boxed) (sender : Identity) :
    (p.processLane (Batch.queue sender (Batch.placed 0 messages))).Obeys
      (p.endpoint.scope sender fun _ => True).rules false fun s _ => s = false := by
  apply p.processLane_scope
  intro m mem
  exact ⟨by simpa using (List.mem_filter.mp mem).2, trivial⟩

def Batch.traces (p : Processor) (messages : List Boxed) (sender : Identity) (hash : NonceHash) :
    Prop :=
  ∃ boxed ∈ messages, boxed.sender = sender ∧ p.nonceHash boxed.nonce.bytes = hash

/-- The lanes of a batch stay in the scopes of their senders, if no trace is that of two senders. -/
theorem Processor.separate_lanes (p : Processor) {messages : List Boxed}
    (apart : ∀ a ∈ messages, ∀ b ∈ messages,
      p.nonceHash a.nonce.bytes = p.nonceHash b.nonce.bytes → a.sender = b.sender) :
    Separate p.endpoint (Batch.traces p messages) fun sender =>
      p.processLane (Batch.queue sender (Batch.placed 0 messages)) where
  apart := by
    rintro _ _ _ ⟨a, inA, rfl, rfl⟩ ⟨b, inB, rfl, same⟩
    exact apart a inA b inB same.symm
  obeys sender := by
    apply p.processLane_scope
    intro m mem
    obtain ⟨mem, own⟩ := List.mem_filter.mp mem
    have own : m.2.sender = sender := by simpa using own
    exact ⟨own, m.2, Batch.mem_of_mem_placed mem, own, rfl⟩
  ignoresLog _ := p.processLane_ignoresLog _

end SecureInbox
