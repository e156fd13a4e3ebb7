import SecureInbox.Proofs.Intake.Batch
import SecureInbox.Proofs.Intake.Setting

/-! # Lanes in any order

`Lanes.Sound` holds of a batch under way: what was done for each sender has brought the sender's
lane to where it is.  Every step keeps it (`Sound.step`), whatever lane takes it.

Some lane may always take a step until all are done (`Sound.exists_canStep`), as the turn of a peer is
only asked for by the peer's own lane; and every step but a request starts or ends a lane, so that a
schedule comes to an end.  What is left then is what `Trail.agree` says of any order: a batch is as
good as its messages one after another (`batch_in_order`). -/
set_option autoImplicit false

namespace SecureInbox

namespace Lane

def rest (p : Processor) : Lane → Script (List (Placed ProcessResult))
  | .waiting messages => p.processLane messages
  | .running script => script
  | .finished results => .done results

/-- How often a lane has started or ended. -/
def stage : Lane → Nat
  | .waiting _ => 0
  | .running _ => 1
  | .finished _ => 2

@[simp] theorem stage_waiting (messages : List (Placed Boxed)) : (waiting messages).stage = 0 := rfl

theorem rest_of_isFinished (p : Processor) {lane : Lane} (finished : lane.isFinished = true) :
    lane.rest p = .done lane.results := by
  cases lane with
  | finished results => rfl
  | _ => cases finished

theorem stage_le (lane : Lane) : lane.stage ≤ 2 := by
  cases lane <;> simp [stage]

end Lane

namespace Lanes

variable {σ : Type}

def rest (p : Processor) (state : Lanes σ) (sender : Identity) : Script (List (Placed ProcessResult)) :=
  ((state.lanes.lookup sender).map (Lane.rest p)).getD (.done [])

/-- Whether what was done for each sender has brought the sender's lane to where it is. -/
structure Sound (p : Processor) (hosts : Identity → Host σ) (messages : List Boxed) (w : World σ)
    (state : Lanes σ) : Prop where
  trail : Trail p.endpoint.suite hosts w state.exchanges state.world
  senders : state.lanes.map Prod.fst = (Batch.lanes messages).map Prod.fst
  reaches : ∀ sender, (p.processLane (Batch.queue sender (Batch.placed 0 messages))).Reaches
    (madeFor sender state.exchanges) (state.rest p sender)
  held : state.held = (state.exchanges.map Prod.snd).foldl heldAfter []

variable {p : Processor} {hosts : Identity → Host σ} {messages : List Boxed} {w : World σ}
  {state : Lanes σ}

/-! ## Steps -/

theorem sound_start (p : Processor) (hosts : Identity → Host σ) (messages : List Boxed) (w : World σ) :
    Sound p hosts messages w (start messages w) where
  trail := .nil w
  senders := by simp [start]
  reaches sender := by
    have left : (start messages w).rest p sender =
        p.processLane (Batch.queue sender (Batch.placed 0 messages)) := by
      rw [rest, start, Entries.lookup_map Lane.waiting, ← Batch.lookup_lanes]
      cases (Batch.lanes messages).lookup sender <;> rfl
    rw [left]
    exact .refl _
  held := rfl

namespace Sound

theorem distinct (sound : Sound p hosts messages w state) : (state.lanes.map Prod.fst).Nodup :=
  sound.senders ▸ Batch.nodup_lanes messages

theorem rest_of_getElem? (sound : Sound p hosts messages w state) {index : Nat} {sender : Identity}
    {lane : Lane} (here : state.lanes[index]? = some (sender, lane)) :
    state.rest p sender = lane.rest p := by
  rw [Lanes.rest, Entries.lookup_of_mem sound.distinct (List.mem_of_getElem? here)]
  rfl

/-- A lane starts or ends. -/
theorem turn (sound : Sound p hosts messages w state) {index : Nat} {sender : Identity}
    {lane : Lane} (here : state.lanes[index]? = some (sender, lane)) (after : Lane)
    (same : after.rest p = lane.rest p) :
    Sound p hosts messages w { state with lanes := state.lanes.set index (sender, after) } := by
  refine { sound with senders := (Entries.keys_set here _).trans sound.senders, reaches := ?_ }
  intro other
  have left : Lanes.rest p { state with lanes := state.lanes.set index (sender, after) } other =
      state.rest p other := by
    rw [Lanes.rest, Lanes.rest, Entries.lookup_set sound.distinct here]
    by_cases own : other = sender
    · subst own
      rw [if_pos rfl, Entries.lookup_of_mem sound.distinct (List.mem_of_getElem? here)]
      exact same
    · rw [if_neg own]
  rw [left]
  exact sound.reaches other

/-- A lane has a request answered. -/
theorem ask (sound : Sound p hosts messages w state) {index : Nat} {sender : Identity} {r : Request}
    {next : r.Answer → Script (List (Placed ProcessResult))}
    (here : state.lanes[index]? = some (sender, .running (.ask r next))) :
    Sound p hosts messages w
      ⟨state.lanes.set index
          (sender, .running (next (state.world.answer p.endpoint.suite (hosts sender) r).1)),
        (state.world.answer p.endpoint.suite (hosts sender) r).2,
        heldAfter state.held ⟨r, (state.world.answer p.endpoint.suite (hosts sender) r).1⟩,
        state.exchanges ++
          [(sender, ⟨r, (state.world.answer p.endpoint.suite (hosts sender) r).1⟩)]⟩ where
  trail := sound.trail.append (.cons sender r (.nil _))
  senders := (Entries.keys_set here _).trans sound.senders
  reaches other := by
    have before := sound.reaches other
    rw [madeFor_append, Lanes.rest, Entries.lookup_set sound.distinct here]
    by_cases own : other = sender
    · subst own
      rw [sound.rest_of_getElem? here] at before
      rw [if_pos rfl, madeFor_cons_self]
      exact before.snoc _
    · rw [if_neg own, madeFor_cons_of_ne (Ne.symm own), madeFor_nil, List.append_nil]
      exact before
  held := by simp [sound.held]

theorem step (sound : Sound p hosts messages w state) (index : Nat) :
    Sound p hosts messages w (state.step p hosts index) := by
  unfold Lanes.step
  split
  · exact sound
  · next sender lane here =>
    split
    · cases lane with
      | waiting messages => simpa [Lane.step] using sound.turn here (.running _) rfl
      | finished results => simpa [Lane.step] using sound.turn here (.finished results) rfl
      | running script =>
          cases script with
          | done results => simpa [Lane.step] using sound.turn here (.finished results) rfl
          | ask r next => exact sound.ask here
    · exact sound

theorem run (sound : Sound p hosts messages w state) (schedule : List Nat) :
    Sound p hosts messages w (Lanes.run p hosts schedule state) := by
  induction schedule generalizing state with
  | nil => exact sound
  | cons index rest ih => exact ih (sound.step index)

end Sound

/-! ## Turns -/

section Turns

variable {e : Endpoint} {traces : Identity → NonceHash → Prop} {sender : Identity}

/-- A request in a sender's scope is for no other turn than the sender's. -/
theorem mem_heldAfter_of_ne {other : Identity} {x : Exchange}
    (own : (e.scope sender (traces sender)).has x.request) (ne : other ≠ sender) (held : List Identity) :
    other ∈ heldAfter held x ↔ other ∈ held := by
  obtain ⟨r, answer⟩ := x
  cases r with
  | enter peer =>
      obtain rfl : peer = sender := own
      simp [heldAfter, ne]
  | leave peer =>
      obtain rfl : peer = sender := own
      simp [heldAfter, ne]
  | _ => rfl

theorem mem_heldAfter {x : Exchange} (own : (e.scope sender (traces sender)).has x.request)
    {held : List Identity} {inside : Bool} (same : sender ∈ held ↔ inside = true) :
    sender ∈ heldAfter held x ↔ PeerScope.insideAfter inside x = true := by
  obtain ⟨r, answer⟩ := x
  cases r with
  | enter peer =>
      obtain rfl : peer = sender := own
      simp [heldAfter, PeerScope.insideAfter]
  | leave peer =>
      obtain rfl : peer = sender := own
      simp [heldAfter, PeerScope.insideAfter]
  | _ => exact same

/-- Whether a sender's turn is had can be told from the requests of the sender's own lane. -/
theorem mem_held {xs : List (Identity × Exchange)}
    (own : InScopes e traces xs) {held : List Identity}
    {inside : Bool} (same : sender ∈ held ↔ inside = true) :
    sender ∈ (xs.map Prod.snd).foldl heldAfter held ↔
      (e.scope sender (traces sender)).rules.afterAll inside (madeFor sender xs) = true := by
  induction xs generalizing held inside with
  | nil => exact same
  | cons x rest ih =>
      obtain ⟨maker, x⟩ := x
      have here : (e.scope maker (traces maker)).has x.request := own _ List.mem_cons_self
      have others := fun y mem => own y (List.mem_cons_of_mem _ mem)
      by_cases mine : maker = sender
      · subst mine
        rw [madeFor_cons_self]
        exact ih others (mem_heldAfter here same)
      · rw [madeFor_cons_of_ne mine]
        exact ih others ((mem_heldAfter_of_ne here (Ne.symm mine) held).trans same)

end Turns

namespace Sound

variable (opens : p.endpoint.suite.Opens) (filed : w.sessions.Filed p.endpoint.suite)
include opens filed

/-- A lane that is under way does not have to wait: the turn that it asks for is its own. -/
theorem isReady_running (sound : Sound p hosts messages w state) {index : Nat} {sender : Identity}
    {script : Script (List (Placed ProcessResult))}
    (here : state.lanes[index]? = some (sender, .running script)) :
    state.isReady p (.running script) = true := by
  have own := sound.trail.own opens (p.lane_scope messages) filed
    fun sender => ⟨_, sound.reaches sender⟩
  have obeys := (p.lane_scope messages sender).rest (sound.reaches sender)
    (sound.trail.admitsAll opens filed sender _)
  rw [sound.rest_of_getElem? here] at obeys
  cases script with
  | done results => rfl
  | ask r next =>
      cases r with
      | enter peer =>
          obtain ⟨rfl, outside⟩ : peer = sender ∧ _ := obeys.1
          have nobody : peer ∈ ([] : List Identity) ↔ false = true := by simp
          have free : peer ∉ state.held := by
            rw [sound.held, mem_held own nobody, outside ⟨peer, rfl⟩]
            exact Bool.false_ne_true
          simpa [isReady] using free
      | _ => rfl

/-- As long as not all lanes are done, one of them may take a step. -/
theorem exists_canStep (sound : Sound p hosts messages w state) (limit : 1 ≤ p.concurrency)
    (unfinished : state.isFinished = false) : ∃ index, state.canStep p index = true := by
  by_cases running : ∃ lane ∈ state.lanes, lane.2.isRunning = true
  · obtain ⟨⟨sender, lane⟩, mem, running⟩ := running
    obtain ⟨index, here⟩ := List.mem_iff_getElem?.mp mem
    cases lane with
    | running script =>
        have ready := sound.isReady_running opens filed here
        exact ⟨index, by simp [canStep, here, ready]⟩
    | _ => cases running
  · have none : state.lanes.countP (fun lane => lane.2.isRunning) = 0 := by
      apply List.countP_eq_zero.mpr
      exact fun lane mem here => running ⟨lane, mem, here⟩
    obtain ⟨⟨sender, lane⟩, mem, waits⟩ : ∃ lane ∈ state.lanes, lane.2.isFinished = false := by
      simpa [isFinished] using unfinished
    obtain ⟨index, here⟩ := List.mem_iff_getElem?.mp mem
    cases lane with
    | waiting messages =>
        refine ⟨index, ?_⟩
        simp only [canStep, here, isReady, none, Option.any_some, decide_eq_true_eq]
        omega
    | running script => exact (running ⟨_, mem, rfl⟩).elim
    | finished results => cases waits

end Sound

/-! ## Schedules -/

def permits (p : Processor) (hosts : Identity → Host σ) : List Nat → Lanes σ → Prop
  | [], _ => True
  | index :: rest, state =>
    state.canStep p index = true ∧ permits p hosts rest (state.step p hosts index)

def stages (lanes : List (Identity × Lane)) : Nat := (lanes.map fun lane => lane.2.stage).sum

def steps (state : Lanes σ) : Nat := state.exchanges.length + stages state.lanes

theorem stages_set {lanes : List (Identity × Lane)} {index : Nat} {sender : Identity} {lane : Lane}
    (here : lanes[index]? = some (sender, lane)) (after : Lane) :
    stages (lanes.set index (sender, after)) + lane.stage = stages lanes + after.stage := by
  unfold stages
  induction lanes generalizing index with
  | nil => simp at here
  | cons first rest ih =>
      cases index with
      | zero =>
          obtain rfl : first = (sender, lane) := by simpa using here
          simp only [List.set_cons_zero, List.map_cons, List.sum_cons]
          omega
      | succ index =>
          have there : rest[index]? = some (sender, lane) := by simpa using here
          have later := ih there
          simp only [List.set_cons_succ, List.map_cons, List.sum_cons]
          omega

theorem steps_start (messages : List Boxed) (w : World σ) : (start messages w).steps = 0 := by
  simp [steps, stages, start, Function.comp_def]

theorem stages_le (lanes : List (Identity × Lane)) : stages lanes ≤ 2 * lanes.length := by
  unfold stages
  induction lanes with
  | nil => simp
  | cons lane rest ih =>
      have most := lane.2.stage_le
      simp only [List.map_cons, List.sum_cons, List.length_cons]
      omega

/-- A step that may be taken answers a request, starts a lane or ends one. -/
theorem steps_step {index : Nat} (ready : state.canStep p index = true) :
    (state.step p hosts index).steps = state.steps + 1 := by
  unfold canStep at ready
  unfold Lanes.step
  cases here : state.lanes[index]? with
  | none => simp [here] at ready
  | some entry =>
      obtain ⟨sender, lane⟩ := entry
      have ready : state.isReady p lane = true := by simpa [here] using ready
      dsimp only
      rw [if_pos ready]
      have counted := stages_set here (lane.step p (hosts sender) state.world).1
      cases lane with
      | waiting messages =>
          simp only [Lane.step, Lane.stage, steps, List.map_nil, List.append_nil] at counted ⊢
          omega
      | finished results => cases ready
      | running script =>
          cases script <;>
            simp only [Lane.step, Lane.stage, steps, List.map_nil, List.append_nil, List.map_cons,
              List.length_append, List.length_singleton] at counted ⊢ <;>
            omega

theorem steps_run {schedule : List Nat} (permitted : permits p hosts schedule state) :
    (Lanes.run p hosts schedule state).steps = state.steps + schedule.length := by
  induction schedule generalizing state with
  | nil => rfl
  | cons index rest ih =>
      rw [Lanes.run, ih permitted.2, steps_step permitted.1, List.length_cons]
      omega

/-! ## As in the order of arrival -/

/-- Whether lanes have given what comes of the messages of the batch one after another.  Only what
the rejection log gave back, and the order of sessions of different pairs, may differ. -/
structure AgreesWith (state : Lanes σ) (total : Nat) (each : BatchRan σ) : Prop where
  length : (state.results total).length = total
  results : state.results total = each.results
  world : state.world.SameButLog each.world
  exchanges : ∀ sender, (madeFor sender state.exchanges).map Exchange.told =
    (madeFor sender each.exchanges).map Exchange.told

def resultsOf (state : Lanes σ) (sender : Identity) : List (Placed ProcessResult) :=
  ((state.lanes.lookup sender).map Lane.results).getD []

theorem rest_of_isFinished (finished : state.isFinished = true) (sender : Identity) :
    state.rest p sender = .done (state.resultsOf sender) := by
  unfold rest resultsOf
  cases found : state.lanes.lookup sender with
  | none => rfl
  | some lane =>
      have done := List.all_eq_true.mp finished _ (Entries.mem_of_lookup found)
      exact Lane.rest_of_isFinished p done

namespace Sound

/-- The results stand in the order of arrival if each sender's are those of the sender's messages. -/
theorem results_eq (sound : Sound p hosts messages w state) {arrived : List ProcessResult}
    (length : arrived.length = messages.length)
    (own : ∀ sender, state.resultsOf sender = Batch.resultsFor sender 0 messages arrived) :
    state.results messages.length = arrived := by
  rw [Lanes.results, ← length]
  apply Batch.inOrder_eq
  · intro place result mem
    obtain ⟨⟨sender, lane⟩, inLanes, mem⟩ := List.mem_flatMap.mp mem
    have found := Entries.lookup_of_mem sound.distinct inLanes
    have here : lane.results = Batch.resultsFor sender 0 messages arrived := by
      rw [← own, resultsOf, found]
      rfl
    have mem : (place, result) ∈ Batch.resultsFor sender 0 messages arrived := here ▸ mem
    obtain ⟨offset, boxed, rfl, -, -, there⟩ := Batch.mem_resultsFor.mp mem
    rw [Nat.zero_add]
    exact there
  · intro place inside
    have isMessage : place < messages.length := length ▸ inside
    refine ⟨arrived[place], List.mem_flatMap.mpr ?_⟩
    have mem : (place, arrived[place]) ∈ state.resultsOf messages[place].sender := by
      rw [own]
      refine Batch.mem_resultsFor.mpr ⟨place, messages[place], (Nat.zero_add _).symm, ?_, rfl, ?_⟩
      · exact List.getElem?_eq_getElem isMessage
      · exact List.getElem?_eq_getElem inside
    unfold resultsOf at mem
    cases found : state.lanes.lookup messages[place].sender with
    | none => simp [found] at mem
    | some lane =>
        rw [found] at mem
        exact ⟨_, Entries.mem_of_lookup found, mem⟩

variable {τ : Type} {hosts : Identity → Host τ} {w : World (Identity → τ)}
  {state : Lanes (Identity → τ)} {traces : Identity → NonceHash → Prop} (opens : p.endpoint.suite.Opens)
  (filed : w.sessions.Filed p.endpoint.suite) (separate : Separate p.endpoint traces fun sender =>
    p.processLane (Batch.queue sender (Batch.placed 0 messages)))
include opens filed separate

theorem agreesWith (sound : Sound p (Host.serving hosts) messages w state)
    (finished : state.isFinished = true) :
    state.AgreesWith messages.length (p.processEach (Host.serving hosts) messages w) := by
  have ended : ∀ sender, (p.processLane (Batch.queue sender (Batch.placed 0 messages))).Reaches
      (madeFor sender state.exchanges) (.done (state.resultsOf sender)) :=
    fun sender => rest_of_isFinished finished sender ▸ sound.reaches sender
  obtain ⟨world, agree⟩ := sound.trail.agree opens separate filed
    (p.trail_processEach (Host.serving hosts) messages w) ended
    fun sender => p.reaches_processEach (Host.serving hosts) sender messages 0 w
  have results := sound.results_eq (p.length_processEach (Host.serving hosts) messages w)
    fun sender => (agree sender).1
  refine ⟨?_, results, world, fun sender => (agree sender).2⟩
  rw [results, p.length_processEach]

/-- No order makes more requests than the order of arrival. -/
theorem length_exchanges_le (sound : Sound p (Host.serving hosts) messages w state) :
    state.exchanges.length ≤ (p.processEach (Host.serving hosts) messages w).exchanges.length := by
  apply length_le_of_madeFor
  intro sender
  have each := fun sender => p.reaches_processEach (Host.serving hosts) sender messages 0 w
  obtain ⟨u, -, leads⟩ := sound.trail.leadsTo opens separate filed
    (fun sender => ⟨_, sound.reaches sender⟩) (sound.reaches sender)
  obtain ⟨v, -, ends⟩ := (p.trail_processEach (Host.serving hosts) messages w).leadsTo opens separate
    filed (fun sender => ⟨_, each sender⟩) (each sender)
  have lengths := congrArg List.length (leads.exchanges.symm.trans ends.exchanges)
  simp only [List.length_append, List.length_map, Script.run, List.length_nil] at lengths
  omega

end Sound

/-- Whatever the order in which the lanes of a batch take their steps, the batch comes to its end,
and then it has given what comes of its messages one after another.  Each sender is served from a
part of the surroundings of its own, and messages of different senders have different nonces. -/
theorem batch_in_order {τ : Type} (p : Processor) (hosts : Identity → Host τ) (messages : List Boxed)
    (w : World (Identity → τ)) (opens : p.endpoint.suite.Opens)
    (filed : w.sessions.Filed p.endpoint.suite) (limit : 1 ≤ p.concurrency)
    (apart : ∀ a ∈ messages, ∀ b ∈ messages, a.nonce = b.nonce → a.sender = b.sender)
    (collisionFree : ∀ a ∈ messages, ∀ b ∈ messages,
      p.nonceHash a.nonce.bytes = p.nonceHash b.nonce.bytes → a.nonce = b.nonce)
    (schedule : List Nat) :
    let each := p.processEach (Host.serving hosts) messages w
    let state := run p (Host.serving hosts) schedule (start messages w)
    (state.isFinished = true → state.AgreesWith messages.length each) ∧
      (state.isFinished = false → ∃ index, state.canStep p index = true) ∧
        (permits p (Host.serving hosts) schedule (start messages w) →
          schedule.length ≤ each.exchanges.length + 2 * (Batch.lanes messages).length) := by
  intro each state
  have separate := p.separate_lanes fun a inA b inB same =>
    apart a inA b inB (collisionFree a inA b inB same)
  have sound : Sound p (Host.serving hosts) messages w state :=
    (sound_start p (Host.serving hosts) messages w).run schedule
  refine ⟨sound.agreesWith opens filed separate, sound.exists_canStep opens filed limit, ?_⟩
  intro permitted
  have counted : state.steps = _ := steps_run permitted
  have requests : state.exchanges.length ≤ each.exchanges.length :=
    sound.length_exchanges_le opens filed separate
  have stages := stages_le state.lanes
  have lanes : state.lanes.length = (Batch.lanes messages).length := by
    simpa using congrArg List.length sound.senders
  rw [steps_start] at counted
  rw [lanes] at stages
  unfold steps at counted
  omega

/-- Three messages of two senders, the first and the last of the same. -/
def mixedBatch : List Boxed :=
  [Setting.boxed .contactDeletePhoto 1,
    { Setting.boxed .contactDeletePhoto 2 with sender := Setting.bystander },
    Setting.boxed .contactDeletePhoto 3]

def twoAtATime : Processor := { Setting.processor with concurrency := 2 }

def plainHosts : Identity → Host Unit := fun _ => Host.plain Setting.peerKey

def emptyWorld : World (Identity → Unit) := ⟨fun _ => (), .empty, .memory .empty, none⟩

def inTurn : List Nat := (List.replicate 24 [0, 1]).flatten

theorem batch_in_order_mixed :
    let state := run twoAtATime (Host.serving plainHosts) inTurn (start mixedBatch emptyWorld)
    state.isFinished = true ∧ (state.results 3).map Setting.isProcessed = [true, true, true] ∧
      state.AgreesWith 3 (twoAtATime.processEach (Host.serving plainHosts) mixedBatch emptyWorld) := by
  intro state
  have finished : state.isFinished = true := by decide +kernel
  refine ⟨finished, by decide +kernel, ?_⟩
  have apart : ∀ a ∈ mixedBatch, ∀ b ∈ mixedBatch, a.nonce = b.nonce → a.sender = b.sender := by
    decide +kernel
  have collisionFree : ∀ a ∈ mixedBatch, ∀ b ∈ mixedBatch,
      twoAtATime.nonceHash a.nonce.bytes = twoAtATime.nonceHash b.nonce.bytes → a.nonce = b.nonce := by
    decide +kernel
  exact (batch_in_order twoAtATime plainHosts mixedBatch emptyWorld Suite.plain_opens trivial
    (by decide) apart collisionFree inTurn).1 finished

/-! ## One lane after another -/

theorem run_append (schedule rest : List Nat) (state : Lanes σ) :
    run p hosts (schedule ++ rest) state = run p hosts rest (run p hosts schedule state) := by
  induction schedule generalizing state with
  | nil => rfl
  | cons index schedule ih => exact ih _

theorem step_of_isReady {index : Nat} {sender : Identity} {lane : Lane}
    (here : state.lanes[index]? = some (sender, lane)) (ready : state.isReady p lane = true) :
    state.step p hosts index =
      ⟨state.lanes.set index (sender, (lane.step p (hosts sender) state.world).1),
        (lane.step p (hosts sender) state.world).2.1,
        (lane.step p (hosts sender) state.world).2.2.foldl heldAfter state.held,
        state.exchanges ++ (lane.step p (hosts sender) state.world).2.2.map fun x => (sender, x)⟩ := by
  simp only [Lanes.step, here, ready, if_true]

structure Ends (state after : Lanes σ) (index : Nat) (sender : Identity)
    (ran : Ran σ (List (Placed ProcessResult))) : Prop where
  lanes : after.lanes = state.lanes.set index (sender, .finished ran.value)
  world : after.world = ran.world
  exchanges : after.exchanges = state.exchanges ++ ran.exchanges.map fun x => (sender, x)

section Step

variable {index : Nat} {sender : Identity} {lane : Lane}

theorem getElem?_step (here : state.lanes[index]? = some (sender, lane))
    (ready : state.isReady p lane = true) :
    (state.step p hosts index).lanes[index]? =
      some (sender, (lane.step p (hosts sender) state.world).1) := by
  rw [step_of_isReady here ready]
  exact List.getElem?_set_self (List.getElem?_eq_some_iff.mp here).1

theorem Ends.of_step (here : state.lanes[index]? = some (sender, lane))
    (ready : state.isReady p lane = true) {after : Lanes σ} {ran : Ran σ (List (Placed ProcessResult))}
    (ends : Ends (state.step p hosts index) after index sender ran) :
    Ends state after index sender
      ⟨ran.value, ran.world, (lane.step p (hosts sender) state.world).2.2 ++ ran.exchanges⟩ where
  lanes := by rw [ends.lanes, step_of_isReady here ready, List.set_set]
  world := ends.world
  exchanges := by
    rw [ends.exchanges, step_of_isReady here ready, List.append_assoc, List.map_append]

end Step

namespace Sound

variable (opens : p.endpoint.suite.Opens) (filed : w.sessions.Filed p.endpoint.suite)
include opens filed

theorem finish_running {index : Nat} {sender : Identity}
    (script : Script (List (Placed ProcessResult))) (sound : Sound p hosts messages w state)
    (here : state.lanes[index]? = some (sender, .running script)) :
    ∃ schedule, Ends state (Lanes.run p hosts schedule state) index sender
      (script.run p.endpoint.suite (hosts sender) state.world) := by
  induction script generalizing state with
  | done results =>
      have ready := sound.isReady_running opens filed here
      refine ⟨[index], ?_⟩
      rw [Lanes.run, Lanes.run, step_of_isReady here ready]
      exact ⟨rfl, rfl, rfl⟩
  | ask r next ih =>
      have ready := sound.isReady_running opens filed here
      obtain ⟨schedule, ends⟩ := ih _ (sound.step index) (getElem?_step here ready)
      have whole := ends.of_step here ready
      have world : (state.step p hosts index).world =
          (state.world.answer p.endpoint.suite (hosts sender) r).2 := by
        rw [step_of_isReady here ready]
        rfl
      rw [world] at whole
      exact ⟨index :: schedule, whole⟩

/-- A lane that waits comes to its end alone while no other is under way. -/
theorem finish_waiting (limit : 1 ≤ p.concurrency) (sound : Sound p hosts messages w state)
    {index : Nat} {sender : Identity} {queue : List (Placed Boxed)}
    (here : state.lanes[index]? = some (sender, .waiting queue))
    (idle : ∀ lane ∈ state.lanes, lane.2.isRunning = false) :
    ∃ schedule, Ends state (Lanes.run p hosts schedule state) index sender
      ((p.processLane queue).run p.endpoint.suite (hosts sender) state.world) := by
  have none : state.lanes.countP (fun lane => lane.2.isRunning) = 0 := by
    apply List.countP_eq_zero.mpr
    exact fun lane mem => by simp [idle lane mem]
  have ready : state.isReady p (.waiting queue) = true := by
    simp only [isReady, none, decide_eq_true_eq]
    omega
  obtain ⟨schedule, ends⟩ :=
    (sound.step index).finish_running opens filed _ (getElem?_step here ready)
  have whole := ends.of_step here ready
  have world : (state.step p hosts index).world = state.world := by
    rw [step_of_isReady here ready]
    rfl
  rw [world] at whole
  exact ⟨index :: schedule, whole⟩

end Sound

theorem run_processLanes_cons (suite : Suite) (host : Host σ) (sender : Identity)
    (queue : List (Placed Boxed)) (rest : List (Identity × List (Placed Boxed))) (w : World σ) :
    (p.processLanes ((sender, queue) :: rest)).run suite host w =
      let first := (p.processLane queue).run suite host w
      let others := (p.processLanes rest).run suite host first.world
      ⟨first.value ++ others.value, others.world, first.exchanges ++ others.exchanges⟩ := by
  simp only [Processor.processLanes, Script.bind_eq, Script.pure_eq, Script.run_andThen, Script.run,
    List.append_nil]

/-- Whether lanes that were left have all been run, with the results given besides those from
before. -/
structure AllRan (state after : Lanes σ) (earlier : List (Placed ProcessResult))
    (ran : Ran σ (List (Placed ProcessResult))) : Prop where
  finished : after.isFinished = true
  results : (after.lanes.flatMap fun lane => lane.2.results) = earlier ++ ran.value
  world : after.world = ran.world
  exchanges : after.exchanges.map Prod.snd = state.exchanges.map Prod.snd ++ ran.exchanges

/-- The lanes that wait come to their ends one after another. -/
theorem exists_schedule_lanes {host : Host σ} (opens : p.endpoint.suite.Opens)
    (filed : w.sessions.Filed p.endpoint.suite) (limit : 1 ≤ p.concurrency)
    (queues : List (Identity × List (Placed Boxed))) :
    ∀ (ended : List (Identity × Lane)) {state : Lanes σ}, Sound p (fun _ => host) messages w state →
      (∀ lane ∈ ended, lane.2.isFinished = true) →
        state.lanes = ended ++ queues.map (fun queue => (queue.1, .waiting queue.2)) →
          ∃ schedule, AllRan state (run p (fun _ => host) schedule state)
            (ended.flatMap fun lane => lane.2.results)
            ((p.processLanes queues).run p.endpoint.suite host state.world) := by
  induction queues with
  | nil =>
      intro ended state sound finished lanes
      have all : state.lanes = ended := by simpa using lanes
      refine ⟨[], ?_, ?_, rfl, ?_⟩
      · rw [run, isFinished, all]
        exact List.all_eq_true.mpr finished
      · simp [run, all, Processor.processLanes, Script.run]
      · simp [run, Processor.processLanes, Script.run]
  | cons queue rest ih =>
      intro ended state sound finished lanes
      obtain ⟨sender, queue⟩ := queue
      have here : state.lanes[ended.length]? = some (sender, .waiting queue) := by simp [lanes]
      have idle : ∀ lane ∈ state.lanes, lane.2.isRunning = false := by
        intro lane mem
        rw [lanes] at mem
        rcases List.mem_append.mp mem with old | new
        · have done := finished lane old
          cases kind : lane.2 <;> simp [Lane.isRunning, Lane.isFinished, kind] at done ⊢
        · obtain ⟨_, -, rfl⟩ := List.mem_map.mp new
          rfl
      obtain ⟨first, ends⟩ := sound.finish_waiting opens filed limit here idle
      rw [run_processLanes_cons]
      dsimp only
      generalize (p.processLane queue).run p.endpoint.suite host state.world = ran at ends ⊢
      have moved : (run p (fun _ => host) first state).lanes =
          (ended ++ [(sender, .finished ran.value)]) ++
            rest.map fun queue => (queue.1, .waiting queue.2) := by
        rw [ends.lanes, lanes]
        simp
      have allEnded : ∀ lane ∈ ended ++ [(sender, Lane.finished ran.value)],
          lane.2.isFinished = true := by
        intro lane mem
        rcases List.mem_append.mp mem with old | new
        · exact finished lane old
        · obtain rfl := List.mem_singleton.mp new
          rfl
      obtain ⟨later, all⟩ := ih _ (sound.run first) allEnded moved
      rw [ends.world] at all
      refine ⟨first ++ later, ?_⟩
      rw [run_append]
      refine ⟨all.finished, ?_, all.world, ?_⟩
      · rw [all.results]
        simp [Lane.results]
      · rw [all.exchanges, ends.exchanges]
        simp

/-- The lanes of a batch one after another are one of the orders. -/
theorem exists_schedule_processBatch (p : Processor) (host : Host σ) (messages : List Boxed)
    (w : World σ) (opens : p.endpoint.suite.Opens) (filed : w.sessions.Filed p.endpoint.suite)
    (limit : 1 ≤ p.concurrency) :
    ∃ schedule,
      let state := run p (fun _ => host) schedule (start messages w)
      let ran := (p.processBatch messages).run p.endpoint.suite host w
      state.isFinished = true ∧ state.results messages.length = ran.value ∧
        state.world = ran.world ∧ state.exchanges.map Prod.snd = ran.exchanges := by
  obtain ⟨schedule, all⟩ := exists_schedule_lanes opens filed limit (Batch.lanes messages) []
    (sound_start p (fun _ => host) messages w) (by simp) rfl
  have whole : (p.processBatch messages).run p.endpoint.suite host w = _ :=
    Script.run_andThen _ _ _ _ w
  refine ⟨schedule, all.finished, ?_, ?_, ?_⟩
  · rw [whole]
    exact congrArg (Batch.inOrder messages.length) all.results
  · rw [whole]
    exact all.world
  · rw [whole]
    exact all.exchanges.trans (List.append_nil _).symm

end Lanes

end SecureInbox
