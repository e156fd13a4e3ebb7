import SecureInbox.Intake.Processor
import SecureInbox.Intake.World

/-! # Batches

A batch is split into lanes, one for each sender, in the order of arrival.  Lanes
run side by side, so many at a time; each processes its messages one after another.
The results are put back into the order of arrival.

`Processor.processBatch` runs the lanes one after another.  `Lanes.step` is one step of
any order in which they may run, in surroundings that may have a host for each sender:
a lane starts when there is a place for it, has a request answered, or ends, and one
that asks for the turn of a peer waits as long as another has it.
`Processor.processEach` processes the messages without lanes, in the order of arrival. -/
set_option autoImplicit false

namespace SecureInbox

/-- A message with its place in the batch. -/
abbrev Placed (α : Type) := Nat × α

namespace Batch

/-- Messages with their places, of which the first is given. -/
def placed (first : Nat) : List Boxed → List (Placed Boxed)
  | [] => []
  | boxed :: rest => (first, boxed) :: placed (first + 1) rest

/-- Adds a message to the lane of its sender, or to a new lane after all others. -/
def insert (message : Placed Boxed) :
    List (Identity × List (Placed Boxed)) → List (Identity × List (Placed Boxed))
  | [] => [(message.2.sender, [message])]
  | (sender, queue) :: rest =>
    if sender = message.2.sender then (sender, queue ++ [message]) :: rest
    else (sender, queue) :: insert message rest

/-- The lanes of a batch, with their senders. -/
def lanes (messages : List Boxed) : List (Identity × List (Placed Boxed)) :=
  (placed 0 messages).foldl (fun lanes m => insert m lanes) []

/-- The result for a message of which nothing was heard. -/
def missing : ProcessResult := .error (.interrupted "batch task cancelled")

/-- The results in the order of arrival. -/
def inOrder (total : Nat) (results : List (Placed ProcessResult)) : List ProcessResult :=
  (List.range total).map fun place => (results.lookup place).getD missing

end Batch

/-- What came of some messages.  A request with its answer stands beside the sender of
the message that it was made for. -/
structure BatchRan (σ : Type) where
  results : List ProcessResult
  world : World σ
  exchanges : List (Identity × Exchange)

namespace Processor

/-- Processes the messages of a lane one after another. -/
def processLane (p : Processor) : List (Placed Boxed) → Script (List (Placed ProcessResult))
  | [] => return []
  | (place, boxed) :: rest => do
    let result ← p.process boxed
    let results ← p.processLane rest
    return (place, result) :: results

def processLanes (p : Processor) :
    List (Identity × List (Placed Boxed)) → Script (List (Placed ProcessResult))
  | [] => return []
  | lane :: rest => do
    let results ← p.processLane lane.2
    let others ← p.processLanes rest
    return results ++ others

/-- Processes a batch; the results stand in the order of the messages. -/
def processBatch (p : Processor) (messages : List Boxed) : Script (List ProcessResult) := do
  let results ← p.processLanes (Batch.lanes messages)
  return Batch.inOrder messages.length results

/-- Processes messages one after another in the order of arrival. -/
def processEach {σ : Type} (p : Processor) (hosts : Identity → Host σ) :
    List Boxed → World σ → BatchRan σ
  | [], w => ⟨[], w, []⟩
  | boxed :: rest, w =>
    let first := (p.process boxed).run p.endpoint.suite (hosts boxed.sender) w
    let others := p.processEach hosts rest first.world
    ⟨first.value :: others.results, others.world,
      first.exchanges.map (fun x => (boxed.sender, x)) ++ others.exchanges⟩

end Processor

/-- A lane that has not started, is under way, or is done. -/
inductive Lane where
  | waiting (messages : List (Placed Boxed))
  | running (script : Script (List (Placed ProcessResult)))
  | finished (results : List (Placed ProcessResult))

namespace Lane

def isRunning : Lane → Bool
  | .running _ => true
  | _ => false

def isFinished : Lane → Bool
  | .finished _ => true
  | _ => false

def results : Lane → List (Placed ProcessResult)
  | .finished results => results
  | _ => []

/-- One step of a lane: it starts, has a request answered, or ends. -/
def step {σ : Type} (p : Processor) (host : Host σ) (lane : Lane) (w : World σ) :
    Lane × World σ × List Exchange :=
  match lane with
  | .waiting messages => (.running (p.processLane messages), w, [])
  | .running (.done results) => (.finished results, w, [])
  | .running (.ask request next) =>
      let (answer, after) := w.answer p.endpoint.suite host request
      (.running (next answer), after, [⟨request, answer⟩])
  | .finished results => (.finished results, w, [])

end Lane

/-- A batch under way. -/
structure Lanes (σ : Type) where
  /-- The lanes with their senders. -/
  lanes : List (Identity × Lane)
  world : World σ
  /-- The peers whose turn somebody has. -/
  held : List Identity
  exchanges : List (Identity × Exchange)

namespace Lanes

variable {σ : Type}

def start (messages : List Boxed) (w : World σ) : Lanes σ :=
  ⟨(Batch.lanes messages).map fun lane => (lane.1, .waiting lane.2), w, [], []⟩

/-- Whether a lane may take a step: one that waits needs a free place, and one that asks
for the turn of a peer needs it to be free. -/
def isReady (p : Processor) (state : Lanes σ) : Lane → Bool
  | .waiting _ => state.lanes.countP (fun lane => lane.2.isRunning) < p.concurrency
  | .running (.ask (.enter peer) _) => !state.held.contains peer
  | .running _ => true
  | .finished _ => false

/-- Whether the lane with the given index may take a step. -/
def canStep (p : Processor) (state : Lanes σ) (index : Nat) : Bool :=
  state.lanes[index]?.any fun lane => state.isReady p lane.2

/-- The peers whose turn somebody has after an exchange. -/
def heldAfter (held : List Identity) : Exchange → List Identity
  | ⟨.enter peer, _⟩ => peer :: held
  | ⟨.leave peer, _⟩ => held.filter (· ≠ peer)
  | _ => held

/-- The step of the lane with the given index, if it may take one. -/
def step (p : Processor) (hosts : Identity → Host σ) (index : Nat) (state : Lanes σ) : Lanes σ :=
  match state.lanes[index]? with
  | none => state
  | some (sender, lane) =>
    if state.isReady p lane then
      let (lane, world, exchanges) := lane.step p (hosts sender) state.world
      ⟨state.lanes.set index (sender, lane), world, exchanges.foldl heldAfter state.held,
        state.exchanges ++ exchanges.map fun x => (sender, x)⟩
    else state

/-- The steps of a schedule of lanes. -/
def run (p : Processor) (hosts : Identity → Host σ) : List Nat → Lanes σ → Lanes σ
  | [], state => state
  | index :: rest, state => run p hosts rest (state.step p hosts index)

/-- The results so far, in the order of arrival. -/
def results (total : Nat) (state : Lanes σ) : List ProcessResult :=
  Batch.inOrder total (state.lanes.flatMap fun lane => lane.2.results)

/-- Whether all lanes are done. -/
def isFinished (state : Lanes σ) : Bool := state.lanes.all fun lane => lane.2.isFinished

end Lanes

end SecureInbox
