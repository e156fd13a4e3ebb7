import SecureInbox.Proofs.Intake.SessionLink
import SecureInbox.Proofs.Intake.Setting

/-! # Frames that come again

A `History` is a run in which the frames of a link come in the order in which they were
made, and those that could not be handled come again at any later time.  The session stands
behind the frame that was settled last (`stand`).

A frame that comes again is refused, and its session erased, exactly if it is `Lost`:
something made after it has been settled in the meantime, or it is too far ahead
(`redelivered_lost_iff`).  Otherwise it is processed as soon as it can be. -/
set_option autoImplicit false

namespace SecureInbox

structure Delivery where
  frame : BoxedFrame
  result : ProcessResult

namespace Delivery

def isRetried (d : Delivery) : Bool :=
  match d.result with
  | .error e => e.disposition == .retry
  | .ok _ => false

theorem isRetried_error (f : BoxedFrame) {e : ProcessError} (retry : e.disposition = .retry) :
    isRetried ⟨f, .error e⟩ = true := beq_iff_eq.mpr retry

theorem not_isRetried_error (f : BoxedFrame) {e : ProcessError} (done : e.disposition ≠ .retry) :
    isRetried ⟨f, .error e⟩ = false := beq_eq_false_iff_ne.mpr done

end Delivery

def BoxedFrame.hash (link : SessionLink) (f : BoxedFrame) : NonceHash :=
  link.processor.nonceHash f.boxed.nonce.bytes

/-- Where the session stands after some deliveries, if it is still there. -/
def stand (start : Position) (past : List Delivery) : Position :=
  past.foldl (fun p d => if d.isRetried = true then p else d.frame.place.next) start

/-- A frame that has come before, and each time could not be handled. -/
def Awaited (past : List Delivery) (f : BoxedFrame) : Prop :=
  (∃ d ∈ past, d.frame = f) ∧ ∀ d ∈ past, d.frame = f → d.isRetried = true

/-- A frame that was made after all that have come, under a nonce of its own. -/
structure IsNext (link : SessionLink) (start : Position) (past : List Delivery) (st : SlotState)
    (f : BoxedFrame) : Prop where
  ahead : start.le f.place
  later : ∀ d ∈ past, d.frame.place.next.le f.place
  own : ∀ d ∈ past, d.frame.hash link ≠ f.hash link
  unused : st.register.contains (f.hash link) = false

inductive History (link : SessionLink) (start : Position) : List Delivery → SlotState → Prop where
  | start (s : Session) (register : NonceRegister) (stands : link.Stands s start) :
      History link start [] ⟨some s, register⟩
  | deliver {past : List Delivery} {st : SlotState} (history : History link start past st)
      (f : BoxedFrame) (genuine : f.Genuine link) (turn : IsNext link start past st f ∨ Awaited past f)
      {xs : List Exchange} {r : ProcessResult}
      (reaches : Script.Reaches (link.processor.process f.boxed) xs (.done r))
      (admitted : (SlotState.rules link fun _ => True).AdmitsAll st xs) :
      History link start (past ++ [⟨f, r⟩]) ((SlotState.rules link fun _ => True).afterAll st xs)
  /-- What else happens leaves the session where it stands, or ends it, and does not
  concern the nonces of these frames. -/
  | elsewhere {past : List Delivery} {st : SlotState} (history : History link start past st)
      (t : SlotState) (slot : ∀ s, t.slot = some s → st.slot.isSome = true ∧ link.Stands s (stand start past))
      (register : ∀ d ∈ past, t.register.contains (d.frame.hash link) =
        st.register.contains (d.frame.hash link)) :
      History link start past t

/-- Whether something that was made after a frame has been settled. -/
def Overtaken (past : List Delivery) (f : BoxedFrame) : Prop :=
  ∃ d ∈ past, d.isRetried = false ∧ ¬d.frame.place.le f.place

def Lost (link : SessionLink) (start : Position) (past : List Delivery) (st : SlotState)
    (f : BoxedFrame) : Prop :=
  ∀ s, st.slot = some s → ¬link.Waits s ∧
    (Overtaken past f ∨ link.maxSkip.toNat < (stand start past).lead f.place)

structure Redelivered (link : SessionLink) (start : Position) (past : List Delivery) (st : SlotState)
    (f : BoxedFrame) (xs : List Exchange) (r : ProcessResult) (t : SlotState) : Prop where
  /-- It is refused exactly if it is lost, once the peer's key is known. -/
  refused : IsRefused r ↔ Lost link start past st f ∧ ∀ sender reason,
    r ≠ .error (.senderUnknown sender reason)
  /-- The session is erased exactly if it is refused. -/
  erased : t.slot = none ↔ st.slot = none ∨ IsRefused r
  /-- When it is to come again, nothing has changed. -/
  retried : (⟨f, r⟩ : Delivery).isRetried = true → t = st
  /-- When nothing stands in the way, and it is not lost, it is processed. -/
  processed : ¬Lost link start past st f → (∀ s, st.slot = some s → ¬link.Waits s) →
    (∀ x ∈ xs, x.helps) → f.inner.hasValidContent link.processor.limits = true →
      f.inner.group?.isSome = true ∨ f.inner.HasHandler → r = .ok (.processed f.inner)

/-! ## What one delivery does -/

namespace SlotState.FrameResult

variable {link : SessionLink} {helps : Exchange → Prop} {p : Position} {f : BoxedFrame}
variable {holds : ProcessResult → Prop} {st t : SlotState} {r : ProcessResult} {s : Session}

theorem unchanged (result : FrameResult link helps p f holds (mark link f) st t r)
    (retried : (⟨f, r⟩ : Delivery).isRetried = true) : t = st := by
  cases result with
  | lost reason s slot ready lost => cases retried
  | failed e s t slot ready le near done stands handled =>
      rw [Delivery.not_isRetried_error f done] at retried
      cases retried
  | settled outcome s t slot ready le near stands handled => cases retried
  | _ => rfl

/-- A frame marks no other nonce than its own. -/
theorem marked (result : FrameResult link helps p f holds (mark link f) st t r) {hash : NonceHash}
    (other : hash ≠ f.hash link) : t.register.contains hash = st.register.contains hash := by
  cases result with
  | settled outcome s t slot ready le near stands handled =>
      show (st.register.insert (f.hash link)).2.contains hash = _
      rw [NonceRegister.contains_insert, beq_eq_false_iff_ne.mpr other, Bool.false_or]
  | _ => rfl

/-- A session that is left either stands where it did, and the frame is to come again, or
stands behind the frame. -/
theorem left (result : FrameResult link helps p f holds (mark link f) st t r) {s : Session}
    (slot : t.slot = some s) : (⟨f, r⟩ : Delivery).isRetried = true ∧ st.slot = some s ∨
      (⟨f, r⟩ : Delivery).isRetried = false ∧ st.slot.isSome = true ∧ p.le f.place ∧
        link.Stands s f.place.next := by
  cases result with
  | unknown sender reason answer unanswered admitted => exact .inl ⟨rfl, slot⟩
  | gone reason gone =>
      rw [gone] at slot
      cases slot
  | early reason s' slot' waits => exact .inl ⟨rfl, slot⟩
  | lost reason s' slot' ready lost => cases slot
  | retried e s' slot' ready le near retry handled =>
      exact .inl ⟨Delivery.isRetried_error f retry, slot⟩
  | failed e s' t' slot' ready le near done stands handled =>
      obtain rfl := Option.some.inj slot
      exact .inr ⟨Delivery.not_isRetried_error f done, by rw [slot']; rfl, le, stands⟩
  | settled outcome s' t' slot' ready le near stands handled =>
      obtain rfl := Option.some.inj slot
      exact .inr ⟨rfl, by rw [slot']; rfl, le, stands⟩

theorem erased (result : FrameResult link helps p f (fun r => ¬IsRefused r) (mark link f) st t r) :
    t.slot = none ↔ st.slot = none ∨ IsRefused r := by
  have other : ∀ {e : ProcessError}, (∀ reason, e ≠ .refused reason) →
      ¬IsRefused (.error e : ProcessResult) :=
    fun unlike ⟨reason, same⟩ => unlike reason (Except.error.inj same)
  cases result with
  | unknown sender reason answer unanswered admitted =>
      exact ⟨.inl, fun either => either.resolve_right (other fun _ same => nomatch same)⟩
  | gone reason slot => exact ⟨.inl, fun _ => slot⟩
  | early reason s slot waits =>
      exact ⟨.inl, fun either => either.resolve_right (other fun _ same => nomatch same)⟩
  | lost reason s slot ready lost => exact ⟨fun _ => .inr ⟨reason, rfl⟩, fun _ => rfl⟩
  | retried e s slot ready le near retry handled =>
      exact ⟨.inl, fun either => either.resolve_right handled⟩
  | failed e s t slot ready le near done stands handled =>
      rw [slot]
      exact ⟨fun none => (nomatch none), fun either => (either.elim nofun handled).elim⟩
  | settled outcome s t slot ready le near stands handled =>
      rw [slot]
      exact ⟨fun none => (nomatch none), fun either => (either.elim nofun handled).elim⟩

/-- A frame is refused if there is no session or it is out of its reach, and only then. -/
theorem refused (result : FrameResult link helps p f (fun r => ¬IsRefused r) (mark link f) st t r)
    {lost : Prop} (gone : st.slot = none → lost)
    (lost_iff : ∀ s, st.slot = some s → (lost ↔ ¬link.Waits s ∧
      (¬p.le f.place ∨ link.maxSkip.toNat < p.lead f.place))) :
    IsRefused r ↔ lost ∧ ∀ sender reason, r ≠ .error (.senderUnknown sender reason) := by
  have reached : ∀ s, st.slot = some s → p.le f.place → p.lead f.place ≤ link.maxSkip.toNat →
      ¬lost := by
    intro s slot le near isLost
    rcases ((lost_iff s slot).mp isLost).2 with passed | far
    · exact passed le
    · exact Nat.not_lt.mpr near far
  cases result with
  | unknown sender reason answer unanswered admitted =>
      exact ⟨fun ⟨_, same⟩ => (nomatch same), fun both => (both.2 sender reason rfl).elim⟩
  | gone reason slot =>
      exact ⟨fun _ => ⟨gone slot, fun _ _ same => (nomatch same)⟩, fun _ => ⟨reason, rfl⟩⟩
  | early reason s slot waits =>
      exact ⟨fun ⟨_, same⟩ => (nomatch same), fun both =>
        (((lost_iff s slot).mp both.1).1 waits).elim⟩
  | lost reason s slot ready lost =>
      exact ⟨fun _ => ⟨(lost_iff s slot).mpr ⟨ready, lost⟩, fun _ _ same => (nomatch same)⟩,
        fun _ => ⟨reason, rfl⟩⟩
  | retried e s slot ready le near retry handled =>
      exact ⟨fun refused => (handled refused).elim, fun both => (reached s slot le near both.1).elim⟩
  | failed e s t slot ready le near done stands handled =>
      exact ⟨fun refused => (handled refused).elim, fun both => (reached s slot le near both.1).elim⟩
  | settled outcome s t slot ready le near stands handled =>
      exact ⟨fun refused => (handled refused).elim, fun both => (reached s slot le near both.1).elim⟩

/-- A frame within reach is handled, when nothing stands in the way. -/
theorem processed {m : Message}
    (result : FrameResult link Exchange.helps p f (fun r => r = .ok (.processed m)) (mark link f) st t r)
    (slot : st.slot = some s) (ready : ¬link.Waits s) (le : p.le f.place)
    (near : p.lead f.place ≤ link.maxSkip.toNat) : r = .ok (.processed m) := by
  cases result with
  | unknown sender reason answer unanswered admitted =>
      obtain ⟨key, answered⟩ : ∃ key, answer = .ok (some key) := admitted
      exact (unanswered key answered).elim
  | gone reason gone =>
      rw [gone] at slot
      cases slot
  | early reason s' slot' waits =>
      obtain rfl := Option.some.inj (slot.symm.trans slot')
      exact (ready waits).elim
  | lost reason s' slot' ready' lost =>
      rcases lost with passed | far
      · exact (passed le).elim
      · exact (Nat.not_lt.mpr near far).elim
  | retried e s slot ready le near retry handled => exact handled
  | failed e s t slot ready le near done stands handled => exact handled
  | settled outcome s t slot ready le near stands handled => exact handled

end SlotState.FrameResult

/-! ## What holds of a history -/

structure Kept (link : SessionLink) (start : Position) (past : List Delivery) (st : SlotState) :
    Prop where
  stands : ∀ s, st.slot = some s → link.Stands s (stand start past)
  /-- As long as there is a session, it stands behind all that was settled. -/
  order : st.slot.isSome = true → ∀ q, (stand start past).le q ↔
    start.le q ∧ ∀ d ∈ past, d.isRetried = false → d.frame.place.next.le q
  begins : ∀ d ∈ past, start.le d.frame.place
  apart : ∀ d ∈ past, ∀ e ∈ past, d.frame = e.frame ∨
    d.frame.place ≠ e.frame.place ∧ d.frame.hash link ≠ e.frame.hash link
  unused : ∀ f, Awaited past f → st.register.contains (f.hash link) = false

theorem stand_append (start : Position) (past : List Delivery) (d : Delivery) :
    stand start (past ++ [d]) =
      if d.isRetried = true then stand start past else d.frame.place.next := by
  rw [stand, List.foldl_append]
  rfl

namespace Kept

variable {link : SessionLink} {start : Position} {past : List Delivery} {st t : SlotState}
    {f : BoxedFrame}
variable {r : ProcessResult} {helps : Exchange → Prop} {holds : ProcessResult → Prop}

/-- A frame whose turn it is differs from all that came before, or is one of them. -/
theorem others (kept : Kept link start past st) (turn : IsNext link start past st f ∨ Awaited past f) :
    start.le f.place ∧ st.register.contains (f.hash link) = false ∧ ∀ d ∈ past, d.frame = f ∨
      d.frame.place ≠ f.place ∧ d.frame.hash link ≠ f.hash link := by
  rcases turn with next | awaited
  · refine ⟨next.ahead, next.unused, fun d member => .inr ⟨?_, next.own d member⟩⟩
    exact (Position.next_le_iff.mp (next.later d member)).2
  · obtain ⟨e, came, rfl⟩ := awaited.1
    exact ⟨kept.begins e came, kept.unused _ awaited, fun d member => kept.apart d member e came⟩

theorem deliver (kept : Kept link start past st) (turn : IsNext link start past st f ∨ Awaited past f)
    (result : SlotState.FrameResult link helps (stand start past) f holds (SlotState.mark link f)
      st t r) :
    Kept link start (past ++ [⟨f, r⟩]) t := by
  obtain ⟨begins, unused, others⟩ := kept.others turn
  have mem_past : ∀ {d : Delivery}, d ∈ past ++ [⟨f, r⟩] → d ∈ past ∨ d = ⟨f, r⟩ := fun member =>
    (List.mem_append.mp member).imp id List.mem_singleton.mp
  refine ⟨?_, ?_, ?_, ?_, ?_⟩
  · intro s slot
    rw [stand_append]
    rcases result.left slot with ⟨retried, before⟩ | ⟨done, _, _, stands⟩
    · rw [if_pos retried]
      exact kept.stands s before
    · rw [done, if_neg Bool.false_ne_true]
      exact stands
  · intro isSome q
    obtain ⟨s, slot⟩ := Option.isSome_iff_exists.mp isSome
    rw [stand_append, List.forall_mem_append, List.forall_mem_singleton]
    rcases result.left slot with ⟨retried, before⟩ | ⟨done, before, le, _⟩
    · have still : st.slot.isSome = true := by
        rw [before]
        rfl
      rw [if_pos retried, kept.order still q, retried]
      exact and_congr_right fun _ => ⟨fun earlier => ⟨earlier, fun other => nomatch other⟩, And.left⟩
    · rw [done, if_neg Bool.false_ne_true]
      -- What was settled earlier ends before the place where the session stood.
      refine ⟨fun behind => ?_, fun all => all.2.2 rfl⟩
      have first := Position.le_trans le (Position.le_trans f.place.le_next behind)
      have earlier := (kept.order before q).mp first
      exact ⟨earlier.1, earlier.2, fun _ => behind⟩
  · intro d member
    rcases mem_past member with member | rfl
    · exact kept.begins d member
    · exact begins
  · intro d memberD e memberE
    rcases mem_past memberD with memberD | rfl
    · rcases mem_past memberE with memberE | rfl
      · exact kept.apart d memberD e memberE
      · exact others d memberD
    · rcases mem_past memberE with memberE | rfl
      · exact (others e memberE).imp Eq.symm (And.imp Ne.symm Ne.symm)
      · exact .inl rfl
  · intro other awaited
    by_cases same : other = f
    · subst same
      have retried := awaited.2 _ (List.mem_append_right past List.mem_cons_self) rfl
      rw [result.unchanged retried]
      exact unused
    · obtain ⟨d, member, came⟩ := awaited.1
      have before : d ∈ past := (mem_past member).resolve_right fun now => same (by rw [← came, now])
      have hash : other.hash link ≠ f.hash link := by
        rw [← came]
        exact ((others d before).resolve_left fun now => same (came.symm.trans now)).2
      rw [result.marked hash]
      exact kept.unused other ⟨⟨d, before, came⟩, fun e member =>
        awaited.2 e (List.mem_append_left _ member)⟩

theorem elsewhere (kept : Kept link start past st)
    (slot : ∀ s, t.slot = some s → st.slot.isSome = true ∧ link.Stands s (stand start past))
    (register : ∀ d ∈ past, t.register.contains (d.frame.hash link) =
      st.register.contains (d.frame.hash link)) : Kept link start past t := by
  refine ⟨fun s found => (slot s found).2, fun isSome => ?_, kept.begins, kept.apart, ?_⟩
  · obtain ⟨s, found⟩ := Option.isSome_iff_exists.mp isSome
    exact kept.order (slot s found).1
  · intro f awaited
    obtain ⟨d, member, rfl⟩ := awaited.1
    rw [register d member]
    exact kept.unused _ awaited

/-- A frame that is awaited has been overtaken exactly if the session has passed it. -/
theorem overtaken_iff (kept : Kept link start past st) (slot : st.slot.isSome = true)
    (awaited : Awaited past f) : Overtaken past f ↔ ¬(stand start past).le f.place := by
  have begins := (kept.others (.inr awaited)).1
  rw [kept.order slot]
  constructor
  · rintro ⟨d, member, done, later⟩ ⟨_, all⟩
    exact later (Position.next_le_iff.mp (all d member done)).1
  · intro passed
    refine Classical.byContradiction fun none => passed ⟨begins, fun d member done => ?_⟩
    have le : d.frame.place.le f.place := Classical.byContradiction fun later =>
      none ⟨d, member, done, later⟩
    -- An awaited frame was never settled itself.
    have different : d.frame ≠ f := by
      intro same
      rw [awaited.2 d member same] at done
      cases done
    have place := (((kept.others (.inr awaited)).2.2 d member).resolve_left different).1
    exact Position.next_le_iff.mpr ⟨le, place⟩

end Kept

theorem Kept.frameResult {link : SessionLink} (sound : link.Sound) {start : Position}
    {past : List Delivery} {st : SlotState} (kept : Kept link start past st) {f : BoxedFrame} (genuine : f.Genuine link)
    (turn : IsNext link start past st f ∨ Awaited past f) {helps : Exchange → Prop}
    {holds : ProcessResult → Prop}
    (handled : ∀ content, (link.processor.handleInner (f.outer link.session content) f.inner).Obeys
      (SlotState.rules link helps) st fun t r => t = st ∧ holds r)
    {xs : List Exchange} {r : ProcessResult}
    (reaches : Script.Reaches (link.processor.process f.boxed) xs (.done r))
    (admitted : (SlotState.rules link helps).AdmitsAll st xs) :
    SlotState.FrameResult link helps (stand start past) f holds (SlotState.mark link f) st
      ((SlotState.rules link helps).afterAll st xs) r :=
  Script.Obeys.rest
    (SlotState.process_frameResult sound genuine kept.stands (kept.others turn).2.1 handled)
    reaches admitted

theorem History.kept {link : SessionLink} (sound : link.Sound) {start : Position} {past : List Delivery}
    {st : SlotState} (history : History link start past st) : Kept link start past st := by
  induction history with
  | start s register stands =>
      have nothing : ∀ {post : Delivery → Prop}, ∀ d ∈ ([] : List Delivery), post d := fun _ member =>
        absurd member List.not_mem_nil
      refine ⟨fun t slot => ?_, fun _ q => ?_, nothing, nothing, ?_⟩
      · obtain rfl := Option.some.inj slot
        exact stands
      · exact ⟨fun le => ⟨le, nothing⟩, And.left⟩
      · rintro f ⟨⟨d, member, _⟩, _⟩
        exact absurd member List.not_mem_nil
  | deliver history f genuine turn reaches admitted ih =>
      exact ih.deliver turn (ih.frameResult sound genuine turn
        (fun content => SlotState.handleInner_slot _ _) reaches admitted)
  | elsewhere history t slot register ih => exact ih.elsewhere slot register

/-! ## Awaited frames -/

section Again

variable {link : SessionLink} {start : Position} {past : List Delivery} {st : SlotState}
    {f : BoxedFrame} {s : Session}

theorem Kept.lost_iff (kept : Kept link start past st) (awaited : Awaited past f)
    (slot : st.slot = some s) : Lost link start past st f ↔ ¬link.Waits s ∧
      (¬(stand start past).le f.place ∨ link.maxSkip.toNat < (stand start past).lead f.place) := by
  have isSome : st.slot.isSome = true := by
    rw [slot]
    rfl
  rw [← kept.overtaken_iff isSome awaited]
  constructor
  · exact fun lost => lost s slot
  · intro both t other
    obtain rfl := Option.some.inj (slot.symm.trans other)
    exact both

theorem redelivered_lost_iff (link : SessionLink) (sound : link.Sound) (start : Position) :
    ∀ past st, History link start past st → ∀ f, f.Genuine link → Awaited past f → ∀ xs r,
      Script.Reaches (link.processor.process f.boxed) xs (.done r) →
        (SlotState.rules link fun _ => True).AdmitsAll st xs →
          Redelivered link start past st f xs r
            ((SlotState.rules link fun _ => True).afterAll st xs) := by
  intro past st history f genuine awaited xs r reaches admitted
  have kept := history.kept sound
  have result := kept.frameResult sound genuine (.inr awaited) (fun content =>
    ((SlotState.handleInner_slot _ _).and (SlotState.handleInner_unrefused _ _ _)).mono
      fun _ _ both => ⟨both.1.1, both.2⟩) reaches admitted
  refine ⟨result.refused ?_ fun s => kept.lost_iff awaited, result.erased, result.unchanged, ?_⟩
  · intro gone s slot
    rw [gone] at slot
    cases slot
  · intro found ready helps valid taken
    have helped := kept.frameResult sound genuine (.inr awaited) (fun content =>
      SlotState.handleInner_ok _ valid taken) reaches (SlotState.admitsAll_helps admitted helps)
    obtain ⟨s, slot⟩ : ∃ s, st.slot = some s := by
      refine Option.isSome_iff_exists.mp (Option.isSome_iff_ne_none.mpr fun gone => found ?_)
      intro s slot
      rw [gone] at slot
      cases slot
    rw [kept.lost_iff awaited slot] at found
    have within : (stand start past).le f.place ∧
        (stand start past).lead f.place ≤ link.maxSkip.toNat := by
      refine ⟨Classical.byContradiction fun passed => found ⟨ready s slot, .inl passed⟩, ?_⟩
      exact Nat.not_lt.mp fun far => found ⟨ready s slot, .inr far⟩
    exact helped.processed slot (ready s slot) within.1 within.2

end Again

/-! ## A frame that is overtaken -/

section Example

def plainLink : SessionLink :=
  ⟨Setting.processor, Setting.peer, Setting.peerKey, Block.zero 16,
    Session.outward .plain plainSecrets⟩

def plainContent (steps : Nat) (body : Body) : Encapsulated :=
  let r := (Session.twoChain .plain plainSecrets.initiator plainSecrets.responder
    plainSecrets.opening).advance .plain steps
  ⟨⟨.two, r.counter, Suite.plain.wrap (r.key .plain) (Block.zero 24) (body.toPlaintext 1)
    (Block.zero 16 : SessionId).bytes⟩, .v1_2, .v1_2, (Setting.message body).group?⟩

def plainBoxedFrame (steps : Nat) (body : Body) : BoxedFrame :=
  ⟨Setting.boxed (.envelope ⟨Block.zero 16, .encapsulated (plainContent steps body)⟩) steps,
    ⟨.two, steps⟩, Setting.message body⟩

theorem plainBoxedFrame_genuine {steps : Nat} {body : Body} (small : steps + 2 < UInt64.size)
    (survives : body.Survives)
    (carried : Setting.isCarried ⟨Block.zero 16, .encapsulated (plainContent steps body)⟩ = true) :
    (plainBoxedFrame steps body).Genuine plainLink := by
  refine ⟨rfl, rfl, small, survives, 0, (plainContent steps body).sealed, .v1_2, .v1_2, ?_, by decide, ?_⟩
  · exact Setting.opening_boxed (Setting.survives_envelope carried) (fun _ _ other => nomatch other) steps
  · exact ⟨_, Block.zero 24, rfl, rfl⟩

theorem plainLink_sound : plainLink.Sound := by
  refine ⟨rfl, Suite.plain_opens, fun a base found => ?_⟩
  cases a <;> cases found <;> rfl

theorem plainSession_stands : plainLink.Stands plainSession ⟨.two, 0⟩ :=
  ⟨rfl, rfl, Position.fits_start _, .inr ⟨⟨rfl, rfl, rfl, rfl⟩, fun other => nomatch other⟩⟩

/-- The world after some deliveries, the last one first. -/
def plainWorld : List BoxedFrame → World Unit
  | [] => ⟨(), .empty, .memory ⟨[plainSession]⟩, none⟩
  | f :: before => (Setting.deliver (plainWorld before) f.boxed).world

def plainRun (before : List BoxedFrame) (f : BoxedFrame) : Ran Unit ProcessResult :=
  Setting.deliver (plainWorld before) f.boxed

theorem plainRun_slotOf {before : List BoxedFrame} {d : EndpointState}
    (keeps : EndpointState.Keeps (plainWorld before) d) (f : BoxedFrame) :
    Script.Reaches (plainLink.processor.process f.boxed) (plainRun before f).exchanges
        (.done (plainRun before f).value) ∧
      (SlotState.rules plainLink fun _ => True).AdmitsAll (d.slotOf plainLink)
        (plainRun before f).exchanges ∧
      ∃ after, EndpointState.Keeps (plainWorld (f :: before)) after ∧
        after.slotOf plainLink = (SlotState.rules plainLink fun _ => True).afterAll (d.slotOf plainLink)
          (plainRun before f).exchanges := by
  have serves : (Host.plain Setting.peerKey).Serves fun _ => True := EndpointState.plain_serves trivial
  obtain ⟨admitted, keepsAfter⟩ :=
    EndpointState.admits_run .plain serves (Setting.processor.process f.boxed) keeps
  have knows : ∀ x ∈ (plainRun before f).exchanges, EndpointState.Knows plainLink x := by
    intro x member
    obtain ⟨n, found⟩ := List.mem_iff_getElem?.mp member
    obtain ⟨r, answer⟩ := x
    cases r with
    | host c =>
        cases c with
        | publicKey identity =>
            have same := Host.plain_answers _ _ _ _ n _ answer found
            intro _ key known
            rw [same] at known
            cases known
            rfl
        | _ => trivial
    | _ => trivial
  obtain ⟨slot, same⟩ := EndpointState.slotOf_admits admitted knows
  exact ⟨Script.reaches_run _ _ _ _, slot, _, keepsAfter, same⟩

/-- Leaving a group that is not known, which is to come again. -/
def leaving : BoxedFrame := plainBoxedFrame 0 (.groupLeave ⟨Block.zero 8, Setting.peer⟩)

def following : BoxedFrame := plainBoxedFrame 1 .contactDeletePhoto

/-- A frame whose successor is processed before it comes again is refused then. -/
theorem redelivered_lost_overtaken :
    ∃ past st xs r t, History plainLink ⟨.two, 0⟩ past st ∧ leaving.Genuine plainLink ∧
      Awaited past leaving ∧ Overtaken past leaving ∧
      Redelivered plainLink ⟨.two, 0⟩ past st leaving xs r t ∧
      st.slot.isSome = true ∧ IsRefused r ∧ t.slot = none := by
  have genuine : leaving.Genuine plainLink :=
    plainBoxedFrame_genuine (by decide) (by unfold Body.Survives; rfl) (by decide +kernel)
  have genuineNext : following.Genuine plainLink :=
    plainBoxedFrame_genuine (by decide) rfl (by decide +kernel)
  have keeps : EndpointState.Keeps (plainWorld []) (.single plainSession) := ⟨rfl, rfl⟩
  have begun : History plainLink ⟨.two, 0⟩ [] ((EndpointState.single plainSession).slotOf plainLink) := by
    have history := History.start plainSession .empty plainSession_stands
    rw [EndpointState.slotOf, EndpointState.single, SessionBook.find?_single plainSession_stands.filed]
    exact history
  obtain ⟨reaches, admitted, d, keepsFirst, slotFirst⟩ := plainRun_slotOf keeps leaving
  have first := begun.deliver leaving genuine (.inl ⟨Position.le_refl _,
    fun _ member => absurd member List.not_mem_nil, fun _ member => absurd member List.not_mem_nil,
    rfl⟩) reaches admitted
  rw [← slotFirst, List.nil_append] at first
  obtain ⟨reaches, admitted, e, keepsSecond, slotSecond⟩ := plainRun_slotOf keepsFirst following
  have unused : d.register.contains (following.hash plainLink) = false := by
    rw [← keepsFirst.1]
    decide +kernel
  have later : ∀ x ∈ [(⟨leaving, (plainRun [] leaving).value⟩ : Delivery)],
      x.frame.place.next.le following.place := List.forall_mem_singleton.mpr (Nat.le_refl 1)
  have own : ∀ x ∈ [(⟨leaving, (plainRun [] leaving).value⟩ : Delivery)],
      x.frame.hash plainLink ≠ following.hash plainLink :=
    List.forall_mem_singleton.mpr (by decide +kernel)
  have second := first.deliver following genuineNext (.inl ⟨Nat.zero_le 1, later, own, unused⟩)
    reaches admitted
  rw [← slotSecond] at second
  have awaited : Awaited ([⟨leaving, (plainRun [] leaving).value⟩] ++
      [⟨following, (plainRun [leaving] following).value⟩]) leaving := by
    refine ⟨⟨_, List.mem_cons_self, rfl⟩, List.forall_mem_cons.mpr ⟨fun _ => by decide +kernel,
      List.forall_mem_singleton.mpr fun same => ?_⟩⟩
    cases congrArg (fun f => f.place.steps) same
  have overtaken : Overtaken ([⟨leaving, (plainRun [] leaving).value⟩] ++
      [⟨following, (plainRun [leaving] following).value⟩]) leaving :=
    ⟨_, List.mem_append_right _ List.mem_cons_self, by decide +kernel, Nat.not_succ_le_zero 0⟩
  obtain ⟨reaches, admitted, _⟩ := plainRun_slotOf keepsSecond leaving
  have result := redelivered_lost_iff plainLink plainLink_sound _ _ _ second leaving genuine awaited _ _
    reaches admitted
  have refused := Setting.exists_refused (r := (plainRun [following, leaving] leaving).value)
    (by decide +kernel)
  have slot : (e.slotOf plainLink).slot.isSome = true := by
    have found : ((plainWorld [following, leaving]).sessions.find .plain
        plainLink.key).toOption.join.isSome = true := by decide +kernel
    rw [keepsSecond.2] at found
    exact found
  exact ⟨_, _, _, _, _, second, genuine, awaited, overtaken, result, slot, refused,
    result.erased.mpr (.inr refused)⟩

end Example

end SecureInbox
