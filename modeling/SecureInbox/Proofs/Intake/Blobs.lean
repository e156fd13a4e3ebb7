import SecureInbox.Proofs.Intake.Requests
import SecureInbox.Proofs.Intake.Setting

/-! # Which messages have their blobs fetched

A message that was processed has gone one of two ways (`HandedOver`): the group processor has
taken it over, or it was handled by its kind.  On the second way its blobs are asked for, once
and behind everything else, if it has any; on the first one they never are, whatever its kind
(`processed_handedOver`).  The new photo of a group only ever goes the first way, so that it is
not fetched although it is listed among the messages with blobs. -/
set_option autoImplicit false

namespace SecureInbox

inductive Handover where
  /-- The group processor has taken it over. -/
  | taken (message : Message)
  /-- Its blobs are to be fetched. -/
  | fetched (message : Message)

def Exchange.handover : Exchange → Option Handover
  | ⟨.host (.handleGroup message _), .ok .handled⟩ => some (.taken message)
  | ⟨.host (.schedule message), _⟩ => some (.fetched message)
  | _ => none

def Request.isAside : Request → Prop
  | .host (.handleGroup _ _) => False
  | .host (.schedule _) => False
  | _ => True

theorem Request.isAside_of_ofAdmission {r : Request} (h : r.ofAdmission) : r.isAside := by
  cases r with
  | host c => cases c <;> first | exact trivial | exact h.elim
  | _ => trivial

theorem Request.isAside_of_ofEndpoint {r : Request} (h : r.ofEndpoint) : r.isAside := by
  cases r with
  | host c => cases c <;> first | exact trivial | exact h.elim
  | _ => trivial

theorem Exchange.handover_aside {r : Request} (aside : r.isAside) (answer : r.Answer) :
    (⟨r, answer⟩ : Exchange).handover = none := by
  cases r with
  | host c => cases c <;> first | rfl | exact aside.elim
  | _ => rfl

def Message.HandedOver (m : Message) (handovers : List Handover) : Prop :=
  (m.group?.isSome = true ∧ handovers = [.taken m]) ∨
    (∀ group photo, m.body ≠ .groupSetPhoto group photo) ∧
      handovers = if m.needsBlobs then [.fetched m] else []

namespace Handover

def rules : Rules (List Handover) := .collecting Exchange.handover fun _ => True

def Ends (handovers : List Handover) : Except ProcessError Outcome → Prop
  | .ok (.processed m) => m.HandedOver handovers
  | _ => True

section Parts

variable {α β : Type} {now : List Handover} {part : Intake α} {f : α → Intake β}
  {post : List Handover → Except ProcessError β → Prop}

theorem obeys_aside (asks : part.Asks Request.isAside) :
    part.Obeys rules now fun after _ => after = now :=
  asks.obeys fun _ aside =>
    ⟨trivial, fun answer _ => Rules.after_collecting (Exchange.handover_aside aside answer) now⟩

/-- A part that hands nothing over, before another. -/
theorem aside_bind (asks : part.Asks Request.isAside) (rest : ∀ a, (f a).Obeys rules now post)
    (failed : ∀ e, post now (.error e)) : (part >>= f).Obeys rules now post := by
  rw [Intake.obeys_bind]
  refine (obeys_aside asks).mono ?_
  rintro after o rfl
  cases o with
  | error e => exact failed e
  | ok a => exact rest a

/-- A part that hands nothing over, behind what was handed over before. -/
theorem then_aside {outcome : Outcome} (ends : Ends now (.ok outcome))
    (asks : part.Asks Request.isAside) :
    (part >>= fun _ => pure outcome).Obeys rules now Ends :=
  aside_bind asks (fun _ => ends) fun _ => trivial

end Parts

/-! ## The stages -/

open Processor

/-- Handling by kind fails for the new photo of a group, and hands nothing over. -/
theorem part_gives (m : Message) : (m.handling.part m).Gives Request.isAside fun o =>
    o = .ok () → ∀ group photo, m.body ≠ .groupSetPhoto group photo := by
  have known : (∀ e, m.handling ≠ .failure e) → ∀ group photo, m.body ≠ .groupSetPhoto group photo :=
    fun handled group photo body => handled (.noHandler m.body.kindName) (by rw [Message.handling, body])
  cases handling : m.handling with
  | change c isTold =>
      have handled := known fun e other => nomatch handling.symm.trans other
      have changes : (Intake.host (.change c)).Asks Request.isAside := (Intake.asks_host _).mpr trivial
      cases isTold with
      | true =>
          have tells : (changed m c).Asks Request.isAside :=
            changes.bind fun _ => (Intake.asks_notify _).mpr trivial
          exact Intake.Gives.mono tells fun _ _ _ => handled
      | false => exact Intake.Gives.mono changes fun _ _ _ => handled
  | notice n =>
      have notifies : (Intake.notify n).Asks Request.isAside := (Intake.asks_notify _).mpr trivial
      exact Intake.Gives.mono notifies fun _ _ _ =>
        known fun e other => nomatch handling.symm.trans other
  | nothing => exact fun _ => known fun e other => nomatch handling.symm.trans other
  | failure e => exact fun other => nomatch other

theorem handleByKind_hands (m : Message) :
    (do handleByKind m; return .processed m : Intake Outcome).Obeys rules [] Ends := by
  rw [handleByKind_eq, bind_assoc, Intake.obeys_bind]
  refine ((part_gives m).obeys fun _ aside => ⟨trivial, fun answer _ =>
    Rules.after_collecting (Exchange.handover_aside aside answer) []⟩).mono ?_
  rintro _ o ⟨rfl, handled⟩
  cases o with
  | error e => trivial
  | ok u =>
      have other := handled rfl
      dsimp only [Intake.onward]
      unfold fetchBlobs
      split
      · next needs =>
        rw [Intake.obeys_bind, Intake.obeys_host]
        refine ⟨trivial, fun answer _ => ?_⟩
        cases answer with
        | error e => trivial
        | ok _ => exact .inr ⟨other, (if_pos needs).symm⟩
      · next none => exact .inr ⟨other, (if_neg none).symm⟩

theorem dispatch_hands (m : Message) : (dispatch m).Obeys rules [] Ends := by
  unfold dispatch
  cases hasGroup : m.group? with
  | none => exact handleByKind_hands m
  | some group =>
      refine (Intake.obeys_bind _ _ _ _ _).mpr ((Intake.obeys_host _ _ _ _).mpr ?_)
      refine ⟨trivial, fun answer _ => ?_⟩
      cases answer with
      | error e => trivial
      | ok decision =>
          cases decision with
          | handled => exact .inl ⟨by rw [hasGroup]; rfl, rfl⟩
          | declined => exact handleByKind_hands m

section Stages

variable (p : Processor)

theorem admission_aside (m : Message) : (p.admission m).Asks Request.isAside :=
  (p.admission_asks m).mono fun _ => Request.isAside_of_ofAdmission

theorem handleInner_hands (outer inner : Message) :
    (p.handleInner outer inner).Obeys rules [] Ends := by
  have rejects : ∀ typeByte e,
      (reject (α := Outcome) outer.sender outer.id typeByte e).Obeys rules [] Ends := fun _ _ =>
    aside_bind ((record_asks _ _ _ _).mono fun _ => Request.isAside_of_ofAdmission) (fun _ => trivial)
      fun _ => trivial
  unfold handleInner
  split
  · exact rejects _ _
  · exact rejects _ _
  · refine aside_bind (admission_aside p inner) (fun reason => ?_) fun _ => trivial
    cases reason with
    | some reason => trivial
    | none => exact dispatch_hands inner

theorem handleEnvelope_hands (outer : Message) (key : Key) (envelope : Envelope) :
    (p.handleEnvelope outer key envelope).Obeys rules [] Ends := by
  have commits : ∀ session, (p.endpoint.commit session).Asks Request.isAside := fun session =>
    (p.endpoint.commit_asks session).mono fun _ => Request.isAside_of_ofEndpoint
  have records : ∀ e, (record outer.sender outer.id (some outer.body.typeByte) e).Asks Request.isAside :=
    fun e => (record_asks _ _ _ _).mono fun _ => Request.isAside_of_ofAdmission
  refine aside_bind (Intake.Asks.attempt ((p.endpoint.receive_asks outer key envelope).mono fun _ =>
    Request.isAside_of_ofEndpoint)) (fun received => ?_) fun _ => trivial
  cases received with
  | error e =>
      dsimp only
      split
      · exact aside_bind (records e) (fun _ => trivial) fun _ => trivial
      · trivial
  | ok received =>
      dsimp only
      split
      · have control : Ends [] (.ok (.dropped .sessionControl)) := trivial
        exact then_aside control ((Intake.asks_host _).mpr trivial)
      · refine (Intake.obeys_bind _ _ _ _ _).mpr ((Intake.obeys_attempt _ _ _ _).mpr ?_)
        refine (handleInner_hands p outer _).mono ?_
        intro after settled ends
        dsimp only [Intake.onward]
        cases received.pending with
        | none => exact ends
        | some session =>
            cases settled with
            | ok outcome => exact then_aside ends (commits session)
            | error e =>
                dsimp only
                split
                · exact aside_bind (commits session) (fun _ => trivial) fun _ => trivial
                · trivial

theorem settle_hands (m : Message) (key : Key) : (p.settle m key).Obeys rules [] Ends := by
  unfold settle
  split
  · exact handleEnvelope_hands p _ _ _
  · refine aside_bind ((isDowngrade_asks _ _ _).mono fun _ => Request.isAside_of_ofEndpoint)
      (fun downgraded => ?_) fun _ => trivial
    cases downgraded with
    | false => exact dispatch_hands m
    | true =>
        exact aside_bind ((Intake.asks_notify _).mpr trivial) (fun _ => dispatch_hands m) fun _ => trivial

theorem handle_hands (m : Message) (key : Key) (nonce : Bytes) :
    (p.handle m key nonce).Obeys rules [] Ends := by
  rw [handle_eq]
  refine aside_bind (admission_aside p m) (fun reason => ?_) fun _ => trivial
  cases reason with
  | some reason => trivial
  | none =>
      refine aside_bind ((Intake.asks_store _).mpr trivial) (fun seen => ?_) fun _ => trivial
      cases seen with
      | true => trivial
      | false =>
          refine (Intake.obeys_bind _ _ _ _ _).mpr ((settle_hands p m key).mono ?_)
          intro after o ends
          cases o with
          | error e => trivial
          | ok outcome => exact then_aside ends ((Intake.asks_request _).mpr trivial)

theorem run_hands (boxed : Boxed) : (p.run boxed).Obeys rules [] Ends := by
  have asks : ∀ r : Request, r.isAside → (Intake.request r).Asks Request.isAside := fun r =>
    (Intake.asks_request r).mpr
  refine aside_bind ((senderKey_asks _).mono fun _ => Request.isAside_of_ofAdmission)
    (fun key => ?_) fun _ => trivial
  refine aside_bind ((p.decode_asks boxed key).mono fun _ => Request.isAside_of_ofAdmission)
    (fun m => ?_) fun _ => trivial
  refine aside_bind (asks (.enter boxed.sender) trivial) (fun _ => ?_) fun _ => trivial
  refine aside_bind (asks (.notice (.started m)) trivial) (fun _ => ?_) fun _ => trivial
  refine (Intake.obeys_bind _ _ _ _ _).mpr ((Intake.obeys_attempt _ _ _ _).mpr ?_)
  refine (handle_hands p m key _).mono ?_
  intro after o ends
  cases o with
  | error e => exact aside_bind (asks (.leave boxed.sender) trivial) (fun _ => trivial) fun _ => trivial
  | ok outcome =>
      exact aside_bind (asks (.notice (.finished m)) trivial)
        (fun _ => then_aside ends (asks (.leave boxed.sender) trivial)) fun _ => trivial

theorem process_hands (boxed : Boxed) : Script.Obeys rules (p.process boxed) [] Ends := by
  refine ⟨trivial, fun _ _ => ?_⟩
  refine (Intake.obeys_run_bind _ _ _ _ _).mpr ((run_hands p boxed).mono ?_)
  intro after o ends
  cases o with
  | ok outcome => exact ends
  | error e => exact ⟨trivial, fun _ _ => trivial⟩

end Stages

end Handover

/-- Whatever is answered, a message that was processed was either taken over by the group
processor, and then nobody is asked for its blobs, or it was handled by its kind, and then its
blobs are asked for exactly once if it has any and not at all otherwise.  What is the new photo
of a group was taken over. -/
theorem processed_handedOver (p : Processor) (boxed : Boxed) (xs : List Exchange) (m : Message)
    (reaches : Script.Reaches (p.process boxed) xs (.done (.ok (.processed m)))) :
    (m.group?.isSome = true ∧ xs.filterMap Exchange.handover = [.taken m]) ∨
      (∀ group photo, m.body ≠ .groupSetPhoto group photo) ∧
        xs.filterMap Exchange.handover = if m.needsBlobs then [.fetched m] else [] := by
  have ends := (Handover.process_hands p boxed).rest reaches
    (Rules.admitsAll_of_mem (fun _ _ _ => trivial) _)
  rwa [show Handover.rules.afterAll [] xs = [] ++ xs.filterMap Exchange.handover from
    Rules.afterAll_collecting _ _ _ _, List.nil_append] at ends

section Example

/-- A host whose group processor takes over all messages of groups. -/
def Host.grouped (key : Key) : Host Unit :=
  { Host.plain key with
    call := fun c s =>
      match c with
      | .handleGroup _ _ => (.ok .handled, s)
      | other => (Host.plain key).call other s }

def groupPhoto : Body := .groupSetPhoto (Block.zero 8) ⟨Block.zero 16, 512, Block.zero 32⟩

def photoTaken : Ran Unit ProcessResult :=
  (Setting.processor.process (Setting.boxed groupPhoto 0)).run .plain (.grouped Setting.peerKey) .plain

def isGroupPhoto : Body → Bool
  | .groupSetPhoto _ _ => true
  | _ => false

/-- A group's new photo is processed and has blobs, and nobody is asked for them. -/
theorem processed_handedOver_photo : ∃ xs m,
    Script.Reaches (Setting.processor.process (Setting.boxed groupPhoto 0)) xs
      (.done (.ok (.processed m))) ∧
    m.needsBlobs = true ∧ xs.filterMap Exchange.handover = [.taken m] := by
  have reaches : Script.Reaches (Setting.processor.process (Setting.boxed groupPhoto 0))
      photoTaken.exchanges (.done photoTaken.value) := Script.reaches_run _ _ _ _
  have isPhoto : Setting.isProcessedAs isGroupPhoto photoTaken.value = true := by decide +kernel
  obtain ⟨m, processed, isPhoto⟩ := Setting.exists_processedAs isPhoto
  rw [processed] at reaches
  cases body : m.body with
  | groupSetPhoto group photo =>
      refine ⟨_, m, reaches, by simp [Message.needsBlobs, body], ?_⟩
      rcases processed_handedOver Setting.processor _ _ _ reaches with ⟨_, taken⟩ | ⟨other, _⟩
      · exact taken
      · exact (other _ _ body).elim
  | _ =>
      rw [body] at isPhoto
      cases isPhoto

end Example

end SecureInbox
