import SecureInbox.Proofs.Message.Payload
import SecureInbox.Proofs.Rejection.Record

/-! # Messages restored from their JSON form

A body is told by its tag, which no body gives to another member, and what stands beside the tag
is read by the reader of its kind (`Body.readAs_fields`).  So a body comes back from its JSON
value in any order of members, the sorted one among them, and with it the message around it
(`json_restores`). -/
set_option autoImplicit false

namespace SecureInbox

open Json
open Json (Node)
open Json.Node (slot)

theorem Kind.ofTag?_tag (k : Kind) : ofTag? k.tag = some k := by cases k <;> decide

theorem Kind.tag_ne_unknown (k : Kind) : k.tag ≠ "unknown" := by cases k <;> decide

theorem ReceiptType.ofTag?_tag (t : ReceiptType) : ofTag? t.tag = some t := by cases t <;> decide

theorem ReactionAction.ofTag?_tag (a : ReactionAction) : ofTag? a.tag = some a := by
  cases a <;> decide

namespace Body

def place? : Body → Option Location
  | .location _ l => some l
  | _ => none

/-- The values of free form in a body. -/
def freeForms : Body → List Json
  | .ballotCreate _ _ ballot => [ballot]
  | .ballotVote _ _ _ votes => [votes]
  | .file _ f => [f]
  | .groupCallStart _ call => [call]
  | _ => []

/-- What JSON can hold of a body: its numbers are finite, and its values of free form have their
members in order, as all that are read have (`Json.Node.ascending_value?`). -/
structure IsWritable (b : Body) : Prop where
  finite : ∀ l ∈ b.place?, l.IsFinite
  ascending : ∀ v ∈ b.freeForms, v.Each Ascending

/-! ## Groups -/

section Groups

variable {α : Type} {read : Node → Option α} {a : α} {v w : Json}

theorem groupSlots?_eq {g : Option GroupRef} (record : w.IsRecord)
    (group : Option.Rel Rearranged (g.map GroupRef.toJson) (w.member? "group")) (names : List String) :
    groupSlots? g.isSome names (Node.ofValue w) =
      some (g, names.map fun name => slot (w.member? name)) := by
  cases g with
  | none => simp [groupSlots?, record.slots?]
  | some g =>
    have group := required_of_rel group g.readAs
    simp [groupSlots?, record.slots?, group]

theorem readAs_member (g : GroupRef) {name : String} (other : name ≠ "group") (back : v.ReadAs read a) :
    (Json.object [("group", g.toJson), (name, v)]).ReadAs (payload? true name read) (some g, a) := by
  intro w again
  obtain ⟨record, group, member, -⟩ := Rearranged.record [("group", some g.toJson), (name, some v)]
    again (by simp [Ne.symm other])
  have group := required_of_rel group g.readAs
  have member := required_of_rel member back
  simp [payload?, record.slots?, group, member]

theorem readAs_groupId (id : GroupId) :
    (Json.object [("group_id", hexText id)]).ReadAs groupId? id := by
  intro w again
  obtain ⟨record, held, -⟩ := Rearranged.record [("group_id", some (hexText id))] again (by simp)
  have held := required_of_rel held (readAs_hexText id)
  simp [groupId?, record.slots?, held]

theorem readAs_groupIdAnd (id : GroupId) {name : String} (other : name ≠ "group_id")
    (back : v.ReadAs read a) :
    (Json.object [("group_id", hexText id), (name, v)]).ReadAs (groupIdAnd? name read) (id, a) := by
  intro w again
  obtain ⟨record, held, member, -⟩ := Rearranged.record
    [("group_id", some (hexText id)), (name, some v)] again (by simp [Ne.symm other])
  have held := required_of_rel held (readAs_hexText id)
  have member := required_of_rel member back
  simp [groupIdAnd?, record.slots?, held, member]

end Groups

/-! ## Kinds -/

section Kinds

variable (g : Option GroupRef)

theorem readAs_text (t : String) :
    (Json.object (Body.text g t).fields).ReadAs (textOfNode? g.isSome) (.text g t) := by
  intro w again
  obtain ⟨record, group, text, -⟩ := Rearranged.record
    [("group", g.map GroupRef.toJson), ("text", some (.string t))] again (by simp)
  have text := required_of_rel text (Json.readAs_text t)
  simp [textOfNode?, groupSlots?_eq record group, text]

theorem readAs_ballot (id : BallotId) {ballot : Json} (ascending : ballot.Each Ascending) :
    (Json.object (Body.ballotCreate g id ballot).fields).ReadAs (ballotOfNode? g.isSome)
      (.ballotCreate g id ballot) := by
  intro w again
  obtain ⟨record, group, held, free, -⟩ := Rearranged.record [("group", g.map GroupRef.toJson),
    ("ballot_id", some (hexText id)), ("ballot", some ballot)] again (by simp)
  have held := required_of_rel held (readAs_hexText id)
  have free := required_of_rel free (readAs_any ascending)
  simp [ballotOfNode?, groupSlots?_eq record group, held, free]

theorem readAs_vote (creator : Identity) (id : BallotId) {votes : Json}
    (ascending : votes.Each Ascending) :
    (Json.object (Body.ballotVote g creator id votes).fields).ReadAs (voteOfNode? g.isSome)
      (.ballotVote g creator id votes) := by
  intro w again
  obtain ⟨record, group, maker, held, free, -⟩ := Rearranged.record
    [("group", g.map GroupRef.toJson), ("ballot_creator", some (Json.ofIdentity creator)),
      ("ballot_id", some (hexText id)), ("votes", some votes)] again (by simp)
  have maker := required_of_rel maker creator.readAs
  have held := required_of_rel held (readAs_hexText id)
  have free := required_of_rel free (readAs_any ascending)
  simp [voteOfNode?, groupSlots?_eq record group, maker, held, free]

theorem readAs_file {f : Json} (ascending : f.Each Ascending) :
    (Json.object (Body.file g f).fields).ReadAs (fileOfNode? g.isSome) (.file g f) := by
  intro w again
  obtain ⟨record, group, free, -⟩ := Rearranged.record
    [("group", g.map GroupRef.toJson), ("file", some f)] again (by simp)
  have free := required_of_rel free (readAs_any ascending)
  simp [fileOfNode?, groupSlots?_eq record group, free]

theorem readAs_receipt (type : ReceiptType) (ids : List MessageId) :
    (Json.object (Body.receipt g type ids).fields).ReadAs (receiptOfNode? g.isSome)
      (.receipt g type ids) := by
  intro w again
  obtain ⟨record, group, kind, held, -⟩ := Rearranged.record
    [("group", g.map GroupRef.toJson), ("receipt_type", some (.string type.tag)),
      ("message_ids", some (.array (ids.map hexText)))] again (by simp)
  have kind := required_of_rel kind (readAs_choice true type.ofTag?_tag)
  have held := required_of_rel held (readAs_list fun id _ => readAs_hexText id)
  simp [receiptOfNode?, groupSlots?_eq record group, kind, held]

theorem readAs_reaction (id : MessageId) (action : ReactionAction) (emoji : String) :
    (Json.object (Body.reaction g id action emoji).fields).ReadAs (reactionOfNode? g.isSome)
      (.reaction g id action emoji) := by
  intro w again
  obtain ⟨record, group, held, deed, sign, -⟩ := Rearranged.record
    [("group", g.map GroupRef.toJson), ("message_id", some (hexText id)),
      ("action", some (.string action.tag)), ("emoji", some (.string emoji))] again (by simp)
  have held := required_of_rel held (readAs_hexText id)
  have deed := required_of_rel deed (readAs_choice true action.ofTag?_tag)
  have sign := required_of_rel sign (Json.readAs_text emoji)
  simp [reactionOfNode?, groupSlots?_eq record group, held, deed, sign]

theorem readAs_edit (id : MessageId) (t : String) :
    (Json.object (Body.edit g id t).fields).ReadAs (editOfNode? g.isSome) (.edit g id t) := by
  intro w again
  obtain ⟨record, group, held, text, -⟩ := Rearranged.record [("group", g.map GroupRef.toJson),
    ("message_id", some (hexText id)), ("text", some (.string t))] again (by simp)
  have held := required_of_rel held (readAs_hexText id)
  have text := required_of_rel text (Json.readAs_text t)
  simp [editOfNode?, groupSlots?_eq record group, held, text]

theorem readAs_delete (id : MessageId) :
    (Json.object (Body.delete g id).fields).ReadAs (deleteOfNode? g.isSome) (.delete g id) := by
  intro w again
  obtain ⟨record, group, held, -⟩ := Rearranged.record
    [("group", g.map GroupRef.toJson), ("message_id", some (hexText id))] again (by simp)
  have held := required_of_rel held (readAs_hexText id)
  simp [deleteOfNode?, groupSlots?_eq record group, held]

end Kinds

theorem readAs_unknown (b : UInt8) (bytes : Bytes) :
    (Json.object (Body.unknown b bytes).fields).ReadAs unknownOfNode? (.unknown b bytes) := by
  intro w again
  obtain ⟨record, held, content, -⟩ := Rearranged.record [("type_byte", some (Json.ofNat b.toNat)),
    ("body", some (.string (Hex.encode bytes)))] again (by simp)
  have held := required_of_rel held (readAs_byte b)
  have content : (slot (w.member? "body")).required (fun node => node.text?.bind Hex.decode?) =
      some bytes := required_of_rel content (.of_leaf trivial (Hex.decode?_encode bytes))
  simp [unknownOfNode?, record.slots?, held, content]

theorem readAs_bare (b : Body) : (Json.object []).ReadAs (bare? b) b := by
  intro w again
  obtain ⟨same, ns, rfl, held, perm⟩ := again.members
  rfl

theorem readAs_typing (active : Bool) :
    (Json.object (Body.typing active).fields).ReadAs (ofKind? .typingIndicator) (.typing active) := by
  intro w again
  obtain ⟨record, held, -⟩ := Rearranged.record [("typing", some (.bool active))] again (by simp)
  have held := required_of_rel held (readAs_flag active)
  simp [ofKind?, record.slots?, held]

theorem readAs_token (token : String) :
    (Json.object (Body.authToken token).fields).ReadAs (ofKind? .authToken) (.authToken token) := by
  intro w again
  obtain ⟨record, held, -⟩ := Rearranged.record [("token", some (.string token))] again (by simp)
  have held := required_of_rel held (Json.readAs_text token)
  simp [ofKind?, record.slots?, held]

theorem readAs_leave (g : GroupRef) :
    (Json.object (Body.groupLeave g).fields).ReadAs (ofKind? .groupLeave) (.groupLeave g) := by
  intro w again
  obtain ⟨record, held, -⟩ := Rearranged.record [("group", some g.toJson)] again (by simp)
  have held := required_of_rel held g.readAs
  simp [ofKind?, record.slots?, held]

/-- A body is read by the reader of its kind from what stands beside its tag. -/
theorem readAs_fields {b : Body} (writable : b.IsWritable) {kind : Kind} (known : b.kind? = some kind) :
    (Json.object b.fields).ReadAs (ofKind? kind) b := by
  cases b with
  | text g t => cases g <;> cases known <;> exact readAs_text _ t
  | image i =>
    cases known
    exact i.readAs.map Body.image
  | groupImage g i =>
    cases known
    intro w again
    have held := readAs_member g (by decide : "image" ≠ "group") i.readAs w again
    simp [ofKind?, held]
  | location g l =>
    have place := Location.readAs (writable.finite l rfl)
    cases g with
    | none =>
      cases known
      exact place.map (Body.location none)
    | some g =>
      cases known
      exact (readAs_member g (by decide) place).map fun r => Body.location r.1 r.2
  | video g v =>
    cases g with
    | none =>
      cases known
      exact v.readAs.map (Body.video none)
    | some g =>
      cases known
      exact (readAs_member g (by decide) v.readAs).map fun r => Body.video r.1 r.2
  | audio g a =>
    cases g with
    | none =>
      cases known
      exact a.readAs.map (Body.audio none)
    | some g =>
      cases known
      exact (readAs_member g (by decide) a.readAs).map fun r => Body.audio r.1 r.2
  | ballotCreate g id ballot =>
    cases g <;> cases known <;> exact readAs_ballot _ id (writable.ascending ballot (.head _))
  | ballotVote g creator id votes =>
    cases g <;> cases known <;> exact readAs_vote _ creator id (writable.ascending votes (.head _))
  | file g f => cases g <;> cases known <;> exact readAs_file _ (writable.ascending f (.head _))
  | contactSetPhoto p =>
    cases known
    exact p.readAs.map Body.contactSetPhoto
  | contactDeletePhoto =>
    cases known
    exact readAs_bare _
  | contactRequestPhoto =>
    cases known
    exact readAs_bare _
  | groupCreate id members =>
    cases known
    exact (readAs_groupIdAnd id (by decide) (readAs_list fun i _ => i.readAs)).map _
  | groupRename id name =>
    cases known
    exact (readAs_groupIdAnd id (by decide) (Json.readAs_text name)).map _
  | groupLeave g =>
    cases known
    exact readAs_leave g
  | groupCallStart g call =>
    cases known
    intro w again
    have free := readAs_any (writable.ascending call (.head _))
    have held := readAs_member g (by decide : "call" ≠ "group") free w again
    simp [ofKind?, held]
  | groupSetPhoto id p =>
    cases known
    exact (readAs_groupIdAnd id (by decide) p.readAs).map _
  | groupRequestSync id =>
    cases known
    exact (readAs_groupId id).map Body.groupRequestSync
  | groupDeletePhoto id =>
    cases known
    exact (readAs_groupId id).map Body.groupDeletePhoto
  | callOffer c =>
    cases known
    exact c.readAs.map Body.callOffer
  | callAnswer c =>
    cases known
    exact c.readAs.map Body.callAnswer
  | callCandidates c =>
    cases known
    exact c.readAs.map Body.callCandidates
  | callHangup c =>
    cases known
    exact c.readAs.map Body.callHangup
  | callRinging c =>
    cases known
    exact c.readAs.map Body.callRinging
  | receipt g type ids => cases g <;> cases known <;> exact readAs_receipt _ type ids
  | reaction g id action emoji => cases g <;> cases known <;> exact readAs_reaction _ id action emoji
  | typing active =>
    cases known
    exact readAs_typing active
  | edit g id t => cases g <;> cases known <;> exact readAs_edit _ id t
  | delete g id => cases g <;> cases known <;> exact readAs_delete _ id
  | envelope e =>
    cases known
    exact (e.readAs true).map Body.envelope
  | empty =>
    cases known
    exact readAs_bare _
  | authToken token =>
    cases known
    exact readAs_token token
  | unknown b bytes => cases known

/-- The names in a body are all different, that of its tag among them. -/
theorem distinct {b : Body} (writable : b.IsWritable) : b.toJson.Each Distinct := by
  have free : ∀ v ∈ b.freeForms, v.Each Distinct := fun v mem =>
    (writable.ascending v mem).mono fun _ => Ascending.distinct
  have group := GroupRef.distinct
  cases b with
  | text g _ | receipt g _ _ | reaction g _ _ _ | edit g _ _ | delete g _ =>
    cases g <;> simp [toJson, fields, groupMember, optionalMember, group]
  | ballotCreate g _ _ | ballotVote g _ _ _ | file g _ =>
    have held := free _ (.head _)
    cases g <;> simp [toJson, fields, groupMember, optionalMember, group, held]
  | groupCallStart g _ =>
    have held := free _ (.head _)
    simp [toJson, fields, group, held]
  | location g l =>
    obtain ⟨latitude, longitude, accuracy, name, address⟩ := l
    cases g <;> cases accuracy <;> cases name <;> cases address <;>
      simp [toJson, fields, placedFields, Location.fields, optionalMember, group]
  | video g _ | audio g _ =>
    cases g <;> simp [toJson, fields, placedFields, Video.fields, Audio.fields, group]
  | callOffer c =>
    obtain ⟨callId, offer⟩ := c
    cases callId <;> simp [toJson, fields, CallOffer.fields, optionalMember, offer.distinct]
  | callAnswer c =>
    obtain ⟨callId, action, answer, reason⟩ := c
    cases callId <;> cases answer <;> cases reason <;>
      simp [toJson, fields, CallAnswer.fields, optionalMember, SessionDescription.distinct]
  | callCandidates c =>
    obtain ⟨callId, removed, candidates⟩ := c
    cases callId <;> simp [toJson, fields, CallCandidates.fields, optionalMember, Candidate.distinct]
  | callHangup c | callRinging c =>
    obtain ⟨callId⟩ := c
    cases callId <;> simp [toJson, fields, CallRef.fields, optionalMember]
  | image _ | contactSetPhoto _ | groupImage _ _ | groupSetPhoto _ _ =>
    simp [toJson, fields, Image.fields, BlobRef.fields, group]
  | envelope e => simp [toJson, fields, Envelope.fields, Frame.distinct]
  | _ => simp [toJson, fields, group]

theorem readAs {b : Body} (writable : b.IsWritable) : b.toJson.ReadAs ofNode? b := by
  intro w again
  obtain ⟨rest, beside, tagged⟩ := again.tagged? (List.nodup_cons.1 (distinct writable).1).1
  rw [ofNode?, tagged]
  cases known : b.kind? with
  | some kind =>
    have tag : b.tagText = kind.tag := by
      rw [tagText, known]
      rfl
    have read := readAs_fields writable known rest beside
    simp [tag, Node.text?, kind.tag_ne_unknown, kind.ofTag?_tag, read]
  | none =>
    cases b with
    | unknown b bytes =>
      simpa [tagText, kind?, Node.text?] using readAs_unknown b bytes rest beside
    | _ => cases known

end Body

/-! ## Messages -/

namespace Message

theorem distinct {m : Message} (writable : m.body.IsWritable) : m.toJson.Each Distinct := by
  have body := Body.distinct writable
  obtain ⟨id, sender, receiver, date, flags, name, content⟩ := m
  cases name <;> simp [toJson, optionalMember, body]

def entries (m : Message) : List (String × Option Json) :=
  [("message_id", some (hexText m.id)), ("from_identity", some (Json.ofIdentity m.sender)),
    ("to_identity", some (Json.ofIdentity m.receiver)), ("date", some (.string m.date.text)),
    ("flags", some (Json.ofNat m.flags.bits.toNat)), ("push_from_name", m.name.map .string),
    ("body", some m.body.toJson)]

theorem toJson_eq (m : Message) : m.toJson = .object (membersOf m.entries) := by
  simp [toJson, membersOf, entries, optionalMember]

/-- A body fits the room that is left inside the message around it. -/
theorem required_body {b : Body} (writable : b.IsWritable) {w : Json}
    (held : Option.Rel Rearranged (some b.toJson) (w.member? "body")) :
    (slot (w.member? "body")).required (Body.ofNodeWithin? ((Node.ofValue w).room - 1)) = some b := by
  cases found : w.member? "body" with
  | none =>
    rw [found] at held
    cases held
  | some v =>
    rw [found] at held
    cases held with
    | some again =>
      have sound : (Node.ofValue v).isSound ((Node.ofValue w).room - 1) = true :=
        Node.isSound_ofValue (Node.depth_ofValue_of_member? found)
      show Body.ofNodeWithin? _ (Node.ofValue v) = some b
      rw [Body.ofNodeWithin?, if_pos sound]
      exact Body.readAs writable v again

theorem ofJson?_rearranged {m : Message} (writable : m.body.IsWritable) (date : m.date.InCalendar)
    {w : Json} (again : m.toJson.Rearranged w) : ofJson? w = some m := by
  rw [toJson_eq] at again
  obtain ⟨record, id, sender, receiver, time, flags, name, body, -⟩ :=
    Rearranged.record m.entries again (by simp [entries])
  have id := required_of_rel id (readAs_hexText m.id)
  have sender := required_of_rel sender m.sender.readAs
  have receiver := required_of_rel receiver m.receiver.readAs
  have time := required_of_rel time (.of_leaf trivial (Record.instant?_text date))
  have flags := required_of_rel flags (readAs_byte m.flags.bits)
  have name := optional_of_rel name (fun s _ => readAs_text s) rfl
  have body := required_body writable body
  simp [ofJson?, ofNodeWithin?, record.slots?, id, sender, receiver, time, flags, name, body]

end Message

theorem Instant.inCalendar_ofSeconds {s : Nat} (word : s < 2 ^ 32) : (ofSeconds s).InCalendar := by
  have first : daysOfDate (-262143) 1 1 * 86400 ≤ 0 := by decide
  have last : (2 ^ 32 : Int) ≤ daysOfDate 262143 1 1 * 86400 := by decide
  have within : daysOfDate (-262143) 1 1 * 86400 ≤ (s : Int) ∧
      (s : Int) < daysOfDate 262143 1 1 * 86400 := by omega
  refine ⟨?_, .inl (by decide : 0 < 1000000000)⟩
  rw [inRange, Bool.and_eq_true, decide_eq_true_eq, decide_eq_true_eq]
  exact within

/-- Nothing is lost in the JSON form.  A body with finite numbers is what its JSON value stands
for, with the members sorted or in any other order; so is a message with such a body, sent in a
whole second that the wire can tell. -/
theorem json_restores :
    (∀ b : Body, b.IsWritable → Body.ofJson? b.toJson.sorted = some b ∧
      ∀ w, b.toJson.Rearranged w → Body.ofJson? w = some b) ∧
    ∀ m : Message, m.body.IsWritable → (∃ s : Nat, s < 2 ^ 32 ∧ m.date = Instant.ofSeconds s) →
      Message.ofJson? m.toJson.sorted = some m ∧
        ∀ w, m.toJson.Rearranged w → Message.ofJson? w = some m := by
  refine ⟨fun b writable => ?_, fun m writable => ?_⟩
  · have restored : ∀ w, b.toJson.Rearranged w → Body.ofJson? w = some b := Body.readAs writable
    exact ⟨restored _ (rearranged_sorted (Body.distinct writable)), restored⟩
  · rintro ⟨s, word, date⟩
    have calendar : m.date.InCalendar := date ▸ Instant.inCalendar_ofSeconds word
    have restored : ∀ w, m.toJson.Rearranged w → Message.ofJson? w = some m := fun _ =>
      Message.ofJson?_rearranged writable calendar
    exact ⟨restored _ (rearranged_sorted (Message.distinct writable)), restored⟩

section Example

def exampleCreator : Identity := ⟨⟨[0x41, 0x42, 0x43, 0x44, 0x45, 0x46, 0x47, 0x2A], rfl⟩, rfl⟩

def examplePlace : Body :=
  .location (some ⟨Block.ofNat 8 7, exampleCreator⟩)
    ⟨⟨0x4047AE147AE147AE⟩, ⟨0x8000000000000000⟩, some ⟨0x3FF8000000000000⟩, some "pier", none⟩

def exampleFile : Json :=
  .object [("d", .array [.null, .object [("a", .bool true), ("b", .ofNat 2)]]), ("n", .string "report")]

theorem ascending_exampleFile : exampleFile.Each Ascending := by
  have outer : Ascending [("d", .array [.null, .object [("a", .bool true), ("b", .ofNat 2)]]),
    ("n", .string "report")] := by decide
  have inner : Ascending [("a", .bool true), ("b", .ofNat 2)] := by decide
  exact ⟨outer, ⟨trivial, ⟨inner, trivial, trivial, trivial⟩, trivial⟩, trivial, trivial⟩

def exampleFiling : Message where
  id := Block.ofNat 8 1
  sender := exampleCreator
  receiver := exampleCreator
  date := Instant.ofSeconds 4294967295
  flags := ⟨0x11⟩
  name := some "Ada"
  body := .file none exampleFile

theorem json_restores_example :
    (examplePlace.IsWritable ∧ Body.ofJson? examplePlace.toJson.sorted = some examplePlace) ∧
    exampleFiling.body.IsWritable ∧ exampleFiling.date = Instant.ofSeconds (4294967295 : Nat) ∧
      Message.ofJson? exampleFiling.toJson.sorted = some exampleFiling := by
  have place : examplePlace.IsWritable := by
    refine ⟨?_, nofun⟩
    rintro l ⟨⟩
    exact ⟨by decide, by decide, by rintro x ⟨⟩; decide⟩
  have filing : exampleFiling.body.IsWritable :=
    ⟨nofun, List.forall_mem_singleton.2 ascending_exampleFile⟩
  exact ⟨⟨place, (json_restores.1 examplePlace place).1⟩, filing, rfl,
    (json_restores.2 exampleFiling filing ⟨4294967295, by decide, rfl⟩).1⟩

end Example

end SecureInbox
