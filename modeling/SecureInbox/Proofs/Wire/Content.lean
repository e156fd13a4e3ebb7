import SecureInbox.Proofs.Message.Call
import SecureInbox.Proofs.Wire.Body
import SecureInbox.Proofs.Wire.Reader

/-! # Bodies read back

What the reader of a kind accepts is what a body of that kind is written as.  It takes every
body that is legible from its own bytes (`Body.read_content`), and where the layout of a
kind is fixed, or ends with the bytes, what it takes is written back as the same bytes
(`Body.written_of_read`).  So bodies survive being written and read (`Body.decode_of_encode`), and
bodies that were read are written in one way only (`Body.decode_canonical`). -/
set_option autoImplicit false

namespace SecureInbox

theorem ReceiptType.ofByte?_eq_some {b : UInt8} {t : ReceiptType} :
    ofByte? b = some t ↔ b = t.byte :=
  find?_byte_eq_some ofByte?_byte

theorem ReactionAction.ofByte?_eq_some {b : UInt8} {a : ReactionAction} :
    ofByte? b = some a ↔ b = a.byte :=
  find?_byte_eq_some ofByte?_byte

/-- Where a body ends: behind its last field, with the bytes, or behind a flag; or it is a text
that can be written in several ways, or bytes with a codec of their own. -/
inductive Layout where
  | fields
  | whole
  | flag
  | free
deriving DecidableEq

def Kind.layout : Kind → Layout
  | .text | .groupText | .edit | .groupEdit | .groupRename | .reaction | .groupReaction
  | .authToken | .deliveryReceipt | .groupDeliveryReceipt | .groupCreate => .whole
  | .typingIndicator => .flag
  | .location | .groupLocation | .forwardSecurity | .ballotCreate | .ballotVote | .file
  | .groupFile | .groupCallStart | .groupBallotCreate | .groupBallotVote | .voipCallOffer
  | .voipCallAnswer | .voipCallIceCandidate | .voipCallHangup | .voipCallRinging => .free
  | _ => .fields

namespace Body

open Reader (bind_ok give_eq_ok)

variable {bytes rest : Bytes} {inGroup : Bool} {m : Body}

/-! ## The parts of a body -/

theorem blobReader_eq_ok {b : BlobRef} :
    blobReader bytes = .ok (b, rest) ↔ bytes = blobBytes b ++ rest := by
  simp only [blobReader, Reader.bind_eq_ok, Reader.block_eq_ok, Reader.word32_eq_ok,
    Reader.pure_eq_ok, blobBytes, List.append_assoc]
  constructor
  · rintro ⟨_, _, rfl, _, _, rfl, _, _, rfl, rfl, rfl⟩
    rfl
  · rintro rfl
    exact ⟨_, _, rfl, _, _, rfl, _, _, rfl, rfl, rfl⟩

theorem imageReader_eq_ok {i : Image} :
    imageReader bytes = .ok (i, rest) ↔ bytes = imageBytes i ++ rest := by
  simp only [imageReader, Reader.bind_eq_ok, Reader.block_eq_ok, Reader.word32_eq_ok,
    Reader.pure_eq_ok, imageBytes, List.append_assoc]
  constructor
  · rintro ⟨_, _, rfl, _, _, rfl, _, _, rfl, rfl, rfl⟩
    rfl
  · rintro rfl
    exact ⟨_, _, rfl, _, _, rfl, _, _, rfl, rfl, rfl⟩

theorem videoReader_eq_ok {v : Video} :
    videoReader bytes = .ok (v, rest) ↔ bytes = videoBytes v ++ rest := by
  simp only [videoReader, Reader.bind_eq_ok, Reader.block_eq_ok, Reader.word16_eq_ok,
    Reader.word32_eq_ok, Reader.pure_eq_ok, videoBytes, List.append_assoc]
  constructor
  · rintro ⟨_, _, rfl, _, _, rfl, _, _, rfl, _, _, rfl, _, _, rfl, _, _, rfl, rfl, rfl⟩
    rfl
  · rintro rfl
    exact ⟨_, _, rfl, _, _, rfl, _, _, rfl, _, _, rfl, _, _, rfl, _, _, rfl, rfl, rfl⟩

theorem audioReader_eq_ok {a : Audio} :
    audioReader bytes = .ok (a, rest) ↔ bytes = audioBytes a ++ rest := by
  simp only [audioReader, Reader.bind_eq_ok, Reader.block_eq_ok, Reader.word16_eq_ok,
    Reader.word32_eq_ok, Reader.pure_eq_ok, audioBytes, List.append_assoc]
  constructor
  · rintro ⟨_, _, rfl, _, _, rfl, _, _, rfl, _, _, rfl, rfl, rfl⟩
    rfl
  · rintro rfl
    exact ⟨_, _, rfl, _, _, rfl, _, _, rfl, _, _, rfl, rfl, rfl⟩

theorem groupReader_eq_ok {g : Option GroupRef} :
    groupReader inGroup bytes = .ok (g, rest) ↔
      g.isSome = inGroup ∧ bytes = groupBytes g ++ rest := by
  cases inGroup with
  | false =>
    show (pure none : Reader (Option GroupRef)) bytes = _ ↔ _
    rw [Reader.pure_eq_ok]
    cases g <;> simp [groupBytes]
  | true =>
    show (Reader.group >>= fun g => pure (some g)) bytes = _ ↔ _
    simp only [Reader.bind_eq_ok, Reader.group_eq_ok, Reader.pure_eq_ok]
    cases g with
    | none => simp
    | some g => simp [groupBytes]

theorem textReader_eq_ok : textReader inGroup bytes = .ok (m, rest) ↔
    ∃ g t, m = .text g t ∧ g.isSome = inGroup ∧ bytes = m.content ∧ rest = [] := by
  simp only [textReader, Reader.bind_eq_ok, groupReader_eq_ok, Reader.text_eq_ok, Reader.pure_eq_ok]
  constructor
  · rintro ⟨g, _, ⟨placed, rfl⟩, t, _, ⟨rfl, rfl⟩, rfl, rfl⟩
    exact ⟨g, t, rfl, placed, rfl, rfl⟩
  · rintro ⟨g, t, rfl, placed, rfl, rfl⟩
    exact ⟨g, _, ⟨placed, rfl⟩, t, _, ⟨rfl, rfl⟩, rfl, rfl⟩

theorem identities_eq_ok {ids : List (Block 8)} {members : List Identity} :
    (ids.mapM fun b => (liftM (Reader.toIdentity b.bytes) : Reader Identity)) bytes =
      .ok (members, rest) ↔ ids = members.map Identity.handle ∧ bytes = rest := by
  induction ids generalizing members bytes rest with
  | nil =>
    simp only [List.mapM_nil, Reader.pure_eq_ok]
    cases members <;> simp
  | cons id more ih =>
    simp only [List.mapM_cons, Reader.bind_eq_ok, Reader.lift_eq_ok, Reader.toIdentity_eq_ok,
      Reader.pure_eq_ok, ih]
    constructor
    · rintro ⟨i, _, ⟨same, rfl⟩, others, _, ⟨rfl, rfl⟩, rfl, rfl⟩
      exact ⟨congrArg (· :: _) (Block.ext_bytes same), rfl⟩
    · rintro ⟨same, rfl⟩
      cases members with
      | nil => cases same
      | cons i others =>
        obtain ⟨rfl, rfl⟩ := List.cons.inj same
        exact ⟨i, _, ⟨rfl, rfl⟩, others, _, ⟨rfl, rfl⟩, rfl, rfl⟩

theorem membersReader_eq_ok {members : List Identity} :
    membersReader bytes = .ok (members, rest) ↔
      bytes = members.flatMap Identity.bytes ∧ rest = [] := by
  have handles : (members.map Identity.handle).flatMap Block.bytes =
      members.flatMap Identity.bytes := List.flatMap_map ..
  simp only [membersReader, Reader.bind_eq_ok, Reader.pieces_eq_ok, identities_eq_ok]
  constructor
  · rintro ⟨_, _, ⟨rfl, rfl⟩, rfl, rfl⟩
    exact ⟨handles, rfl⟩
  · rintro ⟨rfl, rfl⟩
    exact ⟨_, _, ⟨handles.symm, rfl⟩, rfl, rfl⟩

theorem receiptReader_eq_ok : receiptReader inGroup bytes = .ok (m, rest) ↔
    ∃ g type ids, m = .receipt g type ids ∧ g.isSome = inGroup ∧ bytes = m.content ∧ rest = [] := by
  simp only [receiptReader, Reader.bind_eq_ok, groupReader_eq_ok, Reader.coded_eq_ok,
    ReceiptType.ofByte?_eq_some, Reader.pieces_eq_ok, Reader.pure_eq_ok]
  constructor
  · rintro ⟨g, _, ⟨placed, rfl⟩, type, _, ⟨_, rfl, rfl⟩, ids, _, ⟨rfl, rfl⟩, rfl, rfl⟩
    exact ⟨g, type, ids, rfl, placed, rfl, rfl⟩
  · rintro ⟨g, type, ids, rfl, placed, rfl, rfl⟩
    exact ⟨g, _, ⟨placed, rfl⟩, type, _, ⟨_, rfl, rfl⟩, ids, _, ⟨rfl, rfl⟩, rfl, rfl⟩

theorem reactionReader_eq_ok : reactionReader inGroup bytes = .ok (m, rest) ↔
    ∃ g id action emoji, m = .reaction g id action emoji ∧ g.isSome = inGroup ∧
      bytes = m.content ∧ rest = [] := by
  simp only [reactionReader, messageIdReader, Reader.bind_eq_ok, groupReader_eq_ok,
    Reader.block_eq_ok, Reader.coded_eq_ok, ReactionAction.ofByte?_eq_some, Reader.text_eq_ok,
    Reader.pure_eq_ok]
  constructor
  · rintro ⟨g, _, ⟨placed, rfl⟩, id, _, rfl, action, _, ⟨_, rfl, rfl⟩, emoji, _, ⟨rfl, rfl⟩,
      rfl, rfl⟩
    exact ⟨g, id, action, emoji, rfl, placed, (List.append_assoc ..).symm, rfl⟩
  · rintro ⟨g, id, action, emoji, rfl, placed, rfl, rfl⟩
    exact ⟨g, _, ⟨placed, List.append_assoc ..⟩, id, _, rfl, action, _, ⟨_, rfl, rfl⟩, emoji, _,
      ⟨rfl, rfl⟩, rfl, rfl⟩

theorem editReader_eq_ok : editReader inGroup bytes = .ok (m, rest) ↔
    ∃ g id t, m = .edit g id t ∧ g.isSome = inGroup ∧ bytes = m.content ∧ rest = [] := by
  simp only [editReader, messageIdReader, Reader.bind_eq_ok, groupReader_eq_ok,
    Reader.block_eq_ok, Reader.text_eq_ok, Reader.pure_eq_ok]
  constructor
  · rintro ⟨g, _, ⟨placed, rfl⟩, id, _, rfl, t, _, ⟨rfl, rfl⟩, rfl, rfl⟩
    exact ⟨g, id, t, rfl, placed, (List.append_assoc ..).symm, rfl⟩
  · rintro ⟨g, id, t, rfl, placed, rfl, rfl⟩
    exact ⟨g, _, ⟨placed, List.append_assoc ..⟩, id, _, rfl, t, _, ⟨rfl, rfl⟩, rfl, rfl⟩

theorem deleteReader_eq_ok : deleteReader inGroup bytes = .ok (m, rest) ↔
    ∃ g id, m = .delete g id ∧ g.isSome = inGroup ∧ bytes = m.content ++ rest := by
  simp only [deleteReader, messageIdReader, Reader.bind_eq_ok, groupReader_eq_ok,
    Reader.block_eq_ok, Reader.pure_eq_ok]
  constructor
  · rintro ⟨g, _, ⟨placed, rfl⟩, id, _, rfl, rfl, rfl⟩
    exact ⟨g, id, rfl, placed, (List.append_assoc ..).symm⟩
  · rintro ⟨g, id, rfl, placed, rfl⟩
    exact ⟨g, _, ⟨placed, List.append_assoc ..⟩, id, _, rfl, rfl, rfl⟩

/-! ## Bodies that are written and read -/

theorem valueReader_eq_ok {v : Json} :
    valueReader bytes = .ok (v, rest) ↔ Json.parse? bytes = some v ∧ rest = [] :=
  Reader.json_eq_ok

def freeValue? : Body → Option Json
  | .ballotCreate _ _ v => some v
  | .ballotVote _ _ _ v => some v
  | .file _ v => some v
  | .groupCallStart _ v => some v
  | _ => none

/-- A body whose bytes say what it is: no place, no envelope, no type byte that stands for
another kind, and no JSON value that its text does not give back. -/
def IsLegible : Body → Prop
  | .location _ _ | .envelope _ => False
  | .unknown t _ => Kind.ofByte? t = none
  | m => ∀ v, m.freeValue? = some v → Json.parse? (jsonBytes v) = some v

theorem read_content {k : Kind} (kind : m.kind? = some k) (legible : m.IsLegible) :
    reader k m.content = .ok (m, []) := by
  cases m with
  | text g t =>
    cases g <;>
    · obtain rfl := Option.some.inj kind
      exact textReader_eq_ok.2 ⟨_, t, rfl, rfl, rfl, rfl⟩
  | image i =>
    obtain rfl := Option.some.inj kind
    exact bind_ok (imageReader_eq_ok.2 (List.append_nil _).symm) rfl
  | groupImage g i =>
    obtain rfl := Option.some.inj kind
    exact bind_ok (Reader.group_eq_ok.2 rfl)
      (bind_ok (blobReader_eq_ok.2 (List.append_nil _).symm) rfl)
  | location g l => cases legible
  | video g v =>
    have fields := videoReader_eq_ok.2 (List.append_nil (videoBytes v)).symm
    cases g with
    | none =>
      obtain rfl := Option.some.inj kind
      exact bind_ok fields rfl
    | some g =>
      obtain rfl := Option.some.inj kind
      exact bind_ok (Reader.group_eq_ok.2 rfl) (bind_ok fields rfl)
  | audio g a =>
    have fields := audioReader_eq_ok.2 (List.append_nil (audioBytes a)).symm
    cases g with
    | none =>
      obtain rfl := Option.some.inj kind
      exact bind_ok fields rfl
    | some g =>
      obtain rfl := Option.some.inj kind
      exact bind_ok (Reader.group_eq_ok.2 rfl) (bind_ok fields rfl)
  | ballotCreate g id v =>
    have value := valueReader_eq_ok.2 ⟨legible v rfl, rfl⟩
    cases g <;>
    · obtain rfl := Option.some.inj kind
      exact bind_ok (groupReader_eq_ok.2 ⟨rfl, List.append_assoc ..⟩)
        (bind_ok (Reader.block_eq_ok.2 rfl) (bind_ok value rfl))
  | ballotVote g creator id v =>
    have value := valueReader_eq_ok.2 ⟨legible v rfl, rfl⟩
    have layout : content (.ballotVote g creator id v) =
        groupBytes g ++ (creator.bytes ++ (id.bytes ++ jsonBytes v)) := by
      simp [content]
    cases g <;>
    · obtain rfl := Option.some.inj kind
      rw [layout]
      exact bind_ok (groupReader_eq_ok.2 ⟨rfl, rfl⟩) (bind_ok (Reader.identity_eq_ok.2 rfl)
        (bind_ok (Reader.block_eq_ok.2 rfl) (bind_ok value rfl)))
  | file g v =>
    have value := valueReader_eq_ok.2 ⟨legible v rfl, rfl⟩
    cases g with
    | none =>
      obtain rfl := Option.some.inj kind
      exact bind_ok value rfl
    | some g =>
      obtain rfl := Option.some.inj kind
      exact bind_ok (Reader.group_eq_ok.2 rfl) (bind_ok value rfl)
  | contactSetPhoto p =>
    obtain rfl := Option.some.inj kind
    exact bind_ok (blobReader_eq_ok.2 (List.append_nil _).symm) rfl
  | contactDeletePhoto | contactRequestPhoto | empty =>
    obtain rfl := Option.some.inj kind
    rfl
  | groupCreate id members =>
    obtain rfl := Option.some.inj kind
    exact bind_ok (Reader.block_eq_ok.2 rfl) (bind_ok (membersReader_eq_ok.2 ⟨rfl, rfl⟩) rfl)
  | groupRename id name =>
    obtain rfl := Option.some.inj kind
    exact bind_ok (Reader.block_eq_ok.2 rfl) (bind_ok (Reader.text_eq_ok.2 ⟨rfl, rfl⟩) rfl)
  | groupLeave g =>
    obtain rfl := Option.some.inj kind
    exact bind_ok (Reader.group_eq_ok.2 (List.append_nil _).symm) rfl
  | groupCallStart g v =>
    obtain rfl := Option.some.inj kind
    exact bind_ok (Reader.group_eq_ok.2 rfl)
      (bind_ok (valueReader_eq_ok.2 ⟨legible v rfl, rfl⟩) rfl)
  | groupSetPhoto id p =>
    obtain rfl := Option.some.inj kind
    exact bind_ok (Reader.block_eq_ok.2 rfl)
      (bind_ok (blobReader_eq_ok.2 (List.append_nil _).symm) rfl)
  | groupRequestSync id | groupDeletePhoto id =>
    obtain rfl := Option.some.inj kind
    exact bind_ok (Reader.block_eq_ok.2 (List.append_nil _).symm) rfl
  | callOffer c =>
    obtain rfl := Option.some.inj kind
    exact bind_ok (Reader.json_eq_ok.2 ⟨CallOffer.readsBack.parse? c, rfl⟩) rfl
  | callAnswer c =>
    obtain rfl := Option.some.inj kind
    exact bind_ok (Reader.json_eq_ok.2 ⟨CallAnswer.readsBack.parse? c, rfl⟩) rfl
  | callCandidates c =>
    obtain rfl := Option.some.inj kind
    exact bind_ok (Reader.json_eq_ok.2 ⟨CallCandidates.readsBack.parse? c, rfl⟩) rfl
  | callHangup c | callRinging c =>
    obtain rfl := Option.some.inj kind
    exact bind_ok (Reader.json_eq_ok.2 ⟨CallRef.readsBack.parse? c, rfl⟩) rfl
  | receipt g type ids =>
    cases g <;>
    · obtain rfl := Option.some.inj kind
      exact receiptReader_eq_ok.2 ⟨_, type, ids, rfl, rfl, rfl, rfl⟩
  | reaction g id action emoji =>
    cases g <;>
    · obtain rfl := Option.some.inj kind
      exact reactionReader_eq_ok.2 ⟨_, id, action, emoji, rfl, rfl, rfl, rfl⟩
  | typing active =>
    obtain rfl := Option.some.inj kind
    cases active <;> rfl
  | edit g id t =>
    cases g <;>
    · obtain rfl := Option.some.inj kind
      exact editReader_eq_ok.2 ⟨_, id, t, rfl, rfl, rfl, rfl⟩
  | delete g id =>
    cases g <;>
    · obtain rfl := Option.some.inj kind
      exact deleteReader_eq_ok.2 ⟨_, id, rfl, rfl, (List.append_nil _).symm⟩
  | envelope e => cases legible
  | authToken token =>
    obtain rfl := Option.some.inj kind
    exact bind_ok (Reader.text_eq_ok.2 ⟨rfl, rfl⟩) rfl
  | unknown t bytes => cases kind

/-- Bodies of fixed layout have their fields in front, and those without an end of their own
are all that there is. -/
theorem written_of_read {k : Kind} (layout : k.layout = .fields ∨ k.layout = .whole)
    (read : reader k bytes = .ok (m, rest)) :
    bytes = m.content ++ rest ∧ (k.layout = .whole → rest = []) := by
  cases k with
  | location | groupLocation | forwardSecurity | typingIndicator | ballotCreate | ballotVote | file
  | groupFile | groupCallStart | groupBallotCreate | groupBallotVote | voipCallOffer
  | voipCallAnswer | voipCallIceCandidate | voipCallHangup | voipCallRinging =>
    rcases layout with layout | layout <;> cases layout
  | text | groupText =>
    obtain ⟨g, t, rfl, _, rfl, rfl⟩ := textReader_eq_ok.1 read
    exact ⟨(List.append_nil _).symm, fun _ => rfl⟩
  | deliveryReceipt | groupDeliveryReceipt =>
    obtain ⟨g, type, ids, rfl, _, rfl, rfl⟩ := receiptReader_eq_ok.1 read
    exact ⟨(List.append_nil _).symm, fun _ => rfl⟩
  | reaction | groupReaction =>
    obtain ⟨g, id, action, emoji, rfl, _, rfl, rfl⟩ := reactionReader_eq_ok.1 read
    exact ⟨(List.append_nil _).symm, fun _ => rfl⟩
  | edit | groupEdit =>
    obtain ⟨g, id, t, rfl, _, rfl, rfl⟩ := editReader_eq_ok.1 read
    exact ⟨(List.append_nil _).symm, fun _ => rfl⟩
  | delete | groupDelete =>
    obtain ⟨g, id, rfl, _, rfl⟩ := deleteReader_eq_ok.1 read
    exact ⟨rfl, nofun⟩
  | authToken =>
    obtain ⟨token, rfl, all⟩ := give_eq_ok.1 read
    obtain ⟨rfl, rfl⟩ := Reader.text_eq_ok.1 all
    exact ⟨(List.append_nil _).symm, fun _ => rfl⟩
  | groupRename =>
    obtain ⟨id, _, first, more⟩ := Reader.bind_eq_ok.1 read
    obtain ⟨name, rfl, all⟩ := give_eq_ok.1 more
    obtain rfl := Reader.block_eq_ok.1 first
    obtain ⟨rfl, rfl⟩ := Reader.text_eq_ok.1 all
    exact ⟨(List.append_nil _).symm, fun _ => rfl⟩
  | groupCreate =>
    obtain ⟨id, _, first, more⟩ := Reader.bind_eq_ok.1 read
    obtain ⟨members, rfl, all⟩ := give_eq_ok.1 more
    obtain rfl := Reader.block_eq_ok.1 first
    obtain ⟨rfl, rfl⟩ := membersReader_eq_ok.1 all
    exact ⟨(List.append_nil _).symm, fun _ => rfl⟩
  | contactDeletePhoto | contactRequestPhoto | empty =>
    obtain ⟨rfl, rfl⟩ := Reader.pure_eq_ok.1 read
    exact ⟨rfl, nofun⟩
  | image =>
    obtain ⟨i, rfl, fields⟩ := give_eq_ok.1 read
    exact ⟨imageReader_eq_ok.1 fields, nofun⟩
  | video =>
    obtain ⟨v, rfl, fields⟩ := give_eq_ok.1 read
    exact ⟨videoReader_eq_ok.1 fields, nofun⟩
  | audio =>
    obtain ⟨a, rfl, fields⟩ := give_eq_ok.1 read
    exact ⟨audioReader_eq_ok.1 fields, nofun⟩
  | contactSetPhoto =>
    obtain ⟨p, rfl, fields⟩ := give_eq_ok.1 read
    exact ⟨blobReader_eq_ok.1 fields, nofun⟩
  | groupLeave =>
    obtain ⟨g, rfl, fields⟩ := give_eq_ok.1 read
    exact ⟨Reader.group_eq_ok.1 fields, nofun⟩
  | groupRequestSync | groupDeletePhoto =>
    obtain ⟨id, rfl, fields⟩ := give_eq_ok.1 read
    exact ⟨Reader.block_eq_ok.1 fields, nofun⟩
  | groupSetPhoto =>
    obtain ⟨id, _, first, more⟩ := Reader.bind_eq_ok.1 read
    obtain ⟨p, rfl, fields⟩ := give_eq_ok.1 more
    obtain rfl := Reader.block_eq_ok.1 first
    obtain rfl := blobReader_eq_ok.1 fields
    exact ⟨(List.append_assoc ..).symm, nofun⟩
  | groupImage =>
    obtain ⟨g, _, first, more⟩ := Reader.bind_eq_ok.1 read
    obtain ⟨i, rfl, fields⟩ := give_eq_ok.1 more
    obtain rfl := Reader.group_eq_ok.1 first
    obtain rfl := blobReader_eq_ok.1 fields
    exact ⟨(List.append_assoc ..).symm, nofun⟩
  | groupVideo =>
    obtain ⟨g, _, first, more⟩ := Reader.bind_eq_ok.1 read
    obtain ⟨v, rfl, fields⟩ := give_eq_ok.1 more
    obtain rfl := Reader.group_eq_ok.1 first
    obtain rfl := videoReader_eq_ok.1 fields
    exact ⟨(List.append_assoc ..).symm, nofun⟩
  | groupAudio =>
    obtain ⟨g, _, first, more⟩ := Reader.bind_eq_ok.1 read
    obtain ⟨a, rfl, fields⟩ := give_eq_ok.1 more
    obtain rfl := Reader.group_eq_ok.1 first
    obtain rfl := audioReader_eq_ok.1 fields
    exact ⟨(List.append_assoc ..).symm, nofun⟩

theorem isLegible_of_layout {k : Kind} (kind : m.kind? = some k) (layout : k.layout ≠ .free) :
    m.IsLegible := by
  cases m with
  | location g l | ballotCreate g id v | ballotVote g creator id v | file g v =>
    cases g <;>
    · obtain rfl := Option.some.inj kind
      exact absurd rfl layout
  | groupCallStart g v | envelope e =>
    obtain rfl := Option.some.inj kind
    exact absurd rfl layout
  | unknown t bytes => cases kind
  | _ => exact fun _ carried => nomatch carried

/-- Any flag but zero stands for typing, and one is written for it. -/
theorem flag_of_read {k : Kind} (layout : k.layout = .flag)
    (read : reader k bytes = .ok (m, rest)) :
    ∃ b, bytes = b :: rest ∧ m.content = [if b = 0 then 0 else 1] := by
  obtain rfl : k = .typingIndicator := by
    cases k <;> first | rfl | cases layout
  obtain ⟨b, rfl, flag⟩ := give_eq_ok.1 read
  refine ⟨b, Reader.byte_eq_ok.1 flag, ?_⟩
  by_cases zero : b = 0 <;> simp [content, zero]

/-! ## The codec -/

theorem typeByte_of_kind? {k : Kind} (kind : m.kind? = some k) : m.typeByte = k.byte := by
  cases m with
  | unknown t bytes => cases kind
  | _ => exact congrArg (fun k : Option Kind => (k.map Kind.byte).getD 0) kind

theorem decode_eq_ok {t : UInt8} {k : Kind} (known : Kind.ofByte? t = some k) :
    decode t bytes = .ok m ↔ ∃ rest, reader k bytes = .ok (m, rest) := by
  rw [decode, known]
  exact Reader.result_eq_ok

theorem decode_content {k : Kind} (kind : m.kind? = some k) (legible : m.IsLegible) :
    decode k.byte m.content = .ok m :=
  (decode_eq_ok (Kind.ofByte?_byte k)).2 ⟨[], read_content kind legible⟩

/-- A body that is written and read comes back, if it is no place and no envelope, if its type
byte does not stand for another kind, and if the text of its JSON value gives the value back. -/
theorem decode_of_encode (m : Body)
    (plain : m.kind? ≠ some .location ∧ m.kind? ≠ some .groupLocation ∧
      m.kind? ≠ some .forwardSecurity)
    (unknown : ∀ t bytes, m = .unknown t bytes → Kind.ofByte? t = none)
    (payload : ∀ v, m.freeValue? = some v → Json.parse? (jsonBytes v) = some v) :
    ∃ bytes, m.encode = (m.typeByte, bytes) ∧ decode m.typeByte bytes = .ok m := by
  refine ⟨m.content, rfl, ?_⟩
  obtain ⟨noPlace, noGroupPlace, noEnvelope⟩ := plain
  have legible : m.IsLegible := by
    cases m with
    | location g l =>
      cases g with
      | none => exact absurd rfl noPlace
      | some g => exact absurd rfl noGroupPlace
    | envelope e => exact absurd rfl noEnvelope
    | unknown t bytes => exact unknown t bytes rfl
    | _ => exact payload
  cases kind : m.kind? with
  | some k =>
    rw [typeByte_of_kind? kind]
    exact decode_content kind legible
  | none =>
    cases m with
    | unknown t bytes =>
      show decode t bytes = _
      rw [decode, unknown t bytes rfl]
    | _ => cases kind

def numberedFile : Body := .file none (.object [("n", Json.ofNat 5)])

theorem decode_of_encode_file :
    (∀ v, numberedFile.freeValue? = some v → Json.parse? (jsonBytes v) = some v) ∧
      ∃ bytes, numberedFile.encode = (0x17, bytes) ∧ decode 0x17 bytes = .ok numberedFile :=
  have payload : ∀ v, numberedFile.freeValue? = some v → Json.parse? (jsonBytes v) = some v := by
    rintro v ⟨⟩
    rfl
  ⟨payload, decode_of_encode numberedFile (by decide) nofun payload⟩

/-- The layout for a type byte; an unknown one keeps its bytes. -/
def layoutOf (t : UInt8) : Layout := ((Kind.ofByte? t).map Kind.layout).getD .whole

/-- A body that is read has the type byte that it was read by.  Unless its layout is free, it
is written in one way only, which is read as the same body: as the bytes that it takes from the
front, as all of them if it has no end of its own, or as a flag of zero or one. -/
theorem decode_canonical {t : UInt8} (decoded : decode t bytes = .ok m) :
    m.typeByte = t ∧
      (layoutOf t ≠ .free → ∃ front, m.encode = (t, front) ∧ decode t front = .ok m ∧
        match layoutOf t with
        | .fields => front <+: bytes
        | .whole => front = bytes
        | .flag => ∃ b rest, bytes = b :: rest ∧ front = [if b = 0 then 0 else 1]
        | .free => True) := by
  cases known : Kind.ofByte? t with
  | none =>
    have layout : layoutOf t = .whole := by
      rw [layoutOf, known]
      rfl
    have held := decoded
    rw [decode, known] at held
    obtain rfl := Except.ok.inj held
    rw [layout]
    exact ⟨rfl, fun _ => ⟨bytes, rfl, decoded, rfl⟩⟩
  | some k =>
    have layout : layoutOf t = k.layout := by
      rw [layoutOf, known]
      rfl
    have kind : m.kind? = some k := (kind?_of_decode decoded).trans known
    obtain rfl := Kind.byte_of_ofByte? known
    obtain ⟨rest, read⟩ := (decode_eq_ok known).1 decoded
    have type := typeByte_of_kind? kind
    refine ⟨type, fun fixed => ⟨m.content, ?_, ?_, ?_⟩⟩
    · rw [← type]
      rfl
    · exact decode_content kind (isLegible_of_layout kind (layout ▸ fixed))
    · rw [layout]
      cases shape : k.layout with
      | fields =>
        obtain ⟨rfl, _⟩ := written_of_read (.inl shape) read
        exact List.prefix_append ..
      | whole =>
        obtain ⟨rfl, ends⟩ := written_of_read (.inr shape) read
        rw [ends shape, List.append_nil]
      | flag =>
        obtain ⟨b, rfl, flag⟩ := flag_of_read shape read
        exact ⟨b, rest, rfl, flag⟩
      | free => trivial

theorem decode_canonical_trailing :
    decode 0x92 ((Block.zero 8).bytes ++ [9]) = .ok (.delete none (Block.zero 8)) ∧
      ∃ front, encode (.delete none (Block.zero 8)) = (0x92, front) ∧
        decode 0x92 front = .ok (.delete none (Block.zero 8)) ∧
        front <+: (Block.zero 8).bytes ++ [9] :=
  have decoded : decode 0x92 ((Block.zero 8).bytes ++ [9]) = .ok (.delete none (Block.zero 8)) :=
    rfl
  ⟨decoded, (decode_canonical decoded).2 (by decide)⟩

end Body

end SecureInbox
