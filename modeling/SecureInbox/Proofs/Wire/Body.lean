import SecureInbox.Wire.Body

/-! # Bodies are of the kind that was asked for

A body that was read by its type byte is of the kind that the type byte stands for
(`Body.kind?_of_decode`), because the reader of each kind gives nothing else. -/
set_option autoImplicit false

namespace SecureInbox

def Reader.Gives {α : Type} (reader : Reader α) (post : α → Prop) : Prop :=
  ∀ bytes a rest, reader bytes = .ok (a, rest) → post a

namespace Reader.Gives

variable {α β : Type}

theorem pure {a : α} {post : α → Prop} (holds : post a) : (Pure.pure a : Reader α).Gives post := by
  rintro bytes _ rest ⟨⟩
  exact holds

theorem bind {reader : Reader α} {f : α → Reader β} {mid : α → Prop} {post : β → Prop}
    (first : reader.Gives mid) (second : ∀ a, mid a → (f a).Gives post) : (reader >>= f).Gives post := by
  intro bytes b rest read
  have run : (reader >>= f) bytes = (reader bytes >>= fun x => f x.1 x.2) := rfl
  rw [run] at read
  cases taken : reader bytes with
  | error e =>
      rw [taken] at read
      cases read
  | ok x =>
      rw [taken] at read
      exact second x.1 (first bytes x.1 x.2 taken) x.2 b rest read

/-- What is read first does not matter. -/
theorem after {reader : Reader α} {f : α → Reader β} {post : β → Prop} (rest : ∀ a, (f a).Gives post) :
    (reader >>= f).Gives post :=
  bind (fun _ _ _ _ => trivial) fun a (_ : True) => rest a

end Reader.Gives

namespace Body

open Reader (Gives)

theorem groupReader_gives (inGroup : Bool) : (groupReader inGroup).Gives fun g => g.isSome = inGroup := by
  cases inGroup with
  | false => exact .pure rfl
  | true => exact .after fun _ => .pure rfl

theorem kind?_placed {g : Option GroupRef} {inGroup : Bool} (placed : g.isSome = inGroup) (a b : Kind) :
    some (Body.placed g a b) = some (if inGroup then b else a) := by
  subst placed
  cases g <;> rfl

section Placed

variable (inGroup : Bool)

/-- A reader that starts with a group if there is one. -/
theorem placed_gives {f : Option GroupRef → Reader Body} {post : Body → Prop}
    (rest : ∀ g, g.isSome = inGroup → (f g).Gives post) : (groupReader inGroup >>= f).Gives post :=
  .bind (groupReader_gives inGroup) rest

theorem textReader_gives : (textReader inGroup).Gives fun body =>
    body.kind? = some (if inGroup then .groupText else .text) :=
  placed_gives inGroup fun _ placed => .after fun _ => .pure (kind?_placed placed _ _)

theorem locatedReader_gives : (locatedReader inGroup).Gives fun body =>
    body.kind? = some (if inGroup then .groupLocation else .location) :=
  placed_gives inGroup fun _ placed => .after fun _ => .pure (kind?_placed placed _ _)

theorem ballotReader_gives : (ballotReader inGroup).Gives fun body =>
    body.kind? = some (if inGroup then .groupBallotCreate else .ballotCreate) :=
  placed_gives inGroup fun _ placed => .after fun _ => .after fun _ => .pure (kind?_placed placed _ _)

theorem voteReader_gives : (voteReader inGroup).Gives fun body =>
    body.kind? = some (if inGroup then .groupBallotVote else .ballotVote) :=
  placed_gives inGroup fun _ placed =>
    .after fun _ => .after fun _ => .after fun _ => .pure (kind?_placed placed _ _)

theorem receiptReader_gives : (receiptReader inGroup).Gives fun body =>
    body.kind? = some (if inGroup then .groupDeliveryReceipt else .deliveryReceipt) :=
  placed_gives inGroup fun _ placed => .after fun _ => .after fun _ => .pure (kind?_placed placed _ _)

theorem reactionReader_gives : (reactionReader inGroup).Gives fun body =>
    body.kind? = some (if inGroup then .groupReaction else .reaction) :=
  placed_gives inGroup fun _ placed =>
    .after fun _ => .after fun _ => .after fun _ => .pure (kind?_placed placed _ _)

theorem editReader_gives : (editReader inGroup).Gives fun body =>
    body.kind? = some (if inGroup then .groupEdit else .edit) :=
  placed_gives inGroup fun _ placed => .after fun _ => .after fun _ => .pure (kind?_placed placed _ _)

theorem deleteReader_gives : (deleteReader inGroup).Gives fun body =>
    body.kind? = some (if inGroup then .groupDelete else .delete) :=
  placed_gives inGroup fun _ placed => .after fun _ => .pure (kind?_placed placed _ _)

end Placed

theorem reader_gives (kind : Kind) : (reader kind).Gives fun body => body.kind? = some kind := by
  cases kind with
  | text => exact textReader_gives false
  | groupText => exact textReader_gives true
  | location => exact locatedReader_gives false
  | groupLocation => exact locatedReader_gives true
  | ballotCreate => exact ballotReader_gives false
  | groupBallotCreate => exact ballotReader_gives true
  | ballotVote => exact voteReader_gives false
  | groupBallotVote => exact voteReader_gives true
  | deliveryReceipt => exact receiptReader_gives false
  | groupDeliveryReceipt => exact receiptReader_gives true
  | reaction => exact reactionReader_gives false
  | groupReaction => exact reactionReader_gives true
  | edit => exact editReader_gives false
  | groupEdit => exact editReader_gives true
  | delete => exact deleteReader_gives false
  | groupDelete => exact deleteReader_gives true
  | contactDeletePhoto | contactRequestPhoto | empty => exact .pure rfl
  | groupImage | groupVideo | groupAudio | groupFile | groupCreate | groupRename | groupCallStart
  | groupSetPhoto => exact .after fun _ => .after fun _ => .pure rfl
  | _ => exact .after fun _ => .pure rfl

/-- A body that is decoded is of the kind that its type byte stands for. -/
theorem kind?_of_decode {typeByte : UInt8} {content : Bytes} {body : Body}
    (decoded : decode typeByte content = .ok body) : body.kind? = Kind.ofByte? typeByte := by
  unfold decode at decoded
  cases known : Kind.ofByte? typeByte with
  | none =>
      rw [known] at decoded
      obtain rfl := Except.ok.inj decoded
      rfl
  | some kind =>
      rw [known] at decoded
      have decoded : ((reader kind) content).map Prod.fst = .ok body := decoded
      cases read : reader kind content with
      | error e =>
          rw [read] at decoded
          cases decoded
      | ok x =>
          rw [read] at decoded
          obtain rfl := Except.ok.inj decoded
          exact reader_gives kind content x.1 x.2 read

end Body

end SecureInbox
