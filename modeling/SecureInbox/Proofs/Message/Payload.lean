import SecureInbox.Proofs.Message.Call

/-! # Payloads read in any order of their members

Every record that a body may hold is read as it was: its names are all different, and each field
is read as what was written for it.  The frame of an envelope is told by a tag of its own. -/
set_option autoImplicit false

namespace SecureInbox

open Json
open Json (Node)

/-! ## Identities and groups -/

namespace Identity

theorem toNat_lt_of_isHandleByte {b : UInt8} (handle : isHandleByte b = true) : b.toNat < 128 := by
  simp only [isHandleByte, Bool.or_eq_true, Bool.and_eq_true, decide_eq_true_eq,
    UInt8.le_iff_toNat_le, beq_iff_eq] at handle
  obtain (⟨-, le⟩ | ⟨-, le⟩) | rfl := handle
  · exact Nat.lt_of_le_of_lt le (by decide)
  · exact Nat.lt_of_le_of_lt le (by decide)
  · decide

/-- The letters of a handle are its bytes. -/
theorem utf8_text (i : Identity) : Text.utf8 i.text = i.bytes := by
  have letter : ∀ b ∈ i.bytes, String.utf8EncodeChar (Char.ofNat b.toNat) = [b] := by
    intro b mem
    have small := toNat_lt_of_isHandleByte (List.all_eq_true.1 i.wellFormed b mem)
    rw [Text.utf8EncodeChar_ascii (by rwa [toNat_ofNat_byte]), toNat_ofNat_byte, UInt8.ofNat_toNat]
  rw [text, Text.utf8_ofList, List.flatMap_map, List.flatMap_congr letter,
    List.flatMap_singleton']

theorem ofText?_text (i : Identity) : ofText? i.text = some i := by
  rw [ofText?, utf8_text, ofBytes?_bytes]

theorem readAs (i : Identity) : (Json.ofIdentity i).ReadAs Node.identity? i :=
  .of_leaf trivial (ofText?_text i)

end Identity

theorem GroupRef.distinct (g : GroupRef) : g.toJson.Each Distinct := by simp [toJson]

theorem GroupRef.readAs (g : GroupRef) : g.toJson.ReadAs ofNode? g := by
  intro w again
  obtain ⟨record, id, creator, -⟩ := Rearranged.record
    [("id", some (Json.hexText g.id)), ("creator", some (Json.ofIdentity g.creator))] again (by simp)
  have id := required_of_rel id (readAs_hexText g.id)
  have creator := required_of_rel creator g.creator.readAs
  simp [ofNode?, record.slots?, id, creator]

/-! ## Blobs and places -/

theorem BlobRef.readAs (b : BlobRef) : (Json.object b.fields).ReadAs ofNode? b := by
  intro w again
  obtain ⟨record, id, size, key, -⟩ := Rearranged.record [("blob_id", some (Json.hexText b.id)),
    ("size", some (Json.ofNat b.size.toNat)), ("key", some (Json.hexText b.key))] again (by simp)
  have id := required_of_rel id (readAs_hexText b.id)
  have size := required_of_rel size (readAs_word32 b.size)
  have key := required_of_rel key (readAs_hexText b.key)
  simp [ofNode?, record.slots?, id, size, key]

theorem Image.readAs (i : Image) : (Json.object i.fields).ReadAs ofNode? i := by
  intro w again
  obtain ⟨record, id, size, nonce, -⟩ := Rearranged.record [("blob_id", some (Json.hexText i.id)),
    ("size", some (Json.ofNat i.size.toNat)), ("nonce", some (Json.hexText i.nonce))] again (by simp)
  have id := required_of_rel id (readAs_hexText i.id)
  have size := required_of_rel size (readAs_word32 i.size)
  have nonce := required_of_rel nonce (readAs_hexText i.nonce)
  simp [ofNode?, record.slots?, id, size, nonce]

theorem Video.readAs (v : Video) : (Json.object v.fields).ReadAs ofNode? v := by
  intro w again
  obtain ⟨record, seconds, id, size, thumbnailId, thumbnailSize, key, -⟩ := Rearranged.record
    [("duration_secs", some (Json.ofNat v.seconds.toNat)), ("video_blob_id", some (Json.hexText v.id)),
      ("video_size", some (Json.ofNat v.size.toNat)),
      ("thumbnail_blob_id", some (Json.hexText v.thumbnailId)),
      ("thumbnail_size", some (Json.ofNat v.thumbnailSize.toNat)),
      ("key", some (Json.hexText v.key))] again (by simp)
  have seconds := required_of_rel seconds (readAs_word16 v.seconds)
  have id := required_of_rel id (readAs_hexText v.id)
  have size := required_of_rel size (readAs_word32 v.size)
  have thumbnailId := required_of_rel thumbnailId (readAs_hexText v.thumbnailId)
  have thumbnailSize := required_of_rel thumbnailSize (readAs_word32 v.thumbnailSize)
  have key := required_of_rel key (readAs_hexText v.key)
  simp [ofNode?, record.slots?, seconds, id, size, thumbnailId, thumbnailSize, key]

theorem Audio.readAs (a : Audio) : (Json.object a.fields).ReadAs ofNode? a := by
  intro w again
  obtain ⟨record, seconds, id, size, key, -⟩ := Rearranged.record
    [("duration_secs", some (Json.ofNat a.seconds.toNat)), ("blob_id", some (Json.hexText a.id)),
      ("size", some (Json.ofNat a.size.toNat)), ("key", some (Json.hexText a.key))] again (by simp)
  have seconds := required_of_rel seconds (readAs_word16 a.seconds)
  have id := required_of_rel id (readAs_hexText a.id)
  have size := required_of_rel size (readAs_word32 a.size)
  have key := required_of_rel key (readAs_hexText a.key)
  simp [ofNode?, record.slots?, seconds, id, size, key]

namespace Location

structure IsFinite (l : Location) : Prop where
  latitude : l.latitude.isFinite = true
  longitude : l.longitude.isFinite = true
  accuracy : ∀ x ∈ l.accuracy, x.isFinite = true

def entries (l : Location) : List (String × Option Json) :=
  [("latitude", some (Json.ofFloat l.latitude)), ("longitude", some (Json.ofFloat l.longitude)),
    ("accuracy", l.accuracy.map Json.ofFloat), ("poi_name", l.name.map .string),
    ("poi_address", l.address.map .string)]

theorem fields_eq (l : Location) : l.fields = membersOf l.entries := by
  simp [fields, membersOf, entries, optionalMember]

theorem readAs {l : Location} (finite : l.IsFinite) : (Json.object l.fields).ReadAs ofNode? l := by
  intro w again
  rw [fields_eq] at again
  obtain ⟨record, latitude, longitude, accuracy, name, address, -⟩ :=
    Rearranged.record l.entries again (by simp [entries])
  have latitude := required_of_rel latitude (readAs_real finite.latitude)
  have longitude := required_of_rel longitude (readAs_real finite.longitude)
  have accuracy := optional_of_rel accuracy (fun x mem => readAs_real (finite.accuracy x mem)) rfl
  have name := optional_of_rel name (fun s _ => readAs_text s) rfl
  have address := optional_of_rel address (fun s _ => readAs_text s) rfl
  simp [ofNode?, record.slots?, latitude, longitude, accuracy, name, address]

end Location

/-! ## Envelopes -/

theorem Cause.ofTag?_tag (c : Cause) : ofTag? c.tag = some c := by cases c <;> decide

theorem Agreement.ofTag?_tag (a : Agreement) : ofTag? a.tag = some a := by cases a <;> decide

theorem VersionRange.readAs (r : VersionRange) : r.toJson.ReadAs ofNode? r := by
  intro w again
  obtain ⟨record, min, max, -⟩ := Rearranged.record [("min", some (Json.ofNat r.min.code.toNat)),
    ("max", some (Json.ofNat r.max.code.toNat))] again (by simp)
  have min := required_of_rel min (readAs_word16 r.min.code)
  have max := required_of_rel max (readAs_word16 r.max.code)
  simp [ofNode?, record.slots?, min, max]

namespace Frame

theorem readAs_cause (c : Cause) : (Json.string c.tag).ReadAs cause? c :=
  readAs_choice true c.ofTag?_tag

theorem readAs_range (versions : VersionRange) (key : Key) :
    (Json.object [("version_range", versions.toJson),
      ("ephemeral_public_key", Json.byteList key.bytes)]).ReadAs rangeOfNode? (versions, key) := by
  intro w again
  obtain ⟨record, range, ephemeral, -⟩ := Rearranged.record [("version_range", some versions.toJson),
    ("ephemeral_public_key", some (Json.byteList key.bytes))] again (by simp)
  have range := required_of_rel range versions.readAs
  have ephemeral := required_of_rel ephemeral (readAs_block key)
  simp [rangeOfNode?, record.slots?, range, ephemeral]

theorem readAs_encapsulated (e : Encapsulated) :
    (Json.object (Frame.encapsulated e).fieldMembers).ReadAs encapsulatedOfNode? e := by
  intro w again
  obtain ⟨record, agreement, counter, offered, applied, group, ciphertext, -⟩ := Rearranged.record
    [("dh_type", some (.string e.sealed.agreement.tag)),
      ("counter", some (Json.ofNat e.sealed.counter.toNat)),
      ("offered_version", some (Json.ofNat e.offered.code.toNat)),
      ("applied_version", some (Json.ofNat e.applied.code.toNat)),
      ("group_identity", some (Json.orNull GroupRef.toJson e.group)),
      ("ciphertext", some (Json.byteList e.sealed.ciphertext))] again (by simp)
  have agreement := required_of_rel agreement (readAs_choice true e.sealed.agreement.ofTag?_tag)
  have counter := required_of_rel counter (readAs_word64 e.sealed.counter)
  have offered := required_of_rel offered (readAs_word16 e.offered.code)
  have applied := required_of_rel applied (readAs_word16 e.applied.code)
  have group := optional_of_rel_orNull group (fun g _ => g.readAs) rfl
  have ciphertext := required_of_rel ciphertext (readAs_bytes e.sealed.ciphertext)
  simp [encapsulatedOfNode?, record.slots?, agreement, counter, offered, applied, group, ciphertext]

theorem kindOfTag?_kindName (nested : Bool) (f : Frame) :
    kindOfTag? nested (.string (some f.kindName)) = some f.kindName := by
  cases f <;> simp [kindOfTag?, Node.text?, kindName, kindNames]

/-- No frame gives the name of its tag to another member. -/
theorem distinct (f : Frame) : f.toJson.Each Distinct := by
  cases f with
  | encapsulated e =>
    obtain ⟨content, offered, applied, group⟩ := e
    cases group <;> simp [toJson, fieldMembers, orNull, GroupRef.distinct]
  | _ => simp [toJson, fieldMembers, VersionRange.toJson]

theorem readAs (nested : Bool) (f : Frame) : f.toJson.ReadAs (ofNode? nested) f := by
  intro w again
  obtain ⟨rest, beside, tagged⟩ := again.tagged? (List.nodup_cons.1 f.distinct.1).1
  simp only [ofNode?, tagged, Option.bind_eq_bind, Option.bind_some, kindOfTag?_kindName]
  cases f with
  | init versions key => exact (readAs_range versions key).map (fun r => Frame.init r.1 r.2) rest beside
  | accept versions key => exact (readAs_range versions key).map (fun r => Frame.accept r.1 r.2) rest beside
  | reject id cause =>
    obtain ⟨record, rejected, why, -⟩ := Rearranged.record
      [("rejected_message_id", some (Json.hexText id)), ("cause", some (.string cause.tag))] beside
      (by simp)
    have rejected := required_of_rel rejected (readAs_hexText id)
    have why := required_of_rel why (readAs_cause cause)
    simp only [kindName, record.slots?, List.map_cons, List.map_nil, Option.bind_some, rejected, why]
    rfl
  | terminate cause =>
    obtain ⟨record, why, -⟩ := Rearranged.record [("cause", some (.string cause.tag))] beside
      (by simp)
    have why := required_of_rel why (readAs_cause cause)
    simp only [kindName, record.slots?, List.map_cons, List.map_nil, Option.bind_some, why]
    rfl
  | encapsulated e => exact (readAs_encapsulated e).map Frame.encapsulated rest beside

end Frame

theorem Envelope.readAs (nested : Bool) (e : Envelope) :
    (Json.object e.fields).ReadAs (ofNode? nested) e := by
  intro w again
  obtain ⟨record, session, frame, -⟩ := Rearranged.record
    [("session_id", some (Json.byteList e.session.bytes)), ("frame", some e.frame.toJson)] again
    (by simp)
  have session := required_of_rel session (readAs_block e.session)
  have frame := required_of_rel frame (e.frame.readAs nested)
  simp [ofNode?, record.slots?, session, frame]

end SecureInbox
