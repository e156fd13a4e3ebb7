import SecureInbox.Proofs.Json.Reading
import SecureInbox.Proofs.Message.Members

/-! # Call signalling read back

Every payload of a call is a record of members with different names, some of which may be left
out, and it is read as it was in any order of its members (`CallOffer.readAs` and its like).  All
its numbers are words, so that its text is read as well (`ReadsBack.parse?`). -/
set_option autoImplicit false

namespace SecureInbox

open Json
open Json (Node)

theorem membersWhole_membersOf {entries : List (String × Option Json)}
    (whole : ∀ e ∈ entries, ∀ v, e.2 = some v → v.IsWhole) :
    Json.MembersWhole (membersOf entries) := by
  induction entries with
  | nil => trivial
  | cons e rest ih =>
    have others := ih fun e mem => whole e (List.mem_cons_of_mem _ mem)
    obtain ⟨name, _ | value⟩ := e
    · exact others
    · exact ⟨whole _ List.mem_cons_self value rfl, others⟩

/-! ## What is read back -/

/-- What is written with whole numbers only, and read as it was. -/
structure ReadsBack {α : Type} (write : α → Json) (read : Node → Option α) : Prop where
  whole (a : α) : (write a).IsWhole
  same (a : α) : read (Node.ofValue (write a)) = some a

theorem ReadsBack.member {α : Type} {write : α → Json} {read : Node → Option α}
    (back : ReadsBack write read) (value : Option α) (v : Json)
    (written : value.map write = some v) : v.IsWhole := by
  obtain ⟨a, _, rfl⟩ := Option.map_eq_some_iff.1 written
  exact back.whole a

/-- The text of a payload is read as the payload. -/
theorem ReadsBack.parse? {α : Type} {write : α → Json} {read : Node → Option α}
    (back : ReadsBack write read) (a : α) :
    Node.parse? (Text.utf8 (write a).compact) >>= read = some a := by
  rw [Json.parse?_compact (back.whole a), Option.bind_eq_bind, Option.bind_some, back.same]

theorem isWhole_ofNat {n : Nat} (small : n < UInt64.size) : (Json.ofNat n).IsWhole := by
  show Json.IsWord n
  simp only [Json.IsWord, UInt64.size] at small ⊢
  omega

theorem readsBack_text : ReadsBack Json.string Node.text? := ⟨fun _ => trivial, fun _ => rfl⟩

theorem readsBack_byte : ReadsBack (fun b : UInt8 => Json.ofNat b.toNat) Node.byte? :=
  ⟨fun b => isWhole_ofNat (Nat.lt_trans b.toNat_lt (by decide)), Json.Node.byte?_ofValue⟩

theorem readsBack_word32 : ReadsBack (fun w : UInt32 => Json.ofNat w.toNat) Node.word32? :=
  ⟨fun w => isWhole_ofNat (Nat.lt_trans w.toNat_lt (by decide)), Json.Node.word32?_ofValue⟩

theorem readsBack_list {α : Type} {write : α → Json} {read : Node → Option α}
    (back : ReadsBack write read) :
    ReadsBack (fun values : List α => .array (values.map write)) (Node.list? read) where
  whole values := by
    induction values with
    | nil => trivial
    | cons a rest ih => exact ⟨back.whole a, ih⟩
  same := Json.Node.list?_ofValue back.same

/-! ## The payloads -/

theorem SessionDescription.distinct (d : SessionDescription) : d.toJson.Each Distinct := by
  simp [toJson]

theorem SessionDescription.readAs (d : SessionDescription) : d.toJson.ReadAs ofNode? d := by
  intro w again
  obtain ⟨record, kind, sdp, -⟩ := Rearranged.record
    [("sdpType", some (.string d.kind)), ("sdp", some (.string d.sdp))] again (by simp)
  have kind := required_of_rel kind (readAs_text d.kind)
  have sdp := required_of_rel sdp (readAs_text d.sdp)
  simp [ofNode?, record.slots?, kind, sdp]

theorem SessionDescription.readsBack : ReadsBack toJson ofNode? :=
  ⟨fun _ => ⟨trivial, trivial, trivial⟩, fun _ => rfl⟩

namespace CallOffer

def entries (c : CallOffer) : List (String × Option Json) :=
  [("callId", c.callId.map fun n => Json.ofNat n.toNat), ("offer", some c.offer.toJson)]

theorem fields_eq (c : CallOffer) : c.fields = membersOf c.entries := by
  simp [fields, membersOf, entries, optionalMember]

theorem readAs (c : CallOffer) : (Json.object c.fields).ReadAs ofNode? c := by
  intro w again
  rw [fields_eq] at again
  obtain ⟨record, callId, offer, -⟩ := Rearranged.record c.entries again (by simp [entries])
  have callId := lenient_of_rel callId (fun n _ => readAs_word32 n) rfl
  have offer := required_of_rel offer c.offer.readAs
  simp [ofNode?, record.slots?, callId, offer]

theorem readsBack : ReadsBack (fun c => .object c.fields) ofNode? where
  whole c := by
    rw [fields_eq]
    refine membersWhole_membersOf ?_
    simp only [entries, List.forall_mem_cons, List.not_mem_nil]
    exact ⟨readsBack_word32.member _, SessionDescription.readsBack.member (some _), nofun⟩
  same c := c.readAs _ (rearranged_refl _)

end CallOffer

namespace CallAnswer

def entries (c : CallAnswer) : List (String × Option Json) :=
  [("callId", c.callId.map fun n => Json.ofNat n.toNat),
    ("action", some (Json.ofNat c.action.toNat)),
    ("answer", c.answer.map SessionDescription.toJson),
    ("rejectReason", c.rejectReason.map fun n => Json.ofNat n.toNat)]

theorem fields_eq (c : CallAnswer) : c.fields = membersOf c.entries := by
  simp [fields, membersOf, entries, optionalMember]

theorem readAs (c : CallAnswer) : (Json.object c.fields).ReadAs ofNode? c := by
  intro w again
  rw [fields_eq] at again
  obtain ⟨record, callId, action, answer, reason, -⟩ :=
    Rearranged.record c.entries again (by simp [entries])
  have callId := lenient_of_rel callId (fun n _ => readAs_word32 n) rfl
  have action := required_of_rel action (readAs_byte c.action)
  have answer := lenient_of_rel answer (fun d _ => d.readAs) rfl
  have reason := lenient_of_rel reason (fun b _ => readAs_byte b) rfl
  simp [ofNode?, record.slots?, callId, action, answer, reason]

theorem readsBack : ReadsBack (fun c => .object c.fields) ofNode? where
  whole c := by
    rw [fields_eq]
    refine membersWhole_membersOf ?_
    simp only [entries, List.forall_mem_cons, List.not_mem_nil]
    exact ⟨readsBack_word32.member _, readsBack_byte.member (some _),
      SessionDescription.readsBack.member _, readsBack_byte.member _, nofun⟩
  same c := c.readAs _ (rearranged_refl _)

end CallAnswer

namespace Candidate

def entries (c : Candidate) : List (String × Option Json) :=
  [("candidate", some (.string c.candidate)), ("sdpMid", c.mid.map .string),
    ("sdpMLineIndex", c.lineIndex.map fun n => Json.ofNat n.toNat),
    ("ufrag", c.fragment.map .string)]

theorem toJson_eq (c : Candidate) : c.toJson = .object (membersOf c.entries) := by
  simp [toJson, membersOf, entries, optionalMember]

theorem distinct (c : Candidate) : c.toJson.Each Distinct := by
  obtain ⟨candidate, mid, index, fragment⟩ := c
  cases mid <;> cases index <;> cases fragment <;> simp [toJson, optionalMember]

theorem readAs (c : Candidate) : c.toJson.ReadAs ofNode? c := by
  intro w again
  rw [toJson_eq] at again
  obtain ⟨record, candidate, mid, index, fragment, -⟩ :=
    Rearranged.record c.entries again (by simp [entries])
  have candidate := required_of_rel candidate (readAs_text c.candidate)
  have mid := lenient_of_rel mid (fun s _ => readAs_text s) rfl
  have index := lenient_of_rel index (fun n _ => readAs_word32 n) rfl
  have fragment := lenient_of_rel fragment (fun s _ => readAs_text s) rfl
  simp [ofNode?, record.slots?, candidate, mid, index, fragment]

theorem readsBack : ReadsBack toJson ofNode? where
  whole c := by
    rw [toJson_eq]
    refine membersWhole_membersOf ?_
    simp only [entries, List.forall_mem_cons, List.not_mem_nil]
    exact ⟨readsBack_text.member (some _), readsBack_text.member _, readsBack_word32.member _,
      readsBack_text.member _, nofun⟩
  same c := c.readAs _ (rearranged_refl _)

end Candidate

namespace CallCandidates

def entries (c : CallCandidates) : List (String × Option Json) :=
  [("callId", c.callId.map fun n => Json.ofNat n.toNat), ("removed", some (.bool c.removed)),
    ("candidates", some (.array (c.candidates.map Candidate.toJson)))]

theorem fields_eq (c : CallCandidates) : c.fields = membersOf c.entries := by
  simp [fields, membersOf, entries, optionalMember]

theorem readAs (c : CallCandidates) : (Json.object c.fields).ReadAs ofNode? c := by
  intro w again
  rw [fields_eq] at again
  obtain ⟨record, callId, removed, candidates, -⟩ :=
    Rearranged.record c.entries again (by simp [entries])
  have callId := lenient_of_rel callId (fun n _ => readAs_word32 n) rfl
  have removed := orElse_of_rel false removed (readAs_flag c.removed)
  have candidates := required_of_rel candidates (readAs_list fun x _ => x.readAs)
  simp [ofNode?, record.slots?, callId, removed, candidates]

theorem readsBack : ReadsBack (fun c => .object c.fields) ofNode? where
  whole c := by
    rw [fields_eq]
    refine membersWhole_membersOf ?_
    simp only [entries, List.forall_mem_cons, List.not_mem_nil]
    refine ⟨readsBack_word32.member _, ?_,
      (readsBack_list Candidate.readsBack).member (some _), nofun⟩
    rintro v ⟨⟩
    trivial
  same c := c.readAs _ (rearranged_refl _)

end CallCandidates

namespace CallRef

def entries (c : CallRef) : List (String × Option Json) :=
  [("callId", c.callId.map fun n => Json.ofNat n.toNat)]

theorem fields_eq (c : CallRef) : c.fields = membersOf c.entries := by
  simp [fields, membersOf, entries]

theorem readAs (c : CallRef) : (Json.object c.fields).ReadAs ofNode? c := by
  intro w again
  rw [fields_eq] at again
  obtain ⟨record, callId, -⟩ := Rearranged.record c.entries again (by simp [entries])
  have callId := lenient_of_rel callId (fun n _ => readAs_word32 n) rfl
  simp [ofNode?, record.slots?, callId]

theorem readsBack : ReadsBack (fun c => .object c.fields) ofNode? where
  whole c := by
    rw [fields_eq]
    refine membersWhole_membersOf ?_
    simp only [entries, List.forall_mem_cons, List.not_mem_nil]
    exact ⟨readsBack_word32.member _, nofun⟩
  same c := c.readAs _ (rearranged_refl _)

end CallRef

end SecureInbox
