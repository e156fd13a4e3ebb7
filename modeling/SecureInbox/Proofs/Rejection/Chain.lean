import Mathlib.Data.List.Induction
import SecureInbox.Proofs.Rejection.Record
import SecureInbox.Rejection.Log

/-! # Chains of records

Verification of a file counts the records of a chain and fails at the first record that does
not continue it (`verifyFrom_chained`, `verifyFrom_not_chained`).  A chain that is not empty ends with
the hash of its last record, and no genuine hash is the text that starts a chain, so two chains
with the same end are taken apart record by record from there: the same hash is over the same
text, and the text tells all other fields, the hash of the record before among them
(`Chained.eq_of_endOf_eq`). -/
set_option autoImplicit false

namespace SecureInbox

theorem Hex.length_encodeChars (bytes : Bytes) :
    (Hex.encodeChars bytes).length = 2 * bytes.length := by
  induction bytes with
  | nil => rfl
  | cons b rest ih => simp only [Hex.encodeChars, List.length_cons, ih]; omega

theorem Block.hex_inj {n : Nat} {a b : Block n} (same : a.hex = b.hex) : a = b := by
  have held := congrArg (Block.ofHex? (n := n)) same
  rw [Block.ofHex?_hex, Block.ofHex?_hex] at held
  exact Option.some.inj held

namespace Record

variable {previous : String} {rs ss : List Record} {r s : Record}

def endOf (previous : String) (rs : List Record) : String := (rs.getLast?.map hash).getD previous

@[simp] theorem endOf_nil (previous : String) : endOf previous [] = previous := rfl

@[simp] theorem endOf_concat (previous : String) (rs : List Record) (r : Record) :
    endOf previous (rs ++ [r]) = r.hash := by
  rw [endOf, List.getLast?_concat, Option.map_some, Option.getD_some]

theorem endOf_cons (previous : String) (r : Record) (rest : List Record) :
    endOf previous (r :: rest) = endOf r.hash rest := by
  rcases List.eq_nil_or_concat rest with rfl | ⟨front, last, rfl⟩
  · rfl
  · rw [List.concat_eq_append, ← List.cons_append, endOf_concat, endOf_concat]

theorem chained_cons : Chained previous (r :: rs) ↔
    r.previous = previous ∧ r.isGenuine = true ∧ Chained r.hash rs := by
  constructor
  · rintro ⟨⟩
    exact ⟨rfl, ‹_›, ‹_›⟩
  · rintro ⟨rfl, genuine, tail⟩
    exact .cons genuine tail

theorem chained_concat : Chained previous (rs ++ [r]) ↔
    Chained previous rs ∧ r.previous = endOf previous rs ∧ r.isGenuine = true := by
  induction rs generalizing previous with
  | nil =>
    rw [List.nil_append, chained_cons, endOf_nil]
    exact ⟨fun ⟨follows, genuine, _⟩ => ⟨.nil _, follows, genuine⟩,
      fun ⟨_, follows, genuine⟩ => ⟨follows, genuine, .nil _⟩⟩
  | cons q rest ih =>
    rw [List.cons_append, chained_cons, chained_cons, ih, endOf_cons, and_assoc, and_assoc]

/-! ## Verification -/

theorem verifyFrom_cons_of_broken (broken : r.previous ≠ previous ∨ ¬ r.isGenuine) :
    verifyFrom previous (r :: rs) = .error (.chainBroken r.sequence) := by
  rw [verifyFrom, if_pos broken]
  rfl

theorem verifyFrom_cons_of_links (links : r.previous = previous) (genuine : r.isGenuine = true) :
    verifyFrom previous (r :: rs) = (verifyFrom r.hash rs).map (· + 1) := by
  have whole : ¬ (r.previous ≠ previous ∨ ¬ r.isGenuine) := by simp [links, genuine]
  rw [verifyFrom, if_neg whole]
  cases verifyFrom r.hash rs <;> rfl

/-- A chain is verified, and its records are counted. -/
theorem verifyFrom_chained (chained : Chained previous rs) :
    verifyFrom previous rs = .ok rs.length := by
  induction chained with
  | nil => rfl
  | cons genuine _ ih => rw [verifyFrom_cons_of_links rfl genuine, ih]; rfl

/-- What is no chain is refused at one of its records. -/
theorem verifyFrom_not_chained (broken : ¬ Chained previous rs) :
    ∃ r ∈ rs, verifyFrom previous rs = .error (.chainBroken r.sequence) := by
  induction rs generalizing previous with
  | nil => exact absurd (.nil previous) broken
  | cons r rest ih =>
    by_cases links : r.previous = previous ∧ r.isGenuine = true
    · obtain ⟨follows, genuine⟩ := links
      have later : ¬ Chained r.hash rest := fun tail =>
        broken (chained_cons.2 ⟨follows, genuine, tail⟩)
      obtain ⟨q, mem, refused⟩ := ih later
      refine ⟨q, List.mem_cons_of_mem r mem, ?_⟩
      rw [verifyFrom_cons_of_links follows genuine, refused]
      rfl
    · refine ⟨r, List.mem_cons_self, verifyFrom_cons_of_broken ?_⟩
      exact Decidable.not_and_iff_not_or_not.1 links

theorem chained_of_verifyFrom {n : Nat} (verified : verifyFrom previous rs = .ok n) :
    Chained previous rs := by
  by_contra broken
  obtain ⟨r, -, refused⟩ := verifyFrom_not_chained broken
  rw [refused] at verified
  cases verified

/-! ## The end of a chain -/

theorem isGenuine_make (sequence : UInt64) (time : Instant) (rejection : Rejection)
    (previous : String) : (make sequence time rejection previous).isGenuine = true :=
  beq_self_eq_true _

theorem hash_of_isGenuine (genuine : r.isGenuine = true) : r.hash = (Sha256.hash r.hashed).hex :=
  (eq_of_beq genuine).symm

/-- A genuine hash has an even number of digits, and so it is not what starts a chain. -/
theorem hash_ne_chainStart (genuine : r.isGenuine = true) : r.hash ≠ chainStart := by
  intro same
  have digits := Hex.length_encodeChars (Sha256.hash r.hashed).bytes
  have chars := congrArg String.toList same
  rw [hash_of_isGenuine genuine, Block.hex, Hex.encode, String.toList_ofList] at chars
  rw [chars] at digits
  have start : chainStart.toList.length = 11 := rfl
  omega

/-- A chain whose end is its start has no records. -/
theorem Chained.eq_nil (chained : Chained chainStart rs) (same : endOf chainStart rs = chainStart) :
    rs = [] := by
  rcases List.eq_nil_or_concat rs with empty | ⟨front, r, rfl⟩
  · exact empty
  · rw [List.concat_eq_append] at chained same
    rw [endOf_concat] at same
    exact absurd same (hash_ne_chainStart (chained_concat.1 chained).2.2)

/-- Whether different texts under the hashes of some records have different hashes. -/
def CollisionFree (rs : List Record) : Prop :=
  ∀ r ∈ rs, ∀ s ∈ rs, Sha256.hash r.hashed = Sha256.hash s.hashed → r.hashed = s.hashed

theorem CollisionFree.mono (free : CollisionFree ss) (sub : ∀ r ∈ rs, r ∈ ss) : CollisionFree rs :=
  fun r first s second => free r (sub r first) s (sub s second)

/-- Genuine records with the same hash are the same record. -/
theorem eq_of_hash_eq (free : CollisionFree [r, s]) (first : r.time.InCalendar)
    (second : s.time.InCalendar) (genuine : r.isGenuine = true) (genuine' : s.isGenuine = true)
    (same : r.hash = s.hash) : r = s := by
  have digests := same
  rw [hash_of_isGenuine genuine, hash_of_isGenuine genuine'] at digests
  have texts := free r List.mem_cons_self s (List.mem_cons_of_mem r List.mem_cons_self)
    (Block.hex_inj digests)
  obtain ⟨sequence, time, rejection, previous⟩ := hashed_inj first second texts
  cases r
  cases s
  simp only [mk.injEq]
  exact ⟨sequence, time, rejection, previous, same⟩

/-- Chains with the same end are the same.  Going back from the end, equal hashes are those of
equal records, and equal records follow equal hashes; a chain that starts has no records left,
whichever of the two it is. -/
theorem Chained.eq_of_endOf_eq (chained : Chained chainStart rs) (chained' : Chained chainStart ss)
    (times : ∀ r ∈ rs ++ ss, r.time.InCalendar) (free : CollisionFree (rs ++ ss))
    (same : endOf chainStart rs = endOf chainStart ss) : rs = ss := by
  induction rs using List.reverseRecOn generalizing ss with
  | nil => exact (chained'.eq_nil same.symm).symm
  | append_singleton front r ih =>
    rcases List.eq_nil_or_concat ss with rfl | ⟨front', s, rfl⟩
    · exact chained.eq_nil same
    · rw [List.concat_eq_append] at chained' times free same ⊢
      obtain ⟨before, follows, genuine⟩ := chained_concat.1 chained
      obtain ⟨before', follows', genuine'⟩ := chained_concat.1 chained'
      rw [endOf_concat, endOf_concat] at same
      obtain rfl : r = s := eq_of_hash_eq (free.mono (by simp)) (times r (by simp))
        (times s (by simp)) genuine genuine' same
      have fronts : ∀ q ∈ front ++ front', q ∈ front ++ [r] ++ (front' ++ [r]) := by
        simp only [List.mem_append]
        tauto
      rw [ih before before' (fun q mem => times q (fronts q mem)) (free.mono fronts)
        (follows.symm.trans follows')]

end Record

namespace RejectionLog

open Record (chainStart CollisionFree)

/-! ## Files -/

theorem verify_eq {log : RejectionLog} {rs : List Record}
    (read : recordsOf log.directory log.name = .ok rs) :
    log.verify = Record.verifyFrom chainStart rs := by
  rw [verify, read]
  rfl

theorem inCalendar_of_recordsOf {d : Directory} {name : String} {rs : List Record}
    (read : recordsOf d name = .ok rs) : ∀ r ∈ rs, r.time.InCalendar := by
  unfold recordsOf at read
  split at read
  · cases read
    exact nofun
  · exact Record.inCalendar_of_ofLines read

theorem recordsOf_lines {d : Directory} {name : String} {rs : List Record}
    (held : d.read? name = some (rs.flatMap Record.line))
    (times : ∀ r ∈ rs, r.time.InCalendar) : recordsOf d name = .ok rs := by
  rw [recordsOf, held]
  exact Record.ofFile_lines times

/-- The hash of the last record of a file that is verified fixes all its records: a file with
other records and the same last hash is refused at one of them. -/
theorem verify_fixed_by_last_hash {a b : RejectionLog} {rs ss : List Record} {r s : Record}
    {n : Nat} (read : recordsOf a.directory a.name = .ok rs)
    (read' : recordsOf b.directory b.name = .ok ss)
    (last : rs.getLast? = some r) (last' : ss.getLast? = some s)
    (verified : a.verify = .ok n) (same : s.hash = r.hash) (free : CollisionFree (rs ++ ss)) :
    (∀ k, b.verify = .ok k → ss = rs) ∧
      (ss ≠ rs → ∃ q ∈ ss, b.verify = .error (.chainBroken q.sequence)) := by
  rw [verify_eq read] at verified
  rw [verify_eq read']
  have times : ∀ q ∈ rs ++ ss, q.time.InCalendar := by
    intro q mem
    exact (List.mem_append.1 mem).elim (inCalendar_of_recordsOf read q)
      (inCalendar_of_recordsOf read' q)
  have ends : Record.endOf chainStart rs = Record.endOf chainStart ss := by
    rw [Record.endOf, Record.endOf, last, last', Option.map_some, Option.map_some, same]
  have fixed (chained : Record.Chained chainStart ss) : ss = rs :=
    ((Record.chained_of_verifyFrom verified).eq_of_endOf_eq chained times free ends).symm
  exact ⟨fun k verified' => fixed (Record.chained_of_verifyFrom verified'),
    fun other => Record.verifyFrom_not_chained fun chained => other (fixed chained)⟩

def holding (rs : List Record) : RejectionLog :=
  { RejectionLog.empty "intake.log" 0 with
    directory := Directory.empty.write "intake.log" (rs.flatMap Record.line) }

theorem recordsOf_holding {rs : List Record} (times : ∀ r ∈ rs, r.time.InCalendar) :
    recordsOf (holding rs).directory (holding rs).name = .ok rs :=
  recordsOf_lines (Directory.read?_write_self _ _ _) times

def replayRecord : Record :=
  Record.make 1 (.ofSeconds 0) ⟨"ECHOECHO", "0102030405060708", none, "nonce_replay", none⟩
    chainStart

def forgedRecord : Record :=
  { replayRecord with rejection := { replayRecord.rejection with sender := "MALLORY1" } }

/-- A record that is edited without its hash breaks the chain of its file. -/
theorem verify_forged : ∃ q ∈ [forgedRecord],
    (holding [forgedRecord]).verify = .error (.chainBroken q.sequence) := by
  have time : replayRecord.time.InCalendar := ⟨by decide, .inl (by decide)⟩
  have other : Sha256.hash replayRecord.hashed ≠ Sha256.hash forgedRecord.hashed := by
    decide +kernel
  have free : CollisionFree ([replayRecord] ++ [forgedRecord]) := by
    simp only [CollisionFree, List.singleton_append, List.forall_mem_cons, List.not_mem_nil]
    exact ⟨⟨fun _ => trivial, fun same => absurd same other, nofun⟩,
      ⟨fun same => absurd same.symm other, fun _ => trivial, nofun⟩, nofun⟩
  have times : ∀ r ∈ [replayRecord], r.time.InCalendar := List.forall_mem_singleton.2 time
  have times' : ∀ r ∈ [forgedRecord], r.time.InCalendar := List.forall_mem_singleton.2 time
  have verified : (holding [replayRecord]).verify = .ok 1 := by
    rw [verify_eq (recordsOf_holding times)]
    exact Record.verifyFrom_chained (.cons (Record.isGenuine_make _ _ _ _) (.nil _))
  have edited : [forgedRecord] ≠ [replayRecord] := by decide
  exact (verify_fixed_by_last_hash (recordsOf_holding times) (recordsOf_holding times') rfl rfl
    verified rfl free).2 edited

end RejectionLog

end SecureInbox
