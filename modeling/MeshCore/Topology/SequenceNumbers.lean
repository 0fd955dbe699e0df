import MeshCore.Topology.Rejoin

/-!
# Sequence numbers

`next_sequence_number` counts up in a `u64` and wraps from `u64::MAX` to 0, and
`is_newer_than` reads the wrapping difference of two numbers as signed. Inside a window of
at most 2^63 consecutive numbers this is a strict total order, the one of the distances from
the window's start, and every number a database yields is newer than each of the 2^63 - 1
before it (`sequence_numbers_ordered`).
-/

namespace MeshCore.Topology

open MeshCore.Lib

/-! ## Windows -/

/-- The number is one of the `size` consecutive numbers from `base` on, modulo 2^64. -/
def InSeqWindow (base : UInt64) (size : Nat) (seq : UInt64) : Prop :=
  ∃ k < size, seq = base + UInt64.ofNat k

/-- In a window of at most 2^63 numbers the distance from its start is below 2^63. -/
theorem InSeqWindow.offset_lt {base seq : UInt64} {size : Nat} (h : InSeqWindow base size seq)
    (hsize : size ≤ 2 ^ 63) : (seq - base).toNat < 2 ^ 63 := by
  obtain ⟨k, hk, heq⟩ := h
  have hcircle : k < UInt64.size := by
    show k < 2 ^ 64
    omega
  have hofNat : (UInt64.ofNat k).toNat = k := UInt64.toNat_ofNat_of_lt' hcircle
  rw [heq, UInt64.add_comm, UInt64.add_sub_cancel, hofNat]
  omega

/-- **The order inside a window**: newer means further from its start. -/
theorem isNewerThan_iff_offset {base : UInt64} {size : Nat} (hsize : size ≤ 2 ^ 63)
    {s t : TopologyUpdate} (hs : InSeqWindow base size s.sequenceNumber)
    (ht : InSeqWindow base size t.sequenceNumber) :
    s.isNewerThan t.sequenceNumber = true ↔
      (t.sequenceNumber - base).toNat < (s.sequenceNumber - base).toNat :=
  isNewerThan_iff_isNewer.trans
    (Serial.isNewer_iff_offset_lt (hs.offset_lt hsize) (ht.offset_lt hsize))

/-! ## The numbers a database yields -/

/-- The calls of a run: `next_sequence_number` by itself, or one of the others. -/
inductive SequenceCall where
  | nextSequenceNumber
  | other (call : DbCall)

/-- The database after a call. -/
def SequenceCall.apply (db : TopologyDatabase) : SequenceCall → TopologyDatabase
  | .nextSequenceNumber => db.nextSequenceNumber.2
  | .other call => call.apply db

/-- The value that `next_sequence_number` returns in a call: `update_local_neighbors` calls
it as well. -/
def SequenceCall.value? (db : TopologyDatabase) : SequenceCall → Option UInt64
  | .nextSequenceNumber => some db.nextSequenceNumber.1
  | .other (.updateLocalNeighbors ..) => some db.nextSequenceNumber.1
  | .other _ => none

/-- The values that `next_sequence_number` returns in a run, in order. -/
def yielded (db : TopologyDatabase) : List SequenceCall → List UInt64
  | [] => []
  | call :: calls => (call.value? db).toList ++ yielded (call.apply db) calls

/-- A call yields the local sequence number and counts it up, or leaves it alone. -/
theorem value_cases (db : TopologyDatabase) (call : SequenceCall) :
    (call.value? db = some db.localSequence ∧
      (call.apply db).localSequence = db.localSequence + 1) ∨
    (call.value? db = none ∧ (call.apply db).localSequence = db.localSequence) := by
  cases call with
  | nextSequenceNumber => exact Or.inl ⟨rfl, rfl⟩
  | other call =>
    cases call with
    | updateLocalNeighbors now neighbors => exact Or.inl ⟨rfl, rfl⟩
    | processTopologyUpdate now update => exact Or.inr ⟨rfl, apply_localSequence db (by simp)⟩
    | cleanupOldEntries now => exact Or.inr ⟨rfl, apply_localSequence db (by simp)⟩

/-- The values are consecutive. -/
theorem yielded_getElem? {db : TopologyDatabase} {calls : List SequenceCall} {i : Nat} {v : UInt64}
    (h : (yielded db calls)[i]? = some v) : v = db.localSequence + UInt64.ofNat i := by
  induction calls generalizing db i with
  | nil => cases h
  | cons call calls ih =>
    unfold yielded at h
    rcases value_cases db call with ⟨hvalue, hnext⟩ | ⟨hvalue, hnext⟩
    · rw [hvalue, Option.toList_some, List.singleton_append] at h
      cases i with
      | zero =>
        rw [List.getElem?_cons_zero] at h
        exact (Option.some.inj h).symm.trans (UInt64.add_zero _).symm
      | succ i =>
        rw [List.getElem?_cons_succ] at h
        rw [ih h, hnext, UInt64.add_assoc, UInt64.ofNat_add, UInt64.add_comm (UInt64.ofNat i)]
        rfl
    · rw [hvalue, Option.toList_none, List.nil_append] at h
      rw [ih h, hnext]

/-- A value is newer than each of the 2^63 - 1 before it. -/
theorem yielded_isNewerThan {db : TopologyDatabase} {calls : List SequenceCall} {i k : Nat}
    {v : UInt64} {u : TopologyUpdate} (hi : (yielded db calls)[i]? = some v)
    (hu : (yielded db calls)[i + k]? = some u.sequenceNumber) (hpos : 0 < k) (hk : k < 2 ^ 63) :
    u.isNewerThan v = true := by
  have hv : u.sequenceNumber = v + UInt64.ofNat k := by
    rw [yielded_getElem? hu, yielded_getElem? hi, UInt64.add_assoc, UInt64.ofNat_add]
  rw [isNewerThan_iff_isNewer, hv]
  exact Serial.isNewer_add v.toBitVec hpos hk

/-- **Sequence comparison is an order within a window**, and `next_sequence_number` moves up
in it, in every run and from every starting number. -/
theorem sequence_numbers_ordered :
    (∀ (base : UInt64) (size : Nat), size ≤ 2 ^ 63 → ∀ s t u : TopologyUpdate,
      InSeqWindow base size s.sequenceNumber → InSeqWindow base size t.sequenceNumber →
      InSeqWindow base size u.sequenceNumber →
      s.isNewerThan s.sequenceNumber = false ∧
      (s.isNewerThan t.sequenceNumber = true → t.isNewerThan u.sequenceNumber = true →
        s.isNewerThan u.sequenceNumber = true) ∧
      (s.sequenceNumber ≠ t.sequenceNumber →
        s.isNewerThan t.sequenceNumber = true ∨ t.isNewerThan s.sequenceNumber = true) ∧
      (s.isNewerThan t.sequenceNumber = true ↔
        (t.sequenceNumber - base).toNat < (s.sequenceNumber - base).toNat)) ∧
    ∀ (db : TopologyDatabase) (calls : List SequenceCall) (i j : Nat) (v : UInt64)
      (u : TopologyUpdate), (yielded db calls)[i]? = some v →
      (yielded db calls)[j]? = some u.sequenceNumber → i < j → j - i ≤ 2 ^ 63 - 1 →
      u.isNewerThan v = true := by
  constructor
  · intro base size hsize s t u hs ht hu
    have hs' := hs.offset_lt hsize
    have ht' := ht.offset_lt hsize
    have hu' := hu.offset_lt hsize
    simp only [isNewerThan_iff_isNewer]
    refine ⟨not_isNewerThan_self s, ?_, ?_, ?_⟩
    · exact Serial.IsNewer.trans hs' ht' hu'
    · intro hne
      exact Serial.isNewer_or_isNewer hs' ht' fun heq => hne (UInt64.eq_of_toBitVec_eq heq)
    · rw [← isNewerThan_iff_isNewer]
      exact isNewerThan_iff_offset hsize hs ht
  · intro db calls i j v u hi hj hlt hle
    obtain ⟨k, hk⟩ := Nat.exists_eq_add_of_lt hlt
    subst hk
    rw [Nat.add_assoc] at hj
    exact yielded_isNewerThan hi hj (Nat.succ_pos k) (by omega)

/-- After `u64::MAX` comes 0, which is newer. -/
theorem sequence_numbers_ordered_wrap :
    TopologyUpdate.isNewerThan
      { originatorNode := 1, sequenceNumber := 0, neighbors := [], ttl := 8, timestamp := 0 }
      0xFFFFFFFFFFFFFFFF = true :=
  sequence_numbers_ordered.2
    { TopologyDatabase.new 1 with localSequence := 0xFFFFFFFFFFFFFFFF }
    [.nextSequenceNumber, .other (.updateLocalNeighbors 0 [])] 0 1 _ _ (by rfl) (by rfl)
    (by omega) (by omega)

end MeshCore.Topology
