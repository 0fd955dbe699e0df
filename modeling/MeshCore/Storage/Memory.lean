import MeshCore.Lib.Collections
import MeshCore.Wire.Header
import Mathlib.Data.Finset.Card
import Mathlib.Order.Interval.Finset.Nat

/-!
# Storage for reliability (`mesh-storage/src/lib.rs`, `backend/mem.rs`)

The interfaces `Wal` and `Dedup`, and the in-memory backend.

The processed ids of a peer are kept as a watermark (every id up to it is
processed) and a set of ids above it, the gap window. `mark_processed` and the
queries are the same in both backends, so they are stated once over the two
tables (`DedupTables`), and each backend applies them. `mark_cases` says all
that marking can do; what is known to be processed (`isProcessed`) only grows
under it as long as no sum wraps (`isProcessed_mark_of`), and nothing becomes
recorded that was not marked (`recorded_of_mark`).

Mirroring notes:
- Message ids and watermarks are naturals. An id is a counter, so the additions
  of one are exact. `cum + self.window_size` is different: both operands are the
  caller's, and the sum wraps at 2^64 as in a release build (`windowEnd`).
- The backends do no failing I/O here. The only error an operation returns is
  the corruption that `range` of the file backend detects.
- `while gaps.remove(&(cum + 1))` carries fuel, the size of the set.
-/

namespace MeshCore.Storage

open MeshCore.Lib MeshCore.Wire

/-- `Peer`: a remote node ID. -/
abbrev Peer := UInt64

/-- `AckState`. -/
structure AckState where
  cumAcked : Nat := 0
  deriving Repr, DecidableEq

/-- `WalEntry`. -/
structure WalEntry where
  msgId : Nat
  bytes : Bytes
  deriving Repr, DecidableEq

/-- The `StorageError` that can occur: `Corruption` with its text. -/
inductive StorageError where
  | corruption (reason : String)
  deriving Repr, DecidableEq

/-- `Wal`: the log of a sender, on a storage state `σ`. -/
class Wal (σ : Type) where
  append : σ → Peer → WalEntry → σ
  range : σ → Peer → Nat → Option Nat → Except StorageError (List WalEntry)
  truncateThrough : σ → Peer → Nat → σ
  lastAppended : σ → Peer → Nat
  loadAck : σ → Peer → AckState
  storeAck : σ → Peer → AckState → σ

/-- `Dedup`: the record of processed messages of a receiver. -/
class Dedup (σ : Type) where
  isProcessed : σ → Peer → Nat → Bool
  markProcessed : σ → Peer → Nat → σ
  cumProcessed : σ → Peer → Nat
  advanceCum : σ → Peer → Nat → σ
  snapshot : σ → σ

/-! ## The in-memory log -/

/-- `MemoryWal`. -/
structure MemoryWal where
  entries : HashMap Peer (List WalEntry)
  ackState : HashMap Peer AckState
  lastAppendedId : HashMap Peer Nat

namespace MemoryWal

/-- `MemoryWal::new`. -/
def new : MemoryWal := { entries := ∅, ackState := ∅, lastAppendedId := ∅ }

/-- The entries of a peer. -/
def entriesOf (w : MemoryWal) (peer : Peer) : List WalEntry := (w.entries.lookup peer).getD []

/-- `MemoryWal::append`. -/
def append (w : MemoryWal) (peer : Peer) (entry : WalEntry) : MemoryWal :=
  { w with entries := w.entries.insert peer (w.entriesOf peer ++ [entry])
           lastAppendedId := w.lastAppendedId.insert peer entry.msgId }

/-- The loop of `range`. The limit is tested after an entry was taken. -/
def collect (fromExclusive : Nat) (limit : Option Nat) :
    List WalEntry → List WalEntry → List WalEntry
  | [], results => results
  | entry :: entries, results =>
    if entry.msgId > fromExclusive then
      let results := results ++ [entry]
      if limit.any (fun limit => results.length ≥ limit) then results
      else collect fromExclusive limit entries results
    else collect fromExclusive limit entries results

/-- `MemoryWal::range`. -/
def range (w : MemoryWal) (peer : Peer) (fromExclusive : Nat) (limit : Option Nat) :
    Except StorageError (List WalEntry) :=
  .ok (collect fromExclusive limit (w.entriesOf peer) [])

/-- `MemoryWal::truncate_through`. -/
def truncateThrough (w : MemoryWal) (peer : Peer) (upToInclusive : Nat) : MemoryWal :=
  match w.entries.lookup peer with
  | some entries =>
    { w with entries := w.entries.insert peer (entries.filter fun e => e.msgId > upToInclusive) }
  | none => w

/-- `MemoryWal::last_appended`. -/
def lastAppended (w : MemoryWal) (peer : Peer) : Nat := (w.lastAppendedId.lookup peer).getD 0

/-- `MemoryWal::load_ack`. -/
def loadAck (w : MemoryWal) (peer : Peer) : AckState := (w.ackState.lookup peer).getD {}

/-- `MemoryWal::store_ack`. -/
def storeAck (w : MemoryWal) (peer : Peer) (ack : AckState) : MemoryWal :=
  { w with ackState := w.ackState.insert peer ack }

/-- Without a limit the loop filters. -/
theorem collect_none (fromExclusive : Nat) (entries results : List WalEntry) :
    collect fromExclusive none entries results
      = results ++ entries.filter fun e => e.msgId > fromExclusive := by
  induction entries generalizing results with
  | nil => exact (List.append_nil _).symm
  | cons entry entries ih =>
    unfold collect
    by_cases hgt : entry.msgId > fromExclusive
    · rw [if_pos hgt, List.filter_cons_of_pos (by simpa using hgt)]
      dsimp only [Option.any_none]
      rw [if_neg Bool.false_ne_true, ih, List.append_assoc, List.singleton_append]
    · rw [if_neg hgt, List.filter_cons_of_neg (by simpa using hgt), ih]

theorem entriesOf_append (w : MemoryWal) (peer q : Peer) (entry : WalEntry) :
    (w.append peer entry).entriesOf q
      = if q = peer then w.entriesOf peer ++ [entry] else w.entriesOf q := by
  unfold entriesOf append
  dsimp only
  rw [HashMap.lookup_insert_ite]
  split <;> rfl

theorem entriesOf_truncateThrough (w : MemoryWal) (peer q : Peer) (upTo : Nat) :
    (w.truncateThrough peer upTo).entriesOf q
      = if q = peer then (w.entriesOf peer).filter fun e => e.msgId > upTo else w.entriesOf q := by
  unfold truncateThrough
  cases h : w.entries.lookup peer with
  | none =>
    by_cases hq : q = peer
    · subst hq
      rw [if_pos rfl]
      unfold entriesOf
      rw [h]
      rfl
    · rw [if_neg hq]
  | some entries =>
    unfold entriesOf
    dsimp only
    rw [HashMap.lookup_insert_ite, h]
    split <;> rfl

theorem lastAppended_append (w : MemoryWal) (peer q : Peer) (entry : WalEntry) :
    (w.append peer entry).lastAppended q = if q = peer then entry.msgId else w.lastAppended q := by
  unfold lastAppended append
  dsimp only
  rw [HashMap.lookup_insert_ite]
  split <;> rfl

end MemoryWal

/-! ## Watermark and gap window -/

/-- The two tables of `MemoryDedup` and of `FileDedup`, with the window size. -/
structure DedupTables where
  cumProcessed : HashMap Peer Nat
  gapWindow : HashMap Peer (Finset Nat)
  windowSize : Nat

namespace DedupTables

/-- No peer known. -/
def new (windowSize : Nat) : DedupTables := { cumProcessed := ∅, gapWindow := ∅, windowSize }

/-- The watermark of a peer. -/
def cum (t : DedupTables) (peer : Peer) : Nat := (t.cumProcessed.lookup peer).getD 0

/-- The gap window of a peer. -/
def gaps (t : DedupTables) (peer : Peer) : Finset Nat := (t.gapWindow.lookup peer).getD ∅

/-- `cum + self.window_size` on `u64`. -/
def windowEnd (t : DedupTables) (cum : Nat) : Nat := (cum + t.windowSize) % 2 ^ 64

/-- `is_processed`. -/
def isProcessed (t : DedupTables) (peer : Peer) (msgId : Nat) : Bool :=
  if msgId ≤ t.cum peer then true
  else
    match t.gapWindow.lookup peer with
    | some gaps => msgId ∈ gaps
    | none => false

/-- `while gaps.remove(&(cum + 1)) { cum += 1 }`. -/
def absorb : Nat → Finset Nat → Nat → Nat × Finset Nat
  | 0, gaps, cum => (cum, gaps)
  | fuel + 1, gaps, cum =>
    if cum + 1 ∈ gaps then absorb fuel (gaps.erase (cum + 1)) (cum + 1) else (cum, gaps)

/-- `mark_processed`. -/
def markProcessed (t : DedupTables) (peer : Peer) (msgId : Nat) : DedupTables :=
  if msgId ≤ t.cum peer then t
  else if msgId = t.cum peer + 1 then
    -- the loop removes one gap each time, so their number bounds it
    let (cum, gaps) := absorb (t.gaps peer).card (t.gaps peer) msgId
    { t with
      cumProcessed := t.cumProcessed.insert peer cum
      gapWindow := t.gapWindow.insert peer (gaps.filter fun id => id > cum ∧ id ≤ t.windowEnd cum) }
  else if msgId ≤ t.windowEnd (t.cum peer) then
    { t with gapWindow := t.gapWindow.insert peer (insert msgId (t.gaps peer)) }
  else { t with gapWindow := t.gapWindow.insert peer (t.gaps peer) }

/-- `advance_cum`. -/
def advanceCum (t : DedupTables) (peer : Peer) (id : Nat) : DedupTables :=
  if id > t.cum peer then
    { t with
      cumProcessed := t.cumProcessed.insert peer id
      gapWindow :=
        match t.gapWindow.lookup peer with
        | some gaps => t.gapWindow.insert peer (gaps.filter fun gapId => gapId > id)
        | none => t.gapWindow }
  else t

theorem isProcessed_iff {t : DedupTables} {peer : Peer} {msgId : Nat} :
    t.isProcessed peer msgId = true ↔ msgId ≤ t.cum peer ∨ msgId ∈ t.gaps peer := by
  unfold isProcessed gaps
  by_cases hle : msgId ≤ t.cum peer
  · rw [if_pos hle]
    exact ⟨fun _ => Or.inl hle, fun _ => rfl⟩
  · rw [if_neg hle]
    cases t.gapWindow.lookup peer <;> simp [hle]

/-- The loop raises the watermark over the ids it finds and takes just those
out. -/
theorem absorb_spec : ∀ (fuel : Nat) (gaps : Finset Nat) (cum : Nat), gaps.card ≤ fuel →
    cum ≤ (absorb fuel gaps cum).1 ∧
    (∀ i, cum < i → i ≤ (absorb fuel gaps cum).1 → i ∈ gaps) ∧
    (absorb fuel gaps cum).1 + 1 ∉ gaps ∧
    ∀ i, i ∈ (absorb fuel gaps cum).2 ↔ i ∈ gaps ∧ ¬ (cum < i ∧ i ≤ (absorb fuel gaps cum).1)
  | 0, gaps, cum, h => by
    have hempty : gaps = ∅ := Finset.card_eq_zero.mp (Nat.le_zero.mp h)
    subst hempty
    exact ⟨Nat.le_refl _, fun i h₁ h₂ => absurd h₂ (Nat.not_le.mpr h₁), Finset.notMem_empty _,
      fun i => ⟨fun hi => absurd hi (Finset.notMem_empty i), fun hi => hi.1⟩⟩
  | fuel + 1, gaps, cum, h => by
    unfold absorb
    by_cases hmem : cum + 1 ∈ gaps
    · rw [if_pos hmem]
      have hcard : (gaps.erase (cum + 1)).card ≤ fuel := by
        rw [Finset.card_erase_of_mem hmem]
        omega
      obtain ⟨hle, hpassed, hstop, hleft⟩ :=
        absorb_spec fuel (gaps.erase (cum + 1)) (cum + 1) hcard
      generalize absorb fuel (gaps.erase (cum + 1)) (cum + 1) = r at *
      refine ⟨by omega, fun i h₁ h₂ => ?_, fun hin => ?_, fun i => ?_⟩
      · rcases Nat.lt_or_eq_of_le (Nat.succ_le_of_lt h₁) with hlt | heq
        · exact Finset.mem_of_mem_erase (hpassed i hlt h₂)
        · exact heq ▸ hmem
      · exact hstop (Finset.mem_erase.mpr ⟨by omega, hin⟩)
      · rw [hleft, Finset.mem_erase]
        refine ⟨fun ⟨⟨hne, hi⟩, hnot⟩ => ⟨hi, fun hc => ?_⟩, fun ⟨hi, hnot⟩ => ⟨⟨?_, hi⟩, ?_⟩⟩
        · exact hnot ⟨by omega, hc.2⟩
        · exact fun he => hnot ⟨by omega, by omega⟩
        · exact fun hc => hnot ⟨by omega, hc.2⟩
    · rw [if_neg hmem]
      exact ⟨Nat.le_refl _, fun i h₁ h₂ => absurd h₂ (Nat.not_le.mpr h₁), hmem,
        fun i => ⟨fun hi => ⟨hi, fun hc => absurd hc.2 (Nat.not_le.mpr hc.1)⟩, fun hi => hi.1⟩⟩

theorem cum_insert (t : DedupTables) (c : HashMap Peer Nat) (peer q : Peer) (n : Nat)
    (h : t.cumProcessed = c.insert peer n) :
    t.cum q = if q = peer then n else (c.lookup q).getD 0 := by
  unfold cum
  rw [h, HashMap.lookup_insert_ite]
  split <;> rfl

theorem gaps_insert (t : DedupTables) (g : HashMap Peer (Finset Nat)) (peer q : Peer)
    (n : Finset Nat) (h : t.gapWindow = g.insert peer n) :
    t.gaps q = if q = peer then n else (g.lookup q).getD ∅ := by
  unfold gaps
  rw [h, HashMap.lookup_insert_ite]
  split <;> rfl

/-- **What marking an id can do**: nothing, for an id at or below the watermark;
for the next id, move the watermark over it and over the gaps behind it; for an
id further ahead, remember it if the window reaches that far. -/
theorem mark_cases (t : DedupTables) (peer : Peer) (msgId : Nat) :
    (msgId ≤ t.cum peer ∧ t.markProcessed peer msgId = t) ∨
    (msgId = t.cum peer + 1 ∧ ∃ c, msgId ≤ c ∧ (∀ i, msgId < i → i ≤ c → i ∈ t.gaps peer) ∧
      c + 1 ∉ t.gaps peer ∧ (t.markProcessed peer msgId).cum peer = c ∧
      ∀ i, i ∈ (t.markProcessed peer msgId).gaps peer ↔
        i ∈ t.gaps peer ∧ c < i ∧ i ≤ t.windowEnd c) ∨
    (t.cum peer + 1 < msgId ∧ (t.markProcessed peer msgId).cum peer = t.cum peer ∧
      ∀ i, i ∈ (t.markProcessed peer msgId).gaps peer ↔
        i ∈ t.gaps peer ∨ (i = msgId ∧ msgId ≤ t.windowEnd (t.cum peer))) := by
  by_cases hle : msgId ≤ t.cum peer
  · exact Or.inl ⟨hle, by unfold markProcessed; rw [if_pos hle]⟩
  · by_cases hnext : msgId = t.cum peer + 1
    · refine Or.inr (Or.inl ⟨hnext, ?_⟩)
      obtain ⟨habove, hpassed, hstop, hleft⟩ :=
        absorb_spec _ (t.gaps peer) msgId (Nat.le_refl _)
      refine ⟨_, habove, hpassed, hstop, ?_, fun i => ?_⟩
      · unfold markProcessed
        rw [if_neg hle, if_pos hnext, cum_insert _ t.cumProcessed peer peer _ rfl, if_pos rfl]
      · unfold markProcessed
        rw [if_neg hle, if_pos hnext, gaps_insert _ t.gapWindow peer peer _ rfl, if_pos rfl,
          Finset.mem_filter, hleft]
        refine ⟨fun ⟨⟨hi, _⟩, hc⟩ => ⟨hi, hc⟩, fun ⟨hi, hc⟩ => ⟨⟨hi, ?_⟩, hc⟩⟩
        exact fun hb => absurd hb.2 (Nat.not_le.mpr hc.1)
    · refine Or.inr (Or.inr ⟨by omega, ?_, fun i => ?_⟩)
      · unfold markProcessed
        rw [if_neg hle, if_neg hnext]
        split <;> rfl
      · unfold markProcessed
        rw [if_neg hle, if_neg hnext]
        split
        next hwin =>
          rw [gaps_insert _ t.gapWindow peer peer _ rfl, if_pos rfl, Finset.mem_insert]
          exact ⟨fun h => h.symm.imp id fun he => ⟨he, hwin⟩, fun h => (h.imp id And.left).symm⟩
        next hwin =>
          rw [gaps_insert _ t.gapWindow peer peer _ rfl, if_pos rfl]
          exact ⟨Or.inl, fun h => h.elim id fun hc => absurd hc.2 hwin⟩

/-- Marking an id of one peer is not seen by another. -/
theorem mark_other (t : DedupTables) {peer q : Peer} (h : q ≠ peer) (msgId : Nat) :
    (t.markProcessed peer msgId).cum q = t.cum q ∧
      (t.markProcessed peer msgId).gaps q = t.gaps q := by
  unfold markProcessed
  split
  · exact ⟨rfl, rfl⟩
  · split
    · rw [cum_insert _ t.cumProcessed peer q _ rfl, if_neg h,
        gaps_insert _ t.gapWindow peer q _ rfl, if_neg h]
      exact ⟨rfl, rfl⟩
    · split
      · rw [gaps_insert _ t.gapWindow peer q _ rfl, if_neg h]
        exact ⟨rfl, rfl⟩
      · rw [gaps_insert _ t.gapWindow peer q _ rfl, if_neg h]
        exact ⟨rfl, rfl⟩

theorem mark_windowSize (t : DedupTables) (peer : Peer) (msgId : Nat) :
    (t.markProcessed peer msgId).windowSize = t.windowSize := by
  unfold markProcessed
  split
  · rfl
  · split
    · rfl
    · split <;> rfl

theorem cum_le_mark (t : DedupTables) (peer : Peer) (msgId : Nat) :
    t.cum peer ≤ (t.markProcessed peer msgId).cum peer := by
  rcases t.mark_cases peer msgId with ⟨-, heq⟩ | ⟨hid, c, hc, -, -, hcum, -⟩ | ⟨-, hcum, -⟩
  · rw [heq]
  · rw [hcum]
    omega
  · rw [hcum]

/-- Marking records at most one id more: the watermark moves over ids that were
remembered, and these are forgotten. -/
theorem recorded_card_mark (t : DedupTables) (peer : Peer) (msgId : Nat) :
    (t.markProcessed peer msgId).cum peer + ((t.markProcessed peer msgId).gaps peer).card
      ≤ t.cum peer + (t.gaps peer).card + 1 := by
  rcases t.mark_cases peer msgId with
    ⟨-, heq⟩ | ⟨hid, c, hc, hpassed, -, hcum, hgaps⟩ | ⟨-, hcum, hgaps⟩
  · rw [heq]
    omega
  · -- the ids the watermark passed over were all among the gaps
    have hsub : Finset.Ioc msgId c ⊆ t.gaps peer := fun i hi =>
      hpassed i (Finset.mem_Ioc.mp hi).1 (Finset.mem_Ioc.mp hi).2
    have hleft : (t.markProcessed peer msgId).gaps peer ⊆ t.gaps peer \ Finset.Ioc msgId c := by
      intro i hi
      obtain ⟨hold, hci, -⟩ := (hgaps i).mp hi
      exact Finset.mem_sdiff.mpr
        ⟨hold, fun hp => absurd (Finset.mem_Ioc.mp hp).2 (Nat.not_le.mpr hci)⟩
    have hcard := Finset.card_le_card hleft
    have hle := Finset.card_le_card hsub
    rw [Finset.card_sdiff_of_subset hsub, Nat.card_Ioc] at hcard
    rw [Nat.card_Ioc] at hle
    omega
  · have hsub : (t.markProcessed peer msgId).gaps peer ⊆ insert msgId (t.gaps peer) := by
      intro i hi
      rcases (hgaps i).mp hi with hold | ⟨rfl, -⟩
      · exact Finset.mem_insert_of_mem hold
      · exact Finset.mem_insert_self ..
    have hcard := Finset.card_le_card hsub
    have hins := Finset.card_insert_le msgId (t.gaps peer)
    omega

theorem cum_advanceCum (t : DedupTables) (peer q : Peer) (id : Nat) :
    (t.advanceCum peer id).cum q = if q = peer ∧ id > t.cum peer then id else t.cum q := by
  unfold advanceCum
  by_cases hgt : id > t.cum peer
  · rw [if_pos hgt, cum_insert _ t.cumProcessed peer q id rfl]
    by_cases hq : q = peer
    · rw [if_pos hq, if_pos ⟨hq, hgt⟩]
    · rw [if_neg hq, if_neg (fun h => hq h.1)]
      rfl
  · rw [if_neg hgt, if_neg (fun h => hgt h.2)]

/-- **What is recorded afterwards was marked**: an id below the new watermark or
in the new window was recorded before, or is the one just marked. -/
theorem recorded_of_mark {t : DedupTables} {peer : Peer} {msgId i : Nat}
    (h : i ≤ (t.markProcessed peer msgId).cum peer ∨ i ∈ (t.markProcessed peer msgId).gaps peer) :
    i ≤ t.cum peer ∨ i ∈ t.gaps peer ∨ i = msgId := by
  rcases t.mark_cases peer msgId with
    ⟨-, heq⟩ | ⟨hid, c, hc, hpassed, -, hcum, hgaps⟩ | ⟨-, hcum, hgaps⟩
  · rw [heq] at h
    exact h.imp id Or.inl
  · rw [hcum, hgaps] at h
    rcases h with hle | ⟨hi, -⟩
    · by_cases hlt : msgId < i
      · exact Or.inr (Or.inl (hpassed i hlt hle))
      · omega
    · exact Or.inr (Or.inl hi)
  · rw [hcum, hgaps] at h
    rcases h with hle | hi | ⟨heq, -⟩
    · exact Or.inl hle
    · exact Or.inr (Or.inl hi)
    · exact Or.inr (Or.inr heq)

/-- The remembered ids are above the watermark and within the window. -/
def InWindow (t : DedupTables) (peer : Peer) : Prop :=
  ∀ i ∈ t.gaps peer, t.cum peer < i ∧ i ≤ t.cum peer + t.windowSize

theorem windowEnd_eq {t : DedupTables} {cum : Nat} (h : cum + t.windowSize < 2 ^ 64) :
    t.windowEnd cum = cum + t.windowSize :=
  Nat.mod_eq_of_lt h

/-- Marking keeps the window, wherever the sum of watermark and window wraps. -/
theorem InWindow.mark {t : DedupTables} {peer : Peer} (h : t.InWindow peer) (msgId : Nat) :
    (t.markProcessed peer msgId).InWindow peer := by
  have hmod : ∀ c, t.windowEnd c ≤ c + t.windowSize := fun c => Nat.mod_le _ _
  unfold InWindow
  rw [mark_windowSize]
  rcases t.mark_cases peer msgId with
    ⟨-, heq⟩ | ⟨hid, c, hc, -, -, hcum, hgaps⟩ | ⟨hlt, hcum, hgaps⟩
  · rw [heq]
    exact h
  · rw [hcum]
    intro i hi
    obtain ⟨-, hci, hend⟩ := (hgaps i).mp hi
    exact ⟨hci, Nat.le_trans hend (hmod c)⟩
  · rw [hcum]
    intro i hi
    rcases (hgaps i).mp hi with hold | ⟨rfl, hend⟩
    · exact h i hold
    · exact ⟨by omega, Nat.le_trans hend (hmod _)⟩

/-- **What is processed stays processed**, as long as the sum of the watermark
and the window does not wrap. -/
theorem isProcessed_mark_of {t : DedupTables} {peer : Peer} {msgId i : Nat}
    (hwin : t.InWindow peer)
    (hsum : (t.markProcessed peer msgId).cum peer + t.windowSize < 2 ^ 64)
    (h : t.isProcessed peer i = true) : (t.markProcessed peer msgId).isProcessed peer i = true := by
  rw [isProcessed_iff] at h ⊢
  rcases t.mark_cases peer msgId with
    ⟨-, heq⟩ | ⟨hid, c, hc, -, -, hcum, hgaps⟩ | ⟨-, hcum, hgaps⟩
  · rw [heq]
    exact h
  · rw [hcum] at hsum ⊢
    rcases h with hle | hi
    · exact Or.inl (by omega)
    · by_cases hic : i ≤ c
      · exact Or.inl hic
      · -- above the new watermark, and the window has only moved up
        refine Or.inr ((hgaps i).mpr ⟨hi, Nat.lt_of_not_le hic, ?_⟩)
        rw [windowEnd_eq hsum]
        have := (hwin i hi).2
        omega
  · rw [hcum]
    rcases h with hle | hi
    · exact Or.inl hle
    · exact Or.inr ((hgaps i).mpr (Or.inl hi))

/-- An id that is the next one, or within the window, is processed once marked. -/
theorem isProcessed_mark_self {t : DedupTables} {peer : Peer} {msgId : Nat}
    (hsum : t.cum peer + t.windowSize < 2 ^ 64)
    (h : msgId ≤ t.cum peer + 1 ∨ msgId ≤ t.cum peer + t.windowSize) :
    (t.markProcessed peer msgId).isProcessed peer msgId = true := by
  rw [isProcessed_iff]
  rcases t.mark_cases peer msgId with
    ⟨hle, heq⟩ | ⟨-, c, hc, -, -, hcum, -⟩ | ⟨hlt, -, hgaps⟩
  · rw [heq]
    exact Or.inl hle
  · rw [hcum]
    exact Or.inl hc
  · refine Or.inr ((hgaps msgId).mpr (Or.inr ⟨rfl, ?_⟩))
    rw [windowEnd_eq hsum]
    omega

end DedupTables

/-! ## The in-memory backend -/

/-- `MemoryDedup`. -/
structure MemoryDedup where
  tables : DedupTables

namespace MemoryDedup

/-- `MemoryDedup::new`. -/
def new (windowSize : Nat) : MemoryDedup := ⟨.new windowSize⟩

/-- `MemoryDedup::with_default_window`. -/
def withDefaultWindow : MemoryDedup := new 65536

end MemoryDedup

/-- `Storage` with the in-memory backend. -/
structure MemoryStorage where
  wal : MemoryWal
  dedup : MemoryDedup

/-- An in-memory storage with the given window. -/
def MemoryStorage.new (windowSize : Nat) : MemoryStorage := ⟨.new, .new windowSize⟩

instance : Wal MemoryStorage where
  append s peer entry := { s with wal := s.wal.append peer entry }
  range s := s.wal.range
  truncateThrough s peer upTo := { s with wal := s.wal.truncateThrough peer upTo }
  lastAppended s := s.wal.lastAppended
  loadAck s := s.wal.loadAck
  storeAck s peer ack := { s with wal := s.wal.storeAck peer ack }

instance : Dedup MemoryStorage where
  isProcessed s := s.dedup.tables.isProcessed
  markProcessed s peer id := { s with dedup := ⟨s.dedup.tables.markProcessed peer id⟩ }
  cumProcessed s := s.dedup.tables.cum
  advanceCum s peer id := { s with dedup := ⟨s.dedup.tables.advanceCum peer id⟩ }
  snapshot s := s

end MeshCore.Storage
