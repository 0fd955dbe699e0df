import MeshCore.Storage.File
import MeshCore.Lib.Runs
import Mathlib.Data.List.Infix
import Mathlib.Order.Bounds.Basic

/-!
# What the watermark and the gap window record

A watermark with a set of ids above it stands for a set of processed ids. As long
as every marked id is within the window and no sum wraps, it stands for exactly
the ids that were marked, in whatever order (`Records.mark`): the watermark is
then the greatest number up to which all were marked (`Records.isGreatest`).

`mark_processed` leaves no gap entry right above the watermark (`Maximal.mark`).
`advance_cum` raises the watermark too, but does not absorb what becomes
contiguous with it, so it keeps the watermark maximal only if the id above its
argument is not processed (`maximal_advanceCum`). Where it is, the watermark
stands still: a receiver skips the id that would move it (`Stuck.receive`).

Both backends do what their tables do (`Backed`), and the results are stated for
both.
-/

namespace MeshCore.Storage

open MeshCore.Lib MeshCore.Wire

namespace DedupTables

variable {t : DedupTables} {peer : Peer}

/-! ## Marking -/

/-- The sums of watermark and window that `mark_processed` computes. -/
def windowSums (t : DedupTables) (peer : Peer) (msgId : Nat) : List Nat :=
  if msgId ≤ t.cum peer then []
  else if msgId = t.cum peer + 1 then
    let (cum, gaps) := absorb (t.gaps peer).card (t.gaps peer) msgId
    -- `retain` gets to the sum for an id above the watermark only
    if ∃ id ∈ gaps, id > cum then [cum + t.windowSize] else []
  else [t.cum peer + t.windowSize]

/-- The next id: a sum is computed if a gap entry is left above the watermark. -/
theorem mem_windowSums_of_next {msgId i : Nat} (hnext : msgId = t.cum peer + 1)
    (hi : i ∈ t.gaps peer) (habove : (t.markProcessed peer msgId).cum peer < i) :
    (t.markProcessed peer msgId).cum peer + t.windowSize ∈ t.windowSums peer msgId := by
  have hle : ¬ msgId ≤ t.cum peer := by omega
  obtain ⟨-, -, -, hleft⟩ := absorb_spec _ (t.gaps peer) msgId (Nat.le_refl _)
  have hcum : (t.markProcessed peer msgId).cum peer
      = (absorb (t.gaps peer).card (t.gaps peer) msgId).1 := by
    unfold markProcessed
    rw [if_neg hle, if_pos hnext, cum_insert _ t.cumProcessed peer peer _ rfl, if_pos rfl]
  rw [hcum] at habove ⊢
  unfold windowSums
  rw [if_neg hle, if_pos hnext]
  dsimp only
  have hkept : ∃ id ∈ (absorb (t.gaps peer).card (t.gaps peer) msgId).2,
      id > (absorb (t.gaps peer).card (t.gaps peer) msgId).1 :=
    ⟨i, (hleft i).mpr ⟨hi, fun hpassed => absurd habove (Nat.not_lt.mpr hpassed.2)⟩, habove⟩
  rw [if_pos hkept]
  exact List.mem_singleton_self _

/-- **Marking adds one id**, if the id is within the window and no sum wraps. -/
theorem isProcessed_mark_iff {msgId i : Nat} (hwin : t.InWindow peer)
    (hle : msgId ≤ t.cum peer + t.windowSize)
    (hsums : ∀ sum ∈ t.windowSums peer msgId, sum < 2 ^ 64) :
    (t.markProcessed peer msgId).isProcessed peer i = true ↔
      t.isProcessed peer i = true ∨ i = msgId := by
  rw [isProcessed_iff, isProcessed_iff]
  refine ⟨fun h => or_assoc.mpr (recorded_of_mark h), fun h => ?_⟩
  rcases t.mark_cases peer msgId with
    ⟨hold, heq⟩ | ⟨hid, c, hc, hpassed, -, hcum, hgaps⟩ | ⟨hlt, hcum, hgaps⟩
  · rw [heq]
    rcases h with hrec | rfl
    · exact hrec
    · exact .inl hold
  · rw [hcum]
    rcases h with (hcovered | hgap) | rfl
    · exact .inl (by omega)
    · by_cases hic : i ≤ c
      · exact .inl hic
      · -- a gap entry that is left is within the window, which has only moved up
        have hsum := hsums _ (mem_windowSums_of_next hid hgap (by omega))
        rw [hcum] at hsum
        have hin := (hwin i hgap).2
        refine .inr ((hgaps i).mpr ⟨hgap, Nat.lt_of_not_le hic, ?_⟩)
        rw [windowEnd_eq hsum]
        omega
    · exact .inl hc
  · rw [hcum]
    rcases h with (hcovered | hgap) | rfl
    · exact .inl hcovered
    · exact .inr ((hgaps i).mpr (.inl hgap))
    · have hsum : t.cum peer + t.windowSize < 2 ^ 64 := by
        refine hsums _ ?_
        unfold windowSums
        rw [if_neg (by omega), if_neg (by omega)]
        exact List.mem_singleton_self _
      refine .inr ((hgaps i).mpr (.inr ⟨rfl, ?_⟩))
      rw [windowEnd_eq hsum]
      exact hle

/-! ## The watermark -/

/-- The id above the watermark is not processed. -/
def Maximal (t : DedupTables) (peer : Peer) : Prop :=
  t.isProcessed peer (t.cum peer + 1) = false

theorem maximal_iff : t.Maximal peer ↔ t.cum peer + 1 ∉ t.gaps peer := by
  unfold Maximal
  rw [Bool.eq_false_iff, ne_eq, isProcessed_iff, not_or]
  exact and_iff_right (Nat.not_succ_le_self _)

/-- **Marking keeps the watermark maximal**, whatever the sums are. -/
theorem Maximal.mark (h : t.Maximal peer) (msgId : Nat) :
    (t.markProcessed peer msgId).Maximal peer := by
  rw [maximal_iff] at h ⊢
  rcases t.mark_cases peer msgId with
    ⟨-, heq⟩ | ⟨-, c, -, -, hstop, hcum, hgaps⟩ | ⟨hlt, hcum, hgaps⟩
  · rw [heq]
    exact h
  · rw [hcum]
    exact fun hin => hstop ((hgaps _).mp hin).1
  · rw [hcum]
    intro hin
    rcases (hgaps _).mp hin with hold | ⟨heq, -⟩
    · exact h hold
    · omega

theorem mem_gaps_advanceCum {id i : Nat} (hgt : id > t.cum peer) :
    i ∈ (t.advanceCum peer id).gaps peer ↔ i ∈ t.gaps peer ∧ i > id := by
  unfold advanceCum
  rw [if_pos hgt]
  unfold gaps
  dsimp only
  cases hgaps : t.gapWindow.lookup peer with
  | some gaps =>
    dsimp only
    rw [AList.lookup_insert, Option.getD_some, Finset.mem_filter, Option.getD_some]
  | none =>
    dsimp only
    rw [hgaps]
    simp

theorem advanceCum_of_le {id : Nat} (hle : ¬ id > t.cum peer) : t.advanceCum peer id = t := by
  unfold advanceCum
  exact if_neg hle

theorem maximal_of_no_gaps (h : t.gaps peer = ∅) : t.Maximal peer := by
  rw [maximal_iff, h]
  exact Finset.notMem_empty _

/-- **When advancing keeps the watermark maximal.** -/
theorem maximal_advanceCum (h : t.Maximal peer) (id : Nat) :
    (t.advanceCum peer id).Maximal peer ↔
      (t.cum peer < id → t.isProcessed peer (id + 1) = false) := by
  by_cases hgt : id > t.cum peer
  · rw [maximal_iff, cum_advanceCum, if_pos ⟨rfl, hgt⟩, mem_gaps_advanceCum hgt]
    rw [Bool.eq_false_iff, ne_eq, isProcessed_iff, not_or]
    constructor
    · exact fun hnot _ => ⟨by omega, fun hin => hnot ⟨hin, Nat.lt_succ_self id⟩⟩
    · exact fun hclear hin => (hclear hgt).2 hin.1
  · rw [advanceCum_of_le hgt]
    exact ⟨fun _ hlt => absurd hlt hgt, fun _ => h⟩

/-- Advancing the watermark of one peer is not seen by another. -/
theorem advanceCum_other {q : Peer} (h : q ≠ peer) (id : Nat) :
    (t.advanceCum peer id).cum q = t.cum q ∧ (t.advanceCum peer id).gaps q = t.gaps q := by
  refine ⟨by rw [cum_advanceCum, if_neg (fun hq => h hq.1)], ?_⟩
  unfold advanceCum
  split
  next =>
    unfold gaps
    dsimp only
    cases hgaps : t.gapWindow.lookup peer with
    | some gaps => rw [AList.lookup_insert_ne h]
    | none => rfl
  next => rfl

/-- What is seen of a peer depends on its watermark and its gaps. -/
theorem isProcessed_congr {t' : DedupTables} {q : Peer} (hcum : t'.cum q = t.cum q)
    (hgaps : t'.gaps q = t.gaps q) (msgId : Nat) :
    t'.isProcessed q msgId = t.isProcessed q msgId := by
  rw [Bool.eq_iff_iff, isProcessed_iff, isProcessed_iff, hcum, hgaps]

theorem maximal_congr {t' : DedupTables} {q : Peer}
    (h : t'.cum q = t.cum q ∧ t'.gaps q = t.gaps q) : t'.Maximal q ↔ t.Maximal q := by
  rw [maximal_iff, maximal_iff, h.1, h.2]

/-- `process_data_frame`, as far as the record goes: what is processed is skipped. -/
def receive (peer : Peer) (t : DedupTables) (msgId : Nat) : DedupTables :=
  if t.isProcessed peer msgId then t else t.markProcessed peer msgId

/-- The id above the watermark is processed: it is among the gaps. -/
def Stuck (peer : Peer) (cum : Nat) (t : DedupTables) : Prop :=
  t.cum peer = cum ∧ cum + 1 ∈ t.gaps peer

/-- No delivery moves a watermark that is stuck. -/
theorem Stuck.receive {cum : Nat} (h : Stuck peer cum t) (msgId : Nat) :
    Stuck peer cum (t.receive peer msgId) := by
  obtain ⟨rfl, hgap⟩ := h
  unfold DedupTables.receive
  split
  next => exact ⟨rfl, hgap⟩
  next hnew =>
    rcases t.mark_cases peer msgId with ⟨-, heq⟩ | ⟨hid, -⟩ | ⟨-, hcum, hgaps⟩
    · rw [heq]
      exact ⟨rfl, hgap⟩
    · exact absurd (isProcessed_iff.mpr (.inr (hid ▸ hgap))) hnew
    · exact ⟨hcum, (hgaps _).mpr (.inl hgap)⟩

/-- **Some deliveries raise the watermark exactly when it is maximal**, and then one
does. -/
theorem maximal_iff_moves :
    t.Maximal peer ↔ ∃ ids : List Nat, t.cum peer < (ids.foldl (receive peer) t).cum peer := by
  constructor
  · intro h
    refine ⟨[t.cum peer + 1], ?_⟩
    show _ < (t.receive peer (t.cum peer + 1)).cum peer
    unfold DedupTables.receive
    rw [show t.isProcessed peer (t.cum peer + 1) = false from h, if_neg Bool.false_ne_true]
    rcases t.mark_cases peer (t.cum peer + 1) with ⟨hle, -⟩ | ⟨-, c, hc, -, -, hcum, -⟩ | ⟨hlt, -⟩
    · omega
    · rw [hcum]
      exact hc
    · omega
  · rintro ⟨ids, hmoves⟩
    rw [maximal_iff]
    intro hgap
    have hstuck : Stuck peer (t.cum peer) (ids.foldl (receive peer) t) :=
      List.foldlRecOn ids _ ⟨rfl, hgap⟩ fun s hs id _ => Stuck.receive hs id
    rw [hstuck.1] at hmoves
    exact Nat.lt_irrefl _ hmoves

/-! ## What is recorded -/

/-- The tables stand for a set of ids. -/
structure Records (t : DedupTables) (peer : Peer) (marked : Set Nat) : Prop where
  inWindow : t.InWindow peer
  maximal : t.Maximal peer
  processed : ∀ id, t.isProcessed peer id = true ↔ id = 0 ∨ id ∈ marked

theorem records_of_empty (hcum : t.cum peer = 0) (hgaps : t.gaps peer = ∅) :
    t.Records peer ∅ := by
  refine ⟨fun i hi => ?_, maximal_of_no_gaps hgaps, fun id => ?_⟩
  · rw [hgaps] at hi
    exact absurd hi (Finset.notMem_empty i)
  · rw [isProcessed_iff, hcum, hgaps]
    simp

theorem Records.mark {marked : Set Nat} (h : t.Records peer marked) {msgId : Nat}
    (hle : msgId ≤ t.cum peer + t.windowSize)
    (hsums : ∀ sum ∈ t.windowSums peer msgId, sum < 2 ^ 64) :
    (t.markProcessed peer msgId).Records peer (insert msgId marked) := by
  refine ⟨h.inWindow.mark msgId, h.maximal.mark msgId, fun id => ?_⟩
  rw [isProcessed_mark_iff h.inWindow hle hsums, h.processed, Set.mem_insert_iff, or_assoc,
    or_comm (a := id ∈ marked)]

/-- The watermark of tables that stand for a set. -/
theorem Records.isGreatest {marked : Set Nat} (h : t.Records peer marked) :
    IsGreatest {n | ∀ id, 1 ≤ id → id ≤ n → id ∈ marked} (t.cum peer) := by
  constructor
  · intro id hpos hle
    rcases (h.processed id).mp (isProcessed_iff.mpr (.inl hle)) with hzero | hin
    · omega
    · exact hin
  · intro n hn
    by_contra hlt
    have hnext : t.cum peer + 1 ∈ marked := hn _ (by omega) (by omega)
    have hp := (h.processed _).mpr (.inr hnext)
    rw [show t.isProcessed peer (t.cum peer + 1) = false from h.maximal] at hp
    exact Bool.false_ne_true hp

end DedupTables

/-! ## The backends -/

/-- A backend does to its tables what the interface says, and answers from them. -/
structure Backed {σ : Type} [Dedup σ] (tables : σ → DedupTables) : Prop where
  isProcessed : ∀ s peer id, Dedup.isProcessed s peer id = (tables s).isProcessed peer id
  cumProcessed : ∀ s peer, Dedup.cumProcessed s peer = (tables s).cum peer
  markProcessed : ∀ s peer id,
    tables (Dedup.markProcessed s peer id) = (tables s).markProcessed peer id
  advanceCum : ∀ s peer id, tables (Dedup.advanceCum s peer id) = (tables s).advanceCum peer id

theorem memory_backed : Backed fun s : MemoryStorage => s.dedup.tables :=
  ⟨fun _ _ _ => rfl, fun _ _ => rfl, fun _ _ _ => rfl, fun _ _ _ => rfl⟩

theorem file_backed (crates : Crates) : Backed fun s : FileStorage crates => s.dedup.tables :=
  ⟨fun _ _ _ => rfl, fun _ _ => rfl, fun _ _ _ => rfl, fun _ _ _ => rfl⟩

/-! ## Runs of `mark_processed` -/

/-- A call `mark_processed(peer, msg_id)`. -/
abbrev MarkCall := Peer × Nat

/-- One call on the tables. -/
def DedupTables.mark (t : DedupTables) (call : MarkCall) : DedupTables :=
  t.markProcessed call.1 call.2

/-- The calls in order, on a backend. -/
def markAll {σ : Type} [Dedup σ] (s : σ) (calls : List MarkCall) : σ :=
  calls.foldl (fun s call => Dedup.markProcessed s call.1 call.2) s

/-- A call for the peer has an id within the window, and no sum it computes wraps. -/
def WithinWindow (peer : Peer) (t : DedupTables) (call : MarkCall) : Prop :=
  call.1 = peer → call.2 ≤ t.cum peer + t.windowSize ∧
    ∀ sum ∈ t.windowSums peer call.2, sum < 2 ^ 64

instance (peer : Peer) (t : DedupTables) (call : MarkCall) :
    Decidable (WithinWindow peer t call) :=
  inferInstanceAs (Decidable (_ → _))

/-- What a backend says of a peer is what the calls for it marked. -/
structure RecordsExactly {σ : Type} [Dedup σ] (s : σ) (peer : Peer) (calls : List MarkCall) :
    Prop where
  cum : IsGreatest {n | ∀ id, 1 ≤ id → id ≤ n → (peer, id) ∈ calls} (Dedup.cumProcessed s peer)
  processed : ∀ id, Dedup.isProcessed s peer id = true ↔ id = 0 ∨ (peer, id) ∈ calls

/-- Two states of a backend that say the same of a peer. -/
def SameRecord {σ : Type} [Dedup σ] (peer : Peer) (s s' : σ) : Prop :=
  Dedup.cumProcessed s peer = Dedup.cumProcessed s' peer ∧
    ∀ id, Dedup.isProcessed s peer id = Dedup.isProcessed s' peer id

theorem RecordsExactly.same {σ : Type} [Dedup σ] {s s' : σ} {peer : Peer}
    {calls calls' : List MarkCall} (h : RecordsExactly s peer calls)
    (h' : RecordsExactly s' peer calls')
    (hcalls : ∀ id, (peer, id) ∈ calls ↔ (peer, id) ∈ calls') : SameRecord peer s s' := by
  refine ⟨?_, fun id => ?_⟩
  · have hcum := h.cum
    simp only [hcalls] at hcum
    exact hcum.unique h'.cum
  · rw [Bool.eq_iff_iff, h.processed, h'.processed, hcalls]

/-- A call for another peer leaves what is recorded for this one. -/
theorem DedupTables.Records.mark_other {t : DedupTables} {peer q : Peer} {marked : Set Nat}
    (h : t.Records peer marked) (hq : peer ≠ q) (msgId : Nat) :
    (t.markProcessed q msgId).Records peer marked := by
  obtain ⟨hcum, hgaps⟩ := t.mark_other hq msgId
  have hprocessed := isProcessed_congr hcum hgaps
  refine ⟨?_, ?_, fun id => ?_⟩
  · unfold InWindow
    rw [hgaps, hcum, mark_windowSize]
    exact h.inWindow
  · exact (maximal_congr ⟨hcum, hgaps⟩).mpr h.maximal
  · rw [hprocessed]
    exact h.processed id

/-- **A run within the window** records the ids that were marked for the peer. -/
theorem DedupTables.Records.run {peer : Peer} {t : DedupTables} {marked : Set Nat}
    (h : t.Records peer marked) {calls : List MarkCall}
    (hcalls : Along DedupTables.mark (WithinWindow peer) t calls) :
    (calls.foldl DedupTables.mark t).Records peer (marked ∪ {id | (peer, id) ∈ calls}) := by
  induction calls generalizing t marked with
  | nil =>
    rw [show marked ∪ {id | (peer, id) ∈ ([] : List MarkCall)} = marked by simp]
    exact h
  | cons call calls ih =>
    obtain ⟨q, msgId⟩ := call
    by_cases hq : q = peer
    · subst hq
      obtain ⟨hle, hsums⟩ := hcalls.1 rfl
      have hset : marked ∪ {id | (q, id) ∈ (q, msgId) :: calls}
          = insert msgId marked ∪ {id | (q, id) ∈ calls} := by
        ext id
        simp [or_left_comm, or_assoc]
      rw [hset]
      exact ih (h.mark hle hsums) hcalls.2
    · have hset : marked ∪ {id | (peer, id) ∈ (q, msgId) :: calls}
          = marked ∪ {id | (peer, id) ∈ calls} := by
        ext id
        simp [Ne.symm hq]
      rw [hset]
      exact ih (h.mark_other (fun heq => hq heq.symm) msgId) hcalls.2

/-- Tables that agree for a peer. -/
structure DedupTables.SameFor (peer : Peer) (t t' : DedupTables) : Prop where
  cum : t.cum peer = t'.cum peer
  gaps : t.gaps peer = t'.gaps peer
  windowSize : t.windowSize = t'.windowSize

theorem DedupTables.SameFor.refl (peer : Peer) (t : DedupTables) : t.SameFor peer t :=
  ⟨rfl, rfl, rfl⟩

theorem DedupTables.cum_insert_self (c : HashMap Peer Nat) (g : HashMap Peer (Finset Nat))
    (windowSize : Nat) (peer : Peer) (n : Nat) :
    (DedupTables.mk (c.insert peer n) g windowSize).cum peer = n :=
  (cum_insert _ c peer peer n rfl).trans (if_pos rfl)

theorem DedupTables.gaps_insert_self (c : HashMap Peer Nat) (g : HashMap Peer (Finset Nat))
    (windowSize : Nat) (peer : Peer) (n : Finset Nat) :
    (DedupTables.mk c (g.insert peer n) windowSize).gaps peer = n :=
  (gaps_insert _ g peer peer n rfl).trans (if_pos rfl)

/-- Marking reads and changes the peer's own part of the tables only. -/
theorem DedupTables.SameFor.mark {peer : Peer} {t t' : DedupTables} (h : SameFor peer t t')
    (msgId : Nat) : SameFor peer (t.markProcessed peer msgId) (t'.markProcessed peer msgId) := by
  obtain ⟨hcum, hgaps, hsize⟩ := h
  have hend : t.windowEnd = t'.windowEnd := by
    unfold windowEnd
    rw [hsize]
  unfold markProcessed
  rw [hcum, hgaps, hend]
  split
  next => exact ⟨hcum, hgaps, hsize⟩
  next =>
    split
    next =>
      refine ⟨?_, ?_, hsize⟩
      · rw [cum_insert_self, cum_insert_self]
      · rw [gaps_insert_self, gaps_insert_self]
    next =>
      split
      next => exact ⟨hcum, by rw [gaps_insert_self, gaps_insert_self], hsize⟩
      next => exact ⟨hcum, by rw [gaps_insert_self, gaps_insert_self], hsize⟩

theorem DedupTables.SameFor.run_filter {peer : Peer} {t t' : DedupTables} (h : SameFor peer t t')
    (calls : List MarkCall) : SameFor peer (calls.foldl DedupTables.mark t)
      ((calls.filter fun call => call.1 = peer).foldl DedupTables.mark t') := by
  induction calls generalizing t t' with
  | nil => exact h
  | cons call calls ih =>
    by_cases hq : call.1 = peer
    · rw [List.filter_cons_of_pos (by simpa using hq)]
      refine ih ?_
      unfold DedupTables.mark
      rw [hq]
      exact h.mark call.2
    · rw [List.filter_cons_of_neg (by simpa using hq)]
      obtain ⟨hcum, hgaps⟩ := t.mark_other (fun heq => hq heq.symm) call.2
      exact ih ⟨hcum.trans h.cum, hgaps.trans h.gaps,
        (mark_windowSize t call.1 call.2).trans h.windowSize⟩

section

variable {σ : Type} [Dedup σ] {tables : σ → DedupTables}

theorem Backed.markAll (hb : Backed tables) (s : σ) (calls : List MarkCall) :
    tables (markAll s calls) = calls.foldl DedupTables.mark (tables s) := by
  induction calls generalizing s with
  | nil => rfl
  | cons call calls ih =>
    show tables (Storage.markAll (Dedup.markProcessed s call.1 call.2) calls) = _
    rw [ih, hb.markProcessed]
    rfl

theorem Backed.recordsExactly (hb : Backed tables) {s : σ} {windowSize : Nat}
    (hs : tables s = .new windowSize) {peer : Peer} {calls : List MarkCall}
    (hcalls : Along DedupTables.mark (WithinWindow peer) (.new windowSize) calls) :
    RecordsExactly (Storage.markAll s calls) peer calls := by
  have hempty : (DedupTables.new windowSize).Records peer ∅ :=
    DedupTables.records_of_empty rfl rfl
  have hrecords := hempty.run hcalls
  rw [Set.empty_union, ← hs, ← hb.markAll] at hrecords
  refine ⟨?_, fun id => ?_⟩
  · rw [hb.cumProcessed]
    exact hrecords.isGreatest
  · rw [hb.isProcessed]
    exact hrecords.processed id

/-- The calls for other peers may be left out. -/
theorem Backed.sameRecord_filter (hb : Backed tables) (s : σ) (peer : Peer)
    (calls : List MarkCall) : SameRecord peer (Storage.markAll s calls)
      (Storage.markAll s (calls.filter fun call => call.1 = peer)) := by
  obtain ⟨hcum, hgaps, -⟩ := (DedupTables.SameFor.refl peer (tables s)).run_filter calls
  refine ⟨?_, fun id => ?_⟩
  · rw [hb.cumProcessed, hb.cumProcessed, hb.markAll, hb.markAll, hcum]
  · rw [hb.isProcessed, hb.isProcessed, hb.markAll, hb.markAll]
    exact DedupTables.isProcessed_congr hcum hgaps id

end

/-- **The record is exact, in every order of the calls.** After any calls on a fresh
record, of which those for a peer are within the window and compute no sum that
wraps, the watermark of the peer is the greatest number up to which all ids were
marked, and the processed ids are 0 and those that were marked. So the order of the
calls does not matter, nor do the calls for other peers. -/
theorem dedup_exact (crates : Crates) (segmentBytes windowSize : Nat) (peer : Peer)
    (calls : List MarkCall)
    (hcalls : Along DedupTables.mark (WithinWindow peer) (.new windowSize) calls) :
    let memory := MemoryStorage.new windowSize
    let file := FileStorage.start crates segmentBytes windowSize ∅
    (RecordsExactly (markAll memory calls) peer calls ∧
      RecordsExactly (markAll file calls) peer calls) ∧
    (∀ calls', Along DedupTables.mark (WithinWindow peer) (.new windowSize) calls' →
      (∀ id, (peer, id) ∈ calls ↔ (peer, id) ∈ calls') →
      SameRecord peer (markAll memory calls) (markAll memory calls') ∧
        SameRecord peer (markAll file calls) (markAll file calls')) ∧
    SameRecord peer (markAll memory calls)
        (markAll memory (calls.filter fun call => call.1 = peer)) ∧
      SameRecord peer (markAll file calls)
        (markAll file (calls.filter fun call => call.1 = peer)) := by
  intro memory file
  have hmemory : ∀ {calls}, Along DedupTables.mark (WithinWindow peer) (.new windowSize) calls →
      RecordsExactly (markAll memory calls) peer calls :=
    fun h => memory_backed.recordsExactly rfl h
  have hfile : ∀ {calls}, Along DedupTables.mark (WithinWindow peer) (.new windowSize) calls →
      RecordsExactly (markAll file calls) peer calls :=
    fun h => (file_backed crates).recordsExactly rfl h
  refine ⟨⟨hmemory hcalls, hfile hcalls⟩, fun calls' hcalls' hsame => ⟨?_, ?_⟩, ?_, ?_⟩
  · exact (hmemory hcalls).same (hmemory hcalls') hsame
  · exact (hfile hcalls).same (hfile hcalls') hsame
  · exact memory_backed.sameRecord_filter memory peer calls
  · exact (file_backed crates).sameRecord_filter file peer calls

/-- Message 3 before 2, 2 twice, and one of another peer in between. -/
theorem dedup_exact_gap :
    let calls := [(7, 1), (7, 3), (8, 2), (7, 2), (7, 2)]
    Dedup.cumProcessed (markAll (MemoryStorage.new 2) calls) 7 = 3 ∧
    RecordsExactly (markAll (MemoryStorage.new 2) calls) 7 calls :=
  ⟨by decide +kernel,
    (dedup_exact .standard 1000 2 7 [(7, 1), (7, 3), (8, 2), (7, 2), (7, 2)]
      (by decide +kernel)).1.1⟩

/-! ## Runs of `mark_processed` and `advance_cum` -/

/-- The operations that move the watermark. -/
inductive DedupOp where
  | mark (peer : Peer) (msgId : Nat)
  | advance (peer : Peer) (id : Nat)
  deriving Repr, DecidableEq

/-- The operation made on a backend. -/
def DedupOp.run {σ : Type} [Dedup σ] (s : σ) : DedupOp → σ
  | mark peer msgId => Dedup.markProcessed s peer msgId
  | advance peer id => Dedup.advanceCum s peer id

/-- A delivery: a receiver skips the ids that are reported as processed. -/
def deliver {σ : Type} [Dedup σ] (peer : Peer) (s : σ) (msgId : Nat) : σ :=
  if Dedup.isProcessed s peer msgId then s else Dedup.markProcessed s peer msgId

/-- The id above the watermark is not processed, and some deliveries raise the
watermark. -/
def Movable {σ : Type} [Dedup σ] (peer : Peer) (s : σ) : Prop :=
  Dedup.isProcessed s peer (Dedup.cumProcessed s peer + 1) = false ∧
    ∃ ids : List Nat, Dedup.cumProcessed s peer
      < Dedup.cumProcessed (ids.foldl (deliver peer) s) peer

/-- The operation does not raise the watermark to right below a processed id. -/
def DedupOp.StopsClear {σ : Type} [Dedup σ] (peer : Peer) (s : σ) : DedupOp → Prop
  | mark _ _ => True
  | advance q id => q = peer → Dedup.cumProcessed s peer < id →
      Dedup.isProcessed s peer (id + 1) = false

section

variable {σ : Type} [Dedup σ] {tables : σ → DedupTables}

theorem Backed.deliver (hb : Backed tables) (peer : Peer) (s : σ) (msgId : Nat) :
    tables (Storage.deliver peer s msgId) = (tables s).receive peer msgId := by
  unfold Storage.deliver DedupTables.receive
  rw [hb.isProcessed]
  split
  next => rfl
  next => exact hb.markProcessed s peer msgId

theorem Backed.foldl_deliver (hb : Backed tables) (peer : Peer) (s : σ) (ids : List Nat) :
    tables (ids.foldl (Storage.deliver peer) s)
      = ids.foldl (DedupTables.receive peer) (tables s) := by
  induction ids generalizing s with
  | nil => rfl
  | cons id ids ih => rw [List.foldl_cons, List.foldl_cons, ih, hb.deliver]

theorem Backed.movable_iff (hb : Backed tables) {peer : Peer} {s : σ} :
    Movable peer s ↔ (tables s).Maximal peer := by
  unfold Movable
  simp only [hb.isProcessed, hb.cumProcessed, hb.foldl_deliver]
  rw [← DedupTables.maximal_iff_moves]
  exact and_self_iff

theorem Backed.stopsClear_iff (hb : Backed tables) {peer : Peer} {s : σ}
    (h : (tables s).Maximal peer) (op : DedupOp) :
    (tables (op.run s)).Maximal peer ↔ op.StopsClear peer s := by
  cases op with
  | mark q msgId =>
    refine iff_of_true ?_ trivial
    show (tables (Dedup.markProcessed s q msgId)).Maximal peer
    rw [hb.markProcessed]
    by_cases hq : peer = q
    · subst hq
      exact h.mark msgId
    · exact (DedupTables.maximal_congr ((tables s).mark_other hq msgId)).mpr h
  | advance q id =>
    show (tables (Dedup.advanceCum s q id)).Maximal peer ↔ (q = peer → _)
    rw [hb.advanceCum, hb.cumProcessed, hb.isProcessed]
    by_cases hq : peer = q
    · subst hq
      rw [DedupTables.maximal_advanceCum h]
      exact ⟨fun hclear _ => hclear, fun hclear => hclear rfl⟩
    · refine iff_of_true ?_ fun heq => absurd heq.symm hq
      exact (DedupTables.maximal_congr (DedupTables.advanceCum_other hq id)).mpr h

theorem Backed.movable_run_iff (hb : Backed tables) {peer : Peer} {s : σ}
    (h : (tables s).Maximal peer) (ops : List DedupOp) :
    (∀ done, done <+: ops → Movable peer (done.foldl DedupOp.run s)) ↔
      Along DedupOp.run (DedupOp.StopsClear peer) s ops := by
  simp only [hb.movable_iff]
  exact every_state_iff_along (I := fun s => (tables s).Maximal peer)
    (fun s op hs => hb.stopsClear_iff hs op) h

end

/-- **When the watermark is maximal.** In a run of `mark_processed` and `advance_cum`
calls on either backend the id above the watermark is never processed, so that a
delivery can move the watermark, exactly when no `advance_cum` raises the watermark
to right below a processed id. -/
theorem watermark_maximal_iff (crates : Crates) (segmentBytes windowSize : Nat) (disk : Disk)
    (peer : Peer) (ops : List DedupOp) :
    ((∀ done, done <+: ops → Movable peer (done.foldl DedupOp.run (MemoryStorage.new windowSize))) ↔
      Along DedupOp.run (DedupOp.StopsClear peer) (MemoryStorage.new windowSize) ops) ∧
    ((∀ done, done <+: ops →
        Movable peer (done.foldl DedupOp.run
          (FileStorage.start crates segmentBytes windowSize disk))) ↔
      Along DedupOp.run (DedupOp.StopsClear peer)
        (FileStorage.start crates segmentBytes windowSize disk) ops) := by
  constructor
  · exact memory_backed.movable_run_iff (DedupTables.maximal_of_no_gaps rfl) ops
  · exact (file_backed crates).movable_run_iff (DedupTables.maximal_of_no_gaps rfl) ops

/-- Message 3 was processed out of order when the watermark is advanced to 2. -/
theorem advanced_below_processed :
    ¬ ∀ (windowSize : Nat) (peer : Peer) (ops : List DedupOp),
      (∀ done, done <+: ops →
        Dedup.cumProcessed (done.foldl DedupOp.run (MemoryStorage.new windowSize)) peer + windowSize
          < 2 ^ 64 - 1) →
      ∀ done, done <+: ops →
        let s := done.foldl DedupOp.run (MemoryStorage.new windowSize)
        Dedup.isProcessed s peer (Dedup.cumProcessed s peer + 1) = false := by
  intro h
  have hbelow : ∀ done ∈ [.mark 7 3, .advance 7 2].inits,
      Dedup.cumProcessed (done.foldl DedupOp.run (MemoryStorage.new 65536)) 7 + 65536
        < 2 ^ 64 - 1 := by decide +kernel
  have hclear := h 65536 7 [.mark 7 3, .advance 7 2]
    (fun done hdone => hbelow done ((List.mem_inits _ _).mpr hdone)) _ List.prefix_rfl
  exact absurd hclear (by decide +kernel)

end MeshCore.Storage
