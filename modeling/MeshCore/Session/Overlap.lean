import MeshCore.Session.Delivery
import MeshCore.Lib.Pool
import MeshCore.Lib.Runs

/-!
# Overlapping deliveries

`process_data_frame` asks the record of processed ids whether a message is new
and marks it in a second call. Each call is atomic, but nothing holds the record
in between, and two sessions with one peer can be inside `process_data_frame` at
the same time.

A pool of `DataTask`s takes the two steps in any order. One task alone does what
`processDataFrame` does (`call_alone`). The record only ever has ids of tasks that
reported a new message, and no id that was marked within the window is forgotten
(`Recorded.advance`). So of the tasks for one id at most one reports a new message
as long as none makes its check while another is between its check and its mark;
and if one does, both will report it (`accepted_once_iff`,
`both_checked_before_marked`).
-/

namespace MeshCore.Session

open MeshCore.Lib MeshCore.Storage

/-! ## The calls in two steps -/

/-- Where a call is. -/
inductive CallState where
  | started
  /-- It found the message not processed. -/
  | checked
  /-- The result: whether the message was newly processed. -/
  | returned (newlyProcessed : Bool)
  deriving Repr, DecidableEq

/-- A call of `process_data_frame` for some message. -/
structure DataTask where
  msgId : Nat
  state : CallState
  deriving Repr, DecidableEq

/-- Its next step: the check, or the mark. -/
def DataTask.step (peer : Peer) (task : DataTask) (t : DedupTables) : DataTask × DedupTables :=
  match task.state with
  | .started =>
    if t.isProcessed peer task.msgId then ({ task with state := .returned false }, t)
    else ({ task with state := .checked }, t)
  | .checked => ({ task with state := .returned true }, t.markProcessed peer task.msgId)
  | .returned _ => (task, t)

/-- All calls for one peer, and the record. -/
abbrev Deliveries := Pool DataTask DedupTables

/-- The next step of one of the calls. -/
def Deliveries.step (peer : Peer) (p : Deliveries) (i : Nat) : Deliveries :=
  p.advance (DataTask.step peer) i

/-- No message processed yet, and the calls to come. -/
def Deliveries.new (windowSize : Nat) (msgIds : List Nat) : Deliveries :=
  { tasks := msgIds.map fun msgId => { msgId, state := .started }, shared := .new windowSize }

/-- A schedule: which call takes its next step. -/
def Deliveries.run (peer : Peer) (p : Deliveries) (schedule : List Nat) : Deliveries :=
  schedule.foldl (Deliveries.step peer) p

/-- Every call has returned. -/
def Deliveries.Done (p : Deliveries) : Prop := ∀ task ∈ p.tasks, ∃ b, task.state = .returned b

/-- No two calls have reported the same message as new. -/
def Deliveries.AcceptedOnce (p : Deliveries) : Prop :=
  ∀ (i j : Nat) (a b : DataTask), p.tasks[i]? = some a → p.tasks[j]? = some b →
    a.msgId = b.msgId → a.state = .returned true → b.state = .returned true → i = j

/-- A call that makes its check has the next id, or one within the window. -/
def Deliveries.InsideWindow (peer : Peer) (p : Deliveries) (i : Nat) : Prop :=
  ∀ task ∈ p.tasks[i]?, task.state = .started →
    task.msgId ≤ p.shared.cum peer + 1 ∨ task.msgId ≤ p.shared.cum peer + p.shared.windowSize

instance (peer : Peer) (p : Deliveries) (i : Nat) : Decidable (p.InsideWindow peer i) :=
  inferInstanceAs (Decidable (∀ task ∈ p.tasks[i]?, _ → _))

/-- A call that makes its check does so while no other call for the message is
between its check and its mark. -/
def Deliveries.ChecksAlone (p : Deliveries) (i : Nat) : Prop :=
  ∀ task ∈ p.tasks[i]?, task.state = .started →
    ∀ other ∈ p.tasks, other.msgId = task.msgId → other.state ≠ .checked

instance (p : Deliveries) (i : Nat) : Decidable (p.ChecksAlone i) :=
  inferInstanceAs (Decidable (∀ task ∈ p.tasks[i]?, _ → ∀ other ∈ p.tasks, _ → _))

/-- Nothing between its two steps, a call is `process_data_frame`. -/
theorem call_alone (c : DataCall) (m : ReliabilityManager MemoryStorage) :
    ∃ b, (c.run m).1 = .ok b ∧
      Deliveries.run c.peer ⟨[⟨c.msgId, .started⟩], recordOf m⟩ [0, 0]
        = ⟨[⟨c.msgId, .returned b⟩], recordOf (c.run m).2⟩ := by
  obtain ⟨hresult, hrecord⟩ := run_record c m
  refine ⟨_, hresult, ?_⟩
  rw [hrecord]
  unfold Deliveries.run
  cases hp : (recordOf m).isProcessed c.peer c.msgId with
  | true => simp [Deliveries.step, Pool.advance, DataTask.step, hp]
  | false => simp [Deliveries.step, Pool.advance, DataTask.step, hp]

/-! ## One step -/

/-- What a step of a call can be. -/
theorem DataTask.step_cases (peer : Peer) (task : DataTask) (t : DedupTables) :
    (task.state = .started ∧ task.step peer t = ({ task with state := .returned false }, t)) ∨
    (task.state = .started ∧ t.isProcessed peer task.msgId = false ∧
      task.step peer t = ({ task with state := .checked }, t)) ∨
    (task.state = .checked ∧
      task.step peer t
        = ({ task with state := .returned true }, t.markProcessed peer task.msgId)) ∨
    ((∃ b, task.state = .returned b) ∧ task.step peer t = (task, t)) := by
  unfold DataTask.step
  cases hstate : task.state with
  | started =>
    cases hp : t.isProcessed peer task.msgId with
    | true => exact Or.inl ⟨rfl, rfl⟩
    | false => exact Or.inr (Or.inl ⟨rfl, rfl, rfl⟩)
  | checked => exact Or.inr (Or.inr (Or.inl ⟨rfl, rfl⟩))
  | returned b => exact Or.inr (Or.inr (Or.inr ⟨⟨b, rfl⟩, rfl⟩))

/-- The call has reported the message as new, or is going to. -/
def DataTask.Claims (task : DataTask) : Prop :=
  task.state = .checked ∨ task.state = .returned true

theorem DataTask.step_msgId (peer : Peer) (task : DataTask) (t : DedupTables) :
    (task.step peer t).1.msgId = task.msgId := by
  rcases task.step_cases peer t with ⟨-, heq⟩ | ⟨-, -, heq⟩ | ⟨-, heq⟩ | ⟨-, heq⟩
  · rw [heq]
  · rw [heq]
  · rw [heq]
  · rw [heq]

theorem DataTask.Claims.step {task : DataTask} (h : task.Claims) (peer : Peer) (t : DedupTables) :
    (task.step peer t).1.Claims := by
  rcases task.step_cases peer t with ⟨hs, -⟩ | ⟨hs, -, -⟩ | ⟨-, heq⟩ | ⟨-, heq⟩
  · rcases h with hc | hr
    · exact absurd (hs.symm.trans hc) (by simp)
    · exact absurd (hs.symm.trans hr) (by simp)
  · rcases h with hc | hr
    · exact absurd (hs.symm.trans hc) (by simp)
    · exact absurd (hs.symm.trans hr) (by simp)
  · rw [heq]
    exact Or.inr rfl
  · rw [heq]
    exact h

/-- Two calls for one message have reported it as new, or are going to. -/
def Deliveries.Twice (p : Deliveries) : Prop :=
  ∃ (i j : Nat) (a b : DataTask), i ≠ j ∧ p.tasks[i]? = some a ∧ p.tasks[j]? = some b ∧
    a.msgId = b.msgId ∧ a.Claims ∧ b.Claims

section

variable {peer : Peer} {p : Deliveries}

/-- A call after a step of some call. -/
theorem Deliveries.get_step (peer : Peer) {j : Nat} {task : DataTask}
    (h : p.tasks[j]? = some task) (i : Nat) : ∃ task', (p.step peer i).tasks[j]? = some task' ∧
      task'.msgId = task.msgId ∧ (task.Claims → task'.Claims) := by
  unfold Deliveries.step
  rw [Pool.getElem?_advance, h]
  split
  next => exact ⟨_, rfl, task.step_msgId peer p.shared, fun hc => hc.step peer p.shared⟩
  next => exact ⟨task, rfl, rfl, id⟩

/-- Two reports to come are never withdrawn. -/
theorem Deliveries.Twice.step (h : p.Twice) (peer : Peer) (i : Nat) : (p.step peer i).Twice := by
  obtain ⟨j, k, a, b, hjk, ha, hb, hid, hca, hcb⟩ := h
  obtain ⟨a', ha', hida, hca'⟩ := get_step peer ha i
  obtain ⟨b', hb', hidb, hcb'⟩ := get_step peer hb i
  exact ⟨j, k, a', b', hjk, ha', hb', hida.trans (hid.trans hidb.symm), hca' hca, hcb' hcb⟩

/-- When all calls have returned, the reports are there. -/
theorem Deliveries.Twice.not_acceptedOnce (h : p.Twice) (hdone : p.Done) : ¬ p.AcceptedOnce := by
  obtain ⟨i, j, a, b, hij, ha, hb, hid, hca, hcb⟩ := h
  have hreturned : ∀ {task : DataTask}, task ∈ p.tasks → task.Claims →
      task.state = .returned true := by
    intro task hmem hc
    obtain ⟨r, hr⟩ := hdone task hmem
    rcases hc with hchecked | htrue
    · exact absurd (hr.symm.trans hchecked) (by simp)
    · exact htrue
  intro honce
  exact hij (honce i j a b ha hb hid (hreturned (List.mem_of_getElem? ha) hca)
    (hreturned (List.mem_of_getElem? hb) hcb))

theorem Deliveries.acceptedOnce_of_not_twice (h : ¬ p.Twice) : p.AcceptedOnce := by
  intro i j a b ha hb hid hra hrb
  by_contra hij
  exact h ⟨i, j, a, b, hij, ha, hb, hid, Or.inr hra, Or.inr hrb⟩

/-! ## The record -/

/-- The record of the calls: what is processed was reported as new by some call,
and what a call reported as new is processed. -/
structure Recorded (windowSize : Nat) (peer : Peer) (p : Deliveries) : Prop where
  fits : p.tasks.length + windowSize < 2 ^ 64
  size : p.shared.windowSize = windowSize
  inWindow : p.shared.InWindow peer
  processed : ∀ i, p.shared.isProcessed peer i = true →
    i = 0 ∨ ∃ task ∈ p.tasks, task.msgId = i ∧ task.state = .returned true
  checked : ∀ task ∈ p.tasks, task.state = .checked → task.msgId ≠ 0 ∧
    (task.msgId ≤ p.shared.cum peer + 1 ∨ task.msgId ≤ p.shared.cum peer + windowSize)
  accepted : ∀ task ∈ p.tasks, task.state = .returned true →
    p.shared.isProcessed peer task.msgId = true

theorem recorded_new {windowSize : Nat} {msgIds : List Nat}
    (hfits : msgIds.length + windowSize < 2 ^ 64) (peer : Peer) :
    Recorded windowSize peer (Deliveries.new windowSize msgIds) := by
  have hstarted : ∀ task ∈ (Deliveries.new windowSize msgIds).tasks, task.state = .started := by
    intro task htask
    obtain ⟨msgId, -, rfl⟩ := List.mem_map.mp htask
    rfl
  refine ⟨?_, rfl, (recordOk_new windowSize peer).inWindow, fun i hi => ?_, fun task ht hc => ?_,
    fun task ht hr => ?_⟩
  · rw [show (Deliveries.new windowSize msgIds).tasks.length = msgIds.length from
      List.length_map ..]
    exact hfits
  · rcases DedupTables.isProcessed_iff.mp hi with hle | hmem
    · exact Or.inl (Nat.le_zero.mp hle)
    · exact absurd hmem (Finset.notMem_empty i)
  · exact absurd ((hstarted task ht).symm.trans hc) (by simp)
  · exact absurd ((hstarted task ht).symm.trans hr) (by simp)

/-- The watermark is over no more ids than there are calls. -/
theorem cum_le_length {t : DedupTables} {tasks : List DataTask}
    (h : ∀ i, t.isProcessed peer i = true → i = 0 ∨ ∃ task ∈ tasks, task.msgId = i) :
    t.cum peer ≤ tasks.length := by
  have hsub : Finset.Icc 1 (t.cum peer) ⊆ (tasks.map DataTask.msgId).toFinset := by
    intro i hi
    obtain ⟨hpos, hle⟩ := Finset.mem_Icc.mp hi
    rcases h i (DedupTables.isProcessed_iff.mpr (Or.inl hle)) with hzero | ⟨task, hmem, hid⟩
    · omega
    · exact List.mem_toFinset.mpr (List.mem_map.mpr ⟨task, hmem, hid⟩)
  calc t.cum peer = (Finset.Icc 1 (t.cum peer)).card := by rw [Nat.card_Icc]; omega
    _ ≤ (tasks.map DataTask.msgId).toFinset.card := Finset.card_le_card hsub
    _ ≤ (tasks.map DataTask.msgId).length := List.toFinset_card_le _
    _ = tasks.length := List.length_map ..

/-- A call that has returned stays as it is. -/
theorem Deliveries.mem_step_of_returned {task : DataTask} (h : task ∈ p.tasks) {b : Bool}
    (hb : task.state = .returned b) (i : Nat) : task ∈ (p.step peer i).tasks := by
  obtain ⟨j, hj⟩ := List.getElem?_of_mem h
  refine List.mem_of_getElem? (i := j) ?_
  unfold Deliveries.step
  rw [Pool.getElem?_advance, hj]
  have hsame : task.step peer p.shared = (task, p.shared) := by
    unfold DataTask.step
    rw [hb]
  split
  next => exact congrArg (fun r => some r.1) hsame
  next => rfl

/-- A step that leaves the record alone, and the call it makes. -/
theorem Recorded.of_shared {windowSize : Nat} (h : Recorded windowSize peer p) {q : Deliveries}
    {moved : DataTask} (hlength : q.tasks.length = p.tasks.length) (hshared : q.shared = p.shared)
    (hmem : ∀ u ∈ q.tasks, u ∈ p.tasks ∨ u = moved)
    (hkept : ∀ u ∈ p.tasks, u.state = .returned true → u ∈ q.tasks)
    (hchecked : moved.state = .checked → moved.msgId ≠ 0 ∧
      (moved.msgId ≤ p.shared.cum peer + 1 ∨ moved.msgId ≤ p.shared.cum peer + windowSize))
    (haccepted : moved.state = .returned true → p.shared.isProcessed peer moved.msgId = true) :
    Recorded windowSize peer q := by
  refine ⟨by rw [hlength]; exact h.fits, ?_, ?_, ?_, ?_, ?_⟩
  · rw [hshared]
    exact h.size
  · rw [hshared]
    exact h.inWindow
  · rw [hshared]
    intro i hi
    refine (h.processed i hi).imp id ?_
    rintro ⟨u, hu, hid, hr⟩
    exact ⟨u, hkept u hu hr, hid, hr⟩
  · rw [hshared]
    intro u hu hc
    rcases hmem u hu with hold | rfl
    · exact h.checked u hold hc
    · exact hchecked hc
  · rw [hshared]
    intro u hu hr
    rcases hmem u hu with hold | rfl
    · exact h.accepted u hold hr
    · exact haccepted hr

/-- A call marks its message: the record has it then, and forgets no other. -/
theorem Recorded.of_mark {windowSize : Nat} (h : Recorded windowSize peer p) {q : Deliveries}
    {t : DataTask} (ht : t ∈ p.tasks) (hchecked : t.state = .checked)
    (hlength : q.tasks.length = p.tasks.length)
    (hshared : q.shared = p.shared.markProcessed peer t.msgId)
    (hmem : ∀ u ∈ q.tasks, u ∈ p.tasks ∨ u = { t with state := .returned true })
    (hmoved : { t with state := .returned true } ∈ q.tasks)
    (hkept : ∀ u ∈ p.tasks, u.state = .returned true → u ∈ q.tasks) :
    Recorded windowSize peer q := by
  obtain ⟨-, hinside⟩ := h.checked t ht hchecked
  have hprocessed : ∀ i, (p.shared.markProcessed peer t.msgId).isProcessed peer i = true →
      i = 0 ∨ ∃ u ∈ q.tasks, u.msgId = i ∧ u.state = .returned true := by
    intro i hi
    rcases DedupTables.recorded_of_mark (DedupTables.isProcessed_iff.mp hi) with
      hle | hgap | rfl
    · refine (h.processed i (DedupTables.isProcessed_iff.mpr (Or.inl hle))).imp id ?_
      rintro ⟨u, hu, hid, hr⟩
      exact ⟨u, hkept u hu hr, hid, hr⟩
    · refine (h.processed i (DedupTables.isProcessed_iff.mpr (Or.inr hgap))).imp id ?_
      rintro ⟨u, hu, hid, hr⟩
      exact ⟨u, hkept u hu hr, hid, hr⟩
    · exact Or.inr ⟨_, hmoved, rfl, rfl⟩
  -- the watermark, before and after, is at most the number of calls
  have hcum := p.shared.cum_le_mark peer t.msgId
  have hbound : (p.shared.markProcessed peer t.msgId).cum peer ≤ p.tasks.length := by
    rw [← hlength]
    refine cum_le_length fun i hi => (hprocessed i hi).imp id ?_
    rintro ⟨u, hu, hid, -⟩
    exact ⟨u, hu, hid⟩
  have hfits := h.fits
  refine ⟨by rw [hlength]; exact h.fits, ?_, ?_, ?_, ?_, ?_⟩
  · rw [hshared, DedupTables.mark_windowSize]
    exact h.size
  · rw [hshared]
    exact h.inWindow.mark t.msgId
  · rw [hshared]
    exact hprocessed
  · rw [hshared]
    intro u hu hc
    rcases hmem u hu with hold | rfl
    · obtain ⟨hne, hin⟩ := h.checked u hold hc
      exact ⟨hne, by omega⟩
    · exact absurd hc (by simp)
  · rw [hshared]
    intro u hu hr
    rcases hmem u hu with hold | rfl
    · refine DedupTables.isProcessed_mark_of h.inWindow ?_ (h.accepted u hold hr)
      rw [h.size]
      omega
    · refine DedupTables.isProcessed_mark_self ?_ ?_
      · rw [h.size]
        omega
      · rw [h.size]
        exact hinside

/-- **One step** of a call, whose message is within the window if it makes its
check, keeps the record in order. -/
theorem Recorded.step {windowSize : Nat} (h : Recorded windowSize peer p) {i : Nat}
    (hwindow : p.InsideWindow peer i) : Recorded windowSize peer (p.step peer i) := by
  have hkept : ∀ u ∈ p.tasks, u.state = .returned true → u ∈ (p.step peer i).tasks :=
    fun u hu hr => Deliveries.mem_step_of_returned hu hr i
  revert hkept
  unfold Deliveries.step Pool.advance
  cases hi : p.tasks[i]? with
  | none => exact fun _ => h
  | some t =>
    intro hkept
    dsimp only at hkept ⊢
    have ht : t ∈ p.tasks := List.mem_of_getElem? hi
    obtain ⟨hlt, -⟩ := List.getElem?_eq_some_iff.mp hi
    have hlength : ∀ moved, (p.tasks.set i moved).length = p.tasks.length :=
      fun moved => List.length_set ..
    have hmem : ∀ moved, ∀ u ∈ p.tasks.set i moved, u ∈ p.tasks ∨ u = moved :=
      fun moved u hu => List.mem_or_eq_of_mem_set hu
    rcases t.step_cases peer p.shared with
      ⟨-, heq⟩ | ⟨hstarted, hnew, heq⟩ | ⟨hchecked, heq⟩ | ⟨⟨b, hb⟩, heq⟩
    · rw [heq] at hkept ⊢
      exact h.of_shared (hlength _) rfl (hmem _) hkept (fun hc => absurd hc (by simp))
        (fun hr => absurd hr (by simp))
    · rw [heq] at hkept ⊢
      refine h.of_shared (hlength _) rfl (hmem _) hkept (fun _ => ⟨fun hzero => ?_, ?_⟩)
        (fun hr => absurd hr (by simp))
      · -- the id 0 is processed from the start
        have hz := DedupTables.isProcessed_iff.mpr (Or.inl (Nat.zero_le (p.shared.cum peer)))
        rw [show t.msgId = 0 from hzero, hz] at hnew
        exact Bool.false_ne_true hnew.symm
      · have hin := hwindow t hi hstarted
        rw [h.size] at hin
        exact hin
    · rw [heq] at hkept ⊢
      exact h.of_mark ht hchecked (hlength _) rfl (hmem _) (List.mem_set hlt _) hkept
    · rw [heq] at hkept ⊢
      exact h.of_shared (hlength _) rfl (hmem _) hkept (h.checked t ht) (h.accepted t ht)

/-! ## Runs -/

/-- A call that claims a message did so before the step, or has just made its check. -/
theorem Deliveries.claims_before_step {i j : Nat} {a : DataTask}
    (ha : (p.step peer i).tasks[j]? = some a) (hca : a.Claims) :
    ∃ a', p.tasks[j]? = some a' ∧ a'.msgId = a.msgId ∧ (a'.Claims ∨
      (j = i ∧ a'.state = .started ∧ p.shared.isProcessed peer a.msgId = false)) := by
  unfold Deliveries.step at ha
  rw [Pool.getElem?_advance] at ha
  split at ha
  next hji =>
    obtain ⟨t, ht, rfl⟩ := Option.map_eq_some_iff.mp ha
    refine ⟨t, ht, (t.step_msgId peer p.shared).symm, ?_⟩
    rcases t.step_cases peer p.shared with
      ⟨-, heq⟩ | ⟨hstarted, hnew, heq⟩ | ⟨hchecked, -⟩ | ⟨-, heq⟩
    · rw [heq] at hca
      rcases hca with hc | hr
      · exact absurd hc (by simp)
      · exact absurd hr (by simp)
    · rw [heq]
      exact Or.inr ⟨hji, hstarted, hnew⟩
    · exact Or.inl (Or.inl hchecked)
    · rw [heq] at hca
      exact Or.inl hca
  next => exact ⟨a, ha, rfl, Or.inl hca⟩

/-- A message that is new and between no call's check and mark is claimed by nobody. -/
theorem Recorded.not_claims {windowSize : Nat} (h : Recorded windowSize peer p) {msgId : Nat}
    (hnew : p.shared.isProcessed peer msgId = false)
    (halone : ∀ other ∈ p.tasks, other.msgId = msgId → other.state ≠ .checked)
    {u : DataTask} (hu : u ∈ p.tasks) (hid : u.msgId = msgId) : ¬ u.Claims := by
  rintro (hchecked | hreturned)
  · exact halone u hu hid hchecked
  · have hp := h.accepted u hu hreturned
    rw [hid, hnew] at hp
    exact Bool.false_ne_true hp

/-- A check made alone keeps it so that no two calls report one message. -/
theorem Deliveries.not_twice_step {windowSize : Nat} (h : Recorded windowSize peer p) {i : Nat}
    (halone : p.ChecksAlone i) (htwice : ¬ p.Twice) : ¬ (p.step peer i).Twice := by
  rintro ⟨j, k, a, b, hjk, ha, hb, hid, hca, hcb⟩
  obtain ⟨a', ha', hida, hca'⟩ := claims_before_step ha hca
  obtain ⟨b', hb', hidb, hcb'⟩ := claims_before_step hb hcb
  rcases hca' with hca' | ⟨rfl, hsa, hna⟩
  · rcases hcb' with hcb' | ⟨rfl, hsb, hnb⟩
    · exact htwice ⟨j, k, a', b', hjk, ha', hb', hida.trans (hid.trans hidb.symm), hca', hcb'⟩
    · exact h.not_claims (hidb ▸ hnb) (halone b' hb' hsb) (List.mem_of_getElem? ha')
        (hida.trans (hid.trans hidb.symm)) hca'
  · rcases hcb' with hcb' | ⟨rfl, -, -⟩
    · exact h.not_claims (hida ▸ hna) (halone a' ha' hsa) (List.mem_of_getElem? hb')
        (hidb.trans (hid.symm.trans hida.symm)) hcb'
    · exact hjk rfl

/-- A check made beside another call for the message leads to two reports. -/
theorem Deliveries.twice_of_not_alone {windowSize : Nat} (h : Recorded windowSize peer p) {i : Nat}
    (hnot : ¬ p.ChecksAlone i) : (p.step peer i).Twice := by
  by_cases htwice : p.Twice
  · exact htwice.step peer i
  · simp only [Deliveries.ChecksAlone, not_forall, ne_eq, not_not, exists_prop] at hnot
    obtain ⟨t, hi, hstarted, u, hu, hid, hchecked⟩ := hnot
    obtain ⟨j, hj⟩ := List.getElem?_of_mem hu
    have hij : i ≠ j := by
      rintro rfl
      rw [hi] at hj
      rw [Option.some.inj hj] at hstarted
      exact absurd (hstarted.symm.trans hchecked) (by simp)
    -- nobody has reported the message yet, or there would be two already
    have hnew : p.shared.isProcessed peer t.msgId = false := by
      rw [Bool.eq_false_iff]
      intro hp
      rcases h.processed t.msgId hp with hzero | ⟨v, hv, hvid, hvr⟩
      · exact (h.checked u hu hchecked).1 (hid.trans hzero)
      · obtain ⟨k, hk⟩ := List.getElem?_of_mem hv
        refine htwice ⟨j, k, u, v, ?_, hj, hk, hid.trans hvid.symm, Or.inl hchecked, Or.inr hvr⟩
        rintro rfl
        rw [hj] at hk
        rw [Option.some.inj hk] at hchecked
        exact absurd (hchecked.symm.trans hvr) (by simp)
    have hstep : t.step peer p.shared = ({ t with state := .checked }, p.shared) := by
      unfold DataTask.step
      rw [hstarted, hnew]
      rfl
    refine ⟨i, j, { t with state := .checked }, u, hij, ?_, ?_, hid.symm, Or.inl rfl,
      Or.inl hchecked⟩
    · unfold Deliveries.step
      rw [Pool.getElem?_advance, if_pos rfl, hi, Option.map_some, hstep]
    · unfold Deliveries.step
      rw [Pool.getElem?_advance, if_neg (fun hji => hij hji.symm)]
      exact hj

end

/-- **When overlapping deliveries are processed once.** Any number of calls for
one peer, each with an id that is the next one or within the window when it makes
its check, take their steps in any order. When all have returned, no message was
reported as new twice exactly when no call has made its check while another for
the same message was between its check and its mark. -/
theorem accepted_once_iff (windowSize : Nat) (peer : Peer) (msgIds schedule : List Nat)
    (hfits : msgIds.length + windowSize < 2 ^ 64)
    (hwindow : Along (Deliveries.step peer) (Deliveries.InsideWindow peer)
      (Deliveries.new windowSize msgIds) schedule)
    (hdone : ((Deliveries.new windowSize msgIds).run peer schedule).Done) :
    ((Deliveries.new windowSize msgIds).run peer schedule).AcceptedOnce ↔
      Along (Deliveries.step peer) Deliveries.ChecksAlone (Deliveries.new windowSize msgIds)
        schedule := by
  have hrecorded := recorded_new hfits peer
  constructor
  · intro honce
    refine (along_or_damaged_within (D := Deliveries.Twice)
      (fun p i (h : Recorded windowSize peer p) hw => h.step hw)
      (fun p i h _ hnot => Deliveries.twice_of_not_alone h hnot)
      (fun p i h => h.step peer i) hrecorded hwindow).resolve_right ?_
    exact fun htwice => htwice.not_acceptedOnce hdone honce
  · intro halone
    have hnone : ¬ (Deliveries.new windowSize msgIds).Twice := by
      rintro ⟨i, -, a, -, -, ha, -, -, hc, -⟩
      obtain ⟨msgId, -, rfl⟩ := List.mem_map.mp (List.mem_of_getElem? ha)
      rcases hc with hc | hc
      · exact absurd hc (by simp)
      · exact absurd hc (by simp)
    have hrun := (hwindow.and halone).inv (I := fun p => Recorded windowSize peer p ∧ ¬ p.Twice)
      (fun p i h hp => ⟨h.1.step hp.1, Deliveries.not_twice_step h.1 hp.2 h.2⟩)
      ⟨hrecorded, hnone⟩
    exact Deliveries.acceptedOnce_of_not_twice hrun.2

/-- Messages 3, 1 and 3 again. The calls for 3 overlap the one for 1, but not each
other. -/
theorem accepted_once_apart :
    ((Deliveries.new 8 [3, 1, 3]).run 7 [0, 1, 0, 2, 1]).AcceptedOnce :=
  (accepted_once_iff 8 7 [3, 1, 3] [0, 1, 0, 2, 1] (by decide) (by decide +kernel)
    (by
      show ∀ task ∈ _, _
      decide +kernel)).mpr (by decide +kernel)

/-- Both calls for message 1 make their check before either marks it. -/
theorem both_checked_before_marked :
    ¬ ∀ (windowSize : Nat) (peer : Peer) (msgIds schedule : List Nat),
      msgIds.length + windowSize < 2 ^ 64 →
      Along (Deliveries.step peer) (Deliveries.InsideWindow peer)
        (Deliveries.new windowSize msgIds) schedule →
      ((Deliveries.new windowSize msgIds).run peer schedule).AcceptedOnce := by
  intro h
  have honce := h 65536 7 [1, 1] [0, 1, 0, 1] (by decide) (by decide +kernel) 0 1
    ⟨1, .returned true⟩ ⟨1, .returned true⟩ (by decide +kernel) (by decide +kernel) rfl rfl rfl
  exact absurd honce (by decide)

end MeshCore.Session
