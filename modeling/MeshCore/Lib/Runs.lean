import Mathlib.Data.List.Basic

/-!
# Properties along a run

A run takes the steps `as` from a state `s`. `Along step P s as` says that every
step satisfies `P`, which sees the state the step is taken in. Its rules: a
property of states that each step keeps holds at the end (`Along.inv`), two
step properties that agree where an invariant holds agree along the whole run
(`along_iff`), a property of states that a step keeps exactly when it
satisfies `P` holds in every state of a run exactly when every step satisfies
`P` (`every_state_iff_along`), and damage that a step outside `P` does, and that
is never undone, is there at the end of a run that does not satisfy `P`
(`along_or_damaged`). How long a run can go on is bounded by a measure that every step
lowers (`length_le_of_isChain`).

A step can also return something. `runCalls` pairs every argument with what the
step returned for it, and `runCalls_filter` is the rule for steps that do not
interfere: the calls that a predicate keeps return what they return when the others
are left out.
-/

namespace MeshCore.Lib

variable {σ α : Type} {step : σ → α → σ}

/-- Every step of the run from `s` satisfies `P`. -/
def Along (step : σ → α → σ) (P : σ → α → Prop) : σ → List α → Prop
  | _, [] => True
  | s, a :: as => P s a ∧ Along step P (step s a) as

/-- Along a given run, a property can be tested. -/
instance Along.decidable (P : σ → α → Prop) [∀ s a, Decidable (P s a)] :
    (s : σ) → (as : List α) → Decidable (Along step P s as)
  | _, [] => isTrue trivial
  | s, a :: as =>
    have := Along.decidable P (step s a) as
    inferInstanceAs (Decidable (P s a ∧ Along step P (step s a) as))

theorem Along.mono {P Q : σ → α → Prop} (hPQ : ∀ s a, P s a → Q s a) {s : σ} {as : List α}
    (h : Along step P s as) : Along step Q s as := by
  induction as generalizing s with
  | nil => trivial
  | cons a as ih => exact ⟨hPQ s a h.1, ih h.2⟩

theorem along_of_forall {P : σ → α → Prop} (h : ∀ s a, P s a) (s : σ) (as : List α) :
    Along step P s as := by
  induction as generalizing s with
  | nil => trivial
  | cons a as ih => exact ⟨h s a, ih _⟩

theorem Along.and {P Q : σ → α → Prop} {s : σ} {as : List α} (hP : Along step P s as)
    (hQ : Along step Q s as) : Along step (fun s a => P s a ∧ Q s a) s as := by
  induction as generalizing s with
  | nil => trivial
  | cons a as ih => exact ⟨⟨hP.1, hQ.1⟩, ih hP.2 hQ.2⟩

theorem along_append {P : σ → α → Prop} {s : σ} {as bs : List α} :
    Along step P s (as ++ bs) ↔ Along step P s as ∧ Along step P (as.foldl step s) bs := by
  induction as generalizing s with
  | nil => exact (and_iff_right trivial).symm
  | cons a as ih => exact (and_congr_right fun _ => ih).trans and_assoc.symm

theorem along_map {β : Type} {P : σ → α → Prop} (f : β → α) {s : σ} {bs : List β} :
    Along step P s (bs.map f) ↔ Along (fun s b => step s (f b)) (fun s b => P s (f b)) s bs := by
  induction bs generalizing s with
  | nil => exact Iff.rfl
  | cons b bs ih => exact and_congr_right fun _ => ih

/-- **The invariant rule.** -/
theorem Along.inv {P : σ → α → Prop} {I : σ → Prop}
    (hstep : ∀ s a, I s → P s a → I (step s a)) {s : σ} {as : List α} (hI : I s)
    (h : Along step P s as) : I (as.foldl step s) := by
  induction as generalizing s with
  | nil => exact hI
  | cons a as ih => exact ih (hstep s a hI h.1) h.2

/-- **The equivalence rule.** `G` is what the run is known to satisfy. -/
theorem along_iff {G P Q : σ → α → Prop} {I : σ → Prop}
    (hstep : ∀ s a, I s → G s a → I (step s a))
    (hiff : ∀ s a, I s → G s a → (P s a ↔ Q s a)) {s : σ} {as : List α} (hI : I s)
    (h : Along step G s as) : Along step P s as ↔ Along step Q s as := by
  induction as generalizing s with
  | nil => exact Iff.rfl
  | cons a as ih => exact and_congr (hiff s a hI h.1) (ih (hstep s a hI h.1) h.2)

/-- **The exact rule.** -/
theorem every_state_iff_along {P : σ → α → Prop} {I : σ → Prop}
    (hstep : ∀ s a, I s → (I (step s a) ↔ P s a)) {s : σ} {as : List α} (hI : I s) :
    (∀ done, done <+: as → I (done.foldl step s)) ↔ Along step P s as := by
  induction as generalizing s with
  | nil =>
    refine ⟨fun _ => trivial, fun _ done hdone => ?_⟩
    rw [List.prefix_nil.mp hdone]
    exact hI
  | cons a as ih =>
    constructor
    · intro h
      have hI' : I (step s a) := h [a] ((List.prefix_append_right_inj [a]).mpr as.nil_prefix)
      refine ⟨(hstep s a hI).mp hI', (ih hI').mp ?_⟩
      intro done hdone
      exact h (a :: done) ((List.prefix_append_right_inj [a]).mpr hdone)
    · intro h done hdone
      have hI' : I (step s a) := (hstep s a hI).mpr h.1
      rcases List.prefix_cons_iff.mp hdone with rfl | ⟨rest, rfl, hrest⟩
      · exact hI
      · exact (ih hI').mpr h.2 rest hrest

/-- **The damage rule.** `G` is what the run is known to satisfy. -/
theorem along_or_damaged_within {G P : σ → α → Prop} {I D : σ → Prop}
    (hkeep : ∀ s a, I s → G s a → I (step s a))
    (hbreak : ∀ s a, I s → G s a → ¬ P s a → D (step s a))
    (hstable : ∀ s a, D s → D (step s a)) {s : σ} {as : List α} (hI : I s)
    (h : Along step G s as) : Along step P s as ∨ D (as.foldl step s) := by
  induction as generalizing s with
  | nil => exact Or.inl trivial
  | cons a as ih =>
    by_cases hP : P s a
    · exact (ih (hkeep s a hI h.1) h.2).imp (fun h => ⟨hP, h⟩) id
    · exact Or.inr (List.foldlRecOn as step (hbreak s a hI h.1 hP) fun s h a _ => hstable s a h)

/-- The damage rule for a run of which nothing is known. -/
theorem along_or_damaged {P : σ → α → Prop} {I D : σ → Prop}
    (hkeep : ∀ s a, I s → I (step s a)) (hbreak : ∀ s a, I s → ¬ P s a → D (step s a))
    (hstable : ∀ s a, D s → D (step s a)) {s : σ} (as : List α) (hI : I s) :
    Along step P s as ∨ D (as.foldl step s) :=
  along_or_damaged_within (fun s a h _ => hkeep s a h) (fun s a h _ => hbreak s a h) hstable hI
    (along_of_forall (P := fun _ _ => True) (fun _ _ => trivial) s as)

/-- **The measure rule.** A sequence of steps each of which lowers a measure is no longer
than the measure is at its start. -/
theorem length_le_of_isChain {r : σ → σ → Prop} {f : σ → Nat}
    (hlower : ∀ s s', r s s' → f s' < f s) {s : σ} {states : List σ}
    (h : (s :: states).IsChain r) : states.length ≤ f s := by
  induction states generalizing s with
  | nil => exact Nat.zero_le _
  | cons s' states ih =>
    obtain ⟨hstep, hrest⟩ := List.isChain_cons_cons.mp h
    have hlen := ih hrest
    have hlt := hlower s s' hstep
    rw [List.length_cons]
    omega

/-! ## Steps that return something -/

variable {β : Type} {call : σ → α → β × σ}

/-- The calls of a run, each with what it returned, and the state after them. -/
def runCalls (call : σ → α → β × σ) : σ → List α → List (α × β) × σ
  | s, [] => ([], s)
  | s, a :: as =>
    let (b, s) := call s a
    let (calls, s) := runCalls call s as
    ((a, b) :: calls, s)

theorem runCalls_append (s : σ) (as bs : List α) :
    runCalls call s (as ++ bs)
      = ((runCalls call s as).1 ++ (runCalls call (runCalls call s as).2 bs).1,
        (runCalls call (runCalls call s as).2 bs).2) := by
  induction as generalizing s with
  | nil => rfl
  | cons a as ih =>
    show ((a, (call s a).1) :: (runCalls call (call s a).2 (as ++ bs)).1,
      (runCalls call (call s a).2 (as ++ bs)).2) = _
    rw [ih]
    rfl

/-- **The rule of noninterference.** `Same` relates the states that the kept calls
cannot tell apart; the others do not leave it. -/
theorem runCalls_filter {keep : α → Prop} [DecidablePred keep] {Same : σ → σ → Prop}
    (hkept : ∀ s s' a, Same s s' → keep a →
      (call s a).1 = (call s' a).1 ∧ Same (call s a).2 (call s' a).2)
    (hother : ∀ s s' a, Same s s' → ¬ keep a → Same (call s a).2 s')
    {s s' : σ} (hsame : Same s s') (as : List α) :
    ((runCalls call s as).1.filter fun e => keep e.1)
        = (runCalls call s' (as.filter fun a => keep a)).1 ∧
      Same (runCalls call s as).2 (runCalls call s' (as.filter fun a => keep a)).2 := by
  induction as generalizing s s' with
  | nil => exact ⟨rfl, hsame⟩
  | cons a as ih =>
    have hcons : ∀ s bs, runCalls call s (a :: bs)
        = ((a, (call s a).1) :: (runCalls call (call s a).2 bs).1,
          (runCalls call (call s a).2 bs).2) := fun _ _ => rfl
    by_cases ha : keep a
    · obtain ⟨hb, hs⟩ := hkept s s' a hsame ha
      obtain ⟨hcalls, hend⟩ := ih hs
      rw [List.filter_cons_of_pos (by simpa using ha), hcons, hcons,
        List.filter_cons_of_pos (by simpa using ha), hcalls, hb]
      exact ⟨rfl, hend⟩
    · rw [List.filter_cons_of_neg (by simpa using ha), hcons,
        List.filter_cons_of_neg (by simpa using ha)]
      exact ih (hother s s' a hsame ha)

end MeshCore.Lib
