import Mathlib.Data.List.ReduceOption
import Mathlib.Order.Monotone.Basic
import MeshCore.Lib.Pipeline

/-!
# Fair lines

The queues of a line may be shared: only some of what a queue holds are items of the line,
the other slots belong to others. Serving a queue takes its first slot, whatever is in it.
When every queue but the last is served again and again, every item that has entered the
line comes to its end, however much enters after it (`FairRun.arrives`): what is behind
the first `n` places at some time is behind one place more at a later time.
-/

namespace MeshCore.Lib

/-- What holds now, and stays so until something happens, holds the next time it happens. -/
theorem exists_next {Q A : ℕ → Prop} (hkeep : ∀ t, Q t → ¬ A t → Q (t + 1)) {t : ℕ} (h : Q t)
    (hA : ∃ t', t ≤ t' ∧ A t') : ∃ t', t ≤ t' ∧ A t' ∧ Q t' := by
  obtain ⟨t', htt', hnext⟩ := hA
  obtain ⟨d, rfl⟩ := Nat.exists_eq_add_of_le htt'
  induction d generalizing t with
  | zero => exact ⟨t, Nat.le_refl _, hnext, h⟩
  | succ d ih =>
    by_cases hnow : A t
    · exact ⟨t, Nat.le_refl _, hnow, h⟩
    · obtain ⟨t', ht', hthen⟩ := ih (hkeep t h hnow) (Nat.le_add_right _ _)
        (by rwa [Nat.add_assoc, Nat.add_comm 1])
      exact ⟨t', by omega, hthen⟩

variable {ι α : Type} [DecidableEq ι] {line : List ι}

/-- An endless run of a line with shared queues: what is in the slots of each place, what
enters, and which places are served, at each time. -/
structure FairRun (line : List ι) (slots : ℕ → ι → List (Option α)) (x : ℕ → Option α)
    (serves : ℕ → ι → Prop) : Prop where
  step : ∀ t, LineStep line (fun p => (slots t p).reduceOption) (x t)
    fun p => (slots (t + 1) p).reduceOption
  /-- Serving a place takes its first slot. -/
  served : ∀ t, ∀ p ∈ line, serves t p → slots (t + 1) p = (slots t p).tail
  /-- Otherwise slots are added at the end, if anything. -/
  added : ∀ t, ∀ p ∈ line, ¬ serves t p → slots t p <+: slots (t + 1) p
  fair : ∀ p ∈ line.dropLast, ∀ t, ∃ t', t ≤ t' ∧ serves t' p

namespace FairRun

/-- An item added to a queue is one item more. -/
theorem length_inLine_push (back : List ι) (f : ι → List α) (p : ι) (x : α) :
    (inLine back f).length ≤ (inLine back (push f p x)).length := by
  induction back with
  | nil => exact Nat.le_refl _
  | cons q back ih =>
    rw [inLine_cons, inLine_cons, List.length_append, List.length_append]
    refine Nat.add_le_add ih ?_
    by_cases hq : q = p
    · rw [hq, push_self, List.length_append]
      exact Nat.le_add_right _ _
    · rw [push_of_ne f x hq]

omit [DecidableEq ι] in
/-- Two places next to each other, the first of them in the back of the line. -/
theorem infix_back {front back : List ι} (hnd : (front ++ back).Nodup) {p q : ι}
    (hnext : [p, q] <:+: front ++ back) (hp : p ∈ back) : [p, q] <:+: back := by
  obtain ⟨before, after, hcut⟩ := hnext
  rw [List.append_assoc] at hcut
  rcases List.append_eq_append_iff.mp hcut with ⟨mid, hfront, hmid⟩ | ⟨mid, -, hback⟩
  · cases mid with
    | nil => exact ⟨[], after, hmid⟩
    | cons r mid =>
      obtain rfl : p = r := (List.cons.inj hmid).1
      exact absurd rfl ((List.nodup_append.mp hnd).2.2 p (hfront ▸ by simp) p hp)
  · exact ⟨mid, after, by rw [hback, List.append_assoc]⟩

/-- A step takes nothing back: no fewer items are in the last places than before. -/
theorem length_inLine_mono {front back : List ι} (hline : line = front ++ back)
    (hnd : line.Nodup) {f f' : ι → List α} {x : Option α} (h : LineStep line f x f') :
    (inLine back f).length ≤ (inLine back f').length := by
  subst hline
  cases h with
  | idle => exact Nat.le_refl _
  | enter hfirst => exact length_inLine_push back f _ _
  | @pass p q y ys hnext hfront =>
    by_cases hp : p ∈ back
    · have hsame := (LineStep.pass (infix_back hnd hnext hp) hfront).inLine
        (List.nodup_append.mp hnd).2.1
      rw [Option.toList_none, List.append_nil] at hsame
      rw [hsame]
    · rw [← inLine_update_of_notMem hp ys]
      exact length_inLine_push back _ q y

variable {slots : ℕ → ι → List (Option α)} {x : ℕ → Option α} {serves : ℕ → ι → Prop}

/-- The number of items in the last places. -/
def passed (slots : ℕ → ι → List (Option α)) (back : List ι) (t : ℕ) : ℕ :=
  (inLine back fun p => (slots t p).reduceOption).length

omit [DecidableEq ι] in
theorem passed_cons (p : ι) (back : List ι) (t : ℕ) :
    passed slots (p :: back) t = passed slots back t + (slots t p).reduceOption.length := by
  unfold passed
  rw [inLine_cons, List.length_append]

theorem passed_mono (h : FairRun line slots x serves) (hnd : line.Nodup) {front back : List ι}
    (hline : line = front ++ back) {t t' : ℕ} (htt' : t ≤ t') :
    passed slots back t ≤ passed slots back t' :=
  monotone_nat_of_le_succ (fun s => length_inLine_mono hline hnd (h.step s)) htt'

/-- The next time a place is served, its slots of now are still there. -/
theorem next_serve (h : FairRun line slots x serves) {p : ι} (hp : p ∈ line.dropLast) (t : ℕ) :
    ∃ t', t ≤ t' ∧ serves t' p ∧ slots t p <+: slots t' p :=
  exists_next (Q := fun t' => slots t p <+: slots t' p) (fun t' hinitial hnot =>
    hinitial.trans (h.added t' p (List.mem_of_mem_dropLast hp) hnot)) (List.prefix_refl _)
    (h.fair p hp t)

/-- Serving a place again and again takes any number of its slots; the items in them are
in the places behind it. -/
theorem slots_taken (h : FairRun line slots x serves) (hnd : line.Nodup) {front back : List ι}
    {p : ι} (hline : line = front ++ p :: back) (hp : p ∈ line.dropLast) (t n : ℕ) :
    ∃ t' new, t ≤ t' ∧ slots t' p = (slots t p).drop n ++ new ∧
      passed slots back t + ((slots t p).take n).reduceOption.length ≤ passed slots back t' := by
  induction n with
  | zero => exact ⟨t, [], Nat.le_refl _, by simp, by simp [List.reduceOption]⟩
  | succ n ih =>
    obtain ⟨t₁, new₁, ht₁, hslots₁, hpassed₁⟩ := ih
    cases hdrop : (slots t p).drop n with
    | nil =>
      -- there is no slot to take any more
      have hlength : (slots t p).length ≤ n := List.drop_eq_nil_iff.mp hdrop
      refine ⟨t₁, new₁, ht₁, ?_, ?_⟩
      · rw [hslots₁, hdrop, List.drop_eq_nil_of_le (Nat.le_succ_of_le hlength)]
      · rw [List.take_of_length_le (Nat.le_succ_of_le hlength)]
        rwa [List.take_of_length_le hlength] at hpassed₁
    | cons c rest =>
      obtain ⟨t₂, ht₂, hserves, added, hadded⟩ := h.next_serve hp t₁
      have htail := h.served t₂ p (List.mem_of_mem_dropLast hp) hserves
      rw [← hadded, hslots₁, hdrop, List.cons_append, List.cons_append, List.tail_cons] at htail
      have hrest : rest = (slots t p).drop (n + 1) := by
        rw [← List.tail_drop, hdrop, List.tail_cons]
      have htake : (slots t p).take (n + 1) = (slots t p).take n ++ [c] := by
        rw [List.take_add_one, ← List.head?_drop, hdrop]
        rfl
      refine ⟨t₂ + 1, new₁ ++ added, by omega, ?_, ?_⟩
      · rw [htail, hrest, List.append_assoc]
      · -- one step later, the place and those behind it hold no less together
        have hboth := h.passed_mono hnd hline (Nat.le_add_right t₂ 1)
        have hbehind := h.passed_mono hnd (by rw [hline]; simp :
          line = (front ++ [p]) ++ back) ht₂
        have hcons : (c :: rest).reduceOption.length
            = [c].reduceOption.length + rest.reduceOption.length := by
          rw [← List.singleton_append, List.reduceOption_append, List.length_append]
        rw [passed_cons, passed_cons, ← hadded, hslots₁, hdrop, htail] at hboth
        simp only [List.reduceOption_append, List.length_append, hcons] at hboth
        rw [htake, List.reduceOption_append, List.length_append]
        omega

/-- What is behind some places comes behind the next place too. -/
theorem comes_behind (h : FairRun line slots x serves) (hnd : line.Nodup) {front back : List ι}
    {p : ι} (hline : line = front ++ p :: back) (hp : p ∈ line.dropLast) (t : ℕ) :
    ∃ t', t ≤ t' ∧ passed slots (p :: back) t ≤ passed slots back t' := by
  obtain ⟨t', -, ht', -, hpassed⟩ := h.slots_taken hnd hline hp t (slots t p).length
  rw [List.take_length] at hpassed
  exact ⟨t', ht', (passed_cons p back t).trans_le hpassed⟩

/-- **Everything that has entered comes to the end**: at some later time, the last place
holds as many items as there are in the line now. -/
theorem arrives (h : FairRun line slots x serves) (hnd : line.Nodup) {p : ι}
    (hlast : line.getLast? = some p) (t : ℕ) :
    ∃ t', t ≤ t' ∧ passed slots line t ≤ (slots t' p).reduceOption.length := by
  obtain ⟨front, hfront⟩ := List.getLast?_eq_some_iff.mp hlast
  have hbehind : ∀ before after, front = before ++ after →
      ∃ t', t ≤ t' ∧ passed slots line t ≤ passed slots (after ++ [p]) t' := by
    intro before after hcut
    induction before using List.reverseRecOn generalizing after with
    | nil =>
      rw [List.nil_append] at hcut
      exact ⟨t, Nat.le_refl _, by rw [hfront, hcut]⟩
    | append_singleton before q ih =>
      obtain ⟨t₁, ht₁, hpassed₁⟩ := ih (q :: after) (by rw [hcut, List.append_assoc]; rfl)
      have hline : line = before ++ q :: (after ++ [p]) := by rw [hfront, hcut]; simp
      have hq : q ∈ line.dropLast := by
        rw [hfront, hcut, List.dropLast_concat]
        simp
      obtain ⟨t₂, ht₂, hpassed₂⟩ := h.comes_behind hnd hline hq t₁
      exact ⟨t₂, Nat.le_trans ht₁ ht₂, Nat.le_trans hpassed₁ hpassed₂⟩
  obtain ⟨t', ht', hpassed⟩ := hbehind front [] (List.append_nil _).symm
  refine ⟨t', ht', hpassed.trans_eq ?_⟩
  simp [passed, inLine]

end FairRun

end MeshCore.Lib
