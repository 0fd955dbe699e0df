import Mathlib.Data.List.Infix
import Mathlib.Logic.Function.Basic

/-!
# Queues in a line

Items pass through a line of queues. They enter at its first place, and the item in
front of one place goes to the end of the next. `LineStep` is one such step, or one that
leaves the queues alone; there may be any number of other queues, and they stay as they
are. What lies in the line, read from its last place to its first, is what has entered it
in the order of entry (`LineStep.inLine`), so that the last place holds an initial part of
what has entered (`last_prefix`), and all of it when the other places are empty
(`last_eq`).
-/

namespace MeshCore.Lib

variable {ι α : Type}

/-- What lies in the line, from its last place to its first. -/
def inLine (line : List ι) (f : ι → List α) : List α := line.reverse.flatMap f

theorem inLine_append (line₁ line₂ : List ι) (f : ι → List α) :
    inLine (line₁ ++ line₂) f = inLine line₂ f ++ inLine line₁ f := by
  unfold inLine
  rw [List.reverse_append, List.flatMap_append]

theorem inLine_cons (p : ι) (line : List ι) (f : ι → List α) :
    inLine (p :: line) f = inLine line f ++ f p := by
  unfold inLine
  rw [List.reverse_cons, List.flatMap_append, List.flatMap_singleton]

theorem inLine_congr {line : List ι} {f g : ι → List α} (h : ∀ p ∈ line, f p = g p) :
    inLine line f = inLine line g :=
  List.flatMap_congr fun p hp => h p (List.mem_reverse.mp hp)

theorem inLine_eq_nil {line : List ι} {f : ι → List α} (h : ∀ p ∈ line, f p = []) :
    inLine line f = [] :=
  List.flatMap_eq_nil_iff.mpr fun p hp => h p (List.mem_reverse.mp hp)

/-- The last place holds an initial part of what has entered. -/
theorem last_prefix {line : List ι} {f : ι → List α} {p : ι} (hlast : line.getLast? = some p) :
    f p <+: inLine line f := by
  obtain ⟨front, rfl⟩ := List.getLast?_eq_some_iff.mp hlast
  rw [inLine_append, inLine_cons]
  exact ⟨inLine front f, by simp [inLine]⟩

/-- It holds all of it when the other places are empty. -/
theorem last_eq {line : List ι} {f : ι → List α} {p : ι} (hlast : line.getLast? = some p)
    (hempty : ∀ q ∈ line, q ≠ p → f q = []) (hnd : line.Nodup) : f p = inLine line f := by
  obtain ⟨front, rfl⟩ := List.getLast?_eq_some_iff.mp hlast
  have hfront : inLine front f = [] := by
    refine inLine_eq_nil fun q hq => hempty q (List.mem_append_left _ hq) ?_
    intro heq
    exact (List.nodup_append.mp hnd).2.2 q hq p (List.mem_singleton_self p) heq
  rw [inLine_append, hfront, List.append_nil]
  simp [inLine]

/-- What a queue keeps of an item that is added. -/
theorem filterMap_concat {β : Type} (g : β → Option α) (l : List β) (x : β) :
    (l ++ [x]).filterMap g = l.filterMap g ++ (g x).toList := by
  rw [List.filterMap_append, List.filterMap_cons]
  cases g x with
  | none => rfl
  | some y => rfl

/-- What a queue keeps of the item in front. -/
theorem filterMap_cons_toList {β : Type} (g : β → Option α) (x : β) (l : List β) :
    (x :: l).filterMap g = (g x).toList ++ l.filterMap g := by
  rw [List.filterMap_cons]
  cases g x with
  | none => rfl
  | some y => rfl

/-! ## Steps -/

variable [DecidableEq ι]

/-- The queues with an item added at the end of one. -/
def push (f : ι → List α) (p : ι) (x : α) : ι → List α := Function.update f p (f p ++ [x])

@[simp] theorem push_self (f : ι → List α) (p : ι) (x : α) : push f p x p = f p ++ [x] :=
  Function.update_self ..

theorem push_of_ne (f : ι → List α) {p q : ι} (x : α) (h : q ≠ p) : push f p x q = f q :=
  Function.update_of_ne h ..

section Items

variable {P : α → Prop} {f : ι → List α}

/-- What all items satisfy, they satisfy after some have been added that do. -/
theorem forall_mem_append (h : ∀ p, ∀ x ∈ f p, P x) (p : ι) {xs : List α} (hxs : ∀ x ∈ xs, P x) :
    ∀ q, ∀ x ∈ Function.update f p (f p ++ xs) q, P x := by
  refine (Function.forall_update_iff f fun _ ys => ∀ y ∈ ys, P y).mpr ⟨?_, fun q _ => h q⟩
  intro x hx
  rcases List.mem_append.mp hx with hx | hx
  · exact h p x hx
  · exact hxs x hx

theorem forall_mem_push (h : ∀ p, ∀ x ∈ f p, P x) (p : ι) {x : α} (hx : P x) :
    ∀ q, ∀ y ∈ push f p x q, P y := by
  refine forall_mem_append h p fun y hy => ?_
  rw [List.mem_singleton.mp hy]
  exact hx

/-- They satisfy it after the item in front of a queue has been taken. -/
theorem forall_mem_rest (h : ∀ p, ∀ x ∈ f p, P x) {p : ι} {x : α} {xs : List α}
    (hfront : f p = x :: xs) : ∀ q, ∀ y ∈ Function.update f p xs q, P y := by
  refine (Function.forall_update_iff f fun _ ys => ∀ y ∈ ys, P y).mpr ⟨?_, fun q _ => h q⟩
  intro y hy
  exact h p y (hfront ▸ List.mem_cons_of_mem _ hy)

end Items

/-- A queue with nothing added is the same queue. -/
theorem update_append_none (f : ι → List α) (p : ι) :
    Function.update f p (f p ++ (none : Option α).toList) = f := by
  rw [Option.toList_none, List.append_nil, Function.update_eq_self]

theorem update_append_some (f : ι → List α) (p : ι) (x : α) :
    Function.update f p (f p ++ (some x).toList) = push f p x := rfl

/-- One step of the queues of a line, with the item that enters. -/
inductive LineStep (line : List ι) (f : ι → List α) : Option α → (ι → List α) → Prop where
  | idle : LineStep line f none f
  | enter {p : ι} {x : α} (hfirst : line.head? = some p) : LineStep line f (some x) (push f p x)
  | pass {p q : ι} {x : α} {xs : List α} (hnext : [p, q] <:+: line) (hfront : f p = x :: xs) :
      LineStep line f none (push (Function.update f p xs) q x)

theorem inLine_update_of_notMem {line : List ι} {f : ι → List α} {p : ι} (hp : p ∉ line)
    (xs : List α) : inLine line (Function.update f p xs) = inLine line f := by
  refine inLine_congr fun q hq => Function.update_of_ne ?_ ..
  intro heq
  exact hp (heq ▸ hq)

theorem inLine_push_of_notMem {line : List ι} {f : ι → List α} {p : ι} (hp : p ∉ line) (x : α) :
    inLine line (push f p x) = inLine line f :=
  inLine_update_of_notMem hp _

/-- **The line holds what has entered it**, in the order of entry: a step adds what
enters, and keeps the rest in order. -/
theorem LineStep.inLine {line : List ι} {f f' : ι → List α} {x : Option α}
    (hnd : line.Nodup) (h : LineStep line f x f') :
    inLine line f' = Lib.inLine line f ++ x.toList := by
  cases h with
  | idle => exact (List.append_nil _).symm
  | @enter p x hfirst =>
    obtain ⟨rest, rfl⟩ := List.head?_eq_some_iff.mp hfirst
    rw [inLine_cons, inLine_cons, push_self,
      inLine_push_of_notMem (List.nodup_cons.mp hnd).1, List.append_assoc]
    rfl
  | @pass p q x xs hnext hfront =>
    obtain ⟨before, after, rfl⟩ := hnext
    -- the two places lie next to each other, and nowhere else in the line
    have hnd' : (before ++ p :: q :: after).Nodup := by simpa using hnd
    rw [List.nodup_append, List.nodup_cons, List.nodup_cons] at hnd'
    obtain ⟨-, ⟨hp, hq, -⟩, hdisjoint⟩ := hnd'
    rw [List.mem_cons, not_or] at hp
    have hpb : p ∉ before := fun hmem => hdisjoint p hmem p (List.mem_cons_self ..) rfl
    have hqb : q ∉ before := fun hmem =>
      hdisjoint q hmem q (List.mem_cons_of_mem _ (List.mem_cons_self ..)) rfl
    have hline : before ++ [p, q] ++ after = before ++ p :: q :: after := by simp
    rw [hline, inLine_append, inLine_append, inLine_cons, inLine_cons, inLine_cons, inLine_cons,
      inLine_push_of_notMem hq, inLine_push_of_notMem hqb, inLine_update_of_notMem hp.2,
      inLine_update_of_notMem hpb, push_self, push_of_ne _ _ hp.1, Function.update_self,
      Function.update_of_ne (Ne.symm hp.1), hfront]
    simp

/-- Places outside the line stay as they are. -/
theorem LineStep.outside {line : List ι} {f f' : ι → List α} {x : Option α}
    (h : LineStep line f x f') {r : ι} (hr : r ∉ line) : f' r = f r := by
  cases h with
  | idle => rfl
  | enter hfirst => exact push_of_ne f _ fun heq => hr (heq ▸ List.mem_of_mem_head? hfirst)
  | pass hnext _ =>
    have hmem : ∀ s ∈ [_, _], r ≠ s := fun s hs heq => hr (heq ▸ hnext.subset hs)
    rw [push_of_ne _ _ (hmem _ (by simp)), Function.update_of_ne (hmem _ (by simp))]

end MeshCore.Lib
