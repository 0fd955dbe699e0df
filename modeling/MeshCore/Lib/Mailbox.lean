import Mathlib.Data.List.Perm.Basic
import Mathlib.Data.List.Nodup
import Mathlib.Logic.Relation
import MeshCore.Lib.Runs

/-!
# A mailbox

What a reliable channel is for: messages are posted under rising numbers, and each is
taken at most once, in any order. `Reached` are the mailboxes that come about so. Whatever
was taken has been posted, and no number is taken twice (`Reached.sound`); when every message
that was posted has been taken, the messages taken are those posted, in some order
(`Sound.perm`).

A system is such a channel when its steps are steps of a mailbox: `Reached.run` is the rule
for runs.
-/

namespace MeshCore.Lib

variable {β : Type}

/-- The messages posted and taken so far, with their numbers. -/
structure Mailbox (β : Type) where
  posted : List (ℕ × β)
  taken : List (ℕ × β)

namespace Mailbox

/-- Nothing posted yet. -/
def empty : Mailbox β := ⟨[], []⟩

/-- What may happen to a mailbox. -/
inductive Step (m : Mailbox β) : Mailbox β → Prop where
  | idle : Step m m
  /-- A message is posted under a number above all earlier ones. -/
  | post (n : ℕ) (b : β) (hnew : ∀ e ∈ m.posted, e.1 < n) :
      Step m { m with posted := m.posted ++ [(n, b)] }
  /-- A message is taken that was not taken before. -/
  | take (n : ℕ) (b : β) (hposted : (n, b) ∈ m.posted) (hnew : n ∉ m.taken.map Prod.fst) :
      Step m { m with taken := m.taken ++ [(n, b)] }

/-- The mailboxes that come about by such steps. -/
def Reached (m : Mailbox β) : Prop := Relation.ReflTransGen Step empty m

/-- What holds in all of them. -/
structure Sound (m : Mailbox β) : Prop where
  rising : m.posted.Pairwise fun e e' => e.1 < e'.1
  posted : ∀ e ∈ m.taken, e ∈ m.posted
  once : (m.taken.map Prod.fst).Nodup

theorem Sound.step {m m' : Mailbox β} (h : m.Sound) (hstep : Step m m') : m'.Sound := by
  cases hstep with
  | idle => exact h
  | post n b hnew =>
    refine ⟨?_, fun e he => List.mem_append_left _ (h.posted e he), h.once⟩
    refine List.pairwise_append.mpr ⟨h.rising, List.pairwise_singleton _ _, ?_⟩
    intro e he e' he'
    rw [List.mem_singleton.mp he']
    exact hnew e he
  | take n b hposted hnew =>
    refine ⟨h.rising, fun e he => ?_, ?_⟩
    · rcases List.mem_append.mp he with he | he
      · exact h.posted e he
      · rw [List.mem_singleton.mp he]
        exact hposted
    · rw [List.map_append]
      refine List.nodup_append.mpr ⟨h.once, List.nodup_singleton _, ?_⟩
      intro a ha a' ha' heq
      rw [List.map_singleton, List.mem_singleton] at ha'
      rw [heq, ha'] at ha
      exact hnew ha

theorem Reached.sound {m : Mailbox β} (h : m.Reached) : m.Sound := by
  induction h with
  | refl => exact ⟨List.Pairwise.nil, fun _ he => absurd he List.not_mem_nil, List.nodup_nil⟩
  | tail _ hstep ih => exact ih.step hstep

/-- **A channel whose steps are those of a mailbox** makes one of its runs. -/
theorem Reached.run {σ α : Type} {step : σ → α → σ} {I : σ → Prop} {P : σ → α → Prop}
    (view : σ → Mailbox β)
    (hstep : ∀ s a, I s → P s a → I (step s a) ∧ Step (view s) (view (step s a)))
    {s : σ} (hI : I s) (hview : (view s).Reached) {as : List α} (h : Along step P s as) :
    I (as.foldl step s) ∧ (view (as.foldl step s)).Reached := by
  refine h.inv (I := fun s => I s ∧ (view s).Reached) (fun s a hs ha => ?_) ⟨hI, hview⟩
  obtain ⟨hI', hstep'⟩ := hstep s a hs.1 ha
  exact ⟨hI', hs.2.tail hstep'⟩

theorem Sound.posted_nodup {m : Mailbox β} (h : m.Sound) : (m.posted.map Prod.fst).Nodup :=
  List.pairwise_map.mpr (h.rising.imp Nat.ne_of_lt)

/-- A message is taken when its number is: a number names one message. -/
theorem Sound.taken_of_number {m : Mailbox β} (h : m.Sound) {e : ℕ × β} (he : e ∈ m.posted)
    (hnumber : e.1 ∈ m.taken.map Prod.fst) : e ∈ m.taken := by
  obtain ⟨e', he', heq⟩ := List.mem_map.mp hnumber
  rwa [← List.inj_on_of_nodup_map h.posted_nodup (h.posted e' he') he heq]

/-- **When all have been taken**, each has been taken once, and nothing else. -/
theorem Sound.perm {m : Mailbox β} (h : m.Sound) (hall : ∀ e ∈ m.posted, e ∈ m.taken) :
    m.taken.Perm m.posted :=
  (List.perm_ext_iff_of_nodup h.once.of_map h.posted_nodup.of_map).mpr fun e =>
    ⟨h.posted e, hall e⟩

end Mailbox

end MeshCore.Lib
