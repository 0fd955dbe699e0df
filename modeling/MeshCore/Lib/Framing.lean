import Mathlib.Data.List.Basic

/-!
# Framings: decoding a stream that arrives in pieces

A *framing* is a decoder over a growing buffer together with the encoding it
undoes: `decode` either takes one message off the front, or says that the
buffer does not hold a whole message yet and leaves it alone, or fails. The
three laws are what a length-delimited format gives: a whole encoding in front
is decoded and consumed, a proper part of one is not, and an empty buffer holds
nothing.

`drain` calls the decoder until it asks for more, `feed` does so after each
arriving piece. The point of the module is `feed_concat`: however the
concatenation of some encodings is cut into pieces, feeding them yields exactly
those messages and leaves nothing behind. `split_front` is the fact under it: a
buffer that is an initial part of a concatenation either holds the first
message whole or is a proper part of it. `split_whole` says it of the whole
buffer: a concatenation that was cut off somewhere is the messages that lie whole
in it, and then at most a proper part of one more.
-/

namespace MeshCore.Lib

/-- A decoder over a growing buffer, with the encoding it undoes on the
messages in `Good`. -/
structure Framing (α β ε : Type) where
  decode : List α → Except ε (Option β) × List α
  encode : β → List α
  Good : β → Prop
  decode_nil : decode [] = (.ok none, [])
  decode_encode : ∀ b rest, Good b → decode (encode b ++ rest) = (.ok (some b), rest)
  decode_partial : ∀ b p q, Good b → encode b = p ++ q → q ≠ [] → decode p = (.ok none, p)
  encode_ne_nil : ∀ b, Good b → encode b ≠ []

/-- Why a run of decode calls ended. -/
inductive Stop (ε : Type) where
  | needMore
  | failed (e : ε)
  | outOfFuel
  deriving Repr, DecidableEq

namespace Framing

variable {α β ε : Type} (F : Framing α β ε)

/-- Call the decoder at most `n` times, until it asks for more or fails. -/
def drainFuel : Nat → List α → List β × Stop ε × List α
  | 0, buf => ([], .outOfFuel, buf)
  | n + 1, buf =>
    match F.decode buf with
    | (.ok none, rest) => ([], .needMore, rest)
    | (.error e, rest) => ([], .failed e, rest)
    | (.ok (some b), rest) =>
      let (bs, stop, left) := drainFuel n rest
      (b :: bs, stop, left)

/-- Call the decoder until it asks for more or fails. A message takes at least
one symbol, so the length of the buffer bounds the number of calls. -/
def drain (buf : List α) : List β × Stop ε × List α :=
  F.drainFuel (buf.length + 1) buf

/-- Append each piece in turn to the buffer and drain it; a failure ends the
run. -/
def feed : List (List α) → List α → List β × Stop ε × List α
  | [], buf => ([], .needMore, buf)
  | p :: ps, buf =>
    match F.drain (buf ++ p) with
    | (bs, .needMore, left) =>
      let (cs, stop, left') := feed ps left
      (bs ++ cs, stop, left')
    | (bs, stop, left) => (bs, stop, left)

/-- The concatenation of the encodings. -/
def concat (bs : List β) : List α := (bs.map F.encode).flatten

@[simp] theorem concat_nil : F.concat [] = [] := rfl

@[simp] theorem concat_cons (b : β) (bs : List β) :
    F.concat (b :: bs) = F.encode b ++ F.concat bs := by
  rw [concat, concat, List.map_cons, List.flatten_cons]

/-- An initial part of a concatenation either holds the first message whole or
is a proper part of it. -/
theorem split_front {b : β} {bs : List β} {p q : List α}
    (h : p ++ q = F.concat (b :: bs)) :
    (∃ p', p = F.encode b ++ p' ∧ p' ++ q = F.concat bs) ∨
    (∃ q', F.encode b = p ++ q' ∧ q' ≠ [] ∧ q = q' ++ F.concat bs) := by
  rw [concat_cons] at h
  rcases List.append_eq_append_iff.mp h with ⟨q', hb, hq⟩ | ⟨p', hp, hbs⟩
  · by_cases hq' : q' = []
    · subst hq'
      rw [List.append_nil] at hb
      exact Or.inl ⟨[], by rw [hb, List.append_nil], by simpa using hq⟩
    · exact Or.inr ⟨q', hb, hq', hq⟩
  · exact Or.inl ⟨p', hp, hbs.symm⟩

theorem concat_append (as bs : List β) : F.concat (as ++ bs) = F.concat as ++ F.concat bs := by
  rw [concat, concat, concat, List.map_append, List.flatten_append]

theorem concat_flatten (pieces : List (List β)) :
    (pieces.map F.concat).flatten = F.concat pieces.flatten := by
  induction pieces with
  | nil => rfl
  | cons piece pieces ih =>
    rw [List.map_cons, List.flatten_cons, List.flatten_cons, concat_append, ih]

/-- The messages of `bs` that lie whole in the first `n` symbols of their
concatenation. -/
def wholeIn : Nat → List β → List β
  | _, [] => []
  | n, b :: bs =>
    if (F.encode b).length ≤ n then b :: wholeIn (n - (F.encode b).length) bs else []

theorem wholeIn_sublist : ∀ (n : Nat) (bs : List β), (F.wholeIn n bs).Sublist bs
  | _, [] => List.Sublist.refl _
  | n, b :: bs => by
    unfold wholeIn
    split
    · exact (wholeIn_sublist _ bs).cons_cons b
    · exact List.nil_sublist _

/-- Messages in front that fit are whole. -/
theorem wholeIn_append : ∀ (n : Nat) (as bs : List β), (F.concat as).length ≤ n →
    F.wholeIn n (as ++ bs) = as ++ F.wholeIn (n - (F.concat as).length) bs
  | _, [], _, _ => rfl
  | n, a :: as, bs, h => by
    rw [concat_cons, List.length_append] at h
    rw [List.cons_append, wholeIn, if_pos (by omega), wholeIn_append _ as bs (by omega),
      concat_cons, List.length_append, Nat.sub_sub]
    rfl

/-- **A cut concatenation** is the messages that lie whole in it, and then nothing
or a proper part of one message. -/
theorem split_whole : ∀ {bs : List β} {p q : List α}, p ++ q = F.concat bs →
    ∃ left, p = F.concat (F.wholeIn p.length bs) ++ left ∧
      (left = [] ∨ ∃ b ∈ bs, ∃ q', F.encode b = left ++ q' ∧ q' ≠ [])
  | [], p, q, h => ⟨[], by rw [(List.append_eq_nil_iff.mp h).1]; rfl, .inl rfl⟩
  | b :: bs, p, q, h => by
    rcases F.split_front h with ⟨p', hp, hrest⟩ | ⟨q', henc, hq', -⟩
    · obtain ⟨left, hleft, hpart⟩ := split_whole hrest
      have hlen : p.length - (F.encode b).length = p'.length := by
        rw [hp, List.length_append]
        omega
      refine ⟨left, ?_, hpart.imp id fun ⟨c, hc, hcut⟩ => ⟨c, List.mem_cons_of_mem _ hc, hcut⟩⟩
      rw [wholeIn, if_pos (by rw [hp, List.length_append]; omega), hlen, concat_cons,
        List.append_assoc, ← hleft]
      exact hp
    · have hshort : ¬ (F.encode b).length ≤ p.length := by
        have := List.length_pos_iff.mpr hq'
        rw [henc, List.length_append]
        omega
      refine ⟨p, ?_, .inr ⟨b, List.mem_cons_self .., q', henc, hq'⟩⟩
      rw [wholeIn, if_neg hshort]
      rfl

/-- Draining an initial part `p` of a concatenation returns the messages that
lie whole in it and keeps the rest: what is left, followed by what is still to
come, is the concatenation of the messages not yet returned. With `q = []`
everything has been returned. -/
theorem drainFuel_concat : ∀ (bs : List β) (n : Nat) (p q : List α), (∀ b ∈ bs, F.Good b) →
    p ++ q = F.concat bs → p.length < n →
    ∃ (done todo : List β) (left : List α), F.drainFuel n p = (done, .needMore, left) ∧
      bs = done ++ todo ∧ left ++ q = F.concat todo ∧ (q = [] → todo = [])
  | bs, 0, p, q, _, _, hn => absurd hn (Nat.not_lt_zero _)
  | [], n + 1, p, q, _, h, _ => by
    obtain ⟨hp, hq⟩ := List.append_eq_nil_iff.mp h
    subst hp hq
    refine ⟨[], [], [], ?_, rfl, rfl, fun _ => rfl⟩
    rw [drainFuel, F.decode_nil]
  | b :: bs, n + 1, p, q, hgood, h, hn => by
    have hb : F.Good b := hgood b (List.mem_cons_self ..)
    rcases F.split_front h with ⟨p', hp, hrest⟩ | ⟨q', henc, hq', hq⟩
    · -- the first message is whole: one call returns it, and the rest is shorter
      have hlen : 0 < (F.encode b).length := List.length_pos_iff.mpr (F.encode_ne_nil b hb)
      have hn' : p'.length < n := by
        rw [hp, List.length_append] at hn
        omega
      obtain ⟨done, todo, left, hdrain, hbs, hleft, hnil⟩ :=
        drainFuel_concat bs n p' q (fun c hc => hgood c (List.mem_cons_of_mem _ hc)) hrest hn'
      refine ⟨b :: done, todo, left, ?_, by rw [hbs, List.cons_append], hleft, hnil⟩
      rw [drainFuel, hp, F.decode_encode b p' hb]
      show (b :: (F.drainFuel n p').1, (F.drainFuel n p').2) = _
      rw [hdrain]
    · -- a proper part of it: the decoder asks for more, and there is more to come
      refine ⟨[], b :: bs, p, ?_, rfl, h, ?_⟩
      · rw [drainFuel, F.decode_partial b p q' hb henc hq']
      · intro hqnil
        rw [hqnil] at hq
        exact absurd (List.append_eq_nil_iff.mp hq.symm).1 hq'

/-- Feeding pieces to a buffer that already holds an initial part. -/
theorem feed_concat_of_buffer : ∀ (ps : List (List α)) (bs : List β) (buf : List α),
    (∀ b ∈ bs, F.Good b) → buf ++ ps.flatten = F.concat bs → (ps = [] → bs = []) →
    F.feed ps buf = (bs, .needMore, [])
  | [], bs, buf, _, h, hnil => by
    rw [hnil rfl, List.flatten_nil, List.append_nil] at h
    rw [feed, hnil rfl, h, concat_nil]
  | p :: ps, bs, buf, hgood, h, _ => by
    rw [List.flatten_cons, ← List.append_assoc] at h
    obtain ⟨done, todo, left, hdrain, hbs, hleft, hnil⟩ :=
      F.drainFuel_concat bs ((buf ++ p).length + 1) (buf ++ p) ps.flatten hgood h (by omega)
    have htodo : ∀ b ∈ todo, F.Good b := fun b hb =>
      hgood b (by rw [hbs]; exact List.mem_append_right _ hb)
    have hrec := feed_concat_of_buffer ps todo left htodo hleft
      (fun hps => hnil (by rw [hps, List.flatten_nil]))
    show (match F.drain (buf ++ p) with
      | (bs, .needMore, left) => (bs ++ (F.feed ps left).1, (F.feed ps left).2)
      | (bs, stop, left) => (bs, stop, left)) = (bs, Stop.needMore, [])
    rw [drain, hdrain, hbs]
    show (done ++ (F.feed ps left).1, (F.feed ps left).2) = (done ++ todo, Stop.needMore, [])
    rw [hrec]

/-- **Segmentation does not matter.** However the concatenation of some good
messages is cut into pieces, feeding the pieces yields exactly these messages in
order, without failure, and leaves the buffer empty. -/
theorem feed_concat (bs : List β) (ps : List (List α)) (hgood : ∀ b ∈ bs, F.Good b)
    (h : ps.flatten = F.concat bs) : F.feed ps [] = (bs, .needMore, []) := by
  refine F.feed_concat_of_buffer ps bs [] hgood (by rw [List.nil_append]; exact h) ?_
  intro hps
  subst hps
  cases bs with
  | nil => rfl
  | cons b bs =>
    rw [List.flatten_nil, concat_cons] at h
    exact absurd (List.append_eq_nil_iff.mp h.symm).1
      (F.encode_ne_nil b (hgood b (List.mem_cons_self ..)))

end Framing

end MeshCore.Lib
