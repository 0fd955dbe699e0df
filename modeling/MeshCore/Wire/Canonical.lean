import MeshCore.Lib.ByteOrder
import MeshCore.Wire.Meta
import Mathlib.Data.List.Induction

/-!
# Is the metadata canonical?

Canonical CBOR orders the keys of a map by their encoded bytes. The head of a text
comes before it, so shorter texts come first, and texts of one length are in string
order (`cborEncode_text_lt_iff`). `MetaBuilder` keeps its keys in string order whatever
their lengths: what it writes is canonical exactly when the lengths do not fall along
that order (`canonical_ofInserts_iff`).
-/

namespace MeshCore.Wire

open MeshCore.Lib

/-! ## The order of encoded keys -/

/-- Heads of one major type are in the order of their arguments. -/
theorem cborHead_lt {major n m : Nat} (hmajor : major < 8) (hm : m < 2 ^ 64) (h : n < m)
    (xs ys : Bytes) : cborHead major n ++ xs < cborHead major m ++ ys := by
  unfold cborHead
  dsimp only
  split_ifs <;> simp only [List.cons_append, List.nil_append]
  all_goals first
    | omega
    -- heads of two kinds: the initial bytes decide
    | exact cons_lt_of_byte (by omega) (by omega) (by omega)
    | exact cons_lt_of_byte (by omega) (Nat.le_refl _) fun _ => putBE_lt (by omega) h xs ys

/-- **Shorter texts first, then in string order.** The bytes of a string are fewer
than `2 ^ 64`. -/
theorem cborEncode_text_lt_iff {a b : String} (ha : a.utf8ByteSize < 2 ^ 64)
    (hb : b.utf8ByteSize < 2 ^ 64) :
    cborEncode (.text a) < cborEncode (.text b)
      ↔ a.utf8ByteSize < b.utf8ByteSize ∨ a.utf8ByteSize = b.utf8ByteSize ∧ a < b := by
  rw [cborEncode, cborEncode]
  rcases Nat.lt_trichotomy a.utf8ByteSize b.utf8ByteSize with hlt | heq | hgt
  · exact iff_of_true (cborHead_lt (by omega) hb hlt _ _) (Or.inl hlt)
  · rw [heq]
    have hlt : ∀ {s t : String}, s < t →
        cborHead 3 b.utf8ByteSize ++ s.toUTF8.data.toList
          < cborHead 3 b.utf8ByteSize ++ t.toUTF8.data.toList :=
      fun h => List.append_left_lt ((toUTF8_lt_iff _ _).mpr h)
    rcases lt_trichotomy a b with hab | rfl | hba
    · exact iff_of_true (hlt hab) (Or.inr ⟨rfl, hab⟩)
    · exact iff_of_false (List.lt_irrefl _) (by simp)
    · refine iff_of_false (List.lt_asymm (hlt hba)) ?_
      intro hor
      rcases hor with h | ⟨-, h⟩
      · exact absurd h (Nat.lt_irrefl _)
      · exact absurd h (String.lt_asymm hba)
  · refine iff_of_false (List.lt_asymm (cborHead_lt (by omega) ha hgt _ _)) ?_
    omega

/-! ## What the builder writes -/

/-- A call of one of the `insert_*` functions. -/
inductive MetaInsert where
  | str (key value : String)
  | u32 (key : String) (value : UInt32)
  | bytes (key : String) (value : Bytes)

namespace MetaInsert

def key : MetaInsert → String
  | .str key _ => key
  | .u32 key _ => key
  | .bytes key _ => key

/-- The builder after the call. -/
def apply (m : MetaBuilder) : MetaInsert → MetaBuilder
  | .str key value => m.insertStr key value
  | .u32 key value => m.insertU32 key value
  | .bytes key value => m.insertBytes key value

theorem exists_insert (i : MetaInsert) : ∃ value, ∀ m, i.apply m = m.insert i.key value := by
  cases i with
  | str key value => exact ⟨.text value, fun _ => rfl⟩
  | u32 key value => exact ⟨.integer value.toNat, fun _ => rfl⟩
  | bytes key value => exact ⟨.bytes value, fun _ => rfl⟩

end MetaInsert

/-- The builder after the calls. -/
def MetaBuilder.ofInserts (calls : List MetaInsert) : MetaBuilder :=
  calls.foldl MetaInsert.apply .new

/-- The map that `build` encodes has the entries given. -/
def MetaBuilder.Encodes (m : MetaBuilder) (entries : List (CborValue × CborValue)) : Prop :=
  ∀ crates : Crates, m.build crates
    = match crates.intoWriter (.map entries) with
      | some buf => .ok buf
      | none => .error .metaEncode

/-- The keys of a map are in the order of their bytes, without repetition. -/
def CanonicalOrder (entries : List (CborValue × CborValue)) : Prop :=
  entries.Pairwise fun a b => cborEncode a.1 < cborEncode b.1

theorem MetaBuilder.encodes (m : MetaBuilder) :
    m.Encodes (m.map.map fun e => (.text e.1, e.2)) := fun _ => rfl

/-- A builder encodes one map: an encoder that accepts only that one tells. -/
theorem MetaBuilder.Encodes.unique {m : MetaBuilder} {e₁ e₂ : List (CborValue × CborValue)}
    (h₁ : m.Encodes e₁) (h₂ : m.Encodes e₂) : e₁ = e₂ := by
  classical
  let crates : Crates :=
    ⟨fun v => if v = .map e₁ then some [] else none, fun _ => none, fun _ => 0⟩
  have h := (h₁ crates).symm.trans (h₂ crates)
  by_cases heq : CborValue.map e₂ = .map e₁
  · exact (CborValue.map.inj heq).symm
  · simp [crates, heq] at h

/-- The keys of the builder are those inserted. -/
theorem mem_keys_ofInserts (calls : List MetaInsert) (k : String) :
    k ∈ (MetaBuilder.ofInserts calls).map.map Prod.fst ↔ k ∈ calls.map MetaInsert.key := by
  induction calls using List.reverseRecOn with
  | nil => exact Iff.rfl
  | append_singleton calls call ih =>
    obtain ⟨value, happly⟩ := call.exists_insert
    rw [MetaBuilder.ofInserts, List.foldl_append, List.foldl_cons, List.foldl_nil, happly]
    rw [List.map_append, List.mem_append, List.map_singleton, List.mem_singleton]
    exact (BTreeMap.mem_keys_insert ..).trans ((or_congr_right ih).trans Or.comm)

theorem ofInserts_sorted (calls : List MetaInsert) :
    (MetaBuilder.ofInserts calls).map.Sorted keyLt := by
  refine List.foldlRecOn (motive := fun m => m.map.Sorted keyLt) calls MetaInsert.apply
    List.Pairwise.nil fun m hm call _ => ?_
  obtain ⟨value, happly⟩ := call.exists_insert
  rw [happly]
  exact hm.insert keyLt_strictOrder call.key value

/-- Lengths do not fall along the string order. -/
def LengthsRise (keys : List String) : Prop :=
  ∀ k ∈ keys, ∀ k' ∈ keys, k < k' → k.utf8ByteSize ≤ k'.utf8ByteSize

instance (keys : List String) : Decidable (LengthsRise keys) :=
  inferInstanceAs (Decidable (∀ k ∈ keys, ∀ k' ∈ keys, k < k' → k.utf8ByteSize ≤ k'.utf8ByteSize))

theorem canonicalOrder_iff {m : BTreeMap String CborValue} (hs : m.Sorted keyLt)
    (hlen : ∀ e ∈ m, e.1.utf8ByteSize < 2 ^ 64) :
    CanonicalOrder (m.map fun e => (.text e.1, e.2)) ↔ LengthsRise (m.map Prod.fst) := by
  unfold CanonicalOrder
  rw [List.pairwise_map]
  constructor
  · intro hp k hk k' hk' hlt
    obtain ⟨e, he, rfl⟩ := List.mem_map.mp hk
    obtain ⟨e', he', rfl⟩ := List.mem_map.mp hk'
    obtain ⟨i, hi, rfl⟩ := List.getElem_of_mem he
    obtain ⟨j, hj, rfl⟩ := List.getElem_of_mem he'
    rcases Nat.lt_trichotomy i j with hij | rfl | hji
    · have henc := List.pairwise_iff_getElem.mp hp i j hi hj hij
      have hcase := (cborEncode_text_lt_iff (hlen _ he) (hlen _ he')).mp henc
      omega
    · exact absurd hlt (String.lt_irrefl _)
    · have hgt := of_decide_eq_true (List.pairwise_iff_getElem.mp hs j i hj hi hji)
      exact absurd hlt (String.lt_asymm hgt)
  · intro hrise
    refine hs.imp_of_mem ?_
    intro a b ha hb hlt
    have hab : a.1 < b.1 := of_decide_eq_true hlt
    have hle := hrise a.1 (List.mem_map_of_mem ha) b.1 (List.mem_map_of_mem hb) hab
    refine (cborEncode_text_lt_iff (hlen a ha) (hlen b hb)).mpr ?_
    rcases Nat.lt_or_eq_of_le hle with h | h
    · exact Or.inl h
    · exact Or.inr ⟨h, hab⟩

/-- **What is built is canonical when the lengths of the keys do not fall**, and
only then. -/
theorem canonical_ofInserts_iff (calls : List MetaInsert)
    (hlen : ∀ call ∈ calls, call.key.utf8ByteSize < 2 ^ 64) :
    (∃ entries, (MetaBuilder.ofInserts calls).Encodes entries ∧ CanonicalOrder entries)
      ↔ LengthsRise (calls.map MetaInsert.key) := by
  have hkeys : ∀ e ∈ (MetaBuilder.ofInserts calls).map, e.1.utf8ByteSize < 2 ^ 64 := by
    intro e he
    obtain ⟨call, hcall, hkey⟩ :=
      List.mem_map.mp ((mem_keys_ofInserts calls e.1).mp (List.mem_map_of_mem he))
    rw [← hkey]
    exact hlen call hcall
  have hiff := canonicalOrder_iff (ofInserts_sorted calls) hkeys
  have hrise : LengthsRise ((MetaBuilder.ofInserts calls).map.map Prod.fst)
      ↔ LengthsRise (calls.map MetaInsert.key) := by
    unfold LengthsRise
    simp only [mem_keys_ofInserts]
  refine Iff.trans ⟨?_, fun h => ⟨_, MetaBuilder.encodes _, hiff.mpr h⟩⟩ hrise
  intro h
  obtain ⟨entries, hencodes, hcanonical⟩ := h
  rw [hencodes.unique (MetaBuilder.encodes _)] at hcanonical
  exact hiff.mp hcanonical

/-- Keys of rising length, inserted in any order. -/
theorem canonical_ofInserts_short_long :
    ∃ entries, (MetaBuilder.ofInserts
        [.str "content-type" "application/cbor", .bytes "ack" [0xA0]]).Encodes entries
      ∧ CanonicalOrder entries :=
  (canonical_ofInserts_iff _ (by decide)).mpr (by decide)

/-- The metadata of a RESUME frame is not canonical: `"content-type"` comes before
`"resume"`, which is shorter. -/
theorem not_canonical_resume :
    ¬ ∀ calls : List MetaInsert, ∃ entries,
      (MetaBuilder.ofInserts calls).Encodes entries ∧ CanonicalOrder entries := by
  intro h
  obtain ⟨entries, hencodes, hcanonical⟩ :=
    h [.str "content-type" "application/cbor", .bytes "resume" [0xA0]]
  rw [hencodes.unique (MetaBuilder.encodes _)] at hcanonical
  have hrise := (canonicalOrder_iff (ofInserts_sorted _) (by decide)).mp hcanonical
  exact absurd hrise (by decide)

end MeshCore.Wire
