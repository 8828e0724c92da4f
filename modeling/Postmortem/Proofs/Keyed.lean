import Mathlib
import Postmortem.Registry.Keyed

/-! # Tables in the order of their keys

A table stays in order whatever is put in or removed, and since every key is in it once, what is put
in under a key replaces what was there.
-/

namespace Postmortem

/-! ## The order of keys -/

namespace Bytes

variable {a b c : Bytes}

theorem precedes_iff : precedes a b = true ↔ a.map UInt8.toNat < b.map UInt8.toNat := by
  induction a generalizing b with
  | nil => cases b <;> simp [precedes]
  | cons x a ih =>
      cases b with
      | nil => simp [precedes]
      | cons y b =>
          simp only [precedes, Bool.or_eq_true, Bool.and_eq_true, decide_eq_true_eq, beq_iff_eq, ih,
            List.map_cons, List.cons_lt_cons_iff, UInt8.lt_iff_toNat_lt, UInt8.toNat_inj]

/-- The order of keys is the lexicographic one. -/
theorem precedes_iff_lt : precedes a b = true ↔ a < b := by
  induction a generalizing b with
  | nil => cases b <;> simp [precedes]
  | cons x a ih =>
      cases b with
      | nil => simp [precedes]
      | cons y b =>
          simp only [precedes, Bool.or_eq_true, Bool.and_eq_true, decide_eq_true_eq, beq_iff_eq, ih,
            List.cons_lt_cons_iff]

theorem precedes_trans (h : precedes a b = true) (h' : precedes b c = true) :
    precedes a c = true :=
  precedes_iff.mpr ((precedes_iff.mp h).trans (precedes_iff.mp h'))

theorem ne_of_precedes (h : precedes a b = true) : a ≠ b := by
  rintro rfl
  exact lt_irrefl _ (precedes_iff.mp h)

theorem precedes_of_not (ne : a ≠ b) (h : precedes a b = false) : precedes b a = true := by
  rw [← Bool.not_eq_true, precedes_iff] at h
  have different : a.map UInt8.toNat ≠ b.map UInt8.toNat :=
    fun same => ne (List.map_injective_iff.mpr (fun _ _ => UInt8.toNat_inj.mp) same)
  exact precedes_iff.mpr (lt_of_le_of_ne (not_lt.mp h) different.symm)

end Bytes

/-! ## Tables -/

namespace Keyed

variable {α : Type} {table : Keyed α} {key k : Bytes} {value v : α}

/-- The keys increase. -/
def Sorted (table : Keyed α) : Prop := table.Pairwise fun a b => Bytes.precedes a.1 b.1 = true

theorem mem_erase : (k, v) ∈ table.erase key ↔ k ≠ key ∧ (k, v) ∈ table := by
  rw [erase, List.mem_filter, and_comm]
  simp

theorem Sorted.erase (h : table.Sorted) (key : Bytes) : (table.erase key).Sorted :=
  List.Pairwise.filter _ h

theorem mem_of_mem_insert (h : (k, v) ∈ table.insert key value) :
    k = key ∧ v = value ∨ (k, v) ∈ table := by
  induction table with
  | nil => simpa [insert] using h
  | cons first rest ih =>
      obtain ⟨k', v'⟩ := first
      rw [insert] at h
      split at h
      · obtain here | there := List.mem_cons.mp h
        · exact .inl (Prod.mk.inj here)
        · exact .inr (List.mem_cons_of_mem _ there)
      · split at h
        · exact (List.mem_cons.mp h).imp_left Prod.mk.inj
        · obtain here | there := List.mem_cons.mp h
          · exact .inr (here ▸ List.mem_cons_self)
          · exact (ih there).imp_right (List.mem_cons_of_mem _)

theorem Sorted.insert (h : table.Sorted) (key : Bytes) (value : α) :
    (table.insert key value).Sorted := by
  induction table with
  | nil => exact List.pairwise_singleton _ _
  | cons first rest ih =>
      obtain ⟨k', v'⟩ := first
      obtain ⟨above, sorted⟩ := List.pairwise_cons.mp h
      rw [Keyed.insert]
      split
      · next same =>
        subst same
        exact List.pairwise_cons.mpr ⟨above, sorted⟩
      · next ne =>
        split
        · next before =>
          refine List.pairwise_cons.mpr ⟨fun other member => ?_, h⟩
          obtain rfl | member := List.mem_cons.mp member
          · exact before
          · exact Bytes.precedes_trans before (above other member)
        · next behind =>
          refine List.pairwise_cons.mpr ⟨?_, ih sorted⟩
          rintro ⟨k, v⟩ member
          obtain ⟨rfl, -⟩ | member := mem_of_mem_insert member
          · exact Bytes.precedes_of_not ne (Bool.eq_false_of_not_eq_true behind)
          · exact above _ member

/-- In a table that is in order, a value that is put in replaces the one that was there. -/
theorem Sorted.mem_insert (h : table.Sorted) :
    (k, v) ∈ table.insert key value ↔ k = key ∧ v = value ∨ k ≠ key ∧ (k, v) ∈ table := by
  induction table with
  | nil => simp [Keyed.insert]
  | cons first rest ih =>
      obtain ⟨k', v'⟩ := first
      obtain ⟨above, sorted⟩ := List.pairwise_cons.mp h
      have later (member : (k, v) ∈ rest) : k' ≠ k := Bytes.ne_of_precedes (above _ member)
      rw [Keyed.insert]
      split
      · next same =>
        subst same
        simp only [List.mem_cons, Prod.mk.injEq]
        grind
      · next ne =>
        split
        · next before =>
          have apart (member : (k, v) ∈ rest) : key ≠ k :=
            Bytes.ne_of_precedes (Bytes.precedes_trans before (above _ member))
          simp only [List.mem_cons, Prod.mk.injEq]
          grind
        · simp only [List.mem_cons, Prod.mk.injEq, ih sorted]
          grind

/-- Of the values in a table that is in order, those under a key are the one that is found. -/
theorem Sorted.get?_eq_some_iff (h : table.Sorted) :
    table.get? key = some value ↔ (key, value) ∈ table := by
  rw [get?, Option.map_eq_some_iff]
  constructor
  · rintro ⟨⟨k, v⟩, found, rfl⟩
    obtain rfl : k = key := by simpa using List.find?_some found
    exact List.mem_of_find?_eq_some found
  · intro member
    obtain ⟨before, after, rfl⟩ := List.append_of_mem member
    obtain ⟨-, -, first⟩ := List.pairwise_append.mp h
    refine ⟨(key, value), List.find?_eq_some_iff_append.mpr ⟨by simp, before, after, rfl, ?_⟩, rfl⟩
    intro entry earlier
    simpa using Bytes.ne_of_precedes (first entry earlier _ List.mem_cons_self)

/-- A table that is in order is determined by what is in it. -/
theorem Sorted.ext {other : Keyed α} (h : table.Sorted) (h' : other.Sorted)
    (same : ∀ key value, (key, value) ∈ table ↔ (key, value) ∈ other) : table = other := by
  have : Std.Irrefl fun a b : Bytes × α => Bytes.precedes a.1 b.1 = true :=
    ⟨fun a before => Bytes.ne_of_precedes before rfl⟩
  have : Std.Antisymm fun a b : Bytes × α => Bytes.precedes a.1 b.1 = true :=
    ⟨fun a b before after => absurd rfl (Bytes.ne_of_precedes (Bytes.precedes_trans before after))⟩
  exact List.Pairwise.eq_of_mem_iff h h' fun entry => same entry.1 entry.2

end Keyed

end Postmortem
