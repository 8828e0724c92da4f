import Postmortem.Proofs.Keyed
import Postmortem.Registry.ProgramInfo

/-! # Facts stated one after another

What is known about the program follows from the history of its facts: under every key stands the
value that was stated last, unless that was the empty one. The printed form is determined by what
stands, so that it is the same whichever way led there.
-/

namespace Postmortem.ProgramInfo

variable {history other : List (Bytes × Bytes)} {info : ProgramInfo} {key value k v : Bytes}

/-! ## Histories -/

/-- What is known after some facts were stated. -/
def afterAll (history : List (Bytes × Bytes)) : ProgramInfo :=
  history.foldl (fun info fact => info.set fact.1 fact.2) empty

/-- A value is the last one that was stated for a key, and not the empty one, which takes the fact
    back. -/
def Stands (history : List (Bytes × Bytes)) (key value : Bytes) : Prop :=
  value ≠ [] ∧ ∃ before after, history = before ++ (key, value) :: after ∧
    ∀ fact ∈ after, fact.1 ≠ key

theorem afterAll_concat (history : List (Bytes × Bytes)) (k v : Bytes) :
    afterAll (history ++ [(k, v)]) = (afterAll history).set k v := by
  rw [afterAll, List.foldl_concat]
  rfl

theorem not_stands_nil : ¬ Stands [] key value := by
  rintro ⟨-, before, after, split, -⟩
  simp at split

/-- One fact more. -/
theorem stands_concat : Stands (history ++ [(k, v)]) key value ↔
    (value ≠ [] ∧ key = k ∧ value = v) ∨ (key ≠ k ∧ Stands history key value) := by
  constructor
  · rintro ⟨nonempty, before, after, split, last⟩
    obtain rfl | ⟨after, fact, rfl⟩ := List.eq_nil_or_concat after
    · obtain ⟨-, same⟩ := List.append_inj' split rfl
      obtain ⟨rfl, rfl⟩ := Prod.mk.inj (List.singleton_inj.mp same)
      exact .inl ⟨nonempty, rfl, rfl⟩
    · rw [List.concat_eq_append, ← List.cons_append, ← List.append_assoc] at split
      obtain ⟨rfl, same⟩ := List.append_inj' split rfl
      obtain rfl := List.singleton_inj.mp same
      simp only [List.concat_eq_append, List.mem_append, List.mem_singleton] at last
      exact .inr ⟨(last _ (.inr rfl)).symm, nonempty, before, after, rfl,
        fun fact member => last fact (.inl member)⟩
  · rintro (⟨nonempty, rfl, rfl⟩ | ⟨ne, nonempty, before, after, rfl, last⟩)
    · exact ⟨nonempty, history, [], rfl, by simp⟩
    · refine ⟨nonempty, before, after ++ [(k, v)], by simp, fun fact member => ?_⟩
      obtain member | member := List.mem_append.mp member
      · exact last fact member
      · obtain rfl := List.mem_singleton.mp member
        exact Ne.symm ne

/-! ## The table and its printed form -/

/-- The table holds what stands, in order, and is printed as it is. -/
structure Agrees (history : List (Bytes × Bytes)) (info : ProgramInfo) : Prop where
  sorted : info.entries.Sorted
  stands : ∀ key value, (key, value) ∈ info.entries ↔ Stands history key value
  rendered : info.rendered = render info.entries

theorem agrees_empty : Agrees [] empty where
  sorted := List.Pairwise.nil
  stands _ _ := iff_of_false List.not_mem_nil not_stands_nil
  rendered := rfl

theorem Agrees.set (h : Agrees history info) (k v : Bytes) :
    Agrees (history ++ [(k, v)]) (info.set k v) := by
  rw [ProgramInfo.set]
  cases v with
  | nil =>
      refine ⟨h.sorted.erase k, fun key value => ?_, rfl⟩
      rw [stands_concat, ← h.stands]
      simp only [List.isEmpty_nil, if_true, Keyed.mem_erase]
      grind
  | cons b v =>
      refine ⟨h.sorted.insert k (b :: v), fun key value => ?_, rfl⟩
      rw [stands_concat, ← h.stands]
      simp only [List.isEmpty_cons, Bool.false_eq_true, if_false, h.sorted.mem_insert]
      grind

theorem agrees_afterAll (history : List (Bytes × Bytes)) : Agrees history (afterAll history) := by
  induction history using List.reverseRecOn with
  | nil => exact agrees_empty
  | append_singleton history fact ih =>
      rw [afterAll_concat]
      exact ih.set fact.1 fact.2

/-- Nothing but what stands matters. -/
theorem afterAll_eq (same : ∀ key value, Stands history key value ↔ Stands other key value) :
    afterAll history = afterAll other := by
  have h := agrees_afterAll history
  have h' := agrees_afterAll other
  have entries : (afterAll history).entries = (afterAll other).entries := by
    refine h.sorted.ext h'.sorted fun key value => ?_
    rw [h.stands, h'.stands]
    exact same key value
  have rendered : (afterAll history).rendered = (afterAll other).rendered := by
    rw [h.rendered, h'.rendered, entries]
  calc afterAll history = ⟨(afterAll history).entries, (afterAll history).rendered⟩ := rfl
    _ = ⟨(afterAll other).entries, (afterAll other).rendered⟩ := by rw [entries, rendered]

theorem set_comm_afterAll {k' v' : Bytes} (history : List (Bytes × Bytes)) (ne : k ≠ k') :
    ((afterAll history).set k v).set k' v' = ((afterAll history).set k' v').set k v := by
  -- Two facts about different keys stand or not each for itself.
  simp only [← afterAll_concat]
  refine afterAll_eq fun key value => ?_
  simp only [stands_concat]
  grind

/-- After every history a key has the value that stands for it, and the printed form has a line for
    each key that has one, in the order of the keys. Histories after which the same values stand lead
    to the same, and facts about different keys can be stated in either order. -/
theorem facts_of_history (history : List (Bytes × Bytes)) :
    let info := afterAll history
    (∀ key value, info.get? key = some value ↔ Stands history key value) ∧
    (∃ facts : List (Bytes × Bytes), facts.Pairwise (fun a b => a.1 < b.1) ∧
      (∀ key value, (key, value) ∈ facts ↔ Stands history key value) ∧
      info.rendered = facts.flatMap fun (key, value) => key ++ utf8 ": " ++ value ++ utf8 "\n") ∧
    (∀ other, (∀ key value, Stands other key value ↔ Stands history key value) →
      afterAll other = info) ∧
    ∀ k v k' v', k ≠ k' → (info.set k v).set k' v' = (info.set k' v').set k v := by
  have h := agrees_afterAll history
  refine ⟨fun key value => ?_, ⟨_, ?_, h.stands, h.rendered⟩, fun other => afterAll_eq,
    fun k v k' v' => set_comm_afterAll history⟩
  · rw [get?, h.sorted.get?_eq_some_iff, h.stands]
  · exact h.sorted.imp Bytes.precedes_iff_lt.mp

/-- Two histories after which the same values stand: a fact is changed and another one taken back in
    the one, and the other one only states what is left. -/
theorem changed_and_taken_back :
    (afterAll [(utf8 "version", utf8 "2.0"), (utf8 "build", utf8 "1"), (utf8 "version", []),
      (utf8 "build", utf8 "2")]).rendered = utf8 "build: 2\n" := by
  have same : ∀ key value,
      Stands ([] ++ [(utf8 "version", utf8 "2.0")] ++ [(utf8 "build", utf8 "1")] ++
        [(utf8 "version", [])] ++ [(utf8 "build", utf8 "2")]) key value ↔
      Stands ([] ++ [(utf8 "build", utf8 "2")]) key value := by
    intro key value
    simp only [stands_concat, not_stands_nil]
    grind
  obtain ⟨-, -, determined, -⟩ := facts_of_history ([] ++ [(utf8 "build", utf8 "2")])
  exact congrArg ProgramInfo.rendered (determined _ same)

end Postmortem.ProgramInfo
