import Amqp091.Algorithm.Generator
import Mathlib.Data.List.SplitBy

/-! # Grouping the fields of a method

The loop over two indices leaves the maximal runs of fields of one type, in their order. -/

namespace Amqp091

/-- The fields that a set stands for. -/
def Fieldset.fields (set : Fieldset) : List SpecField :=
  set.names.map fun name => ⟨name, set.amqpType⟩

/-- What the loop does to the last set and the sets that it has not looked at. -/
def merge (a : Fieldset) : List Fieldset → List Fieldset
  | [] => [a]
  | b :: rest =>
      if a.amqpType = b.amqpType then merge { a with names := a.names ++ b.names } rest
      else a :: merge b rest

/-- Between the last set and the next one are sets that were moved or merged before. -/
theorem mergeLoop_eq (front : List Fieldset) (a : Fieldset) (passed rest : List Fieldset) :
    mergeLoop (rest.length + 1) (front ++ a :: (passed ++ rest)) front.length
        (front.length + 1 + passed.length) = some (front ++ merge a rest) := by
  induction rest generalizing front a passed with
  | nil =>
      rw [mergeLoop, if_neg (by simp; omega), merge]
      simp [List.take_append]
  | cons b rest ih =>
      have hlt : front.length + 1 + passed.length <
          (front ++ a :: (passed ++ b :: rest)).length := by
        simp
        omega
      have hi : (front ++ a :: (passed ++ b :: rest))[front.length]? = some a := by simp
      have hj : (front ++ a :: (passed ++ b :: rest))[front.length + 1 + passed.length]? =
          some b := by
        rw [List.getElem?_append_right (by omega)]
        have hsub : front.length + 1 + passed.length - front.length = passed.length + 1 := by omega
        simp [hsub]
      rw [List.length_cons, mergeLoop, if_pos hlt, hi, hj, merge]
      simp only
      split
      · -- the set at `j` is added to the one at `i` and stays behind
        have hset : (front ++ a :: (passed ++ b :: rest)).set front.length
            { a with names := a.names ++ b.names } =
            front ++ { a with names := a.names ++ b.names } :: ((passed ++ [b]) ++ rest) := by
          simp
        rw [hset]
        have h := ih front { a with names := a.names ++ b.names } (passed ++ [b])
        simpa [Nat.add_assoc] using h
      · cases passed with
        | nil =>
            have h := ih (front ++ [a]) b []
            simpa [Nat.add_assoc] using h
        | cons c passed =>
            have hset : (front ++ a :: (c :: passed ++ b :: rest)).set (front.length + 1) b =
                (front ++ [a]) ++ b :: ((passed ++ [b]) ++ rest) := by
              simp
            rw [hset]
            have h := ih (front ++ [a]) b (passed ++ [b])
            simpa [Nat.add_assoc, Nat.add_comm, Nat.add_left_comm] using h

/-! ## The groups -/

def sameType (a b : SpecField) : Bool := a.type = b.type

theorem merge_head (a : Fieldset) (rest : List Fieldset) :
    ∃ names tail, merge a rest = ⟨a.amqpType, names⟩ :: tail := by
  induction rest generalizing a with
  | nil => exact ⟨a.names, [], rfl⟩
  | cons b rest ih =>
      rw [merge]
      split
      · exact ih { a with names := a.names ++ b.names }
      · exact ⟨a.names, merge b rest, rfl⟩

theorem merge_fields (a : Fieldset) (rest : List Fieldset) :
    (merge a rest).flatMap Fieldset.fields = a.fields ++ rest.flatMap Fieldset.fields := by
  induction rest generalizing a with
  | nil => simp [merge]
  | cons b rest ih =>
      rw [merge]
      split
      · rename_i heq
        rw [ih]
        simp [Fieldset.fields, heq]
      · rw [List.flatMap_cons, ih, List.flatMap_cons]

theorem merge_names_ne_nil {a : Fieldset} {rest : List Fieldset} (ha : a.names ≠ [])
    (hrest : ∀ set ∈ rest, set.names ≠ []) : ∀ set ∈ merge a rest, set.names ≠ [] := by
  induction rest generalizing a with
  | nil => simpa [merge] using ha
  | cons b rest ih =>
      obtain ⟨hb, hrest⟩ := List.forall_mem_cons.mp hrest
      rw [merge]
      split
      · exact ih (by simp [ha]) hrest
      · exact List.forall_mem_cons.mpr ⟨ha, ih hb hrest⟩

theorem merge_isChain (a : Fieldset) (rest : List Fieldset) :
    (merge a rest).IsChain fun set set' => set.amqpType ≠ set'.amqpType := by
  induction rest generalizing a with
  | nil => exact List.isChain_singleton _
  | cons b rest ih =>
      rw [merge]
      split
      · exact ih _
      · rename_i hne
        obtain ⟨names, tail, hmerge⟩ := merge_head b rest
        have hchain := ih b
        rw [hmerge] at hchain ⊢
        exact List.isChain_cons_cons.mpr ⟨hne, hchain⟩

theorem fields_ne_nil {set : Fieldset} (h : set.names ≠ []) : set.fields ≠ [] := by
  simpa [Fieldset.fields] using h

/-- Sets that are not empty and alternate in their types are the runs of their fields. -/
theorem splitBy_flatMap_fields {sets : List Fieldset} (hnames : ∀ set ∈ sets, set.names ≠ [])
    (hchain : sets.IsChain fun set set' => set.amqpType ≠ set'.amqpType) :
    (sets.flatMap Fieldset.fields).splitBy sameType = sets.map Fieldset.fields := by
  have htype : ∀ (set : Fieldset), ∀ field ∈ set.fields, field.type = set.amqpType := by
    intro set field hfield
    obtain ⟨name, -, rfl⟩ := List.mem_map.mp hfield
    rfl
  rw [List.splitBy_eq_iff]
  refine ⟨by rw [← List.flatMap_def], ?_, ?_, ?_⟩
  · rintro hmem
    obtain ⟨set, hset, hnil⟩ := List.mem_map.mp hmem
    exact fields_ne_nil (hnames set hset) hnil
  · intro run hrun
    obtain ⟨set, -, rfl⟩ := List.mem_map.mp hrun
    refine List.Pairwise.isChain (List.pairwise_of_forall_mem_list ?_)
    intro a ha b hb
    simp [sameType, htype set a ha, htype set b hb]
  · rw [List.isChain_map]
    refine hchain.imp_of_mem_imp ?_
    intro set set' hset hset' hne
    refine ⟨fields_ne_nil (hnames set hset), fields_ne_nil (hnames set' hset'), ?_⟩
    simp [sameType, htype set _ (List.getLast_mem _), htype set' _ (List.head_mem _), hne]

/-- `Fieldsets` succeeds, and its sets are the maximal runs of fields of one type. -/
theorem fieldsets_spec (fields : List SpecField) :
    ∃ sets, fieldsets fields = some sets ∧ sets.map Fieldset.fields = fields.splitBy sameType ∧
      (∀ set ∈ sets, set.names ≠ []) := by
  cases fields with
  | nil => exact ⟨[], rfl, rfl, by simp⟩
  | cons field fields =>
      set single : SpecField → Fieldset := fun field => ⟨field.type, [field.name]⟩ with hsingle
      have hsets : fieldsets (field :: fields) =
          some (merge (single field) (fields.map single)) := by
        have hloop := mergeLoop_eq [] (single field) [] (fields.map single)
        rw [fieldsets, if_pos (by simp)]
        simpa using hloop
      have hfields : ∀ l : List SpecField, (l.map single).flatMap Fieldset.fields = l := by
        intro l
        simp [List.flatMap_map, Fieldset.fields, hsingle]
      have hnames : ∀ set ∈ merge (single field) (fields.map single), set.names ≠ [] :=
        merge_names_ne_nil (by simp [hsingle]) (by simp [hsingle])
      have hflat : (merge (single field) (fields.map single)).flatMap Fieldset.fields =
          field :: fields := by
        rw [merge_fields, hfields]
        rfl
      refine ⟨_, hsets, ?_, hnames⟩
      rw [← splitBy_flatMap_fields hnames (merge_isChain _ _), hflat]

end Amqp091
