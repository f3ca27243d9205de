import Mathlib.Data.List.AList

/-! # Maps with other names for their keys

Another name for every key, none of them given twice, does not change what can be found in a
map and what is left of it. -/

namespace KeyMap

variable {κ κ' β β' : Type} {f : κ → κ'} {g : β → β'}

/-- An entry with the key `f k` in place of `k` and the value `g v` in place of `v`. -/
def entry (f : κ → κ') (g : β → β') : (Σ _ : κ, β) → Σ _ : κ', β' :=
  Sigma.map f fun _ => g

def rename (hf : Function.Injective f) (g : β → β') (m : AList fun _ : κ => β) :
    AList fun _ : κ' => β' where
  entries := m.entries.map (entry f g)
  nodupKeys := by
    have hkeys : (m.entries.map (entry f g)).map Sigma.fst = (m.entries.map Sigma.fst).map f := by
      simp [entry, Sigma.map]
    rw [List.NodupKeys, List.keys, hkeys]
    exact m.nodupKeys.map hf

variable (hf : Function.Injective f)

theorem rename_entries (m : AList fun _ : κ => β) :
    (rename hf g m).entries = m.entries.map (entry f g) := rfl

theorem length_keys_rename (m : AList fun _ : κ => β) :
    (rename hf g m).keys.length = m.keys.length := by
  simp [AList.keys, List.keys, rename_entries]

variable [DecidableEq κ] [DecidableEq κ']

theorem lookup_rename (m : AList fun _ : κ => β) (k : κ) :
    (rename hf g m).lookup (f k) = (m.lookup k).map g :=
  @List.dlookup_map κ κ' (fun _ => β) (fun _ => β') _ _ m.entries f hf (fun _ => g) k

theorem kerase_map (hf : Function.Injective f) (l : List (Σ _ : κ, β)) (k : κ) :
    (l.map (entry f g)).kerase (f k) = (l.kerase k).map (entry f g) := by
  induction l with
  | nil => rfl
  | cons e l ih =>
      rw [List.map_cons]
      by_cases hk : k = e.1
      · rw [List.kerase_cons_eq hk, List.kerase_cons_eq (congrArg f hk)]
      · have hfk : f k ≠ (entry f g e).1 := fun heq => hk (hf heq)
        rw [List.kerase_cons_ne hk, List.kerase_cons_ne hfk, ih, List.map_cons]

theorem erase_rename (m : AList fun _ : κ => β) (k : κ) :
    (rename hf g m).erase (f k) = rename hf g (m.erase k) :=
  AList.ext (kerase_map hf m.entries k)

theorem insert_rename (m : AList fun _ : κ => β) (k : κ) (v : β) :
    (rename hf g m).insert (f k) (g v) = rename hf g (m.insert k v) := by
  apply AList.ext
  rw [AList.entries_insert, rename_entries, kerase_map hf, rename_entries, AList.entries_insert,
    List.map_cons]
  rfl

end KeyMap
