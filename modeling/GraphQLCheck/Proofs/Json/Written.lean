/-
  GraphQLCheck.Proofs.Json.Written
  ────────────────────────────────
  Values as they are written: items and entries are written one by one.
-/
import GraphQLCheck.Json.Written

namespace GraphQLCheck

theorem mapM_eq_some_of_forall {f : α → Option β} {g : α → β} {l : List α} (h : ∀ a ∈ l, f a = some (g a)) :
    l.mapM f = some (l.map g) := by
  induction l with
  | nil => rfl
  | cons a l ih =>
    rw [List.mapM_cons, h a (List.mem_cons_self ..), ih fun b hb => h b (List.mem_cons_of_mem _ hb)]
    rfl

namespace WrittenJson

theorem ofItems_eq_map (items : List Json) : ofItems items = items.map ofJson := by
  induction items with
  | nil => rfl
  | cons item items ih => rw [ofItems, ih, List.map_cons]

theorem ofFields_eq_map (entries : List (String × Json)) :
    ofFields entries = entries.map fun entry => (entry.1, ofJson entry.2) := by
  induction entries with
  | nil => rfl
  | cons entry entries ih =>
    obtain ⟨key, value⟩ := entry
    rw [ofFields, ih, List.map_cons]

/-- An object is written with all its keys. -/
theorem ofEntries_ofJson (entries : List (String × Json)) :
    ofEntries (entries.map fun entry => (some entry.1, ofJson entry.2)) = ofJson (.object entries) := by
  have hentries {f : Option String × WrittenJson → Option (String × WrittenJson)}
      (hf : ∀ key value, f (some key, value) = some (key, value)) :
      (entries.map fun entry => (some entry.1, ofJson entry.2)).mapM f = some (ofFields entries) := by
    rw [List.mapM_map, ofFields_eq_map]
    exact mapM_eq_some_of_forall fun entry _ => hf entry.1 (ofJson entry.2)
  unfold ofEntries
  rw [hentries fun _ _ => rfl]
  rfl

end WrittenJson

end GraphQLCheck
