/-
  GraphQLCheck.Proofs.Value.Entries
  ─────────────────────────────────
  Entries by key: what is found under a key, and what giving a key a value does to them.

  Objects, variables, arguments and registries all keep their parts this way, in order.  What is found
  under a key is the first entry with it, so in entries without duplicate keys an entry is what is found.

  Main facts:
    * `lookup_of_mem`, `lookup_eq_none_iff_not_mem` — what is found, and when nothing is
    * `Entries.lookup_put_of_ne`                    — a value for a key leaves the others as they are
    * `Entries.put_of_not_mem`                      — a new key comes last
    * `Entries.nodup_ofWritten`, `Entries.ofWritten_of_nodup` — entries as they are kept have no duplicate
                                                      keys, and without any they are kept as they are
-/
import GraphQLCheck.Json.Basic

namespace GraphQLCheck

/-! ## §1. What is found under a key. -/

/-- What is found under a key in place of what was found, if each value is replaced with regard to its key. -/
theorem lookup_map_keyed (entries : List (String × α)) (f : String → α → β) (key : String) :
    (entries.map fun entry => (entry.1, f entry.1 entry.2)).lookup key =
      (entries.lookup key).map (f key) := by
  induction entries with
  | nil => rfl
  | cons entry entries ih =>
    obtain ⟨name, value⟩ := entry
    rw [List.map_cons, List.lookup_cons, List.lookup_cons]
    cases hkey : key == name with
    | true => rw [beq_iff_eq.1 hkey]; rfl
    | false => exact ih

theorem lookup_map_entries (entries : List (String × α)) (f : α → β) (key : String) :
    (entries.map fun entry => (entry.1, f entry.2)).lookup key = (entries.lookup key).map f :=
  lookup_map_keyed entries (fun _ => f) key

theorem mem_of_lookup {entries : List (String × α)} {key : String} {value : α}
    (h : entries.lookup key = some value) : (key, value) ∈ entries := by
  obtain ⟨before, after, hsplit, _⟩ := List.lookup_eq_some_iff.1 h
  rw [hsplit]
  exact List.mem_append_right _ (List.mem_cons_self ..)

/-- Nothing is found under a key exactly if it is the key of no entry. -/
theorem lookup_eq_none_iff_not_mem {entries : List (String × α)} {key : String} :
    entries.lookup key = none ↔ key ∉ entries.map Prod.fst := by
  rw [List.lookup_eq_none_iff]
  simp only [bne_iff_ne, List.mem_map, not_exists, not_and]
  constructor
  · intro h entry hentry hname
    exact h entry hentry hname.symm
  · intro h entry hentry hname
    exact h entry hentry hname.symm

/-- An entry is what is found under its key, if no key occurs twice. -/
theorem lookup_of_mem {entries : List (String × α)} (hdistinct : (entries.map Prod.fst).Nodup)
    {key : String} {value : α} (hmem : (key, value) ∈ entries) : entries.lookup key = some value := by
  induction entries with
  | nil => cases hmem
  | cons entry entries ih =>
    obtain ⟨name, first⟩ := entry
    rw [List.map_cons, List.nodup_cons] at hdistinct
    rw [List.lookup_cons]
    rcases List.mem_cons.1 hmem with heq | hmem
    · cases heq
      rw [beq_self_eq_true]
    · have hkey : key ∈ entries.map Prod.fst := List.mem_map.2 ⟨_, hmem, rfl⟩
      have hne : key ≠ name := by
        rintro rfl
        exact hdistinct.1 hkey
      rw [beq_eq_false_iff_ne.2 hne]
      exact ih hdistinct.2 hmem

/-- If no key occurs twice, what is found under a key is found among the entries that are kept if its value is. -/
theorem lookup_filter_of_nodup {entries : List (String × α)} (hdistinct : (entries.map Prod.fst).Nodup)
    (keep : α → Bool) (key : String) :
    (entries.filter fun entry => keep entry.2).lookup key = (entries.lookup key).filter keep := by
  have hkept : ((entries.filter fun entry => keep entry.2).map Prod.fst).Nodup :=
    hdistinct.sublist (List.filter_sublist.map Prod.fst)
  ext value
  rw [Option.filter_eq_some_iff]
  constructor
  · intro hlookup
    obtain ⟨hmem, hkeep⟩ := List.mem_filter.1 (mem_of_lookup hlookup)
    exact ⟨lookup_of_mem hdistinct hmem, hkeep⟩
  · rintro ⟨hlookup, hkeep⟩
    exact lookup_of_mem hkept (List.mem_filter.2 ⟨mem_of_lookup hlookup, hkeep⟩)

/-- Entries with distinct keys can be put in another order. -/
theorem lookup_of_perm {entries entries' : List (String × α)} (hdistinct : (entries.map Prod.fst).Nodup)
    (h : entries.Perm entries') (key : String) : entries.lookup key = entries'.lookup key := by
  have hdistinct' : (entries'.map Prod.fst).Nodup := (h.map Prod.fst).nodup_iff.1 hdistinct
  ext value
  constructor
  · exact fun hlookup => lookup_of_mem hdistinct' (h.mem_iff.1 (mem_of_lookup hlookup))
  · exact fun hlookup => lookup_of_mem hdistinct (h.mem_iff.2 (mem_of_lookup hlookup))

/-! ## §2. Giving a key a value. -/

namespace Entries

variable {α : Type} {entries : List (String × α)} {key other : String} {value : α}

/-- Giving a key a value brings no other entry. -/
theorem mem_of_mem_put {entry : String × α} (h : entry ∈ put entries key value) :
    entry = (key, value) ∨ entry ∈ entries := by
  induction entries with
  | nil => exact .inl (List.mem_singleton.1 h)
  | cons first rest ih =>
    unfold put at h
    by_cases hkey : first.1 = key
    · rw [if_pos hkey] at h
      rcases List.mem_cons.1 h with rfl | h
      · exact .inl rfl
      · exact .inr (List.mem_cons_of_mem _ h)
    · rw [if_neg hkey] at h
      rcases List.mem_cons.1 h with rfl | h
      · exact .inr (List.mem_cons_self ..)
      · rcases ih h with heq | hrest
        · exact .inl heq
        · exact .inr (List.mem_cons_of_mem _ hrest)

/-- Giving a key a value leaves what is found under the others. -/
theorem lookup_put_of_ne (h : other ≠ key) : (put entries key value).lookup other = entries.lookup other := by
  have hother : (other == key) = false := beq_eq_false_iff_ne.2 h
  induction entries with
  | nil => simp [put, List.lookup_cons, hother]
  | cons first rest ih =>
    obtain ⟨name, old⟩ := first
    unfold put
    by_cases hkey : name = key
    · -- the first entry is replaced, and neither the old nor the new one is looked for
      rw [if_pos hkey, List.lookup_cons, List.lookup_cons, hkey, hother]
    · rw [if_neg hkey, List.lookup_cons, List.lookup_cons, ih]

/-- An entry with a new key comes last. -/
theorem put_of_not_mem (h : key ∉ entries.map Prod.fst) : put entries key value = entries ++ [(key, value)] := by
  induction entries with
  | nil => rfl
  | cons first rest ih =>
    rw [List.map_cons, List.mem_cons, not_or] at h
    unfold put
    rw [if_neg fun hkey => h.1 hkey.symm, ih h.2]
    rfl

/-- A key that is given a value stays where it is or comes last. -/
theorem keys_put : (put entries key value).map Prod.fst =
    if key ∈ entries.map Prod.fst then entries.map Prod.fst else entries.map Prod.fst ++ [key] := by
  induction entries with
  | nil => rfl
  | cons first rest ih =>
    unfold put
    by_cases hkey : first.1 = key
    · rw [if_pos hkey, List.map_cons, List.map_cons, hkey, if_pos (List.mem_cons_self ..)]
    · rw [if_neg hkey, List.map_cons, List.map_cons, ih]
      have hmem : key ∈ first.1 :: rest.map Prod.fst ↔ key ∈ rest.map Prod.fst := by
        rw [List.mem_cons]
        exact ⟨fun h => h.resolve_left (Ne.symm hkey), .inr⟩
      simp only [hmem]
      split <;> rfl

theorem nodup_put (h : (entries.map Prod.fst).Nodup) : ((put entries key value).map Prod.fst).Nodup := by
  rw [keys_put]
  split
  next => exact h
  next hkey =>
    rw [List.nodup_append]
    refine ⟨h, by simp, ?_⟩
    intro name hname last hlast
    rw [List.mem_singleton.1 hlast]
    rintro rfl
    exact hkey hname

theorem nodup_ofWritten (written : List (String × α)) : ((ofWritten written).map Prod.fst).Nodup := by
  have hfold : ∀ kept : List (String × α), (kept.map Prod.fst).Nodup →
      ((written.foldl (fun kept entry => put kept entry.1 entry.2) kept).map Prod.fst).Nodup := by
    induction written with
    | nil => exact fun _ h => h
    | cons entry written ih => exact fun _ h => ih _ (nodup_put h)
  exact hfold [] .nil

/-- Entries with distinct keys are kept as they are written. -/
theorem ofWritten_of_nodup {written : List (String × α)} (h : (written.map Prod.fst).Nodup) :
    ofWritten written = written := by
  have hfold : ∀ kept : List (String × α), ((kept ++ written).map Prod.fst).Nodup →
      written.foldl (fun kept entry => put kept entry.1 entry.2) kept = kept ++ written := by
    clear h
    induction written with
    | nil => exact fun kept _ => (List.append_nil kept).symm
    | cons entry written ih =>
      intro kept h
      have hnew : entry.1 ∉ kept.map Prod.fst := by
        intro hmem
        rw [List.map_append, List.nodup_append] at h
        exact h.2.2 _ hmem _ (List.mem_cons_self ..) rfl
      rw [List.append_cons] at h
      rw [List.foldl_cons, put_of_not_mem hnew, ih _ h, ← List.append_cons]
  exact hfold [] h

end Entries

end GraphQLCheck
