/-
  GraphQLCheck.Proofs.Value.Depth
  ───────────────────────────────
  Evaluations that are followed to a growing depth.

  A default may use other defaults, which are followed to some depth.  What has an outcome at a depth keeps
  it at every greater one, so as the depth grows, the outcomes of defaults only become more.  Once a step to
  the next depth brings no new one, no later step does, because an outcome depends on the depth through the
  outcomes of defaults alone.  So the outcomes are all there after as many steps as there are defaults.

  Main results:
    * `Outcome.Kept`                 — a relation between outcomes that evaluations keep
    * `Outcome.Deepening`            — outcomes that only become more as the depth grows
    * `Outcome.Deepening.stable`     — they are all there at a depth that is the number of defaults
-/
import GraphQLCheck.Outcome

namespace GraphQLCheck

namespace Outcome

/-! ## §1. Relations that evaluations keep. -/

section Kept

variable {ε α β : Type}

/-- A relation between outcomes that holds of what has ended, and that further steps and other reasons
keep. -/
structure Kept (R : (α : Type) → Outcome ε α → Outcome ε α → Prop) : Prop where
  refl {α : Type} (outcome : Outcome ε α) : outcome ≠ .endless → R α outcome outcome
  bind {α β : Type} {x y : Outcome ε α} {f g : α → Outcome ε β} :
    R α x y → (∀ a, R β (f a) (g a)) → R β (x >>= f) (y >>= g)
  mapFailure {α : Type} {x y : Outcome ε α} (f : ε → ε) :
    R α x y → R α (x.mapFailure f) (y.mapFailure f)

namespace Kept

variable {R : (α : Type) → Outcome ε α → Outcome ε α → Prop}

theorem pure (kept : Kept R) (a : α) : R α (.value a) (.value a) :=
  kept.refl _ (by simp)

theorem map (kept : Kept R) {x y : Outcome ε α} (h : R α x y) (f : α → β) : R β (x.map f) (y.map f) :=
  kept.bind h fun a => kept.pure (f a)

theorem mapM (kept : Kept R) {f g : α → Outcome ε β} {l : List α} (h : ∀ a ∈ l, R β (f a) (g a)) :
    R (List β) (l.mapM f) (l.mapM g) := by
  induction l with
  | nil => exact kept.pure []
  | cons a l ih =>
    rw [List.mapM_cons, List.mapM_cons]
    apply kept.bind (h a (List.mem_cons_self ..))
    intro b
    apply kept.bind (ih fun other hother => h other (List.mem_cons_of_mem _ hother))
    intro rest
    exact kept.pure (b :: rest)

end Kept

/-- Outcomes that are the same. -/
theorem kept_eq : Kept fun α (x y : Outcome ε α) => x = y where
  refl _ _ := rfl
  bind hx hf := by
    rw [hx]
    exact congrArg _ (funext hf)
  mapFailure f hx := by rw [hx]

/-- An outcome that another one is, unless it has not ended. -/
def Below (α : Type) (x y : Outcome ε α) : Prop := x = .endless ∨ x = y

theorem kept_below : Kept (@Below ε) where
  refl _ _ := .inr rfl
  bind hxy hfg := by
    rcases hxy with rfl | rfl
    · -- what has not ended does not go on either
      exact .inl rfl
    · rename_i x f g
      cases x with
      | value a => exact hfg a
      | failure e => exact .inr rfl
      | endless => exact .inl rfl
  mapFailure f hxy := by
    rcases hxy with rfl | rfl
    · exact .inl rfl
    · exact .inr rfl

/-- An outcome that has an end, whatever the other one is. -/
def Ended (α : Type) (x _ : Outcome ε α) : Prop := x ≠ .endless

theorem kept_ended : Kept (@Ended ε) where
  refl _ h := h
  bind hx hf := by
    rename_i x _ f _
    cases x with
    | value a => exact hf a
    | failure e =>
      intro h
      cases h
    | endless => exact absurd rfl hx
  mapFailure f hx := by
    rename_i x _
    cases x with
    | value a => exact nofun
    | failure e => exact nofun
    | endless => exact absurd rfl hx

end Kept

/-! ## §2. Growing depth. -/

/-- Whether an outcome has no end. -/
def isEndless : Outcome ε α → Bool
  | .endless => true
  | _ => false

theorem isEndless_iff {outcome : Outcome ε α} : outcome.isEndless = true ↔ outcome = .endless := by
  cases outcome <;> simp [isEndless]

end Outcome

theorem countP_lt_of_new {l : List α} {p q : α → Bool} (h : ∀ a ∈ l, p a = true → q a = true)
    {a : α} (hmem : a ∈ l) (hp : p a = false) (hq : q a = true) : l.countP p < l.countP q := by
  induction l with
  | nil => cases hmem
  | cons b l ih =>
    rw [List.countP_cons, List.countP_cons]
    have hrest : ∀ c ∈ l, p c = true → q c = true := fun c hc => h c (List.mem_cons_of_mem _ hc)
    rcases List.mem_cons.1 hmem with rfl | hmem
    · rw [hp, hq]
      have hle := List.countP_mono_left hrest
      simp only [Bool.false_eq_true, if_false, if_true]
      omega
    · have hlt := ih hrest hmem
      by_cases hb : p b = true
      · rw [if_pos hb, if_pos (h b (List.mem_cons_self ..) hb)]
        omega
      · rw [if_neg hb]
        omega

namespace Outcome

/-- Outcomes at each depth: what has ended at one depth has ended so at the next; and if a step to the
next depth brings nothing new at the places that count, no other step does after it. -/
structure Deepening (places : List α) (run : Nat → α → Outcome ε β) : Prop where
  below_succ : ∀ depth place, Below β (run depth place) (run (depth + 1) place)
  settled : ∀ depth, (∀ place ∈ places, run (depth + 1) place = run depth place) →
    ∀ place ∈ places, run (depth + 2) place = run (depth + 1) place

namespace Deepening

variable {places : List α} {run : Nat → α → Outcome ε β}

/-- The number of places that have an outcome at some depth. -/
def settledCount (places : List α) (run : Nat → α → Outcome ε β) (depth : Nat) : Nat :=
  places.countP fun place => !(run depth place).isEndless

/-- Unless a depth is stable, the next one brings an outcome at one place more. -/
theorem settledCount_lt (h : Deepening places run) {depth : Nat}
    (hnew : ¬∀ place ∈ places, run (depth + 1) place = run depth place) :
    settledCount places run depth < settledCount places run (depth + 1) := by
  simp only [Classical.not_forall] at hnew
  obtain ⟨place, hplace, hnew⟩ := hnew
  have hend : run depth place = .endless := by
    rcases h.below_succ depth place with hend | hequal
    · exact hend
    · exact absurd hequal.symm hnew
  apply countP_lt_of_new _ hplace
  · rw [hend]
    rfl
  · rw [Bool.not_eq_true', Bool.eq_false_iff]
    intro hend'
    rw [isEndless_iff] at hend'
    exact hnew (hend'.trans hend.symm)
  · intro other _ hsettled
    rcases h.below_succ depth other with hend | hequal
    · rw [hend] at hsettled
      cases hsettled
    · rw [← hequal]
      exact hsettled

theorem stable_or_le_settledCount (h : Deepening places run) (depth : Nat) :
    (∀ place ∈ places, run (depth + 1) place = run depth place) ∨
      depth ≤ settledCount places run depth := by
  induction depth with
  | zero => exact .inr (Nat.zero_le _)
  | succ depth ih =>
    by_cases hstable : ∀ place ∈ places, run (depth + 1) place = run depth place
    · exact .inl (h.settled depth hstable)
    · rcases ih with hstable' | hle
      · exact absurd hstable' hstable
      · exact .inr (Nat.lt_of_le_of_lt hle (h.settledCount_lt hstable))

/-- **As many steps as there are places are enough.** -/
theorem stable (h : Deepening places run) :
    ∀ place ∈ places, run (places.length + 1) place = run places.length place := by
  rcases h.stable_or_le_settledCount places.length with hstable | hle
  · exact hstable
  · -- every place has an outcome then, and keeps it
    have hall : settledCount places run places.length = places.length :=
      Nat.le_antisymm List.countP_le_length hle
    rw [settledCount, List.countP_eq_length] at hall
    intro place hplace
    have hsettled := hall place hplace
    rcases h.below_succ places.length place with hend | hequal
    · rw [hend] at hsettled
      cases hsettled
    · exact hequal.symm

end Deepening

end Outcome

end GraphQLCheck
