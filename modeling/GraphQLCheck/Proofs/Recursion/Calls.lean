/-
  GraphQLCheck.Proofs.Recursion.Calls
  ───────────────────────────────────
  Functions that call themselves, and the number of calls that they take.

  A recursion says what a function makes of the outcomes of its own calls, and which calls these are.  It
  need not have an end: a function may follow it all the same.  Where the calls of an argument, the calls
  of these, and so on, come to a number, the function is determined by the recursion.

  Main results:
    * `Recursion.Takes`, `Recursion.Ends`   — the number of calls of an argument, and that there is one
    * `Recursion.Ends.of_calls`             — an argument ends if its calls do
    * `Recursion.Ends.induction`            — what holds of an argument if it holds of its calls
    * `Recursion.Ends.eq_of_follows`        — where it ends, a recursion is followed by one function only
    * `wellFounded_of_acyclic`              — finitely many things that depend on each other, but not
                                              in a circle, can be taken one after the other
-/
import Mathlib.Data.Fintype.Card
import Mathlib.Logic.Relation

namespace GraphQLCheck

/-! ## §1. Calls. -/

/-- A function that calls itself. -/
structure Recursion (α β : Type) where
  /-- The outcome for an argument, given the outcomes of calls. -/
  body : (α → β) → α → β
  /-- The arguments of the calls that are made for an argument. -/
  calls : α → List α
  /-- The outcome depends on no other calls. -/
  body_congr : ∀ {f g : α → β} {a : α}, (∀ b ∈ calls a, f b = g b) → body f a = body g a

namespace Recursion

variable {α β : Type}

/-- A function follows a recursion if its outcomes are those that the recursion makes of its outcomes. -/
def Follows (r : Recursion α β) (f : α → β) : Prop := ∀ a, f a = r.body f a

mutual
/-- The number of calls that an argument takes: one, and those that its calls take. -/
inductive Takes (r : Recursion α β) : α → Nat → Prop where
  | step {a : α} {count : Nat} : TakesAll r (r.calls a) count → Takes r a (count + 1)
/-- The number of calls that arguments take together. -/
inductive TakesAll (r : Recursion α β) : List α → Nat → Prop where
  | nil : TakesAll r [] 0
  | cons {a : α} {rest : List α} {count others : Nat} :
      Takes r a count → TakesAll r rest others → TakesAll r (a :: rest) (count + others)
end

/-- Finitely many calls are made for an argument in all. -/
def Ends (r : Recursion α β) (a : α) : Prop := ∃ count, r.Takes a count

variable {r : Recursion α β}

theorem exists_takesAll {l : List α} (h : ∀ a ∈ l, r.Ends a) : ∃ count, r.TakesAll l count := by
  induction l with
  | nil => exact ⟨0, .nil⟩
  | cons a rest ih =>
    obtain ⟨count, hfirst⟩ := h a (List.mem_cons_self ..)
    obtain ⟨others, hrest⟩ := ih fun b hb => h b (List.mem_cons_of_mem _ hb)
    exact ⟨count + others, .cons hfirst hrest⟩

theorem TakesAll.exists_le {l : List α} {count : Nat} (h : r.TakesAll l count) :
    ∀ a ∈ l, ∃ own ≤ count, r.Takes a own := by
  induction l generalizing count with
  | nil => exact fun _ ha => nomatch ha
  | cons a rest ih =>
    cases h with
    | @cons _ _ first others hfirst hrest =>
      intro b hb
      rcases List.mem_cons.1 hb with rfl | hb
      · exact ⟨first, Nat.le_add_right .., hfirst⟩
      · obtain ⟨own, hle, hown⟩ := ih hrest b hb
        exact ⟨own, Nat.le_add_left_of_le hle, hown⟩

namespace Ends

/-- An argument ends if its calls do. -/
theorem of_calls {a : α} (h : ∀ b ∈ r.calls a, r.Ends b) : r.Ends a := by
  obtain ⟨count, hcount⟩ := exists_takesAll h
  exact ⟨count + 1, .step hcount⟩

theorem of_nil {a : α} (h : r.calls a = []) : r.Ends a :=
  of_calls fun b hb => by rw [h] at hb; cases hb

theorem of_singleton {a b : α} (h : r.calls a = [b]) (hb : r.Ends b) : r.Ends a :=
  of_calls fun c hc => by rw [h] at hc; rwa [List.mem_singleton.1 hc]

/-- What holds of an argument if it holds of its calls holds where the calls have an end. -/
theorem induction {P : α → Prop} (step : ∀ a, (∀ b ∈ r.calls a, P b) → P a) {a : α} (h : r.Ends a) :
    P a := by
  obtain ⟨count, h⟩ := h
  -- each call takes fewer calls than the argument
  induction count using Nat.strong_induction_on generalizing a with
  | h count ih =>
    cases h with
    | @step _ others hcalls =>
      apply step
      intro b hb
      obtain ⟨own, hle, hown⟩ := hcalls.exists_le b hb
      exact ih own (Nat.lt_succ_of_le hle) hown

/-- **Where it ends, a recursion is followed by one function only.** -/
theorem eq_of_follows {f g : α → β} (hf : r.Follows f) (hg : r.Follows g) {a : α} (h : r.Ends a) :
    f a = g a := by
  refine induction (P := fun a => f a = g a) (fun b hcalls => ?_) h
  rw [hf b, hg b]
  exact r.body_congr hcalls

end Ends

theorem Follows.unique {f g : α → β} (hf : r.Follows f) (h : ∀ a, r.Ends a) (hg : r.Follows g) : g = f :=
  funext fun a => (h a).eq_of_follows hg hf

end Recursion

/-! ## §2. Dependencies without a circle. -/

/-- **Finitely many things that depend on each other, but not in a circle, can be taken one after the
other**, each after those that it depends on. -/
theorem wellFounded_of_acyclic {α : Type} [Finite α] {R : α → α → Prop}
    (h : ∀ a, ¬Relation.TransGen R a a) : WellFounded fun b a => R a b := by
  have htrans : IsTrans α fun b a => Relation.TransGen R a b := ⟨fun _ _ _ hab hbc => hbc.trans hab⟩
  have hirrefl : Std.Irrefl fun b a => Relation.TransGen R a b := ⟨h⟩
  have hwf := Finite.wellFounded_of_trans_of_irrefl fun b a => Relation.TransGen R a b
  exact Subrelation.wf (fun hab => Relation.TransGen.single hab) hwf

/-- Things depend on each other in no circle if each has a rank above those that it depends on. -/
theorem not_transGen_self_of_lt {α : Type} {R : α → α → Prop} (rank : α → Nat)
    (h : ∀ a b, R a b → rank b < rank a) (a : α) : ¬Relation.TransGen R a a := by
  intro hcircle
  have hrank : Relation.TransGen (· > ·) (rank a) (rank a) := hcircle.lift rank h
  rw [Relation.transGen_eq_self] at hrank
  exact Nat.lt_irrefl _ hrank

end GraphQLCheck
