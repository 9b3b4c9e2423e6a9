import Mathlib.Logic.Relation

/-! Loops: each turn goes on with a new state or ends with an answer. -/
namespace Linkage.Loop

open Relation (ReflTransGen)

variable {σ τ α β : Type} {turn : σ → σ ⊕ α} {s s' : σ} {a b : α}

/-- Finitely many turns lead from a state to an answer. -/
inductive Ends (turn : σ → σ ⊕ α) : σ → α → Prop
  | stop {s : σ} {a : α} (h : turn s = .inr a) : Ends turn s a
  | goOn {s s' : σ} {a : α} (h : turn s = .inl s') (rest : Ends turn s' a) : Ends turn s a

/-- Turns lead from a state to another. -/
def Reaches (turn : σ → σ ⊕ α) : σ → σ → Prop := ReflTransGen fun s s' => turn s = .inl s'

theorem Reaches.refl (s : σ) : Reaches turn s s := ReflTransGen.refl

theorem Reaches.head {s₁ s₂ s₃ : σ} (h : turn s₁ = .inl s₂) (rest : Reaches turn s₂ s₃) :
    Reaches turn s₁ s₃ := ReflTransGen.head h rest

theorem Reaches.tail {s₁ s₂ s₃ : σ} (front : Reaches turn s₁ s₂) (h : turn s₂ = .inl s₃) :
    Reaches turn s₁ s₃ := ReflTransGen.tail front h

theorem Ends.unique (h : Ends turn s a) (h' : Ends turn s b) : a = b := by
  induction h with
  | stop hstop =>
    cases h' with
    | stop hstop' => exact Sum.inr.inj (hstop.symm.trans hstop')
    | goOn hgo _ => cases hstop.symm.trans hgo
  | goOn hgo _ ih =>
    cases h' with
    | stop hstop => cases hgo.symm.trans hstop
    | goOn hgo' rest =>
      obtain rfl := Sum.inl.inj (hgo.symm.trans hgo')
      exact ih rest

theorem Ends.of_reaches (hreach : Reaches turn s s') (h : Ends turn s' a) : Ends turn s a := by
  induction hreach using ReflTransGen.head_induction_on with
  | refl => exact h
  | head hgo _ ih => exact .goOn hgo ih

/-- A loop that ends does so from each state that it reaches. -/
theorem Ends.rest (h : Ends turn s a) (hreach : Reaches turn s s') : Ends turn s' a := by
  induction hreach using ReflTransGen.head_induction_on with
  | refl => exact h
  | head hgo _ ih =>
    cases h with
    | stop hstop => cases hgo.symm.trans hstop
    | goOn hgo' rest =>
      obtain rfl := Sum.inl.inj (hgo.symm.trans hgo')
      exact ih rest

/-- What each turn keeps holds of all states that are reached. -/
theorem Reaches.invariant {I : σ → Prop} (hturn : ∀ s s', I s → turn s = .inl s' → I s')
    (hreach : Reaches turn s s') (h : I s) : I s' := by
  induction hreach with
  | refl => exact h
  | tail _ hgo ih => exact hturn _ _ ih hgo

/-- An answer is given in a state that is reached. -/
theorem Ends.exists_last (h : Ends turn s a) : ∃ s', Reaches turn s s' ∧ turn s' = .inr a := by
  induction h with
  | stop hstop => exact ⟨_, .refl _, hstop⟩
  | goOn hgo _ ih =>
    obtain ⟨last, hreach, hstop⟩ := ih
    exact ⟨last, .head hgo hreach, hstop⟩

/-- A loop that takes the same turns, on states that are made of those of another, ends as well. -/
theorem Ends.map {turn' : τ → τ ⊕ β} {f : σ → τ} {g : α → β}
    (hturn : ∀ s, turn' (f s) = Sum.map f g (turn s)) (h : Ends turn s a) :
    Ends turn' (f s) (g a) := by
  induction h with
  | stop hstop => exact .stop (by rw [hturn, hstop, Sum.map_inr])
  | goOn hgo _ ih => exact .goOn (by rw [hturn, hgo, Sum.map_inl]) ih

end Linkage.Loop
