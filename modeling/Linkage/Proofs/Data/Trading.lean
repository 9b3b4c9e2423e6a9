import Mathlib.Tactic

/-! Actions that change what is in hand, while the state goes by steps of a certain kind. -/
namespace Linkage

variable {σ H α β : Type} {T : σ × H → σ × H → Prop}

/-- With `own` in hand the action goes from every state by way of `T`, and has in hand then what its
answer says. -/
def Trades (T : σ × H → σ × H → Prop) (own : H) (act : StateM σ α) (own' : α → H) : Prop :=
  ∀ s, T (s, own) ((act.run s).2, own' (act.run s).1)

namespace Trades

variable {own : H} {act : StateM σ α} {own' : α → H}

protected theorem pure [Std.Refl T] {a : α} (h : own = own' a) : Trades T own (Pure.pure a) own' :=
  fun s => h ▸ Std.Refl.refl (s, own)

protected theorem bind [IsTrans (σ × H) T] {next : α → StateM σ β} {own'' : β → H}
    (h : Trades T own act own') (hnext : ∀ a, Trades T (own' a) (next a) own'') :
    Trades T own (act >>= next) own'' :=
  fun s => IsTrans.trans _ _ _ (h s) (hnext (act.run s).1 (act.run s).2)

/-- What each round keeps is kept by all of them. -/
protected theorem forM [IsPreorder (σ × H) T] {f : α → StateM σ Unit}
    (h : ∀ a, Trades T own (f a) fun _ => own) (as : List α) :
    Trades T own (as.forM f) fun _ => own := by
  induction as with
  | nil => exact fun s => Std.Refl.refl (s, own)
  | cons a as ih => exact (h a).bind fun _ => ih

end Trades
end Linkage
