import Linkage.Cache.Basic
import Mathlib.Tactic

/-! What the steps of a cache do to its entries. -/
namespace Linkage.Cache

variable {κ ρ : Type}

def keys (c : Cache κ ρ) : List κ := c.entries.map (·.key)

def resources (c : Cache κ ρ) : List ρ := c.entries.map (·.resource)

theorem mem_of_oldestIdle {es : List (CacheEntry κ ρ)} {e : CacheEntry κ ρ}
    (h : oldestIdle? es = some e) : e ∈ es ∧ e.isIdle = true := by
  induction es with
  | nil => simp [oldestIdle?] at h
  | cons first es ih =>
    have hrest {o : CacheEntry κ ρ} (ho : oldestIdle? es = some o) (heq : o = e) :
        e ∈ first :: es ∧ e.isIdle = true := by
      subst heq
      exact ⟨List.mem_cons_of_mem first (ih ho).1, (ih ho).2⟩
    unfold oldestIdle? at h
    split at h
    · next o hidle ho =>
      split at h
      · obtain rfl := Option.some.inj h
        exact ⟨List.mem_cons_self, hidle⟩
      · exact hrest ho (Option.some.inj h)
    · next hidle _ =>
      obtain rfl := Option.some.inj h
      exact ⟨List.mem_cons_self, hidle⟩
    · exact hrest h rfl

/-- From `c` to `c'` idle entries were taken out, which `out` lists. -/
structure Evicts (c : Cache κ ρ) (out : List (κ × ρ)) (c' : Cache κ ρ) : Prop where
  entries : ∃ victims : List (CacheEntry κ ρ), out = victims.map (fun e => (e.key, e.resource))
    ∧ (victims ++ c'.entries).Perm c.entries ∧ ∀ e ∈ victims, e.isIdle = true
  creating : c'.creating = c.creating

theorem evicts_clearIdle (c : Cache κ ρ) : Evicts c c.clearIdle.1 c.clearIdle.2 where
  entries := ⟨_, rfl, List.filter_append_perm _ _, fun _ he => (List.mem_filter.mp he).2⟩
  creating := rfl

variable [DecidableEq κ]

/-- Among entries of different keys only the entry itself has its key. -/
theorem perm_filter_key {es : List (CacheEntry κ ρ)} (hkeys : (es.map (·.key)).Nodup)
    {e : CacheEntry κ ρ} (he : e ∈ es) : (e :: es.filter (·.key ≠ e.key)).Perm es := by
  induction es with
  | nil => simp at he
  | cons first es ih =>
    rw [List.map_cons, List.nodup_cons] at hkeys
    obtain ⟨hfirst, hkeys⟩ := hkeys
    rcases List.mem_cons.mp he with rfl | he
    · have hall : es.filter (·.key ≠ e.key) = es := by
        rw [List.filter_eq_self]
        intro e' he'
        have hne : e'.key ≠ e.key := fun h => hfirst (h ▸ List.mem_map_of_mem he')
        simpa using hne
      rw [List.filter_cons_of_neg (by simp), hall]
    · have hne : first.key ≠ e.key := fun h => hfirst (h ▸ List.mem_map_of_mem he)
      rw [List.filter_cons_of_pos (by simpa using hne)]
      exact (List.Perm.swap first e _).trans ((ih hkeys he).cons first)

/-- What is taken out was there, was idle, and is all that is missing. -/
theorem evictIdle_perm (n : Nat) {es : List (CacheEntry κ ρ)} (hkeys : (es.map (·.key)).Nodup) :
    ((evictIdle n es).1 ++ (evictIdle n es).2).Perm es
      ∧ ∀ e ∈ (evictIdle n es).1, e.isIdle = true := by
  induction n generalizing es with
  | zero => exact ⟨List.Perm.refl _, by simp [evictIdle]⟩
  | succ n ih =>
    unfold evictIdle
    split
    · exact ⟨List.Perm.refl _, by simp⟩
    · next o ho =>
      obtain ⟨hmem, hidle⟩ := mem_of_oldestIdle ho
      have hrest : ((es.filter (·.key ≠ o.key)).map (·.key)).Nodup :=
        hkeys.sublist (List.filter_sublist.map _)
      obtain ⟨hperm, hall⟩ := ih hrest
      constructor
      · exact (hperm.cons o).trans (perm_filter_key hkeys hmem)
      · intro e he
        rcases List.mem_cons.mp he with rfl | he
        · exact hidle
        · exact hall e he

theorem evicts_shrink {c : Cache κ ρ} (hkeys : c.keys.Nodup) : Evicts c c.shrink.1 c.shrink.2 where
  entries := ⟨_, rfl, evictIdle_perm _ hkeys⟩
  creating := rfl

theorem entry?_eq_some {c : Cache κ ρ} {key : κ} {e : CacheEntry κ ρ} (h : c.entry? key = some e) :
    e ∈ c.entries ∧ e.key = key :=
  ⟨List.mem_of_find?_eq_some h, by simpa using List.find?_some h⟩

theorem entry?_of_mem {c : Cache κ ρ} (hkeys : c.keys.Nodup) {e : CacheEntry κ ρ}
    (he : e ∈ c.entries) : c.entry? e.key = some e := by
  cases h : c.entry? e.key with
  | none =>
    have hne := List.find?_eq_none.mp h e he
    simp at hne
  | some e' =>
    obtain ⟨he', hkey⟩ := entry?_eq_some h
    rw [List.inj_on_of_nodup_map hkeys he' he hkey]

theorem contains_iff {c : Cache κ ρ} {key : κ} : c.contains key = true ↔ key ∈ c.keys := by
  unfold contains entry? keys
  rw [List.find?_isSome]
  simp

section Modify

variable {c : Cache κ ρ} {key : κ} {f : CacheEntry κ ρ → CacheEntry κ ρ}

theorem mem_modify {e : CacheEntry κ ρ} : e ∈ (c.modify key f).entries ↔
    ∃ old ∈ c.entries, (if old.key = key then f old else old) = e := by
  simp [modify]

theorem keys_modify (hf : ∀ e, (f e).key = e.key) : (c.modify key f).keys = c.keys := by
  unfold keys modify
  rw [List.map_map]
  refine List.map_congr_left fun e _ => ?_
  dsimp only [Function.comp]
  split
  · exact hf e
  · rfl

theorem resources_modify (hf : ∀ e, (f e).resource = e.resource) :
    (c.modify key f).resources = c.resources := by
  unfold resources modify
  rw [List.map_map]
  refine List.map_congr_left fun e _ => ?_
  dsimp only [Function.comp]
  split
  · exact hf e
  · rfl

end Modify
end Linkage.Cache
