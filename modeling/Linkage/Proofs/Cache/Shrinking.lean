import Linkage.Proofs.Cache.History

/-! What a cache gives up when it has too many entries: the entries tell when their last leases came
back, and nothing else decides. -/
namespace Linkage

namespace Cache

variable {κ ρ : Type}

/-- Idle entries are told apart by when they came back. -/
def Stamped (es : List (CacheEntry κ ρ)) : Prop :=
  ∀ e ∈ es, ∀ e' ∈ es, e.isIdle = true → e'.isIdle = true → e.returned = e'.returned → e = e'

section Eviction

variable {es es' : List (CacheEntry κ ρ)} {o : CacheEntry κ ρ}

theorem busy_of_oldestIdle_eq_none (h : oldestIdle? es = none) : ∀ e ∈ es, e.isIdle = false := by
  induction es with
  | nil => exact fun e he => absurd he List.not_mem_nil
  | cons first es ih =>
    unfold oldestIdle? at h
    split at h
    · split at h <;> cases h
    · cases h
    · next hbusy =>
      intro e he
      rcases List.mem_cons.mp he with rfl | he
      · exact hbusy
      · exact ih h e he

theorem oldestIdle_le (h : oldestIdle? es = some o) :
    ∀ e ∈ es, e.isIdle = true → o.returned ≤ e.returned := by
  induction es generalizing o with
  | nil => exact fun e he => absurd he List.not_mem_nil
  | cons first es ih =>
    intro e he hidle
    unfold oldestIdle? at h
    split at h
    · next o' hfirst ho' =>
      have hrest := ih ho'
      split at h
      · next hle =>
        obtain rfl := Option.some.inj h
        rcases List.mem_cons.mp he with rfl | he
        · exact Nat.le_refl _
        · exact hle.trans (hrest e he hidle)
      · next hlt =>
        obtain rfl := Option.some.inj h
        rcases List.mem_cons.mp he with rfl | he
        · exact Nat.le_of_not_le hlt
        · exact hrest e he hidle
    · next hfirst hnone =>
      obtain rfl := Option.some.inj h
      rcases List.mem_cons.mp he with rfl | he
      · exact Nat.le_refl _
      · exact absurd hidle (by simp [busy_of_oldestIdle_eq_none hnone e he])
    · next hfirst =>
      rcases List.mem_cons.mp he with rfl | he
      · exact absurd hidle (by simp [hfirst])
      · exact ih h e he hidle

theorem Stamped.subset (h : Stamped es) (hsub : ∀ e ∈ es', e.isIdle = true → e ∈ es) :
    Stamped es' :=
  fun e he e' he' hidle hidle' => h e (hsub e he hidle) e' (hsub e' he' hidle') hidle hidle'

/-- The place of an entry among the others does not matter. -/
theorem oldestIdle_perm (hperm : es.Perm es') (hstamped : Stamped es) :
    oldestIdle? es = oldestIdle? es' := by
  cases h : oldestIdle? es with
  | none =>
    cases h' : oldestIdle? es' with
    | none => rfl
    | some o' =>
      obtain ⟨hmem, hidle⟩ := mem_of_oldestIdle h'
      exact absurd hidle (by simp [busy_of_oldestIdle_eq_none h o' (hperm.mem_iff.mpr hmem)])
  | some o =>
    obtain ⟨hmem, hidle⟩ := mem_of_oldestIdle h
    cases h' : oldestIdle? es' with
    | none =>
      exact absurd hidle (by simp [busy_of_oldestIdle_eq_none h' o (hperm.mem_iff.mp hmem)])
    | some o' =>
      obtain ⟨hmem', hidle'⟩ := mem_of_oldestIdle h'
      have hle := oldestIdle_le h o' (hperm.mem_iff.mpr hmem') hidle'
      have hge := oldestIdle_le h' o (hperm.mem_iff.mp hmem) hidle
      have heq := hstamped o hmem o' (hperm.mem_iff.mpr hmem') hidle hidle' (Nat.le_antisymm hle hge)
      rw [heq]

variable [DecidableEq κ]

theorem evictIdle_reordered (n : Nat) (hperm : es.Perm es') (hstamped : Stamped es) :
    (evictIdle n es).1 = (evictIdle n es').1 := by
  induction n generalizing es es' with
  | zero => rfl
  | succ n ih =>
    unfold evictIdle
    rw [← oldestIdle_perm hperm hstamped]
    cases oldestIdle? es with
    | none => rfl
    | some o =>
      have hrest := ih (hperm.filter (·.key ≠ o.key))
        (hstamped.subset fun e he _ => List.mem_of_mem_filter he)
      exact congrArg (o :: ·) hrest

theorem mem_evictIdle (n : Nat) (es : List (CacheEntry κ ρ)) :
    (∀ v ∈ (evictIdle n es).1, v ∈ es ∧ v.isIdle = true) ∧ ∀ e ∈ (evictIdle n es).2, e ∈ es := by
  induction n generalizing es with
  | zero => exact ⟨fun v hv => absurd hv List.not_mem_nil, fun e he => he⟩
  | succ n ih =>
    unfold evictIdle
    split
    · exact ⟨fun v hv => absurd hv List.not_mem_nil, fun e he => he⟩
    · next o ho =>
      obtain ⟨hout, hleft⟩ := ih (es.filter (·.key ≠ o.key))
      constructor
      · intro v hv
        rcases List.mem_cons.mp hv with rfl | hv
        · exact mem_of_oldestIdle ho
        · exact ⟨List.mem_of_mem_filter (hout v hv).1, (hout v hv).2⟩
      · exact fun e he => List.mem_of_mem_filter (hleft e he)

/-- What goes came back before all that stays idle, and goes in the order in which it came back. -/
theorem evictIdle_sorted (n : Nat) (hstamped : Stamped es) :
    ((evictIdle n es).1.Pairwise fun v w => v.returned < w.returned)
      ∧ ∀ v ∈ (evictIdle n es).1, ∀ e ∈ (evictIdle n es).2, e.isIdle = true →
        v.returned < e.returned := by
  induction n generalizing es with
  | zero => exact ⟨List.Pairwise.nil, fun v hv => absurd hv List.not_mem_nil⟩
  | succ n ih =>
    unfold evictIdle
    split
    · exact ⟨List.Pairwise.nil, fun v hv => absurd hv List.not_mem_nil⟩
    · next o ho =>
      -- what follows is taken from the rest, of which all came back after `o`
      let rest := es.filter (·.key ≠ o.key)
      obtain ⟨hmem, hidle⟩ := mem_of_oldestIdle ho
      have hfirst {e : CacheEntry κ ρ} (he : e ∈ rest) (hidle' : e.isIdle = true) :
          o.returned < e.returned := by
        obtain ⟨he, hkey⟩ := List.mem_filter.mp he
        refine Nat.lt_of_le_of_ne (oldestIdle_le ho e he hidle') fun heq => ?_
        have hsame := hstamped o hmem e he hidle hidle' heq
        simp [hsame] at hkey
      obtain ⟨hout, hleft⟩ := mem_evictIdle n rest
      obtain ⟨hsorted, hall⟩ := ih (hstamped.subset fun e he _ => List.mem_of_mem_filter he)
      constructor
      · exact List.pairwise_cons.mpr ⟨fun v hv => hfirst (hout v hv).1 (hout v hv).2, hsorted⟩
      · intro v hv e he hidle'
        rcases List.mem_cons.mp hv with rfl | hv
        · exact hfirst (hleft e he) hidle'
        · exact hall v hv e he hidle'

/-- It is as many as were asked for, unless nothing idle is left. -/
theorem length_evictIdle (n : Nat) (es : List (CacheEntry κ ρ)) :
    (evictIdle n es).1.length ≤ n
      ∧ ((evictIdle n es).1.length = n ∨ ∀ e ∈ (evictIdle n es).2, e.isIdle = false) := by
  induction n generalizing es with
  | zero => exact ⟨Nat.le_refl 0, Or.inl rfl⟩
  | succ n ih =>
    unfold evictIdle
    split
    · next hnone => exact ⟨Nat.zero_le _, Or.inr (busy_of_oldestIdle_eq_none hnone)⟩
    · next o ho =>
      obtain ⟨hle, hall⟩ := ih (es.filter (·.key ≠ o.key))
      exact ⟨Nat.succ_le_succ hle, hall.imp_left (congrArg (· + 1))⟩

end Eviction

section Shrinking

variable {c c' : Cache κ ρ} {time time' : κ → Nat}

/-- A cache has no more entries than it may, unless none of them is idle. -/
def Bounded (c : Cache κ ρ) : Prop := c.size ≤ c.capacity ∨ ∀ e ∈ c.entries, e.isIdle = false

/-- The entries of a cache tell at which times their last leases came back. -/
structure Dated (time : κ → Nat) (c : Cache κ ρ) : Prop where
  pos : ∀ e ∈ c.entries, e.isIdle = true → 0 < time e.key
  le_clock : ∀ e ∈ c.entries, e.isIdle = true → e.returned ≤ c.clock
  stamped : Stamped c.entries
  order : ∀ e ∈ c.entries, ∀ e' ∈ c.entries, e.isIdle = true → e'.isIdle = true →
    (e.returned < e'.returned ↔ time e.key < time e'.key)

/-- What goes came back before all that stays idle, and no more goes than has to. -/
structure GivesUp (time : κ → Nat) (out : List (κ × ρ)) (c : Cache κ ρ) : Prop where
  sorted : out.Pairwise fun v w => time v.1 < time w.1
  oldest : ∀ v ∈ out, ∀ e ∈ c.entries, e.isIdle = true → time v.1 < time e.key
  needed : out ≠ [] → c.capacity ≤ c.size

theorem Dated.subset (h : c.Dated time) (hclock : c.clock ≤ c'.clock)
    (hsub : ∀ e ∈ c'.entries, e.isIdle = true → e ∈ c.entries) : c'.Dated time where
  pos e he hidle := h.pos e (hsub e he hidle) hidle
  le_clock e he hidle := (h.le_clock e (hsub e he hidle) hidle).trans hclock
  stamped := h.stamped.subset hsub
  order e he e' he' hidle hidle' :=
    h.order e (hsub e he hidle) e' (hsub e' he' hidle') hidle hidle'

theorem Dated.congr (h : c.Dated time)
    (htime : ∀ e ∈ c.entries, e.isIdle = true → time' e.key = time e.key) : c.Dated time' where
  pos e he hidle := (htime e he hidle).symm ▸ h.pos e he hidle
  le_clock := h.le_clock
  stamped := h.stamped
  order e he e' he' hidle hidle' := by
    rw [htime e he hidle, htime e' he' hidle']
    exact h.order e he e' he' hidle hidle'

theorem Evicts.not_mem_keys {out : List (κ × ρ)} (h : Evicts c out c') (hkeys : c.keys.Nodup) :
    ∀ v ∈ out, v.1 ∉ c'.keys := by
  obtain ⟨victims, rfl, hperm, -⟩ := h.entries
  have hnodup := (hperm.map fun e : CacheEntry κ ρ => e.key).nodup_iff.mpr hkeys
  rw [List.map_append] at hnodup
  intro v hv hmem
  obtain ⟨e, he, rfl⟩ := List.mem_map.mp hv
  exact (List.nodup_append.mp hnodup).2.2 _ (List.mem_map_of_mem he) _ hmem rfl

theorem Dated.of_entries (h : c.Dated time) (hentries : c'.entries = c.entries)
    (hclock : c'.clock = c.clock) : c'.Dated time :=
  h.subset hclock.ge fun _ he _ => hentries ▸ he

theorem Bounded.of_entries (h : c.Bounded) (hentries : c'.entries = c.entries)
    (hcapacity : c'.capacity = c.capacity) : c'.Bounded := by
  unfold Bounded size
  rw [hentries, hcapacity]
  exact h

variable [DecidableEq κ]

/-- A lease more makes no entry idle. -/
theorem idle_share {key : κ} {e : CacheEntry κ ρ} (he : e ∈ (c.share key).entries)
    (hidle : e.isIdle = true) : e ∈ c.entries := by
  obtain ⟨old, hold, rfl⟩ := mem_modify.mp he
  by_cases hkey : old.key = key
  · rw [if_pos hkey] at hidle
    simp [CacheEntry.isIdle] at hidle
  · rw [if_neg hkey]
    exact hold

theorem Dated.share (h : c.Dated time) (key : κ) : (c.share key).Dated time :=
  h.subset (Nat.le_refl _) fun _ => idle_share

theorem Bounded.share (h : c.Bounded) (key : κ) : (c.share key).Bounded := by
  refine h.imp (fun hsize => ?_) fun hbusy e he => ?_
  · simpa [size, Cache.share, modify] using hsize
  · by_contra hnot
    have hidle : e.isIdle = true := by simpa using hnot
    exact hnot (hbusy e (idle_share he hidle))

theorem length_shrink (hkeys : c.keys.Nodup) :
    c.shrink.1.length + c.shrink.2.size = c.size := by
  have hlength := (evictIdle_perm (c.entries.length - c.capacity) hkeys).1.length_eq
  simpa [shrink, size, count] using hlength

theorem bounded_shrink (hkeys : c.keys.Nodup) : c.shrink.2.Bounded := by
  obtain ⟨-, hall⟩ := length_evictIdle (c.entries.length - c.capacity) c.entries
  refine hall.imp_left fun hout => ?_
  have hlength := length_shrink hkeys
  have hsize : c.shrink.1.length = c.size - c.capacity := by simpa [shrink, size] using hout
  change c.shrink.2.size ≤ c.capacity
  omega

theorem Dated.shrink (h : c.Dated time) : c.shrink.2.Dated time :=
  h.subset (Nat.le_refl _) fun e he _ => (mem_evictIdle _ _).2 e he

theorem Dated.givesUp (h : c.Dated time) (hkeys : c.keys.Nodup) :
    GivesUp time c.shrink.1 c.shrink.2 := by
  obtain ⟨hout, hleft⟩ := mem_evictIdle (c.entries.length - c.capacity) c.entries
  obtain ⟨hsorted, hall⟩ := evictIdle_sorted (c.entries.length - c.capacity) h.stamped
  refine ⟨?_, ?_, ?_⟩
  · refine List.pairwise_map.mpr (hsorted.imp_of_mem fun {v w} hv hw hlt => ?_)
    obtain ⟨hmem, hidle⟩ := hout v hv
    obtain ⟨hmem', hidle'⟩ := hout w hw
    exact (h.order v hmem w hmem' hidle hidle').mp hlt
  · intro pair hpair e he hidle
    obtain ⟨v, hv, rfl⟩ := List.mem_map.mp hpair
    obtain ⟨hmem, hidle'⟩ := hout v hv
    exact (h.order v hmem e (hleft e he) hidle' hidle).mp (hall v hv e he hidle)
  · intro hsome
    obtain ⟨hle, -⟩ := length_evictIdle (c.entries.length - c.capacity) c.entries
    have hlength := length_shrink hkeys
    have hpos : 0 < c.shrink.1.length := List.length_pos_iff.mpr hsome
    have hsize : c.shrink.1.length ≤ c.size - c.capacity := by simpa [Cache.shrink, size] using hle
    change c.capacity ≤ c.shrink.2.size
    omega

/-- After a lease on a key came back, an idle entry is that of the key, and has come back just now, or
it was idle before. -/
theorem idle_returned {key : κ} {e : CacheEntry κ ρ} (he : e ∈ (c.returned key).entries)
    (hidle : e.isIdle = true) :
    (e.key = key ∧ e.returned = c.clock + 1 ∧ ∃ old ∈ c.entries, old.key = key ∧ old.leases ≤ 1)
      ∨ e ∈ c.entries ∧ e.key ≠ key := by
  obtain ⟨old, hold, rfl⟩ := mem_modify.mp he
  by_cases hkey : old.key = key
  · rw [if_pos hkey] at hidle ⊢
    have hlast : old.leases ≤ 1 := by
      have hzero : old.leases - 1 = 0 := by simpa [CacheEntry.isIdle] using hidle
      omega
    exact Or.inl ⟨hkey, if_pos hlast, old, hold, hkey, hlast⟩
  · rw [if_neg hkey]
    exact Or.inr ⟨hold, hkey⟩

theorem Dated.stamped_returned (h : c.Dated time) (hkeys : c.keys.Nodup) (key : κ) :
    Stamped (c.returned key).entries := by
  have hkeys' : (c.returned key).keys.Nodup := (keys_returned c key).symm ▸ hkeys
  intro e he e' he' hidle hidle' heq
  rcases idle_returned he hidle with ⟨hkey, hnow, -⟩ | ⟨hold, -⟩
  · rcases idle_returned he' hidle' with ⟨hkey', -, -⟩ | ⟨hold', -⟩
    · exact List.inj_on_of_nodup_map hkeys' he he' (hkey.trans hkey'.symm)
    · have hle := h.le_clock e' hold' hidle'
      omega
  · rcases idle_returned he' hidle' with ⟨-, hnow', -⟩ | ⟨hold', -⟩
    · have hle := h.le_clock e hold hidle
      omega
    · exact h.stamped e hold e' hold' hidle hidle' heq

/-- The last return of all has the last time. -/
theorem Dated.returned (h : c.Dated time) (hkeys : c.keys.Nodup) {key : κ}
    (hother : ∀ k ≠ key, time' k = time k)
    (hlast : ∀ e ∈ c.entries, e.key = key → e.leases ≤ 1 → ∀ k, time k < time' key) :
    (c.returned key).Dated time' := by
  refine ⟨?_, ?_, h.stamped_returned hkeys key, ?_⟩
  · intro e he hidle
    rcases idle_returned he hidle with ⟨rfl, -, old, hmem, hkey, hone⟩ | ⟨hold, hne⟩
    · exact Nat.zero_lt_of_lt (hlast old hmem hkey hone e.key)
    · rw [hother e.key hne]
      exact h.pos e hold hidle
  · intro e he hidle
    rcases idle_returned he hidle with ⟨-, hnow, -⟩ | ⟨hold, -⟩
    · exact hnow.le
    · exact (h.le_clock e hold hidle).trans (Nat.le_succ _)
  · intro e he e' he' hidle hidle'
    rcases idle_returned he hidle with ⟨rfl, hnow, old, hmem, hkey, hone⟩ | ⟨hold, hne⟩
    · rcases idle_returned he' hidle' with ⟨hkey', hnow', -⟩ | ⟨hold', hne'⟩
      · rw [hnow, hnow', hkey']
        exact iff_of_false (Nat.lt_irrefl _) (Nat.lt_irrefl _)
      · have hle := h.le_clock e' hold' hidle'
        have htime := hlast old hmem hkey hone e'.key
        rw [hother e'.key hne']
        exact iff_of_false (by omega) (by omega)
    · rcases idle_returned he' hidle' with ⟨rfl, hnow', old, hmem, hkey, hone⟩ | ⟨hold', hne'⟩
      · have hle := h.le_clock e hold hidle
        have htime := hlast old hmem hkey hone e.key
        rw [hother e.key hne]
        exact iff_of_true (by omega) htime
      · rw [hother e.key hne, hother e'.key hne']
        exact h.order e hold e' hold' hidle hidle'

/-- In which order the entries are looked at does not matter. -/
theorem shrink_reordered (hperm : c.entries.Perm c'.entries) (hcapacity : c.capacity = c'.capacity)
    (hstamped : Stamped c.entries) : c.shrink.1 = c'.shrink.1 := by
  unfold shrink
  rw [← hcapacity, ← hperm.length_eq]
  exact congrArg (List.map _) (evictIdle_reordered _ hperm hstamped)

theorem idle_joined {key : κ} {resource : ρ} {e : CacheEntry κ ρ}
    (he : e ∈ (c.joined key resource).entries) (hidle : e.isIdle = true) : e ∈ c.entries := by
  rcases List.mem_append.mp he with he | he
  · exact he
  · rw [List.mem_singleton.mp he] at hidle
    cases hidle

section Reordered

variable {entries : List (CacheEntry κ ρ)} (hperm : entries.Perm c.entries)

include hperm

theorem release_reordered (h : c.Dated time) (hkeys : c.keys.Nodup) (key : κ) :
    ({ c with entries }.release key).1 = (c.release key).1 := by
  have hsame : { c with entries }.keys.Perm c.keys := hperm.map _
  by_cases hmem : key ∈ c.keys
  · rw [release_of_mem hmem, release_of_mem (hsame.symm.subset hmem)]
    have hreturned : (c.returned key).entries.Perm ({ c with entries }.returned key).entries :=
      (hperm.map _).symm
    exact (shrink_reordered hreturned rfl (h.stamped_returned hkeys key)).symm
  · rw [release_of_not_mem hmem, release_of_not_mem fun hmem' => hmem (hsame.subset hmem')]

theorem created_reordered (h : c.Dated time) (key : κ) (resource : ρ) :
    ({ c with entries }.created key resource).1 = (c.created key resource).1 := by
  have hjoined :
      (c.joined key resource).entries.Perm ({ c with entries }.joined key resource).entries :=
    (hperm.append_right _).symm
  have hstamped : Stamped (c.joined key resource).entries :=
    h.stamped.subset fun e => idle_joined
  exact (shrink_reordered hjoined rfl hstamped).symm

end Reordered
end Shrinking
end Cache

end Linkage
