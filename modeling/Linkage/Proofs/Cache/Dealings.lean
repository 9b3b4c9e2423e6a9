import Linkage.Proofs.Cache.History

/-! One party that takes leases on the resources of a cache and gives them back, while others may
hold leases, too. -/
namespace Linkage.Cache

variable {κ ρ : Type} [DecidableEq κ]

/-- How many leases are out on a key. -/
def live (c : Cache κ ρ) (key : κ) : Nat := (c.leases? key).getD 0

/-- How many leases were given out; the clock tells how many came back. -/
def lent (c : Cache κ ρ) : Nat := c.statistics.hits + c.statistics.creations

/-- One dealing of a party with the cache, and the leases that it has in hand before and after. -/
inductive Deal : Cache κ ρ × Multiset κ → Cache κ ρ × Multiset κ → Prop
  | taken {c : Cache κ ρ} {own : Multiset κ} {key : κ} {make : κ → Except Refusal ρ} {resource : ρ}
      (hanswer : (c.acquire key make).1.answer = .ok resource) :
    Deal (c, own) ((c.acquire key make).2, own + {key})
  | refused {c : Cache κ ρ} {own : Multiset κ} {key : κ} {make : κ → Except Refusal ρ}
      {refusal : Refusal} (hanswer : (c.acquire key make).1.answer = .error refusal) :
    Deal (c, own) ((c.acquire key make).2, own)
  | givenBack {c : Cache κ ρ} {own : Multiset κ} {key : κ} :
    Deal (c, own + {key}) ((c.release key).2, own)

/-- Dealings one after the other. -/
abbrev Deals : Cache κ ρ × Multiset κ → Cache κ ρ × Multiset κ → Prop := Relation.ReflTransGen Deal

/-- What the answer to a request puts in hand. -/
def gain {α : Type} (key : κ) : Except Refusal α → Multiset κ
  | .ok _ => {key}
  | .error _ => 0

theorem deals_acquire (c : Cache κ ρ) (own : Multiset κ) (key : κ) (make : κ → Except Refusal ρ) :
    Deals (c, own) ((c.acquire key make).2, own + gain key (c.acquire key make).1.answer) := by
  cases hanswer : (c.acquire key make).1.answer with
  | ok resource => exact .single (.taken hanswer)
  | error refusal =>
    have hnothing : own + gain key (.error refusal : Except Refusal ρ) = own := add_zero own
    rw [hnothing]
    exact .single (.refused hanswer)

theorem deals_release (c : Cache κ ρ) (own : Multiset κ) (key : κ) :
    Deals (c, own + {key}) ((c.release key).2, own) :=
  .single .givenBack

section Live

variable {c c' : Cache κ ρ} {key k : κ}

theorem live_congr (h : c'.entries = c.entries) (k : κ) : c'.live k = c.live k := by
  simp [live, leases?, entry?, h]

omit [DecidableEq κ] in
theorem keys_congr (h : c'.entries = c.entries) : c'.keys = c.keys := by
  unfold keys
  rw [h]

theorem keys_share (c : Cache κ ρ) (key : κ) : (c.share key).keys = c.keys :=
  keys_modify fun _ => rfl

theorem live_of_mem (hkeys : c.keys.Nodup) {e : CacheEntry κ ρ} (he : e ∈ c.entries) :
    c.live e.key = e.leases := by
  simp [live, leases?, entry?_of_mem hkeys he]

theorem entry?_of_not_mem (h : k ∉ c.keys) : c.entry? k = none := by
  rw [← contains_iff, contains, Bool.not_eq_true, Option.isSome_eq_false_iff] at h
  exact Option.isNone_iff_eq_none.mp h

theorem live_of_not_mem (h : k ∉ c.keys) : c.live k = 0 := by
  simp [live, leases?, entry?_of_not_mem h]

theorem live_modify {f : CacheEntry κ ρ → CacheEntry κ ρ} (hf : ∀ e, (f e).key = e.key) (key k : κ) :
    (c.modify key f).live k
      = if k = key then ((c.entry? key).map fun e => (f e).leases).getD 0 else c.live k := by
  have hentry : entry? (c.modify key f) k
      = (c.entry? k).map fun e => if e.key = key then f e else e := by
    unfold entry? modify
    rw [List.find?_map]
    congr 2
    funext e
    dsimp only [Function.comp]
    split
    · rw [hf]
    · rfl
  unfold live leases?
  rw [hentry]
  cases hk : c.entry? k with
  | none =>
    split
    · next heq => simp [← heq, hk]
    · rfl
  | some e =>
    obtain ⟨-, rfl⟩ := entry?_eq_some hk
    split
    · next heq => simp [← heq, hk]
    · next hne => simp [hne]

theorem live_share (hmem : key ∈ c.keys) (k : κ) :
    (c.share key).live k = c.live k + if k = key then 1 else 0 := by
  obtain ⟨e, hentry⟩ := Option.isSome_iff_exists.mp (contains_iff.mpr hmem)
  unfold share
  refine (live_modify (fun _ => by rfl) key k).trans ?_
  split
  · next heq => simp [live, leases?, heq, hentry]
  · rfl

theorem live_joined (hnew : key ∉ c.keys) (resource : ρ) (k : κ) :
    (c.joined key resource).live k = c.live k + if k = key then 1 else 0 := by
  have hentry : entry? (c.joined key resource) k
      = (c.entry? k).or (if key = k then some { key, resource, leases := 1 } else none) := by
    unfold joined count entry?
    rw [List.find?_append, List.find?_singleton]
    simp only [decide_eq_true_eq]
  unfold live leases?
  rw [hentry]
  by_cases heq : k = key
  · have hnone := entry?_of_not_mem hnew
    simp [heq, hnone]
  · simp [heq, Ne.symm heq]

omit [DecidableEq κ] in
theorem Evicts.nodup_keys {out : List (κ × ρ)} (h : Evicts c out c') (hkeys : c.keys.Nodup) :
    c'.keys.Nodup := by
  obtain ⟨victims, -, hperm, -⟩ := h.entries
  have hall := (hperm.map fun e : CacheEntry κ ρ => e.key).nodup_iff.mpr hkeys
  rw [List.map_append] at hall
  exact (List.nodup_append.mp hall).2.1

/-- Only idle entries are taken out. -/
theorem Evicts.live {out : List (κ × ρ)} (h : Evicts c out c') (hkeys : c.keys.Nodup) (k : κ) :
    c'.live k = c.live k := by
  obtain ⟨victims, -, hperm, hidle⟩ := h.entries
  by_cases hleft : k ∈ c'.keys
  · obtain ⟨e, he, rfl⟩ := List.mem_map.mp hleft
    have hbefore : e ∈ c.entries := hperm.subset (List.mem_append_right _ he)
    rw [live_of_mem (h.nodup_keys hkeys) he, live_of_mem hkeys hbefore]
  · rw [live_of_not_mem hleft]
    by_cases hthere : k ∈ c.keys
    · obtain ⟨e, he, rfl⟩ := List.mem_map.mp hthere
      rw [live_of_mem hkeys he]
      rcases List.mem_append.mp (hperm.symm.subset he) with hvictim | he'
      · have hzero := hidle e hvictim
        simp only [CacheEntry.isIdle, beq_iff_eq] at hzero
        exact hzero.symm
      · exact absurd (List.mem_map_of_mem he') hleft
    · rw [live_of_not_mem hthere]

theorem live_returned (hlive : 0 < c.live key) (k : κ) :
    (c.returned key).live k + (if k = key then 1 else 0) = c.live k := by
  have hreturned : (c.returned key).live k
      = if k = key then c.live key - 1 else c.live k := by
    unfold returned
    refine (live_modify (fun _ => by rfl) key k).trans ?_
    split
    · cases hentry : c.entry? key with
      | none => simp [live, leases?, hentry] at hlive
      | some e =>
        have hsame : entry? { c with clock := c.clock + 1 } key = some e := hentry
        simp [live, leases?, hentry, hsame]
    · rfl
  rw [hreturned]
  split
  · next heq =>
    rw [heq]
    omega
  · rfl

end Live

section Deals

variable {x y : Cache κ ρ × Multiset κ}

/-- A resource that is there is shared, one that is not there is made, or there is none. -/
theorem acquire_cases (c : Cache κ ρ) (key : κ) (make : κ → Except Refusal ρ) :
    (∃ resource, key ∈ c.keys ∧ (c.acquire key make).1.answer = .ok resource
        ∧ (c.acquire key make).2.entries = (c.share key).entries)
      ∨ (∃ resource before, key ∉ c.keys ∧ (c.acquire key make).1.answer = .ok resource
        ∧ before.entries = c.entries
        ∧ (c.acquire key make).2 = (joined before key resource).shrink.2)
      ∨ ∃ refusal, (c.acquire key make).1.answer = .error refusal
        ∧ (c.acquire key make).2.entries = c.entries := by
  unfold acquire ask
  cases hentry : c.entry? key with
  | some e =>
    obtain ⟨he, rfl⟩ := entry?_eq_some hentry
    exact Or.inl ⟨e.resource, List.mem_map_of_mem he, rfl, rfl⟩
  | none =>
    have hnew : key ∉ c.keys := by
      rw [← contains_iff, contains, hentry]
      exact Bool.false_ne_true
    by_cases hcreating : key ∈ c.creating
    · refine Or.inr (Or.inr ⟨.failed "in creation", ?_⟩)
      simp [hcreating]
    · let before := count (fun s => { s with misses := s.misses + 1 })
        { c with creating := key :: c.creating }
      rw [if_neg hcreating]
      dsimp only
      cases make key with
      | ok resource => exact Or.inr (Or.inl ⟨resource, before, hnew, rfl, rfl, rfl⟩)
      | error refusal =>
        refine Or.inr (Or.inr ⟨refusal, rfl, ?_⟩)
        cases refusal <;> rfl

theorem acquire_ok {c : Cache κ ρ} {key : κ} {make : κ → Except Refusal ρ} {resource : ρ}
    (hkeys : c.keys.Nodup) (h : (c.acquire key make).1.answer = .ok resource) :
    (c.acquire key make).2.keys.Nodup
      ∧ ∀ k, (c.acquire key make).2.live k = c.live k + if k = key then 1 else 0 := by
  rcases acquire_cases c key make with ⟨_, hmem, -, hentries⟩ | ⟨made, before, hnew, -, hsame, hmade⟩
    | ⟨refusal, hrefused, -⟩
  · refine ⟨?_, fun k => ?_⟩
    · rw [keys_congr hentries, keys_share]
      exact hkeys
    · rw [live_congr hentries, live_share hmem]
  · rw [← keys_congr hsame] at hnew hkeys
    have hjoined := nodup_keys_joined hkeys hnew made
    have hevicts := evicts_shrink hjoined
    rw [hmade]
    refine ⟨hevicts.nodup_keys hjoined, fun k => ?_⟩
    rw [hevicts.live hjoined, live_joined hnew, live_congr hsame]
  · rw [hrefused] at h
    cases h

theorem acquire_error {c : Cache κ ρ} {key : κ} {make : κ → Except Refusal ρ} {refusal : Refusal}
    (h : (c.acquire key make).1.answer = .error refusal) :
    (c.acquire key make).2.entries = c.entries := by
  rcases acquire_cases c key make with ⟨_, -, hanswer, -⟩ | ⟨_, _, -, hanswer, -⟩ | ⟨_, -, hentries⟩
  · rw [hanswer] at h
    cases h
  · rw [hanswer] at h
    cases h
  · exact hentries

theorem release_live {c : Cache κ ρ} {key : κ} (hkeys : c.keys.Nodup) (h : 0 < c.live key) :
    (c.release key).2.keys.Nodup
      ∧ ∀ k, (c.release key).2.live k + (if k = key then 1 else 0) = c.live k := by
  have hmem : key ∈ c.keys := by
    by_contra hnot
    rw [live_of_not_mem hnot] at h
    exact Nat.lt_irrefl 0 h
  have hreturned : (c.returned key).keys.Nodup := (keys_returned c key).symm ▸ hkeys
  have hevicts := evicts_shrink hreturned
  rw [release_of_mem hmem]
  refine ⟨hevicts.nodup_keys hreturned, fun k => ?_⟩
  rw [hevicts.live hreturned, live_returned h]

/-- Every lease that is given out is in hand, or has come back. -/
theorem counts_acquire (c : Cache κ ρ) (key : κ) (make : κ → Except Refusal ρ) :
    (c.acquire key make).2.lent = c.lent + (gain key (c.acquire key make).1.answer).card
      ∧ (c.acquire key make).2.clock = c.clock := by
  unfold acquire ask
  cases c.entry? key with
  | some e => exact ⟨Nat.add_right_comm _ _ _, rfl⟩
  | none =>
    by_cases hcreating : key ∈ c.creating
    · rw [if_pos hcreating]
      exact ⟨rfl, rfl⟩
    · rw [if_neg hcreating]
      dsimp only
      rcases make key with (_ | _ | _) | resource <;> exact ⟨rfl, rfl⟩

theorem counts_release (c : Cache κ ρ) (key : κ) :
    (c.release key).2.lent = c.lent ∧ (c.release key).2.clock = c.clock + 1 := by
  unfold release
  dsimp only
  split <;> exact ⟨rfl, rfl⟩

/-- What a dealing adds to the leases that are out, it adds to those in hand. -/
structure Balanced (x y : Cache κ ρ × Multiset κ) : Prop where
  keys : y.1.keys.Nodup
  live : ∀ k, y.1.live k + x.2.count k = x.1.live k + y.2.count k
  counts : y.1.lent + x.1.clock + x.2.card = x.1.lent + y.1.clock + y.2.card

theorem Deal.balanced (h : Deal x y) (hkeys : x.1.keys.Nodup)
    (hown : ∀ k, x.2.count k ≤ x.1.live k) : Balanced x y := by
  cases h with
  | @taken c own key make resource hanswer =>
    obtain ⟨hnodup, hlive⟩ := acquire_ok hkeys hanswer
    obtain ⟨hlent, hclock⟩ := counts_acquire c key make
    rw [hanswer] at hlent
    refine ⟨hnodup, fun k => ?_, ?_⟩
    · rw [hlive, Multiset.count_add, Multiset.count_singleton]
      dsimp only
      omega
    · dsimp only
      rw [hlent, hclock, Multiset.card_add]
      simp only [gain, Multiset.card_singleton]
      omega
  | @refused c own key make refusal hanswer =>
    have hentries := acquire_error hanswer
    obtain ⟨hlent, hclock⟩ := counts_acquire c key make
    rw [hanswer] at hlent
    refine ⟨?_, fun k => ?_, ?_⟩
    · rw [keys_congr hentries]
      exact hkeys
    · rw [live_congr hentries]
    · dsimp only
      rw [hlent, hclock]
      rfl
  | @givenBack c own key =>
    have hheld : 0 < c.live key := by
      have := hown key
      rw [Multiset.count_add, Multiset.count_singleton_self] at this
      exact Nat.lt_of_lt_of_le (Nat.succ_pos _) this
    obtain ⟨hnodup, hlive⟩ := release_live hkeys hheld
    obtain ⟨hlent, hclock⟩ := counts_release c key
    refine ⟨hnodup, fun k => ?_, ?_⟩
    · have hk := hlive k
      rw [Multiset.count_add, Multiset.count_singleton]
      dsimp only at hk ⊢
      omega
    · dsimp only
      rw [hlent, hclock, Multiset.card_add, Multiset.card_singleton]
      omega

/-- After any dealings of one party the leases of all others are out as before. -/
theorem Deals.balanced (h : Deals x y) (hkeys : x.1.keys.Nodup)
    (hown : ∀ k, x.2.count k ≤ x.1.live k) : Balanced x y := by
  induction h with
  | refl => exact ⟨hkeys, fun _ => rfl, rfl⟩
  | tail _ hstep ih =>
    -- what is in hand is out, so that a lease that is given back is one of those that are out
    have hstep := hstep.balanced ih.keys fun k => by
      have := ih.live k
      have := hown k
      omega
    refine ⟨hstep.keys, fun k => ?_, ?_⟩
    · have := ih.live k
      have := hstep.live k
      omega
    · have := ih.counts
      have := hstep.counts
      omega

/-- Between two states of a cache all leases that were given out came back, and no others: as many
leases are out on each key, and as many were given out as came back. -/
structure Settled (before after : Cache κ ρ) : Prop where
  live : ∀ key, after.live key = before.live key
  counts : after.lent + before.clock = before.lent + after.clock

/-- A party with nothing in hand, before and after, has given back whatever it took. -/
theorem Deals.settled {before after : Cache κ ρ} (h : Deals (before, 0) (after, 0))
    (hkeys : before.keys.Nodup) : Settled before after := by
  have hbalanced := h.balanced hkeys fun _ => Nat.zero_le _
  exact ⟨hbalanced.live, hbalanced.counts⟩

end Deals

end Linkage.Cache
