import Linkage.Plugin.Repository
import Linkage.Proofs.Data.Latest
import Linkage.Proofs.Plugin.Version

/-! What a catalogue answers. It knows of each coordinate the descriptor that was added last. It lists
versions from old to new, those that are as old as each other in the order in which they were added
last, and the newest of some plugins is the last of such a list. -/
namespace Linkage

section Sorting

variable {α : Type} {le : α → α → Bool} {R : α → α → Prop} {as : List α} {a : α}

/-- Sorting leaves elements that are as great as each other in their order. -/
theorem pairwise_mergeSort_stable (htrans : ∀ a b c, le a b = true → le b c = true → le a c = true)
    (htotal : ∀ a b, (le a b || le b a) = true) (h : as.Pairwise R) :
    (as.mergeSort le).Pairwise fun a b => le a b = true ∧ (le b a = true → R a b) := by
  induction as with
  | nil => simp
  | cons a as ih =>
    obtain ⟨ha, has⟩ := List.pairwise_cons.mp h
    obtain ⟨front, back, hsort, hrest, hfront⟩ := List.mergeSort_cons htrans htotal a as
    have hsorted : (front ++ a :: back).Pairwise fun a b => le a b = true := by
      rw [← hsort]
      exact List.pairwise_mergeSort htrans htotal (a :: as)
    obtain ⟨-, hback, hcross⟩ := List.pairwise_append.mp hsorted
    have hle := (List.pairwise_cons.mp hback).1
    have hmem : ∀ b ∈ back, b ∈ as := by
      intro b hb
      apply List.mem_mergeSort.mp
      rw [hrest]
      exact List.mem_append_right front hb
    have hih := ih has
    rw [hrest] at hih
    obtain ⟨hfronts, hbacks, hacross⟩ := List.pairwise_append.mp hih
    rw [hsort]
    refine List.pairwise_append.mpr ⟨hfronts, List.pairwise_cons.mpr ⟨?_, hbacks⟩, ?_⟩
    · intro b hb
      exact ⟨hle b hb, fun _ => ha b (hmem b hb)⟩
    · intro b hb c hc
      rcases List.mem_cons.mp hc with rfl | hc
      · refine ⟨hcross b hb c List.mem_cons_self, fun hcb => ?_⟩
        have hnot := hfront b hb
        rw [hcb] at hnot
        exact absurd hnot (by decide)
      · exact hacross b hb c hc

theorem getLast?_eq_some_iff_of_pairwise (hasymm : ∀ a b, R a b → ¬ R b a) (h : as.Pairwise R) :
    as.getLast? = some a ↔ a ∈ as ∧ ∀ b ∈ as, b = a ∨ R b a := by
  rcases List.eq_nil_or_concat' as with rfl | ⟨front, z, rfl⟩
  · simp
  · obtain ⟨-, -, hz⟩ := List.pairwise_append.mp h
    have hbefore : ∀ b ∈ front, R b z := fun b hb => hz b hb z (List.mem_singleton_self z)
    rw [List.getLast?_concat, Option.some_inj]
    constructor
    · rintro rfl
      refine ⟨by simp, fun b hb => ?_⟩
      rcases List.mem_append.mp hb with hb | hb
      · exact Or.inr (hbefore b hb)
      · exact Or.inl (List.mem_singleton.mp hb)
    · rintro ⟨ha, hall⟩
      rcases List.mem_append.mp ha with ha | ha
      · rcases hall z (by simp) with heq | hza
        · exact heq
        · exact absurd (hbefore a ha) (hasymm z a hza)
      · exact (List.mem_singleton.mp ha).symm

end Sorting

namespace Repository

variable {added ds : List Descriptor} {c d : Coordinate}

/-- No descriptor of its coordinate was added later. -/
abbrev Latest (added : List Descriptor) (d : Descriptor) : Prop :=
  LatestOf Descriptor.coordinate added d

/-- After `c` was added for the last time, `d` was added once more. -/
def AddedBefore (added : List Descriptor) (c d : Coordinate) : Prop :=
  ∃ front back, added = front ++ back ∧ c ∈ front.map (·.coordinate)
    ∧ c ∉ back.map (·.coordinate) ∧ d ∈ back.map (·.coordinate)

theorem AddedBefore.asymm (h : AddedBefore added c d) : ¬ AddedBefore added d c := by
  obtain ⟨front, back, hsplit, -, hc, hd⟩ := h
  rintro ⟨front', back', hsplit', -, hd', hc'⟩
  have hback : back <:+ added := ⟨front, hsplit.symm⟩
  have hback' : back' <:+ added := ⟨front', hsplit'.symm⟩
  rcases List.suffix_or_suffix_of_suffix hback hback' with hle | hle
  · exact hd' (List.map_subset _ hle.subset hd)
  · exact hc (List.map_subset _ hle.subset hc')

theorem AddedBefore.concat (h : AddedBefore added c d) {e : Descriptor} (hne : c ≠ e.coordinate) :
    AddedBefore (added ++ [e]) c d := by
  obtain ⟨front, back, rfl, hfront, hc, hd⟩ := h
  refine ⟨front, back ++ [e], by simp, hfront, ?_, ?_⟩
  · simpa [hne] using hc
  · rw [List.map_append]
    exact List.mem_append_left _ hd

theorem addedBefore_last {e : Descriptor} (hc : c ∈ added.map (·.coordinate))
    (hne : c ≠ e.coordinate) : AddedBefore (added ++ [e]) c e.coordinate :=
  ⟨added, [e], rfl, hc, by simpa using hne, by simp⟩

theorem ofDescriptors_concat (added : List Descriptor) (e : Descriptor) :
    ofDescriptors (added ++ [e]) = (ofDescriptors added).add e :=
  List.foldl_concat add {} e added

theorem mem_add {r : Repository} {d e : Descriptor} :
    d ∈ (r.add e).descriptors ↔ d = e ∨ d ∈ r.descriptors ∧ d.coordinate ≠ e.coordinate := by
  simp [add, or_comm]

/-- A catalogue has what was added last. -/
theorem mem_ofDescriptors {d : Descriptor} :
    d ∈ (ofDescriptors added).descriptors ↔ Latest added d := by
  induction added using List.reverseRecOn with
  | nil => exact iff_of_false List.not_mem_nil (not_latestOf_nil d)
  | append_singleton added e ih =>
    rw [ofDescriptors_concat, mem_add, ih]
    exact latestOf_concat.symm

theorem pairwise_ofDescriptors (added : List Descriptor) :
    (ofDescriptors added).descriptors.Pairwise
      fun d e => AddedBefore added d.coordinate e.coordinate := by
  induction added using List.reverseRecOn with
  | nil => exact List.Pairwise.nil
  | append_singleton added e ih =>
    rw [ofDescriptors_concat]
    -- what was there stays in its order without the coordinate that is added behind it
    refine List.pairwise_append.mpr ⟨?_, List.pairwise_singleton _ e, ?_⟩
    · refine (ih.filter _).imp_of_mem fun {d _} hd _ hbefore => ?_
      have hne : d.coordinate ≠ e.coordinate := by simpa using (List.mem_filter.mp hd).2
      exact hbefore.concat hne
    · intro d hd f hf
      obtain rfl := List.mem_singleton.mp hf
      obtain ⟨hmem, hne⟩ := List.mem_filter.mp hd
      have hadded : d ∈ added := (mem_ofDescriptors.mp hmem).mem
      exact addedBefore_last (List.mem_map_of_mem hadded) (by simpa using hne)

/-- `c` is older than `d`, or as old and was added before. -/
def Precedes (added : List Descriptor) (c d : Coordinate) : Prop :=
  PluginVersion.compare c.version d.version = .lt
    ∨ PluginVersion.compare c.version d.version = .eq ∧ AddedBefore added c d

theorem Precedes.asymm (h : Precedes added c d) : ¬ Precedes added d c := by
  have hswap : PluginVersion.compare d.version c.version
      = (PluginVersion.compare c.version d.version).swap := Std.OrientedCmp.eq_swap
  rintro (hlt | ⟨heq, hbefore⟩)
  · rcases h with h | ⟨h, -⟩ <;> simp [hlt, h] at hswap
  · rcases h with h | ⟨-, h⟩
    · simp [heq, h] at hswap
    · exact h.asymm hbefore

/-- The order in which versions are listed. -/
def byVersion (d e : Descriptor) : Bool := PluginVersion.le d.version e.version

theorem byVersion_trans (d e f : Descriptor) (hde : byVersion d e = true)
    (hef : byVersion e f = true) : byVersion d f = true :=
  PluginVersion.le_trans hde hef

theorem byVersion_total (d e : Descriptor) : (byVersion d e || byVersion e d) = true :=
  PluginVersion.le_total d.version e.version

theorem byVersion_eq_false_iff {d e : Descriptor} :
    byVersion d e = false ↔ PluginVersion.compare d.version e.version = .gt := by
  simp [byVersion, PluginVersion.le]

/-- Descriptors that come in the order of their last addition are sorted into the order of versions. -/
theorem pairwise_sorted (h : ds.Pairwise fun d e => AddedBefore added d.coordinate e.coordinate) :
    (ds.mergeSort byVersion).Pairwise fun d e => Precedes added d.coordinate e.coordinate := by
  refine (pairwise_mergeSort_stable byVersion_trans byVersion_total h).imp ?_
  rintro d e ⟨hle, hbefore⟩
  have hswap : PluginVersion.compare e.version d.version
      = (PluginVersion.compare d.version e.version).swap := Std.OrientedCmp.eq_swap
  cases hcompare : PluginVersion.compare d.version e.version with
  | lt => exact Or.inl hcompare
  | eq =>
    rw [hcompare] at hswap
    exact Or.inr ⟨hcompare, hbefore (by simp [byVersion, PluginVersion.le, hswap])⟩
  | gt =>
    rw [byVersion_eq_false_iff.mpr hcompare] at hle
    exact absurd hle (by decide)

/-- The newest descriptor is the last one of those that are sorted. -/
theorem newest?_eq_getLast? (ds : List Descriptor) :
    newest? ds = (ds.mergeSort byVersion).getLast? := by
  induction ds with
  | nil => simp [newest?]
  | cons d ds ih =>
    obtain ⟨front, back, hsort, hrest, hfront⟩ :=
      List.mergeSort_cons byVersion_trans byVersion_total d ds
    have hsorted := List.pairwise_mergeSort byVersion_trans byVersion_total (d :: ds)
    rw [hsort] at hsorted
    rw [newest?, ih, hsort, hrest]
    rcases List.eq_nil_or_concat' back with rfl | ⟨back, e, rfl⟩
    · -- all others are older
      rcases List.eq_nil_or_concat' front with rfl | ⟨front, e, rfl⟩
      · simp
      · have hgt : PluginVersion.compare d.version e.version = .gt := by
          simpa [byVersion_eq_false_iff] using hfront e (by simp)
        simp [hgt]
    · have hback := (List.pairwise_append.mp hsorted).2.1
      have hle : byVersion d e = true := (List.pairwise_cons.mp hback).1 e (by simp)
      have hnot : PluginVersion.compare d.version e.version ≠ .gt := by
        intro hgt
        rw [byVersion_eq_false_iff.mpr hgt] at hle
        exact absurd hle (by decide)
      have hrestLast : (front ++ (back ++ [e])).getLast? = some e := by simp
      have hassoc : front ++ d :: (back ++ [e]) = front ++ d :: back ++ [e] := by simp
      have hlast : (front ++ d :: (back ++ [e])).getLast? = some e := by
        rw [hassoc, List.getLast?_concat]
      simp only [hrestLast, hlast, if_neg hnot]

theorem newest?_eq_none_iff {ds : List Descriptor} : newest? ds = none ↔ ds = [] := by
  have hlength : (ds.mergeSort byVersion).length = ds.length := List.length_mergeSort ds
  rw [newest?_eq_getLast?, List.getLast?_eq_none_iff, ← List.length_eq_zero_iff, hlength,
    List.length_eq_zero_iff]

/-- Of descriptors in the order of their last addition the newest is the one that all others precede. -/
theorem newest?_eq_some_iff
    (h : ds.Pairwise fun d e => AddedBefore added d.coordinate e.coordinate) {d : Descriptor} :
    newest? ds = some d ↔ d ∈ ds ∧ ∀ e ∈ ds, e = d ∨ Precedes added e.coordinate d.coordinate := by
  rw [newest?_eq_getLast?]
  rw [getLast?_eq_some_iff_of_pairwise (fun d e => Precedes.asymm) (pairwise_sorted h)]
  simp [List.mem_mergeSort]

variable (added)

/-- The descriptors that a catalogue answers from. -/
theorem pairwise_chosen (p : Descriptor → Bool) :
    ((ofDescriptors added).descriptors.filter p).Pairwise
      fun d e => AddedBefore added d.coordinate e.coordinate :=
  (pairwise_ofDescriptors added).filter p

theorem mem_chosen {p : Descriptor → Bool} {d : Descriptor} :
    d ∈ (ofDescriptors added).descriptors.filter p ↔ Latest added d ∧ p d = true := by
  rw [List.mem_filter, mem_ofDescriptors]

theorem pairwise_allVersions (id : String) :
    ((ofDescriptors added).allVersions id).Pairwise (Precedes added) := by
  unfold allVersions
  exact List.pairwise_map.mpr (pairwise_sorted (pairwise_chosen added _))

theorem mem_allVersions {id : String} :
    c ∈ (ofDescriptors added).allVersions id ↔ c.id = id ∧ ∃ d ∈ added, d.coordinate = c := by
  unfold allVersions
  simp only [List.mem_map, List.mem_mergeSort, mem_chosen, decide_eq_true_eq]
  constructor
  · rintro ⟨d, ⟨hlatest, hid⟩, rfl⟩
    exact ⟨hid, d, hlatest.mem, rfl⟩
  · rintro ⟨hid, d, hd, rfl⟩
    obtain ⟨e, hlatest, heq⟩ : ∃ e, Latest added e ∧ e.coordinate = d.coordinate :=
      exists_latestOf hd
    refine ⟨e, ⟨hlatest, ?_⟩, heq⟩
    have hids : e.id = d.id := congrArg Coordinate.id heq
    rw [hids]
    exact hid

theorem lastVersion?_eq_getLast? (r : Repository) (id : String) :
    r.lastVersion? id = (r.allVersions id).getLast? := by
  unfold lastVersion? allVersions
  rw [newest?_eq_getLast?, List.getLast?_map]
  rfl

theorem withModule?_eq_some_iff {module : String} :
    (ofDescriptors added).withModule? module = some c
      ↔ ∃ d, Latest added d ∧ d.coordinate = c ∧ d.providesModule module = true
        ∧ ∀ e, Latest added e → e.providesModule module = true →
          e = d ∨ Precedes added e.coordinate c := by
  unfold withModule?
  simp only [Option.map_eq_some_iff, newest?_eq_some_iff (pairwise_chosen added _), mem_chosen]
  constructor
  · rintro ⟨d, ⟨⟨hlatest, hmodule⟩, hall⟩, rfl⟩
    exact ⟨d, hlatest, rfl, hmodule, fun e he hprovides => hall e ⟨he, hprovides⟩⟩
  · rintro ⟨d, hlatest, rfl, hmodule, hall⟩
    exact ⟨d, ⟨⟨hlatest, hmodule⟩, fun e he => hall e he.1 he.2⟩, rfl⟩

theorem withModule?_eq_none_iff {module : String} :
    (ofDescriptors added).withModule? module = none
      ↔ ∀ d, Latest added d → d.providesModule module = false := by
  unfold withModule?
  rw [Option.map_eq_none_iff, newest?_eq_none_iff, List.filter_eq_nil_iff]
  simp only [mem_ofDescriptors, Bool.not_eq_true]

/-- What a catalogue answers after descriptors were added. The versions of a plugin are those that
were added, each once; older ones come first, and of those that are as old as each other the one that
was added last comes last. The last version is the last of them, so that there is none if, and only
if, no version was added. The plugin with a module is, of those whose latest descriptor has it, the
one that all others precede; there is none if, and only if, no latest descriptor has the module. -/
theorem answers_agree (id module : String) :
    let r := ofDescriptors added
    (∀ c, c ∈ r.allVersions id ↔ c.id = id ∧ ∃ d ∈ added, d.coordinate = c)
      ∧ (r.allVersions id).Nodup
      ∧ (r.allVersions id).Pairwise (Precedes added)
      ∧ r.lastVersion? id = (r.allVersions id).getLast?
      ∧ (r.lastVersion? id = none ↔ r.allVersions id = [])
      ∧ (∀ c, r.withModule? module = some c ↔ ∃ d, Latest added d ∧ d.coordinate = c
        ∧ d.providesModule module = true ∧ ∀ e, Latest added e → e.providesModule module = true →
          e = d ∨ Precedes added e.coordinate c)
      ∧ (r.withModule? module = none ↔ ∀ d, Latest added d → d.providesModule module = false) := by
  have hlast := lastVersion?_eq_getLast? (ofDescriptors added) id
  refine ⟨fun _ => mem_allVersions added, ?_, pairwise_allVersions added id, hlast, ?_,
    fun _ => withModule?_eq_some_iff added, withModule?_eq_none_iff added⟩
  · refine (pairwise_allVersions added id).imp fun {c d} hprecedes heq => ?_
    subst heq
    exact hprecedes.asymm hprecedes
  · rw [hlast, List.getLast?_eq_none_iff]

/-- A version that is added again comes behind one that is as old. -/
example :
    (ofDescriptors [⟨"p", "1.0", [], none, none, [], []⟩, ⟨"p", "1.00", [], none, none, [], []⟩,
      ⟨"p", "1.0", [], none, none, [], []⟩]).lastVersion? "p" = some ⟨"p", "1.0"⟩ := by decide

end Repository
end Linkage
