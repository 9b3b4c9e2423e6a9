import Mathlib.Data.List.Basic
import Linkage.Data.Toml.Parser

/-! Trees of TOML tables, and what the reading of a document makes sure of: no table that it
returns has two values under one name. -/
namespace Linkage
namespace Toml

variable {members : List (String × Toml)} {entries entries' : Entries} {name : String}
  {dotted isDotted : Bool} {path : List String}

/-- All tables of a tree, the outermost one included, have a property. -/
inductive Every (p : List (String × Toml) → Prop) : List (String × Toml) → Prop
  | intro {members : List (String × Toml)} (here : p members)
      (below : ∀ name inner, (name, .table inner) ∈ members → Every p inner) : Every p members

/-- No name stands twice in a table. -/
def Distinct (members : List (String × Toml)) : Prop := (members.map Prod.fst).Nodup

instance : DecidablePred Distinct := fun members => List.nodupDecidable (members.map Prod.fst)

theorem Every.inner {p : List (String × Toml) → Prop} {inner : List (String × Toml)}
    (h : Every p members) (hmem : (name, .table inner) ∈ members) : Every p inner := by
  cases h with
  | intro here below => exact below name inner hmem

theorem Every.distinct_cons {value : Toml} (h : Every Distinct ((name, value) :: members)) :
    name ∉ members.map Prod.fst ∧ Every Distinct members := by
  cases h with
  | intro here below =>
    obtain ⟨hnew, hrest⟩ := List.nodup_cons.mp here
    exact ⟨hnew, .intro hrest fun name inner hmem => below name inner (.tail _ hmem)⟩

theorem every_distinct_nil : Every Distinct [] := .intro List.nodup_nil (by simp)

/-! ## Tables in the making -/

mutual
/-- No table in an entry has a name twice; those under one name are told apart by their places. -/
inductive Entry.Tidy : Entry → Prop
  | value {value : Toml} (h : Every Distinct value.members) : Entry.Tidy (.value value)
  | table {implicit dotted : Bool} {inner : Entries} (h : Entries.Tidy inner) :
    Entry.Tidy (.table implicit dotted inner)
  | tables {items : List Entries} : Entry.Tidy (.tables items)

/-- No name stands twice in a table in the making, or in a table within it. -/
inductive Entries.Tidy : Entries → Prop
  | intro {entries : Entries} (names : (entries.map Prod.fst).Nodup)
      (inner : ∀ e ∈ entries, Entry.Tidy e.2) : Entries.Tidy entries
end

theorem Entries.tidy_nil : Entries.Tidy [] := .intro List.nodup_nil (by simp)

theorem Entries.Tidy.of_lookup {e : Entry} (h : Entries.Tidy entries)
    (hfound : entries.lookup name = some e) : e.Tidy := by
  obtain ⟨l₁, l₂, rfl, -⟩ := List.lookup_eq_some_iff.mp hfound
  cases h with
  | intro _ inner => exact inner (name, e) (by simp)

theorem Entries.Tidy.append {e : Entry} (h : Entries.Tidy entries)
    (hnew : entries.lookup name = none) (he : e.Tidy) :
    Entries.Tidy (entries ++ [(name, e)]) := by
  cases h with
  | intro names inner =>
    have habsent : ∀ other ∈ entries, other.1 ≠ name := fun other hmem heq =>
      absurd (List.lookup_eq_none_iff.mp hnew other hmem) (by simp [heq])
    refine .intro ?_ fun other hmem => ?_
    · rw [List.map_append, List.nodup_append]
      refine ⟨names, by simp, ?_⟩
      simpa using fun a b hmem => habsent (a, b) hmem
    · obtain hmem | hmem := List.mem_append.mp hmem
      · exact inner other hmem
      · obtain rfl := List.mem_singleton.mp hmem
        exact he

theorem Entries.Tidy.replace {e : Entry} (h : Entries.Tidy entries) (he : e.Tidy) :
    Entries.Tidy (Toml.replace entries name e) := by
  cases h with
  | intro names inner =>
    have hnames : (Toml.replace entries name e).map Prod.fst = entries.map Prod.fst := by
      rw [Toml.replace, List.map_map]
      refine List.map_congr_left fun other _ => ?_
      simp only [Function.comp]
      split <;> rfl
    refine .intro (hnames ▸ names) fun other hmem => ?_
    obtain ⟨⟨first, old⟩, hold, rfl⟩ := List.mem_map.mp hmem
    by_cases hfirst : first = name
    · simpa [hfirst] using he
    · simpa [hfirst] using inner (first, old) hold

/-- A change to a table on the way of a path keeps the whole tidy if it keeps that one tidy. -/
theorem Entries.Tidy.within {change : Bool → Entries → Option Entries}
    (hchange : ∀ {isDotted entries entries'}, Entries.Tidy entries →
      change isDotted entries = some entries' → Entries.Tidy entries')
    (h : Entries.Tidy entries)
    (hresult : Toml.within dotted change path isDotted entries = some entries') :
    Entries.Tidy entries' := by
  induction path generalizing isDotted entries entries' with
  | nil => exact hchange h hresult
  | cons name path ih =>
    unfold Toml.within at hresult
    split at hresult
    case h_1 hnew =>
      obtain ⟨inner, hinner, hresult⟩ := Option.bind_eq_some_iff.mp hresult
      obtain rfl := Option.some.inj hresult
      exact h.append hnew (.table (ih Entries.tidy_nil hinner))
    case h_2 => cases hresult
    case h_3 old hfound =>
      split at hresult
      · cases hresult
      · obtain ⟨inner, hinner, hresult⟩ := Option.bind_eq_some_iff.mp hresult
        obtain rfl := Option.some.inj hresult
        cases h.of_lookup hfound with
        | table hold => exact h.replace (.table (ih hold hinner))
    case h_4 items hfound =>
      obtain ⟨last, -, hresult⟩ := Option.bind_eq_some_iff.mp hresult
      obtain ⟨changed, -, hresult⟩ := Option.bind_eq_some_iff.mp hresult
      obtain rfl := Option.some.inj hresult
      exact h.replace .tables

theorem Entries.Tidy.assign {value : Toml} (h : Entries.Tidy entries)
    (hvalue : Every Distinct value.members)
    (hresult : Toml.assign path value isDotted entries = some entries') :
    Entries.Tidy entries' := by
  obtain ⟨name, -, hresult⟩ := Option.bind_eq_some_iff.mp hresult
  refine h.within (fun {_ entries _} h hchange => ?_) hresult
  split at hchange
  case isTrue => cases hchange
  case isFalse hnew =>
    obtain rfl := Option.some.inj hchange
    rw [Bool.or_eq_true, not_or, Option.not_isSome_iff_eq_none] at hnew
    exact h.append hnew.2 (.value hvalue)

theorem Entries.Tidy.openTable (h : Entries.Tidy entries)
    (hresult : Toml.openTable path entries = some entries') : Entries.Tidy entries' := by
  obtain ⟨name, -, hresult⟩ := Option.bind_eq_some_iff.mp hresult
  refine h.within (fun {_ entries _} h hchange => ?_) hresult
  split at hchange
  case h_1 hnew =>
    obtain rfl := Option.some.inj hchange
    exact h.append hnew (.table Entries.tidy_nil)
  case h_2 hfound =>
    obtain rfl := Option.some.inj hchange
    cases h.of_lookup hfound with
    | table hold => exact h.replace (.table hold)
  case h_3 => cases hchange

theorem Entries.Tidy.openListed (h : Entries.Tidy entries)
    (hresult : Toml.openListed path entries = some entries') : Entries.Tidy entries' := by
  obtain ⟨name, -, hresult⟩ := Option.bind_eq_some_iff.mp hresult
  refine h.within (fun {_ entries _} h hchange => ?_) hresult
  split at hchange
  case h_1 hnew =>
    obtain rfl := Option.some.inj hchange
    exact h.append hnew .tables
  case h_2 =>
    obtain rfl := Option.some.inj hchange
    exact h.replace .tables
  case h_3 => cases hchange

/-! ## From entries to trees -/

theorem map_fst_membersToToml (entries : Entries) :
    (membersToToml entries).map Prod.fst = entries.map Prod.fst := by
  induction entries with
  | nil => rfl
  | cons e entries ih =>
    obtain ⟨name, e⟩ := e
    rw [membersToToml, List.map_cons, List.map_cons, ih]

theorem mem_membersToToml {value : Toml} (h : (name, value) ∈ membersToToml entries) :
    ∃ e, (name, e) ∈ entries ∧ value = e.toToml := by
  induction entries with
  | nil => cases h
  | cons e entries ih =>
    obtain ⟨first, e⟩ := e
    rw [membersToToml] at h
    obtain h | h := List.mem_cons.mp h
    · obtain ⟨rfl, rfl⟩ := Prod.mk.inj h
      exact ⟨e, List.mem_cons_self, rfl⟩
    · obtain ⟨e, hmem, hvalue⟩ := ih h
      exact ⟨e, List.mem_cons_of_mem _ hmem, hvalue⟩

mutual
theorem Entry.Tidy.every {e : Entry} : e.Tidy → Every Distinct e.toToml.members
  | .value h => h
  | .table h => h.every
  | .tables => every_distinct_nil

theorem Entries.Tidy.every {entries : Entries} :
    Entries.Tidy entries → Every Distinct (sortMembers (membersToToml entries))
  | .intro names inner => by
    have hperm := List.mergeSort_perm (membersToToml entries) fun a b => a.1 ≤ b.1
    refine .intro ?_ fun name below hmem => ?_
    · rw [Distinct, sortMembers, (hperm.map Prod.fst).nodup_iff, map_fst_membersToToml]
      exact names
    · obtain ⟨e, hentry, hvalue⟩ := mem_membersToToml (hperm.subset hmem)
      have he := (inner (name, e) hentry).every
      rwa [← hvalue] at he
end

/-! ## Values and documents -/

variable {value : Toml} {cs rest : Rest}

theorem members_integer (h : integer cs = some value) : value.members = [] := by
  simp only [integer, Option.bind_eq_bind, Option.bind_eq_some_iff, Option.ite_none_right_eq_some,
    Option.some.injEq] at h
  obtain ⟨n, -, -, rfl⟩ := h
  rfl

theorem members_based? {base : Nat} (h : based? base cs = some (value, rest)) :
    value.members = [] := by
  simp only [based?, Option.bind_eq_bind, Option.bind_eq_some_iff, Option.ite_none_right_eq_some,
    Option.some.injEq, Prod.mk.injEq] at h
  obtain ⟨⟨ds, cs⟩, -, -, rfl, -⟩ := h
  rfl

theorem members_number? (h : number? cs = some (value, rest)) : value.members = [] := by
  unfold number? at h
  split at h
  iterate 3 exact members_based? h
  simp only [Option.bind_eq_bind, Option.bind_eq_some_iff] at h
  obtain ⟨⟨whole, cs⟩, -, ⟨fraction, cs⟩, -, ⟨exponent, cs⟩, -, h⟩ := h
  dsimp only at h
  split_ifs at h
  · obtain ⟨n, hn, h⟩ := Option.bind_eq_some_iff.mp h
    obtain ⟨rfl, -⟩ := Prod.mk.inj (Option.some.inj h)
    exact members_integer hn
  · obtain ⟨d, -, h⟩ := Option.bind_eq_some_iff.mp h
    split_ifs at h
    obtain ⟨rfl, -⟩ := Prod.mk.inj (Option.some.inj h)
    rfl

theorem word?_eq_some {word : String} {found : Toml}
    (h : word? word found cs = some (value, rest)) : value = found := by
  simp only [word?, Option.ite_none_right_eq_some, Option.some.injEq, Prod.mk.injEq] at h
  exact h.2.1.symm

theorem members_special? (h : special? cs = some (value, rest)) : value.members = [] := by
  simp only [special?, Option.orElse_eq_or, Option.or_eq_some_iff] at h
  rcases h with h | ⟨-, h⟩
  all_goals rw [word?_eq_some h]; rfl

theorem members_numeral? (h : numeral? cs = some (value, rest)) : value.members = [] := by
  unfold numeral? at h
  split at h
  · obtain ⟨rfl, -⟩ := Prod.mk.inj (Option.some.inj h)
    rfl
  · rw [Option.orElse_eq_or, Option.or_eq_some_iff] at h
    rcases h with h | ⟨-, h⟩
    · exact members_special? h
    · exact members_number? h

theorem every_of_scalar (h : value.members = []) : Every Distinct value.members := by
  rw [h]
  exact every_distinct_nil

/-- Neither a value nor the members of a table on one line have a name twice in a table. -/
theorem reads_tidy (fuel : Nat) :
    (∀ {depth cs value rest}, value? depth fuel cs = some (value, rest) →
      Every Distinct value.members) ∧
    (∀ {depth cs entries entries' rest}, Entries.Tidy entries →
      pairs? depth fuel cs entries = some (entries', rest) → Entries.Tidy entries') := by
  induction fuel with
  | zero => exact ⟨fun h => by simp [value?] at h, fun _ h => by simp [pairs?] at h⟩
  | succ fuel ih =>
    obtain ⟨ihvalue, ihpairs⟩ := ih
    constructor
    · intro depth cs value rest h
      rw [value?.eq_def] at h
      dsimp only at h
      split at h
      case h_1 | h_2 =>
        obtain ⟨_, _, heq⟩ := Option.map_eq_some_iff.mp h
        obtain ⟨rfl, -⟩ := Prod.mk.inj heq
        exact every_distinct_nil
      case h_3 =>
        split at h
        · cases h
        · obtain ⟨_, _, heq⟩ := Option.map_eq_some_iff.mp h
          obtain ⟨rfl, -⟩ := Prod.mk.inj heq
          exact every_distinct_nil
      case h_4 =>
        split at h
        · cases h
        · obtain ⟨rfl, -⟩ := Prod.mk.inj (Option.some.inj h)
          exact every_distinct_nil
        · obtain ⟨found, hfound, heq⟩ := Option.map_eq_some_iff.mp h
          obtain ⟨rfl, -⟩ := Prod.mk.inj heq
          exact (ihpairs Entries.tidy_nil hfound).every
      case h_5 | h_6 => exact every_of_scalar (word?_eq_some h ▸ rfl)
      case h_7 => exact every_of_scalar (members_numeral? h)
    · intro depth cs entries entries' rest hentries h
      rw [pairs?.eq_def] at h
      dsimp only at h
      obtain ⟨⟨path, cs⟩, -, h⟩ := Option.bind_eq_some_iff.mp h
      split at h
      case h_2 => cases h
      obtain ⟨⟨value, cs⟩, hvalue, h⟩ := Option.bind_eq_some_iff.mp h
      obtain ⟨assigned, hassigned, h⟩ := Option.bind_eq_some_iff.mp h
      have htidy := hentries.assign (ihvalue hvalue) hassigned
      split at h
      · obtain ⟨rfl, -⟩ := Prod.mk.inj (Option.some.inj h)
        exact htidy
      · exact ihpairs htidy h
      · cases h

theorem tidy_line {draft draft' : Draft} (h : Entries.Tidy draft.root)
    (hresult : line? draft cs = some (draft', rest)) : Entries.Tidy draft'.root := by
  unfold line? at hresult
  split at hresult
  case h_1 =>
    obtain ⟨⟨path, cs⟩, -, hresult⟩ := Option.bind_eq_some_iff.mp hresult
    dsimp only at hresult
    split at hresult
    case h_2 => cases hresult
    obtain ⟨root, hroot, hresult⟩ := Option.bind_eq_some_iff.mp hresult
    obtain ⟨rfl, -⟩ := Prod.mk.inj (Option.some.inj hresult)
    exact h.openListed hroot
  case h_2 =>
    obtain ⟨⟨path, cs⟩, -, hresult⟩ := Option.bind_eq_some_iff.mp hresult
    dsimp only at hresult
    split at hresult
    case h_2 => cases hresult
    obtain ⟨root, hroot, hresult⟩ := Option.bind_eq_some_iff.mp hresult
    obtain ⟨rfl, -⟩ := Prod.mk.inj (Option.some.inj hresult)
    exact h.openTable hroot
  iterate 4
    obtain ⟨rfl, -⟩ := Prod.mk.inj (Option.some.inj hresult)
    exact h
  obtain ⟨⟨path, cs⟩, -, hresult⟩ := Option.bind_eq_some_iff.mp hresult
  dsimp only at hresult
  split at hresult
  case h_2 => cases hresult
  obtain ⟨⟨value, cs⟩, hvalue, hresult⟩ := Option.bind_eq_some_iff.mp hresult
  obtain ⟨root, hroot, hresult⟩ := Option.bind_eq_some_iff.mp hresult
  obtain ⟨rfl, -⟩ := Prod.mk.inj (Option.some.inj hresult)
  exact h.within (fun h hassign => h.assign ((reads_tidy _).1 hvalue) hassign) hroot

theorem tidy_document {fuel : Nat} {draft draft' : Draft} (h : Entries.Tidy draft.root)
    (hresult : document? fuel draft cs = some draft') : Entries.Tidy draft'.root := by
  induction fuel generalizing draft cs with
  | zero => cases hresult
  | succ fuel ih =>
    obtain ⟨⟨next, cs⟩, hline, hresult⟩ := Option.bind_eq_some_iff.mp hresult
    have hnext := tidy_line h hline
    dsimp only at hresult
    split at hresult
    · obtain rfl := Option.some.inj hresult
      exact hnext
    · obtain ⟨cs, -, hresult⟩ := Option.bind_eq_some_iff.mp hresult
      exact ih hnext hresult

/-- A document is a table, and no table in it has a name twice. -/
theorem distinct_of_parse {text : String} (h : parse? text = some value) :
    ∃ members, value = .table members ∧ Every Distinct members := by
  obtain ⟨draft, hdraft, rfl⟩ := Option.map_eq_some_iff.mp h
  exact ⟨_, rfl, (tidy_document Entries.tidy_nil hdraft).every⟩

end Toml
end Linkage
