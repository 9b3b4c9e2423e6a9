import Linkage.Proofs.Data.Toml
import Linkage.Settings.Basic

/-! What settings say after the tables of a TOML text were made areas: no value of the text is
dropped, moved to another area or overwritten by another one. -/
namespace Linkage

theorem lookup_cons_ite {β : Type} (entries : List (String × β)) (name : String)
    (e : String × β) : (e :: entries).lookup name = if name = e.1 then some e.2 else
      entries.lookup name := by
  by_cases h : name = e.1
  · rw [List.lookup_cons, beq_iff_eq.mpr h, if_pos h]
  · rw [List.lookup_cons, beq_eq_false_iff_ne.mpr h, if_neg h]

namespace Toml

variable {members : List (String × Toml)} {key text : String} {path : List String}

/-- A name that can be told from its neighbours after dots joined them. -/
def IsPart (name : String) : Prop := name ≠ "" ∧ '.' ∉ name.toList

/-- All names in a table can be told from their neighbours. -/
def HasParts (members : List (String × Toml)) : Prop := ∀ name ∈ members.map Prod.fst, IsPart name

instance : DecidablePred IsPart := fun _ => inferInstanceAs (Decidable (_ ∧ _))

instance : DecidablePred HasParts := fun members =>
  List.decidableBAll IsPart (members.map Prod.fst)

/-- The text of a value that is no table. -/
def text? : Toml → Option String
  | .table _ => none
  | value => some value.display

/-- The text that a tree has for a key in the table at a path. -/
def setting? (key : String) : (path : List String) → List (String × Toml) → Option String
  | [], members => (members.lookup key).bind text?
  | name :: path, members => (members.lookup name).bind fun value => setting? key path value.members

/-! ## Trees as lists of settings -/

@[simp] theorem setting?_no_members : setting? key path [] = none := by
  cases path <;> rfl

theorem Every.hasParts_cons {name : String} {value : Toml}
    (h : Every HasParts ((name, value) :: members)) : IsPart name ∧ Every HasParts members := by
  cases h with
  | intro here below =>
    exact ⟨here name (.head _), .intro (fun name hmem => here name (.tail _ hmem))
      fun name inner hmem => below name inner (.tail _ hmem)⟩

/-- The names on the way to a setting are names in the tree. -/
theorem isPart_of_setting? (h : Every HasParts members)
    (hfound : setting? key path members = some text) : ∀ name ∈ path, IsPart name := by
  induction path generalizing members with
  | nil => simp
  | cons name path ih =>
    obtain ⟨value, hvalue, hbelow⟩ := Option.bind_eq_some_iff.mp hfound
    have hmem : (name, value) ∈ members := by
      obtain ⟨l₁, l₂, rfl, -⟩ := List.lookup_eq_some_iff.mp hvalue
      simp
    cases h with
    | intro here below =>
      cases value with
      | table inner =>
        exact List.forall_mem_cons.mpr
          ⟨here name (List.mem_map_of_mem hmem), ih (below name inner hmem) hbelow⟩
      | _ => simp [Toml.members] at hbelow

theorem text?_of_not_table {value : Toml} (h : ∀ inner, value ≠ .table inner) :
    value.text? = some value.display := by
  cases value with
  | table inner => exact absurd rfl (h inner)
  | _ => rfl

theorem members_of_not_table {value : Toml} (h : ∀ inner, value ≠ .table inner) :
    value.members = [] := by
  cases value with
  | table inner => exact absurd rfl (h inner)
  | _ => rfl

/-- A setting of a table is its first value, or below this one, or a setting of the rest. -/
theorem setting?_cons_iff {name : String} {value : Toml} (hnew : name ∉ members.map Prod.fst) :
    setting? key path ((name, value) :: members) = some text ↔
      (path = [] ∧ key = name ∧ value.text? = some text) ∨
      (∃ rest, path = name :: rest ∧ setting? key rest value.members = some text) ∨
      setting? key path members = some text := by
  have habsent : members.lookup name = none := by
    rw [List.lookup_eq_none_iff]
    intro e hmem
    exact bne_iff_ne.mpr fun heq => hnew (List.mem_map.mpr ⟨e, hmem, heq.symm⟩)
  cases path with
  | nil =>
    by_cases hkey : key = name
    · subst hkey
      simp [setting?, habsent]
    · simp [setting?, lookup_cons_ite, hkey]
  | cons first rest =>
    by_cases hfirst : first = name
    · subst hfirst
      simp [setting?, habsent]
    · simp [setting?, lookup_cons_ite, hfirst]

end Toml

namespace SettingsTable

variable {t : SettingsTable} {members : List (String × Toml)} {outer area key text : String}

/-! ## Setting keys one by one -/

theorem lookup_without {β : Type} (entries : List (String × β)) {name other : String}
    (h : name ≠ other) : (entries.filter (·.1 ≠ other)).lookup name = entries.lookup name := by
  induction entries with
  | nil => rfl
  | cons e entries ih =>
    by_cases hfirst : e.1 = other
    · rw [List.filter_cons_of_neg (by simpa using hfirst), lookup_cons_ite, if_neg (hfirst ▸ h), ih]
    · rw [List.filter_cons_of_pos (by simpa using hfirst), lookup_cons_ite, lookup_cons_ite, ih]

/-- A key that is set has its new text, and all others keep theirs. -/
theorem get?_put (t : SettingsTable) (area key text area' key' : String) :
    (t.put area key text).get? area' key' =
      if area' = area ∧ key' = key then some text else t.get? area' key' := by
  simp only [put, get?, Option.bind_eq_bind, lookup_cons_ite]
  by_cases harea : area' = area
  · subst harea
    by_cases hkey : key' = key
    · simp [hkey]
    · simp only [↓reduceIte, Option.bind_some, lookup_cons_ite, hkey, and_false,
        lookup_without _ hkey]
      cases t.lookup area' <;> rfl
  · simp only [harea, false_and, ↓reduceIte, lookup_without t harea]

theorem get?_touch (t : SettingsTable) (area area' key : String) :
    (t.touch area).get? area' key = t.get? area' key := by
  unfold touch
  split
  case isTrue => rfl
  case isFalse hnew =>
    simp only [get?, Option.bind_eq_bind, lookup_cons_ite]
    by_cases harea : area' = area
    · subst harea
      rw [Option.not_isSome_iff_eq_none.mp hnew]
      simp
    · rw [if_neg harea]

/-- Sets keys in areas, one after another. -/
def putAll (settings : List (String × String × String)) (t : SettingsTable) : SettingsTable :=
  settings.foldl (fun t (area, key, text) => t.put area key text) t

/-- Tables from which every setting is read alike. -/
def Agrees (t t' : SettingsTable) : Prop := ∀ area key, t.get? area key = t'.get? area key

theorem Agrees.putAll {t t' : SettingsTable} (h : Agrees t t')
    (settings : List (String × String × String)) :
    Agrees (putAll settings t) (SettingsTable.putAll settings t') := by
  induction settings generalizing t t' with
  | nil => exact h
  | cons setting settings ih =>
    refine ih fun area key => ?_
    rw [get?_put, get?_put, h area key]

theorem get?_putAll_of_not_mem {settings : List (String × String × String)}
    (h : ∀ text, (area, key, text) ∉ settings) :
    (putAll settings t).get? area key = t.get? area key := by
  induction settings generalizing t with
  | nil => rfl
  | cons setting settings ih =>
    have hother : ¬ (area = setting.1 ∧ key = setting.2.1) := by
      rintro ⟨rfl, rfl⟩
      exact h setting.2.2 List.mem_cons_self
    have hrest := ih (t := t.put setting.1 setting.2.1 setting.2.2) fun text hmem =>
      h text (List.mem_cons_of_mem _ hmem)
    rw [get?_put, if_neg hother] at hrest
    exact hrest

/-- Where all settings of a key agree, it has the text that they say. -/
theorem get?_putAll_of_mem {settings : List (String × String × String)}
    (hmem : (area, key, text) ∈ settings)
    (honly : ∀ other, (area, key, other) ∈ settings → other = text) :
    (putAll settings t).get? area key = some text := by
  induction settings generalizing t with
  | nil => cases hmem
  | cons setting settings ih =>
    have honly' : ∀ other, (area, key, other) ∈ settings → other = text := fun other h =>
      honly other (List.mem_cons_of_mem _ h)
    by_cases hlater : ∃ other, (area, key, other) ∈ settings
    · obtain ⟨other, hother⟩ := hlater
      obtain rfl := honly' other hother
      exact ih hother honly'
    · rw [not_exists] at hlater
      obtain rfl | h := List.mem_cons.mp hmem
      · have hkept := get?_putAll_of_not_mem (t := t.put area key text) hlater
        rw [get?_put, if_pos ⟨rfl, rfl⟩] at hkept
        exact hkept
      · exact absurd h (hlater text)

/-! ## Tables as settings of keys -/

/-- The area of a table with a name within another one. -/
def below (outer name : String) : String := if outer.isEmpty then name else outer ++ "." ++ name

/-- The area that has the values of a table. -/
def areaOf (outer : String) : String := if outer.isEmpty then "base" else outer

/-- The settings that a table makes, in order. -/
def settings (outer : String) : List (String × Toml) → List (String × String × String)
  | [] => []
  | (name, .table inner) :: members => settings (below outer name) inner ++ settings outer members
  | (name, value) :: members => (areaOf outer, name, value.display) :: settings outer members

/-- The short way for a table without tables makes the settings of any table. -/
theorem settings_plain (houter : outer ≠ "") (hplain : ¬ members.any (·.2.isTable)) :
    settings outer members = members.map fun (name, value) => (outer, name, value.display) := by
  induction members with
  | nil => simp [settings]
  | cons e members ih =>
    obtain ⟨name, value⟩ := e
    rw [List.any_cons, Bool.or_eq_true, not_or] at hplain
    cases value with
    | table inner => simp [Toml.isTable] at hplain
    | _ => simp [settings, areaOf, houter, ih hplain.2]

theorem below_ne_empty {name : String} (h : Toml.IsPart name) : below outer name ≠ "" := by
  unfold below
  split
  case isTrue => exact h.1
  case isFalse => simp [String.append_eq_empty_iff]

/-- Making areas of tables reads like setting their keys one by one. -/
theorem flatten_agrees (h : Toml.Every Toml.HasParts members) (t : SettingsTable) :
    Agrees (flatten outer members t) (putAll (settings outer members) t) := by
  induction outer, members using settings.induct generalizing t with
  | case1 outer => intro area key; simp [flatten, settings, putAll]
  | case2 outer name inner members ihinner ih =>
    obtain ⟨hname, hrest⟩ := h.hasParts_cons
    have hinner := h.inner List.mem_cons_self
    have hchange : Agrees (if inner.any (·.2.isTable) then flatten (below outer name) inner t
        else inner.foldl (fun t (key, value) => t.put (below outer name) key value.display)
          (t.touch (below outer name))) (putAll (settings (below outer name) inner) t) := by
      split
      case isTrue => exact ihinner hinner t
      case isFalse hplain =>
        rw [settings_plain (below_ne_empty hname) hplain]
        have htouch : Agrees (t.touch (below outer name)) t := get?_touch t _
        have hput := htouch.putAll
          (inner.map fun (key, value) => (below outer name, key, value.display))
        simpa [putAll, List.foldl_map] using hput
    intro area key
    rw [flatten, settings, putAll, List.foldl_append]
    exact (ih hrest _ area key).trans (hchange.putAll _ area key)
  | case3 outer name value members hvalue ih =>
    obtain ⟨-, hrest⟩ := h.hasParts_cons
    intro area key
    rw [flatten, settings]
    · exact ih hrest _ area key
    all_goals exact hvalue

/-- The settings that a table makes are those of its tree, in the areas of their paths. -/
theorem mem_settings_iff (h : Toml.Every Toml.Distinct members) :
    (area, key, text) ∈ settings outer members ↔
      ∃ path, areaOf (path.foldl below outer) = area ∧
        Toml.setting? key path members = some text := by
  induction outer, members using settings.induct with
  | case1 outer => simp [settings]
  | case2 outer name inner members ihinner ih =>
    obtain ⟨hnew, hrest⟩ := h.distinct_cons
    rw [settings, List.mem_append, ihinner (h.inner List.mem_cons_self), ih hrest]
    simp only [Toml.setting?_cons_iff hnew, Toml.text?, Toml.members]
    constructor
    · rintro (⟨path, harea, hpath⟩ | ⟨path, harea, hpath⟩)
      · exact ⟨name :: path, harea, .inr (.inl ⟨path, rfl, hpath⟩)⟩
      · exact ⟨path, harea, .inr (.inr hpath)⟩
    · rintro ⟨path, harea, ⟨-, -, hnone⟩ | ⟨rest, rfl, hpath⟩ | hpath⟩
      · cases hnone
      · exact .inl ⟨rest, harea, hpath⟩
      · exact .inr ⟨path, harea, hpath⟩
  | case3 outer name value members hvalue ih =>
    obtain ⟨hnew, hrest⟩ := h.distinct_cons
    rw [settings, List.mem_cons, ih hrest]
    swap
    · exact hvalue
    simp only [Toml.setting?_cons_iff hnew, Toml.text?_of_not_table hvalue,
      Toml.members_of_not_table hvalue, Toml.setting?_no_members]
    constructor
    · rintro (heq | ⟨path, harea, hpath⟩)
      · obtain ⟨rfl, rfl, rfl⟩ := Prod.mk.injEq .. ▸ heq
        exact ⟨[], rfl, .inl ⟨rfl, rfl, rfl⟩⟩
      · exact ⟨path, harea, .inr (.inr hpath)⟩
    · rintro ⟨path, harea, ⟨rfl, rfl, htext⟩ | ⟨rest, -, hnone⟩ | hpath⟩
      · subst harea
        obtain rfl := Option.some.inj htext
        exact .inl rfl
      · cases hnone
      · exact .inr ⟨path, harea, hpath⟩

/-! ## Areas as paths -/

/-- The names that dots join to an area. -/
def pathOf (area : String) : List String := (area.toList.splitOn '.').map String.ofList

theorem pathOf_ne_nil (area : String) : pathOf area ≠ [] := by
  simp [pathOf, List.splitOn_ne_nil]

theorem pathOf_inj {area area' : String} (h : pathOf area = pathOf area') : area = area' := by
  have hsplit : area.toList.splitOn '.' = area'.toList.splitOn '.' :=
    List.map_injective_iff.mpr (fun _ _ => String.ofList_injective) h
  have hjoin := congrArg (['.'].intercalate ·) hsplit
  simp only [List.intercalate_splitOn] at hjoin
  exact String.toList_injective hjoin

theorem pathOf_part {name : String} (h : Toml.IsPart name) : pathOf name = [name] := by
  simp [pathOf, List.splitOn_eq_singleton h.2]

/-- A name below an area comes last on its path. -/
theorem pathOf_below {name : String} (houter : outer ≠ "") (h : Toml.IsPart name) :
    pathOf (below outer name) = pathOf outer ++ [name] := by
  have hlist : (below outer name).toList = outer.toList ++ '.' :: name.toList := by
    simp [below, houter]
  have hsplit : (outer.toList ++ '.' :: name.toList).splitOn '.' =
      outer.toList.splitOn '.' ++ name.toList.splitOn '.' := by
    simp only [List.splitOn_eq_splitOnP]
    exact List.splitOnP_append_cons _ _ (by decide)
  rw [pathOf, hlist, hsplit, List.map_append]
  exact congrArg (pathOf outer ++ ·) (pathOf_part h)

theorem pathOf_foldl_below {path : List String} (houter : outer ≠ "")
    (h : ∀ name ∈ path, Toml.IsPart name) :
    pathOf (path.foldl below outer) = pathOf outer ++ path ∧ path.foldl below outer ≠ "" := by
  induction path generalizing outer with
  | nil => simpa using houter
  | cons name path ih =>
    obtain ⟨hname, hrest⟩ := List.forall_mem_cons.mp h
    have hbelow : below outer name ≠ "" := below_ne_empty hname
    have hpath := ih hbelow hrest
    rw [List.foldl_cons]
    rw [pathOf_below houter hname, List.append_assoc, List.singleton_append] at hpath
    exact hpath

/-- Tables within tables have the areas of their paths, and values outside of tables have `base`. -/
theorem areaOf_eq_iff {path : List String} (h : ∀ name ∈ path, Toml.IsPart name) :
    areaOf (path.foldl below "") = area ↔
      (path = [] ∧ area = "base") ∨ path = pathOf area := by
  cases path with
  | nil =>
    have hne := (pathOf_ne_nil area).symm
    simp [areaOf, hne, @eq_comm _ "base"]
  | cons name path =>
    obtain ⟨hname, hrest⟩ := List.forall_mem_cons.mp h
    have hfirst : below "" name = name := by simp [below]
    obtain ⟨hpath, hne⟩ := pathOf_foldl_below hname.1 hrest
    rw [pathOf_part hname, List.singleton_append] at hpath
    have harea : areaOf (path.foldl below name) = path.foldl below name := by simp [areaOf, hne]
    rw [List.foldl_cons, hfirst, harea]
    simp only [reduceCtorEq, false_and, false_or]
    constructor
    · rintro rfl
      exact hpath.symm
    · intro heq
      exact pathOf_inj (hpath.trans heq)

/-! ## Reading settings -/

/-- The text of a key in an area is that of its value at the path of the area; the area `base` has
the values outside of tables too. -/
theorem get?_flatten_iff (hdistinct : Toml.Every Toml.Distinct members)
    (hparts : Toml.Every Toml.HasParts members)
    (hbase : Toml.setting? key [] members = none ∨ Toml.setting? key ["base"] members = none) :
    (flatten "" members []).get? area key = some text ↔
      (area = "base" ∧ Toml.setting? key [] members = some text) ∨
        Toml.setting? key (pathOf area) members = some text := by
  have hmem : ∀ text, (area, key, text) ∈ settings "" members ↔
      (area = "base" ∧ Toml.setting? key [] members = some text) ∨
        Toml.setting? key (pathOf area) members = some text := by
    intro text
    rw [mem_settings_iff hdistinct]
    constructor
    · rintro ⟨path, harea, hpath⟩
      obtain ⟨rfl, hbase⟩ | rfl := (areaOf_eq_iff (Toml.isPart_of_setting? hparts hpath)).mp harea
      · exact .inl ⟨hbase, hpath⟩
      · exact .inr hpath
    · rintro (⟨harea, hpath⟩ | hpath)
      · exact ⟨[], (areaOf_eq_iff (Toml.isPart_of_setting? hparts hpath)).mpr (.inl ⟨rfl, harea⟩),
          hpath⟩
      · exact ⟨pathOf area, (areaOf_eq_iff (Toml.isPart_of_setting? hparts hpath)).mpr (.inr rfl),
          hpath⟩
  -- No two settings are of one key in one area, so none takes the place of another.
  have honly : ∀ text other, (area, key, text) ∈ settings "" members →
      (area, key, other) ∈ settings "" members → other = text := by
    intro text other htext hother
    rw [hmem] at htext hother
    have hpath : pathOf "base" = ["base"] := by decide
    grind
  rw [flatten_agrees hparts [] area key, ← hmem]
  constructor
  · intro hget
    by_cases hsome : ∃ other, (area, key, other) ∈ settings "" members
    · obtain ⟨other, hother⟩ := hsome
      have hkept := get?_putAll_of_mem (t := []) hother fun text h => honly other text hother h
      obtain rfl := Option.some.inj (hkept.symm.trans hget)
      exact hother
    · rw [get?_putAll_of_not_mem (not_exists.mp hsome)] at hget
      cases hget
  · exact fun h => get?_putAll_of_mem h fun other => honly text other h

/-- The answer for a key in an area, with or without a text. -/
theorem get?_flatten (hdistinct : Toml.Every Toml.Distinct members)
    (hparts : Toml.Every Toml.HasParts members)
    (hbase : Toml.setting? key [] members = none ∨ Toml.setting? key ["base"] members = none) :
    (flatten "" members []).get? area key = (Toml.setting? key (pathOf area) members).or
      (if area = "base" then Toml.setting? key [] members else none) := by
  refine Option.ext fun text => ?_
  rw [get?_flatten_iff hdistinct hparts hbase, Option.or_eq_some_iff]
  by_cases harea : area = "base"
  · subst harea
    rw [show pathOf "base" = ["base"] by decide]
    obtain h | h := hbase <;> simp [h]
  · simp [harea]

end SettingsTable

namespace Settings

variable {members : List (String × Toml)}

/-- The settings that a file has are areas made of the tables of a tree, which has no name twice in
a table. -/
theorem exists_tree_of_load {tree : FileTree} {path : String} {s : Settings}
    (h : load tree path = .ok s) :
    ∃ members, Toml.Every Toml.Distinct members ∧
      s = { table := SettingsTable.flatten "" members [], file := some path } := by
  unfold load at h
  split at h
  · cases h
  · split at h
    · cases h
    · obtain rfl := Except.ok.inj h
      obtain ⟨members, rfl, hdistinct⟩ := Toml.distinct_of_parse ‹_›
      exact ⟨members, hdistinct, rfl⟩

open SettingsTable in
/-- Making areas of tables loses no setting: with no selected area, a key has the text of the value
at the path of its area, or else that of the value outside of tables or in the table `base`. -/
theorem value?_flatten (hdistinct : Toml.Every Toml.Distinct members)
    (hparts : Toml.Every Toml.HasParts members)
    (hbase : ∀ key, Toml.setting? key [] members = none ∨ Toml.setting? key ["base"] members = none)
    (file : Option String) (area key : String) :
    ({ table := flatten "" members [], file } : Settings).value? area key =
      ((Toml.setting? key (pathOf area) members).or (Toml.setting? key [] members)).or
        (Toml.setting? key ["base"] members) := by
  have hpath : pathOf "base" = ["base"] := by decide
  have hget (area : String) : (flatten "" members []).get? area key =
      (Toml.setting? key (pathOf area) members).or
        (if area = "base" then Toml.setting? key [] members else none) :=
    get?_flatten hdistinct hparts (hbase key)
  have hareas : ({ table := flatten "" members [], file } : Settings).value? area key =
      ((flatten "" members []).get? area key).or ((flatten "" members []).get? "base" key) := by
    simp [value?, Option.orElse_eq_or]
  rw [hareas, hget area, hget "base", hpath, if_pos rfl]
  by_cases harea : area = "base"
  · subst harea
    rw [hpath, if_pos rfl, Option.or_self]
    obtain h | h := hbase key <;> simp [h]
  · rw [if_neg harea, Option.or_none, Option.or_assoc]
    obtain h | h := hbase key <;> simp [h]

/-- Values outside of tables, a table `base`, and a table with a value and a table of its own. -/
def nestedTables : List (String × Toml) :=
  [("base", .table [("workers", .int 3)]), ("log-level", .str "debug"),
    ("verifier", .table [("ci", .table [("workers", .int 2)]), ("quiet", .bool true)])]

theorem every_nestedTables {p : List (String × Toml) → Prop} (houter : p nestedTables)
    (hbase : p [("workers", .int 3)]) (hci : p [("workers", .int 2)])
    (hverifier : p [("ci", .table [("workers", .int 2)]), ("quiet", .bool true)]) :
    Toml.Every p nestedTables := by
  refine .intro houter fun name inner hmem => ?_
  simp only [nestedTables, List.mem_cons, Prod.mk.injEq, Toml.table.injEq, reduceCtorEq, and_false,
    List.not_mem_nil, false_or, or_false] at hmem
  obtain ⟨-, rfl⟩ | ⟨-, rfl⟩ := hmem
  · exact .intro hbase (by simp)
  · refine .intro hverifier fun name inner hmem => ?_
    simp only [List.mem_cons, Prod.mk.injEq, Toml.table.injEq, reduceCtorEq, and_false,
      List.not_mem_nil, or_false] at hmem
    obtain ⟨-, rfl⟩ := hmem
    exact .intro hci (by simp)

theorem value?_flatten_nested :
    let s : Settings := { table := SettingsTable.flatten "" nestedTables [] }
    s.value? "verifier.ci" "workers" = some "2" ∧ s.value? "verifier" "quiet" = some "true" ∧
      s.value? "verifier" "workers" = some "3" ∧ s.value? "verifier" "log-level" = some "debug" ∧
      s.value? "verifier" "color" = none := by
  have h := value?_flatten (every_nestedTables (by decide) (by decide) (by decide) (by decide))
    (every_nestedTables (by decide) (by decide) (by decide) (by decide))
    (fun key => by
      by_cases hkey : key = "log-level"
      · exact .inr (by rw [hkey]; rfl)
      · refine .inl ?_
        simp only [nestedTables, Toml.setting?, lookup_cons_ite, if_neg hkey]
        split_ifs <;> rfl) none
  simp only [h]
  decide

end Settings
end Linkage
