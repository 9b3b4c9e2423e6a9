import Linkage.Proofs.Host.Grammar
import Linkage.Proofs.Host.Version
import Mathlib.Tactic

/-! Bounds that end with the mark for any number. Of the version that is compared with one only so
many components matter as stand before the mark. -/
namespace Linkage

namespace VersionPart

/-- The code of a number is not that of the mark for any number. -/
def Fits : VersionPart → Prop
  | .number n => n < anyCode
  | .any => True

theorem Fits.code_le {p : VersionPart} (h : p.Fits) : p.code ≤ anyCode := by
  cases p with
  | number n => exact Nat.le_of_lt h
  | any => exact Nat.le_refl anyCode

theorem Fits.code_lt {p : VersionPart} (h : p.Fits) (hp : p ≠ .any) : p.code < anyCode := by
  cases p with
  | number n => exact h
  | any => exact absurd rfl hp

theorem compare_eq_lt_iff {p q : VersionPart} (hp : p.Fits) (hq : q.Fits) :
    p.compare q = .lt ↔ p.code < q.code := by
  cases p with
  | number m =>
    cases q with
    | number n => exact Nat.compare_eq_lt
    | any => exact ⟨fun _ => hp, fun _ => rfl⟩
  | any =>
    have hle : q.code ≤ anyCode := hq.code_le
    have hno : ¬anyCode < q.code := by omega
    cases q with
    | number n => exact ⟨nofun, fun h => absurd h hno⟩
    | any => exact ⟨nofun, fun h => absurd h hno⟩

theorem code_inj {p q : VersionPart} (hp : p.Fits) (hq : q.Fits) : p.code = q.code ↔ p = q := by
  constructor
  · intro h
    cases p with
    | number m =>
      cases q with
      | number n => exact congrArg number h
      | any => exact absurd h (Nat.ne_of_lt hp)
    | any =>
      cases q with
      | number n => exact absurd h.symm (Nat.ne_of_lt hq)
      | any => rfl
  · exact congrArg code

end VersionPart

namespace HostVersion

/-- One list of numbers stands in front of another in the lexicographic order. -/
def Precedes (xs ys : List Nat) : Prop := List.Lex (· < ·) xs ys

theorem not_precedes_nil (xs : List Nat) : ¬Precedes xs [] := List.not_lex_nil

theorem nil_precedes_cons (x : Nat) (xs : List Nat) : Precedes [] (x :: xs) := List.Lex.nil

theorem precedes_cons_iff {x y : Nat} {xs ys : List Nat} :
    Precedes (x :: xs) (y :: ys) ↔ x < y ∨ x = y ∧ Precedes xs ys := List.cons_lex_cons_iff

theorem precedes_or_eq_iff {xs ys : List Nat} :
    (Precedes xs ys ∨ xs = ys) ↔ ¬Precedes ys xs := by
  induction xs generalizing ys with
  | nil =>
    cases ys with
    | nil => exact iff_of_true (.inr rfl) (not_precedes_nil [])
    | cons y ys => exact iff_of_true (.inl (nil_precedes_cons y ys)) (not_precedes_nil _)
  | cons x xs ih =>
    cases ys with
    | nil =>
      refine iff_of_false ?_ fun h => h (nil_precedes_cons x xs)
      rintro (h | h)
      · exact not_precedes_nil _ h
      · cases h
    | cons y ys =>
      rw [precedes_cons_iff, precedes_cons_iff, List.cons.injEq]
      rcases Nat.lt_trichotomy x y with hxy | rfl | hxy
      · exact iff_of_true (.inl (.inl hxy)) (by omega)
      · have hrest : (Precedes xs ys ∨ xs = ys) ↔ ¬Precedes ys xs := ih
        simp only [Nat.lt_irrefl, true_and, false_or]
        exact hrest
      · exact iff_of_false (by omega) fun h => h (.inl hxy)

/-- What a list has beyond as many numbers as stand in front of `top` does not matter, as `top` is not
exceeded in it and stands at its end only. -/
theorem append_top_precedes_iff {top : Nat} {xs p : List Nat} (hle : ∀ x ∈ xs, x ≤ top)
    (hlt : ∀ x ∈ xs.dropLast, x < top) :
    Precedes (p ++ [top]) xs ↔ Precedes p (xs.take p.length) := by
  induction p generalizing xs with
  | nil =>
    refine iff_of_false ?_ (not_precedes_nil [])
    match xs with
    | [] => exact not_precedes_nil _
    | [x] =>
      have hx : x ≤ top := hle x List.mem_cons_self
      intro h
      rcases precedes_cons_iff.mp h with h | ⟨-, h⟩
      · omega
      · exact not_precedes_nil _ h
    | x :: y :: xs =>
      have hx : x < top := hlt x List.mem_cons_self
      intro h
      rcases precedes_cons_iff.mp h with h | ⟨h, -⟩
      · omega
      · omega
  | cons a p ih =>
    cases xs with
    | nil => exact iff_of_false (not_precedes_nil _) (not_precedes_nil _)
    | cons x xs =>
      have htail : ∀ y ∈ xs.dropLast, y < top := by
        cases xs with
        | nil => exact fun y hy => absurd hy List.not_mem_nil
        | cons y ys => exact fun z hz => hlt z (List.mem_cons_of_mem x hz)
      have hrest := ih (fun y hy => hle y (List.mem_cons_of_mem x hy)) htail
      simp only [List.cons_append, List.length_cons, List.take_succ_cons, precedes_cons_iff]
      rw [hrest]

theorem compareLex_eq_lt_iff {ps qs : List VersionPart} (hps : ∀ p ∈ ps, p.Fits)
    (hqs : ∀ q ∈ qs, q.Fits) :
    List.compareLex VersionPart.compare ps qs = .lt ↔
      Precedes (ps.map VersionPart.code) (qs.map VersionPart.code) := by
  induction ps generalizing qs with
  | nil =>
    cases qs with
    | nil => exact ⟨nofun, fun h => absurd h (not_precedes_nil _)⟩
    | cons q qs => exact ⟨fun _ => nil_precedes_cons _ _, fun _ => rfl⟩
  | cons p ps ih =>
    cases qs with
    | nil => exact ⟨nofun, fun h => absurd h (not_precedes_nil _)⟩
    | cons q qs =>
      have hp : p.Fits := hps p List.mem_cons_self
      have hq : q.Fits := hqs q List.mem_cons_self
      have hrest := ih (fun p' hp' => hps p' (List.mem_cons_of_mem p hp'))
        (fun q' hq' => hqs q' (List.mem_cons_of_mem q hq'))
      have heq : p.compare q = .eq ↔ p = q := Std.LawfulEqCmp.compare_eq_iff_eq
      rw [List.compareLex_cons_cons, Ordering.then_eq_lt, List.map_cons, List.map_cons,
        precedes_cons_iff, hrest, VersionPart.compare_eq_lt_iff hp hq, heq,
        VersionPart.code_inj hp hq]

/-! ## Versions that were read -/

theorem WritesParts.fits {text : List Char} {parts : List VersionPart}
    (h : WritesParts text parts) : ∀ p ∈ parts, p.Fits := by
  induction h with
  | number _ hlt =>
    intro p hp
    obtain rfl := List.mem_singleton.mp hp
    exact hlt
  | star =>
    intro p hp
    obtain rfl := List.mem_singleton.mp hp
    trivial
  | snapshot =>
    intro p hp
    obtain rfl := List.mem_singleton.mp hp
    trivial
  | dot _ hlt _ ih =>
    intro p hp
    rcases List.mem_cons.mp hp with rfl | hp
    · exact hlt
    · exact ih p hp

theorem WritesParts.any_last {text : List Char} {parts : List VersionPart}
    (h : WritesParts text parts) : .any ∉ parts.dropLast := by
  induction h with
  | number => exact List.not_mem_nil
  | star => exact List.not_mem_nil
  | snapshot => exact List.not_mem_nil
  | @dot text more n parts _ _ hmore ih =>
    have hne : parts ≠ [] := by
      cases hmore <;> exact List.cons_ne_nil _ _
    rw [List.dropLast_cons_of_ne_nil hne]
    intro hany
    rcases List.mem_cons.mp hany with hnumber | hany
    · cases hnumber
    · exact ih hany

theorem exists_writesParts_of_parse {text : String} {v : HostVersion} (h : parse text = .ok v) :
    ∃ tail, WritesParts tail v.parts := by
  obtain ⟨-, core, -, -, -, -, tail, -, -, htail⟩ := parse_eq_ok_iff.mp h
  exact ⟨tail, htail⟩

theorem fits_of_parse {text : String} {v : HostVersion} (h : parse text = .ok v) :
    ∀ p ∈ v.parts, p.Fits := by
  obtain ⟨tail, htail⟩ := exists_writesParts_of_parse h
  exact htail.fits

theorem component_le {text : String} {v : HostVersion} (h : parse text = .ok v) :
    ∀ x ∈ v.components, x ≤ VersionPart.anyCode := by
  intro x hx
  obtain ⟨p, hp, rfl⟩ := List.mem_map.mp hx
  exact (fits_of_parse h p hp).code_le

/-- Only the last component can be that of the mark for any number. -/
theorem component_lt {text : String} {v : HostVersion} (h : parse text = .ok v) :
    ∀ x ∈ v.components.dropLast, x < VersionPart.anyCode := by
  obtain ⟨tail, htail⟩ := exists_writesParts_of_parse h
  intro x hx
  rw [components, ← List.map_dropLast] at hx
  obtain ⟨p, hp, rfl⟩ := List.mem_map.mp hx
  have hany : p ≠ .any := by
    rintro rfl
    exact htail.any_last hp
  exact (fits_of_parse h p (List.mem_of_mem_dropLast hp)).code_lt hany

theorem le_iff {v w : HostVersion} (hv : ∀ p ∈ v.parts, p.Fits) (hw : ∀ p ∈ w.parts, p.Fits) :
    v.le w = true ↔ Precedes v.components w.components ∨ v.components = w.components := by
  have hgt : v.compare w = .gt ↔ w.compare v = .lt := Std.OrientedCmp.gt_iff_lt
  have hlt : w.compare v = .lt ↔ Precedes w.components v.components :=
    compareLex_eq_lt_iff hw hv
  rw [precedes_or_eq_iff, ← hlt, ← hgt, le, bne_iff_ne]

/-- A bound with the mark for any number at its end cuts at what stands in front of the mark: a version
is within it from above if so many first components of the version are at most these, or all that it has
if it has fewer, and within it from below if they are greater, or if the version is the bound. -/
theorem isWithin_wildcard {text boundText : String} {v bound : HostVersion} {p : List Nat}
    (hv : parse text = .ok v) (hbound : parse boundText = .ok bound)
    (hany : bound.components = p ++ [VersionPart.anyCode]) :
    (v.isWithin none (some bound) = true ↔
        Precedes (v.components.take p.length) p ∨ v.components.take p.length = p)
      ∧ (v.isWithin (some bound) none = true ↔
        v.components = bound.components ∨ Precedes p (v.components.take p.length)) := by
  have hupper : v.isWithin none (some bound) = v.le bound := rfl
  have hlower : v.isWithin (some bound) none = bound.le v := Bool.and_true _
  have hle := component_le hv
  have hlt := component_lt hv
  rw [hupper, hlower, le_iff (fits_of_parse hv) (fits_of_parse hbound),
    le_iff (fits_of_parse hbound) (fits_of_parse hv), hany]
  constructor
  · rw [precedes_or_eq_iff, append_top_precedes_iff hle hlt, precedes_or_eq_iff]
  · rw [append_top_precedes_iff hle hlt, or_comm, eq_comm]

/-- Longer versions, shorter ones and the bound itself are within a bound for all that begins alike. -/
theorem isWithin_wildcard_branch :
    parse "146.999.1" = .ok ⟨none, [.number 146, .number 999, .number 1]⟩
      ∧ parse "146.*" = .ok ⟨none, [.number 146, .any]⟩
      ∧ isWithin ⟨none, [.number 146, .number 999, .number 1]⟩ none
          (some ⟨none, [.number 146, .any]⟩) = true := by
  have hread : parse "146.999.1" = .ok ⟨none, [.number 146, .number 999, .number 1]⟩ := by decide
  have hbound : parse "146.*" = .ok ⟨none, [.number 146, .any]⟩ := by decide
  have hwithin := (isWithin_wildcard (p := [146]) hread hbound rfl).1
  exact ⟨hread, hbound, hwithin.mpr (.inr rfl)⟩

end HostVersion

end Linkage
