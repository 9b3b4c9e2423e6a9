import Linkage.Proofs.Data.Latest
import Linkage.Proofs.Host.Version
import Linkage.Verification.Results
import Mathlib.Data.String.Basic

/-! Which reports are kept: of those on one plugin and one host the one that came last. The order in
which reports come in matters where two that differ are on one plugin and one host, and only there. -/
namespace Linkage

/-- What a report is on. Hosts that differ in their product codes alone are one. -/
def Report.subject (r : Report) : Coordinate × List VersionPart := (r.plugin, r.host.parts)

namespace Results

instance : Std.TransCmp compare := by
  have hhost : Std.TransCmp fun r s : Report => r.host.compare s.host :=
    { eq_swap := Std.OrientedCmp.eq_swap, isLE_trans := Std.TransCmp.isLE_trans }
  change Std.TransCmp (compareLex (compareOn fun r : Report => r.plugin.id)
    (compareLex (compareOn fun r => r.plugin.version) fun r s => r.host.compare s.host))
  infer_instance

theorem compare_eq_iff {r s : Report} : compare r s = .eq ↔ r.subject = s.subject := by
  have hstring (a b : String) : compareOfLessAndEq a b = .eq ↔ a = b := by
    have h : Std.LawfulEqCmp (Ord.compare : String → String → Ordering) := inferInstance
    exact h.compare_eq_iff_eq
  obtain ⟨⟨id, version⟩, host, _⟩ := r
  obtain ⟨⟨id', version'⟩, host', _⟩ := s
  simp only [compare, Report.subject, Ordering.then_eq_eq, hstring, HostVersion.compare_eq_iff,
    Prod.mk.injEq, Coordinate.mk.injEq, and_assoc]

/-- The subject of one report stands in front of that of another. -/
def Before (r s : Report) : Prop := compare r s = .lt

theorem Before.trans {r s t : Report} (h : Before r s) (h' : Before s t) : Before r t :=
  Std.TransCmp.lt_trans h h'

theorem before_of_gt {r s : Report} (h : compare r s = .gt) : Before s r :=
  Std.OrientedCmp.gt_iff_lt.mp h

theorem Before.subject_ne {r s : Report} (h : Before r s) : r.subject ≠ s.subject := by
  intro heq
  have hlt : compare r s = .lt := h
  rw [compare_eq_iff.mpr heq] at hlt
  cases hlt

theorem Before.congr {r s t : Report} (h : Before s t) (heq : r.subject = s.subject) :
    Before r t :=
  (Std.TransCmp.congr_left (compare_eq_iff.mpr heq)).trans h

/-- In its place a report takes the one on the same subject away, and nothing else. -/
theorem mem_insert {r : Report} {rs : List Report} (h : rs.Pairwise Before) {s : Report} :
    s ∈ insert r rs ↔ s = r ∨ s ∈ rs ∧ s.subject ≠ r.subject := by
  induction rs with
  | nil => simp [insert]
  | cons t ts ih =>
    obtain ⟨ht, hts⟩ := List.pairwise_cons.mp h
    unfold insert
    split
    · next hlt =>
      have hfront : ∀ s ∈ t :: ts, s.subject ≠ r.subject := by
        intro s hs
        rcases List.mem_cons.mp hs with rfl | hs
        · exact (Before.subject_ne hlt).symm
        · exact (Before.trans hlt (ht s hs)).subject_ne.symm
      rw [List.mem_cons, and_iff_left_of_imp (hfront s)]
    · next heq =>
      have hsame := compare_eq_iff.mp heq
      have hrest : ∀ s ∈ ts, s.subject ≠ r.subject := fun s hs =>
        ((ht s hs).congr hsame).subject_ne.symm
      rw [List.mem_cons, List.mem_cons, or_and_right, and_iff_left_of_imp (hrest s)]
      refine or_congr_right (or_iff_right ?_).symm
      rintro ⟨rfl, hne⟩
      exact hne hsame.symm
    · next hgt =>
      have hfirst : s = t → s.subject ≠ r.subject := by
        rintro rfl
        exact (before_of_gt hgt).subject_ne
      rw [List.mem_cons, List.mem_cons, ih hts, or_and_right, and_iff_left_of_imp hfirst]
      exact or_left_comm

theorem pairwise_insert {r : Report} {rs : List Report} (h : rs.Pairwise Before) :
    (insert r rs).Pairwise Before := by
  induction rs with
  | nil => exact List.pairwise_singleton _ r
  | cons t ts ih =>
    obtain ⟨ht, hts⟩ := List.pairwise_cons.mp h
    unfold insert
    split
    · next hlt =>
      refine List.pairwise_cons.mpr ⟨fun s hs => ?_, h⟩
      rcases List.mem_cons.mp hs with rfl | hs
      · exact hlt
      · exact Before.trans hlt (ht s hs)
    · next heq =>
      exact List.pairwise_cons.mpr ⟨fun s hs => (ht s hs).congr (compare_eq_iff.mp heq), hts⟩
    · next hgt =>
      refine List.pairwise_cons.mpr ⟨fun s hs => ?_, ih hts⟩
      rcases (mem_insert hts).mp hs with rfl | ⟨hs, -⟩
      · exact before_of_gt hgt
      · exact ht s hs

/-- No report that came in later is on the same subject. -/
def Latest (rs : List Report) (r : Report) : Prop :=
  ∃ front back, rs = front ++ r :: back ∧ ∀ s ∈ back, s.subject ≠ r.subject

/-- All reports on one subject are the same. -/
def Agreeing (rs : List Report) : Prop :=
  ∀ r ∈ rs, ∀ s ∈ rs, r.subject = s.subject → r = s

theorem latest_iff {rs : List Report} {r : Report} :
    Latest rs r ↔ LatestOf Report.subject rs r := Iff.rfl

theorem Latest.mem {rs : List Report} {r : Report} (h : Latest rs r) : r ∈ rs :=
  LatestOf.mem (latest_iff.mp h)

theorem latest_concat {rs : List Report} {r s : Report} :
    Latest (rs ++ [s]) r ↔ r = s ∨ Latest rs r ∧ r.subject ≠ s.subject :=
  latestOf_concat

theorem addAll_concat (kept : Results) (rs : List Report) (r : Report) :
    kept.addAll (rs ++ [r]) = (kept.addAll rs).add r :=
  List.foldl_concat add kept r rs

theorem pairwise_addAll (rs : List Report) : (addAll {} rs).reports.Pairwise Before := by
  induction rs using List.reverseRecOn with
  | nil => exact List.Pairwise.nil
  | append_singleton rs r ih =>
    rw [addAll_concat]
    exact pairwise_insert ih

theorem mem_addAll {rs : List Report} {r : Report} :
    r ∈ (addAll {} rs).reports ↔ Latest rs r := by
  induction rs using List.reverseRecOn with
  | nil => exact iff_of_false List.not_mem_nil (not_latestOf_nil r)
  | append_singleton rs s ih =>
    rw [addAll_concat, latest_concat, ← ih]
    exact mem_insert (pairwise_addAll rs)

/-- On each subject of a report there is a report that came last. -/
theorem exists_latest {rs : List Report} {r : Report} (h : r ∈ rs) :
    ∃ s, Latest rs s ∧ s.subject = r.subject :=
  exists_latestOf h

theorem subject_inj {rs : List Report} (h : rs.Pairwise Before) {r s : Report} (hr : r ∈ rs)
    (hs : s ∈ rs) (heq : r.subject = s.subject) : r = s := by
  have hnodup : (rs.map Report.subject).Nodup :=
    List.pairwise_map.mpr (h.imp Before.subject_ne)
  exact List.inj_on_of_nodup_map hnodup hr hs heq

theorem Latest.unique {rs : List Report} {r s : Report} (hr : Latest rs r) (hs : Latest rs s)
    (heq : r.subject = s.subject) : r = s :=
  subject_inj (pairwise_addAll rs) (mem_addAll.mpr hr) (mem_addAll.mpr hs) heq

/-- Reports in their places are known by which they are. -/
theorem eq_of_mem_iff {rs ss : List Report} (hrs : rs.Pairwise Before) (hss : ss.Pairwise Before)
    (h : ∀ r, r ∈ rs ↔ r ∈ ss) : rs = ss := by
  have hnodup {rs : List Report} (hrs : rs.Pairwise Before) : rs.Nodup :=
    hrs.imp fun hbefore heq => hbefore.subject_ne (congrArg Report.subject heq)
  have hperm : rs.Perm ss := (List.perm_ext_iff_of_nodup (hnodup hrs) (hnodup hss)).mpr h
  refine hperm.eq_of_pairwise (fun r s _ _ hrs hsr => ?_) hrs hss
  exact absurd rfl (Before.trans hrs hsr).subject_ne

theorem addAll_eq_iff {rs ss : List Report} :
    addAll {} rs = addAll {} ss ↔ ∀ r, Latest rs r ↔ Latest ss r := by
  constructor
  · intro h r
    rw [← mem_addAll, ← mem_addAll, h]
  · intro h
    refine congrArg Results.mk (eq_of_mem_iff (pairwise_addAll rs) (pairwise_addAll ss) fun r => ?_)
    exact mem_addAll.trans ((h r).trans mem_addAll.symm)

/-- A report that is added again changes nothing if it is the one that came last, and only then. -/
theorem add_addAll_eq_iff {rs : List Report} {r : Report} :
    (addAll {} rs).add r = addAll {} rs ↔ Latest rs r := by
  rw [← addAll_concat, addAll_eq_iff]
  constructor
  · intro h
    exact (h r).mp (latest_concat.mpr (Or.inl rfl))
  · intro hr s
    rw [latest_concat]
    constructor
    · rintro (rfl | ⟨hs, -⟩)
      · exact hr
      · exact hs
    · intro hs
      by_cases heq : s.subject = r.subject
      · exact Or.inl (hs.unique hr heq)
      · exact Or.inr ⟨hs, heq⟩

theorem Agreeing.latest_iff {rs : List Report} (h : Agreeing rs) {r : Report} :
    Latest rs r ↔ r ∈ rs := by
  refine ⟨Latest.mem, fun hr => ?_⟩
  obtain ⟨s, hs, heq⟩ := exists_latest hr
  rwa [← h s hs.mem r hr heq]

theorem agreeing_of_latest {rs : List Report} (h : ∀ r ∈ rs, Latest rs r) : Agreeing rs :=
  fun r hr s hs heq => (h r hr).unique (h s hs) heq

/-- Every report can be the last one to come in. -/
theorem exists_perm_latest {rs : List Report} {r : Report} (h : r ∈ rs) :
    ∃ ss, ss.Perm rs ∧ Latest ss r := by
  obtain ⟨front, back, rfl⟩ := List.append_of_mem h
  refine ⟨front ++ back ++ [r], ?_, latest_concat.mpr (Or.inl rfl)⟩
  rw [List.append_assoc]
  exact List.Perm.append_left front (List.perm_append_singleton r back)

theorem perm_addAll_iff {rs : List Report} :
    (∀ ss, ss.Perm rs → addAll {} ss = addAll {} rs) ↔ Agreeing rs := by
  constructor
  · intro h
    refine agreeing_of_latest fun r hr => ?_
    obtain ⟨ss, hperm, hlatest⟩ := exists_perm_latest hr
    exact (addAll_eq_iff.mp (h ss hperm) r).mp hlatest
  · intro h ss hperm
    have hss : Agreeing ss := fun r hr s hs => h r (hperm.subset hr) s (hperm.subset hs)
    refine addAll_eq_iff.mpr fun r => ?_
    rw [hss.latest_iff, h.latest_iff]
    exact hperm.mem_iff

/-- What is kept of some reports: in ascending order those that came last on their subjects, and one
on each subject. Other reports, or the same in another order, come to the same if they have the same
latest ones. So the order does not matter if, and only if, all reports on one subject are the same;
then, and only then, all of them can be added again without a change, while a single one can if it is
a latest one. -/
theorem addAll_keeps_latest (rs : List Report) :
    let kept := addAll {} rs
    kept.reports.Pairwise Before
      ∧ (∀ r, r ∈ kept.reports ↔ Latest rs r)
      ∧ (∀ subject, subject ∈ kept.reports.map Report.subject ↔ subject ∈ rs.map Report.subject)
      ∧ (∀ ss, addAll {} ss = kept ↔ ∀ r, Latest ss r ↔ Latest rs r)
      ∧ ((∀ ss, ss.Perm rs → addAll {} ss = kept) ↔ Agreeing rs)
      ∧ ((∀ r ∈ rs, kept.add r = kept) ↔ Agreeing rs)
      ∧ ∀ r, kept.add r = kept ↔ Latest rs r := by
  refine ⟨pairwise_addAll rs, fun _ => mem_addAll, fun subject => ?_, fun _ => addAll_eq_iff,
    perm_addAll_iff, ?_, fun _ => add_addAll_eq_iff⟩
  · simp only [List.mem_map, mem_addAll]
    constructor
    · rintro ⟨r, hr, rfl⟩
      exact ⟨r, hr.mem, rfl⟩
    · rintro ⟨r, hr, rfl⟩
      exact exists_latest hr
  · simp only [add_addAll_eq_iff]
    exact ⟨agreeing_of_latest, fun h r hr => h.latest_iff.mpr hr⟩

/-- Two reports on one build of a host in two products. -/
def onProduct (product : String) (verdict : Verdict) : Report where
  plugin := ⟨"p", "1"⟩
  host := ⟨some product, [.number 146, .number 1]⟩
  verdict

/-- Reports on two products of one build take each other's place: what is kept, and how many there
are of a kind, depends on which of them came last, and the earlier one changes it when it is added
again. -/
theorem addAll_not_commutative :
    let iu := onProduct "IU" (.notFound "gone")
    let ic := onProduct "IC" (.bad "broken")
    [ic, iu].Perm [iu, ic]
      ∧ (addAll {} [ic, iu]).reports ≠ (addAll {} [iu, ic]).reports
      ∧ (addAll {} [ic, iu]).count .bad ≠ (addAll {} [iu, ic]).count .bad
      ∧ iu ∈ [iu, ic]
      ∧ ((addAll {} [iu, ic]).add iu).reports ≠ (addAll {} [iu, ic]).reports := by
  have hkinds {rs ss : List Report}
      (h : rs.map (·.verdict.kind) ≠ ss.map (·.verdict.kind)) : rs ≠ ss := by
    rintro rfl
    exact h rfl
  exact ⟨List.Perm.swap _ _ _, hkinds (by decide), by decide, List.mem_cons_self,
    hkinds (by decide)⟩

end Results
end Linkage
