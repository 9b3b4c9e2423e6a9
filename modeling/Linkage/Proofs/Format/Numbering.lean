import Linkage.Proofs.Data.Loop
import Linkage.Proofs.Format.Answers

/-! Constants keep the numbers that the file gives them: the number of the next constant, which has 16
bits, and the slots that are filled go up together. -/
namespace Linkage.Format

open Loop (Ends Reaches)

/-- How many slots a constant takes. -/
def Constant.width (constant : Constant) : UInt16 := if constant.isWide then 2 else 1

theorem Constant.width_of_wide {constant : Constant} (h : constant.isWide = true) :
    constant.width.toNat = 2 := by
  rw [width, if_pos h]
  rfl

theorem Constant.width_of_narrow {constant : Constant} (h : constant.isWide = false) :
    constant.width.toNat = 1 := by
  rw [width, if_neg (by simp [h])]
  rfl

theorem Constant.width_pos (constant : Constant) : 0 < constant.width.toNat := by
  unfold width
  split <;> decide

theorem Constant.answers_read_usable (index : Nat) :
    Answers (Constant.read index) (· ≠ .unusable) := by
  refine .after fun tag => ?_
  split
  · refine .after fun length => .after fun bytes => ?_
    split
    · exact .pure nofun
    · exact .throw _
  all_goals first
    | exact .throw _
    | exact .after fun _ => .pure nofun
    | exact .after fun _ => .after fun _ => .pure nofun

/-! ## What stands at a number -/

/-- Where constants begin at `start`, the one that is numbered `i` begins at a cursor. -/
inductive EntryAt (start : Cursor) : (i : Nat) → Cursor → Prop
  | first : EntryAt start 1 start
  | next {i : Nat} {c last : Cursor} {constant : Constant} (front : EntryAt start i c)
      (hread : Constant.read i c = .ok (constant, last)) :
      EntryAt start (i + constant.width.toNat) last

theorem EntryAt.one_le {start c : Cursor} {i : Nat} (h : EntryAt start i c) : 1 ≤ i := by
  induction h with
  | first => exact Nat.le_refl 1
  | next _ _ ih => omega

/-- The constant that is read at a number. -/
def Numbered (start : Cursor) (i : Nat) (constant : Constant) : Prop :=
  ∃ c last, EntryAt start i c ∧ Constant.read i c = .ok (constant, last)

theorem Numbered.ne_unusable {start : Cursor} {i : Nat} {k : Constant} (h : Numbered start i k) :
    k ≠ .unusable := by
  obtain ⟨c, last, -, hread⟩ := h
  exact Constant.answers_read_usable i c k last hread

/-- What belongs in a slot: the constant of that number, or nothing behind a wide one. -/
inductive Belongs (start : Cursor) : (i : Nat) → Constant → Prop
  | zero : Belongs start 0 .unusable
  | constant {i : Nat} {k : Constant} (h : Numbered start i k) : Belongs start i k
  | second {i : Nat} {k : Constant} (h : Numbered start i k) (hwide : k.isWide = true) :
      Belongs start (i + 1) .unusable

theorem Belongs.numbered {start : Cursor} {i : Nat} {k : Constant} (h : Belongs start i k)
    (husable : k ≠ .unusable) : Numbered start i k := by
  cases h with
  | zero => exact absurd rfl husable
  | constant h => exact h
  | second h hwide => exact absurd rfl husable

theorem Belongs.behind_wide {start : Cursor} {i : Nat} (h : Belongs start i .unusable)
    (hi : 1 ≤ i) : ∃ j k, i = j + 1 ∧ Numbered start j k ∧ k.isWide = true := by
  cases h with
  | zero => omega
  | constant h => exact absurd rfl h.ne_unusable
  | second h hwide => exact ⟨_, _, rfl, h, hwide⟩

/-! ## The loop that fills the slots -/

/-- The sum of two 16-bit numbers, if it has 16 bits. -/
def checkedAdd (m n : UInt16) : Option UInt16 :=
  if m.toNat + n.toNat < UInt16.size then some (m + n) else none

/-- A sum that is also kept to a limit is exact. -/
theorem checkedAdd_filter_eq_some {m n limit sum : UInt16} :
    (checkedAdd m n).filter (· ≤ limit) = some sum
      ↔ sum.toNat = m.toNat + n.toNat ∧ sum ≤ limit := by
  unfold checkedAdd
  have hsum := sum.toNat_lt
  split
  · next hlt =>
    have hexact : (m + n).toNat = m.toNat + n.toNat := by
      rw [UInt16.toNat_add, Nat.mod_eq_of_lt hlt]
    rw [Option.filter_eq_some_iff, Option.some.injEq, decide_eq_true_eq]
    refine and_congr_left fun _ => ?_
    rw [← hexact, ← UInt16.toNat_inj, eq_comm]
  · next hlt =>
    simp only [Option.filter_none, reduceCtorEq, false_iff]
    rintro ⟨heq, -⟩
    exact hlt (heq ▸ hsum)

theorem checkedAdd_filter_eq_none {m n limit : UInt16} :
    (checkedAdd m n).filter (· ≤ limit) = none ↔ limit.toNat < m.toNat + n.toNat := by
  rw [← not_iff_not, ← ne_eq, ← Option.isSome_iff_ne_none, Option.isSome_iff_exists]
  simp only [checkedAdd_filter_eq_some, not_lt]
  constructor
  · rintro ⟨sum, heq, hle⟩
    exact heq ▸ UInt16.le_iff_toNat_le.mp hle
  · intro hle
    obtain ⟨sum, hsum⟩ : ∃ sum : UInt16, sum.toNat = m.toNat + n.toNat :=
      ⟨.ofNat _, UInt16.toNat_ofNat_of_lt' (hle.trans_lt limit.toNat_lt)⟩
    exact ⟨sum, hsum, UInt16.le_iff_toNat_le.mpr (hsum ▸ hle)⟩

/-- A pool as it is filled: the number of the constant that comes next, the slots so far, and what is
left to read. -/
structure Filling where
  index : UInt16
  slots : Array Constant
  cursor : Cursor

namespace Filling

def start (c : Cursor) : Filling := ⟨1, #[.unusable], c⟩

/-- A constant, and an unusable slot behind it if it is wide. -/
def fill (slots : Array Constant) (constant : Constant) : Array Constant :=
  if constant.isWide then (slots.push constant).push .unusable else slots.push constant

/-- Reads one constant and moves the number on, unless all slots are filled. -/
def turn (count : UInt16) (s : Filling) : Filling ⊕ Except Fault (Pool × Cursor) :=
  if s.index < count then
    match Constant.read s.index.toNat s.cursor with
    | .error fault => .inr (.error fault)
    | .ok (constant, cursor) =>
      match (checkedAdd s.index constant.width).filter (· ≤ count) with
      | none => .inr (.error (.badIndex s.index))
      | some index => .inl ⟨index, fill s.slots constant, cursor⟩
  else .inr (.ok (⟨s.slots⟩, s.cursor))

variable {count : UInt16} {s s' : Filling} {constant : Constant} {c last : Cursor}

/-- All that a turn that goes on does. -/
theorem turn_eq_inl : s.turn count = .inl s' ↔ s.index < count ∧ ∃ constant,
    Constant.read s.index.toNat s.cursor = .ok (constant, s'.cursor)
      ∧ s'.index.toNat = s.index.toNat + constant.width.toNat ∧ s'.index ≤ count
      ∧ s'.slots = fill s.slots constant := by
  obtain ⟨index', slots', cursor'⟩ := s'
  unfold turn
  by_cases hindex : s.index < count
  · rw [if_pos hindex, and_iff_right hindex]
    cases hread : Constant.read s.index.toNat s.cursor with
    | error fault => simp
    | ok read =>
      obtain ⟨constant, cursor⟩ := read
      cases hsum : (checkedAdd s.index constant.width).filter (· ≤ count) with
      | none =>
        have hover := checkedAdd_filter_eq_none.mp hsum
        simp only [hsum, reduceCtorEq, Except.ok.injEq, Prod.mk.injEq, false_iff]
        rintro ⟨k, ⟨rfl, -⟩, heq, hle, -⟩
        have := UInt16.le_iff_toNat_le.mp hle
        omega
      | some index =>
        obtain ⟨hexact, hle⟩ := checkedAdd_filter_eq_some.mp hsum
        simp only [hsum, Sum.inl.injEq, Filling.mk.injEq, Except.ok.injEq, Prod.mk.injEq]
        constructor
        · rintro ⟨rfl, rfl, rfl⟩
          exact ⟨constant, ⟨rfl, rfl⟩, hexact, hle, rfl⟩
        · rintro ⟨k, ⟨rfl, rfl⟩, heq, -, rfl⟩
          exact ⟨UInt16.toNat_inj.mp (hexact.trans heq.symm), rfl, rfl⟩
  · simp [hindex]

theorem turn_eq_ok {pool : Pool} :
    s.turn count = .inr (.ok (pool, last)) ↔ count ≤ s.index ∧ pool = ⟨s.slots⟩ ∧ last = s.cursor := by
  unfold turn
  by_cases hindex : s.index < count
  · rw [if_pos hindex]
    split
    · simp [hindex]
    · split <;> simp [hindex]
  · rw [if_neg hindex]
    simp [UInt16.not_lt.mp hindex, eq_comm]

theorem turn_of_fault {fault : Fault} (hindex : s.index < count)
    (hread : Constant.read s.index.toNat s.cursor = .error fault) :
    s.turn count = .inr (.error fault) := by
  rw [turn, if_pos hindex, hread]

/-- A constant that does not fit is refused. -/
theorem turn_of_overlong (hindex : s.index < count)
    (hread : Constant.read s.index.toNat s.cursor = .ok (constant, last))
    (hover : count.toNat < s.index.toNat + constant.width.toNat) :
    s.turn count = .inr (.error (.badIndex s.index)) := by
  rw [turn, if_pos hindex, hread]
  simp only [checkedAdd_filter_eq_none.mpr hover]

/-! ## What the loop keeps -/

theorem getElem?_fill_eq_some {slots : Array Constant} {i : Nat} {k : Constant} :
    (fill slots constant)[i]? = some k ↔ slots[i]? = some k
      ∨ i = slots.size ∧ k = constant
      ∨ i = slots.size + 1 ∧ constant.isWide = true ∧ k = .unusable := by
  unfold fill
  split
  · next hwide => grind
  · next hnarrow => grind

theorem size_fill (slots : Array Constant) (constant : Constant) :
    (fill slots constant).size = slots.size + constant.width.toNat := by
  unfold fill Constant.width
  split <;> simp

/-- Between two turns the number that comes next is the number of slots, what is left to read begins
with its constant, and each slot has what belongs there. -/
structure Aligned (first : Cursor) (count : UInt16) (s : Filling) : Prop where
  size : s.slots.size = s.index.toNat
  bound : s.index.toNat ≤ max count.toNat 1
  entry : EntryAt first s.index.toNat s.cursor
  slots : ∀ i k, s.slots[i]? = some k → Belongs first i k

theorem aligned_start (first : Cursor) (count : UInt16) : (start first).Aligned first count where
  size := rfl
  bound := le_max_right _ _
  entry := .first
  slots i k h := by
    obtain ⟨rfl, rfl⟩ : i = 0 ∧ k = .unusable := by
      rw [start, Array.getElem?_eq_some_iff] at h
      obtain ⟨hi, hk⟩ := h
      obtain rfl : i = 0 := by simpa using hi
      exact ⟨rfl, hk.symm⟩
    exact .zero

theorem Aligned.turn {first : Cursor} (h : s.Aligned first count)
    (hturn : s.turn count = .inl s') : s'.Aligned first count := by
  obtain ⟨hindex, constant, hread, hsum, hle, hslots⟩ := turn_eq_inl.mp hturn
  have hnumbered : Numbered first s.slots.size constant :=
    ⟨s.cursor, s'.cursor, h.size ▸ h.entry, h.size ▸ hread⟩
  refine ⟨?_, ?_, hsum ▸ h.entry.next hread, fun i k hk => ?_⟩
  · rw [hslots, size_fill, h.size, hsum]
  · exact (UInt16.le_iff_toNat_le.mp hle).trans (le_max_left _ _)
  · rw [hslots, getElem?_fill_eq_some] at hk
    rcases hk with hk | ⟨rfl, rfl⟩ | ⟨rfl, hwide, rfl⟩
    · exact h.slots i k hk
    · exact .constant hnumbered
    · exact .second hnumbered hwide

/-- A slot that is filled stays as it is. -/
theorem getElem?_of_reaches (h : Reaches (Filling.turn count) s s') {i : Nat} {k : Constant}
    (hk : s.slots[i]? = some k) : s'.slots[i]? = some k := by
  refine h.invariant (I := fun s => s.slots[i]? = some k) (fun s s' hs hturn => ?_) hk
  obtain ⟨-, constant, -, -, -, hslots⟩ := turn_eq_inl.mp hturn
  rw [hslots]
  exact getElem?_fill_eq_some.mpr (Or.inl hs)

/-- The loop comes to each number below the count at which a constant begins. -/
theorem exists_reaches_entry {first : Cursor} {i : Nat} (h : EntryAt first i c)
    (hi : i < count.toNat) :
    ∃ s, Reaches (Filling.turn count) (start first) s ∧ s.index.toNat = i ∧ s.cursor = c := by
  induction h with
  | first => exact ⟨start first, .refl _, rfl, rfl⟩
  | @next i c last constant _ hread ih =>
    obtain ⟨s, hreach, rfl, rfl⟩ := ih (by omega)
    obtain ⟨sum, hsum⟩ : ∃ sum : UInt16, sum.toNat = s.index.toNat + constant.width.toNat :=
      ⟨.ofNat _, UInt16.toNat_ofNat_of_lt' (hi.trans count.toNat_lt)⟩
    refine ⟨⟨sum, fill s.slots constant, last⟩, hreach.tail (turn_eq_inl.mpr ?_), hsum, rfl⟩
    refine ⟨UInt16.lt_iff_toNat_lt.mpr (by omega), constant, hread, hsum, ?_, rfl⟩
    exact UInt16.le_iff_toNat_le.mpr (hsum ▸ hi.le)

/-! ## The slots that are read -/

section
variable {free : Nat} {slots : Array Constant} {fault : Fault}

theorem readSlots_of_fault (hfree : 0 < free)
    (hread : Constant.read slots.size c = .error fault) :
    Pool.readSlots free slots c = .error fault := by
  match free with
  | 1 | free + 2 =>
    change (Constant.read slots.size c >>= _) = _
    rw [hread]
    rfl

/-- A constant that has room is put into its slots. -/
theorem readSlots_of_constant (hread : Constant.read slots.size c = .ok (constant, last))
    (hfits : constant.width.toNat ≤ free) :
    Pool.readSlots free slots c
      = Pool.readSlots (free - constant.width.toNat) (fill slots constant) last := by
  cases hwide : constant.isWide with
  | false =>
    have hfill : fill slots constant = slots.push constant := if_neg (by simp [hwide])
    rw [Constant.width_of_narrow hwide] at hfits ⊢
    match free with
    | 1 | free + 2 =>
      change (Constant.read slots.size c >>= _) = _
      rw [hread, hfill]
      change (if constant.isWide = true then _ else _ : Decoder _) last = _
      rw [hwide]
      rfl
  | true =>
    have hfill : fill slots constant = (slots.push constant).push .unusable := if_pos hwide
    rw [Constant.width_of_wide hwide] at hfits ⊢
    match free with
    | free + 2 =>
      change (Constant.read slots.size c >>= _) = _
      rw [hread, hfill]
      change (if constant.isWide = true then _ else _ : Decoder _) last = _
      rw [hwide]
      rfl

/-- The last slot has no room for a wide constant. -/
theorem readSlots_of_overlong (hread : Constant.read slots.size c = .ok (constant, last))
    (hfree : 0 < free) (hover : free < constant.width.toNat) :
    Pool.readSlots free slots c = .error (.badIndex (.ofNat slots.size)) := by
  cases hwide : constant.isWide with
  | false =>
    rw [Constant.width_of_narrow hwide] at hover
    omega
  | true =>
    rw [Constant.width_of_wide hwide] at hover
    obtain rfl : free = 1 := by omega
    change (Constant.read slots.size c >>= _) = _
    rw [hread]
    change (if constant.isWide = true then _ else _ : Decoder _) last = _
    rw [hwide]
    rfl

end

/-- The loop fills the slots that are read one by one. -/
theorem ends_readSlots (free : Nat) (s : Filling) (hsize : s.slots.size = s.index.toNat)
    (hfree : free = count.toNat - s.index.toNat) :
    Ends (Filling.turn count) s
      ((fun p => (⟨p.1⟩, p.2)) <$> Pool.readSlots free s.slots s.cursor) := by
  induction free using Nat.strong_induction_on generalizing s with
  | h free ih =>
    by_cases hindex : s.index < count
    · have hpos : 0 < free := by
        have := UInt16.lt_iff_toNat_lt.mp hindex
        omega
      cases hread : Constant.read s.slots.size s.cursor with
      | error fault =>
        rw [readSlots_of_fault hpos hread]
        exact .stop (turn_of_fault hindex (hsize ▸ hread))
      | ok read =>
        obtain ⟨constant, last⟩ := read
        by_cases hfits : constant.width.toNat ≤ free
        · obtain ⟨sum, hsum⟩ : ∃ sum : UInt16, sum.toNat = s.index.toNat + constant.width.toNat :=
            ⟨.ofNat _, UInt16.toNat_ofNat_of_lt' ((show _ ≤ _ by omega).trans_lt count.toNat_lt)⟩
          have hrest := ih (free - constant.width.toNat) (by have := constant.width_pos; omega)
            ⟨sum, fill s.slots constant, last⟩ (by rw [size_fill, hsize, hsum]) (by rw [hsum]; omega)
          rw [readSlots_of_constant hread hfits]
          refine .goOn (turn_eq_inl.mpr ⟨hindex, constant, hsize ▸ hread, hsum, ?_, rfl⟩) hrest
          exact UInt16.le_iff_toNat_le.mpr (by rw [hsum]; omega)
        · rw [readSlots_of_overlong hread hpos (by omega), hsize, UInt16.ofNat_toNat]
          exact .stop (turn_of_overlong hindex (hsize ▸ hread) (by omega))
    · have hle := UInt16.le_iff_toNat_le.mp (UInt16.not_lt.mp hindex)
      obtain rfl : free = 0 := by omega
      exact .stop (turn_eq_ok.mpr ⟨UInt16.not_lt.mp hindex, rfl, rfl⟩)

end Filling

namespace Pool

open Filling (turn)

variable {c first last : Cursor} {count : UInt16} {pool : Pool}

theorem ends_read (hcount : readU16 c = .ok (count, first)) :
    Ends (turn count) (.start first) (Pool.read c) := by
  have hread : Pool.read c
      = (fun p => (⟨p.1⟩, p.2)) <$> readSlots (count.toNat - 1) #[.unusable] first := by
    change (readU16 c >>= _) = _
    rw [hcount]
    rfl
  rw [hread]
  exact Filling.ends_readSlots (count.toNat - 1) (.start first) rfl rfl

theorem aligned_of_reaches {s : Filling} (h : Reaches (turn count) (.start first) s) :
    s.Aligned first count :=
  h.invariant (fun _ _ h hturn => Filling.Aligned.turn h hturn) (Filling.aligned_start first count)

theorem exists_last_of_ends {s : Filling} (h : Ends (turn count) s (.ok (pool, last))) :
    ∃ t, Reaches (turn count) s t ∧ count ≤ t.index ∧ pool = ⟨t.slots⟩ := by
  obtain ⟨t, hreach, hstop⟩ := h.exists_last
  obtain ⟨hend, hpool, -⟩ := Filling.turn_eq_ok.mp hstop
  exact ⟨t, hreach, hend, hpool⟩

theorem size_of_read (hcount : readU16 c = .ok (count, first))
    (hread : Pool.read c = .ok (pool, last)) : pool.size = max count.toNat 1 := by
  obtain ⟨s, hreach, hend, rfl⟩ := exists_last_of_ends (hread ▸ ends_read hcount)
  have haligned := aligned_of_reaches hreach
  have hsize : s.slots.size = s.index.toNat := haligned.size
  have hbound : s.index.toNat ≤ max count.toNat 1 := haligned.bound
  have hpos : 1 ≤ s.index.toNat := haligned.entry.one_le
  have hle := UInt16.le_iff_toNat_le.mp hend
  rw [size, hsize]
  omega

/-- A slot that was read has what belongs there. -/
theorem belongs_of_read (hcount : readU16 c = .ok (count, first))
    (hread : Pool.read c = .ok (pool, last)) {i : Nat} {k : Constant}
    (h : pool.slots[i]? = some k) : Belongs first i k := by
  obtain ⟨s, hreach, -, rfl⟩ := exists_last_of_ends (hread ▸ ends_read hcount)
  exact (aligned_of_reaches hreach).slots i k h

/-- A constant is in the slot of its number, and the slot behind a wide one is unusable. -/
theorem slots_of_numbered (hcount : readU16 c = .ok (count, first))
    (hread : Pool.read c = .ok (pool, last)) {i : Nat} {k : Constant} (hi : i < count.toNat)
    (h : Numbered first i k) :
    pool.slots[i]? = some k ∧ (k.isWide = true → pool.slots[i + 1]? = some .unusable) := by
  obtain ⟨before, after, hentry, hconstant⟩ := h
  obtain ⟨s, hreach, rfl, rfl⟩ := Filling.exists_reaches_entry hentry hi
  have hends : Ends (turn count) s (.ok (pool, last)) := hread ▸ (ends_read hcount).rest hreach
  have hsize : s.slots.size = s.index.toNat := (aligned_of_reaches hreach).size
  cases hends with
  | stop hstop =>
    obtain ⟨hend, -, -⟩ := Filling.turn_eq_ok.mp hstop
    exact absurd (UInt16.le_iff_toNat_le.mp hend) (Nat.not_le.mpr hi)
  | @goOn _ t _ hgo rest =>
    obtain ⟨-, k', hread', -, -, hslots⟩ := Filling.turn_eq_inl.mp hgo
    obtain ⟨rfl, -⟩ := Prod.mk.inj (Except.ok.inj (hread'.symm.trans hconstant))
    obtain ⟨last, hlast, -, rfl⟩ := exists_last_of_ends rest
    have hkept {j : Nat} {k : Constant} (hk : (Filling.fill s.slots k')[j]? = some k) :
        last.slots[j]? = some k := Filling.getElem?_of_reaches hlast (hslots ▸ hk)
    refine ⟨hkept (Filling.getElem?_fill_eq_some.mpr ?_), fun hwide =>
      hkept (Filling.getElem?_fill_eq_some.mpr ?_)⟩
    · exact Or.inr (Or.inl ⟨hsize.symm, rfl⟩)
    · exact Or.inr (Or.inr ⟨congrArg (· + 1) hsize.symm, hwide, rfl⟩)

theorem get_eq_ok_iff {i : UInt16} {k : Constant} :
    pool.get i = .ok k ↔ pool.slots[i.toNat]? = some k ∧ k ≠ .unusable := by
  constructor
  · intro h
    unfold get at h
    split at h <;> simp_all
  · rintro ⟨hslot, husable⟩
    exact get_of_holds hslot husable

theorem get_fails_iff {i : UInt16} : (∃ fault, pool.get i = .error fault) ↔
    ∀ k, pool.slots[i.toNat]? = some k → k = .unusable := by
  unfold get
  split <;> simp_all

/-- Only the numbers behind wide constants are no constant's. -/
theorem get_fails_iff_second (hcount : readU16 c = .ok (count, first))
    (hread : Pool.read c = .ok (pool, last)) {i : UInt16} (hone : 1 ≤ i) (hi : i < count) :
    (∃ fault, pool.get i = .error fault)
      ↔ ∃ j k, i.toNat = j + 1 ∧ Numbered first j k ∧ k.isWide = true := by
  have hone := UInt16.le_iff_toNat_le.mp hone
  have hi := UInt16.lt_iff_toNat_lt.mp hi
  rw [get_fails_iff]
  constructor
  · intro hno
    have hsize : i.toNat < pool.slots.size :=
      hi.trans_le ((le_max_left _ _).trans (size_of_read hcount hread).ge)
    have hslot := Array.getElem?_eq_getElem hsize
    have hbelongs := belongs_of_read hcount hread hslot
    rw [hno _ hslot] at hbelongs
    exact hbelongs.behind_wide hone
  · rintro ⟨j, k, hj, h, hwide⟩ k' hk'
    have hslot := (slots_of_numbered hcount hread (by omega) h).2 hwide
    rw [← hj, hk'] at hslot
    exact Option.some.inj hslot

theorem get_eq_ok_iff_numbered (hcount : readU16 c = .ok (count, first))
    (hread : Pool.read c = .ok (pool, last)) {i : UInt16} (hi : i < count) {k : Constant} :
    pool.get i = .ok k ↔ Numbered first i.toNat k := by
  rw [get_eq_ok_iff]
  constructor
  · rintro ⟨hslot, husable⟩
    exact (belongs_of_read hcount hread hslot).numbered husable
  · intro h
    exact ⟨(slots_of_numbered hcount hread (UInt16.lt_iff_toNat_lt.mp hi) h).1, h.ne_unusable⟩

/-- The loop stops at a wide constant that comes to the last slot. -/
theorem read_of_overlong (hcount : readU16 c = .ok (count, first)) {i : UInt16} {k : Constant}
    (hi : i < count) (hlast : count.toNat ≤ i.toNat + 1) (h : Numbered first i.toNat k)
    (hwide : k.isWide = true) : Pool.read c = .error (.badIndex i) := by
  obtain ⟨before, after, hentry, hconstant⟩ := h
  obtain ⟨s, hreach, hindex, rfl⟩ :=
    Filling.exists_reaches_entry hentry (UInt16.lt_iff_toNat_lt.mp hi)
  obtain rfl := UInt16.toNat_inj.mp hindex
  have hover : count.toNat < s.index.toNat + k.width.toNat := by
    rw [Constant.width_of_wide hwide]
    omega
  exact (ends_read hcount).unique
    (Ends.of_reaches hreach (.stop (Filling.turn_of_overlong hi hconstant hover)))

/-- A constant that was read is found under its number, and the number behind a wide one is no
constant's. A wide constant for which there is one slot only is refused. The 16-bit number of the loop
that reads the constants is exact. -/
theorem slots_keep_numbers (hcount : readU16 c = .ok (count, first)) :
    (∀ pool last, Pool.read c = .ok (pool, last) →
        pool.size = max count.toNat 1
          ∧ ∀ i : UInt16, 1 ≤ i → i < count →
            ((∃ fault, pool.get i = .error fault)
                ↔ ∃ j k, i.toNat = j + 1 ∧ Numbered first j k ∧ k.isWide = true)
              ∧ ∀ k, pool.get i = .ok k ↔ Numbered first i.toNat k)
      ∧ (∀ (i : UInt16) (k : Constant), i < count → count.toNat ≤ i.toNat + 1 →
        Numbered first i.toNat k → k.isWide = true → Pool.read c = .error (.badIndex i))
      ∧ Ends (turn count) (.start first) (Pool.read c)
      ∧ ∀ s, Reaches (turn count) (.start first) s →
        s.index.toNat = s.slots.size
          ∧ ∀ s', s.turn count = .inl s' → s.index < s'.index ∧ s'.index ≤ count := by
  refine ⟨fun pool last hread => ⟨size_of_read hcount hread, fun i hone hi =>
      ⟨get_fails_iff_second hcount hread hone hi, fun k => get_eq_ok_iff_numbered hcount hread hi⟩⟩,
    fun i k hi hlast h hwide => read_of_overlong hcount hi hlast h hwide, ends_read hcount,
    fun s hreach => ⟨(aligned_of_reaches hreach).size.symm, fun s' hturn => ?_⟩⟩
  obtain ⟨-, k, -, hsum, hle, -⟩ := Filling.turn_eq_inl.mp hturn
  have hpos := k.width_pos
  exact ⟨UInt16.lt_iff_toNat_lt.mpr (by omega), hle⟩

/-- A long and a string in four slots, and a double where there is one slot. -/
theorem slots_keep_numbers_wide :
    (∃ pool last, Pool.read (.start [0, 4, 5, 0, 0, 0, 0, 0, 0, 0, 42, 1, 0, 1, 0x78]) = .ok (pool, last)
        ∧ pool.size = 4 ∧ pool.get 1 = .ok (.long 42) ∧ (∃ fault, pool.get 2 = .error fault)
        ∧ pool.get 3 = .ok (.utf8 "x"))
      ∧ Pool.read (.start [0, 2, 6, 0x3F, 0xF0, 0, 0, 0, 0, 0, 0]) = .error (.badIndex 1) := by
  constructor
  · let first : Cursor := ⟨2, [5, 0, 0, 0, 0, 0, 0, 0, 42, 1, 0, 1, 0x78]⟩
    have hlong : Constant.read 1 first = .ok (.long 42, ⟨11, [1, 0, 1, 0x78]⟩) := by rfl
    have htext : Constant.read 3 ⟨11, [1, 0, 1, 0x78]⟩ = .ok (.utf8 "x", ⟨15, []⟩) := by rfl
    have hread : Pool.read (.start [0, 4, 5, 0, 0, 0, 0, 0, 0, 0, 42, 1, 0, 1, 0x78])
        = .ok (⟨#[.unusable, .long 42, .unusable, .utf8 "x"]⟩, ⟨15, []⟩) := by rfl
    have hcount : readU16 (.start [0, 4, 5, 0, 0, 0, 0, 0, 0, 0, 42, 1, 0, 1, 0x78])
        = .ok (4, first) := by rfl
    obtain ⟨hsize, hget⟩ := (slots_keep_numbers hcount).1 _ _ hread
    refine ⟨_, _, hread, hsize, ?_, ?_, ?_⟩
    · exact ((hget 1 (by decide) (by decide)).2 _).mpr ⟨_, _, .first, hlong⟩
    · exact (hget 2 (by decide) (by decide)).1.mpr ⟨1, _, rfl, ⟨_, _, .first, hlong⟩, rfl⟩
    · exact ((hget 3 (by decide) (by decide)).2 _).mpr ⟨_, _, .next .first hlong, htext⟩
  · let first : Cursor := ⟨2, [6, 0x3F, 0xF0, 0, 0, 0, 0, 0, 0]⟩
    have hdouble : Constant.read 1 first = .ok (.double 0x3FF0000000000000, ⟨11, []⟩) := by rfl
    have hcount : readU16 (.start [0, 2, 6, 0x3F, 0xF0, 0, 0, 0, 0, 0, 0]) = .ok (2, first) := by rfl
    exact (slots_keep_numbers hcount).2.1 1 _ (by decide) (by decide) ⟨_, _, .first, hdouble⟩ rfl

end Pool
end Linkage.Format
