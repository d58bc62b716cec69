import Chiaki.ReorderQueue.Model
import Chiaki.Lib.SlotWindow

/-!
# The circular array is a window of slots

The queue keeps only `begin` and `count`; the slot of a sequence number is found by masking it. This
file relates a queue to a `SlotWindow.Window` and shows what each operation of the queue does to that
window, for any width at which the function pointers compute serial arithmetic modulo `n`.

The numbers the queue really stores and hands out are `q.begin` and sums; they agree with the window's
numbers modulo `n`, and `rawBegin` says exactly which they are.
-/

namespace Chiaki
open Serial SlotWindow

/-- The three function pointers compute serial arithmetic modulo `n`. -/
structure SeqNumLaws (fns : SeqNumFns) (n : Nat) : Prop where
  gt_iff : ∀ a b, fns.gt a b = true ↔ Before n b a
  lt_iff : ∀ a b, fns.lt a b = true ↔ Before n a b
  add_mod : ∀ a b, fns.add a b % n = (a + b) % n

theorem seqNumFns16_laws : SeqNumLaws seqNumFns16 (2 ^ 16) where
  gt_iff := seqNumGt_mod_iff (by decide)
  lt_iff := seqNumLt_mod_iff (by decide)
  add_mod a b := (Nat.add_mod a b _).symm

theorem seqNumFns32_laws : SeqNumLaws seqNumFns32 (2 ^ 32) where
  gt_iff := seqNumGt_mod_iff (by decide)
  lt_iff := seqNumLt_mod_iff (by decide)
  add_mod a b := by
    rw [seqNumFns32, Nat.mod_mod, ← Nat.add_mod]

def ReorderQueueEntry.slot {α : Type} (e : ReorderQueueEntry α) : Option α :=
  if e.set then some e.user else none

@[simp] theorem ReorderQueueEntry.slot_set {α : Type} (user : α) :
    (ReorderQueueEntry.mk user true).slot = some user := rfl

namespace ReorderQueue
variable {α : Type} {n : Nat} {q : ReorderQueue α} {w : Window α}

/-- The fields no operation on elements touches. -/
structure SameSettings (q q' : ReorderQueue α) : Prop where
  sizeExp : q'.sizeExp = q.sizeExp
  fns : q'.fns = q.fns
  dropStrategy : q'.dropStrategy = q.dropStrategy
  dropCb : q'.dropCb = q.dropCb

theorem SameSettings.refl (q : ReorderQueue α) : SameSettings q q := ⟨rfl, rfl, rfl, rfl⟩

theorem SameSettings.trans {q q' q'' : ReorderQueue α} (h : SameSettings q q')
    (h' : SameSettings q' q'') : SameSettings q q'' :=
  ⟨h'.sizeExp.trans h.sizeExp, h'.fns.trans h.fns, h'.dropStrategy.trans h.dropStrategy,
    h'.dropCb.trans h.dropCb⟩

theorem SameSettings.shiftIfEmpty (q : ReorderQueue α) (m : Nat) :
    SameSettings q (q.shiftIfEmpty m) := by
  unfold ReorderQueue.shiftIfEmpty
  split <;> exact ⟨rfl, rfl, rfl, rfl⟩

theorem SameSettings.appendSlot (q : ReorderQueue α) (m : Nat) :
    SameSettings q (q.appendSlot m) := ⟨rfl, rfl, rfl, rfl⟩

structure Represents (n : Nat) (q : ReorderQueue α) (w : Window α) : Prop where
  laws : SeqNumLaws q.fns n
  dvd : q.size ∣ n
  half : 2 * q.size < n
  begin_mod : q.begin % n = w.base % n
  count_eq : q.count = w.slots.length
  fits : w.slots.length ≤ q.size
  slot_eq : ∀ i s, w.slots[i]? = some s → (q.entry (w.base + i)).slot = s

theorem size_pos (q : ReorderQueue α) : 0 < q.size := Nat.two_pow_pos _

theorem Represents.pos (h : Represents n q w) : 0 < n := by
  have := h.half
  omega

theorem idx_val (q : ReorderQueue α) (m : Nat) : (q.idx m).val = m % q.size :=
  Nat.and_two_pow_sub_one_eq_mod m q.sizeExp

theorem idx_congr (hdvd : q.size ∣ n) {a b : Nat} (h : a % n = b % n) : q.idx a = q.idx b := by
  apply Fin.ext
  rw [idx_val, idx_val, ← Nat.mod_mod_of_dvd a hdvd, h, Nat.mod_mod_of_dvd b hdvd]

theorem entry_congr (hdvd : q.size ∣ n) {a b : Nat} (h : a % n = b % n) :
    q.entry a = q.entry b := by
  simp only [entry, idx_congr hdvd h]

theorem idx_injective {base i j : Nat} (hi : i < q.size) (hj : j < q.size)
    (h : q.idx (base + i) = q.idx (base + j)) : i = j := by
  have hmod : (base + i) % q.size = (base + j) % q.size := by
    rw [← idx_val, ← idx_val, h]
  have hcancel : i % q.size = j % q.size := Nat.ModEq.add_left_cancel' base hmod
  rwa [Nat.mod_eq_of_lt hi, Nat.mod_eq_of_lt hj] at hcancel

theorem entry_setEntry_self (q : ReorderQueue α) (m : Nat) (e : ReorderQueueEntry α) :
    (q.setEntry m e).entry m = e := by
  change (q.queue.set (q.idx m).val e (q.idx m).isLt)[(q.idx m).val] = e
  simp

theorem entry_setEntry_ne (q : ReorderQueue α) {m m' : Nat} (e : ReorderQueueEntry α)
    (h : q.idx m' ≠ q.idx m) : (q.setEntry m e).entry m' = q.entry m' := by
  change (q.queue.set (q.idx m).val e (q.idx m).isLt)[(q.idx m').val] = q.queue[(q.idx m').val]
  exact Vector.getElem_set_ne _ _ fun hval => h (Fin.ext hval.symm)

/-- Writing the entry of the `i`-th number of the window fills its `i`-th slot. -/
theorem Represents.setEntry (h : Represents n q w) {i m : Nat} (hi : i < w.slots.length)
    (hm : m % n = (w.base + i) % n) (e : ReorderQueueEntry α) :
    Represents n (q.setEntry m e) { w with slots := w.slots.set i e.slot } where
  laws := h.laws
  dvd := h.dvd
  half := h.half
  begin_mod := h.begin_mod
  count_eq := by simpa using h.count_eq
  fits := by simpa using h.fits
  slot_eq := by
    intro j s hj
    have hfits := h.fits
    have hjlt : j < w.slots.length := by
      have := (List.getElem?_eq_some_iff.mp hj).1
      simpa using this
    have hidx : q.idx m = q.idx (w.base + i) := idx_congr h.dvd hm
    by_cases hij : j = i
    · subst hij
      have hs : e.slot = s := by simpa [hjlt] using hj
      have hself : (q.setEntry m e).entry (w.base + j) = (q.setEntry m e).entry m :=
        entry_congr (q := q.setEntry m e) h.dvd hm.symm
      rw [hself, entry_setEntry_self, hs]
    · have hne : q.idx (w.base + j) ≠ q.idx m := by
        rw [hidx]
        exact fun heq => hij (idx_injective (by omega) (by omega) heq)
      rw [entry_setEntry_ne q e hne]
      exact h.slot_eq j s (by simpa [List.getElem?_set, Ne.symm hij] using hj)

/-- Raising `count` and clearing the entry uncovered adds one empty slot. -/
theorem Represents.appendSlot (h : Represents n q w) (hroom : w.slots.length < q.size)
    {endNum : Nat} (hend : endNum % n = (w.base + w.slots.length) % n) :
    Represents n (q.appendSlot endNum) { w with slots := w.slots ++ [none] } where
  laws := h.laws
  dvd := h.dvd
  half := h.half
  begin_mod := h.begin_mod
  count_eq := by simpa using h.count_eq
  fits := by simpa using hroom
  slot_eq := by
    intro j s hj
    have hidx : q.idx endNum = q.idx (w.base + w.slots.length) := idx_congr h.dvd hend
    by_cases hlast : j = w.slots.length
    · subst hlast
      obtain rfl : none = s := by simpa using hj
      have hself := entry_congr (q := q.appendSlot endNum) h.dvd hend.symm
      rw [hself, ReorderQueue.appendSlot, entry_setEntry_self]
      rfl
    · have hjlt : j < w.slots.length := by
        have := (List.getElem?_eq_some_iff.mp hj).1
        simp at this
        omega
      have hfits := h.fits
      have hne : q.idx (w.base + j) ≠ q.idx endNum := by
        rw [hidx]
        exact fun heq => hlast (idx_injective (by omega) hroom heq)
      have hkeep : (q.appendSlot endNum).entry (w.base + j) = q.entry (w.base + j) :=
        entry_setEntry_ne { q with count := q.count + 1 } _ hne
      rw [hkeep]
      exact h.slot_eq j s (by simpa [List.getElem?_append_left hjlt] using hj)

theorem Represents.advance (h : Represents n q w) {slot : Option α} {rest : List (Option α)}
    (hslots : w.slots = slot :: rest) :
    Represents n q.advance ⟨w.base + 1, rest⟩ where
  laws := h.laws
  dvd := h.dvd
  half := h.half
  begin_mod := by
    change q.fns.add q.begin 1 % n = (w.base + 1) % n
    rw [h.laws.add_mod, Nat.add_mod, h.begin_mod, ← Nat.add_mod]
  count_eq := by simp [h.count_eq, hslots]
  fits := by
    have hfits := h.fits
    simp only [hslots, List.length_cons] at hfits
    exact (Nat.le_succ _).trans hfits
  slot_eq := by
    intro j s hj
    have hnext := h.slot_eq (j + 1) s (by simpa [hslots] using hj)
    rw [show w.base + 1 + j = w.base + (j + 1) by omega]
    exact hnext

/-! ## Sums and comparisons -/

theorem Represents.add_begin (h : Represents n q w) (i : Nat) :
    q.add q.begin i % n = (w.base + i) % n := by
  change q.fns.add q.begin i % n = _
  rw [h.laws.add_mod, Nat.add_mod, h.begin_mod, ← Nat.add_mod]

theorem Represents.begin_eq (h : Represents n q w) : q.begin % n = (w.base + 0) % n := h.begin_mod

theorem Represents.lt_iff (h : Represents n q w) {a b i j : Nat} (ha : a % n = (w.base + i) % n)
    (hb : b % n = (w.base + j) % n) (hi : i < n) (hj : j < n) :
    q.lt a b = true ↔ (i < j ∧ 2 * (j - i) < n) ∨ (j < i ∧ n < 2 * (i - j)) := by
  rw [ReorderQueue.lt, h.laws.lt_iff, before_congr ha hb, before_add_add h.pos _ hi hj]

theorem Represents.gt_iff (h : Represents n q w) {a b i j : Nat} (ha : a % n = (w.base + i) % n)
    (hb : b % n = (w.base + j) % n) (hi : i < n) (hj : j < n) :
    q.gt a b = true ↔ (j < i ∧ 2 * (i - j) < n) ∨ (i < j ∧ n < 2 * (j - i)) := by
  rw [ReorderQueue.gt, h.laws.gt_iff, before_congr hb ha, before_add_add h.pos _ hj hi]

/-! ## The loops of push -/

/-- The number the code uses for the `j`-th slot once it has advanced `begin` that far. -/
def rawBegin (q : ReorderQueue α) : Nat → Nat
  | 0 => q.begin
  | j + 1 => q.add (rawBegin q j) 1

/-- The queue after `begin` has been advanced over `r` slots. -/
def seek (q : ReorderQueue α) (r : Nat) : ReorderQueue α :=
  { q with begin := q.rawBegin r, count := q.count - r }

@[simp] theorem size_seek (q : ReorderQueue α) (r : Nat) : (q.seek r).size = q.size := rfl

theorem SameSettings.seek (q : ReorderQueue α) (r : Nat) : SameSettings q (q.seek r) :=
  ⟨rfl, rfl, rfl, rfl⟩

@[simp] theorem seek_zero (q : ReorderQueue α) : q.seek 0 = q := rfl

theorem rawBegin_advance (q : ReorderQueue α) (j : Nat) :
    q.advance.rawBegin j = q.rawBegin (j + 1) := by
  induction j with
  | zero => rfl
  | succ j ih => rw [rawBegin, ih]; rfl

theorem seek_advance (q : ReorderQueue α) (r : Nat) : q.advance.seek r = q.seek (r + 1) := by
  have hcount : q.count - 1 - r = q.count - (r + 1) := by omega
  simp only [seek, rawBegin_advance]
  simp only [ReorderQueue.advance, hcount]

theorem Represents.rawBegin_mod (h : Represents n q w) (j : Nat) :
    q.rawBegin j % n = (w.base + j) % n := by
  induction j with
  | zero => exact h.begin_mod
  | succ j ih =>
      change q.fns.add (q.rawBegin j) 1 % n = _
      rw [h.laws.add_mod, Nat.add_mod, ih, ← Nat.add_mod, Nat.add_assoc]

theorem Represents.head_slot (h : Represents n q w) {slot : Option α} {rest : List (Option α)}
    (hslots : w.slots = slot :: rest) : (q.entry q.begin).slot = slot := by
  rw [entry_congr h.dvd h.begin_eq]
  exact h.slot_eq 0 slot (by simp [hslots])

/-- What reaches `drop_cb`: nothing if it is not set. -/
def emitted (q : ReorderQueue α) (dropped : List (Nat × α)) : List (Nat × α) :=
  if q.dropCb then dropped else []

theorem callDropCb_eq (q : ReorderQueue α) (m : Nat) (e : ReorderQueueEntry α) :
    (if e.set then q.callDropCb m e.user else []) =
      q.emitted (e.slot.map fun x => (m, x)).toList := by
  unfold callDropCb emitted ReorderQueueEntry.slot
  cases e.set <;> cases q.dropCb <;> rfl

theorem emitted_append (q : ReorderQueue α) (xs ys : List (Nat × α)) :
    q.emitted (xs ++ ys) = q.emitted xs ++ q.emitted ys := by
  unfold emitted
  split <;> simp

theorem dropFirst_eq (h : Represents n q w) (endNum : Nat) {newEnd totalEnd fuel d : Nat}
    (hnear : d + 1 < n) (hhalf : 2 * (d + 1 - q.size) < n) (hlen : w.slots.length ≤ d)
    (hend : endNum % n = (w.base + w.slots.length) % n)
    (hnew : newEnd % n = (w.base + (d + 1)) % n)
    (htotal : totalEnd % n = (w.base + q.size) % n) (hfuel : q.count ≤ fuel) :
    dropFirst endNum newEnd fuel totalEnd q =
      (q.seek (min w.slots.length (d + 1 - q.size)),
        q.emitted (numbered q.rawBegin (w.slots.take (d + 1 - q.size)))) := by
  induction fuel generalizing q w totalEnd d with
  | zero =>
      have hzero : w.slots.length = 0 := by
        rw [← h.count_eq]
        omega
      obtain hnil : w.slots = [] := List.eq_nil_of_length_eq_zero hzero
      simp [dropFirst, hnil, emitted]
  | succ fuel ih =>
      have hsizepos := q.size_pos
      have hsize := h.half
      have hlt := h.lt_iff htotal hnew (by omega) (by omega)
      cases hslots : w.slots with
      | nil =>
          have hzero : q.count = 0 := by rw [h.count_eq, hslots]; rfl
          simp [dropFirst, hzero, emitted]
      | cons slot rest =>
          have hcount : q.count = rest.length + 1 := by rw [h.count_eq, hslots]; rfl
          by_cases hover : q.size ≤ d
          · -- one turn removes `slot`; the window one further on needs one slot less
            obtain ⟨d, rfl⟩ : ∃ d', d = d' + 1 := ⟨d - 1, by omega⟩
            obtain ⟨r, hr⟩ : ∃ r, d + 1 - q.size = r := ⟨_, rfl⟩
            have hr' : d + 1 + 1 - q.size = r + 1 := by omega
            have hgo : q.lt totalEnd newEnd = true := hlt.mpr (by omega)
            have hrest : rest.length ≤ d := by simpa [hslots] using hlen
            have hfits : rest.length + 1 ≤ q.size := by simpa [hslots] using h.fits
            have hend' : endNum % n = (w.base + 1 + rest.length) % n := by
              rw [hend, hslots, List.length_cons, Nat.add_right_comm, Nat.add_assoc]
            have hnew' : newEnd % n = (w.base + 1 + (d + 1)) % n := by
              rw [hnew, Nat.add_assoc w.base 1, Nat.add_comm 1]
            have htotal' : q.advance.add endNum (q.advance.size - q.advance.count) % n =
                (w.base + 1 + q.advance.size) % n := by
              have hroom : q.advance.size - q.advance.count = q.size - rest.length := by
                simp [hcount]
              change q.fns.add _ _ % n = (w.base + 1 + q.size) % n
              rw [hroom, h.laws.add_mod, Nat.add_mod, hend', ← Nat.add_mod]
              congr 1
              omega
            have hhalf' : 2 * (d + 1 - q.advance.size) < n := by
              rw [size_advance]
              omega
            have hstep := ih (h.advance hslots) (by omega) hhalf' hrest hend' hnew' htotal'
              (by simp; omega)
            have hturn : dropFirst endNum newEnd (fuel + 1) totalEnd q =
                ((dropFirst endNum newEnd fuel
                    (q.advance.add endNum (q.advance.size - q.advance.count)) q.advance).1,
                  q.emitted (slot.map fun x => (q.begin, x)).toList ++
                    (dropFirst endNum newEnd fuel
                      (q.advance.add endNum (q.advance.size - q.advance.count)) q.advance).2) := by
              rw [dropFirst, if_pos (by simp [hgo, hcount])]
              simp only [callDropCb_eq, h.head_slot hslots]
            have hsame : q.advance.size = q.size := rfl
            rw [hturn, hstep, hsame, hr, hr', seek_advance, funext (rawBegin_advance q)]
            simp only [List.length_cons, Nat.add_min_add_right, List.take_succ_cons, numbered,
              emitted_append]
            rfl
          · have hstop : q.lt totalEnd newEnd = false := by
              rw [Bool.eq_false_iff, ne_eq, hlt]
              omega
            have hzero : d + 1 - q.size = 0 := by omega
            simp [dropFirst, hstop, hzero, emitted]

theorem Represents.seek (h : Represents n q w) {r : Nat} (hr : r ≤ w.slots.length) :
    Represents n (q.seek r) ⟨w.base + r, w.slots.drop r⟩ := by
  induction r generalizing q w with
  | zero => exact h
  | succ r ih =>
      cases hslots : w.slots with
      | nil => simp [hslots] at hr
      | cons slot rest =>
          have hnext := ih (h.advance hslots) (by simpa [hslots] using hr)
          rw [seek_advance] at hnext
          simpa [Nat.add_assoc, Nat.add_comm 1 r] using hnext

theorem moveEnd_eq (h : Represents n q w) (fuel endNum : Nat) {newEnd d : Nat} (hfit : d < q.size)
    (hend : endNum % n = (w.base + w.slots.length) % n)
    (hnew : newEnd % n = (w.base + (d + 1)) % n) (hlen : w.slots.length ≤ d + 1)
    (hfuel : q.size + 1 - w.slots.length ≤ fuel) :
    ∃ q', moveEnd newEnd fuel endNum q = .ok q' ∧
      Represents n q'
        { w with slots := w.slots ++ List.replicate (d + 1 - w.slots.length) none } ∧
      q'.begin = q.begin ∧ SameSettings q q' := by
  induction fuel generalizing q w endNum with
  | zero => omega
  | succ fuel ih =>
      have hhalf := h.half
      have hlt := h.lt_iff hend hnew (by omega) (by omega)
      by_cases hdone : w.slots.length = d + 1
      · have hstop : q.lt endNum newEnd = false := by
          rw [Bool.eq_false_iff, ne_eq, hlt]
          omega
        refine ⟨q, by simp [moveEnd, hstop], ?_, rfl, .refl q⟩
        simpa [hdone] using h
      · have hgo : q.lt endNum newEnd = true := hlt.mpr (by omega)
        have hnext := h.appendSlot (by omega) hend
        have hcount : (q.appendSlot endNum).count = w.slots.length + 1 := by
          simpa using hnext.count_eq
        have hend' : (q.appendSlot endNum).add (q.appendSlot endNum).begin
            (q.appendSlot endNum).count % n = (w.base + (w.slots.length + 1)) % n := by
          rw [hcount]
          exact hnext.add_begin _
        obtain ⟨q', hmove, hrep, hbegin, hsame⟩ :=
          ih hnext _ hfit (by simpa using hend') hnew (by simp; omega) (by simp; omega)
        refine ⟨q', ?_, ?_, hbegin, (SameSettings.appendSlot q endNum).trans hsame⟩
        · have hbound : (q.appendSlot endNum).count ≤ (q.appendSlot endNum).size := by
            rw [hcount]
            change w.slots.length + 1 ≤ q.size
            omega
          simp only [moveEnd, hgo, if_true, hbound]
          exact hmove
        · obtain ⟨k, hk⟩ : ∃ k, d + 1 - w.slots.length = k + 1 := ⟨d - w.slots.length, by omega⟩
          have hk' : d + 1 - (w.slots ++ [none]).length = k := by simp; omega
          rw [hk'] at hrep
          simpa [hk, List.replicate_succ] using hrep

/-- Making room up to a number that fits and storing it fills its slot of the window. -/
theorem extendAndStore_eq (h : Represents n q w) {m : Nat} (newEnd d : Nat) (user : α)
    (hfit : d < q.size)
    (hm : m % n = (w.base + d) % n) (hnew : newEnd % n = (w.base + (d + 1)) % n)
    (hlen : w.slots.length ≤ d) :
    ∃ q', q.extendAndStore m newEnd user = .ok q' ∧ Represents n q' (w.place d user) ∧
      q'.begin = q.begin ∧ SameSettings q q' := by
  obtain ⟨q', hmove, hrep, hbegin, hsame⟩ :=
    moveEnd_eq h (q.size + 1 - q.count) (q.add q.begin q.count) hfit
      (by rw [h.count_eq]; exact h.add_begin _) hnew (by omega) (by rw [h.count_eq])
  refine ⟨q'.setEntry m ⟨user, true⟩, by simp [extendAndStore, hmove, Except.map], ?_, hbegin,
    hsame.trans ⟨rfl, rfl, rfl, rfl⟩⟩
  exact hrep.setEntry (i := d) (by simp; omega) hm ⟨user, true⟩

/-! ## The operations -/

/-- The conditions under which the comparisons `push` makes between raw numbers decide like the
window's: the number is one of the width and not opposite to the base, and if it is exactly the one
after the last slot, the plain equality of the assertion sees that. -/
structure Comparable (n : Nat) (q : ReorderQueue α) (w : Window α) (m : Nat) : Prop where
  number : m < n
  begin_lt : q.begin < n
  not_opposite : 2 * ahead n w.base m ≠ n
  at_end : ahead n w.base m = w.slots.length → m = q.add q.begin q.count

theorem Represents.number_eq (h : Represents n q w) (m : Nat) :
    m % n = (w.base + ahead n w.base m) % n := (add_ahead h.pos _ _).symm

section Push
variable {m : Nat} (h : Represents n q w)
include h

theorem lt_begin_iff : q.lt m q.begin = true ↔ n < 2 * ahead n w.base m := by
  have hlt := ahead_lt h.pos w.base m
  rw [h.lt_iff (h.number_eq m) h.begin_eq hlt h.pos]
  omega

theorem lt_end_iff (hhalf : 2 * ahead n w.base m < n) :
    q.lt m (q.add q.begin q.count) = true ↔ ahead n w.base m < w.slots.length := by
  have hfits := h.fits
  have hsize := h.half
  rw [h.lt_iff (h.number_eq m) (h.add_begin _) (by omega) (by rw [h.count_eq]; omega), h.count_eq]
  omega

theorem newEnd_mod : q.add m 1 % n = (w.base + (ahead n w.base m + 1)) % n := by
  change q.fns.add m 1 % n = _
  rw [h.laws.add_mod, Nat.add_mod, h.number_eq m, ← Nat.add_mod, Nat.add_assoc]

theorem totalEnd_mod :
    q.add (q.add q.begin q.count) (q.size - q.count) % n = (w.base + q.size) % n := by
  have hfits := h.fits
  change q.fns.add _ _ % n = _
  rw [h.laws.add_mod, Nat.add_mod, h.add_begin, ← Nat.add_mod, h.count_eq]
  congr 1
  omega

theorem total_lt_new_iff (hhalf : 2 * ahead n w.base m < n) :
    q.lt (q.add (q.add q.begin q.count) (q.size - q.count)) (q.add m 1) = true ↔
      q.size ≤ ahead n w.base m := by
  have hsize := h.half
  have hpos := q.size_pos
  rw [h.lt_iff (totalEnd_mod h) (newEnd_mod h) (by omega) (by omega)]
  omega

/-- The assertion fails on the number right after the last slot when it is not the sum the queue has
for it. -/
theorem push_end_mismatch (user : α) (hhalf : 2 * ahead n w.base m < n)
    (hend : ahead n w.base m = w.slots.length) (hne : m ≠ q.add q.begin q.count) :
    q.push m user = .error .assertion := by
  have hcount : q.count ≤ q.size := h.count_eq ▸ h.fits
  have hsize := h.half
  have hfits := h.fits
  have hnotend : q.lt m (q.add q.begin q.count) = false := by
    rw [Bool.eq_false_iff, ne_eq, lt_end_iff h hhalf]
    omega
  have hnotbegin : q.lt m q.begin = false := by
    rw [Bool.eq_false_iff, ne_eq, lt_begin_iff h]
    omega
  have hge : q.ge m (q.add q.begin q.count) = false := by
    have hgt := h.gt_iff (h.number_eq m) (h.add_begin q.count) (by omega) (by rw [h.count_eq]; omega)
    have hcount' := h.count_eq
    rw [ge, Bool.or_eq_false_iff, beq_eq_false_iff_ne, Bool.eq_false_iff, ne_eq (q.gt _ _), hgt]
    exact ⟨hne, by omega⟩
  simp [push, hcount, hnotend, hnotbegin, hge]

variable (hc : Comparable n q w m)
include hc

theorem ge_begin_iff : q.ge m q.begin = true ↔ 2 * ahead n w.base m < n := by
  have hlt := ahead_lt h.pos w.base m
  have hgt := h.gt_iff (h.number_eq m) h.begin_eq hlt h.pos
  have heq : m = q.begin ↔ ahead n w.base m = 0 := by
    rw [ahead_eq_zero_iff h.pos, ← h.begin_mod, Nat.mod_eq_of_lt hc.number,
      Nat.mod_eq_of_lt hc.begin_lt, eq_comm]
  rw [ge, Bool.or_eq_true, beq_iff_eq, heq, hgt]
  have := hc.not_opposite
  omega

theorem ge_end (hhalf : 2 * ahead n w.base m < n) (hlen : w.slots.length ≤ ahead n w.base m) :
    q.ge m (q.add q.begin q.count) = true := by
  have hfits := h.fits
  have hsize := h.half
  rw [ge, Bool.or_eq_true, beq_iff_eq]
  rcases hlen.eq_or_lt with heq | hlt
  · exact .inl (hc.at_end heq.symm)
  · right
    rw [h.gt_iff (h.number_eq m) (h.add_begin _) (by omega) (by rw [h.count_eq]; omega), h.count_eq]
    omega

/-- A number serially before the base is handed to `drop_cb` and changes nothing. -/
theorem push_before (user : α) (hbefore : n < 2 * ahead n w.base m) :
    q.push m user = .ok (q, q.emitted [(m, user)]) := by
  have hcount : q.count ≤ q.size := h.count_eq ▸ h.fits
  have hge : q.ge m q.begin = false := by
    rw [Bool.eq_false_iff, ne_eq, ge_begin_iff h hc]
    omega
  have hlt : q.lt m q.begin = true := (lt_begin_iff h).mpr hbefore
  simp [push, hcount, hge, hlt, callDropCb, emitted]

theorem push_present (user : α) (hhalf : 2 * ahead n w.base m < n)
    (hpresent : (w.lookup n m).isSome) : q.push m user = .ok (q, q.emitted [(m, user)]) := by
  have hcount : q.count ≤ q.size := h.count_eq ▸ h.fits
  obtain ⟨x, hx⟩ := Option.isSome_iff_exists.mp hpresent
  have hslot : w.slots[ahead n w.base m]? = some (some x) := by
    simpa [Window.lookup, Option.join_eq_some_iff] using hx
  have hlt : ahead n w.base m < w.slots.length := (List.getElem?_eq_some_iff.mp hslot).1
  have hset : (q.entry m).set = true := by
    have hentry := h.slot_eq _ _ hslot
    rw [← entry_congr h.dvd (h.number_eq m), ReorderQueueEntry.slot] at hentry
    by_contra hunset
    simp [hunset] at hentry
  simp [push, hcount, (ge_begin_iff h hc).mpr hhalf, (lt_end_iff h hhalf).mpr hlt, hset,
    callDropCb, emitted]

theorem push_past_end (user : α) (hhalf : 2 * ahead n w.base m < n)
    (hlen : w.slots.length ≤ ahead n w.base m) :
    q.push m user =
      if q.size ≤ ahead n w.base m then
        if q.dropStrategy = .end_ then .ok (q, q.callDropCb m user)
        else
          let r := q.seek (min w.slots.length (ahead n w.base m + 1 - q.size))
          ((r.shiftIfEmpty m).extendAndStore m (q.add m 1) user).map fun q' => (q', q.emitted
            (numbered q.rawBegin (w.slots.take (ahead n w.base m + 1 - q.size))))
      else (q.extendAndStore m (q.add m 1) user).map fun q' => (q', []) := by
  have hcount : q.count ≤ q.size := h.count_eq ▸ h.fits
  have hnotend : q.lt m (q.add q.begin q.count) = false := by
    rw [Bool.eq_false_iff, ne_eq, lt_end_iff h hhalf]
    omega
  have hnotbegin : q.lt m q.begin = false := by
    rw [Bool.eq_false_iff, ne_eq, lt_begin_iff h]
    omega
  have hsize := h.half
  have hpos := q.size_pos
  have hdrop := dropFirst_eq h (q.add q.begin q.count) (by omega) (by omega) hlen
    (by rw [h.add_begin, h.count_eq]) (newEnd_mod h) (totalEnd_mod h) (le_refl q.count)
  have hover := total_lt_new_iff h hhalf
  by_cases hfar : q.size ≤ ahead n w.base m
  · simp [push, hcount, hnotend, hnotbegin, ge_end h hc hhalf hlen, hover.mpr hfar, hfar, hdrop]
  · have hroom : q.lt (q.add (q.add q.begin q.count) (q.size - q.count)) (q.add m 1) = false := by
      rw [Bool.eq_false_iff, ne_eq, hover]
      exact hfar
    simp [push, hcount, hnotend, hnotbegin, ge_end h hc hhalf hlen, hroom, hfar]

theorem push_fits (user : α) (hhalf : 2 * ahead n w.base m < n)
    (habsent : (w.lookup n m).isSome = false) (hfits : ahead n w.base m < q.size) :
    ∃ q', q.push m user = .ok (q', []) ∧ Represents n q' (w.place (ahead n w.base m) user) ∧
      q'.begin = q.begin ∧ SameSettings q q' := by
  have hcount : q.count ≤ q.size := h.count_eq ▸ h.fits
  have hge := (ge_begin_iff h hc).mpr hhalf
  by_cases hin : ahead n w.base m < w.slots.length
  · obtain ⟨s, hs⟩ : ∃ s, w.slots[ahead n w.base m]? = some s := ⟨_, List.getElem?_eq_getElem hin⟩
    obtain rfl : s = none := by simpa [Window.lookup, hs] using habsent
    have hunset : (q.entry m).set = false := by
      have hentry := h.slot_eq _ _ hs
      rw [← entry_congr h.dvd (h.number_eq m), ReorderQueueEntry.slot] at hentry
      by_contra hset
      simp [hset] at hentry
    refine ⟨q.setEntry m ⟨user, true⟩, ?_, ?_, rfl, rfl, rfl, rfl, rfl⟩
    · simp [push, hcount, hge, (lt_end_iff h hhalf).mpr hin, hunset]
    · have hpad : ahead n w.base m + 1 - w.slots.length = 0 := by omega
      simpa [Window.place, hpad] using h.setEntry hin (h.number_eq m) ⟨user, true⟩
  · rw [push_past_end h hc user hhalf (by omega), if_neg (by omega)]
    obtain ⟨q', hstore, hrest⟩ := extendAndStore_eq h _ _ user hfits (h.number_eq m) (newEnd_mod h)
      (by omega)
    exact ⟨q', by rw [hstore]; rfl, hrest⟩

theorem push_refused (user : α) (hhalf : 2 * ahead n w.base m < n)
    (hfar : q.size ≤ ahead n w.base m) (hstrategy : q.dropStrategy = .end_) :
    q.push m user = .ok (q, q.emitted [(m, user)]) := by
  have hfits := h.fits
  rw [push_past_end h hc user hhalf (by omega), if_pos hfar, if_pos hstrategy]
  rfl

theorem push_evicts (user : α) (hhalf : 2 * ahead n w.base m < n)
    (hfar : q.size ≤ ahead n w.base m) (hstrategy : q.dropStrategy = .begin) :
    ∃ q', q.push m user = .ok (q', q.emitted
        (numbered q.rawBegin (w.slots.take (ahead n w.base m + 1 - q.size)))) ∧
      Represents n q' (Window.push n q.size .evictOld w m user).1 ∧
      q'.begin = (if w.slots.length ≤ ahead n w.base m + 1 - q.size then m
        else q.rawBegin (ahead n w.base m + 1 - q.size)) ∧
      SameSettings q q' := by
  have hfits := h.fits
  have hpos := q.size_pos
  have hn := h.pos
  obtain ⟨r, hr⟩ : ∃ r, ahead n w.base m + 1 - q.size = r := ⟨_, rfl⟩
  rw [push_past_end h hc user hhalf (by omega), if_pos hfar, if_neg (by simp [hstrategy]), hr,
    Window.push_evictOld user hn hpos hhalf hfits hfar, hr]
  by_cases hall : w.slots.length ≤ r
  · -- no slot remains and the window restarts at the number
    have hrep : Represents n ((q.seek w.slots.length).shiftIfEmpty m)
        ⟨w.base + ahead n w.base m, []⟩ := by
      have hempty : (q.seek w.slots.length).count = 0 := by simp [seek, h.count_eq]
      rw [shiftIfEmpty, if_pos hempty]
      exact ⟨h.laws, h.dvd, h.half, h.number_eq m, hempty, Nat.zero_le _, by simp⟩
    obtain ⟨q', hstore, hrep', hbegin, hsame⟩ := extendAndStore_eq hrep (m := m)
      (q.add m 1) 0 user (by simpa using hpos) (h.number_eq m) (newEnd_mod h) le_rfl
    have hempty : (q.seek w.slots.length).count = 0 := by simp [seek, h.count_eq]
    simp only [if_pos hall, Nat.min_eq_left hall]
    refine ⟨q', by rw [hstore]; rfl, hrep', by rw [hbegin, shiftIfEmpty, if_pos hempty], ?_⟩
    exact (SameSettings.seek q _).trans ((SameSettings.shiftIfEmpty _ m).trans hsame)
  · have hnonempty : (q.seek r).count ≠ 0 := by simp [seek, h.count_eq]; omega
    have hrep := h.seek (r := r) (by omega)
    obtain ⟨q', hstore, hrep', hbegin, hsame⟩ := extendAndStore_eq hrep (m := m)
      (q.add m 1) (q.size - 1) user
      (by change _ < q.size; omega)
      (by rw [h.number_eq m]; congr 1; simp only; omega)
      (by rw [newEnd_mod h]; congr 1; simp only; omega)
      (by simp only [List.length_drop]; omega)
    simp only [if_neg hall, Nat.min_eq_right (Nat.le_of_not_le hall), shiftIfEmpty, if_neg hnonempty]
    exact ⟨q', by rw [hstore]; rfl, hrep', hbegin, (SameSettings.seek q r).trans hsame⟩

end Push

section Opposite
variable {m : Nat} (h : Represents n q w) (opposite : 2 * ahead n w.base m = n)
include h opposite

theorem moveEnd_opposite (hone : q.size = 1) (hcount : q.count = 1) :
    moveEnd (q.add m 1) (q.size + 1 - q.count) (q.add q.begin q.count) q = .ok q := by
  have hhalf := h.half
  have hend := h.add_begin q.count
  rw [hcount] at hend
  have hstop : q.lt (q.add q.begin q.count) (q.add m 1) = false := by
    rw [Bool.eq_false_iff, ne_eq, hcount, h.lt_iff hend (newEnd_mod h) (by omega) (by omega)]
    omega
  have hfuel : q.size + 1 - q.count = 0 + 1 := by omega
  simp [hfuel, moveEnd, hstop]

/-- A number opposite to `begin` is neither before nor behind it. The assertion sees that while the queue is
empty; else the number counts as too far ahead, or takes the only slot. -/
theorem push_opposite (hquarter : 4 * q.size ≤ n) (user : α) :
    q.push m user =
      if q.count = 0 then .error .assertion
      else if q.size = 1 then .ok (q.setEntry m ⟨user, true⟩, [])
      else if q.dropStrategy = .end_ then .ok (q, q.callDropCb m user)
      else (((q.seek q.count).shiftIfEmpty m).extendAndStore m (q.add m 1) user).map fun q' =>
        (q', q.emitted (numbered q.rawBegin w.slots)) := by
  have hhalf := h.half
  have hcount := h.count_eq
  have hfits := h.fits
  have hpos := q.size_pos
  have hsound : q.count ≤ q.size := by omega
  have hdiffer : m ≠ q.begin := by
    rintro rfl
    have hzero : ahead n w.base q.begin = 0 := (ahead_eq_zero_iff h.pos).mpr h.begin_mod.symm
    omega
  have hnotbegin : q.ge m q.begin = false := by
    rw [ge, Bool.or_eq_false_iff, beq_eq_false_iff_ne, Bool.eq_false_iff, ne_eq (q.gt _ _),
      h.gt_iff (h.number_eq m) h.begin_eq (by omega) h.pos]
    exact ⟨hdiffer, by omega⟩
  have hnotbefore : q.lt m q.begin = false := by
    rw [Bool.eq_false_iff, ne_eq, lt_begin_iff h]
    omega
  have hgt : q.gt m (q.add q.begin q.count) = true ↔ q.count ≠ 0 := by
    rw [h.gt_iff (h.number_eq m) (h.add_begin q.count) (by omega) (by omega)]
    omega
  have htotal := h.lt_iff (totalEnd_mod h) (newEnd_mod (m := m) h) (by omega) (by omega)
  by_cases hempty : q.count = 0
  · have hend : q.ge m (q.add q.begin q.count) = false := by
      have hmod := h.add_begin 0
      rw [ge, Bool.or_eq_false_iff, beq_eq_false_iff_ne, Bool.eq_false_iff, ne_eq (q.gt _ _), hgt]
      refine ⟨fun hsame => ?_, not_not.mpr hempty⟩
      have hzero : ahead n w.base m = 0 := (ahead_eq_zero_iff h.pos).mpr (by rw [hsame, hempty, hmod]; rfl)
      omega
    simp only [hempty] at hend
    simp [push, hnotbegin, hnotbefore, hend, hempty]
  · have hend : q.ge m (q.add q.begin q.count) = true := by
      rw [ge, hgt.mpr hempty, Bool.or_true]
    by_cases hone : q.size = 1
    · have hlast : q.count = 1 := by omega
      have hroom : q.lt (q.add (q.add q.begin q.count) (q.size - q.count)) (q.add m 1) = false := by
        rw [Bool.eq_false_iff, ne_eq, htotal]
        omega
      have hstore : q.push m user = (q.extendAndStore m (q.add m 1) user).map fun q => (q, []) := by
        simp [push, hsound, hnotbegin, hnotbefore, hend, hroom]
      rw [hstore, extendAndStore, moveEnd_opposite h opposite hone hlast, if_neg hempty, if_pos hone]
      rfl
    · have hfar : q.lt (q.add (q.add q.begin q.count) (q.size - q.count)) (q.add m 1) = true := by
        rw [htotal]
        omega
      have hdrop := dropFirst_eq h (q.add q.begin q.count) (d := ahead n w.base m) (by omega) (by omega)
        (by omega) (by rw [h.add_begin, h.count_eq]) (newEnd_mod h) (totalEnd_mod h) (le_refl q.count)
      -- the end keeps behind the number until no slot is left
      have hlong : w.slots.length ≤ ahead n w.base m + 1 - q.size := by omega
      have hall : min w.slots.length (ahead n w.base m + 1 - q.size) = q.count :=
        (Nat.min_eq_left hlong).trans hcount.symm
      have htake : w.slots.take (ahead n w.base m + 1 - q.size) = w.slots := List.take_of_length_le hlong
      rw [hall, htake] at hdrop
      simp [push, hsound, hnotbegin, hnotbefore, hend, hfar, hempty, hone, hdrop]

end Opposite

theorem Represents.setDropCb (h : Represents n q w) : Represents n q.setDropCb w :=
  ⟨h.laws, h.dvd, h.half, h.begin_mod, h.count_eq, h.fits, h.slot_eq⟩

theorem Represents.setDropStrategy (h : Represents n q w) (strategy : DropStrategy) :
    Represents n (q.setDropStrategy strategy) w :=
  ⟨h.laws, h.dvd, h.half, h.begin_mod, h.count_eq, h.fits, h.slot_eq⟩

theorem init_represents [Inhabited α] {bits sizeExp start : Nat} {fns : SeqNumFns}
    (laws : SeqNumLaws fns (2 ^ bits)) (narrow : sizeExp + 1 < bits)
    (hinit : init sizeExp start fns = some q) :
    Represents (2 ^ bits) q ⟨start, []⟩ ∧ q.begin = start ∧ q.sizeExp = sizeExp ∧ q.fns = fns ∧
      q.dropStrategy = .end_ := by
  have hdvd : 2 ^ sizeExp ∣ 2 ^ bits := Nat.pow_dvd_pow 2 (by omega)
  have hhalf : 2 * 2 ^ sizeExp < 2 ^ bits := by
    rw [← Nat.pow_succ']
    exact Nat.pow_lt_pow_right (by omega) narrow
  unfold init at hinit
  split at hinit
  · obtain rfl := Option.some.inj hinit
    exact ⟨⟨laws, hdvd, hhalf, rfl, rfl, Nat.zero_le _, by simp⟩, rfl, rfl, rfl, rfl⟩
  · simp at hinit

section Rows
variable (h : Represents n q w)
include h

theorem entry_slot (i : Nat) {s : Option α} (hs : w.slots[i]? = some s) :
    (q.entry (q.add q.begin i)).slot = s := by
  rw [entry_congr h.dvd (h.add_begin i)]
  exact h.slot_eq i s hs

theorem count_le_size : q.count ≤ q.size := h.count_eq ▸ h.fits

theorem pull_some {x : α} {rest : List (Option α)} (hslots : w.slots = some x :: rest) :
    q.pull = .ok (q.advance, some (q.begin, x)) := by
  have hcount : q.count ≠ 0 := by simp [h.count_eq, hslots]
  have hhead := h.head_slot hslots
  unfold ReorderQueueEntry.slot at hhead
  split at hhead
  · rename_i hset
    simp [pull, count_le_size h, hcount, hset, Option.some.inj hhead]
  · simp at hhead

theorem pull_none (hslots : ∀ x rest, w.slots ≠ some x :: rest) : q.pull = .ok (q, none) := by
  cases hw : w.slots with
  | nil =>
      have hcount : q.count = 0 := by simp [h.count_eq, hw]
      simp [pull, hcount]
  | cons slot rest =>
      cases slot with
      | some x => exact (hslots x rest hw).elim
      | none =>
          have hhead := h.head_slot hw
          have hunset : (q.entry q.begin).set = false := by
            by_contra hset
            simp [ReorderQueueEntry.slot, hset] at hhead
          have hcount : q.count ≠ 0 := by simp [h.count_eq, hw]
          simp [pull, count_le_size h, hunset]

theorem peek_eq (i : Nat) :
    q.peek i = (w.slots[i]?).join.map fun x => (q.add q.begin i, x) := by
  by_cases hi : i < w.slots.length
  · obtain ⟨s, hs⟩ : ∃ s, w.slots[i]? = some s := ⟨_, List.getElem?_eq_getElem hi⟩
    have hentry := entry_slot h i hs
    have hcount : ¬ i ≥ q.count := by rw [h.count_eq]; omega
    rw [hs, Option.join_some, ← hentry, peek, if_neg hcount, ReorderQueueEntry.slot]
    cases hset : (q.entry (q.add q.begin i)).set <;> simp [hset]
  · have hcount : i ≥ q.count := by rw [h.count_eq]; omega
    rw [peek, if_pos hcount, List.getElem?_eq_none (by omega)]
    rfl

theorem drop_eq (i : Nat) :
    q.drop i =
      (q, q.emitted ((w.slots[i]?).join.map fun x => (q.add q.begin i, x)).toList) := by
  have hnone : q.emitted ([] : List (Nat × α)) = [] := by unfold emitted; split <;> rfl
  by_cases hi : i < w.slots.length
  · obtain ⟨s, hs⟩ : ∃ s, w.slots[i]? = some s := ⟨_, List.getElem?_eq_getElem hi⟩
    have hentry := entry_slot h i hs
    have hcount : ¬ i ≥ q.count := by rw [h.count_eq]; omega
    rw [hs, Option.join_some, ← hentry, drop, if_neg hcount, ReorderQueueEntry.slot]
    cases hset : (q.entry (q.add q.begin i)).set with
    | false => simp [hset, hnone]
    | true =>
        -- the loop is entered with the entry still set, so it ends at once
        have hstay : reduceCount q.count (q.entry (q.add q.begin i)) q = q := by
          cases q.count <;> simp [reduceCount, hset]
        simp [hset, hstay, callDropCb, emitted]
  · have hcount : i ≥ q.count := by rw [h.count_eq]; omega
    rw [drop, if_pos hcount, List.getElem?_eq_none (by omega)]
    simp [hnone]

theorem finiFrom_eq (left i : Nat) (hleft : left + i = w.slots.length) :
    q.finiFrom left i =
      q.emitted (numbered (fun j => q.add q.begin (i + j)) (w.slots.drop i)) := by
  induction left generalizing i with
  | zero =>
      rw [List.drop_of_length_le (by omega)]
      unfold emitted
      split <;> rfl
  | succ left ih =>
      have hi : i < w.slots.length := by omega
      have hentry := entry_slot h i (List.getElem?_eq_getElem hi)
      rw [finiFrom, ih (i + 1) (by omega), callDropCb_eq, hentry, List.drop_eq_getElem_cons hi,
        numbered, emitted_append]
      congr 3
      funext j
      rw [Nat.add_assoc, Nat.add_comm 1 j]

theorem fini_eq : q.fini = q.emitted (numbered (fun j => q.add q.begin j) w.slots) := by
  have hall := finiFrom_eq h q.count 0 (by rw [Nat.add_zero, h.count_eq])
  simpa [fini] using hall

end Rows

end ReorderQueue
end Chiaki
