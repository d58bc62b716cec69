import Chiaki.Lib.Serial

/-!
# Windows of slots

A window holds the slots for consecutive positions from `base` on; each slot is empty or holds one
element. Positions are unbounded and are known to the outside by their number modulo `n`. At most
`size` slots are kept. What happens to an element numbered past that limit depends on the policy:
it is refused, or the oldest slots make way for it.
-/

namespace SlotWindow
open Serial

structure Window (α : Type*) where
  base : Nat
  slots : List (Option α)

inductive Policy where
  | evictOld
  | refuseNew
  deriving DecidableEq

variable {α : Type*}

/-- The elements of a row of slots, each with the number `num` gives its place. -/
def numbered (num : Nat → Nat) : List (Option α) → List (Nat × α)
  | [] => []
  | slot :: rest => (slot.map fun x => (num 0, x)).toList ++ numbered (fun j => num (j + 1)) rest

namespace Window

/-- The window as a partial map from numbers to elements. -/
def lookup (n : Nat) (w : Window α) (number : Nat) : Option α :=
  (w.slots[ahead n w.base number]?).join

def contents (n : Nat) (w : Window α) : List (Nat × α) :=
  numbered (fun j => (w.base + j) % n) w.slots

/-- Fill the slot `d` places after the base, adding empty slots up to it. -/
def place (w : Window α) (d : Nat) (x : α) : Window α :=
  { w with slots := (w.slots ++ List.replicate (d + 1 - w.slots.length) none).set d (some x) }

/-- Remove slots from the front, one at a time, until `number` fits or no slot remains; with no slot
left the window restarts at `number`. The elements removed are handed out in order. -/
def evict (n size number : Nat) : Nat → List (Option α) → Window α × List (Nat × α)
  | base, [] => (⟨base + ahead n base number, []⟩, [])
  | base, slot :: rest =>
      if ahead n base number < size then (⟨base, slot :: rest⟩, [])
      else
        let r := evict n size number (base + 1) rest
        (r.1, (slot.map fun x => (base % n, x)).toList ++ r.2)

def push (n size : Nat) (policy : Policy) (w : Window α) (number : Nat) (x : α) :
    Window α × List (Nat × α) :=
  let d := ahead n w.base number
  if n ≤ 2 * d then (w, [(number, x)])
  else if (w.lookup n number).isSome then (w, [(number, x)])
  else if d < size then (w.place d x, [])
  else
    match policy with
    | .refuseNew => (w, [(number, x)])
    | .evictOld =>
        let r := evict n size number w.base w.slots
        (r.1.place (ahead n r.1.base number) x, r.2)

/-- The element at the base, with its position. -/
def pull (w : Window α) : Window α × Option (Nat × α) :=
  match w.slots with
  | some x :: rest => (⟨w.base + 1, rest⟩, some (w.base, x))
  | _ => (w, none)

end Window

/-! ## Numbered rows -/

@[simp] theorem numbered_nil (num : Nat → Nat) : numbered num ([] : List (Option α)) = [] := rfl

theorem numbered_congr {num num' : Nat → Nat} {row : List (Option α)}
    (h : ∀ j x, row[j]? = some (some x) → num j = num' j) : numbered num row = numbered num' row := by
  induction row generalizing num num' with
  | nil => rfl
  | cons slot rest ih =>
      rw [numbered, numbered, ih fun j x hj => h (j + 1) x (by simpa using hj)]
      cases slot with
      | none => rfl
      | some x => rw [h 0 x rfl]

theorem numbered_append (num : Nat → Nat) (row row' : List (Option α)) :
    numbered num (row ++ row') =
      numbered num row ++ numbered (fun j => num (row.length + j)) row' := by
  induction row generalizing num with
  | nil => simp
  | cons slot rest ih =>
      rw [List.cons_append, numbered, numbered, ih, List.append_assoc]
      simp [Nat.add_right_comm]

theorem numbered_replicate_none (num : Nat → Nat) (k : Nat) :
    numbered num (List.replicate k (none : Option α)) = [] := by
  induction k generalizing num with
  | zero => rfl
  | succ k ih => rw [List.replicate_succ, numbered, ih]; rfl

theorem numbered_set (num : Nat → Nat) {row : List (Option α)} {d : Nat} (x : α)
    (hempty : row[d]? = some none) :
    (numbered num (row.set d (some x))).Perm ((num d, x) :: numbered num row) := by
  induction row generalizing num d with
  | nil => simp at hempty
  | cons slot rest ih =>
      cases d with
      | zero =>
          obtain rfl : slot = none := by simpa using hempty
          simp [numbered]
      | succ d =>
          have hrest := ih (fun j => num (j + 1)) (by simpa using hempty)
          rw [List.set_cons_succ, numbered, numbered]
          exact (hrest.append_left _).trans List.perm_middle

theorem mem_numbered {num : Nat → Nat} {row : List (Option α)} {p : Nat × α} :
    p ∈ numbered num row ↔ ∃ j, row[j]? = some (some p.2) ∧ p.1 = num j := by
  induction row generalizing num with
  | nil => simp
  | cons slot rest ih =>
      rw [numbered, List.mem_append, ih]
      constructor
      · rintro (h | ⟨j, hj, hp⟩)
        · obtain ⟨x, rfl, rfl⟩ : ∃ x, slot = some x ∧ (num 0, x) = p := by simpa using h
          exact ⟨0, rfl, rfl⟩
        · exact ⟨j + 1, by simpa using hj, hp⟩
      · rintro ⟨j, hj, hp⟩
        cases j with
        | zero =>
            obtain rfl : slot = some p.2 := by simpa using hj
            exact .inl (by simp [← hp])
        | succ j => exact .inr ⟨j, by simpa using hj, hp⟩

namespace Window
variable {n size : Nat}

/-! ## Eviction in closed form -/

theorem evict_eq (hn : 0 < n) (hsize : 0 < size) (number base : Nat) (slots : List (Option α)) :
    evict n size number base slots =
      (if slots.length ≤ ahead n base number + 1 - size then ⟨base + ahead n base number, []⟩
        else ⟨base + (ahead n base number + 1 - size), slots.drop (ahead n base number + 1 - size)⟩,
      numbered (fun j => (base + j) % n) (slots.take (ahead n base number + 1 - size))) := by
  induction slots generalizing base with
  | nil => simp [evict]
  | cons slot rest ih =>
      by_cases hfits : ahead n base number < size
      · have hzero : ahead n base number + 1 - size = 0 := by omega
        simp [evict, hfits, hzero]
      · have hshort : ahead n (base + 1) number = ahead n base number - 1 :=
          ahead_add_left hn (by omega)
        obtain ⟨r, hr⟩ : ∃ r, ahead n base number + 1 - size = r + 1 :=
          ⟨ahead n base number - size, by omega⟩
        have hr' : ahead n (base + 1) number + 1 - size = r := by omega
        have hd : base + 1 + ahead n (base + 1) number = base + ahead n base number := by omega
        rw [evict, if_neg hfits, ih, hr, hr', hd]
        simp only [List.length_cons, Nat.add_le_add_iff_right, List.drop_succ_cons,
          List.take_succ_cons, numbered, Nat.add_zero]
        congr 1
        · split
          · rfl
          · rw [Nat.add_right_comm base 1 r, Nat.add_assoc base r 1]
        · congr 1
          apply numbered_congr
          intro j _ _
          rw [Nat.add_right_comm base 1 j, Nat.add_assoc base j 1]

/-! ## Conservation -/

@[simp] theorem place_base (w : Window α) (d : Nat) (x : α) : (w.place d x).base = w.base := rfl

private theorem padded_slot {row : List (Option α)} {d : Nat} (h : (row[d]?).join = none) :
    (row ++ List.replicate (d + 1 - row.length) none)[d]? = some none := by
  by_cases hd : d < row.length
  · rw [List.getElem?_append_left hd]
    rw [List.getElem?_eq_getElem hd] at h ⊢
    simpa using h
  · rw [List.getElem?_append_right (by omega), List.getElem?_replicate]
    simp
    omega

theorem place_slot_self (w : Window α) (d : Nat) (x : α) : (w.place d x).slots[d]? = some (some x) := by
  rw [place, List.getElem?_set_self]
  simp only [List.length_append, List.length_replicate]
  omega

theorem place_slot {w : Window α} {d : Nat} {x : α} {i : Nat} {y : α}
    (h : (w.place d x).slots[i]? = some (some y)) : i = d ∨ w.slots[i]? = some (some y) := by
  by_cases hd : i = d
  · exact .inl hd
  · right
    rw [place, List.getElem?_set_ne (Ne.symm hd)] at h
    rcases lt_or_ge i w.slots.length with hi | hi
    · rwa [List.getElem?_append_left hi] at h
    · rw [List.getElem?_append_right hi, List.getElem?_replicate] at h
      split at h <;> simp at h

theorem place_slot_ne {w : Window α} {d : Nat} (x : α) {i : Nat} {slot : Option α} (other : i ≠ d)
    (there : w.slots[i]? = some slot) : (w.place d x).slots[i]? = some slot := by
  rw [place, List.getElem?_set_ne other.symm, List.getElem?_append_left (List.getElem?_eq_some_iff.mp there).1]
  exact there

theorem contents_place {w : Window α} {d : Nat} {x : α} (h : (w.slots[d]?).join = none) :
    (contents n (w.place d x)).Perm (((w.base + d) % n, x) :: contents n w) := by
  have hset := numbered_set (fun j => (w.base + j) % n) x (padded_slot h)
  rw [numbered_append, numbered_replicate_none, List.append_nil] at hset
  exact hset

theorem contents_evict (hn : 0 < n) (hsize : 0 < size) (number : Nat) (w : Window α) :
    (evict n size number w.base w.slots).2 ++ contents n (evict n size number w.base w.slots).1 =
      contents n w := by
  rw [evict_eq hn hsize]
  generalize ahead n w.base number + 1 - size = r
  simp only [contents]
  split
  · rename_i hall
    rw [List.take_of_length_le hall]
    simp
  · rename_i hsome
    conv_rhs => rw [← List.take_append_drop r w.slots, numbered_append]
    congr 1
    apply numbered_congr
    intro j _ _
    rw [List.length_take, Nat.min_eq_left (by omega), Nat.add_assoc]

private theorem slot_none_of_le {row : List (Option α)} {d : Nat} (h : row.length ≤ d) :
    (row[d]?).join = none := by
  rw [List.getElem?_eq_none h]
  rfl

theorem evict_slots_le (hn : 0 < n) (hsize : 0 < size) (number : Nat) {w : Window α}
    (hlen : w.slots.length ≤ ahead n w.base number) :
    (evict n size number w.base w.slots).1.slots.length ≤
      ahead n (evict n size number w.base w.slots).1.base number := by
  rw [evict_eq hn hsize]
  split
  · simp
  · rename_i hsome
    simp only [List.length_drop]
    rw [ahead_add_left hn (by omega)]
    omega

/-! ## The cases of a push -/

section Push
variable {policy : Policy} {w : Window α} {number : Nat} (x : α)

theorem push_before (h : n ≤ 2 * ahead n w.base number) :
    push n size policy w number x = (w, [(number, x)]) := by
  simp only [push, if_pos h]

theorem push_present (h : (w.lookup n number).isSome) :
    push n size policy w number x = (w, [(number, x)]) := by
  simp only [push, if_pos h, ite_self]

theorem push_fits (hhalf : 2 * ahead n w.base number < n)
    (habsent : (w.lookup n number).isSome = false) (hfits : ahead n w.base number < size) :
    push n size policy w number x = (w.place (ahead n w.base number) x, []) := by
  simp only [push, if_neg (Nat.not_le.mpr hhalf), habsent, Bool.false_eq_true, if_false, if_pos hfits]

theorem push_refuseNew (hfar : size ≤ ahead n w.base number) :
    push n size .refuseNew w number x = (w, [(number, x)]) := by
  simp only [push, if_neg (Nat.not_lt.mpr hfar), ite_self]

/-- After an eviction the new element is in the last of `size` slots, or alone. -/
theorem push_evictOld (hn : 0 < n) (hsize : 0 < size) (hhalf : 2 * ahead n w.base number < n)
    (hlen : w.slots.length ≤ size) (hfar : size ≤ ahead n w.base number) :
    push n size .evictOld w number x =
      (if w.slots.length ≤ ahead n w.base number + 1 - size then
          place ⟨w.base + ahead n w.base number, []⟩ 0 x
        else place ⟨w.base + (ahead n w.base number + 1 - size),
          w.slots.drop (ahead n w.base number + 1 - size)⟩ (size - 1) x,
      numbered (fun j => (w.base + j) % n) (w.slots.take (ahead n w.base number + 1 - size))) := by
  have habsent : w.lookup n number = none := slot_none_of_le (hlen.trans hfar)
  simp only [push, if_neg (Nat.not_le.mpr hhalf), habsent, Option.isSome_none, Bool.false_eq_true,
    if_false, if_neg (Nat.not_lt.mpr hfar), evict_eq hn hsize]
  split
  · rw [ahead_add_left hn le_rfl, Nat.sub_self]
  · rw [ahead_add_left hn (by omega)]
    congr 2
    omega

end Push

/-! ## The base -/

theorem base_le_evict (hn : 0 < n) (hsize : 0 < size) (number base : Nat)
    (slots : List (Option α)) : base ≤ (evict n size number base slots).1.base := by
  rw [evict_eq hn hsize]
  split <;> exact Nat.le_add_right _ _

theorem base_le_push (hn : 0 < n) (hsize : 0 < size) (policy : Policy) (w : Window α)
    (number : Nat) (x : α) : w.base ≤ (push n size policy w number x).1.base := by
  unfold push
  simp only []
  split
  · exact le_rfl
  split
  · exact le_rfl
  split
  · exact le_rfl
  cases policy with
  | refuseNew => exact le_rfl
  | evictOld => exact base_le_evict hn hsize number w.base w.slots

theorem push_refuseNew_base (w : Window α) (number : Nat) (x : α) :
    (push n size .refuseNew w number x).1.base = w.base := by
  unfold push
  simp only []
  repeat' split
  all_goals rfl

theorem pull_of_none {w : Window α} (h : w.pull.2 = none) : w.pull.1 = w := by
  unfold pull at h ⊢
  split at h <;> simp_all

theorem base_le_pull (w : Window α) : w.base ≤ w.pull.1.base := by
  unfold pull
  split <;> simp

theorem push_numbers_lt (hn : 0 < n) (hsize : 0 < size) (policy : Policy) (w : Window α)
    {number : Nat} (hnumber : number < n) (x : α) :
    ∀ p ∈ (push n size policy w number x).2, p.1 < n := by
  have self : ∀ p ∈ [(number, x)], p.1 < n := by simpa using hnumber
  unfold push
  simp only []
  split
  · exact self
  split
  · exact self
  split
  · simp
  cases policy with
  | refuseNew => exact self
  | evictOld =>
      intro p member
      simp only [evict_eq hn hsize] at member
      obtain ⟨j, -, hp⟩ := mem_numbered.mp member
      exact hp ▸ Nat.mod_lt _ hn

/-! ## The accounts -/

/-- Every element is afterwards in the window or was handed out, and none twice. -/
theorem push_conserves (hn : 0 < n) (hsize : 0 < size) (policy : Policy) {w : Window α}
    (hlen : w.slots.length ≤ size) {number : Nat} (hnumber : number < n) (x : α) :
    ((push n size policy w number x).2 ++ contents n (push n size policy w number x).1).Perm
      ((number, x) :: contents n w) := by
  unfold push
  simp only []
  split
  · exact .refl _
  split
  · exact .refl _
  rename_i habsent
  have hslot : (w.slots[ahead n w.base number]?).join = none := by simpa [lookup] using habsent
  split
  · have hplace := contents_place (n := n) (x := x) hslot
    rwa [add_ahead hn, Nat.mod_eq_of_lt hnumber] at hplace
  rename_i hfar
  cases policy with
  | refuseNew => exact .refl _
  | evictOld =>
      have hle := evict_slots_le hn hsize number (w := w) (by omega)
      have hplace := contents_place (n := n) (x := x) (slot_none_of_le hle)
      rw [add_ahead hn, Nat.mod_eq_of_lt hnumber] at hplace
      refine (hplace.append_left _).trans (List.perm_middle.trans ?_)
      rw [contents_evict hn hsize]

theorem pull_of_some {w : Window α} {p : Nat × α} (h : w.pull.2 = some p) :
    p.1 = w.base ∧ w.pull.1.base = w.base + 1 ∧ w.slots = some p.2 :: w.pull.1.slots := by
  unfold pull at h ⊢
  split at h
  · rename_i x rest hslots
    obtain rfl := Option.some.inj h
    exact ⟨rfl, rfl, hslots⟩
  · simp at h

theorem contents_pull {w : Window α} {p : Nat × α} (h : w.pull.2 = some p) :
    contents n w = (p.1 % n, p.2) :: contents n w.pull.1 := by
  obtain ⟨hbase, hnext, hslots⟩ := pull_of_some h
  simp only [contents, hslots, numbered, Nat.add_zero, Option.map_some, Option.toList_some,
    List.singleton_append, hbase, hnext, List.cons.injEq, true_and]
  apply numbered_congr
  intro j _ _
  rw [Nat.add_assoc, Nat.add_comm 1 j]

/-! ## Pulling until a slot is empty -/

def drain (base : Nat) : List (Option α) → Window α × List (Nat × α)
  | some x :: rest =>
      let r := drain (base + 1) rest
      (r.1, (base, x) :: r.2)
  | slots => (⟨base, slots⟩, [])

theorem drain_head (base : Nat) (slots : List (Option α)) (x : α) (rest : List (Option α)) :
    (drain base slots).1.slots ≠ some x :: rest := by
  fun_induction drain base slots with
  | case1 base y rest' r ih => exact ih
  | case2 base slots empty => exact empty x rest

theorem drain_base (base : Nat) (slots : List (Option α)) :
    (drain base slots).1.base = base + (drain base slots).2.length := by
  fun_induction drain base slots with
  | case1 base x rest r ih =>
      rw [List.length_cons, Nat.add_comm _ 1, ← Nat.add_assoc]
      exact ih
  | case2 base slots => rfl

theorem drain_positions (base : Nat) (slots : List (Option α)) :
    (drain base slots).2.map Prod.fst = List.range' base (drain base slots).2.length := by
  fun_induction drain base slots with
  | case1 base x rest r ih => rw [List.map_cons, ih, List.length_cons, List.range'_succ]
  | case2 base slots => rfl

theorem drain_slots (base : Nat) (slots : List (Option α)) :
    slots = (drain base slots).2.map (fun p => some p.2) ++ (drain base slots).1.slots := by
  fun_induction drain base slots with
  | case1 base x rest r ih => rw [List.map_cons, List.cons_append, ← ih]
  | case2 base slots => rfl

end Window
end SlotWindow
