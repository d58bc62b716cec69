import Chiaki.Lib.Memory

/-!
# Removing cells of an array in place

Cells are removed one after the other, from the front to the back. Behind the cells that are kept lies
one gap of removed cells, and the block between it and the next removed cell is moved over it only when
that cell is reached.
-/

namespace Memory

variable {β : Type*}

structure Sieve (β : Type*) where
  cells : List β
  /-- Where the gap starts, once there is one. -/
  gapStart : Option Nat
  gapSize : Nat

namespace Sieve

def start (cells : List β) : Sieve β := ⟨cells, none, 0⟩

/-- Remove cell `i`, which lies behind the gap. -/
def remove (s : Sieve β) (i : Nat) : Option (Sieve β) :=
  match s.gapStart with
  | none => some { s with gapStart := some i, gapSize := 1 }
  | some gap =>
      if gap + s.gapSize = i then some { s with gapSize := s.gapSize + 1 }
      else (move s.cells gap (gap + s.gapSize) (i - (gap + s.gapSize))).map fun cells =>
        ⟨cells, some (i - s.gapSize), s.gapSize + 1⟩

/-- Move what lies behind the gap and say how many of the first `count` cells are left. -/
def close (s : Sieve β) (count : Nat) : Option (List β × Nat) :=
  match s.gapStart with
  | none => some (s.cells, count)
  | some gap =>
      if gap + s.gapSize < count then
        (move s.cells gap (gap + s.gapSize) (count - (gap + s.gapSize))).map fun cells =>
          (cells, count - s.gapSize)
      else some (s.cells, count - s.gapSize)

/-- Look at the cells from `i` on and remove those that meet `drop`. They go to an array of `capacity` cells. -/
def sieveFrom (drop : β → Bool) (capacity : Nat) : (left i : Nat) → Sieve β → (removed : List β) →
    Option (Sieve β × List β)
  | 0, _, s, removed => some (s, removed)
  | left + 1, i, s, removed =>
      match s.cells[i]? with
      | none => none
      | some cell =>
          if drop cell then
            if removed.length ≥ capacity then none
            else
              match s.remove i with
              | none => none
              | some s => sieveFrom drop capacity left (i + 1) s (removed ++ [cell])
          else sieveFrom drop capacity left (i + 1) s removed

/-- What is left of the first `count` cells, and what was removed. -/
def sieve (drop : β → Bool) (capacity : Nat) (cells : List β) (count : Nat) :
    Option ((List β × Nat) × List β) :=
  (sieveFrom drop capacity count 0 (start cells) []).bind fun r => (r.1.close count).map fun c => (c, r.2)

/-- The first `i` cells have been looked at and `kept` is what is left of them. -/
structure Sieving (original : List β) (i : Nat) (kept : List β) (s : Sieve β) : Prop where
  length_eq : s.cells.length = original.length
  ahead : s.cells.drop i = original.drop i
  bound : i ≤ original.length
  count : kept.length + s.gapSize = i
  split : match s.gapStart with
    | none => s.gapSize = 0 ∧ s.cells.take i = kept
    | some gap => gap + s.gapSize ≤ i ∧
        s.cells.take gap ++ (s.cells.take i).drop (gap + s.gapSize) = kept

theorem start_sieving (cells : List β) : Sieving cells 0 [] (start cells) :=
  ⟨rfl, rfl, Nat.zero_le _, rfl, rfl, rfl⟩

section Sieving
variable {original kept : List β} {i : Nat} {s : Sieve β} (h : Sieving original i kept s)
include h

theorem Sieving.cell (inside : i < original.length) : s.cells[i]? = some original[i] := by
  have same := congrArg (fun l => l[0]?) h.ahead
  simpa [List.getElem?_drop, List.getElem?_eq_getElem inside] using same

theorem Sieving.keep (inside : i < original.length) :
    Sieving original (i + 1) (kept ++ [original[i]]) s where
  length_eq := h.length_eq
  ahead := by rw [← List.drop_drop, ← List.drop_drop, h.ahead]
  bound := inside
  count := by
    have count := h.count
    rw [List.length_append, List.length_singleton]
    omega
  split := by
    have here := h.cell inside
    have length := h.length_eq
    have split := h.split
    have next : s.cells.take (i + 1) = s.cells.take i ++ [original[i]] := by
      rw [List.take_add_one, here]
      rfl
    cases gapStart : s.gapStart with
    | none =>
        rw [gapStart] at split
        exact ⟨split.1, by rw [next, split.2]⟩
    | some gap =>
        rw [gapStart] at split
        refine ⟨by have := split.1; omega, ?_⟩
        rw [next, List.drop_append_of_le_length (by rw [List.length_take]; have := split.1; omega),
          ← List.append_assoc, split.2]

theorem Sieving.closed {gap : Nat} (gapStart : s.gapStart = some gap) :
    ∃ cells, move s.cells gap (gap + s.gapSize) (i - (gap + s.gapSize)) = some cells ∧
      cells.length = original.length ∧ cells.take (i - s.gapSize) = kept ∧
      cells.drop i = original.drop i := by
  have split := h.split
  rw [gapStart] at split
  obtain ⟨below, kept_eq⟩ := split
  have bound := h.bound
  have length := h.length_eq
  obtain ⟨cells, hmove⟩ := exists_move s.cells gap (gap + s.gapSize) (i - (gap + s.gapSize)) (by omega)
    (by omega)
  have same := length_of_move hmove
  refine ⟨cells, hmove, same.trans length, ?_, ?_⟩
  · rw [← kept_eq]
    apply List.ext_getElem?
    intro j
    have front : (s.cells.take gap).length = gap := by
      rw [List.length_take]
      omega
    by_cases before : j < gap
    · rw [List.getElem?_take_of_lt (by omega), getElem?_of_move hmove, if_neg (by omega),
        List.getElem?_append_left (by omega), List.getElem?_take_of_lt before]
    · rw [List.getElem?_append_right (by omega), front, List.getElem?_drop]
      by_cases within : j < i - s.gapSize
      · rw [List.getElem?_take_of_lt within, getElem?_of_move hmove, if_pos (by omega),
          List.getElem?_take_of_lt (by omega)]
      · rw [List.getElem?_eq_none (by rw [List.length_take]; omega),
          List.getElem?_eq_none (by rw [List.length_take]; omega)]
  · rw [← h.ahead]
    apply List.ext_getElem?
    intro j
    rw [List.getElem?_drop, List.getElem?_drop, getElem?_of_move hmove, if_neg (by omega)]

theorem Sieving.remove (inside : i < original.length) :
    ∃ s', s.remove i = some s' ∧ Sieving original (i + 1) kept s' := by
  have count := h.count
  have length := h.length_eq
  have ahead (cells : List β) (same : cells.drop i = original.drop i) :
      cells.drop (i + 1) = original.drop (i + 1) := by
    rw [← List.drop_drop, ← List.drop_drop, same]
  unfold Sieve.remove
  cases gapStart : s.gapStart with
  | none =>
      have split := h.split
      rw [gapStart] at split
      refine ⟨_, rfl, length, ahead _ h.ahead, inside, by dsimp only; omega, le_rfl, ?_⟩
      have all : (s.cells.take (i + 1)).drop (i + 1) = [] :=
        List.drop_eq_nil_of_le (List.length_take_le _ _)
      dsimp only
      rw [all, List.append_nil, split.2]
  | some gap =>
      have split := h.split
      rw [gapStart] at split
      dsimp only
      by_cases touching : gap + s.gapSize = i
      · rw [if_pos touching]
        refine ⟨_, rfl, length, ahead _ h.ahead, inside, by dsimp only; omega, ?_⟩
        have none_ahead : (s.cells.take i).drop (gap + s.gapSize) = [] :=
          List.drop_eq_nil_of_le ((List.length_take_le _ _).trans touching.ge)
        have none_ahead' : (s.cells.take (i + 1)).drop (gap + (s.gapSize + 1)) = [] :=
          List.drop_eq_nil_of_le ((List.length_take_le _ _).trans (by omega))
        refine ⟨by dsimp only; omega, ?_⟩
        dsimp only
        rw [none_ahead', ← split.2, none_ahead]
      · rw [if_neg touching]
        obtain ⟨cells, hmove, length', kept_eq, same⟩ := h.closed gapStart
        rw [hmove]
        refine ⟨_, rfl, length', ahead _ same, inside, by dsimp only; omega, ?_, ?_⟩
        · dsimp only
          omega
        · have none_ahead : (cells.take (i + 1)).drop (i - s.gapSize + (s.gapSize + 1)) = [] :=
            List.drop_eq_nil_of_le ((List.length_take_le _ _).trans (by omega))
          dsimp only
          rw [none_ahead, List.append_nil, kept_eq]

theorem Sieving.close : ∃ cells, s.close i = some (cells, kept.length) ∧
    cells.length = original.length ∧ cells.take kept.length = kept := by
  have count := h.count
  have length := h.length_eq
  unfold Sieve.close
  cases gapStart : s.gapStart with
  | none =>
      have split := h.split
      rw [gapStart] at split
      refine ⟨s.cells, by dsimp only; rw [show kept.length = i by omega], length, ?_⟩
      rw [show kept.length = i by omega, split.2]
  | some gap =>
      have split := h.split
      rw [gapStart] at split
      dsimp only
      by_cases behind : gap + s.gapSize < i
      · rw [if_pos behind]
        obtain ⟨cells, hmove, length', kept_eq, -⟩ := h.closed gapStart
        rw [hmove]
        refine ⟨cells, ?_, length', ?_⟩
        · rw [show kept.length = i - s.gapSize by omega]
          rfl
        · rw [show kept.length = i - s.gapSize by omega, kept_eq]
      · rw [if_neg behind]
        have none_ahead : (s.cells.take i).drop (gap + s.gapSize) = [] :=
          List.drop_eq_nil_of_le ((List.length_take_le _ _).trans (by omega))
        refine ⟨s.cells, ?_, length, ?_⟩
        · rw [show kept.length = i - s.gapSize by omega]
        · rw [show kept.length = gap by omega, ← split.2, none_ahead, List.append_nil]

end Sieving

section Loop
variable (drop : β → Bool) (capacity : Nat)

/-- The kept cells move together, the others are listed; unless the list does not hold them. -/
theorem sieveFrom_eq {original : List β} {left i : Nat} {s : Sieve β}
    (sieving : Sieving original i ((original.take i).filter (!drop ·)) s) (all : i + left ≤ original.length)
    (fits : ((original.take i).filter drop).length ≤ capacity) :
    if ((original.take (i + left)).filter drop).length ≤ capacity then
      ∃ s', sieveFrom drop capacity left i s ((original.take i).filter drop) =
          some (s', (original.take (i + left)).filter drop) ∧
        Sieving original (i + left) ((original.take (i + left)).filter (!drop ·)) s'
    else sieveFrom drop capacity left i s ((original.take i).filter drop) = none := by
  induction left generalizing i s with
  | zero =>
      rw [Nat.add_zero, if_pos fits]
      exact ⟨s, rfl, sieving⟩
  | succ left ih =>
      have next : original.take (i + 1) = original.take i ++ [original[i]] := by
        rw [List.take_add_one, List.getElem?_eq_getElem (by omega)]
        rfl
      have cell : s.cells[i]? = some original[i] := sieving.cell (by omega)
      rw [sieveFrom, cell, show i + (left + 1) = i + 1 + left by omega]
      dsimp only
      by_cases dropped : drop original[i]
      · have removed : (original.take (i + 1)).filter drop = (original.take i).filter drop ++ [original[i]] := by
          rw [next, List.filter_append, List.filter_cons_of_pos dropped, List.filter_nil]
        have kept : (original.take (i + 1)).filter (!drop ·) = (original.take i).filter (!drop ·) := by
          rw [next, List.filter_append, List.filter_cons_of_neg (by simp [dropped]), List.filter_nil,
            List.append_nil]
        rw [if_pos dropped]
        by_cases full : ((original.take i).filter drop).length ≥ capacity
        · have prefix' : original.take (i + 1) <+: original.take (i + 1 + left) :=
            List.take_prefix_take_left (by omega)
          have more := (prefix'.sublist.filter drop).length_le
          rw [removed, List.length_append, List.length_singleton] at more
          rw [if_pos full, if_neg (by omega)]
        · obtain ⟨s', moved, sieving'⟩ := sieving.remove (by omega)
          rw [if_neg full, moved, ← removed]
          rw [← kept] at sieving'
          apply ih sieving' (by omega)
          rw [removed, List.length_append, List.length_singleton]
          omega
      · have removed : (original.take (i + 1)).filter drop = (original.take i).filter drop := by
          rw [next, List.filter_append, List.filter_cons_of_neg dropped, List.filter_nil, List.append_nil]
        have kept : (original.take (i + 1)).filter (!drop ·) =
            (original.take i).filter (!drop ·) ++ [original[i]] := by
          rw [next, List.filter_append, List.filter_cons_of_pos (by simp [dropped]), List.filter_nil]
        have sieving' := sieving.keep (by omega)
        rw [← kept] at sieving'
        rw [if_neg dropped, ← removed]
        exact ih sieving' (by omega) (by rw [removed]; exact fits)

variable {cells : List β} {count : Nat} (inside : count ≤ cells.length)
include inside

theorem sieve_eq (fits : ((cells.take count).filter drop).length ≤ capacity) :
    ∃ cells', sieve drop capacity cells count =
        some ((cells', ((cells.take count).filter (!drop ·)).length), (cells.take count).filter drop) ∧
      cells'.length = cells.length ∧
      cells'.take ((cells.take count).filter (!drop ·)).length = (cells.take count).filter (!drop ·) := by
  have looped := @sieveFrom_eq _ drop capacity cells count 0 _ (start_sieving cells) (by omega) (Nat.zero_le _)
  rw [Nat.zero_add, if_pos fits] at looped
  obtain ⟨s, removed, sieving⟩ := looped
  obtain ⟨cells', closed, length, kept⟩ := sieving.close
  refine ⟨cells', ?_, length, kept⟩
  change sieveFrom drop capacity count 0 (start cells) [] = _ at removed
  rw [sieve, removed, Option.bind_some, closed]
  rfl

omit inside in
theorem kept_inside (drop : β → Bool) : ((cells.take count).filter (!drop ·)).length ≤ cells.length := by
  calc ((cells.take count).filter (!drop ·)).length
      ≤ (cells.take count).length := List.length_filter_le _ _
    _ ≤ cells.length := List.length_take_le' _ _

theorem sieve_overrun (full : capacity < ((cells.take count).filter drop).length) :
    sieve drop capacity cells count = none := by
  have looped := @sieveFrom_eq _ drop capacity cells count 0 _ (start_sieving cells) (by omega) (Nat.zero_le _)
  rw [Nat.zero_add, if_neg (by omega)] at looped
  change sieveFrom drop capacity count 0 (start cells) [] = _ at looped
  rw [sieve, looped]
  rfl

end Loop
end Sieve
end Memory
