import Mathlib.Tactic

/-!
# Bounded memory

One allocated block of memory is a list. Reads, writes and moves give a result exactly when they stay
inside the block. `pack` is the in-place compaction of a row of segments; `gather` and `scatter` read
and write records at a fixed stride.
-/

namespace Memory

variable {β : Type*}

def read (buf : List β) (offset len : Nat) : Option (List β) :=
  if offset + len ≤ buf.length then some ((buf.drop offset).take len) else none

def write (buf : List β) (offset : Nat) (data : List β) : Option (List β) :=
  if offset + data.length ≤ buf.length then
    some (buf.take offset ++ data ++ buf.drop (offset + data.length))
  else none

/-- `memmove` inside one block. -/
def move (buf : List β) (dest source len : Nat) : Option (List β) :=
  (read buf source len).bind (write buf dest)

/-! ## Reads and writes -/

theorem read_eq_some {buf : List β} {offset len : Nat} (inside : offset + len ≤ buf.length) :
    read buf offset len = some ((buf.drop offset).take len) := if_pos inside

theorem length_of_read {buf data : List β} {offset len : Nat} (h : read buf offset len = some data) :
    data.length = len ∧ offset + len ≤ buf.length := by
  unfold read at h
  split at h
  · rename_i inside
    obtain rfl := Option.some.inj h
    simp only [List.length_take, List.length_drop]
    omega
  · simp at h

theorem getElem?_of_read {buf data : List β} {offset len : Nat}
    (h : read buf offset len = some data) {i : Nat} (bound : i < len) :
    data[i]? = buf[offset + i]? := by
  unfold read at h
  split at h
  · obtain rfl := Option.some.inj h
    rw [List.getElem?_take_of_lt bound, List.getElem?_drop]
  · simp at h

theorem read_congr {buf buf' : List β} {offset len : Nat} (length : buf.length = buf'.length)
    (same : ∀ i, offset ≤ i → i < offset + len → buf[i]? = buf'[i]?) :
    read buf offset len = read buf' offset len := by
  unfold read
  rw [length]
  split
  · congr 1
    apply List.ext_getElem?
    intro i
    by_cases bound : i < len
    · rw [List.getElem?_take_of_lt bound, List.getElem?_take_of_lt bound, List.getElem?_drop,
        List.getElem?_drop]
      exact same _ (Nat.le_add_right _ _) (Nat.add_lt_add_left bound _)
    · rw [List.getElem?_eq_none, List.getElem?_eq_none] <;> simp only [List.length_take] <;> omega
  · rfl

theorem write_eq_some {buf data : List β} {offset : Nat} (inside : offset + data.length ≤ buf.length) :
    write buf offset data = some (buf.take offset ++ data ++ buf.drop (offset + data.length)) :=
  if_pos inside

theorem exists_write (buf data : List β) (offset : Nat) (inside : offset + data.length ≤ buf.length) :
    ∃ buf', write buf offset data = some buf' := ⟨_, write_eq_some inside⟩

theorem length_of_write {buf buf' data : List β} {offset : Nat}
    (h : write buf offset data = some buf') : buf'.length = buf.length := by
  unfold write at h
  split at h
  · obtain rfl := Option.some.inj h
    simp only [List.length_append, List.length_take, List.length_drop]
    omega
  · simp at h

theorem getElem?_of_write {buf buf' data : List β} {offset : Nat}
    (h : write buf offset data = some buf') (i : Nat) :
    buf'[i]? = if offset ≤ i ∧ i < offset + data.length then data[i - offset]? else buf[i]? := by
  unfold write at h
  split at h
  · rename_i inside
    obtain rfl := Option.some.inj h
    rw [List.append_assoc]
    have front : (buf.take offset).length = offset := by
      rw [List.length_take]
      omega
    by_cases before : i < offset
    · rw [if_neg (by omega), List.getElem?_append_left (by omega), List.getElem?_take_of_lt before]
    · rw [List.getElem?_append_right (by omega), front]
      by_cases within : i < offset + data.length
      · rw [if_pos (by omega), List.getElem?_append_left (by omega)]
      · rw [if_neg (by omega), List.getElem?_append_right (by omega), List.getElem?_drop]
        congr 1
        omega
  · simp at h

theorem take_of_write {buf buf' data : List β} {offset : Nat} (h : write buf offset data = some buf') :
    buf'.take (offset + data.length) = buf.take offset ++ data := by
  unfold write at h
  split at h
  · rename_i inside
    obtain rfl := Option.some.inj h
    have front : (buf.take offset ++ data).length = offset + data.length := by
      rw [List.length_append, List.length_take, Nat.min_eq_left (by omega)]
    rw [← front, List.take_left]
  · simp at h

theorem drop_of_write {buf buf' data : List β} {offset n : Nat} (h : write buf offset data = some buf')
    (behind : offset + data.length ≤ n) : buf'.drop n = buf.drop n := by
  apply List.ext_getElem?
  intro i
  rw [List.getElem?_drop, List.getElem?_drop, getElem?_of_write h, if_neg (by omega)]

theorem read_of_write {buf buf' data : List β} {offset : Nat}
    (h : write buf offset data = some buf') : read buf' offset data.length = some data := by
  have length := length_of_write h
  have inside : offset + data.length ≤ buf.length := by
    by_contra outside
    simp [write, outside] at h
  rw [read_eq_some (by omega)]
  congr 1
  apply List.ext_getElem?
  intro i
  by_cases bound : i < data.length
  · rw [List.getElem?_take_of_lt bound, List.getElem?_drop, getElem?_of_write h, if_pos (by omega)]
    congr 1
    omega
  · rw [List.getElem?_eq_none (by simp only [List.length_take]; omega),
      List.getElem?_eq_none (by omega)]

theorem read_of_write_disjoint {buf buf' data : List β} {offset offset' len : Nat}
    (h : write buf offset data = some buf')
    (disjoint : offset' + len ≤ offset ∨ offset + data.length ≤ offset') :
    read buf' offset' len = read buf offset' len := by
  apply read_congr (length_of_write h)
  intro i low high
  rw [getElem?_of_write h, if_neg (by omega)]

theorem read_of_write_front {buf buf' data old : List β} {offset len : Nat}
    (h : write buf offset data = some buf') (record : read buf offset len = some old)
    (short : data.length ≤ len) : read buf' offset len = some (data ++ old.drop data.length) := by
  have length := length_of_write h
  obtain ⟨size, inside⟩ := length_of_read record
  rw [read_eq_some (by omega)]
  congr 1
  apply List.ext_getElem?
  intro i
  by_cases bound : i < len
  · rw [List.getElem?_take_of_lt bound, List.getElem?_drop, getElem?_of_write h]
    by_cases front : i < data.length
    · rw [if_pos (by omega), List.getElem?_append_left front, Nat.add_sub_cancel_left]
    · rw [if_neg (by omega), List.getElem?_append_right (by omega), List.getElem?_drop,
        ← getElem?_of_read record bound]
      congr 1
      omega
  · rw [List.getElem?_eq_none (by simp only [List.length_take]; omega), List.getElem?_eq_none]
    rw [List.length_append, List.length_drop]
    omega

theorem read_eq_replicate {buf : List β} {offset len : Nat} {b : β} (inside : offset + len ≤ buf.length)
    (same : ∀ i, offset ≤ i → i < offset + len → buf[i]? = some b) :
    read buf offset len = some (List.replicate len b) := by
  rw [read_eq_some inside]
  congr 1
  apply List.ext_getElem?
  intro i
  by_cases bound : i < len
  · rw [List.getElem?_take_of_lt bound, List.getElem?_drop, same _ (by omega) (by omega),
      List.getElem?_replicate, if_pos bound]
  · rw [List.getElem?_eq_none (by simp only [List.length_take]; omega),
      List.getElem?_eq_none (by rw [List.length_replicate]; omega)]

theorem take_of_read {buf data : List β} {offset len len' : Nat} (h : read buf offset len = some data)
    (shorter : len' ≤ len) : read buf offset len' = some (data.take len') := by
  obtain ⟨-, inside⟩ := length_of_read h
  rw [read_eq_some inside] at h
  rw [read_eq_some (by omega), ← Option.some.inj h, List.take_take, Nat.min_eq_left shorter]

theorem part_of_read {buf data rest : List β} {offset len skip : Nat}
    (h : read buf offset len = some (data ++ rest)) (enough : skip ≤ data.length) :
    (buf.drop (offset + skip)).take (data.length - skip) = data.drop skip := by
  obtain ⟨size, inside⟩ := length_of_read h
  rw [List.length_append] at size
  apply List.ext_getElem?
  intro i
  by_cases bound : i < data.length - skip
  · rw [List.getElem?_take_of_lt bound, List.getElem?_drop, List.getElem?_drop, Nat.add_assoc,
      ← getElem?_of_read h (by omega), List.getElem?_append_left (by omega)]
  · rw [List.getElem?_eq_none (by simp only [List.length_take]; omega),
      List.getElem?_eq_none (by rw [List.length_drop]; omega)]

theorem write_eq_self_iff {buf data : List β} {offset : Nat} :
    write buf offset data = some buf ↔ read buf offset data.length = some data := by
  constructor
  · exact read_of_write
  · intro h
    obtain ⟨-, inside⟩ := length_of_read h
    obtain ⟨buf', written⟩ := exists_write buf data offset inside
    rw [written, Option.some.injEq]
    apply List.ext_getElem?
    intro i
    rw [getElem?_of_write written]
    split
    · rw [getElem?_of_read h (by omega), Nat.add_sub_cancel' (by omega)]
    · rfl

/-! ## Moves -/

theorem exists_move (buf : List β) (dest source len : Nat) (inside : source + len ≤ buf.length)
    (order : dest ≤ source) : ∃ buf', move buf dest source len = some buf' := by
  have length := (length_of_read (read_eq_some inside)).1
  obtain ⟨buf', written⟩ := exists_write buf ((buf.drop source).take len) dest (by omega)
  exact ⟨buf', by rw [move, read_eq_some inside, Option.bind_some, written]⟩

theorem move_down (kept : List β) (x : β) (rest junk : List β) :
    ∃ junk', move (kept ++ x :: (rest ++ junk)) kept.length (kept.length + 1) rest.length =
      some (kept ++ (rest ++ junk')) := by
  have source : read (kept ++ x :: (rest ++ junk)) (kept.length + 1) rest.length = some rest := by
    rw [read_eq_some (by simp; omega), ← List.drop_drop, List.drop_left]
    simp
  refine ⟨(x :: (rest ++ junk)).drop rest.length, ?_⟩
  rw [move, source, Option.bind_some, write_eq_some (by simp; omega), List.take_left, ← List.drop_drop,
    List.drop_left, List.append_assoc]

theorem length_of_move {buf buf' : List β} {dest source len : Nat}
    (h : move buf dest source len = some buf') : buf'.length = buf.length := by
  obtain ⟨data, -, written⟩ := Option.bind_eq_some_iff.mp h
  exact length_of_write written

theorem getElem?_of_move {buf buf' : List β} {dest source len : Nat}
    (h : move buf dest source len = some buf') (i : Nat) :
    buf'[i]? = if dest ≤ i ∧ i < dest + len then buf[source + (i - dest)]? else buf[i]? := by
  obtain ⟨data, loaded, written⟩ := Option.bind_eq_some_iff.mp h
  have length := (length_of_read loaded).1
  rw [getElem?_of_write written, length]
  split
  · exact getElem?_of_read loaded (by omega)
  · rfl

/-! ## Packing a row of segments -/

/-- Move the segments (offset, length) one after the other to the cursor. -/
def pack : List (Nat × Nat) → Nat → List β → Option (List β × Nat)
  | [], cur, buf => some (buf, cur)
  | (source, len) :: rest, cur, buf => (move buf cur source len).bind (pack rest (cur + len))

/-- The segments lie in order, from `floor` on, inside the first `limit` cells. -/
def Ascending (limit : Nat) : Nat → List (Nat × Nat) → Prop
  | _, [] => True
  | floor, (source, len) :: rest =>
      floor ≤ source ∧ source + len ≤ limit ∧ Ascending limit (source + len) rest

def total (segments : List (Nat × Nat)) : Nat := (segments.map (·.2)).sum

def joined (buf : List β) (segments : List (Nat × Nat)) : List β :=
  segments.flatMap fun s => (buf.drop s.1).take s.2

@[simp] theorem total_nil : total [] = 0 := rfl

@[simp] theorem total_cons (s : Nat × Nat) (rest : List (Nat × Nat)) :
    total (s :: rest) = s.2 + total rest := by
  simp [total]

theorem joined_congr {buf buf' : List β} {limit floor : Nat} {segments : List (Nat × Nat)}
    (ascending : Ascending limit floor segments)
    (same : ∀ i, floor ≤ i → buf[i]? = buf'[i]?) : joined buf segments = joined buf' segments := by
  induction segments generalizing floor with
  | nil => rfl
  | cons s rest ih =>
      obtain ⟨source, len⟩ := s
      obtain ⟨low, -, later⟩ := ascending
      have tail := ih later fun i bound => same i (by omega)
      have head : buf.drop source = buf'.drop source := by
        apply List.ext_getElem?
        intro i
        rw [List.getElem?_drop, List.getElem?_drop]
        exact same _ (by omega)
      simp only [joined, List.flatMap_cons] at tail ⊢
      rw [head, tail]

/-- Packing ascending segments with the cursor below them never touches a segment still to be moved:
the result is the concatenation of the segments as they were, and what lies behind them stays. -/
theorem pack_ascending {segments : List (Nat × Nat)} {limit floor cur : Nat} {buf : List β}
    (ascending : Ascending limit floor segments) (room : limit ≤ buf.length) (below : cur ≤ floor)
    (inside : cur ≤ limit) :
    ∃ buf', pack segments cur buf = some (buf', cur + total segments) ∧
      buf'.length = buf.length ∧
      buf'.take (cur + total segments) = buf.take cur ++ joined buf segments ∧
      cur + total segments ≤ limit ∧ ∀ i, limit ≤ i → buf'[i]? = buf[i]? := by
  induction segments generalizing floor cur buf with
  | nil => exact ⟨buf, rfl, rfl, by simp [joined], inside, fun _ _ => rfl⟩
  | cons s rest ih =>
      obtain ⟨source, len⟩ := s
      obtain ⟨low, fits, later⟩ := ascending
      obtain ⟨moved, hmove⟩ := exists_move buf cur source len (by omega) (by omega)
      have length := length_of_move hmove
      obtain ⟨buf', hpack, length', content, bound, behind⟩ :=
        @ih (source + len) (cur + len) moved later (by omega) (by omega) (by omega)
      have untouched : joined moved rest = joined buf rest := by
        apply joined_congr later
        intro i far
        rw [getElem?_of_move hmove, if_neg (by omega)]
      have front : moved.take (cur + len) = buf.take cur ++ (buf.drop source).take len := by
        apply List.ext_getElem?
        intro i
        by_cases before : i < cur
        · rw [List.getElem?_take_of_lt (by omega), getElem?_of_move hmove, if_neg (by omega),
            List.getElem?_append_left (by rw [List.length_take]; omega),
            List.getElem?_take_of_lt before]
        · rw [List.getElem?_append_right (by rw [List.length_take]; omega), List.length_take,
            Nat.min_eq_left (by omega)]
          by_cases within : i < cur + len
          · rw [List.getElem?_take_of_lt within, getElem?_of_move hmove, if_pos (by omega),
              List.getElem?_take_of_lt (by omega), List.getElem?_drop]
          · rw [List.getElem?_eq_none, List.getElem?_eq_none] <;>
              simp only [List.length_take, List.length_drop] <;> omega
      refine ⟨buf', ?_, length'.trans length, ?_, by rw [total_cons]; omega, ?_⟩
      · rw [pack, hmove, Option.bind_some, hpack, total_cons, Nat.add_assoc]
      · rw [total_cons, ← Nat.add_assoc, content, front, untouched]
        simp [joined]
      · intro i far
        rw [behind i far, getElem?_of_move hmove, if_neg (by omega)]

/-! ## Records at a stride -/

/-- The records `i, i + 1, …`, `count` of them, of `size` cells each. -/
def gather (buf : List β) (stride size : Nat) : (count i : Nat) → Option (List (List β))
  | 0, _ => some []
  | count + 1, i =>
      (read buf (stride * i) size).bind fun record =>
        (gather buf stride size count (i + 1)).map (record :: ·)

def scatter (stride : Nat) : List (List β) → Nat → List β → Option (List β)
  | [], _, buf => some buf
  | record :: rest, i, buf => (write buf (stride * i) record).bind (scatter stride rest (i + 1))

theorem gather_eq {buf : List β} {stride size count i : Nat} (narrow : size ≤ stride)
    (inside : stride * (i + count) ≤ buf.length) :
    gather buf stride size count i =
      some ((List.range' i count).map fun j => (buf.drop (stride * j)).take size) := by
  induction count generalizing i with
  | zero => rfl
  | succ count ih =>
      have step : stride * (i + (count + 1)) = stride * i + stride * (count + 1) := Nat.mul_add _ _ _
      have more : stride ≤ stride * (count + 1) := Nat.le_mul_of_pos_right _ (Nat.succ_pos _)
      have rest := ih (i := i + 1) (by rwa [Nat.add_assoc, Nat.add_comm 1 count])
      rw [gather, read_eq_some (by omega), Option.bind_some, rest]
      rfl

theorem length_of_scatter {stride : Nat} {records : List (List β)} {i : Nat} {buf buf' : List β}
    (h : scatter stride records i buf = some buf') : buf'.length = buf.length := by
  induction records generalizing i buf with
  | nil =>
      obtain rfl := Option.some.inj h
      rfl
  | cons record rest ih =>
      obtain ⟨written, hwrite, hrest⟩ := Option.bind_eq_some_iff.mp h
      rw [ih hrest, length_of_write hwrite]

theorem exists_scatter {stride size : Nat} {records : List (List β)} (i : Nat) (buf : List β)
    (narrow : size ≤ stride) (sizes : ∀ record ∈ records, record.length = size)
    (inside : stride * (i + records.length) ≤ buf.length) :
    ∃ buf', scatter stride records i buf = some buf' ∧ buf'.length = buf.length ∧
      (∀ j, j < stride * i → buf'[j]? = buf[j]?) ∧
      ∀ j record, records[j]? = some record →
        read buf' (stride * (i + j)) size = some record := by
  induction records generalizing i buf with
  | nil => exact ⟨buf, rfl, rfl, fun _ _ => rfl, by simp⟩
  | cons record rest ih =>
      have size' : record.length = size := sizes record List.mem_cons_self
      have step : stride * (i + (rest.length + 1)) = stride * i + stride * (rest.length + 1) :=
        Nat.mul_add _ _ _
      have more : stride ≤ stride * (rest.length + 1) := Nat.le_mul_of_pos_right _ (Nat.succ_pos _)
      have next : stride * (i + 1) = stride * i + stride := Nat.mul_succ _ _
      simp only [List.length_cons] at inside
      obtain ⟨written, hwrite⟩ := exists_write buf record (stride * i) (by omega)
      have length := length_of_write hwrite
      obtain ⟨buf', hscatter, length', kept, found⟩ := @ih (i + 1) written
        (fun r member => sizes r (List.mem_cons_of_mem _ member))
        (by rw [length, Nat.add_assoc, Nat.add_comm 1]; exact inside)
      refine ⟨buf', by rw [scatter, hwrite, Option.bind_some, hscatter], length'.trans length, ?_, ?_⟩
      · intro j bound
        rw [kept j (by omega), getElem?_of_write hwrite, if_neg (by omega)]
      · intro j r at_
        cases j with
        | zero =>
            obtain rfl : record = r := by simpa using at_
            have here := read_of_write hwrite
            rw [size'] at here
            rw [Nat.add_zero, ← here]
            apply read_congr length'
            intro k low high
            exact kept k (by omega)
        | succ j =>
            rw [show i + (j + 1) = i + 1 + j by omega]
            exact found j r (by simpa using at_)

theorem gather_eq_some_iff {buf : List β} {stride size count i : Nat} {records : List (List β)} :
    gather buf stride size count i = some records ↔
      records.length = count ∧ ∀ j, j < count → read buf (stride * (i + j)) size = records[j]? := by
  induction count generalizing i records with
  | zero =>
      rw [gather, Option.some.injEq, List.length_eq_zero_iff]
      constructor
      · rintro rfl
        exact ⟨rfl, fun j bound => absurd bound (Nat.not_lt_zero j)⟩
      · rintro ⟨rfl, -⟩
        rfl
  | succ count ih =>
      constructor
      · intro h
        obtain ⟨record, first, h⟩ := Option.bind_eq_some_iff.mp h
        obtain ⟨rest, gathered, rfl⟩ := Option.map_eq_some_iff.mp h
        obtain ⟨length, reads⟩ := ih.mp gathered
        refine ⟨by rw [List.length_cons, length], fun j bound => ?_⟩
        cases j with
        | zero => exact first
        | succ j =>
            rw [← Nat.add_assoc, Nat.add_right_comm]
            exact reads j (by omega)
      · rintro ⟨length, reads⟩
        cases records with
        | nil => cases length
        | cons record rest =>
            have first := reads 0 (Nat.succ_pos _)
            rw [Nat.add_zero, List.getElem?_cons_zero] at first
            have later : gather buf stride size count (i + 1) = some rest := by
              refine ih.mpr ⟨Nat.succ.inj length, fun j bound => ?_⟩
              rw [Nat.add_right_comm, Nat.add_assoc]
              exact reads (j + 1) (by omega)
            rw [gather, first, Option.bind_some, later, Option.map_some]

theorem length_of_gather {buf : List β} {stride size count i : Nat} {records : List (List β)}
    (h : gather buf stride size count i = some records) : ∀ record ∈ records, record.length = size := by
  obtain ⟨length, reads⟩ := gather_eq_some_iff.mp h
  intro record member
  obtain ⟨j, bound, rfl⟩ := List.mem_iff_getElem.mp member
  have there := reads j (length ▸ bound)
  rw [List.getElem?_eq_getElem bound] at there
  exact (length_of_read there).1

/-- Records no longer than the stride stay in their own part of the block. -/
theorem getElem?_of_scatter {stride : Nat} {records : List (List β)} {i : Nat} {buf buf' : List β}
    (h : scatter stride records i buf = some buf') (sizes : ∀ record ∈ records, record.length ≤ stride)
    {j : Nat} (outside : j < stride * i ∨ stride * (i + records.length) ≤ j) : buf'[j]? = buf[j]? := by
  induction records generalizing i buf with
  | nil => rw [Option.some.inj h]
  | cons record rest ih =>
      obtain ⟨written, first, later⟩ := Option.bind_eq_some_iff.mp h
      have narrow := sizes record List.mem_cons_self
      have next : stride * (i + 1) = stride * i + stride := Nat.mul_succ _ _
      have length : i + 1 + rest.length = i + (record :: rest).length := by rw [List.length_cons]; omega
      have behind : stride * (i + 1) ≤ stride * (i + 1 + rest.length) :=
        Nat.mul_le_mul_left _ (Nat.le_add_right _ _)
      rw [length] at behind
      rw [ih later (fun r member => sizes r (List.mem_cons_of_mem _ member)) (by rw [length]; omega),
        getElem?_of_write first, if_neg (by omega)]

/-! ## Rows of fields -/

/-- Write the fields (offset, data) one after the other. -/
def writeAll : List (Nat × List β) → List β → Option (List β)
  | [], buf => some buf
  | (offset, data) :: rest, buf => (write buf offset data).bind (writeAll rest)

/-- Every field begins where the one before it ends. -/
def Adjacent : Nat → List (Nat × List β) → Prop
  | _, [] => True
  | start, (offset, data) :: rest => offset = start ∧ Adjacent (start + data.length) rest

theorem write_behind (done old data : List β) (inside : data.length ≤ old.length) :
    write (done ++ old) done.length data = some ((done ++ data) ++ old.drop data.length) := by
  rw [write_eq_some (by rw [List.length_append]; omega), List.take_left, List.drop_append]
  rw [List.drop_eq_nil_of_le (by omega), List.nil_append, Nat.add_sub_cancel_left]

theorem writeAll_adjacent {fields : List (Nat × List β)} {done old : List β} (adjacent : Adjacent done.length fields)
    (inside : (fields.flatMap Prod.snd).length ≤ old.length) :
    writeAll fields (done ++ old) =
      some (done ++ fields.flatMap Prod.snd ++ old.drop (fields.flatMap Prod.snd).length) := by
  induction fields generalizing done old with
  | nil => simp [writeAll]
  | cons field fields ih =>
      obtain ⟨offset, data⟩ := field
      obtain ⟨rfl, adjacent⟩ := adjacent
      rw [List.flatMap_cons, List.length_append] at inside
      dsimp only at inside
      rw [writeAll, write_behind done old data (by omega), Option.bind_some,
        ih (by rwa [List.length_append]) (by rw [List.length_drop]; omega)]
      simp only [List.flatMap_cons, List.length_append, List.drop_drop, List.append_assoc]

end Memory
