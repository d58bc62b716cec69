import Chiaki.Lib.Memory

/-!
# Ring buffers

The cells of a block from `start` on, taken modulo its length, hold the first values of a sequence.
-/

namespace Ring

variable {α : Type*} {buf buf' data : List α} {start count : Nat} {f : Nat → α}

def Holds (buf : List α) (start count : Nat) (f : Nat → α) : Prop :=
  ∀ j < count, buf[(start + j) % buf.length]? = some (f j)

/-- Copy out of a ring: up to the end of the block, and the excess from its front. -/
def read (buf : List α) (offset len : Nat) : Option (List α) :=
  if offset + len > buf.length then do
    let excess := offset + len - buf.length
    let front ← Memory.read buf offset (len - excess)
    let back ← Memory.read buf 0 excess
    pure (front ++ back)
  else Memory.read buf offset len

@[simp] theorem holds_zero (buf : List α) (start : Nat) (f : Nat → α) : Holds buf start 0 f := by
  simp [Holds]

theorem Holds.drop (holds : Holds buf start count f) {k : Nat} (within : k ≤ count) :
    Holds buf ((start + k) % buf.length) (count - k) fun j => f (k + j) := by
  intro j bound
  rw [Nat.mod_add_mod, Nat.add_assoc]
  exact holds (k + j) (by omega)

theorem Holds.write_free (holds : Holds buf start count f) {skip : Nat}
    (written : Memory.write buf ((start + count) % buf.length + skip) data = some buf')
    (free : count + skip + data.length ≤ buf.length) : Holds buf' start count f := by
  intro j bound
  rw [Memory.length_of_write written, Memory.getElem?_of_write written, if_neg]
  · exact holds j bound
  · rintro ⟨low, high⟩
    have cell := Nat.div_add_mod (start + j) buf.length
    have tail := Nat.div_add_mod (start + count) buf.length
    have small := Nat.mod_lt (start + j) (show 0 < buf.length by omega)
    -- the two cells are a whole number of rounds apart, and less than one
    generalize (start + j) % buf.length = c, (start + j) / buf.length = q at *
    generalize (start + count) % buf.length = t, (start + count) / buf.length = r at *
    rcases Nat.lt_trichotomy q r with less | rfl | more
    · have rounds := Nat.mul_le_mul_left buf.length (show q + 1 ≤ r from less)
      rw [Nat.mul_add, Nat.mul_one] at rounds
      omega
    · omega
    · have rounds := Nat.mul_le_mul_left buf.length (show r + 1 ≤ q from more)
      rw [Nat.mul_add, Nat.mul_one] at rounds
      omega

theorem Holds.write_next (holds : Holds buf start count f)
    (written : Memory.write buf ((start + count) % buf.length) data = some buf')
    (inside : (start + count) % buf.length + data.length ≤ buf.length)
    (free : count + data.length ≤ buf.length) (next : ∀ i < data.length, data[i]? = some (f (count + i))) :
    Holds buf' start (count + data.length) f := by
  intro j bound
  by_cases old : j < count
  · exact @write_free _ buf buf' data start count f holds 0 written free j old
  · obtain ⟨i, rfl⟩ := Nat.exists_eq_add_of_le (Nat.le_of_not_lt old)
    have place : (start + (count + i)) % buf.length = (start + count) % buf.length + i := by
      rw [← Nat.add_assoc, ← Nat.mod_add_mod, Nat.mod_eq_of_lt (by omega)]
    rw [Memory.length_of_write written, place, Memory.getElem?_of_write written, if_pos (by omega),
      Nat.add_sub_cancel_left]
    exact next i (by omega)

/-- A value that is put in front takes the place of the oldest one when the block is full. -/
theorem Holds.write_front (holds : Holds buf start count f) (nonempty : 0 < buf.length) (a : α) :
    Holds (buf.set ((start + buf.length - 1) % buf.length) a) ((start + buf.length - 1) % buf.length)
      (min (count + 1) buf.length) fun j => if j = 0 then a else f (j - 1) := by
  have small := Nat.mod_lt (start + buf.length - 1) nonempty
  intro j bound
  rw [List.length_set, List.getElem?_set]
  cases j with
  | zero =>
      rw [Nat.add_zero, Nat.mod_mod, if_pos rfl, if_pos small]
      rfl
  | succ j =>
      have cell : ((start + buf.length - 1) % buf.length + (j + 1)) % buf.length = (start + j) % buf.length := by
        rw [Nat.mod_add_mod, show start + buf.length - 1 + (j + 1) = start + j + buf.length by omega,
          Nat.add_mod_right]
      have other : (start + buf.length - 1) % buf.length ≠ (start + j) % buf.length := by
        intro same
        -- the two cells are less than one round apart
        rw [← cell, Nat.mod_add_mod] at same
        have rounds := (Nat.ModEq.add_left_cancel' (n := buf.length) (a := 0) (b := j + 1) (start + buf.length - 1)
          (by simpa [Nat.ModEq] using same))
        rw [Nat.ModEq, Nat.zero_mod, Nat.mod_eq_of_lt (by omega)] at rounds
        omega
      rw [cell, if_neg other]
      exact holds j (by omega)

theorem Holds.read (holds : Holds buf start count f) {k len : Nat} (within : k + len ≤ count)
    (fits : count ≤ buf.length) (nonempty : buf ≠ []) :
    Ring.read buf ((start + k) % buf.length) len = some ((List.range len).map fun i => f (k + i)) := by
  have positive := List.length_pos_iff.mpr nonempty
  have small := Nat.mod_lt (start + k) positive
  have cell (i : Nat) (bound : i < len) : buf[((start + k) % buf.length + i) % buf.length]? = some (f (k + i)) := by
    rw [Nat.mod_add_mod, Nat.add_assoc]
    exact holds (k + i) (by omega)
  generalize (start + k) % buf.length = offset at *
  unfold Ring.read
  split
  · rename_i wraps
    have front : Memory.read buf offset (len - (offset + len - buf.length)) =
        some ((buf.drop offset).take (len - (offset + len - buf.length))) := Memory.read_eq_some (by omega)
    have back : Memory.read buf 0 (offset + len - buf.length) =
        some ((buf.drop 0).take (offset + len - buf.length)) := Memory.read_eq_some (by omega)
    dsimp only
    rw [front, back]
    simp only [Option.pure_def, Option.bind_eq_bind, Option.bind_some, Option.some.injEq]
    apply List.ext_getElem?
    intro i
    by_cases bound : i < len
    · have value := cell i bound
      rw [List.getElem?_map, List.getElem?_range bound, Option.map_some, ← value]
      by_cases first : offset + i < buf.length
      · rw [Nat.mod_eq_of_lt first, List.getElem?_append_left (by simp; omega),
          List.getElem?_take_of_lt (by omega), List.getElem?_drop]
      · rw [Nat.mod_eq_sub_mod (by omega), Nat.mod_eq_of_lt (by omega),
          List.getElem?_append_right (by simp; omega), List.getElem?_take_of_lt (by simp; omega),
          List.getElem?_drop]
        congr 1
        simp
        omega
    · rw [List.getElem?_eq_none (by simp; omega), List.getElem?_eq_none (by simp; omega)]
  · rename_i straight
    rw [Memory.read_eq_some (by omega)]
    congr 1
    apply List.ext_getElem?
    intro i
    by_cases bound : i < len
    · have value := cell i bound
      rw [Nat.mod_eq_of_lt (by omega)] at value
      rw [List.getElem?_map, List.getElem?_range bound, Option.map_some, ← value,
        List.getElem?_take_of_lt bound, List.getElem?_drop]
    · rw [List.getElem?_eq_none (by simp; omega), List.getElem?_eq_none (by simp; omega)]

end Ring
