import Mathlib.Tactic

/-!
# Two slots and their changes

A table with two slots, each of them empty or with an entry, and what it is a table of: a partial map. Slots
are compared one after the other, and each gives at most one change of the map. The changes are right unless an
entry takes the place of another one, or moves from the second slot to the first.
-/

namespace SlotDiff

variable {K V : Type*}

inductive Change (K V : Type*) where
  | up (k : K)
  | down (k : K) (v : V)
  deriving DecidableEq

abbrev Slots (K V : Type*) := Option (K × V) × Option (K × V)

section Maps

variable [DecidableEq K]

def slotMap : Option (K × V) → K → Option V
  | none, _ => none
  | some (k, v), k' => if k' = k then some v else none

def toMap (slots : Slots K V) (k : K) : Option V := (slotMap slots.1 k).or (slotMap slots.2 k)

def Change.apply (map : K → Option V) : Change K V → K → Option V
  | .up k => Function.update map k none
  | .down k v => Function.update map k (some v)

variable [DecidableEq V]

def diffSlot : Option (K × V) → Option (K × V) → Option (Change K V)
  | none, none => none
  | none, some (k, v) => some (.down k v)
  | some (k, _), none => some (.up k)
  | some (k, v), some (k', v') => if k ≠ k' then some (.up k) else if v = v' then none else some (.down k' v')

def diff (prev now : Slots K V) : List (Change K V) :=
  (diffSlot prev.1 now.1).toList ++ (diffSlot prev.2 now.2).toList

end Maps

/-- The slots hold different keys. -/
def Distinct : Slots K V → Prop
  | (some (k, _), some (k', _)) => k ≠ k'
  | _ => True

/-- An entry takes the place of another one. -/
def Replaced : Option (K × V) → Option (K × V) → Prop
  | some (k, _), some (k', _) => k ≠ k'
  | _, _ => False

/-- An entry moves from the second slot to the first, which was empty. -/
def Crossed : Slots K V → Slots K V → Prop
  | (none, some (k, _)), (some (k', _), none) => k = k'
  | _, _ => False

theorem Distinct.disjoint [DecidableEq K] {slots : Slots K V} (h : Distinct slots) {k : K} (held : (slotMap slots.1 k).isSome) :
    slotMap slots.2 k = none := by
  obtain ⟨_ | ⟨k₁, v₁⟩, _ | ⟨k₂, v₂⟩⟩ := slots
  · rfl
  · cases held
  · rfl
  · have same : k = k₁ := by simpa [slotMap] using held
    exact if_neg fun same' => h (same.symm.trans same')

theorem Distinct.or_comm [DecidableEq K] {slots : Slots K V} (h : Distinct slots) (k : K) :
    (slotMap slots.2 k).or (slotMap slots.1 k) = (slotMap slots.1 k).or (slotMap slots.2 k) := by
  cases held : slotMap slots.1 k with
  | none => simp
  | some v => simp [h.disjoint (held ▸ rfl : (slotMap slots.1 k).isSome)]

section Maps

variable [DecidableEq K] [DecidableEq V]

/-- A slot whose entry is not replaced gives the new entry, takes away the old one, and leaves the rest. -/
theorem apply_diffSlot {prev now : Option (K × V)} {map : K → Option V} (kept : ¬ Replaced prev now)
    (agrees : ∀ k v, prev = some (k, v) → map k = some v) (k : K) :
    (diffSlot prev now).toList.foldl Change.apply map k =
      (slotMap now k).or (if (slotMap prev k).isSome then none else map k) := by
  cases prev with
  | none =>
      cases now with
      | none => simp [diffSlot, slotMap]
      | some entry =>
          by_cases same : k = entry.1
          · simp [diffSlot, slotMap, Change.apply, same]
          · simp [diffSlot, slotMap, Change.apply, same]
  | some old =>
      cases now with
      | none =>
          by_cases same : k = old.1
          · simp [diffSlot, slotMap, Change.apply, same]
          · simp [diffSlot, slotMap, Change.apply, same]
      | some entry =>
          have sameKey : old.1 = entry.1 := not_not.mp kept
          have found := agrees old.1 old.2 rfl
          by_cases sameValue : old.2 = entry.2
          · rw [sameKey, sameValue] at found
            by_cases same : k = entry.1
            · simp [diffSlot, slotMap, same, sameKey, sameValue, found]
            · simp [diffSlot, slotMap, same, sameKey, sameValue]
          · by_cases same : k = entry.1
            · simp [diffSlot, slotMap, Change.apply, same, sameKey, sameValue]
            · simp [diffSlot, slotMap, Change.apply, same, sameKey, sameValue]

/-- A slot that does not end with the key leaves nothing for it that it held or that was not there. -/
theorem apply_diffSlot_none {prev now : Option (K × V)} {map : K → Option V} {k : K}
    (absent : slotMap now k = none) (lost : (slotMap prev k).isSome ∨ map k = none) :
    (diffSlot prev now).toList.foldl Change.apply map k = none := by
  cases prev with
  | none =>
      have lost : map k = none := by simpa [slotMap] using lost
      cases now with
      | none => exact lost
      | some entry =>
          have other : k ≠ entry.1 := by simpa [slotMap] using absent
          simp [diffSlot, Change.apply, other, lost]
  | some old =>
      by_cases same : k = old.1
      · cases now with
        | none => simp [diffSlot, Change.apply, same]
        | some entry =>
            have replaced : old.1 ≠ entry.1 := by simpa [slotMap, same] using absent
            simp [diffSlot, Change.apply, same, replaced]
      · have lost : map k = none := by simpa [slotMap, same] using lost
        cases now with
        | none => simp [diffSlot, Change.apply, same, lost]
        | some entry =>
            have other : k ≠ entry.1 := by simpa [slotMap] using absent
            by_cases replaced : old.1 = entry.1
            · by_cases sameValue : old.2 = entry.2
              · simp [diffSlot, replaced, sameValue, lost]
              · simp [diffSlot, Change.apply, replaced, sameValue, other, lost]
            · simp [diffSlot, Change.apply, replaced, same, lost]

theorem apply_diff {prev now : Slots K V} (hprev : Distinct prev) (hnow : Distinct now)
    (first : ¬ Replaced prev.1 now.1) (second : ¬ Replaced prev.2 now.2) (straight : ¬ Crossed prev now) :
    (diff prev now).foldl Change.apply (toMap prev) = toMap now := by
  obtain ⟨p, p'⟩ := prev
  obtain ⟨n, n'⟩ := now
  have between : ∀ k, (diffSlot p n).toList.foldl Change.apply (toMap (p, p')) k =
      (slotMap n k).or (slotMap p' k) := by
    intro k
    rw [apply_diffSlot first]
    · cases held : slotMap p k with
      | none => simp [toMap, held]
      | some v => simp [hprev.disjoint (held ▸ rfl : (slotMap p k).isSome)]
    · rintro k v rfl
      simp [toMap, slotMap]
  have apart : ∀ k v, p' = some (k, v) → slotMap n k = none := by
    rintro k v rfl
    cases n with
    | none => rfl
    | some entry =>
        refine if_neg fun same => ?_
        cases p with
        | some old => exact hprev ((not_not.mp first).trans same.symm)
        | none =>
            cases n' with
            | none => exact straight same
            | some entry' => exact hnow (same.symm.trans (not_not.mp second))
  funext k
  rw [diff, List.foldl_append, apply_diffSlot second]
  · rw [between]
    cases held : slotMap p' k with
    | none => simpa [toMap] using hnow.or_comm k
    | some v =>
        have absent : slotMap n k = none := by
          cases p' with
          | none => cases held
          | some old =>
              have same : k = old.1 := by
                by_contra other
                simp [slotMap, other] at held
              exact same ▸ apart old.1 old.2 rfl
        simp [toMap, absent]
  · rintro k v rfl
    rw [between, apart k v rfl]
    simp [slotMap]

/-- The changes are the right ones exactly if no entry is replaced in its slot or crosses to the first slot. -/
theorem apply_diff_iff {prev now : Slots K V} (hprev : Distinct prev) (hnow : Distinct now) :
    (diff prev now).foldl Change.apply (toMap prev) = toMap now ↔
      ¬ Replaced prev.1 now.1 ∧ ¬ Replaced prev.2 now.2 ∧ ¬ Crossed prev now := by
  constructor
  · intro same
    rw [diff, List.foldl_append] at same
    refine ⟨fun replaced => ?_, fun replaced => ?_, fun crossed => ?_⟩
    · obtain ⟨_ | ⟨k, v⟩, p'⟩ := prev
      · cases replaced
      obtain ⟨_ | ⟨k', v'⟩, n'⟩ := now
      · cases replaced
      have other : k' ≠ k := Ne.symm replaced
      have found := congrFun same k'
      rw [apply_diffSlot_none] at found
      · simp [toMap, slotMap] at found
      · exact hnow.disjoint (by simp [slotMap])
      · cases held : slotMap p' k' with
        | some w => exact .inl rfl
        | none =>
            refine .inr ?_
            have step : diffSlot (some (k, v)) (some (k', v')) = some (.up k) := if_pos replaced
            have absent : slotMap (some (k, v)) k' = none := if_neg other
            simp [step, Change.apply, other, toMap, absent, held]
    · obtain ⟨p, _ | ⟨k, v⟩⟩ := prev
      · cases replaced
      obtain ⟨n, _ | ⟨k', v'⟩⟩ := now
      · cases replaced
      have other : k' ≠ k := Ne.symm replaced
      have step : diffSlot (some (k, v)) (some (k', v')) = some (.up k) := if_pos replaced
      have found := congrFun same k'
      have absent : slotMap n k' = none := by
        cases n with
        | none => rfl
        | some entry => exact if_neg fun same => hnow same.symm
      simp only [step, Option.toList_some, List.foldl_cons, List.foldl_nil, Change.apply,
        Function.update_of_ne other] at found
      rw [apply_diffSlot_none absent] at found
      · simp [toMap, slotMap] at found
      · cases held : slotMap p k' with
        | some w => exact .inl rfl
        | none =>
            have absent' : slotMap (some (k, v)) k' = none := if_neg other
            simp [toMap, held, absent']
    · obtain ⟨_ | old, _ | ⟨k, v⟩⟩ := prev <;> try cases crossed
      obtain ⟨_ | ⟨k', v'⟩, _ | entry'⟩ := now <;> try cases crossed
      have found := congrFun same k
      rw [apply_diffSlot_none rfl (.inl (by simp [slotMap]))] at found
      simp [toMap, slotMap] at found
  · rintro ⟨first, second, straight⟩
    exact apply_diff hprev hnow first second straight

end Maps

end SlotDiff
