import Mathlib.Tactic

/-!
# Emulation prevention

In a unit of H.264 or H.265 no start code may appear. Where one would, a byte 3 is put in between, and
whoever reads the unit leaves out every 3 behind two zeros.
-/

namespace EmulationPrevention

/-- The payload of a unit. -/
def payload : List UInt8 → List UInt8
  | a :: b :: c :: rest => if a = 0 ∧ b = 0 ∧ c = 3 then a :: b :: payload rest else a :: payload (b :: c :: rest)
  | short => short

/-- The unit of a payload, `zeros` zeros before it. -/
def escapeBehind : (zeros : Nat) → List UInt8 → List UInt8
  | _, [] => []
  | zeros, a :: rest =>
      if 2 ≤ zeros ∧ a ≤ 3 then 3 :: a :: escapeBehind (if a = 0 then 1 else 0) rest
      else a :: escapeBehind (if a = 0 then zeros + 1 else 0) rest

def escape (bytes : List UInt8) : List UInt8 := escapeBehind 0 bytes

/-! ## The payload -/

theorem short_cases {short : List UInt8} (few : ∀ a b c rest, short = a :: b :: c :: rest → False) :
    short = [] ∨ (∃ a, short = [a]) ∨ ∃ a b, short = [a, b] := by
  match short with
  | [] => exact Or.inl rfl
  | [a] => exact Or.inr (Or.inl ⟨a, rfl⟩)
  | [a, b] => exact Or.inr (Or.inr ⟨a, b, rfl⟩)
  | a :: b :: c :: rest => exact absurd rfl (few a b c rest)

section Unescape
variable {a b : UInt8} {rest front : List UInt8}

theorem payload_removed (rest : List UInt8) : payload (0 :: 0 :: 3 :: rest) = 0 :: 0 :: payload rest := by
  rw [payload, if_pos ⟨rfl, rfl, rfl⟩]

theorem payload_cons (other : ∀ rest', a :: rest ≠ 0 :: 0 :: 3 :: rest') : payload (a :: rest) = a :: payload rest := by
  match rest with
  | [] => rfl
  | [b] => rfl
  | b :: c :: rest =>
      rw [payload, if_neg]
      rintro ⟨rfl, rfl, rfl⟩
      exact other rest rfl

theorem payload_cons_ne (first : a ≠ 0) : payload (a :: rest) = a :: payload rest :=
  payload_cons fun _ same => first (List.cons.inj same).1

/-- What is behind an emulation prevention byte has a payload of its own. -/
theorem payload_behind (front rest : List UInt8) :
    payload (front ++ 0 :: 0 :: 3 :: rest) = payload (front ++ [0, 0, 3]) ++ payload rest := by
  induction front using payload.induct with
  | case1 a b c front removed ih =>
      obtain ⟨rfl, rfl, rfl⟩ := removed
      simp only [List.cons_append, payload_removed, ih]
  | case2 a b c front kept ih =>
      have other (rest' : List UInt8) : payload (a :: b :: c :: (front ++ rest')) =
          a :: payload (b :: c :: (front ++ rest')) := by
        rw [payload, if_neg kept]
      simp only [List.cons_append] at ih ⊢
      rw [other, other, ih, List.cons_append]
  | case3 short few =>
      rcases short_cases few with rfl | ⟨a, rfl⟩ | ⟨a, b, rfl⟩
      · simp [payload_removed, payload]
      · simp [payload]
      · simp [payload]

theorem length_payload_le (unit : List UInt8) : (payload unit).length ≤ unit.length := by
  induction unit using payload.induct with
  | case1 a b c rest removed ih =>
      rw [payload, if_pos removed]
      simp only [List.length_cons]
      omega
  | case2 a b c rest kept ih =>
      rw [payload, if_neg kept]
      simp only [List.length_cons] at ih ⊢
      omega
  | case3 short few =>
      rcases short_cases few with rfl | ⟨a, rfl⟩ | ⟨a, b, rfl⟩
      · exact le_rfl
      · exact le_rfl
      · exact le_rfl

theorem exists_payload_append (front rest : List UInt8) : ∃ more, payload (front ++ rest) = payload front ++ more := by
  induction front using payload.induct with
  | case1 a b c front removed ih =>
      obtain ⟨rfl, rfl, rfl⟩ := removed
      obtain ⟨more, same⟩ := ih
      exact ⟨more, by simp only [List.cons_append, payload_removed, same]⟩
  | case2 a b c front kept ih =>
      obtain ⟨more, same⟩ := ih
      refine ⟨more, ?_⟩
      simp only [List.cons_append] at same ⊢
      rw [payload, if_neg kept, payload, if_neg kept, same, List.cons_append]
  | case3 short few =>
      rcases short_cases few with rfl | ⟨a, rfl⟩ | ⟨a, b, rfl⟩
      · exact ⟨payload rest, rfl⟩
      · match rest with
        | [] => exact ⟨[], rfl⟩
        | [b] => exact ⟨[b], rfl⟩
        | b :: c :: rest =>
            simp only [List.cons_append, List.nil_append, payload]
            split <;> exact ⟨_, rfl⟩
      · cases rest with
        | nil => exact ⟨[], rfl⟩
        | cons c rest =>
            simp only [List.cons_append, List.nil_append, payload]
            split
            · exact ⟨_, rfl⟩
            · obtain ⟨more, same⟩ : ∃ more, payload (b :: c :: rest) = b :: more := by
                cases rest with
                | nil => exact ⟨_, rfl⟩
                | cons d rest =>
                    rw [payload]
                    split <;> exact ⟨_, rfl⟩
              exact ⟨more, by rw [same]⟩

end Unescape

/-! ## The last emulation prevention byte -/

/-- What is behind the last 3 that is left out, if there is one. -/
def behindLast : List UInt8 → Option (List UInt8)
  | a :: b :: c :: rest =>
      if a = 0 ∧ b = 0 ∧ c = 3 then some ((behindLast rest).getD rest) else behindLast (b :: c :: rest)
  | _ => none

section BehindLast
variable {unit tail : List UInt8}

theorem behindLast_none (none_ : behindLast unit = none) : payload unit = unit := by
  induction unit using payload.induct with
  | case1 a b c rest removed ih => simp [behindLast, removed] at none_
  | case2 a b c rest kept ih =>
      rw [behindLast, if_neg kept] at none_
      rw [payload, if_neg kept, ih none_]
  | case3 short few =>
      rcases short_cases few with rfl | ⟨a, rfl⟩ | ⟨a, b, rfl⟩
      · rfl
      · rfl
      · rfl

theorem behindLast_some (some_ : behindLast unit = some tail) :
    behindLast tail = none ∧ ∃ front, unit = front ++ 0 :: 0 :: 3 :: tail := by
  induction unit using payload.induct with
  | case1 a b c rest removed ih =>
      rw [behindLast, if_pos removed] at some_
      obtain ⟨rfl, rfl, rfl⟩ := removed
      cases last : behindLast rest with
      | none =>
          rw [last] at some_
          obtain rfl := Option.some.inj some_
          exact ⟨last, [], rfl⟩
      | some tail' =>
          rw [last] at some_ ih
          obtain rfl : tail' = tail := Option.some.inj some_
          obtain ⟨clean, front, same⟩ := ih rfl
          exact ⟨clean, 0 :: 0 :: 3 :: front, by rw [same]; rfl⟩
  | case2 a b c rest kept ih =>
      rw [behindLast, if_neg kept] at some_
      obtain ⟨clean, front, same⟩ := ih some_
      exact ⟨clean, a :: front, by rw [same]; rfl⟩
  | case3 short few =>
      rcases short_cases few with rfl | ⟨a, rfl⟩ | ⟨a, b, rfl⟩
      · cases some_
      · cases some_
      · cases some_

theorem behindLast_ne_none (front rest : List UInt8) : behindLast (front ++ 0 :: 0 :: 3 :: rest) ≠ none := by
  induction front using payload.induct with
  | case1 a b c front removed ih => simp [behindLast, removed]
  | case2 a b c front kept ih =>
      simp only [List.cons_append] at ih ⊢
      rw [behindLast, if_neg kept]
      exact ih
  | case3 short few =>
      rcases short_cases few with rfl | ⟨a, rfl⟩ | ⟨a, b, rfl⟩
      · simp [behindLast]
      · simp [behindLast]
      · simp [behindLast]

theorem behindLast_none_left {front rest : List UInt8} (clean : behindLast (front ++ rest) = none) :
    behindLast front = none := by
  cases some_ : behindLast front with
  | none => rfl
  | some tail =>
      obtain ⟨-, before, rfl⟩ := behindLast_some some_
      rw [List.append_assoc] at clean
      exact absurd clean (behindLast_ne_none before (tail ++ rest))

theorem length_lt_of_behindLast {front rest : List UInt8} (clean : behindLast front = none)
    (some_ : behindLast (front ++ rest) = some tail) : tail.length < rest.length := by
  by_contra long
  obtain ⟨-, before, same⟩ := behindLast_some some_
  rcases List.append_eq_append_iff.mp same with ⟨more, rfl, more'⟩ | ⟨more, rfl, more'⟩
  · have length := congrArg List.length more'
    simp only [List.length_append, List.length_cons] at length
    omega
  · match more with
    | [] =>
        have length := congrArg List.length more'
        simp only [List.nil_append, List.length_cons] at length
        omega
    | [a] =>
        have length := congrArg List.length more'
        simp only [List.cons_append, List.nil_append, List.length_cons] at length
        omega
    | [a, b] =>
        have length := congrArg List.length more'
        simp only [List.cons_append, List.nil_append, List.length_cons] at length
        omega
    | a :: b :: c :: more =>
        simp only [List.cons_append, List.cons.injEq] at more'
        obtain ⟨rfl, rfl, rfl, -⟩ := more'
        exact behindLast_ne_none before more clean

/-- Where nothing is left out, the last two bytes are all that matters for what comes. -/
theorem payload_append_two {a b : UInt8} (front rest : List UInt8) (clean : behindLast (front ++ [a, b]) = none) :
    payload (front ++ a :: b :: rest) = front ++ payload (a :: b :: rest) := by
  induction front with
  | nil => rfl
  | cons c front ih =>
      have kept : ∀ rest', payload (c :: (front ++ a :: b :: rest')) = c :: payload (front ++ a :: b :: rest') ∧
          behindLast (c :: (front ++ a :: b :: rest')) = behindLast (front ++ a :: b :: rest') := by
        intro rest'
        match front with
        | [] =>
            simp only [List.cons_append, List.nil_append, behindLast] at clean
            split at clean
            · cases clean
            · rename_i kept
              simp only [List.nil_append, payload, behindLast, if_neg kept, and_self]
        | [d] =>
            simp only [List.cons_append, List.nil_append, behindLast] at clean
            split at clean
            · cases clean
            · rename_i kept
              simp only [List.cons_append, List.nil_append]
              rw [payload, behindLast, if_neg kept, if_neg kept]
              exact ⟨rfl, rfl⟩
        | d :: e :: front =>
            simp only [List.cons_append] at clean
            rw [behindLast] at clean
            split at clean
            · cases clean
            · rename_i kept
              simp only [List.cons_append]
              rw [payload, behindLast, if_neg kept, if_neg kept]
              exact ⟨rfl, rfl⟩
      rw [List.cons_append, (kept rest).1, List.cons_append, ih]
      exact (kept []).2.symm.trans clean

end BehindLast

/-! ## The unit -/

theorem payload_escapeBehind (bytes : List UInt8) (zeros : Nat) (few : zeros ≤ 2) :
    payload (List.replicate zeros 0 ++ escapeBehind zeros bytes) = List.replicate zeros 0 ++ bytes := by
  induction bytes generalizing zeros with
  | nil =>
      rw [escapeBehind, List.append_nil]
      interval_cases zeros <;> rfl
  | cons a bytes ih =>
      rw [escapeBehind]
      split
      · rename_i needed
        obtain rfl : zeros = 2 := by omega
        rw [show List.replicate 2 (0 : UInt8) = [0, 0] from rfl, List.cons_append, List.cons_append, List.nil_append,
          payload_removed]
        by_cases zero : a = 0
        · subst zero
          rw [if_pos rfl]
          exact congrArg (0 :: 0 :: ·) (ih 1 (by decide))
        · rw [if_neg zero, payload_cons_ne zero]
          exact congrArg (0 :: 0 :: a :: ·) (ih 0 (by decide))
      · rename_i free
        by_cases zero : a = 0
        · subst zero
          have less : zeros < 2 := by
            by_contra many
            exact free ⟨by omega, by decide⟩
          rw [if_pos rfl]
          have next := ih (zeros + 1) (by omega)
          rwa [List.replicate_succ', List.append_assoc, List.append_assoc] at next
        · rw [if_neg zero]
          have next := ih 0 (by decide)
          have other : 2 ≤ zeros → a ≠ 3 := by
            rintro two rfl
            exact free ⟨two, by decide⟩
          have next : payload (escapeBehind 0 bytes) = bytes := next
          interval_cases zeros
          · exact (payload_cons_ne zero).trans (by rw [next]; rfl)
          · rw [show List.replicate 1 (0 : UInt8) = [0] from rfl, List.cons_append, List.nil_append, payload_cons,
              payload_cons_ne zero, next]
            · rfl
            · exact fun _ same => zero (List.cons.inj (List.cons.inj same).2).1
          · rw [show List.replicate 2 (0 : UInt8) = [0, 0] from rfl, List.cons_append, List.cons_append,
              List.nil_append, payload_cons, payload_cons, payload_cons_ne zero, next]
            · rfl
            · exact fun _ same => zero (List.cons.inj (List.cons.inj same).2).1
            · exact fun _ same => other le_rfl (List.cons.inj (List.cons.inj (List.cons.inj same).2).2).1

theorem not_infix_escapeBehind (bytes : List UInt8) (zeros : Nat) (few : zeros ≤ 2) :
    ¬ [0, 0, 1] <:+: List.replicate zeros 0 ++ escapeBehind zeros bytes := by
  induction bytes generalizing zeros with
  | nil =>
      rw [escapeBehind, List.append_nil]
      interval_cases zeros <;> decide
  | cons a bytes ih =>
      rw [escapeBehind]
      have behind (other : a ≠ 0) : ¬ [0, 0, 1] <:+: a :: escapeBehind 0 bytes := by
        rw [List.infix_cons_iff]
        rintro (⟨rest, same⟩ | inside)
        · exact other (List.cons.inj same).1.symm
        · exact ih 0 (by decide) inside
      split
      · rename_i needed
        obtain rfl : zeros = 2 := by omega
        have later : ¬ [0, 0, 1] <:+: a :: escapeBehind (if a = 0 then 1 else 0) bytes := by
          by_cases zero : a = 0
          · subst zero
            exact ih 1 (by decide)
          · rw [if_neg zero]
            exact behind zero
        simp only [List.replicate, List.cons_append, List.nil_append, List.infix_cons_iff, List.cons_prefix_cons]
        simp only [List.infix_cons_iff] at later
        simpa using later
      · rename_i free
        by_cases zero : a = 0
        · subst zero
          have less : zeros < 2 := by
            by_contra many
            exact free ⟨by omega, by decide⟩
          rw [if_pos rfl]
          have next := ih (zeros + 1) (by omega)
          rwa [List.replicate_succ', List.append_assoc] at next
        · rw [if_neg zero]
          have later := behind zero
          have other : 2 ≤ zeros → a ≠ 1 := by
            rintro two rfl
            exact free ⟨two, by decide⟩
          simp only [List.infix_cons_iff, List.cons_prefix_cons] at later
          interval_cases zeros <;>
            simp only [List.replicate, List.cons_append, List.nil_append, List.infix_cons_iff, List.cons_prefix_cons]
          · exact later
          · simpa [Ne.symm zero] using later
          · simpa [Ne.symm zero, Ne.symm (other le_rfl)] using later

theorem not_infix_escape (bytes : List UInt8) : ¬ [0, 0, 1] <:+: escape bytes :=
  not_infix_escapeBehind bytes 0 (by decide)

theorem payload_escape (bytes : List UInt8) : payload (escape bytes) = bytes :=
  payload_escapeBehind bytes 0 (by decide)

end EmulationPrevention
