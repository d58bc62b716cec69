import Chiaki.Lib.Machine

/-!
# What a function does with a mutex

The calls on one mutex in the order they are made, and what is asked of them when the function returns.
-/

namespace Mutex
open Machine

inductive Op where
  | lock
  | unlock
  | fini
  deriving DecidableEq, Repr

/-- Whether the mutex is held after a call. -/
def hold : Bool → Op → Bool
  | _, .lock => true
  | _, .unlock => false
  | held, .fini => held

def Allowed (held : Bool) : Op → Prop
  | .lock => True
  | .unlock => held = true
  | .fini => held = false

instance (held : Bool) (op : Op) : Decidable (Allowed held op) := by
  unfold Allowed
  cases op <;> infer_instance

/-- It is unlocked only while it is held, destroyed only while it is not, and when the function has returned, it was
unlocked as often as it was locked and is not held. -/
structure Disciplined (ops : List Op) (returned : Bool) : Prop where
  allowed : Follows hold Allowed false ops
  balanced : returned = true → ops.count .unlock = ops.count .lock
  released : returned = true → ops.foldl hold false = false

theorem disciplined_iff (ops : List Op) (returned : Bool) : Disciplined ops returned ↔
    Follows hold Allowed false ops ∧ (returned = true → ops.count .unlock = ops.count .lock) ∧
      (returned = true → ops.foldl hold false = false) :=
  ⟨fun h => ⟨h.allowed, h.balanced, h.released⟩, fun h => ⟨h.1, h.2.1, h.2.2⟩⟩

instance (ops : List Op) (returned : Bool) : Decidable (Disciplined ops returned) :=
  decidable_of_iff _ (disciplined_iff ops returned).symm

theorem disciplined_round (ops : List Op) (returned : Bool) :
    Disciplined (.lock :: .unlock :: ops) returned ↔ Disciplined ops returned := by
  rw [disciplined_iff, disciplined_iff]
  simp [Follows, Allowed, hold]

theorem disciplined_released (returned : Bool) : Disciplined [.lock, .unlock] returned :=
  ⟨⟨trivial, rfl, trivial⟩, fun _ => rfl, fun _ => rfl⟩

theorem not_disciplined_kept : ¬ Disciplined [.lock] true :=
  fun h => absurd (h.released rfl) (by decide)

theorem not_disciplined_destroyed (returned : Bool) : ¬ Disciplined [.lock, .fini] returned :=
  fun h => absurd h.allowed (by decide)

theorem not_disciplined_twice (returned : Bool) : ¬ Disciplined [.lock, .unlock, .unlock] returned :=
  fun h => absurd h.allowed (by decide)

end Mutex
