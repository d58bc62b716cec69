import Mathlib.Tactic

/-!
# The first match in a stream

An automaton reads a stream, which may come in chunks, up to the first prefix that matches. While nothing has matched,
its state is a function of what it has read.
-/

namespace FirstMatch

variable {α σ : Type*}

/-- The first `n` elements match, and no fewer do. -/
structure At (Match : List α → Prop) (stream : List α) (n : Nat) : Prop where
  le : n ≤ stream.length
  holds : Match (stream.take n)
  first : ∀ m < n, ¬ Match (stream.take m)

def Never (Match : List α → Prop) (stream : List α) : Prop := ∀ m ≤ stream.length, ¬ Match (stream.take m)

/-- Read up to a match: the state, and what is left behind it. -/
def scan (step : σ → α → σ) (final : σ → Bool) : σ → List α → σ × List α
  | s, [] => (s, [])
  | s, a :: rest => if final (step s a) then (step s a, rest) else scan step final (step s a) rest

variable {Match : List α → Prop} {done more stream : List α} {n m : Nat}

theorem At.append (h : At Match done n) (more : List α) : At Match (done ++ more) n where
  le := h.le.trans (by rw [List.length_append]; exact Nat.le_add_right _ _)
  holds := by
    rw [List.take_append_of_le_length h.le]
    exact h.holds
  first := by
    intro m lt
    rw [List.take_append_of_le_length (lt.le.trans h.le)]
    exact h.first m lt

theorem At.unique (h : At Match stream n) (h' : At Match stream m) : n = m := by
  rcases lt_trichotomy n m with lt | same | lt
  · exact absurd h.holds (h'.first n lt)
  · exact same
  · exact absurd h'.holds (h.first m lt)

theorem Never.left (never : Never Match (done ++ more)) : Never Match done := by
  intro m le
  have later := never m (le.trans (by rw [List.length_append]; exact Nat.le_add_right _ _))
  rwa [List.take_append_of_le_length le] at later

theorem Never.lt (never : Never Match done) (h : At Match (done ++ more) n) : done.length < n := by
  by_contra inside
  have holds := h.holds
  rw [List.take_append_of_le_length (not_lt.mp inside)] at holds
  exact never n (not_lt.mp inside) holds

theorem Never.not_at (never : Never Match stream) : ¬ At Match stream n := fun h => never n h.le h.holds

section Scan
variable {step : σ → α → σ} {final : σ → Bool} {state : List α → σ}

end Scan
end FirstMatch
