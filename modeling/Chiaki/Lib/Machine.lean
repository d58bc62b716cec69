import Mathlib.Tactic

/-!
# Machines with outputs

A machine takes one input at a time and either fails or moves on with an output. The rules below
turn facts about one step into facts about whole runs.
-/

namespace Machine

variable {σ τ ι ο ε : Type*}

def run (step : σ → ι → Except ε (σ × ο)) : σ → List ι → Except ε (σ × List ο)
  | s, [] => .ok (s, [])
  | s, i :: is =>
      match step s i with
      | .error e => .error e
      | .ok (s', o) =>
          match run step s' is with
          | .error e => .error e
          | .ok (t, os) => .ok (t, o :: os)

/-- A machine that cannot fail. -/
def runTotal (step : τ → ι → τ × ο) : τ → List ι → τ × List ο
  | t, [] => (t, [])
  | t, i :: is =>
      let rest := runTotal step (step t i).1 is
      (rest.1, (step t i).2 :: rest.2)

theorem runTotal_fst (step : τ → ι → τ × ο) (t : τ) (is : List ι) :
    (runTotal step t is).1 = is.foldl (fun t i => (step t i).1) t := by
  induction is generalizing t with
  | nil => rfl
  | cons i is ih => exact ih _

/-- Every input of the run meets `P` in the state it is taken in. -/
def Along (step : σ → ι → Except ε (σ × ο)) (P : σ → ι → Prop) : σ → List ι → Prop
  | _, [] => True
  | s, i :: is => P s i ∧ ∀ s' o, step s i = .ok (s', o) → Along step P s' is

variable {step : σ → ι → Except ε (σ × ο)}

@[simp] theorem run_nil (s : σ) : run step s [] = .ok (s, []) := rfl

theorem run_cons_ok {s s' : σ} {i : ι} {o : ο} (h : step s i = .ok (s', o)) (is : List ι) :
    run step s (i :: is) = (run step s' is).map fun r => (r.1, o :: r.2) := by
  simp only [run, h]
  cases run step s' is <;> rfl

theorem run_cons_error {s : σ} {i : ι} {e : ε} (h : step s i = .error e) (is : List ι) :
    run step s (i :: is) = .error e := by
  simp only [run, h]

theorem run_cons_inv {s t : σ} {i : ι} {is : List ι} {os : List ο}
    (h : run step s (i :: is) = .ok (t, os)) :
    ∃ s' o os', step s i = .ok (s', o) ∧ run step s' is = .ok (t, os') ∧ os = o :: os' := by
  cases hs : step s i with
  | error e => simp [run_cons_error hs] at h
  | ok r =>
      obtain ⟨s', o⟩ := r
      rw [run_cons_ok hs] at h
      cases hr : run step s' is with
      | error e => simp [hr, Except.map] at h
      | ok r =>
          simp only [hr, Except.map, Except.ok.injEq, Prod.mk.injEq] at h
          obtain ⟨rfl, rfl⟩ := h
          exact ⟨s', o, r.2, rfl, hr, rfl⟩

theorem run_append {s : σ} {is js : List ι} :
    run step s (is ++ js) =
      match run step s is with
      | .error e => .error e
      | .ok (t, os) => (run step t js).map fun r => (r.1, os ++ r.2) := by
  induction is generalizing s with
  | nil => cases h : run step s js <;> simp [Except.map, h]
  | cons i is ih =>
      cases hs : step s i with
      | error e => simp [run_cons_error hs]
      | ok r =>
          obtain ⟨s', o⟩ := r
          rw [List.cons_append, run_cons_ok hs, run_cons_ok hs, ih]
          cases run step s' is with
          | error e => rfl
          | ok r => cases h : run step r.1 js <;> simp [Except.map, h]

theorem run_take {s t : σ} {is : List ι} {os : List ο} (h : run step s is = .ok (t, os)) (n : Nat) :
    ∃ t', run step s (is.take n) = .ok (t', os.take n) := by
  induction n generalizing s is os with
  | zero => exact ⟨s, rfl⟩
  | succ n ih =>
      cases is with
      | nil =>
          obtain ⟨rfl, rfl⟩ := Prod.mk.inj (Except.ok.inj h)
          exact ⟨s, rfl⟩
      | cons i is =>
          obtain ⟨s', o, os', stepped, rest, rfl⟩ := run_cons_inv h
          obtain ⟨t', before⟩ := ih rest
          exact ⟨t', by rw [List.take_succ_cons, run_cons_ok stepped, before]; rfl⟩

theorem along_cons {P : σ → ι → Prop} {s s' : σ} {i : ι} {o : ο} (h : step s i = .ok (s', o))
    (is : List ι) : Along step P s (i :: is) ↔ P s i ∧ Along step P s' is := by
  constructor
  · rintro ⟨hi, his⟩
    exact ⟨hi, his s' o h⟩
  · rintro ⟨hi, his⟩
    refine ⟨hi, fun s'' o' hs => ?_⟩
    rw [h] at hs
    obtain ⟨rfl, -⟩ := Prod.mk.inj (Except.ok.inj hs)
    exact his

instance decidableAlong {P : σ → ι → Prop} [∀ s i, Decidable (P s i)] :
    (s : σ) → (is : List ι) → Decidable (Along step P s is)
  | _, [] => .isTrue trivial
  | s, i :: is =>
      match h : step s i with
      | .ok (s', _) =>
          have : Decidable (Along step P s' is) := decidableAlong s' is
          decidable_of_iff (P s i ∧ Along step P s' is) (along_cons h is).symm
      | .error _ =>
          decidable_of_iff (P s i) ⟨fun now => ⟨now, fun _ _ later => by simp [h] at later⟩, And.left⟩

theorem Along.append {P : σ → ι → Prop} {s : σ} {is js : List ι}
    (h : Along step P s (is ++ js)) : Along step P s is := by
  induction is generalizing s with
  | nil => trivial
  | cons i is ih => exact ⟨h.1, fun s' o hs => ih (h.2 s' o hs)⟩

theorem Along.mono {P Q : σ → ι → Prop} {s : σ} {is : List ι} (h : Along step P s is) (hPQ : ∀ s i, P s i → Q s i) :
    Along step Q s is := by
  induction is generalizing s with
  | nil => trivial
  | cons i is ih => exact ⟨hPQ s i h.1, fun s' o hs => ih (h.2 s' o hs)⟩

theorem Along.and {P Q : σ → ι → Prop} {s : σ} {is : List ι} (hP : Along step P s is)
    (hQ : Along step Q s is) : Along step (fun s i => P s i ∧ Q s i) s is := by
  induction is generalizing s with
  | nil => trivial
  | cons i is ih => exact ⟨⟨hP.1, hQ.1⟩, fun s' o hs => ih (hP.2 s' o hs) (hQ.2 s' o hs)⟩

/-- Two conditions that agree where an invariant holds agree along a run that keeps it. -/
theorem along_iff {P Q R : σ → ι → Prop} (Inv : σ → Prop)
    (hstep : ∀ s i s' o, Inv s → R s i → step s i = .ok (s', o) → Inv s')
    (agree : ∀ s i, Inv s → R s i → (P s i ↔ Q s i)) {s : σ} {is : List ι} (hs : Inv s)
    (his : Along step R s is) : Along step P s is ↔ Along step Q s is := by
  induction is generalizing s with
  | nil => exact Iff.rfl
  | cons i is ih =>
      refine and_congr (agree s i hs his.1) (forall_congr' fun s' => forall_congr' fun o => ?_)
      exact imp_congr_right fun stepped => ih (hstep s i s' o hs his.1 stepped) (his.2 s' o stepped)

theorem Along.restrict {P : σ → ι → Prop} {Q : ι → Prop} {s : σ} {is : List ι} (hP : Along step P s is)
    (hQ : ∀ i ∈ is, Q i) : Along step (fun s i => P s i ∧ Q i) s is := by
  induction is generalizing s with
  | nil => trivial
  | cons i is ih =>
      obtain ⟨now, later⟩ := List.forall_mem_cons.mp hQ
      exact ⟨⟨hP.1, now⟩, fun s' o hs => ih (hP.2 s' o hs) later⟩

/-- A step that keeps the invariant and cannot fail under it gives a run that does neither. -/
theorem run_invariant {P : σ → ι → Prop} (Inv : σ → Prop) (Q : ο → Prop)
    (hstep : ∀ s i, Inv s → P s i → ∃ s' o, step s i = .ok (s', o) ∧ Inv s' ∧ Q o)
    {s : σ} {is : List ι} (hs : Inv s) (his : Along step P s is) :
    ∃ t os, run step s is = .ok (t, os) ∧ Inv t ∧ ∀ o ∈ os, Q o := by
  induction is generalizing s with
  | nil => exact ⟨s, [], rfl, hs, by simp⟩
  | cons i is ih =>
      obtain ⟨s', o, hok, hs', ho⟩ := hstep s i hs his.1
      obtain ⟨t, os, hrun, ht, hos⟩ := ih hs' (his.2 s' o hok)
      refine ⟨t, o :: os, by rw [run_cons_ok hok, hrun]; rfl, ht, ?_⟩
      intro o' member
      rcases List.mem_cons.mp member with rfl | member
      · exact ho
      · exact hos o' member

theorem Along.rest {P : σ → ι → Prop} {s t : σ} {is js : List ι} {os : List ο}
    (h : Along step P s (is ++ js)) (hrun : run step s is = .ok (t, os)) : Along step P t js := by
  induction is generalizing s os with
  | nil =>
      obtain ⟨rfl, -⟩ := Prod.mk.inj (Except.ok.inj hrun)
      exact h
  | cons i is ih =>
      obtain ⟨s', o, os', stepped, hrest, -⟩ := run_cons_inv hrun
      exact ih (h.2 s' o stepped) hrest

/-- What every step that succeeds preserves holds after every run that does. -/
theorem Along.preserves {P : σ → ι → Prop} (Inv : σ → Prop)
    (hstep : ∀ s i s' o, Inv s → P s i → step s i = .ok (s', o) → Inv s') {s t : σ} {is : List ι}
    {os : List ο} (hs : Inv s) (his : Along step P s is) (hrun : run step s is = .ok (t, os)) : Inv t := by
  induction is generalizing s os with
  | nil =>
      obtain ⟨rfl, -⟩ := Prod.mk.inj (Except.ok.inj hrun)
      exact hs
  | cons i is ih =>
      obtain ⟨s', o, os', stepped, hrest, -⟩ := run_cons_inv hrun
      exact ih (hstep s i s' o hs his.1 stepped) (his.2 s' o stepped) hrest

theorem along_true (s : σ) (is : List ι) : Along step (fun _ _ => True) s is := by
  induction is generalizing s with
  | nil => trivial
  | cons i is ih => exact ⟨trivial, fun s' _ _ => ih s'⟩

theorem run_preserves (Inv : σ → Prop)
    (hstep : ∀ s i s' o, Inv s → step s i = .ok (s', o) → Inv s') {s t : σ} {is : List ι}
    {os : List ο} (hs : Inv s) (hrun : run step s is = .ok (t, os)) : Inv t :=
  (along_true s is).preserves Inv (fun s i s' o h _ => hstep s i s' o h) hs hrun

/-- Forward simulation by a machine that cannot fail: same outputs, related states. -/
theorem run_simulation {P : σ → ι → Prop} {R : σ → τ → Prop} {spec : τ → ι → τ × ο}
    (hstep : ∀ s t i, R s t → P s i →
      ∃ s', step s i = .ok (s', (spec t i).2) ∧ R s' (spec t i).1)
    {s : σ} {t : τ} {is : List ι} (hst : R s t) (his : Along step P s is) :
    ∃ s', run step s is = .ok (s', (runTotal spec t is).2) ∧ R s' (runTotal spec t is).1 := by
  induction is generalizing s t with
  | nil => exact ⟨s, rfl, hst⟩
  | cons i is ih =>
      obtain ⟨s', hok, hst'⟩ := hstep s t i hst his.1
      obtain ⟨u, hrun, hu⟩ := ih hst' (his.2 s' _ hok)
      exact ⟨u, by rw [run_cons_ok hok, hrun]; rfl, hu⟩

/-! ## Logs -/

/-- Every entry of the log meets `P` in the state it is written in. -/
def Follows (next : τ → ο → τ) (P : τ → ο → Prop) : τ → List ο → Prop
  | _, [] => True
  | t, o :: os => P t o ∧ Follows next P (next t o) os

instance decidableFollows {next : τ → ο → τ} {P : τ → ο → Prop} [∀ t o, Decidable (P t o)] :
    (t : τ) → (os : List ο) → Decidable (Follows next P t os)
  | _, [] => .isTrue trivial
  | t, o :: os =>
      have : Decidable (Follows next P (next t o) os) := decidableFollows (next t o) os
      inferInstanceAs (Decidable (P t o ∧ Follows next P (next t o) os))

theorem follows_append {next : τ → ο → τ} {P : τ → ο → Prop} {t : τ} {os os' : List ο} :
    Follows next P t (os ++ os') ↔ Follows next P t os ∧ Follows next P (os.foldl next t) os' := by
  induction os generalizing t with
  | nil => simp [Follows]
  | cons o os ih => simp [Follows, ih, and_assoc]

theorem follows_flatMap {ι : Type*} {next : τ → ο → τ} {P : τ → ο → Prop} (f : ι → List ο) {t : τ} {is : List ι} :
    Follows next P t (is.flatMap f) ↔
      Follows (fun t i => (f i).foldl next t) (fun t i => Follows next P t (f i)) t is := by
  induction is generalizing t with
  | nil => exact Iff.rfl
  | cons i is ih => rw [List.flatMap_cons, follows_append, Follows, ih]

theorem follows_congr {next : τ → ο → τ} {P Q : τ → ο → Prop} (agree : ∀ t o, P t o ↔ Q t o) {t : τ} {os : List ο} :
    Follows next P t os ↔ Follows next Q t os := by
  induction os generalizing t with
  | nil => exact Iff.rfl
  | cons o os ih => exact and_congr (agree t o) ih

theorem follows_iff_prefix {next : τ → ο → τ} {P : τ → ο → Prop} {t : τ} {os : List ο} :
    Follows next P t os ↔ ∀ before o, before ++ [o] <+: os → P (before.foldl next t) o := by
  constructor
  · intro h before o isPrefix
    obtain ⟨later, rfl⟩ := isPrefix
    exact (follows_append.mp (follows_append.mp h).1).2.1
  · intro h
    induction os generalizing t with
    | nil => trivial
    | cons o os ih =>
        refine ⟨h [] o ⟨os, rfl⟩, ih fun before o' isPrefix => ?_⟩
        exact h (o :: before) o' (List.prefix_cons_inj o |>.mpr isPrefix)

theorem follows_true {next : τ → ο → τ} (t : τ) (os : List ο) : Follows next (fun _ _ => True) t os := by
  induction os generalizing t with
  | nil => trivial
  | cons o os ih => exact ⟨trivial, ih (next t o)⟩

/-- A machine that logs what it does, each step in accordance with the log so far. -/
theorem Along.follows {step : σ → ι → Except ε (σ × List ο)} {next : τ → ο → τ} {Q : τ → ο → Prop}
    {P : σ → ι → Prop} (Inv : σ → τ → Prop)
    (hstep : ∀ s t i s' os, Inv s t → P s i → step s i = .ok (s', os) →
      Follows next Q t os ∧ Inv s' (os.foldl next t))
    {s s' : σ} {t : τ} {is : List ι} {oss : List (List ο)} (hst : Inv s t) (his : Along step P s is)
    (hrun : run step s is = .ok (s', oss)) :
    Follows next Q t oss.flatten ∧ Inv s' (oss.flatten.foldl next t) := by
  induction is generalizing s t oss with
  | nil =>
      obtain ⟨rfl, rfl⟩ := Prod.mk.inj (Except.ok.inj hrun)
      exact ⟨trivial, hst⟩
  | cons i is ih =>
      obtain ⟨s'', os, oss', stepped, hrest, rfl⟩ := run_cons_inv hrun
      obtain ⟨now, hst'⟩ := hstep s t i s'' os hst his.1 stepped
      obtain ⟨later, final⟩ := ih hst' (his.2 s'' os stepped) hrest
      rw [List.flatten_cons, follows_append, List.foldl_append]
      exact ⟨⟨now, later⟩, final⟩

/-! ## Inputs without an effect -/

/-- Two steps that fail alike, or move on alike. -/
inductive Alike (R : σ → τ → Prop) : Except ε (σ × ο) → Except ε (τ × ο) → Prop
  | ok {s : σ} {t : τ} (o : ο) : R s t → Alike R (.ok (s, o)) (.ok (t, o))
  | error (e : ε) : Alike R (.error e) (.error e)

theorem Alike.bind {σ' τ' ο' : Type*} {R : σ → τ → Prop} {R' : σ' → τ' → Prop} {x : Except ε (σ × ο)}
    {y : Except ε (τ × ο)} {f : σ × ο → Except ε (σ' × ο')} {g : τ × ο → Except ε (τ' × ο')} (first : Alike R x y)
    (then_ : ∀ s t o, R s t → Alike R' (f (s, o)) (g (t, o))) : Alike R' (x.bind f) (y.bind g) := by
  cases first with
  | ok o hst => exact then_ _ _ o hst
  | error e => exact .error e

/-- The inputs that are not marked. -/
def unmarked (is : List (Bool × ι)) : List ι := (is.filter fun i => !i.1).map Prod.snd

/-- The outputs for inputs that are not marked. -/
def unmarkedOutputs (is : List (Bool × ι)) (os : List ο) : List ο :=
  ((is.zip os).filter fun i => !i.1.1).map Prod.snd

def stepMarked (step : σ → ι → Except ε (σ × ο)) (s : σ) (i : Bool × ι) : Except ε (σ × ο) := step s i.2

theorem run_unmarked {P : σ → ι → Prop} {R : σ → σ → Prop}
    (follow : ∀ s t i, R s t → Alike R (step s i) (step t i))
    (stutter : ∀ s t i, R s t → P s i → ∃ s' o, step s i = .ok (s', o) ∧ R s' t) {s t : σ}
    {is : List (Bool × ι)} (hst : R s t)
    (his : Along (stepMarked step) (fun s i => i.1 → P s i.2) s is) :
    Alike R ((run (stepMarked step) s is).map fun r => (r.1, unmarkedOutputs is r.2))
      (run step t (unmarked is)) := by
  induction is generalizing s t with
  | nil => exact .ok [] hst
  | cons i is ih =>
      obtain ⟨marked, i⟩ := i
      cases marked with
      | true =>
          obtain ⟨s', o, moved, hst'⟩ := stutter s t i hst (his.1 rfl)
          have rest := ih hst' (his.2 s' o moved)
          rw [run_cons_ok (show stepMarked step s (true, i) = .ok (s', o) from moved)]
          rw [show unmarked ((true, i) :: is) = unmarked is from rfl]
          cases done : run (stepMarked step) s' is with
          | error e =>
              rw [done] at rest
              exact rest
          | ok r =>
              rw [done] at rest
              exact rest
      | false =>
          have both := follow s t i hst
          rw [show unmarked ((false, i) :: is) = i :: unmarked is from rfl]
          generalize moved : step s i = x at both
          generalize moved' : step t i = y at both
          cases both with
          | error e =>
              rw [run_cons_error (show stepMarked step s (false, i) = .error e from moved), run_cons_error moved']
              exact .error e
          | @ok s' t' o hst' =>
              have rest := ih hst' (his.2 s' o moved)
              rw [run_cons_ok (show stepMarked step s (false, i) = .ok (s', o) from moved), run_cons_ok moved']
              generalize run (stepMarked step) s' is = x at rest
              generalize run step t' (unmarked is) = y at rest
              cases x with
              | error e =>
                  cases rest
                  exact .error e
              | ok r =>
                  cases rest with
                  | ok _ hr => exact .ok _ hr

end Machine
