import Chiaki.Bitstream.Rewrite

/-!
# What is written is read

A slice whose header is straight is given a reference, and then has it.
-/

namespace Chiaki
open Memory BitString

/-- The flags up to `last` are rewritten: it is set, those of `earlier` entries are cleared. -/
def rewritten (b : Nat → Bool) (earlier : List Nat) (last k : Nat) : Bool :=
  if k = last then true else if k ∈ earlier then false else b k

/-- The first NAL unit is a P slice with `count` negative pictures, its own ones, of which those up to the one
with its flag at `last` are listed. Up to eleven bytes behind that flag nothing is escaped and no other unit
begins. -/
structure Straight (sps : Nat) (data : Bytes) (s count : Nat) (earlier : List Nat) (last : Nat) : Prop where
  short : data.length < 2 ^ 27
  small : sps ≤ 12
  start : StartcodeAt data s
  type_eq : value (bit data) (8 * (s + 4) + 1) 6 = 1
  few : count ≤ 16
  spells : ∃ first, Spells sps (bit data) (8 * (s + 6)) count first ∧ Entries (bit data) first (earlier ++ [last])
  inside : last < 8 * data.length
  plain : Plain (bit data) (s + 6) (last / 8 + 11)

/-- The reference can be rewritten to `i` in a way that is read back. -/
def Rewritable (sps : Nat) (data : Bytes) (i : Nat) : Prop :=
  ∃ s count earlier last, Straight sps data s count earlier last ∧ earlier.length + 1 = min (i + 1) count ∧
    (i < count → Plain (rewritten (bit data) earlier last) (s + 6) (last / 8 + 11))

theorem Entries.le_last {b : Nat → Bool} {pos last : Nat} {earlier : List Nat} (h : Entries b pos (earlier ++ [last])) :
    ∀ flag ∈ earlier, flag < last := by
  induction earlier generalizing pos with
  | nil => simp
  | cons first earlier ih =>
      obtain ⟨-, rest⟩ := h
      have behind := rest.lt last (by simp)
      exact List.forall_mem_cons.mpr ⟨by omega, ih rest⟩

theorem Entries.lt_succ {b : Nat → Bool} {pos last : Nat} {earlier : List Nat}
    (h : Entries b pos (earlier ++ [last])) : ∀ flag ∈ earlier ++ [last], flag < last + 1 := by
  intro flag member
  rcases List.mem_append.mp member with member | member
  · exact (h.le_last flag member).trans (Nat.lt_succ_self last)
  · rw [List.mem_singleton.mp member]
    exact Nat.lt_succ_self last

theorem StartcodeAt.congr {data data' : Bytes} {s : Nat} (h : StartcodeAt data s) (length : data'.length = data.length)
    (same : ∀ k < 8 * (s + 4), bit data k = bit data' k) : StartcodeAt data' s where
  near := h.near
  inside := by
    rw [length]
    exact h.inside
  here := by
    rw [← h.here]
    exact (value_congr fun k _ high => same k (by omega)).symm
  first p before := by
    rw [← value_congr fun k _ high => same k (by omega)]
    exact h.first p before

namespace Straight
variable (ndebug : Bool) (address : Nat) {bitstream : Bitstream} {data : Bytes} {s count last : Nat} {earlier : List Nat}

theorem front (h : Straight bitstream.sps data s count earlier last) :
    ∃ vlc vlc1 vlc2 rbsp rbsp1 rbsp2 rbsp3 first stop, Vlc.init address data data.length = .ok vlc ∧
      skipStartcode ndebug data vlc = .ok (vlc1, true) ∧ nalHeaderH265 ndebug vlc1 = .ok (vlc2, 1) ∧
      Rbsp.init ndebug data vlc2 = .ok rbsp ∧ beforeSliceType ndebug data 1 rbsp = .ok rbsp1 ∧
      rbsp1.ue ndebug data = .ok (rbsp2, 1) ∧
      shortTermRefPicSet ndebug data bitstream rbsp2 = .ok (rbsp3, some count) ∧
      rbsp3.At data (upTo stop (bit data)) first ∧ Entries (upTo stop (bit data)) first (earlier ++ [last]) ∧
      last < 8 * stop ∧ rbsp3.nal.dataEnd = stop ∧ 8 * (s + 6) + 9 ≤ first := by
  obtain ⟨first, spells, entries⟩ := h.spells
  have lt := spells.lt
  have behind := entries.lt last (by simp)
  have inside := h.inside
  obtain ⟨vlc, start, at0, end0, left0⟩ := Vlc.init_at address data h.short
  obtain ⟨vlc1, skip, at1, enough, end1, left1⟩ := skipStartcode_at ndebug h.start at0 end0 left0
  obtain ⟨vlc2, header, at2, data2, end2, left2⟩ := nalHeaderH265_at ndebug at1 (by omega)
  rw [h.type_eq] at header
  obtain ⟨rbsp, stop, init, at3, end3, stops⟩ := Rbsp.init_at ndebug at2 h.plain le_rfl (by omega) (by omega)
    (by omega)
  have within : last < 8 * stop := by omega
  have plain := h.plain.upTo stop
  have spells : Spells bitstream.sps (upTo stop (bit data)) (8 * (s + 6)) count first :=
    spells.congr fun k _ high => (upTo_of_lt (by omega)).symm
  have entries : Entries (upTo stop (bit data)) first (earlier ++ [last]) :=
    entries.congr entries.lt_succ fun k _ high _ => (upTo_of_lt (by omega)).symm
  obtain ⟨type, lsb, positive, positives, starts, code, own, negative, code'⟩ := spells
  have ltS := starts.lt
  have ltC := code.lt
  have ltN := negative.lt
  have ltP := code'.lt
  obtain ⟨rbsp1, before, at4, end4⟩ := beforeSliceType_at ndebug at3 plain le_rfl starts (by omega) (by omega)
  obtain ⟨rbsp2, sliceType, at5, end5⟩ := Rbsp.ue_at ndebug at4 plain (by omega) code (by omega) (by omega)
  obtain ⟨rbsp3, counts, at6, end6⟩ := shortTermRefPicSet_at ndebug at5 plain (by omega) h.small own negative h.few
    code' (by omega) (by omega)
  exact ⟨vlc, vlc1, vlc2, rbsp, rbsp1, rbsp2, rbsp3, first, stop, start, skip, header, init, before, sliceType, counts,
    at6, entries, within, by omega, by omega⟩

theorem reads (h : Straight bitstream.sps data s count earlier last) (clear : ∀ flag ∈ earlier, bit data flag = false)
    (set : bit data last = true) (enough : earlier.length < count) (stack : BitstreamSlice) :
    sliceH265 ndebug address data bitstream stack = .ok (true, ⟨.p, earlier.length⟩) := by
  obtain ⟨vlc, vlc1, vlc2, rbsp, rbsp1, rbsp2, rbsp3, first, stop, start, skip, header, init, before, sliceType, counts,
    at_, entries, within, end_, far⟩ := h.front ndebug address
  have few := h.few
  have used := firstUsed_at ndebug at_ (h.plain.upTo stop) (by omega) entries
    (fun flag member => by
      have behind := entries.le_last flag member
      rw [upTo_of_lt (by omega), clear flag member])
    (by rw [upTo_of_lt within, set]) (by omega) (by omega) count 0 enough
  rw [sliceH265, start, ok_bind, skip, ok_bind]
  dsimp only
  rw [if_neg (by decide), header, ok_bind]
  dsimp only
  rw [if_neg (by decide), init, ok_bind, before, ok_bind, sliceType, ok_bind]
  dsimp only
  rw [if_pos rfl, referenceH265, counts, ok_bind]
  dsimp only
  rw [if_neg (by omega), used, ok_bind, Nat.zero_add]
  rfl

/-- Rewriting ends, and changes nothing but the flags. It succeeds if there is such an entry. -/
theorem rewrites (h : Straight bitstream.sps data s count earlier last) {i : Nat}
    (reach : earlier.length + 1 = min (i + 1) count) :
    ∃ data', sliceSetReferenceFrameH265 ndebug address bitstream data i = .ok (data', decide (i < count)) ∧
      data'.length = data.length ∧ (i < count → ∀ k, bit data' k = rewritten (bit data) earlier last k) := by
  obtain ⟨vlc, vlc1, vlc2, rbsp, rbsp1, rbsp2, rbsp3, first, stop, start, skip, header, init, before, sliceType, counts,
    at_, entries, within, end_, far⟩ := h.front ndebug address
  have few := h.few
  have upToLast := entries.lt_succ
  obtain ⟨data', done, length, bits⟩ := rewriteFlags_at ndebug (h.plain.upTo stop) i count 0 at_ (by omega) (by omega)
    entries (fun flag member => by have := upToLast flag member; omega)
    (fun flag member => by have := upToLast flag member; omega) (Nat.zero_le i)
    (by rw [List.length_append, List.length_singleton]; omega)
  refine ⟨data', ?_, length, fun reached k => ?_⟩
  · rw [sliceSetReferenceFrameH265, start, ok_bind, skip, ok_bind]
    dsimp only
    rw [if_neg (by decide), header, ok_bind]
    dsimp only
    rw [if_neg (by decide), init, ok_bind, before, ok_bind, sliceType, ok_bind]
    dsimp only
    rw [if_neg (by decide), counts, ok_bind]
    dsimp only
    rw [if_neg (by omega), done, Nat.zero_add]
  · obtain rfl : i = earlier.length := by omega
    rw [bits k, Nat.sub_zero, List.getElem?_concat_length, rewritten]
    by_cases same : k = last
    · subst same
      simp
    · rw [if_neg same, decide_eq_false fun there => same (Option.some.inj there).symm]
      exact if_congr (by simp [same]) rfl rfl

theorem rewritten {data' : Bytes} (h : Straight bitstream.sps data s count earlier last)
    (length : data'.length = data.length) (bits : ∀ k, bit data' k = Chiaki.rewritten (bit data) earlier last k)
    (plain : Plain (Chiaki.rewritten (bit data) earlier last) (s + 6) (last / 8 + 11)) :
    Straight bitstream.sps data' s count earlier last := by
  obtain ⟨first, spells, entries⟩ := h.spells
  have lt := spells.lt
  have behind : ∀ flag ∈ earlier ++ [last], first < flag := entries.lt
  have before (k : Nat) (low : k < first) : bit data k = bit data' k := by
    rw [bits k, Chiaki.rewritten, if_neg fun same => by have := behind last (by simp); omega,
      if_neg fun member => by have := behind k (List.mem_append_left _ member); omega]
  constructor
  · rw [length]
    exact h.short
  · exact h.small
  · exact h.start.congr length fun k low => before k (by omega)
  · have same : value (bit data) (8 * (s + 4) + 1) 6 = value (bit data') (8 * (s + 4) + 1) 6 :=
      value_congr fun k _ high => before k (by omega)
    exact same.symm.trans h.type_eq
  · exact h.few
  · refine ⟨first, spells.congr fun k _ high => before k high, entries.congr entries.lt_succ fun k _ _ missing => ?_⟩
    rw [bits k, Chiaki.rewritten, if_neg fun same => missing (by simp [same]),
      if_neg fun member => missing (List.mem_append_left _ member)]
  · rw [length]
    exact h.inside
  · rwa [funext bits]

end Straight

theorem Rewritable.roundTrip (ndebug : Bool) (address : Nat) {bitstream : Bitstream} {data data' : Bytes} {i : Nat}
    (h : Rewritable bitstream.sps data i)
    (done : sliceSetReferenceFrameH265 ndebug address bitstream data i = .ok (data', true)) (stack : BitstreamSlice) :
    sliceH265 ndebug address data' bitstream stack = .ok (true, ⟨.p, i⟩) := by
  obtain ⟨s, count, earlier, last, straight, reach, plain⟩ := h
  obtain ⟨data'', done', length, bits⟩ := straight.rewrites ndebug address reach
  rw [done] at done'
  obtain ⟨rfl, reached⟩ := Prod.mk.inj (Except.ok.inj done')
  have reached : i < count := of_decide_eq_true reached.symm
  have again := straight.rewritten length (bits reached) (plain reached)
  obtain rfl : i = earlier.length := by omega
  obtain ⟨first, spells, entries⟩ := straight.spells
  apply again.reads ndebug address _ _ reached
  · intro flag member
    have behind := entries.le_last flag member
    rw [bits reached flag, rewritten, if_neg (by omega), if_pos member]
  · rw [bits reached last, rewritten, if_pos rfl]

end Chiaki
