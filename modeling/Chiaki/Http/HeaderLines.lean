import Mathlib.Data.List.TakeWhile
import Chiaki.Http.HeaderParse

/-!
# The lines of a header

What the parser makes of a block as a relation: how it cuts the block, and which lines it refuses.
-/

namespace Chiaki
open Memory HttpParse

def KeyText (line : Bytes) : Prop := ∀ c ∈ line, c ≠ 0 ∧ c ≠ 0x3a ∧ isLineEnd c = false

def ValueText (value : Bytes) : Prop := ∀ c ∈ value, c ≠ 0 ∧ isLineEnd c = false

/-- One space is left out. -/
def Spaced (space : Bytes) (first : UInt8) : Prop := space = [0x20] ∨ (space = [] ∧ first ≠ 0x20)

/-- The block ends, or its text does. -/
def TextEnd (rest : Bytes) : Prop := rest = [] ∨ ∃ more, rest = 0 :: more

/-- The headers of a block from the beginning of a line on, or `none` if it is refused. The first character of a value
can be any. -/
inductive HttpLines : Bytes → Option (List (Bytes × Bytes)) → Prop where
  | stop {line rest : Bytes} (plain : KeyText line) (ends : TextEnd rest) : HttpLines (line ++ rest) (some [])
  | noKey (rest : Bytes) : HttpLines (0x3a :: rest) none
  | noColon {line : Bytes} {c : UInt8} (rest : Bytes) (plain : KeyText line) (long : 1 < line.length)
      (ends : isLineEnd c = true) : HttpLines (line ++ c :: rest) none
  | noValue {key space : Bytes} (plain : KeyText key) (some_ : key ≠ []) (spaced : space = [] ∨ space = [0x20]) :
      HttpLines (key ++ 0x3a :: space) none
  | stopValue {key space value rest : Bytes} {first : UInt8} (plain : KeyText key) (some_ : key ≠ [])
      (spaced : Spaced space first) (inner : ValueText value) (ends : TextEnd rest) :
      HttpLines (key ++ 0x3a :: (space ++ first :: (value ++ rest))) (some [])
  | short {line rest : Bytes} {c : UInt8} {r : Option (List (Bytes × Bytes))} (plain : KeyText line)
      (short : line.length ≤ 1) (ends : isLineEnd c = true) (later : HttpLines rest r) : HttpLines (line ++ c :: rest) r
  | header {key space value rest : Bytes} {first c : UInt8} {r : Option (List (Bytes × Bytes))} (plain : KeyText key)
      (some_ : key ≠ []) (spaced : Spaced space first) (inner : ValueText value) (ends : isLineEnd c = true)
      (later : HttpLines rest r) :
      HttpLines (key ++ 0x3a :: (space ++ first :: (value ++ c :: rest)))
        (r.map ((key, (first :: value).takeWhile (· ≠ 0)) :: ·))

/-! ## Every block -/

theorem exists_split (p : UInt8 → Bool) (bytes : Bytes) : ∃ front rest, bytes = front ++ rest ∧ (∀ c ∈ front, p c = true) ∧
    (rest = [] ∨ ∃ c more, rest = c :: more ∧ p c = false) := by
  induction bytes with
  | nil => exact ⟨[], [], rfl, by simp, .inl rfl⟩
  | cons c bytes ih =>
      cases here : p c with
      | false => exact ⟨[], c :: bytes, rfl, by simp, .inr ⟨c, bytes, rfl, here⟩⟩
      | true =>
          obtain ⟨front, rest, rfl, all, ends⟩ := ih
          refine ⟨c :: front, rest, rfl, ?_, ends⟩
          intro d member
          rcases List.mem_cons.mp member with rfl | later
          · exact here
          · exact all d later

theorem spaced_cases (rest : Bytes) : (rest = [] ∨ rest = [0x20]) ∨
    ∃ space first more, rest = space ++ first :: more ∧ Spaced space first := by
  cases rest with
  | nil => exact .inl (.inl rfl)
  | cons first rest =>
      by_cases blank : first = 0x20
      · cases rest with
        | nil => exact .inl (.inr (by rw [blank]))
        | cons second rest => exact .inr ⟨[0x20], second, rest, by rw [blank]; rfl, .inl rfl⟩
      · exact .inr ⟨[], first, rest, rfl, .inr ⟨rfl, blank⟩⟩

theorem exists_httpLines (block : Bytes) : ∃ r, HttpLines block r := by
  induction size : block.length using Nat.strong_induction_on generalizing block with
  | _ size ih =>
      obtain ⟨line, rest, rfl, plain, ends⟩ := exists_split (fun c => c ≠ 0 ∧ c ≠ 0x3a ∧ isLineEnd c = false) block
      have plain : KeyText line := fun c member => by simpa using plain c member
      rw [List.length_append] at size
      rcases ends with rfl | ⟨c, rest, rfl, special⟩
      · exact ⟨_, .stop plain (.inl rfl)⟩
      rw [List.length_cons] at size
      by_cases zero : c = 0
      · exact ⟨_, .stop plain (.inr ⟨rest, by rw [zero]⟩)⟩
      by_cases colon : c = 0x3a
      · rw [colon]
        by_cases some_ : line = []
        · rw [some_]
          exact ⟨_, .noKey rest⟩
        rcases spaced_cases rest with empty | ⟨space, first, more, rfl, spaced⟩
        · exact ⟨_, .noValue plain some_ empty⟩
        obtain ⟨value, rest, rfl, inner, ends⟩ := exists_split (fun c => c ≠ 0 ∧ isLineEnd c = false) more
        have inner : ValueText value := fun c member => by simpa using inner c member
        simp only [List.length_append, List.length_cons] at size
        rcases ends with rfl | ⟨c, rest, rfl, special⟩
        · exact ⟨_, .stopValue plain some_ spaced inner (.inl rfl)⟩
        by_cases zero : c = 0
        · exact ⟨_, .stopValue plain some_ spaced inner (.inr ⟨rest, by rw [zero]⟩)⟩
        have lineEnd : isLineEnd c = true := by
          simpa [zero] using special
        rw [List.length_cons] at size
        obtain ⟨r, later⟩ := ih rest.length (by omega) rest rfl
        exact ⟨_, .header plain some_ spaced inner lineEnd later⟩
      · have lineEnd : isLineEnd c = true := by
          simpa [zero, colon] using special
        by_cases long : 1 < line.length
        · exact ⟨_, .noColon rest plain long lineEnd⟩
        · obtain ⟨r, later⟩ := ih rest.length (by omega) rest rfl
          exact ⟨r, .short plain (not_lt.mp long) lineEnd later⟩

/-! ## The parser and the lines -/

theorem byteAt_here (done rest : Bytes) (c : UInt8) : byteAt (done ++ c :: rest) done.length = .ok c := by
  rw [byteAt, List.getElem?_append_right le_rfl, Nat.sub_self]
  rfl

theorem setField_here (done rest : Bytes) (c : UInt8) :
    setField (done ++ c :: rest) done.length [0] = .ok (done ++ [0] ++ rest) :=
  congrArg inBounds (write_behind done (c :: rest) [0] (by simp))

theorem cString_here (done text rest : Bytes) :
    cString (done ++ (text ++ 0 :: rest)) done.length = text.takeWhile (· ≠ 0) := by
  rw [cString, List.drop_left]
  induction text with
  | nil => rfl
  | cons c text ih =>
      rw [List.cons_append, List.takeWhile_cons, List.takeWhile_cons, ih]

theorem KeyText.string {key : Bytes} (plain : KeyText key) : key.takeWhile (· ≠ 0) = key := by
  rw [List.takeWhile_eq_self_iff]
  intro c member
  simpa using (plain c member).1

/-- The strings are complete in what has been parsed. -/
def Stored (done : Bytes) (header : List HttpHeader) (strings : List (Bytes × Bytes)) : Prop :=
  ∀ rest, headerStrings (done ++ rest) header = strings

theorem Stored.append {done : Bytes} {header : List HttpHeader} {strings : List (Bytes × Bytes)}
    (stored : Stored done header strings) (more : Bytes) : Stored (done ++ more) header strings := by
  intro rest
  rw [List.append_assoc]
  exact stored _

theorem Stored.header {done : Bytes} {header : List HttpHeader} {strings : List (Bytes × Bytes)} {allocated : Nat}
    (stored : Stored done header strings) {key : Bytes} (plain : KeyText key) (space : Bytes) (first : UInt8) (value : Bytes) :
    Stored (done ++ key ++ [0] ++ space ++ [first] ++ value ++ [0])
      (⟨allocated, done.length, (done ++ key ++ [0] ++ space).length⟩ :: header)
      ((key, (first :: value).takeWhile (· ≠ 0)) :: strings) := by
  intro rest
  have atKey := cString_here done key (space ++ [first] ++ value ++ [0] ++ rest)
  have atValue := cString_here (done ++ key ++ [0] ++ space) (first :: value) rest
  have earlier := stored (key ++ [0] ++ space ++ [first] ++ value ++ [0] ++ rest)
  rw [plain.string] at atKey
  simp only [List.append_assoc, List.cons_append, List.nil_append] at atKey atValue earlier
  simp only [headerStrings, List.map_cons] at earlier ⊢
  simp only [List.append_assoc, List.cons_append, List.nil_append, atKey, atValue, earlier]

section Loop
variable {malloc : Nat → Bool} {done rest : Bytes} {key allocated fuel : Nat} {header : List HttpHeader}

/-- Characters that the parser passes over. -/
theorem loop_passes {line : Bytes} {valuePtr : Option Nat}
    (passes : ∀ c ∈ line, ∀ done rest, HttpParse.round malloc ⟨done ++ c :: rest, done.length, key, valuePtr, header, allocated⟩ =
      .ok (.next ⟨done ++ c :: rest, done.length + 1, key, valuePtr, header, allocated⟩)) :
    loop malloc (fuel + line.length) ⟨done ++ (line ++ rest), done.length, key, valuePtr, header, allocated⟩ =
      loop malloc fuel ⟨done ++ line ++ rest, (done ++ line).length, key, valuePtr, header, allocated⟩ := by
  induction line generalizing done with
  | nil => rw [List.append_nil, List.nil_append]; rfl
  | cons c line ih =>
      have later := @ih (done ++ [c]) fun d member => passes d (List.mem_cons_of_mem _ member)
      rw [List.length_cons, ← Nat.add_assoc, loop, if_pos (by simp), List.cons_append, passes c List.mem_cons_self, ok_bind]
      dsimp only
      simp only [List.append_assoc, List.singleton_append, List.length_append, List.length_singleton] at later ⊢
      exact later

theorem loop_key {line : Bytes} (plain : KeyText line) :
    loop malloc (fuel + line.length) ⟨done ++ (line ++ rest), done.length, key, none, header, allocated⟩ =
      loop malloc fuel ⟨done ++ line ++ rest, (done ++ line).length, key, none, header, allocated⟩ := by
  apply loop_passes
  intro c member done rest
  obtain ⟨zero, colon, lineEnd⟩ := plain c member
  rw [HttpParse.round, byteAt_here, ok_bind, if_neg zero]
  dsimp only
  rw [if_neg colon, lineEnd, if_neg Bool.false_ne_true]
  rfl

theorem loop_value {value : Bytes} (inner : ValueText value) {valuePtr : Nat} :
    loop malloc (fuel + value.length) ⟨done ++ (value ++ rest), done.length, key, some valuePtr, header, allocated⟩ =
      loop malloc fuel ⟨done ++ value ++ rest, (done ++ value).length, key, some valuePtr, header, allocated⟩ := by
  apply loop_passes
  intro c member done rest
  obtain ⟨zero, lineEnd⟩ := inner c member
  rw [HttpParse.round, byteAt_here, ok_bind, if_neg zero]
  dsimp only
  rw [lineEnd, if_neg Bool.false_ne_true]
  rfl

theorem loop_next {s s' : HttpParse} (inside : s.pos < s.buf.length) (ran : s.round malloc = .ok (.next s')) :
    loop malloc (fuel + 1) s = loop malloc fuel s' := by
  rw [loop, if_pos inside, ran]
  rfl

theorem loop_returned {s : HttpParse} {r : HttpParseResult} (inside : s.pos < s.buf.length)
    (ran : s.round malloc = .ok (.returned r)) : loop malloc (fuel + 1) s = .ok r := by
  rw [loop, if_pos inside, ran]
  rfl

theorem loop_stop (ends : TextEnd rest) (valuePtr : Option Nat) :
    loop malloc (fuel + 1) ⟨done ++ rest, done.length, key, valuePtr, header, allocated⟩ =
      .ok ⟨done ++ rest, header, allocated, [], .success⟩ := by
  rcases ends with rfl | ⟨more, rfl⟩
  · rw [loop, if_neg (by simp)]
    rfl
  · apply loop_returned
    · simp
    · rw [HttpParse.round, byteAt_here]
      rfl

theorem loop_lineEnd {c : UInt8} (lineEnd : isLineEnd c = true) (short : done.length ≤ key + 1) :
    loop malloc (fuel + 1) ⟨done ++ c :: rest, done.length, key, none, header, allocated⟩ =
      loop malloc fuel ⟨done ++ [c] ++ rest, (done ++ [c]).length, (done ++ [c]).length, none, header, allocated⟩ := by
  have zero : c ≠ 0 := by
    rintro rfl
    cases lineEnd
  have colon : c ≠ 0x3a := by
    rintro rfl
    cases lineEnd
  apply loop_next
  · simp
  · rw [HttpParse.round, byteAt_here, ok_bind, if_neg zero]
    dsimp only
    rw [if_neg colon, if_pos lineEnd, if_neg (not_lt.mpr short), List.append_assoc, List.length_append]
    rfl

theorem loop_colon {space : Bytes} {first : UInt8} (spaced : Spaced space first) (some_ : key ≠ done.length) :
    loop malloc (fuel + 1) ⟨done ++ 0x3a :: (space ++ first :: rest), done.length, key, none, header, allocated⟩ =
      loop malloc fuel ⟨done ++ [0] ++ space ++ [first] ++ rest, (done ++ [0] ++ space ++ [first]).length, key,
        some (done ++ [0] ++ space).length, header, allocated⟩ := by
  apply loop_next
  · simp
  · rw [HttpParse.round, byteAt_here, ok_bind, if_neg (by decide)]
    dsimp only
    rw [if_pos rfl, if_neg some_, beginValue]
    dsimp only
    rw [setField_here, ok_bind]
    rw [if_neg (by simp)]
    rcases spaced with rfl | ⟨rfl, blank⟩
    · have here := byteAt_here (done ++ [0]) (first :: rest) 0x20
      rw [List.length_append] at here
      simp only [List.singleton_append, List.length_singleton] at here ⊢
      rw [here, ok_bind, if_pos rfl, if_neg (by simp; omega)]
      simp [pure, Except.pure]
    · have here := byteAt_here (done ++ [0]) rest first
      rw [List.length_append] at here
      simp only [List.nil_append, List.length_singleton] at here ⊢
      rw [here, ok_bind, if_neg blank, if_neg (by simp)]
      simp [pure, Except.pure]

theorem loop_noValue {space : Bytes} (empty : space = [] ∨ space = [0x20]) (some_ : key ≠ done.length) :
    loop malloc (fuel + 1) ⟨done ++ 0x3a :: space, done.length, key, none, header, allocated⟩ =
      .ok (fail ⟨done ++ [0] ++ space, (done ++ [0] ++ space).length, key, none, header, allocated⟩ .invalidData) := by
  apply loop_returned
  · simp
  · rw [HttpParse.round, byteAt_here, ok_bind, if_neg (by decide)]
    dsimp only
    rw [if_pos rfl, if_neg some_, beginValue]
    dsimp only
    rw [setField_here, ok_bind]
    rcases empty with rfl | rfl
    · rw [if_pos (by simp)]
      rfl
    · have here := byteAt_here (done ++ [0]) [] 0x20
      rw [List.length_append] at here
      rw [if_neg (by simp), List.length_singleton] at *
      rw [here, ok_bind, if_pos rfl, if_pos (by simp)]
      rfl

theorem loop_noKey : loop malloc (fuel + 1) ⟨done ++ 0x3a :: rest, done.length, done.length, none, header, allocated⟩ =
    .ok (fail ⟨done ++ 0x3a :: rest, done.length, done.length, none, header, allocated⟩ .invalidData) := by
  apply loop_returned
  · simp
  · rw [HttpParse.round, byteAt_here, ok_bind, if_neg (by decide)]
    dsimp only
    rw [if_pos rfl, if_pos rfl]
    rfl

theorem loop_noColon {c : UInt8} (lineEnd : isLineEnd c = true) (long : key + 1 < done.length) :
    loop malloc (fuel + 1) ⟨done ++ c :: rest, done.length, key, none, header, allocated⟩ =
      .ok (fail ⟨done ++ c :: rest, done.length, key, none, header, allocated⟩ .invalidData) := by
  have zero : c ≠ 0 := by
    rintro rfl
    cases lineEnd
  have colon : c ≠ 0x3a := by
    rintro rfl
    cases lineEnd
  apply loop_returned
  · simp
  · rw [HttpParse.round, byteAt_here, ok_bind, if_neg zero]
    dsimp only
    rw [if_neg colon, if_pos lineEnd, if_pos long]
    rfl

theorem loop_refused {c : UInt8} (lineEnd : isLineEnd c = true) {valuePtr : Nat} (some_ : valuePtr ≠ done.length)
    (refused : malloc allocated = false) :
    loop malloc (fuel + 1) ⟨done ++ c :: rest, done.length, key, some valuePtr, header, allocated⟩ =
      .ok (fail ⟨done ++ [0] ++ rest, done.length, key, some valuePtr, header, allocated⟩ .memory) := by
  have zero : c ≠ 0 := by
    rintro rfl
    cases lineEnd
  apply loop_returned
  · simp
  · rw [HttpParse.round, byteAt_here, ok_bind, if_neg zero]
    dsimp only
    rw [if_pos lineEnd, if_neg some_, endValue]
    dsimp only
    rw [setField_here, ok_bind, refused]
    rfl

theorem loop_valueEnd {c : UInt8} (lineEnd : isLineEnd c = true) {valuePtr : Nat} (some_ : valuePtr ≠ done.length)
    (granted : malloc allocated = true) :
    loop malloc (fuel + 1) ⟨done ++ c :: rest, done.length, key, some valuePtr, header, allocated⟩ =
      loop malloc fuel ⟨done ++ [0] ++ rest, (done ++ [0]).length, (done ++ [0]).length, none,
        ⟨allocated, key, valuePtr⟩ :: header, allocated + 1⟩ := by
  have zero : c ≠ 0 := by
    rintro rfl
    cases lineEnd
  apply loop_next
  · simp
  · rw [HttpParse.round, byteAt_here, ok_bind, if_neg zero]
    dsimp only
    rw [if_pos lineEnd, if_neg some_, endValue]
    dsimp only
    rw [setField_here, ok_bind, granted, List.length_append]
    rfl

/-- What the parser returns. -/
def Outcome (malloc : Nat → Bool) (strings : List (Bytes × Bytes)) (result : HttpParseResult) :
    Option (List (Bytes × Bytes)) → Prop
  | none => result.err = .invalidData ∨ (result.err = .memory ∧ ∃ n, malloc n = false)
  | some pairs => (result.err = .success ∧ result.strings = pairs.reverse ++ strings) ∨
      (result.err = .memory ∧ ∃ n, malloc n = false)

theorem Outcome.memory {strings : List (Bytes × Bytes)} {result : HttpParseResult} (err : result.err = .memory)
    (refused : malloc allocated = false) (r : Option (List (Bytes × Bytes))) : Outcome malloc strings result r := by
  cases r with
  | none => exact .inr ⟨err, _, refused⟩
  | some pairs => exact .inr ⟨err, _, refused⟩

theorem loop_of_lines {block : Bytes} {r : Option (List (Bytes × Bytes))} (lines : HttpLines block r) {done : Bytes}
    {header : List HttpHeader} {strings : List (Bytes × Bytes)} (stored : Stored done header strings)
    (enough : block.length < fuel) : ∃ result,
    loop malloc fuel ⟨done ++ block, done.length, done.length, none, header, allocated⟩ = .ok result ∧
      Outcome malloc strings result r := by
  obtain ⟨spare, rfl⟩ := Nat.exists_eq_add_of_lt enough
  induction lines generalizing done header strings allocated spare with
  | stop plain ends =>
      rename_i line rest
      rw [List.length_append, show line.length + rest.length + spare + 1 = rest.length + spare + 1 + line.length by omega,
        loop_key plain, loop_stop ends]
      refine ⟨_, rfl, .inl ⟨rfl, ?_⟩⟩
      rw [HttpParseResult.strings, List.append_assoc, stored]
      rfl
  | noKey rest => exact ⟨_, loop_noKey, .inl rfl⟩
  | noColon rest plain long ends =>
      rename_i line c
      rw [List.length_append, List.length_cons,
        show line.length + (rest.length + 1) + spare + 1 = rest.length + spare + 1 + 1 + line.length by omega, loop_key plain,
        loop_noColon ends (by simp; omega)]
      exact ⟨_, rfl, .inl rfl⟩
  | noValue plain some_ spaced =>
      rename_i key space
      rw [List.length_append, List.length_cons,
        show key.length + (space.length + 1) + spare + 1 = space.length + spare + 1 + 1 + key.length by omega, loop_key plain,
        loop_noValue spaced (by simp [some_])]
      exact ⟨_, rfl, .inl rfl⟩
  | stopValue plain some_ spaced inner ends =>
      rename_i key space value rest first
      have size : (key ++ 0x3a :: (space ++ first :: (value ++ rest))).length + spare + 1 =
          rest.length + space.length + spare + 1 + 1 + value.length + 1 + key.length := by
        simp only [List.length_append, List.length_cons]
        omega
      rw [size, loop_key plain, loop_colon spaced (by simp [some_]), loop_value inner, loop_stop ends]
      refine ⟨_, rfl, .inl ⟨rfl, ?_⟩⟩
      simp only [HttpParseResult.strings, List.append_assoc]
      exact stored _
  | short plain short ends later ih =>
      rename_i line rest c r
      have size : (line ++ c :: rest).length + spare + 1 = rest.length + spare + 1 + 1 + line.length := by
        simp only [List.length_append, List.length_cons]
        omega
      rw [size, loop_key plain, loop_lineEnd ends (by simp; omega), List.append_assoc done line [c]]
      exact ih (stored.append (line ++ [c])) spare (by omega)
  | header plain some_ spaced inner ends later ih =>
      rename_i key space value rest first c r
      have size : (key ++ 0x3a :: (space ++ first :: (value ++ c :: rest))).length + spare + 1 =
          rest.length + (space.length + spare + 1) + 1 + 1 + value.length + 1 + key.length := by
        simp only [List.length_append, List.length_cons]
        omega
      rw [size, loop_key plain, loop_colon spaced (by simp [some_]), loop_value inner]
      cases granted : malloc allocated with
      | false =>
          rw [loop_refused ends (by simp) granted]
          exact ⟨_, rfl, .memory rfl granted _⟩
      | true =>
          rw [loop_valueEnd ends (by simp) granted]
          obtain ⟨result, ran, outcome⟩ := ih (stored.header plain space first value) (space.length + spare + 1) (by omega)
          refine ⟨result, ran, ?_⟩
          cases r with
          | none => exact outcome
          | some pairs => simpa [Outcome] using outcome

end Loop

theorem httpHeaderParse_lines (malloc : Nat → Bool) {block : Bytes} {r : Option (List (Bytes × Bytes))}
    (lines : HttpLines block r) : ∃ result, httpHeaderParse malloc block = .ok result ∧ Outcome malloc [] result r :=
  @loop_of_lines malloc 0 _ _ _ lines [] [] [] (fun _ => rfl) (Nat.lt_succ_self _)

theorem HttpLines.unique {block : Bytes} {r r' : Option (List (Bytes × Bytes))} (lines : HttpLines block r)
    (lines' : HttpLines block r') : r = r' := by
  obtain ⟨result, ran, outcome⟩ := httpHeaderParse_lines (fun _ => true) lines
  obtain ⟨result', ran', outcome'⟩ := httpHeaderParse_lines (fun _ => true) lines'
  obtain rfl := Except.ok.inj (ran.symm.trans ran')
  cases r <;> cases r' <;> simp_all [Outcome]

end Chiaki
