import Mathlib.Data.Nat.Digits.Lemmas
import Chiaki.Lib.JsonText

/-!
# Texts that are read back

Texts of values without spaces, and what the reader makes of them.
-/

namespace Json

def quoted (s : List UInt8) : List UInt8 := 0x22 :: s ++ [0x22]

def natText (n : Nat) : List UInt8 :=
  if n = 0 then [0x30] else (Nat.digits 10 n).reverse.map fun d => UInt8.ofNat (0x30 + d)

def intText (n : Int) : List UInt8 := if n < 0 then 0x2d :: natText n.natAbs else natText n.natAbs

/-- Texts with commas between them, and a closing bracket. -/
def listText (close : UInt8) : List (List UInt8) → List UInt8
  | [] => [close]
  | [t] => t ++ [close]
  | t :: u :: ts => t ++ 0x2c :: listText close (u :: ts)

def arrayText (ts : List (List UInt8)) : List UInt8 := 0x5b :: listText 0x5d ts

def memberText (m : List UInt8 × List UInt8) : List UInt8 := quoted m.1 ++ 0x3a :: m.2

def objectText (ms : List (List UInt8 × List UInt8)) : List UInt8 := 0x7b :: listText 0x7d (ms.map memberText)

/-- Without quotes and backslashes, and for a strict reader without control characters. -/
def PlainString (strict : Bool) (s : List UInt8) : Prop :=
  ∀ c ∈ s, c ≠ 0x22 ∧ c ≠ 0x5c ∧ (strict = true → isControl c = false)

/-- A number ends here. -/
def Delimited (rest : List UInt8) : Prop := ∀ c, rest.head? = some c → isNumberChar c = false

/-- The text is read as the value, wherever it stands. -/
structure Reads (strict : Bool) (t : List UInt8) (v : Value) : Prop where
  begins : ∃ c rest, t = c :: rest ∧ isSpace c = false ∧ c ≠ 0x5d ∧ c ≠ 0x7d
  read : ∀ rest fuel, Delimited rest → t.length ≤ fuel → value strict fuel (t ++ rest) = some (v, rest)

/-- The text of a member is read as the member. -/
structure ReadsMember (strict : Bool) (m : List UInt8 × List UInt8) (v : List UInt8 × Value) : Prop where
  same : m.1 = v.1
  plain : PlainString strict m.1
  reads : Reads strict m.2 v.2

theorem skipSpace_cons {c : UInt8} (visible : isSpace c = false) (rest : List UInt8) : skipSpace (c :: rest) = c :: rest :=
  List.dropWhile_cons_of_neg (by simp [visible])

theorem delimited_cons {c : UInt8} (other : isNumberChar c = false) (rest : List UInt8) : Delimited (c :: rest) := by
  rintro d ⟨⟩
  exact other

/-! ## Strings -/

section Strings
variable {strict : Bool} {s : List UInt8}

theorem stringRaw_quote (rest : List UInt8) : stringRaw strict (0x22 :: rest) = some ([], rest) := by
  rw [stringRaw.eq_def]
  rfl

theorem stringRaw_cons {c : UInt8} (notQuote : c ≠ 0x22) (notEscape : c ≠ 0x5c) (visible : strict = true → isControl c = false)
    (rest : List UInt8) : stringRaw strict (c :: rest) = (stringRaw strict rest).map fun r => (c :: r.1, r.2) := by
  have shown : ¬ (strict && isControl c) = true := by
    rw [Bool.and_eq_true]
    rintro ⟨isStrict, control⟩
    rw [visible isStrict] at control
    cases control
  rw [stringRaw.eq_def]
  dsimp only
  rw [if_neg notQuote, if_neg shown, if_neg notEscape]

theorem decodeString_cons {c : UInt8} (notEscape : c ≠ 0x5c) (rest : List UInt8) :
    decodeString (c :: rest) = (decodeString rest).map (c :: ·) := by
  rw [decodeString.eq_def]
  dsimp only
  rw [if_neg notEscape]

theorem stringRaw_plain (plain : PlainString strict s) (rest : List UInt8) :
    stringRaw strict (s ++ 0x22 :: rest) = some (s, rest) := by
  induction s with
  | nil => exact stringRaw_quote rest
  | cons c s ih =>
      obtain ⟨⟨notQuote, notEscape, visible⟩, later⟩ := List.forall_mem_cons.mp plain
      rw [List.cons_append, stringRaw_cons notQuote notEscape visible, ih later]
      rfl

theorem decodeString_plain (plain : PlainString strict s) : decodeString s = some s := by
  induction s with
  | nil => rw [decodeString]
  | cons c s ih =>
      obtain ⟨⟨-, notEscape, -⟩, later⟩ := List.forall_mem_cons.mp plain
      rw [decodeString_cons notEscape, ih later]
      rfl

theorem string_plain (plain : PlainString strict s) (rest : List UInt8) :
    string strict (s ++ 0x22 :: rest) = some (s, rest) := by
  rw [string, stringRaw_plain plain, Option.bind_eq_bind, Option.bind_some]
  dsimp only
  rw [decodeString_plain plain]
  rfl

theorem reads_string (plain : PlainString strict s) : Reads strict (quoted s) (.string s) where
  begins := ⟨0x22, s ++ [0x22], rfl, rfl, by decide, by decide⟩
  read := by
    intro rest fuel _ enough
    obtain ⟨fuel, rfl⟩ : ∃ more, fuel = more + 1 := ⟨fuel - 1, by simp [quoted] at enough; omega⟩
    have text : quoted s ++ rest = 0x22 :: (s ++ 0x22 :: rest) := by simp [quoted]
    rw [text, value, skipSpace_cons rfl]
    dsimp only
    rw [if_pos rfl, string_plain plain]
    rfl

theorem memberName_quoted (plain : PlainString strict s) (rest : List UInt8) :
    memberName strict (quoted s ++ 0x3a :: rest) = some (s, rest) := by
  have text : quoted s ++ 0x3a :: rest = 0x22 :: (s ++ 0x22 :: 0x3a :: rest) := by simp [quoted]
  rw [text, memberName, skipSpace_cons rfl]
  dsimp only
  rw [if_pos rfl, string_plain plain]
  dsimp only
  rw [skipSpace_cons rfl]
  rfl

end Strings

/-! ## Numbers -/

theorem isDigit_ofNat {d : Nat} (small : d < 10) : isDigit (UInt8.ofNat (0x30 + d)) = true := by
  have all : ∀ d < 10, isDigit (UInt8.ofNat (0x30 + d)) = true := by decide
  exact all d small

theorem digit_ofNat {d : Nat} (small : d < 10) : (UInt8.ofNat (0x30 + d) - 0x30).toNat = d := by
  have all : ∀ d < 10, (UInt8.ofNat (0x30 + d) - 0x30).toNat = d := by decide
  exact all d small

theorem natText_digits (n : Nat) : ∀ c ∈ natText n, isDigit c = true := by
  intro c member
  rw [natText] at member
  split at member
  · obtain rfl := List.mem_singleton.mp member
    rfl
  · obtain ⟨d, digit, rfl⟩ := List.mem_map.mp member
    exact isDigit_ofNat (Nat.digits_lt_base (by decide) (List.mem_reverse.mp digit))

theorem natText_ne_nil (n : Nat) : natText n ≠ [] := by
  rw [natText]
  split
  · exact List.cons_ne_nil _ _
  · rename_i positive
    rw [Ne, List.map_eq_nil_iff, List.reverse_eq_nil_iff]
    exact Nat.digits_ne_nil_iff_ne_zero.mpr positive

theorem natText_leading {n : Nat} (zero : (natText n).head? = some 0x30) : (natText n).length = 1 := by
  rw [natText] at zero ⊢
  split at zero
  · rename_i none_
    rw [if_pos none_]
    rfl
  · rename_i positive
    have nonempty : Nat.digits 10 n ≠ [] := Nat.digits_ne_nil_iff_ne_zero.mpr positive
    rw [List.head?_map, List.head?_reverse, List.getLast?_eq_getLast_of_ne_nil nonempty] at zero
    have last := Nat.getLast_digit_ne_zero 10 positive
    have small := Nat.digits_lt_base (by decide : 1 < 10) (List.getLast_mem nonempty)
    have value := digit_ofNat small
    have same : UInt8.ofNat (0x30 + (Nat.digits 10 n).getLast nonempty) = 0x30 := Option.some.inj zero
    rw [same] at value
    exact absurd value.symm last

theorem natural_natText (n : Nat) : natural (natText n) = some n := by
  rw [natural, if_pos ⟨natText_ne_nil n, List.all_eq_true.mpr (natText_digits n), natText_leading⟩]
  apply congrArg some
  rw [natText]
  split
  · rename_i zero
    rw [zero]
    rfl
  · have general (ds : List Nat) (small : ∀ d ∈ ds, d < 10) :
        (ds.reverse.map fun d => UInt8.ofNat (0x30 + d)).foldl (fun n c => n * 10 + (c - 0x30).toNat) 0 = Nat.ofDigits 10 ds := by
      induction ds with
      | nil => rfl
      | cons d ds ih =>
          obtain ⟨first, later⟩ := List.forall_mem_cons.mp small
          rw [List.reverse_cons, List.map_append, List.foldl_append, ih later, Nat.ofDigits_cons]
          simp only [List.map_cons, List.map_nil, List.foldl_cons, List.foldl_nil, digit_ofNat first]
          exact (Nat.add_comm _ _).trans (congrArg (d + ·) (Nat.mul_comm _ _))
    rw [general _ fun d => Nat.digits_lt_base (by decide), Nat.ofDigits_digits]

theorem isNumberChar_of_digit {c : UInt8} (digit : isDigit c = true) : isNumberChar c = true := by
  simp [isNumberChar, digit]

theorem not_space_of_numberChar {c : UInt8} (numeral : isNumberChar c = true) :
    isSpace c = false ∧ c ≠ 0x22 ∧ c ≠ 0x5b ∧ c ≠ 0x5d ∧ c ≠ 0x7b ∧ c ≠ 0x7d ∧ isControl c = false := by
  have all : ∀ n < 256, isNumberChar (UInt8.ofNat n) = true → isSpace (UInt8.ofNat n) = false ∧ UInt8.ofNat n ≠ 0x22 ∧
      UInt8.ofNat n ≠ 0x5b ∧ UInt8.ofNat n ≠ 0x5d ∧ UInt8.ofNat n ≠ 0x7b ∧ UInt8.ofNat n ≠ 0x7d ∧
      isControl (UInt8.ofNat n) = false := by decide +kernel
  have here := all c.toNat c.toNat_lt
  rw [UInt8.ofNat_toNat] at here
  exact here numeral

theorem not_control_of_numberChar {c : UInt8} (numeral : isNumberChar c = true) : isControl c = false :=
  (not_space_of_numberChar numeral).2.2.2.2.2.2

theorem intText_chars (n : Int) : ∀ c ∈ intText n, isNumberChar c = true := by
  intro c member
  rw [intText] at member
  split at member
  · rcases List.mem_cons.mp member with rfl | digit
    · rfl
    · exact isNumberChar_of_digit (natText_digits _ c digit)
  · exact isNumberChar_of_digit (natText_digits _ c member)

theorem integer_of_natural {t : List UInt8} {n : Nat} (read : natural t = some n) : integer t = some n := by
  cases t with
  | nil => cases read
  | cons c t =>
      have notMinus : c ≠ 0x2d := by
        rintro rfl
        rw [natural, if_neg (by simp [isDigit])] at read
        cases read
      rw [integer, if_neg notMinus, read]
      rfl

theorem integer_intText (n : Int) : integer (intText n) = some n := by
  have digits := natural_natText n.natAbs
  rw [intText]
  split
  · rename_i negative
    rw [integer, if_pos rfl, digits]
    exact congrArg some (by dsimp only; omega)
  · rename_i positive
    rw [integer_of_natural digits]
    exact congrArg some (by omega)

theorem exists_natural_take (n : Nat) {k : Nat} (some_ : 0 < k) : ∃ m, natural ((natText n).take k) = some m := by
  have nonempty : (natText n).take k ≠ [] := by
    rw [Ne, List.take_eq_nil_iff, not_or]
    exact ⟨some_.ne', natText_ne_nil n⟩
  have digits : ((natText n).take k).all isDigit = true :=
    List.all_eq_true.mpr fun c member => natText_digits n c (List.mem_of_mem_take member)
  have leading : ((natText n).take k).head? = some 0x30 → ((natText n).take k).length = 1 := by
    intro zero
    rw [List.head?_take, if_neg some_.ne'] at zero
    rw [List.length_take, natText_leading zero]
    omega
  rw [natural, if_pos ⟨nonempty, digits, leading⟩]
  exact ⟨_, rfl⟩

theorem span_delimited {t rest : List UInt8} (chars : ∀ c ∈ t, isNumberChar c = true) (delimited : Delimited rest) :
    (t ++ rest).takeWhile isNumberChar = t ∧ (t ++ rest).dropWhile isNumberChar = rest := by
  induction t with
  | nil =>
      cases rest with
      | nil => exact ⟨rfl, rfl⟩
      | cons c rest =>
          have other := delimited c rfl
          exact ⟨List.takeWhile_cons_of_neg (by simp [other]), List.dropWhile_cons_of_neg (by simp [other])⟩
  | cons c t ih =>
      obtain ⟨first, later⟩ := List.forall_mem_cons.mp chars
      obtain ⟨taken, dropped⟩ := ih later
      rw [List.cons_append, List.takeWhile_cons_of_pos first, List.dropWhile_cons_of_pos first, taken, dropped]
      exact ⟨rfl, rfl⟩

theorem reads_number (strict : Bool) {t : List UInt8} {n : Int} (chars : ∀ c ∈ t, isNumberChar c = true) (read : integer t = some n) :
    Reads strict t (.int n) := by
  cases t with
  | nil => cases read
  | cons c t =>
      have numeral := chars c List.mem_cons_self
      obtain ⟨visible, notQuote, notBracket, notClosing, notBrace, notClosingBrace, -⟩ := not_space_of_numberChar numeral
      refine ⟨⟨c, t, rfl, visible, notClosing, notClosingBrace⟩, ?_⟩
      intro rest fuel delimited enough
      obtain ⟨fuel, rfl⟩ : ∃ more, fuel = more + 1 := ⟨fuel - 1, by rw [List.length_cons] at enough; omega⟩
      obtain ⟨taken, dropped⟩ := span_delimited chars delimited
      rw [value, List.cons_append, skipSpace_cons visible]
      dsimp only
      rw [if_neg notQuote, if_neg notBracket, if_neg notBrace, if_pos numeral, ← List.cons_append, number, taken, dropped, read]

theorem reads_int (strict : Bool) (n : Int) : Reads strict (intText n) (.int n) :=
  reads_number strict (intText_chars n) (integer_intText n)

theorem intText_natCast (n : Nat) : intText (n : Int) = natText n := by
  rw [intText, if_neg (by omega), Int.natAbs_natCast]

theorem reads_digits (strict : Bool) (n : Nat) {k : Nat} (some_ : 0 < k) : ∃ v, Reads strict ((natText n).take k) v := by
  obtain ⟨m, read⟩ := exists_natural_take n some_
  refine ⟨.int m, reads_number strict (fun c member => ?_) (integer_of_natural read)⟩
  exact isNumberChar_of_digit (natText_digits n c (List.mem_of_mem_take member))

/-! ## Arrays and objects -/

section Lists
variable {strict : Bool} {t key : List UInt8} {v : Value} {c : UInt8}

theorem element_read (reads : Reads strict t v) (visible : isSpace c = false) (other : isNumberChar c = false)
    (rest : List UInt8) {fuel : Nat} (enough : t.length ≤ fuel) :
    elements strict (fuel + 1) (t ++ c :: rest) =
      if c = 0x2c then (elements strict fuel rest).map fun r => (v :: r.1, r.2)
      else if c = 0x5d then some ([v], rest)
      else none := by
  rw [elements, reads.read (c :: rest) fuel (delimited_cons other rest) enough]
  dsimp only
  rw [skipSpace_cons visible]

theorem member_read (plain : PlainString strict key) (reads : Reads strict t v) (visible : isSpace c = false)
    (other : isNumberChar c = false) (rest : List UInt8) {fuel : Nat} (enough : t.length ≤ fuel) :
    members strict (fuel + 1) (memberText (key, t) ++ c :: rest) =
      if c = 0x2c then (members strict fuel rest).map fun r => ((key, v) :: r.1, r.2)
      else if c = 0x7d then some ([(key, v)], rest)
      else none := by
  have text : memberText (key, t) ++ c :: rest = quoted key ++ 0x3a :: (t ++ c :: rest) := by simp [memberText]
  rw [members, text, memberName_quoted plain]
  dsimp only
  rw [reads.read (c :: rest) fuel (delimited_cons other rest) enough]
  dsimp only
  rw [skipSpace_cons visible]

theorem elements_read {ts : List (List UInt8)} {vs : List Value} (all : List.Forall₂ (Reads strict) ts vs) (some_ : ts ≠ [])
    (rest : List UInt8) {fuel : Nat} (enough : (listText 0x5d ts).length ≤ fuel) :
    elements strict fuel (listText 0x5d ts ++ rest) = some (vs, rest) := by
  induction all generalizing fuel with
  | nil => exact absurd rfl some_
  | cons reads later ih =>
      rename_i t v ts vs
      cases later with
      | nil =>
          rw [listText, List.length_append, List.length_singleton] at enough
          obtain ⟨fuel, rfl⟩ : ∃ more, fuel = more + 1 := ⟨fuel - 1, by omega⟩
          rw [listText, List.append_assoc, List.singleton_append, element_read reads rfl rfl rest (by omega)]
          rfl
      | cons reads' later =>
          rw [listText, List.length_append, List.length_cons] at enough
          obtain ⟨fuel, rfl⟩ : ∃ more, fuel = more + 1 := ⟨fuel - 1, by omega⟩
          rw [listText, List.append_assoc, List.cons_append, element_read reads rfl rfl _ (by omega), if_pos rfl,
            ih (List.cons_ne_nil _ _) (by omega)]
          rfl

theorem begins_listText {ts : List (List UInt8)} (some_ : ts ≠ [])
    (begins : ∀ t ∈ ts, ∃ c rest, t = c :: rest ∧ isSpace c = false ∧ c ≠ 0x5d ∧ c ≠ 0x7d) (close : UInt8) :
    ∃ c rest, listText close ts = c :: rest ∧ isSpace c = false ∧ c ≠ 0x5d ∧ c ≠ 0x7d := by
  cases ts with
  | nil => exact absurd rfl some_
  | cons t ts =>
      obtain ⟨c, rest, rfl, visible, notBracket, notBrace⟩ := begins t List.mem_cons_self
      cases ts with
      | nil => exact ⟨c, rest ++ [close], rfl, visible, notBracket, notBrace⟩
      | cons u ts => exact ⟨c, rest ++ 0x2c :: listText close (u :: ts), rfl, visible, notBracket, notBrace⟩

theorem reads_array {ts : List (List UInt8)} {vs : List Value} (all : List.Forall₂ (Reads strict) ts vs) :
    Reads strict (arrayText ts) (.array vs) where
  begins := ⟨0x5b, listText 0x5d ts, rfl, rfl, by decide, by decide⟩
  read := by
    intro rest fuel _ enough
    rw [arrayText, List.length_cons] at enough
    obtain ⟨fuel, rfl⟩ : ∃ more, fuel = more + 1 := ⟨fuel - 1, by omega⟩
    rw [arrayText, List.cons_append, value, skipSpace_cons rfl]
    dsimp only
    rw [if_neg (by decide), if_pos rfl]
    by_cases none_ : ts = []
    · obtain rfl := none_
      cases all
      rw [listText, List.singleton_append, skipSpace_cons rfl]
      rfl
    · have begins : ∀ t ∈ ts, ∃ c rest, t = c :: rest ∧ isSpace c = false ∧ c ≠ 0x5d ∧ c ≠ 0x7d := by
        intro t member
        obtain ⟨i, bound, rfl⟩ := List.getElem_of_mem member
        exact ((List.forall₂_iff_get.mp all).2 i bound (by rw [← all.length_eq]; exact bound)).begins
      obtain ⟨c, later, text, visible, notBracket, -⟩ := begins_listText none_ begins 0x5d
      have first : ¬ (skipSpace (listText 0x5d ts ++ rest)).head? = some 0x5d := by
        rw [text, List.cons_append, skipSpace_cons visible]
        exact fun same => notBracket (Option.some.inj same)
      rw [if_neg first, elements_read all none_ rest (by omega)]
      rfl

theorem members_read {ms : List (List UInt8 × List UInt8)} {vs : List (List UInt8 × Value)}
    (all : List.Forall₂ (ReadsMember strict) ms vs) (some_ : ms ≠ [])
    (rest : List UInt8) {fuel : Nat} (enough : (listText 0x7d (ms.map memberText)).length ≤ fuel) :
    members strict fuel (listText 0x7d (ms.map memberText) ++ rest) = some (vs, rest) := by
  induction all generalizing fuel with
  | nil => exact absurd rfl some_
  | cons reads later ih =>
      rename_i m v ms vs
      obtain ⟨key, t⟩ := m
      obtain ⟨key', v⟩ := v
      obtain ⟨same, plain, reads⟩ := reads
      obtain rfl : key = key' := same
      have reads : Reads strict t v := reads
      have size : (memberText (key, t)).length = key.length + t.length + 3 := by
        simp only [memberText, quoted, List.length_append, List.length_cons, List.length_nil]
        omega
      cases later with
      | nil =>
          rw [List.map_cons, List.map_nil, listText, List.length_append, List.length_singleton, size] at enough
          obtain ⟨fuel, rfl⟩ : ∃ more, fuel = more + 1 := ⟨fuel - 1, by omega⟩
          rw [List.map_cons, List.map_nil, listText, List.append_assoc, List.singleton_append,
            member_read plain reads rfl rfl rest (by omega)]
          rfl
      | cons reads' later =>
          rw [List.map_cons, List.map_cons, listText, List.length_append, List.length_cons, size, ← List.map_cons] at enough
          obtain ⟨fuel, rfl⟩ : ∃ more, fuel = more + 1 := ⟨fuel - 1, by omega⟩
          rw [List.map_cons, List.map_cons, listText, List.append_assoc, List.cons_append,
            member_read plain reads rfl rfl _ (by omega), if_pos rfl, ← List.map_cons, ih (List.cons_ne_nil _ _) (by omega)]
          rfl

theorem exists_reads {ms : List (List UInt8 × List UInt8)} {vs : List (List UInt8 × Value)}
    (all : List.Forall₂ (ReadsMember strict) ms vs) : ∀ m ∈ ms, PlainString strict m.1 ∧ ∃ v, Reads strict m.2 v := by
  induction all with
  | nil => exact nofun
  | cons first _ ih => exact List.forall_mem_cons.mpr ⟨⟨first.plain, _, first.reads⟩, ih⟩

theorem map_fst_eq {ms : List (List UInt8 × List UInt8)} {vs : List (List UInt8 × Value)}
    (all : List.Forall₂ (ReadsMember strict) ms vs) : vs.map Prod.fst = ms.map Prod.fst := by
  induction all with
  | nil => rfl
  | cons first _ ih => rw [List.map_cons, List.map_cons, ih, first.same]

theorem addMembers_distinct {ms done : List (List UInt8 × Value)} (distinct : ((done ++ ms).map Prod.fst).Nodup) :
    ms.foldl (fun ms m => addMember ms m.1 m.2) done = done ++ ms := by
  induction ms generalizing done with
  | nil => exact (List.append_nil done).symm
  | cons m ms ih =>
      have absent : (done.lookup m.1).isSome = false := by
        rw [Option.isSome_eq_false_iff, Option.isNone_iff_eq_none, List.lookup_eq_none_iff]
        intro p member
        rw [List.map_append, List.nodup_append] at distinct
        have other := distinct.2.2 p.1 (List.mem_map_of_mem member) m.1 (List.mem_map_of_mem List.mem_cons_self)
        simpa using other.symm
      rw [List.foldl_cons, addMember, absent, if_neg Bool.false_ne_true, ih (by simpa using distinct)]
      simp

theorem reads_object {ms : List (List UInt8 × List UInt8)} {vs : List (List UInt8 × Value)}
    (all : List.Forall₂ (ReadsMember strict) ms vs) (some_ : ms ≠ [])
    (distinct : (ms.map Prod.fst).Nodup) : Reads strict (objectText ms) (.object vs) where
  begins := ⟨0x7b, listText 0x7d (ms.map memberText), rfl, rfl, by decide, by decide⟩
  read := by
    intro rest fuel _ enough
    rw [objectText, List.length_cons] at enough
    obtain ⟨fuel, rfl⟩ : ∃ more, fuel = more + 1 := ⟨fuel - 1, by omega⟩
    rw [objectText, List.cons_append, value, skipSpace_cons rfl]
    dsimp only
    have begins : ∀ t ∈ ms.map memberText, ∃ c rest, t = c :: rest ∧ isSpace c = false ∧ c ≠ 0x5d ∧ c ≠ 0x7d := by
      intro t member
      obtain ⟨m, -, rfl⟩ := List.mem_map.mp member
      exact ⟨0x22, m.1 ++ [0x22] ++ 0x3a :: m.2, by simp [memberText, quoted], rfl, by decide, by decide⟩
    obtain ⟨c, later, text, visible, -, notBrace⟩ := begins_listText (by simpa using some_) begins 0x7d
    have first : ¬ (skipSpace (listText 0x7d (ms.map memberText) ++ rest)).head? = some 0x7d := by
      rw [text, List.cons_append, skipSpace_cons visible]
      exact fun same => notBrace (Option.some.inj same)
    rw [if_neg (by decide), if_neg (by decide), if_pos rfl, if_neg first, members_read all some_ rest (by omega)]
    exact congrArg (fun ms => some (Value.object ms, rest)) (addMembers_distinct (by simpa [map_fst_eq all] using distinct))

end Lists

theorem Reads.parse {strict : Bool} {t : List UInt8} {v : Value} (reads : Reads strict t v) : parse strict t = some v := by
  have read := reads.read [] (t.length + 1) nofun (Nat.le_succ _)
  rw [List.append_nil] at read
  rw [Json.parse, read]
  rfl

/-! ## Texts in parts -/

/-- Texts with a comma behind each. -/
def listFront (ts : List (List UInt8)) : List UInt8 := ts.flatMap (· ++ [0x2c])

/-- Texts with a comma before each, and a closing bracket. -/
def listBack (close : UInt8) (ts : List (List UInt8)) : List UInt8 := ts.flatMap (0x2c :: ·) ++ [close]

/-- An object up to the value of a member. -/
def openObject (ms : List (List UInt8 × List UInt8)) (key : List UInt8) : List UInt8 :=
  0x7b :: listFront (ms.map memberText) ++ (quoted key ++ [0x3a])

def closeObject (ms : List (List UInt8 × List UInt8)) : List UInt8 := listBack 0x7d (ms.map memberText)

theorem listText_cons (close : UInt8) (t : List UInt8) (ts : List (List UInt8)) :
    listText close (t :: ts) = t ++ listBack close ts := by
  induction ts generalizing t with
  | nil => rfl
  | cons u ts ih =>
      rw [listText, ih]
      simp [listBack]

theorem listText_append (close : UInt8) (ts : List (List UInt8)) {us : List (List UInt8)} (more : us ≠ []) :
    listText close (ts ++ us) = listFront ts ++ listText close us := by
  induction ts with
  | nil => rfl
  | cons t ts ih =>
      cases rest : ts ++ us with
      | nil => exact absurd (List.append_eq_nil_iff.mp rest).2 more
      | cons u rest' =>
          rw [List.cons_append, rest, listText, ← rest, ih]
          simp [listFront]

theorem objectText_parts (ms : List (List UInt8 × List UInt8)) (key t : List UInt8) (ms' : List (List UInt8 × List UInt8)) :
    objectText (ms ++ (key, t) :: ms') = openObject ms key ++ t ++ closeObject ms' := by
  rw [objectText, List.map_append, listText_append _ _ (by simp), List.map_cons, listText_cons]
  simp [openObject, closeObject, memberText]

/-! ## A text inside a string -/

/-- With a backslash before each quote and each backslash. -/
def escape (s : List UInt8) : List UInt8 := s.flatMap fun c => if c = 0x22 ∨ c = 0x5c then [0x5c, c] else [c]

section Escape
variable {s : List UInt8}

@[simp] theorem escape_append (a b : List UInt8) : escape (a ++ b) = escape a ++ escape b := List.flatMap_append

theorem escape_cons (c : UInt8) (s : List UInt8) :
    escape (c :: s) = (if c = 0x22 ∨ c = 0x5c then [0x5c, c] else [c]) ++ escape s := List.flatMap_cons

theorem escape_plain (plain : ∀ c ∈ s, c ≠ 0x22 ∧ c ≠ 0x5c) : escape s = s := by
  induction s with
  | nil => rfl
  | cons c s ih =>
      obtain ⟨⟨notQuote, notEscape⟩, later⟩ := List.forall_mem_cons.mp plain
      rw [escape_cons, if_neg (by simp [notQuote, notEscape]), ih later]
      rfl

theorem decodeString_escape_append (s rest : List UInt8) :
    decodeString (escape s ++ rest) = (decodeString rest).map (s ++ ·) := by
  induction s with
  | nil =>
      have nothing : escape [] ++ rest = rest := rfl
      rw [nothing]
      cases decodeString rest <;> rfl
  | cons c s ih =>
      rw [escape_cons]
      split
      · rename_i special
        have simple : c ≠ 0x75 ∧ simpleEscape c = some c := by rcases special with rfl | rfl <;> decide
        rw [List.append_assoc, List.cons_append, List.singleton_append, decodeString.eq_def]
        dsimp only
        rw [if_pos rfl, if_neg simple.1, simple.2]
        dsimp only
        rw [ih]
        cases decodeString rest <;> rfl
      · rename_i ordinary
        rw [List.singleton_append, List.cons_append, decodeString_cons (fun escape => ordinary (.inr escape)), ih]
        cases decodeString rest <;> rfl

theorem decodeString_escape (s : List UInt8) : decodeString (escape s) = some s := by
  have decoded := decodeString_escape_append s []
  rw [List.append_nil, show decodeString [] = some [] by rw [decodeString]] at decoded
  simpa using decoded

end Escape

end Json
