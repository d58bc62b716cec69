import Chiaki.Http.HeaderLines

/-!
# Well-formed header blocks

When the parser returns the pairs of a block that is made of headers, and when it refuses a block with a bad line.
-/

namespace Chiaki
open HttpParse

/-- `key ':' SP* value line-end`. -/
structure HeaderLine where
  key : Bytes
  spaces : Nat
  value : Bytes
  crlf : Bool
  key_some : key ≠ []
  key_colon : 0x3a ∉ key
  key_lineEnd : ∀ c ∈ key, isLineEnd c = false
  value_some : value ≠ []
  value_start : value.head? ≠ some 0x20
  value_lineEnd : ∀ c ∈ value, isLineEnd c = false

namespace HeaderLine

def lineEnd (l : HeaderLine) : Bytes := if l.crlf then [0x0d, 0x0a] else [0x0a]

def bytes (l : HeaderLine) : Bytes := l.key ++ 0x3a :: (List.replicate l.spaces 0x20 ++ l.value ++ l.lineEnd)

def pair (l : HeaderLine) : Bytes × Bytes := (l.key, l.value)

/-- No zero is in its text, and at most one space is before the value. -/
def Clean (l : HeaderLine) : Prop := 0 ∉ l.key ∧ 0 ∉ l.value ∧ l.spaces ≤ 1

end HeaderLine

/-- A line of the block has text but no `:`, or an empty value. -/
def BadLine (block : Bytes) : Prop := ∃ front line rest : Bytes, block = front ++ line ++ rest ∧
  (front = [] ∨ ∃ before c, front = before ++ [c] ∧ isLineEnd c = true) ∧
  (rest = [] ∨ ∃ c behind, rest = c :: behind ∧ isLineEnd c = true) ∧ (∀ c ∈ line, isLineEnd c = false) ∧
  ((line ≠ [] ∧ 0x3a ∉ line) ∨ ∃ key n, line = key ++ 0x3a :: List.replicate n 0x20 ∧ 0x3a ∉ key)

/-- Lines that are passed over: an empty one or one of a single character, and a header. -/
inductive Passed : Bytes → Prop where
  | nil : Passed []
  | short {line rest : Bytes} {c : UInt8} (plain : KeyText line) (short : line.length ≤ 1) (ends : isLineEnd c = true)
      (later : Passed rest) : Passed (line ++ c :: rest)
  | header {key space value rest : Bytes} {first c : UInt8} (plain : KeyText key) (some_ : key ≠ [])
      (spaced : Spaced space first) (inner : ValueText value) (ends : isLineEnd c = true) (later : Passed rest) :
      Passed (key ++ 0x3a :: (space ++ first :: (value ++ c :: rest)))

/-- A line without a key, one of at least two characters without a `:`, or the end of the block right behind the `:` and
one space. -/
inductive HeaderFault : Bytes → Prop where
  | noKey (rest : Bytes) : HeaderFault (0x3a :: rest)
  | noColon {line : Bytes} {c : UInt8} (rest : Bytes) (plain : KeyText line) (long : 1 < line.length)
      (ends : isLineEnd c = true) : HeaderFault (line ++ c :: rest)
  | noValue {key space : Bytes} (plain : KeyText key) (some_ : key ≠ []) (spaced : space = [] ∨ space = [0x20]) :
      HeaderFault (key ++ 0x3a :: space)

/-- The first fault of the block is behind lines that are passed over. -/
def Refused (block : Bytes) : Prop := ∃ front rest, block = front ++ rest ∧ Passed front ∧ HeaderFault rest

/-- What is said of a block: its headers are returned, a bad line is an error, no two lines are joined, and after an error
no node is left. -/
structure HeaderParseMeets (block : Bytes) : Prop where
  returned : ∀ lines : List HeaderLine, block = lines.flatMap HeaderLine.bytes →
    ∃ result, httpHeaderParse (fun _ => true) block = .ok result ∧ result.err = .success ∧
      result.strings = (lines.map HeaderLine.pair).reverse
  refused : BadLine block → ∀ malloc, ∃ result, httpHeaderParse malloc block = .ok result ∧ result.err ≠ .success
  apart : ∀ malloc, ∃ result, httpHeaderParse malloc block = .ok result ∧ (result.err = .success →
    ∀ pair ∈ result.strings, (∀ c ∈ pair.1, isLineEnd c = false) ∧ ∀ c ∈ pair.2, isLineEnd c = false)
  freed : ∀ malloc, ∃ result, httpHeaderParse malloc block = .ok result ∧
    (result.err ≠ .success → result.freed = (List.range result.allocated).reverse)

/-! ## Blocks that are refused -/

theorem httpLines_none_iff (block : Bytes) : HttpLines block none ↔ Refused block := by
  constructor
  · intro lines
    generalize outcome : (none : Option (List (Bytes × Bytes))) = r at lines
    induction lines with
    | stop => cases outcome
    | stopValue => cases outcome
    | noKey rest => exact ⟨[], _, rfl, .nil, .noKey rest⟩
    | noColon rest plain long ends => exact ⟨[], _, rfl, .nil, .noColon rest plain long ends⟩
    | noValue plain some_ spaced => exact ⟨[], _, rfl, .nil, .noValue plain some_ spaced⟩
    | short plain short ends later ih =>
        obtain ⟨front, rest, rfl, passed, fault⟩ := ih outcome
        exact ⟨_, rest, by simp, .short plain short ends passed, fault⟩
    | header plain some_ spaced inner ends later ih =>
        rename_i r
        cases r with
        | some pairs => cases outcome
        | none =>
            obtain ⟨front, rest, rfl, passed, fault⟩ := ih rfl
            exact ⟨_, rest, by simp, .header plain some_ spaced inner ends passed, fault⟩
  · rintro ⟨front, rest, rfl, passed, fault⟩
    induction passed with
    | nil =>
        cases fault with
        | noKey rest => exact .noKey rest
        | noColon rest plain long ends => exact .noColon rest plain long ends
        | noValue plain some_ spaced => exact .noValue plain some_ spaced
    | short plain short ends later ih =>
        rw [List.append_assoc, List.cons_append]
        exact .short plain short ends ih
    | header plain some_ spaced inner ends later ih =>
        have lines := HttpLines.header plain some_ spaced inner ends ih
        simpa using lines

/-! ## Lines that are joined -/

theorem keyText_nil : KeyText [] := fun _ member => absurd member List.not_mem_nil

theorem KeyText.colon {key : Bytes} (plain : KeyText key) : 0x3a ∉ key := fun inKey => (plain _ inKey).2.1 rfl

theorem Spaced.replicate {space : Bytes} {first : UInt8} (spaced : Spaced space first) :
    ∃ n, space = List.replicate n 0x20 := by
  rcases spaced with rfl | ⟨rfl, -⟩
  · exact ⟨1, rfl⟩
  · exact ⟨0, rfl⟩

theorem BadLine.behind {line rest : Bytes} {c : UInt8} (lineEnd : isLineEnd c = true) (bad : BadLine rest) :
    BadLine (line ++ c :: rest) := by
  obtain ⟨front, bad, behind, rfl, start, stop, text⟩ := bad
  refine ⟨line ++ c :: front, bad, behind, by simp, .inr ?_, stop, text⟩
  rcases start with rfl | ⟨before, d, rfl, ends⟩
  · exact ⟨line, c, rfl, lineEnd⟩
  · exact ⟨line ++ c :: before, d, by simp, ends⟩

theorem badLine_of_joined {block : Bytes} {r : Option (List (Bytes × Bytes))} (lines : HttpLines block r)
    {pairs : List (Bytes × Bytes)} (returned : r = some pairs) {pair : Bytes × Bytes} (member : pair ∈ pairs)
    {c : UInt8} (inside : c ∈ pair.1 ∨ c ∈ pair.2) (lineEnd : isLineEnd c = true) : BadLine block := by
  induction lines generalizing pairs with
  | stop =>
      obtain rfl := Option.some.inj returned
      cases member
  | stopValue =>
      obtain rfl := Option.some.inj returned
      cases member
  | noKey => cases returned
  | noColon => cases returned
  | noValue => cases returned
  | short plain short ends later ih => exact (ih returned member).behind ends
  | header plain some_ spaced inner ends later ih =>
      rename_i key space value rest first d r
      cases r with
      | none => cases returned
      | some pairs =>
          obtain rfl := Option.some.inj returned
          rcases List.mem_cons.mp member with rfl | member
          · have notKey : c ∉ key := fun inKey => by simp [(plain c inKey).2.2] at lineEnd
            have inValue := (List.takeWhile_sublist _).subset (inside.resolve_left notKey)
            have isFirst : c = first := by
              rcases List.mem_cons.mp inValue with same | later
              · exact same
              · simp [(inner c later).2] at lineEnd
            obtain rfl := isFirst
            obtain ⟨n, rfl⟩ := spaced.replicate
            refine ⟨[], key ++ 0x3a :: List.replicate n 0x20, c :: (value ++ d :: rest), by simp, .inl rfl,
              .inr ⟨c, _, rfl, lineEnd⟩, ?_, .inr ⟨key, n, rfl, plain.colon⟩⟩
            intro e inLine
            simp only [List.mem_append, List.mem_cons, List.mem_replicate] at inLine
            rcases inLine with inKey | rfl | ⟨-, rfl⟩
            · exact (plain e inKey).2.2
            · rfl
            · rfl
          · have bad := @BadLine.behind (key ++ 0x3a :: (space ++ first :: value)) _ _ ends (ih rfl member)
            simpa using bad

/-! ## Headers that are returned -/

namespace HeaderLine

theorem plain_key (l : HeaderLine) (zero : 0 ∉ l.key) : KeyText l.key := by
  intro c member
  refine ⟨?_, ?_, l.key_lineEnd c member⟩
  · rintro rfl
    exact zero member
  · rintro rfl
    exact l.key_colon member

theorem lines_lineEnd (l : HeaderLine) {rest : Bytes} {r : Option (List (Bytes × Bytes))} (later : HttpLines rest r) :
    ∃ c more, l.lineEnd ++ rest = c :: more ∧ isLineEnd c = true ∧ HttpLines more r := by
  cases crlf : l.crlf with
  | false => exact ⟨0x0a, rest, by simp [lineEnd, crlf], rfl, later⟩
  | true =>
      refine ⟨0x0d, 0x0a :: rest, by simp [lineEnd, crlf], rfl, ?_⟩
      exact .short keyText_nil (Nat.zero_le 1) rfl later

theorem lines_clean (l : HeaderLine) (clean : l.Clean) {rest : Bytes} {r : Option (List (Bytes × Bytes))}
    (later : HttpLines rest r) : HttpLines (l.bytes ++ rest) (r.map (l.pair :: ·)) := by
  obtain ⟨noZero, noZeroValue, few⟩ := clean
  obtain ⟨first, tail, value⟩ := List.exists_cons_of_ne_nil l.value_some
  obtain ⟨c, more, ends, lineEnd, later⟩ := l.lines_lineEnd later
  have spaced : Spaced (List.replicate l.spaces 0x20) first := by
    rcases Nat.le_one_iff_eq_zero_or_eq_one.mp few with zero | one
    · rw [zero]
      refine .inr ⟨rfl, ?_⟩
      rintro rfl
      exact l.value_start (by rw [value]; rfl)
    · rw [one]
      exact .inl rfl
  have nonzero : ∀ d ∈ first :: tail, d ≠ 0 := by
    rintro d member rfl
    exact noZeroValue (value ▸ member)
  have inner : ValueText tail := by
    intro d member
    have member := List.mem_cons_of_mem first member
    exact ⟨nonzero d member, l.value_lineEnd d (value ▸ member)⟩
  have whole : (first :: tail).takeWhile (· ≠ 0) = l.value := by
    rw [value, List.takeWhile_eq_self_iff]
    intro d member
    simpa using nonzero d member
  have lines := HttpLines.header (l.plain_key noZero) l.key_some spaced inner lineEnd later
  rw [whole, ← ends] at lines
  simpa [bytes, value, pair] using lines

theorem exists_taken (l : HeaderLine) : ∃ space first tail, List.replicate l.spaces 0x20 ++ l.value = space ++ first :: tail ∧
    Spaced space first ∧ ∀ c ∈ first :: tail, isLineEnd c = false := by
  obtain ⟨d, more, value⟩ := List.exists_cons_of_ne_nil l.value_some
  have last : d ≠ 0x20 := by
    rintro rfl
    exact l.value_start (by rw [value]; rfl)
  rcases spaced_cases (List.replicate l.spaces 0x20 ++ l.value) with (empty | single) | ⟨space, first, tail, cut, spaced⟩
  · simp [value] at empty
  · have only : d ∈ [0x20] := by
      rw [← single, value]
      simp
    exact absurd (List.mem_singleton.mp only) last
  · refine ⟨space, first, tail, cut, spaced, ?_⟩
    intro c member
    have inText : c ∈ List.replicate l.spaces 0x20 ++ l.value := by
      rw [cut]
      exact List.mem_append_right _ member
    rcases List.mem_append.mp inText with blank | inValue
    · rw [List.eq_of_mem_replicate blank]
      rfl
    · exact l.value_lineEnd c inValue

theorem lines_zeroKey (l : HeaderLine) (zero : 0 ∈ l.key) (rest : Bytes) : HttpLines (l.bytes ++ rest) (some []) := by
  obtain ⟨front, text, cut, nonzero⟩ := List.eq_append_cons_of_mem zero
  have plain : KeyText front := by
    intro d inFront
    have inKey : d ∈ l.key := by
      rw [cut]
      exact List.mem_append_left _ inFront
    refine ⟨?_, ?_, l.key_lineEnd d inKey⟩
    · rintro rfl
      exact nonzero inFront
    · rintro rfl
      exact l.key_colon inKey
  have stopped := HttpLines.stop plain (.inr ⟨text ++ 0x3a :: (List.replicate l.spaces 0x20 ++ l.value ++ l.lineEnd) ++ rest, rfl⟩)
  simpa [bytes, cut] using stopped

theorem clean_of_lines (l : HeaderLine) {rest : Bytes} {pairs : List (Bytes × Bytes)}
    (lines : HttpLines (l.bytes ++ rest) (some (l.pair :: pairs))) : l.Clean ∧ HttpLines rest (some pairs) := by
  obtain ⟨r, later⟩ := exists_httpLines rest
  obtain ⟨c, more, ends, lineEnd, behind⟩ := l.lines_lineEnd later
  obtain ⟨space, first, tail, cut, spaced, text⟩ := l.exists_taken
  have noZero : 0 ∉ l.key := by
    intro zero
    cases (l.lines_zeroKey zero rest).unique lines
  have plain := l.plain_key noZero
  have block : l.bytes ++ rest = l.key ++ 0x3a :: (space ++ first :: (tail ++ c :: more)) := by
    rw [bytes, cut, ← ends]
    simp
  rw [block] at lines
  -- a zero behind the first character ends the text too
  have noZeroTail : 0 ∉ tail := by
    intro zero
    obtain ⟨front, behind, split, nonzero⟩ := List.eq_append_cons_of_mem zero
    have inner : ValueText front := by
      intro d inFront
      refine ⟨?_, text d ?_⟩
      · rintro rfl
        exact nonzero inFront
      · rw [split]
        exact List.mem_cons_of_mem _ (List.mem_append_left _ inFront)
    have stopped := HttpLines.stopValue plain l.key_some spaced inner (.inr ⟨behind ++ c :: more, rfl⟩)
    rw [split, List.append_assoc, List.cons_append] at lines
    cases stopped.unique lines
  have inner : ValueText tail := by
    intro d member
    refine ⟨?_, text d (List.mem_cons_of_mem _ member)⟩
    rintro rfl
    exact noZeroTail member
  have same := (HttpLines.header plain l.key_some spaced inner lineEnd behind).unique lines
  cases r with
  | none => cases same
  | some returned =>
      obtain ⟨first_same, rfl⟩ := List.cons.inj (Option.some.inj same)
      have string : (first :: tail).takeWhile (· ≠ 0) = l.value := congrArg Prod.snd first_same
      have firstSome : first ≠ 0 := by
        rintro rfl
        exact l.value_some string.symm
      have whole : (first :: tail).takeWhile (· ≠ 0) = first :: tail := by
        rw [List.takeWhile_eq_self_iff]
        intro d member
        rcases List.mem_cons.mp member with rfl | inTail
        · simpa using firstSome
        · simpa using (inner d inTail).1
      rw [whole] at string
      rw [← string] at cut
      have few := congrArg List.length (List.append_cancel_right cut)
      rw [List.length_replicate] at few
      refine ⟨⟨noZero, ?_, ?_⟩, later⟩
      · rw [← string]
        intro zero
        rcases List.mem_cons.mp zero with same | inTail
        · exact firstSome same.symm
        · exact noZeroTail inTail
      · rcases spaced with rfl | ⟨rfl, -⟩
        · exact few.le
        · exact few.le.trans (Nat.zero_le 1)

end HeaderLine

theorem lines_pairs_iff (lines : List HeaderLine) :
    HttpLines (lines.flatMap HeaderLine.bytes) (some (lines.map HeaderLine.pair)) ↔ ∀ l ∈ lines, l.Clean := by
  induction lines with
  | nil => exact ⟨fun _ => by simp, fun _ => .stop keyText_nil (.inl rfl)⟩
  | cons l lines ih =>
      rw [List.flatMap_cons, List.map_cons, List.forall_mem_cons, ← ih]
      constructor
      · exact l.clean_of_lines
      · rintro ⟨clean, later⟩
        exact l.lines_clean clean later

/-- A block with a bad line is refused if a fault is reached, and the headers of a block are returned if no text has a zero
and no value is behind two spaces. -/
theorem headerParseMeets_iff (block : Bytes) : HeaderParseMeets block ↔ (BadLine block → Refused block) ∧
    ∀ lines : List HeaderLine, block = lines.flatMap HeaderLine.bytes → ∀ l ∈ lines, l.Clean := by
  obtain ⟨r, told⟩ := exists_httpLines block
  obtain ⟨result, ran, outcome⟩ := httpHeaderParse_lines (fun _ => true) told
  constructor
  · rintro ⟨returned, refused, -, -⟩
    constructor
    · intro bad
      obtain ⟨result', ran', failed⟩ := refused bad fun _ => true
      obtain rfl := Except.ok.inj (ran.symm.trans ran')
      rw [← httpLines_none_iff]
      cases r with
      | none => exact told
      | some pairs =>
          rcases outcome with ⟨ok, -⟩ | ⟨-, n, never⟩
          · exact absurd ok failed
          · cases never
    · rintro lines rfl
      obtain ⟨result', ran', ok, strings⟩ := returned lines rfl
      obtain rfl := Except.ok.inj (ran.symm.trans ran')
      rw [← lines_pairs_iff]
      cases r with
      | none =>
          rcases outcome with bad | ⟨-, n, never⟩
          · simp [ok] at bad
          · cases never
      | some pairs =>
          rcases outcome with ⟨-, same⟩ | ⟨-, n, never⟩
          · rw [strings, List.append_nil, List.reverse_inj] at same
            rw [same]
            exact told
          · cases never
  · rintro ⟨refuse, clean⟩
    have notRefused (bad : BadLine block) : r = none := told.unique ((httpLines_none_iff block).mpr (refuse bad))
    refine ⟨?_, ?_, ?_, ?_⟩
    · rintro lines rfl
      obtain rfl := told.unique ((lines_pairs_iff lines).mpr (clean lines rfl))
      rcases outcome with ⟨ok, strings⟩ | ⟨-, n, never⟩
      · rw [List.append_nil] at strings
        exact ⟨result, ran, ok, strings⟩
      · cases never
    · intro bad malloc
      obtain rfl := notRefused bad
      obtain ⟨result, ran, outcome⟩ := httpHeaderParse_lines malloc told
      refine ⟨result, ran, ?_⟩
      rcases outcome with err | ⟨err, -⟩ <;> simp [err]
    · intro malloc
      obtain ⟨result, ran, outcome⟩ := httpHeaderParse_lines malloc told
      refine ⟨result, ran, ?_⟩
      intro ok pair member
      cases r with
      | none => rcases outcome with err | ⟨err, -⟩ <;> simp [ok] at err
      | some pairs =>
          have strings := (outcome.resolve_right fun failed => by simp [ok] at failed).2
          rw [strings, List.append_nil, List.mem_reverse] at member
          have apart {c : UInt8} (inside : c ∈ pair.1 ∨ c ∈ pair.2) : isLineEnd c = false := by
            by_contra lineEnd
            cases notRefused (badLine_of_joined told rfl member inside (by simpa using lineEnd))
          exact ⟨fun c inKey => apart (.inl inKey), fun c inValue => apart (.inr inValue)⟩
    · intro malloc
      obtain ⟨result, ran, -⟩ := httpHeaderParse_lines malloc told
      exact ⟨result, ran, (@loop_nodes malloc _ ⟨block, 0, 0, none, [], 0⟩ result rfl ran).freed⟩

/-- `k:` and a line end: the value is the carriage return. -/
theorem headerParseMeets_emptyValue : ¬ HeaderParseMeets [0x6b, 0x3a, 0x0d, 0x0a] := by
  rintro ⟨-, refused, -, -⟩
  have bad : BadLine [0x6b, 0x3a, 0x0d, 0x0a] :=
    ⟨[], [0x6b, 0x3a], [0x0d, 0x0a], rfl, .inl rfl, .inr ⟨0x0d, [0x0a], rfl, rfl⟩, by simp [isLineEnd],
      .inr ⟨[0x6b], 0, rfl, by simp⟩⟩
  obtain ⟨result, ran, failed⟩ := refused bad fun _ => true
  obtain rfl := Except.ok.inj ran
  exact failed rfl

end Chiaki
