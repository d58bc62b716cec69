import Chiaki.Lib.JsonWritten

/-!
# Texts that are not read

Where the reader stops inside an array or an object, the whole text is refused.
-/

namespace Json

/-! ## Fuel -/

theorem more_fuel (strict : Bool) (fuel : Nat) :
    (∀ s r, value strict fuel s = some r → value strict (fuel + 1) s = some r) ∧
    (∀ s r, elements strict fuel s = some r → elements strict (fuel + 1) s = some r) ∧
    (∀ s r, members strict fuel s = some r → members strict (fuel + 1) s = some r) := by
  induction fuel with
  | zero =>
      refine ⟨?_, ?_, ?_⟩
      · intro s r read
        rw [value] at read
        cases read
      · intro s r read
        rw [elements] at read
        cases read
      · intro s r read
        rw [members] at read
        cases read
  | succ fuel ih =>
      obtain ⟨values, listed, named_⟩ := ih
      refine ⟨?_, ?_, ?_⟩
      · intro s r read
        rw [value] at read ⊢
        cases split_ : skipSpace s with
        | nil =>
            rw [split_] at read
            cases read
        | cons c rest =>
            rw [split_] at read
            dsimp only at read ⊢
            by_cases array : c = 0x5b
            · obtain rfl := array
              rw [if_neg (by decide), if_pos rfl] at read ⊢
              split at read
              · rename_i closed
                rw [if_pos closed, read]
              · rename_i opened
                obtain ⟨r', read', rfl⟩ := Option.map_eq_some_iff.mp read
                rw [if_neg opened, listed _ _ read']
                rfl
            · by_cases object : c = 0x7b
              · obtain rfl := object
                rw [if_neg (by decide), if_neg (by decide), if_pos rfl] at read ⊢
                split at read
                · rename_i closed
                  rw [if_pos closed, read]
                · rename_i opened
                  obtain ⟨r', read', rfl⟩ := Option.map_eq_some_iff.mp read
                  rw [if_neg opened, named_ _ _ read']
                  rfl
              · rw [if_neg array, if_neg object] at read ⊢
                exact read
      · intro s r read
        rw [elements] at read ⊢
        cases first : value strict fuel s with
        | none =>
            rw [first] at read
            cases read
        | some vr =>
            obtain ⟨v, rest⟩ := vr
            rw [first] at read
            rw [values _ _ first]
            dsimp only at read ⊢
            cases split_ : skipSpace rest with
            | nil =>
                rw [split_] at read
                cases read
            | cons c rest =>
                rw [split_] at read
                dsimp only at read ⊢
                by_cases comma : c = 0x2c
                · rw [if_pos comma] at read ⊢
                  obtain ⟨r', read', rfl⟩ := Option.map_eq_some_iff.mp read
                  rw [listed _ _ read']
                  rfl
                · rw [if_neg comma] at read ⊢
                  exact read
      · intro s r read
        rw [members] at read ⊢
        cases name : memberName strict s with
        | none =>
            rw [name] at read
            cases read
        | some kr =>
            obtain ⟨key, s'⟩ := kr
            rw [name] at read
            dsimp only at read ⊢
            cases first : value strict fuel s' with
            | none =>
                rw [first] at read
                cases read
            | some vr =>
                obtain ⟨v, rest⟩ := vr
                rw [first] at read
                rw [values _ _ first]
                dsimp only at read ⊢
                cases split_ : skipSpace rest with
                | nil =>
                    rw [split_] at read
                    cases read
                | cons c rest =>
                    rw [split_] at read
                    dsimp only at read ⊢
                    by_cases comma : c = 0x2c
                    · rw [if_pos comma] at read ⊢
                      obtain ⟨r', read', rfl⟩ := Option.map_eq_some_iff.mp read
                      rw [named_ _ _ read']
                      rfl
                    · rw [if_neg comma] at read ⊢
                      exact read

theorem value_le {strict : Bool} {s : List UInt8} {r : Value × List UInt8} {fuel fuel' : Nat} (le : fuel ≤ fuel')
    (read : value strict fuel s = some r) : value strict fuel' s = some r := by
  induction le with
  | refl => exact read
  | step _ ih => exact (more_fuel strict _).1 s r ih

theorem Reads.any {strict : Bool} {t rest : List UInt8} {v : Value} (reads : Reads strict t v) (delimited : Delimited rest) (fuel : Nat) :
    value strict fuel (t ++ rest) = none ∨ value strict fuel (t ++ rest) = some (v, rest) := by
  cases read : value strict fuel (t ++ rest) with
  | none => exact .inl rfl
  | some r =>
      have here := value_le (le_max_left fuel t.length) read
      rw [reads.read rest _ delimited (le_max_right _ _)] at here
      exact .inr here.symm

/-! ## Values -/

def Refused (strict : Bool) (s : List UInt8) : Prop := ∀ fuel, value strict fuel s = none

def ElementsRefused (strict : Bool) (s : List UInt8) : Prop := ∀ fuel, elements strict fuel s = none

def MembersRefused (strict : Bool) (s : List UInt8) : Prop := ∀ fuel, members strict fuel s = none

section Refused
variable {strict : Bool} {s t key : List UInt8} {v : Value}

theorem Refused.parse (refused : Refused strict s) : parse strict s = none := by
  rw [Json.parse, refused]

theorem refused_comma (strict : Bool) (s : List UInt8) : Refused strict (0x2c :: s) := by
  intro fuel
  cases fuel with
  | zero => rw [value]
  | succ fuel =>
      rw [value, skipSpace_cons rfl]
      rfl

theorem stringRaw_control (plain : ∀ c ∈ s, c ≠ 0x22 ∧ c ≠ 0x5c) (control : ∃ c ∈ s, isControl c = true) (rest : List UInt8) :
    stringRaw true (s ++ rest) = none := by
  induction s with
  | nil =>
      obtain ⟨c, member, -⟩ := control
      cases member
  | cons c s ih =>
      obtain ⟨⟨notQuote, notEscape⟩, later⟩ := List.forall_mem_cons.mp plain
      by_cases here : isControl c = true
      · rw [List.cons_append, stringRaw.eq_def]
        dsimp only
        rw [if_neg notQuote, if_pos (by rw [here]; rfl)]
      · have visible : isControl c = false := Bool.eq_false_iff.mpr here
        have more : ∃ d ∈ s, isControl d = true := by
          obtain ⟨d, member, control⟩ := control
          rcases List.mem_cons.mp member with rfl | member
          · exact absurd control here
          · exact ⟨d, member, control⟩
        rw [List.cons_append, stringRaw_cons notQuote notEscape fun _ => visible, ih later more]
        rfl

theorem refused_control (plain : ∀ c ∈ s, c ≠ 0x22 ∧ c ≠ 0x5c) (control : ∃ c ∈ s, isControl c = true) (rest : List UInt8) :
    Refused true (0x22 :: (s ++ rest)) := by
  intro fuel
  cases fuel with
  | zero => rw [value]
  | succ fuel =>
      rw [value, skipSpace_cons rfl]
      dsimp only
      rw [if_pos rfl, string, stringRaw_control plain control]
      rfl

theorem refused_array (refused : ElementsRefused strict s) (begins : (skipSpace s).head? ≠ some 0x5d) : Refused strict (0x5b :: s) := by
  intro fuel
  cases fuel with
  | zero => rw [value]
  | succ fuel =>
      rw [value, skipSpace_cons rfl]
      dsimp only
      rw [if_neg (by decide), if_pos rfl, if_neg begins, refused]
      rfl

theorem refused_object (refused : MembersRefused strict s) (begins : (skipSpace s).head? ≠ some 0x7d) : Refused strict (0x7b :: s) := by
  intro fuel
  cases fuel with
  | zero => rw [value]
  | succ fuel =>
      rw [value, skipSpace_cons rfl]
      dsimp only
      rw [if_neg (by decide), if_neg (by decide), if_pos rfl, if_neg begins, refused]
      rfl

/-! ## Elements -/

theorem elementsRefused_first (refused : Refused strict s) : ElementsRefused strict s := by
  intro fuel
  cases fuel with
  | zero => rw [elements]
  | succ fuel => rw [elements, refused]

theorem elementsRefused_later (reads : Reads strict t v) (refused : ElementsRefused strict s) :
    ElementsRefused strict (t ++ 0x2c :: s) := by
  intro fuel
  cases fuel with
  | zero => rw [elements]
  | succ fuel =>
      rw [elements]
      rcases reads.any (delimited_cons (c := 0x2c) rfl s) fuel with short | read
      · rw [short]
      · rw [read]
        dsimp only
        rw [skipSpace_cons rfl]
        dsimp only
        rw [if_pos rfl, refused]
        rfl

theorem elementsRefused_end (reads : Reads strict t v) (rest : List UInt8) : ElementsRefused strict (t ++ 0x7d :: rest) := by
  intro fuel
  cases fuel with
  | zero => rw [elements]
  | succ fuel =>
      rw [elements]
      rcases reads.any (delimited_cons (c := 0x7d) rfl rest) fuel with short | read
      · rw [short]
      · rw [read]
        dsimp only
        rw [skipSpace_cons rfl]
        rfl

/-! ## Members -/

theorem membersRefused_name (name : memberName strict s = none) : MembersRefused strict s := by
  intro fuel
  cases fuel with
  | zero => rw [members]
  | succ fuel => rw [members, name]

theorem membersRefused_other (plain : PlainString strict key) {d : UInt8} (visible : isSpace d = false) (other : d ≠ 0x3a)
    (rest : List UInt8) : MembersRefused strict (quoted key ++ d :: rest) := by
  have text : quoted key ++ d :: rest = 0x22 :: (key ++ 0x22 :: d :: rest) := by simp [quoted]
  apply membersRefused_name
  rw [text, memberName, skipSpace_cons rfl]
  dsimp only
  rw [if_pos rfl, string_plain plain]
  dsimp only
  rw [skipSpace_cons visible]
  dsimp only
  rw [if_neg other]

theorem membersRefused_value (plain : PlainString strict key) (refused : Refused strict s) :
    MembersRefused strict (quoted key ++ 0x3a :: s) := by
  intro fuel
  cases fuel with
  | zero => rw [members]
  | succ fuel =>
      rw [members, memberName_quoted plain]
      dsimp only
      rw [refused]

theorem membersRefused_later (plain : PlainString strict key) (reads : Reads strict t v) (refused : MembersRefused strict s) :
    MembersRefused strict (memberText (key, t) ++ 0x2c :: s) := by
  intro fuel
  have text : memberText (key, t) ++ 0x2c :: s = quoted key ++ 0x3a :: (t ++ 0x2c :: s) := by simp [memberText]
  rw [text]
  cases fuel with
  | zero => rw [members]
  | succ fuel =>
      rw [members, memberName_quoted plain]
      dsimp only
      rcases reads.any (delimited_cons (c := 0x2c) rfl s) fuel with short | read
      · rw [short]
      · rw [read]
        dsimp only
        rw [skipSpace_cons rfl]
        dsimp only
        rw [if_pos rfl, refused]
        rfl

theorem membersRefused_behind {ms : List (List UInt8 × List UInt8)}
    (all : ∀ m ∈ ms, PlainString strict m.1 ∧ ∃ v, Reads strict m.2 v) (refused : MembersRefused strict s) :
    MembersRefused strict (listFront (ms.map memberText) ++ s) := by
  induction ms with
  | nil => exact refused
  | cons m ms ih =>
      obtain ⟨⟨plain, v, reads⟩, later⟩ := List.forall_mem_cons.mp all
      have text : listFront ((m :: ms).map memberText) ++ s = memberText m ++ 0x2c :: (listFront (ms.map memberText) ++ s) := by
        simp [listFront]
      rw [text]
      exact membersRefused_later plain reads (ih later)

theorem refused_openObject {ms : List (List UInt8 × List UInt8)} (all : ∀ m ∈ ms, PlainString strict m.1 ∧ ∃ v, Reads strict m.2 v)
    (plain : PlainString strict key) (refused : Refused strict s) : Refused strict (openObject ms key ++ s) := by
  have text : openObject ms key ++ s = 0x7b :: (listFront (ms.map memberText) ++ (quoted key ++ 0x3a :: s)) := by simp [openObject]
  rw [text]
  obtain ⟨rest, begins⟩ : ∃ rest, listFront (ms.map memberText) ++ (quoted key ++ 0x3a :: s) = 0x22 :: rest := by
    cases ms with
    | nil => exact ⟨_, rfl⟩
    | cons m ms => exact ⟨_, rfl⟩
  apply refused_object (membersRefused_behind all (membersRefused_value plain refused))
  rw [begins, skipSpace_cons rfl]
  exact fun same => absurd (Option.some.inj same) (by decide)

end Refused

end Json
