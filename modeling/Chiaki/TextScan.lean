import Mathlib.Data.List.TakeWhile
import Chiaki.Common

/-!
# Reading text

What `isspace`, `strtok`, `strtol` and `sscanf` make of the characters of a string.
-/

namespace Chiaki

/-- `isspace`. -/
def isSpace (c : UInt8) : Bool := c = 0x20 || (0x09 ≤ c && c ≤ 0x0d)

/-! ## Tokens -/

/-- What `strtok` gives in turn, with the front of a token that has already been read. -/
def tokensFrom (sep : UInt8) : (token : Bytes) → Bytes → List Bytes
  | token, [] => if token = [] then [] else [token]
  | token, c :: rest =>
      if c ≠ sep then tokensFrom sep (token ++ [c]) rest
      else if token = [] then tokensFrom sep [] rest
      else token :: tokensFrom sep [] rest

def tokens (sep : UInt8) (s : Bytes) : List Bytes := tokensFrom sep [] s

section Tokens
variable {sep : UInt8} {token s rest : Bytes}

theorem tokensFrom_append (plain : sep ∉ s) : tokensFrom sep token (s ++ rest) = tokensFrom sep (token ++ s) rest := by
  induction s generalizing token with
  | nil => rw [List.nil_append, List.append_nil]
  | cons c s ih =>
      rw [List.mem_cons, not_or] at plain
      obtain ⟨other, plain⟩ := plain
      rw [List.cons_append, tokensFrom, if_pos (Ne.symm other), ih plain, List.append_assoc, List.singleton_append]

theorem tokens_of_first (plain : sep ∉ s) (some_ : s ≠ []) : tokens sep (s ++ sep :: rest) = s :: tokens sep rest := by
  rw [tokens, tokensFrom_append plain, List.nil_append, tokensFrom, if_neg (not_not.mpr rfl), if_neg some_]
  rfl

theorem tokens_of_last (plain : sep ∉ s) (some_ : s ≠ []) : tokens sep s = [s] := by
  have behind : tokensFrom sep [] (s ++ []) = tokensFrom sep ([] ++ s) [] := tokensFrom_append plain
  rw [List.append_nil, List.nil_append] at behind
  rw [tokens, behind, tokensFrom, if_neg some_]

theorem exists_tokens {c : UInt8} (other : c ≠ sep) (s : Bytes) :
    ∃ more, tokens sep (c :: s) = (c :: s).takeWhile (· ≠ sep) :: more := by
  have cut := List.takeWhile_append_dropWhile (p := (· ≠ sep)) (l := c :: s)
  have some_ : (c :: s).takeWhile (· ≠ sep) ≠ [] := by simp [other]
  have plain : sep ∉ (c :: s).takeWhile (· ≠ sep) := fun member => by simpa using List.mem_takeWhile_imp member
  cases behind : (c :: s).dropWhile (· ≠ sep) with
  | nil =>
      rw [behind, List.append_nil] at cut
      exact ⟨[], by rw [← tokens_of_last plain some_, cut]⟩
  | cons d rest =>
      have stop : d = sep := by
        have head := List.head?_dropWhile_not (· ≠ sep) (c :: s)
        rw [behind] at head
        simpa using head
      subst stop
      rw [behind] at cut
      exact ⟨tokens d rest, by rw [← tokens_of_first plain some_, cut]⟩

end Tokens

/-! ## Decimal numbers -/

def decimalDigit (c : UInt8) : Bool := 0x30 ≤ c && c ≤ 0x39

def scanDigits (s : Bytes) : Option Int :=
  match s.takeWhile decimalDigit with
  | [] => none
  | digits => some (digits.foldl (fun n c => n * 10 + (c.toNat - 0x30)) 0)

def scanSigned : Bytes → Option Int
  | [] => none
  | c :: s =>
      if c = 0x2d then (scanDigits s).map (- ·)
      else if c = 0x2b then scanDigits s
      else scanDigits (c :: s)

/-- The number that a text starts with. -/
def scanNumber (s : Bytes) : Option Int := scanSigned (s.dropWhile isSpace)

/-- `strtol(s, NULL, 10)`. -/
def strtol (s : Bytes) : Int := max (-2 ^ 63) (min (2 ^ 63 - 1) ((scanNumber s).getD 0))

section Numbers
variable {stop : UInt8}

theorem scanDigits_takeWhile (other : decimalDigit stop = false) (s : Bytes) :
    scanDigits (s.takeWhile (· ≠ stop)) = scanDigits s := by
  have same : (fun c => decide (decimalDigit c = true ∧ decide (c ≠ stop) = true)) = decimalDigit := by
    funext c
    cases digit : decimalDigit c with
    | false => simp
    | true =>
        have ne : c ≠ stop := by
          rintro rfl
          cases other.symm.trans digit
        simp [ne]
  rw [scanDigits, List.takeWhile_takeWhile, same]
  rfl

theorem dropWhile_takeWhile {p q : UInt8 → Bool} (s : Bytes) (keeps : ∀ c, p c = true → q c = true) :
    (s.takeWhile q).dropWhile p = (s.dropWhile p).takeWhile q := by
  induction s with
  | nil => rfl
  | cons c s ih =>
      cases skipped : p c with
      | true => rw [List.takeWhile_cons_of_pos (keeps c skipped), List.dropWhile_cons_of_pos skipped,
          List.dropWhile_cons_of_pos skipped, ih]
      | false =>
          rw [List.dropWhile_cons_of_neg (by simp [skipped])]
          cases kept : q c with
          | true => rw [List.takeWhile_cons_of_pos kept, List.dropWhile_cons_of_neg (by simp [skipped])]
          | false => rw [List.takeWhile_cons_of_neg (by simp [kept]), List.dropWhile_nil]

theorem scanNumber_takeWhile (blank : isSpace stop = false) (digit : decimalDigit stop = false) (minus : stop ≠ 0x2d)
    (plus : stop ≠ 0x2b) (s : Bytes) : scanNumber (s.takeWhile (· ≠ stop)) = scanNumber s := by
  have keeps : ∀ c, isSpace c = true → decide (c ≠ stop) = true := by
    intro c space
    have ne : c ≠ stop := by
      rintro rfl
      cases blank.symm.trans space
    simp [ne]
  rw [scanNumber, scanNumber, dropWhile_takeWhile s keeps]
  cases s.dropWhile isSpace with
  | nil => rfl
  | cons c s =>
      by_cases same : c = stop
      · subst same
        rw [List.takeWhile_cons_of_neg (by simp), scanSigned, scanSigned, if_neg minus, if_neg plus, scanDigits,
          List.takeWhile_cons_of_neg (by simp [digit])]
      · rw [List.takeWhile_cons_of_pos (by simp [same]), scanSigned, scanSigned]
        rw [scanDigits_takeWhile digit, ← List.takeWhile_cons_of_pos (p := (· ≠ stop)) (by simp [same]),
          scanDigits_takeWhile digit]

end Numbers

/-! ## Hexadecimal bytes -/

def hexDigitValue (c : UInt8) : Option Nat :=
  if 0x30 ≤ c ∧ c ≤ 0x39 then some (c.toNat - 0x30)
  else if 0x41 ≤ c ∧ c ≤ 0x46 then some (c.toNat - 0x41 + 10)
  else if 0x61 ≤ c ∧ c ≤ 0x66 then some (c.toNat - 0x61 + 10)
  else none

def scanHexDigits (s : Bytes) : Option UInt8 :=
  match s.takeWhile fun c => (hexDigitValue c).isSome with
  | [] => none
  | digits => some (UInt8.ofNat (digits.foldl (fun n c => n * 16 + (hexDigitValue c).getD 0) 0))

/-- `sscanf(s, "%2hhx", ..)`. -/
def scanHexByte (s : Bytes) : Option UInt8 :=
  match (s.dropWhile isSpace).take 2 with
  | 0x2d :: digits => (scanHexDigits digits).map (- ·)
  | 0x2b :: digits => scanHexDigits digits
  | digits => scanHexDigits digits

end Chiaki
