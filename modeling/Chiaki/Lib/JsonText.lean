import Chiaki.Lib.Json

/-!
# JSON texts

A reader for the texts of JSON values. A control character stands for itself in a string unless the reader is strict, and
no bytes are refused because they are no UTF-8.
-/

namespace Json

/-! ## Strings -/

def isControl (c : UInt8) : Bool := c < 0x20

/-- Up to the closing quote, with the escapes left as they are. -/
def stringRaw (strict : Bool) : List UInt8 → Option (List UInt8 × List UInt8)
  | [] => none
  | c :: rest =>
      if c = 0x22 then some ([], rest)
      else if strict && isControl c then none
      else if c = 0x5c then
        match rest with
        | [] => none
        | d :: rest => (stringRaw strict rest).map fun r => (c :: d :: r.1, r.2)
      else (stringRaw strict rest).map fun r => (c :: r.1, r.2)

def hexValue (c : UInt8) : Option Nat :=
  if 0x30 ≤ c ∧ c ≤ 0x39 then some (c - 0x30).toNat
  else if 0x61 ≤ c ∧ c ≤ 0x66 then some (c - 0x61 + 10).toNat
  else if 0x41 ≤ c ∧ c ≤ 0x46 then some (c - 0x41 + 10).toNat
  else none

/-- Four digits. -/
def hex4 (s : List UInt8) : Option Nat :=
  if s.length < 4 then none
  else (s.take 4).foldlM (fun n c => (hexValue c).map (n * 16 + ·)) 0

def utf8 (n : Nat) : List UInt8 :=
  if n < 0x80 then [.ofNat n]
  else if n < 0x800 then [.ofNat (0xc0 + n / 2 ^ 6), .ofNat (0x80 + n % 2 ^ 6)]
  else if n < 0x10000 then [.ofNat (0xe0 + n / 2 ^ 12), .ofNat (0x80 + n / 2 ^ 6 % 2 ^ 6), .ofNat (0x80 + n % 2 ^ 6)]
  else [.ofNat (0xf0 + n / 2 ^ 18), .ofNat (0x80 + n / 2 ^ 12 % 2 ^ 6), .ofNat (0x80 + n / 2 ^ 6 % 2 ^ 6),
    .ofNat (0x80 + n % 2 ^ 6)]

def simpleEscape (c : UInt8) : Option UInt8 :=
  if c = 0x22 ∨ c = 0x5c ∨ c = 0x2f then some c
  else if c = 0x62 then some 0x08
  else if c = 0x66 then some 0x0c
  else if c = 0x6e then some 0x0a
  else if c = 0x72 then some 0x0d
  else if c = 0x74 then some 0x09
  else none

/-- The bytes for the `u` escape whose digits the text starts with, and how long it is. -/
def unicodeEscape (s : List UInt8) : Option (List UInt8 × Nat) := do
  let high ← hex4 s
  if 0xd800 ≤ high ∧ high < 0xdc00 then
    -- the other half of a pair follows
    let low ← if (s.drop 4).take 2 = [0x5c, 0x75] then hex4 (s.drop 6) else none
    if 0xdc00 ≤ low ∧ low < 0xe000 then
      some (utf8 (0x10000 + (high - 0xd800) * 2 ^ 10 + (low - 0xdc00)), 10)
    else none
  else if 0xdc00 ≤ high ∧ high < 0xe000 then none
  else some (utf8 high, 4)

def decodeString : List UInt8 → Option (List UInt8)
  | [] => some []
  | c :: rest =>
      if c = 0x5c then
        match rest with
        | [] => none
        | d :: rest =>
            if d = 0x75 then
              match unicodeEscape rest with
              | none => none
              | some (bytes, used) => (decodeString (rest.drop used)).map (bytes ++ ·)
            else
              match simpleEscape d with
              | none => none
              | some b => (decodeString rest).map (b :: ·)
      else (decodeString rest).map (c :: ·)
termination_by s => s.length
decreasing_by
  all_goals simp_wf
  all_goals omega

/-- A string, behind its opening quote. -/
def string (strict : Bool) (s : List UInt8) : Option (List UInt8 × List UInt8) := do
  let (raw, rest) ← stringRaw strict s
  let bytes ← decodeString raw
  some (bytes, rest)

/-! ## Numbers -/

def isDigit (c : UInt8) : Bool := 0x30 ≤ c && c ≤ 0x39

def isNumberChar (c : UInt8) : Bool := isDigit c || c = 0x2b || c = 0x2d || c = 0x2e || c = 0x45 || c = 0x65

def natural (digits : List UInt8) : Option Nat :=
  if digits ≠ [] ∧ digits.all isDigit ∧ (digits.head? = some 0x30 → digits.length = 1) then
    some (digits.foldl (fun n c => n * 10 + (c - 0x30).toNat) 0)
  else none

def integer : List UInt8 → Option Int
  | [] => none
  | c :: digits => if c = 0x2d then (natural digits).map fun n => -(n : Int) else (natural (c :: digits)).map fun n => (n : Int)

/-- A fraction and an exponent, of which one may be missing. -/
def isFraction (s : List UInt8) : Bool :=
  let (point, s) := if s.head? = some 0x2e then (true, s.tail) else (false, s)
  let digits := s.takeWhile isDigit
  let rest := s.dropWhile isDigit
  (if point then digits ≠ [] else digits = []) &&
    (match rest with
      | [] => point
      | e :: rest =>
          let rest := if rest.head? = some 0x2b ∨ rest.head? = some 0x2d then rest.tail else rest
          (e = 0x45 || e = 0x65) && rest ≠ [] && rest.all isDigit)

def number (s : List UInt8) : Option (Value × List UInt8) :=
  let literal := s.takeWhile isNumberChar
  let rest := s.dropWhile isNumberChar
  match integer literal with
  | some n => some (.int n, rest)
  | none =>
      let positive := if literal.head? = some 0x2d then literal.tail else literal
      if (natural (positive.takeWhile isDigit)).isSome && isFraction (positive.dropWhile isDigit) then
        some (.double literal, rest)
      else none

/-! ## Values -/

def isSpace (c : UInt8) : Bool := c = 0x20 || c = 0x09 || c = 0x0a || c = 0x0d

def skipSpace (s : List UInt8) : List UInt8 := s.dropWhile isSpace

/-- A literal name. -/
def named (s : List UInt8) : Option (Value × List UInt8) :=
  if s.take 4 = [0x6e, 0x75, 0x6c, 0x6c] then some (.null, s.drop 4)
  else if s.take 4 = [0x74, 0x72, 0x75, 0x65] then some (.bool true, s.drop 4)
  else if s.take 5 = [0x66, 0x61, 0x6c, 0x73, 0x65] then some (.bool false, s.drop 5)
  else none

/-- A later member of the same name takes the place of an earlier one. -/
def addMember (members : List (List UInt8 × Value)) (key : List UInt8) (v : Value) : List (List UInt8 × Value) :=
  if (members.lookup key).isSome then members.map fun m => if m.1 = key then (key, v) else m else members ++ [(key, v)]

/-- The name of a member, up to the colon. -/
def memberName (strict : Bool) (s : List UInt8) : Option (List UInt8 × List UInt8) :=
  match skipSpace s with
  | [] => none
  | c :: rest =>
      if c = 0x22 then
        match string strict rest with
        | none => none
        | some (key, rest) =>
            match skipSpace rest with
            | [] => none
            | d :: rest => if d = 0x3a then some (key, rest) else none
      else none

mutual

def value (strict : Bool) : (fuel : Nat) → List UInt8 → Option (Value × List UInt8)
  | 0, _ => none
  | fuel + 1, s =>
      match skipSpace s with
      | [] => none
      | c :: rest =>
          if c = 0x22 then (string strict rest).map fun r => (.string r.1, r.2)
          else if c = 0x5b then
            if (skipSpace rest).head? = some 0x5d then some (.array [], (skipSpace rest).tail)
            else (elements strict fuel rest).map fun r => (.array r.1, r.2)
          else if c = 0x7b then
            if (skipSpace rest).head? = some 0x7d then some (.object [], (skipSpace rest).tail)
            else (members strict fuel rest).map fun r => (.object (r.1.foldl (fun ms m => addMember ms m.1 m.2) []), r.2)
          else if isNumberChar c then number (c :: rest)
          else named (c :: rest)

/-- The elements of an array, up to its closing bracket. -/
def elements (strict : Bool) : (fuel : Nat) → List UInt8 → Option (List Value × List UInt8)
  | 0, _ => none
  | fuel + 1, s =>
      match value strict fuel s with
      | none => none
      | some (v, rest) =>
          match skipSpace rest with
          | [] => none
          | c :: rest =>
              if c = 0x2c then (elements strict fuel rest).map fun r => (v :: r.1, r.2)
              else if c = 0x5d then some ([v], rest)
              else none

/-- The members of an object, up to its closing brace. -/
def members (strict : Bool) : (fuel : Nat) → List UInt8 → Option (List (List UInt8 × Value) × List UInt8)
  | 0, _ => none
  | fuel + 1, s =>
      match memberName strict s with
      | none => none
      | some (key, s) =>
          match value strict fuel s with
          | none => none
          | some (v, rest) =>
              match skipSpace rest with
              | [] => none
              | c :: rest =>
                  if c = 0x2c then (members strict fuel rest).map fun r => ((key, v) :: r.1, r.2)
                  else if c = 0x7d then some ([(key, v)], rest)
                  else none

end

/-- The value of a whole text. -/
def parse (strict : Bool) (s : List UInt8) : Option Value :=
  match value strict (s.length + 1) s with
  | none => none
  | some (v, rest) => if skipSpace rest = [] then some v else none

end Json
