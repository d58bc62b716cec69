import Chiaki.Lib.Machine
import Chiaki.Common

/-!
# Message authentication

The part of `gkcrypt.c` that computes GMACs. The key for the latest refresh interval is cached.
-/

namespace Chiaki
open Machine

def gkcryptBlockSize : Nat := 0x10
def gkcryptGmacKeyRefreshKeyPos : Nat := 45000
def gkcryptGmacKeyRefreshIvOffset : Nat := 44910

/-- The primitives of the crypto library: a hash, and the AES-GCM tag over additional data. -/
structure CryptoLib where
  sha256 : Bytes → Bytes
  gcmTag : (key iv data : Bytes) → Bytes
  sha256_length : ∀ data, (sha256 data).length = 0x20
  gcmTag_length : ∀ key iv data, (gcmTag key iv data).length = 4

/-- The hash of 32 zeros. -/
def sha256OfZeros : Bytes :=
  [0x66, 0x68, 0x7a, 0xad, 0xf8, 0x62, 0xbd, 0x77, 0x6c, 0x8f, 0xc1, 0x8b, 0x8e, 0x9f, 0x8e, 0x20,
    0x08, 0x97, 0x14, 0x85, 0x6e, 0xe2, 0x33, 0xb3, 0x90, 0x2a, 0x59, 0x1d, 0x0d, 0x5f, 0x29, 0x25]

/-- A library that is right about the hash of zeros, and about the tag of a congestion packet of zeros under
keys of zeros. -/
instance : Inhabited CryptoLib where
  default := {
    sha256 := fun _ => sha256OfZeros
    gcmTag := fun _ _ _ => [0x22, 0xe5, 0xa0, 0x42]
    sha256_length := fun _ => rfl
    gcmTag_length := fun _ _ _ => rfl }

structure GKCrypt where
  iv : Bytes
  keyBase : Bytes
  keyGmacBase : Bytes
  keyGmacCurrent : Bytes
  keyGmacIndexCurrent : Nat

/-- `counter_add`: a little-endian sum whose loop stops with the carry. -/
def counterAdd : (base : Bytes) → (v : Nat) → Bytes
  | [], _ => []
  | b :: rest, v =>
      let r := (b.toNat + v) % 2 ^ 64
      UInt8.ofNat r :: if r / 2 ^ 8 = 0 then rest else counterAdd rest (r / 2 ^ 8)

namespace GKCrypt
variable (lib : CryptoLib)

/-- `chiaki_gkcrypt_gen_gmac_key`. -/
def genGmacKey (index : Nat) (keyBase iv : Bytes) : Bytes :=
  let md := lib.sha256 (keyBase ++ counterAdd iv (index * gkcryptGmacKeyRefreshIvOffset % 2 ^ 64))
  List.zipWith (· ^^^ ·) (md.take gkcryptBlockSize) (md.drop gkcryptBlockSize)

/-- The keys `chiaki_gkcrypt_init` derives for authentication. -/
def ofKeys (keyBase iv : Bytes) : GKCrypt where
  iv := iv
  keyBase := keyBase
  keyGmacBase := genGmacKey lib 0 keyBase iv
  keyGmacCurrent := genGmacKey lib 0 keyBase iv
  keyGmacIndexCurrent := 0

/-- `chiaki_gkcrypt_gen_new_gmac_key`. -/
def genNewGmacKey (crypt : GKCrypt) (index : Nat) : Checked GKCrypt := do
  assert (index > 0)
  pure { crypt with
    keyGmacCurrent := genGmacKey lib index crypt.keyGmacBase crypt.iv, keyGmacIndexCurrent := index }

/-- `chiaki_gkcrypt_gen_tmp_gmac_key`. -/
def genTmpGmacKey (crypt : GKCrypt) (index : Nat) : Bytes :=
  if index ≠ 0 then genGmacKey lib index crypt.keyGmacBase crypt.iv else crypt.keyGmacBase

def keyIndexOf (keyPos : Nat) : Nat :=
  (if keyPos > 0 then keyPos - 1 else 0) / gkcryptGmacKeyRefreshKeyPos

/-- The choice of the key at the start of `chiaki_gkcrypt_gmac`. -/
def selectKey (crypt : GKCrypt) (keyIndex : Nat) : Checked (GKCrypt × Bytes) :=
  if keyIndex > crypt.keyGmacIndexCurrent then do
    let crypt ← crypt.genNewGmacKey lib keyIndex
    pure (crypt, crypt.keyGmacCurrent)
  else if keyIndex < crypt.keyGmacIndexCurrent then pure (crypt, crypt.genTmpGmacKey lib keyIndex)
  else pure (crypt, crypt.keyGmacCurrent)

/-- `chiaki_gkcrypt_gmac`; `ok` says whether the calls into the library go through. Without them
`gmac_out` is not written. -/
def gmac (ok : Bool) (crypt : GKCrypt) (keyPos : Nat) (buf : Bytes) : Checked (GKCrypt × Option Bytes) := do
  let r ← crypt.selectKey lib (keyIndexOf keyPos)
  pure (r.1, if ok then some (lib.gcmTag r.2 (counterAdd crypt.iv (keyPos / 0x10)) buf) else none)

/-! ## The cache -/

/-- The cached key is the one for the cached index. -/
def Coherent (crypt : GKCrypt) : Prop :=
  crypt.keyGmacCurrent = crypt.genTmpGmacKey lib crypt.keyGmacIndexCurrent

theorem ofKeys_coherent (keyBase iv : Bytes) : (ofKeys lib keyBase iv).Coherent lib := rfl

/-- Two states of one GKCrypt, apart from what is cached. -/
def SameKeys (crypt crypt' : GKCrypt) : Prop :=
  crypt'.iv = crypt.iv ∧ crypt'.keyBase = crypt.keyBase ∧ crypt'.keyGmacBase = crypt.keyGmacBase

theorem SameKeys.refl (crypt : GKCrypt) : SameKeys crypt crypt := ⟨rfl, rfl, rfl⟩

theorem SameKeys.symm {crypt crypt' : GKCrypt} (h : SameKeys crypt crypt') : SameKeys crypt' crypt :=
  ⟨h.1.symm, h.2.1.symm, h.2.2.symm⟩

theorem SameKeys.trans {crypt crypt' crypt'' : GKCrypt} (h : SameKeys crypt crypt')
    (h' : SameKeys crypt' crypt'') : SameKeys crypt crypt'' :=
  ⟨h'.1.trans h.1, h'.2.1.trans h.2.1, h'.2.2.trans h.2.2⟩

variable {lib} in
theorem SameKeys.genTmpGmacKey {crypt crypt' : GKCrypt} (h : SameKeys crypt crypt') (index : Nat) :
    crypt'.genTmpGmacKey lib index = crypt.genTmpGmacKey lib index := by
  unfold GKCrypt.genTmpGmacKey
  rw [h.1, h.2.2]

theorem selectKey_eq {crypt : GKCrypt} (coherent : crypt.Coherent lib) (keyIndex : Nat) :
    ∃ crypt', crypt.selectKey lib keyIndex = .ok (crypt', crypt.genTmpGmacKey lib keyIndex) ∧
      SameKeys crypt crypt' ∧ crypt'.Coherent lib := by
  unfold selectKey
  split
  · rename_i later
    have positive : keyIndex > 0 := by omega
    refine ⟨{ crypt with
      keyGmacCurrent := genGmacKey lib keyIndex crypt.keyGmacBase crypt.iv
      keyGmacIndexCurrent := keyIndex }, ?_, ⟨rfl, rfl, rfl⟩, ?_⟩
    · rw [genNewGmacKey, decide_eq_true positive, genTmpGmacKey, if_pos (by omega)]
      rfl
    · rw [Coherent, genTmpGmacKey, if_pos (by dsimp only; omega)]
  · split
    · exact ⟨crypt, rfl, .refl crypt, coherent⟩
    · have same : keyIndex = crypt.keyGmacIndexCurrent := by omega
      refine ⟨crypt, ?_, .refl crypt, coherent⟩
      rw [same, ← coherent]
      rfl

def tagAt (crypt : GKCrypt) (keyPos : Nat) (buf : Bytes) : Bytes :=
  lib.gcmTag (crypt.genTmpGmacKey lib (keyIndexOf keyPos)) (counterAdd crypt.iv (keyPos / 0x10)) buf

theorem gmac_eq (ok : Bool) {crypt : GKCrypt} (coherent : crypt.Coherent lib) (keyPos : Nat) (buf : Bytes) :
    ∃ crypt', crypt.gmac lib ok keyPos buf =
        .ok (crypt', if ok then some (crypt.tagAt lib keyPos buf) else none) ∧
      SameKeys crypt crypt' ∧ crypt'.Coherent lib := by
  obtain ⟨crypt', selected, same, coherent'⟩ := selectKey_eq lib coherent (keyIndexOf keyPos)
  refine ⟨crypt', ?_, same, coherent'⟩
  rw [gmac, selected, ok_bind]
  rfl

theorem gmac_ok (ok : Bool) (crypt : GKCrypt) (keyPos : Nat) (buf : Bytes) :
    ∃ crypt' tag, crypt.gmac lib ok keyPos buf = .ok (crypt', tag) ∧
      ∀ bytes, tag = some bytes → bytes.length = 4 := by
  have selected : ∃ r, crypt.selectKey lib (keyIndexOf keyPos) = .ok r := by
    unfold selectKey
    split
    · rename_i later
      rw [genNewGmacKey, decide_eq_true (by omega)]
      exact ⟨_, rfl⟩
    · split <;> exact ⟨_, rfl⟩
  obtain ⟨r, selected⟩ := selected
  refine ⟨r.1, _, by rw [gmac, selected, ok_bind]; rfl, ?_⟩
  intro bytes same
  cases ok with
  | false => simp at same
  | true =>
      obtain rfl := Option.some.inj same
      exact lib.gcmTag_length _ _ _

/-! ## Calls in any order -/

structure GmacCall where
  keyPos : Nat
  buf : Bytes
  ok : Bool

def gmacStep (crypt : GKCrypt) (call : GmacCall) : Checked (GKCrypt × Option Bytes) :=
  crypt.gmac lib call.ok call.keyPos call.buf

theorem SameKeys.tagAt {lib : CryptoLib} {crypt crypt' : GKCrypt} (same : SameKeys crypt crypt')
    (keyPos : Nat) (buf : Bytes) : crypt'.tagAt lib keyPos buf = crypt.tagAt lib keyPos buf := by
  rw [GKCrypt.tagAt, GKCrypt.tagAt, same.genTmpGmacKey, same.1]

theorem gmac_older {crypt : GKCrypt} {keyPos : Nat} (older : keyIndexOf keyPos < crypt.keyGmacIndexCurrent)
    (ok : Bool) (buf : Bytes) : ∃ tag, crypt.gmac lib ok keyPos buf = .ok (crypt, tag) := by
  rw [gmac, selectKey, if_neg (by omega), if_pos older]
  exact ⟨_, rfl⟩

theorem gmac_run {crypt : GKCrypt} (coherent : crypt.Coherent lib) (calls : List GmacCall) :
    ∃ crypt', run (gmacStep lib) crypt calls = .ok (crypt', calls.map fun call =>
        if call.ok then some (crypt.tagAt lib call.keyPos call.buf) else none) ∧
      SameKeys crypt crypt' ∧ crypt'.Coherent lib := by
  induction calls generalizing crypt with
  | nil => exact ⟨crypt, rfl, .refl crypt, coherent⟩
  | cons call calls ih =>
      obtain ⟨next, computed, same, coherent'⟩ := gmac_eq lib call.ok coherent call.keyPos call.buf
      obtain ⟨last, rest, same', coherent''⟩ := ih coherent'
      refine ⟨last, ?_, same.trans same', coherent''⟩
      rw [run_cons_ok computed, rest]
      simp only [same.tagAt]
      rfl

/-- The GKCrypt for a key and an IV, after any calls. -/
def Used (keyBase iv : Bytes) (crypt : GKCrypt) : Prop :=
  ∃ calls tags, run (gmacStep lib) (ofKeys lib keyBase iv) calls = .ok (crypt, tags)

variable {lib} in
theorem Used.coherent {keyBase iv : Bytes} {crypt : GKCrypt} (used : Used lib keyBase iv crypt) :
    SameKeys (ofKeys lib keyBase iv) crypt ∧ crypt.Coherent lib := by
  obtain ⟨calls, tags, done⟩ := used
  obtain ⟨crypt', done', same, coherent⟩ := gmac_run lib (ofKeys_coherent lib keyBase iv) calls
  rw [done'] at done
  obtain ⟨rfl, -⟩ := Prod.mk.inj (Except.ok.inj done)
  exact ⟨same, coherent⟩

/-- Whatever was asked for before, every tag is that of a fresh GKCrypt. -/
theorem gmac_pathIndependent (keyBase iv : Bytes) (calls : List GmacCall) :
    ∃ crypt tags, run (gmacStep lib) (ofKeys lib keyBase iv) calls = .ok (crypt, tags) ∧
      List.Forall₂ (fun call tag => ∃ crypt', (ofKeys lib keyBase iv).gmac lib call.ok call.keyPos call.buf =
        .ok (crypt', tag)) calls tags ∧
      crypt.keyGmacCurrent = crypt.genTmpGmacKey lib crypt.keyGmacIndexCurrent ∧
      ∀ keyPos, keyIndexOf keyPos < crypt.keyGmacIndexCurrent → ∀ ok buf, ∃ tag,
        crypt.gmac lib ok keyPos buf = .ok (crypt, tag) := by
  have fresh := ofKeys_coherent lib keyBase iv
  obtain ⟨crypt, done, -, coherent⟩ := gmac_run lib fresh calls
  refine ⟨crypt, _, done, ?_, coherent, fun keyPos older => gmac_older lib older⟩
  rw [List.forall₂_map_right_iff, List.forall₂_same]
  intro call _
  obtain ⟨crypt', computed, -⟩ := gmac_eq lib call.ok fresh call.keyPos call.buf
  exact ⟨crypt', computed⟩

end GKCrypt
end Chiaki
