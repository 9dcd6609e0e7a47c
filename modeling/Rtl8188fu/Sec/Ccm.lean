import Mathlib.Data.UInt
import Rtl8188fu.Lib.ByteOrder
import Rtl8188fu.Lib.StreamCipher
import Rtl8188fu.Sec.Arcfour

namespace Sec

open ByteOrder (unword)

abbrev Block := Vector UInt8 16

namespace Block

def ofList (bs : List UInt8) : Block := Vector.ofFn fun i => bs.getD i 0

def zero : Block := Vector.replicate 16 0

def xor (x : Block) (bs : List UInt8) : Block := Vector.ofFn fun i => x.get i ^^^ bs.getD i 0

end Block

theorem xor_eq_zero {a b : UInt8} : a ^^^ b = 0 ↔ a = b := by
  constructor
  · intro h
    have hback := xor_xor a b
    rw [h, UInt8.zero_xor] at hback
    exact hback.symm
  · rintro rfl
    exact UInt8.xor_self

def xorBytes (bs ks : List UInt8) : List UInt8 := List.zipWith (· ^^^ ·) bs ks

def osMemcmpConst (a b : List UInt8) (len : ℕ) : UInt8 :=
  (List.range len).foldl (fun res i => res ||| a.getD i 0 ^^^ b.getD i 0) 0

section Ccm

variable (aesEncrypt : Block → Block)

def b0 (m : ℕ) (nonce : List UInt8) (aadLen plainLen : ℕ) : Block :=
  let flags := (if aadLen = 0 then (0 : UInt8) else 0x40) ||| UInt8.ofNat ((m - 2) / 2) <<< 3 ||| 1
  Block.ofList (flags :: nonce.take 13 ++ unword .big plainLen)

def aadBuf (aad : List UInt8) : List UInt8 :=
  unword .big aad.length ++ aad ++ List.replicate (30 - aad.length) 0

def aesCcmAuthStart (m : ℕ) (nonce aad : List UInt8) (plainLen : ℕ) : Block :=
  let x := aesEncrypt (b0 m nonce aad.length plainLen)
  if aad.length = 0 then x
  else
    let x := aesEncrypt ((Block.ofList ((aadBuf aad).take 16)).xor x.toList)
    if aad.length > 14 then aesEncrypt ((Block.ofList ((aadBuf aad).drop 16)).xor x.toList) else x

def aesCcmAuthBlocks : ℕ → Block → List UInt8 → Block
  | 0, x, data => if data.length = 0 then x else aesEncrypt (x.xor data)
  | n + 1, x, data => aesCcmAuthBlocks n (aesEncrypt (x.xor (data.take 16))) (data.drop 16)

def aesCcmAuth (data : List UInt8) (x : Block) : Block :=
  aesCcmAuthBlocks aesEncrypt (data.length / 16) x data

def aesCcmCounter (nonce : List UInt8) (i : ℕ) : Block :=
  Block.ofList (1 :: nonce.take 13 ++ unword .big i)

def aesCcmPad (nonce : List UInt8) (i : ℕ) : List UInt8 := (aesEncrypt (aesCcmCounter nonce i)).toList

def aesCcmEncr (nonce bs : List UInt8) : List UInt8 :=
  BlockMode.stream 16 (· + 1) (aesCcmPad aesEncrypt nonce) (· ^^^ ·) 1 bs

def aesCcmEncrAuth (m : ℕ) (nonce : List UInt8) (x : Block) : List UInt8 :=
  xorBytes (x.toList.take m) (aesCcmPad aesEncrypt nonce 0)

def aesCcmDecrAuth (m : ℕ) (nonce auth : List UInt8) : List UInt8 :=
  xorBytes (auth.take m) (aesCcmPad aesEncrypt nonce 0)

def aesCcmX (m : ℕ) (nonce aad plain : List UInt8) : Block :=
  aesCcmAuth aesEncrypt plain (aesCcmAuthStart aesEncrypt m nonce aad plain.length)

def aesCcmAe (m : ℕ) (nonce plain aad : List UInt8) : Option (List UInt8 × List UInt8) :=
  if aad.length > 30 ∨ m > 16 then none
  else
    some (aesCcmEncr aesEncrypt nonce plain,
      aesCcmEncrAuth aesEncrypt m nonce (aesCcmX aesEncrypt m nonce aad plain))

def aesCcmAd (m : ℕ) (nonce crypt aad auth : List UInt8) : Option (List UInt8) :=
  if aad.length > 30 ∨ m > 16 then none
  else
    let t := aesCcmDecrAuth aesEncrypt m nonce auth
    let plain := aesCcmEncr aesEncrypt nonce crypt
    let x := aesCcmAuth aesEncrypt plain
      (aesCcmAuthStart aesEncrypt m nonce aad crypt.length)
    if osMemcmpConst x.toList t m ≠ 0 then none else some plain

end Ccm

theorem osMemcmpConst_eq_zero {a b : List UInt8} {len : ℕ} :
    osMemcmpConst a b len = 0 ↔ ∀ i < len, a.getD i 0 = b.getD i 0 := by
  unfold osMemcmpConst
  induction len with
  | zero => simp
  | succ n ih =>
    rw [List.range_succ, List.foldl_append, List.foldl_cons, List.foldl_nil, UInt8.or_eq_zero_iff, ih,
      xor_eq_zero]
    constructor
    · rintro ⟨hbelow, hlast⟩ i hi
      rcases Nat.lt_succ_iff_lt_or_eq.mp hi with hi | rfl
      · exact hbelow i hi
      · exact hlast
    · intro h
      exact ⟨fun i hi => h i (Nat.lt_succ_of_lt hi), h n (Nat.lt_succ_self n)⟩

theorem osMemcmpConst_take {a b : List UInt8} {len : ℕ} (ha : len ≤ a.length) (hb : b.length = len) :
    osMemcmpConst a b len = 0 ↔ a.take len = b := by
  rw [osMemcmpConst_eq_zero]
  constructor
  · intro h
    refine List.ext_getElem (by simp [ha, hb]) fun i hi hi' => ?_
    have hat := h i (hb ▸ hi')
    rw [List.getElem_take]
    simpa [List.getD_eq_getElem?_getD, Nat.lt_of_lt_of_le (hb ▸ hi') ha, hi'] using hat
  · rintro rfl i hi
    simp [List.getD_eq_getElem?_getD, hi]

section Sealed

variable (aesEncrypt : Block → Block) {m : ℕ} {nonce aad crypt auth plain : List UInt8}

theorem length_aesCcmPad (i : ℕ) : (aesCcmPad aesEncrypt nonce i).length = 16 :=
  Vector.length_toList

@[simp] theorem length_aesCcmEncr (bs : List UInt8) :
    (aesCcmEncr aesEncrypt nonce bs).length = bs.length :=
  BlockMode.length_stream (by decide) (length_aesCcmPad aesEncrypt) _ _

theorem aesCcmEncr_twice (bs : List UInt8) :
    aesCcmEncr aesEncrypt nonce (aesCcmEncr aesEncrypt nonce bs) = bs :=
  BlockMode.stream_twice (by decide) (length_aesCcmPad aesEncrypt) xor_xor _ _

def ccmSealing (m : ℕ) (nonce aad : List UInt8) :
    Sealing (List UInt8) (List UInt8) (List UInt8) where
  tag plain := aesCcmEncrAuth aesEncrypt m nonce (aesCcmX aesEncrypt m nonce aad plain)
  hide _ := aesCcmEncr aesEncrypt nonce
  reveal _ := aesCcmEncr aesEncrypt nonce
  reveal_hide _ := aesCcmEncr_twice aesEncrypt
  hide_reveal _ := aesCcmEncr_twice aesEncrypt

theorem aesCcmAe_eq (haad : aad.length ≤ 30) (hm : m ≤ 16) (plain : List UInt8) :
    aesCcmAe aesEncrypt m nonce plain aad = some ((ccmSealing aesEncrypt m nonce aad).wrap plain) :=
  if_neg (by omega)

theorem aesCcmAd_eq (haad : aad.length ≤ 30) (hm : m ≤ 16) (hauth : auth.length = m) :
    aesCcmAd aesEncrypt m nonce crypt aad auth =
      (ccmSealing aesEncrypt m nonce aad).unwrap crypt auth := by
  have hpad : (aesCcmPad aesEncrypt nonce 0).length = 16 := length_aesCcmPad aesEncrypt 0
  have hdecr : (aesCcmDecrAuth aesEncrypt m nonce auth).length = m := by
    rw [aesCcmDecrAuth, xorBytes, List.length_zipWith, List.length_take, hpad]
    omega
  have hall : auth.take m = auth := List.take_of_length_le (Nat.le_of_eq hauth)
  have htag (x : Block) : osMemcmpConst x.toList (aesCcmDecrAuth aesEncrypt m nonce auth) m = 0 ↔
      aesCcmEncrAuth aesEncrypt m nonce x = auth := by
    have hx : x.toList.length = 16 := Vector.length_toList
    have htake : (x.toList.take m).length ≤ (aesCcmPad aesEncrypt nonce 0).length := by
      rw [List.length_take, hpad]
      omega
    rw [osMemcmpConst_take (by omega) hdecr, aesCcmDecrAuth, hall, aesCcmEncrAuth]
    exact BlockMode.zipWith_eq_iff _ xor_xor htake (by omega)
  rw [aesCcmAd, if_neg (by omega), Sealing.unwrap]
  dsimp only [ccmSealing]
  have hlen : (aesCcmEncr aesEncrypt nonce crypt).length = crypt.length := length_aesCcmEncr _ _
  rw [← hlen]
  rw [ite_not]
  exact if_congr (htag _) rfl rfl

end Sealed

end Sec
