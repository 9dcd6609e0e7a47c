import Rtl8188fu.Sec.Ccm

namespace Sec

namespace Block

def getBe32 (x : Block) (i : Fin 4) : UInt32 :=
  let at' (k : ℕ) : UInt32 := (x.toList.getD (4 * i.val + k) 0).toUInt32
  at' 0 <<< 24 ||| at' 1 <<< 16 ||| at' 2 <<< 8 ||| at' 3

def putBe32 (val : UInt32) : List UInt8 :=
  [(val >>> 24).toUInt8, (val >>> 16).toUInt8, (val >>> 8).toUInt8, val.toUInt8]

def inc32 (x : Block) : Block := ofList (x.toList.take 12 ++ putBe32 (x.getBe32 3 + 1))

def shiftRight (v : Block) : Block :=
  let carry (k : Fin 16) : UInt32 := if v.get k &&& 0x01 ≠ 0 then 0x80000000 else 0
  ofList (putBe32 (v.getBe32 0 >>> 1) ++ putBe32 (v.getBe32 1 >>> 1 ||| carry 3) ++
    putBe32 (v.getBe32 2 >>> 1 ||| carry 7) ++ putBe32 (v.getBe32 3 >>> 1 ||| carry 11))

end Block

def putBe64 (n : ℕ) : List UInt8 := (List.range 8).map fun i => UInt8.ofNat (n / 256 ^ (7 - i))

structure GfMult where
  z : Block
  v : Block

def GfMult.step (x : UInt8) (s : GfMult) (j : ℕ) : GfMult where
  z := if x &&& UInt8.ofNat (2 ^ (7 - j)) ≠ 0 then s.z.xor s.v.toList else s.z
  v :=
    let v := s.v.shiftRight
    if s.v.get 15 &&& 0x01 ≠ 0 then v.set 0 (v.get 0 ^^^ 0xe1) else v

def gfMult (x y : Block) : Block :=
  (x.toList.foldl (fun s b => (List.range 8).foldl (GfMult.step b) s) ⟨.zero, y⟩).z

def ghashBlocks (h : Block) : ℕ → List UInt8 → Block → Block
  | 0, x, y => if x.length = 0 then y else gfMult (y.xor x) h
  | n + 1, x, y => ghashBlocks h n (x.drop 16) (gfMult (y.xor (x.take 16)) h)

def ghash (h : Block) (x : List UInt8) (y : Block) : Block := ghashBlocks h (x.length / 16) x y

section Gcm

variable (aesEncrypt : Block → Block)

def aesGctr (icb : Block) (x : List UInt8) : List UInt8 :=
  BlockMode.stream 16 Block.inc32 (fun cb => (aesEncrypt cb).toList) (· ^^^ ·) icb x

def aesGcmHashSubkey : Block := aesEncrypt .zero

def aesGcmPrepareJ0 (iv : List UInt8) (h : Block) : Block :=
  if iv.length = 12 then (Block.ofList iv).set 15 0x01
  else ghash h (putBe64 0 ++ putBe64 (iv.length * 8)) (ghash h iv .zero)

def aesGcmGctr (j0 : Block) (bs : List UInt8) : List UInt8 := aesGctr aesEncrypt j0.inc32 bs

def aesGcmGhash (h : Block) (aad crypt : List UInt8) : Block :=
  ghash h (putBe64 (aad.length * 8) ++ putBe64 (crypt.length * 8))
    (ghash h crypt (ghash h aad .zero))

def aesGcmTag (iv aad crypt : List UInt8) : List UInt8 :=
  let h := aesGcmHashSubkey aesEncrypt
  aesGctr aesEncrypt (aesGcmPrepareJ0 iv h) (aesGcmGhash h aad crypt).toList

def aesGcmCrypt (iv bs : List UInt8) : List UInt8 :=
  aesGcmGctr aesEncrypt (aesGcmPrepareJ0 iv (aesGcmHashSubkey aesEncrypt)) bs

def aesGcmAe (iv plain aad : List UInt8) : List UInt8 × List UInt8 :=
  let crypt := aesGcmCrypt aesEncrypt iv plain
  (crypt, aesGcmTag aesEncrypt iv aad crypt)

def aesGcmAd (iv crypt aad tag : List UInt8) : Option (List UInt8) :=
  if osMemcmpConst tag (aesGcmTag aesEncrypt iv aad crypt) 16 ≠ 0 then none
  else some (aesGcmCrypt aesEncrypt iv crypt)

end Gcm

section Sealed

variable (aesEncrypt : Block → Block) {iv aad crypt tag : List UInt8}

theorem length_pad (cb : Block) : (aesEncrypt cb).toList.length = 16 := Vector.length_toList

@[simp] theorem length_aesGctr (icb : Block) (bs : List UInt8) :
    (aesGctr aesEncrypt icb bs).length = bs.length :=
  BlockMode.length_stream (by decide) (length_pad aesEncrypt) _ _

@[simp] theorem length_aesGcmTag : (aesGcmTag aesEncrypt iv aad crypt).length = 16 := by
  rw [aesGcmTag, length_aesGctr]
  exact Vector.length_toList

@[simp] theorem length_aesGcmCrypt (bs : List UInt8) :
    (aesGcmCrypt aesEncrypt iv bs).length = bs.length :=
  length_aesGctr _ _ _

theorem aesGcmCrypt_twice (bs : List UInt8) :
    aesGcmCrypt aesEncrypt iv (aesGcmCrypt aesEncrypt iv bs) = bs :=
  BlockMode.stream_twice (by decide) (length_pad aesEncrypt) xor_xor _ _

def gcmSealing (iv aad : List UInt8) : Sealing (List UInt8) (List UInt8) (List UInt8) where
  tag plain := aesGcmTag aesEncrypt iv aad (aesGcmCrypt aesEncrypt iv plain)
  hide _ := aesGcmCrypt aesEncrypt iv
  reveal _ := aesGcmCrypt aesEncrypt iv
  reveal_hide _ := aesGcmCrypt_twice aesEncrypt
  hide_reveal _ := aesGcmCrypt_twice aesEncrypt

theorem aesGcmAe_eq (plain : List UInt8) :
    aesGcmAe aesEncrypt iv plain aad = (gcmSealing aesEncrypt iv aad).wrap plain :=
  rfl

theorem aesGcmAd_eq (htag : tag.length = 16) :
    aesGcmAd aesEncrypt iv crypt aad tag = (gcmSealing aesEncrypt iv aad).unwrap crypt tag := by
  have hall : tag.take 16 = tag := List.take_of_length_le (Nat.le_of_eq htag)
  have heq : osMemcmpConst tag (aesGcmTag aesEncrypt iv aad crypt) 16 = 0 ↔
      aesGcmTag aesEncrypt iv aad crypt = tag := by
    have hcmp := @osMemcmpConst_take tag (aesGcmTag aesEncrypt iv aad crypt) 16
      (Nat.le_of_eq htag.symm) (length_aesGcmTag aesEncrypt)
    rw [hall] at hcmp
    exact hcmp.trans eq_comm
  have hunwrap : (gcmSealing aesEncrypt iv aad).unwrap crypt tag =
      if aesGcmTag aesEncrypt iv aad (aesGcmCrypt aesEncrypt iv (aesGcmCrypt aesEncrypt iv crypt)) =
          tag then
        some (aesGcmCrypt aesEncrypt iv crypt)
      else none := rfl
  rw [hunwrap, aesGcmCrypt_twice, aesGcmAd, ite_not]
  exact if_congr heq rfl rfl

end Sealed

end Sec
