import Rtl8188fu.Sec.Gcm

namespace Sec

def te0Table : List UInt32 := [
  0xc66363a5, 0xf87c7c84, 0xee777799, 0xf67b7b8d, 0xfff2f20d, 0xd66b6bbd, 0xde6f6fb1, 0x91c5c554,
  0x60303050, 0x02010103, 0xce6767a9, 0x562b2b7d, 0xe7fefe19, 0xb5d7d762, 0x4dababe6, 0xec76769a,
  0x8fcaca45, 0x1f82829d, 0x89c9c940, 0xfa7d7d87, 0xeffafa15, 0xb25959eb, 0x8e4747c9, 0xfbf0f00b,
  0x41adadec, 0xb3d4d467, 0x5fa2a2fd, 0x45afafea, 0x239c9cbf, 0x53a4a4f7, 0xe4727296, 0x9bc0c05b,
  0x75b7b7c2, 0xe1fdfd1c, 0x3d9393ae, 0x4c26266a, 0x6c36365a, 0x7e3f3f41, 0xf5f7f702, 0x83cccc4f,
  0x6834345c, 0x51a5a5f4, 0xd1e5e534, 0xf9f1f108, 0xe2717193, 0xabd8d873, 0x62313153, 0x2a15153f,
  0x0804040c, 0x95c7c752, 0x46232365, 0x9dc3c35e, 0x30181828, 0x379696a1, 0x0a05050f, 0x2f9a9ab5,
  0x0e070709, 0x24121236, 0x1b80809b, 0xdfe2e23d, 0xcdebeb26, 0x4e272769, 0x7fb2b2cd, 0xea75759f,
  0x1209091b, 0x1d83839e, 0x582c2c74, 0x341a1a2e, 0x361b1b2d, 0xdc6e6eb2, 0xb45a5aee, 0x5ba0a0fb,
  0xa45252f6, 0x763b3b4d, 0xb7d6d661, 0x7db3b3ce, 0x5229297b, 0xdde3e33e, 0x5e2f2f71, 0x13848497,
  0xa65353f5, 0xb9d1d168, 0x00000000, 0xc1eded2c, 0x40202060, 0xe3fcfc1f, 0x79b1b1c8, 0xb65b5bed,
  0xd46a6abe, 0x8dcbcb46, 0x67bebed9, 0x7239394b, 0x944a4ade, 0x984c4cd4, 0xb05858e8, 0x85cfcf4a,
  0xbbd0d06b, 0xc5efef2a, 0x4faaaae5, 0xedfbfb16, 0x864343c5, 0x9a4d4dd7, 0x66333355, 0x11858594,
  0x8a4545cf, 0xe9f9f910, 0x04020206, 0xfe7f7f81, 0xa05050f0, 0x783c3c44, 0x259f9fba, 0x4ba8a8e3,
  0xa25151f3, 0x5da3a3fe, 0x804040c0, 0x058f8f8a, 0x3f9292ad, 0x219d9dbc, 0x70383848, 0xf1f5f504,
  0x63bcbcdf, 0x77b6b6c1, 0xafdada75, 0x42212163, 0x20101030, 0xe5ffff1a, 0xfdf3f30e, 0xbfd2d26d,
  0x81cdcd4c, 0x180c0c14, 0x26131335, 0xc3ecec2f, 0xbe5f5fe1, 0x359797a2, 0x884444cc, 0x2e171739,
  0x93c4c457, 0x55a7a7f2, 0xfc7e7e82, 0x7a3d3d47, 0xc86464ac, 0xba5d5de7, 0x3219192b, 0xe6737395,
  0xc06060a0, 0x19818198, 0x9e4f4fd1, 0xa3dcdc7f, 0x44222266, 0x542a2a7e, 0x3b9090ab, 0x0b888883,
  0x8c4646ca, 0xc7eeee29, 0x6bb8b8d3, 0x2814143c, 0xa7dede79, 0xbc5e5ee2, 0x160b0b1d, 0xaddbdb76,
  0xdbe0e03b, 0x64323256, 0x743a3a4e, 0x140a0a1e, 0x924949db, 0x0c06060a, 0x4824246c, 0xb85c5ce4,
  0x9fc2c25d, 0xbdd3d36e, 0x43acacef, 0xc46262a6, 0x399191a8, 0x319595a4, 0xd3e4e437, 0xf279798b,
  0xd5e7e732, 0x8bc8c843, 0x6e373759, 0xda6d6db7, 0x018d8d8c, 0xb1d5d564, 0x9c4e4ed2, 0x49a9a9e0,
  0xd86c6cb4, 0xac5656fa, 0xf3f4f407, 0xcfeaea25, 0xca6565af, 0xf47a7a8e, 0x47aeaee9, 0x10080818,
  0x6fbabad5, 0xf0787888, 0x4a25256f, 0x5c2e2e72, 0x381c1c24, 0x57a6a6f1, 0x73b4b4c7, 0x97c6c651,
  0xcbe8e823, 0xa1dddd7c, 0xe874749c, 0x3e1f1f21, 0x964b4bdd, 0x61bdbddc, 0x0d8b8b86, 0x0f8a8a85,
  0xe0707090, 0x7c3e3e42, 0x71b5b5c4, 0xcc6666aa, 0x904848d8, 0x06030305, 0xf7f6f601, 0x1c0e0e12,
  0xc26161a3, 0x6a35355f, 0xae5757f9, 0x69b9b9d0, 0x17868691, 0x99c1c158, 0x3a1d1d27, 0x279e9eb9,
  0xd9e1e138, 0xebf8f813, 0x2b9898b3, 0x22111133, 0xd26969bb, 0xa9d9d970, 0x078e8e89, 0x339494a7,
  0x2d9b9bb6, 0x3c1e1e22, 0x15878792, 0xc9e9e920, 0x87cece49, 0xaa5555ff, 0x50282878, 0xa5dfdf7a,
  0x038c8c8f, 0x59a1a1f8, 0x09898980, 0x1a0d0d17, 0x65bfbfda, 0xd7e6e631, 0x844242c6, 0xd06868b8,
  0x824141c3, 0x299999b0, 0x5a2d2d77, 0x1e0f0f11, 0x7bb0b0cb, 0xa85454fc, 0x6dbbbbd6, 0x2c16163a]

def rcons : List UInt8 := [0x01, 0x02, 0x04, 0x08, 0x10, 0x20, 0x40, 0x80, 0x1B, 0x36]

def te (i : UInt32) (shift : UInt32) : UInt32 := te0Table.getD (i >>> shift).toUInt8.toNat 0

def rotr (val bits : UInt32) : UInt32 := val >>> bits ||| val <<< (32 - bits)

def te0 (i : UInt32) : UInt32 := te i 24

def te1 (i : UInt32) : UInt32 := rotr (te i 16) 8

def te2 (i : UInt32) : UInt32 := rotr (te i 8) 16

def te3 (i : UInt32) : UInt32 := rotr (te i 0) 24

def sboxWord (b0 b1 b2 b3 : UInt32) : UInt32 :=
  let top : UInt32 := b0 <<< 8
  let bottom : UInt32 := b3 >>> 8
  (top &&& 0xff000000) ^^^ (b1 &&& 0x00ff0000) ^^^ (b2 &&& 0x0000ff00) ^^^ (bottom &&& 0x000000ff)

structure AesState where
  s0 : UInt32
  s1 : UInt32
  s2 : UInt32
  s3 : UInt32

def AesState.addKey (s : AesState) (rk : List UInt32) (j : ℕ) : AesState where
  s0 := s.s0 ^^^ rk.getD (4 * j) 0
  s1 := s.s1 ^^^ rk.getD (4 * j + 1) 0
  s2 := s.s2 ^^^ rk.getD (4 * j + 2) 0
  s3 := s.s3 ^^^ rk.getD (4 * j + 3) 0

def AesState.round (s : AesState) : AesState where
  s0 := te0 s.s0 ^^^ te1 s.s1 ^^^ te2 s.s2 ^^^ te3 s.s3
  s1 := te0 s.s1 ^^^ te1 s.s2 ^^^ te2 s.s3 ^^^ te3 s.s0
  s2 := te0 s.s2 ^^^ te1 s.s3 ^^^ te2 s.s0 ^^^ te3 s.s1
  s3 := te0 s.s3 ^^^ te1 s.s0 ^^^ te2 s.s1 ^^^ te3 s.s2

def AesState.lastRound (t : AesState) : AesState where
  s0 := sboxWord (te t.s0 24) (te t.s1 16) (te t.s2 8) (te t.s3 0)
  s1 := sboxWord (te t.s1 24) (te t.s2 16) (te t.s3 8) (te t.s0 0)
  s2 := sboxWord (te t.s2 24) (te t.s3 16) (te t.s0 8) (te t.s1 0)
  s3 := sboxWord (te t.s3 24) (te t.s0 16) (te t.s1 8) (te t.s2 0)

def rijndaelEncrypt (rk : List UInt32) (nr : ℕ) (pt : Block) : Block :=
  let s : AesState := ⟨pt.getBe32 0, pt.getBe32 1, pt.getBe32 2, pt.getBe32 3⟩
  let s := (List.range (nr - 1)).foldl (fun s j => s.round.addKey rk (j + 1)) (s.addKey rk 0)
  let s := s.lastRound.addKey rk nr
  Block.ofList (Block.putBe32 s.s0 ++ Block.putBe32 s.s1 ++ Block.putBe32 s.s2 ++ Block.putBe32 s.s3)

def rotWord (temp : UInt32) (i : ℕ) : UInt32 :=
  sboxWord (te temp 16) (te temp 8) (te temp 0) (te temp 24) ^^^ (rcons.getD i 0).toUInt32 <<< 24

def subWord (temp : UInt32) : UInt32 := sboxWord (te temp 24) (te temp 16) (te temp 8) (te temp 0)

def keyWords (first : UInt32) (rest : List UInt32) : List UInt32 := rest.scanl (· ^^^ ·) first

def keySetup128 (rk : List UInt32) (i : ℕ) : List UInt32 :=
  let w (k : ℕ) : UInt32 := rk.getD (4 * i + k) 0
  rk ++ keyWords (w 0 ^^^ rotWord (w 3) i) [w 1, w 2, w 3]

def keySetup192 (rk : List UInt32) (i : ℕ) : List UInt32 :=
  let w (k : ℕ) : UInt32 := rk.getD (6 * i + k) 0
  rk ++ keyWords (w 0 ^^^ rotWord (w 5) i) ([w 1, w 2, w 3] ++ if i = 7 then [] else [w 4, w 5])

def keySetup256 (rk : List UInt32) (i : ℕ) : List UInt32 :=
  let w (k : ℕ) : UInt32 := rk.getD (8 * i + k) 0
  let first := keyWords (w 0 ^^^ rotWord (w 7) i) [w 1, w 2, w 3]
  rk ++ first ++ if i = 6 then [] else keyWords (w 4 ^^^ subWord (first.getD 3 0)) [w 5, w 6, w 7]

def cipherWord (key : List UInt8) (i : ℕ) : UInt32 := (Block.ofList (key.drop (4 * i))).getBe32 0

def rijndaelKeySetupEnc (key : List UInt8) (keyBits : ℕ) : Option (List UInt32 × ℕ) :=
  let words (n : ℕ) : List UInt32 := (List.range n).map (cipherWord key)
  if keyBits = 128 then some ((List.range 10).foldl keySetup128 (words 4), 10)
  else if keyBits = 192 then some ((List.range 8).foldl keySetup192 (words 6), 12)
  else if keyBits = 256 then some ((List.range 7).foldl keySetup256 (words 8), 14)
  else none

def aesEncryptInit (key : List UInt8) : Option (Block → Block) :=
  (rijndaelKeySetupEnc key (key.length * 8)).map fun r => rijndaelEncrypt r.1 r.2

def aesEncrypt (key : List UInt8) (plain : Block) : Block :=
  ((aesEncryptInit key).getD id) plain

end Sec
