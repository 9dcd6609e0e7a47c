import Rtl8188fu.Ie.Elements

namespace Ie

def cipherNone : ℕ := 0x001
def cipherWep40 : ℕ := 0x002
def cipherWep104 : ℕ := 0x004
def cipherTkip : ℕ := 0x008
def cipherCcmp : ℕ := 0x010
def cipherGcmp : ℕ := 0x020
def cipherGcmp256 : ℕ := 0x040
def cipherCcmp256 : ℕ := 0x080
def cipherBipCmac128 : ℕ := 0x100
def cipherBipGmac128 : ℕ := 0x200
def cipherBipGmac256 : ℕ := 0x400
def cipherBipCmac256 : ℕ := 0x800

def akmTypeSae : ℕ := 0x80

def suiteValue (m : Mem) (s : ℕ) (oui : List UInt8) : List (UInt8 × ℕ) → ℕ
  | [] => 0
  | (kind, value) :: rest =>
    if memcmp m s (oui ++ [kind]) then value else suiteValue m s oui rest

def ouiRsn : List UInt8 := [0x00, 0x0f, 0xac]

def rtwGetWpaCipherSuite (m : Mem) (s : ℕ) : ℕ :=
  suiteValue m s ouiMicrosoft [(0, cipherNone), (1, cipherWep40), (2, cipherTkip),
    (4, cipherCcmp), (5, cipherWep104)]

def rtwGetRsnCipherSuite (m : Mem) (s : ℕ) : ℕ :=
  suiteValue m s ouiRsn [(0, cipherNone), (1, cipherWep40), (2, cipherTkip), (4, cipherCcmp),
    (8, cipherGcmp), (9, cipherGcmp256), (10, cipherCcmp256), (5, cipherWep104),
    (6, cipherBipCmac128), (11, cipherBipGmac128), (12, cipherBipGmac256),
    (13, cipherBipCmac256)]

def rtwGetAkmSuiteBitmap (m : Mem) (s : ℕ) : ℕ :=
  suiteValue m s ouiRsn [(1, 0x1), (2, 0x2), (3, 0x4), (4, 0x8), (5, 0x10), (6, 0x20),
    (7, 0x40), (8, akmTypeSae), (9, 0x100), (11, 0x200), (12, 0x400), (14, 0x800),
    (15, 0x1000), (16, 0x2000), (17, 0x4000)]

def suites (value : ℕ → ℕ) (list : ℕ) : ℕ → ℕ
  | 0 => 0
  | n + 1 => value list ||| suites value (list + 4) n

structure RsneInfo where
  gcs : Option ℕ
  pcs : Option (ℕ × ℕ)
  akm : Option (ℕ × ℕ)
  cap : Option ℕ
  pmkid : Option (ℕ × ℕ)
  gmcs : Option ℕ
  deriving DecidableEq, Repr

def RsneInfo.zero : RsneInfo := ⟨none, none, none, none, none, none⟩

def atEnd (pos last : ℕ) (info : RsneInfo) : Option RsneInfo :=
  if last ≠ pos then none else some info

def rsneGroupMgmt (last pos : ℕ) (info : RsneInfo) : Option RsneInfo :=
  if last < pos + 4 then atEnd pos last info
  else some { info with gmcs := some pos }

def rsnePmkid (m : Mem) (last pos : ℕ) (info : RsneInfo) : Option RsneInfo :=
  if last < pos + 2 then atEnd pos last info
  else
    let cnt := le16 m pos
    let pos := pos + 2
    if last < pos + 16 * cnt then none
    else rsneGroupMgmt last (pos + 16 * cnt) { info with pmkid := some (pos, cnt) }

def rsneCap (m : Mem) (last pos : ℕ) (info : RsneInfo) : Option RsneInfo :=
  if last < pos + 2 then atEnd pos last info
  else rsnePmkid m last (pos + 2) { info with cap := some pos }

def rsneAkm (m : Mem) (last pos : ℕ) (info : RsneInfo) : Option RsneInfo :=
  if last < pos + 2 then atEnd pos last info
  else
    let cnt := le16 m pos
    let pos := pos + 2
    if last < pos + 4 * cnt then atEnd pos last info
    else rsneCap m last (pos + 4 * cnt) { info with akm := some (pos, cnt) }

def rsnePairwise (m : Mem) (last pos : ℕ) (info : RsneInfo) : Option RsneInfo :=
  if last < pos + 2 then atEnd pos last info
  else
    let cnt := le16 m pos
    let pos := pos + 2
    if last < pos + 4 * cnt then atEnd pos last info
    else rsneAkm m last (pos + 4 * cnt) { info with pcs := some (pos, cnt) }

def rsneGroup (m : Mem) (last pos : ℕ) (info : RsneInfo) : Option RsneInfo :=
  if last < pos + 4 then atEnd pos last info
  else rsnePairwise m last (pos + 4) { info with gcs := some pos }

def rtwRsneInfoParse (m : Mem) (ie ieLen : ℕ) : Option RsneInfo :=
  if ie + ieLen < ie + 4 then none
  else if m ie ≠ eidRsn ∨ (m (ie + 1)).toNat ≠ ieLen - 2 then none
  else if le16 m (ie + 2) ≠ 1 then none
  else rsneGroup m (ie + ieLen) (ie + 4) .zero

structure WpaParams where
  groupCipher : ℕ
  pairwiseCipher : ℕ
  gmcs : ℕ
  akm : ℕ
  mfpOpt : ℕ
  sppOpt : ℕ
  deriving DecidableEq, Repr

def mfpNo : ℕ := 0
def mfpInvalid : ℕ := 1
def mfpOptional : ℕ := 2
def mfpRequired : ℕ := 3

def getRsnCapMfpOption (m : Mem) (cap : ℕ) : ℕ := le16 m cap / 64 % 4
def getRsnCapSppOpt (m : Mem) (cap : ℕ) : ℕ := le16 m cap / 1024 % 4

def rtwParseWpa2Ie (m : Mem) (rsnIe rsnIeLen : ℕ) : Option WpaParams :=
  (rtwRsneInfoParse m rsnIe rsnIeLen).map fun info =>
    let mfpOpt := info.cap.elim mfpNo (getRsnCapMfpOption m)
    { groupCipher := info.gcs.elim 0 (rtwGetRsnCipherSuite m)
      pairwiseCipher := info.pcs.elim 0 fun (list, cnt) => suites (rtwGetRsnCipherSuite m) list cnt
      gmcs := info.gmcs.elim (if mfpOpt > mfpInvalid then cipherBipCmac128 else 0)
        (rtwGetRsnCipherSuite m)
      akm := info.akm.elim 0 fun (list, cnt) => suites (rtwGetAkmSuiteBitmap m) list cnt
      mfpOpt := mfpOpt
      sppOpt := info.cap.elim 0 (getRsnCapSppOpt m) }

def wpaPairwise (m : Mem) (pos left groupCipher : ℕ) : Option (ℕ × ℕ) :=
  if left ≥ 2 then
    let count := le16 m pos
    if count = 0 ∨ left - 2 < count * 4 then none
    else some (groupCipher, suites (rtwGetWpaCipherSuite m) (pos + 2) count)
  else if left = 1 then none
  else some (groupCipher, 0)

def rtwParseWpaIe (m : Mem) (wpaIe wpaIeLen : ℕ) : Option (ℕ × ℕ) :=
  if m wpaIe ≠ eidVendorSpecific ∨ (m (wpaIe + 1)).toNat ≠ (wpaIeLen - 2) % 256 ∨
      memcmp m (wpaIe + 2) (ouiMicrosoft ++ [1]) = false then none
  else
    let pos := wpaIe + 8
    let left : ℤ := (wpaIeLen : ℤ) - 8
    if left ≥ 4 then wpaPairwise m (pos + 4) (left.toNat - 4) (rtwGetWpaCipherSuite m pos)
    else if left > 0 then none
    else some (0, 0)

end Ie
