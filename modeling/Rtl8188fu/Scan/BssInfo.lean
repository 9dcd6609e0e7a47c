import Rtl8188fu.Ie.BssDelete
import Rtl8188fu.Lib.ReadTrace
import Rtl8188fu.Lib.TlvWalk
import Rtl8188fu.Scan.Network

namespace Scan

open ByteMemory ReadTrace Tlv
open Ie (Mem le16 asInt u32Sub maxIeSz rtwGetIe rtwGetIeSearch)

inductive Announce where
  | beacon
  | probeRsp
deriving DecidableEq

namespace Announce

def code : Announce → UInt8
  | beacon => 0x80
  | probeRsp => 0x50

def bssType : Announce → ℕ
  | beacon => bssTypeBcn
  | probeRsp => bssTypeProbRsp

def ieOffset : Announce → ℕ
  | beacon => 12
  | probeRsp => 12

end Announce

structure RxPhy where
  recvSignalPower : ℤ
  signalQuality : UInt8
  signalStrength : UInt8
  dataRate : ℕ
  rxSnr : List ℤ
  freeCnt : ℕ

structure RxAnnounce where
  mem : Mem
  rxData : ℕ
  len : ℕ
  subtype : Announce
  phy : RxPhy
  typed : mem rxData &&& 0xfc = subtype.code
  u32 : len < 2 ^ 32

structure BssEnv where
  rfRegPathNum : ℕ
  operCh : UInt8
  wifiSpec : Bool
  bwmodeUpdated : Bool

structure BssInfo where
  bssType : ℕ
  ieLength : ℕ
  ies : List UInt8
  rssi : ℤ
  signalQuality : UInt8
  signalStrength : UInt8
  isCckRate : Bool
  rxSnr : List ℤ
  freeCnt : ℕ
  rmEnCap : List UInt8
  ssid : List UInt8
  supportedRates : List UInt8
  dsConfig : UInt8
  beaconPeriod : ℕ
  infrastructureMode : InfrastructureMode
  macAddress : List UInt8
  meshId : List UInt8
  privacy : Bool
  tsf : ℕ
  fortyMhzIntolerant : ℕ
  staNoHt : ℕ

def eidSsid : UInt8 := 0

def eidSupportedRates : UInt8 := 1

def eidDsset : UInt8 := 3

def eidHtCapability : UInt8 := 45

def eidExtSupportedRates : UInt8 := 50

def eidHtAddInfo : UInt8 := 61

def eidRrmEnCap : UInt8 := 70

def eidMeshConfig : UInt8 := 113

def eidMeshId : UInt8 := 114

def lengthSsid : ℕ := 32

def lengthRatesEx : ℕ := 16

def hdr3Addr : ℕ := 24

def descRate11M : ℕ := 3

def supportRateRanges : List UInt8 :=
  [0x02, 0x04, 0x0b, 0x16, 0x0c, 0x12, 0x18, 0x24, 0x2c, 0x2d, 0x30, 0x48, 0x60, 0x6c]

def matchRanges (value : UInt8) : Bool := supportRateRanges.any (· == (value &&& 0x7f))

def zeroFill (n : ℕ) (bs : List UInt8) : List UInt8 := bs ++ List.replicate (n - bs.length) 0

namespace RxAnnounce

variable (f : RxAnnounce)

-- bssid->IEs after the memset and the memcpy, each byte at the offset it has in the frame
def image : Mem := fun o => if o < f.len then f.mem (f.rxData + o) else 0

def ieLength : ℕ := u32Sub f.len hdr3Addr

def tlvIes : ℕ := hdr3Addr + f.subtype.ieOffset

def tlvLimit : ℤ := asInt (u32Sub f.ieLength f.subtype.ieOffset)

def getIe (id : UInt8) : Traced (Option ℕ) :=
  .read ((rtwGetIeSearch f.image f.tlvIes id.toNat f.tlvLimit).readOffsets.map (f.tlvIes + ·))
    (rtwGetIe f.image f.tlvIes id f.tlvLimit)

def ieLen (p : ℕ) : ℕ := (f.image (p + 1)).toNat

def copy (o n : ℕ) : Traced (List UInt8) := .read (List.range' o n) (ByteMemory.read f.image o n)

def byte (o : ℕ) : Traced UInt8 := .read [o] (f.image o)

def word (o : ℕ) : Traced ℕ := .read [o, o + 1] (le16 f.image o)

def takeSsid (p : ℕ) : Traced (List UInt8) :=
  if f.ieLen p = 0 then pure []
  else if lengthSsid < f.ieLen p then Traced.fail
  else f.copy (p + 2) (f.ieLen p)

def checkSsid : Traced (List UInt8) := do
  match ← f.getIe eidSsid with
  | none => Traced.fail
  | some p => f.takeSsid p

def rtwValidateValue : ℕ → ℕ → Traced Bool
  | _, 0 => pure true
  | o, n + 1 => do
    let rate ← f.byte o
    if matchRanges rate then rtwValidateValue (o + 1) n else pure false

-- what rtw_absorb_ssid_ifneed takes from the frame: its type and its transmitter
def absorbSsid : Traced Unit := .read ([0, 1] ++ List.range' 10 6) ()

def takeRates (room p : ℕ) : Traced (List UInt8) :=
  if room < f.ieLen p then Traced.fail
  else do
    let valid ← f.rtwValidateValue (p + 2) (f.ieLen p)
    if valid then f.copy (p + 2) (f.ieLen p)
    else do
      absorbSsid
      Traced.fail

def checkRates (id : UInt8) (room : ℕ) : Traced (List UInt8) := do
  match ← f.getIe id with
  | none => pure []
  | some p => f.takeRates room p

def dsChannel (operCh : UInt8) : Traced UInt8 := do
  match ← f.getIe eidDsset with
  | some p => f.byte (p + 2)
  | none =>
    match ← f.getIe eidHtAddInfo with
    | some p => f.byte (p + 2)
    | none => pure operCh

def addr2 : Traced (List UInt8) := f.copy 10 6

def addr3 : Traced (List UInt8) := f.copy 16 6

def checkMesh : Traced (InfrastructureMode × List UInt8) := do
  let meshIdIe ← f.getIe eidMeshId
  let meshConfIe ← f.getIe eidMeshConfig
  match meshIdIe, meshConfIe with
  | none, none => pure (.ibss, [])
  | none, some _ => Traced.fail
  | some p, conf => do
    let meshId ← f.takeSsid p
    match conf with
    | none => Traced.fail
    | some q => if f.ieLen q ≠ 7 then Traced.fail else pure (.mesh, meshId)

-- with both bits set no branch of the source runs and the memset's zeros stay
def checkCapability (val16 : ℕ) : Traced (InfrastructureMode × List UInt8 × List UInt8) :=
  if val16 % 4 = 1 then do
    let mac ← f.addr2
    pure (.infrastructure, mac, [])
  else if val16 % 4 = 2 then do
    let mac ← f.addr3
    pure (.ibss, mac, [])
  else if val16 % 4 = 0 then do
    let (mode, meshId) ← f.checkMesh
    let mac ← f.addr3
    pure (mode, mac, meshId)
  else pure (.ibss, List.replicate 6 0, [])

def checkCoexistence (env : BssEnv) : Traced (ℕ × ℕ) :=
  if env.wifiSpec && !env.bwmodeUpdated then do
    match ← f.getIe eidHtCapability with
    | none => pure (0, 1)
    | some p =>
      if f.ieLen p = 0 then pure (0, 1)
      else do
        let info ← f.word (p + 2)
        pure (if info.testBit 14 then (1, 0) else (0, 0))
  else pure (0, 0)

def rmEnCap : Traced (List UInt8) := do
  match ← f.getIe eidRrmEnCap with
  | none => pure []
  | some p => f.copy (p + 2) (min (f.ieLen p) 5)

def timestamp : Traced ℕ := do
  let bs ← f.copy hdr3Addr 8
  pure (bs.foldr (fun b n => b.toNat + 256 * n) 0)

end RxAnnounce

def announceInfo (env : BssEnv) (f : RxAnnounce) (ies ssid rates : List UInt8) :
    Traced BssInfo := do
  let dsConfig ← f.dsChannel env.operCh
  let beaconPeriod ← f.word (hdr3Addr + 8)
  let val16 ← f.word (hdr3Addr + 10)
  let (mode, mac, meshId) ← f.checkCapability val16
  let (intolerant, noHt) ← f.checkCoexistence env
  let rmEnCap ← f.rmEnCap
  let tsf ← f.timestamp
  pure
    { bssType := f.subtype.bssType
      ieLength := f.ieLength
      ies := ies
      rssi := f.phy.recvSignalPower
      signalQuality := if dsConfig ≠ env.operCh then 101 else f.phy.signalQuality
      signalStrength := f.phy.signalStrength
      isCckRate := decide (f.phy.dataRate < descRate11M)
      rxSnr := if f.phy.dataRate < descRate11M then [] else f.phy.rxSnr.take env.rfRegPathNum
      freeCnt := f.phy.freeCnt
      rmEnCap := zeroFill 5 rmEnCap
      ssid := ssid
      supportedRates := zeroFill lengthRatesEx rates
      dsConfig := dsConfig
      beaconPeriod := beaconPeriod
      infrastructureMode := mode
      macAddress := mac
      meshId := meshId
      privacy := val16.testBit 4
      tsf := tsf
      fortyMhzIntolerant := intolerant
      staNoHt := noHt }

def collectBssInfo (env : BssEnv) (f : RxAnnounce) : Traced BssInfo :=
  if (maxIeSz : ℤ) < asInt f.ieLength then Traced.fail
  else do
    let _ ← f.word 0
    let ies ← f.copy hdr3Addr f.ieLength
    let ssid ← f.checkSsid
    let rates ← f.checkRates eidSupportedRates lengthRatesEx
    let extRates ← f.checkRates eidExtSupportedRates (lengthRatesEx - rates.length)
    if f.ieLength < 12 then Traced.fail
    else announceInfo env f ies ssid (rates ++ extRates)

end Scan

namespace Scan

open ByteMemory CursorWalk ReadTrace Tlv
open Ie (Mem le16 asInt u32Sub maxIeSz rtwGetIe rtwGetIeSearch getIeWalk)
open ReadTrace.Traced (inside_bind inside_gate inside_step inside_pure inside_fail inside_then
  inside_bind_quiet inside_read_bind yields_bind yields_pure not_yields_fail)

namespace RxAnnounce

variable (f : RxAnnounce)

def body : List UInt8 := read f.mem (f.rxData + f.tlvIes) f.tlvLimit.toNat

def InFrame (o : ℕ) : Prop := o < f.len

structure Placed (p n : ℕ) (after : List UInt8) : Prop where
  size : p + 2 + after.length = f.len
  len : f.ieLen p = n
  holds : Holds f.image (p + 2) after

def Told (id : UInt8) : Sought → Prop
  | .miss => (f.getIe id).Yields f.InFrame none
  | .lone => ¬ (f.getIe id).Inside f.InFrame
  | .hit n after => ∃ p, (f.getIe id).Yields f.InFrame (some p) ∧ f.Placed p n after

variable {f} {id : UInt8} {o p n : ℕ} {after : List UInt8}

theorem tlvIes_eq : f.tlvIes = 36 := by
  rw [tlvIes]
  cases f.subtype with
  | beacon => rfl
  | probeRsp => rfl

theorem tlvLimit_len (h : hdr3Addr ≤ f.len) :
    f.tlvLimit.toNat = 0 ∨ f.tlvIes + f.tlvLimit.toNat = f.len := by
  have hsize : f.ieLength = f.len - 24 := Ie.u32Sub_of_le h
  have hoff : f.subtype.ieOffset = 12 := by cases f.subtype with | beacon => rfl | probeRsp => rfl
  have hlt := f.u32
  rw [hdr3Addr] at h
  rw [tlvLimit, tlvIes_eq, hsize, hoff, u32Sub, asInt]
  split <;> split <;> omega

theorem tlv_inside (h : hdr3Addr ≤ f.len) (ho : o < f.tlvLimit.toNat) : f.tlvIes + o < f.len := by
  cases tlvLimit_len h with
  | inl hzero => omega
  | inr hfull => omega

theorem holds_image (h : hdr3Addr ≤ f.len) : Holds f.image f.tlvIes f.body := by
  intro i hi
  rw [body, length_read] at hi
  rw [image, if_pos (tlv_inside h hi)]
  simp only [body, getElem_read, Nat.add_assoc]

theorem inside_getIe :
    (f.getIe id).Inside f.InFrame ↔ ∀ j,
      Visits (getIeWalk f.image f.tlvIes id.toNat f.tlvLimit.toNat) 0 j →
        f.tlvIes + j + 1 < f.len := by
  constructor
  · intro h j hj
    refine h _ (List.mem_map.mpr ⟨j + 1, ?_, rfl⟩)
    exact (Ie.getIe_runs _ _ _ _).mem_readOffsets.mpr ⟨j, hj, by simp [rtwGetIeSearch]⟩
  · intro h o ho
    obtain ⟨i, hi, rfl⟩ := List.mem_map.mp ho
    obtain ⟨j, hj, hij⟩ := (Ie.getIe_runs _ _ _ _).mem_readOffsets.mp hi
    have hlt := h j hj
    have hnear : i = j ∨ i = j + 1 := by
      simpa only [rtwGetIeSearch, List.mem_cons, List.not_mem_nil, or_false] using hij
    exact Nat.lt_of_le_of_lt (by omega) hlt

theorem getIe_told (h : hdr3Addr ≤ f.len) : f.Told id (seek id f.body) := by
  have hadv := Ie.getIeWalk_advances f.image f.tlvIes id.toNat f.tlvLimit.toNat
  have hanswer := @answered_seek id f.body f.image _ f.tlvIes f.tlvLimit.toNat 0 hadv
    (fun i => rfl)
    (fun i => by
      refine decide_eq_decide.mpr ?_
      rw [Nat.cast_inj, UInt8.toNat_inj])
    (fun i => rfl) (holds_image h) (.inl (by rw [body, length_read, Nat.zero_add]))
  have hret : (f.getIe id).ret =
      some ((find (getIeWalk f.image f.tlvIes id.toNat f.tlvLimit.toNat) f.tlvLimit.toNat 0).map
        (f.tlvIes + ·)) := congrArg some (Ie.rtwGetIe_find _ _ _ _)
  cases hsought : seek id f.body with
  | miss =>
    rw [hsought] at hanswer
    obtain ⟨hfind, hvisits⟩ := hanswer
    refine ⟨inside_getIe.mpr fun j hj => tlv_inside h (hvisits j hj), ?_⟩
    rw [hret, hfind]
    rfl
  | lone =>
    rw [hsought] at hanswer
    obtain ⟨j, hj, hpast⟩ := hanswer
    intro hinside
    have hlt := inside_getIe.mp hinside j hj
    have hin := hadv.inside j hj.inside
    cases tlvLimit_len h with
    | inl hzero => omega
    | inr hfull => omega
  | hit n after =>
    rw [hsought] at hanswer
    obtain ⟨i, hfind, hsize, hlen, hholds, hvisits⟩ := hanswer
    refine ⟨f.tlvIes + i, ⟨inside_getIe.mpr fun j hj => tlv_inside h (hvisits j hj), ?_⟩, ?_, hlen,
      hholds⟩
    · rw [hret, hfind]
      rfl
    · cases tlvLimit_len h with
      | inl hzero => omega
      | inr hfull => omega

theorem inside_lookup {α : Type} {k : Option ℕ → Traced α} {A : Prop} {B : ℕ → List UInt8 → Prop}
    (h : hdr3Addr ≤ f.len) (hmiss : (k none).Inside f.InFrame ↔ A)
    (hhit : ∀ p n after, f.Placed p n after → ((k (some p)).Inside f.InFrame ↔ B n after)) :
    (f.getIe id >>= k).Inside f.InFrame ↔ (seek id f.body).Leads A B := by
  have htold := @getIe_told f id h
  rw [inside_bind]
  cases hsought : seek id f.body with
  | miss =>
    rw [hsought] at htold
    refine ⟨fun hall => hmiss.mp (hall.2 none htold.2), fun hA => ⟨htold.1, fun r hr => ?_⟩⟩
    rw [htold.2] at hr
    cases hr
    exact hmiss.mpr hA
  | lone =>
    rw [hsought] at htold
    exact iff_of_false (fun hall => htold hall.1) fun h => h
  | hit n after =>
    rw [hsought] at htold
    obtain ⟨p, hp, hplaced⟩ := htold
    have hkeep := hhit p n after hplaced
    refine ⟨fun hall => hkeep.mp (hall.2 _ hp.2), fun hB => ⟨hp.1, fun r hr => ?_⟩⟩
    rw [hp.2] at hr
    cases hr
    exact hkeep.mpr hB

theorem yields_lookup {α : Type} {k : Option ℕ → Traced α} {a : α} {A : Prop}
    {B : ℕ → List UInt8 → Prop} (h : hdr3Addr ≤ f.len) (hmiss : (k none).Yields f.InFrame a ↔ A)
    (hhit : ∀ p n after, f.Placed p n after → ((k (some p)).Yields f.InFrame a ↔ B n after)) :
    (f.getIe id >>= k).Yields f.InFrame a ↔ (seek id f.body).Leads A B := by
  have htold := @getIe_told f id h
  rw [yields_bind]
  cases hsought : seek id f.body with
  | miss =>
    rw [hsought] at htold
    refine ⟨fun ⟨r, hr, hk⟩ => ?_, fun hA => ⟨none, htold, hmiss.mpr hA⟩⟩
    obtain rfl := Option.some.inj (hr.2.symm.trans htold.2)
    exact hmiss.mp hk
  | lone =>
    rw [hsought] at htold
    exact iff_of_false (fun ⟨r, hr, _⟩ => htold hr.1) fun h => h
  | hit n after =>
    rw [hsought] at htold
    obtain ⟨p, hp, hplaced⟩ := htold
    refine ⟨fun ⟨r, hr, hk⟩ => ?_, fun hB => ⟨some p, hp, (hhit p n after hplaced).mpr hB⟩⟩
    obtain rfl := Option.some.inj (hr.2.symm.trans hp.2)
    exact (hhit p n after hplaced).mp hk

theorem inside_copy : (f.copy o n).Inside f.InFrame ↔ n = 0 ∨ o + n ≤ f.len := by
  constructor
  · intro h
    cases n with
    | zero => exact .inl rfl
    | succ n =>
      have hlast : o + n < f.len := h _ (List.mem_range'_1.mpr ⟨Nat.le_add_right _ _, by omega⟩)
      exact .inr hlast
  · intro h x hx
    obtain ⟨hle, hlt⟩ := List.mem_range'_1.mp hx
    have hlen : x < f.len := by omega
    exact hlen

theorem yields_copy {bs : List UInt8} :
    (f.copy o n).Yields f.InFrame bs ↔ (n = 0 ∨ o + n ≤ f.len) ∧ ByteMemory.read f.image o n = bs :=
  and_congr inside_copy Option.some_inj

theorem Placed.read (h : f.Placed p n after) {k : ℕ} (hk : k ≤ after.length) :
    ByteMemory.read f.image (p + 2) k = after.take k := by
  refine (h.holds.take k).read_eq ?_
  rw [List.length_take_of_le hk]

theorem yields_byte {x : UInt8} :
    (f.byte o).Yields f.InFrame x ↔ o < f.len ∧ f.image o = x :=
  and_congr ⟨fun h => h o List.mem_cons_self, fun h i hi => by rwa [List.mem_singleton.mp hi]⟩
    Option.some_inj

end RxAnnounce

def SsidSound (b : List UInt8) : Prop :=
  (seek eidSsid b).Leads True fun n after => n ≤ after.length ∨ lengthSsid < n

def SsidTaken (b : List UInt8) : Prop := (seek eidSsid b).Leads False fun n _ => n ≤ lengthSsid

def RatesSound (id : UInt8) (room : ℕ) (b : List UInt8) : Prop :=
  (seek id b).Leads True fun n after =>
    n ≤ after.length ∨ room < n ∨ ∃ r ∈ after, matchRanges r = false

def RatesTaken (id : UInt8) (room : ℕ) (b : List UInt8) (i : ℕ) : Prop :=
  (seek id b).Leads (i = 0) fun n after =>
    n = i ∧ n ≤ room ∧ ∀ r ∈ after.take n, matchRanges r = true

def ChannelSound (b : List UInt8) : Prop :=
  (seek eidDsset b).Leads ((seek eidHtAddInfo b).Leads True fun _ after => after ≠ [])
    fun _ after => after ≠ []

def MeshSound (b : List UInt8) : Prop :=
  (seek eidMeshId b).Leads ((seek eidMeshConfig b).Leads True fun _ _ => True) fun n after =>
    seek eidMeshConfig b ≠ .lone ∧ (n ≤ after.length ∨ lengthSsid < n)

def MeshTaken (b : List UInt8) : Prop :=
  (seek eidMeshId b).Leads ((seek eidMeshConfig b).Leads True fun _ _ => False) fun n _ =>
    n ≤ lengthSsid ∧ (seek eidMeshConfig b).Leads False fun n _ => n = 7

def CoexistenceSound (env : BssEnv) (b : List UInt8) : Prop :=
  env.wifiSpec = true → env.bwmodeUpdated = false →
    (seek eidHtCapability b).Leads True fun n after => n = 0 ∨ 2 ≤ after.length

def RrmSound (b : List UInt8) : Prop :=
  (seek eidRrmEnCap b).Leads True fun n after => min n 5 ≤ after.length

namespace RxAnnounce

variable {f : RxAnnounce} {id : UInt8} {o p n room : ℕ} {after bs : List UInt8}

theorem inside_takeSsid (h : f.Placed p n after) :
    (f.takeSsid p).Inside f.InFrame ↔ n ≤ after.length ∨ lengthSsid < n := by
  have hsize := h.size
  rw [takeSsid, h.len]
  split
  · exact iff_of_true (inside_pure _) (by omega)
  · split
    · exact iff_of_true inside_fail (by omega)
    · rw [inside_copy]
      omega

theorem yields_takeSsid (h : f.Placed p n after) : (f.takeSsid p).Yields f.InFrame bs ↔
    n ≤ after.length ∧ n ≤ lengthSsid ∧ after.take n = bs := by
  have hsize := h.size
  rw [takeSsid, h.len]
  split
  · rename_i hzero
    rw [yields_pure, hzero, List.take_zero]
    simp
  · split
    · exact iff_of_false not_yields_fail (by omega)
    · rw [yields_copy]
      constructor
      · rintro ⟨hroom, hread⟩
        have hfits : n ≤ after.length := by omega
        exact ⟨hfits, by omega, (h.read hfits).symm.trans hread⟩
      · rintro ⟨hfits, -, htake⟩
        exact ⟨by omega, (h.read hfits).trans htake⟩

theorem inside_checkSsid (h : hdr3Addr ≤ f.len) :
    f.checkSsid.Inside f.InFrame ↔ SsidSound f.body :=
  inside_lookup h (iff_of_true inside_fail trivial) fun _ _ _ hp => inside_takeSsid hp

theorem yields_checkSsid (h : hdr3Addr ≤ f.len) : f.checkSsid.Yields f.InFrame bs ↔
    (seek eidSsid f.body).Leads False fun n after =>
      n ≤ after.length ∧ n ≤ lengthSsid ∧ after.take n = bs := by
  refine yields_lookup h (iff_of_false not_yields_fail fun h => h) ?_
  exact fun _ _ _ hp => yields_takeSsid hp

theorem checkSsid_passes (h : hdr3Addr ≤ f.len) :
    (∃ bs, f.checkSsid.Yields f.InFrame bs) ↔ SsidSound f.body ∧ SsidTaken f.body := by
  simp only [yields_checkSsid h, SsidSound, SsidTaken]
  cases seek eidSsid f.body with
  | miss => exact ⟨fun h => h.elim fun _ hno => hno.elim, fun h => h.2.elim⟩
  | lone => exact ⟨fun h => h.elim fun _ hno => hno.elim, fun h => h.2.elim⟩
  | hit n after =>
    constructor
    · rintro ⟨bs, hfits, hshort, -⟩
      exact ⟨.inl hfits, hshort⟩
    · rintro ⟨hroom, hshort⟩
      exact ⟨_, hroom.resolve_right (Nat.not_lt.mpr hshort), hshort, rfl⟩

def Stops (n : ℕ) (after : List UInt8) : Prop :=
  n ≤ after.length ∨ ∃ r ∈ after, matchRanges r = false

theorem stops_cons {r : UInt8} {rs : List UInt8} (hr : matchRanges r = true) :
    Stops (n + 1) (r :: rs) ↔ Stops n rs := by
  rw [Stops, Stops, List.length_cons, Nat.succ_le_succ_iff]
  refine or_congr_right ⟨?_, ?_⟩
  · rintro ⟨x, hx, hbad⟩
    cases hx with
    | head => exact absurd hr (Bool.eq_false_iff.mp hbad)
    | tail _ hx => exact ⟨x, hx, hbad⟩
  · exact fun ⟨x, hx, hbad⟩ => ⟨x, .tail _ hx, hbad⟩

theorem validate_told (hlen : o + after.length = f.len) (h : Holds f.image o after) :
    ((f.rtwValidateValue o n).Inside f.InFrame ↔ Stops n after) ∧
      (Stops n after → (f.rtwValidateValue o n).ret = some ((after.take n).all matchRanges)) := by
  induction n generalizing o after with
  | zero => exact ⟨iff_of_true (inside_pure _) (.inl (Nat.zero_le _)), fun _ => rfl⟩
  | succ n ih =>
    rw [rtwValidateValue, inside_bind]
    cases after with
    | nil =>
      have hstop : ¬ Stops (n + 1) [] := by simp [Stops]
      have hpast : ¬ (f.byte o).Inside f.InFrame := by
        intro hin
        have hlt : o < f.len := hin o List.mem_cons_self
        rw [List.length_nil] at hlen
        omega
      exact ⟨iff_of_false (fun hin => hpast hin.1) hstop, fun hno => absurd hno hstop⟩
    | cons r rs =>
      rw [List.length_cons] at hlen
      have hr : f.image o = r := h 0 (Nat.succ_pos _)
      have hbyte : (f.byte o).Yields f.InFrame r := yields_byte.mpr ⟨by omega, hr⟩
      have hrest : Holds f.image (o + 1) rs := by
        have hsplit : Holds f.image o ([r] ++ rs) := h
        exact hsplit.right
      obtain ⟨hinside, hret⟩ := ih (by omega) hrest
      rw [List.take_succ_cons, List.all_cons]
      cases hvalid : matchRanges r with
      | true =>
        rw [stops_cons hvalid, ← hinside]
        constructor
        · refine ⟨fun hall => ?_, fun hin => ⟨hbyte.1, fun a ha => ?_⟩⟩
          · have hnext := hall.2 r hbyte.2
            rwa [if_pos hvalid] at hnext
          · obtain rfl := Option.some.inj (hbyte.2.symm.trans ha)
            rwa [if_pos hvalid]
        · intro hin
          refine Traced.ret_bind.mpr ⟨r, hbyte.2, ?_⟩
          rw [if_pos hvalid, Bool.true_and]
          exact hret (hinside.mp hin)
      | false =>
        have hstop : Stops (n + 1) (r :: rs) := .inr ⟨r, List.mem_cons_self, hvalid⟩
        have hbad : ¬ matchRanges r = true := Bool.eq_false_iff.mp hvalid
        constructor
        · refine iff_of_true ⟨hbyte.1, fun a ha => ?_⟩ hstop
          obtain rfl := Option.some.inj (hbyte.2.symm.trans ha)
          rw [if_neg hbad]
          exact inside_pure _
        · intro _
          refine Traced.ret_bind.mpr ⟨r, hbyte.2, ?_⟩
          rw [if_neg hbad]
          rfl

theorem stops_valid (h : Stops n after) (hvalid : (after.take n).all matchRanges = true) :
    n ≤ after.length := by
  rcases h with hfits | ⟨r, hr, hbad⟩
  · exact hfits
  · refine Decidable.byContradiction fun hshort => ?_
    rw [List.take_of_length_le (by omega), List.all_eq_true] at hvalid
    exact Bool.noConfusion ((hvalid r hr).symm.trans hbad)

theorem inside_absorbSsid (h : hdr3Addr ≤ f.len) : absorbSsid.Inside f.InFrame := by
  intro o ho
  rw [hdr3Addr] at h
  have hreads : o ∈ [0, 1] ++ List.range' 10 6 := ho
  have hlow : o < 16 := by
    simp only [List.mem_append, List.mem_cons, List.not_mem_nil, or_false,
      List.mem_range'_1] at hreads
    omega
  have hlt : o < f.len := by omega
  exact hlt

theorem inside_takeRates (h24 : hdr3Addr ≤ f.len) (h : f.Placed p n after) :
    (f.takeRates room p).Inside f.InFrame ↔ room < n ∨ Stops n after := by
  have hsize := h.size
  obtain ⟨hinside, hret⟩ := @validate_told f (p + 2) n after hsize h.holds
  rw [takeRates, h.len]
  split
  · rename_i hlong
    exact iff_of_true inside_fail (.inl hlong)
  · rename_i hroom
    rw [inside_bind, hinside, or_iff_right hroom]
    refine and_iff_left_of_imp fun hstop valid hv => ?_
    obtain rfl := Option.some.inj ((hret hstop).symm.trans hv)
    cases hvalid : (after.take n).all matchRanges with
    | true =>
      have hfits := stops_valid hstop hvalid
      rw [if_pos rfl, inside_copy]
      omega
    | false =>
      rw [if_neg Bool.false_ne_true, inside_bind]
      exact ⟨inside_absorbSsid h24, fun _ _ => inside_fail⟩

theorem yields_takeRates (h : f.Placed p n after) : (f.takeRates room p).Yields f.InFrame bs ↔
    n ≤ after.length ∧ n ≤ room ∧ (∀ r ∈ after.take n, matchRanges r = true) ∧
      after.take n = bs := by
  have hsize := h.size
  obtain ⟨hinside, hret⟩ := @validate_told f (p + 2) n after hsize h.holds
  rw [takeRates, h.len]
  split
  · exact iff_of_false not_yields_fail (by omega)
  · rename_i hroom
    rw [yields_bind]
    constructor
    · rintro ⟨valid, hv, hbs⟩
      have hstop := hinside.mp hv.1
      obtain rfl := Option.some.inj ((hret hstop).symm.trans hv.2)
      cases hvalid : (after.take n).all matchRanges with
      | true =>
        have hfits := stops_valid hstop hvalid
        rw [hvalid, if_pos rfl, yields_copy] at hbs
        exact ⟨hfits, Nat.not_lt.mp hroom, List.all_eq_true.mp hvalid,
          (h.read hfits).symm.trans hbs.2⟩
      | false =>
        rw [hvalid, if_neg Bool.false_ne_true, yields_bind] at hbs
        obtain ⟨_, _, hno⟩ := hbs
        exact absurd hno not_yields_fail
    · rintro ⟨hfits, -, hvalid, htake⟩
      have hall : (after.take n).all matchRanges = true := List.all_eq_true.mpr hvalid
      refine ⟨true, ⟨hinside.mpr (.inl hfits), (hret (.inl hfits)).trans (congrArg some hall)⟩, ?_⟩
      rw [if_pos rfl, yields_copy]
      exact ⟨by omega, (h.read hfits).trans htake⟩

theorem inside_checkRates (h : hdr3Addr ≤ f.len) :
    (f.checkRates id room).Inside f.InFrame ↔ RatesSound id room f.body := by
  refine inside_lookup h (iff_of_true (inside_pure _) trivial) fun _ _ _ hp => ?_
  refine (inside_takeRates h hp).trans ?_
  rw [Stops, or_left_comm]

theorem yields_checkRates (h : hdr3Addr ≤ f.len) : (f.checkRates id room).Yields f.InFrame bs ↔
    (seek id f.body).Leads ([] = bs) fun n after =>
      n ≤ after.length ∧ n ≤ room ∧ (∀ r ∈ after.take n, matchRanges r = true) ∧
        after.take n = bs :=
  yields_lookup h yields_pure fun _ _ _ hp => yields_takeRates hp

theorem checkRates_passes (h : hdr3Addr ≤ f.len) (i : ℕ) :
    (∃ bs, (f.checkRates id room).Yields f.InFrame bs ∧ bs.length = i) ↔
      RatesSound id room f.body ∧ RatesTaken id room f.body i := by
  simp only [yields_checkRates h, RatesSound, RatesTaken]
  cases seek id f.body with
  | miss =>
    constructor
    · rintro ⟨bs, hnil, rfl⟩
      cases hnil
      exact ⟨trivial, rfl⟩
    · rintro ⟨-, hzero⟩
      exact ⟨[], rfl, hzero.symm⟩
  | lone => exact ⟨fun h => h.elim fun _ hno => hno.1.elim, fun h => h.2.elim⟩
  | hit n after =>
    constructor
    · rintro ⟨bs, ⟨hfits, hroom, hvalid, rfl⟩, hsize⟩
      rw [List.length_take_of_le hfits] at hsize
      exact ⟨.inl hfits, hsize, hroom, hvalid⟩
    · rintro ⟨hsound, rfl, hroom, hvalid⟩
      have hstop : Stops n after := by
        rcases hsound with hfits | hlong | hbad
        · exact .inl hfits
        · omega
        · exact .inr hbad
      have hfits := stops_valid hstop (List.all_eq_true.mpr hvalid)
      exact ⟨_, ⟨hfits, hroom, hvalid, rfl⟩, List.length_take_of_le hfits⟩

theorem inside_byteAfter (h : f.Placed p n after) :
    (f.byte (p + 2)).Inside f.InFrame ↔ after ≠ [] := by
  have hsize := h.size
  rw [← List.length_pos_iff]
  constructor
  · intro hin
    have hlt : p + 2 < f.len := hin _ List.mem_cons_self
    omega
  · intro hpos o ho
    rw [List.mem_singleton.mp ho]
    have hlt : p + 2 < f.len := by omega
    exact hlt

theorem yields_byteAfter {x : UInt8} (h : f.Placed p n after) :
    (f.byte (p + 2)).Yields f.InFrame x ↔ ∃ xs, after = x :: xs := by
  rw [Traced.Yields, inside_byteAfter h]
  constructor
  · rintro ⟨hne, hret⟩
    obtain ⟨y, ys, rfl⟩ := List.exists_cons_of_ne_nil hne
    have hy : f.image (p + 2) = y := h.holds 0 (Nat.succ_pos _)
    exact ⟨ys, by rw [← Option.some.inj hret, hy]⟩
  · rintro ⟨xs, rfl⟩
    exact ⟨List.cons_ne_nil _ _, congrArg some (h.holds 0 (Nat.succ_pos _))⟩

theorem inside_dsChannel (h : hdr3Addr ≤ f.len) (operCh : UInt8) :
    (f.dsChannel operCh).Inside f.InFrame ↔ ChannelSound f.body :=
  inside_lookup h
    (inside_lookup h (iff_of_true (inside_pure _) trivial) fun _ _ _ hp => inside_byteAfter hp)
    fun _ _ _ hp => inside_byteAfter hp

theorem yields_dsChannel (h : hdr3Addr ≤ f.len) {operCh x : UInt8} :
    (f.dsChannel operCh).Yields f.InFrame x ↔
      (seek eidDsset f.body).Leads
        ((seek eidHtAddInfo f.body).Leads (operCh = x) fun _ after => ∃ xs, after = x :: xs)
        fun _ after => ∃ xs, after = x :: xs :=
  yields_lookup h (yields_lookup h yields_pure fun _ _ _ hp => yields_byteAfter hp)
    fun _ _ _ hp => yields_byteAfter hp

theorem inside_checkMesh (h : hdr3Addr ≤ f.len) :
    f.checkMesh.Inside f.InFrame ↔ MeshSound f.body := by
  refine inside_lookup h ?_ fun p n after hp => ?_
  · exact inside_lookup h (iff_of_true (inside_pure _) trivial)
      fun _ _ _ _ => iff_of_true inside_fail trivial
  · refine (inside_lookup h ?_ fun q _ _ _ => ?_).trans leads_const
    · exact (inside_bind_quiet fun _ => inside_fail).trans (inside_takeSsid hp)
    · refine (inside_bind_quiet fun _ => ?_).trans (inside_takeSsid hp)
      dsimp only
      split
      · exact inside_fail
      · exact inside_pure _

theorem yields_checkMesh (h : hdr3Addr ≤ f.len) {r : InfrastructureMode × List UInt8} :
    f.checkMesh.Yields f.InFrame r ↔
      (seek eidMeshId f.body).Leads
        ((seek eidMeshConfig f.body).Leads ((.ibss, []) = r) fun _ _ => False)
        fun n after => (seek eidMeshConfig f.body).Leads False fun k _ =>
          n ≤ after.length ∧ n ≤ lengthSsid ∧ k = 7 ∧ (.mesh, after.take n) = r := by
  refine yields_lookup h ?_ fun p n after hp => ?_
  · exact yields_lookup h yields_pure fun _ _ _ _ => iff_of_false not_yields_fail fun h => h
  · refine yields_lookup h ?_ fun q k _ hq => ?_
    · refine iff_of_false (fun hyes => ?_) fun h => h
      obtain ⟨_, _, hno⟩ := yields_bind.mp hyes
      exact not_yields_fail hno
    · rw [yields_bind]
      dsimp only
      rw [hq.len]
      constructor
      · rintro ⟨s, hs, hr⟩
        obtain ⟨hfits, hshort, rfl⟩ := (yields_takeSsid hp).mp hs
        split at hr
        · exact absurd hr not_yields_fail
        · rename_i hseven
          exact ⟨hfits, hshort, not_not.mp hseven, yields_pure.mp hr⟩
      · rintro ⟨hfits, hshort, hseven, hr⟩
        refine ⟨_, (yields_takeSsid hp).mpr ⟨hfits, hshort, rfl⟩, ?_⟩
        rw [if_neg (not_not.mpr hseven)]
        exact yields_pure.mpr hr

theorem checkMesh_passes (h : hdr3Addr ≤ f.len) :
    (∃ r, f.checkMesh.Yields f.InFrame r) ↔ MeshSound f.body ∧ MeshTaken f.body := by
  simp only [yields_checkMesh h, MeshSound, MeshTaken]
  cases seek eidMeshId f.body with
  | miss =>
    cases seek eidMeshConfig f.body with
    | miss => exact ⟨fun _ => ⟨trivial, trivial⟩, fun _ => ⟨_, rfl⟩⟩
    | lone => exact ⟨fun h => h.elim fun _ hno => hno.elim, fun h => h.2.elim⟩
    | hit k after => exact ⟨fun h => h.elim fun _ hno => hno.elim, fun h => h.2.elim⟩
  | lone => exact ⟨fun h => h.elim fun _ hno => hno.elim, fun h => h.2.elim⟩
  | hit n after =>
    cases seek eidMeshConfig f.body with
    | miss => exact ⟨fun h => h.elim fun _ hno => hno.elim, fun h => h.2.2.elim⟩
    | lone => exact ⟨fun h => h.elim fun _ hno => hno.elim, fun h => h.2.2.elim⟩
    | hit k rest =>
      constructor
      · rintro ⟨r, hfits, hshort, hseven, -⟩
        exact ⟨⟨nofun, .inl hfits⟩, hshort, hseven⟩
      · rintro ⟨⟨-, hroom⟩, hshort, hseven⟩
        exact ⟨_, hroom.resolve_right (Nat.not_lt.mpr hshort), hshort, hseven, rfl⟩

theorem inside_within (h : o + n ≤ f.len) : (f.copy o n).Inside f.InFrame :=
  inside_copy.mpr (.inr h)

theorem inside_addr2 (h : hdr3Addr ≤ f.len) : f.addr2.Inside f.InFrame :=
  inside_within (Nat.le_trans (by decide) h)

theorem inside_addr3 (h : hdr3Addr ≤ f.len) : f.addr3.Inside f.InFrame :=
  inside_within (Nat.le_trans (by decide) h)

theorem inside_checkCapability (h : hdr3Addr ≤ f.len) (val16 : ℕ) :
    (f.checkCapability val16).Inside f.InFrame ↔ (val16 % 4 = 0 → MeshSound f.body) := by
  rw [checkCapability]
  split
  · refine iff_of_true ?_ fun hzero => by omega
    exact (inside_bind_quiet fun _ => inside_pure _).mpr (inside_addr2 h)
  · split
    · refine iff_of_true ?_ fun hzero => by omega
      exact (inside_bind_quiet fun _ => inside_pure _).mpr (inside_addr3 h)
    · split
      · rename_i hzero
        refine ((inside_bind_quiet fun _ => ?_).trans (inside_checkMesh h)).trans
          (imp_iff_right hzero).symm
        exact (inside_bind_quiet fun _ => inside_pure _).mpr (inside_addr3 h)
      · rename_i hother
        exact iff_of_true (inside_pure _) fun hzero => absurd hzero hother

theorem checkCapability_passes (h : hdr3Addr ≤ f.len) (val16 : ℕ) :
    (∃ r, (f.checkCapability val16).Yields f.InFrame r) ↔
      (val16 % 4 = 0 → MeshSound f.body) ∧ (val16 % 4 = 0 → MeshTaken f.body) := by
  rw [checkCapability]
  split
  · refine iff_of_true ?_ ⟨fun hzero => by omega, fun hzero => by omega⟩
    exact ⟨_, yields_bind.mpr ⟨_, ⟨inside_addr2 h, rfl⟩, yields_pure.mpr rfl⟩⟩
  · split
    · refine iff_of_true ?_ ⟨fun hzero => by omega, fun hzero => by omega⟩
      exact ⟨_, yields_bind.mpr ⟨_, ⟨inside_addr3 h, rfl⟩, yields_pure.mpr rfl⟩⟩
    · split
      · rename_i hzero
        rw [imp_iff_right hzero, imp_iff_right hzero, ← checkMesh_passes h]
        constructor
        · rintro ⟨r, hr⟩
          obtain ⟨mesh, hmesh, -⟩ := yields_bind.mp hr
          exact ⟨mesh, hmesh⟩
        · rintro ⟨⟨mode, meshId⟩, hmesh⟩
          have hmac : f.addr3.Yields f.InFrame (ByteMemory.read f.image 16 6) :=
            ⟨inside_addr3 h, rfl⟩
          exact ⟨(mode, _, meshId), yields_bind.mpr ⟨(mode, meshId), hmesh,
            yields_bind.mpr ⟨_, hmac, yields_pure.mpr rfl⟩⟩⟩
      · rename_i hother
        exact iff_of_true ⟨_, yields_pure.mpr rfl⟩
          ⟨fun hzero => absurd hzero hother, fun hzero => absurd hzero hother⟩

theorem inside_word : (f.word o).Inside f.InFrame ↔ o + 2 ≤ f.len := by
  constructor
  · intro hin
    have hlt : o + 1 < f.len := hin _ (List.mem_cons_of_mem _ List.mem_cons_self)
    exact hlt
  · intro hroom i hi
    have hnear : i ∈ [o, o + 1] := hi
    have hlt : i < f.len := by
      simp only [List.mem_cons, List.not_mem_nil, or_false] at hnear
      omega
    exact hlt

theorem inside_checkCoexistence (h : hdr3Addr ≤ f.len) (env : BssEnv) :
    (f.checkCoexistence env).Inside f.InFrame ↔ CoexistenceSound env f.body := by
  rw [checkCoexistence, CoexistenceSound]
  split
  · rename_i hon
    obtain ⟨hspec, hmode⟩ := Bool.and_eq_true_iff.mp hon
    rw [imp_iff_right hspec, imp_iff_right ((Bool.not_eq_true' _).mp hmode)]
    refine inside_lookup h (iff_of_true (inside_pure _) trivial) fun p n after hp => ?_
    have hsize := hp.size
    dsimp only
    rw [hp.len]
    split
    · rename_i hzero
      exact iff_of_true (inside_pure _) (.inl hzero)
    · rename_i hsome
      refine ((inside_bind_quiet fun _ => inside_pure _).trans inside_word).trans ?_
      rw [or_iff_right hsome]
      omega
  · rename_i hoff
    refine iff_of_true (inside_pure _) fun hspec hmode => absurd ?_ hoff
    rw [hspec, hmode]
    rfl

theorem inside_rmEnCap (h : hdr3Addr ≤ f.len) :
    f.rmEnCap.Inside f.InFrame ↔ RrmSound f.body := by
  refine inside_lookup h (iff_of_true (inside_pure _) trivial) fun p n after hp => ?_
  have hsize := hp.size
  refine inside_copy.trans ?_
  rw [hp.len]
  omega

theorem inside_timestamp (h : 36 < f.len) : f.timestamp.Inside f.InFrame :=
  (inside_bind_quiet fun _ => inside_pure _).mpr
    (inside_within (Nat.le_of_lt (Nat.lt_of_le_of_lt (by decide) h)))

theorem total_dsChannel (operCh : UInt8) : (f.dsChannel operCh).Total := by
  refine Traced.total_bind Traced.total_read fun r => ?_
  cases r with
  | some p => exact Traced.total_read
  | none =>
    refine Traced.total_bind Traced.total_read fun r => ?_
    cases r with
    | some p => exact Traced.total_read
    | none => exact Traced.total_pure

theorem total_checkCoexistence (env : BssEnv) : (f.checkCoexistence env).Total := by
  rw [checkCoexistence]
  split
  · refine Traced.total_bind Traced.total_read fun r => ?_
    cases r with
    | none => exact Traced.total_pure
    | some p =>
      dsimp only
      split
      · exact Traced.total_pure
      · exact Traced.total_bind Traced.total_read fun _ => Traced.total_pure
  · exact Traced.total_pure

def capability (f : RxAnnounce) : ℕ := le16 f.mem (f.rxData + (hdr3Addr + 10))

def InfoSound (env : BssEnv) (f : RxAnnounce) : Prop :=
  ChannelSound f.body ∧ (f.capability % 4 = 0 → MeshSound f.body) ∧
    ((f.capability % 4 = 0 → MeshTaken f.body) →
      CoexistenceSound env f.body ∧ RrmSound f.body)

theorem image_word (h : o + 1 < f.len) : le16 f.image o = le16 f.mem (f.rxData + o) := by
  rw [le16, le16, image, image, if_pos h, if_pos (Nat.lt_of_succ_lt h), Nat.add_assoc]

theorem inside_announceInfo (h : 36 < f.len) (env : BssEnv) (ies ssid rates : List UInt8) :
    (announceInfo env f ies ssid rates).Inside f.InFrame ↔ f.InfoSound env := by
  have h24 : hdr3Addr ≤ f.len := Nat.le_of_lt (Nat.lt_of_le_of_lt (by decide) h)
  have hcap : le16 f.image (hdr3Addr + 10) = f.capability := image_word (Nat.lt_of_succ_lt h)
  have hword (o : ℕ) (ho : o + 2 ≤ 36) : ∀ i ∈ [o, o + 1], f.InFrame i :=
    inside_word.mpr (Nat.le_of_lt (Nat.lt_of_le_of_lt ho h))
  refine inside_then (total_dsChannel _) (inside_dsChannel h24 _) fun _ _ => ?_
  refine inside_read_bind.trans ((and_iff_right (hword _ (by decide))).trans ?_)
  refine inside_read_bind.trans ((and_iff_right (hword _ (by decide))).trans ?_)
  rw [hcap]
  refine inside_gate (inside_checkCapability h24 _) (checkCapability_passes h24 _) fun _ _ => ?_
  refine inside_then (total_checkCoexistence env) (inside_checkCoexistence h24 env) fun _ _ => ?_
  refine (inside_bind_quiet fun _ => ?_).trans (inside_rmEnCap h24)
  exact (inside_bind_quiet fun _ => inside_pure _).mpr (inside_timestamp h)

def Sound (env : BssEnv) (f : RxAnnounce) : Prop :=
  hdr3Addr ≤ f.len ∧ (asInt f.ieLength ≤ (maxIeSz : ℤ) →
    SsidSound f.body ∧ (SsidTaken f.body →
      RatesSound eidSupportedRates lengthRatesEx f.body ∧
        ∀ i, RatesTaken eidSupportedRates lengthRatesEx f.body i →
          RatesSound eidExtSupportedRates (lengthRatesEx - i) f.body ∧
            ((∃ j, RatesTaken eidExtSupportedRates (lengthRatesEx - i) f.body j) →
              f.InfoSound env)))

theorem inside_ies : (f.copy hdr3Addr f.ieLength).Inside f.InFrame ↔ hdr3Addr ≤ f.len := by
  have hlt := f.u32
  rw [inside_copy, ieLength, u32Sub]
  split
  · rename_i hle
    exact iff_of_true (.inr (by omega)) hle
  · rename_i hshort
    rw [hdr3Addr] at hshort ⊢
    exact iff_of_false (by omega) hshort

theorem short_ieLength (h : f.len < hdr3Addr) : asInt f.ieLength ≤ (maxIeSz : ℤ) :=
  Int.le_trans (Int.le_of_lt (Ie.u32Sub_short h (by decide))) (Int.natCast_nonneg _)

theorem taken_long (h : hdr3Addr ≤ f.len) (htaken : SsidTaken f.body) : 36 < f.len := by
  cases tlvLimit_len h with
  | inl hzero =>
    have hnil : f.body = [] := by rw [body, hzero]; rfl
    rw [SsidTaken, hnil, seek_nil] at htaken
    exact htaken.elim
  | inr hfull =>
    cases Nat.eq_zero_or_pos f.tlvLimit.toNat with
    | inl hzero =>
      have hnil : f.body = [] := by rw [body, hzero]; rfl
      rw [SsidTaken, hnil, seek_nil] at htaken
      exact htaken.elim
    | inr hpos =>
      rw [tlvIes_eq] at hfull
      omega

theorem ieLength_eq (h : hdr3Addr ≤ f.len) : f.ieLength = f.len - hdr3Addr := Ie.u32Sub_of_le h

theorem inside_collectBssInfo (env : BssEnv) :
    (collectBssInfo env f).Inside f.InFrame ↔ f.Sound env := by
  rw [collectBssInfo, Sound]
  split
  · rename_i hlong
    refine iff_of_true inside_fail ⟨Nat.not_lt.mp fun hshort => ?_, fun hle => ?_⟩
    · exact absurd hlong (Int.not_lt.mpr (short_ieLength hshort))
    · exact absurd hlong (Int.not_lt.mpr hle)
  · rename_i hfits
    rw [imp_iff_right (Int.not_lt.mp hfits)]
    cases Nat.lt_or_ge f.len hdr3Addr with
    | inl hshort =>
      refine iff_of_false (fun hin => ?_) fun hsound => absurd hsound.1 (Nat.not_le.mpr hshort)
      have hies := inside_ies.mp (inside_read_bind.mp (inside_read_bind.mp hin).2).1
      exact absurd hies (Nat.not_le.mpr hshort)
    | inr h =>
      rw [and_iff_right h]
      have hword : (f.word 0).Inside f.InFrame := inside_word.mpr (Nat.le_trans (by decide) h)
      refine inside_read_bind.trans ((and_iff_right hword).trans ?_)
      refine inside_read_bind.trans ((and_iff_right (inside_ies.mpr h)).trans ?_)
      refine inside_gate (inside_checkSsid h) (checkSsid_passes h) fun ssid hssid => ?_
      have hlong := taken_long h ((checkSsid_passes h).mp ⟨ssid, hssid⟩).2
      have hroom : ¬ f.ieLength < 12 := by
        rw [ieLength_eq h, hdr3Addr]
        omega
      refine inside_step List.length (inside_checkRates h) (checkRates_passes h) fun rates _ => ?_
      refine inside_gate (inside_checkRates h) ?_ fun extRates _ => ?_
      · refine ⟨fun ⟨bs, hbs⟩ => ?_, fun ⟨hsound, j, hj⟩ => ?_⟩
        · have hpass := (checkRates_passes h bs.length).mp ⟨bs, hbs, rfl⟩
          exact ⟨hpass.1, _, hpass.2⟩
        · obtain ⟨bs, hbs, -⟩ := (checkRates_passes h j).mpr ⟨hsound, hj⟩
          exact ⟨bs, hbs⟩
      · rw [if_neg hroom]
        exact inside_announceInfo hlong env _ _ _

def elements (f : RxAnnounce) : List UInt8 :=
  read f.mem (f.rxData + (hdr3Addr + 12)) (f.len - (hdr3Addr + 12))

end RxAnnounce

def ratesOf (b : List UInt8) : List UInt8 :=
  (first eidSupportedRates b).getD [] ++ (first eidExtSupportedRates b).getD []

def channelOf (b : List UInt8) : Option UInt8 :=
  if seek eidDsset b = .miss then (seek eidHtAddInfo b).byte else (seek eidDsset b).byte

structure Faithful (f : RxAnnounce) (b : BssInfo) : Prop where
  ieLength : b.ieLength = f.len - hdr3Addr
  ies : b.ies = read f.mem (f.rxData + hdr3Addr) (f.len - hdr3Addr)
  ssid : first eidSsid f.elements = some b.ssid
  short : b.ssid.length ≤ lengthSsid
  rates : b.supportedRates = zeroFill lengthRatesEx (ratesOf f.elements)
  room : (ratesOf f.elements).length ≤ lengthRatesEx
  dsConfig : ∀ x ∈ channelOf f.elements, b.dsConfig = x

def Right (env : BssEnv) (f : RxAnnounce) : Prop :=
  (collectBssInfo env f).Inside f.InFrame ∧
    ∀ b, (collectBssInfo env f).ret = some b → Faithful f b

namespace RxAnnounce

variable {f : RxAnnounce} {env : BssEnv} {b : BssInfo} {ies ssid rates : List UInt8}

structure Filled (env : BssEnv) (f : RxAnnounce) (ies ssid rates : List UInt8) (b : BssInfo) :
    Prop where
  ieLength : b.ieLength = f.ieLength
  ies : b.ies = ies
  ssid : b.ssid = ssid
  rates : b.supportedRates = zeroFill lengthRatesEx rates
  channel : (f.dsChannel env.operCh).Yields f.InFrame b.dsConfig

theorem announceInfo_filled (h : (announceInfo env f ies ssid rates).Yields f.InFrame b) :
    Filled env f ies ssid rates b := by
  obtain ⟨ds, hds, h⟩ := yields_bind.mp h
  obtain ⟨_, _, h⟩ := yields_bind.mp h
  obtain ⟨_, _, h⟩ := yields_bind.mp h
  obtain ⟨_, _, h⟩ := yields_bind.mp h
  obtain ⟨_, _, h⟩ := yields_bind.mp h
  obtain ⟨_, _, h⟩ := yields_bind.mp h
  obtain ⟨_, _, h⟩ := yields_bind.mp h
  obtain rfl := yields_pure.mp h
  exact ⟨rfl, rfl, rfl, rfl, hds⟩

theorem ssid_first (h : hdr3Addr ≤ f.len) (hy : f.checkSsid.Yields f.InFrame ssid) :
    first eidSsid f.body = some ssid ∧ ssid.length ≤ lengthSsid := by
  have hleads := (yields_checkSsid h).mp hy
  rw [first]
  cases hsought : seek eidSsid f.body with
  | miss => exact (hsought ▸ hleads).elim
  | lone => exact (hsought ▸ hleads).elim
  | hit n after =>
    rw [hsought] at hleads
    obtain ⟨hfits, hshort, rfl⟩ := hleads
    rw [Sought.whole, if_pos hfits, List.length_take_of_le hfits]
    exact ⟨rfl, hshort⟩

theorem rates_first {id : UInt8} {room : ℕ} (h : hdr3Addr ≤ f.len)
    (hy : (f.checkRates id room).Yields f.InFrame rates) :
    (first id f.body).getD [] = rates ∧ rates.length ≤ room := by
  have hleads := (yields_checkRates h).mp hy
  rw [first]
  cases hsought : seek id f.body with
  | miss =>
    rw [hsought] at hleads
    cases hleads
    exact ⟨rfl, Nat.zero_le _⟩
  | lone => exact (hsought ▸ hleads).elim
  | hit n after =>
    rw [hsought] at hleads
    obtain ⟨hfits, hroom, -, rfl⟩ := hleads
    rw [Sought.whole, if_pos hfits, List.length_take_of_le hfits]
    exact ⟨rfl, hroom⟩

theorem byte_head {s : Sought} {A : Prop} {x y : UInt8}
    (h : s.Leads A fun _ after => ∃ xs, after = y :: xs) (hx : s.byte = some x) : y = x := by
  cases s with
  | miss => exact absurd hx nofun
  | lone => exact h.elim
  | hit n after =>
    obtain ⟨xs, rfl⟩ := h
    rw [Sought.byte] at hx
    split at hx
    · exact absurd hx nofun
    · exact Option.some.inj hx

theorem channel_of {operCh x y : UInt8} (h : hdr3Addr ≤ f.len)
    (hy : (f.dsChannel operCh).Yields f.InFrame y) (hx : channelOf f.body = some x) : y = x := by
  have hleads := (yields_dsChannel h).mp hy
  rw [channelOf] at hx
  cases hsought : seek eidDsset f.body with
  | miss =>
    rw [hsought, if_pos rfl] at hx
    rw [hsought] at hleads
    have hother : (seek eidHtAddInfo f.body).Leads (operCh = y) fun _ after =>
      ∃ xs, after = y :: xs := hleads
    exact byte_head hother hx
  | lone =>
    rw [hsought] at hleads
    exact hleads.elim
  | hit n after =>
    rw [hsought, if_neg nofun] at hx
    rw [hsought] at hleads
    exact byte_head hleads hx

theorem read_image {o n : ℕ} (h : o + n ≤ f.len) :
    ByteMemory.read f.image o n = ByteMemory.read f.mem (f.rxData + o) n := by
  refine List.map_congr_left fun i hi => ?_
  rw [image, if_pos (by rw [List.mem_range] at hi; omega), Nat.add_assoc]

theorem body_elements (h : hdr3Addr ≤ f.len) (htaken : SsidTaken f.body) : f.body = f.elements := by
  have hlong := taken_long h htaken
  have hsize : f.tlvLimit.toNat = f.len - (hdr3Addr + 12) := by
    cases tlvLimit_len h with
    | inl hzero =>
      have hnil : f.body = [] := by rw [body, hzero]; rfl
      rw [SsidTaken, hnil, seek_nil] at htaken
      exact htaken.elim
    | inr hfull =>
      rw [tlvIes_eq] at hfull
      rw [hdr3Addr]
      omega
  rw [body, elements, hsize, tlvIes_eq]
  rfl

theorem collectBssInfo_faithful (h : (collectBssInfo env f).Yields f.InFrame b) :
    Faithful f b := by
  rw [collectBssInfo] at h
  split at h
  · exact absurd h not_yields_fail
  · obtain ⟨_, _, h⟩ := yields_bind.mp h
    obtain ⟨ies, hies, h⟩ := yields_bind.mp h
    obtain ⟨ssid, hssid, h⟩ := yields_bind.mp h
    obtain ⟨rates, hrates, h⟩ := yields_bind.mp h
    obtain ⟨extRates, hext, h⟩ := yields_bind.mp h
    split at h
    · exact absurd h not_yields_fail
    · have h24 := inside_ies.mp hies.1
      have htaken := ((checkSsid_passes h24).mp ⟨ssid, hssid⟩).2
      have hfilled := announceInfo_filled h
      obtain ⟨hfirst, hshort⟩ := ssid_first h24 hssid
      obtain ⟨hrate, hroom⟩ := rates_first h24 hrates
      obtain ⟨hextRate, hextRoom⟩ := rates_first h24 hext
      have hall : ratesOf f.body = rates ++ extRates := by rw [ratesOf, hrate, hextRate]
      constructor
      · exact hfilled.ieLength.trans (ieLength_eq h24)
      · rw [hfilled.ies, ← (yields_copy.mp hies).2, ieLength_eq h24]
        exact read_image (by omega)
      · rw [← body_elements h24 htaken, hfilled.ssid]
        exact hfirst
      · rw [hfilled.ssid]
        exact hshort
      · rw [← body_elements h24 htaken, hfilled.rates, hall]
      · rw [← body_elements h24 htaken, hall, List.length_append]
        omega
      · rw [← body_elements h24 htaken]
        exact fun x hx => channel_of h24 hfilled.channel hx

end RxAnnounce

theorem scan_result_law (env : BssEnv) (f : RxAnnounce) : Right env f ↔ f.Sound env := by
  rw [← RxAnnounce.inside_collectBssInfo]
  refine and_iff_left_of_imp fun hin b hb => ?_
  exact RxAnnounce.collectBssInfo_faithful ⟨hin, hb⟩

def cutSsidBytes : List UInt8 :=
  [0x80, 0, 0, 0] ++ List.replicate 30 0 ++ [1, 0] ++ [0, 8, 0x61, 0x62]

def cutSsid : RxAnnounce where
  mem o := cutSsidBytes.getD o 0
  rxData := 0
  len := 40
  subtype := .beacon
  phy := ⟨-40, 80, 80, 4, [30], 7⟩
  typed := by decide
  u32 := by decide

def scanEnv : BssEnv := ⟨1, 6, false, false⟩

theorem cut_ssid_read_past : ¬ Right scanEnv cutSsid := by
  intro h
  have hpast : 40 ∈ (collectBssInfo scanEnv cutSsid).reads := by decide +kernel
  exact absurd (h.1 40 hpast) (Nat.lt_irrefl 40)

end Scan
