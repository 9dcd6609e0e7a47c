import Rtl8188fu.Cam.MacidAlloc

namespace Cam

open Recv (MacAddr localAddr)

def nullMac : MacAddr := Vector.replicate 6 0

structure SecCamEnt where
  ctrl : BitVec 16
  mac : MacAddr
  key : List UInt8

structure CamCaller where
  apOrAdhoc : Bool
  assocSuccess : Bool
  macAddr : MacAddr
  bssid : MacAddr

structure SecCam where
  chkBmc : Bool
  used : SecCamBmp
  cache : ℕ → SecCamEnt

namespace SecCamEnt

def cleared : SecCamEnt := ⟨0, nullMac, List.replicate 16 0⟩

def kid (e : SecCamEnt) : ℕ := (e.ctrl &&& 3#16).toNat

def gk (e : SecCamEnt) : Bool := e.ctrl.getLsbD 6

end SecCamEnt

namespace SecCam

def writeCamCache (c : SecCam) (id : ℕ) (ctrl : BitVec 16) (mac : MacAddr) (key : List UInt8) :
    SecCam :=
  { c with cache := Function.update c.cache id ⟨ctrl, mac, key.take 16⟩ }

def clearCamEntry (c : SecCam) (id : ℕ) : SecCam :=
  { c with cache := Function.update c.cache id SecCamEnt.cleared }

def writeCam (c : SecCam) (id : ℕ) (ctrl : BitVec 16) (mac : MacAddr) (key : List UInt8) :
    SecCam :=
  if ctrl.getLsbD 9 then
    (c.writeCamCache id ctrl mac key).writeCamCache (id + 1) (ctrl ||| 32#16) mac (key.drop 16)
  else c.writeCamCache id ctrl mac key

def camidIsGk (c : SecCam) (id : ℕ) : Bool :=
  rtwSecCamidIsUsed c.used id && (c.cache id).gk

def camCacheChk (c : SecCam) (id : ℕ) (addr : MacAddr) (kid : ℕ) (gk : Option Bool) : Bool :=
  (c.cache id).mac == addr && (kid == (c.cache id).kid && gk.all (· == c.camidIsGk id))

def camidSearch (c : SecCam) (addr : MacAddr) (kid : ℕ) (gk : Option Bool) : Option ℕ :=
  (List.range camNum).find? fun i => c.camCacheChk i addr kid gk

def searchGk (c : SecCam) (gk : Bool) : Option Bool := if c.chkBmc then some gk else none

def hasRoom (c : SecCam) (extSec : Bool) (i : ℕ) : Bool :=
  !rtwSecCamidIsUsed c.used i &&
    (!extSec || (decide (i + 1 < camNum) && !rtwSecCamidIsUsed c.used (i + 1)))

def rtwGetCamid (c : SecCam) (addr : MacAddr) (kid : ℕ) (gk extSec : Bool) : Option ℕ :=
  match c.camidSearch addr kid (c.searchGk gk) with
  | some i => some i
  | none => (List.range camNum).find? (c.hasRoom extSec)

def takeSlots (c : SecCam) (id : ℕ) (extSec : Bool) : SecCam :=
  let used := Bitmap.insert c.used id
  { c with used := if extSec then Bitmap.insert used (id + 1) else used }

def keyAddr (a : CamCaller) (sta : Option MacAddr) : Option MacAddr :=
  match sta with
  | some mac => some mac
  | none => if a.apOrAdhoc then some a.macAddr else if a.assocSuccess then some a.bssid else none

def camidFor (c : SecCam) (a : CamCaller) (sta : Option MacAddr) (kid : ℕ) (gk extSec : Bool) :
    Option ℕ :=
  (keyAddr a sta).bind fun addr => c.rtwGetCamid addr kid gk extSec

def rtwCamidAlloc (c : SecCam) (a : CamCaller) (sta : Option MacAddr) (kid : ℕ)
    (gk extSec : Bool) : SecCam × Option ℕ × Bool :=
  match c.camidFor a sta kid gk extSec with
  | none => (c, none, false)
  | some id => (c.takeSlots id extSec, some id, rtwSecCamidIsUsed c.used id)

def rtwCamidFree (c : SecCam) (id : ℕ) : SecCam :=
  if id < camNum then { c with used := Bitmap.erase c.used id } else c

end SecCam

theorem isUsed_iff {used : SecCamBmp} {id : ℕ} (h : id < camNum) :
    rtwSecCamidIsUsed used id = Bitmap.isSet used id := by
  simp [rtwSecCamidIsUsed, Nat.not_le.mpr h]

namespace SecCamEnt

theorem kid_second (ctrl : BitVec 16) (mac : MacAddr) (key key' : List UInt8) :
    kid ⟨ctrl ||| 32#16, mac, key'⟩ = kid ⟨ctrl, mac, key⟩ := by
  have hand : (ctrl ||| 32#16) &&& 3#16 = ctrl &&& 3#16 := by
    rw [BitVec.and_comm, BitVec.and_or_distrib_left, BitVec.and_comm 3#16 ctrl]
    simp
  simp only [kid, hand]

theorem gk_second (ctrl : BitVec 16) (mac : MacAddr) (key key' : List UInt8) :
    gk ⟨ctrl ||| 32#16, mac, key'⟩ = gk ⟨ctrl, mac, key⟩ := by
  have hbit : (32#16).getLsbD 6 = false := by decide
  simp only [gk, BitVec.getLsbD_or, hbit, Bool.or_false]

end SecCamEnt

namespace SecCam

variable {c : SecCam} {id : ℕ}

theorem writeCam_single (c : SecCam) (id : ℕ) {ctrl : BitVec 16} (mac : MacAddr)
    (key : List UInt8) (h : ctrl.getLsbD 9 = false) :
    c.writeCam id ctrl mac key = c.writeCamCache id ctrl mac key := by
  simp only [writeCam, h, Bool.false_eq_true, if_false]

theorem writeCam_extended (c : SecCam) (id : ℕ) {ctrl : BitVec 16} (mac : MacAddr)
    (key : List UInt8) (h : ctrl.getLsbD 9 = true) :
    c.writeCam id ctrl mac key =
      (c.writeCamCache id ctrl mac key).writeCamCache (id + 1) (ctrl ||| 32#16) mac
        (key.drop 16) := by
  simp only [writeCam, h, if_true]

@[simp] theorem writeCam_used (c : SecCam) (id : ℕ) (ctrl : BitVec 16) (mac : MacAddr)
    (key : List UInt8) : (c.writeCam id ctrl mac key).used = c.used := by
  cases hext : ctrl.getLsbD 9 with
  | false => rw [writeCam_single c id mac key hext]; rfl
  | true => rw [writeCam_extended c id mac key hext]; rfl

@[simp] theorem writeCam_chkBmc (c : SecCam) (id : ℕ) (ctrl : BitVec 16) (mac : MacAddr)
    (key : List UInt8) : (c.writeCam id ctrl mac key).chkBmc = c.chkBmc := by
  cases hext : ctrl.getLsbD 9 with
  | false => rw [writeCam_single c id mac key hext]; rfl
  | true => rw [writeCam_extended c id mac key hext]; rfl

theorem camCacheChk_iff {addr : MacAddr} {kid : ℕ} {gk : Option Bool} :
    c.camCacheChk id addr kid gk = true ↔
      (c.cache id).mac = addr ∧ (c.cache id).kid = kid ∧ ∀ g ∈ gk, c.camidIsGk id = g := by
  have hkid : kid = (c.cache id).kid ↔ (c.cache id).kid = kid := eq_comm
  have hgk : gk.all (· == c.camidIsGk id) = true ↔ ∀ g ∈ gk, c.camidIsGk id = g := by
    cases gk with
    | none => simp
    | some g =>
      simp only [Option.all_some, beq_iff_eq, Option.mem_some_iff, forall_eq']
      exact eq_comm
  simp only [camCacheChk, Bool.and_eq_true, beq_iff_eq, hkid, hgk]

theorem mem_searchGk {g gk : Bool} : g ∈ c.searchGk gk ↔ c.chkBmc = true ∧ g = gk := by
  cases hc : c.chkBmc with
  | false => simp [searchGk, hc]
  | true =>
    simp only [searchGk, hc, if_true, Option.mem_some_iff, true_and]
    exact eq_comm

theorem camidSearch_some {addr : MacAddr} {kid : ℕ} {gk : Option Bool}
    (h : c.camidSearch addr kid gk = some id) :
    id < camNum ∧ c.camCacheChk id addr kid gk = true ∧
      ∀ j < id, c.camCacheChk j addr kid gk = false := by
  obtain ⟨hchk, hid, hmin⟩ := List.find?_range_eq_some.mp h
  exact ⟨List.mem_range.mp hid, hchk, fun j hj => by simpa using hmin j hj⟩

theorem camidSearch_isSome {addr : MacAddr} {kid : ℕ} {gk : Option Bool} (hid : id < camNum)
    (h : c.camCacheChk id addr kid gk = true) : ∃ j ≤ id, c.camidSearch addr kid gk = some j := by
  cases hs : c.camidSearch addr kid gk with
  | none => exact absurd h (List.find?_eq_none.mp hs id (List.mem_range.mpr hid))
  | some j =>
    obtain ⟨-, -, hmin⟩ := camidSearch_some hs
    refine ⟨j, ?_, rfl⟩
    by_contra hlt
    exact absurd h (by simp [hmin id (by omega)])

theorem rtwGetCamid_cases {addr : MacAddr} {kid : ℕ} {gk extSec : Bool}
    (h : c.rtwGetCamid addr kid gk extSec = some id) :
    id < camNum ∧ (c.camidSearch addr kid (c.searchGk gk) = some id ∨
      c.camidSearch addr kid (c.searchGk gk) = none ∧ Bitmap.isSet c.used id = false ∧
        (extSec = true → id + 1 < camNum ∧ Bitmap.isSet c.used (id + 1) = false)) := by
  simp only [rtwGetCamid] at h
  cases hs : c.camidSearch addr kid (c.searchGk gk) with
  | some i =>
    rw [hs] at h
    obtain rfl := Option.some.inj h
    exact ⟨(camidSearch_some hs).1, .inl rfl⟩
  | none =>
    rw [hs] at h
    have hid := List.mem_range.mp (List.mem_of_find?_eq_some h)
    have hroom := List.find?_some h
    simp only [hasRoom, Bool.and_eq_true, Bool.not_eq_true', Bool.or_eq_true,
      decide_eq_true_eq, isUsed_iff hid] at hroom
    refine ⟨hid, .inr ⟨rfl, hroom.1, fun hext => ?_⟩⟩
    rcases hroom.2 with hsingle | ⟨hnext, hfree⟩
    · exact absurd (hsingle.symm.trans hext) Bool.false_ne_true
    · exact ⟨hnext, (isUsed_iff hnext).symm.trans hfree⟩

end SecCam


structure CamKey where
  addr : MacAddr
  kid : ℕ
  gk : Bool
deriving DecidableEq

def SecCamEnt.camKey (e : SecCamEnt) : CamKey := ⟨e.mac, e.kid, e.gk⟩

inductive CamEvent where
  | alloc (a : CamCaller) (sta : Option MacAddr) (kid : ℕ) (gk extSec : Bool)
  | write (id : ℕ) (ctrl : BitVec 16) (mac : MacAddr) (key : List UInt8)
  | clear (id : ℕ)
  | free (id : ℕ)

structure CamSys where
  cam : SecCam
  granted : List (CamKey × ℕ)
  held : List (CamKey × ℕ)

def slots (id : ℕ) (extSec : Bool) : List ℕ := if extSec then [id, id + 1] else [id]

def occupy (k : CamKey) (id : ℕ) (extSec : Bool) : List (CamKey × ℕ) :=
  (slots id extSec).map fun i => (k, i)

def CamKey.Alike (chkBmc : Bool) (k k' : CamKey) : Prop :=
  k.addr = k'.addr ∧ k.kid = k'.kid ∧ (chkBmc = true → k.gk = k'.gk)

def writtenKey (ctrl : BitVec 16) (mac : MacAddr) : CamKey :=
  ⟨mac, (ctrl &&& 3#16).toNat, ctrl.getLsbD 6⟩

namespace CamSys

def init (chkBmc : Bool) : CamSys where
  cam := ⟨chkBmc, 0, fun _ => SecCamEnt.cleared⟩
  granted := []
  held := []

def grant (s : CamSys) (cam : SecCam) (k : CamKey) (id : ℕ) (extSec : Bool) : CamSys :=
  { s with cam := cam, granted := occupy k id extSec ++ s.granted }

def step (s : CamSys) : CamEvent → CamSys
  | .alloc a sta kid gk extSec =>
    let r := s.cam.rtwCamidAlloc a sta kid gk extSec
    match SecCam.keyAddr a sta, r.2.1 with
    | some addr, some id => s.grant r.1 ⟨addr, kid, gk⟩ id extSec
    | _, _ => { s with cam := r.1 }
  | .write id ctrl mac key =>
    { s with
      cam := s.cam.writeCam id ctrl mac key
      held := occupy (writtenKey ctrl mac) id (ctrl.getLsbD 9) ++ s.held }
  | .clear id =>
    { s with cam := s.cam.clearCamEntry id, held := s.held.filter (·.2 ≠ id) }
  | .free id =>
    if id < camNum then
      ⟨s.cam.rtwCamidFree id, s.granted.filter (·.2 ≠ id), s.held.filter (·.2 ≠ id)⟩
    else s

def Called (s : CamSys) : CamEvent → Prop
  | .alloc a sta kid _ _ => ∀ addr ∈ SecCam.keyAddr a sta, addr ≠ nullMac ∧ kid < 4
  | .write _ ctrl mac _ => s.cam.chkBmc = false → ∀ p ∈ s.held,
      p.1.addr = mac → p.1.kid = (writtenKey ctrl mac).kid → p.1.gk = (writtenKey ctrl mac).gk
  | .clear _ => True
  | .free id => id < camNum → (s.cam.cache id).mac = nullMac

def Clean (s : CamSys) : CamEvent → Prop
  | .alloc a sta kid gk extSec => extSec = true → ∀ addr ∈ SecCam.keyAddr a sta,
      ∀ id ∈ s.cam.camidSearch addr kid (s.cam.searchGk gk),
        id + 1 < camNum ∧ (Bitmap.isSet s.cam.used (id + 1) = false ∨
          s.cam.camCacheChk (id + 1) addr kid (s.cam.searchGk gk) = true)
  | .write id ctrl mac _ =>
      ∀ i ∈ slots id (ctrl.getLsbD 9), (writtenKey ctrl mac, i) ∈ s.granted
  | .clear _ => True
  | .free _ => True

instance calledDecidable (s : CamSys) : (ev : CamEvent) → Decidable (s.Called ev)
  | .alloc _ _ _ _ _ => Option.decidableForallMem ..
  | .write _ _ _ _ => inferInstanceAs (Decidable (_ → _))
  | .clear _ => .isTrue trivial
  | .free _ => inferInstanceAs (Decidable (_ → _))

instance cleanDecidable (s : CamSys) : (ev : CamEvent) → Decidable (s.Clean ev)
  | .alloc _ _ _ _ _ =>
    have (o : Option MacAddr) (p : MacAddr → Prop) [DecidablePred p] :
      Decidable (∀ addr ∈ o, p addr) := Option.decidableForallMem ..
    have (o : Option ℕ) (p : ℕ → Prop) [DecidablePred p] :
      Decidable (∀ id ∈ o, p id) := Option.decidableForallMem ..
    inferInstanceAs (Decidable (_ → _))
  | .write _ _ _ _ => inferInstanceAs (Decidable (∀ i ∈ _, _))
  | .clear _ => .isTrue trivial
  | .free _ => .isTrue trivial

structure Sound (s : CamSys) : Prop where
  disjoint : ∀ p ∈ s.held, ∀ q ∈ s.held, p.2 = q.2 → p.1 = q.1
  below : ∀ p ∈ s.held, p.2 < camNum

def Exact (s : CamSys) : CamEvent → Prop
  | .alloc a sta kid gk extSec =>
    (∀ id, (s.cam.rtwCamidAlloc a sta kid gk extSec).2.1 = some id →
      id < camNum ∧ (extSec = true → id + 1 < camNum)) ∧
    ∀ addr, SecCam.keyAddr a sta = some addr → (∃ i, (⟨addr, kid, gk⟩, i) ∈ s.held) →
      ∃ id, (s.cam.rtwCamidAlloc a sta kid gk extSec).2.1 = some id ∧
        (⟨addr, kid, gk⟩, id) ∈ s.held ∧ (∀ i, (⟨addr, kid, gk⟩, i) ∈ s.held → id ≤ i) ∧
        ∀ i ∈ slots id extSec, ∀ k, (k, i) ∈ s.held → k = ⟨addr, kid, gk⟩
  | .write _ _ _ _ => True
  | .clear _ => True
  | .free _ => True

structure Inv (s : CamSys) : Prop where
  range : ∀ k i, (k, i) ∈ s.granted →
    i < camNum ∧ Bitmap.isSet s.cam.used i = true ∧ k.addr ≠ nullMac
  stored : ∀ k i, (k, i) ∈ s.held → (k, i) ∈ s.granted ∧ (s.cam.cache i).camKey = k
  live : ∀ i < camNum, (s.cam.cache i).mac ≠ nullMac → ((s.cam.cache i).camKey, i) ∈ s.held
  same : ∀ k k' i, (k, i) ∈ s.granted → (k', i) ∈ s.granted → k.Alike s.cam.chkBmc k'
  kind : s.cam.chkBmc = false → ∀ k k' i j, (k, i) ∈ s.held → (k', j) ∈ s.held →
    k.addr = k'.addr → k.kid = k'.kid → k.gk = k'.gk

end CamSys

@[simp] theorem mem_slots_self (id : ℕ) (extSec : Bool) : id ∈ slots id extSec := by
  cases extSec with
  | false => exact List.mem_singleton_self id
  | true => exact List.mem_cons_self

theorem mem_slots {id i : ℕ} {extSec : Bool} :
    i ∈ slots id extSec ↔ i = id ∨ extSec = true ∧ i = id + 1 := by
  cases extSec with
  | false => simp [slots]
  | true => simp [slots]

theorem mem_occupy {k k' : CamKey} {id i : ℕ} {extSec : Bool} :
    (k', i) ∈ occupy k id extSec ↔ k' = k ∧ i ∈ slots id extSec := by
  simp only [occupy, List.mem_map, Prod.mk.injEq]
  constructor
  · rintro ⟨j, hj, rfl, rfl⟩
    exact ⟨rfl, hj⟩
  · rintro ⟨rfl, hi⟩
    exact ⟨i, hi, rfl, rfl⟩

namespace CamKey

variable {chkBmc : Bool} {k k' k'' : CamKey}

theorem Alike.refl (k : CamKey) : k.Alike chkBmc k := ⟨rfl, rfl, fun _ => rfl⟩

theorem Alike.symm (h : k.Alike chkBmc k') : k'.Alike chkBmc k :=
  ⟨h.1.symm, h.2.1.symm, fun hc => (h.2.2 hc).symm⟩

theorem Alike.trans (h : k.Alike chkBmc k') (h' : k'.Alike chkBmc k'') : k.Alike chkBmc k'' :=
  ⟨h.1.trans h'.1, h.2.1.trans h'.2.1, fun hc => (h.2.2 hc).trans (h'.2.2 hc)⟩

theorem ext_of {k k' : CamKey} (haddr : k.addr = k'.addr) (hkid : k.kid = k'.kid)
    (hgk : k.gk = k'.gk) : k = k' := by
  cases k
  cases k'
  simp only at haddr hkid hgk
  rw [haddr, hkid, hgk]

end CamKey

namespace SecCam

theorem isSet_takeSlots {c : SecCam} {id : ℕ} {extSec : Bool}
    (h : ∀ i ∈ slots id extSec, i < camNum) (j : ℕ) :
    Bitmap.isSet (c.takeSlots id extSec).used j = true ↔
      Bitmap.isSet c.used j = true ∨ j ∈ slots id extSec := by
  have hw : camNum < 32 := by decide
  have hid : id < 32 := (h id (mem_slots_self id extSec)).trans hw
  cases extSec with
  | false => simp [takeSlots, slots, Bitmap.isSet_insert _ hid]
  | true =>
    have hnext : id + 1 < 32 := (h (id + 1) (by simp [slots])).trans hw
    simp [takeSlots, slots, Bitmap.isSet_insert _ hid, Bitmap.isSet_insert _ hnext, or_assoc]

theorem writeCam_cache_of_mem {c : SecCam} {id i : ℕ} {ctrl : BitVec 16} {mac : MacAddr}
    {key : List UInt8} (h : i ∈ slots id (ctrl.getLsbD 9)) :
    ((c.writeCam id ctrl mac key).cache i).camKey = writtenKey ctrl mac := by
  have hfirst : SecCamEnt.camKey ⟨ctrl, mac, key.take 16⟩ = writtenKey ctrl mac := rfl
  have hsecond : SecCamEnt.camKey ⟨ctrl ||| 32#16, mac, (key.drop 16).take 16⟩ =
      writtenKey ctrl mac := by
    refine CamKey.ext_of rfl ?_ ?_
    · exact SecCamEnt.kid_second ctrl mac key _
    · exact SecCamEnt.gk_second ctrl mac key _
  cases hext : ctrl.getLsbD 9 with
  | false =>
    rw [hext] at h
    obtain rfl := List.mem_singleton.mp h
    rw [writeCam_single c i mac key hext]
    simp only [writeCamCache, Function.update_self, hfirst]
  | true =>
    rw [hext] at h
    rw [writeCam_extended c id mac key hext]
    rcases mem_slots.mp h with rfl | ⟨-, rfl⟩
    · simp only [writeCamCache, Function.update_of_ne (Nat.ne_of_lt (Nat.lt_succ_self i)),
        Function.update_self, hfirst]
    · simp only [writeCamCache, Function.update_self, hsecond]

theorem writeCam_cache_of_not_mem {c : SecCam} {id i : ℕ} {ctrl : BitVec 16} {mac : MacAddr}
    {key : List UInt8} (h : i ∉ slots id (ctrl.getLsbD 9)) :
    (c.writeCam id ctrl mac key).cache i = c.cache i := by
  cases hext : ctrl.getLsbD 9 with
  | false =>
    rw [hext] at h
    rw [writeCam_single c id mac key hext]
    exact Function.update_of_ne (fun hi => h (mem_slots.mpr (.inl hi))) _ _
  | true =>
    rw [hext] at h
    rw [writeCam_extended c id mac key hext]
    have hne : i ≠ id + 1 := fun hi => h (mem_slots.mpr (.inr ⟨rfl, hi⟩))
    have hne' : i ≠ id := fun hi => h (mem_slots.mpr (.inl hi))
    simp only [writeCamCache, Function.update_of_ne hne, Function.update_of_ne hne']

end SecCam

namespace CamSys

variable {s : CamSys}

theorem init_inv (chkBmc : Bool) : (init chkBmc).Inv where
  range _ _ h := absurd h List.not_mem_nil
  stored _ _ h := absurd h List.not_mem_nil
  live _ _ h := absurd rfl h
  same _ _ _ h := absurd h List.not_mem_nil
  kind _ _ _ _ _ h := absurd h List.not_mem_nil

namespace Inv

theorem sound (h : s.Inv) : s.Sound where
  disjoint p hp q hq heq := by
    obtain ⟨k, i⟩ := p
    obtain ⟨k', j⟩ := q
    obtain rfl : i = j := heq
    exact (h.stored k i hp).2.symm.trans (h.stored k' i hq).2
  below p hp := (h.range p.1 p.2 (h.stored p.1 p.2 hp).1).1

theorem eq_of_alike (h : s.Inv) {k k' : CamKey} {i j : ℕ} (hk : (k, i) ∈ s.held)
    (hk' : (k', j) ∈ s.held) (halike : k.Alike s.cam.chkBmc k') : k = k' := by
  refine CamKey.ext_of halike.1 halike.2.1 ?_
  cases hc : s.cam.chkBmc with
  | true => exact halike.2.2 hc
  | false => exact h.kind hc k k' i j hk hk' halike.1 halike.2.1

theorem camidIsGk (h : s.Inv) {k : CamKey} {i : ℕ} (hk : (k, i) ∈ s.held) :
    s.cam.camidIsGk i = k.gk := by
  obtain ⟨hgrant, hkey⟩ := h.stored k i hk
  obtain ⟨hlt, hused, -⟩ := h.range k i hgrant
  simp only [SecCam.camidIsGk, isUsed_iff hlt, hused, Bool.true_and]
  exact congrArg CamKey.gk hkey

theorem chk_of_held (h : s.Inv) {k : CamKey} {i : ℕ} {addr : MacAddr} {kid : ℕ} {gk : Bool}
    (hk : (k, i) ∈ s.held) (halike : k.Alike s.cam.chkBmc ⟨addr, kid, gk⟩) :
    s.cam.camCacheChk i addr kid (s.cam.searchGk gk) = true := by
  have hkey := (h.stored k i hk).2
  refine SecCam.camCacheChk_iff.mpr ⟨?_, ?_, fun g hg => ?_⟩
  · exact (congrArg CamKey.addr hkey).trans halike.1
  · exact (congrArg CamKey.kid hkey).trans halike.2.1
  · obtain ⟨hc, rfl⟩ := SecCam.mem_searchGk.mp hg
    exact (h.camidIsGk hk).trans (halike.2.2 hc)

theorem held_of_chk (h : s.Inv) {i : ℕ} {addr : MacAddr} {kid : ℕ} {gk : Bool}
    (hi : i < camNum) (haddr : addr ≠ nullMac)
    (hchk : s.cam.camCacheChk i addr kid (s.cam.searchGk gk) = true) :
    ∃ k, (k, i) ∈ s.held ∧ k.Alike s.cam.chkBmc ⟨addr, kid, gk⟩ := by
  obtain ⟨hmac, hkid, hgk⟩ := SecCam.camCacheChk_iff.mp hchk
  have hheld := h.live i hi (by rwa [hmac])
  refine ⟨(s.cam.cache i).camKey, hheld, hmac, hkid, fun hc => ?_⟩
  exact (h.camidIsGk hheld).symm.trans (hgk gk (SecCam.mem_searchGk.mpr ⟨hc, rfl⟩))

theorem grant (h : s.Inv) {k : CamKey} {id : ℕ} {extSec : Bool} (haddr : k.addr ≠ nullMac)
    (hfree : ∀ i ∈ slots id extSec, i < camNum ∧ (Bitmap.isSet s.cam.used i = false ∨
      ∃ k', (k', i) ∈ s.held ∧ k'.Alike s.cam.chkBmc k)) :
    (s.grant (s.cam.takeSlots id extSec) k id extSec).Inv := by
  have hset := SecCam.isSet_takeSlots (c := s.cam) fun i hi => (hfree i hi).1
  have hold : ∀ k' i, (k', i) ∈ s.granted → i ∈ slots id extSec → k'.Alike s.cam.chkBmc k := by
    intro k' i hk' hi
    rcases (hfree i hi).2 with hunused | ⟨k'', hk'', halike⟩
    · exact absurd (hunused.symm.trans (h.range k' i hk').2.1) Bool.false_ne_true
    · exact (h.same k' k'' i hk' (h.stored k'' i hk'').1).trans halike
  constructor
  · intro k' i hk'
    rcases List.mem_append.mp hk' with hnew | hgrant
    · obtain ⟨rfl, hi⟩ := mem_occupy.mp hnew
      exact ⟨(hfree i hi).1, (hset i).mpr (.inr hi), haddr⟩
    · obtain ⟨hlt, hused, hne⟩ := h.range k' i hgrant
      exact ⟨hlt, (hset i).mpr (.inl hused), hne⟩
  · intro k' i hk'
    obtain ⟨hgrant, hkey⟩ := h.stored k' i hk'
    exact ⟨List.mem_append_right _ hgrant, hkey⟩
  · exact h.live
  · intro k₁ k₂ i h₁ h₂
    rcases List.mem_append.mp h₁ with hnew₁ | hold₁
    · obtain ⟨rfl, hi⟩ := mem_occupy.mp hnew₁
      rcases List.mem_append.mp h₂ with hnew₂ | hold₂
      · obtain ⟨rfl, -⟩ := mem_occupy.mp hnew₂
        exact CamKey.Alike.refl k₂
      · exact (hold k₂ i hold₂ hi).symm
    · rcases List.mem_append.mp h₂ with hnew₂ | hold₂
      · obtain ⟨rfl, hi⟩ := mem_occupy.mp hnew₂
        exact hold k₁ i hold₁ hi
      · exact h.same k₁ k₂ i hold₁ hold₂
  · exact h.kind

theorem write (h : s.Inv) {id : ℕ} {ctrl : BitVec 16} {mac : MacAddr} {key : List UInt8}
    (hcalled : s.Called (.write id ctrl mac key)) (hclean : s.Clean (.write id ctrl mac key)) :
    (s.step (.write id ctrl mac key)).Inv := by
  have hsame : ∀ k i, (k, i) ∈ s.held → i ∈ slots id (ctrl.getLsbD 9) →
      k = writtenKey ctrl mac := by
    intro k i hk hi
    have halike := h.same k _ i (h.stored k i hk).1 (hclean i hi)
    refine CamKey.ext_of halike.1 halike.2.1 ?_
    cases hc : s.cam.chkBmc with
    | true => exact halike.2.2 hc
    | false => exact hcalled hc (k, i) hk halike.1 halike.2.1
  constructor
  · intro k i hk
    obtain ⟨hlt, hused, hne⟩ := h.range k i hk
    exact ⟨hlt, by rwa [step, SecCam.writeCam_used], hne⟩
  · intro k i hk
    cases Decidable.em (i ∈ slots id (ctrl.getLsbD 9)) with
    | inl hi =>
      have hkey : k = writtenKey ctrl mac := by
        rcases List.mem_append.mp hk with hnew | hold
        · exact (mem_occupy.mp hnew).1
        · exact hsame k i hold hi
      rw [hkey]
      exact ⟨hclean i hi, SecCam.writeCam_cache_of_mem hi⟩
    | inr hi =>
      have hold : (k, i) ∈ s.held :=
        (List.mem_append.mp hk).resolve_left fun hnew => hi (mem_occupy.mp hnew).2
      obtain ⟨hgrant, hkey⟩ := h.stored k i hold
      refine ⟨hgrant, ?_⟩
      rw [step, SecCam.writeCam_cache_of_not_mem hi]
      exact hkey
  · intro i hi hmac
    cases Decidable.em (i ∈ slots id (ctrl.getLsbD 9)) with
    | inl hmem =>
      rw [step, SecCam.writeCam_cache_of_mem hmem]
      exact List.mem_append_left _ (mem_occupy.mpr ⟨rfl, hmem⟩)
    | inr hmem =>
      rw [step, SecCam.writeCam_cache_of_not_mem hmem] at hmac ⊢
      exact List.mem_append_right _ (h.live i hi hmac)
  · simp only [step, SecCam.writeCam_chkBmc]
    exact h.same
  · intro hc k k' i j hk hk' haddr hkid
    simp only [step, SecCam.writeCam_chkBmc] at hc
    have hkind := hcalled hc
    rcases List.mem_append.mp hk with hnew | hold
    · obtain ⟨rfl, -⟩ := mem_occupy.mp hnew
      rcases List.mem_append.mp hk' with hnew' | hold'
      · obtain ⟨rfl, -⟩ := mem_occupy.mp hnew'
        rfl
      · exact (hkind (k', j) hold' haddr.symm hkid.symm).symm
    · rcases List.mem_append.mp hk' with hnew' | hold'
      · obtain ⟨rfl, -⟩ := mem_occupy.mp hnew'
        exact hkind (k, i) hold haddr hkid
      · exact h.kind hc k k' i j hold hold' haddr hkid

theorem clear (h : s.Inv) (id : ℕ) : (s.step (.clear id)).Inv := by
  have hof : ∀ k i, (k, i) ∈ (s.step (.clear id)).held → (k, i) ∈ s.held ∧ i ≠ id := by
    intro k i hk
    obtain ⟨hold, hne⟩ := List.mem_filter.mp hk
    exact ⟨hold, of_decide_eq_true hne⟩
  constructor
  · exact h.range
  · intro k i hk
    obtain ⟨hold, hne⟩ := hof k i hk
    obtain ⟨hgrant, hkey⟩ := h.stored k i hold
    refine ⟨hgrant, ?_⟩
    simp only [step, SecCam.clearCamEntry, Function.update_of_ne hne]
    exact hkey
  · intro i hi hmac
    cases Decidable.eq_or_ne i id with
    | inl heq =>
      rw [heq] at hmac
      simp only [step, SecCam.clearCamEntry, Function.update_self] at hmac
      exact absurd rfl hmac
    | inr hne =>
      simp only [step, SecCam.clearCamEntry, Function.update_of_ne hne] at hmac ⊢
      exact List.mem_filter.mpr ⟨h.live i hi hmac, decide_eq_true hne⟩
  · exact h.same
  · intro hc k k' i j hk hk'
    exact h.kind hc k k' i j (hof k i hk).1 (hof k' j hk').1

theorem free (h : s.Inv) {id : ℕ} (hcalled : s.Called (.free id)) :
    (s.step (.free id)).Inv := by
  cases Nat.lt_or_ge id camNum with
  | inr hge =>
    rw [step, if_neg (Nat.not_lt.mpr hge)]
    exact h
  | inl hlt =>
    have hclear := hcalled hlt
    rw [step, if_pos hlt]
    have hof : ∀ (l : List (CamKey × ℕ)) k i, (k, i) ∈ l.filter (·.2 ≠ id) →
        (k, i) ∈ l ∧ i ≠ id := by
      intro l k i hk
      obtain ⟨hold, hne⟩ := List.mem_filter.mp hk
      exact ⟨hold, of_decide_eq_true hne⟩
    have hcache : (s.cam.rtwCamidFree id).cache = s.cam.cache := by
      rw [SecCam.rtwCamidFree, if_pos hlt]
    have hchk : (s.cam.rtwCamidFree id).chkBmc = s.cam.chkBmc := by
      rw [SecCam.rtwCamidFree, if_pos hlt]
    constructor
    · intro k i hk
      obtain ⟨hgrant, hne⟩ := hof _ k i hk
      obtain ⟨hi, hused, haddr⟩ := h.range k i hgrant
      refine ⟨hi, ?_, haddr⟩
      rw [SecCam.rtwCamidFree, if_pos hlt]
      exact (Bitmap.isSet_erase _ _ _).mpr ⟨hused, hne⟩
    · intro k i hk
      obtain ⟨hold, hne⟩ := hof _ k i hk
      obtain ⟨hgrant, hkey⟩ := h.stored k i hold
      refine ⟨List.mem_filter.mpr ⟨hgrant, decide_eq_true hne⟩, ?_⟩
      rw [hcache]
      exact hkey
    · intro i hi hmac
      rw [hcache] at hmac ⊢
      have hne : i ≠ id := by
        rintro rfl
        exact hmac hclear
      exact List.mem_filter.mpr ⟨h.live i hi hmac, decide_eq_true hne⟩
    · intro k k' i hk hk'
      rw [hchk]
      exact h.same k k' i (hof _ k i hk).1 (hof _ k' i hk').1
    · intro hc k k' i j hk hk'
      rw [hchk] at hc
      exact h.kind hc k k' i j (hof _ k i hk).1 (hof _ k' j hk').1

theorem room (h : s.Inv) {addr : MacAddr} {kid id : ℕ} {gk extSec : Bool}
    (haddr : addr ≠ nullMac) (hid : s.cam.rtwGetCamid addr kid gk extSec = some id)
    (hclean : extSec = true →
      s.cam.camidSearch addr kid (s.cam.searchGk gk) = some id →
        id + 1 < camNum ∧ (Bitmap.isSet s.cam.used (id + 1) = false ∨
          s.cam.camCacheChk (id + 1) addr kid (s.cam.searchGk gk) = true)) :
    ∀ i ∈ slots id extSec, i < camNum ∧ (Bitmap.isSet s.cam.used i = false ∨
      ∃ k', (k', i) ∈ s.held ∧ k'.Alike s.cam.chkBmc ⟨addr, kid, gk⟩) := by
  intro i hi
  obtain ⟨hlt, hcase⟩ := SecCam.rtwGetCamid_cases hid
  rcases mem_slots.mp hi with rfl | ⟨hext, rfl⟩
  · refine ⟨hlt, ?_⟩
    rcases hcase with hhit | ⟨-, hfree, -⟩
    · exact .inr (h.held_of_chk hlt haddr (SecCam.camidSearch_some hhit).2.1)
    · exact .inl hfree
  · rcases hcase with hhit | ⟨-, -, hfree⟩
    · obtain ⟨hnext, hunused | hchk⟩ := hclean hext hhit
      · exact ⟨hnext, .inl hunused⟩
      · exact ⟨hnext, .inr (h.held_of_chk hnext haddr hchk)⟩
    · exact ⟨(hfree hext).1, .inl (hfree hext).2⟩

theorem slot_of_live (h : s.Inv) {addr : MacAddr} {kid i : ℕ} {gk : Bool} (extSec : Bool)
    (haddr : addr ≠ nullMac) (hi : (⟨addr, kid, gk⟩, i) ∈ s.held) :
    ∃ id, s.cam.camidSearch addr kid (s.cam.searchGk gk) = some id ∧
      s.cam.rtwGetCamid addr kid gk extSec = some id ∧ (⟨addr, kid, gk⟩, id) ∈ s.held ∧ id ≤ i := by
  have hchk := h.chk_of_held hi (CamKey.Alike.refl _)
  have hlt := (h.range _ i (h.stored _ i hi).1).1
  obtain ⟨id, hle, hhit⟩ := SecCam.camidSearch_isSome hlt hchk
  obtain ⟨hid, hmatch, -⟩ := SecCam.camidSearch_some hhit
  obtain ⟨k', hk', halike⟩ := h.held_of_chk hid haddr hmatch
  obtain rfl := h.eq_of_alike hk' hi halike
  refine ⟨id, hhit, ?_, hk', hle⟩
  rw [SecCam.rtwGetCamid, hhit]

end Inv

theorem camId_alloc {c : SecCam} {a : CamCaller} {sta : Option MacAddr} {addr : MacAddr} {kid : ℕ}
    {gk extSec : Bool} (haddr : SecCam.keyAddr a sta = some addr) :
    (c.rtwCamidAlloc a sta kid gk extSec).2.1 = c.rtwGetCamid addr kid gk extSec := by
  simp only [SecCam.rtwCamidAlloc, SecCam.camidFor, haddr, Option.bind_some]
  cases c.rtwGetCamid addr kid gk extSec with
  | none => rfl
  | some id => rfl

theorem alloc_exact (h : s.Inv) {a : CamCaller} {sta : Option MacAddr} {kid : ℕ}
    {gk extSec : Bool} (hcalled : s.Called (.alloc a sta kid gk extSec))
    (hclean : s.Clean (.alloc a sta kid gk extSec)) : s.Exact (.alloc a sta kid gk extSec) := by
  have hroom : ∀ addr, SecCam.keyAddr a sta = some addr → ∀ id,
      s.cam.rtwGetCamid addr kid gk extSec = some id → ∀ i ∈ slots id extSec,
      i < camNum ∧ (Bitmap.isSet s.cam.used i = false ∨
        ∃ k', (k', i) ∈ s.held ∧ k'.Alike s.cam.chkBmc ⟨addr, kid, gk⟩) :=
    fun addr haddr id hid => h.room (hcalled addr haddr).1 hid
      fun hext hhit => hclean hext addr haddr id hhit
  refine ⟨fun id hid => ?_, fun addr haddr ⟨i, hi⟩ => ?_⟩
  · cases haddr : SecCam.keyAddr a sta with
    | none => simp [SecCam.rtwCamidAlloc, SecCam.camidFor, haddr] at hid
    | some addr =>
      rw [camId_alloc haddr] at hid
      have hslots := hroom addr haddr id hid
      exact ⟨(hslots id (mem_slots_self id extSec)).1,
        fun hext => (hslots (id + 1) (mem_slots.mpr (.inr ⟨hext, rfl⟩))).1⟩
  · obtain ⟨id, hhit, hid, hheld, -⟩ := h.slot_of_live extSec (hcalled addr haddr).1 hi
    refine ⟨id, (camId_alloc haddr).trans hid, hheld, fun j hj => ?_, fun j hj k hk => ?_⟩
    · obtain ⟨id', hhit', -, -, hle⟩ := h.slot_of_live extSec (hcalled addr haddr).1 hj
      obtain rfl := Option.some.inj (hhit.symm.trans hhit')
      exact hle
    · rcases (hroom addr haddr id hid j hj).2 with hunused | ⟨k', hk', halike⟩
      · have hused := (h.range k j (h.stored k j hk).1).2.1
        exact absurd (hunused.symm.trans hused) Bool.false_ne_true
      · obtain rfl := h.eq_of_alike hk' hheld halike
        exact h.eq_of_alike hk hk' (h.same k _ j (h.stored k j hk).1 (h.stored _ j hk').1)

theorem alloc_inv (h : s.Inv) {a : CamCaller} {sta : Option MacAddr} {kid : ℕ}
    {gk extSec : Bool} (hcalled : s.Called (.alloc a sta kid gk extSec))
    (hclean : s.Clean (.alloc a sta kid gk extSec)) :
    (s.step (.alloc a sta kid gk extSec)).Inv := by
  cases haddr : SecCam.keyAddr a sta with
  | none =>
    have hsame : s.step (.alloc a sta kid gk extSec) = s := by
      simp only [step, haddr, SecCam.rtwCamidAlloc, SecCam.camidFor, Option.bind_none]
    rw [hsame]
    exact h
  | some addr =>
    cases hid : s.cam.rtwGetCamid addr kid gk extSec with
    | none =>
      have hsame : s.step (.alloc a sta kid gk extSec) = s := by
        simp only [step, haddr, SecCam.rtwCamidAlloc, SecCam.camidFor, Option.bind_some, hid]
      rw [hsame]
      exact h
    | some id =>
      have hstep : s.step (.alloc a sta kid gk extSec) =
          s.grant (s.cam.takeSlots id extSec) ⟨addr, kid, gk⟩ id extSec := by
        simp only [step, haddr, SecCam.rtwCamidAlloc, SecCam.camidFor, Option.bind_some, hid]
      rw [hstep]
      exact h.grant (hcalled addr haddr).1
        (h.room (hcalled addr haddr).1 hid fun hext hhit => hclean hext addr haddr id hhit)

theorem inv_step (h : s.Inv) (ev : CamEvent) (hok : s.Called ev ∧ s.Clean ev) :
    (s.step ev).Inv ∧ s.Exact ev := by
  cases ev with
  | alloc a sta kid gk extSec => exact ⟨alloc_inv h hok.1 hok.2, alloc_exact h hok.1 hok.2⟩
  | write id ctrl mac key => exact ⟨h.write hok.1 hok.2, trivial⟩
  | clear id => exact ⟨h.clear id, trivial⟩
  | free id => exact ⟨h.free hok.1, trivial⟩

theorem cam_law (chkBmc : Bool) (evs : List CamEvent)
    (h : Run.Each step (fun s ev => s.Called ev ∧ s.Clean ev) (init chkBmc) evs) :
    Run.Each step (fun s ev => (s.step ev).Sound ∧ s.Exact ev) (init chkBmc) evs :=
  Run.each_of_each step _ _ Inv (fun _ ev hs hev => ⟨(inv_step hs ev hev).1.sound,
    (inv_step hs ev hev).2⟩) (fun _ ev hs hev => (inv_step hs ev hev).1) (init_inv chkBmc) h

def aesCtrl : BitVec 16 := 0x8010#16

def aes256Ctrl : BitVec 16 := 0x8210#16

def stationMode : CamCaller := ⟨false, true, localAddr 1, localAddr 9⟩

def rekeyedTable : List CamEvent :=
  [.alloc stationMode (some (localAddr 2)) 0 false false, .write 0 aesCtrl (localAddr 2) [],
    .alloc stationMode (some (localAddr 3)) 0 false true, .write 1 aes256Ctrl (localAddr 3) [],
    .alloc stationMode (some (localAddr 3)) 0 false true, .write 1 aes256Ctrl (localAddr 3) [],
    .clear 0, .free 0]

theorem cam_law_rekeyed :
    Run.Each step (fun s ev => (s.step ev).Sound ∧ s.Exact ev) (init false) rekeyedTable :=
  cam_law false rekeyedTable (by decide)

def extendedOverSingle : List CamEvent :=
  [.alloc stationMode (some (localAddr 2)) 0 false false, .write 0 aesCtrl (localAddr 2) [],
    .alloc stationMode (some (localAddr 3)) 0 false false, .write 1 aesCtrl (localAddr 3) [],
    .alloc stationMode (some (localAddr 2)) 0 false true, .write 0 aes256Ctrl (localAddr 2) []]

def pairwiseOverGroup : List CamEvent :=
  [.alloc stationMode (some (localAddr 2)) 1 true false, .write 0 0x8051#16 (localAddr 2) [],
    .alloc stationMode (some (localAddr 2)) 1 false false, .clear 0, .free 0,
    .write 0 0x8011#16 (localAddr 2) [],
    .alloc stationMode (some (localAddr 3)) 0 false false, .write 0 aesCtrl (localAddr 3) []]

theorem slot_taken_over :
    (Run.Each step Called (init false) extendedOverSingle ∧
      ¬ (Run.exec step (init false) extendedOverSingle).Sound) ∧
    Run.Each step Called (init false) pairwiseOverGroup ∧
      ¬ (Run.exec step (init false) pairwiseOverGroup).Sound := by
  refine ⟨⟨by decide, fun h => ?_⟩, by decide, fun h => ?_⟩
  · exact absurd h.disjoint (by decide)
  · exact absurd h.disjoint (by decide)

end CamSys

end Cam
