import Rtl8188fu.Ap.BeaconIe
import Rtl8188fu.Ap.BeaconIeLaw

namespace Ap

open ByteMemory Tlv
open Ie (Content FirstAt maxIeSz)

def apCsaDisable : UInt8 := 0
def apSwitchChCsa : UInt8 := 1
def csaStaJoinbss : UInt8 := 3
def csaIeRemove : UInt8 := 0xff

def eidChannelSwitch : UInt8 := 37
def eidEcsa : UInt8 := 60

def csaSwitchCount : ℕ := 2
def ecsaSwitchCount : ℕ := 3

structure RfCtl where
  apCsaEn : UInt8
  apCsaSwitchCnt : UInt8
  apCsaCh : UInt8
  apCsaChWidth : UInt8
  apCsaChOffset : UInt8
  csaChWidth : UInt8
  csaChOffset : UInt8

inductive CsaCmd where
  | bcnControl (enable : Bool)
  | changeBssChbw (ifbmp ch width offset : UInt8)
  | joinbss (linkingAdapter : ℕ)
  | setTxBeacon (waitAck : Bool)

def CsaCmd.switches : CsaCmd → Bool
  | .changeBssChbw _ _ _ _ => true
  | .joinbss _ => true
  | _ => false

structure CsaEnv where
  configEcsa : Bool
  configConcurrentMode : Bool
  bstartBss : Bool
  ifaceId : ℕ
  opClassByChbw : UInt8 → UInt8 → UInt8 → UInt8

structure CsaCall where
  mallocCsa : ℕ → Bool
  mallocEcsa : ℕ → Bool
  linkingAdapter : Option ℕ
  tx : Bool
  waitAck : Bool

structure CsaState where
  ies : BeaconIes
  rfctl : RfCtl

structure SwitchUpdate where
  ies : BeaconIes
  update : Bool
  process : Bool

def updateSwitchIe (malloc : ℕ → Bool) (r : RfCtl) (eid : UInt8) (data : Content) (countAt : ℕ)
    (b : BeaconIes) : SwitchUpdate :=
  if r.apCsaEn = apCsaDisable ∨ r.apCsaEn = csaIeRemove then ⟨b, false, false⟩
  else
    match b.getIe eid with
    | some p =>
      if b.ielen p = data.bytes.length ∧ 0 < r.apCsaSwitchCnt then
        ⟨{ b with mem := write b.mem (p + (countAt + 2)) [r.apCsaSwitchCnt] }, true, false⟩
      else if 0 < b.ielen p ∧ r.apCsaSwitchCnt = 0 then
        ⟨b.rtwRemoveBcnIe malloc eid, true, true⟩
      else ⟨b, false, false⟩
    | none =>
      if 0 < r.apCsaSwitchCnt then ⟨b.rtwAddBcnIe malloc eid data, true, false⟩
      else ⟨b, false, false⟩

def setCount (i : ℕ) (c : UInt8) (t : Element) : Element :=
  ⟨t.id, t.body.set i c, by
    rw [List.length_set]
    exact t.short⟩

theorem csaBody_short (ch cnt : UInt8) : [0, ch, cnt].length < 256 := by
  rw [List.length_cons, List.length_cons, List.length_singleton]
  decide

def csaData (ch cnt : UInt8) : Content := ⟨[0, ch, cnt], csaBody_short ch cnt⟩

theorem ecsaBody_short (mode opClass ch cnt : UInt8) : [mode, opClass, ch, cnt].length < 256 := by
  rw [List.length_cons, List.length_cons, List.length_cons, List.length_singleton]
  decide

def ecsaData (mode opClass ch cnt : UInt8) : Content :=
  ⟨[mode, opClass, ch, cnt], ecsaBody_short mode opClass ch cnt⟩

def updateCsaIe (malloc : ℕ → Bool) (r : RfCtl) (b : BeaconIes) : SwitchUpdate :=
  updateSwitchIe malloc r eidChannelSwitch (csaData r.apCsaCh r.apCsaSwitchCnt) csaSwitchCount b

def CsaEnv.opClass (env : CsaEnv) (r : RfCtl) : UInt8 :=
  env.opClassByChbw r.apCsaCh r.csaChWidth r.csaChOffset

def updateEcsaIe (env : CsaEnv) (malloc : ℕ → Bool) (r : RfCtl) (b : BeaconIes) : SwitchUpdate :=
  if env.configEcsa then
    updateSwitchIe malloc r eidEcsa (ecsaData 0 (env.opClass r) r.apCsaCh r.apCsaSwitchCnt)
      ecsaSwitchCount b
  else ⟨b, false, false⟩

def apProcessCsa (env : CsaEnv) (linkingAdapter : Option ℕ) (r : RfCtl) : RfCtl × List CsaCmd :=
  if r.apCsaSwitchCnt ≠ 0 then (r, [])
  else if r.apCsaEn = apSwitchChCsa then
    ({ r with apCsaEn := csaIeRemove },
      [.bcnControl false,
        .changeBssChbw (UInt8.ofNat (1 <<< env.ifaceId)) r.apCsaCh r.apCsaChWidth r.apCsaChOffset])
  else if env.configConcurrentMode ∧ r.apCsaEn = csaStaJoinbss then
    match linkingAdapter with
    | some a => ({ r with apCsaEn := csaIeRemove }, [.bcnControl false, .joinbss a])
    | none => (r, [.bcnControl false])
  else (r, [.bcnControl false])

def countDown (updated : Bool) (r : RfCtl) : RfCtl :=
  if updated ∧ 0 < r.apCsaSwitchCnt then { r with apCsaSwitchCnt := r.apCsaSwitchCnt - 1 } else r

def txBeacon (call : CsaCall) : List CsaCmd :=
  if call.tx then [.setTxBeacon call.waitAck] else []

def updateBeaconCsa (env : CsaEnv) (call : CsaCall) (s : CsaState) : CsaState × List CsaCmd :=
  if env.bstartBss then
    let csa := updateCsaIe call.mallocCsa s.rfctl s.ies
    let ecsa := updateEcsaIe env call.mallocEcsa s.rfctl csa.ies
    let (r, cmds) :=
      if csa.process || ecsa.process then apProcessCsa env call.linkingAdapter s.rfctl
      else (s.rfctl, [])
    (⟨ecsa.ies, countDown (csa.update || ecsa.update) r⟩, cmds ++ txBeacon call)
  else (s, [])

def csaRun (env : CsaEnv) (calls : ℕ → CsaCall) (s : CsaState) : ℕ → CsaState
  | 0 => s
  | k + 1 => (updateBeaconCsa env (calls k) (csaRun env calls s k)).1

def csaCmds (env : CsaEnv) (calls : ℕ → CsaCall) (s : CsaState) (k : ℕ) : List CsaCmd :=
  (updateBeaconCsa env (calls k) (csaRun env calls s k)).2

section Effects

variable {malloc : ℕ → Bool} {b : BeaconIes} {fixed : List UInt8} {es pre post : List Element}
  {t : Element} {eid c : UInt8} {data : Content} {r : RfCtl} {i : ℕ}

def Announcing (r : RfCtl) : Prop := r.apCsaEn ≠ apCsaDisable ∧ r.apCsaEn ≠ csaIeRemove

def CanMove (malloc : ℕ → Bool) (tail : ℕ) : Prop := 0 < tail → malloc tail = true

theorem CanMove.moved (h : CanMove malloc (encode post).length) (m : Mem UInt8) (dst : ℕ) :
    Moved malloc m dst post := by
  cases post with
  | nil => exact .inr rfl
  | cons t post => exact .inl (h (Nat.zero_lt_succ _))

theorem bytes_setCount (i : ℕ) (c : UInt8) (t : Element) :
    (setCount i c t).bytes = t.bytes.set (i + 2) c := by
  have hlen : (setCount i c t).body.length = t.body.length := List.length_set
  rw [Element.bytes, hlen]
  rfl

theorem write_count (h : b.Lists fixed (pre ++ t :: post)) (hi : i < t.body.length) (c : UInt8) :
    ({ b with mem := write b.mem ((fixed ++ encode pre).length + (i + 2)) [c] } :
      BeaconIes).Lists fixed (pre ++ setCount i c t :: post) := by
  have hinside : i + 2 < t.bytes.length := by
    rw [Element.length_bytes]
    omega
  have hsplit (u : Element) : fixed ++ encode (pre ++ u :: post) =
      (fixed ++ encode pre) ++ (u.bytes ++ encode post) := by
    rw [encode_append, encode_cons, List.append_assoc]
  have hset : (fixed ++ encode (pre ++ t :: post)).set ((fixed ++ encode pre).length + (i + 2)) c =
      fixed ++ encode (pre ++ setCount i c t :: post) := by
    rw [hsplit, hsplit, List.set_append_right _ _ (Nat.le_add_right _ _), Nat.add_sub_cancel_left,
      List.set_append_left _ _ hinside, bytes_setCount]
  have hlen : (fixed ++ encode (pre ++ setCount i c t :: post)).length =
      (fixed ++ encode (pre ++ t :: post)).length := by
    rw [← hset, List.length_set]
  refine ⟨h.fixedLength, ?_, ?_, hlen ▸ h.room⟩
  · have hput := h.mem.write_within (x := c) (i := (fixed ++ encode pre).length + (i + 2)) (by
      rw [hsplit, @List.length_append _ (fixed ++ encode pre), @List.length_append _ t.bytes]
      omega)
    rw [hset, Nat.zero_add] at hput
    exact hput
  · rw [hlen]
    exact h.ieLength

theorem updateSwitchIe_idle (h : ¬ Announcing r) (malloc : ℕ → Bool) (eid : UInt8) (data : Content)
    (i : ℕ) (b : BeaconIes) : updateSwitchIe malloc r eid data i b = ⟨b, false, false⟩ := by
  have hoff : r.apCsaEn = apCsaDisable ∨ r.apCsaEn = csaIeRemove := by
    rw [Announcing, not_and_or, not_not, not_not] at h
    exact h
  rw [updateSwitchIe, if_pos hoff]

theorem updateSwitchIe_on (h : Announcing r) (malloc : ℕ → Bool) (eid : UInt8) (data : Content)
    (i : ℕ) (b : BeaconIes) : updateSwitchIe malloc r eid data i b =
      match b.getIe eid with
      | some p =>
        if b.ielen p = data.bytes.length ∧ 0 < r.apCsaSwitchCnt then
          ⟨{ b with mem := write b.mem (p + (i + 2)) [r.apCsaSwitchCnt] }, true, false⟩
        else if 0 < b.ielen p ∧ r.apCsaSwitchCnt = 0 then
          ⟨b.rtwRemoveBcnIe malloc eid, true, true⟩
        else ⟨b, false, false⟩
      | none =>
        if 0 < r.apCsaSwitchCnt then ⟨b.rtwAddBcnIe malloc eid data, true, false⟩
        else ⟨b, false, false⟩ := by
  have hon : ¬ (r.apCsaEn = apCsaDisable ∨ r.apCsaEn = csaIeRemove) := by
    rw [not_or]
    exact h
  rw [updateSwitchIe, if_neg hon]

structure Counted (u : SwitchUpdate) (fixed : List UInt8) (es : List Element) : Prop where
  lists : u.ies.Lists fixed es
  update : u.update = true
  process : u.process = false

structure Removed (u : SwitchUpdate) (fixed : List UInt8) (es : List Element) : Prop where
  lists : u.ies.Lists fixed es
  update : u.update = true
  process : u.process = true

theorem updateSwitchIe_counts (hon : Announcing r) (hcnt : 0 < r.apCsaSwitchCnt)
    (h : b.Lists fixed (pre ++ t :: post)) (hbefore : ∀ u ∈ pre, u.id ≠ eid) (hid : t.id = eid)
    (hlen : t.body.length = data.bytes.length) (hi : i < t.body.length) :
    Counted (updateSwitchIe malloc r eid data i b) fixed
      (pre ++ setCount i r.apCsaSwitchCnt t :: post) := by
  have hget := h.getIe_first ⟨rfl, hbefore, hid⟩
  have hfound : b.ielen (fixed ++ encode pre).length = data.bytes.length ∧
      0 < r.apCsaSwitchCnt := by
    rw [h.ielen_at]
    exact ⟨hlen, hcnt⟩
  have hstep : updateSwitchIe malloc r eid data i b =
      ⟨{ b with mem := write b.mem ((fixed ++ encode pre).length + (i + 2)) [r.apCsaSwitchCnt] },
        true, false⟩ := by
    rw [updateSwitchIe_on hon, hget]
    exact if_pos hfound
  rw [hstep]
  exact ⟨write_count h hi r.apCsaSwitchCnt, rfl, rfl⟩

theorem updateSwitchIe_adds (hon : Announcing r) (hcnt : 0 < r.apCsaSwitchCnt)
    (h : b.Lists fixed ((pre ++ [t]) ++ post)) (hbefore : ∀ u ∈ pre ++ [t], u.id < eid)
    (hafter : ∀ u ∈ post.head?, eid < u.id) (hnone : ∀ u ∈ post, u.id ≠ eid) (hbody : t.body ≠ [])
    (hmove : CanMove malloc (encode post).length)
    (hroom : (fixed ++ encode ((pre ++ [t]) ++ data.element eid :: post)).length ≤ maxIeSz) :
    Counted (updateSwitchIe malloc r eid data i b) fixed
      ((pre ++ [t]) ++ data.element eid :: post) := by
  have habsent : ∀ u ∈ (pre ++ [t]) ++ post, u.id ≠ eid := by
    intro u hu
    cases List.mem_append.mp hu with
    | inl hleft => exact UInt8.ne_of_lt (hbefore u hleft)
    | inr hright => exact hnone u hright
  have hstep : updateSwitchIe malloc r eid data i b =
      ⟨b.rtwAddBcnIe malloc eid data, true, false⟩ := by
    rw [updateSwitchIe_on hon, h.getIe_absent habsent]
    exact if_pos hcnt
  have hput := @putElement_absent (pre ++ [t]) post (data.element eid) habsent
  have hfits : Fits malloc b.mem fixed (pre ++ [t]) [data.element eid] post :=
    ⟨hroom, hmove.moved _ _⟩
  rw [List.append_assoc, List.singleton_append] at h
  have hadd := (BeaconIes.add_passed h hbefore hafter hbody).mpr ⟨hnone, hfits⟩
  rw [List.append_assoc pre, List.singleton_append] at hput
  rw [hput] at hadd
  rw [hstep]
  exact ⟨hadd, rfl, rfl⟩

theorem updateSwitchIe_removes (hon : Announcing r) (hcnt : r.apCsaSwitchCnt = 0)
    (h : b.Lists fixed (pre ++ t :: post)) (hbefore : ∀ u ∈ pre, u.id ≠ eid) (hid : t.id = eid)
    (hbody : t.body ≠ []) (hmove : CanMove malloc (encode post).length) :
    Removed (updateSwitchIe malloc r eid data i b) fixed (pre ++ post) := by
  have hfirst : FirstAt eid (pre ++ t :: post) pre t post := ⟨rfl, hbefore, hid⟩
  have hcounted : ¬ (b.ielen (fixed ++ encode pre).length = data.bytes.length ∧
      0 < r.apCsaSwitchCnt) := by
    rw [hcnt]
    exact fun h => absurd h.2 (UInt8.lt_irrefl 0)
  have hfound : 0 < b.ielen (fixed ++ encode pre).length ∧ r.apCsaSwitchCnt = 0 := by
    rw [h.ielen_at]
    exact ⟨List.length_pos_iff.mpr hbody, hcnt⟩
  have hstep : updateSwitchIe malloc r eid data i b =
      ⟨b.rtwRemoveBcnIe malloc eid, true, true⟩ := by
    rw [updateSwitchIe_on hon, h.getIe_first hfirst]
    exact (if_neg hcounted).trans (if_pos hfound)
  have hroom : (fixed ++ encode (pre ++ ([] ++ post))).length ≤ maxIeSz := by
    have hstored := h.room
    rw [encode_append, encode_cons] at hstored
    simp only [List.nil_append, encode_append, List.length_append] at hstored ⊢
    omega
  have hremove := (BeaconIes.rtwRemoveBcnIe_firstAt h hfirst).mpr
    ⟨hbody, hroom, hmove.moved _ _⟩
  rw [substFirst_firstAt hfirst] at hremove
  rw [hstep]
  exact ⟨hremove, rfl, rfl⟩

end Effects

section Steps

variable {env : CsaEnv} {call : CsaCall} {s : CsaState} {fixed : List UInt8} {es : List Element}
  {r : RfCtl} {updated : Bool}

theorem countDown_zero (h : r.apCsaSwitchCnt = 0) : countDown updated r = r := by
  rw [countDown, h]
  exact if_neg fun h => absurd h.2 (UInt8.lt_irrefl 0)

theorem updateEcsaIe_idle (h : ¬ Announcing r) (env : CsaEnv) (malloc : ℕ → Bool) (b : BeaconIes) :
    updateEcsaIe env malloc r b = ⟨b, false, false⟩ := by
  rw [updateEcsaIe, updateSwitchIe_idle h, ite_self]

theorem updateBeaconCsa_counts (hstart : env.bstartBss = true)
    (hcsa : Counted (updateCsaIe call.mallocCsa s.rfctl s.ies) fixed es)
    (hecsa : (updateEcsaIe env call.mallocEcsa s.rfctl
      (updateCsaIe call.mallocCsa s.rfctl s.ies).ies).process = false)
    (hcnt : 0 < s.rfctl.apCsaSwitchCnt) :
    updateBeaconCsa env call s =
      (⟨(updateEcsaIe env call.mallocEcsa s.rfctl
          (updateCsaIe call.mallocCsa s.rfctl s.ies).ies).ies,
        { s.rfctl with apCsaSwitchCnt := s.rfctl.apCsaSwitchCnt - 1 }⟩, txBeacon call) := by
  rw [updateBeaconCsa, if_pos hstart]
  simp only [hcsa.process, hcsa.update, hecsa, Bool.or_self, Bool.false_eq_true, if_false,
    Bool.true_or, countDown, hcnt, and_self, if_true, List.nil_append]

theorem updateBeaconCsa_clears (hstart : env.bstartBss = true)
    (hcsa : Removed (updateCsaIe call.mallocCsa s.rfctl s.ies) fixed es) :
    updateBeaconCsa env call s =
      (⟨(updateEcsaIe env call.mallocEcsa s.rfctl
          (updateCsaIe call.mallocCsa s.rfctl s.ies).ies).ies,
        countDown true (apProcessCsa env call.linkingAdapter s.rfctl).1⟩,
        (apProcessCsa env call.linkingAdapter s.rfctl).2 ++ txBeacon call) := by
  rw [updateBeaconCsa, if_pos hstart]
  simp only [hcsa.process, hcsa.update, Bool.true_or, if_true]

theorem updateBeaconCsa_settled (hstart : env.bstartBss = true) (h : ¬ Announcing s.rfctl) :
    updateBeaconCsa env call s = (s, txBeacon call) := by
  have hcsa : updateCsaIe call.mallocCsa s.rfctl s.ies = ⟨s.ies, false, false⟩ :=
    updateSwitchIe_idle h _ _ _ _ _
  have hkept : countDown false s.rfctl = s.rfctl :=
    if_neg fun h => absurd h.1 Bool.false_ne_true
  rw [updateBeaconCsa, if_pos hstart]
  simp only [hcsa, updateEcsaIe_idle h, Bool.or_self, Bool.false_eq_true, if_false, hkept,
    List.nil_append]

structure Triggers (env : CsaEnv) (linkingAdapter : Option ℕ) (en : UInt8) : Prop where
  switch : en = apSwitchChCsa ∨
    env.configConcurrentMode = true ∧ en = csaStaJoinbss ∧ linkingAdapter ≠ none

theorem apProcessCsa_triggers {linkingAdapter : Option ℕ}
    (h : Triggers env linkingAdapter r.apCsaEn) (hcnt : r.apCsaSwitchCnt = 0) :
    (apProcessCsa env linkingAdapter r).1 = { r with apCsaEn := csaIeRemove } ∧
      ((apProcessCsa env linkingAdapter r).2.filter CsaCmd.switches).length = 1 := by
  unfold apProcessCsa
  rw [if_neg (not_not.mpr hcnt)]
  rcases h.switch with hsta | ⟨hmode, hjoin, hlink⟩
  · rw [if_pos hsta]
    exact ⟨rfl, rfl⟩
  · have hother : ¬ r.apCsaEn = apSwitchChCsa := by
      rw [hjoin]
      decide
    rw [if_neg hother, if_pos ⟨hmode, hjoin⟩]
    cases linkingAdapter with
    | none => exact absurd rfl hlink
    | some a => exact ⟨rfl, rfl⟩

theorem txBeacon_quiet (call : CsaCall) : (txBeacon call).filter CsaCmd.switches = [] := by
  rw [txBeacon]
  cases call.tx with
  | true => rfl
  | false => rfl

end Steps


def csaElement (ch cnt : UInt8) : Element := (csaData ch cnt).element eidChannelSwitch

def ecsaElement (mode opClass ch cnt : UInt8) : Element :=
  (ecsaData mode opClass ch cnt).element eidEcsa

structure CsaRequest where
  env : CsaEnv
  start : CsaState
  fixed : List UInt8
  elements : List Element
  started : env.bstartBss = true
  announcing : Announcing start.rfctl
  counting : 0 < start.rfctl.apCsaSwitchCnt
  lists : start.ies.Lists fixed elements
  noCsa : ∀ t ∈ elements, t.id ≠ eidChannelSwitch

namespace CsaRequest

variable (q : CsaRequest) (calls : ℕ → CsaCall)

def count : ℕ := q.start.rfctl.apCsaSwitchCnt.toNat

def after (k : ℕ) : CsaState := csaRun q.env calls q.start k

def switches (k : ℕ) : List CsaCmd := (csaCmds q.env calls q.start k).filter CsaCmd.switches

def other (t : Element) : Bool :=
  !hasId eidChannelSwitch t && !(q.env.configEcsa && hasId eidEcsa t)

structure Announces (c : UInt8) (es : List Element) : Prop where
  csa : es.filter (hasId eidChannelSwitch) = [csaElement q.start.rfctl.apCsaCh c]
  ecsa : q.env.configEcsa = true →
    ∃ mode opClass ch, es.filter (hasId eidEcsa) = [ecsaElement mode opClass ch c]
  others : es.filter q.other = q.elements.filter q.other

structure Cleared (es : List Element) : Prop where
  csa : es.filter (hasId eidChannelSwitch) = []
  ecsa : q.env.configEcsa = true → es.filter (hasId eidEcsa) = []
  others : es.filter q.other = q.elements.filter q.other

structure Countdown : Prop where
  counts : ∀ k < q.count, ∃ es, (q.after calls (k + 1)).ies.Lists q.fixed es ∧
    q.Announces (UInt8.ofNat (q.count - k)) es
  clears : ∃ es, (q.after calls (q.count + 1)).ies.Lists q.fixed es ∧ q.Cleared es
  switch : (q.switches calls q.count).length = 1
  quiet : ∀ k, k ≠ q.count → q.switches calls k = []
  settled : ∀ k, q.after calls (q.count + 1 + k) = q.after calls (q.count + 1)

inductive EcsaPlace (before : List Element) :
    Option Element → List Element → Option Element → Prop
  | off {post} (config : q.env.configEcsa = false) : EcsaPlace before none post none
  | added {post} (config : q.env.configEcsa = true) (below : ∀ u ∈ before, u.id < eidEcsa)
    (anchor : ∀ u ∈ before.getLast?, u.body ≠ []) (above : ∀ u ∈ post.head?, eidEcsa < u.id)
    (absent : ∀ u ∈ post, u.id ≠ eidEcsa)
    (moves : CanMove (calls 0).mallocEcsa (encode post).length) :
    EcsaPlace before none post (some (ecsaElement 0 (q.env.opClass q.start.rfctl)
      q.start.rfctl.apCsaCh q.start.rfctl.apCsaSwitchCnt))
  | present {mode opClass ch cnt post} (config : q.env.configEcsa = true)
    (first : ∀ u ∈ before, u.id ≠ eidEcsa) (last : ∀ u ∈ post, u.id ≠ eidEcsa) :
    EcsaPlace before (some (ecsaElement mode opClass ch cnt)) post
      (some (ecsaElement mode opClass ch cnt))

structure Placement (front back : List Element) (old : Option Element) (post : List Element)
    (shown : Option Element) : Prop where
  split : q.elements = front ++ (back ++ (old.toList ++ post))
  below : ∀ u ∈ front, u.id < eidChannelSwitch
  anchor : ∃ t ∈ front.getLast?, t.body ≠ []
  above : ∀ u ∈ (back ++ (old.toList ++ post)).head?, eidChannelSwitch < u.id
  ecsa : q.EcsaPlace calls back old post shown
  room : (q.fixed ++ encode (front ++ csaElement q.start.rfctl.apCsaCh
    q.start.rfctl.apCsaSwitchCnt :: (back ++ (shown.toList ++ post)))).length ≤ maxIeSz
  added : CanMove (calls 0).mallocCsa (encode (back ++ (old.toList ++ post))).length
  csaRemoved : CanMove (calls q.count).mallocCsa
    (encode (back ++ (shown.toList ++ post))).length
  ecsaRemoved : q.env.configEcsa = true →
    CanMove (calls q.count).mallocEcsa (encode post).length

structure Switchable : Prop where
  placed : ∃ front back old post shown, q.Placement calls front back old post shown
  triggers : Triggers q.env (calls q.count).linkingAdapter q.start.rfctl.apCsaEn

end CsaRequest

section Announced

variable {q : CsaRequest} {calls : ℕ → CsaCall} {front back post es : List Element}
  {old shown : Option Element} {c d : UInt8} {malloc : ℕ → Bool} {b : BeaconIes} {r : RfCtl}
  {fixed : List UInt8} {s : CsaState} {k : ℕ}

def counted (c : UInt8) (shown : Option Element) : List Element :=
  (shown.map (setCount ecsaSwitchCount c)).toList

def announced (ch : UInt8) (front back : List Element) (shown : Option Element)
    (post : List Element) (c : UInt8) : List Element :=
  front ++ csaElement ch c :: (back ++ (counted c shown ++ post))

structure EcsaShown (q : CsaRequest) (before : List Element) (shown : Option Element)
    (post : List Element) : Prop where
  off : q.env.configEcsa = false → shown = none
  on : q.env.configEcsa = true → ∃ mode opClass ch cnt,
    shown = some (ecsaElement mode opClass ch cnt)
  first : q.env.configEcsa = true → ∀ u ∈ before, u.id ≠ eidEcsa
  last : q.env.configEcsa = true → ∀ u ∈ post, u.id ≠ eidEcsa

theorem CsaRequest.EcsaPlace.isShown (h : q.EcsaPlace calls back old post shown) :
    EcsaShown q back shown post := by
  cases h with
  | off config =>
    have hoff : ¬ q.env.configEcsa = true := Bool.not_eq_true _ ▸ config
    exact ⟨fun _ => rfl, fun h => absurd h hoff, fun h => absurd h hoff, fun h => absurd h hoff⟩
  | added config below _ _ absent _ =>
    have hon : ¬ q.env.configEcsa = false := (Bool.not_eq_false _).mpr config
    exact ⟨fun h => absurd h hon, fun _ => ⟨_, _, _, _, rfl⟩,
      fun _ u hu => UInt8.ne_of_lt (below u hu), fun _ => absent⟩
  | present config first last =>
    have hon : ¬ q.env.configEcsa = false := (Bool.not_eq_false _).mpr config
    exact ⟨fun h => absurd h hon, fun _ => ⟨_, _, _, _, rfl⟩, fun _ => first, fun _ => last⟩

theorem EcsaShown.counts (h : EcsaShown q back shown post) (hon : Announcing r)
    (hcnt : 0 < r.apCsaSwitchCnt) {pre : List Element}
    (hpre : q.env.configEcsa = true → ∀ u ∈ pre, u.id ≠ eidEcsa)
    (hlists : b.Lists fixed (pre ++ (counted d shown ++ post))) :
    (updateEcsaIe q.env malloc r b).ies.Lists fixed (pre ++ (counted r.apCsaSwitchCnt shown ++ post)) ∧
      (updateEcsaIe q.env malloc r b).process = false := by
  cases hconfig : q.env.configEcsa with
  | false =>
    have hshown := h.off hconfig
    subst hshown
    rw [updateEcsaIe, hconfig]
    exact ⟨hlists, rfl⟩
  | true =>
    obtain ⟨mode, opClass, ch, cnt, rfl⟩ := h.on hconfig
    have hcounted := @updateSwitchIe_counts malloc b fixed pre post (ecsaElement mode opClass ch d)
      eidEcsa (ecsaData 0 (q.env.opClass r) r.apCsaCh r.apCsaSwitchCnt) r ecsaSwitchCount hon hcnt
      hlists (hpre hconfig) rfl rfl (Nat.lt_succ_self 3)
    rw [updateEcsaIe, hconfig]
    exact ⟨hcounted.lists, hcounted.process⟩

theorem EcsaShown.removes (h : EcsaShown q back shown post) (hon : Announcing r)
    (hcnt : r.apCsaSwitchCnt = 0) {pre : List Element}
    (hpre : q.env.configEcsa = true → ∀ u ∈ pre, u.id ≠ eidEcsa)
    (hmove : q.env.configEcsa = true → CanMove malloc (encode post).length)
    (hlists : b.Lists fixed (pre ++ (counted d shown ++ post))) :
    (updateEcsaIe q.env malloc r b).ies.Lists fixed (pre ++ post) := by
  cases hconfig : q.env.configEcsa with
  | false =>
    have hshown := h.off hconfig
    subst hshown
    rw [updateEcsaIe, hconfig]
    exact hlists
  | true =>
    obtain ⟨mode, opClass, ch, cnt, rfl⟩ := h.on hconfig
    have hremoved := @updateSwitchIe_removes malloc b fixed pre post (ecsaElement mode opClass ch d)
      eidEcsa (ecsaData 0 (q.env.opClass r) r.apCsaCh r.apCsaSwitchCnt) r ecsaSwitchCount hon hcnt
      hlists (hpre hconfig) rfl (List.cons_ne_nil _ _) (hmove hconfig)
    rw [updateEcsaIe, hconfig]
    exact hremoved.lists

theorem length_counted (c : UInt8) (shown : Option Element) :
    (encode (counted c shown)).length = (encode shown.toList).length := by
  cases shown with
  | none => rfl
  | some t =>
    have hone : counted c (some t) = [setCount ecsaSwitchCount c t] := rfl
    rw [hone, Option.toList_some, length_encode_one, length_encode_one]
    exact congrArg (· + 2) List.length_set

theorem length_behind (c : UInt8) (back : List Element) (shown : Option Element)
    (post : List Element) : (encode (back ++ (counted c shown ++ post))).length =
      (encode (back ++ (shown.toList ++ post))).length := by
  simp only [encode_append, List.length_append, length_counted]

theorem ends_full (front back : List Element) (ch c : UInt8)
    (hback : ∀ u ∈ back.getLast?, u.body ≠ []) :
    ∃ pre t, front ++ csaElement ch c :: back = pre ++ [t] ∧ t.body ≠ [] := by
  rcases List.eq_nil_or_concat back with rfl | ⟨inner, u, rfl⟩
  · exact ⟨front, csaElement ch c, rfl, List.cons_ne_nil _ _⟩
  · rw [List.concat_eq_append] at hback ⊢
    refine ⟨front ++ csaElement ch c :: inner, u, ?_, hback u List.getLast?_concat⟩
    rw [List.append_assoc, List.cons_append]

theorem before_ecsa (hfront : ∀ u ∈ front, u.id < eidChannelSwitch)
    (hback : ∀ u ∈ back, u.id ≠ eidEcsa) (ch c : UInt8) :
    ∀ u ∈ front ++ csaElement ch c :: back, u.id ≠ eidEcsa := by
  intro u hu
  rcases List.mem_append.mp hu with hleft | hright
  · exact UInt8.ne_of_lt (UInt8.lt_trans (hfront u hleft) (by decide))
  · rcases List.mem_cons.mp hright with rfl | hrest
    · exact fun h => absurd h (by decide : eidChannelSwitch ≠ eidEcsa)
    · exact hback u hrest

theorem below_ecsa (hfront : ∀ u ∈ front, u.id < eidChannelSwitch)
    (hback : ∀ u ∈ back, u.id < eidEcsa) (ch c : UInt8) :
    ∀ u ∈ front ++ csaElement ch c :: back, u.id < eidEcsa := by
  intro u hu
  rcases List.mem_append.mp hu with hleft | hright
  · exact UInt8.lt_trans (hfront u hleft) (by decide)
  · rcases List.mem_cons.mp hright with rfl | hrest
    · exact (by decide : eidChannelSwitch < eidEcsa)
    · exact hback u hrest

theorem announced_eq (ch : UInt8) (front back : List Element) (shown : Option Element)
    (post : List Element) (c : UInt8) : announced ch front back shown post c =
      (front ++ csaElement ch c :: back) ++ (counted c shown ++ post) := by
  rw [announced, List.append_assoc, List.cons_append]

theorem CsaRequest.EcsaPlace.first (h : q.EcsaPlace calls back old post shown)
    (hfront : ∀ u ∈ front, u.id < eidChannelSwitch)
    (hroom : (q.fixed ++ encode (front ++ csaElement q.start.rfctl.apCsaCh
      q.start.rfctl.apCsaSwitchCnt :: (back ++ (shown.toList ++ post)))).length ≤ maxIeSz)
    (hlists : b.Lists q.fixed (front ++ csaElement q.start.rfctl.apCsaCh
      q.start.rfctl.apCsaSwitchCnt :: (back ++ (old.toList ++ post)))) :
    (updateEcsaIe q.env (calls 0).mallocEcsa q.start.rfctl b).ies.Lists q.fixed
        (announced q.start.rfctl.apCsaCh front back shown post q.start.rfctl.apCsaSwitchCnt) ∧
      (updateEcsaIe q.env (calls 0).mallocEcsa q.start.rfctl b).process = false := by
  have hpre := @before_ecsa _ back hfront
  rw [← List.cons_append, ← List.append_assoc] at hlists hroom
  rw [announced_eq]
  cases h with
  | off config =>
    rw [updateEcsaIe, config]
    exact ⟨hlists, rfl⟩
  | added config below anchor above absent moves =>
    obtain ⟨pre, t, hsplit, hbody⟩ := ends_full front back q.start.rfctl.apCsaCh
      q.start.rfctl.apCsaSwitchCnt anchor
    have hbelow := below_ecsa hfront below q.start.rfctl.apCsaCh q.start.rfctl.apCsaSwitchCnt
    rw [hsplit] at hlists hroom hbelow ⊢
    have hadded := @updateSwitchIe_adds (calls 0).mallocEcsa b q.fixed pre post t eidEcsa
      (ecsaData 0 (q.env.opClass q.start.rfctl) q.start.rfctl.apCsaCh
        q.start.rfctl.apCsaSwitchCnt) q.start.rfctl ecsaSwitchCount q.announcing q.counting hlists
      hbelow above absent hbody moves hroom
    rw [updateEcsaIe, config]
    exact ⟨hadded.lists, hadded.process⟩
  | @present mode opClass ch cnt post config first last =>
    have hshown : EcsaShown q back (some (ecsaElement mode opClass ch cnt)) post :=
      (CsaRequest.EcsaPlace.present config first last : q.EcsaPlace calls back _ post _).isShown
    exact hshown.counts (d := cnt) q.announcing q.counting (fun _ => hpre first _ _) hlists

theorem CsaRequest.EcsaPlace.grows (h : q.EcsaPlace calls back old post shown) :
    (encode old.toList).length ≤ (encode shown.toList).length := by
  cases h with
  | off => exact Nat.le_refl _
  | added => exact Nat.zero_le _
  | present => exact Nat.le_refl _

structure Phase (q : CsaRequest) (front back : List Element) (shown : Option Element)
    (post : List Element) (c : UInt8) (s : CsaState) : Prop where
  lists : s.ies.Lists q.fixed (announced q.start.rfctl.apCsaCh front back shown post c)
  rfctl : s.rfctl = { q.start.rfctl with apCsaSwitchCnt := c - 1 }

theorem CsaRequest.Placement.first (h : q.Placement calls front back old post shown) :
    Phase q front back shown post q.start.rfctl.apCsaSwitchCnt
        (updateBeaconCsa q.env (calls 0) q.start).1 ∧
      (updateBeaconCsa q.env (calls 0) q.start).2 = txBeacon (calls 0) := by
  obtain ⟨t, hlast, hbody⟩ := h.anchor
  obtain ⟨pre, rfl⟩ := List.getLast?_eq_some_iff.mp hlast
  have hlists := q.lists
  rw [h.split] at hlists
  have hnone : ∀ u ∈ back ++ (old.toList ++ post), u.id ≠ eidChannelSwitch := by
    intro u hu
    refine q.noCsa u ?_
    rw [h.split]
    exact List.mem_append_right _ hu
  have hroom : (q.fixed ++ encode ((pre ++ [t]) ++ csaElement q.start.rfctl.apCsaCh
      q.start.rfctl.apCsaSwitchCnt :: (back ++ (old.toList ++ post)))).length ≤ maxIeSz := by
    have hroom := h.room
    have hgrows := h.ecsa.grows
    simp only [encode_append, encode_cons, List.length_append] at hroom ⊢
    omega
  have hcsa : Counted (updateCsaIe (calls 0).mallocCsa q.start.rfctl q.start.ies) q.fixed _ :=
    @updateSwitchIe_adds _ _ _ _ _ _ _
      (csaData q.start.rfctl.apCsaCh q.start.rfctl.apCsaSwitchCnt) _ _ q.announcing q.counting hlists
      h.below h.above hnone hbody h.added hroom
  obtain ⟨hecsa, hprocess⟩ := h.ecsa.first h.below h.room hcsa.lists
  rw [updateBeaconCsa_counts q.started hcsa hprocess q.counting]
  exact ⟨⟨hecsa, rfl⟩, rfl⟩

theorem Phase.announcing (h : Phase q front back shown post c s) : Announcing s.rfctl := by
  rw [h.rfctl]
  exact q.announcing

theorem Phase.counts (h : Phase q front back shown post c s) (hshown : EcsaShown q back shown post)
    (hfront : ∀ u ∈ front, u.id < eidChannelSwitch) (hc : 0 < c - 1) (call : CsaCall) :
    Phase q front back shown post (c - 1) (updateBeaconCsa q.env call s).1 ∧
      (updateBeaconCsa q.env call s).2 = txBeacon call := by
  have hcnt : s.rfctl.apCsaSwitchCnt = c - 1 := congrArg RfCtl.apCsaSwitchCnt h.rfctl
  have hpos : 0 < s.rfctl.apCsaSwitchCnt := hcnt ▸ hc
  have hcsa : Counted (updateCsaIe call.mallocCsa s.rfctl s.ies) q.fixed
      (front ++ csaElement q.start.rfctl.apCsaCh s.rfctl.apCsaSwitchCnt ::
        (back ++ (counted c shown ++ post))) :=
    @updateSwitchIe_counts _ _ _ _ _ _ _ (csaData s.rfctl.apCsaCh s.rfctl.apCsaSwitchCnt) _ _
      h.announcing hpos h.lists (fun u hu => UInt8.ne_of_lt (hfront u hu)) rfl rfl (Nat.lt_succ_self 2)
  have hlists := hcsa.lists
  rw [← List.cons_append, ← List.append_assoc] at hlists
  obtain ⟨hecsa, hprocess⟩ := @EcsaShown.counts _ _ _ _ _ call.mallocEcsa _ _ _ hshown
    h.announcing hpos _ (fun hconfig => before_ecsa hfront (hshown.first hconfig) _ _) hlists
  rw [updateBeaconCsa_counts q.started hcsa hprocess hpos]
  refine ⟨⟨?_, ?_⟩, rfl⟩
  · rw [announced_eq, ← hcnt]
    exact hecsa
  · change { s.rfctl with apCsaSwitchCnt := s.rfctl.apCsaSwitchCnt - 1 } = _
    rw [hcnt, h.rfctl]

theorem Phase.clears (h : Phase q front back shown post c s) (hshown : EcsaShown q back shown post)
    (hfront : ∀ u ∈ front, u.id < eidChannelSwitch) (hc : c - 1 = 0) {call : CsaCall}
    (hcsaMoves : CanMove call.mallocCsa (encode (back ++ (shown.toList ++ post))).length)
    (hecsaMoves : q.env.configEcsa = true → CanMove call.mallocEcsa (encode post).length)
    (htriggers : Triggers q.env call.linkingAdapter q.start.rfctl.apCsaEn) :
    (updateBeaconCsa q.env call s).1.ies.Lists q.fixed (front ++ (back ++ post)) ∧
      (updateBeaconCsa q.env call s).1.rfctl.apCsaEn = csaIeRemove ∧
      ((updateBeaconCsa q.env call s).2.filter CsaCmd.switches).length = 1 := by
  have hcnt : s.rfctl.apCsaSwitchCnt = 0 := (congrArg RfCtl.apCsaSwitchCnt h.rfctl).trans hc
  have hen : s.rfctl.apCsaEn = q.start.rfctl.apCsaEn := by
    rw [h.rfctl]
  rw [← length_behind c] at hcsaMoves
  have hcsa : Removed (updateCsaIe call.mallocCsa s.rfctl s.ies) q.fixed
      (front ++ (back ++ (counted c shown ++ post))) :=
    updateSwitchIe_removes h.announcing hcnt h.lists (fun u hu => UInt8.ne_of_lt (hfront u hu)) rfl
      (List.cons_ne_nil _ _) hcsaMoves
  have hlists := hcsa.lists
  rw [← List.append_assoc front] at hlists
  have hpre : q.env.configEcsa = true → ∀ u ∈ front ++ back, u.id ≠ eidEcsa := by
    intro hconfig u hu
    refine before_ecsa hfront (hshown.first hconfig) 0 0 u ?_
    cases List.mem_append.mp hu with
    | inl hleft => exact List.mem_append_left _ hleft
    | inr hright => exact List.mem_append_right _ (List.mem_cons_of_mem _ hright)
  have hecsa := hshown.removes h.announcing hcnt hpre hecsaMoves hlists
  obtain ⟨hen', hswitch⟩ := apProcessCsa_triggers (r := s.rfctl) (hen ▸ htriggers) hcnt
  rw [updateBeaconCsa_clears q.started hcsa]
  refine ⟨?_, ?_, ?_⟩
  · rw [← List.append_assoc]
    exact hecsa
  · change (countDown true (apProcessCsa q.env call.linkingAdapter s.rfctl).1).apCsaEn = _
    have hzero : ({ s.rfctl with apCsaEn := csaIeRemove } : RfCtl).apCsaSwitchCnt = 0 := hcnt
    rw [hen', countDown_zero hzero]
  · rw [List.filter_append, txBeacon_quiet, List.append_nil]
    exact hswitch

theorem filter_absent {eid : UInt8} (h : ∀ u ∈ es, u.id ≠ eid) : es.filter (hasId eid) = [] :=
  List.filter_eq_nil_iff.mpr fun u hu => Bool.eq_false_iff.mp (hasId_false.mpr (h u hu))

theorem EcsaShown.ids (h : EcsaShown q back shown post) (c : UInt8) :
    ∀ u ∈ counted c shown, u.id = eidEcsa := by
  cases hconfig : q.env.configEcsa with
  | false =>
    rw [h.off hconfig]
    exact fun u hu => absurd hu List.not_mem_nil
  | true =>
    obtain ⟨mode, opClass, ch, cnt, rfl⟩ := h.on hconfig
    intro u hu
    rw [List.mem_singleton.mp hu]
    rfl

theorem EcsaShown.hidden (h : EcsaShown q back shown post) (c : UInt8) :
    (counted c shown).filter q.other = [] := by
  cases hconfig : q.env.configEcsa with
  | false =>
    rw [h.off hconfig]
    rfl
  | true =>
    refine List.filter_eq_nil_iff.mpr fun u hu => ?_
    simp only [CsaRequest.other, hconfig, hasId_iff.mpr (h.ids c u hu), Bool.and_self,
      Bool.not_true, Bool.and_false, Bool.false_eq_true, not_false_eq_true]

theorem CsaRequest.EcsaPlace.hidden (h : q.EcsaPlace calls back old post shown) :
    old.toList.filter q.other = [] := by
  cases h with
  | off => rfl
  | added => rfl
  | @present mode opClass ch cnt _ config first last =>
    have hshown : EcsaShown q back (some (ecsaElement mode opClass ch cnt)) post :=
      (CsaRequest.EcsaPlace.present config first last : q.EcsaPlace calls back _ post _).isShown
    exact hshown.hidden cnt

theorem csa_hidden (ch c : UInt8) : q.other (csaElement ch c) = false := by
  have hcsa : hasId eidChannelSwitch (csaElement ch c) = true := hasId_iff.mpr rfl
  rw [CsaRequest.other, hcsa, Bool.not_true, Bool.false_and]

namespace CsaRequest.Placement

variable (h : q.Placement calls front back old post shown)
include h

theorem others : (front ++ (back ++ post)).filter q.other = q.elements.filter q.other := by
  rw [h.split]
  simp only [List.filter_append, h.ecsa.hidden, List.nil_append]

theorem noCsa_back : ∀ u ∈ back, u.id ≠ eidChannelSwitch := by
  intro u hu
  refine q.noCsa u ?_
  rw [h.split]
  exact List.mem_append_right _ (List.mem_append_left _ hu)

theorem noCsa_post : ∀ u ∈ post, u.id ≠ eidChannelSwitch := by
  intro u hu
  refine q.noCsa u ?_
  rw [h.split]
  exact List.mem_append_right _ (List.mem_append_right _ (List.mem_append_right _ hu))

theorem noCsa_front : ∀ u ∈ front, u.id ≠ eidChannelSwitch :=
  fun u hu => UInt8.ne_of_lt (h.below u hu)

theorem noEcsa_front : ∀ u ∈ front, u.id ≠ eidEcsa :=
  fun u hu => UInt8.ne_of_lt (UInt8.lt_trans (h.below u hu) (by decide))

theorem announces (c : UInt8) :
    q.Announces c (announced q.start.rfctl.apCsaCh front back shown post c) := by
  have hshown := h.ecsa.isShown
  refine ⟨?_, fun hconfig => ?_, ?_⟩
  · have hcounted : ∀ u ∈ counted c shown, u.id ≠ eidChannelSwitch := by
      intro u hu hid
      exact absurd (hid.symm.trans (hshown.ids c u hu)) (by decide)
    have hcsa : hasId eidChannelSwitch (csaElement q.start.rfctl.apCsaCh c) = true :=
      hasId_iff.mpr rfl
    rw [announced, List.filter_append, filter_absent h.noCsa_front, List.nil_append,
      List.filter_cons_of_pos hcsa, List.filter_append, filter_absent h.noCsa_back,
      List.nil_append, List.filter_append, filter_absent hcounted, List.nil_append,
      filter_absent h.noCsa_post]
  · obtain ⟨mode, opClass, ch, cnt, rfl⟩ := hshown.on hconfig
    have hbefore := before_ecsa h.below (hshown.first hconfig) q.start.rfctl.apCsaCh c
    refine ⟨mode, opClass, ch, ?_⟩
    rw [announced_eq, List.filter_append, filter_absent hbefore, List.nil_append,
      List.filter_append, filter_absent (hshown.last hconfig), List.append_nil]
    rfl
  · rw [← h.others, announced]
    simp only [List.filter_append, hshown.hidden, List.nil_append,
      List.filter_cons_of_neg (Bool.eq_false_iff.mp (csa_hidden q.start.rfctl.apCsaCh c))]

theorem cleared : q.Cleared (front ++ (back ++ post)) := by
  have hshown := h.ecsa.isShown
  refine ⟨?_, fun hconfig => ?_, h.others⟩
  · rw [List.filter_append, filter_absent h.noCsa_front, List.filter_append,
      filter_absent h.noCsa_back, filter_absent h.noCsa_post]
    rfl
  · rw [List.filter_append, filter_absent h.noEcsa_front, List.filter_append,
      filter_absent (hshown.first hconfig), filter_absent (hshown.last hconfig)]
    rfl

end CsaRequest.Placement

theorem pred_ofNat {n : ℕ} (h : 0 < n) : UInt8.ofNat n - 1 = UInt8.ofNat (n - 1) := by
  obtain ⟨n, rfl⟩ := Nat.exists_eq_succ_of_ne_zero (Nat.ne_of_gt h)
  rw [Nat.succ_eq_add_one, UInt8.ofNat_add, Nat.add_sub_cancel]
  exact UInt8.add_sub_cancel _ _

theorem pos_ofNat {n : ℕ} (h : 0 < n) (hn : n < 256) : 0 < UInt8.ofNat n := by
  rw [UInt8.lt_iff_toNat_lt, UInt8.toNat_ofNat', Nat.mod_eq_of_lt hn]
  exact h

theorem CsaRequest.count_pos (q : CsaRequest) : 0 < q.count := UInt8.lt_iff_toNat_lt.mp q.counting

theorem CsaRequest.Placement.counts_down (h : q.Placement calls front back old post shown) {k : ℕ}
    (hk : k < q.count) :
    Phase q front back shown post (UInt8.ofNat (q.count - k)) (q.after calls (k + 1)) ∧
      csaCmds q.env calls q.start k = txBeacon (calls k) := by
  induction k with
  | zero =>
    rw [Nat.sub_zero, CsaRequest.count, UInt8.ofNat_toNat]
    exact h.first
  | succ k ih =>
    obtain ⟨hphase, -⟩ := ih (Nat.lt_of_succ_lt hk)
    have hpred : UInt8.ofNat (q.count - k) - 1 = UInt8.ofNat (q.count - (k + 1)) :=
      pred_ofNat (Nat.sub_pos_of_lt (Nat.lt_of_succ_lt hk))
    have hbound : q.count < 256 := UInt8.toNat_lt _
    have hpos : 0 < UInt8.ofNat (q.count - k) - 1 := by
      rw [hpred]
      exact pos_ofNat (Nat.sub_pos_of_lt hk) (by omega)
    have hstep := hphase.counts h.ecsa.isShown h.below hpos (calls (k + 1))
    rw [hpred] at hstep
    exact hstep

theorem CsaRequest.Switchable.last (h : q.Switchable calls) :
    (∃ es, (q.after calls (q.count + 1)).ies.Lists q.fixed es ∧ q.Cleared es) ∧
      ¬ Announcing (q.after calls (q.count + 1)).rfctl ∧
      (q.switches calls q.count).length = 1 := by
  obtain ⟨front, back, old, post, shown, hplace⟩ := h.placed
  have hcount := q.count_pos
  obtain ⟨hphase, -⟩ := hplace.counts_down (Nat.sub_lt hcount Nat.one_pos)
  rw [Nat.sub_add_cancel hcount, Nat.sub_sub_self hcount] at hphase
  obtain ⟨hlists, hen, hswitch⟩ := hphase.clears hplace.ecsa.isShown hplace.below (by decide)
    hplace.csaRemoved hplace.ecsaRemoved h.triggers
  exact ⟨⟨_, hlists, hplace.cleared⟩, fun hon => hon.2 hen, hswitch⟩

theorem CsaRequest.settles (h : ¬ Announcing (q.after calls k).rfctl) (n : ℕ) :
    q.after calls (k + n) = q.after calls k := by
  induction n with
  | zero => rfl
  | succ n ih =>
    have hstep : q.after calls (k + (n + 1)) =
        (updateBeaconCsa q.env (calls (k + n)) (q.after calls (k + n))).1 := rfl
    rw [hstep, ih, updateBeaconCsa_settled q.started h]

theorem CsaRequest.quiet_after (h : ¬ Announcing (q.after calls k).rfctl) :
    q.switches calls k = [] := by
  have hcmds : csaCmds q.env calls q.start k = txBeacon (calls k) :=
    congrArg Prod.snd (updateBeaconCsa_settled q.started h)
  rw [CsaRequest.switches, hcmds, txBeacon_quiet]

theorem csa_countdown (q : CsaRequest) (calls : ℕ → CsaCall) (h : q.Switchable calls) :
    q.Countdown calls := by
  obtain ⟨hclears, hidle, hswitch⟩ := h.last
  obtain ⟨front, back, old, post, shown, hplace⟩ := h.placed
  refine ⟨fun k hk => ?_, hclears, hswitch, fun k hk => ?_, CsaRequest.settles hidle⟩
  · exact ⟨_, (hplace.counts_down hk).1.lists, hplace.announces _⟩
  · cases Nat.lt_or_ge k q.count with
    | inl hlt =>
      rw [CsaRequest.switches, (hplace.counts_down hlt).2, txBeacon_quiet]
    | inr hge =>
      obtain ⟨n, rfl⟩ := Nat.exists_eq_add_of_le (Nat.lt_of_le_of_ne hge (Ne.symm hk))
      refine CsaRequest.quiet_after ?_
      rw [CsaRequest.settles hidle]
      exact hidle

end Announced

def quietCall : CsaCall := ⟨fun _ => true, fun _ => true, none, true, false⟩

def plainBytes : List UInt8 := [0, 0, 0, 0, 0, 0, 0, 0, 100, 0, 0, 0, 0, 1, 0x61, 1, 1, 0x82, 3, 1, 6]

def plainElements : List Element :=
  [oneByteElement ssidIe 0x61, oneByteElement supportedRatesIe 0x82, oneByteElement dsIe 6]

theorem plainBytes_lists :
    (⟨Ie.memOf plainBytes 0, 21⟩ : BeaconIes).Lists (plainBytes.take 12) plainElements :=
  ⟨rfl, .of_read (by decide +kernel), rfl, by decide⟩

theorem plain_noCsa : ∀ t ∈ plainElements, t.id ≠ eidChannelSwitch := by decide

def switchToEleven (n : UInt8) : RfCtl := ⟨apSwitchChCsa, n, 11, 0, 0, 0, 0⟩

theorem switchToEleven_announcing (n : UInt8) : Announcing (switchToEleven n) := by
  have hset : apSwitchChCsa ≠ apCsaDisable ∧ apSwitchChCsa ≠ csaIeRemove := by decide
  exact hset

def plainRequest : CsaRequest where
  env := ⟨true, true, true, 0, fun _ _ _ => 81⟩
  start := ⟨⟨Ie.memOf plainBytes 0, 21⟩, switchToEleven 2⟩
  fixed := plainBytes.take 12
  elements := plainElements
  started := rfl
  announcing := switchToEleven_announcing 2
  counting := by decide
  lists := plainBytes_lists
  noCsa := plain_noCsa

theorem plainRequest_place : plainRequest.EcsaPlace (fun _ => quietCall) [] none []
    (some (ecsaElement 0 81 11 2)) :=
  .added rfl (fun _ hu => absurd hu List.not_mem_nil) (fun _ hu => absurd hu nofun)
    (fun _ hu => absurd hu nofun) (fun _ hu => absurd hu List.not_mem_nil) fun _ => rfl

theorem plainRequest_placed : plainRequest.Placement (fun _ => quietCall) plainElements [] none []
    (some (ecsaElement 0 81 11 2)) where
  split := rfl
  below := by decide
  anchor := ⟨oneByteElement dsIe 6, rfl, List.cons_ne_nil _ _⟩
  above := fun _ hu => absurd hu nofun
  ecsa := plainRequest_place
  room := by decide
  added := fun _ => rfl
  csaRemoved := fun _ => rfl
  ecsaRemoved := fun _ _ => rfl

theorem csa_countdown_from_two : plainRequest.Countdown fun _ => quietCall :=
  csa_countdown plainRequest (fun _ => quietCall)
    ⟨⟨_, _, _, _, _, plainRequest_placed⟩, ⟨.inl rfl⟩⟩

def emptyBeforeCsaBytes : List UInt8 := plainBytes ++ [36, 0]

def emptyBeforeCsaElements : List Element := plainElements ++ [⟨36, [], emptyBody_short⟩]

theorem emptyBeforeCsa_lists : (⟨Ie.memOf emptyBeforeCsaBytes 0, 23⟩ : BeaconIes).Lists
    (plainBytes.take 12) emptyBeforeCsaElements :=
  ⟨rfl, .of_read (by decide +kernel), rfl, by decide⟩

theorem emptyBeforeCsa_noCsa : ∀ t ∈ emptyBeforeCsaElements, t.id ≠ eidChannelSwitch := by decide

def emptyBeforeCsaRequest : CsaRequest where
  env := ⟨false, true, true, 0, fun _ _ _ => 81⟩
  start := ⟨⟨Ie.memOf emptyBeforeCsaBytes 0, 23⟩, switchToEleven 1⟩
  fixed := plainBytes.take 12
  elements := emptyBeforeCsaElements
  started := rfl
  announcing := switchToEleven_announcing 1
  counting := by decide
  lists := emptyBeforeCsa_lists
  noCsa := emptyBeforeCsa_noCsa

theorem csa_not_added_behind_empty : ¬ emptyBeforeCsaRequest.Countdown fun _ => quietCall := by
  intro h
  have hkept : (emptyBeforeCsaRequest.after (fun _ => quietCall) 1).ies.Lists (plainBytes.take 12)
      emptyBeforeCsaElements :=
    ⟨rfl, .of_read (by decide +kernel), by decide +kernel, by decide⟩
  obtain ⟨es, hlists, hshown⟩ := h.counts 0 (by decide)
  obtain rfl := hlists.unique hkept
  exact absurd (congrArg List.length hshown.csa) (by decide)

end Ap
