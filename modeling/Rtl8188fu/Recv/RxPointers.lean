import Mathlib.Algebra.Group.Int.Defs
import Rtl8188fu.Lib.PacketBuffer
import Rtl8188fu.Recv.Amsdu
import Rtl8188fu.Recv.Defrag

namespace Recv.RxPointers

open ByteMemory (read)
open PacketBuffer (Buf Access)
open Amsdu (LlcHdl snapSize ethHlen beLen)

structure RxHdr where
  slot : ℕ
  attrib : RxPktAttrib
  keytrack : ℤ
  psta : Option MacAddr
  preorderCtrl : Option (Fin 16)
  buf : Buf UInt8

structure Step where
  frame : Option RxHdr
  buffers : List (Buf UInt8)
  accesses : List Access
  pulls : List Bool

def dropped (accesses : List Access) : Step := ⟨none, [], accesses, []⟩

namespace RxHdr

variable (f : RxHdr)

def toRecvFrame : RecvFrame where
  slot := f.slot
  attrib := f.attrib
  keytrack := f.keytrack
  data := f.buf.contents
  spare := f.buf.room
  psta := f.psta
  preorderCtrl := f.preorderCtrl

def withBuf (buf : Buf UInt8) : RxHdr := { f with buf := buf }

def recvframePull (n : ℕ) : Option RxHdr := (f.buf.pull n).map f.withBuf

def recvframePut (n : ℕ) : Option RxHdr := (f.buf.put n).map f.withBuf

def recvframePullTail (n : ℕ) : Option RxHdr := (f.buf.pullTail n).map f.withBuf

def memcpy (dst : ℕ) (bs : List UInt8) : RxHdr := f.withBuf (f.buf.store dst bs)

def wlanhdrOffset : ℕ := (f.attrib.hdrlen + f.attrib.ivLen) % 256

def ccmpPn : ℕ := ccmph2Pn (le64 (read f.buf.mem (f.buf.data + f.attrib.hdrlen) 8) 0)

def curPn (curPn : ℕ) : ℕ := if checksPn f.attrib.encrypt then f.ccmpPn else curPn

def pnAccesses : List Access :=
  if checksPn f.attrib.encrypt then [f.buf.access (f.buf.data + f.attrib.hdrlen) 8] else []

@[simp] theorem withBuf_buf (buf : Buf UInt8) : (f.withBuf buf).buf = buf := rfl

@[simp] theorem memcpy_buf (dst : ℕ) (bs : List UInt8) :
    (f.memcpy dst bs).buf = f.buf.store dst bs := rfl

end RxHdr

def appendFragment (prframe pnextrframe : RxHdr) : Step :=
  let pulled := pnextrframe.recvframePull pnextrframe.wlanhdrOffset
  let next := pulled.getD pnextrframe
  if prframe.buf.limit - prframe.buf.tail < next.buf.len then
    ⟨none, [next.buf], [], [pulled.isSome]⟩
  else
    let cut := prframe.recvframePullTail prframe.attrib.icvLen
    let head := cut.getD prframe
    let copied := head.memcpy head.buf.tail (read next.buf.mem next.buf.data next.buf.len)
    let longer := (copied.recvframePut next.buf.len).getD copied
    ⟨some { longer with attrib := { longer.attrib with icvLen := next.attrib.icvLen } },
      [next.buf, head.buf, longer.buf],
      [next.buf.access next.buf.data next.buf.len, longer.buf.access head.buf.tail next.buf.len],
      [pulled.isSome, cut.isSome]⟩

def defragIter (prframe : RxHdr) (curPn curfragnum : ℕ) (pnextrframe : RxHdr) : Step :=
  if checksPn pnextrframe.attrib.encrypt ∧ pnextrframe.ccmpPn ≠ curPn + 1 then
    dropped pnextrframe.pnAccesses
  else if prframe.keytrack ≠ pnextrframe.keytrack then dropped pnextrframe.pnAccesses
  else if curfragnum ≠ pnextrframe.attrib.fragNum then dropped pnextrframe.pnAccesses
  else
    let s := appendFragment prframe pnextrframe
    { s with accesses := pnextrframe.pnAccesses ++ s.accesses }

def defragLoop (prframe : RxHdr) (curPn curfragnum : ℕ) : List RxHdr → List Step
  | [] => []
  | pnextrframe :: rest =>
    let s := defragIter prframe curPn curfragnum pnextrframe
    s :: match s.frame with
      | none => []
      | some prframe => defragLoop prframe (pnextrframe.curPn curPn) (curfragnum + 1) rest

def defragHead (prframe : RxHdr) : Step :=
  if prframe.attrib.fragNum ≠ 0 then dropped prframe.pnAccesses
  else ⟨some prframe, [prframe.buf], prframe.pnAccesses, []⟩

def recvframeDefrag : List RxHdr → List Step
  | [] => []
  | prframe :: rest =>
    defragHead prframe ::
      if prframe.attrib.fragNum ≠ 0 then [] else defragLoop prframe (prframe.curPn 0) 1 rest

def micHeader (f : RxHdr) : List Access :=
  let header := f.buf.data
  let flags := (f.buf.mem (header + 1)).toNat
  f.buf.access (header + 1) 1 ::
    if bitAt flags 0 then
      [f.buf.access (header + 16) 6, f.buf.access (header + if bitAt flags 1 then 24 else 10) 6]
    else
      [f.buf.access (header + 4) 6, f.buf.access (header + if bitAt flags 1 then 16 else 10) 6]

def micDatalen (f : RxHdr) : ℕ :=
  (((f.buf.len : ℤ) - f.attrib.hdrlen - f.attrib.ivLen - f.attrib.icvLen - 8) % 2 ^ 32).toNat

def micAccesses (f : RxHdr) : List Access :=
  let payload := f.buf.data + f.attrib.hdrlen + f.attrib.ivLen
  micHeader f ++ [f.buf.access payload (micDatalen f), f.buf.access (payload + micDatalen f) 8]

def micMatches (crypto : Crypto) (mickey : List UInt8) (f : RxHdr) : Bool :=
  let payload := f.buf.data + f.attrib.hdrlen + f.attrib.ivLen
  crypto.seccalctkipmic mickey f.buf.contents (read f.buf.mem payload (micDatalen f))
      f.attrib.priority =
    read f.buf.mem (payload + micDatalen f) 8

def pullMic (f : RxHdr) (accesses : List Access) (ok : Bool) : Step :=
  let cut := f.recvframePullTail 8
  let f := cut.getD f
  ⟨if ok then some f else none, [f.buf], accesses, [cut.isSome]⟩

def recvframeChkmic (crypto : Crypto) (a : Adapter) (f : RxHdr) : Step :=
  let pattrib := f.attrib
  if pattrib.encrypt ≠ .tkip then ⟨some f, [f.buf], [], []⟩
  else
    match rtwGetStainfo a.stapriv pattrib.ta with
    | none => pullMic f [] true
    | some stainfo =>
      if isMcast pattrib.ra && !a.securitypriv.binstallGrpkey then dropped []
      else if f.buf.len ≤ pattrib.hdrlen then dropped []
      else if micDatalen f > f.buf.tail - f.buf.data ∨ micDatalen f > f.buf.limit - f.buf.data then
        dropped []
      else
        let mickey := if isMcast pattrib.ra then
            a.securitypriv.dot118021XGrprxmickey pattrib.keyIndex
          else stainfo.dot11tkiprxmickey
        pullMic f (micAccesses f) (micMatches crypto mickey f)

def rmvLen (pattrib : RxPktAttrib) (llcHdl : LlcHdl) : ℕ :=
  pattrib.hdrlen + pattrib.ivLen + if llcHdl = .remove then snapSize else 0

def ethPull (pattrib : RxPktAttrib) (llcHdl : LlcHdl) : ℕ :=
  rmvLen pattrib llcHdl - ethHlen + if llcHdl = .remove then 2 else 0

def ethLen (f : RxHdr) (llcHdl : LlcHdl) : ℕ :=
  (((f.buf.len : ℤ) - rmvLen f.attrib llcHdl) % 2 ^ 16).toNat

def ethHeader (len : ℕ) (llcHdl : LlcHdl) (f : RxHdr) : Step :=
  let ptr := f.buf.data
  let addressed := (f.memcpy ptr f.attrib.dst.toList).memcpy (ptr + 6) f.attrib.src.toList
  let addresses := [f.buf.access ptr 6, f.buf.access (ptr + 6) 6]
  match llcHdl with
  | .remove => ⟨some addressed, [addressed.buf], addresses, []⟩
  | .keep =>
    let typed := addressed.memcpy (ptr + 12) (beLen len)
    ⟨some typed, [typed.buf], addresses ++ [f.buf.access (ptr + 12) 2], []⟩

def wlanhdrToEthhdr (f : RxHdr) (llcHdl : LlcHdl) : Step :=
  let cut := if f.attrib.encrypt ≠ .noPrivacy then f.recvframePullTail f.attrib.icvLen else some f
  let f := cut.getD f
  match f.recvframePull (ethPull f.attrib llcHdl) with
  | none => ⟨none, [f.buf], [], [cut.isSome, false]⟩
  | some g =>
    let s := ethHeader (ethLen f llcHdl) llcHdl g
    { s with buffers := f.buf :: g.buf :: s.buffers, pulls := [cut.isSome, true] }

def outcome (prframe : RxHdr) : List Step → Option RxHdr
  | [] => some prframe
  | s :: rest =>
    match s.frame with
    | none => none
    | some prframe => outcome prframe rest

inductive Arrival where
  | whole (f : RxHdr)
  | fragments (first : RxHdr) (rest : List RxHdr)

namespace Arrival

def frames : Arrival → List RxHdr
  | whole f => [f]
  | fragments first rest => first :: rest

def defragSteps : Arrival → List Step
  | whole _ => []
  | fragments first rest => recvframeDefrag (first :: rest)

def defragged : Arrival → Option RxHdr
  | whole f => some f
  | fragments first rest => outcome first (recvframeDefrag (first :: rest))

end Arrival

variable (crypto : Crypto) (a : Adapter) (llcHdl : LlcHdl)

def chkmicStep (f : RxHdr) : Step :=
  if f.attrib.privacy then recvframeChkmic crypto a f else ⟨some f, [], [], []⟩

def rxPath (x : Arrival) : List Step :=
  x.defragSteps ++
    match x.defragged with
    | none => []
    | some f =>
      let mic := chkmicStep crypto a f
      mic ::
        match mic.frame with
        | none => []
        | some f => [wlanhdrToEthhdr f llcHdl]

structure DataAttrib (p : RxPktAttrib) : Prop where
  hdrlen_ge : 24 ≤ p.hdrlen
  hdrlen_le : p.hdrlen ≤ 36
  ivLen_le : p.ivLen ≤ 18
  icvLen_le : p.icvLen ≤ 16

structure Received (f : RxHdr) : Prop where
  valid : f.buf.Valid
  attrib : DataAttrib f.attrib

structure Step.Disciplined (s : Step) : Prop where
  valid : ∀ b ∈ s.buffers, b.Valid
  inside : ∀ a ∈ s.accesses, a.Inside
  dropped : false ∈ s.pulls → s.frame = none

namespace RxHdr

variable (f : RxHdr)

def pastIv : ℕ := f.attrib.hdrlen + f.attrib.ivLen

def payloadLen : ℕ := if f.pastIv ≤ f.buf.len then f.buf.len - f.pastIv else f.buf.len

def roomLen : ℕ := f.buf.limit - f.buf.tail

def PnInside : Prop := checksPn f.attrib.encrypt = true → f.attrib.hdrlen + 8 ≤ f.buf.len

def Follows (keytrack : ℤ) (curPn k : ℕ) : Prop :=
  (checksPn f.attrib.encrypt = true → f.ccmpPn = curPn + 1) ∧ keytrack = f.keytrack ∧
    k = f.attrib.fragNum

end RxHdr

def FragMeets (keytrack : ℤ) (len room icv curPn k : ℕ) : List RxHdr → Prop
  | [] => True
  | g :: rest =>
    g.PnInside ∧
      (g.Follows keytrack curPn k → room < g.payloadLen ∨
        g.pastIv ≤ g.buf.len ∧ icv ≤ len ∧
          FragMeets keytrack (len - icv + g.payloadLen) (room + icv - g.payloadLen)
            g.attrib.icvLen (g.curPn curPn) (k + 1) rest)

def DefragMeets : List RxHdr → Prop
  | [] => True
  | f :: rest =>
    f.PnInside ∧ (f.attrib.fragNum = 0 →
      FragMeets f.keytrack f.buf.len f.roomLen f.attrib.icvLen (f.curPn 0) 1 rest)

def ChkmicMeets (a : Adapter) (f : RxHdr) : Prop :=
  f.attrib.encrypt = .tkip → rtwGetStainfo a.stapriv f.attrib.ta = none → 8 ≤ f.buf.len

def cutLen (f : RxHdr) : ℕ :=
  if f.attrib.encrypt ≠ .noPrivacy ∧ f.attrib.icvLen ≤ f.buf.len then
    f.buf.len - f.attrib.icvLen
  else f.buf.len

def EthhdrMeets (f : RxHdr) (llcHdl : LlcHdl) : Prop :=
  cutLen f < ethPull f.attrib llcHdl ∨
    (f.attrib.encrypt ≠ .noPrivacy → f.attrib.icvLen ≤ f.buf.len) ∧
      f.pastIv + (if llcHdl = .remove then snapSize else 0) ≤ cutLen f

variable {f g pr : RxHdr} {n k pn : ℕ} {a : Adapter} {llcHdl : LlcHdl} {crypto : Crypto}

theorem setIceIvLen_le (e : SecurityType) : (setIceIvLen e).1 ≤ 18 ∧ (setIceIvLen e).2 ≤ 16 := by
  cases e <;> decide

theorem parseQc_hdrlen (f : RecvFrame) (psta : StaInfo) :
    24 ≤ (parseQc f psta).attrib.hdrlen ∧ (parseQc f psta).attrib.hdrlen ≤ 36 := by
  simp only [parseQc, a4Shift]
  split <;> split <;> split <;> omega

theorem decacheDataFrame_hdrlen {a : Adapter} {f g : RecvFrame} {psta : StaInfo}
    (h : decacheDataFrame a f = .ok (g, psta)) : 24 ≤ g.attrib.hdrlen ∧ g.attrib.hdrlen ≤ 36 := by
  rw [decacheDataFrame] at h
  split at h
  · cases h
  · split at h
    · cases h
    · dsimp only at h
      split at h
      · cases h
      · cases h
        exact parseQc_hdrlen _ _

theorem protect_dataAttrib {a : Adapter} {psta : StaInfo} {f : RecvFrame}
    (hmin : 24 ≤ f.attrib.hdrlen) (hmax : f.attrib.hdrlen ≤ 36) :
    DataAttrib (protect a psta f).frame.attrib := by
  rw [protect, setEncrypt]
  dsimp only
  split
  · exact ⟨hmin, hmax, (setIceIvLen_le _).1, (setIceIvLen_le _).2⟩
  · exact ⟨hmin, hmax, Nat.zero_le _, Nat.zero_le _⟩

theorem validated_dataAttrib {a : Adapter} {f : RecvFrame}
    (h : (validateRecvDataFrame a f).ret = .success) :
    DataAttrib (validateRecvDataFrame a f).frame.attrib := by
  rw [validateRecvDataFrame] at h ⊢
  split
  · rename_i hdecache
    simp only [hdecache] at h
    exact absurd h (decacheDataFrame_error hdecache)
  · rename_i hdecache
    obtain ⟨hmin, hmax⟩ := decacheDataFrame_hdrlen hdecache
    simp only [hdecache] at h
    rw [checkPn] at h ⊢
    split at h
    · rename_i hmcast
      rw [if_pos hmcast]
      split at h
      · cases h
      · exact protect_dataAttrib hmin hmax
    · rename_i hucast
      rw [if_neg hucast]
      exact protect_dataAttrib hmin hmax

theorem access_inside_iff (h : f.buf.Valid) {i : ℕ} (hn : 0 < n) :
    (f.buf.access (f.buf.data + i) n).Inside ↔ i + n ≤ f.buf.len := by
  have htail := h.tail_eq
  simp only [Access.Inside, Buf.access]
  omega

theorem pull_of_le (h : f.buf.Valid) (hn : n ≤ f.buf.len) :
    f.recvframePull n =
      some (f.withBuf { f.buf with data := f.buf.data + n, len := f.buf.len - n }) := by
  rw [RxHdr.recvframePull, Buf.pull_of_le h hn]
  rfl

theorem pull_of_lt (h : f.buf.Valid) (hn : f.buf.len < n) : f.recvframePull n = none := by
  rw [RxHdr.recvframePull, Buf.pull_of_lt h hn]
  rfl

theorem pullTail_of_le (h : f.buf.Valid) (hn : n ≤ f.buf.len) :
    f.recvframePullTail n =
      some (f.withBuf { f.buf with tail := f.buf.tail - n, len := f.buf.len - n }) := by
  rw [RxHdr.recvframePullTail, Buf.pullTail_of_le h hn]
  rfl

theorem pullTail_of_lt (h : f.buf.Valid) (hn : f.buf.len < n) : f.recvframePullTail n = none := by
  rw [RxHdr.recvframePullTail, Buf.pullTail_of_lt h hn]
  rfl

theorem pnAccesses_inside_iff (h : f.buf.Valid) :
    (∀ x ∈ f.pnAccesses, x.Inside) ↔ f.PnInside := by
  rw [RxHdr.pnAccesses, RxHdr.PnInside]
  split
  · rename_i hchecks
    simp [access_inside_iff h, hchecks]
  · rename_i hplain
    simp [hplain]

theorem dropped_disciplined_iff (xs : List Access) :
    (dropped xs).Disciplined ↔ ∀ x ∈ xs, x.Inside :=
  ⟨fun h => h.inside, fun h => ⟨by simp [dropped], h, fun _ => rfl⟩⟩

theorem pullTail_valid (h : f.buf.Valid) (n : ℕ) :
    ((f.recvframePullTail n).getD f).buf.Valid := by
  cases Nat.lt_or_ge f.buf.len n with
  | inl hlt => rwa [pullTail_of_lt h hlt]
  | inr hle =>
    rw [pullTail_of_le h hle]
    exact h.pullTail (Buf.pullTail_of_le h hle)

theorem pull_valid (h : f.buf.Valid) (n : ℕ) : ((f.recvframePull n).getD f).buf.Valid := by
  cases Nat.lt_or_ge f.buf.len n with
  | inl hlt => rwa [pull_of_lt h hlt]
  | inr hle =>
    rw [pull_of_le h hle]
    exact h.pull (Buf.pull_of_le h hle)

section Chkmic

theorem pullMic_disciplined_iff (h : f.buf.Valid) (xs : List Access) (ok : Bool) :
    (pullMic f xs ok).Disciplined ↔ (∀ x ∈ xs, x.Inside) ∧ (ok = true → 8 ≤ f.buf.len) := by
  have hvalid := pullTail_valid h 8
  constructor
  · intro hd
    refine ⟨hd.inside, fun hok => Nat.not_lt.mp fun hlt => ?_⟩
    have hnone := hd.dropped (by simp [pullMic, pullTail_of_lt h hlt])
    simp [pullMic, hok] at hnone
  · rintro ⟨hinside, hlong⟩
    refine ⟨by simpa [pullMic] using hvalid, hinside, fun hfailed => ?_⟩
    cases ok with
    | false => rfl
    | true =>
      rw [pullMic, pullTail_of_le h (hlong rfl)] at hfailed
      simp at hfailed

theorem micDatalen_short (hattrib : DataAttrib f.attrib)
    (hshort : f.buf.len < f.pastIv + f.attrib.icvLen + 8) : f.buf.len < micDatalen f := by
  have hhdrlen := hattrib.hdrlen_le
  have hiv := hattrib.ivLen_le
  have hicv := hattrib.icvLen_le
  rw [RxHdr.pastIv] at hshort
  rw [micDatalen]
  omega

theorem micDatalen_le (hlong : f.pastIv + f.attrib.icvLen + 8 ≤ f.buf.len) :
    f.pastIv + micDatalen f + 8 ≤ f.buf.len := by
  rw [RxHdr.pastIv] at hlong ⊢
  rw [micDatalen]
  omega

theorem micHeader_inside (h : f.buf.Valid) (hlong : 32 ≤ f.buf.len) :
    ∀ x ∈ micHeader f, x.Inside := by
  have hin {i c : ℕ} (hc : 0 < c) (hfit : i + c ≤ 32) : (f.buf.access (f.buf.data + i) c).Inside :=
    (access_inside_iff h hc).mpr (hfit.trans hlong)
  rw [micHeader]
  refine List.forall_mem_cons.mpr ⟨hin (by decide) (by decide), ?_⟩
  split
  · split <;> simp [hin]
  · split <;> simp [hin]

theorem micAccesses_inside (h : f.buf.Valid) (hattrib : DataAttrib f.attrib)
    (hlong : f.pastIv + f.attrib.icvLen + 8 ≤ f.buf.len) : ∀ x ∈ micAccesses f, x.Inside := by
  have hhdrlen := hattrib.hdrlen_ge
  have hle := micDatalen_le hlong
  have htail := h.tail_eq
  rw [RxHdr.pastIv] at hlong hle
  have hheader := micHeader_inside h (by omega)
  simp only [micAccesses, List.forall_mem_append, List.forall_mem_cons, List.not_mem_nil,
    false_implies, implies_true, and_true]
  refine ⟨hheader, Or.inr ?_, Or.inr ?_⟩
  · simp only [Buf.access]
    omega
  · simp only [Buf.access]
    omega

theorem chkmic_disciplined_iff (crypto : Crypto) (a : Adapter) (hf : Received f) :
    (recvframeChkmic crypto a f).Disciplined ↔ ChkmicMeets a f := by
  have hdrop : (dropped []).Disciplined := (dropped_disciplined_iff []).mpr nofun
  cases Decidable.em (f.attrib.encrypt = .tkip) with
  | inr hother =>
    rw [recvframeChkmic, if_pos hother]
    exact iff_of_true ⟨by simpa using hf.valid, nofun, nofun⟩ fun htkip => absurd htkip hother
  | inl htkip =>
    simp only [recvframeChkmic, htkip, ne_eq, not_true_eq_false, if_false, ChkmicMeets,
      forall_const]
    cases hsta : rtwGetStainfo a.stapriv f.attrib.ta with
    | none => simpa using pullMic_disciplined_iff hf.valid [] true
    | some stainfo =>
      refine iff_of_true ?_ nofun
      dsimp only
      split
      · exact hdrop
      split
      · exact hdrop
      split
      · exact hdrop
      · rename_i hfits
        have hlong : f.pastIv + f.attrib.icvLen + 8 ≤ f.buf.len := by
          refine Nat.not_lt.mp fun hshort => hfits (Or.inl ?_)
          rw [← hf.valid.len_eq]
          exact micDatalen_short hf.attrib hshort
        rw [pullMic_disciplined_iff hf.valid]
        exact ⟨micAccesses_inside hf.valid hf.attrib hlong, fun _ => by omega⟩

end Chkmic

section Ethhdr

def icvCut (f : RxHdr) : Option RxHdr :=
  if f.attrib.encrypt ≠ .noPrivacy then f.recvframePullTail f.attrib.icvLen else some f

theorem icvCut_spec (h : f.buf.Valid) :
    ((icvCut f).getD f).buf.Valid ∧ ((icvCut f).getD f).buf.len = cutLen f ∧
      ((icvCut f).getD f).attrib = f.attrib ∧
      ((icvCut f).isSome = true ↔ (f.attrib.encrypt ≠ .noPrivacy → f.attrib.icvLen ≤ f.buf.len)) := by
  cases Decidable.em (f.attrib.encrypt ≠ .noPrivacy) with
  | inr hplain => simp [icvCut, cutLen, hplain, h]
  | inl hencrypt =>
    have hvalid := pullTail_valid h f.attrib.icvLen
    cases Nat.lt_or_ge f.buf.len f.attrib.icvLen with
    | inl hlt => simp [icvCut, cutLen, hencrypt, pullTail_of_lt h hlt, hlt, h]
    | inr hle =>
      have hcut : icvCut f = f.recvframePullTail f.attrib.icvLen := if_pos hencrypt
      rw [hcut, cutLen, if_pos ⟨hencrypt, hle⟩]
      refine ⟨hvalid, ?_, ?_, ?_⟩
      · rw [pullTail_of_le h hle]
        rfl
      · rw [pullTail_of_le h hle]
        rfl
      · simp [pullTail_of_le h hle, hle]

variable (llcHdl) in
theorem ethHeader_valid (h : g.buf.Valid) (len : ℕ) :
    ∀ b ∈ (ethHeader len llcHdl g).buffers, b.Valid := by
  have haddressed := (h.store g.buf.data g.attrib.dst.toList).store (g.buf.data + 6)
    g.attrib.src.toList
  cases llcHdl with
  | remove => simpa [ethHeader] using haddressed
  | keep => simpa [ethHeader] using haddressed.store (g.buf.data + 12) (beLen len)

variable (llcHdl) in
theorem ethHeader_inside_iff (h : g.buf.Valid) (len : ℕ) :
    (∀ x ∈ (ethHeader len llcHdl g).accesses, x.Inside) ↔
      (if llcHdl = .remove then 12 else 14) ≤ g.buf.len := by
  have hdst := access_inside_iff h (i := 0) (n := 6) (by decide)
  have hsrc := access_inside_iff h (i := 6) (n := 6) (by decide)
  have htype := access_inside_iff h (i := 12) (n := 2) (by decide)
  rw [Nat.add_zero] at hdst
  cases llcHdl with
  | remove =>
    simp only [ethHeader, List.forall_mem_cons, hdst, hsrc]
    simp
    omega
  | keep =>
    simp only [ethHeader, List.forall_mem_append, List.forall_mem_cons, hdst, hsrc, htype]
    simp
    omega

theorem ethHeader_kept (len : ℕ) (llcHdl : LlcHdl) (g : RxHdr) :
    (ethHeader len llcHdl g).frame ≠ none := by
  cases llcHdl <;> exact nofun

theorem ethhdr_of_none {c : RxHdr} (hc : (icvCut f).getD f = c) (hattrib : c.attrib = f.attrib)
    (hpull : c.recvframePull (ethPull f.attrib llcHdl) = none) :
    wlanhdrToEthhdr f llcHdl = ⟨none, [c.buf], [], [(icvCut f).isSome, false]⟩ := by
  subst hc
  rw [← hattrib, icvCut] at hpull
  rw [icvCut]
  simp only [wlanhdrToEthhdr, hpull]

theorem ethhdr_of_some {c : RxHdr} (hc : (icvCut f).getD f = c) (hattrib : c.attrib = f.attrib)
    (hpull : c.recvframePull (ethPull f.attrib llcHdl) = some g) :
    wlanhdrToEthhdr f llcHdl =
      { ethHeader (ethLen c llcHdl) llcHdl g with
        buffers := c.buf :: g.buf :: (ethHeader (ethLen c llcHdl) llcHdl g).buffers
        pulls := [(icvCut f).isSome, true] } := by
  subst hc
  rw [← hattrib, icvCut] at hpull
  rw [icvCut]
  simp only [wlanhdrToEthhdr, hpull]

theorem ethhdr_disciplined_iff (hf : Received f) (llcHdl : LlcHdl) :
    (wlanhdrToEthhdr f llcHdl).Disciplined ↔ EthhdrMeets f llcHdl := by
  obtain ⟨hvalid, hlen, hattrib, hcut⟩ := icvCut_spec hf.valid
  have hhdrlen := hf.attrib.hdrlen_ge
  rw [EthhdrMeets]
  cases Nat.lt_or_ge (cutLen f) (ethPull f.attrib llcHdl) with
  | inl hshort =>
    rw [ethhdr_of_none rfl hattrib (pull_of_lt hvalid (hlen.trans_lt hshort))]
    exact iff_of_true ⟨by simpa using hvalid, List.forall_mem_nil _, fun _ => rfl⟩ (Or.inl hshort)
  | inr hlong =>
    rw [or_iff_right (by omega)]
    have hpull := pull_of_le hvalid (hlong.trans_eq hlen.symm)
    have hg := pull_valid hvalid (ethPull f.attrib llcHdl)
    rw [hpull] at hg
    rw [ethhdr_of_some rfl hattrib hpull]
    have hheader := ethHeader_inside_iff llcHdl hg (ethLen ((icvCut f).getD f) llcHdl)
    have hfits : (if llcHdl = .remove then 12 else 14) ≤ cutLen f - ethPull f.attrib llcHdl ↔
        f.pastIv + (if llcHdl = .remove then snapSize else 0) ≤ cutLen f := by
      revert hlong
      rw [ethPull, rmvLen, RxHdr.pastIv, snapSize, ethHlen]
      cases llcHdl <;> simp <;> omega
    rw [← hcut, ← hfits, ← hlen]
    constructor
    · intro hd
      refine ⟨?_, hheader.mp hd.inside⟩
      cases hsome : (icvCut f).isSome with
      | true => rfl
      | false => exact absurd (hd.dropped (by simp [hsome])) (ethHeader_kept _ _ _)
    · rintro ⟨hsome, hlong⟩
      refine ⟨?_, hheader.mpr hlong, fun hfailed => ?_⟩
      · exact List.forall_mem_cons.mpr ⟨hvalid,
          List.forall_mem_cons.mpr ⟨hg, ethHeader_valid llcHdl hg _⟩⟩
      · simp [hsome] at hfailed

end Ethhdr

section Defrag

def pulledNext (g : RxHdr) : RxHdr := (g.recvframePull g.wlanhdrOffset).getD g

def cutHead (pr : RxHdr) : RxHdr := (pr.recvframePullTail pr.attrib.icvLen).getD pr

def copiedHead (pr g : RxHdr) : RxHdr :=
  (cutHead pr).memcpy (cutHead pr).buf.tail
    (read (pulledNext g).buf.mem (pulledNext g).buf.data (pulledNext g).buf.len)

theorem wlanhdrOffset_eq (hattrib : DataAttrib g.attrib) : g.wlanhdrOffset = g.pastIv := by
  have hhdrlen := hattrib.hdrlen_le
  have hiv := hattrib.ivLen_le
  exact Nat.mod_eq_of_lt (by omega)

theorem pulledNext_spec (hg : Received g) :
    (pulledNext g).buf.Valid ∧ (pulledNext g).buf.len = g.payloadLen ∧
      (pulledNext g).attrib = g.attrib ∧
      ((g.recvframePull g.wlanhdrOffset).isSome = true ↔ g.pastIv ≤ g.buf.len) := by
  have hvalid := pull_valid hg.valid g.wlanhdrOffset
  rw [pulledNext, RxHdr.payloadLen]
  rw [wlanhdrOffset_eq hg.attrib] at hvalid ⊢
  cases Nat.lt_or_ge g.buf.len g.pastIv with
  | inl hlt =>
    rw [pull_of_lt hg.valid hlt, if_neg (Nat.not_le.mpr hlt)]
    exact ⟨hg.valid, rfl, rfl, iff_of_false nofun (Nat.not_le.mpr hlt)⟩
  | inr hle =>
    rw [if_pos hle]
    rw [pull_of_le hg.valid hle] at hvalid ⊢
    exact ⟨hvalid, rfl, rfl, iff_of_true rfl hle⟩

theorem cutHead_spec (hpr : pr.buf.Valid) :
    (cutHead pr).buf.Valid ∧ (cutHead pr).buf.limit = pr.buf.limit ∧
      (cutHead pr).buf.tail ≤ pr.buf.tail ∧ (cutHead pr).attrib = pr.attrib ∧
      (cutHead pr).keytrack = pr.keytrack ∧
      ((pr.recvframePullTail pr.attrib.icvLen).isSome = true ↔ pr.attrib.icvLen ≤ pr.buf.len) ∧
      (pr.attrib.icvLen ≤ pr.buf.len → (cutHead pr).buf.len = pr.buf.len - pr.attrib.icvLen ∧
        (cutHead pr).roomLen = pr.roomLen + pr.attrib.icvLen) := by
  have hvalid := pullTail_valid hpr pr.attrib.icvLen
  have htail := hpr.tail_eq
  have hlimit := hpr.tail_le
  rw [cutHead]
  cases Nat.lt_or_ge pr.buf.len pr.attrib.icvLen with
  | inl hlt =>
    rw [pullTail_of_lt hpr hlt]
    exact ⟨hpr, rfl, Nat.le_refl _, rfl, rfl, iff_of_false nofun (Nat.not_le.mpr hlt),
      fun hle => absurd hle (Nat.not_le.mpr hlt)⟩
  | inr hle =>
    rw [pullTail_of_le hpr hle] at hvalid ⊢
    refine ⟨hvalid, rfl, Nat.sub_le _ _, rfl, rfl, iff_of_true rfl hle, fun _ => ⟨rfl, ?_⟩⟩
    simp only [RxHdr.roomLen, Option.getD_some, RxHdr.withBuf_buf]
    omega

theorem copiedHead_put (hpr : pr.buf.Valid) (hg : Received g)
    (hroom : g.payloadLen ≤ pr.roomLen) :
    ∃ longer, (copiedHead pr g).recvframePut (pulledNext g).buf.len = some longer ∧
      longer.buf.Valid ∧ longer.buf.data = (cutHead pr).buf.data ∧
      longer.buf.tail = (cutHead pr).buf.tail + g.payloadLen ∧
      longer.buf.len = (cutHead pr).buf.len + g.payloadLen ∧
      longer.roomLen = (cutHead pr).roomLen - g.payloadLen ∧ longer.keytrack = pr.keytrack ∧
      longer.attrib = pr.attrib := by
  obtain ⟨-, hlen, -⟩ := pulledNext_spec hg
  obtain ⟨hvalid, hlimit, hle, hattrib, hkeytrack, -⟩ := cutHead_spec hpr
  have hput : (copiedHead pr g).buf.put g.payloadLen =
      some { (copiedHead pr g).buf with
        tail := (cutHead pr).buf.tail + g.payloadLen
        len := (cutHead pr).buf.len + g.payloadLen } := by
    refine Buf.put_of_le ?_
    have hend := hpr.tail_le
    rw [RxHdr.roomLen] at hroom
    simp only [copiedHead, RxHdr.memcpy_buf, Buf.store]
    omega
  have hlonger := (hvalid.store (cutHead pr).buf.tail
    (read (pulledNext g).buf.mem (pulledNext g).buf.data (pulledNext g).buf.len)).put hput
  rw [RxHdr.recvframePut, hlen, hput]
  refine ⟨_, rfl, hlonger, rfl, rfl, rfl, ?_, hkeytrack, hattrib⟩
  simp only [RxHdr.roomLen, RxHdr.withBuf_buf, copiedHead, RxHdr.memcpy_buf, Buf.store]
  omega

theorem appendFragment_full (hg : Received g) (hroom : pr.roomLen < g.payloadLen) :
    (appendFragment pr g).frame = none ∧ (appendFragment pr g).Disciplined := by
  obtain ⟨hvalid, hlen, -⟩ := pulledNext_spec hg
  have hfull : appendFragment pr g =
      ⟨none, [(pulledNext g).buf], [], [(g.recvframePull g.wlanhdrOffset).isSome]⟩ := by
    refine if_pos ?_
    change pr.roomLen < (pulledNext g).buf.len
    omega
  rw [hfull]
  exact ⟨rfl, by simpa using hvalid, nofun, fun _ => rfl⟩

theorem appendFragment_room (hpr : pr.buf.Valid) (hg : Received g)
    (hroom : g.payloadLen ≤ pr.roomLen) :
    ∃ next, (appendFragment pr g).frame = some next ∧ next.buf.Valid ∧
      next.keytrack = pr.keytrack ∧ next.attrib = { pr.attrib with icvLen := g.attrib.icvLen } ∧
      ((appendFragment pr g).Disciplined ↔
        g.pastIv ≤ g.buf.len ∧ pr.attrib.icvLen ≤ pr.buf.len) ∧
      (pr.attrib.icvLen ≤ pr.buf.len →
        next.buf.len = pr.buf.len - pr.attrib.icvLen + g.payloadLen ∧
          next.roomLen = pr.roomLen + pr.attrib.icvLen - g.payloadLen) := by
  obtain ⟨hnext, hlen, hattrib, hpulled⟩ := pulledNext_spec hg
  obtain ⟨hhead, -, -, -, -, hcut, hsizes⟩ := cutHead_spec hpr
  obtain ⟨longer, hput, hlonger, hdata, htail, hlonglen, hlongroom, hkeytrack, hlongattrib⟩ :=
    copiedHead_put hpr hg hroom
  have hcopied : appendFragment pr g =
      ⟨some { longer with attrib := { longer.attrib with icvLen := (pulledNext g).attrib.icvLen } },
        [(pulledNext g).buf, (cutHead pr).buf, longer.buf],
        [(pulledNext g).buf.access (pulledNext g).buf.data (pulledNext g).buf.len,
          longer.buf.access (cutHead pr).buf.tail (pulledNext g).buf.len],
        [(g.recvframePull g.wlanhdrOffset).isSome,
          (pr.recvframePullTail pr.attrib.icvLen).isSome]⟩ := by
    have hlongerEq : longer = ((copiedHead pr g).recvframePut (pulledNext g).buf.len).getD
        (copiedHead pr g) := by rw [hput, Option.getD_some]
    rw [hlongerEq]
    refine if_neg (Nat.not_lt.mpr ?_)
    change (pulledNext g).buf.len ≤ pr.roomLen
    omega
  have hread : ((pulledNext g).buf.access (pulledNext g).buf.data (pulledNext g).buf.len).Inside := by
    have hend := hnext.tail_eq
    exact Or.inr ⟨Nat.le_refl _, Nat.le_of_eq hend.symm⟩
  have hwrite : (longer.buf.access (cutHead pr).buf.tail (pulledNext g).buf.len).Inside := by
    have hstart := hhead.data_le
    refine Or.inr ⟨?_, ?_⟩
    · simp only [Buf.access, hdata]
      exact hstart
    · simp only [Buf.access, htail, hlen]
      exact Nat.le_refl _
  rw [hcopied]
  refine ⟨_, rfl, hlonger, hkeytrack, by rw [hattrib, hlongattrib], ?_, fun hle => ?_⟩
  · rw [← hpulled, ← hcut]
    constructor
    · intro hd
      have hkept : ¬(false ∈ [(g.recvframePull g.wlanhdrOffset).isSome,
          (pr.recvframePullTail pr.attrib.icvLen).isSome]) := fun h => nomatch hd.dropped h
      simpa [Option.isSome_iff_ne_none] using hkept
    · rintro ⟨hfirst, hsecond⟩
      exact ⟨by simp [hnext, hhead, hlonger], by simp [hread, hwrite],
        fun hfailed => by simp [hfirst, hsecond] at hfailed⟩
  · obtain ⟨hheadlen, hheadroom⟩ := hsizes hle
    exact ⟨by rw [← hheadlen]; exact hlonglen, by rw [← hheadroom]; exact hlongroom⟩

theorem defragIter_stray (hfollows : ¬g.Follows pr.keytrack pn k) :
    defragIter pr pn k g = dropped g.pnAccesses := by
  rw [defragIter]
  split
  · rfl
  · rename_i hpn
    rw [not_and, not_not] at hpn
    split
    · rfl
    · rename_i hkeytrack
      split
      · rfl
      · rename_i hnum
        exact absurd ⟨hpn, not_not.mp hkeytrack, not_not.mp hnum⟩ hfollows

theorem defragIter_follows (hfollows : g.Follows pr.keytrack pn k) :
    defragIter pr pn k g = { appendFragment pr g with
      accesses := g.pnAccesses ++ (appendFragment pr g).accesses } := by
  obtain ⟨hpn, hkeytrack, hnum⟩ := hfollows
  rw [defragIter, if_neg (fun h => h.2 (hpn h.1)), if_neg (not_not.mpr hkeytrack),
    if_neg (not_not.mpr hnum)]

theorem defragIter_disciplined_iff (hg : Received g) (hfollows : g.Follows pr.keytrack pn k) :
    (defragIter pr pn k g).Disciplined ↔ g.PnInside ∧ (appendFragment pr g).Disciplined := by
  rw [defragIter_follows hfollows, ← pnAccesses_inside_iff hg.valid]
  constructor
  · rintro ⟨hvalid, hinside, hdropped⟩
    rw [List.forall_mem_append] at hinside
    exact ⟨hinside.1, hvalid, hinside.2, hdropped⟩
  · rintro ⟨hpn, hvalid, hinside, hdropped⟩
    exact ⟨hvalid, List.forall_mem_append.mpr ⟨hpn, hinside⟩, hdropped⟩

theorem defragLoop_disciplined_iff {queue : List RxHdr} (hpr : pr.buf.Valid)
    (hqueue : ∀ g ∈ queue, Received g) :
    (∀ s ∈ defragLoop pr pn k queue, s.Disciplined) ↔
      FragMeets pr.keytrack pr.buf.len pr.roomLen pr.attrib.icvLen pn k queue := by
  induction queue generalizing pr pn k with
  | nil => simp [defragLoop, FragMeets]
  | cons g queue ih =>
    obtain ⟨hg, hrest⟩ := List.forall_mem_cons.mp hqueue
    rw [defragLoop, FragMeets, List.forall_mem_cons]
    cases Classical.em (g.Follows pr.keytrack pn k) with
    | inr hstray =>
      rw [defragIter_stray hstray, dropped_disciplined_iff, pnAccesses_inside_iff hg.valid]
      exact and_congr_right fun _ => iff_of_true (by simp [dropped]) fun h => absurd h hstray
    | inl hfollows =>
      rw [defragIter_disciplined_iff hg hfollows, defragIter_follows hfollows, and_assoc]
      refine and_congr_right fun _ => ?_
      rw [forall_prop_of_true hfollows]
      cases Nat.lt_or_ge pr.roomLen g.payloadLen with
      | inl hfull =>
        obtain ⟨hnone, hd⟩ := appendFragment_full hg hfull
        dsimp only
        rw [hnone]
        exact iff_of_true ⟨hd, by simp⟩ (Or.inl hfull)
      | inr hroom =>
        obtain ⟨next, hsome, hvalid, hkeytrack, hattrib, hd, hsizes⟩ :=
          appendFragment_room hpr hg hroom
        dsimp only
        rw [hsome, hd, or_iff_right (Nat.not_lt.mpr hroom), and_assoc]
        refine and_congr_right fun _ => and_congr_right fun hle => ?_
        obtain ⟨hlen, hroomLen⟩ := hsizes hle
        have hicv : next.attrib.icvLen = g.attrib.icvLen := by rw [hattrib]
        rw [← hlen, ← hroomLen, ← hkeytrack, ← hicv]
        exact ih hvalid hrest

theorem defrag_disciplined_iff {queue : List RxHdr} (hqueue : ∀ f ∈ queue, Received f) :
    (∀ s ∈ recvframeDefrag queue, s.Disciplined) ↔ DefragMeets queue := by
  cases queue with
  | nil => simp [recvframeDefrag, DefragMeets]
  | cons f rest =>
    obtain ⟨hf, hrest⟩ := List.forall_mem_cons.mp hqueue
    rw [recvframeDefrag, DefragMeets, List.forall_mem_cons, ← pnAccesses_inside_iff hf.valid,
      defragHead]
    cases Decidable.em (f.attrib.fragNum = 0) with
    | inr hlater =>
      rw [if_pos hlater, if_pos hlater, dropped_disciplined_iff]
      exact and_congr_right fun _ => iff_of_true (by simp) fun h => absurd h hlater
    | inl hfirst =>
      rw [if_neg (not_not.mpr hfirst), if_neg (not_not.mpr hfirst), forall_prop_of_true hfirst,
        defragLoop_disciplined_iff hf.valid hrest]
      refine and_congr_left fun _ => ?_
      refine ⟨fun hd => hd.inside, fun h => ⟨by simpa using hf.valid, h, fun hfailed => ?_⟩⟩
      exact absurd hfailed List.not_mem_nil

theorem defragIter_received (hpr : Received pr) (hg : Received g) {next : RxHdr}
    (hnext : (defragIter pr pn k g).frame = some next) : Received next := by
  cases Classical.em (g.Follows pr.keytrack pn k) with
  | inr hstray =>
    rw [defragIter_stray hstray] at hnext
    cases hnext
  | inl hfollows =>
    rw [defragIter_follows hfollows] at hnext
    cases Nat.lt_or_ge pr.roomLen g.payloadLen with
    | inl hfull =>
      rw [(appendFragment_full hg hfull).1] at hnext
      cases hnext
    | inr hroom =>
      obtain ⟨next', hsome, hvalid, -, hattrib, -⟩ := appendFragment_room hpr.valid hg hroom
      rw [hsome] at hnext
      cases hnext
      have hpr' := hpr.attrib
      refine ⟨hvalid, ?_⟩
      rw [hattrib]
      exact ⟨hpr'.hdrlen_ge, hpr'.hdrlen_le, hpr'.ivLen_le, hg.attrib.icvLen_le⟩

end Defrag

def Arrival.Meets : Arrival → Prop
  | .whole _ => True
  | .fragments first rest => DefragMeets (first :: rest)

section Path

variable (crypto : Crypto) (a : Adapter) (llcHdl : LlcHdl)

def PathMeets (x : Arrival) : Prop :=
  x.Meets ∧ ∀ f ∈ x.defragged, (f.attrib.privacy = true → ChkmicMeets a f) ∧
    ∀ g ∈ (chkmicStep crypto a f).frame, EthhdrMeets g llcHdl

variable {crypto a llcHdl} {x : Arrival}

theorem defragLoop_outcome {queue : List RxHdr} (hpr : Received pr)
    (hqueue : ∀ g ∈ queue, Received g) {out : RxHdr}
    (hout : outcome pr (defragLoop pr pn k queue) = some out) : Received out := by
  induction queue generalizing pr pn k with
  | nil =>
    cases hout
    exact hpr
  | cons g queue ih =>
    obtain ⟨hg, hrest⟩ := List.forall_mem_cons.mp hqueue
    rw [defragLoop, outcome] at hout
    cases hnext : (defragIter pr pn k g).frame with
    | none => simp [hnext] at hout
    | some next =>
      simp only [hnext] at hout
      exact ih (defragIter_received hpr hg hnext) hrest hout

theorem defragged_received (hx : ∀ f ∈ x.frames, Received f) {out : RxHdr}
    (hout : x.defragged = some out) : Received out := by
  cases x with
  | whole f =>
    cases hout
    exact hx _ List.mem_cons_self
  | fragments first rest =>
    obtain ⟨hfirst, hrest⟩ := List.forall_mem_cons.mp hx
    rw [Arrival.defragged, recvframeDefrag, outcome, defragHead] at hout
    cases Decidable.em (first.attrib.fragNum = 0) with
    | inr hlater => simp [hlater, dropped] at hout
    | inl hnum =>
      simp only [hnum, ne_eq, not_true_eq_false, if_false] at hout
      exact defragLoop_outcome hfirst hrest hout

theorem pullMic_received (hf : Received f) {xs : List Access} {ok : Bool} {g : RxHdr}
    (hg : (pullMic f xs ok).frame = some g) : Received g := by
  have hattrib : ((f.recvframePullTail 8).getD f).attrib = f.attrib := by
    rw [RxHdr.recvframePullTail]
    cases f.buf.pullTail 8 <;> rfl
  cases ok with
  | false => cases hg
  | true =>
    cases hg
    exact ⟨pullTail_valid hf.valid 8, hattrib ▸ hf.attrib⟩

theorem chkmic_received (hf : Received f) {g : RxHdr}
    (hg : (chkmicStep crypto a f).frame = some g) : Received g := by
  rw [chkmicStep] at hg
  split at hg
  · rw [recvframeChkmic] at hg
    dsimp only at hg
    split at hg
    · cases hg
      exact hf
    split at hg
    · exact pullMic_received hf hg
    split at hg
    · cases hg
    split at hg
    · cases hg
    split at hg
    · cases hg
    · exact pullMic_received hf hg
  · cases hg
    exact hf

theorem defragSteps_disciplined_iff (hx : ∀ f ∈ x.frames, Received f) :
    (∀ s ∈ x.defragSteps, s.Disciplined) ↔ x.Meets := by
  cases x with
  | whole f => simp [Arrival.defragSteps, Arrival.Meets]
  | fragments first rest => exact defrag_disciplined_iff hx

theorem chkmicStep_disciplined_iff (hf : Received f) :
    (chkmicStep crypto a f).Disciplined ↔ (f.attrib.privacy = true → ChkmicMeets a f) := by
  rw [chkmicStep]
  split
  · rename_i hprivacy
    rw [forall_prop_of_true hprivacy]
    exact chkmic_disciplined_iff crypto a hf
  · rename_i hplain
    exact iff_of_true ⟨by simp, by simp, by simp⟩ fun h => absurd h hplain

theorem rx_pointer_discipline_iff (crypto : Crypto) (a : Adapter) (llcHdl : LlcHdl) (x : Arrival)
    (hx : ∀ f ∈ x.frames, Received f) :
    (∀ s ∈ rxPath crypto a llcHdl x, s.Disciplined) ↔ PathMeets crypto a llcHdl x := by
  rw [rxPath, PathMeets, List.forall_mem_append, defragSteps_disciplined_iff hx]
  refine and_congr_right fun _ => ?_
  cases hout : x.defragged with
  | none => simp
  | some f =>
    have hf := defragged_received hx hout
    dsimp only
    rw [List.forall_mem_cons, chkmicStep_disciplined_iff hf]
    simp only [Option.mem_some_iff, forall_eq']
    refine and_congr_right fun _ => ?_
    cases hmic : (chkmicStep crypto a f).frame with
    | none => simp
    | some g =>
      have hg := chkmic_received hf hmic
      simpa using ethhdr_disciplined_iff hg llcHdl

end Path

def wepStation : Adapter where
  fwState := ⟨false, true, false, false, true, false⟩
  macAddr := localAddr 1
  bssid := localAddr 9
  securitypriv := { SecurityPriv.zero with dot11PrivacyAlgrthm := .wep40 }
  stapriv := [rtwAllocStainfo (localAddr 9)]
  recvpriv := rtwInitRecvPriv

def wepFrame (fragNum : Fin 16) (len : ℕ) : RxHdr where
  slot := 0
  attrib := { RxPktAttrib.zero with
    hdrlen := 24, fragNum := fragNum, privacy := true, bdecrypted := true
    encrypt := .wep40, ivLen := 4, icvLen := 4, ra := localAddr 1, ta := localAddr 9 }
  keytrack := 0
  psta := some (localAddr 9)
  preorderCtrl := none
  buf := ⟨fun _ => 0, 0, 0, len, 256, len⟩

theorem wepFrame_received (fragNum : Fin 16) {len : ℕ} (hlen : len ≤ 256) :
    Received (wepFrame fragNum len) :=
  ⟨⟨Nat.le_refl 0, Nat.zero_le len, hlen, rfl⟩,
    ⟨Nat.le_refl 24, (by decide : 24 ≤ 36), (by decide : 4 ≤ 18), (by decide : 4 ≤ 16)⟩⟩

theorem rx_pointer_discipline_iff_wep :
    let path := rxPath .rejecting wepStation .keep (.whole (wepFrame 0 60))
    path.length = 2 ∧ ∀ s ∈ path, s.Disciplined := by
  refine ⟨rfl, (rx_pointer_discipline_iff .rejecting wepStation .keep (.whole (wepFrame 0 60))
    ?_).mpr ?_⟩
  · exact List.forall_mem_singleton.mpr (wepFrame_received 0 (by decide))
  · refine ⟨trivial, fun f hf => ?_⟩
    cases hf
    refine ⟨fun _ => nofun, fun g hg => ?_⟩
    cases hg
    exact Or.inr ⟨by decide, by decide⟩

theorem runt_fragment_joined :
    let x : Arrival := .fragments (wepFrame 0 60) [wepFrame 1 26]
    (∀ f ∈ x.frames, Received f) ∧
      ¬ ∀ s ∈ rxPath .rejecting wepStation .keep x, s.Disciplined := by
  refine ⟨?_, fun h => ?_⟩
  · exact List.forall_mem_cons.mpr ⟨wepFrame_received 0 (by decide),
      List.forall_mem_singleton.mpr (wepFrame_received 1 (by decide))⟩
  · have hjoined := (h (defragIter (wepFrame 0 60) 0 1 (wepFrame 1 26)) ?_).dropped (by decide)
    · cases hjoined
    · exact List.mem_append_left _ (List.mem_cons_of_mem _ List.mem_cons_self)

end Recv.RxPointers
