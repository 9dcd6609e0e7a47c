import Rtl8188fu.Lib.Reassembly
import Rtl8188fu.Recv.DefragCall

namespace Recv

open BoundedMemory Reassembly

namespace RecvFrame

def payload (f : RecvFrame) : List UInt8 := f.data.drop f.pastIv

def icvLen (f : RecvFrame) : ℕ := f.attrib.icvLen

end RecvFrame

theorem appendFragment_same {acc g acc' : RecvFrame} (h : appendFragment acc g = some acc') :
    ∃ d s, acc' = { acc with
      data := d, spare := s, attrib := { acc.attrib with icvLen := g.icvLen } } := by
  unfold appendFragment at h
  dsimp only at h
  split at h
  · cases h
  · obtain ⟨d, s, hpull⟩ := acc.recvframePullTail_same acc.attrib.icvLen
    rw [hpull] at h
    obtain ⟨d', s', hput⟩ := RecvFrame.recvframePut_same { acc with
      data := d, spare := splice s 0 (g.recvframePull g.pastIv).data } (g.recvframePull g.pastIv).len
    have hicv : (g.recvframePull g.pastIv).attrib.icvLen = g.icvLen := by
      unfold RecvFrame.recvframePull
      split <;> rfl
    rw [hput, hicv] at h
    exact ⟨d', s', (Option.some.inj h).symm⟩

theorem appendFragment_data {acc g acc' : RecvFrame} (h : appendFragment acc g = some acc')
    (hacc : acc.attrib.icvLen ≤ acc.len) (hg : g.pastIv ≤ g.len) :
    acc'.data = acc.data.take (acc.len - acc.attrib.icvLen) ++ g.payload := by
  unfold appendFragment RecvFrame.recvframePull RecvFrame.recvframePullTail
    RecvFrame.recvframePut at h
  rw [if_pos hg, if_pos hacc] at h
  dsimp only at h
  split at h
  · cases h
  · rename_i hroom
    rw [← Option.some.inj h]
    have hlen : g.payload.length ≤
        (acc.data.drop (acc.len - acc.attrib.icvLen) ++ acc.spare).length := by
      simp only [RecvFrame.len, RecvFrame.payload, List.length_append] at hroom ⊢
      omega
    have hput := take_splice_zero hlen
    rw [if_pos (by rw [length_splice]; exact hlen)]
    simp only [RecvFrame.len, RecvFrame.payload] at hput ⊢
    rw [hput]

theorem defragLoop_cons {acc g out : RecvFrame} {pn k : ℕ} {rest : List RecvFrame}
    (h : defragLoop acc pn k (g :: rest) = some out) :
    (checksPn g.attrib.encrypt = true → g.ccmpPn = pn + 1) ∧ acc.keytrack = g.keytrack ∧
      k = g.attrib.fragNum ∧ ∃ acc', appendFragment acc g = some acc' ∧
        defragLoop acc' (g.curPn pn) (k + 1) rest = some out := by
  unfold defragLoop at h
  split at h
  · cases h
  rename_i hpn
  split at h
  · cases h
  rename_i hkey
  split at h
  · cases h
  rename_i hfrag
  split at h
  · cases h
  · rename_i acc' hacc'
    refine ⟨fun hcheck => ?_, not_not.mp hkey, not_not.mp hfrag, acc', hacc', h⟩
    by_contra hne
    exact hpn ⟨hcheck, hne⟩

theorem defragLoop_fragNum {acc out : RecvFrame} {pn k : ℕ} {rest : List RecvFrame}
    (h : defragLoop acc pn k rest = some out) :
    rest.map (fun g => g.attrib.fragNum.val) = List.range' k rest.length := by
  induction rest generalizing acc pn k with
  | nil => rfl
  | cons g rest ih =>
    obtain ⟨-, -, rfl, acc', -, hrest⟩ := defragLoop_cons h
    rw [List.map_cons, List.length_cons, List.range'_succ, ih hrest]

theorem defragLoop_keytrack {acc out : RecvFrame} {pn k : ℕ} {rest : List RecvFrame}
    (h : defragLoop acc pn k rest = some out) : ∀ g ∈ rest, g.keytrack = acc.keytrack := by
  induction rest generalizing acc pn k with
  | nil => exact fun g hg => absurd hg List.not_mem_nil
  | cons g rest ih =>
    obtain ⟨-, hkey, -, acc', hacc', hrest⟩ := defragLoop_cons h
    rw [List.forall_mem_cons]
    obtain ⟨d, s, rfl⟩ := appendFragment_same hacc'
    have hkeys := ih hrest
    exact ⟨hkey.symm, hkeys⟩

theorem defragLoop_same {acc out : RecvFrame} {pn k : ℕ} {rest : List RecvFrame}
    (h : defragLoop acc pn k rest = some out) :
    ∃ d s n, out = { acc with data := d, spare := s, attrib := { acc.attrib with icvLen := n } } := by
  induction rest generalizing acc pn k with
  | nil =>
    cases h
    exact ⟨_, _, _, rfl⟩
  | cons g rest ih =>
    obtain ⟨-, -, -, acc', hacc', hrest⟩ := defragLoop_cons h
    obtain ⟨d, s, rfl⟩ := appendFragment_same hacc'
    have hout := ih hrest
    exact hout

def RecvFrame.Complete (f : RecvFrame) : Prop := f.pastIv + f.icvLen ≤ f.len

instance (f : RecvFrame) : Decidable f.Complete := inferInstanceAs (Decidable (_ ≤ _))

theorem defragLoop_data {acc last out : RecvFrame} {pn k : ℕ} {pre : List UInt8}
    {rest : List RecvFrame} (h : defragLoop acc pn k rest = some out)
    (hacc : acc.data = pre ++ last.payload) (hicv : acc.attrib.icvLen = last.icvLen)
    (hpull : ∀ g ∈ rest, g.pastIv ≤ g.len) (hstrip : ∀ g ∈ (last :: rest).dropLast, g.Complete) :
    out.data = pre ++ joined RecvFrame.payload RecvFrame.icvLen (last :: rest) := by
  induction rest generalizing acc last pn k pre with
  | nil =>
    cases h
    exact hacc
  | cons g rest ih =>
    rw [List.dropLast_cons_of_ne_nil (List.cons_ne_nil g rest)] at hstrip
    obtain ⟨hlast, hstrip⟩ := List.forall_mem_cons.mp hstrip
    obtain ⟨hg, hpull⟩ := List.forall_mem_cons.mp hpull
    obtain ⟨-, -, -, acc', hacc', hloop⟩ := defragLoop_cons h
    have htrailer : last.icvLen ≤ last.payload.length := by
      simp only [RecvFrame.Complete, RecvFrame.len, RecvFrame.payload, List.length_drop] at hlast ⊢
      omega
    have hlen : acc.attrib.icvLen ≤ acc.len := by
      rw [RecvFrame.len, hacc, hicv, List.length_append]
      omega
    have hdata := appendFragment_data hacc' hlen hg
    rw [RecvFrame.len, hacc, hicv, take_append_body htrailer] at hdata
    have hicv' : acc'.attrib.icvLen = g.icvLen := by
      obtain ⟨d, s, rfl⟩ := appendFragment_same hacc'
      rfl
    rw [ih hloop hdata hicv' hpull hstrip, joined, List.append_assoc]

def pnFollows : ℕ → List RecvFrame → Prop
  | _, [] => True
  | curPn, g :: rest =>
    (checksPn g.attrib.encrypt = true → g.ccmpPn = curPn + 1) ∧ pnFollows (g.curPn curPn) rest

instance pnFollowsDecidable : (curPn : ℕ) → (gs : List RecvFrame) → Decidable (pnFollows curPn gs)
  | _, [] => .isTrue trivial
  | curPn, g :: rest =>
    have := pnFollowsDecidable (g.curPn curPn) rest
    inferInstanceAs (Decidable (_ ∧ _))

theorem defragLoop_pnFollows {acc out : RecvFrame} {pn k : ℕ} {rest : List RecvFrame}
    (h : defragLoop acc pn k rest = some out) : pnFollows pn rest := by
  induction rest generalizing acc pn k with
  | nil => trivial
  | cons g rest ih =>
    obtain ⟨hpn, -, -, acc', -, hrest⟩ := defragLoop_cons h
    exact ⟨hpn, ih hrest⟩

theorem pnFollows_chain {last : RecvFrame} {rest : List RecvFrame}
    (h : pnFollows last.ccmpPn rest) (hcheck : ∀ g ∈ rest, checksPn g.attrib.encrypt = true) :
    List.IsChain (fun f g => g.ccmpPn = f.ccmpPn + 1) (last :: rest) := by
  induction rest generalizing last with
  | nil => exact .singleton last
  | cons g rest ih =>
    obtain ⟨hg, hcheck⟩ := List.forall_mem_cons.mp hcheck
    obtain ⟨hpn, hrest⟩ := h
    rw [RecvFrame.curPn, if_pos hg] at hrest
    exact .cons_cons (hpn hg) (ih hrest hcheck)

structure Consecutive (fs : List RecvFrame) : Prop where
  fragNum : fs.map (fun f => f.attrib.fragNum.val) = List.range fs.length
  keytrack : ∀ f ∈ fs, ∀ g ∈ fs, f.keytrack = g.keytrack
  pn : ∀ head ∈ fs.head?, pnFollows (head.curPn 0) fs.tail

instance (fs : List RecvFrame) : Decidable (Consecutive fs) :=
  decidable_of_iff (fs.map (fun f => f.attrib.fragNum.val) = List.range fs.length ∧
    (∀ f ∈ fs, ∀ g ∈ fs, f.keytrack = g.keytrack) ∧
      ∀ head ∈ fs.head?, pnFollows (head.curPn 0) fs.tail)
    ⟨fun h => ⟨h.1, h.2.1, h.2.2⟩, fun h => ⟨h.fragNum, h.keytrack, h.pn⟩⟩

theorem recvframeDefrag_cons {head out : RecvFrame} {rest : List RecvFrame}
    (h : recvframeDefrag (head :: rest) = some out) :
    head.attrib.fragNum = 0 ∧ defragLoop head (head.curPn 0) 1 rest = some out := by
  simp only [recvframeDefrag] at h
  split at h
  · cases h
  · rename_i hzero
    exact ⟨not_not.mp hzero, h⟩

theorem recvframeDefrag_consecutive {fs : List RecvFrame} {out : RecvFrame}
    (h : recvframeDefrag fs = some out) : Consecutive fs := by
  cases fs with
  | nil => cases h
  | cons head rest =>
    obtain ⟨hzero, hloop⟩ := recvframeDefrag_cons h
    have hkeys : ∀ f ∈ head :: rest, f.keytrack = head.keytrack :=
      List.forall_mem_cons.mpr ⟨rfl, defragLoop_keytrack hloop⟩
    refine ⟨?_, fun f hf g hg => (hkeys f hf).trans (hkeys g hg).symm, ?_⟩
    · rw [List.map_cons, hzero, defragLoop_fragNum hloop, List.length_cons, List.range_eq_range',
        List.range'_succ]
      rfl
    · rintro _ ⟨rfl⟩
      exact defragLoop_pnFollows hloop

def DefragCall.fragments (c : DefragCall) : List RecvFrame :=
  if c.frame.attrib.mfrag = false ∧ c.frame.attrib.fragNum = 0 then [c.frame]
  else
    match defragOwner c.adapter c.frame with
    | none => [c.frame]
    | some psta => psta.defragQ ++ [c.frame.queuedBy psta]

structure DefragCall.Completes (crypto : Crypto) (c : DefragCall) (psta : StaInfo)
    (out r : RecvFrame) : Prop where
  mfrag : c.frame.attrib.mfrag = false
  fragNum : c.frame.attrib.fragNum ≠ 0
  ra : isMcast c.frame.attrib.ra = false
  owner : defragOwner c.adapter c.frame = some psta
  fragments : c.fragments = psta.defragQ ++ [c.frame.queuedBy psta]
  defrag : recvframeDefrag c.fragments = some out
  result : c.result crypto = chkmicOrFree crypto (rtwFreeRecvframeQueue
    (setDefragQ c.adapter psta.macAddr []) c.fragments.tail) out
  passes : (c.result crypto).frame = some r

structure DefragCall.Whole (crypto : Crypto) (c : DefragCall) (r : RecvFrame) : Prop where
  fragments : c.fragments = [c.frame]
  mfrag : c.frame.attrib.mfrag = false
  fragNum : c.frame.attrib.fragNum = 0
  passes : (chkmicOrFree crypto c.adapter c.frame).frame = some r

theorem DefragCall.Whole.consecutive {crypto : Crypto} {c : DefragCall} {r : RecvFrame}
    (h : c.Whole crypto r) : Consecutive c.fragments := by
  rw [h.fragments]
  refine ⟨by simp [h.fragNum], ?_, fun _ _ => trivial⟩
  intro f hf g hg
  rw [List.mem_singleton.mp hf, List.mem_singleton.mp hg]

theorem recvframeChkDefrag_some {crypto : Crypto} {c : DefragCall} {r : RecvFrame}
    (h : (c.result crypto).frame = some r) :
    c.Whole crypto r ∨ ∃ psta out, c.Completes crypto psta out r := by
  have hpasses := h
  unfold DefragCall.result recvframeChkDefrag at h
  split at h
  · rename_i hwhole
    exact .inl ⟨if_pos hwhole, hwhole.1, hwhole.2, h⟩
  rename_i hpart
  split at h
  · cases h
  rename_i hra
  cases howner : defragOwner c.adapter c.frame with
  | none =>
    rw [howner] at h
    cases h
  | some psta =>
    have hfs : c.fragments = psta.defragQ ++ [c.frame.queuedBy psta] := by
      simp only [DefragCall.fragments, if_neg hpart, howner]
    simp only [howner] at h
    split at h
    · rename_i hmfrag
      have hresult : c.result crypto = defragLast crypto c.adapter psta.macAddr c.fragments := by
        simp only [DefragCall.result, recvframeChkDefrag, if_neg hpart, if_neg hra, howner,
          if_pos hmfrag, hfs]
        rfl
      cases hout : recvframeDefrag c.fragments with
      | none =>
        simp only [hresult, defragLast, hout] at hpasses
        cases hpasses
      | some out =>
        refine .inr ⟨psta, out, hmfrag, fun hzero => hpart ⟨hmfrag, hzero⟩,
          Bool.eq_false_of_not_eq_true hra, howner, hfs, hout, ?_, hpasses⟩
        simp only [hresult, defragLast, hout]
    · split at h <;> cases h

def RecvFrame.micLen (f : RecvFrame) : ℕ :=
  if f.attrib.privacy = true ∧ f.attrib.encrypt = .tkip then 8 else 0

theorem payload_pullTail (f : RecvFrame) (n : ℕ) :
    ∃ tail, f.payload = (f.recvframePullTail n).payload ++ tail ∧ tail.length ≤ n ∧
      (f.pastIv + n ≤ f.len → tail.length = n) := by
  unfold RecvFrame.recvframePullTail
  split
  · rename_i hn
    refine ⟨(f.data.drop f.pastIv).drop (f.len - n - f.pastIv), ?_, ?_, ?_⟩
    · change f.data.drop f.pastIv = (f.data.take (f.len - n)).drop f.pastIv ++ _
      rw [List.drop_take, List.take_append_drop]
    · rw [List.length_drop, List.length_drop]
      unfold RecvFrame.len at hn ⊢
      omega
    · intro hlen
      rw [List.length_drop, List.length_drop]
      unfold RecvFrame.len at hlen ⊢
      omega
  · exact ⟨[], (List.append_nil _).symm, Nat.zero_le n, fun _ => by omega⟩

theorem recvframeChkmic_some {crypto : Crypto} {a : Adapter} {f r : RecvFrame}
    (h : recvframeChkmic crypto a f = some r) :
    (f.attrib.encrypt ≠ .tkip ∧ r = f) ∨
      (f.attrib.encrypt = .tkip ∧ r = f.recvframePullTail 8 ∧
        ∀ psta, rtwGetStainfo a.stapriv f.attrib.ta = some psta → f.pastIv + 8 ≤ f.len) := by
  unfold recvframeChkmic at h
  dsimp only at h
  split at h
  · exact .inl ⟨‹_›, (Option.some.inj h).symm⟩
  rename_i htkip
  refine .inr ⟨not_not.mp htkip, ?_⟩
  split at h
  · rename_i hnone
    exact ⟨(Option.some.inj h).symm, fun psta hpsta => by rw [hnone] at hpsta; cases hpsta⟩
  split at h
  · cases h
  split at h
  · cases h
  split at h
  · cases h
  rename_i hlen
  obtain ⟨-, hr⟩ := Option.ite_none_right_eq_some.mp h
  exact ⟨(Option.some.inj hr).symm, fun _ _ => by omega⟩

theorem chkmicOrFree_some {crypto : Crypto} {a : Adapter} {f r : RecvFrame}
    (h : (chkmicOrFree crypto a f).frame = some r) :
    r.attrib = f.attrib ∧ ∃ mic, f.payload = r.payload ++ mic ∧ mic.length ≤ f.micLen ∧
      ∀ psta, rtwGetStainfo a.stapriv f.attrib.ta = some psta → mic.length = f.micLen := by
  have hsame {g : RecvFrame} (hg : g = f) (hmic : f.micLen = 0) :
      g.attrib = f.attrib ∧ ∃ mic, f.payload = g.payload ++ mic ∧ mic.length ≤ f.micLen ∧
        ∀ psta, rtwGetStainfo a.stapriv f.attrib.ta = some psta → mic.length = f.micLen := by
    subst hg
    exact ⟨rfl, [], (List.append_nil _).symm, Nat.zero_le _, fun _ _ => hmic.symm⟩
  unfold chkmicOrFree at h
  split at h
  · rename_i hprivacy
    split at h
    · cases h
    · rename_i g hg
      cases h
      rcases recvframeChkmic_some hg with ⟨hne, heq⟩ | ⟨htkip, rfl, hlen⟩
      · exact hsame heq (if_neg fun hmic => hne hmic.2)
      · obtain ⟨mic, hmic, hle, heq⟩ := payload_pullTail f 8
        rw [RecvFrame.micLen, if_pos ⟨hprivacy, htkip⟩]
        refine ⟨?_, mic, hmic, hle, fun psta hpsta => heq (hlen psta hpsta)⟩
        obtain ⟨d, s, hsame⟩ := f.recvframePullTail_same 8
        rw [hsame]
  · rename_i hprivacy
    exact hsame (Option.some.inj h).symm (if_neg fun hmic => hprivacy hmic.1)

theorem getStainfo_of_macAddrs {a b : Adapter} {hwaddr : MacAddr} {psta : StaInfo}
    (hmacs : b.macAddrs = a.macAddrs) (hmem : psta ∈ a.stapriv)
    (haddr : hashAddr hwaddr = psta.macAddr) : ∃ s, rtwGetStainfo b.stapriv hwaddr = some s := by
  have hin : psta.macAddr ∈ b.macAddrs := hmacs ▸ List.mem_map_of_mem hmem
  obtain ⟨s, hs, hmac⟩ := List.mem_map.mp hin
  refine Option.isSome_iff_exists.mp (List.find?_isSome.mpr ⟨s, hs, ?_⟩)
  rw [beq_iff_eq, hmac, haddr]

theorem recvframeDefrag_payload {head out : RecvFrame} {rest : List RecvFrame}
    (h : recvframeDefrag (head :: rest) = some out) (hpull : ∀ f ∈ head :: rest, f.pastIv ≤ f.len)
    (hstrip : ∀ f ∈ (head :: rest).dropLast, f.Complete) :
    out.payload = joined RecvFrame.payload RecvFrame.icvLen (head :: rest) ∧
      ∃ n, out.attrib = { head.attrib with icvLen := n } := by
  obtain ⟨-, hloop⟩ := recvframeDefrag_cons h
  obtain ⟨hhead, hrest⟩ := List.forall_mem_cons.mp hpull
  have hdata := @defragLoop_data _ head _ _ _ (head.data.take head.pastIv) _ hloop
    (List.take_append_drop ..).symm rfl hrest hstrip
  obtain ⟨d, s, n, hsame⟩ := defragLoop_same hloop
  have hattrib : out.attrib = { head.attrib with icvLen := n } := by rw [hsame]
  refine ⟨?_, n, hattrib⟩
  have hpast : out.pastIv = (head.data.take head.pastIv).length := by
    unfold RecvFrame.len at hhead
    rw [List.length_take, Nat.min_eq_left hhead, RecvFrame.pastIv, RecvFrame.pastIv, hattrib]
  rw [RecvFrame.payload, hdata, hpast, List.drop_left]

end Recv
