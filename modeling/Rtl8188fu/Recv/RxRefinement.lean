import Rtl8188fu.Recv.RxPointers

namespace Recv.RxPointers

open BoundedMemory (splice)
open ByteMemory (read)
open PacketBuffer (Buf Access)

variable {f g pr : RxHdr} {n k pn : ℕ}

@[simp] theorem toRecvFrame_len (f : RxHdr) : f.toRecvFrame.len = f.buf.len :=
  Buf.length_contents f.buf

@[simp] theorem toRecvFrame_attrib (f : RxHdr) : f.toRecvFrame.attrib = f.attrib := rfl

@[simp] theorem toRecvFrame_pastIv (f : RxHdr) : f.toRecvFrame.pastIv = f.pastIv := rfl

theorem toRecvFrame_pull (h : f.buf.Valid) (n : ℕ) :
    ((f.recvframePull n).getD f).toRecvFrame = f.toRecvFrame.recvframePull n := by
  rw [RecvFrame.recvframePull, toRecvFrame_len]
  cases Nat.lt_or_ge f.buf.len n with
  | inl hlt =>
    rw [pull_of_lt h hlt, if_neg (Nat.not_le.mpr hlt)]
    rfl
  | inr hle =>
    obtain ⟨hcontents, hroom⟩ := Buf.pull_contents h hle (Buf.pull_of_le h hle)
    rw [pull_of_le h hle, if_pos hle, Option.getD_some, RxHdr.toRecvFrame, RxHdr.withBuf_buf,
      hcontents, hroom]
    rfl

theorem toRecvFrame_pullTail (h : f.buf.Valid) (n : ℕ) :
    ((f.recvframePullTail n).getD f).toRecvFrame = f.toRecvFrame.recvframePullTail n := by
  rw [RecvFrame.recvframePullTail, toRecvFrame_len]
  cases Nat.lt_or_ge f.buf.len n with
  | inl hlt =>
    rw [pullTail_of_lt h hlt, if_neg (Nat.not_le.mpr hlt)]
    rfl
  | inr hle =>
    obtain ⟨hcontents, hroom⟩ := Buf.pullTail_contents h hle (Buf.pullTail_of_le h hle)
    rw [pullTail_of_le h hle, if_pos hle, Option.getD_some, RxHdr.toRecvFrame, RxHdr.withBuf_buf,
      hcontents, hroom]
    rfl

theorem toRecvFrame_put (h : f.buf.Valid) (hroom : f.buf.tail + n ≤ f.buf.limit) :
    ((f.recvframePut n).getD f).toRecvFrame = f.toRecvFrame.recvframePut n := by
  have hspare : n ≤ f.toRecvFrame.spare.length := by
    change n ≤ f.buf.room.length
    rw [Buf.length_room]
    omega
  obtain ⟨hcontents, hleft⟩ := Buf.put_contents h hroom (Buf.put_of_le hroom)
  rw [RecvFrame.recvframePut, if_pos hspare, RxHdr.recvframePut, Buf.put_of_le hroom,
    Option.map_some, Option.getD_some, RxHdr.toRecvFrame, RxHdr.withBuf_buf, hcontents, hleft]
  rfl

theorem toRecvFrame_memcpy_tail (h : f.buf.Valid) {bs : List UInt8}
    (hbs : f.buf.tail + bs.length ≤ f.buf.limit) :
    (f.memcpy f.buf.tail bs).toRecvFrame =
      { f.toRecvFrame with spare := splice f.toRecvFrame.spare 0 bs } := by
  have hfits : bs.length ≤ f.buf.room.length := by
    rw [Buf.length_room]
    omega
  have hsplice : splice f.buf.room 0 bs = bs ++ f.buf.room.drop bs.length := by
    rw [splice, Nat.sub_zero, List.take_of_length_le hfits, Nat.zero_add, List.take_zero,
      List.nil_append]
  rw [RxHdr.toRecvFrame, RxHdr.memcpy_buf, Buf.store_tail_contents h, Buf.store_tail_room hbs]
  change _ = { f.toRecvFrame with spare := splice f.buf.room 0 bs }
  rw [hsplice]
  rfl

theorem appendFragment_refines (hpr : pr.buf.Valid) (hg : Received g) :
    (appendFragment pr g).frame.map RxHdr.toRecvFrame =
      Recv.appendFragment pr.toRecvFrame g.toRecvFrame := by
  obtain ⟨hnext, hnextlen, hattrib, -⟩ := pulledNext_spec hg
  obtain ⟨hhead, hlimit, hle, -⟩ := cutHead_spec hpr
  have hpull : (pulledNext g).toRecvFrame = g.toRecvFrame.recvframePull g.toRecvFrame.pastIv := by
    rw [pulledNext, wlanhdrOffset_eq hg.attrib]
    exact toRecvFrame_pull hg.valid g.pastIv
  have hcut : (cutHead pr).toRecvFrame =
      pr.toRecvFrame.recvframePullTail pr.toRecvFrame.attrib.icvLen :=
    toRecvFrame_pullTail hpr pr.attrib.icvLen
  have hspare : pr.toRecvFrame.spare.length = pr.roomLen := Buf.length_room pr.buf
  rw [Recv.appendFragment, ← hpull, ← hcut]
  dsimp only
  rw [hspare, toRecvFrame_len]
  cases Nat.lt_or_ge pr.roomLen (pulledNext g).buf.len with
  | inl hfull =>
    rw [if_pos hfull, (appendFragment_full hg (hnextlen ▸ hfull)).1]
    rfl
  | inr hroom =>
    have hend := hpr.tail_le
    have hfits : (cutHead pr).buf.tail + (pulledNext g).buf.len ≤ (cutHead pr).buf.limit := by
      rw [RxHdr.roomLen] at hroom
      omega
    have hcopied : (copiedHead pr g).toRecvFrame =
        { (cutHead pr).toRecvFrame with
          spare := splice (cutHead pr).toRecvFrame.spare 0 (pulledNext g).toRecvFrame.data } :=
      toRecvFrame_memcpy_tail hhead (by rwa [ByteMemory.length_read])
    have hput := toRecvFrame_put (f := copiedHead pr g) (n := (pulledNext g).buf.len)
      (hhead.store _ _) hfits
    rw [if_neg (Nat.not_lt.mpr hroom), ← hcopied, ← hput]
    have hframe : (appendFragment pr g).frame =
        some { ((copiedHead pr g).recvframePut (pulledNext g).buf.len).getD (copiedHead pr g) with
          attrib := { (((copiedHead pr g).recvframePut (pulledNext g).buf.len).getD
            (copiedHead pr g)).attrib with icvLen := (pulledNext g).attrib.icvLen } } :=
      congrArg Step.frame (if_neg (Nat.not_lt.mpr hroom))
    rw [hframe]
    rfl

theorem le64_slice (p : List UInt8) (i : ℕ) : le64 ((p.drop i).take 8) 0 = le64 p i := by
  simp [le64, le16, byteAt_take, byteAt_drop, Nat.add_assoc]

theorem ccmpPn_refines (h : f.buf.Valid) (hpn : f.attrib.hdrlen + 8 ≤ f.buf.len) :
    f.ccmpPn = f.toRecvFrame.ccmpPn := by
  have htail := h.tail_eq
  have hlimit := h.tail_le
  have hdata : f.toRecvFrame.rxData = read f.buf.mem f.buf.data (f.buf.limit - f.buf.data) :=
    h.contents_room
  rw [RxHdr.ccmpPn, RecvFrame.ccmpPn, hdata, ← le64_slice _ f.toRecvFrame.attrib.hdrlen,
    ByteMemory.slice_read f.buf.mem f.buf.data (by change f.attrib.hdrlen + 8 ≤ _; omega)]
  rfl

theorem curPn_refines (h : f.buf.Valid) (hpn : f.PnInside) (pn : ℕ) :
    f.curPn pn = f.toRecvFrame.curPn pn := by
  rw [RxHdr.curPn, RecvFrame.curPn]
  cases hchecks : checksPn f.attrib.encrypt with
  | false => rw [if_neg (by decide), if_neg (by simp [RxHdr.toRecvFrame, hchecks])]
  | true =>
    rw [if_pos rfl, if_pos (by simpa [RxHdr.toRecvFrame] using hchecks),
      ccmpPn_refines h (hpn hchecks)]

theorem defragIter_refines (hpr : pr.buf.Valid) (hg : Received g) (hpn : g.PnInside)
    (rest : List RecvFrame) :
    Recv.defragLoop pr.toRecvFrame pn k (g.toRecvFrame :: rest) =
      ((defragIter pr pn k g).frame.map RxHdr.toRecvFrame).bind fun next =>
        Recv.defragLoop next (g.curPn pn) (k + 1) rest := by
  have hpnEq : checksPn g.attrib.encrypt = true → g.ccmpPn = g.toRecvFrame.ccmpPn :=
    fun hchecks => ccmpPn_refines hg.valid (hpn hchecks)
  have happend := appendFragment_refines hpr hg
  rw [Recv.defragLoop, ← happend, ← curPn_refines hg.valid hpn]
  change (if checksPn g.attrib.encrypt ∧ g.toRecvFrame.ccmpPn ≠ pn + 1 then none
    else if pr.keytrack ≠ g.keytrack then none
    else if k ≠ g.attrib.fragNum then none
    else _) = _
  cases Classical.em (g.Follows pr.keytrack pn k) with
  | inr hstray =>
    rw [defragIter_stray hstray]
    split
    · rfl
    · rename_i hpn'
      split
      · rfl
      · rename_i hkeytrack
        split
        · rfl
        · rename_i hnum
          refine absurd ⟨fun hchecks => ?_, not_not.mp hkeytrack, not_not.mp hnum⟩ hstray
          rw [hpnEq hchecks]
          exact not_not.mp fun hne => hpn' ⟨hchecks, hne⟩
  | inl hfollows =>
    rw [defragIter_follows hfollows]
    obtain ⟨hpn', hkeytrack, hnum⟩ := hfollows
    rw [if_neg (fun h => h.2 (hpnEq h.1 ▸ hpn' h.1)), if_neg (not_not.mpr hkeytrack),
      if_neg (not_not.mpr hnum)]
    cases (appendFragment pr g).frame <;> rfl

theorem defragLoop_refines {queue : List RxHdr} (hpr : Received pr)
    (hqueue : ∀ g ∈ queue, Received g)
    (hd : ∀ s ∈ defragLoop pr pn k queue, s.Disciplined) :
    (outcome pr (defragLoop pr pn k queue)).map RxHdr.toRecvFrame =
      Recv.defragLoop pr.toRecvFrame pn k (queue.map RxHdr.toRecvFrame) := by
  induction queue generalizing pr pn k with
  | nil => rfl
  | cons g queue ih =>
    obtain ⟨hg, hrest⟩ := List.forall_mem_cons.mp hqueue
    rw [defragLoop] at hd
    obtain ⟨hstep, hlater⟩ := List.forall_mem_cons.mp hd
    have hpn : g.PnInside := by
      rw [← pnAccesses_inside_iff hg.valid]
      refine fun x hx => hstep.inside x ?_
      cases Classical.em (g.Follows pr.keytrack pn k) with
      | inr hstray => rwa [defragIter_stray hstray]
      | inl hfollows =>
        rw [defragIter_follows hfollows]
        exact List.mem_append_left _ hx
    rw [List.map_cons, defragIter_refines hpr.valid hg hpn, defragLoop, outcome]
    cases hnext : (defragIter pr pn k g).frame with
    | none => rfl
    | some next =>
      simp only [hnext] at hlater
      exact ih (defragIter_received hpr hg hnext) hrest hlater

theorem defrag_refines {first : RxHdr} {rest : List RxHdr} (hx : ∀ f ∈ first :: rest, Received f)
    (hd : ∀ s ∈ recvframeDefrag (first :: rest), s.Disciplined) :
    (outcome first (recvframeDefrag (first :: rest))).map RxHdr.toRecvFrame =
      Recv.recvframeDefrag ((first :: rest).map RxHdr.toRecvFrame) := by
  obtain ⟨hfirst, hrest⟩ := List.forall_mem_cons.mp hx
  rw [recvframeDefrag] at hd
  obtain ⟨hhead, hlater⟩ := List.forall_mem_cons.mp hd
  rw [List.map_cons, Recv.recvframeDefrag, recvframeDefrag, outcome, defragHead]
  cases Decidable.em (first.attrib.fragNum = 0) with
  | inr hnum =>
    have hnum' : first.toRecvFrame.attrib.fragNum ≠ 0 := hnum
    rw [if_pos hnum, if_pos hnum, if_pos hnum']
    rfl
  | inl hnum =>
    have hpn : first.PnInside := by
      rw [← pnAccesses_inside_iff hfirst.valid]
      rw [defragHead, if_neg (not_not.mpr hnum)] at hhead
      exact hhead.inside
    have hnum' : ¬first.toRecvFrame.attrib.fragNum ≠ 0 := not_not.mpr hnum
    rw [if_neg (not_not.mpr hnum)] at hlater
    rw [if_neg (not_not.mpr hnum), if_neg (not_not.mpr hnum), if_neg hnum',
      ← curPn_refines hfirst.valid hpn]
    exact defragLoop_refines hfirst hrest hlater

theorem pullMic_refines (h : f.buf.Valid) (xs : List Access) (ok : Bool) :
    (pullMic f xs ok).frame.map RxHdr.toRecvFrame =
      if ok then some (f.toRecvFrame.recvframePullTail 8) else none := by
  cases ok with
  | false => rfl
  | true => exact congrArg some (toRecvFrame_pullTail h 8)

theorem micDatalen_eq (hshort : f.buf.len < 2 ^ 32)
    (hlong : f.pastIv + f.attrib.icvLen + 8 ≤ f.buf.len) :
    micDatalen f = f.buf.len - f.pastIv - f.attrib.icvLen - 8 := by
  rw [RxHdr.pastIv] at hlong ⊢
  rw [micDatalen]
  omega

theorem micDatalen_abnormal_iff (hf : Received f) :
    micDatalen f > f.buf.tail - f.buf.data ∨ micDatalen f > f.buf.limit - f.buf.data ↔
      f.buf.len < f.pastIv + f.attrib.icvLen + 8 := by
  have htail := hf.valid.tail_eq
  have hlimit := hf.valid.tail_le
  constructor
  · intro habnormal
    refine Nat.not_le.mp fun hlong => ?_
    have hle := micDatalen_le hlong
    omega
  · intro hshort
    have hlt := micDatalen_short hf.attrib hshort
    omega

theorem micMatches_iff (crypto : Crypto) (mickey : List UInt8) (hlen : f.buf.len < 2 ^ 32)
    (hlong : f.pastIv + f.attrib.icvLen + 8 ≤ f.buf.len) :
    micMatches crypto mickey f = true ↔
      crypto.seccalctkipmic mickey f.buf.contents
          ((f.buf.contents.drop f.pastIv).take (f.buf.len - f.pastIv - f.attrib.icvLen - 8))
          f.attrib.priority =
        ((f.buf.contents.drop f.pastIv).drop
          (f.buf.len - f.pastIv - f.attrib.icvLen - 8)).take 8 := by
  have hdatalen := micDatalen_eq hlen hlong
  have hpayload : (f.buf.contents.drop f.pastIv).take (micDatalen f) =
      read f.buf.mem (f.buf.data + f.pastIv) (micDatalen f) :=
    ByteMemory.slice_read _ _ (by omega)
  have hmic : (f.buf.contents.drop (f.pastIv + micDatalen f)).take 8 =
      read f.buf.mem (f.buf.data + (f.pastIv + micDatalen f)) 8 :=
    ByteMemory.slice_read _ _ (by omega)
  rw [micMatches, ← hdatalen, List.drop_drop, hpayload, hmic, decide_eq_true_iff]
  simp only [RxHdr.pastIv, Nat.add_assoc]

theorem chkmic_refines (crypto : Crypto) (a : Adapter) (hf : Received f)
    (hlen : f.buf.len < 2 ^ 32) :
    (recvframeChkmic crypto a f).frame.map RxHdr.toRecvFrame =
      Recv.recvframeChkmic crypto a f.toRecvFrame := by
  cases Decidable.em (f.attrib.encrypt = .tkip) with
  | inr hother =>
    have hlist : Recv.recvframeChkmic crypto a f.toRecvFrame = some f.toRecvFrame := if_pos hother
    rw [recvframeChkmic, if_pos hother, hlist]
    rfl
  | inl htkip =>
    simp only [recvframeChkmic, Recv.recvframeChkmic, toRecvFrame_attrib, toRecvFrame_len,
      toRecvFrame_pastIv, htkip, ne_eq, not_true_eq_false, if_false]
    cases hsta : rtwGetStainfo a.stapriv f.attrib.ta with
    | none => exact pullMic_refines hf.valid [] true
    | some stainfo =>
      simp only [micDatalen_abnormal_iff hf]
      split
      · rfl
      split
      · rfl
      split
      · rfl
      · rename_i hlong
        rw [pullMic_refines hf.valid]
        exact if_congr (micMatches_iff crypto _ hlen (Nat.not_lt.mp hlong)) rfl rfl

-- the same two stages over the bytes of the frames alone
def Arrival.joined : Arrival → Option RecvFrame
  | .whole f => some f.toRecvFrame
  | .fragments first rest => Recv.recvframeDefrag ((first :: rest).map RxHdr.toRecvFrame)

def checked (crypto : Crypto) (a : Adapter) (f : RecvFrame) : Option RecvFrame :=
  if f.attrib.privacy then Recv.recvframeChkmic crypto a f else some f

theorem joined_refines {x : Arrival} (hx : ∀ f ∈ x.frames, Received f) (hmeets : x.Meets) :
    x.defragged.map RxHdr.toRecvFrame = x.joined := by
  cases x with
  | whole f => rfl
  | fragments first rest => exact defrag_refines hx ((defragSteps_disciplined_iff hx).mpr hmeets)

theorem chkmicStep_refines (crypto : Crypto) (a : Adapter) (hf : Received f)
    (hlen : f.buf.len < 2 ^ 32) :
    (chkmicStep crypto a f).frame.map RxHdr.toRecvFrame = checked crypto a f.toRecvFrame := by
  rw [chkmicStep, checked, toRecvFrame_attrib]
  split
  · exact chkmic_refines crypto a hf hlen
  · rfl

theorem stages_refine (crypto : Crypto) (a : Adapter) {x : Arrival}
    (hx : ∀ f ∈ x.frames, Received f) (hmeets : x.Meets)
    (hlen : ∀ f ∈ x.defragged, f.buf.len < 2 ^ 32) :
    (x.defragged.bind fun f => (chkmicStep crypto a f).frame).map RxHdr.toRecvFrame =
      x.joined.bind (checked crypto a) := by
  rw [← joined_refines hx hmeets]
  cases hout : x.defragged with
  | none => rfl
  | some f => exact chkmicStep_refines crypto a (defragged_received hx hout) (hlen f hout)

theorem stages_refine_wep :
    let x : Arrival := .fragments (wepFrame 0 60) [wepFrame 1 40]
    (x.joined.bind (checked .rejecting wepStation)).map RecvFrame.len = some 68 := by
  have hx : ∀ f ∈ Arrival.frames (.fragments (wepFrame 0 60) [wepFrame 1 40]), Received f :=
    List.forall_mem_cons.mpr ⟨wepFrame_received 0 (by decide),
      List.forall_mem_singleton.mpr (wepFrame_received 1 (by decide))⟩
  have hmeets : Arrival.Meets (.fragments (wepFrame 0 60) [wepFrame 1 40]) :=
    ⟨nofun, fun _ => ⟨nofun, fun _ => .inr ⟨by decide, by decide, trivial⟩⟩⟩
  have hlen : ∀ f ∈ Arrival.defragged (.fragments (wepFrame 0 60) [wepFrame 1 40]),
      f.buf.len < 2 ^ 32 := by
    intro f hf
    cases hf
    decide
  dsimp only
  rw [← stages_refine .rejecting wepStation hx hmeets hlen]
  rfl

end Recv.RxPointers
