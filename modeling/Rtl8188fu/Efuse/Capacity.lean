import Rtl8188fu.Efuse.Scanners
import Rtl8188fu.Efuse.WriteRead

namespace Efuse

variable {program : UInt8 → UInt8 → UInt8} {content : List UInt8}

inductive Walks (content : List UInt8) : ℕ → ℕ → Prop where
  | here (a : ℕ) : Walks content a a
  | next {a b : ℕ} : AtHeader content a → Resumes content a →
    Walks content (afterPacket content a) b → Walks content a b

theorem Walks.trans {a b c : ℕ} (h : Walks content a b) (h' : Walks content b c) :
    Walks content a c := by
  induction h with
  | here a => exact h'
  | next hat hres _ ih => exact .next hat hres (ih h')

theorem Walks.le {a b : ℕ} (h : Walks content a b) : a ≤ b := by
  induction h with
  | here a => exact Nat.le_refl a
  | next hat hres _ ih => exact Nat.le_trans (Nat.le_of_lt (lt_afterPacket content _)) ih

theorem Walks.scan {a b : ℕ} (count : ℕ) (h : Walks content a b) (hend : ¬ AtHeader content b) :
    currentSizeLoop content 0 a count = some b := by
  induction h with
  | here a => exact currentSizeLoop_end count hend
  | next hat hres _ ih => rw [currentSizeLoop_resumes count hat hres, ih hend]

theorem walks_of_resumes {a : ℕ}
    (h : ∀ b, Reached content a b → AtHeader content b → Resumes content b) :
    Walks content a (readStop content a) := by
  induction a using readStop.induct content with
  | case1 a hat ih =>
    rw [readStop_header hat]
    exact .next hat (h a (.here a) hat) (ih fun b hb hbat => h b (.next hat hb) hbat)
  | case2 a hat =>
    rw [readStop_end hat]
    exact .here a

section Prefix

variable {content' : List UInt8} {n : ℕ}
  (hsame : ∀ a < n, oneByteRead content' a = oneByteRead content a)

include hsame

theorem afterPacket_congr {a : ℕ} (hle : afterPacket content a ≤ n) :
    afterPacket content' a = afterPacket content a := by
  have hlt := lt_afterPacket content a
  have hfirst := hsame a (by omega)
  simp only [afterPacket] at hle ⊢
  rw [hfirst]
  cases hext : extHeader (oneByteRead content a) with
  | false => simp only [Bool.false_eq_true, if_false]
  | true =>
    simp only [hext, if_true] at hle
    have hsecond : oneByteRead content' (a + 1) = oneByteRead content (a + 1) := by
      refine hsame (a + 1) ?_
      split at hle
      · omega
      · omega
    rw [hsecond]

theorem Resumes.congr {a : ℕ} (hle : afterPacket content a ≤ n) (hn : n < efuseRealContentLen)
    (h : Resumes content a) : Resumes content' a := by
  have hlt := lt_afterPacket content a
  intro hext hall
  rw [hsame a (by omega)] at hext
  have htwo : a + 2 ≤ n := by
    simp only [afterPacket, hext, if_true] at hle
    split at hle
    · exact hle
    · omega
  have hsecond := hsame (a + 1) (by omega)
  rw [hsecond] at hall
  obtain ⟨hat, -⟩ := h hext hall
  exact ⟨⟨hat.1, by rw [hsecond]; exact hat.2⟩, fun heq => absurd heq (by omega)⟩

theorem Walks.congr {a b : ℕ} (h : Walks content a b) (hle : b ≤ n)
    (hn : n < efuseRealContentLen) : Walks content' a b := by
  induction h with
  | here a => exact .here a
  | @next a b hat hres hrest ih =>
    have hafter := Nat.le_trans hrest.le hle
    have hlt := lt_afterPacket content a
    have hat' : AtHeader content' a := ⟨hat.1, by rw [hsame a (by omega)]; exact hat.2⟩
    refine .next hat' (hres.congr hsame hafter hn) ?_
    rw [afterPacket_congr hsame hafter]
    exact ih hle

end Prefix

theorem Walks.packet {a : ℕ} (p : PgPkt) (h : Headed p)
    (hin : a + (pgPacket p h).bytes.length ≤ content.length) (ha : a < efuseRealContentLen) :
    Walks (patch content a (pgPacket p h).bytes) a (a + (pgPacket p h).bytes.length) := by
  have hread : oneByteRead (patch content a (pgPacket p h).bytes) a = (pgHeaders p).1 :=
    oneByteRead_patch_head _ _ hin
  have hdata : (pgPacket p h).data.length =
      calculateWordCnts ((pgHeaders p).2.getD (pgHeaders p).1 &&& 0x0F) * 2 :=
    (pgPacket p h).complete.2.2.2
  have hlen : (pgPacket p h).bytes.length =
      1 + (pgHeaders p).2.toList.length + (pgPacket p h).data.length := length_pgPacket p h
  have hat : AtHeader (patch content a (pgPacket p h).bytes) a := ⟨ha, by
    rw [hread]
    exact h.header⟩
  have hext := h.ext
  cases he : (pgHeaders p).2 with
  | none =>
    rw [he, Option.isSome_none] at hext
    rw [he, Option.getD_none] at hdata
    rw [he, Option.toList_none, List.length_nil] at hlen
    refine .next hat (fun hext' => ?_) ?_
    · rw [hread] at hext'
      exact absurd (hext.trans hext') Bool.false_ne_true
    · have hafter : afterPacket (patch content a (pgPacket p h).bytes) a =
          a + (pgPacket p h).bytes.length := by
        simp only [afterPacket, hread, ← hext, Bool.false_eq_true, if_false]
        omega
      rw [hafter]
      exact .here _
  | some x =>
    rw [he, Option.isSome_some] at hext
    rw [he, Option.getD_some] at hdata
    rw [he, Option.toList_some, List.length_singleton] at hlen
    have hsecond : oneByteRead (patch content a (pgPacket p h).bytes) (a + 1) = x := by
      rw [oneByteRead_patch hin, if_pos (by omega), Nat.add_sub_cancel_left, pgPacket_bytes_eq, he]
      rfl
    have hwords : allWordsDisabled x = false := by
      cases hall : allWordsDisabled x with
      | false => rfl
      | true => exact absurd (beq_iff_eq.mp hall) (h.extNe x (by rw [he]; rfl)).2
    refine .next hat (fun _ hall => ?_) ?_
    · rw [hsecond] at hall
      exact absurd (hwords.symm.trans hall) Bool.false_ne_true
    · have hafter : afterPacket (patch content a (pgPacket p h).bytes) a =
          a + (pgPacket p h).bytes.length := by
        simp only [afterPacket, hread, ← hext, if_true, hsecond, hwords, Bool.false_eq_true,
          if_false]
        omega
      rw [hafter]
      exact .here _

def PgPkt.bytes (p : PgPkt) : List UInt8 :=
  (pgHeaders p).1 :: (pgHeaders p).2.toList ++ packedWords p.wordEn p.data (List.range 4)

def packetBytes (ps : List PgPkt) : List UInt8 := ps.flatMap PgPkt.bytes

def changedPackets (efuse map : ℕ → UInt8) (addr cnts idx offset : ℕ) : List PgPkt :=
  if idx < cnts then
    let s := changesAt efuse map addr cnts idx offset
    let rest := changedPackets efuse map addr cnts s.idx (offset + 1)
    if s.wordEn ≠ 0x0F then
      halEfuseConstructPGPkt (UInt8.ofNat offset) s.wordEn s.newdata :: rest
    else rest
  else []
termination_by cnts - idx
decreasing_by
  rw [changesAt_idx]
  omega

theorem PgPkt.bytes_eq (p : PgPkt) (h : Headed p) : p.bytes = (pgPacket p h).bytes := rfl

theorem PgPkt.length_pos (p : PgPkt) : 0 < p.bytes.length := by
  simp only [PgPkt.bytes, List.cons_append, List.length_cons]
  omega

theorem oneByteRead_packet {a : ℕ} (p : PgPkt) (h : a + p.bytes.length ≤ content.length) :
    oneByteRead (patch content a p.bytes) a = (pgHeaders p).1 :=
  oneByteRead_patch_head _ _ h

theorem packetBytes_cons (p : PgPkt) (ps : List PgPkt) :
    packetBytes (p :: ps) = p.bytes ++ packetBytes ps := List.flatMap_cons

section Request

variable {efuse map : ℕ → UInt8} {addr cnts idx offset : ℕ}

theorem changedPackets_done (h : ¬ idx < cnts) :
    changedPackets efuse map addr cnts idx offset = [] := by
  rw [changedPackets, if_neg h]

theorem changedPackets_changed (h : idx < cnts)
    (hwords : (changesAt efuse map addr cnts idx offset).wordEn ≠ 0x0F) :
    changedPackets efuse map addr cnts idx offset =
      halEfuseConstructPGPkt (UInt8.ofNat offset) (changesAt efuse map addr cnts idx offset).wordEn
          (changesAt efuse map addr cnts idx offset).newdata ::
        changedPackets efuse map addr cnts (changesAt efuse map addr cnts idx offset).idx
          (offset + 1) := by
  rw [changedPackets, if_pos h]
  exact if_pos hwords

theorem changedPackets_same (h : idx < cnts)
    (hwords : (changesAt efuse map addr cnts idx offset).wordEn = 0x0F) :
    changedPackets efuse map addr cnts idx offset =
      changedPackets efuse map addr cnts (changesAt efuse map addr cnts idx offset).idx
        (offset + 1) := by
  rw [changedPackets, if_pos h]
  exact if_neg (not_not.mpr hwords)

theorem chkTotalByte_step (h : idx < cnts) :
    chkTotalByte efuse map addr cnts idx offset 0 =
      pgBytes (changesAt efuse map addr cnts idx offset).wordEn offset +
        chkTotalByte efuse map addr cnts (changesAt efuse map addr cnts idx offset).idx
          (offset + 1) 0 := by
  conv_lhs => rw [chkTotalByte]
  rw [if_pos h]
  dsimp only
  rw [chkTotalByte_add, Nat.zero_add]

theorem section_lt (hmap : addr + cnts ≤ efuseMapLen) (haligned : Aligned addr cnts idx offset)
    (h : idx < cnts) : offset < efuseMaxSection := by
  have hlen : efuseMapLen = 512 := rfl
  have hmax : efuseMaxSection = 64 := rfl
  obtain ⟨hlow, -, -⟩ := haligned.within h
  omega

theorem changed_headed (hmap : addr + cnts ≤ efuseMapLen)
    (houtside : ∀ a, ¬(addr ≤ a ∧ a < addr + cnts) → efuse a = map a)
    (haligned : Aligned addr cnts idx offset) (h : idx < cnts)
    (hwords : (changesAt efuse map addr cnts idx offset).wordEn ≠ 0x0F) :
    Headed (halEfuseConstructPGPkt (UInt8.ofNat offset)
      (changesAt efuse map addr cnts idx offset).wordEn
      (changesAt efuse map addr cnts idx offset).newdata) := by
  have hoffset := section_lt hmap haligned h
  have hlt := (@changesAt_section efuse map _ _ _ _ haligned h houtside).wordEn
  refine headed _ ((toNat_offset hoffset).symm ▸ hoffset) ?_
  have hne : (changesAt efuse map addr cnts idx offset).wordEn.toNat ≠ 0x0F :=
    fun heq => hwords (UInt8.toNat_inj.mp heq)
  exact Nat.lt_of_le_of_ne (Nat.le_of_lt_succ hlt) hne

theorem length_packetBytes (hmap : addr + cnts ≤ efuseMapLen)
    (houtside : ∀ a, ¬(addr ≤ a ∧ a < addr + cnts) → efuse a = map a)
    (haligned : Aligned addr cnts idx offset) :
    (packetBytes (changedPackets efuse map addr cnts idx offset)).length =
      chkTotalByte efuse map addr cnts idx offset 0 := by
  induction hn : cnts - idx using Nat.strongRecOn generalizing idx offset with
  | _ n ih =>
    cases Nat.lt_or_ge idx cnts with
    | inr hge =>
      rw [changedPackets_done (Nat.not_lt.mpr hge), chkTotalByte, if_neg (Nat.not_lt.mpr hge)]
      rfl
    | inl hidx =>
      have hless : cnts - (changesAt efuse map addr cnts idx offset).idx < n := by
        rw [changesAt_idx]
        omega
      have hrest := ih _ hless (@Aligned.next efuse map _ _ _ _ haligned hidx) rfl
      rw [chkTotalByte_step hidx]
      cases Decidable.em ((changesAt efuse map addr cnts idx offset).wordEn = 0x0F) with
      | inl hsame =>
        rw [changedPackets_same hidx hsame, hrest, pgBytes, if_neg (not_not.mpr hsame),
          Nat.zero_add]
      | inr hwords =>
        have hheaded := changed_headed hmap houtside haligned hidx hwords
        have hbytes := pgPacket_bytes _ hheaded
        change _ = calculateWordCnts (changesAt efuse map addr cnts idx offset).wordEn * 2 +
          (if efuseMaxSectionBase ≤ (UInt8.ofNat offset).toNat then 2 else 1) at hbytes
        rw [toNat_offset (section_lt hmap haligned hidx)] at hbytes
        rw [changedPackets_changed hidx hwords, packetBytes_cons, List.length_append, hrest,
          PgPkt.bytes_eq _ hheaded, hbytes, pgBytes, if_pos hwords]

end Request

theorem size_at_end {a : ℕ} (hread : oneByteRead content a = 0xFF) :
    halEfuseGetCurrentSizeWifi ⟨content, a⟩ = (⟨content, a⟩, a) := by
  have hloop : currentSizeLoop content a a 0 = some a := by
    rw [currentSizeLoop]
    dsimp only
    rw [if_pos hread, ite_self]
  simp only [halEfuseGetCurrentSizeWifi, hloop]

theorem Walks.size {a b : ℕ} (h : Walks content 0 b) (hend : oneByteRead content b = 0xFF)
    (ha : AtHeader content a) :
    halEfuseGetCurrentSizeWifi ⟨content, a⟩ = (⟨content, b⟩, b) := by
  have hnot : ¬ AtHeader content b := fun hb => hb.2 hend
  have hloop : currentSizeLoop content a a 0 = some b := by
    cases Decidable.eq_or_ne a 0 with
    | inl hzero => rw [hzero, h.scan 0 hnot]
    | inr hne => rw [currentSizeLoop_restart ha.1 hne ha.2, h.scan 3 hnot]
  simp only [halEfuseGetCurrentSizeWifi, hloop]

theorem writeLoop_exact (hprogram : ∀ d, program 0xFF d = d) {efuse map : ℕ → UInt8}
    {addr cnts idx offset : ℕ} (hmap : addr + cnts ≤ efuseMapLen)
    (houtside : ∀ a, ¬(addr ≤ a ∧ a < addr + cnts) → efuse a = map a)
    (haligned : Aligned addr cnts idx offset) {e : EfuseHal} {pos : ℕ}
    (hfit : pos + (packetBytes (changedPackets efuse map addr cnts idx offset)).length <
      availableEfuseBytes)
    (herased : Erased e.content pos
      (packetBytes (changedPackets efuse map addr cnts idx offset)).length)
    (hsize : changedPackets efuse map addr cnts idx offset ≠ [] →
      halEfuseGetCurrentSizeWifi e = ({ e with efuseUsedBytes := pos }, pos))
    (hwalk : Walks e.content 0 pos ∨
      (changedPackets efuse map addr cnts idx offset).length ≤ 1) :
    (writeLoop program efuse map addr cnts idx offset e).2 = true ∧
      (writeLoop program efuse map addr cnts idx offset e).1.content =
        patch e.content pos (packetBytes (changedPackets efuse map addr cnts idx offset)) := by
  induction hn : cnts - idx using Nat.strongRecOn generalizing idx offset e pos with
  | _ n ih =>
    cases Nat.lt_or_ge idx cnts with
    | inr hge =>
      rw [changedPackets_done (Nat.not_lt.mpr hge), writeLoop, if_neg (Nat.not_lt.mpr hge)]
      exact ⟨rfl, (patch_nil e.content pos).symm⟩
    | inl hidx =>
      have hless : cnts - (changesAt efuse map addr cnts idx offset).idx < n := by
        rw [changesAt_idx]
        omega
      have hnext := @Aligned.next efuse map _ _ _ _ haligned hidx
      rw [writeLoop, if_pos hidx]
      dsimp only
      cases Decidable.em ((changesAt efuse map addr cnts idx offset).wordEn = 0x0F) with
      | inl hsame =>
        rw [changedPackets_same hidx hsame] at hfit herased hsize hwalk ⊢
        rw [if_neg (not_not.mpr hsame)]
        exact ih _ hless hnext hfit herased hsize hwalk rfl
      | inr hwords =>
        have hheaded := changed_headed hmap houtside haligned hidx hwords
        have havail : availableEfuseBytes = 221 := rfl
        have hreal : efuseRealContentLen = 256 := rfl
        rw [changedPackets_changed hidx hwords] at hfit herased hsize hwalk ⊢
        rw [packetBytes_cons, List.length_append] at hfit herased
        rw [packetBytes_cons, if_pos hwords]
        have hstep := pgPacketWrite_erased hprogram (hsize (List.cons_ne_nil _ _)) 255 hheaded
          (by omega) (herased.mono (Nat.le_add_right _ _))
        rw [← PgPkt.bytes_eq] at hstep
        rw [efuseRealContentLen, hstep]
        dsimp only
        have hpos := PgPkt.length_pos (halEfuseConstructPGPkt (UInt8.ofNat offset)
          (changesAt efuse map addr cnts idx offset).wordEn
          (changesAt efuse map addr cnts idx offset).newdata)
        have hinside := herased.inside
        have hwalk' : Walks e.content 0 pos → Walks
            (patch e.content pos (halEfuseConstructPGPkt (UInt8.ofNat offset)
              (changesAt efuse map addr cnts idx offset).wordEn
              (changesAt efuse map addr cnts idx offset).newdata).bytes) 0
            (pos + (halEfuseConstructPGPkt (UInt8.ofNat offset)
              (changesAt efuse map addr cnts idx offset).wordEn
              (changesAt efuse map addr cnts idx offset).newdata).bytes.length) := by
          intro hw
          refine Walks.trans (hw.congr (n := pos) (fun a ha => ?_) (Nat.le_refl _) (by omega))
            (Walks.packet _ hheaded (by rw [← PgPkt.bytes_eq]; omega) (by omega))
          rw [oneByteRead_patch (by omega), if_neg (by omega)]
        generalize hp : halEfuseConstructPGPkt (UInt8.ofNat offset)
          (changesAt efuse map addr cnts idx offset).wordEn
          (changesAt efuse map addr cnts idx offset).newdata = p at *
        have hrest : Erased (patch e.content pos p.bytes) (pos + p.bytes.length)
            (packetBytes (changedPackets efuse map addr cnts
              (changesAt efuse map addr cnts idx offset).idx (offset + 1))).length :=
          Erased.patch _ herased
        rw [← patch_append _ _ (by omega)]
        refine ih _ hless hnext (by omega) hrest (fun hne => ?_) ?_ rfl
        · cases hps : changedPackets efuse map addr cnts
              (changesAt efuse map addr cnts idx offset).idx (offset + 1) with
          | nil => exact absurd hps hne
          | cons q qs =>
            rw [hps] at hwalk hrest
            have hw := hwalk.resolve_right (by simp)
            have hqpos := PgPkt.length_pos q
            rw [packetBytes_cons, List.length_append] at hrest
            refine (hwalk' hw).size (hrest.blank 0 (by omega)) ⟨by omega, ?_⟩
            rw [oneByteRead_packet p (by omega)]
            exact hheaded.header
        · rcases hwalk with hw | hsingle
          · exact .inl (hwalk' hw)
          · refine .inr ?_
            simp only [List.length_cons] at hsingle
            omega

def mapBefore (e : EfuseHal) : MapRead :=
  rtwEfuseMapRead e 0 efuseMapLen (List.replicate efuseMapLen 0xFF)

def writeMap (e : EfuseHal) (i : ℕ) : UInt8 := (mapBefore e).data.getD i 0xFF

def writeStart (e : EfuseHal) : EfuseHal × ℕ :=
  if (mapBefore e).efuse.efuseUsedBytes = 0 then halEfuseGetCurrentSizeWifi (mapBefore e).efuse
  else ((mapBefore e).efuse, (mapBefore e).efuse.efuseUsedBytes)

section MapWrite

variable (r : RegistryPriv) (e : EfuseHal) (addr cnts : ℕ) (data : ℕ → UInt8)

def writeTotal : ℕ :=
  chkTotalByte (efuseImage r (writeMap e) addr cnts data) (writeMap e) addr cnts 0 (addr / 8) 0

def requestPackets : List PgPkt :=
  changedPackets (efuseImage r (writeMap e) addr cnts data) (writeMap e) addr cnts 0 (addr / 8)

structure CapacityLaw (program : UInt8 → UInt8 → UInt8) : Prop where
  refused : efuseMapLen < addr + cnts ∨
      availableEfuseBytes ≤ (writeStart e).2 + writeTotal r e addr cnts data →
    (rtwEfuseMapWrite program r e addr cnts data).2 = false ∧
      (rtwEfuseMapWrite program r e addr cnts data).1.content = e.content
  counted : addr + cnts ≤ efuseMapLen →
    (packetBytes (requestPackets r e addr cnts data)).length = writeTotal r e addr cnts data
  programmed : addr + cnts ≤ efuseMapLen →
    (writeStart e).2 + writeTotal r e addr cnts data < availableEfuseBytes →
    Erased e.content (writeStart e).2 (writeTotal r e addr cnts data) →
    (currentSizeFromStart e.content = readStop e.content 0 ∨
      (requestPackets r e addr cnts data).length ≤ 1) →
    (rtwEfuseMapWrite program r e addr cnts data).2 = true ∧
      (∀ a, oneByteRead (rtwEfuseMapWrite program r e addr cnts data).1.content a =
        if (writeStart e).2 ≤ a ∧ a < (writeStart e).2 + writeTotal r e addr cnts data then
          (packetBytes (requestPackets r e addr cnts data)).getD (a - (writeStart e).2) 0xFF
        else oneByteRead e.content a) ∧
      ∀ a, availableEfuseBytes ≤ a →
        oneByteRead (rtwEfuseMapWrite program r e addr cnts data).1.content a =
          oneByteRead e.content a

theorem mapBefore_efuse :
    (mapBefore e).ret = true ∧
      (mapBefore e).efuse = ⟨e.content, (readLoop e.content 0 fun _ => 0xFF).1 - 1⟩ := by
  have hin : ¬ efuseMapLen < 0 + efuseMapLen := by decide
  have hmax : ¬ efuseMaxMapLen < 0 + efuseMapLen := by decide
  simp only [mapBefore, rtwEfuseMapRead, if_neg hin, halReadEfuseWifi, if_neg hmax, and_self]

theorem writeStart_content : (writeStart e).1.content = e.content := by
  simp only [writeStart, (mapBefore_efuse e).2]
  split
  · simp only [halEfuseGetCurrentSizeWifi]
    split
    · rfl
    · rfl
  · rfl

theorem rtwEfuseMapWrite_cases (haddr : addr + cnts ≤ efuseMapLen) :
    rtwEfuseMapWrite program r e addr cnts data =
      if availableEfuseBytes ≤ (writeStart e).2 + writeTotal r e addr cnts data then
        ((writeStart e).1, false)
      else
        writeLoop program (efuseImage r (writeMap e) addr cnts data) (writeMap e) addr cnts 0
          (addr / 8) (writeStart e).1 := by
  have hret : ¬ (mapBefore e).ret = false := by
    rw [(mapBefore_efuse e).1]
    exact Bool.noConfusion
  rw [rtwEfuseMapWrite, if_neg (Nat.not_lt.mpr haddr)]
  exact if_neg hret

theorem writeStart_eq (h : (writeStart e).2 < availableEfuseBytes) :
    (writeStart e).2 = readStop e.content 0 ∧
      halEfuseGetCurrentSizeWifi (writeStart e).1 =
        ({ (writeStart e).1 with efuseUsedBytes := (writeStart e).2 }, (writeStart e).2) := by
  have havail : availableEfuseBytes = 221 := rfl
  have hreal : efuseRealContentLen = 256 := rfl
  have hfst := readLoop_fst e.content 0 fun _ => 0xFF
  have hbefore := (mapBefore_efuse e).2
  cases Nat.lt_or_ge (readStop e.content 0) efuseRealContentLen with
  | inr hge =>
    rw [if_neg (Nat.not_lt.mpr hge)] at hfst
    rw [hfst] at hbefore
    have hne : ¬ readStop e.content 0 - 1 = 0 := by omega
    rw [writeStart, hbefore, if_neg hne] at h
    dsimp only at h
    omega
  | inl hlt =>
    rw [if_pos hlt] at hfst
    rw [hfst, Nat.add_sub_cancel] at hbefore
    have hread : oneByteRead e.content (readStop e.content 0) = 0xFF := by
      have hstop : ¬ AtHeader e.content (readStop e.content 0) := by
        generalize 0 = a
        induction a using readStop.induct e.content with
        | case1 a hat ih =>
          rw [readStop_header hat]
          exact ih
        | case2 a hat =>
          rw [readStop_end hat]
          exact hat
      by_contra hne
      exact hstop ⟨hlt, hne⟩
    have hsize := size_at_end hread
    have hstart : writeStart e =
        (⟨e.content, readStop e.content 0⟩, readStop e.content 0) := by
      rw [writeStart, hbefore]
      dsimp only
      rw [hsize, ite_self]
    rw [hstart]
    exact ⟨rfl, hsize⟩

theorem map_write_capacity (hprogram : ∀ d, program 0xFF d = d) :
    CapacityLaw r e addr cnts data program where
  refused h := by
    cases Nat.lt_or_ge efuseMapLen (addr + cnts) with
    | inl hout =>
      rw [rtwEfuseMapWrite, if_pos hout]
      exact ⟨rfl, rfl⟩
    | inr haddr =>
      rw [rtwEfuseMapWrite_cases r e addr cnts data haddr,
        if_pos (h.resolve_left (Nat.not_lt.mpr haddr))]
      exact ⟨rfl, writeStart_content e⟩
  counted haddr := length_packetBytes haddr (fun _ ha => if_neg ha) (Aligned.start addr cnts)
  programmed haddr hroom herased hwalk := by
    have houtside (a : ℕ) (ha : ¬(addr ≤ a ∧ a < addr + cnts)) :
        efuseImage r (writeMap e) addr cnts data a = writeMap e a := if_neg ha
    have hcount : (packetBytes (requestPackets r e addr cnts data)).length =
        writeTotal r e addr cnts data :=
      length_packetBytes haddr houtside (Aligned.start addr cnts)
    obtain ⟨hstop, hsize⟩ := writeStart_eq e (by omega)
    have hcontent := writeStart_content e
    have hwalks : Walks (writeStart e).1.content 0 (writeStart e).2 ∨
        (requestPackets r e addr cnts data).length ≤ 1 := by
      refine hwalk.imp_left fun hagree => ?_
      have hcur : currentSizeLoop e.content 0 0 0 = some (readStop e.content 0) := by
        obtain ⟨size, hsome⟩ := currentSizeLoop_isSome e.content 0 0
        have hfrom : currentSizeFromStart e.content = size := by
          simp only [currentSizeFromStart, halEfuseGetCurrentSizeWifi, hsome]
        rw [hsome, ← hfrom, hagree]
      rw [hcontent, hstop]
      exact walks_of_resumes ((currentSizeLoop_eq_readStop e.content 0 0).mp hcur)
    have hexact := @writeLoop_exact program hprogram _ _ addr cnts 0 (addr / 8) haddr houtside
      (Aligned.start addr cnts) (writeStart e).1 (writeStart e).2
      (by rw [← requestPackets, hcount]; exact hroom)
      (by rw [← requestPackets, hcount, hcontent]; exact herased) (fun _ => hsize) hwalks
    have hin := herased.inside
    rw [← hcount] at hin
    rw [rtwEfuseMapWrite_cases r e addr cnts data haddr, if_neg (Nat.not_le.mpr hroom),
      hexact.2, hcontent, ← requestPackets]
    have hbytes (a : ℕ) := oneByteRead_patch hin a
    rw [hcount] at hbytes
    refine ⟨hexact.1, hbytes, fun a ha => ?_⟩
    rw [hbytes, if_neg (by omega)]

end MapWrite

theorem and_erased (d : UInt8) : 0xFF &&& d = d := by
  rw [UInt8.and_comm]
  exact UInt8.and_neg_one

theorem map_write_capacity_blank :
    CapacityLaw ⟨true, fun _ => false⟩ ⟨List.replicate 256 0xFF, 0⟩ 5 4 (fun _ => 7) (· &&& ·) :=
  map_write_capacity _ _ _ _ _ and_erased

def strayByte : EfuseHal := ⟨0xFF :: 0x00 :: List.replicate 254 0xFF, 0⟩

theorem writeMap_stray (i : ℕ) : writeMap strayByte i = 0xFF := by
  have hread : readLoop strayByte.content 0 (fun _ => 0xFF) = (1, fun _ => 0xFF) := by
    rw [readLoop, if_pos (by decide)]
    exact if_pos (by decide)
  have hdata : (mapBefore strayByte).data = (List.range efuseMapLen).map fun _ => 0xFF := by
    have hin : ¬ efuseMapLen < 0 + efuseMapLen := by decide
    have hmax : ¬ efuseMaxMapLen < 0 + efuseMapLen := by decide
    simp only [mapBefore, rtwEfuseMapRead, if_neg hin, halReadEfuseWifi, if_neg hmax, hread]
  rw [writeMap, hdata, List.getD_eq_getElem?_getD, List.getElem?_map]
  cases (List.range efuseMapLen)[i]? with
  | none => rfl
  | some a => rfl

def strayChange : ℕ → UInt8 := Function.update (fun _ => 0xFF) 0 1

def strayPacket : PgPkt := halEfuseConstructPGPkt 0 0x0E strayChange

def strayFailed : List UInt8 := 0x0E :: 0x00 :: List.replicate 254 0xFF

theorem stray_first_packet :
    halEfusePgPacketWrite (· &&& ·) 256 strayByte 0 0x0E strayChange =
      halEfusePgPacketWrite (· &&& ·) 255 ⟨strayFailed, 0⟩ 0 0x0E strayPacket.data := by
  have hsize : halEfuseGetCurrentSizeWifi strayByte = (strayByte, 0) :=
    size_at_end (by decide : oneByteRead strayByte.content 0 = 0xFF)
  have hcheck : halEfusePartialWriteCheck strayByte = some 0 := by decide
  have hheader : halEfusePgPacketWriteHeader (· &&& ·) strayPacket strayByte.content 0 =
      (0x0E :: 0x00 :: List.replicate 254 0xFF, some 0) := by
    decide +kernel
  have hdata : halEfuseWordEnableDataWrite (· &&& ·) (0x0E :: 0x00 :: List.replicate 254 0xFF)
      (0 + 1) 0x0E strayPacket.data = (strayFailed, 0x0E) := by decide +kernel
  rw [strayPacket] at hheader hdata
  conv_lhs => rw [halEfusePgPacketWrite]
  rw [hsize]
  dsimp only
  rw [if_neg (by decide), hcheck]
  dsimp only
  rw [hheader]
  dsimp only
  rw [hdata]
  exact if_neg (by decide)

theorem stray_second_packet :
    ∃ content, halEfusePgPacketWrite (· &&& ·) 255 ⟨strayFailed, 0⟩ 0 0x0E strayPacket.data =
      (⟨content, 3⟩, true) ∧ oneByteRead content 3 = 0x0E := by
  have hat : AtHeader strayFailed 0 := by decide
  have hafter : afterPacket strayFailed 0 = 3 := by decide
  have hwalk : Walks strayFailed 0 3 := .next hat (fun hext => absurd hext (by decide)) (by
    rw [hafter]
    exact .here 3)
  have hsize := hwalk.size (by decide) hat
  have hheaded := headed (halEfuseConstructPGPkt 0 0x0E strayPacket.data) (by decide) (by decide)
  have hlen : (pgPacket _ hheaded).bytes.length = 3 := by
    rw [← PgPkt.bytes_eq]
    rfl
  have herased : Erased strayFailed 3 (pgPacket _ hheaded).bytes.length := by
    rw [hlen]
    exact ⟨by decide +kernel, by decide⟩
  have hin := herased.inside
  refine ⟨_, pgPacketWrite_erased and_erased hsize 254 hheaded (by decide) herased, ?_⟩
  rw [← PgPkt.bytes_eq] at hin ⊢
  exact oneByteRead_packet _ hin

theorem stray_byte_overruns :
    let r : RegistryPriv := ⟨true, fun _ => false⟩
    let w := rtwEfuseMapWrite (· &&& ·) r strayByte 0 1 fun _ => 1
    (writeStart strayByte).2 + writeTotal r strayByte 0 1 (fun _ => 1) = 3 ∧ w.2 = true ∧
      oneByteRead w.1.content 3 ≠ oneByteRead strayByte.content 3 := by
  intro r w
  have hmap : writeMap strayByte = fun _ => 0xFF := funext writeMap_stray
  have hread : readLoop strayByte.content 0 (fun _ => 0xFF) = (1, fun _ => 0xFF) := by
    rw [readLoop, if_pos (by decide)]
    exact if_pos (by decide)
  have hbefore := (mapBefore_efuse strayByte).2
  rw [hread] at hbefore
  have hstart : writeStart strayByte = (⟨strayByte.content, 0⟩, 0) := by
    rw [writeStart, hbefore]
    exact size_at_end (by decide)
  have hchanges : changesAt (efuseImage r (fun _ => 0xFF) 0 1 fun _ => 1) (fun _ => 0xFF) 0 1 0 0 =
      ⟨1, 0x0E, Function.update (fun _ => 0xFF) 0 1⟩ := by
    rw [changesAt, sectionChanges, if_pos (by decide), sectionChanges, if_neg (by decide)]
    rfl
  have htotal : writeTotal r strayByte 0 1 (fun _ => 1) = 3 := by
    rw [writeTotal, hmap, chkTotalByte_step (by decide), hchanges, chkTotalByte,
      if_neg (by decide)]
    rfl
  obtain ⟨content, hsecond, hbyte⟩ := stray_second_packet
  have hw : w = (⟨content, 3⟩, true) := by
    change rtwEfuseMapWrite _ r strayByte 0 1 _ = _
    rw [rtwEfuseMapWrite_cases r strayByte 0 1 _ (by decide), hstart, htotal, hmap,
      if_neg (by decide), writeLoop, if_pos (by decide), hchanges]
    dsimp only
    rw [if_pos (by decide), efuseRealContentLen]
    have hfirst := stray_first_packet.trans hsecond
    rw [strayByte, strayChange] at hfirst
    have hoffset : UInt8.ofNat (0 / 8) = 0 := rfl
    rw [hoffset, strayByte, hfirst]
    dsimp only
    rw [writeLoop, if_neg (by decide)]
  rw [hw]
  refine ⟨by rw [hstart, htotal], rfl, ?_⟩
  rw [hbyte]
  decide

end Efuse
